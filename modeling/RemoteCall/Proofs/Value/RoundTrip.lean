/-
# Generic values survive the wire

Values written in turn to one stream are read back, without the null fields of their objects, and
whatever follows the stream does not matter.  Writing succeeds exactly on the values that are
`Writable` and nested at most 512 deep.

What is written is the trees of the values, so both halves are statements about trees: the values
that have one, and what the tree of a value means.
-/
import RemoteCall.Proofs.Value.Grammar
import RemoteCall.Proofs.Value.Writing

namespace RemoteCall.Value

open Wire

/-- Values are written to a stream as their trees, and then the terminator. -/
theorem toBytes_writeItems_ok {values : List Value} {bytes : Bytes} :
    Writer.toBytes (writeItems values) = .ok bytes ↔
      ∃ trees, itemTrees? values = some trees ∧ (∀ tree ∈ trees, tree.depth ≤ maxDepth) ∧
        bytes = trees.flatMap Tree.bytes ++ [0x00] :=
  Writer.toBytes_eq_ok_iff (writesAll_writeItems values (by simp))

theorem itemsNesting_le_iff {n : Nat} {values : List Value} :
    itemsNesting values ≤ n ↔ ∀ value ∈ values, value.nesting ≤ n := by
  induction values with
  | nil => simp [itemsNesting]
  | cons value values ih => simp only [itemsNesting, Nat.max_le, ih, List.forall_mem_cons]

theorem stripItems_eq_map (values : List Value) : stripItems values = values.map strip := by
  induction values with
  | nil => rfl
  | cons value values ih => rw [stripItems, ih, List.map_cons]

/-- The trees of values are as deep as the values are nested. -/
theorem forall_depth_le_iff {values : List Value} {trees : List Tree}
    (h : itemTrees? values = some trees) {n : Nat} :
    (∀ tree ∈ trees, tree.depth ≤ n) ↔ ∀ value ∈ values, value.nesting ≤ n := by
  rw [← Tree.itemsDepth_le_iff, depth_of_itemTrees? h, itemsNesting_le_iff]

/-- **Writing values succeeds exactly if they are writable and not nested too deep**, and then all
of them are read back without their null fields, whatever follows. -/
theorem write_roundTrip (values : List Value) :
    ((∃ bytes, Writer.toBytes (writeItems values) = .ok bytes) ↔
      ∀ value ∈ values, value.Writable ∧ value.nesting ≤ 512) ∧
    ∀ bytes, Writer.toBytes (writeItems values) = .ok bytes → (∀ value ∈ values, value.Ordered) →
      ∀ suffix, dump (bytes ++ suffix) = .ok (values.map strip) := by
  constructor
  · rw [forall₂_and, ← exists_itemTrees?_iff]
    simp only [toBytes_writeItems_ok]
    constructor
    · rintro ⟨_, trees, htrees, hdepth, -⟩
      exact ⟨⟨trees, htrees⟩, (forall_depth_le_iff htrees).mp hdepth⟩
    · rintro ⟨⟨trees, htrees⟩, hnesting⟩
      exact ⟨_, trees, htrees, (forall_depth_le_iff htrees).mpr hnesting, rfl⟩
  · intro bytes hbytes hordered suffix
    obtain ⟨trees, htrees, hdepth, rfl⟩ := toBytes_writeItems_ok.mp hbytes
    rw [← stripItems_eq_map, ← values_of_itemTrees? hordered htrees, Tree.itemValues_eq_map,
      List.append_assoc]
    exact dump_stream hdepth (.inr ⟨suffix, rfl⟩)

/-- An object with a null field, and a number after it, before a byte that is not read. -/
theorem write_roundTrip_null_field :
    ∃ bytes, Writer.toBytes (writeItems
        [.object [("a", .array [.integer (-3), .bool true]), ("b", .null)], .integer 9]) =
          .ok bytes ∧
      dump (bytes ++ [0xff]) =
        .ok [.object [("a", .array [.integer (-3), .bool true])], .integer 9] := by
  have hordered : ∀ value ∈ [Value.object [("a", .array [.integer (-3), .bool true]), ("b", .null)],
      Value.integer 9], value.Ordered := by
    intro value hvalue
    simp only [List.mem_cons, List.not_mem_nil, or_false] at hvalue
    rcases hvalue with rfl | rfl
    · refine .object (List.pairwise_pair.mpr (by decide)) ?_
      intro field hfield
      simp only [List.mem_cons, List.not_mem_nil, or_false] at hfield
      rcases hfield with rfl | rfl
      · refine .array ?_
        intro item hitem
        simp only [List.mem_cons, List.not_mem_nil, or_false] at hitem
        rcases hitem with rfl | rfl
        · exact .integer (-3)
        · exact .bool true
      · exact .null
    · exact .integer 9
  exact ⟨_, rfl, (write_roundTrip _).2 _ rfl hordered [0xff]⟩

end RemoteCall.Value
