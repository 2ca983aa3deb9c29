/-
# Generic reading accepts exactly the wire grammar

A generic value is read by looking at the next token and reading on accordingly.  This module shows
that the bytes so accepted are those derived by the trees of the grammar, nested no deeper than the
limit, and that the value read is the meaning of the tree: `recognizes_readWithin` for one value at
any nesting, `readAll_ok` for the values of a stream and `dump_eq_ok_iff` for a whole byte string.

The recursion of the reader is bounded by a budget.  It is never what stops a reading: a budget
beyond the room that is left for nesting reads every tree that fits.
-/
import RemoteCall.Proofs.Value.Fields
import RemoteCall.Proofs.Wire.Recognizer
import RemoteCall.Value.Codec

namespace RemoteCall.Value

open Wire Wire.Reader Success

variable {bytes : Bytes} {position : Nat} {scopes : List Scope} {after : Reader}

/-! ## 1. One value -/

theorem value_array (items : List Tree) :
    (Tree.array items).value = .array (items.map Tree.value) := by
  rw [Tree.value, Tree.itemValues_eq_map]

/-- The fields of an object are put in one after the other. -/
theorem value_object (entries : List (SizedText 2 × Tree)) :
    (Tree.object entries).value = .object (entries.foldl
      (fun (fields : Fields Value) entry => fields.insert entry.1.text entry.2.value) []) := by
  rw [Tree.value, Tree.entryValues_eq_map, Fields.ofList, List.foldl_map]

/-- The fields of an object are in order, and the last entry of a name is the field's value. -/
theorem fields_of_value_object (entries : List (SizedText 2 × Tree)) :
    ∃ fields : Fields Value, (Tree.object entries).value = .object fields ∧ fields.Ordered ∧
      ∀ name, fields.get? name =
        (entries.map fun entry => (entry.1.text, entry.2.value)).reverse.lookup name := by
  rw [Tree.value, Tree.entryValues_eq_map]
  exact ⟨_, rfl, Fields.ordered_ofList _, Fields.get?_ofList _⟩

/-- **Generic reading recognizes every value**, as far as the nesting limit allows, by its
meaning.  The induction is on the budget. -/
theorem recognizes_readWithin : ∀ {budget : Nat} {scopes : List Scope}, room scopes < budget →
    Recognizes (readWithin budget) scopes (fun tree => some tree.value)
  | 0, _, h => absurd h (Nat.not_lt_zero _)
  | budget + 1, scopes, h => by
    have inside : ∀ scope, scopes.length < maxDepth →
        Recognizes (readWithin budget) (scope :: scopes) (fun tree => some tree.value) := by
      intro scope hroom
      exact recognizes_readWithin (room_cons_lt hroom h)
    have number : Recognizes _ scopes _ := recognizes_number.map fun n => Value.integer n.toInt
    have string : Recognizes _ scopes _ := recognizes_string.map Value.string
    have boolean : Recognizes _ scopes _ := recognizes_boolean.map Value.bool
    have array := recognizes_items Value.array (inside .array)
    have object := recognizes_object Value.object ([] : Fields Value)
      fun hroom (fields : Fields Value) name =>
        (inside .object hroom).map fun value => fields.insert name value
    intro bytes position token value after
    -- the token is looked at already, so `peek` answers it and the reading is that of its branch
    cases token
    case number =>
      exact number.at fun tree htoken => by cases tree <;> cases htoken; rfl
    case string =>
      exact string.at fun tree htoken => by cases tree <;> cases htoken; rfl
    case boolean =>
      exact boolean.at fun tree htoken => by cases tree <;> cases htoken; rfl
    case beginArray =>
      refine array.at fun tree htoken => ?_
      cases tree <;> cases htoken
      rename_i items
      have hitems : items.mapM (fun item => some item.value) = some (items.map Tree.value) :=
        List.mapM_pure
      rw [value_array, Tree.items?, Option.bind_some, hitems, Option.map_some]
    case beginObject =>
      refine object.at fun tree htoken => ?_
      cases tree <;> cases htoken
      rename_i entries
      rw [value_object, Tree.entries?, Option.bind_some]
      exact congrArg (Option.map Value.object) List.foldlM_pure
    all_goals exact not_recognized rfl fun _ _ h => by cases h

theorem recognizes_read : Recognizes read scopes (fun tree => some tree.value) :=
  recognizes_readWithin (Nat.lt_succ_of_le (room_le scopes))

theorem looksFirst_read : LooksFirst read :=
  looksFirst_peek.bind _

/-! ## 2. Whole streams -/

theorem room_nil : room [] = maxDepth := rfl

theorem exists_ends_none_iff {tail : Bytes} : (∃ rest, Ends none tail rest) ↔ EndsStream tail := by
  constructor
  · rintro ⟨rest, rfl | ⟨-, rfl, -⟩⟩
    · exact .inr ⟨rest, rfl⟩
    · exact .inl rfl
  · rintro (rfl | ⟨rest, rfl⟩)
    · exact ⟨[], .inr ⟨rfl, rfl, rfl⟩⟩
    · exact ⟨rest, .inl rfl⟩

/-- **The values of a stream**, from its start to its end. -/
theorem readAll_ok {values : List Value} :
    readAll (ofBytes bytes) = .ok values after ↔
      ∃ (trees : List Tree) (tail rest : Bytes), (∀ tree ∈ trees, tree.depth ≤ maxDepth) ∧
        trees.map Tree.value = values ∧ bytes = trees.flatMap Tree.bytes ++ tail ∧
        Ends none tail rest ∧ after = atEnd [] rest (bytes.length - rest.length) := by
  have hread : Recognizes read [] (fun tree => some tree.value) := recognizes_read
  have hmap : ∀ trees : List Tree,
      trees.mapM (fun tree => some tree.value) = some (trees.map Tree.value) :=
    fun _ => List.mapM_pure
  unfold readAll ofBytes
  simp only [bind_ok, discard_ok, pure_ok, items_ok hread (by simp), hmap, Option.some.injEq,
    List.head?_nil, room_nil, Nat.zero_add]
  constructor
  · rintro ⟨_, _, ⟨trees, tail, rest, hdepth, rfl, hbytes, hends, rfl⟩, _, _, ⟨_, hfinish⟩, h⟩
    obtain ⟨rfl, rfl⟩ := h
    obtain ⟨-, -, rfl⟩ := finish_ok.mp hfinish
    exact ⟨trees, tail, rest, hdepth, rfl, hbytes, hends, rfl⟩
  · rintro ⟨trees, tail, rest, hdepth, rfl, hbytes, hends, rfl⟩
    exact ⟨_, _, ⟨trees, tail, rest, hdepth, rfl, hbytes, hends, rfl⟩, (), _,
      ⟨rest, finish_ok.mpr ⟨rfl, rfl, rfl⟩⟩, rfl, rfl⟩

/-- The values of a stream are read whatever ends it. -/
theorem dump_stream {trees : List Tree} {tail : Bytes}
    (hdepth : ∀ tree ∈ trees, tree.depth ≤ maxDepth) (htail : EndsStream tail) :
    dump (trees.flatMap Tree.bytes ++ tail) = .ok (trees.map Tree.value) := by
  obtain ⟨rest, hends⟩ := exists_ends_none_iff.mpr htail
  exact onBytes_ok.mpr ⟨_, readAll_ok.mpr ⟨trees, tail, rest, hdepth, rfl, rfl, hends, rfl⟩⟩

/-- **A byte string is read exactly if the grammar derives it**, and what is read is its meaning:
values nested at most 512 deep, and then the end of the bytes or the terminator and anything. -/
theorem dump_eq_ok_iff (bytes : Bytes) (values : List Value) :
    dump bytes = .ok values ↔
      ∃ (trees : List Tree) (tail : Bytes), bytes = trees.flatMap Tree.bytes ++ tail ∧
        EndsStream tail ∧ (∀ tree ∈ trees, tree.depth ≤ 512) ∧
        values = trees.map Tree.value := by
  constructor
  · intro h
    obtain ⟨_, hread⟩ := onBytes_ok.mp h
    obtain ⟨trees, tail, rest, hdepth, rfl, rfl, hends, -⟩ := readAll_ok.mp hread
    exact ⟨trees, tail, rfl, exists_ends_none_iff.mp ⟨rest, hends⟩, hdepth, rfl⟩
  · rintro ⟨trees, tail, rfl, htail, hdepth, rfl⟩
    exact dump_stream hdepth htail

end RemoteCall.Value
