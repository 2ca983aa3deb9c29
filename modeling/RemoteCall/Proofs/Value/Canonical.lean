/-
# Reading and writing again puts a stream in canonical form

The format leaves three things open: what follows the terminator, or whether there is one; the order
of the entries of an object; and entries that a later one of their name replaces.  Whatever can be read
can be written again, and that settles all three (`recode_canonical`): the terminator ends the bytes,
and the names in every object increase, byte by byte (`Tree.InOrder`).  Bytes of that form stay as
they are, and no others do.

The argument is about trees.  A tree that was read means a value that has a tree itself
(`writable_value`), nested no deeper (`nesting_value_le`) and of the same meaning (`strip_value`); the
tree of an ordered value is in order (`inOrder_of_tree?`), and a tree that is in order is the tree of
its value (`tree?_value_of_inOrder`).
-/
import RemoteCall.Proofs.Text.Order
import RemoteCall.Proofs.Value.RoundTrip
import RemoteCall.Proofs.Wire.Unambiguous

namespace RemoteCall.Wire

/-- The names in every object increase, in the order of their UTF-8 bytes. -/
inductive Tree.InOrder : Tree → Prop
  | number (n : Int64) : InOrder (.number n)
  | string (text : SizedText 4) : InOrder (.string text)
  | boolean (b : Bool) : InOrder (.boolean b)
  | array {items : List Tree} (items_inOrder : ∀ item ∈ items, InOrder item) :
    InOrder (.array items)
  | object {entries : List (SizedText 2 × Tree)}
    (names_increase : entries.Pairwise fun entry later =>
      Bytes.ofString entry.1.text < Bytes.ofString later.1.text)
    (values_inOrder : ∀ entry ∈ entries, InOrder entry.2) : InOrder (.object entries)

end RemoteCall.Wire

namespace RemoteCall.Value

open Wire

/-! ## 1. What is read can be written -/

theorem isNull_value (tree : Tree) : tree.value.isNull = false := by
  cases tree <;> rfl

/-- A field of an object that was read stands in one of its entries. -/
theorem mem_fields {entries : List (SizedText 2 × Tree)} {field : String × Value}
    (h : field ∈ Fields.ofList (Tree.entryValues entries)) :
    ∃ entry ∈ entries, field = (entry.1.text, entry.2.value) := by
  have hentry := Fields.mem_ofList h
  rw [Tree.entryValues_eq_map, List.mem_map] at hentry
  obtain ⟨entry, hentry, rfl⟩ := hentry
  exact ⟨entry, hentry, rfl⟩

/-- **A value that was read can be written.** -/
theorem writable_value (tree : Tree) : tree.value.Writable := by
  induction tree using Tree.induct with
  | number n =>
    obtain ⟨hleast, hgreatest⟩ := exists_toInt64?_iff.mp ⟨n, toInt64?_toInt n⟩
    exact .integer hleast hgreatest
  | string text => exact .string text.fits
  | boolean b => exact .bool b
  | array items ih =>
    rw [value_array]
    refine .array fun item hitem => ?_
    obtain ⟨tree, htree, rfl⟩ := List.mem_map.mp hitem
    exact ih tree htree
  | object entries ih =>
    rw [Tree.value]
    refine .object (fun field hfield _ => ?_) fun field hfield _ => ?_
    · obtain ⟨entry, -, rfl⟩ := mem_fields hfield
      exact entry.1.fits
    · obtain ⟨entry, hentry, rfl⟩ := mem_fields hfield
      exact ih entry hentry

theorem ordered_value (tree : Tree) : tree.value.Ordered := by
  induction tree using Tree.induct with
  | number n => exact .integer _
  | string text => exact .string _
  | boolean b => exact .bool b
  | array items ih =>
    rw [value_array]
    refine .array fun item hitem => ?_
    obtain ⟨tree, htree, rfl⟩ := List.mem_map.mp hitem
    exact ih tree htree
  | object entries ih =>
    rw [Tree.value]
    refine .object (Fields.ordered_ofList _) fun field hfield => ?_
    obtain ⟨entry, hentry, rfl⟩ := mem_fields hfield
    exact ih entry hentry

/-- **A value is nested no deeper than what it was read from.**  It may be nested less deep: an entry
that is replaced does not count. -/
theorem nesting_value_le (tree : Tree) : tree.value.nesting ≤ tree.depth := by
  induction tree using Tree.induct with
  | number n => exact le_rfl
  | string text => exact le_rfl
  | boolean b => exact le_rfl
  | array items ih =>
    rw [value_array, nesting, Tree.depth, Nat.add_le_add_iff_right, itemsNesting_le_iff]
    intro value hvalue
    obtain ⟨item, hitem, rfl⟩ := List.mem_map.mp hvalue
    exact (ih item hitem).trans (Tree.itemsDepth_le_iff.mp le_rfl item hitem)
  | object entries ih =>
    rw [Tree.value, nesting, Tree.depth, Nat.add_le_add_iff_right, fieldsNesting_le_iff]
    intro field hfield
    obtain ⟨entry, hentry, rfl⟩ := mem_fields hfield
    exact (ih entry hentry).trans (Tree.entriesDepth_le_iff.mp le_rfl entry hentry)

theorem stripFields_eq_self : ∀ {fields : List (String × Value)},
    (∀ field ∈ fields, field.2.isNull = false ∧ field.2.strip = field.2) →
    stripFields fields = fields
  | [], _ => rfl
  | (name, value) :: fields, h => by
    obtain ⟨⟨hnull, hstrip⟩, hfields⟩ := List.forall_mem_cons.mp h
    rw [stripFields, hnull, hstrip, stripFields_eq_self hfields]
    rfl

/-- No field of a value that was read is null. -/
theorem strip_value (tree : Tree) : tree.value.strip = tree.value := by
  induction tree using Tree.induct with
  | number n => rfl
  | string text => rfl
  | boolean b => rfl
  | array items ih =>
    rw [value_array, strip, stripItems_eq_map, List.map_map]
    exact congrArg Value.array (List.map_congr_left ih)
  | object entries ih =>
    rw [Tree.value, strip, stripFields_eq_self]
    intro field hfield
    obtain ⟨entry, hentry, rfl⟩ := mem_fields hfield
    exact ⟨isNull_value entry.2, ih entry hentry⟩

/-! ## 2. Trees in order -/

theorem itemTrees?_map : ∀ {items : List Tree},
    (∀ item ∈ items, item.value.tree? = some item) →
    itemTrees? (items.map Tree.value) = some items
  | [], _ => rfl
  | item :: items, h => by
    obtain ⟨hitem, hitems⟩ := List.forall_mem_cons.mp h
    rw [List.map_cons, itemTrees?, hitem, itemTrees?_map hitems]
    rfl

theorem entryTrees?_entryValues : ∀ {entries : List (SizedText 2 × Tree)},
    (∀ entry ∈ entries, entry.2.value.tree? = some entry.2) →
    entryTrees? (Tree.entryValues entries) = some entries
  | [], _ => rfl
  | (name, tree) :: entries, h => by
    obtain ⟨htree, hentries⟩ := List.forall_mem_cons.mp h
    have hname : SizedText.of? name.text = some name := SizedText.of?_eq_some_iff.mpr rfl
    rw [Tree.entryValues, entryTrees?, isNull_value, hname, htree, entryTrees?_entryValues hentries]
    rfl

/-- **A tree in order is written as it was read.** -/
theorem tree?_value_of_inOrder (tree : Tree) : tree.InOrder → tree.value.tree? = some tree := by
  induction tree using Tree.induct with
  | number n =>
    intro _
    rw [Tree.value, tree?, toInt64?_toInt]
    rfl
  | string text =>
    intro _
    rw [Tree.value, tree?, SizedText.of?_eq_some_iff.mpr rfl]
    rfl
  | boolean b => exact fun _ => rfl
  | array items ih =>
    intro h
    cases h with
    | array hitems =>
      rw [value_array, tree?, itemTrees?_map fun item hitem => ih item hitem (hitems item hitem)]
      rfl
  | object entries ih =>
    intro h
    cases h with
    | object hnames hvalues =>
      have hordered : Fields.Ordered (Tree.entryValues entries) := by
        rw [Tree.entryValues_eq_map, Fields.Ordered, List.pairwise_map]
        exact hnames.imp Bytes.ofString_lt_iff.mp
      rw [Tree.value, tree?, Fields.ofList_of_ordered hordered,
        entryTrees?_entryValues fun entry hentry => ih entry hentry (hvalues entry hentry)]
      rfl

mutual

/-- **What an ordered value is written as is in order.** -/
theorem inOrder_of_tree? : ∀ {value : Value} {tree : Tree}, value.Ordered →
    value.tree? = some tree → tree.InOrder
  | null, _, _, h => by cases h
  | bool b, _, _, h => by
    cases h
    exact .boolean b
  | integer n, _, _, h => by
    obtain ⟨word, -, rfl⟩ := Option.map_eq_some_iff.mp h
    exact .number word
  | fraction _, _, _, h => by cases h
  | string _, _, _, h => by
    obtain ⟨sized, -, rfl⟩ := Option.map_eq_some_iff.mp h
    exact .string sized
  | array items, _, .array hitems, h => by
    obtain ⟨trees, htrees, rfl⟩ := Option.map_eq_some_iff.mp h
    exact .array (inOrder_of_itemTrees? hitems htrees)
  | object fields, _, .object hordered hvalues, h => by
    obtain ⟨entries, hentries, rfl⟩ := Option.map_eq_some_iff.mp h
    have hsorted : Fields.Ordered (Tree.entryValues entries) := by
      rw [values_of_entryTrees? hvalues hentries]
      exact hordered.of_sublist (names_stripFields fields)
    rw [Tree.entryValues_eq_map, Fields.Ordered, List.pairwise_map] at hsorted
    exact .object (hsorted.imp Bytes.ofString_lt_iff.mpr) (inOrder_of_entryTrees? hvalues hentries)

theorem inOrder_of_itemTrees? : ∀ {items : List Value} {trees : List Tree},
    (∀ item ∈ items, item.Ordered) → itemTrees? items = some trees → ∀ tree ∈ trees, tree.InOrder
  | [], _, _, h => by
    cases h
    exact fun _ htree => absurd htree List.not_mem_nil
  | item :: items, _, hordered, h => by
    obtain ⟨hitem, hitems⟩ := List.forall_mem_cons.mp hordered
    obtain ⟨tree, htree, h⟩ := Option.bind_eq_some_iff.mp h
    obtain ⟨trees, htrees, rfl⟩ := Option.map_eq_some_iff.mp h
    exact List.forall_mem_cons.mpr
      ⟨inOrder_of_tree? hitem htree, inOrder_of_itemTrees? hitems htrees⟩

theorem inOrder_of_entryTrees? : ∀ {fields : List (String × Value)}
    {entries : List (SizedText 2 × Tree)}, (∀ field ∈ fields, field.2.Ordered) →
    entryTrees? fields = some entries → ∀ entry ∈ entries, entry.2.InOrder
  | [], _, _, h => by
    cases h
    exact fun _ hentry => absurd hentry List.not_mem_nil
  | (name, value) :: fields, entries, hordered, h => by
    obtain ⟨hvalue, hvalues⟩ := List.forall_mem_cons.mp hordered
    unfold entryTrees? at h
    split at h
    · exact inOrder_of_entryTrees? hvalues h
    · obtain ⟨sized, -, h⟩ := Option.bind_eq_some_iff.mp h
      obtain ⟨tree, htree, h⟩ := Option.bind_eq_some_iff.mp h
      obtain ⟨entries, hentries, rfl⟩ := Option.map_eq_some_iff.mp h
      exact List.forall_mem_cons.mpr
        ⟨inOrder_of_tree? hvalue htree, inOrder_of_entryTrees? hvalues hentries⟩

end

/-! ## 3. Streams -/

/-- The values of a stream, written to a new one. -/
def recode (bytes : Bytes) : Except Error Bytes := do
  Writer.toBytes (writeItems (← dump bytes))

theorem recode_of_dump {bytes : Bytes} {values : List Value} (h : dump bytes = .ok values) :
    recode bytes = Writer.toBytes (writeItems values) := by
  rw [recode, h]
  rfl

/-- What is read has a derivation. -/
theorem derivation_of_dump {bytes : Bytes} {values : List Value} (h : dump bytes = .ok values) :
    ∃ trees tail, Derivation bytes trees tail ∧ (∀ tree ∈ trees, tree.depth ≤ maxDepth) ∧
      trees.map Tree.value = values := by
  obtain ⟨_, hread⟩ := Reader.onBytes_ok.mp h
  obtain ⟨trees, tail, rest, hdepth, hvalues, hbytes, hends, -⟩ := readAll_ok.mp hread
  exact ⟨trees, tail, ⟨hbytes, exists_ends_none_iff.mp ⟨rest, hends⟩⟩, hdepth, hvalues⟩

/-- The trees that the meanings of trees are written as: the same values, none nested deeper. -/
theorem exists_trees_of_values {trees : List Tree}
    (hdepth : ∀ tree ∈ trees, tree.depth ≤ maxDepth) :
    ∃ canonical, itemTrees? (trees.map Tree.value) = some canonical ∧
      (∀ tree ∈ canonical, tree.depth ≤ maxDepth) ∧ (∀ tree ∈ canonical, tree.InOrder) ∧
      canonical.map Tree.value = trees.map Tree.value := by
  obtain ⟨canonical, hcanonical⟩ := (exists_itemTrees?_iff (trees.map Tree.value)).mpr
    (List.forall_mem_map.mpr fun tree _ => writable_value tree)
  have hordered : ∀ value ∈ trees.map Tree.value, value.Ordered :=
    List.forall_mem_map.mpr fun tree _ => ordered_value tree
  have hnesting : ∀ value ∈ trees.map Tree.value, value.nesting ≤ maxDepth :=
    List.forall_mem_map.mpr fun tree htree => (nesting_value_le tree).trans (hdepth tree htree)
  refine ⟨canonical, hcanonical, (forall_depth_le_iff hcanonical).mpr hnesting,
    inOrder_of_itemTrees? hordered hcanonical, ?_⟩
  rw [← Tree.itemValues_eq_map, values_of_itemTrees? hordered hcanonical, stripItems_eq_map,
    List.map_map]
  exact List.map_congr_left fun tree _ => strip_value tree

/-- **Reading and writing again is a canonical form.**  What can be read can be written; what is
written is read as the same values and written as the same bytes; and these are the bytes that were
read exactly if they end at the terminator and the names of every object in them increase.  The
objects are those of the one derivation the bytes have. -/
theorem recode_canonical (bytes : Bytes) (values : List Value) (h : dump bytes = .ok values) :
    ∃ canonical, Writer.toBytes (writeItems values) = .ok canonical ∧
      recode bytes = .ok canonical ∧ dump canonical = .ok values ∧
      recode canonical = .ok canonical ∧
      ∃ trees tail, Derivation bytes trees tail ∧
        (∀ trees' tail', Derivation bytes trees' tail' → trees' = trees ∧ tail' = tail) ∧
        (canonical = bytes ↔ tail = [0x00] ∧ ∀ tree ∈ trees, tree.InOrder) := by
  obtain ⟨trees, tail, hderivation, hdepth, rfl⟩ := derivation_of_dump h
  obtain ⟨canonical, htrees, hcanonical, hsorted, hsame⟩ := exists_trees_of_values hdepth
  have hwritten : Writer.toBytes (writeItems (trees.map Tree.value)) =
      .ok (canonical.flatMap Tree.bytes ++ [0x00]) :=
    toBytes_writeItems_ok.mpr ⟨canonical, htrees, hcanonical, rfl⟩
  have hdump : dump (canonical.flatMap Tree.bytes ++ [0x00]) = .ok (trees.map Tree.value) := by
    rw [← hsame]
    exact dump_stream hcanonical (.inr ⟨[], rfl⟩)
  refine ⟨_, hwritten, (recode_of_dump h).trans hwritten, hdump,
    (recode_of_dump hdump).trans hwritten, trees, tail, hderivation,
    fun _ _ h' => h'.unique hderivation, ?_⟩
  constructor
  · intro hbytes
    obtain ⟨rfl, rfl⟩ := hderivation.unique ⟨hbytes.symm, .inr ⟨[], rfl⟩⟩
    exact ⟨rfl, hsorted⟩
  · rintro ⟨rfl, hinOrder⟩
    have hitems : itemTrees? (trees.map Tree.value) = some trees :=
      itemTrees?_map fun tree htree => tree?_value_of_inOrder tree (hinOrder tree htree)
    obtain rfl := Option.some.inj (hitems.symm.trans htrees)
    exact hderivation.bytes_eq.symm

/-- An object whose names decrease and repeat, and a byte after the terminator. -/
theorem recode_canonical_disordered :
    dump [0x06, 0x03, 0, 1, 0x62, 0, 0x03, 0, 1, 0x61, 1, 0x03, 0, 1, 0x62, 1, 0x07, 0x00, 0xff] =
        .ok [.object [("a", .bool true), ("b", .bool true)]] ∧
      ∃ canonical, recode [0x06, 0x03, 0, 1, 0x62, 0, 0x03, 0, 1, 0x61, 1, 0x03, 0, 1, 0x62, 1,
          0x07, 0x00, 0xff] = .ok canonical ∧
        canonical = [0x06, 0x03, 0, 1, 0x61, 1, 0x03, 0, 1, 0x62, 1, 0x07, 0x00] ∧
        recode canonical = .ok canonical := by
  let tree : Tree := .object [(⟨"b", by decide⟩, .boolean false),
    (⟨"a", by decide⟩, .boolean true), (⟨"b", by decide⟩, .boolean true)]
  have hdepth : ∀ other ∈ [tree], other.depth ≤ maxDepth :=
    List.forall_mem_singleton.mpr (by decide)
  have hbytes : [0x06, 0x03, 0, 1, 0x62, 0, 0x03, 0, 1, 0x61, 1, 0x03, 0, 1, 0x62, 1, 0x07, 0x00,
      0xff] = [tree].flatMap Tree.bytes ++ [0x00, 0xff] := rfl
  have hdump : dump ([tree].flatMap Tree.bytes ++ [0x00, 0xff]) = .ok ([tree].map Tree.value) :=
    dump_stream hdepth (.inr ⟨[0xff], rfl⟩)
  obtain ⟨canonical, hwritten, hrecode, -, hagain, -⟩ := recode_canonical _ _ hdump
  rw [hbytes]
  refine ⟨hdump, canonical, hrecode, ?_, hagain⟩
  cases hwritten
  rfl

end RemoteCall.Value
