/-
# Declared types and generic values agree on the wire

Whoever reads a stream without knowing the declared type of its value sees a generic value.
`Datum.generic` is what they see: an option shows what is in it, a map the object of its entries and
a model the object of its members, each under its wire name; what is absent does not show.

A value is written as its tree, so this is a statement about trees again: the tree of a value means
its generic view (`value_of_tree?`).  The other half is which values have no tree: those that are
absent, and those with an absent element in some list or generic array (`tree?_of_gapped`).
-/
import RemoteCall.Proofs.Typed.RoundTrip

namespace RemoteCall

open Wire

/-! ## 1. The generic view of a value -/

mutual

/-- A value of a type as a generic reader sees it.  Nothing is to be seen of an absent one. -/
def Datum.generic (catalog : Catalog) : Datum → Ty → Value
  | .integer n, _ => .integer n
  | .bool b, _ => .bool b
  | .string text, _ => .string text
  | .instant nanoseconds, _ => .integer (nanoseconds.tdiv Instant.nanosPerSecond)
  | .value generic, _ => generic.strip
  | .some datum, .option inner => datum.generic catalog inner
  | .list items, .list element => .array (genericItems catalog items element)
  | .map entries, .map _ element => .object (Fields.ofList (genericEntries catalog entries element))
  | .record values, .model name =>
    .object (Fields.ofList (genericMembers catalog values ((catalog.lookup name).getD [])))
  | _, _ => .null

/-- The elements of a list as a generic reader sees them. -/
def Datum.genericItems (catalog : Catalog) : List Datum → Ty → List Value
  | [], _ => []
  | item :: items, element => item.generic catalog element :: genericItems catalog items element

/-- The entries of a map that are not absent, as a generic reader sees them. -/
def Datum.genericEntries (catalog : Catalog) : List (String × Datum) → Ty → List (String × Value)
  | [], _ => []
  | (name, datum) :: entries, element =>
    if datum.isAbsent then genericEntries catalog entries element
    else (name, datum.generic catalog element) :: genericEntries catalog entries element

/-- The members of a record that are not absent, under their wire names. -/
def Datum.genericMembers (catalog : Catalog) : List Datum → List Member → List (String × Value)
  | datum :: values, member :: members =>
    if datum.isAbsent then genericMembers catalog values members
    else (member.wireName, datum.generic catalog member.type) ::
      genericMembers catalog values members
  | _, _ => []

end

namespace Datum

variable {catalog : Catalog}

theorem names_genericEntries : ∀ (entries : List (String × Datum)) (element : Ty),
    ((genericEntries catalog entries element).map (·.1)).Sublist (entries.map (·.1))
  | [], _ => by
    rw [genericEntries]
    exact .slnil
  | (name, datum) :: entries, element => by
    unfold genericEntries
    split
    · exact (names_genericEntries entries element).cons name
    · exact (names_genericEntries entries element).cons_cons name

theorem names_genericMembers : ∀ (values : List Datum) (members : List Member),
    ((genericMembers catalog values members).map (·.1)).Sublist (members.map (·.wireName))
  | datum :: values, member :: members => by
    unfold genericMembers
    split
    · exact (names_genericMembers values members).cons member.wireName
    · exact (names_genericMembers values members).cons_cons member.wireName
  | [], members => by
    rw [genericMembers]
    · exact List.nil_sublist _
    all_goals simp
  | _ :: _, [] => by
    rw [genericMembers]
    · exact List.nil_sublist _
    all_goals simp

/-- A map shows all of its entries that are not absent. -/
theorem generic_map {entries : List (String × Datum)} {type : Ty}
    (htype : HasType catalog (.map entries) type) :
    ∃ element fields, (Datum.map entries).generic catalog type = .object fields ∧
      fields.Perm (genericEntries catalog entries element) ∧ Fields.Ordered fields := by
  have hshown : ∀ {kind element}, (entries.map (·.1)).Nodup →
      ∃ element' fields, (Datum.map entries).generic catalog (.map kind element) = .object fields ∧
        fields.Perm (genericEntries catalog entries element') ∧ Fields.Ordered fields := by
    intro kind element hdistinct
    refine ⟨element, _, by rw [generic], Fields.perm_ofList ?_, Fields.ordered_ofList _⟩
    exact hdistinct.sublist (names_genericEntries entries element)
  cases htype with
  | sorted hordered =>
    have hdistinct : (entries.map (·.1)).Pairwise (· < ·) := List.pairwise_map.mpr hordered
    exact hshown (hdistinct.imp fun hlt => ne_of_lt hlt)
  | hashed hdistinct => exact hshown hdistinct

/-- A model whose members share no wire name shows all of them that are not absent. -/
theorem generic_record {values : List Datum} {name : String} {members : List Member}
    (hfound : catalog.lookup name = Option.some members)
    (hdistinct : (members.map (·.wireName)).Nodup) :
    ∃ fields, (Datum.record values).generic catalog (.model name) = .object fields ∧
      fields.Perm (genericMembers catalog values members) ∧ Fields.Ordered fields := by
  refine ⟨_, by rw [generic, hfound, Option.getD_some], Fields.perm_ofList ?_,
    Fields.ordered_ofList _⟩
  exact hdistinct.sublist (names_genericMembers values members)

end Datum

/-- A map of whatever kind has entries of its element type. -/
theorem HasType.of_map {catalog : Catalog} {entries : List (String × Datum)} {type : Ty}
    (h : HasType catalog (.map entries) type) :
    ∃ kind element, type = .map kind element ∧
      ∀ entry ∈ entries, HasType catalog entry.2 element := by
  cases h with
  | sorted _ hentries => exact ⟨_, _, rfl, hentries⟩
  | hashed _ hentries => exact ⟨_, _, rfl, hentries⟩

namespace Datum

variable {catalog : Catalog}

mutual

/-- **The tree of a value means its generic view.** -/
theorem value_of_tree? : ∀ (datum : Datum) {type : Ty} {tree : Tree}, HasType catalog datum type →
    datum.tree? catalog type = Option.some tree → tree.value = datum.generic catalog type
  | .integer n, _, _, _, h => by
    obtain ⟨word, hword, rfl⟩ := Option.map_eq_some_iff.mp h
    rw [Tree.value, generic, Value.toInt_of_toInt64? hword]
  | .bool b, _, _, _, h => by
    cases h
    rfl
  | .string text, _, _, _, h => by
    obtain ⟨sized, hsized, rfl⟩ := Option.map_eq_some_iff.mp h
    rw [Tree.value, generic, SizedText.of?_eq_some_iff.mp hsized]
  | .unit, _, _, _, h => by cases h
  | .instant nanoseconds, _, _, _, h => by
    obtain ⟨seconds, hseconds, rfl⟩ := Option.map_eq_some_iff.mp h
    rw [Tree.value, generic, Instant.toInt_of_toSeconds hseconds]
  | .value raw, _, _, htype, h => by
    cases htype with
    | value hordered => rw [generic, Value.value_of_tree? hordered h]
  | .none, _, _, _, h => by cases h
  | .some datum, _, _, htype, h => by
    cases htype with
    | some hdatum =>
      rw [generic]
      exact value_of_tree? datum hdatum h
  | .list items, _, _, htype, h => by
    cases htype with
    | list hitems =>
      obtain ⟨trees, htrees, rfl⟩ := Option.map_eq_some_iff.mp h
      rw [Tree.value, generic, values_of_itemTrees? items hitems htrees]
  | .map entries, type, _, htype, h => by
    obtain ⟨kind, element, rfl, hentries⟩ := htype.of_map
    obtain ⟨trees, htrees, rfl⟩ := Option.map_eq_some_iff.mp h
    rw [Tree.value, generic, values_of_entryTrees? entries hentries htrees]
  | .record values, _, _, htype, h => by
    cases htype with
    | record hfound hvalues =>
      obtain ⟨trees, htrees, rfl⟩ := Option.map_eq_some_iff.mp h
      rw [hfound] at htrees
      rw [Tree.value, generic, hfound, Option.getD_some,
        values_of_memberTrees? values hvalues htrees]

theorem values_of_itemTrees? : ∀ (items : List Datum) {element : Ty} {trees : List Tree},
    (∀ item ∈ items, HasType catalog item element) →
    itemTrees? catalog items element = Option.some trees →
    Tree.itemValues trees = genericItems catalog items element
  | [], _, _, _, h => by
    cases h
    rfl
  | item :: items, element, _, htypes, h => by
    obtain ⟨htype, htypes⟩ := List.forall_mem_cons.mp htypes
    unfold itemTrees? at h
    split at h
    · cases h
    · obtain ⟨tree, htree, h⟩ := Option.bind_eq_some_iff.mp h
      obtain ⟨trees, htrees, rfl⟩ := Option.map_eq_some_iff.mp h
      rw [Tree.itemValues, genericItems, value_of_tree? item htype htree,
        values_of_itemTrees? items htypes htrees]

theorem values_of_entryTrees? : ∀ (entries : List (String × Datum)) {element : Ty}
    {trees : List (SizedText 2 × Tree)}, (∀ entry ∈ entries, HasType catalog entry.2 element) →
    entryTrees? catalog entries element = Option.some trees →
    Tree.entryValues trees = genericEntries catalog entries element
  | [], _, _, _, h => by
    cases h
    rfl
  | (name, datum) :: entries, element, _, htypes, h => by
    obtain ⟨htype, htypes⟩ := List.forall_mem_cons.mp htypes
    unfold entryTrees? at h
    unfold genericEntries
    split at h
    · rename_i habsent
      rw [if_pos habsent]
      exact values_of_entryTrees? entries htypes h
    · rename_i habsent
      obtain ⟨sized, hsized, h⟩ := Option.bind_eq_some_iff.mp h
      obtain ⟨tree, htree, h⟩ := Option.bind_eq_some_iff.mp h
      obtain ⟨trees, htrees, rfl⟩ := Option.map_eq_some_iff.mp h
      rw [if_neg habsent, Tree.entryValues, SizedText.of?_eq_some_iff.mp hsized,
        value_of_tree? datum htype htree, values_of_entryTrees? entries htypes htrees]

theorem values_of_memberTrees? : ∀ (values : List Datum) {members : List Member}
    {trees : List (SizedText 2 × Tree)},
    List.Forall₂ (fun value member => HasType catalog value member.type) values members →
    memberTrees? catalog values members = Option.some trees →
    Tree.entryValues trees = genericMembers catalog values members
  | [], _, _, .nil, h => by
    rw [memberTrees?] at h
    · cases h
      rfl
    all_goals simp
  | datum :: values, member :: members, _, .cons htype htypes, h => by
    unfold memberTrees? at h
    unfold genericMembers
    split at h
    · rename_i habsent
      rw [if_pos habsent]
      exact values_of_memberTrees? values htypes h
    · rename_i habsent
      obtain ⟨sized, hsized, h⟩ := Option.bind_eq_some_iff.mp h
      obtain ⟨tree, htree, h⟩ := Option.bind_eq_some_iff.mp h
      obtain ⟨trees, htrees, rfl⟩ := Option.map_eq_some_iff.mp h
      rw [if_neg habsent, Tree.entryValues, SizedText.of?_eq_some_iff.mp hsized,
        value_of_tree? datum htype htree, values_of_memberTrees? values htypes htrees]

end

end Datum

/-! ## 2. Values without a tree -/

/-- An array in the value has a null element. -/
inductive Value.Gapped : Value → Prop
  | item {items : List Value} (mem : .null ∈ items) : Gapped (.array items)
  | inItem {items : List Value} {item : Value} (mem : item ∈ items) (gapped : Gapped item) :
    Gapped (.array items)
  | inField {fields : List (String × Value)} {field : String × Value} (mem : field ∈ fields)
    (gapped : Gapped field.2) : Gapped (.object fields)

/-- A list in the value has an absent element, or a generic array in it a null one. -/
inductive Datum.Gapped : Datum → Prop
  | item {items : List Datum} {item : Datum} (mem : item ∈ items) (absent : item.isAbsent = true) :
    Gapped (.list items)
  | inValue {value : Value} (gapped : value.Gapped) : Gapped (.value value)
  | inSome {datum : Datum} (gapped : Gapped datum) : Gapped (.some datum)
  | inItem {items : List Datum} {item : Datum} (mem : item ∈ items) (gapped : Gapped item) :
    Gapped (.list items)
  | inEntry {entries : List (String × Datum)} {entry : String × Datum} (mem : entry ∈ entries)
    (gapped : Gapped entry.2) : Gapped (.map entries)
  | inMember {values : List Datum} {value : Datum} (mem : value ∈ values) (gapped : Gapped value) :
    Gapped (.record values)

/-- A null has no elements. -/
theorem Value.Gapped.not_null {value : Value} (h : value.Gapped) : value.isNull = false := by
  cases h <;> rfl

/-- A generic value with a null in an array cannot be written. -/
theorem Value.Gapped.not_writable {value : Value} (h : value.Gapped) : ¬ value.Writable := by
  induction h with
  | item hmem =>
    intro hwritable
    cases hwritable with
    | array hitems => cases hitems _ hmem
  | inItem hmem _ ih =>
    intro hwritable
    cases hwritable with
    | array hitems => exact ih (hitems _ hmem)
  | @inField fields field hmem hgapped ih =>
    intro hwritable
    cases hwritable with
    | object _ hvalues =>
      exact ih (hvalues field hmem hgapped.not_null)

namespace Datum

variable {catalog : Catalog}

/-- Missing data has no elements. -/
theorem Gapped.not_absent {datum : Datum} (h : datum.Gapped) : datum.isAbsent = false := by
  induction h with
  | inValue hgapped => exact hgapped.not_null
  | inSome _ ih => exact ih
  | _ => rfl

theorem tree?_of_isAbsent : ∀ {datum : Datum} {type : Ty}, HasType catalog datum type →
    datum.isAbsent = true → datum.tree? catalog type = Option.none
  | .some datum, _, .some hdatum, h => by
    rw [tree?]
    exact tree?_of_isAbsent hdatum h
  | .value .null, _, _, _ => rfl
  | .none, _, _, _ => by simp [tree?]
  | .unit, _, _, _ => by simp [tree?]

theorem tree?_of_mem_items {element : Ty} : ∀ {items : List Datum} {trees : List Tree},
    itemTrees? catalog items element = Option.some trees → ∀ item ∈ items,
      item.isAbsent = false ∧ ∃ tree, item.tree? catalog element = Option.some tree
  | [], _, _, _, hmem => absurd hmem List.not_mem_nil
  | item :: items, _, h, other, hmem => by
    unfold itemTrees? at h
    split at h
    · cases h
    · rename_i habsent
      obtain ⟨tree, htree, h⟩ := Option.bind_eq_some_iff.mp h
      obtain ⟨trees, htrees, -⟩ := Option.map_eq_some_iff.mp h
      rcases List.mem_cons.mp hmem with rfl | hmem
      · exact ⟨Bool.eq_false_iff.mpr habsent, tree, htree⟩
      · exact tree?_of_mem_items htrees other hmem

theorem tree?_of_mem_entries {element : Ty} : ∀ {entries : List (String × Datum)}
    {trees : List (SizedText 2 × Tree)},
    entryTrees? catalog entries element = Option.some trees → ∀ entry ∈ entries,
      entry.2.isAbsent = false → ∃ tree, entry.2.tree? catalog element = Option.some tree
  | [], _, _, _, hmem, _ => absurd hmem List.not_mem_nil
  | (name, datum) :: entries, _, h, other, hmem, hpresent => by
    unfold entryTrees? at h
    split at h
    · rename_i habsent
      rcases List.mem_cons.mp hmem with rfl | hmem
      · exact absurd (hpresent.symm.trans habsent) (by simp)
      · exact tree?_of_mem_entries h other hmem hpresent
    · obtain ⟨sized, -, h⟩ := Option.bind_eq_some_iff.mp h
      obtain ⟨tree, htree, h⟩ := Option.bind_eq_some_iff.mp h
      obtain ⟨trees, htrees, -⟩ := Option.map_eq_some_iff.mp h
      rcases List.mem_cons.mp hmem with rfl | hmem
      · exact ⟨tree, htree⟩
      · exact tree?_of_mem_entries htrees other hmem hpresent

theorem tree?_of_mem_members : ∀ {values : List Datum} {members : List Member}
    {trees : List (SizedText 2 × Tree)},
    List.Forall₂ (fun value member => HasType catalog value member.type) values members →
    memberTrees? catalog values members = Option.some trees → ∀ value ∈ values,
      value.isAbsent = false → ∃ type tree, HasType catalog value type ∧
        value.tree? catalog type = Option.some tree
  | [], _, _, _, _, _, hmem, _ => absurd hmem List.not_mem_nil
  | datum :: values, member :: members, _, .cons htype htypes, h, other, hmem, hpresent => by
    unfold memberTrees? at h
    split at h
    · rename_i habsent
      rcases List.mem_cons.mp hmem with rfl | hmem
      · exact absurd (hpresent.symm.trans habsent) (by simp)
      · exact tree?_of_mem_members htypes h other hmem hpresent
    · obtain ⟨sized, -, h⟩ := Option.bind_eq_some_iff.mp h
      obtain ⟨tree, htree, h⟩ := Option.bind_eq_some_iff.mp h
      obtain ⟨trees, htrees, -⟩ := Option.map_eq_some_iff.mp h
      rcases List.mem_cons.mp hmem with rfl | hmem
      · exact ⟨member.type, tree, htype, htree⟩
      · exact tree?_of_mem_members htypes htrees other hmem hpresent

/-- **A value with an absent element somewhere has no tree.** -/
theorem tree?_of_gapped {datum : Datum} (h : datum.Gapped) : ∀ {type : Ty},
    HasType catalog datum type → datum.tree? catalog type = Option.none := by
  induction h with
  | @item items item hmem habsent =>
    intro type htype
    cases htype with
    | @list element _ hitems =>
      rw [tree?]
      cases htrees : itemTrees? catalog items element with
      | none => rfl
      | some trees =>
        obtain ⟨hpresent, -⟩ := tree?_of_mem_items htrees item hmem
        exact absurd (hpresent.symm.trans habsent) (by simp)
  | @inValue value hgapped =>
    intro type _
    rw [tree?]
    cases htree : value.tree? with
    | none => rfl
    | some tree =>
      exact absurd ((Value.exists_tree?_iff value).mp ⟨tree, htree⟩) hgapped.not_writable
  | inSome _ ih =>
    intro type htype
    cases htype with
    | some hdatum =>
      rw [tree?]
      exact ih hdatum
  | @inItem items item hmem _ ih =>
    intro type htype
    cases htype with
    | @list element _ hitems =>
      rw [tree?]
      cases htrees : itemTrees? catalog items element with
      | none => rfl
      | some trees =>
        obtain ⟨-, tree, htree⟩ := tree?_of_mem_items htrees item hmem
        rw [ih (hitems item hmem)] at htree
        cases htree
  | @inEntry entries entry hmem hgapped ih =>
    intro type htype
    obtain ⟨kind, element, rfl, hentries⟩ := htype.of_map
    rw [tree?]
    cases htrees : entryTrees? catalog entries element with
    | none => rfl
    | some trees =>
      obtain ⟨tree, htree⟩ := tree?_of_mem_entries htrees entry hmem hgapped.not_absent
      rw [ih (hentries entry hmem)] at htree
      cases htree
  | @inMember values value hmem hgapped ih =>
    intro type htype
    cases htype with
    | @record name members _ hfound hvalues =>
      rw [tree?, hfound, Option.getD_some]
      cases htrees : memberTrees? catalog values members with
      | none => rfl
      | some trees =>
        obtain ⟨type, tree, hvalue, htree⟩ :=
          tree?_of_mem_members hvalues htrees value hmem hgapped.not_absent
        rw [ih hvalue] at htree
        cases htree

end Datum

/-! ## 3. Whole streams -/

namespace Registry

variable {catalog : Catalog} {type : Ty} {datum : Datum} {bytes : Bytes}

/-- A value that is encoded is written as its tree, whatever has been resolved before. -/
theorem tree_of_encode (earlier : List Ty) (htype : HasType catalog datum type)
    (h : ((new catalog []).resolveAll earlier).encode type datum = .ok bytes) :
    ∃ tree, datum.tree? catalog type = some tree ∧ tree.depth ≤ maxDepth ∧
      bytes = tree.bytes ++ [0x00] := by
  obtain ⟨cache, hbefore, hcache⟩ := resolveAll_new catalog earlier
  rw [hbefore] at h
  obtain ⟨next, hresolve, hencode⟩ := encode_ok.mp h
  obtain ⟨more, rfl, hknown, hclosed⟩ := resolve_ok rfl hcache hresolve
  have hwrite := Table.writes_write hclosed datum [] hknown htype
  obtain ⟨_, htrees, hdepth, rfl⟩ := (Writer.toBytes_eq_ok_iff (hwrite.item (by simp))).mp hencode
  obtain ⟨tree, htree, rfl⟩ := Option.map_eq_some_iff.mp htrees
  have hfits := List.forall_mem_singleton.mp hdepth
  exact ⟨tree, htree, hfits, by rw [List.flatMap_singleton]⟩

/-- **A value that is encoded reads as its generic view**, and a value that is absent or has an
absent element is not encoded. -/
theorem encode_generic (earlier : List Ty) (htype : HasType catalog datum type) :
    (∀ bytes, ((new catalog []).resolveAll earlier).encode type datum = .ok bytes →
      Value.dump bytes = .ok [datum.generic catalog type]) ∧
    (datum.isAbsent = true ∨ datum.Gapped →
      ∃ error, ((new catalog []).resolveAll earlier).encode type datum = .error error) := by
  constructor
  · intro bytes h
    obtain ⟨tree, htree, hdepth, rfl⟩ := tree_of_encode earlier htype h
    have hdepths : ∀ tree' ∈ [tree], tree'.depth ≤ maxDepth := List.forall_mem_singleton.mpr hdepth
    have hdump := Value.dump_stream hdepths (.inr ⟨[], rfl⟩)
    rwa [List.flatMap_singleton, List.map_singleton, Datum.value_of_tree? datum htype htree]
      at hdump
  · intro hmissing
    have hnone : datum.tree? catalog type = none :=
      hmissing.elim (Datum.tree?_of_isAbsent htype) (Datum.tree?_of_gapped · htype)
    cases hencode : ((new catalog []).resolveAll earlier).encode type datum with
    | error error => exact ⟨error, rfl⟩
    | ok bytes =>
      obtain ⟨tree, htree, -⟩ := tree_of_encode earlier htype hencode
      cases hnone.symm.trans htree

/-- Two links: the missing label and the fraction of a second do not show.  A list with a missing
element is not encoded. -/
theorem encode_generic_chain :
    (∃ bytes, ((new chain []).resolveAll [.list .bool]).encode (.model "Chain")
        (.record [.none, .instant (-1500000000),
          .some (.record [.some (.string "end"), .instant 0, .none])]) = .ok bytes ∧
      Value.dump bytes = .ok [.object [("nextLink", .object [("label", .string "end"),
        ("since", .integer 0)]), ("since", .integer (-1))]]) ∧
    ∃ error, ((new chain []).resolveAll []).encode (.list (.option .bool))
      (.list [.some (.bool true), .none]) = .error error := by
  have hlink : HasType chain (.record [.some (.string "end"), .instant 0, .none])
      (.model "Chain") :=
    .record rfl (.cons (.some (.string "end")) (.cons (.instant 0) (.cons (.none _) .nil)))
  have htype : HasType chain (.record [.none, .instant (-1500000000),
      .some (.record [.some (.string "end"), .instant 0, .none])]) (.model "Chain") :=
    .record rfl (.cons (.none _) (.cons (.instant _) (.cons (.some hlink) .nil)))
  have hlist : HasType chain (.list [.some (.bool true), .none]) (.list (.option .bool)) := by
    refine .list (List.forall_mem_cons.mpr ⟨.some (.bool true), List.forall_mem_singleton.mpr ?_⟩)
    exact .none _
  have hgapped : Datum.Gapped (.list [.some (.bool true), .none]) :=
    .item (List.mem_cons_of_mem _ (List.mem_singleton_self _)) rfl
  exact ⟨⟨_, rfl, (encode_generic [.list .bool] htype).1 _ rfl⟩,
    (encode_generic [] hlist).2 (.inr hgapped)⟩

end Registry

end RemoteCall
