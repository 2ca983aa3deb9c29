/-
# A value with a tree is written as the tree is

A value of a declared type that has a tree at all is written by the very operations that write its
tree (`Table.write_of_tree?`).  What can go wrong is then what can go wrong with a tree, and that is
its depth: such a value is encoded as its tree, or it is nested too deep
(`Registry.encode_eq_of_tree?`).

The argument is the induction that finds the tree, first for generic values and then for the data of
a resolved type.
-/
import RemoteCall.Proofs.Typed.RoundTrip
import RemoteCall.Proofs.Wire.TreeWriting

namespace RemoteCall

open Wire

/-! ## 1. Generic values -/

namespace Value

mutual

theorem write_of_tree? : ∀ (value : Value) {tree : Tree}, value.tree? = some tree →
    value.write = tree.write
  | null, _, h => by cases h
  | bool b, _, h => by
    cases h
    rfl
  | integer n, _, h => by
    obtain ⟨word, hword, rfl⟩ := Option.map_eq_some_iff.mp h
    rw [write, hword]
    rfl
  | fraction literal, _, h => by cases h
  | string text, _, h => by
    obtain ⟨sized, hsized, rfl⟩ := Option.map_eq_some_iff.mp h
    rw [write, Tree.write, SizedText.of?_eq_some_iff.mp hsized]
  | array items, _, h => by
    obtain ⟨trees, htrees, rfl⟩ := Option.map_eq_some_iff.mp h
    rw [write, Tree.write, writeItems_of_trees items htrees]
  | object fields, _, h => by
    obtain ⟨entries, hentries, rfl⟩ := Option.map_eq_some_iff.mp h
    rw [write, Tree.write, writeFields_of_trees fields hentries]

theorem writeItems_of_trees : ∀ (items : List Value) {trees : List Tree},
    itemTrees? items = some trees → writeItems items = Tree.writeItems trees
  | [], _, h => by
    cases h
    rfl
  | item :: items, _, h => by
    obtain ⟨tree, htree, h⟩ := Option.bind_eq_some_iff.mp h
    obtain ⟨trees, htrees, rfl⟩ := Option.map_eq_some_iff.mp h
    rw [writeItems, Tree.writeItems, write_of_tree? item htree, writeItems_of_trees items htrees]

theorem writeFields_of_trees : ∀ (fields : List (String × Value))
    {entries : List (SizedText 2 × Tree)}, entryTrees? fields = some entries →
    writeFields fields = Tree.writeEntries entries
  | [], _, h => by
    cases h
    rfl
  | (name, value) :: fields, _, h => by
    unfold entryTrees? at h
    unfold writeFields
    split at h
    · rename_i hnull
      obtain rfl := tree?_null hnull
      exact writeFields_of_trees fields h
    · rename_i hnull
      obtain ⟨token, htoken, hagrees⟩ := token_of_isNull_eq_false (Bool.eq_false_iff.mpr hnull)
      obtain ⟨sized, hsized, h⟩ := Option.bind_eq_some_iff.mp h
      obtain ⟨tree, htree, h⟩ := Option.bind_eq_some_iff.mp h
      obtain ⟨entries, hentries, rfl⟩ := Option.map_eq_some_iff.mp h
      rw [Tree.writeEntries, hagrees tree htree, SizedText.of?_eq_some_iff.mp hsized]
      simp only [htoken, write_of_tree? value htree, writeFields_of_trees fields hentries]

end

end Value

/-! ## 2. Data of resolved types -/

namespace Table

variable {catalog : Catalog} {table : Table}

/-- An entry that is absent is passed over; any other is written under its name as its tree is. -/
theorem writeEntry_of_tree (hclosed : table.Closed catalog) {datum : Datum} {type : Ty}
    (hknown : Registry.knows table type = true) (htype : HasType catalog datum type)
    (hwrite : ∀ tree, datum.tree? catalog type = some tree → table.write datum type = tree.write)
    {name : String} {rest : Write Unit} {entries? : Option (List (SizedText 2 × Tree))}
    {entries : List (SizedText 2 × Tree)}
    (h : (if datum.isAbsent then entries?
      else (SizedText.of? name).bind fun name => (datum.tree? catalog type).bind fun tree =>
        entries?.map ((name, tree) :: ·)) = some entries)
    (hrest : ∀ others, entries? = some others → rest = Tree.writeEntries others) :
    (do
      if table.isAbsent datum type then
        pure ()
      else
        table.writeName name datum type
        table.write datum type
      rest) = Tree.writeEntries entries := by
  rw [isAbsent_eq hclosed hknown htype]
  split at h
  · rename_i habsent
    rw [if_pos habsent]
    exact hrest entries h
  · rename_i habsent
    obtain ⟨token, htoken, hagrees⟩ :=
      token_of_not_absent hclosed hknown htype (Bool.eq_false_iff.mpr habsent)
    obtain ⟨sized, hsized, h⟩ := Option.bind_eq_some_iff.mp h
    obtain ⟨tree, htree, h⟩ := Option.bind_eq_some_iff.mp h
    obtain ⟨others, hothers, rfl⟩ := Option.map_eq_some_iff.mp h
    rw [if_neg habsent, Tree.writeEntries, hagrees tree htree, SizedText.of?_eq_some_iff.mp hsized,
      hrest others hothers, hwrite tree htree, writeName, htoken]

mutual

/-- **A datum with a tree is written as the tree is.** -/
theorem write_of_tree? (hclosed : table.Closed catalog) : ∀ (datum : Datum) {type : Ty}
    {tree : Tree}, Registry.knows table type = true → HasType catalog datum type →
    datum.tree? catalog type = some tree → table.write datum type = tree.write
  | .integer n, type, _, hknown, htype, h => by
    cases htype
    obtain ⟨word, hword, rfl⟩ := Option.map_eq_some_iff.mp h
    rw [write, hclosed.structural hknown (by simp)]
    simp only [hword]
    rfl
  | .bool b, type, _, hknown, htype, h => by
    cases htype
    cases h
    rw [write, hclosed.structural hknown (by simp)]
    rfl
  | .string text, type, _, hknown, htype, h => by
    cases htype
    obtain ⟨sized, hsized, rfl⟩ := Option.map_eq_some_iff.mp h
    rw [write, hclosed.structural hknown (by simp), Tree.write, SizedText.of?_eq_some_iff.mp hsized]
  | .unit, _, _, _, _, h => by cases h
  | .instant nanoseconds, type, _, hknown, htype, h => by
    cases htype
    obtain ⟨seconds, hseconds, rfl⟩ := Option.map_eq_some_iff.mp h
    rw [write, hclosed.structural hknown (by simp)]
    cases hwritten : Instant.toSeconds nanoseconds with
    | error error =>
      rw [hwritten] at hseconds
      cases hseconds
    | ok found =>
      rw [hwritten] at hseconds
      cases hseconds
      simp only [hwritten]
      rfl
  | .value generic, type, _, hknown, htype, h => by
    cases htype
    rw [write, hclosed.structural hknown (by simp)]
    exact generic.write_of_tree? h
  | .none, _, _, _, _, h => by cases h
  | .some datum, type, _, hknown, htype, h => by
    cases htype with
    | some hdatum =>
      rw [write, hclosed.structural hknown (by simp)]
      exact write_of_tree? hclosed datum (hclosed.inner hknown) hdatum h
  | .list items, type, _, hknown, htype, h => by
    cases htype with
    | list hitems =>
      obtain ⟨trees, htrees, rfl⟩ := Option.map_eq_some_iff.mp h
      have hall := writeItems_of_trees hclosed items (hclosed.listElement hknown) hitems htrees
      rw [write, hclosed.structural hknown (by simp), Tree.write, ← hall]
  | .map entries, type, _, hknown, htype, h => by
    cases htype
    all_goals
      rename_i hentries
      obtain ⟨trees, htrees, rfl⟩ := Option.map_eq_some_iff.mp h
      have hall := writeEntries_of_trees hclosed entries (hclosed.mapElement hknown) hentries htrees
      rw [write, hclosed.structural hknown (by simp), Tree.write, ← hall]
  | .record values, type, _, hknown, htype, h => by
    cases htype with
    | record hfound hvalues =>
      obtain ⟨hrule, -, hmembers⟩ := hclosed.model hknown hfound
      obtain ⟨trees, htrees, rfl⟩ := Option.map_eq_some_iff.mp h
      rw [hfound] at htrees
      have hall := writeMembers_of_trees hclosed values hmembers hvalues htrees
      rw [write, hrule, Tree.write, ← hall]

theorem writeItems_of_trees (hclosed : table.Closed catalog) : ∀ (items : List Datum) {element : Ty}
    {trees : List Tree}, Registry.knows table element = true →
    (∀ item ∈ items, HasType catalog item element) →
    Datum.itemTrees? catalog items element = some trees →
    table.writeItems items element = Tree.writeItems trees
  | [], _, _, _, _, h => by
    cases h
    rw [writeItems, Tree.writeItems]
  | item :: items, element, _, hknown, htypes, h => by
    obtain ⟨htype, htypes⟩ := List.forall_mem_cons.mp htypes
    unfold Datum.itemTrees? at h
    split at h
    · cases h
    · rename_i habsent
      obtain ⟨tree, htree, h⟩ := Option.bind_eq_some_iff.mp h
      obtain ⟨trees, htrees, rfl⟩ := Option.map_eq_some_iff.mp h
      rw [writeItems, isAbsent_eq hclosed hknown htype, if_neg habsent, Tree.writeItems,
        write_of_tree? hclosed item hknown htype htree,
        writeItems_of_trees hclosed items hknown htypes htrees]

theorem writeEntries_of_trees (hclosed : table.Closed catalog) :
    ∀ (entries : List (String × Datum)) {element : Ty} {trees : List (SizedText 2 × Tree)},
    Registry.knows table element = true → (∀ entry ∈ entries, HasType catalog entry.2 element) →
    Datum.entryTrees? catalog entries element = some trees →
    table.writeEntries entries element = Tree.writeEntries trees
  | [], _, _, _, _, h => by
    cases h
    rw [writeEntries, Tree.writeEntries]
  | (name, datum) :: entries, element, _, hknown, htypes, h => by
    obtain ⟨htype, htypes⟩ := List.forall_mem_cons.mp htypes
    rw [writeEntries]
    exact writeEntry_of_tree hclosed hknown htype
      (fun _ => write_of_tree? hclosed datum hknown htype) h
      fun _ => writeEntries_of_trees hclosed entries hknown htypes

theorem writeMembers_of_trees (hclosed : table.Closed catalog) : ∀ (values : List Datum)
    {members : List Member} {trees : List (SizedText 2 × Tree)},
    (∀ member ∈ members, Registry.knows table member.type = true) →
    List.Forall₂ (fun value member => HasType catalog value member.type) values members →
    Datum.memberTrees? catalog values members = some trees →
    table.writeMembers values members = Tree.writeEntries trees
  | [], _, _, _, .nil, h => by
    rw [Datum.memberTrees?] at h
    · cases h
      rw [writeMembers, Tree.writeEntries]
      all_goals simp
    all_goals simp
  | datum :: values, member :: members, _, hknown, .cons htype htypes, h => by
    obtain ⟨hmember, hmembers⟩ := List.forall_mem_cons.mp hknown
    rw [writeMembers]
    exact writeEntry_of_tree hclosed hmember htype
      (fun _ => write_of_tree? hclosed datum hmember htype) h
      fun _ => writeMembers_of_trees hclosed values hmembers htypes

end

end Table

/-! ## 3. Whole streams -/

namespace Registry

variable {catalog : Catalog} {registry : Registry} {type : Ty} {datum : Datum} {tree : Tree}

/-- **A value with a tree is encoded as its tree, or nested too deep.** -/
theorem encode_eq_of_tree? (hclosed : registry.cache.Closed catalog)
    (hknown : knows registry.cache type = true) (htype : HasType catalog datum type)
    (htree : datum.tree? catalog type = some tree) :
    registry.encode type datum =
      if tree.depth ≤ maxDepth then .ok (tree.bytes ++ [0x00]) else .error (.stream .tooDeep) := by
  rw [← tree.toBytes_write, ← Table.write_of_tree? hclosed datum hknown htype htree, encode,
    adapter?, resolve_of_knows hknown]
  rfl

end Registry

end RemoteCall
