/-
# What a declared type writes

A datum is written as a tree of the wire grammar, if it has one (`Datum.tree?`).  A table that hangs
together writes a datum of a type it knows exactly so (`writes_write`): of an object only what is
not absent, and elsewhere nothing that is absent.
-/
import RemoteCall.Proofs.Typed.Data
import RemoteCall.Proofs.Typed.Resolving

namespace RemoteCall

open Wire Wire.Writer Success

/-! ## 1. The tree of a datum -/

mutual

/-- The tree that a datum of a type is written as, if it has one. -/
def Datum.tree? (catalog : Catalog) : Datum → Ty → Option Tree
  | .integer n, _ => (Value.toInt64? n).map .number
  | .bool b, _ => Option.some (.boolean b)
  | .string text, _ => (SizedText.of? text).map .string
  | .instant nanoseconds, _ => (Instant.toSeconds nanoseconds).toOption.map .number
  | .value generic, _ => generic.tree?
  | .some datum, .option inner => datum.tree? catalog inner
  | .list items, .list element => (itemTrees? catalog items element).map .array
  | .map entries, .map _ element => (entryTrees? catalog entries element).map .object
  | .record values, .model name =>
    (memberTrees? catalog values ((catalog.lookup name).getD [])).map .object
  | _, _ => Option.none

/-- The trees of the elements of a list, none of which may be absent. -/
def Datum.itemTrees? (catalog : Catalog) : List Datum → Ty → Option (List Tree)
  | [], _ => Option.some []
  | item :: items, element =>
    if item.isAbsent then Option.none
    else (item.tree? catalog element).bind fun tree =>
      (itemTrees? catalog items element).map (tree :: ·)

/-- The entries of a map that are not absent. -/
def Datum.entryTrees? (catalog : Catalog) :
    List (String × Datum) → Ty → Option (List (SizedText 2 × Tree))
  | [], _ => Option.some []
  | (name, datum) :: entries, element =>
    if datum.isAbsent then entryTrees? catalog entries element
    else (SizedText.of? name).bind fun name => (datum.tree? catalog element).bind fun tree =>
      (entryTrees? catalog entries element).map ((name, tree) :: ·)

/-- The members of a record that are not absent, under their wire names. -/
def Datum.memberTrees? (catalog : Catalog) :
    List Datum → List Member → Option (List (SizedText 2 × Tree))
  | datum :: values, member :: members =>
    if datum.isAbsent then memberTrees? catalog values members
    else (SizedText.of? member.wireName).bind fun name =>
      (datum.tree? catalog member.type).bind fun tree =>
        (memberTrees? catalog values members).map ((name, tree) :: ·)
  | _, _ => Option.some []

end

namespace Table

variable {catalog : Catalog} {table : Table} {scopes : List Scope}

/-! ## 2. Absence and announcements -/

/-- A table that hangs together finds exactly the absent data absent. -/
theorem isAbsent_eq (hclosed : table.Closed catalog) : ∀ {datum : Datum} {type : Ty},
    Registry.knows table type = true → HasType catalog datum type →
    table.isAbsent datum type = datum.isAbsent := by
  intro datum type hknown htype
  obtain ⟨rule, hrule, hgrounded⟩ := hclosed.rule? hknown
  unfold isAbsent
  rw [hrule]
  cases hgrounded <;> cases htype
  case option.some inner hinner datum htype => exact isAbsent_eq hclosed hinner htype
  all_goals rfl

/-- A datum that is not absent is announced by the token of its tree. -/
theorem token_of_not_absent (hclosed : table.Closed catalog) : ∀ {datum : Datum} {type : Ty},
    Registry.knows table type = true → HasType catalog datum type → datum.isAbsent = false →
    ∃ token, table.token datum type = .ok token ∧
      ∀ tree, datum.tree? catalog type = some tree → tree.token = token := by
  intro datum type hknown htype habsent
  obtain ⟨rule, hrule, hgrounded⟩ := hclosed.rule? hknown
  unfold token
  rw [hrule]
  cases hgrounded <;> cases htype
  case option.some inner hinner datum htype =>
    exact token_of_not_absent hclosed hinner htype habsent
  case value.value generic hordered => exact Value.token_of_isNull_eq_false habsent
  case option.none => cases habsent
  case unit.unit => cases habsent
  case bool.bool b =>
    refine ⟨_, rfl, fun tree htree => ?_⟩
    cases htree
    rfl
  all_goals
    refine ⟨_, rfl, fun tree htree => ?_⟩
    obtain ⟨_, -, rfl⟩ := Option.map_eq_some_iff.mp htree
    rfl

/-! ## 3. Writing by a table that hangs together -/

/-- Under a name, a datum that is absent is not written; then the rest is. -/
theorem writesAll_entry (hclosed : table.Closed catalog) {datum : Datum} {type : Ty}
    (hknown : Registry.knows table type = true) (htype : HasType catalog datum type)
    (hwrite : Writes (table.write datum type) (.object :: scopes) (datum.tree? catalog type))
    (name : String) {rest : Write Unit} {entries? : Option (List (SizedText 2 × Tree))}
    (hrest : WritesAll rest (.object :: scopes) entries?) :
    WritesAll (do
        if table.isAbsent datum type then
          pure ()
        else
          table.writeName name datum type
          table.write datum type
        rest) (.object :: scopes)
      (if datum.isAbsent then entries?
        else (SizedText.of? name).bind fun (name : SizedText 2) =>
          (datum.tree? catalog type).bind fun tree => entries?.map ((name, tree) :: ·)) := by
  rw [isAbsent_eq hclosed hknown htype]
  cases habsent : datum.isAbsent with
  | true => exact hrest
  | false =>
    obtain ⟨token, htoken, hagrees⟩ := token_of_not_absent hclosed hknown htype habsent
    have h := (hwrite.entry name hagrees).append hrest
    simp only [Option.bind_assoc, Option.bind_map, Function.comp_def, List.singleton_append,
      bind_assoc] at h
    simp only [writeName, htoken, Bool.false_eq_true, if_false]
    exact h

mutual

/-- **A datum is written as its tree**, and has to have one. -/
theorem writes_write (hclosed : table.Closed catalog) : ∀ (datum : Datum) {type : Ty}
    (scopes : List Scope), Registry.knows table type = true → HasType catalog datum type →
    Writes (table.write datum type) scopes (datum.tree? catalog type)
  | .integer n, type, _, hknown, htype => by
    cases htype
    rw [write, hclosed.structural hknown (by simp), Datum.tree?]
    cases hword : Value.toInt64? n with
    | none =>
      simp only [hword]
      exact writes_throw
    | some word =>
      simp only [hword]
      exact writes_number word
  | .bool b, type, _, hknown, htype => by
    cases htype
    rw [write, hclosed.structural hknown (by simp), Datum.tree?]
    exact writes_bool b
  | .string text, type, _, hknown, htype => by
    cases htype
    rw [write, hclosed.structural hknown (by simp), Datum.tree?]
    exact writes_string text
  | .unit, type, _, hknown, htype => by
    cases htype
    rw [write, hclosed.structural hknown (by simp), Datum.tree?]
    · exact writes_throw
    all_goals simp
  | .instant nanoseconds, type, _, hknown, htype => by
    cases htype
    rw [write, hclosed.structural hknown (by simp), Datum.tree?]
    cases hseconds : Instant.toSeconds nanoseconds with
    | error error =>
      simp only [hseconds]
      exact writes_throw
    | ok seconds =>
      simp only [hseconds]
      exact writes_number seconds
  | .value generic, type, _, hknown, htype => by
    cases htype
    rw [write, hclosed.structural hknown (by simp), Datum.tree?]
    exact generic.writes_write _
  | .none, type, _, hknown, htype => by
    cases htype
    rw [write, hclosed.structural hknown (by simp), Datum.tree?]
    · exact writes_throw
    all_goals simp
  | .some datum, type, scopes, hknown, htype => by
    cases htype with
    | some hdatum =>
      rw [write, hclosed.structural hknown (by simp), Datum.tree?]
      exact writes_write hclosed datum scopes (hclosed.inner hknown) hdatum
  | .list items, type, _, hknown, htype => by
    cases htype with
    | list hitems =>
      have helement := hclosed.listElement hknown
      rw [write, hclosed.structural hknown (by simp), Datum.tree?]
      exact writes_array (writesAll_writeItems hclosed items (by simp) helement hitems)
  | .map entries, type, _, hknown, htype => by
    cases htype
    all_goals
      rename_i hentries
      have helement := hclosed.mapElement hknown
      rw [write, hclosed.structural hknown (by simp), Datum.tree?]
      exact writes_object (writesAll_writeEntries hclosed entries helement hentries)
  | .record values, type, _, hknown, htype => by
    cases htype with
    | record hfound hvalues =>
      obtain ⟨hrule, -, hmembers⟩ := hclosed.model hknown hfound
      rw [write, hrule, Datum.tree?, hfound]
      exact writes_object (writesAll_writeMembers hclosed values hmembers hvalues)

theorem writesAll_writeItems (hclosed : table.Closed catalog) : ∀ (items : List Datum)
    {element : Ty} {scopes : List Scope}, scopes.head? ≠ some .object →
    Registry.knows table element = true → (∀ item ∈ items, HasType catalog item element) →
    WritesAll (table.writeItems items element) scopes (Datum.itemTrees? catalog items element)
  | [], _, _, _, _, _ => by
    rw [writeItems, Datum.itemTrees?]
    exact writesAll_nil
  | item :: items, element, scopes, hs, hknown, htypes => by
    obtain ⟨htype, htypes⟩ := List.forall_mem_cons.mp htypes
    rw [writeItems, Datum.itemTrees?, isAbsent_eq hclosed hknown htype]
    split
    · exact writesAll_throw
    · have hitem := (writes_write hclosed item scopes hknown htype).item hs
      have h := hitem.append (writesAll_writeItems hclosed items hs hknown htypes)
      simp only [Option.bind_map, Function.comp_apply, List.singleton_append] at h
      exact h

theorem writesAll_writeEntries (hclosed : table.Closed catalog) :
    ∀ (entries : List (String × Datum)) {element : Ty} {scopes : List Scope},
    Registry.knows table element = true → (∀ entry ∈ entries, HasType catalog entry.2 element) →
    WritesAll (table.writeEntries entries element) (.object :: scopes)
      (Datum.entryTrees? catalog entries element)
  | [], _, _, _, _ => by
    rw [writeEntries, Datum.entryTrees?]
    exact writesAll_nil
  | (name, datum) :: entries, element, scopes, hknown, htypes => by
    obtain ⟨htype, htypes⟩ := List.forall_mem_cons.mp htypes
    have hwrite := writes_write hclosed datum (.object :: scopes) hknown htype
    rw [writeEntries, Datum.entryTrees?]
    exact writesAll_entry hclosed hknown htype hwrite name
      (writesAll_writeEntries hclosed entries hknown htypes)

theorem writesAll_writeMembers (hclosed : table.Closed catalog) :
    ∀ (values : List Datum) {members : List Member} {scopes : List Scope},
    (∀ member ∈ members, Registry.knows table member.type = true) →
    List.Forall₂ (fun value member => HasType catalog value member.type) values members →
    WritesAll (table.writeMembers values members) (.object :: scopes)
      (Datum.memberTrees? catalog values members)
  | [], _, _, _, .nil => by
    rw [writeMembers, Datum.memberTrees?]
    · exact writesAll_nil
    all_goals simp
  | datum :: values, member :: members, scopes, hknown, .cons htype htypes => by
    obtain ⟨hmember, hmembers⟩ := List.forall_mem_cons.mp hknown
    have hwrite := writes_write hclosed datum (.object :: scopes) hmember htype
    rw [writeMembers, Datum.memberTrees?]
    exact writesAll_entry hclosed hmember htype hwrite member.wireName
      (writesAll_writeMembers hclosed values hmembers htypes)

end

end Table

end RemoteCall
