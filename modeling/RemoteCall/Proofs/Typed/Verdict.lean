/-
# A value of a declared type is read alike wherever it stands

What a type reads of a value, or why it refuses it, is what its adapter says of the value alone
(`readsAs_readWithin`).  Neither the scopes around the value nor what stands before and after it
matter, and a budget that exceeds the depth of the value is never what stops the reading.

This is for any table: nothing is asked of the rules it holds, nor that it knows the types they call
on.  One level of reading comes to a verdict that only depends on what the values inside come to
(`exists_readsAs_readWith`), and the rest is an induction on the tree.

A model is read as an object whose entries put their values in the members' places
(`readsAs_members`).
-/
import RemoteCall.Proofs.Typed.Reading

namespace RemoteCall

open Wire Wire.Reader Success

/-- A generic value is read of every tree. -/
theorem Value.readsAs_read (tree : Tree) : ReadsAs Value.read tree (.ok tree.value) :=
  readsAs_of_recognizes (fun _ => recognizes_read) rfl

namespace Table

variable {table : Table} {type : Ty} {tree : Tree} {inside : Ty → Read Datum}
  {judge : Ty → Tree → Except Error Datum}

/-! ## 1. Scalars -/

theorem exists_readsAs_integer (width : IntWidth) (tree : Tree) :
    ∃ verdict, ReadsAs (readInteger width) tree verdict := by
  obtain ⟨_, hread⟩ := exists_readsAs_number tree
  refine ⟨_, hread.bind (fun n => if width.contains n.toInt then .ok (.integer n.toInt)
    else .error (.value (.outOfRange n.toInt width.name))) fun n before => ?_⟩
  show outcome (if width.contains n.toInt then _ else _) before = _
  split <;> rfl

theorem exists_readsAs_instant (tree : Tree) :
    ∃ verdict, ReadsAs readInstant tree verdict := by
  obtain ⟨_, hread⟩ := exists_readsAs_number tree
  refine ⟨_, hread.bind (fun n => (Instant.ofSeconds n).map .instant) fun n before => ?_⟩
  cases Instant.ofSeconds n <;> rfl

theorem exists_readsAs_custom (rule : CustomRule) (tree : Tree) :
    ∃ verdict, ReadsAs rule.read tree verdict := by
  obtain ⟨_, hnumber⟩ := exists_readsAs_number tree
  obtain ⟨_, hstring⟩ := exists_readsAs_string tree
  cases rule with
  | capitals => exact ⟨_, hstring.map fun text => Datum.string (text.map Char.toLower)⟩
  | constant => exact ⟨_, hstring.map Datum.string⟩
  | number | zeroAbsent => exact ⟨_, hnumber.map fun n => Datum.integer n.toInt⟩
  | disguised => exact ⟨_, hnumber.map fun n => Datum.bool (n != 0)⟩
  | sum => exact ⟨_, hnumber.map fun n => Datum.list [.integer n.toInt]⟩

/-! ## 2. Models -/

/-- The members of a record after one more entry has been read.  An entry that is not a member's
changes nothing, whatever its value is. -/
def placeMember (judge : Ty → Tree → Except Error Datum) (members : List Member)
    (values : List Datum) (entry : SizedText 2 × Tree) : Except Error (List Datum) :=
  match members.findIdx? (·.wireName == entry.1.text) with
  | some index =>
    match members[index]? with
    | some member => (judge member.type entry.2).map (values.set index ·)
    | none => .ok values
  | none => .ok values

theorem stepsAs_readMember {members : List Member} {entry : SizedText 2 × Tree}
    (h : ∀ type, ReadsAs (inside type) entry.2 (judge type entry.2)) (values : List Datum) :
    StepsAs (readMember inside members values) entry (placeMember judge members values entry) := by
  obtain ⟨name, tree⟩ := entry
  refine ReadsAs.entry (fun name => match members.findIdx? (·.wireName == name) with
    | some index =>
      match members[index]? with
      | some member => do return values.set index (← inside member.type)
      | none => return values
    | none => do
      Reader.skip
      return values) ?_
  unfold placeMember
  cases hindex : members.findIdx? (·.wireName == name.text) with
  | none => exact readsAs_skip.map fun _ => values
  | some index =>
    obtain ⟨member, hmember⟩ := getElem?_of_findIdx? hindex
    simp only [hmember]
    exact (h member.type).map fun datum => values.set index datum

/-- **A model is read by putting the entries in the members' places**, one after the other, among
the defaults. -/
theorem readsAs_members {members : List Member} {entries : List (SizedText 2 × Tree)}
    (hrule : table.rule? type = some (.members members))
    (hinside : ∀ type, ∀ entry ∈ entries, ReadsAs (inside type) entry.2 (judge type entry.2)) :
    ReadsAs (table.readWith inside type) (.object entries)
      ((entries.foldlM (placeMember judge members) (members.map (·.default))).map .record) := by
  unfold readWith
  rw [hrule]
  exact readsAs_object
    (fun values entry hentry => stepsAs_readMember (hinside · entry hentry) values) Datum.record _

/-! ## 3. One level -/

/-- **One level of reading** comes to what the values inside make of it.  Options add no nesting, so
the recursion is on the type. -/
theorem exists_readsAs_readWith (table : Table) (judge : Ty → Tree → Except Error Datum)
    (tree : Tree) : ∀ type : Ty, ∃ verdict, ∀ inside : Ty → Read Datum,
      (∀ type, ∀ part ∈ tree.parts, ReadsAs (inside type) part (judge type part)) →
      ReadsAs (table.readWith inside type) tree verdict := by
  intro type
  unfold readWith
  cases table.rule? type with
  | none => exact ⟨_, fun _ _ => readsAs_throw _⟩
  | some rule =>
    cases rule with
    | custom rule =>
      obtain ⟨_, hread⟩ := exists_readsAs_custom rule tree
      exact ⟨_, fun _ _ => hread⟩
    | members members =>
      exact exists_readsAs_object tree _ (fun inside hinside values entry hentry =>
        stepsAs_readMember (hinside · entry.2 hentry) values) Datum.record _
    | structural =>
      cases type with
      | integer width =>
        obtain ⟨_, hread⟩ := exists_readsAs_integer width tree
        exact ⟨_, fun _ _ => hread⟩
      | bool =>
        obtain ⟨_, hread⟩ := exists_readsAs_bool tree
        exact ⟨_, fun _ _ => hread.map Datum.bool⟩
      | string =>
        obtain ⟨_, hread⟩ := exists_readsAs_string tree
        exact ⟨_, fun _ _ => hread.map Datum.string⟩
      | unit => exact ⟨_, fun _ _ => readsAs_skip.map fun _ => Datum.unit⟩
      | instant =>
        obtain ⟨_, hread⟩ := exists_readsAs_instant tree
        exact ⟨_, fun _ _ => hread⟩
      | value =>
        exact ⟨_, fun _ _ => (Value.readsAs_read tree).map Datum.value⟩
      | option inner =>
        obtain ⟨_, hread⟩ := exists_readsAs_readWith table judge tree inner
        exact ⟨_, fun inside hinside => (hread inside hinside).map Datum.some⟩
      | list element =>
        exact exists_readsAs_items tree (fun inside hinside => hinside element) Datum.list
      | map kind element =>
        refine exists_readsAs_object tree (fun (fields : Fields Datum) entry =>
          (judge element entry.2).map fun datum => fields.insert entry.1.text datum)
          (fun inside hinside fields entry hentry => ?_) Datum.map []
        have hvalue := hinside element entry.2 hentry
        exact ReadsAs.entry (fun name => do return fields.insert name (← inside element))
          (hvalue.map fun datum => fields.insert entry.1.text datum)
      | model name => exact ⟨_, fun _ _ => readsAs_throw _⟩
      | foreign name => exact ⟨_, fun _ _ => readsAs_throw _⟩
      | refusing name reason => exact ⟨_, fun _ _ => readsAs_throw _⟩

/-! ## 4. Every level -/

/-- **A value is read in its place as it is read alone**, by any budget that exceeds its depth.  The
induction is on the depth. -/
theorem readsAs_readWithin (table : Table) (tree : Tree) (type : Ty) {budget : Nat}
    (hbudget : tree.depth < budget) :
    ReadsAs (table.readWithin budget type) tree (Adapter.decode ⟨table, type⟩ tree.bytes) := by
  obtain ⟨verdict, hverdict⟩ := exists_readsAs_readWith table
    (fun type part => Adapter.decode ⟨table, type⟩ part.bytes) tree type
  have hread : ∀ budget, tree.depth < budget →
      ReadsAs (table.readWithin budget type) tree verdict := by
    intro budget hbudget
    cases budget with
    | zero => exact absurd hbudget (Nat.not_lt_zero _)
    | succ budget =>
      refine hverdict _ fun type part hpart => ?_
      have hless := Tree.depth_lt_of_mem_parts hpart
      exact readsAs_readWithin table part type (by omega)
  intro scopes position rest hdepth
  have hfits : tree.depth ≤ maxDepth := hdepth.trans (room_le scopes)
  have halone := decode_of_readsAs (hread _ (Nat.lt_succ_of_le hfits)) hfits (.inl rfl)
  rw [List.append_nil] at halone
  rw [halone]
  exact hread budget hbudget scopes position rest hdepth
termination_by tree.depth

theorem readsAs_read (table : Table) (type : Ty) {tree : Tree} (hdepth : tree.depth ≤ maxDepth) :
    ReadsAs (table.read type) tree (Adapter.decode ⟨table, type⟩ tree.bytes) :=
  readsAs_readWithin table tree type (Nat.lt_succ_of_le hdepth)

end Table

end RemoteCall
