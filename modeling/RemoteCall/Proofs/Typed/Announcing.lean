/-
# What is announced is what is written

Inside an object the name of a value brings the value's tag, so the kind of a value is told twice:
by the token that announces it, and by the primitive that writes it.  This module shows that the
two never disagree.  An operation `Honors` a token if it does not write another kind where that
token is awaited, and an operation that names what it writes is `Consistent` wherever it begins.

Both hold of generic values and then of the data of a resolved type, by induction on what is written:
a value that is named is announced by the token that it honors, and elements of an array are awaited
whatever their kind.  With the trees of the grammar, which say what a success leaves, this settles
how absence, announcement and writing go together (`announcement_kept`).
-/
import RemoteCall.Proofs.Failure
import RemoteCall.Proofs.Typed.Cache
import RemoteCall.Proofs.Typed.RoundTrip
import RemoteCall.Proofs.Typed.Writing
import RemoteCall.Proofs.Wire.Refusals

namespace RemoteCall

open Wire Wire.Writer Success

/-- A value was written of another kind than the one announced. -/
def Error.IsMismatch : Error → Prop
  | .stream (.announcedOther _ _) => True
  | _ => False

theorem Error.not_mismatch {error : Error} (h : error.leavesRemains = false) :
    ¬ error.IsMismatch := by
  unfold IsMismatch
  split
  · cases h
  · exact id

namespace Wire.Writer

variable {α ε : Type} [Element ε] {write first second : Write Unit} {scopes : List Scope}
  {token : Token}

/-! ## 1. Operations that write what is announced -/

/-- Wherever the operation begins, it does not fail with a mismatch. -/
abbrev Consistent (write : Write α) : Prop := Fails (fun error => ¬ error.IsMismatch) write

/-- Where the token is awaited, the operation does not fail with a mismatch. -/
def Honors (write : Write Unit) (token : Token) : Prop :=
  ∀ (before : Writer) (error : Error) (after : Writer),
    Settled before.scopes before.announced → Awaits before.scopes before.announced token →
    write before = .error error after → ¬ error.IsMismatch

/-- Inside of these scopes, with nothing announced, the operation does not fail with a mismatch. -/
def HonorsAll (write : Write Unit) (scopes : List Scope) : Prop :=
  ∀ (out : Array UInt8) (error : Error) (after : Writer),
    write ⟨out, scopes, none⟩ = .error error after → ¬ error.IsMismatch

theorem consistent_writeName (name : String) (token : Token) :
    Consistent (writeName name token) :=
  fun _ _ _ h => Error.not_mismatch (writeName_unchanged h).1

theorem consistent_close (scope : Scope) : Consistent (close scope) :=
  fun _ _ _ h => Error.not_mismatch (close_unchanged h).1

theorem consistent_push (scope : Scope) : Consistent (push scope) := by
  intro before error after h
  obtain ⟨rfl, -⟩ := push_error h
  exact id

theorem Honors.of_consistent (h : Consistent write) : Honors write token :=
  fun _ _ _ _ _ herror => h _ _ _ herror

theorem HonorsAll.of_consistent (h : Consistent write) : HonorsAll write scopes :=
  fun _ _ _ herror => h _ _ _ herror

/-- **A value begins with the token that it honors**; what comes after finds nothing announced. -/
theorem honors_value {rest : Write Unit} (h : ∀ scopes, HonorsAll rest scopes) :
    Honors (do openValue token; rest) token := by
  rintro ⟨out, scopes, announced⟩ error after hsettled hawaits herror
  have hopen : openValue token ⟨out, scopes, announced⟩ = .ok () _ :=
    (openValue_ok hsettled).mpr ⟨hawaits, rfl⟩
  rw [bind_of_ok hopen] at herror
  exact h _ _ _ _ herror

theorem honors_number (n : Int64) : Honors (writeNumber n) .number :=
  honors_value fun _ => .of_consistent (.modify _)

theorem honors_string (text : String) : Honors (writeString text) .string := by
  unfold writeString
  split
  · exact honors_value fun _ => .of_consistent ((Fails.modify _).bind fun _ => .modify _)
  · exact .of_consistent (.throw id)

theorem honors_bool (b : Bool) : Honors (writeBool b) .boolean :=
  honors_value fun _ => .of_consistent (.modify _)

/-- A scope honors its opening token if its elements are written consistently. -/
theorem honors_scope {scope : Scope} (h : ∀ scopes, HonorsAll write (scope :: scopes)) :
    Honors (do (do openValue token; push scope); write; close scope) token := by
  rw [bind_assoc]
  refine honors_value fun scopes out error after herror => ?_
  rcases bind_error.mp herror with herror | ⟨_, _, hpush, herror⟩
  · exact consistent_push scope _ _ _ herror
  · obtain ⟨-, rfl⟩ := push_ok.mp hpush
    rcases bind_error.mp herror with herror | ⟨_, _, -, herror⟩
    · exact h _ _ _ _ herror
    · exact consistent_close scope _ _ _ herror

/-- Where values have no names, every kind is awaited. -/
theorem Honors.item (h : Honors write token) (hs : scopes.head? ≠ some .object) :
    HonorsAll write scopes :=
  fun _ _ _ herror => h _ _ _ settled_none (fun hobject => absurd hobject hs) herror

/-- A value under a name that announces it. -/
theorem Honors.entry (h : Honors write token) (name : String) :
    Consistent (do writeName name token; write) := by
  rintro ⟨out, scopes, announced⟩ error after herror
  rcases bind_error.mp herror with herror | ⟨_, _, hname, herror⟩
  · exact consistent_writeName name token _ _ _ herror
  · obtain ⟨hobject, -, -, _, -, rfl⟩ := writeName_ok.mp hname
    exact h _ _ _ (fun hno => absurd hobject hno) (fun _ => rfl) herror

/-- Elements are written one part after the other. -/
theorem HonorsAll.append {elements? : Option (List ε)} (hfirst : HonorsAll first scopes)
    (hwrites : WritesAll first scopes elements?) (hsecond : HonorsAll second scopes) :
    HonorsAll (do first; second) scopes := by
  intro out error after herror
  rcases bind_error.mp herror with herror | ⟨_, _, hdone, herror⟩
  · exact hfirst _ _ _ herror
  · obtain ⟨_, -, -, rfl⟩ := (hwrites _ _ _).mp hdone
    exact hsecond _ _ _ herror

end Wire.Writer

/-! ## 2. Generic values -/

namespace Value

mutual

/-- **A generic value honors its token.** -/
theorem honors_write : ∀ (value : Value) {token : Token}, value.token = .ok token →
    Honors value.write token
  | null, _, h => by cases h
  | bool b, _, h => by
    cases h
    exact honors_bool b
  | integer n, _, h => by
    cases h
    unfold write
    split
    · exact honors_number _
    · exact .of_consistent (.throw id)
  | fraction literal, _, h => by
    cases h
    exact .of_consistent (.throw id)
  | string text, _, h => by
    cases h
    exact honors_string text
  | array items, _, h => by
    cases h
    exact honors_scope fun scopes => honorsAll_writeItems items (by simp)
  | object fields, _, h => by
    cases h
    exact honors_scope fun scopes => .of_consistent (consistent_writeFields fields)

theorem honorsAll_writeItems : ∀ (items : List Value) {scopes : List Scope},
    scopes.head? ≠ some .object → HonorsAll (writeItems items) scopes
  | [], _, _ => .of_consistent (.pure _)
  | item :: items, scopes, hs => by
    have hitem : HonorsAll item.write scopes := by
      cases hnull : item.isNull with
      | true =>
        obtain rfl := tree?_null hnull
        exact .of_consistent (.throw id)
      | false =>
        obtain ⟨token, htoken, -⟩ := token_of_isNull_eq_false hnull
        exact (honors_write item htoken).item hs
    rw [writeItems]
    exact hitem.append ((writes_write item scopes).item hs) (honorsAll_writeItems items hs)

theorem consistent_writeFields : ∀ fields : List (String × Value),
    Consistent (writeFields fields)
  | [] => .pure _
  | (name, value) :: fields => by
    have hfields := consistent_writeFields fields
    rw [writeFields]
    split
    · exact hfields
    · rename_i token htoken
      have hentry := ((honors_write value htoken).entry name).bind fun _ => hfields
      rw [bind_assoc] at hentry
      exact hentry

end

end Value

/-! ## 3. Data of resolved types -/

namespace Table

variable {catalog : Catalog} {table : Table} {type : Ty}

/-- What is absent has no token, and no writer writes it. -/
theorem absent_refused (hclosed : table.Closed catalog) : ∀ {datum : Datum} {type : Ty},
    Registry.knows table type = true → HasType catalog datum type → datum.isAbsent = true →
    (∃ error, table.token datum type = .error error) ∧
      ∃ error, ∀ writer, table.write datum type writer = .error error writer := by
  intro datum type hknown htype habsent
  cases htype
  case unit =>
    have hrule := hclosed.structural hknown (by simp)
    rw [token, write, hrule]
    exact ⟨⟨_, rfl⟩, _, fun _ => rfl⟩
  case none inner =>
    have hrule := hclosed.structural hknown (by simp)
    rw [token, write, hrule]
    exact ⟨⟨_, rfl⟩, _, fun _ => rfl⟩
  case value generic _ =>
    have hrule := hclosed.structural hknown (by simp)
    obtain rfl := Value.tree?_null habsent
    rw [token, write, hrule]
    exact ⟨⟨_, rfl⟩, _, fun _ => rfl⟩
  case some inner datum htype =>
    have hrule := hclosed.structural hknown (by simp)
    rw [token, write, hrule]
    exact absent_refused hclosed (hclosed.inner hknown) htype habsent
  all_goals cases habsent

/-- An entry is written consistently if its value honors its token; the rest follows. -/
theorem consistent_entry (hclosed : table.Closed catalog) {datum : Datum}
    (hknown : Registry.knows table type = true) (htype : HasType catalog datum type)
    (hwrite : ∀ {token}, table.token datum type = .ok token →
      Honors (table.write datum type) token)
    (name : String) {rest : Write Unit} (hrest : Consistent rest) :
    Consistent (do
      if table.isAbsent datum type then
        pure ()
      else
        table.writeName name datum type
        table.write datum type
      rest) := by
  rw [isAbsent_eq hclosed hknown htype]
  cases habsent : datum.isAbsent with
  | true => exact hrest
  | false =>
    obtain ⟨token, htoken, -⟩ := token_of_not_absent hclosed hknown htype habsent
    have hentry := ((hwrite htoken).entry name).bind fun _ => hrest
    rw [bind_assoc] at hentry
    simp only [writeName, htoken, Bool.false_eq_true, if_false]
    exact hentry

mutual

/-- **A datum honors its token.** -/
theorem honors_write (hclosed : table.Closed catalog) : ∀ (datum : Datum) {type : Ty}
    {token : Token}, Registry.knows table type = true → HasType catalog datum type →
    table.token datum type = .ok token → Honors (table.write datum type) token
  | .integer n, type, _, hknown, htype, h => by
    cases htype
    have hrule := hclosed.structural hknown (by simp)
    rw [token, hrule] at h
    rw [write, hrule]
    cases h
    dsimp only
    cases Value.toInt64? n with
    | none => exact .of_consistent (.throw id)
    | some word => exact honors_number word
  | .bool b, type, _, hknown, htype, h => by
    cases htype
    have hrule := hclosed.structural hknown (by simp)
    rw [token, hrule] at h
    rw [write, hrule]
    cases h
    exact honors_bool b
  | .string text, type, _, hknown, htype, h => by
    cases htype
    have hrule := hclosed.structural hknown (by simp)
    rw [token, hrule] at h
    rw [write, hrule]
    cases h
    exact honors_string text
  | .unit, type, _, hknown, htype, h => by
    obtain ⟨⟨error, herror⟩, -⟩ := absent_refused hclosed hknown htype rfl
    cases herror.symm.trans h
  | .instant nanoseconds, type, _, hknown, htype, h => by
    cases htype
    have hrule := hclosed.structural hknown (by simp)
    rw [token, hrule] at h
    rw [write, hrule]
    cases h
    dsimp only
    cases hseconds : Instant.toSeconds nanoseconds with
    | error error =>
      obtain rfl := Instant.toSeconds_error hseconds
      exact .of_consistent (.throw id)
    | ok seconds => exact honors_number seconds
  | .value generic, type, _, hknown, htype, h => by
    cases htype
    have hrule := hclosed.structural hknown (by simp)
    rw [token, hrule] at h
    rw [write, hrule]
    exact generic.honors_write h
  | .none, type, _, hknown, htype, h => by
    obtain ⟨⟨error, herror⟩, -⟩ := absent_refused hclosed hknown htype rfl
    cases herror.symm.trans h
  | .some datum, type, _, hknown, htype, h => by
    cases htype with
    | some hdatum =>
      have hrule := hclosed.structural hknown (by simp)
      rw [token, hrule] at h
      rw [write, hrule]
      exact honors_write hclosed datum (hclosed.inner hknown) hdatum h
  | .list items, type, _, hknown, htype, h => by
    cases htype with
    | list hitems =>
      have hrule := hclosed.structural hknown (by simp)
      rw [token, hrule] at h
      rw [write, hrule]
      cases h
      exact honors_scope fun scopes =>
        honorsAll_writeItems hclosed items (by simp) (hclosed.listElement hknown) hitems
  | .map entries, type, _, hknown, htype, h => by
    cases htype
    all_goals
      rename_i hentries
      have hrule := hclosed.structural hknown (by simp)
      rw [token, hrule] at h
      rw [write, hrule]
      cases h
      exact honors_scope fun scopes => .of_consistent
        (consistent_writeEntries hclosed entries (hclosed.mapElement hknown) hentries)
  | .record values, type, _, hknown, htype, h => by
    cases htype with
    | record hfound hvalues =>
      obtain ⟨hrule, -, hmembers⟩ := hclosed.model hknown hfound
      rw [token, hrule] at h
      rw [write, hrule]
      cases h
      exact honors_scope fun scopes => .of_consistent
        (consistent_writeMembers hclosed values hmembers hvalues)

theorem honorsAll_writeItems (hclosed : table.Closed catalog) : ∀ (items : List Datum)
    {element : Ty} {scopes : List Scope}, scopes.head? ≠ some .object →
    Registry.knows table element = true → (∀ item ∈ items, HasType catalog item element) →
    HonorsAll (table.writeItems items element) scopes
  | [], _, _, _, _, _ => by
    rw [writeItems]
    exact .of_consistent (.pure _)
  | item :: items, element, scopes, hs, hknown, htypes => by
    obtain ⟨htype, htypes⟩ := List.forall_mem_cons.mp htypes
    rw [writeItems, isAbsent_eq hclosed hknown htype]
    cases habsent : item.isAbsent with
    | true => exact .of_consistent (.throw id)
    | false =>
      obtain ⟨token, htoken, -⟩ := token_of_not_absent hclosed hknown htype habsent
      have hitem := (honors_write hclosed item hknown htype htoken).item hs
      exact hitem.append ((writes_write hclosed item scopes hknown htype).item hs)
        (honorsAll_writeItems hclosed items hs hknown htypes)

theorem consistent_writeEntries (hclosed : table.Closed catalog) :
    ∀ (entries : List (String × Datum)) {element : Ty}, Registry.knows table element = true →
    (∀ entry ∈ entries, HasType catalog entry.2 element) →
    Consistent (table.writeEntries entries element)
  | [], _, _, _ => by
    rw [writeEntries]
    exact .pure _
  | (name, datum) :: entries, element, hknown, htypes => by
    obtain ⟨htype, htypes⟩ := List.forall_mem_cons.mp htypes
    rw [writeEntries]
    exact consistent_entry hclosed hknown htype (honors_write hclosed datum hknown htype) name
      (consistent_writeEntries hclosed entries hknown htypes)

theorem consistent_writeMembers (hclosed : table.Closed catalog) :
    ∀ (values : List Datum) {members : List Member},
    (∀ member ∈ members, Registry.knows table member.type = true) →
    List.Forall₂ (fun value member => HasType catalog value member.type) values members →
    Consistent (table.writeMembers values members)
  | [], _, _, .nil => by
    rw [writeMembers]
    · exact .pure _
    all_goals simp
  | datum :: values, member :: members, hknown, .cons htype htypes => by
    obtain ⟨hmember, hmembers⟩ := List.forall_mem_cons.mp hknown
    rw [writeMembers]
    exact consistent_entry hclosed hmember htype (honors_write hclosed datum hmember htype)
      member.wireName (consistent_writeMembers hclosed values hmembers htypes)

end

theorem consistent_writeFields (hclosed : table.Closed catalog) {datum : Datum}
    (hknown : Registry.knows table type = true) (htype : HasType catalog datum type) :
    Consistent (table.writeFields datum type) := by
  obtain ⟨rule, hrule, -⟩ := hclosed.rule? hknown
  unfold writeFields
  cases htype
  case record values hfound hvalues =>
    obtain ⟨hmembers, -, hall⟩ := hclosed.model hknown hfound
    rw [hmembers]
    exact consistent_writeMembers hclosed values hall hvalues
  case value generic _ =>
    rw [hclosed.structural hknown (by simp)]
    cases generic with
    | object fields => exact Value.consistent_writeFields fields
    | _ => exact .throw id
  case sorted entries _ hentries =>
    rw [hclosed.structural hknown (by simp)]
    exact consistent_writeEntries hclosed entries (hclosed.mapElement hknown) hentries
  case hashed entries _ hentries =>
    rw [hclosed.structural hknown (by simp)]
    exact consistent_writeEntries hclosed entries (hclosed.mapElement hknown) hentries
  all_goals
    rw [hclosed.structural hknown (by simp)]
    exact .throw id

end Table

/-! ## 4. Adapters -/

variable {catalog : Catalog} {table : Table} {type : Ty}

/-- What an adapter says of a value beforehand is what happens when the value is written. -/
structure Adapter.Agrees (adapter : Adapter) (datum : Datum) : Prop where
  /-- The value is absent exactly if no token announces it. -/
  absent_iff : adapter.isAbsent datum = true ↔ ∃ error, adapter.token datum = .error error
  /-- An absent value is refused by every writer, and the writer stays as it was. -/
  absent : adapter.isAbsent datum = true →
    ∃ error, ∀ writer, adapter.write datum writer = .error error writer
  /-- Outside of an object the value begins with the tag of its token, whatever the writer has
  written or refused before. -/
  first : ∀ token, adapter.token datum = .ok token → ∀ ops after,
    (attempts ops new).scope? ≠ some .object →
    adapter.write datum (attempts ops new) = .ok () after →
    ∃ payload, after.bytes = (attempts ops new).bytes ++ token.tag :: payload
  /-- Whatever the writer and the name, a value that its token announces is not of another kind, and
  nothing is left announced after it. -/
  named : ∀ token, adapter.token datum = .ok token → ∀ name,
    Consistent (do writeName name token; adapter.write datum) ∧
      ∀ before after, (do writeName name token; adapter.write datum) before = .ok () after →
        after.announced = none
  /-- Nor is it where the value is an entry that is left out if it is absent. -/
  entry : ∀ name, Consistent (adapter.writeEntry name datum)
  /-- Nor is any of the fields of the value where they are spread. -/
  spread : Consistent (adapter.writeFields datum)

namespace Table

/-- The token of a datum is the one of its tree. -/
theorem token_of_tree (hclosed : table.Closed catalog) {datum : Datum} {token : Token} {tree : Tree}
    (hknown : Registry.knows table type = true) (htype : HasType catalog datum type)
    (htoken : table.token datum type = .ok token) (htree : datum.tree? catalog type = some tree) :
    tree.token = token := by
  cases habsent : datum.isAbsent with
  | true =>
    obtain ⟨⟨error, herror⟩, -⟩ := absent_refused hclosed hknown htype habsent
    cases herror.symm.trans htoken
  | false =>
    obtain ⟨found, hfound, hagrees⟩ := token_of_not_absent hclosed hknown htype habsent
    cases hfound.symm.trans htoken
    exact hagrees tree htree

theorem Closed.agrees (hclosed : table.Closed catalog) {datum : Datum}
    (hknown : Registry.knows table type = true) (htype : HasType catalog datum type) :
    Adapter.Agrees ⟨table, type⟩ datum where
  absent_iff := by
    show table.isAbsent datum type = true ↔ _
    rw [isAbsent_eq hclosed hknown htype]
    refine ⟨fun h => (absent_refused hclosed hknown htype h).1, fun ⟨error, herror⟩ => ?_⟩
    cases habsent : datum.isAbsent with
    | true => rfl
    | false =>
      obtain ⟨token, htoken, -⟩ := token_of_not_absent hclosed hknown htype habsent
      cases herror.symm.trans htoken
  absent h := by
    change table.isAbsent datum type = true at h
    rw [isAbsent_eq hclosed hknown htype] at h
    exact (absent_refused hclosed hknown htype h).2
  first token htoken ops after hplace hwrite := by
    have hsettled := settled_attempts_new ops
    generalize attempts ops new = before at hplace hwrite hsettled
    obtain ⟨out, scopes, announced⟩ := before
    obtain ⟨tree, htree, -, -, rfl⟩ :=
      (writes_write hclosed datum scopes hknown htype _ _ _ _ hsettled).mp hwrite
    have hs : scopes.head? ≠ some .object := hplace
    refine ⟨tree.payload, ?_⟩
    rw [← token_of_tree hclosed hknown htype htoken htree]
    simp [Writer.bytes, lead, hs]
  named token htoken name := by
    refine ⟨(honors_write hclosed datum hknown htype htoken).entry name, ?_⟩
    rintro ⟨out, scopes, announced⟩ after h
    obtain ⟨_, _, hname, hwrite⟩ := bind_ok.mp h
    obtain ⟨hobject, -, -, _, -, rfl⟩ := writeName_ok.mp hname
    have hsettled : Settled scopes (some token) := fun hno => absurd hobject hno
    obtain ⟨_, -, -, -, rfl⟩ :=
      (writes_write hclosed datum scopes hknown htype _ _ _ _ hsettled).mp hwrite
    rfl
  entry name := by
    have h := consistent_entry hclosed hknown htype
      (honors_write hclosed datum hknown htype) name (.pure ())
    simp only [bind_pure_unit] at h
    exact h
  spread := consistent_writeFields hclosed hknown htype

end Table

namespace Registry

/-- **Absence, announcement and writing agree** in the adapter of every type that can be resolved,
whatever has been resolved before. -/
theorem announcement_kept (earlier : List Ty) {adapter : Adapter} {next : Registry}
    (hadapter : ((new catalog []).resolveAll earlier).adapter? type = .ok (adapter, next))
    {datum : Datum} (htype : HasType catalog datum type) : adapter.Agrees datum := by
  obtain ⟨cache, hbefore, hcache⟩ := resolveAll_new catalog earlier
  rw [hbefore] at hadapter
  obtain ⟨hresolve, rfl⟩ := adapter?_eq_ok.mp hadapter
  obtain ⟨more, rfl, hknown, hclosed⟩ := resolve_ok rfl hcache hresolve
  exact hclosed.agrees hknown htype

/-- An option of an option of a model that refers to itself: an outer option that holds nothing is
absent, and one that holds a link is announced as an object. -/
theorem announcement_kept_chain :
    let link : Datum := .record [.some (.string "end"), .instant 0, .none]
    ∃ adapter next, ((new chain []).resolveAll [.list .bool]).adapter?
        (.option (.option (.model "Chain"))) = .ok (adapter, next) ∧
      adapter.Agrees (.some .none) ∧ adapter.isAbsent (.some .none) = true ∧
      adapter.Agrees (.some (.some link)) ∧
      adapter.token (.some (.some link)) = .ok .beginObject := by
  intro link
  have hlink : HasType chain link (.model "Chain") :=
    .record rfl (.cons (.some (.string "end")) (.cons (.instant 0) (.cons (.none _) .nil)))
  have hadapter : ∃ adapter next, ((new chain []).resolveAll [.list .bool]).adapter?
      (.option (.option (.model "Chain"))) = .ok (adapter, next) ∧
      adapter.isAbsent (.some .none) = true ∧
      adapter.token (.some (.some link)) = .ok .beginObject := ⟨_, _, rfl, rfl, rfl⟩
  obtain ⟨adapter, next, hadapter, habsent, htoken⟩ := hadapter
  exact ⟨adapter, next, hadapter,
    announcement_kept [.list .bool] hadapter (.some (.none _)), habsent,
    announcement_kept [.list .bool] hadapter (.some (.some hlink)), htoken⟩

end Registry

end RemoteCall
