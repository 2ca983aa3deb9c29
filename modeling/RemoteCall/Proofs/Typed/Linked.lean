/-
# Adapters that are complete

The rule of a type calls on the adapters of other types: an option, list or map on the one of what
it holds, a model on those of its members, a custom rule on none.  A table in which every type that
a rule calls on has a rule itself is `Linked`.  Its adapters are `Complete`: whatever is done with
them fails for a reason of the value or of the stream, never because a type is still being resolved.

The proofs follow the operations of an adapter: by induction on the datum that is written, or on the
budget and then the type that is read.
-/
import RemoteCall.Proofs.Wire.Failing
import RemoteCall.Typed.Registry

namespace RemoteCall

open Wire

/-! ## 1. What a rule calls on -/

/-- The type of what an option, list or map holds. -/
def Ty.inner : Ty → List Ty
  | .option inner => [inner]
  | .list element => [element]
  | .map _ element => [element]
  | _ => []

/-- The types whose adapters the rule of a type calls on. -/
def Rule.links (type : Ty) : Rule → List Ty
  | .structural => type.inner
  | .members declared => type.inner ++ declared.map (·.type)
  | .custom _ => []

/-- The failure is not that a type was still being resolved. -/
def Error.IsSettled : Error → Prop
  | .value (.unresolved _) => False
  | _ => True

theorem Error.IsReading.isSettled : ∀ {error : Error}, error.IsReading → error.IsSettled
  | .stream _, _ | .unexpected _ _, _ => trivial

theorem Error.IsWriting.isSettled : ∀ {error : Error}, error.IsWriting → error.IsSettled
  | .stream _, _ | .value (.nameTooLong _), _ | .value (.textTooLong _), _ => trivial
  | .value .nullValue, _ | .value (.notInteger _), _ => trivial

/-- Reading that fails only as the stream does fails for a settled reason. -/
theorem Wire.Reader.settled {α : Type} {read : Read α} (h : Fails Error.IsReading read) :
    Fails Error.IsSettled read :=
  h.mono fun _ => Error.IsReading.isSettled

/-- So does writing that fails only as the stream or the generic value does. -/
theorem Wire.Writer.settled {α : Type} {write : Write α} (h : Fails Error.IsWriting write) :
    Fails Error.IsSettled write :=
  h.mono fun _ => Error.IsWriting.isSettled

namespace CustomRule

theorem fails_write (type : Ty) (rule : CustomRule) (datum : Datum) :
    Fails Error.IsSettled (rule.write type datum) := by
  unfold write
  split
  · exact Writer.settled (Writer.fails_writeString _)
  · exact Writer.settled (Writer.fails_writeString _)
  · exact Writer.settled (Writer.fails_writeNumber _)
  · exact Writer.settled (Writer.fails_writeNumber _)
  · exact Writer.settled (Writer.fails_writeNumber _)
  · exact Writer.settled (Writer.fails_writeNumber _)
  · exact .throw trivial

theorem fails_read (rule : CustomRule) : Fails Error.IsReading rule.read := by
  cases rule with
  | capitals => exact Reader.fails_readString.bind fun _ => .pure _
  | constant text => exact Reader.fails_readString.bind fun _ => .pure _
  | number => exact Reader.fails_readNumber.bind fun _ => .pure _
  | zeroAbsent => exact Reader.fails_readNumber.bind fun _ => .pure _
  | disguised => exact Reader.fails_readNumber.bind fun _ => .pure _
  | sum => exact Reader.fails_readNumber.bind fun _ => .pure _

theorem absent_settled {type : Ty} {rule : CustomRule} {error : Error}
    (h : rule.absent type = .error error) : error.IsSettled := by
  unfold absent at h
  split at h
  · cases h
  · cases h
    trivial

end CustomRule

theorem Instant.toSeconds_error {nanoseconds : Int} {error : Error}
    (h : Instant.toSeconds nanoseconds = .error error) :
    error = .value .instantOutOfRange := by
  unfold Instant.toSeconds at h
  dsimp only at h
  split at h
  · cases h
  · cases h
    rfl

theorem Instant.ofSeconds_error {seconds : Int64} {error : Error}
    (h : Instant.ofSeconds seconds = .error error) :
    ∃ number, error = .value (.secondsOutOfRange number) := by
  unfold Instant.ofSeconds at h
  split at h
  · cases h
  · cases h
    exact ⟨_, rfl⟩

/-- What an adapter does never fails because a type is still being resolved. -/
structure Adapter.Complete (adapter : Adapter) : Prop where
  absent : ∀ error, adapter.absent = .error error → error.IsSettled
  token : ∀ datum error, adapter.token datum = .error error → error.IsSettled
  write : ∀ datum, Fails Error.IsSettled (adapter.write datum)
  writeEntry : ∀ name datum, Fails Error.IsSettled (adapter.writeEntry name datum)
  writeFields : ∀ datum, Fails Error.IsSettled (adapter.writeFields datum)
  read : Fails Error.IsSettled adapter.read

namespace Table

open Registry (knows)

variable {table : Table} {type : Ty} {rule : Rule}

/-- Every type that a rule of the table calls on has a rule in the table. -/
def Linked (table : Table) : Prop :=
  ∀ type rule, table.rule? type = some rule → ∀ next ∈ rule.links type, knows table next = true

theorem Linked.inner (hlinked : table.Linked) (hrule : table.rule? type = some rule)
    (hown : ∀ custom, rule ≠ .custom custom) {inner : Ty} (hinner : inner ∈ type.inner) :
    knows table inner = true := by
  refine hlinked type rule hrule inner ?_
  cases rule with
  | structural => exact hinner
  | members members => exact List.mem_append_left _ hinner
  | custom custom => exact absurd rfl (hown custom)

theorem Linked.members {members : List Member} (hlinked : table.Linked)
    (hrule : table.rule? type = some (.members members)) :
    ∀ member ∈ members, knows table member.type = true :=
  fun _ hmember => hlinked _ _ hrule _ (List.mem_append_right _ (List.mem_map_of_mem hmember))

/-! ## 2. Nothing fails because a type is still being resolved -/

theorem token_settled (hlinked : table.Linked) : ∀ {datum : Datum} {type : Ty} {error : Error},
    knows table type = true → table.token datum type = .error error → error.IsSettled := by
  intro datum type error hknown h
  unfold token at h
  split at h
  case h_1 hrule => simp [knows, hrule] at hknown
  case h_2 custom hrule => cases h
  case h_3 rule hown hrule =>
    split at h
    case h_6 value =>
      cases value <;> cases h
      trivial
    case h_8 inner datum =>
      exact token_settled hlinked (hlinked.inner hrule hown (List.mem_singleton_self inner)) h
    all_goals
      cases h <;> trivial

theorem absent_settled {error : Error} (hknown : knows table type = true)
    (h : table.absent type = .error error) : error.IsSettled := by
  unfold absent at h
  split at h
  case h_1 hrule => simp [knows, hrule] at hknown
  case h_2 custom hrule => exact CustomRule.absent_settled h
  case h_3 rule hown hrule => cases type <;> cases h <;> trivial

theorem fails_writeName (hlinked : table.Linked) (hknown : knows table type = true) (name : String)
    (datum : Datum) : Fails Error.IsSettled (table.writeName name datum type) := by
  unfold writeName
  cases htoken : table.token datum type with
  | ok token => exact Writer.settled (Writer.fails_writeName name token)
  | error error => exact .throw (token_settled hlinked hknown htoken)

/-- An entry fails as its name and its value do; the rest follows. -/
theorem fails_entry (hlinked : table.Linked) (hknown : knows table type = true) {datum : Datum}
    (hwrite : Fails Error.IsSettled (table.write datum type)) (name : String) {rest : Write Unit}
    (hrest : Fails Error.IsSettled rest) :
    Fails Error.IsSettled (do
      if table.isAbsent datum type then
        pure ()
      else
        table.writeName name datum type
        table.write datum type
      rest) := by
  refine .ite hrest ?_
  exact (fails_writeName hlinked hknown name datum).bind fun _ => hwrite.bind fun _ => hrest

mutual

/-- **Writing fails for a settled reason** if the table knows the type.  The induction is on the
datum. -/
theorem fails_write (hlinked : table.Linked) : ∀ (datum : Datum) {type : Ty},
    knows table type = true → Fails Error.IsSettled (table.write datum type)
  | datum, type, hknown => by
    unfold write
    split
    case h_1 hrule => simp [knows, hrule] at hknown
    case h_2 custom hrule => exact CustomRule.fails_write type custom datum
    case h_3 rule hown hrule =>
      have hinner : ∀ {inner}, inner ∈ type.inner → knows table inner = true :=
        fun h => hlinked.inner hrule hown h
      split
      case h_1 n =>
        cases type
        case integer width =>
          dsimp only
          split
          · exact Writer.settled (Writer.fails_writeNumber _)
          · exact .throw trivial
        all_goals exact .throw trivial
      case h_2 b =>
        cases type
        case bool => exact Writer.settled (Writer.fails_writeBool b)
        all_goals exact .throw trivial
      case h_3 text =>
        cases type
        case string => exact Writer.settled (Writer.fails_writeString text)
        all_goals exact .throw trivial
      case h_4 => exact .throw trivial
      case h_5 nanoseconds =>
        split
        · exact Writer.settled (Writer.fails_writeNumber _)
        · obtain rfl := Instant.toSeconds_error ‹_›
          exact .throw trivial
        · exact .throw trivial
      case h_6 value =>
        cases type
        case value => exact Writer.settled value.fails_write
        all_goals exact .throw trivial
      case h_7 => exact .throw trivial
      case h_8 datum =>
        cases type
        case option inner =>
          exact fails_write hlinked datum (hinner (List.mem_singleton_self inner))
        all_goals exact .throw trivial
      case h_9 items =>
        cases type
        case list element =>
          have helement := hinner (List.mem_singleton_self element)
          exact (Writer.settled Writer.fails_beginArray).bind fun _ =>
            (fails_writeItems hlinked items helement).bind fun _ =>
              Writer.settled (Writer.fails_close _)
        all_goals exact .throw trivial
      case h_10 entries =>
        cases type
        case map kind element =>
          have helement := hinner (List.mem_singleton_self element)
          exact (Writer.settled Writer.fails_beginObject).bind fun _ =>
            (fails_writeEntries hlinked entries helement).bind fun _ =>
              Writer.settled (Writer.fails_close _)
        all_goals exact .throw trivial
      case h_11 values =>
        cases rule with
        | members members =>
          exact (Writer.settled Writer.fails_beginObject).bind fun _ =>
            (fails_writeMembers hlinked values (hlinked.members hrule)).bind fun _ =>
              Writer.settled (Writer.fails_close _)
        | structural => exact .throw trivial
        | custom custom => exact .throw trivial

theorem fails_writeItems (hlinked : table.Linked) : ∀ (items : List Datum) {element : Ty},
    knows table element = true → Fails Error.IsSettled (table.writeItems items element)
  | [], _, _ => .pure _
  | item :: items, element, hknown => by
    rw [writeItems]
    refine .ite (.throw trivial) ?_
    exact (fails_write hlinked item hknown).bind fun _ => fails_writeItems hlinked items hknown

theorem fails_writeEntries (hlinked : table.Linked) : ∀ (entries : List (String × Datum))
    {element : Ty}, knows table element = true →
    Fails Error.IsSettled (table.writeEntries entries element)
  | [], _, _ => .pure _
  | (name, datum) :: entries, element, hknown => by
    have hentries := fails_writeEntries hlinked entries hknown
    rw [writeEntries]
    exact fails_entry hlinked hknown (fails_write hlinked datum hknown) name hentries

theorem fails_writeMembers (hlinked : table.Linked) : ∀ (values : List Datum)
    {members : List Member}, (∀ member ∈ members, knows table member.type = true) →
    Fails Error.IsSettled (table.writeMembers values members)
  | [], _, _ => .pure _
  | datum :: values, [], _ => .pure _
  | datum :: values, member :: members, hknown => by
    obtain ⟨hmember, hmembers⟩ := List.forall_mem_cons.mp hknown
    rw [writeMembers]
    exact fails_entry hlinked hmember (fails_write hlinked datum hmember) _
      (fails_writeMembers hlinked values hmembers)

end

theorem fails_writeFields (hlinked : table.Linked) (hknown : knows table type = true)
    (datum : Datum) : Fails Error.IsSettled (table.writeFields datum type) := by
  unfold writeFields
  split
  case h_1 hrule => simp [knows, hrule] at hknown
  case h_2 custom hrule => exact .throw trivial
  case h_3 members hrule =>
    split
    · exact fails_writeMembers hlinked _ (hlinked.members hrule)
    · exact .throw trivial
  case h_4 hrule =>
    split
    case h_1 kind element entries =>
      have helement := hlinked.inner hrule (by simp) (List.mem_singleton_self element)
      exact fails_writeEntries hlinked entries helement
    case h_2 fields => exact Writer.settled (Value.fails_writeFields fields)
    case h_3 => exact .throw trivial
    case h_4 => exact .throw trivial

section

variable {p : Error → Prop} {inside : Ty → Read Datum}

theorem fails_readMember {members : List Member}
    (hreading : ∀ error : Error, error.IsReading → p error)
    (hinside : ∀ member ∈ members, Fails p (inside member.type))
    (values : List Datum) : Fails p (readMember inside members values) := by
  refine (Reader.fails_nextName.mono hreading).bind fun name => ?_
  split
  · split
    · rename_i member hmember
      have hmem := List.mem_of_getElem? hmember
      exact (hinside member hmem).bind fun _ => .pure _
    · exact .pure _
  · exact (Reader.fails_skip.mono hreading).bind fun _ => .pure _

/-- Reading fails as the reading inside of arrays and objects does, or for a reason of the stream or
of the value.  The induction is on the type. -/
theorem fails_readWith (known : Ty → Prop) (hreading : ∀ error : Error, error.IsReading → p error)
    (hvalue : ∀ fault, (Error.value fault).IsSettled → p (.value fault))
    (hnone : ∀ type, known type → table.rule? type = none → p (.value (.unresolved type.name)))
    (hlinks : ∀ type rule, table.rule? type = some rule → ∀ next ∈ rule.links type, known next)
    (hinside : ∀ type, known type → Fails p (inside type)) :
    ∀ type : Ty, known type → Fails p (table.readWith inside type) := by
  intro type hknown
  unfold readWith
  split
  case h_1 hrule => exact .throw (hnone type hknown hrule)
  case h_2 custom hrule => exact custom.fails_read.mono hreading
  case h_3 members hrule =>
    have hmember := fails_readMember hreading fun member hmember =>
      hinside member.type (hlinks type _ hrule member.type
        (List.mem_append_right _ (List.mem_map_of_mem hmember)))
    exact (Reader.fails_beginObject.mono hreading).bind fun _ =>
      (Reader.fails_untilEnd hreading hmember _).bind fun _ =>
        ((Reader.fails_close _).mono hreading).bind fun _ => .pure _
  case h_4 hrule =>
    have hinner : ∀ inner ∈ type.inner, known inner := hlinks type _ hrule
    cases type with
    | integer width =>
      refine (Reader.fails_readNumber.mono hreading).bind fun _ => .ite (.pure _) ?_
      exact .throw (hvalue _ trivial)
    | bool => exact (Reader.fails_readBool.mono hreading).bind fun _ => .pure _
    | string => exact (Reader.fails_readString.mono hreading).bind fun _ => .pure _
    | unit => exact (Reader.fails_skip.mono hreading).bind fun _ => .pure _
    | instant =>
      refine (Reader.fails_readNumber.mono hreading).bind fun _ => ?_
      split
      · exact .pure _
      · obtain ⟨number, rfl⟩ := Instant.ofSeconds_error ‹_›
        exact .throw (hvalue _ trivial)
    | value => exact (Value.fails_read.mono hreading).bind fun _ => .pure _
    | option inner =>
      have h := fails_readWith known hreading hvalue hnone hlinks hinside inner
        (hinner inner (List.mem_singleton_self inner))
      exact h.bind fun _ => .pure _
    | list element =>
      have helement := hinside element (hinner element (List.mem_singleton_self element))
      exact (Reader.fails_beginArray.mono hreading).bind fun _ =>
        (Reader.fails_items hreading helement).bind fun _ =>
          ((Reader.fails_close _).mono hreading).bind fun _ => .pure _
    | map kind element =>
      have helement := hinside element (hinner element (List.mem_singleton_self element))
      refine (Reader.fails_beginObject.mono hreading).bind fun _ =>
        (Reader.fails_untilEnd hreading (fun _ => ?_) _).bind fun _ =>
          ((Reader.fails_close _).mono hreading).bind fun _ => .pure _
      exact (Reader.fails_nextName.mono hreading).bind fun _ => helement.bind fun _ => .pure _
    | model name => exact .throw (hvalue _ trivial)
    | foreign name => exact .throw (hvalue _ trivial)
    | refusing name reason => exact .throw (hvalue _ trivial)

end

theorem fails_readWithin (hlinked : table.Linked) : ∀ (budget : Nat) (type : Ty),
    knows table type = true → Fails Error.IsSettled (table.readWithin budget type)
  | 0, _, _ => Reader.settled (Reader.fails_fail .tooDeep)
  | budget + 1, type, hknown =>
    fails_readWith (knows table · = true) (fun _ => Error.IsReading.isSettled) (fun _ h => h)
      (fun _ hknown hnone => by simp [knows, hnone] at hknown) hlinked
      (fails_readWithin hlinked budget) type hknown

/-- **The adapters of a linked table are complete.** -/
theorem Linked.complete (hlinked : table.Linked) (hknown : knows table type = true) :
    Adapter.Complete ⟨table, type⟩ where
  absent _ := absent_settled hknown
  token _ _ := token_settled hlinked hknown
  write datum := fails_write hlinked datum hknown
  writeEntry name datum := by
    refine .ite (.pure _) ?_
    exact (fails_writeName hlinked hknown name datum).bind fun _ => fails_write hlinked datum hknown
  writeFields := fails_writeFields hlinked hknown
  read := fails_readWithin hlinked _ type hknown

end Table

end RemoteCall
