/-
# Adapters of a table that grows

An adapter looks up the types that it calls on when it is used.  By then more types may have been
resolved than when it was made.  That makes no difference: a table that keeps the entries of a
linked one answers for the types of that one just as it did (`Linked.alike`).  So a reference to a
type may stand for the type's adapter at any time from the moment the type has been resolved.

As for `Linked.complete`, the proofs follow the operations of an adapter.
-/
import RemoteCall.Proofs.Typed.Linked

namespace RemoteCall

open Wire

/-- Two adapters that do the same. -/
structure Adapter.Alike (first second : Adapter) : Prop where
  isAbsent : first.isAbsent = second.isAbsent
  absent : first.absent = second.absent
  token : first.token = second.token
  write : first.write = second.write
  writeEntry : first.writeEntry = second.writeEntry
  isObject : first.isObject = second.isObject
  writeFields : first.writeFields = second.writeFields
  read : first.read = second.read

namespace Table

open Registry (knows)

variable {table table' : Table} {type : Ty} {rule : Rule}

/-- The entries of the first table are those of the second, as far as they go. -/
def Extends (table table' : Table) : Prop :=
  ∀ type rule, table.rule? type = some rule → table'.rule? type = some rule

theorem extends_append (table more : Table) : table.Extends (table ++ more) := by
  intro type rule hrule
  unfold rule? at hrule ⊢
  rw [List.lookup_append, hrule]
  rfl

/-! ## 1. Absence and tokens -/

theorem isAbsent_grown (hlinked : table.Linked) (hextends : table.Extends table')
    (datum : Datum) (type : Ty) (hknown : knows table type = true) :
    table.isAbsent datum type = table'.isAbsent datum type := by
  obtain ⟨rule, hrule⟩ := Option.isSome_iff_exists.mp hknown
  unfold isAbsent
  rw [hrule, hextends type rule hrule]
  split
  case h_1 h => cases h
  case h_2 => rfl
  case h_3 rule' hown h =>
    cases h
    split
    case h_4 inner datum =>
      have hinner := hlinked.inner hrule hown (List.mem_singleton_self inner)
      exact isAbsent_grown hlinked hextends datum inner hinner
    all_goals rfl

theorem token_grown (hlinked : table.Linked) (hextends : table.Extends table')
    (datum : Datum) (type : Ty) (hknown : knows table type = true) :
    table.token datum type = table'.token datum type := by
  obtain ⟨rule, hrule⟩ := Option.isSome_iff_exists.mp hknown
  unfold token
  rw [hrule, hextends type rule hrule]
  split
  case h_1 h => cases h
  case h_2 => rfl
  case h_3 rule' hown h =>
    cases h
    split
    case h_8 inner datum =>
      have hinner := hlinked.inner hrule hown (List.mem_singleton_self inner)
      exact token_grown hlinked hextends datum inner hinner
    all_goals rfl

theorem absent_grown (hextends : table.Extends table') (hknown : knows table type = true) :
    table.absent type = table'.absent type := by
  obtain ⟨rule, hrule⟩ := Option.isSome_iff_exists.mp hknown
  unfold absent
  rw [hrule, hextends type rule hrule]

theorem writeName_grown (hlinked : table.Linked) (hextends : table.Extends table')
    (hknown : knows table type = true) (name : String) (datum : Datum) :
    table.writeName name datum type = table'.writeName name datum type := by
  unfold writeName
  rw [token_grown hlinked hextends datum type hknown]

/-! ## 2. Writing -/

mutual

/-- **A datum is written as before.**  The induction is on the datum. -/
theorem write_grown (hlinked : table.Linked) (hextends : table.Extends table') :
    ∀ (datum : Datum) (type : Ty), knows table type = true →
      table.write datum type = table'.write datum type
  | datum, type, hknown => by
    obtain ⟨rule, hrule⟩ := Option.isSome_iff_exists.mp hknown
    unfold write
    rw [hrule, hextends type rule hrule]
    split
    case h_1 h => cases h
    case h_2 => rfl
    case h_3 rule' hown h =>
      cases h
      have hinner : ∀ {inner}, inner ∈ type.inner → knows table inner = true :=
        fun h => hlinked.inner hrule hown h
      split
      case h_8 datum =>
        cases type
        case option inner =>
          exact write_grown hlinked hextends datum inner (hinner (List.mem_singleton_self inner))
        all_goals rfl
      case h_9 items =>
        cases type
        case list element =>
          have helement := hinner (List.mem_singleton_self element)
          simp only [writeItems_grown hlinked hextends items element helement]
        all_goals rfl
      case h_10 entries =>
        cases type
        case map kind element =>
          have helement := hinner (List.mem_singleton_self element)
          simp only [writeEntries_grown hlinked hextends entries element helement]
        all_goals rfl
      case h_11 values =>
        cases rule with
        | members members =>
          have hmembers := hlinked.members hrule
          simp only [writeMembers_grown hlinked hextends values members hmembers]
        | structural => rfl
        | custom custom => rfl
      all_goals rfl

theorem writeItems_grown (hlinked : table.Linked) (hextends : table.Extends table') :
    ∀ (items : List Datum) (element : Ty), knows table element = true →
      table.writeItems items element = table'.writeItems items element
  | [], _, _ => rfl
  | item :: items, element, hknown => by
    rw [writeItems, writeItems, isAbsent_grown hlinked hextends item element hknown,
      write_grown hlinked hextends item element hknown,
      writeItems_grown hlinked hextends items element hknown]

theorem writeEntries_grown (hlinked : table.Linked) (hextends : table.Extends table') :
    ∀ (entries : List (String × Datum)) (element : Ty), knows table element = true →
      table.writeEntries entries element = table'.writeEntries entries element
  | [], _, _ => rfl
  | (name, datum) :: entries, element, hknown => by
    rw [writeEntries, writeEntries, isAbsent_grown hlinked hextends datum element hknown,
      writeName_grown hlinked hextends hknown, write_grown hlinked hextends datum element hknown,
      writeEntries_grown hlinked hextends entries element hknown]

theorem writeMembers_grown (hlinked : table.Linked) (hextends : table.Extends table') :
    ∀ (values : List Datum) (members : List Member),
      (∀ member ∈ members, knows table member.type = true) →
      table.writeMembers values members = table'.writeMembers values members
  | [], _, _ => rfl
  | datum :: values, [], _ => rfl
  | datum :: values, member :: members, hknown => by
    obtain ⟨hmember, hmembers⟩ := List.forall_mem_cons.mp hknown
    rw [writeMembers, writeMembers, isAbsent_grown hlinked hextends datum member.type hmember,
      writeName_grown hlinked hextends hmember,
      write_grown hlinked hextends datum member.type hmember,
      writeMembers_grown hlinked hextends values members hmembers]

end

theorem writeFields_grown (hlinked : table.Linked) (hextends : table.Extends table')
    (hknown : knows table type = true) (datum : Datum) :
    table.writeFields datum type = table'.writeFields datum type := by
  obtain ⟨rule, hrule⟩ := Option.isSome_iff_exists.mp hknown
  unfold writeFields
  rw [hrule, hextends type rule hrule]
  cases rule with
  | custom custom => rfl
  | members members =>
    cases datum
    case record values =>
      exact writeMembers_grown hlinked hextends values members (hlinked.members hrule)
    all_goals rfl
  | structural =>
    dsimp only
    split
    case h_1 kind element entries =>
      have helement := hlinked.inner hrule (by simp) (List.mem_singleton_self element)
      exact writeEntries_grown hlinked hextends entries element helement
    all_goals rfl

/-! ## 3. Reading -/

theorem readMember_congr {inside inside' : Ty → Read Datum} {members : List Member}
    (hinside : ∀ member ∈ members, inside member.type = inside' member.type) :
    readMember inside members = readMember inside' members := by
  funext values
  unfold readMember
  congr 1
  funext name
  split
  · split
    · rename_i member hmember
      rw [hinside member (List.mem_of_getElem? hmember)]
    · rfl
  · rfl

/-- A value is read as before if what is inside of arrays and objects is.  The induction is on the
type. -/
theorem readWith_grown (hlinked : table.Linked) (hextends : table.Extends table')
    {inside inside' : Ty → Read Datum}
    (hinside : ∀ type, knows table type = true → inside type = inside' type) :
    ∀ type : Ty, knows table type = true →
      table.readWith inside type = table'.readWith inside' type := by
  intro type hknown
  obtain ⟨rule, hrule⟩ := Option.isSome_iff_exists.mp hknown
  unfold readWith
  rw [hrule, hextends type rule hrule]
  cases rule with
  | custom custom => rfl
  | members members =>
    have hmember := readMember_congr fun member hmember =>
      hinside member.type (hlinked.members hrule member hmember)
    dsimp only
    rw [hmember]
  | structural =>
    have hinner : ∀ {inner}, inner ∈ type.inner → knows table inner = true :=
      fun h => hlinked.inner hrule (by simp) h
    cases type
    case option inner =>
      have hvalue := readWith_grown hlinked hextends hinside inner
        (hinner (List.mem_singleton_self inner))
      simp only [hvalue]
    case list element =>
      have helement := hinside element (hinner (List.mem_singleton_self element))
      simp only [helement]
    case map kind element =>
      have helement := hinside element (hinner (List.mem_singleton_self element))
      simp only [helement]
    all_goals rfl

theorem readWithin_grown (hlinked : table.Linked) (hextends : table.Extends table') :
    ∀ (budget : Nat) (type : Ty), knows table type = true →
      table.readWithin budget type = table'.readWithin budget type
  | 0, _, _ => rfl
  | budget + 1, type, hknown =>
    readWith_grown hlinked hextends (readWithin_grown hlinked hextends budget) type hknown

/-- **A table that grows keeps its adapters as they are.** -/
theorem Linked.alike (hlinked : table.Linked) (hextends : table.Extends table')
    (hknown : knows table type = true) : Adapter.Alike ⟨table, type⟩ ⟨table', type⟩ where
  isAbsent := funext fun datum => isAbsent_grown hlinked hextends datum type hknown
  absent := absent_grown hextends hknown
  token := funext fun datum => token_grown hlinked hextends datum type hknown
  write := funext fun datum => write_grown hlinked hextends datum type hknown
  writeEntry := by
    funext name datum
    unfold Adapter.writeEntry Adapter.isAbsent Adapter.write
    dsimp only
    rw [isAbsent_grown hlinked hextends datum type hknown,
      writeName_grown hlinked hextends hknown, write_grown hlinked hextends datum type hknown]
  isObject := by
    obtain ⟨rule, hrule⟩ := Option.isSome_iff_exists.mp hknown
    unfold Adapter.isObject isObject
    dsimp only
    rw [hrule, hextends type rule hrule]
  writeFields := funext fun datum => writeFields_grown hlinked hextends hknown datum
  read := readWithin_grown hlinked hextends _ type hknown

end Table

end RemoteCall
