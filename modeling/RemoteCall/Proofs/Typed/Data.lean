/-
# Values of declared types, and how they come back

A datum does not say its type, so which data a declared type has is a relation (`HasType`).  Not
every datum comes back from the wire as it was written.  An absent member gives way to the member's
default and an absent map entry is gone; a generic value loses its null fields and a point in time
its fraction of a second.  `Datum.norm` is the value that comes back.
-/
import RemoteCall.Proofs.Value.Writing
import RemoteCall.Typed.Type
import RemoteCall.Typed.Instant

namespace RemoteCall

/-! ## 1. Data of a type -/

/-- The datum is a value of the type.  The models that types name are those of the catalog. -/
inductive HasType (catalog : Catalog) : Datum → Ty → Prop
  | integer {width : IntWidth} {n : Int} (fits : width.contains n = true) :
    HasType catalog (.integer n) (.integer width)
  | bool (b : Bool) : HasType catalog (.bool b) .bool
  | string (text : String) : HasType catalog (.string text) .string
  | unit : HasType catalog .unit .unit
  | instant (nanoseconds : Int) : HasType catalog (.instant nanoseconds) .instant
  | value {value : Value} (ordered : value.Ordered) : HasType catalog (.value value) .value
  | none (inner : Ty) : HasType catalog .none (.option inner)
  | some {inner : Ty} {datum : Datum} (inner_typed : HasType catalog datum inner) :
    HasType catalog (.some datum) (.option inner)
  | list {element : Ty} {items : List Datum} (items_typed : ∀ item ∈ items,
      HasType catalog item element) : HasType catalog (.list items) (.list element)
  /-- A sorted map has its entries in order. -/
  | sorted {element : Ty} {entries : List (String × Datum)} (ordered : Fields.Ordered entries)
    (entries_typed : ∀ entry ∈ entries, HasType catalog entry.2 element) :
    HasType catalog (.map entries) (.map .sorted element)
  /-- A hashed map has its entries in any order, each name once. -/
  | hashed {element : Ty} {entries : List (String × Datum)} (distinct : (entries.map (·.1)).Nodup)
    (entries_typed : ∀ entry ∈ entries, HasType catalog entry.2 element) :
    HasType catalog (.map entries) (.map .hashed element)
  | record {name : String} {members : List Member} {values : List Datum}
    (found : catalog.lookup name = Option.some members)
    (values_typed : List.Forall₂ (fun value member => HasType catalog value member.type)
      values members) : HasType catalog (.record values) (.model name)

/-- Whether the datum stands for missing data: nothing, the unit, a null, or one of them inside an
option. -/
def Datum.isAbsent : Datum → Bool
  | .unit => true
  | .value generic => generic.isNull
  | .none => true
  | .some datum => datum.isAbsent
  | _ => false

mutual

/-- The points in time in a datum. -/
def Datum.instants : Datum → List Int
  | .instant nanoseconds => [nanoseconds]
  | .some datum => datum.instants
  | .list items => itemInstants items
  | .map entries => entryInstants entries
  | .record values => itemInstants values
  | _ => []

/-- The points in time in items or members. -/
def Datum.itemInstants : List Datum → List Int
  | [] => []
  | item :: items => item.instants ++ itemInstants items

/-- The points in time in the entries of a map. -/
def Datum.entryInstants : List (String × Datum) → List Int
  | [] => []
  | (_, datum) :: entries => datum.instants ++ entryInstants entries

end

/-! ## 2. What comes back -/

mutual

/-- The value of a type as it comes back from the wire.  The entries of a hashed map come back in
the order of their names. -/
def Datum.norm (catalog : Catalog) : Datum → Ty → Datum
  | .instant nanoseconds, _ =>
    .instant (nanoseconds.tdiv Instant.nanosPerSecond * Instant.nanosPerSecond)
  | .value generic, _ => .value generic.strip
  | .some datum, .option inner => .some (datum.norm catalog inner)
  | .list items, .list element => .list (normItems catalog items element)
  | .map entries, .map .sorted element => .map (normEntries catalog entries element)
  | .map entries, .map .hashed element => .map (Fields.ofList (normEntries catalog entries element))
  | .record values, .model name =>
    .record (normMembers catalog values ((catalog.lookup name).getD []))
  | datum, _ => datum

/-- The elements of a list as they come back. -/
def Datum.normItems (catalog : Catalog) : List Datum → Ty → List Datum
  | [], _ => []
  | item :: items, element => item.norm catalog element :: normItems catalog items element

/-- The entries of a map that are not absent, as they come back. -/
def Datum.normEntries (catalog : Catalog) : List (String × Datum) → Ty → List (String × Datum)
  | [], _ => []
  | (name, datum) :: entries, element =>
    if datum.isAbsent then normEntries catalog entries element
    else (name, datum.norm catalog element) :: normEntries catalog entries element

/-- The members of a record as they come back: the default of those that are absent. -/
def Datum.normMembers (catalog : Catalog) : List Datum → List Member → List Datum
  | datum :: values, member :: members =>
    (if datum.isAbsent then member.default else datum.norm catalog member.type) ::
      normMembers catalog values members
  | _, _ => []

end

theorem Datum.names_normEntries (catalog : Catalog) : ∀ (entries : List (String × Datum))
    (element : Ty), ((normEntries catalog entries element).map (·.1)).Sublist (entries.map (·.1))
  | [], _ => by
    rw [normEntries]
  | (name, datum) :: entries, element => by
    unfold normEntries
    split
    · exact (names_normEntries catalog entries element).cons name
    · exact (names_normEntries catalog entries element).cons_cons name

/-- A hashed map comes back with the same entries as a sorted one, if in another order. -/
theorem Datum.norm_hashed (catalog : Catalog) {entries : List (String × Datum)} {element : Ty}
    (distinct : (entries.map (·.1)).Nodup) :
    ∃ kept, (Datum.map entries).norm catalog (.map .hashed element) = .map kept ∧
      kept.Perm (normEntries catalog entries element) ∧ Fields.Ordered kept := by
  refine ⟨_, by rw [norm], Fields.perm_ofList ?_, Fields.ordered_ofList _⟩
  exact distinct.sublist (names_normEntries catalog entries element)

end RemoteCall
