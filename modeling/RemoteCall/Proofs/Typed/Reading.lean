/-
# What a declared type reads

A value of a declared type is read by the type's structure.  This module says what tree is read as
what value (`Ty.datumWithin?`), by the catalog alone, and shows that a table that hangs together
reads exactly so (`recognizes_readWithin`): every type it knows accepts exactly the trees that have
a meaning for the type.

As in the reader, a tree that is nested needs a budget, and a budget beyond the room that is left
for nesting never runs out.
-/
import RemoteCall.Proofs.Typed.Resolving
import RemoteCall.Proofs.Value.Grammar
import RemoteCall.Proofs.Wire.Verdict

namespace RemoteCall

open Wire Wire.Reader Success

/-! ## 1. Trees as values of a type -/

namespace Ty

/-- The members of a record after one more entry has been read.  An entry that is not a member's
changes nothing. -/
def setMember? (inside : Ty → Tree → Option Datum) (members : List Member) (values : List Datum)
    (name : String) (tree : Tree) : Option (List Datum) :=
  match members.findIdx? (·.wireName == name) with
  | some index =>
    match members[index]? with
    | some member => (inside member.type tree).map fun datum => values.set index datum
    | none => some values
  | none => some values

/-- The value of a type that a tree is read as, given what the trees inside of it are read as. -/
def datumWith? (catalog : Catalog) (inside : Ty → Tree → Option Datum) :
    Ty → Tree → Option Datum
  | .integer width, tree => tree.number?.bind fun n =>
    if width.contains n.toInt then some (.integer n.toInt) else none
  | .bool, tree => tree.bool?.map .bool
  | .string, tree => tree.text?.map .string
  | .unit, _ => some .unit
  | .instant, tree => tree.number?.bind fun n => (Instant.ofSeconds n).toOption.map .instant
  | .value, tree => some (.value tree.value)
  | .option inner, tree => (datumWith? catalog inside inner tree).map .some
  | .list element, tree => (tree.items?.bind (·.mapM (inside element))).map .list
  | .map _ element, tree => (tree.entries?.bind (·.foldlM (fun (fields : Fields Datum) entry =>
      (inside element entry.2).map fun datum => fields.insert entry.1.text datum) [])).map .map
  | .model name, tree => (catalog.lookup name).bind fun members =>
    (tree.entries?.bind (·.foldlM (fun values entry =>
      setMember? inside members values entry.1.text entry.2) (members.map (·.default)))).map .record
  | .foreign _, _ => none
  | .refusing _ _, _ => none

/-- The value of a type that a tree is read as, nested at most `budget - 1` scopes deep. -/
def datumWithin? (catalog : Catalog) : (budget : Nat) → Ty → Tree → Option Datum
  | 0, _, _ => none
  | budget + 1, type, tree => datumWith? catalog (datumWithin? catalog budget) type tree

end Ty

/-! ## 2. Reading by a table that hangs together -/

namespace Table

variable {catalog : Catalog} {table : Table} {scopes : List Scope} {inside : Ty → Read Datum}
  {insideTree : Ty → Tree → Option Datum}

theorem recognizes_readInteger (width : IntWidth) :
    Recognizes (readInteger width) scopes fun tree => tree.number?.bind fun n =>
      if width.contains n.toInt then some (.integer n.toInt) else none := by
  refine recognizes_number.bind fun n datum before after => ?_
  by_cases h : width.contains n.toInt = true
  · rw [if_pos h, if_pos h, pure_ok, Option.some.injEq, eq_comm (a := datum)]
  · simp [h]

theorem recognizes_readInstant :
    Recognizes readInstant scopes fun tree => tree.number?.bind fun n =>
      (Instant.ofSeconds n).toOption.map .instant := by
  refine recognizes_number.bind fun n datum before after => ?_
  cases Instant.ofSeconds n with
  | error error => simp [Except.toOption]
  | ok nanoseconds =>
    rw [pure_ok, Except.toOption, Option.map_some, Option.some.injEq, eq_comm (a := datum)]

/-- A member that is found by its wire name has its place among the members. -/
theorem getElem?_of_findIdx? {members : List Member} {p : Member → Bool} {index : Nat}
    (h : members.findIdx? p = some index) : ∃ member, members[index]? = some member := by
  obtain ⟨hlt, -⟩ := List.findIdx?_eq_some_iff_getElem.mp h
  exact ⟨_, List.getElem?_eq_getElem hlt⟩

/-- What the value of one entry does to the members of a record. -/
theorem recognizes_member (members : List Member) (values : List Datum) (name : String)
    (hinside : ∀ member ∈ members,
      Recognizes (inside member.type) scopes (insideTree member.type)) :
    Recognizes (match members.findIdx? (·.wireName == name) with
      | some index =>
        match members[index]? with
        | some member => do return values.set index (← inside member.type)
        | none => return values
      | none => do
        Reader.skip
        return values) scopes (Ty.setMember? insideTree members values name) := by
  unfold Ty.setMember?
  cases hindex : members.findIdx? (·.wireName == name) with
  | none => exact recognizes_skip.map fun _ => values
  | some index =>
    obtain ⟨member, hmember⟩ := getElem?_of_findIdx? hindex
    simp only [hmember]
    exact (hinside member (List.mem_of_getElem? hmember)).map fun datum => values.set index datum

/-- **One level of reading.**  Options add no nesting, so the recursion is on the type. -/
theorem recognizes_readWith (hclosed : table.Closed catalog)
    (hinside : ∀ (scope : Scope) (type : Ty), scopes.length < maxDepth →
      Registry.knows table type = true →
      Recognizes (inside type) (scope :: scopes) (insideTree type)) :
    ∀ (type : Ty), Registry.knows table type = true →
      Recognizes (table.readWith inside type) scopes (Ty.datumWith? catalog insideTree type) := by
  intro type hknown
  obtain ⟨rule, hrule, hgrounded⟩ := hclosed.rule? hknown
  unfold readWith
  rw [hrule]
  cases hgrounded
  case integer width => exact recognizes_readInteger width
  case bool => exact recognizes_boolean.map Datum.bool
  case string => exact recognizes_string.map Datum.string
  case unit => exact recognizes_skip.map fun _ => Datum.unit
  case instant => exact recognizes_readInstant
  case value => exact Value.recognizes_read.map Datum.value
  case option inner hinner =>
    exact (recognizes_readWith hclosed hinside inner hinner).map Datum.some
  case list element helement =>
    exact recognizes_items Datum.list fun hroom => hinside .array _ hroom helement
  case map kind element helement =>
    exact recognizes_object Datum.map ([] : Fields Datum) fun hroom (fields : Fields Datum) name =>
      (hinside .object _ hroom helement).map fun datum => fields.insert name datum
  case model name members hfound hnames hmembers =>
    have hrecord := recognizes_object Datum.record (members.map (·.default))
      fun hroom values name => recognizes_member members values name
        fun member hmember => hinside .object _ hroom (hmembers member hmember)
    simp only [Ty.datumWith?, hfound, Option.bind_some]
    exact hrecord

/-- **A table that hangs together reads a type exactly as its trees mean.**  The induction is on the
budget. -/
theorem recognizes_readWithin (hclosed : table.Closed catalog) :
    ∀ {budget : Nat} {scopes : List Scope} {type : Ty}, room scopes < budget →
      Registry.knows table type = true →
      Recognizes (table.readWithin budget type) scopes (Ty.datumWithin? catalog budget type)
  | 0, _, _, h, _ => absurd h (Nat.not_lt_zero _)
  | budget + 1, scopes, type, h, hknown => by
    refine recognizes_readWith hclosed (fun scope type hroom hknown => ?_) type hknown
    exact recognizes_readWithin hclosed (room_cons_lt hroom h) hknown

/-! ## 3. Whole streams -/

theorem looksAhead_custom (rule : CustomRule) : LooksAhead rule.read := by
  cases rule <;> exact ((looksAhead_consume _ _).bind _).bind _

/-- Whatever the table says, reading looks ahead first. -/
theorem looksAhead_readWith (table : Table) (inside : Ty → Read Datum) :
    ∀ type : Ty, LooksAhead (table.readWith inside type) := by
  intro type
  unfold readWith
  cases table.rule? type with
  | none => exact looksAhead_throw _
  | some rule =>
    cases rule
    case custom rule => exact looksAhead_custom rule
    case members members => exact ((looksAhead_consume _ _).bind _).bind _
    case structural =>
      cases type
      case unit => exact looksAhead_skip.bind _
      case value => exact (looksAhead_peek.bind _).bind _
      case option inner => exact (looksAhead_readWith table inside inner).bind _
      case model name => exact looksAhead_throw _
      case foreign name => exact looksAhead_throw _
      case refusing name reason => exact looksAhead_throw _
      all_goals exact ((looksAhead_consume _ _).bind _).bind _

/-- A value that stands first in a stream, and alone, is decoded as it is read. -/
theorem decode_of_readsAs {type : Ty} {tree : Tree} {tail : Bytes}
    {verdict : Except Error Datum} (h : ReadsAs (table.read type) tree verdict)
    (hdepth : tree.depth ≤ maxDepth)
    (htail : EndsStream tail) :
    Adapter.decode ⟨table, type⟩ (tree.bytes ++ tail) = verdict := by
  have hread := h.ofBytes (looksAhead_readWith table _ type) hdepth tail
  rw [Adapter.decode, onBytes_eq, Adapter.readAll, Adapter.read, outcome_bind, hread]
  cases verdict with
  | error error => rfl
  | ok datum =>
    obtain ⟨rest, after, hfinish⟩ := exists_finish_ok_iff.mpr htail
    have hdiscard : (discard finish) ⟨tail, tree.bytes.length, [], none, none⟩ = .ok () after :=
      discard_ok.mpr ⟨rest, hfinish⟩
    exact congrArg (Except.map Prod.fst) (outcome_bind_of_ok hdiscard)

/-- **A whole stream of one value** is read as what its tree means. -/
theorem decode_stream {type : Ty} {tree : Tree} {datum : Datum} (hclosed : table.Closed catalog)
    (hknown : Registry.knows table type = true) (hdepth : tree.depth ≤ maxDepth)
    (hdatum : Ty.datumWithin? catalog (maxDepth + 1) type tree = some datum) (suffix : Bytes) :
    Adapter.decode ⟨table, type⟩ (tree.bytes ++ 0x00 :: suffix) = .ok datum := by
  have hread : ReadsAs (table.read type) tree (.ok datum) :=
    readsAs_of_recognizes (fun scopes =>
      recognizes_readWithin hclosed (Nat.lt_succ_of_le (room_le scopes)) hknown) hdatum
  exact decode_of_readsAs hread hdepth (.inr ⟨suffix, rfl⟩)

/-- What is decoded stands as a tree at the start of the stream. -/
theorem exists_tree_of_decode {type : Ty} {datum : Datum} {bytes : Bytes}
    (hclosed : table.Closed catalog) (hknown : Registry.knows table type = true)
    (h : Adapter.decode ⟨table, type⟩ bytes = .ok datum) :
    ∃ tree tail, tree.depth ≤ maxDepth ∧
      type.datumWithin? catalog (maxDepth + 1) tree = some datum ∧ bytes = tree.bytes ++ tail := by
  obtain ⟨after, hall⟩ := Reader.onBytes_ok.mp h
  obtain ⟨found, seen, hread, hrest⟩ := bind_ok.mp hall
  obtain ⟨_, _, -, hfound⟩ := bind_ok.mp hrest
  obtain ⟨rfl, -⟩ := pure_ok.mp hfound
  have hrecognizes := recognizes_readWithin hclosed (Nat.lt_succ_of_le (room_le [])) hknown
  obtain ⟨tree, tail, hdepth, htree, rfl, -⟩ :=
    (hrecognizes.ofBytes_ok (looksAhead_readWith table _ type)).mp hread
  exact ⟨tree, tail, hdepth, htree, rfl⟩

end Table

end RemoteCall
