/-
# Decoding ends, and how deep it goes

Decoding calls on itself for the values inside of arrays and objects, and for what an option holds.
The definitions bound this recursion by a budget, and loops by the bytes that are left.  Neither
bound is part of what is decoded: this module shows that nothing ever comes up against them.

* `Decoding.step` is the recursion itself, one call deep.  What it calls on is a parameter.
* The operations solve its equation (`Decoding.step_of`), and unrolled deep enough the recursion
  gives what they give, whatever is put in the place of the calls beyond (`typed_unrolled`).  So they
  are its only solution, and no call is ever made deeper.
* The loops that it runs are listed by `Loop`.  Each round of them takes a byte, so they end too.

The measure of the recursion: a scope is opened only while the nesting is below its limit, and the
calls in one scope are the options in a row that the type has, and one for what they hold.  That is
why the depth is the limit and one more, times a number that depends only on the types that the
declared type leads to (`Table.Covers`).  The recursion of a model through itself opens a scope at
each turn.
-/
import RemoteCall.Proofs.Reader.Advancing
import RemoteCall.Proofs.Typed.Linked
import RemoteCall.Proofs.Typed.Reading
import RemoteCall.Proofs.Typed.Vocabulary
import Mathlib.Data.Finset.Lattice.Fold
import Mathlib.Logic.Relation

namespace RemoteCall

open Wire Success

namespace Wire.Reader

variable {α β : Type} {depth count : Nat}

/-! ## 1. Operations that agree at a depth of nesting -/

/-- The operations do the same where `depth` scopes are open. -/
def AgreeAt (depth : Nat) (x y : Read α) : Prop :=
  ∀ reader : Reader, reader.depth = depth → x reader = y reader

namespace AgreeAt

theorem refl (x : Read α) : AgreeAt depth x x := fun _ _ => rfl

theorem first {x y : Read α} (h : AgreeAt depth x y) (f : α → Read β) :
    AgreeAt depth (x >>= f) (y >>= f) :=
  fun reader hdepth => bind_congr_of_ok (h reader hdepth) fun _ _ _ => rfl

/-- What leaves the scopes as they are may come before. -/
theorem after {x : Read α} {f g : α → Read β} (hx : Takes count x)
    (h : ∀ a, AgreeAt depth (f a) (g a)) : AgreeAt depth (x >>= f) (x >>= g) := by
  intro reader hdepth
  refine bind_congr_of_ok rfl fun a next hnext => h a next ?_
  rw [Reader.depth, (hx reader a next hnext).2]
  exact hdepth

end AgreeAt

/-- **Loops agree if their steps do.**  The induction is on the bound of the rounds. -/
theorem agreeAt_foldNext {step step' : α → Read α} (h : ∀ a, AgreeAt depth (step a) (step' a))
    (hstep : ∀ a, Takes 0 (step' a)) (left : Bytes) :
    ∀ a, AgreeAt depth (foldNext step left a) (foldNext step' left a) := by
  induction left with
  | nil =>
    intro a
    refine .after takes_hasNext fun more => ?_
    cases more with
    | false => exact .refl _
    | true => exact h a
  | cons byte left ih =>
    intro a
    refine .after takes_hasNext fun more => ?_
    cases more with
    | false => exact .refl _
    | true =>
      intro reader hdepth
      refine bind_congr_of_ok (h a reader hdepth) fun b next hnext => ih b next ?_
      rw [h a reader hdepth] at hnext
      rw [Reader.depth, (hstep a reader b next hnext).2]
      exact hdepth

/-- **Scopes agree if what is read inside of them does**, one deeper. -/
theorem agreeAt_scope {step step' : α → Read α}
    (h : depth < maxDepth → ∀ a, AgreeAt (depth + 1) (step a) (step' a))
    (hstep : ∀ a, Takes 0 (step' a)) (opening : Token) (expected : Expectation) (scope : Scope)
    (start : α) (ending : α → Read β) :
    AgreeAt depth ((do consume opening expected; push scope) >>= fun _ =>
        untilEnd step start >>= ending)
      ((do consume opening expected; push scope) >>= fun _ => untilEnd step' start >>= ending) := by
  intro reader hdepth
  refine bind_congr_of_ok rfl fun _ inside hopens => ?_
  obtain ⟨-, hscopes, -, hroom⟩ := opens_leaves_unpeeked hopens
  have hinside : inside.depth = depth + 1 := by
    rw [← hdepth, Reader.depth, hscopes]
    rfl
  have hloop : untilEnd step start inside = untilEnd step' start inside :=
    agreeAt_foldNext (h (hdepth ▸ hroom)) hstep inside.rest start inside hinside
  exact bind_congr_of_ok hloop fun _ _ _ => rfl

end Wire.Reader

open Wire.Reader

/-! ## 2. The recursion, one call deep -/

/-- Skips a value, and the values inside of it with `inside`. -/
def Wire.Reader.skipStep (inside : Read Unit) : Read Unit := do
  let token ← peek
  dropName
  match token with
  | .number => discard readNumber
  | .string => discard readString
  | .boolean => discard readBool
  | .beginArray =>
    beginArray
    untilEnd (fun _ => inside) ()
    endArray
  | .beginObject =>
    beginObject
    untilEnd (fun _ => do discard nextName; inside) ()
    endObject
  | token => throw (.unexpected .value token)

/-- Reads a generic value, and the values inside of it with `inside`. -/
def Value.readStep (inside : Read Value) : Read Value := do
  match ← peek with
  | .number => return .integer (← readNumber).toInt
  | .string => return .string (← readString)
  | .boolean => return .bool (← readBool)
  | .beginArray =>
    beginArray
    let values ← items inside
    endArray
    return .array values
  | .beginObject =>
    beginObject
    let fields ← untilEnd (fun (fields : Fields Value) => do
      let name ← nextName
      let value ← inside
      return fields.insert name value) []
    endObject
    return .object fields
  | token => throw (.unexpected .value token)

/-- What decoding calls on. -/
structure Decoding where
  skip : Read Unit
  value : Read Value
  typed : Ty → Read Datum

namespace Table

/-- Puts the value of a member in its place in a record. -/
def memberStep (calls : Decoding) (members : List Member) (values : List Datum) :
    Read (List Datum) := do
  let name ← nextName
  match members.findIdx? (·.wireName == name) with
  | some index =>
    match members[index]? with
    | some member => return values.set index (← calls.typed member.type)
    | none => return values
  | none =>
    calls.skip
    return values

/-- Reads a value of a type.  Every value inside of it, and what an option holds, is a call. -/
def readStep (table : Table) (calls : Decoding) (type : Ty) : Read Datum :=
  match table.rule? type with
  | none => throw (.value (.unresolved type.name))
  | some (.custom rule) => rule.read
  | some (.members members) => do
    beginObject
    let values ← untilEnd (memberStep calls members) (members.map (·.default))
    endObject
    return .record values
  | some .structural =>
    match type with
    | .integer width => readInteger width
    | .bool => do return .bool (← readBool)
    | .string => do return .string (← readString)
    | .unit => do
      calls.skip
      return .unit
    | .instant => readInstant
    | .value => do return .value (← calls.value)
    | .option inner => do return .some (← calls.typed inner)
    | .list element => do
      beginArray
      let values ← items (calls.typed element)
      endArray
      return .list values
    | .map _ element => do
      beginObject
      let entries ← untilEnd (fun (entries : Fields Datum) => do
        let name ← nextName
        let datum ← calls.typed element
        return entries.insert name datum) []
      endObject
      return .map entries
    | .model name => throw (.value (.mistyped name))
    | .foreign name => throw (.value (.mistyped name))
    | .refusing name _ => throw (.value (.mistyped name))

end Table

namespace Decoding

/-- Decoding by a table, one call deep. -/
def step (table : Table) (calls : Decoding) : Decoding where
  skip := skipStep calls.skip
  value := Value.readStep calls.value
  typed := table.readStep calls

/-- Decoding by a table. -/
def of (table : Table) : Decoding := ⟨Reader.skip, Value.read, table.read⟩

end Decoding

variable {table : Table} {depth calls budget : Nat} {other : Decoding} {type : Ty}

/-! ## 3. Skipping, and generic values -/

theorem agreeAt_skipStep {x y : Read Unit} (h : depth < maxDepth → AgreeAt (depth + 1) x y)
    (hy : Takes 0 y) : AgreeAt depth (skipStep x) (skipStep y) := by
  refine .after takes_peek fun token => .after takes_dropName fun _ => ?_
  cases token
  case beginArray => exact agreeAt_scope (fun hroom _ => h hroom) (fun _ => hy) _ _ _ () _
  case beginObject =>
    refine agreeAt_scope (fun hroom _ => ?_) (fun _ => ?_) _ _ _ () _
    · exact .after takes_nextName.discard fun _ => h hroom
    · exact takes_nextName.discard.first fun _ => hy
  all_goals exact .refl _

theorem agreeAt_readStep {x y : Read Value} (h : depth < maxDepth → AgreeAt (depth + 1) x y)
    (hy : Takes 0 y) : AgreeAt depth (Value.readStep x) (Value.readStep y) := by
  refine .after takes_peek fun token => ?_
  cases token
  case beginArray =>
    simp only [items, bind_assoc, pure_bind]
    exact agreeAt_scope (fun hroom _ => (h hroom).first _) (fun _ => hy.map) _ _ _ [] _
  case beginObject =>
    refine agreeAt_scope (fun hroom _ => ?_) (fun _ => ?_) _ _ _ [] _
    · exact .after takes_nextName fun _ => (h hroom).first _
    · exact takes_nextName.first fun _ => hy.map
  all_goals exact .refl _

/-- **Skipping, unrolled deep enough**, is skipping with any budget that the nesting does not
exhaust.  The induction is on the calls. -/
theorem skip_unrolled (inside : Read Unit) (hbudget : 0 < budget)
    (hroom : maxDepth < budget + depth) (hcalls : maxDepth - depth < calls) :
    AgreeAt depth (skipStep^[calls] inside) (skipWithin budget) := by
  induction calls generalizing depth budget with
  | zero => omega
  | succ calls ih =>
    obtain ⟨budget, rfl⟩ : ∃ below, budget = below + 1 := ⟨budget - 1, by omega⟩
    rw [Function.iterate_succ_apply']
    refine agreeAt_skipStep (fun hdeeper => ?_) ((takes_skipWithin budget).mono (Nat.zero_le _))
    exact ih (by omega) (by omega) (by omega)

theorem value_unrolled (inside : Read Value) (hbudget : 0 < budget)
    (hroom : maxDepth < budget + depth) (hcalls : maxDepth - depth < calls) :
    AgreeAt depth (Value.readStep^[calls] inside) (Value.readWithin budget) := by
  induction calls generalizing depth budget with
  | zero => omega
  | succ calls ih =>
    obtain ⟨budget, rfl⟩ : ∃ below, budget = below + 1 := ⟨budget - 1, by omega⟩
    rw [Function.iterate_succ_apply']
    refine agreeAt_readStep (fun hdeeper => ?_) ((takes_readWithin budget).mono (Nat.zero_le _))
    exact ih (by omega) (by omega) (by omega)

/-! ## 4. Values of declared types -/

namespace Table

variable {inside : Ty → Read Datum}

theorem takes_custom (rule : CustomRule) : Takes 1 rule.read := by
  cases rule with
  | capitals => exact (takes_readString.mono (by omega)).map
  | constant text => exact (takes_readString.mono (by omega)).map
  | number => exact (takes_readNumber.mono (by omega)).map
  | zeroAbsent => exact (takes_readNumber.mono (by omega)).map
  | disguised => exact (takes_readNumber.mono (by omega)).map
  | sum => exact (takes_readNumber.mono (by omega)).map

/-- The value of an entry takes a byte, whether there is such a member or not. -/
theorem takes_readMember (hinside : ∀ type, Takes 1 (inside type)) (members : List Member)
    (values : List Datum) : Takes 1 (readMember inside members values) := by
  refine takes_nextName.later fun name => ?_
  cases hindex : members.findIdx? (·.wireName == name) with
  | none => exact (takes_skipWithin _).map
  | some index =>
    obtain ⟨member, hmember⟩ := getElem?_of_findIdx? hindex
    simp only [hmember]
    exact (hinside member.type).map

/-- **A value of a declared type takes a byte.**  Options take what they hold, so the recursion is
on the type. -/
theorem takes_readWith (hinside : ∀ type, Takes 1 (inside type)) :
    ∀ type : Ty, Takes 1 (table.readWith inside type) := by
  intro type
  unfold readWith
  cases table.rule? type with
  | none => exact .throw _
  | some rule =>
    cases rule with
    | custom rule => exact takes_custom rule
    | members members =>
      have hmember := takes_readMember hinside members
      exact takes_scope (fun values => (hmember values).mono (Nat.zero_le _)) _ _ _ _ fun _ =>
        (closes_close .object).map _
    | structural =>
      cases type
      case integer width =>
        exact (takes_readNumber.mono (by omega)).first fun _ => .ite (.pure _) (.throw _)
      case bool => exact takes_readBool.map
      case string => exact (takes_readString.mono (by omega)).map
      case unit => exact (takes_skipWithin _).map
      case instant =>
        refine (takes_readNumber.mono (by omega)).first fun n => ?_
        cases Instant.ofSeconds n with
        | ok nanoseconds => exact .pure _
        | error error => exact .throw _
      case value => exact (takes_readWithin _).map
      case option inner => exact (takes_readWith hinside inner).map
      case list element =>
        simp only [items, bind_assoc, pure_bind]
        exact takes_scope (fun _ => (hinside element).map.mono (Nat.zero_le _)) _ _ _ [] fun _ =>
          (closes_close .array).map _
      case map kind element =>
        refine takes_scope (fun _ => ?_) _ _ _ [] fun _ => (closes_close .object).map _
        exact takes_nextName.first fun _ => (hinside element).map.mono (Nat.zero_le _)
      all_goals exact .throw _

theorem takes_readWithin (budget : Nat) : ∀ type, Takes 1 (table.readWithin budget type) := by
  induction budget with
  | zero => exact fun _ => .throw _
  | succ budget ih => exact takes_readWith ih

/-- What the rule of one type calls on, and so on. -/
def LeadsTo (table : Table) : Ty → Ty → Prop :=
  Relation.ReflTransGen fun type next => ∃ rule, table.rule? type = some rule ∧
    next ∈ rule.links type

end Table

/-- The number of options in a row that a type begins with. -/
def Ty.wrappers : Ty → Nat
  | .option inner => inner.wrappers + 1
  | _ => 0

/-- In one scope, a type and all that it leads to make at most `count` calls one inside of the other:
the options in a row, what they hold, and a generic or a skipped value for that. -/
def Table.Covers (table : Table) (type : Ty) (count : Nat) : Prop :=
  ∀ next, table.LeadsTo type next → next.wrappers + 2 ≤ count

namespace Table

theorem Covers.self {count : Nat} (h : table.Covers type count) : type.wrappers + 2 ≤ count :=
  h type .refl

theorem Covers.next {count : Nat} {rule : Rule} {next : Ty} (h : table.Covers type count)
    (hrule : table.rule? type = some rule) (hnext : next ∈ rule.links type) :
    table.Covers next count :=
  fun other hother => h other (.head ⟨rule, hrule, hnext⟩ hother)

/-- **One call agrees if the calls that it makes do**: those in the same scope, and those one
deeper. -/
theorem agreeAt_readStep {decoding : Decoding} (hskip : AgreeAt depth decoding.skip skip)
    (hvalue : AgreeAt depth decoding.value Value.read)
    (hinner : ∀ inner, type = .option inner → table.rule? type = some .structural →
      AgreeAt depth (decoding.typed inner) (table.readWithin (budget + 1) inner))
    (hdeeper : depth < maxDepth → AgreeAt (depth + 1) decoding.skip skip ∧
      ∀ rule next, table.rule? type = some rule → next ∈ rule.links type →
        AgreeAt (depth + 1) (decoding.typed next) (table.readWithin budget next)) :
    AgreeAt depth (table.readStep decoding type) (table.readWithin (budget + 1) type) := by
  have hinside : ∀ type, Takes 0 (table.readWithin budget type) :=
    fun type => (takes_readWithin budget type).mono (Nat.zero_le _)
  show AgreeAt depth (table.readStep decoding type)
    (table.readWith (table.readWithin budget) type)
  unfold readStep readWith
  cases hrule : table.rule? type with
  | none => exact .refl _
  | some rule =>
    cases rule with
    | custom rule => exact .refl _
    | members members =>
      refine agreeAt_scope (fun hroom values => ?_) (fun values => ?_) _ _ _ _ _
      · refine .after takes_nextName fun name => ?_
        cases hindex : members.findIdx? (·.wireName == name) with
        | none => exact (hdeeper hroom).1.first _
        | some index =>
          obtain ⟨member, hmember⟩ := getElem?_of_findIdx? hindex
          simp only [hmember]
          refine ((hdeeper hroom).2 _ member.type hrule ?_).first _
          have hmem := List.mem_of_getElem? hmember
          exact List.mem_append_right _ (List.mem_map_of_mem hmem)
      · exact (takes_readMember (takes_readWithin budget) members values).mono (Nat.zero_le _)
    | structural =>
      cases type
      case unit => exact hskip.first _
      case value => exact hvalue.first _
      case option inner => exact (hinner inner rfl hrule).first _
      case list element =>
        simp only [items, bind_assoc, pure_bind]
        refine agreeAt_scope (fun hroom _ => ?_) (fun _ => (hinside element).map) _ _ _ _ _
        exact ((hdeeper hroom).2 _ element hrule (List.mem_singleton_self element)).first _
      case map kind element =>
        refine agreeAt_scope (fun hroom _ => .after takes_nextName fun _ => ?_) (fun _ => ?_) _ _ _
          _ _
        · exact ((hdeeper hroom).2 _ element hrule (List.mem_singleton_self element)).first _
        · exact takes_nextName.first fun _ => (hinside element).map
      all_goals exact .refl _

end Table

namespace Decoding

theorem skip_step (table : Table) (calls : Nat) (other : Decoding) :
    ((step table)^[calls] other).skip = skipStep^[calls] other.skip := by
  have hstep : Function.Semiconj Decoding.skip (step table) skipStep := fun _ => rfl
  exact hstep.iterate_right calls other

theorem value_step (table : Table) (calls : Nat) (other : Decoding) :
    ((step table)^[calls] other).value = Value.readStep^[calls] other.value := by
  have hstep : Function.Semiconj Decoding.value (step table) Value.readStep := fun _ => rfl
  exact hstep.iterate_right calls other

/-- **Typed reading, unrolled deep enough**, is reading with any budget that the nesting does not
exhaust.  The induction is on the calls. -/
theorem typed_unrolled {count : Nat} (hcovers : table.Covers type count) (hbudget : 0 < budget)
    (hroom : maxDepth < budget + depth)
    (hcalls : type.wrappers + 2 + (maxDepth - depth) * count ≤ calls) :
    AgreeAt depth (((step table)^[calls] other).typed type) (table.readWithin budget type) := by
  induction calls generalizing type depth budget with
  | zero => omega
  | succ calls ih =>
    obtain ⟨budget, rfl⟩ : ∃ below, budget = below + 1 := ⟨budget - 1, by omega⟩
    rw [Function.iterate_succ_apply']
    have hcount := hcovers.self
    have hlevels : maxDepth - depth ≤ (maxDepth - depth) * count :=
      Nat.le_mul_of_pos_right _ (by omega)
    refine Table.agreeAt_readStep ?_ ?_ ?_ fun hdeeper => ⟨?_, fun rule next hrule hnext => ?_⟩
    · rw [skip_step]
      exact skip_unrolled _ (Nat.succ_pos _) (by omega) (by omega)
    · rw [value_step]
      exact value_unrolled _ (Nat.succ_pos _) (by omega) (by omega)
    · rintro inner rfl hrule
      have hinner := hcovers.next hrule (List.mem_singleton_self inner)
      refine ih hinner (by omega) hroom ?_
      rw [Ty.wrappers] at hcalls
      omega
    · rw [skip_step]
      exact skip_unrolled _ (Nat.succ_pos _) (by omega) (by omega)
    · have hnext := hcovers.next hrule hnext
      have hself := hnext.self
      refine ih hnext (by omega) (by omega) ?_
      obtain ⟨below, hbelow⟩ : ∃ below, maxDepth - depth = below + 1 :=
        ⟨maxDepth - depth - 1, by omega⟩
      rw [hbelow, Nat.succ_mul] at hcalls
      rw [show maxDepth - (depth + 1) = below by omega]
      omega

end Decoding

/-! ## 5. How many calls there can be in one scope -/

theorem Ty.mem_occurring_of_mem_inner {next : Ty} (h : next ∈ type.inner) :
    next ∈ type.occurring := by
  cases type <;> simp_all [Ty.inner, Ty.occurring, Ty.mem_occurring_self]

/-- The types that can occur in a type and in the members of a rule. -/
def Rule.occurring : Rule → List Ty
  | .members declared => declared.flatMap (·.type.occurring)
  | _ => []

/-- The types that occur in a type and in the members that a table knows of. -/
def Table.occurring (table : Table) (type : Ty) : List Ty :=
  type.occurring ++ table.flatMap (·.2.occurring)

/-- A type leads only to types that occur. -/
theorem Table.LeadsTo.occurring {next : Ty} (h : table.LeadsTo type next) :
    next ∈ table.occurring type := by
  -- what occurs in a type that occurs does so itself
  have hwithin : ∀ {first second : Ty}, first ∈ second.occurring →
      second ∈ table.occurring type → first ∈ table.occurring type := by
    intro first second hfirst hsecond
    rcases List.mem_append.mp hsecond with hsecond | hsecond
    · exact List.mem_append_left _ (Ty.occurring_trans hfirst hsecond)
    · obtain ⟨⟨owner, rule⟩, hentry, hrule⟩ := List.mem_flatMap.mp hsecond
      refine List.mem_append_right _ (List.mem_flatMap.mpr ⟨(owner, rule), hentry, ?_⟩)
      cases rule with
      | structural => cases hrule
      | custom rule => cases hrule
      | members members =>
        obtain ⟨member, hmember, hrule⟩ := List.mem_flatMap.mp hrule
        exact List.mem_flatMap.mpr ⟨member, hmember, Ty.occurring_trans hfirst hrule⟩
  induction h with
  | refl => exact List.mem_append_left _ (Ty.mem_occurring_self type)
  | @tail before next _ hnext ih =>
    obtain ⟨rule, hrule, hlink⟩ := hnext
    cases rule with
    | structural => exact hwithin (Ty.mem_occurring_of_mem_inner hlink) ih
    | custom rule => cases hlink
    | members members =>
      rcases List.mem_append.mp hlink with hlink | hlink
      · exact hwithin (Ty.mem_occurring_of_mem_inner hlink) ih
      · obtain ⟨member, hmember, rfl⟩ := List.mem_map.mp hlink
        obtain ⟨front, back, htable, -⟩ := List.lookup_eq_some_iff.mp hrule
        refine List.mem_append_right _ (List.mem_flatMap.mpr ⟨(before, .members members), ?_, ?_⟩)
        · simp [htable]
        · exact List.mem_flatMap.mpr ⟨member, hmember, Ty.mem_occurring_self _⟩

/-- **The calls in one scope are bounded.** -/
theorem Table.exists_covers (table : Table) (type : Ty) : ∃ count, table.Covers type count :=
  ⟨(table.occurring type).toFinset.sup (·.wrappers + 2), fun _ h =>
    Finset.le_sup (f := (·.wrappers + 2)) (List.mem_toFinset.mpr h.occurring)⟩

/-! ## 6. Decoding ends -/

/-- The loops of decoding by a table. -/
inductive Loop (table : Table) : (α : Type) → (α → Read α) → Prop
  /-- The values of an array or of a whole stream. -/
  | values : Loop table (List Value) fun done => do return (← Value.read) :: done
  | fields : Loop table (Fields Value) fun fields => do
    let name ← nextName
    let value ← Value.read
    return fields.insert name value
  | skippedItems : Loop table Unit fun _ => skip
  | skippedEntries : Loop table Unit fun _ => do
    discard nextName
    skip
  | list (element : Ty) : Loop table (List Datum) fun done => do
    return (← table.read element) :: done
  | map (element : Ty) : Loop table (Fields Datum) fun entries => do
    let name ← nextName
    let datum ← table.read element
    return entries.insert name datum
  | members (members : List Member) : Loop table (List Datum) (Table.readMember table.read members)

/-- **Each round of a loop takes a byte.** -/
theorem Loop.takes {α : Type} {step : α → Read α} (h : Loop table α step) (state : α) :
    Takes 1 (step state) := by
  cases h with
  | values => exact (takes_readWithin _).map
  | fields => exact takes_nextName.later fun _ => (takes_readWithin _).map
  | skippedItems => exact takes_skipWithin _
  | skippedEntries => exact takes_nextName.discard.later fun _ => takes_skipWithin _
  | list element => exact (Table.takes_readWithin _ element).map
  | map element => exact takes_nextName.later fun _ => (Table.takes_readWithin _ element).map
  | members members => exact Table.takes_readMember (Table.takes_readWithin _) members state

namespace Decoding

/-- One deeper than the top a smaller budget does as well, if no budget makes a difference. -/
theorem agreeAt_budgets {α : Type} (unrolled : Read α) (within : Nat → Read α)
    (h : ∀ budget, 0 < budget → maxDepth < budget + (depth + 1) →
      AgreeAt (depth + 1) unrolled (within budget)) :
    AgreeAt (depth + 1) (within (maxDepth + 1)) (within maxDepth) := by
  intro reader hdepth
  have hmore := h (maxDepth + 1) (Nat.succ_pos _) (by omega) reader hdepth
  have hless := h maxDepth (by decide) (by omega) reader hdepth
  exact hmore.symm.trans hless

/-- **The operations solve the equation of the recursion**, which knows of no budget. -/
theorem step_of (table : Table) : step table (of table) = of table := by
  have hskip : skipStep Reader.skip = Reader.skip := by
    funext reader
    refine agreeAt_skipStep (fun _ => ?_) ((takes_skipWithin _).mono (Nat.zero_le _)) reader rfl
    exact agreeAt_budgets (skipStep^[maxDepth + 1] Reader.skip) skipWithin
      (fun _ hbudget hroom => skip_unrolled _ hbudget hroom (by omega))
  have hvalue : Value.readStep Value.read = Value.read := by
    funext reader
    refine agreeAt_readStep (fun _ => ?_) ((takes_readWithin _).mono (Nat.zero_le _)) reader rfl
    exact agreeAt_budgets (Value.readStep^[maxDepth + 1] Value.read) Value.readWithin
      (fun _ hbudget hroom => value_unrolled _ hbudget hroom (by omega))
  have htyped : table.readStep (of table) = table.read := by
    funext type reader
    refine Table.agreeAt_readStep (.refl _) (.refl _) (fun _ _ _ => .refl _)
      (fun _ => ⟨.refl _, fun _ next _ _ => ?_⟩) reader rfl
    obtain ⟨count, hcovers⟩ := table.exists_covers next
    exact agreeAt_budgets (((step table)^[next.wrappers + 2 +
      (maxDepth - (reader.depth + 1)) * count] (of table)).typed next) (table.readWithin · next)
      (fun _ hbudget hroom => typed_unrolled hcovers hbudget hroom (Nat.le_refl _))
  unfold step
  rw [show (of table).skip = Reader.skip from rfl, show (of table).value = Value.read from rfl,
    hskip, hvalue, htyped]
  rfl

/-- **Decoding ends, with bounded recursion**, by any table and from any state of the reader.

* The operations solve the equation of the recursion, in which no call is bounded.
* A round of a loop that goes on has moved the reader.  So a loop has no more rounds than there are
  bytes left: whatever stands behind that many rounds is never reached.
* Skipping and generic reading go no deeper than the limit of nesting and one more, and typed reading
  no deeper than that times a number that depends only on the type: whatever stands in the place of
  the calls beyond is never reached. -/
theorem decoding_ends (table : Table) :
    step table (of table) = of table ∧
    (∀ (α : Type) (step : α → Read α), Loop table α step →
      (∀ state before mid result after, hasNext before = .ok true mid →
        step state mid = .ok result after → before.position < after.position) ∧
      ∀ (beyond : α → Read α) (rounds : Nat) (state : α) (reader : Reader),
        reader.rest.length < rounds →
          ((round step)^[rounds] beyond) state reader = untilEnd step state reader) ∧
    (∀ (beyond : Decoding) (calls : Nat) (reader : Reader), maxDepth + 1 ≤ calls →
      ((step table)^[calls] beyond).skip reader = Reader.skip reader ∧
        ((step table)^[calls] beyond).value reader = Value.read reader) ∧
    ∀ type : Ty, (∃ count, table.Covers type count) ∧
      ∀ count, table.Covers type count → ∀ (beyond : Decoding) (calls : Nat) (reader : Reader),
        (maxDepth + 1) * count ≤ calls →
          ((step table)^[calls] beyond).typed type reader = table.read type reader := by
  refine ⟨step_of table, fun α step hloop => ⟨?_, ?_⟩, fun beyond calls reader hcalls => ⟨?_, ?_⟩,
    fun type => ⟨table.exists_covers type, fun count hcovers beyond calls reader hcalls => ?_⟩⟩
  · intro state before mid result after hnext hstep
    exact (ahead_round hloop.takes hnext hstep).position_le
  · intro beyond rounds state reader hrounds
    exact untilEnd_unrolled hloop.takes beyond state hrounds
  · rw [skip_step]
    exact skip_unrolled _ (Nat.succ_pos _) (by omega) (by omega) reader rfl
  · rw [value_step]
    exact value_unrolled _ (Nat.succ_pos _) (by omega) (by omega) reader rfl
  · refine typed_unrolled hcovers (Nat.succ_pos _) (by omega) ?_ reader rfl
    have hcount := hcovers.self
    have hlevels : (maxDepth - reader.depth) * count ≤ maxDepth * count :=
      Nat.mul_le_mul_right count (Nat.sub_le _ _)
    rw [Nat.succ_mul] at hcalls
    omega

/-- A node holds the next one, or none. -/
def nodes : Table :=
  [(.model "Node", .members [⟨"next", "n", .option (.model "Node"), .none⟩]),
    (.option (.model "Node"), .structural)]

/-- Refuses to decode anything. -/
def refusing : Decoding := ⟨throw .cancelled, throw .cancelled, fun _ => throw .cancelled⟩

/-- In one scope a node makes three calls at most, so two nodes are read before a call is refused
that would be deeper than any nesting. -/
theorem decoding_ends_nodes :
    nodes.Covers (.model "Node") 3 ∧
      ((step nodes)^[(maxDepth + 1) * 3] refusing).typed (.model "Node")
          (ofBytes [6, 6, 0, 1, 0x6e, 7, 7]) =
        .ok (.record [.some (.record [.none])]) ⟨[], 7, [], none, none⟩ := by
  have hcovers : nodes.Covers (.model "Node") 3 := by
    have hoccurring : ∀ next ∈ nodes.occurring (.model "Node"), next.wrappers + 2 ≤ 3 := by decide
    exact fun next h => hoccurring next h.occurring
  obtain ⟨-, -, -, htyped⟩ := decoding_ends nodes
  refine ⟨hcovers, ?_⟩
  rw [(htyped (.model "Node")).2 3 hcovers refusing _ _ (Nat.le_refl _)]
  rfl

end Decoding

end RemoteCall
