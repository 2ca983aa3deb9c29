/-
# The graph of types

To resolve a type is to walk a graph.  A type for which a factory answers leads to the type that
this factory asks for, if it asks for one.  Any other type leads to its parts: an option, list or
map to what it holds, a model to the types of its members.  A type may be faulty in itself: its own
adapter is refused, the factory that answers for it answers with an adapter of another type, or two
of its members share a wire name.

The graph depends on the catalog and on the factories and not on what has been resolved.
`ruleOf_eq` says what it has to do with the search: the rule of a type is found by resolving the
types that it leads to, in order, and then looking for its own fault.  That takes a factory that
gets what it asks for (`Served`).

A factory that asks in vain does not answer, and `ruleOf_without` says that it may as well not be
there.  Which factories ask in vain is itself a question about the graph, so it is asked of a guess:
a type is `Decided` by a set of vain factories if each of them asks the type's questions in vain
whatever is being resolved (`Hopeless`), and the factory that answers in the graph without them is
served.  What no guess decides is a factory whose question fails only by way of types that lead back
to where it was asked.
-/
import Mathlib.Logic.Relation
import RemoteCall.Proofs.Typed.Resolving

namespace RemoteCall

open Success

/-! ## 1. Edges and faults -/

/-- Whether a factory answers for a type. -/
def Factory.serves (type : Ty) : Factory → Bool
  | .exact target _ => target = type
  | .declining => false
  | .through target _ _ => target = type

/-- The types that a factory asks for to answer for a type. -/
def Factory.asks (type : Ty) : Factory → List Ty
  | .through target via _ => if target = type then [via] else []
  | _ => []

theorem Factory.mem_asks_iff {factory : Factory} {type via : Ty} :
    via ∈ factory.asks type ↔ ∃ answer, factory = .through type via answer := by
  cases factory with
  | through target asked answer =>
    by_cases htarget : target = type
    · subst htarget
      simp [asks, eq_comm]
    · simp [asks, htarget]
  | exact target rule => simp [asks]
  | declining => simp [asks]

namespace Ty

/-- The types that the own adapter of a type is built from. -/
def parts (catalog : Catalog) : Ty → List Ty
  | .option inner => [inner]
  | .list element => [element]
  | .map _ element => [element]
  | .model name =>
    match catalog.lookup name with
    | some members => members.map (·.type)
    | none => []
  | _ => []

/-- Why the own adapter of a type cannot be built, whatever its parts are. -/
def fault? (catalog : Catalog) : Ty → Option TypeFault
  | .model name =>
    match catalog.lookup name with
    | some members => Registry.sharedName? name members
    | none => some (.unregistered name)
  | .foreign name => some (.unregistered name)
  | .refusing _ reason => some (.refused reason)
  | _ => none

/-- The own rule of a type. -/
def rule (catalog : Catalog) : Ty → Rule
  | .model name =>
    match catalog.lookup name with
    | some members => .members members
    | none => .structural
  | _ => .structural

end Ty

namespace Registry

/-- The factory that answers for a type. -/
def server? (registry : Registry) (type : Ty) : Option Factory :=
  registry.factories.find? (·.serves type)

/-- The types that a type leads to. -/
def leadsTo (registry : Registry) (type : Ty) : List Ty :=
  match registry.server? type with
  | some (.through _ via _) => [via]
  | some _ => []
  | none => type.parts registry.catalog

/-- What is wrong with a type itself. -/
def fault? (registry : Registry) (type : Ty) : Option TypeFault :=
  match registry.server? type with
  | some (.through _ _ none) => some (.foreign type.name)
  | some _ => none
  | none => type.fault? registry.catalog

/-- The rule of a type without faults. -/
def rule (registry : Registry) (type : Ty) : Rule :=
  match registry.server? type with
  | some (.exact _ rule) => .custom rule
  | some (.through _ _ (some rule)) => .custom rule
  | _ => type.rule registry.catalog

/-- What can be reached from a type. -/
def Reaches (registry : Registry) : Ty → Ty → Prop :=
  Relation.ReflTransGen fun type next => next ∈ registry.leadsTo type

/-- Nothing that can be reached from the type is faulty. -/
def Sound (registry : Registry) (type : Ty) : Prop :=
  ∀ other, registry.Reaches type other → registry.fault? other = none

/-- No fault can be reached from the type without passing a pending one: some set of types holds the
type, has no fault, and is left by pending types only. -/
def SoundBeyond (registry : Registry) (pending : List Ty) (type : Ty) : Prop :=
  ∃ sound : Ty → Prop, sound type ∧ ∀ other, sound other → other ∈ pending ∨
    (registry.fault? other = none ∧ ∀ next ∈ registry.leadsTo other, sound next)

/-- The factory that answers for the type gets what it asks for: if it asks for another type, no
fault can be reached from that one without passing the type itself. -/
def Served (registry : Registry) (type : Ty) : Prop :=
  ∀ target via answer, registry.server? type = some (.through target via answer) →
    registry.SoundBeyond [type] via

theorem SoundBeyond.mono {registry : Registry} {pending pending' : List Ty} {type : Ty}
    (h : registry.SoundBeyond pending type) (hpending : pending ⊆ pending') :
    registry.SoundBeyond pending' type := by
  obtain ⟨sound, htype, hsound⟩ := h
  exact ⟨sound, htype, fun other hother => (hsound other hother).imp_left fun h => hpending h⟩

theorem Sound.leadsTo {registry : Registry} {type next : Ty} (h : registry.Sound type)
    (hnext : next ∈ registry.leadsTo type) : registry.Sound next :=
  fun other hother => h other (Relation.ReflTransGen.head hnext hother)

theorem Sound.beyond {registry : Registry} {pending : List Ty} {type : Ty}
    (h : registry.Sound type) : registry.SoundBeyond pending type := by
  refine ⟨registry.Sound, h, fun other hother => .inr ⟨hother other .refl, ?_⟩⟩
  exact fun next => hother.leadsTo

theorem soundBeyond_nil_iff {registry : Registry} {type : Ty} :
    registry.SoundBeyond [] type ↔ registry.Sound type := by
  refine ⟨?_, Sound.beyond⟩
  rintro ⟨sound, htype, hsound⟩ other hreach
  have hstep : ∀ other, sound other →
      registry.fault? other = none ∧ ∀ next ∈ registry.leadsTo other, sound next :=
    fun other hother => (hsound other hother).resolve_left List.not_mem_nil
  have hother : sound other := by
    induction hreach with
    | refl => exact htype
    | tail _ hnext ih => exact (hstep _ ih).2 _ hnext
  exact (hstep other hother).1

/-- A list that holds a type and all that its members lead to holds all that can be reached. -/
theorem mem_of_closed {leads : Ty → List Ty} {types : List Ty} {type other : Ty}
    (hclosed : ∀ type ∈ types, ∀ next ∈ leads type, next ∈ types)
    (hreach : Relation.ReflTransGen (fun type next => next ∈ leads type) type other)
    (hmem : type ∈ types) : other ∈ types := by
  induction hreach with
  | refl => exact hmem
  | tail _ hnext ih => exact hclosed _ ih _ hnext

theorem Reaches.mem_of_closed {registry : Registry} {types : List Ty} {type other : Ty}
    (hclosed : ∀ type ∈ types, ∀ next ∈ registry.leadsTo type, next ∈ types)
    (hreach : registry.Reaches type other) (hmem : type ∈ types) : other ∈ types :=
  Registry.mem_of_closed hclosed hreach hmem

/-! ## 2. Factories that ask in vain -/

/-- The registry without the factories that ask in vain. -/
def without (registry : Registry) (vain : Factory → Bool) : Registry :=
  { registry with factories := registry.factories.filter fun factory => !vain factory }

/-- The types that a type may lead to, whichever factories answer. -/
def mayAsk (registry : Registry) (type : Ty) : List Ty :=
  type.parts registry.catalog ++ registry.factories.flatMap (·.asks type)

/-- What may be reached from a type, whichever factories answer. -/
def MayReach (registry : Registry) : Ty → Ty → Prop :=
  Relation.ReflTransGen fun type next => next ∈ registry.mayAsk type

/-- What is asked for to resolve a type: in vain, or because the type leads there. -/
def asks (registry : Registry) (vain : Factory → Bool) (type : Ty) : List Ty :=
  (registry.factories.filter vain).flatMap (·.asks type) ++ (registry.without vain).leadsTo type

/-- What is met when a type is resolved. -/
def Meets (registry : Registry) (vain : Factory → Bool) : Ty → Ty → Prop :=
  Relation.ReflTransGen fun type next => next ∈ registry.asks vain type

/-- To ask for `via` on behalf of the type is hopeless: a fault can be reached from it even if all
that may lead to the type is taken for resolved. -/
def Hopeless (registry : Registry) (vain : Factory → Bool) (type via : Ty) : Prop :=
  ∀ pending : List Ty, (∀ other ∈ pending, registry.MayReach other type) →
    ¬ (registry.without vain).SoundBeyond pending via

/-- The guess which factories ask in vain is right for the type: those do, and without them the type
is served. -/
def Decided (registry : Registry) (vain : Factory → Bool) (type : Ty) : Prop :=
  (registry.without vain).Served type ∧
    ∀ factory ∈ registry.factories, factory.serves type = true → vain factory = true →
      ∃ via answer, factory = .through type via answer ∧ registry.Hopeless vain type via

/-- The guess is right for all that is met when the type is resolved. -/
def Regular (registry : Registry) (vain : Factory → Bool) (type : Ty) : Prop :=
  ∀ other, registry.Meets vain type other → registry.Decided vain other

section

variable {registry : Registry} {vain : Factory → Bool} {type next : Ty}

theorem mem_mayAsk_of_through {answer : Option CustomRule}
    (hregistered : .through type next answer ∈ registry.factories) :
    next ∈ registry.mayAsk type := by
  refine List.mem_append_right _ (List.mem_flatMap.mpr ⟨_, hregistered, ?_⟩)
  exact Factory.mem_asks_iff.mpr ⟨answer, rfl⟩

theorem mem_mayAsk_of_leadsTo (h : next ∈ (registry.without vain).leadsTo type) :
    next ∈ registry.mayAsk type := by
  unfold Registry.leadsTo at h
  cases hserver : (registry.without vain).server? type with
  | none =>
    rw [hserver] at h
    exact List.mem_append_left _ h
  | some factory =>
    have hregistered := (List.mem_filter.mp (List.mem_of_find?_eq_some hserver)).1
    have hserves := List.find?_some hserver
    rw [hserver] at h
    cases factory with
    | exact target rule => cases h
    | declining => cases hserves
    | through target via answer =>
      obtain rfl : target = type := of_decide_eq_true hserves
      rw [List.mem_singleton.mp h]
      exact mem_mayAsk_of_through hregistered

/-- To ask for a type that is not sound and cannot lead back is hopeless. -/
theorem hopeless_of_apart {via : Ty} (hunsound : ¬ (registry.without vain).Sound via)
    (hapart : ¬ registry.MayReach via type) : registry.Hopeless vain type via := by
  rintro pending hpending ⟨sound, hvia, hsound⟩
  have hout : ∀ other, registry.MayReach via other → other ∉ pending :=
    fun other hmay hmem => hapart (hmay.trans (hpending other hmem))
  have hstep : ∀ other, sound other → registry.MayReach via other →
      (registry.without vain).fault? other = none ∧
        ∀ next ∈ (registry.without vain).leadsTo other, sound next :=
    fun other hother hmay => (hsound other hother).resolve_left (hout other hmay)
  have hreached : ∀ other, (registry.without vain).Reaches via other →
      sound other ∧ registry.MayReach via other := by
    intro other hreach
    induction hreach with
    | refl => exact ⟨hvia, .refl⟩
    | tail _ hnext ih =>
      exact ⟨(hstep _ ih.1 ih.2).2 _ hnext, ih.2.tail (mem_mayAsk_of_leadsTo hnext)⟩
  refine hunsound fun other hreach => ?_
  exact (hstep other (hreached other hreach).1 (hreached other hreach).2).1

theorem mem_asks_of_leadsTo (h : next ∈ (registry.without vain).leadsTo type) :
    next ∈ registry.asks vain type :=
  List.mem_append_right _ h

theorem mem_asks_of_vain {answer : Option CustomRule}
    (hregistered : .through type next answer ∈ registry.factories)
    (hvain : vain (.through type next answer) = true) : next ∈ registry.asks vain type := by
  refine List.mem_append_left _ (List.mem_flatMap.mpr ⟨.through type next answer, ?_⟩)
  exact ⟨List.mem_filter.mpr ⟨hregistered, hvain⟩, Factory.mem_asks_iff.mpr ⟨answer, rfl⟩⟩

theorem Regular.asks (h : registry.Regular vain type) (hnext : next ∈ registry.asks vain type) :
    registry.Regular vain next :=
  fun other hother => h other (.head hnext hother)

theorem Regular.leadsTo (h : registry.Regular vain type)
    (hnext : next ∈ (registry.without vain).leadsTo type) : registry.Regular vain next :=
  h.asks (mem_asks_of_leadsTo hnext)

theorem Regular.reaches {other : Ty} (h : registry.Regular vain type)
    (hreach : (registry.without vain).Reaches type other) : registry.Regular vain other := by
  induction hreach with
  | refl => exact h
  | tail _ hnext ih => exact ih.leadsTo hnext

end

/-! ## 3. The search walks the graph -/


/-- Resolves types in order. -/
def resolveEach (resolve : Resolve) (types : List Ty) (staged : Table) : Except TypeFault Table :=
  types.foldlM (fun staged type => resolve type staged) staged

@[simp] theorem resolveEach_nil {resolve : Resolve} {staged : Table} :
    resolveEach resolve [] staged = .ok staged := rfl

theorem resolveEach_cons {resolve : Resolve} {type : Ty} {types : List Ty} {staged : Table} :
    resolveEach resolve (type :: types) staged =
      (resolve type staged >>= resolveEach resolve types) := rfl

theorem resolveEach_singleton {resolve : Resolve} {type : Ty} {staged : Table} :
    resolveEach resolve [type] staged = resolve type staged := by
  rw [resolveEach_cons]
  cases resolve type staged <;> rfl

theorem resolveMembers_eq {resolve : Resolve} {members : List Member} {staged : Table} :
    resolveMembers resolve members staged =
      resolveEach resolve (members.map (·.type)) staged := by
  unfold resolveMembers resolveEach
  rw [List.foldlM_map]

/-- What is left of a step once the types that a type leads to are resolved. -/
def conclude (fault? : Option TypeFault) (rule : Rule) (staged : Table) :
    Except TypeFault (Rule × Table) :=
  match fault? with
  | some fault => .error fault
  | none => .ok (rule, staged)

/-- The own rule of a type is found by resolving its parts. -/
theorem ownRule_eq {catalog : Catalog} {resolve : Resolve} {type : Ty} {staged : Table} :
    ownRule catalog resolve type staged =
      (resolveEach resolve (type.parts catalog) staged >>=
        conclude (type.fault? catalog) (type.rule catalog)) := by
  cases type
  case option inner => exact congrArg (· >>= _) resolveEach_singleton.symm
  case list element => exact congrArg (· >>= _) resolveEach_singleton.symm
  case map kind element => exact congrArg (· >>= _) resolveEach_singleton.symm
  case model name =>
    simp only [ownRule, Ty.parts, Ty.fault?, Ty.rule]
    cases catalog.lookup name with
    | none => rfl
    | some members =>
      show (resolveMembers resolve members staged >>= _) = _
      rw [resolveMembers_eq]
      congr 1
  all_goals rfl

/-- A factory that does not answer for the type is passed over. -/
theorem ruleOf_cons_of_not_serves {catalog : Catalog} {resolve : Resolve} {type : Ty}
    {staged : Table} {factory : Factory} {rest : List Factory}
    (hserves : ¬ factory.serves type = true) :
    ruleOf catalog resolve type staged (factory :: rest) =
      ruleOf catalog resolve type staged rest := by
  cases factory with
  | exact target rule =>
    have hne : target ≠ type := fun h => hserves (decide_eq_true h)
    rw [ruleOf, if_neg hne]
  | declining => rw [ruleOf]
  | through target via answer =>
    have hne : target ≠ type := fun h => hserves (decide_eq_true h)
    rw [ruleOf, if_neg hne]

/-- **A factory that asks in vain may as well not be there.** -/
theorem ruleOf_without {catalog : Catalog} {resolve : Resolve} {type : Ty} {staged : Table}
    {vain : Factory → Bool} : ∀ {factories : List Factory},
    (∀ factory ∈ factories, factory.serves type = true → vain factory = true →
      ∃ via answer, factory = .through type via answer ∧
        ∃ fault, resolve via staged = .error fault) →
    ruleOf catalog resolve type staged factories =
      ruleOf catalog resolve type staged (factories.filter fun factory => !vain factory)
  | [], _ => rfl
  | factory :: rest, hvain => by
    obtain ⟨hfactory, hrest⟩ := List.forall_mem_cons.mp hvain
    have ih := @ruleOf_without catalog _ _ _ _ rest hrest
    cases hkept : vain factory with
    | true =>
      rw [List.filter_cons_of_neg (by simp [hkept]), ← ih]
      by_cases hserves : factory.serves type = true
      · obtain ⟨via, answer, rfl, fault, hfault⟩ := hfactory hserves hkept
        rw [ruleOf, if_pos rfl, hfault]
      · exact ruleOf_cons_of_not_serves hserves
    | false =>
      rw [List.filter_cons_of_pos (by simp [hkept])]
      cases factory with
      | declining =>
        rw [ruleOf, ruleOf]
        exact ih
      | exact target rule =>
        rw [ruleOf, ruleOf, ih]
      | through target via answer =>
        rw [ruleOf, ruleOf, ih]

/-- **The rule of a type is found by resolving the types that it leads to**, if the factory that
answers for it gets what it asks for. -/
theorem ruleOf_eq {registry : Registry} {resolve : Resolve} {type : Ty} {staged : Table}
    (hserved : ∀ target via answer, registry.server? type = some (.through target via answer) →
      ∃ staged', resolve via staged = .ok staged') :
    ruleOf registry.catalog resolve type staged registry.factories =
      (resolveEach resolve (registry.leadsTo type) staged >>=
        conclude (registry.fault? type) (registry.rule type)) := by
  revert hserved
  unfold leadsTo fault? rule server?
  induction registry.factories with
  | nil =>
    intro _
    exact ownRule_eq
  | cons factory rest ih =>
    intro hserved
    -- a factory that does not answer for the type is passed over on both sides
    by_cases hserves : factory.serves type = true
    · rw [List.find?_cons_of_pos hserves] at hserved ⊢
      cases factory with
      | exact target rule =>
        obtain rfl : target = type := of_decide_eq_true hserves
        rw [ruleOf, if_pos rfl]
        rfl
      | declining => cases hserves
      | through target via answer =>
        obtain rfl : target = type := of_decide_eq_true hserves
        obtain ⟨staged', hvia⟩ := hserved target via answer rfl
        rw [ruleOf, if_pos rfl]
        simp only [resolveEach_singleton, hvia]
        cases answer <;> rfl
    · rw [List.find?_cons_of_neg hserves] at hserved ⊢
      rw [ruleOf_cons_of_not_serves hserves]
      exact ih hserved

end Registry

end RemoteCall
