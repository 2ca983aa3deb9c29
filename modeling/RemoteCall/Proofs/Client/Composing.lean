/-
# When a method is composed

Composing checks the specification, then resolves the argument types one after the other, then the
response type.  It succeeds exactly if

* the specification is `Valid` for the argument type (`MethodSpec.fault?_eq_none_iff`),
* every type resolves in its turn, after those before it (`ResolvesInTurn`), and
* an object argument has fields.

For a family of return types a call adapter comes first: the first factory that does not decline
must answer with the one that the family needs (`CallAdapters.Fit`).

A turn matters only for factories that ask for other types and are refused because of what is being
resolved: with them a type may resolve on its own and fail after another one (`compose_rivals`).
Where the graph alone decides what a factory gets (`Regular`), the types resolve in turn exactly if
each of them resolves on its own (`resolvesInTurn_iff_alone`).

All failures are composition errors, and a session in which composing has failed has resolved some
types and is else as it was: no task was begun and the endpoint has seen nothing.
-/
import RemoteCall.Client.Session.Steps
import RemoteCall.Proofs.Client.Sending
import RemoteCall.Proofs.Failure
import RemoteCall.Proofs.Typed.History

namespace RemoteCall

open Naming Success

variable {registry : Registry} {type : Ty} {types : List Ty}

/-! ## 1. Resolving one type after the other -/

namespace Registry

/-- Every type resolves after those before it. -/
def ResolvesInTurn (registry : Registry) (types : List Ty) : Prop :=
  ∀ before type after, types = before ++ type :: after →
    ∃ next, (registry.resolveAll before).resolve type = .ok next

theorem resolvesInTurn_nil (registry : Registry) : registry.ResolvesInTurn [] := by
  intro before type after h
  simp at h

theorem resolvesInTurn_cons : registry.ResolvesInTurn (type :: types) ↔
    ∃ next, registry.resolve type = .ok next ∧ next.ResolvesInTurn types := by
  constructor
  · intro h
    obtain ⟨next, hnext⟩ := h [] type types rfl
    refine ⟨next, hnext, fun before other after htypes => ?_⟩
    rw [← resolveAll_cons_of_ok hnext]
    exact h (type :: before) other after (by simp [htypes])
  · rintro ⟨next, hnext, h⟩ before other after htypes
    cases before with
    | nil =>
      obtain ⟨rfl, -⟩ : type = other ∧ types = after := by simpa using htypes
      exact ⟨next, hnext⟩
    | cons first before =>
      obtain ⟨rfl, hrest⟩ : type = first ∧ types = before ++ other :: after := by
        simpa using htypes
      rw [resolveAll_cons_of_ok hnext]
      exact h before other after hrest

theorem resolvesInTurn_append {others : List Ty} : registry.ResolvesInTurn (types ++ others) ↔
    registry.ResolvesInTurn types ∧ (registry.resolveAll types).ResolvesInTurn others := by
  induction types generalizing registry with
  | nil => simp [resolvesInTurn_nil, resolveAll]
  | cons type types ih =>
    rw [List.cons_append, resolvesInTurn_cons, resolvesInTurn_cons]
    constructor
    · rintro ⟨next, hnext, h⟩
      rw [resolveAll_cons_of_ok hnext]
      exact ⟨⟨next, hnext, (ih.mp h).1⟩, (ih.mp h).2⟩
    · rintro ⟨⟨next, hnext, h⟩, hothers⟩
      rw [resolveAll_cons_of_ok hnext] at hothers
      exact ⟨next, hnext, ih.mpr ⟨h, hothers⟩⟩

theorem resolvesInTurn_singleton :
    registry.ResolvesInTurn [type] ↔ ∃ next, registry.resolve type = .ok next := by
  rw [resolvesInTurn_cons]
  exact exists_congr fun next => and_iff_left (resolvesInTurn_nil next)

/-- **Where the graph decides what a factory gets, the turn does not matter**: the types resolve in
turn exactly if each of them resolves on its own. -/
theorem resolvesInTurn_iff_alone {vain : Factory → Bool} (hcoherent : registry.Coherent vain)
    (hregular : ∀ type ∈ types, registry.Regular vain type) :
    registry.ResolvesInTurn types ↔ ∀ type ∈ types, ∃ next, registry.resolve type = .ok next := by
  have hturn : ∀ before, ∀ type ∈ types, ((∃ next,
      (registry.resolveAll before).resolve type = .ok next) ↔
        ∃ next, registry.resolve type = .ok next) := by
    intro before type hmem
    obtain ⟨hbefore, cache, hcache⟩ := coherent_resolveAll before hcoherent
    rw [hcoherent.resolves_iff (hregular type hmem)]
    rw [hcache] at hbefore ⊢
    exact hbefore.resolves_iff (hregular type hmem)
  constructor
  · intro h type hmem
    obtain ⟨before, after, rfl⟩ := List.append_of_mem hmem
    exact (hturn before type hmem).mp (h before type after rfl)
  · rintro h before type after rfl
    have hmem : type ∈ before ++ type :: after := by simp
    exact (hturn before type hmem).mpr (h type hmem)

end Registry

namespace Client

variable {bench bench' : Workbench} {spec : MethodSpec} {arguments : ArgumentType} {response : Ty}

/-! ## 2. Specifications -/

/-- The argument type has as many parts as there are parameters, or it is the object that the
specification asks for. -/
def MethodSpec.Fits (spec : MethodSpec) : ArgumentType → Prop
  | .positional types => spec.takesObject = false ∧ types.length = spec.parameters.length
  | .object _ => spec.takesObject = true

/-- The rules for the specification of a method that takes arguments of a type. -/
structure MethodSpec.Valid (spec : MethodSpec) (arguments : ArgumentType) : Prop where
  named : spec.methodName ≠ ""
  unmixed : spec.takesObject = true → spec.parameters = []
  parameters_named : ∀ parameter ∈ spec.parameters, parameter.wireName ≠ ""
  parameters_distinct : (spec.parameters.map (·.wireName)).Nodup
  fits : spec.Fits arguments

theorem MethodSpec.shapeFault?_eq_none_iff :
    spec.shapeFault? arguments = none ↔ spec.Fits arguments := by
  cases arguments with
  | positional types =>
    cases htakes : spec.takesObject <;> simp [shapeFault?, Fits, htakes]
  | object type =>
    cases htakes : spec.takesObject <;> simp [shapeFault?, Fits, htakes]

/-- **A specification has no fault exactly if it is valid.** -/
theorem MethodSpec.fault?_eq_none_iff : spec.fault? arguments = none ↔ spec.Valid arguments := by
  have hnames : Naming.fault? spec.methodName spec.parameters = none ↔
      (spec.parameters.map (·.wireName)).Nodup ∧
        ∀ parameter ∈ spec.parameters, parameter.wireName ≠ "" := by
    simp [Naming.fault?, faultAfter_eq_none_iff]
  have hparts : spec.fault? arguments = none ↔ spec.methodName ≠ "" ∧
      ¬ (spec.takesObject = true ∧ spec.parameters ≠ []) ∧
      Naming.fault? spec.methodName spec.parameters = none ∧
      spec.shapeFault? arguments = none := by
    unfold MethodSpec.fault?
    split
    · simp_all
    · split
      · simp_all
      · cases Naming.fault? spec.methodName spec.parameters <;> simp_all
  rw [hparts, hnames, shapeFault?_eq_none_iff]
  constructor
  · rintro ⟨hnamed, hunmixed, ⟨hdistinct, hparameters⟩, hfits⟩
    exact ⟨hnamed, by simpa using hunmixed, hparameters, hdistinct, hfits⟩
  · intro h
    exact ⟨h.named, by simpa using h.unmixed, ⟨h.parameters_distinct, h.parameters_named⟩, h.fits⟩

/-! ## 3. Types on a workbench -/

/-- A type gets its adapter exactly if it resolves. -/
theorem Workbench.adapter_ok_iff {adapter : Adapter} {next : Registry} :
    (∃ bench', Workbench.adapter type bench = .ok adapter bench' ∧ bench'.registry = next) ↔
      bench.registry.resolve type = .ok next ∧ adapter = next.adapter type := by
  unfold Workbench.adapter
  cases bench.registry.resolve type with
  | error fault => simp
  | ok found =>
    constructor
    · rintro ⟨bench', h, rfl⟩
      cases h
      exact ⟨rfl, rfl⟩
    · rintro ⟨h, rfl⟩
      cases h
      exact ⟨_, rfl, rfl⟩

theorem Workbench.exists_adapter :
    (∃ adapter bench', Workbench.adapter type bench = .ok adapter bench') ↔
      ∃ next, bench.registry.resolve type = .ok next := by
  constructor
  · rintro ⟨adapter, bench', h⟩
    exact ⟨_, (adapter_ok_iff.mp ⟨bench', h, rfl⟩).1⟩
  · rintro ⟨next, h⟩
    obtain ⟨bench', h, -⟩ := adapter_ok_iff.mpr ⟨h, rfl⟩
    exact ⟨_, bench', h⟩

theorem Workbench.registry_of_adapter {adapter : Adapter}
    (h : Workbench.adapter type bench = .ok adapter bench') :
    bench.registry.resolve type = .ok bench'.registry ∧
      adapter = bench'.registry.adapter type :=
  adapter_ok_iff.mp ⟨bench', h, rfl⟩

/-- Types get their adapters exactly if they resolve in turn. -/
theorem Workbench.exists_adapters :
    (∃ adapters bench', types.mapM Workbench.adapter bench = .ok adapters bench') ↔
      bench.registry.ResolvesInTurn types := by
  induction types generalizing bench with
  | nil => simp [Registry.resolvesInTurn_nil]
  | cons type types ih =>
    rw [List.mapM_cons, Registry.resolvesInTurn_cons]
    constructor
    · rintro ⟨adapters, bench', h⟩
      obtain ⟨adapter, mid, hadapter, h⟩ := bind_ok.mp h
      obtain ⟨others, last, hothers, -⟩ := bind_ok.mp h
      exact ⟨_, (registry_of_adapter hadapter).1, ih.mp ⟨others, last, hothers⟩⟩
    · rintro ⟨next, hnext, h⟩
      obtain ⟨mid, hadapter, rfl⟩ := adapter_ok_iff.mpr ⟨hnext, rfl⟩
      obtain ⟨others, last, hothers⟩ := ih.mpr h
      exact ⟨_, last, bind_ok.mpr ⟨_, mid, hadapter, bind_ok.mpr ⟨others, last, hothers, rfl⟩⟩⟩

theorem Workbench.registry_of_adapters {adapters : List Adapter}
    (h : types.mapM Workbench.adapter bench = .ok adapters bench') :
    bench'.registry = bench.registry.resolveAll types := by
  induction types generalizing bench adapters with
  | nil =>
    obtain ⟨-, rfl⟩ := pure_ok.mp h
    rfl
  | cons type types ih =>
    rw [List.mapM_cons] at h
    obtain ⟨adapter, mid, hadapter, h⟩ := bind_ok.mp h
    obtain ⟨others, last, hothers, h⟩ := bind_ok.mp h
    obtain ⟨-, rfl⟩ := pure_ok.mp h
    rw [ih hothers, Registry.resolveAll_cons_of_ok (registry_of_adapter hadapter).1]

/-! ## 4. Composing -/

/-- An object argument has fields to be sent as parameters. -/
def ArgumentType.Spreads (registry : Registry) : ArgumentType → Prop
  | .positional _ => True
  | .object type =>
    ∃ next, registry.resolve type = .ok next ∧ (next.adapter type).isObject = true

/-- An argument type gets its encoder exactly if its types resolve in turn, and an object has
fields. -/
theorem Encoder.exists_resolve :
    (∃ encoder bench', Encoder.resolve arguments bench = .ok encoder bench') ↔
      bench.registry.ResolvesInTurn arguments.types ∧ arguments.Spreads bench.registry := by
  cases arguments with
  | positional types =>
    show _ ↔ bench.registry.ResolvesInTurn types ∧ True
    rw [and_true, ← Workbench.exists_adapters]
    constructor
    · rintro ⟨encoder, bench', h⟩
      obtain ⟨adapters, last, hadapters, -⟩ := bind_ok.mp h
      exact ⟨adapters, last, hadapters⟩
    · rintro ⟨adapters, bench', h⟩
      exact ⟨_, _, bind_ok.mpr ⟨adapters, bench', h, rfl⟩⟩
  | object type =>
    show _ ↔ bench.registry.ResolvesInTurn [type] ∧ _
    rw [Registry.resolvesInTurn_singleton]
    constructor
    · rintro ⟨encoder, bench', h⟩
      obtain ⟨adapter, mid, hadapter, h⟩ := bind_ok.mp h
      obtain ⟨hnext, rfl⟩ := Workbench.registry_of_adapter hadapter
      refine ⟨⟨_, hnext⟩, _, hnext, ?_⟩
      by_contra hflat
      rw [if_neg hflat] at h
      exact throw_ok.mp h
    · rintro ⟨-, next, hnext, hobject⟩
      obtain ⟨mid, hadapter, rfl⟩ := Workbench.adapter_ok_iff.mpr ⟨hnext, rfl⟩
      refine ⟨.object (mid.registry.adapter type), mid, bind_ok.mpr ⟨_, mid, hadapter, ?_⟩⟩
      rw [if_pos hobject]
      rfl

theorem Encoder.registry_of_resolve {encoder : Encoder}
    (h : Encoder.resolve arguments bench = .ok encoder bench') :
    bench'.registry = bench.registry.resolveAll arguments.types := by
  cases arguments with
  | positional types =>
    obtain ⟨adapters, last, hadapters, h⟩ := bind_ok.mp h
    obtain ⟨-, rfl⟩ := pure_ok.mp h
    exact Workbench.registry_of_adapters hadapters
  | object type =>
    obtain ⟨adapter, mid, hadapter, h⟩ := bind_ok.mp h
    obtain ⟨hnext, rfl⟩ := Workbench.registry_of_adapter hadapter
    have hlast : bench' = mid := by
      split at h
      · exact (pure_ok.mp h).2
      · exact (throw_ok.mp h).elim
    rw [hlast]
    exact (Registry.resolveAll_cons_of_ok hnext []).symm

/-- What has to hold for a method to be composed. -/
structure Composable (registry : Registry) (spec : MethodSpec) (arguments : ArgumentType)
    (response : Ty) : Prop where
  valid : spec.Valid arguments
  resolves : registry.ResolvesInTurn (arguments.types ++ [response])
  spreads : arguments.Spreads registry

/-- **A method is composed exactly if its specification is valid and its types resolve.** -/
theorem exists_compose :
    (∃ method bench', compose spec arguments response bench = .ok method bench') ↔
      Composable bench.registry spec arguments response := by
  unfold compose
  cases hfault : spec.fault? arguments with
  | some fault =>
    constructor
    · rintro ⟨method, bench', h⟩
      exact (throw_ok.mp h).elim
    · intro h
      rw [MethodSpec.fault?_eq_none_iff.mpr h.valid] at hfault
      cases hfault
  | none =>
    have hvalid := MethodSpec.fault?_eq_none_iff.mp hfault
    constructor
    · rintro ⟨method, bench', h⟩
      obtain ⟨encoder, mid, hencoder, h⟩ := bind_ok.mp h
      obtain ⟨decoder, last, hdecoder, -⟩ := bind_ok.mp h
      rw [resolving_ok] at hencoder hdecoder
      obtain ⟨hresolves, hspreads⟩ := Encoder.exists_resolve.mp ⟨encoder, mid, hencoder⟩
      have hresponse := Workbench.exists_adapter.mp ⟨decoder, last, hdecoder⟩
      rw [Encoder.registry_of_resolve hencoder, ← Registry.resolvesInTurn_singleton] at hresponse
      exact ⟨hvalid, Registry.resolvesInTurn_append.mpr ⟨hresolves, hresponse⟩, hspreads⟩
    · rintro ⟨-, hresolves, hspreads⟩
      obtain ⟨harguments, hresponse⟩ := Registry.resolvesInTurn_append.mp hresolves
      obtain ⟨encoder, mid, hencoder⟩ := Encoder.exists_resolve.mpr ⟨harguments, hspreads⟩
      rw [← Encoder.registry_of_resolve hencoder, Registry.resolvesInTurn_singleton] at hresponse
      obtain ⟨decoder, last, hdecoder⟩ := Workbench.exists_adapter.mpr hresponse
      exact ⟨_, last, bind_ok.mpr ⟨encoder, mid, resolving_ok.mpr hencoder,
        bind_ok.mpr ⟨decoder, last, resolving_ok.mpr hdecoder, rfl⟩⟩⟩

/-- The first factory that does not decline answers with the call adapter that a family needs. -/
def CallAdapters.Fit (adapters : CallAdapters) (family : ReturnFamily) (element : Ty) : Prop :=
  ∃ before factory after, adapters.factories = before ++ factory :: after ∧
    (∀ earlier ∈ before, earlier family.name element = none) ∧
    factory family.name element = some family.adapter

theorem adapterFault?_eq_none_iff {adapters : CallAdapters} {family : ReturnFamily}
    {element : Ty} (method : String) :
    adapterFault? adapters method family element = none ↔ adapters.Fit family element := by
  have hchoice : adapterFault? adapters method family element = none ↔
      adapters.choose? family.name element = some family.adapter := by
    unfold adapterFault?
    cases adapters.choose? family.name element <;> simp
  rw [hchoice, CallAdapters.choose?, List.findSome?_eq_some_iff]
  constructor
  · rintro ⟨before, factory, after, hfactories, hanswer, hdeclined⟩
    exact ⟨before, factory, after, hfactories, hdeclined, hanswer⟩
  · rintro ⟨before, factory, after, hfactories, hdeclined, hanswer⟩
    exact ⟨before, factory, after, hfactories, hanswer, hdeclined⟩

/-- **An adapted method is composed exactly if moreover its call adapter fits.** -/
theorem exists_composeAdapted {adapters : CallAdapters} {family : ReturnFamily} :
    (∃ method bench', composeAdapted adapters family spec arguments response bench =
        .ok method bench') ↔
      adapters.Fit family response ∧ Composable bench.registry spec arguments response := by
  rw [← adapterFault?_eq_none_iff spec.methodName]
  unfold composeAdapted
  cases hfault : adapterFault? adapters spec.methodName family response with
  | some fault => simp
  | none => simp [exists_compose]

/-! ## 5. Failures -/

@[simp] theorem kind_compositionError (method : String) (role : Role) (fault : TypeFault) :
    (compositionError method role fault).kind = .composition := by
  unfold compositionError
  split
  · assumption
  · rfl

theorem fails_resolving {α : Type} (method : String) (role : Role)
    (resolve : EStateM TypeFault Workbench α) :
    Fails (fun error : Error => error.kind = .composition) (resolving method role resolve) := by
  intro bench error bench' h
  unfold resolving at h
  split at h
  · cases h
  · cases h
    exact kind_compositionError method role _

/-- **Whoever fails to compose a method is told so.** -/
theorem fails_compose (spec : MethodSpec) (arguments : ArgumentType) (response : Ty) :
    Fails (fun error : Error => error.kind = .composition) (compose spec arguments response) := by
  unfold compose
  split
  · exact .throw rfl
  · refine .bind (fails_resolving _ _ _) fun encoder => ?_
    exact .bind (fails_resolving _ _ _) fun decoder => .pure _

theorem fails_composeAdapted (adapters : CallAdapters) (family : ReturnFamily) (spec : MethodSpec)
    (arguments : ArgumentType) (response : Ty) :
    Fails (fun error : Error => error.kind = .composition)
      (composeAdapted adapters family spec arguments response) := by
  unfold composeAdapted
  split
  · exact .throw rfl
  · exact fails_compose spec arguments response

/-! ## 6. In a session -/

namespace Session

variable {session : Session} {name : String} {family? : Option ReturnFamily}

/-- The work of composing, adapted to a family if one is given. -/
def composing (adapters : CallAdapters) (family? : Option ReturnFamily) (spec : MethodSpec)
    (arguments : ArgumentType) (response : Ty) : EStateM Error Workbench Method :=
  match family? with
  | some family => composeAdapted adapters family spec arguments response
  | none => Client.compose spec arguments response

/-- The session after work at its bench: types are resolved and reported, and all else is as it
was. -/
def afterWork (session : Session) (bench : Workbench) : Session :=
  { session with
    registry := bench.registry
    notices := (bench.resolved.map fun type => .resolvedType type.name) ++ session.notices }

theorem atBench_of_ok {α : Type} {work : EStateM Error Workbench α} {value : α}
    (h : work ⟨session.registry, []⟩ = .ok value bench) :
    atBench work session = .ok value (session.afterWork bench) := by
  unfold atBench
  rw [get_bind]
  simp only [EStateM.run, h, set_bind]
  rfl

theorem atBench_of_error {α : Type} {work : EStateM Error Workbench α} {error : Error}
    (h : work ⟨session.registry, []⟩ = .error error bench) :
    atBench work session = .error (.error error) (session.afterWork bench) := by
  unfold atBench
  rw [get_bind]
  simp only [EStateM.run, h, set_bind]
  rfl

/-- The session after a method has been composed: it is reported and kept under its name. -/
def afterComposing (session : Session) (name : String) (family? : Option ReturnFamily)
    (parameters : Nat) (method : Method) (bench : Workbench) : Session :=
  { session.afterWork bench with
    notices := .composedMethod method.name parameters :: (session.afterWork bench).notices
    methods := (name, ⟨method, family?⟩) :: session.methods }

/-- What composing comes to in a session is decided at the bench. -/
theorem compose_cases (session : Session) (name : String) (family? : Option ReturnFamily)
    (spec : MethodSpec) (arguments : ArgumentType) (response : Ty) :
    (∃ method bench, composing session.adapters family? spec arguments response
          ⟨session.registry, []⟩ = .ok method bench ∧
        Session.compose name family? spec arguments response session =
          .ok method
            (session.afterComposing name family? spec.parameters.length method bench)) ∨
      ∃ error bench, composing session.adapters family? spec arguments response
          ⟨session.registry, []⟩ = .error error bench ∧
        Session.compose name family? spec arguments response session =
          .error (.error error) (session.afterWork bench) := by
  cases hwork : composing session.adapters family? spec arguments response
    ⟨session.registry, []⟩ with
  | ok method bench => exact .inl ⟨method, bench, rfl, bind_of_ok (atBench_of_ok hwork)⟩
  | error error bench =>
    refine .inr ⟨error, bench, rfl, ?_⟩
    unfold Session.compose
    rw [get_bind]
    exact bind_error.mpr (.inl (atBench_of_error hwork))

theorem exists_composing :
    (∃ method bench, composing session.adapters family? spec arguments response
        ⟨session.registry, []⟩ = .ok method bench) ↔
      Composable session.registry spec arguments response ∧
        ∀ family ∈ family?, session.adapters.Fit family response := by
  cases family? with
  | none => simp [composing, exists_compose]
  | some family => simp [composing, exists_composeAdapted, and_comm]

theorem fails_composing (adapters : CallAdapters) :
    Fails (fun error : Error => error.kind = .composition)
      (composing adapters family? spec arguments response) := by
  cases family? with
  | none => exact fails_compose spec arguments response
  | some family => exact fails_composeAdapted adapters family spec arguments response

/-- **When a method is composed.**

* Composing succeeds exactly if the method is composable and, if its calls are adapted, the first
  factory that answers the return type answers with the right call adapter.
* A success only resolves and reports types, and keeps the method.
* A failure is a composition error, and only resolves and reports types.
* The types resolve in turn exactly if each of them resolves on its own, where what is asked for by a
  factory is granted in every case or refused in every case. -/
theorem compose_exact (session : Session) (name : String) (family? : Option ReturnFamily)
    (spec : MethodSpec) (arguments : ArgumentType) (response : Ty) :
    ((∃ method session',
        Session.compose name family? spec arguments response session = .ok method session') ↔
      Composable session.registry spec arguments response ∧
        ∀ family ∈ family?, session.adapters.Fit family response) ∧
    (∀ method session',
      Session.compose name family? spec arguments response session = .ok method session' →
        ∃ bench, session' =
          session.afterComposing name family? spec.parameters.length method bench) ∧
    (∀ failure session',
      Session.compose name family? spec arguments response session = .error failure session' →
        (∃ error, failure = .error error ∧ error.kind = .composition) ∧
          ∃ bench, session' = session.afterWork bench) ∧
    (∀ vain, session.registry.Coherent vain →
      (∀ type ∈ arguments.types ++ [response], session.registry.Regular vain type) →
        (session.registry.ResolvesInTurn (arguments.types ++ [response]) ↔
          ∀ type ∈ arguments.types ++ [response],
            ∃ next, session.registry.resolve type = .ok next)) := by
  rcases compose_cases session name family? spec arguments response with
    ⟨method, bench, hwork, hsession⟩ | ⟨error, bench, hwork, hsession⟩
  · rw [hsession]
    refine ⟨?_, ?_, ?_, fun _ hcoherent => Registry.resolvesInTurn_iff_alone hcoherent⟩
    · exact iff_of_true ⟨_, _, rfl⟩ (exists_composing.mp ⟨method, bench, hwork⟩)
    · intro found session' h
      cases h
      exact ⟨bench, rfl⟩
    · intro failure session' h
      cases h
  · rw [hsession]
    refine ⟨?_, ?_, ?_, fun _ hcoherent => Registry.resolvesInTurn_iff_alone hcoherent⟩
    · refine iff_of_false (fun ⟨_, _, h⟩ => by cases h) fun hcomposable => ?_
      obtain ⟨method, last, hok⟩ := exists_composing.mpr hcomposable
      rw [hwork] at hok
      cases hok
    · intro method session' h
      cases h
    · intro failure session' h
      cases h
      exact ⟨⟨error, rfl, fails_composing session.adapters _ _ _ hwork⟩, bench, rfl⟩

/-- The call adapters of a client: the second factory answers every return type. -/
def greedyAdapters : CallAdapters :=
  ⟨⟨"Futures", "FutureAdapter"⟩,
    [fun family _ => if family = "Eager" then some "EagerAdapter" else none,
      fun _ _ => some "GreedyAdapter"]⟩

/-- A session with a client that sends letters. -/
def postSession : Session :=
  .new { } (.new Registry.post Registry.postFactories) greedyAdapters .loopback []

/-- Sends a letter. -/
def sendSpec : MethodSpec :=
  ⟨"send_letter", none, [⟨"letter", "letter"⟩, ⟨"weights", "weights"⟩], false⟩

/-- A letter is sent by a method that answers at once.  There is none that answers with a future,
for the second factory is asked before that for futures. -/
theorem compose_exact_send :
    (∃ method session', Session.compose "send" (some ⟨"Eager", "EagerAdapter"⟩) sendSpec
        (.positional [.model "Letter", .list (.integer .i64)]) .unit postSession =
          .ok method session') ∧
      ¬ ∃ method session', Session.compose "send" (some ⟨"Futures", "FutureAdapter"⟩) sendSpec
        (.positional [.model "Letter", .list (.integer .i64)]) .unit postSession =
          .ok method session' := by
  have hregular : ∀ type, postSession.registry.Regular Registry.isVain type :=
    Registry.regular_post
  have halone : ∀ type ∈ [Ty.model "Letter", .list (.integer .i64), .unit],
      ∃ next, postSession.registry.resolve type = .ok next := by
    simp only [List.forall_mem_cons]
    exact ⟨⟨_, rfl⟩, ⟨_, rfl⟩, ⟨_, rfl⟩, fun _ h => absurd h List.not_mem_nil⟩
  obtain ⟨heager, -, -, hturn⟩ := compose_exact postSession "send" (some ⟨"Eager", "EagerAdapter"⟩)
    sendSpec (.positional [.model "Letter", .list (.integer .i64)]) .unit
  obtain ⟨hfuture, -, -, -⟩ := compose_exact postSession "send"
    (some ⟨"Futures", "FutureAdapter"⟩) sendSpec
    (.positional [.model "Letter", .list (.integer .i64)]) .unit
  have hresolves := (hturn _ (Registry.coherent_new _ _ _) fun type _ => hregular type).mpr halone
  refine ⟨heager.mpr ⟨⟨?_, hresolves, trivial⟩, ?_⟩, fun h => ?_⟩
  · exact MethodSpec.fault?_eq_none_iff.mp rfl
  · rintro family hfamily
    cases hfamily
    exact ⟨[], _, _, rfl, by simp, rfl⟩
  · obtain ⟨-, hfit⟩ := hfuture.mp h
    have hfault := (adapterFault?_eq_none_iff "sendLetter").mpr (hfit _ rfl)
    simp [adapterFault?, CallAdapters.choose?, CallAdapters.factories, postSession, Session.new,
      greedyAdapters] at hfault

/-- A session whose client has rival factories. -/
def rivalSession : Session :=
  .new { } Registry.rivals ⟨⟨"Futures", "FutureAdapter"⟩, []⟩ .loopback []

/-- Sends a text and a flag. -/
def flagSpec : MethodSpec :=
  ⟨"flag_text", none, [⟨"text", "text"⟩, ⟨"flag", "flag"⟩], false⟩

/-- **Rivals cannot be composed together.**  The specification fits the arguments, and strings,
booleans and the unit each resolve on their own.  But booleans do not resolve after strings, so no
method takes a string and a boolean. -/
theorem compose_rivals :
    flagSpec.Valid (.positional [.string, .bool]) ∧
      (∀ type ∈ [Ty.string, .bool, .unit],
        ∃ next, rivalSession.registry.resolve type = .ok next) ∧
      ¬ ∃ method session', Session.compose "flag" none flagSpec (.positional [.string, .bool]) .unit
        rivalSession = .ok method session' := by
  refine ⟨MethodSpec.fault?_eq_none_iff.mp rfl, ?_, ?_⟩
  · simp only [List.forall_mem_cons]
    exact ⟨⟨_, rfl⟩, ⟨_, rfl⟩, ⟨_, rfl⟩, fun _ h => absurd h List.not_mem_nil⟩
  · rintro ⟨method, session', h⟩
    rcases compose_cases rivalSession "flag" none flagSpec (.positional [.string, .bool]) .unit with
      ⟨found, bench, hwork, -⟩ | ⟨error, bench, -, hsession⟩
    · obtain ⟨⟨-, hturn, -⟩, -⟩ := exists_composing.mp ⟨found, bench, hwork⟩
      obtain ⟨next, hnext⟩ := hturn [.string] .bool [.unit] rfl
      cases hnext
    · rw [hsession] at h
      cases h

end Session

end Client

end RemoteCall
