/-
# What the search for a type finds

The search of a registry has a bound on its depth, and types that are being resolved are taken for
resolved.  This module says that neither shows in its outcome, where the guess which factories ask
in vain is right (`Regular`).

* A type from which no fault can be reached is found.  The statement is about types that are sound
  *beyond* the pending ones, for those are not looked at again.
* What the search stages leads to known types, and was reached from the type that was asked for
  (`visit_reaches`).

The first two go together (`Searches`).  That a vain factory is refused what it asks for follows
from what a search that finds its type stages: known types hang together (`Hangs`), so none of them
can be one from which a fault is reached in any case.  `Searches.visit_ok` says once what a successful
step of the search has done; the inductions are on the depth and use it in place of the definition.
-/
import RemoteCall.Proofs.Typed.Vocabulary

namespace RemoteCall.Registry

open Success

variable {registry : Registry} {vain : Factory → Bool} {types pending : List Ty} {fuel : Nat}
  {type : Ty} {staged staged' : Table}

/-! ## 1. One step of the search -/

theorem visit_of_known (hfuel : 0 < fuel) (h : Known registry pending staged type) :
    registry.visit fuel pending type staged = .ok staged := by
  obtain ⟨fuel, rfl⟩ := Nat.exists_eq_succ_of_ne_zero (Nat.ne_of_gt hfuel)
  unfold visit
  rw [if_pos]
  simpa only [Bool.or_eq_true, decide_eq_true_eq, or_assoc, Known] using h

theorem visit_of_unknown (h : ¬ Known registry pending staged type) :
    registry.visit (fuel + 1) pending type staged =
      (ruleOf registry.catalog (registry.visit fuel (type :: pending)) type staged
          registry.factories >>= fun found => .ok (found.2 ++ [(type, found.1)])) := by
  rw [visit, if_neg]
  · rfl
  · simpa only [Bool.or_eq_true, decide_eq_true_eq, or_assoc, Known] using h

/-- A type that was not known before is staged with its rule once the types that it leads to are
resolved, if the vain factories are refused what they ask for and the one that answers gets it. -/
theorem visit_of_decided (h : ¬ Known registry pending staged type)
    (hvain : ∀ factory ∈ registry.factories, factory.serves type = true → vain factory = true →
      ∃ via answer, factory = .through type via answer ∧
        ∃ fault, registry.visit fuel (type :: pending) via staged = .error fault)
    (hserved : ∀ target via answer,
      (registry.without vain).server? type = some (.through target via answer) →
      ∃ staged', registry.visit fuel (type :: pending) via staged = .ok staged') :
    registry.visit (fuel + 1) pending type staged =
      (resolveEach (registry.visit fuel (type :: pending))
          ((registry.without vain).leadsTo type) staged >>=
        conclude ((registry.without vain).fault? type) ((registry.without vain).rule type) >>=
        fun found => .ok (found.2 ++ [(type, found.1)])) := by
  have hrule := @ruleOf_eq (registry.without vain) (registry.visit fuel (type :: pending)) type
    staged hserved
  rw [visit_of_unknown h, ruleOf_without hvain]
  exact congrArg (· >>= _) hrule

/-- What holds from before to after every resolution holds from before to after all of them. -/
theorem resolveEach_related {resolve : Resolve} {R : Table → Table → Prop}
    (hrefl : ∀ staged, R staged staged)
    (htrans : ∀ {first second third}, R first second → R second third → R first third) :
    ∀ {asked : List Ty} {staged staged' : Table},
    (∀ type ∈ asked, ∀ {staged staged'}, resolve type staged = .ok staged' → R staged staged') →
    resolveEach resolve asked staged = .ok staged' → R staged staged'
  | [], staged, _, _, h => by
    cases h
    exact hrefl staged
  | type :: asked, _, _, hstep, h => by
    obtain ⟨htype, hasked⟩ := List.forall_mem_cons.mp hstep
    obtain ⟨mid, hmid, h⟩ := except_bind_ok.mp h
    exact htrans (htype hmid) (resolveEach_related hrefl htrans hasked h)

/-! ## 2. How a type gets its rule -/

/-- How a type gets its rule, and which types have been resolved for that. -/
inductive Derivation (catalog : Catalog) (factories : List Factory) (type : Ty) :
    List Ty → Rule → Prop
  | own (faultless : type.fault? catalog = none) :
    Derivation catalog factories type (type.parts catalog) (type.rule catalog)
  | exact {rule : CustomRule} (registered : .exact type rule ∈ factories) :
    Derivation catalog factories type [] (.custom rule)
  | through {via : Ty} {rule : CustomRule}
    (registered : .through type via (some rule) ∈ factories) :
    Derivation catalog factories type [via] (.custom rule)

theorem Derivation.mono {catalog : Catalog} {factories factories' : List Factory}
    {asked : List Ty} {rule : Rule} (h : Derivation catalog factories type asked rule)
    (hsubset : factories ⊆ factories') : Derivation catalog factories' type asked rule := by
  cases h with
  | own hfaultless => exact .own hfaultless
  | exact hregistered => exact .exact (hsubset hregistered)
  | through hregistered => exact .through (hsubset hregistered)

theorem Derivation.subset_mayAsk {asked : List Ty} {rule : Rule}
    (h : Derivation registry.catalog registry.factories type asked rule) :
    asked ⊆ registry.mayAsk type := by
  intro next hnext
  cases h with
  | own => exact List.mem_append_left _ hnext
  | exact => cases hnext
  | through hregistered =>
    rw [List.mem_singleton.mp hnext]
    exact mem_mayAsk_of_through hregistered

/-- A type without faults gets its rule by resolving the types that it leads to. -/
theorem derivation_of_faultless (h : registry.fault? type = none) :
    Derivation registry.catalog registry.factories type (registry.leadsTo type)
      (registry.rule type) := by
  unfold fault? at h
  unfold Registry.leadsTo Registry.rule
  cases hserver : registry.server? type with
  | none =>
    rw [hserver] at h
    exact .own h
  | some factory =>
    have hregistered := List.mem_of_find?_eq_some hserver
    have hserves := List.find?_some hserver
    rw [hserver] at h
    cases factory with
    | exact target custom =>
      obtain rfl : target = type := of_decide_eq_true hserves
      exact .exact hregistered
    | declining => cases hserves
    | through target via answer =>
      obtain rfl : target = type := of_decide_eq_true hserves
      cases answer with
      | none => cases h
      | some custom => exact .through hregistered

theorem conclude_ok {fault? : Option TypeFault} {rule : Rule} {found : Rule × Table} :
    conclude fault? rule staged = .ok found ↔ fault? = none ∧ found = (rule, staged) := by
  cases fault? with
  | none => simp [conclude, eq_comm]
  | some fault => simp [conclude]

/-- Whatever rule is found, it is derived, and the types that it took have been resolved. -/
theorem ruleOf_ok {resolve : Resolve} {rule : Rule} : ∀ {factories : List Factory},
    factories ⊆ registry.factories →
    ruleOf registry.catalog resolve type staged factories = .ok (rule, staged') →
    ∃ asked, Derivation registry.catalog registry.factories type asked rule ∧
      resolveEach resolve asked staged = .ok staged'
  | [], _, h => by
    rw [ruleOf, ownRule_eq] at h
    obtain ⟨mid, hmid, h⟩ := except_bind_ok.mp h
    obtain ⟨hfault, h⟩ := conclude_ok.mp h
    cases h
    exact ⟨_, .own hfault, hmid⟩
  | factory :: rest, hsubset, h => by
    obtain ⟨hfactory, hrest⟩ := List.cons_subset.mp hsubset
    cases factory with
    | declining => exact ruleOf_ok hrest h
    | exact target custom =>
      unfold ruleOf at h
      split at h
      · rename_i htarget
        cases htarget
        cases h
        exact ⟨[], .exact hfactory, rfl⟩
      · exact ruleOf_ok hrest h
    | through target via answer =>
      unfold ruleOf at h
      split at h
      · rename_i htarget
        cases htarget
        cases hvia : resolve via staged with
        | error fault =>
          rw [hvia] at h
          exact ruleOf_ok hrest h
        | ok mid =>
          rw [hvia] at h
          cases answer with
          | none => cases h
          | some custom =>
            cases h
            exact ⟨[via], .through hfactory, by rw [resolveEach_singleton, hvia]⟩
      · exact ruleOf_ok hrest h

/-! ## 3. What is known hangs together -/

/-- The rule of a type is the one that it has where the vain factories are left out, if the guess
which ones they are is right. -/
def Fits (registry : Registry) (vain : Factory → Bool) (type : Ty) (asked : List Ty) : Prop :=
  registry.Regular vain type →
    asked = (registry.without vain).leadsTo type ∧ (registry.without vain).fault? type = none

/-- The entry of a type is settled: its rule is derived from types that are known, and those are the
types that it leads to. -/
def Settled (registry : Registry) (vain : Factory → Bool) (known : Ty → Prop) (type : Ty)
    (rule : Rule) : Prop :=
  ∃ asked, Derivation registry.catalog registry.factories type asked rule ∧
    registry.Fits vain type asked ∧ ∀ next ∈ asked, known next

theorem Settled.mono {known known' : Ty → Prop} {rule : Rule}
    (h : registry.Settled vain known type rule) (hknown : ∀ type, known type → known' type) :
    registry.Settled vain known' type rule := by
  obtain ⟨asked, hderived, hfits, hasked⟩ := h
  exact ⟨asked, hderived, hfits, fun next hnext => hknown next (hasked next hnext)⟩

/-- From `staged` to `staged'` only new types have been added, each of them once, and their entries
are settled. -/
structure Adds (registry : Registry) (vain : Factory → Bool) (pending : List Ty)
    (staged staged' more : Table) : Prop where
  appended : staged' = staged ++ more
  distinct : (more.map Prod.fst).Nodup
  new : ∀ entry ∈ more, ¬ Known registry pending staged entry.1
  settled : ∀ entry ∈ more, registry.Settled vain (Known registry pending staged') entry.1 entry.2

theorem knows_iff {table : Table} : knows table type = true ↔ type ∈ table.map Prod.fst := by
  induction table with
  | nil => simp [knows, Table.rule?]
  | cons entry table ih =>
    rw [List.map_cons, List.mem_cons, ← ih, ← List.singleton_append, knows_append, Bool.or_eq_true]
    refine or_congr_left ?_
    by_cases htype : type = entry.1 <;> simp [knows, Table.rule?, htype]

theorem known_append {more : Table} : Known registry pending (staged ++ more) type ↔
    Known registry pending staged type ∨ type ∈ more.map Prod.fst := by
  unfold Known
  rw [knows_append, Bool.or_eq_true, ← @knows_iff type more]
  tauto

theorem Adds.refl (registry : Registry) (vain : Factory → Bool) (pending : List Ty)
    (staged : Table) : registry.Adds vain pending staged staged [] where
  appended := (List.append_nil staged).symm
  distinct := List.nodup_nil
  new := fun _ h => absurd h List.not_mem_nil
  settled := fun _ h => absurd h List.not_mem_nil

theorem Adds.known {more : Table} (h : registry.Adds vain pending staged staged' more)
    (hknown : Known registry pending staged type) : Known registry pending staged' type := by
  rw [h.appended]
  exact hknown.append more

theorem Adds.trans {staged'' more more' : Table}
    (h : registry.Adds vain pending staged staged' more)
    (h' : registry.Adds vain pending staged' staged'' more') :
    registry.Adds vain pending staged staged'' (more ++ more') where
  appended := by rw [h'.appended, h.appended, List.append_assoc]
  distinct := by
    rw [List.map_append, List.nodup_append]
    refine ⟨h.distinct, h'.distinct, ?_⟩
    rintro type hfirst _ hsecond rfl
    obtain ⟨entry, hentry, rfl⟩ := List.mem_map.mp hsecond
    refine h'.new entry hentry ?_
    rw [h.appended]
    exact known_append.mpr (.inr hfirst)
  new := by
    intro entry hentry
    rcases List.mem_append.mp hentry with hentry | hentry
    · exact h.new entry hentry
    · exact fun hknown => h'.new entry hentry (h.known hknown)
  settled := by
    intro entry hentry
    rcases List.mem_append.mp hentry with hentry | hentry
    · exact (h.settled entry hentry).mono fun _ => h'.known
    · exact h'.settled entry hentry

/-- A type that was pending for a search is staged after it. -/
theorem Adds.finish {more : Table} {asked : List Ty} {rule : Rule}
    (h : registry.Adds vain (type :: pending) staged staged' more)
    (hnew : ¬ Known registry pending staged type)
    (hderived : Derivation registry.catalog registry.factories type asked rule)
    (hfits : registry.Fits vain type asked)
    (hasked : ∀ next ∈ asked, Known registry (type :: pending) staged' next) :
    registry.Adds vain pending staged (staged' ++ [(type, rule)]) (more ++ [(type, rule)]) := by
  have hknown : ∀ other, Known registry (type :: pending) staged' other →
      Known registry pending (staged' ++ [(type, rule)]) other := by
    intro other hother
    rw [known_append]
    rcases hother with hother | hother | hother
    · exact .inl (.inl hother)
    · rcases List.mem_cons.mp hother with rfl | hother
      · exact .inr List.mem_cons_self
      · exact .inl (.inr (.inl hother))
    · exact .inl (.inr (.inr hother))
  have hless : ∀ other, Known registry pending staged other →
      Known registry (type :: pending) staged other :=
    fun other => Or.imp_right (Or.imp_left (List.mem_cons_of_mem type))
  constructor
  · rw [h.appended, List.append_assoc]
  · rw [List.map_append, List.nodup_append]
    refine ⟨h.distinct, List.nodup_cons.mpr ⟨List.not_mem_nil, List.nodup_nil⟩, ?_⟩
    rintro other hother _ hlast rfl
    obtain ⟨entry, hentry, rfl⟩ := List.mem_map.mp hother
    refine h.new entry hentry (.inr (.inl ?_))
    rw [List.mem_singleton.mp hlast]
    exact List.mem_cons_self
  · intro entry hentry
    rcases List.mem_append.mp hentry with hentry | hentry
    · exact fun hother => h.new entry hentry (hless _ hother)
    · rw [List.mem_singleton.mp hentry]
      exact hnew
  · intro entry hentry
    rcases List.mem_append.mp hentry with hentry | hentry
    · exact (h.settled entry hentry).mono hknown
    · rw [List.mem_singleton.mp hentry]
      exact ⟨asked, hderived, hfits, fun next hnext => hknown next (hasked next hnext)⟩

/-- Every type that is cached or staged is settled. -/
def Hangs (registry : Registry) (vain : Factory → Bool) (pending : List Ty) (staged : Table) :
    Prop :=
  ∀ entry ∈ registry.cache ++ staged,
    registry.Settled vain (Known registry pending staged) entry.1 entry.2

theorem Hangs.cons (h : registry.Hangs vain pending staged) (type : Ty) :
    registry.Hangs vain (type :: pending) staged :=
  fun entry hentry => (h entry hentry).mono fun _ =>
    Or.imp_right (Or.imp_left (List.mem_cons_of_mem type))

theorem Adds.hangs {more : Table} (h : registry.Adds vain pending staged staged' more)
    (hhangs : registry.Hangs vain pending staged) : registry.Hangs vain pending staged' := by
  intro entry hentry
  rw [h.appended, ← List.append_assoc] at hentry
  rcases List.mem_append.mp hentry with hentry | hentry
  · exact (hhangs entry hentry).mono fun _ => h.known
  · exact h.settled entry hentry

/-- **What is known is sound beyond the pending types.** -/
theorem Hangs.soundBeyond (h : registry.Hangs vain pending staged)
    (hknown : Known registry pending staged type) (hregular : registry.Regular vain type) :
    (registry.without vain).SoundBeyond pending type := by
  refine ⟨fun type => Known registry pending staged type ∧ registry.Regular vain type,
    ⟨hknown, hregular⟩, ?_⟩
  rintro other ⟨hother, hregular⟩
  by_cases hpending : other ∈ pending
  · exact .inl hpending
  · have hentry : other ∈ (registry.cache ++ staged).map Prod.fst := by
      rw [List.map_append, List.mem_append, ← knows_iff, ← knows_iff]
      rcases hother with hother | hother | hother
      · exact .inl hother
      · exact absurd hother hpending
      · exact .inr hother
    obtain ⟨entry, hmem, rfl⟩ := List.mem_map.mp hentry
    obtain ⟨asked, -, hfits, hasked⟩ := h entry hmem
    obtain ⟨rfl, hfault⟩ := hfits hregular
    exact .inr ⟨hfault, fun next hnext => ⟨hasked next hnext, hregular.leadsTo hnext⟩⟩

/-! ## 4. The search -/

/-- A place in the search: the depth that is left is enough, and every pending type may lead to the
one that is looked at. -/
structure Place (registry : Registry) (types : List Ty) (fuel : Nat) (pending : List Ty)
    (type : Ty) : Prop where
  ample : Ample types fuel pending
  mem : type ∈ types
  leads : ∀ other ∈ pending, registry.MayReach other type

theorem Place.next {next : Ty} (h : registry.Place types (fuel + 1) pending type)
    (hencloses : registry.Encloses types) (hnew : type ∉ pending)
    (hnext : next ∈ registry.mayAsk type) :
    registry.Place types fuel (type :: pending) next where
  ample := h.ample.cons h.mem hnew
  mem := hencloses.mayAsk h.mem hnext
  leads := by
    refine List.forall_mem_cons.mpr ⟨.single hnext, fun other hother => ?_⟩
    exact (h.leads other hother).tail hnext

/-- A resolution that adds settled entries to such entries, and ends with its type known. -/
def Adding (registry : Registry) (vain : Factory → Bool) (pending : List Ty) (resolve : Resolve)
    (type : Ty) : Prop :=
  ∀ ⦃staged staged' : Table⦄, registry.Hangs vain pending staged →
    resolve type staged = .ok staged' →
    (∃ more, registry.Adds vain pending staged staged' more) ∧
      Known registry pending staged' type

theorem resolveEach_adds {resolve : Resolve} : ∀ {asked : List Ty} {staged staged' : Table},
    (∀ type ∈ asked, registry.Adding vain pending resolve type) →
    registry.Hangs vain pending staged → resolveEach resolve asked staged = .ok staged' →
    (∃ more, registry.Adds vain pending staged staged' more) ∧
      ∀ type ∈ asked, Known registry pending staged' type
  | [], staged, _, _, _, h => by
    cases h
    exact ⟨⟨[], Adds.refl registry vain pending staged⟩, fun _ h => absurd h List.not_mem_nil⟩
  | type :: asked, _, _, hadding, hhangs, h => by
    obtain ⟨htype, hasked⟩ := List.forall_mem_cons.mp hadding
    obtain ⟨mid, hmid, h⟩ := except_bind_ok.mp h
    obtain ⟨⟨more, hmore⟩, hknown⟩ := htype hhangs hmid
    obtain ⟨⟨others, hothers⟩, hknowns⟩ := resolveEach_adds hasked (hmore.hangs hhangs) h
    exact ⟨⟨_, hmore.trans hothers⟩, List.forall_mem_cons.mpr ⟨hothers.known hknown, hknowns⟩⟩

theorem resolveEach_ok_of_forall {resolve : Resolve} {P : Table → Prop} :
    ∀ {asked : List Ty} {staged : Table},
    (∀ type ∈ asked, ∀ {staged}, P staged → ∃ staged', resolve type staged = .ok staged') →
    (∀ type ∈ asked, ∀ {staged staged'}, P staged → resolve type staged = .ok staged' → P staged') →
    P staged → ∃ staged', resolveEach resolve asked staged = .ok staged'
  | [], staged, _, _, _ => ⟨staged, rfl⟩
  | type :: asked, _, hfinds, hkeeps, hstaged => by
    obtain ⟨hfind, hfinds⟩ := List.forall_mem_cons.mp hfinds
    obtain ⟨hkeep, hkeeps⟩ := List.forall_mem_cons.mp hkeeps
    obtain ⟨mid, hmid⟩ := hfind hstaged
    obtain ⟨last, hlast⟩ := resolveEach_ok_of_forall hfinds hkeeps (hkeep hstaged hmid)
    refine ⟨last, ?_⟩
    rw [resolveEach_cons, hmid]
    exact hlast

/-- **What the search of a depth comes to**, where known types hang together: it finds the types that
are sound beyond the pending ones, and adds settled entries. -/
structure Searches (registry : Registry) (vain : Factory → Bool) (types : List Ty) (fuel : Nat) :
    Prop where
  finds : ∀ {pending : List Ty} {type : Ty} {staged : Table},
    registry.Place types fuel pending type → registry.Regular vain type →
    registry.Hangs vain pending staged → (registry.without vain).SoundBeyond pending type →
    ∃ staged', registry.visit fuel pending type staged = .ok staged'
  adds : ∀ {pending : List Ty} {type : Ty}, registry.Place types fuel pending type →
    registry.Adding vain pending (registry.visit fuel pending) type

namespace Searches

/-- A vain factory is refused what it asks for: what is known once a question is answered is sound
beyond the pending types, and all of those may lead to where the question was asked. -/
theorem refuses (h : registry.Searches vain types fuel)
    (hplaces : ∀ next ∈ registry.mayAsk type, registry.Place types fuel (type :: pending) next)
    (hregular : registry.Regular vain type)
    (hleads : ∀ other ∈ pending, registry.MayReach other type)
    (hhangs : registry.Hangs vain (type :: pending) staged) :
    ∀ factory ∈ registry.factories, factory.serves type = true → vain factory = true →
      ∃ via answer, factory = .through type via answer ∧
        ∃ fault, registry.visit fuel (type :: pending) via staged = .error fault := by
  intro factory hfactory hserves hvain
  obtain ⟨via, answer, rfl, hhopeless⟩ := (hregular type .refl).2 factory hfactory hserves hvain
  refine ⟨via, answer, rfl, ?_⟩
  cases hvisit : registry.visit fuel (type :: pending) via staged with
  | error fault => exact ⟨fault, rfl⟩
  | ok staged' =>
    obtain ⟨⟨more, hmore⟩, hknown⟩ :=
      h.adds (hplaces via (mem_mayAsk_of_through hfactory)) hhangs hvisit
    have hbeyond := (hmore.hangs hhangs).soundBeyond hknown
      (hregular.asks (mem_asks_of_vain hfactory hvain))
    exact absurd hbeyond (hhopeless _ (List.forall_mem_cons.mpr ⟨.refl, hleads⟩))

/-- A step of the search resolves the types that the type leads to. -/
theorem step (h : registry.Searches vain types fuel) (hencloses : registry.Encloses types)
    (hplace : registry.Place types (fuel + 1) pending type)
    (hregular : registry.Regular vain type) (hhangs : registry.Hangs vain pending staged)
    (hunknown : ¬ Known registry pending staged type) :
    registry.visit (fuel + 1) pending type staged =
      (resolveEach (registry.visit fuel (type :: pending))
          ((registry.without vain).leadsTo type) staged >>=
        conclude ((registry.without vain).fault? type) ((registry.without vain).rule type) >>=
        fun found => .ok (found.2 ++ [(type, found.1)])) := by
  have hnew : type ∉ pending := fun h => hunknown (.inr (.inl h))
  have hplaces := fun next => @Place.next registry types pending fuel type next hplace hencloses hnew
  refine visit_of_decided hunknown
    (h.refuses hplaces hregular hplace.leads (hhangs.cons type)) ?_
  intro target via answer hserver
  have hleads : via ∈ (registry.without vain).leadsTo type := by
    rw [Registry.leadsTo, hserver]
    exact List.mem_singleton_self via
  refine h.finds (hplaces via (mem_mayAsk_of_leadsTo hleads)) (hregular.leadsTo hleads)
    (hhangs.cons type) ?_
  refine ((hregular type .refl).1 target via answer hserver).mono ?_
  exact List.cons_subset_cons type (List.nil_subset pending)

/-- **What a successful step has done**: nothing, for a type known before, or else it has resolved
the types that a rule took, and staged the type with that rule. -/
theorem visit_ok (h : registry.Searches vain types fuel) (hencloses : registry.Encloses types)
    (hplace : registry.Place types (fuel + 1) pending type)
    (hhangs : registry.Hangs vain pending staged)
    (hvisit : registry.visit (fuel + 1) pending type staged = .ok staged') :
    (Known registry pending staged type ∧ staged' = staged) ∨
      ¬ Known registry pending staged type ∧ ∃ asked rule mid,
        Derivation registry.catalog registry.factories type asked rule ∧
        registry.Fits vain type asked ∧
        resolveEach (registry.visit fuel (type :: pending)) asked staged = .ok mid ∧
        staged' = mid ++ [(type, rule)] := by
  by_cases hknown : Known registry pending staged type
  · rw [visit_of_known (Nat.succ_pos fuel) hknown] at hvisit
    cases hvisit
    exact .inl ⟨hknown, rfl⟩
  refine .inr ⟨hknown, ?_⟩
  by_cases hregular : registry.Regular vain type
  · rw [h.step hencloses hplace hregular hhangs hknown] at hvisit
    obtain ⟨⟨rule, mid⟩, hrule, hvisit⟩ := except_bind_ok.mp hvisit
    obtain ⟨_, hmid, hrule⟩ := except_bind_ok.mp hrule
    obtain ⟨hfault, hrule⟩ := conclude_ok.mp hrule
    cases hrule
    cases hvisit
    have hderived := (derivation_of_faultless hfault).mono (List.filter_subset_self _)
    exact ⟨_, _, _, hderived, fun _ => ⟨rfl, hfault⟩, hmid, rfl⟩
  · rw [visit_of_unknown hknown] at hvisit
    obtain ⟨⟨rule, mid⟩, hrule, hvisit⟩ := except_bind_ok.mp hvisit
    cases hvisit
    obtain ⟨asked, hderived, hmid⟩ := ruleOf_ok (List.Subset.refl _) hrule
    exact ⟨asked, rule, mid, hderived, fun h => absurd h hregular, hmid, rfl⟩

/-- A search keeps what hangs together. -/
theorem keeps {next : Ty} (h : registry.Searches vain types fuel)
    (hplace : registry.Place types fuel pending next) (hhangs : registry.Hangs vain pending staged)
    (hvisit : registry.visit fuel pending next staged = .ok staged') :
    registry.Hangs vain pending staged' := by
  obtain ⟨⟨more, hmore⟩, -⟩ := h.adds hplace hhangs hvisit
  exact hmore.hangs hhangs

end Searches

/-- **Every search comes to that.**  The induction is on its depth; a type is pending while the types
that it asks for are searched, and staged after. -/
theorem searches (vain : Factory → Bool) (hencloses : registry.Encloses types) :
    ∀ fuel : Nat, registry.Searches vain types fuel
  | 0 =>
    ⟨fun hplace => absurd hplace.ample.pos (Nat.lt_irrefl 0),
      fun hplace => absurd hplace.ample.pos (Nat.lt_irrefl 0)⟩
  | fuel + 1 => by
    have hbelow := searches vain hencloses fuel
    constructor
    · intro pending type staged hplace hregular hhangs hbeyond
      by_cases hknown : Known registry pending staged type
      · exact ⟨staged, visit_of_known (Nat.succ_pos fuel) hknown⟩
      have hnew : type ∉ pending := fun h => hknown (.inr (.inl h))
      obtain ⟨sound, htype, hsound⟩ := hbeyond
      obtain ⟨hfault, hnext⟩ := (hsound type htype).resolve_left hnew
      have hplaces : ∀ next ∈ (registry.without vain).leadsTo type,
          registry.Place types fuel (type :: pending) next :=
        fun next hmem => hplace.next hencloses hnew (mem_mayAsk_of_leadsTo hmem)
      have hleads : ∃ staged', resolveEach (registry.visit fuel (type :: pending))
          ((registry.without vain).leadsTo type) staged = .ok staged' := by
        refine resolveEach_ok_of_forall (P := registry.Hangs vain (type :: pending)) ?_ ?_
          (hhangs.cons type)
        · intro next hmem staged hstaged
          refine hbelow.finds (hplaces next hmem) (hregular.leadsTo hmem) hstaged ?_
          have hnextBeyond : (registry.without vain).SoundBeyond pending next :=
            ⟨sound, hnext next hmem, hsound⟩
          exact hnextBeyond.mono (List.subset_cons_self type pending)
        · exact fun next hmem _ _ hstaged h => hbelow.keeps (hplaces next hmem) hstaged h
      obtain ⟨mid, hmid⟩ := hleads
      rw [hbelow.step hencloses hplace hregular hhangs hknown, hmid, hfault]
      exact ⟨_, rfl⟩
    · intro pending type hplace staged staged' hhangs h
      rcases hbelow.visit_ok hencloses hplace hhangs h with ⟨hknown, rfl⟩ |
        ⟨hunknown, asked, rule, mid, hderived, hfits, hmid, rfl⟩
      · exact ⟨⟨[], Adds.refl registry vain pending _⟩, hknown⟩
      · have hnew : type ∉ pending := fun h => hunknown (.inr (.inl h))
        obtain ⟨⟨more, hmore⟩, hasked⟩ := resolveEach_adds (fun next hnext =>
          hbelow.adds (hplace.next hencloses hnew (hderived.subset_mayAsk hnext)))
          (hhangs.cons type) hmid
        refine ⟨⟨_, hmore.finish hunknown hderived hfits hasked⟩, ?_⟩
        exact known_append.mpr (.inr List.mem_cons_self)

/-- **What the search stages was reached** from the type that was asked for, if the guess is right
for all that is met. -/
theorem visit_reaches (hencloses : registry.Encloses types) : ∀ (fuel : Nat) {pending : List Ty}
    {type : Ty} {staged staged' : Table}, registry.Place types fuel pending type →
    registry.Regular vain type → registry.Hangs vain pending staged →
    registry.visit fuel pending type staged = .ok staged' →
    ∀ entry ∈ staged', entry ∈ staged ∨ (registry.without vain).Reaches type entry.1
  | 0, _, _, _, _, hplace, _, _, _ => absurd hplace.ample.pos (Nat.lt_irrefl 0)
  | fuel + 1, pending, type, staged, staged', hplace, hregular, hhangs, h => by
    have hbelow := searches vain hencloses fuel
    rcases hbelow.visit_ok hencloses hplace hhangs h with ⟨-, rfl⟩ |
      ⟨hunknown, asked, rule, mid, hderived, hfits, hmid, rfl⟩
    · exact fun entry hentry => .inl hentry
    have hnew : type ∉ pending := fun h => hunknown (.inr (.inl h))
    obtain ⟨rfl, -⟩ := hfits hregular
    have hplaces : ∀ next ∈ (registry.without vain).leadsTo type,
        registry.Place types fuel (type :: pending) next :=
      fun next hmem => hplace.next hencloses hnew (mem_mayAsk_of_leadsTo hmem)
    have hstaged : registry.Hangs vain (type :: pending) staged →
        registry.Hangs vain (type :: pending) mid ∧ ∀ entry ∈ mid,
          entry ∈ staged ∨ (registry.without vain).Reaches type entry.1 := by
      refine resolveEach_related (R := fun staged staged' =>
        registry.Hangs vain (type :: pending) staged →
          registry.Hangs vain (type :: pending) staged' ∧ ∀ entry ∈ staged',
            entry ∈ staged ∨ (registry.without vain).Reaches type entry.1)
        (fun _ h => ⟨h, fun _ => .inl⟩) ?_ ?_ hmid
      · intro first second third hfirst hsecond hhangs
        obtain ⟨hmid, hfirst⟩ := hfirst hhangs
        obtain ⟨hlast, hsecond⟩ := hsecond hmid
        exact ⟨hlast, fun entry hentry => (hsecond entry hentry).elim (hfirst entry) .inr⟩
      · intro next hnext before after h hhangs
        refine ⟨hbelow.keeps (hplaces next hnext) hhangs h, fun entry hentry => ?_⟩
        refine (visit_reaches hencloses fuel (hplaces next hnext) (hregular.leadsTo hnext) hhangs h
          entry hentry).imp_right ?_
        exact fun hother => .head hnext hother
    intro entry hentry
    rcases List.mem_append.mp hentry with hentry | hentry
    · exact (hstaged (hhangs.cons type)).2 entry hentry
    · rw [List.mem_singleton.mp hentry]
      exact .inr .refl

end RemoteCall.Registry
