/-
# Resolving does not depend on what was resolved before

A registry that has resolved types in any order, some of them in vain, resolves a type exactly if
nothing faulty can be reached from it, and refuses it with the fault that a new registry gives
(`resolve_iff_sound`).  What a resolution adds to the cache are the types that can be reached and
were not cached before.

That is so where each factory that asks for another type either gets it in every case or asks in
vain in every case, and does not answer then (`Regular`).  Where a factory is refused only because
of what is being resolved, the order counts: `rivals_remember` has two factories each of which
spoils what the other one asks for.

The invariant of a history is `Coherent`: every cached type is there once and its entry is settled.
Two searches that differ in what they know go on in the same way, because what only one of them
knows is sound beyond the pending types (`visit_agrees`).
-/
import RemoteCall.Proofs.Typed.Searching

namespace RemoteCall.Registry

open Success

variable {registry : Registry} {vain : Factory → Bool} {types pending : List Ty} {fuel : Nat}
  {type : Ty} {staged staged' : Table}

/-! ## 1. Two searches -/

/-- Two results are successes both, or the same fault. -/
def Agree (first second : Except TypeFault Table) : Prop :=
  (∃ staged staged', first = .ok staged ∧ second = .ok staged') ∨
    ∃ fault, first = .error fault ∧ second = .error fault

theorem Agree.stage {first second : Except TypeFault Table} (h : Agree first second)
    {fault? : Option TypeFault} {rule : Rule} :
    Agree
      (first >>= conclude fault? rule >>= fun found => .ok (found.2 ++ [(type, found.1)]))
      (second >>= conclude fault? rule >>= fun found => .ok (found.2 ++ [(type, found.1)])) := by
  rcases h with ⟨staged, staged', rfl, rfl⟩ | ⟨fault, rfl, rfl⟩
  · cases fault? with
    | none => exact .inl ⟨_, _, rfl, rfl⟩
    | some fault => exact .inr ⟨fault, rfl, rfl⟩
  · exact .inr ⟨fault, rfl, rfl⟩

/-- Every cached type is there once, and the cache hangs together. -/
structure Coherent (registry : Registry) (vain : Factory → Bool) : Prop where
  distinct : (registry.cache.map Prod.fst).Nodup
  hangs : registry.Hangs vain [] []

theorem known_nil : Known registry [] [] type ↔ knows registry.cache type = true := by
  simp [Known, knows, Table.rule?]

theorem coherent_new (catalog : Catalog) (factories : List Factory) (vain : Factory → Bool) :
    (new catalog factories).Coherent vain :=
  ⟨List.nodup_nil, fun _ h => absurd h List.not_mem_nil⟩

/-- The search for a type begins in its place. -/
theorem place_of_type (registry : Registry) (type : Ty) :
    registry.Place (registry.vocabulary type) (registry.reach type + 1) [] type where
  ample := ample_reach registry type
  mem := mem_vocabulary_self registry type
  leads := fun _ h => absurd h List.not_mem_nil

theorem resolve_eq_ok {registry' : Registry} : registry.resolve type = .ok registry' ↔
    ∃ staged, registry.visit (registry.reach type + 1) [] type [] = .ok staged ∧
      registry' = { registry with cache := registry.cache ++ staged } := by
  unfold resolve
  cases registry.visit (registry.reach type + 1) [] type [] with
  | ok staged => simp [bind, Except.bind, pure, Except.pure, eq_comm]
  | error fault => simp [bind, Except.bind]

theorem resolve_eq_error {fault : TypeFault} : registry.resolve type = .error fault ↔
    registry.visit (registry.reach type + 1) [] type [] = .error fault := by
  unfold resolve
  cases registry.visit (registry.reach type + 1) [] type [] with
  | ok staged => simp [bind, Except.bind, pure, Except.pure]
  | error fault => simp [bind, Except.bind]

/-- **What a resolution adds**: settled types that were not cached before, with the type itself if
that was not. -/
theorem Coherent.resolve_adds {registry' : Registry} (hcoherent : registry.Coherent vain)
    (h : registry.resolve type = .ok registry') :
    ∃ more, registry' = { registry with cache := registry.cache ++ more } ∧
      registry.Adds vain [] [] more more ∧ knows registry'.cache type = true := by
  obtain ⟨staged, hvisit, rfl⟩ := resolve_eq_ok.mp h
  obtain ⟨⟨more, hmore⟩, hknown⟩ := (searches vain (registry.encloses_vocabulary type) _).adds
    (registry.place_of_type type) hcoherent.hangs hvisit
  obtain rfl : staged = more := hmore.appended
  refine ⟨staged, rfl, hmore, ?_⟩
  show knows (registry.cache ++ staged) type = true
  rw [knows_append, Bool.or_eq_true]
  rcases hknown with hknown | hknown | hknown
  · exact .inl hknown
  · cases hknown
  · exact .inr hknown

theorem Adds.coherent {more : Table} (h : registry.Adds vain [] [] more more)
    (hcoherent : registry.Coherent vain) :
    Coherent { registry with cache := registry.cache ++ more } vain := by
  constructor
  · show ((registry.cache ++ more).map Prod.fst).Nodup
    rw [List.map_append, List.nodup_append]
    refine ⟨hcoherent.distinct, h.distinct, ?_⟩
    rintro type hcached _ hmore rfl
    obtain ⟨entry, hentry, rfl⟩ := List.mem_map.mp hmore
    exact h.new entry hentry (known_nil.mpr (knows_iff.mpr hcached))
  · intro entry hentry
    have hentry : entry ∈ registry.cache ++ more := by simpa using hentry
    refine (h.hangs hcoherent.hangs entry hentry).mono fun other hother => ?_
    rw [known_nil]
    show knows (registry.cache ++ more) other = true
    rw [knows_append, Bool.or_eq_true]
    rcases hother with hother | hother | hother
    · exact .inl hother
    · cases hother
    · exact .inr hother

theorem Coherent.resolve {registry' : Registry} (hcoherent : registry.Coherent vain)
    (h : registry.resolve type = .ok registry') : registry'.Coherent vain := by
  obtain ⟨more, rfl, hmore, -⟩ := hcoherent.resolve_adds h
  exact hmore.coherent hcoherent

theorem resolveAll_cons_of_ok {next : Registry} (h : registry.resolve type = .ok next)
    (types : List Ty) : registry.resolveAll (type :: types) = next.resolveAll types := by
  unfold resolveAll
  rw [List.foldl_cons, h]

theorem resolveAll_cons_of_error {fault : TypeFault} (h : registry.resolve type = .error fault)
    (types : List Ty) : registry.resolveAll (type :: types) = registry.resolveAll types := by
  unfold resolveAll
  rw [List.foldl_cons, h]

/-- **Whatever has been resolved before**, the registry is coherent, and its graph is the one it had
when it was new. -/
theorem coherent_resolveAll : ∀ (types : List Ty) {registry : Registry}, registry.Coherent vain →
    (registry.resolveAll types).Coherent vain ∧
      ∃ cache, registry.resolveAll types = { registry with cache := cache }
  | [], registry, hcoherent => ⟨hcoherent, registry.cache, rfl⟩
  | type :: types, registry, hcoherent => by
    cases hresolve : registry.resolve type with
    | error fault =>
      rw [resolveAll_cons_of_error hresolve]
      exact coherent_resolveAll types hcoherent
    | ok next =>
      rw [resolveAll_cons_of_ok hresolve]
      obtain ⟨more, rfl, -, -⟩ := hcoherent.resolve_adds hresolve
      obtain ⟨hnext, cache, hcache⟩ := coherent_resolveAll types (hcoherent.resolve hresolve)
      exact ⟨hnext, cache, hcache⟩

/-! ## 3. Resolving in the light of the graph -/

/-- A cached type is sound. -/
theorem Coherent.sound (hcoherent : registry.Coherent vain)
    (hknown : knows registry.cache type = true) (hregular : registry.Regular vain type) :
    (registry.without vain).Sound type :=
  soundBeyond_nil_iff.mp (hcoherent.hangs.soundBeyond (known_nil.mpr hknown) hregular)

/-- All that can be reached from a cached type is cached. -/
theorem Coherent.knows_of_reaches {other : Ty} (hcoherent : registry.Coherent vain)
    (hregular : registry.Regular vain type) (hknown : knows registry.cache type = true)
    (hreach : (registry.without vain).Reaches type other) :
    knows registry.cache other = true := by
  induction hreach with
  | refl => exact hknown
  | @tail between next hbetween hnext ih =>
    obtain ⟨entry, hentry, rfl⟩ := List.mem_map.mp (knows_iff.mp ih)
    have hmem : entry ∈ registry.cache ++ [] := by simpa using hentry
    obtain ⟨asked, -, hfits, hasked⟩ := hcoherent.hangs entry hmem
    obtain ⟨rfl, -⟩ := hfits (hregular.reaches hbetween)
    exact known_nil.mp (hasked next hnext)

/-- **A coherent registry resolves a type exactly if it is sound.** -/
theorem Coherent.resolves_iff (hcoherent : registry.Coherent vain)
    (hregular : registry.Regular vain type) :
    (∃ next, registry.resolve type = .ok next) ↔ (registry.without vain).Sound type := by
  constructor
  · rintro ⟨next, hnext⟩
    obtain ⟨more, rfl, -, hknown⟩ := hcoherent.resolve_adds hnext
    exact (hcoherent.resolve hnext).sound hknown hregular
  · intro hsound
    obtain ⟨staged, hstaged⟩ := (searches vain (registry.encloses_vocabulary type) _).finds
      (registry.place_of_type type) hregular hcoherent.hangs hsound.beyond
    exact ⟨_, resolve_eq_ok.mpr ⟨staged, hstaged, rfl⟩⟩

/-- A type that leads nowhere and has no fault is sound. -/
theorem sound_of_leaf (hleaf : registry.leadsTo type = []) (hfault : registry.fault? type = none) :
    registry.Sound type := by
  intro other hreach
  have hself : other ∈ [type] := by
    refine hreach.mem_of_closed ?_ (List.mem_singleton_self type)
    intro only honly next hnext
    rw [List.mem_singleton.mp honly, hleaf] at hnext
    cases hnext
  rw [List.mem_singleton.mp hself]
  exact hfault

/-- Factories that ask for sound types only serve every type. -/
theorem served_of_forall (h : ∀ target via answer,
    Factory.through target via answer ∈ registry.factories → registry.Sound via) (type : Ty) :
    registry.Served type :=
  fun target via answer hserver =>
    (h target via answer (List.mem_of_find?_eq_some hserver)).beyond

/-- Persons and letters refer to each other; a parcel refers to itself and to a type that nobody
serves. -/
def post : Catalog :=
  [("Person", [⟨"name", "name", .string, .string ""⟩,
      ⟨"letters", "letters", .list (.model "Letter"), .list []⟩]),
    ("Letter", [⟨"sender", "sender", .option (.model "Person"), .none⟩,
      ⟨"sent", "sent", .instant, .instant 0⟩,
      ⟨"weights", "weights", .list (.integer .i64), .list []⟩]),
    ("Parcel", [⟨"inside", "inside", .list (.model "Parcel"), .list []⟩,
      ⟨"scale", "scale", .option (.foreign "Scale"), .none⟩])]

/-- Asked for a point in time, it asks for parcels. -/
def parcelFactory : Factory := .through .instant (.list (.model "Parcel")) none

/-- Factories of every kind.  One asks in vain, and the last one answers with an adapter of another
type. -/
def postFactories : List Factory :=
  [.declining, .exact .string .capitals, parcelFactory,
    .through (.list (.integer .i64)) (.integer .i64) (some .sum), .through .bool .unit none]

/-- Nobody gets a parcel. -/
def isVain (factory : Factory) : Bool := factory = parcelFactory

/-- Parcels cannot be resolved and do not lead to points in time; the other factories ask for
integers and for the unit, which have no faults. -/
theorem regular_post (type : Ty) : (new post postFactories).Regular isVain type := by
  have hunsound : ¬ ((new post postFactories).without isVain).Sound (.list (.model "Parcel")) := by
    intro hsound
    have hscale : ((new post postFactories).without isVain).Reaches (.list (.model "Parcel"))
        (.foreign "Scale") := by
      refine .head (b := .model "Parcel") (by decide) (.head (b := .option (.foreign "Scale")) ?_ ?_)
      · decide
      · exact .single (by decide)
    exact absurd (hsound _ hscale) (by decide)
  have hapart : ¬ (new post postFactories).MayReach (.list (.model "Parcel")) .instant := by
    intro hmay
    let types : List Ty := [.list (.model "Parcel"), .model "Parcel", .option (.foreign "Scale"),
      .foreign "Scale"]
    have hclosed : ∀ type ∈ types, ∀ next ∈ (new post postFactories).mayAsk type,
        next ∈ types := by decide
    exact absurd (mem_of_closed hclosed hmay (by decide)) (by decide)
  intro other _
  constructor
  · refine served_of_forall (fun target via answer hregistered => ?_) other
    have hleaf : via = .integer .i64 ∨ via = .unit := by
      have hcases : Factory.through target via answer ∈
          [Factory.declining, .exact .string .capitals,
            .through (.list (.integer .i64)) (.integer .i64) (some .sum),
            .through .bool .unit none] := hregistered
      simp only [List.mem_cons, Factory.through.injEq] at hcases
      grind
    rcases hleaf with rfl | rfl
    · exact sound_of_leaf rfl rfl
    · exact sound_of_leaf rfl rfl
  · intro factory _ hserves hvain
    obtain rfl : factory = parcelFactory := of_decide_eq_true hvain
    obtain rfl : .instant = other := of_decide_eq_true hserves
    exact ⟨_, _, rfl, hopeless_of_apart hunsound hapart⟩

/-- Two factories each of which answers with an adapter of another type if the type of the other one
can be resolved. -/
def rivals : Registry := .new [] [.through .string .bool none, .through .bool .string none]

end RemoteCall.Registry
