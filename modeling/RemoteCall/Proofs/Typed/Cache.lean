/-
# What the cache holds

A workshop is asked for adapters one after the other.  `adapter_cache` says what that does to its
cache.  A request that is refused changes nothing.  One that is granted adds the types whose adapters
the new adapter is made of and that were not there before, and changes no entry.  At every time all
that can be got at from a cached adapter, through adapters and placeholders, is `Settled`: it stands
for a finished adapter that never fails for want of construction, and does what that one does, then
and ever after.

Which types an adapter is made of is a matter of the graph as long as no factory makes its answer
depend on what has been resolved before.  The `Registry.rivals` do, and `rivals_keep_apart` shows
what becomes of their cache.
-/
import RemoteCall.Proofs.Typed.Delegating

namespace RemoteCall

open Success

/-! ## 1. The registry -/

namespace Registry

variable {registry : Registry} {vain : Factory → Bool} {type : Ty}

theorem adapter?_eq_ok {adapter : Adapter} {next : Registry} :
    registry.adapter? type = .ok (adapter, next) ↔
      registry.resolve type = .ok next ∧ adapter = next.adapter type := by
  unfold adapter?
  rw [except_bind_ok]
  constructor
  · rintro ⟨found, hfound, h⟩
    cases h
    exact ⟨hfound, rfl⟩
  · rintro ⟨hnext, rfl⟩
    exact ⟨next, hnext, rfl⟩

/-- **What has been cached stays as it is.** -/
theorem extends_resolveAll : ∀ (later : List Ty) (registry : Registry),
    registry.cache.Extends (registry.resolveAll later).cache
  | [], _ => fun _ _ h => h
  | type :: later, registry => by
    intro other rule hrule
    cases hresolve : registry.resolve type with
    | error fault =>
      rw [resolveAll_cons_of_error hresolve]
      exact extends_resolveAll later registry other rule hrule
    | ok next =>
      obtain ⟨more, -, rfl⟩ := resolve_eq_ok.mp hresolve
      rw [resolveAll_cons_of_ok hresolve]
      refine extends_resolveAll later _ other rule ?_
      exact registry.cache.extends_append more other rule hrule

/-- **A resolution adds exactly what can be reached** and was not cached. -/
theorem Coherent.mem_added_iff {more : Table} {other : Ty} (hcoherent : registry.Coherent vain)
    (hregular : registry.Regular vain type)
    (h : registry.resolve type = .ok { registry with cache := registry.cache ++ more }) :
    other ∈ more.map Prod.fst ↔
      (registry.without vain).Reaches type other ∧ other ∉ registry.cache.map Prod.fst := by
  obtain ⟨added, hnext, hadds, hknown⟩ := hcoherent.resolve_adds h
  obtain rfl : more = added := List.append_cancel_left (congrArg Registry.cache hnext)
  constructor
  · intro hother
    obtain ⟨entry, hentry, rfl⟩ := List.mem_map.mp hother
    refine ⟨?_, fun hcached => hadds.new entry hentry (known_nil.mpr (knows_iff.mpr hcached))⟩
    obtain ⟨staged, hvisit, hstaged⟩ := resolve_eq_ok.mp h
    obtain rfl : more = staged := List.append_cancel_left (congrArg Registry.cache hstaged)
    have hreached := visit_reaches (registry.encloses_vocabulary type) _
      (registry.place_of_type type) hregular hcoherent.hangs hvisit entry hentry
    exact hreached.resolve_left List.not_mem_nil
  · rintro ⟨hreach, hnew⟩
    have hcached := (hcoherent.resolve h).knows_of_reaches hregular hknown hreach
    rw [knows_iff, List.map_append, List.mem_append] at hcached
    exact hcached.resolve_left hnew

end Registry

namespace Workshop

open Registry (post postFactories isVain regular_post rivals)

variable {workshop next : Workshop} {type : Ty} {handle : Handle} {piece : Piece}

/-! ## 2. What is settled -/

theorem keys_rules (pieces : List (Ty × Piece)) :
    (rules pieces).map Prod.fst = pieces.map Prod.fst :=
  List.map_map

theorem knows_of_refers (h : workshop.Refers type handle) :
    Registry.knows workshop.registry.cache type = true := by
  obtain ⟨piece, hcached, -⟩ := h
  exact knows_rules.mpr ⟨piece, hcached⟩

theorem knows_of_references {held : List Handle} {types : List Ty}
    (h : workshop.References held types) :
    ∀ type ∈ types, Registry.knows workshop.registry.cache type = true := by
  induction h with
  | nil => exact fun _ h => absurd h List.not_mem_nil
  | cons hfirst _ ih => exact List.forall_mem_cons.mpr ⟨knows_of_refers hfirst, ih⟩

/-- What a cached rule calls on is cached, for the adapter of the rule holds it. -/
theorem Whole.linked (hwhole : workshop.Whole) : workshop.registry.cache.Linked := by
  intro type rule hrule
  obtain ⟨piece, hcached⟩ := knows_rules.mp (Option.isSome_of_eq_some hrule)
  have hrefers : workshop.Refers type (.direct piece) := ⟨piece, hcached, rfl⟩
  obtain ⟨found, -, hsame, hformed⟩ := hwhole.formed hrefers
  obtain rfl : rule = found.rule := Option.some.inj (hrule.symm.trans hsame)
  cases hformed with
  | custom => exact fun _ h => absurd h List.not_mem_nil
  | structural hheld => exact knows_of_references hheld
  | members hheld => exact knows_of_references hheld

theorem Grows.extends (hgrows : workshop.Grows next) :
    workshop.registry.cache.Extends next.registry.cache := by
  obtain ⟨pieces, cells, rfl⟩ := hgrows
  show (rules workshop.cache).Extends (rules (workshop.cache ++ pieces))
  rw [rules_append]
  exact Table.extends_append _ _

theorem Whole.more_cells (hwhole : workshop.Whole) (cells : List Cell) :
    Whole { workshop with cells := workshop.cells ++ cells } := by
  have hgrows : Build.Grows ⟨workshop.cells, []⟩ ⟨workshop.cells ++ cells, []⟩ :=
    ⟨⟨cells, rfl⟩, [], rfl⟩
  have h := Sound.undo hwhole hgrows
  exact ⟨h.fitted, h.empty, h.lacking⟩

/-- Whatever is built later, a handle does what it did. -/
theorem Whole.conduct_later (hwhole : workshop.Whole) (h : workshop.Refers type handle)
    (hgrows : workshop.Grows next) :
    handle.conduct next.cells type = (workshop.registry.adapter type).conduct := by
  obtain ⟨pieces, cells, rfl⟩ := hgrows
  refine (hwhole.more_cells cells).conduct (h.grow ⟨[], cells, ?_⟩)
  rw [List.append_nil]

/-- A handle is settled on a type: it stands for the cached adapter of the type.  Nothing that this
does fails because a type is still being resolved, and whatever is built later, the handle does what
the adapter does now, and so does the adapter that the type has then. -/
def Settled (workshop : Workshop) (type : Ty) (handle : Handle) : Prop :=
  ∃ piece, workshop.Holds type handle piece ∧
    ((Handle.direct piece).conduct workshop.cells type).Complete ∧
    ∀ later, workshop.Grows later →
      handle.conduct later.cells type = (Handle.direct piece).conduct workshop.cells type ∧
      (later.registry.adapter type).conduct = (Handle.direct piece).conduct workshop.cells type

/-- All that can be got at from cached adapters is settled. -/
def Finished (workshop : Workshop) : Prop :=
  ∀ type piece, workshop.cache.lookup type = some piece →
    ∀ handle, workshop.Within (.direct piece) handle → ∃ next, workshop.Settled next handle

theorem Whole.settled (hwhole : workshop.Whole) (h : workshop.Refers type handle) :
    workshop.Settled type handle := by
  obtain ⟨piece, hcached, hpiece⟩ := h
  have hconduct : (Handle.direct piece).conduct workshop.cells type =
      (workshop.registry.adapter type).conduct := hwhole.conduct ⟨piece, hcached, rfl⟩
  have hknown := knows_of_refers ⟨piece, hcached, hpiece⟩
  refine ⟨piece, ⟨hcached, hpiece⟩, ?_, fun later hgrows => ⟨?_, ?_⟩⟩
  · rw [hconduct]
    exact (hwhole.linked.complete hknown).conduct
  · rw [hconduct]
    exact hwhole.conduct_later ⟨piece, hcached, hpiece⟩ hgrows
  · rw [hconduct]
    exact (hwhole.linked.alike hgrows.extends hknown).conduct.symm

theorem Whole.finished (hwhole : workshop.Whole) : workshop.Finished := by
  intro type piece hcached handle hwithin
  obtain ⟨next, hnext⟩ := hwhole.refers ⟨piece, hcached, rfl⟩ hwithin
  exact ⟨next, hwhole.settled hnext⟩

/-! ## 3. The cache grows -/

theorem Grows.lookup {other : Ty} (hgrows : workshop.Grows next)
    (h : workshop.cache.lookup other = some piece) : next.cache.lookup other = some piece := by
  obtain ⟨pieces, cells, rfl⟩ := hgrows
  rw [List.lookup_append, h]
  rfl

theorem Grows.registry_eq {added : List (Ty × Piece)} (hgrows : workshop.Grows next)
    (hadded : next.cache = workshop.cache ++ added) :
    next.registry =
      { workshop.registry with cache := workshop.registry.cache ++ rules added } := by
  obtain ⟨pieces, cells, rfl⟩ := hgrows
  obtain rfl : pieces = added := List.append_cancel_left hadded
  show Registry.mk _ _ (rules (workshop.cache ++ pieces)) = _
  rw [rules_append]
  rfl

/-- What an adapter contains can be got at from it. -/
theorem within_of_contains {part : Piece} (h : piece.Contains part) :
    workshop.Within (.direct piece) (.direct part) := by
  induction h with
  | refl => exact .refl
  | tail _ hpart ih => exact ih.tail ⟨_, rfl, hpart⟩

theorem lookup_of_mem {pieces : List (Ty × Piece)} (hdistinct : (pieces.map Prod.fst).Nodup)
    (hmem : (type, piece) ∈ pieces) : pieces.lookup type = some piece := by
  obtain ⟨before, after, rfl⟩ := List.append_of_mem hmem
  refine List.lookup_eq_some_iff.mpr ⟨before, after, rfl, fun entry hentry => ?_⟩
  rw [List.map_append, List.nodup_append] at hdistinct
  have hne := hdistinct.2.2 entry.1 (List.mem_map_of_mem hentry) type (by simp)
  simpa using hne.symm

/-- What has been added is what the new adapter is made of and was not there before. -/
theorem mem_added_iff {added : List (Ty × Piece)} {other : Ty}
    (hadded : next.cache = workshop.cache ++ added)
    (hdistinct : (next.cache.map Prod.fst).Nodup)
    (hcontained : ∀ entry ∈ added, ∃ piece, handle = .direct piece ∧ piece.Contains entry.2) :
    other ∈ added.map Prod.fst ↔
      (∃ reached, next.Within handle reached ∧ next.Refers other reached) ∧
        other ∉ workshop.cache.map Prod.fst := by
  constructor
  · intro hother
    obtain ⟨⟨_, part⟩, hentry, rfl⟩ := List.mem_map.mp hother
    obtain ⟨piece, rfl, hcontains⟩ := hcontained _ hentry
    refine ⟨⟨.direct part, within_of_contains hcontains, part, ?_, rfl⟩, ?_⟩
    · refine lookup_of_mem hdistinct ?_
      rw [hadded]
      exact List.mem_append_right _ hentry
    · rw [hadded, List.map_append, List.nodup_append] at hdistinct
      exact fun hcached => hdistinct.2.2 _ hcached _ hother rfl
  · rintro ⟨⟨reached, -, hreached⟩, hnew⟩
    have hcached := Registry.knows_iff.mp (knows_of_refers hreached)
    rw [registry, keys_rules, hadded, List.map_append, List.mem_append] at hcached
    exact hcached.resolve_left hnew

/-- **The cache of a workshop** holds finished adapters only, each of them as it was made.  A request
that is refused leaves it as it was.  One that is granted adds the types of the adapters that can be
got at from the new one and were not cached before; by the graph, these are the types that can be
reached. -/
theorem adapter_cache (catalog : Catalog) (factories : List Factory) (earlier : List Ty)
    (type : Ty) :
    let before := (new catalog factories).resolveAll earlier
    let after := (new catalog factories).resolveAll (earlier ++ [type])
    (∀ fault left, adapter type before = .error fault left →
        left = after ∧ after.cache = before.cache) ∧
      (∀ handle next, adapter type before = .ok handle next →
        next = after ∧ after.Settled type handle ∧
          ∃ added, after.cache = before.cache ++ added ∧
            (after.cache.map Prod.fst).Nodup ∧
            after.cache.length = before.cache.length + added.length ∧
            (∀ other, other ∈ added.map Prod.fst ↔
              (∃ reached, after.Within handle reached ∧ after.Refers other reached) ∧
                other ∉ before.cache.map Prod.fst) ∧
            ∀ vain, (Registry.new catalog factories).Regular vain type →
              ∀ other, other ∈ added.map Prod.fst ↔
                ((Registry.new catalog factories).without vain).Reaches type other ∧
                  other ∉ before.cache.map Prod.fst) ∧
      (∀ other piece, before.cache.lookup other = some piece →
        after.cache.lookup other = some piece) ∧
      before.Finished ∧ after.Finished := by
  intro before after
  obtain ⟨hbefore, -, hregistry⟩ := whole_resolveAll earlier (whole_new catalog factories)
  have hconcat : after = before.resolveAll [type] := resolveAll_append _ earlier [type]
  obtain ⟨hafter, hgrows, -⟩ := whole_resolveAll [type] hbefore
  rw [← show after = _ from hconcat] at hafter hgrows
  have hcoherent : ∀ vain, before.registry.Coherent vain ∧
      ∃ cache, before.registry = { Registry.new catalog factories with cache := cache } := by
    intro vain
    rw [show before.registry = _ from hregistry]
    exact Registry.coherent_resolveAll earlier (Registry.coherent_new catalog factories vain)
  refine ⟨?_, ?_, fun other piece => hgrows.lookup, hbefore.finished, hafter.finished⟩
  · intro fault left hrefused
    rcases adapter_mirrors hbefore type with ⟨_, _, hgranted, -⟩ |
      ⟨_, next, hadapter, -, -, hcache, -⟩
    · cases hrefused.symm.trans hgranted
    · cases hrefused.symm.trans hadapter
      have hleft : after = left := hconcat.trans (resolveAll_cons_of_error hrefused [])
      exact ⟨hleft.symm, by rw [hleft, hcache]⟩
  · intro handle next hgranted
    rcases adapter_mirrors hbefore type with
      ⟨_, _, hadapter, hresolve, -, -, hstands, added, hadded, hcontained⟩ | ⟨_, _, hrefused, -⟩
    swap
    · cases hgranted.symm.trans hrefused
    cases hgranted.symm.trans hadapter
    obtain rfl : after = next := hconcat.trans (resolveAll_cons_of_ok hgranted [])
    have hdistinct : (after.cache.map Prod.fst).Nodup := by
      rw [← keys_rules]
      exact ((hcoherent fun _ => false).1.resolve hresolve).distinct
    refine ⟨rfl, hafter.settled (refers_of_stands hstands), added, hadded, hdistinct, ?_, ?_, ?_⟩
    · rw [hadded, List.length_append]
    · exact fun other => mem_added_iff hadded hdistinct hcontained
    · intro vain hregular other
      obtain ⟨hcoherent, cache, hcache⟩ := hcoherent vain
      have hsame : before.registry.Regular vain type := by
        rw [hcache]
        exact hregular
      have hreaches : (before.registry.without vain).Reaches =
          ((Registry.new catalog factories).without vain).Reaches := by
        rw [hcache]
        rfl
      rw [hgrows.registry_eq hadded] at hresolve
      rw [← hreaches, ← keys_rules, ← keys_rules]
      exact hcoherent.mem_added_iff hsame hresolve

/-- After a parcel has been refused and strings have been resolved, a person adds all that can be
reached from it but strings.  The person and the letters refer to each other, by a placeholder. -/
theorem adapter_cache_post :
    let before := (new post postFactories).resolveAll [.model "Parcel", .list .string]
    ∃ handle next added, adapter (.model "Person") before = .ok handle next ∧
      next.cache = before.cache ++ added ∧
      (∀ other, other ∈ added.map Prod.fst ↔
        ((Registry.new post postFactories).without isVain).Reaches (.model "Person") other ∧
          other ∉ [Ty.string, .list .string]) ∧
      ∃ cell, next.Within handle (.placeholder cell) ∧
        ∃ other, next.Settled other (.placeholder cell) := by
  intro before
  have hbuilt : ∃ piece next, adapter (.model "Person") before = .ok (.direct piece) next ∧
      next.cache.lookup (.model "Person") = some piece ∧
      ∃ cell, next.Within (.direct piece) (.placeholder cell) := by
    refine ⟨_, _, rfl, rfl, 6, ?_⟩
    -- The person holds the list of letters, that the letter, and that an option of the placeholder.
    refine .head ⟨_, rfl, .tail _ (.head _)⟩ (.head ⟨_, rfl, .head _⟩ ?_)
    exact .head ⟨_, rfl, .head _⟩ (.single ⟨_, rfl, .head _⟩)
  obtain ⟨piece, next, hadapter, hcached, cell, hwithin⟩ := hbuilt
  obtain ⟨-, hgranted, -, -, hfinished⟩ :=
    adapter_cache post postFactories [.model "Parcel", .list .string] (.model "Person")
  obtain ⟨rfl, -, added, hadded, -, -, -, hreached⟩ := hgranted (.direct piece) next hadapter
  exact ⟨.direct piece, _, added, hadapter, hadded, hreached isVain (regular_post _), cell, hwithin,
    hfinished (.model "Person") piece hcached _ hwithin⟩

/-- **Rivals keep apart.**  Strings lead to booleans by the factory that answers for them, and yet a
new workshop builds an adapter of strings and none of booleans.  Whoever asks for strings while that
adapter is being built is handed a placeholder that fails. -/
theorem rivals_keep_apart :
    (rivals.Reaches .string .bool ∧
      ∃ handle next, adapter .string (new rivals.catalog rivals.factories) = .ok handle next ∧
        next.cache.map Prod.fst = [.string]) ∧
      ∃ handle build, supply (new rivals.catalog rivals.factories) 1 [(.string, 0)] .string
          ⟨[⟨.string, none⟩], []⟩ = .ok handle build ∧
        handle.absent build.cells .string = .error (.value (.unresolved Ty.string.name)) :=
  ⟨⟨.single (.head _), _, _, rfl, rfl⟩, _, _, rfl, rfl⟩

end Workshop

end RemoteCall
