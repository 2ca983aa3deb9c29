/-
# What a registry has resolved hangs together

A registry without factories resolves a type by the type's own rule, and on the way the types that
the rule leads to.  Types being resolved are taken for resolved and finished types are staged, so
while a type is being resolved the table does not hang together yet.  It does once the type that
was asked for is finished: every entry carries its type's own rule and leads to types in the table
(`resolve_closed`), in whatever order types have been resolved before (`resolveAll_closed`).

The invariant of the search is `Resolves`: what a step stages leads to types that are resolved,
staged or pending.  It holds of `visit` by induction on the depth of the search (`visit_resolves`).
-/
import RemoteCall.Proofs.Success
import RemoteCall.Typed.Registry

namespace RemoteCall

open Success

/-! ## 1. Tables that hang together -/

/-- The rule is the type's own, and leads to `known` types only. -/
inductive Grounded (catalog : Catalog) (known : Ty → Prop) : Ty → Rule → Prop
  | integer (width : IntWidth) : Grounded catalog known (.integer width) .structural
  | bool : Grounded catalog known .bool .structural
  | string : Grounded catalog known .string .structural
  | unit : Grounded catalog known .unit .structural
  | instant : Grounded catalog known .instant .structural
  | value : Grounded catalog known .value .structural
  | option {inner : Ty} (inner_known : known inner) :
    Grounded catalog known (.option inner) .structural
  | list {element : Ty} (element_known : known element) :
    Grounded catalog known (.list element) .structural
  | map {kind : MapKind} {element : Ty} (element_known : known element) :
    Grounded catalog known (.map kind element) .structural
  | model {name : String} {members : List Member} (found : catalog.lookup name = some members)
    (names_differ : Registry.sharedName? name members = none)
    (members_known : ∀ member ∈ members, known member.type) :
    Grounded catalog known (.model name) (.members members)

theorem Grounded.mono {catalog : Catalog} {known known' : Ty → Prop} {type : Ty} {rule : Rule}
    (h : Grounded catalog known type rule) (hknown : ∀ type, known type → known' type) :
    Grounded catalog known' type rule := by
  cases h with
  | integer width => exact .integer width
  | bool => exact .bool
  | string => exact .string
  | unit => exact .unit
  | instant => exact .instant
  | value => exact .value
  | option hinner => exact .option (hknown _ hinner)
  | list helement => exact .list (hknown _ helement)
  | map helement => exact .map (hknown _ helement)
  | model hfound hnames hmembers =>
    exact .model hfound hnames fun member hmember => hknown _ (hmembers member hmember)

/-- Every entry of the table carries its type's own rule and leads to types in the table. -/
def Table.Closed (catalog : Catalog) (table : Table) : Prop :=
  ∀ entry ∈ table, Grounded catalog (fun type => Registry.knows table type = true) entry.1 entry.2

/-- The rule of a type that a closed table knows is the type's own. -/
theorem Table.Closed.rule? {catalog : Catalog} {table : Table} (h : table.Closed catalog)
    {type : Ty} (hknown : Registry.knows table type = true) :
    ∃ rule, table.rule? type = some rule ∧
      Grounded catalog (fun type => Registry.knows table type = true) type rule := by
  obtain ⟨rule, hrule⟩ := Option.isSome_iff_exists.mp hknown
  obtain ⟨before, after, hsplit, -⟩ := List.lookup_eq_some_iff.mp hrule
  exact ⟨rule, hrule, h (type, rule) (by rw [hsplit]; simp)⟩

namespace Registry

theorem knows_append (first second : Table) (type : Ty) :
    knows (first ++ second) type = (knows first type || knows second type) := by
  unfold knows Table.rule?
  rw [List.lookup_append, Option.isSome_or]

theorem knows_singleton (type : Ty) (rule : Rule) : knows [(type, rule)] type = true := by
  simp [knows, Table.rule?]

/-- Members share no wire name exactly if none is found that they share. -/
theorem sharedNameAfter_eq_none_iff {model : String} : ∀ {members seen : List Member},
    sharedNameAfter model seen members = none ↔
      (members.map (·.wireName)).Nodup ∧
        ∀ member ∈ members, ∀ previous ∈ seen, previous.wireName ≠ member.wireName
  | [], seen => by simp [sharedNameAfter]
  | member :: members, seen => by
    rw [List.map_cons, List.nodup_cons, List.forall_mem_cons, sharedNameAfter]
    cases hfound : seen.find? (·.wireName == member.wireName) with
    | some previous =>
      have hname := List.find?_some hfound
      simp only [reduceCtorEq, false_iff]
      rintro ⟨-, hseen, -⟩
      exact hseen previous (List.mem_of_find?_eq_some hfound) (beq_iff_eq.mp hname)
    | none =>
      have hseen : ∀ previous ∈ seen, previous.wireName ≠ member.wireName := fun previous hmem => by
        simpa using List.find?_eq_none.mp hfound previous hmem
      simp only [sharedNameAfter_eq_none_iff, List.forall_mem_cons, List.mem_map]
      constructor
      · rintro ⟨hnodup, hothers⟩
        refine ⟨⟨?_, hnodup⟩, hseen, fun other hother => (hothers other hother).2⟩
        rintro ⟨other, hother, hname⟩
        exact (hothers other hother).1 hname.symm
      · rintro ⟨⟨hmember, hnodup⟩, -, hothers⟩
        refine ⟨hnodup, fun other hother => ⟨fun hname => ?_, hothers other hother⟩⟩
        exact hmember ⟨other, hother, hname.symm⟩

theorem sharedName?_eq_none_iff {model : String} {members : List Member} :
    sharedName? model members = none ↔ (members.map (·.wireName)).Nodup := by
  rw [sharedName?, sharedNameAfter_eq_none_iff]
  simp

end Registry

namespace Table.Closed

variable {catalog : Catalog} {table : Table}

/-- All but models are resolved to the structure that the type spells out. -/
theorem structural (h : table.Closed catalog) {type : Ty}
    (hknown : Registry.knows table type = true) (hmodel : ∀ name, type ≠ .model name) :
    table.rule? type = some .structural := by
  obtain ⟨rule, hrule, hgrounded⟩ := h.rule? hknown
  cases hgrounded with
  | @model name => exact absurd rfl (hmodel name)
  | _ => exact hrule

theorem inner (h : table.Closed catalog) {inner : Ty}
    (hknown : Registry.knows table (.option inner) = true) : Registry.knows table inner = true := by
  obtain ⟨rule, -, hgrounded⟩ := h.rule? hknown
  cases hgrounded with
  | option hinner => exact hinner

theorem listElement (h : table.Closed catalog) {element : Ty}
    (hknown : Registry.knows table (.list element) = true) :
    Registry.knows table element = true := by
  obtain ⟨rule, -, hgrounded⟩ := h.rule? hknown
  cases hgrounded with
  | list helement => exact helement

theorem mapElement (h : table.Closed catalog) {kind : MapKind} {element : Ty}
    (hknown : Registry.knows table (.map kind element) = true) :
    Registry.knows table element = true := by
  obtain ⟨rule, -, hgrounded⟩ := h.rule? hknown
  cases hgrounded with
  | map helement => exact helement

/-- A model is resolved to its members, which share no wire name and have resolved types. -/
theorem model (h : table.Closed catalog) {name : String} {members : List Member}
    (hknown : Registry.knows table (.model name) = true)
    (hfound : catalog.lookup name = some members) :
    table.rule? (.model name) = some (.members members) ∧ (members.map (·.wireName)).Nodup ∧
      ∀ member ∈ members, Registry.knows table member.type = true := by
  obtain ⟨rule, hrule, hgrounded⟩ := h.rule? hknown
  cases hgrounded with
  | model hfound' hnames hmembers =>
    cases hfound.symm.trans hfound'
    exact ⟨hrule, Registry.sharedName?_eq_none_iff.mp hnames, hmembers⟩

end Table.Closed

namespace Registry

variable {registry registry' : Registry} {pending : List Ty} {resolve : Resolve} {type : Ty}
  {staged staged' : Table} {rule : Rule}

/-! ## 2. The search -/

/-- A type met in the search counts as known if it is resolved, pending or staged. -/
def Known (registry : Registry) (pending : List Ty) (staged : Table) (type : Ty) : Prop :=
  knows registry.cache type = true ∨ type ∈ pending ∨ knows staged type = true

theorem Known.append (h : Known registry pending staged type) (more : Table) :
    Known registry pending (staged ++ more) type := by
  refine h.imp_right (Or.imp_right fun h => ?_)
  rw [knows_append, h, Bool.true_or]

/-- From `staged` to `staged'` only types have been added that lead to known types. -/
def Grows (registry : Registry) (pending : List Ty) (staged staged' : Table) : Prop :=
  ∃ more, staged' = staged ++ more ∧ ∀ entry ∈ more,
    Grounded registry.catalog (Known registry pending staged') entry.1 entry.2

theorem Grows.refl (registry : Registry) (pending : List Ty) (staged : Table) :
    Grows registry pending staged staged :=
  ⟨[], (List.append_nil staged).symm, fun _ h => absurd h List.not_mem_nil⟩

theorem Grows.known (h : Grows registry pending staged staged')
    (hknown : Known registry pending staged type) : Known registry pending staged' type := by
  obtain ⟨more, rfl, -⟩ := h
  exact hknown.append more

theorem Grows.trans {staged'' : Table} (h : Grows registry pending staged staged')
    (h' : Grows registry pending staged' staged'') : Grows registry pending staged staged'' := by
  obtain ⟨more, rfl, hmore⟩ := h
  obtain ⟨others, rfl, hothers⟩ := h'
  refine ⟨more ++ others, List.append_assoc _ _ _, ?_⟩
  intro entry hentry
  rcases List.mem_append.mp hentry with hentry | hentry
  · exact (hmore entry hentry).mono fun _ hknown => hknown.append others
  · exact hothers entry hentry

/-- **The invariant of the search**: a type that is resolved is known then, and what has been staged
on the way leads to known types. -/
def Resolves (registry : Registry) (pending : List Ty) (resolve : Resolve) : Prop :=
  ∀ ⦃type : Ty⦄ ⦃staged staged' : Table⦄, resolve type staged = .ok staged' →
    Grows registry pending staged staged' ∧ Known registry pending staged' type

theorem resolveMembers_grows (hresolve : Resolves registry pending resolve) :
    ∀ {members : List Member} {staged staged' : Table},
      resolveMembers resolve members staged = .ok staged' →
      Grows registry pending staged staged' ∧
        ∀ member ∈ members, Known registry pending staged' member.type
  | [], staged, _, h => by
    cases h
    exact ⟨Grows.refl registry pending staged, fun _ h => absurd h List.not_mem_nil⟩
  | member :: members, _, _, h => by
    obtain ⟨mid, hmember, hmembers⟩ := except_bind_ok.mp h
    obtain ⟨hmid, hknown⟩ := hresolve hmember
    obtain ⟨hgrows, hothers⟩ := resolveMembers_grows hresolve hmembers
    exact ⟨hmid.trans hgrows, List.forall_mem_cons.mpr ⟨hgrows.known hknown, hothers⟩⟩

/-- A type's own rule leads to types that have been resolved for it. -/
theorem ownRule_grounded (hresolve : Resolves registry pending resolve)
    (h : ownRule registry.catalog resolve type staged = .ok (rule, staged')) :
    Grows registry pending staged staged' ∧
      Grounded registry.catalog (Known registry pending staged') type rule := by
  cases type
  case option inner =>
    obtain ⟨_, hinner, h⟩ := except_bind_ok.mp h
    cases h
    exact ⟨(hresolve hinner).1, .option (hresolve hinner).2⟩
  case list element =>
    obtain ⟨_, helement, h⟩ := except_bind_ok.mp h
    cases h
    exact ⟨(hresolve helement).1, .list (hresolve helement).2⟩
  case map kind element =>
    obtain ⟨_, helement, h⟩ := except_bind_ok.mp h
    cases h
    exact ⟨(hresolve helement).1, .map (hresolve helement).2⟩
  case model name =>
    simp only [ownRule] at h
    cases hfound : registry.catalog.lookup name with
    | none =>
      rw [hfound] at h
      cases h
    | some members =>
      rw [hfound] at h
      obtain ⟨_, hmembers, h⟩ := except_bind_ok.mp h
      cases hnames : sharedName? name members with
      | some fault =>
        rw [hnames] at h
        cases h
      | none =>
        rw [hnames] at h
        cases h
        obtain ⟨hgrows, hknown⟩ := resolveMembers_grows hresolve hmembers
        exact ⟨hgrows, .model hfound hnames hknown⟩
  case foreign name => cases h
  case refusing name reason => cases h
  all_goals
    cases h
    exact ⟨Grows.refl registry pending staged, by constructor⟩

/-- **The search keeps the invariant.**  The induction is on its depth; a type is pending while the
types that it leads to are searched, and staged after. -/
theorem visit_resolves (hfactories : registry.factories = []) : ∀ (fuel : Nat) (pending : List Ty),
    Resolves registry pending (registry.visit fuel pending)
  | 0, _ => by
    intro type staged staged' h
    cases h
  | fuel + 1, pending => by
    intro type staged staged' h
    unfold visit at h
    split at h
    · rename_i hmet
      cases h
      simp only [Bool.or_eq_true, decide_eq_true_eq, or_assoc] at hmet
      exact ⟨Grows.refl registry pending staged, hmet⟩
    · rw [hfactories] at h
      obtain ⟨⟨rule, mid⟩, hrule, h⟩ := except_bind_ok.mp h
      cases h
      obtain ⟨hgrows, hgrounded⟩ := ownRule_grounded (visit_resolves hfactories fuel _) hrule
      -- a type that was pending for the search below is staged now
      have hknown : ∀ other, Known registry (type :: pending) mid other →
          Known registry pending (mid ++ [(type, rule)]) other := by
        rintro other (hother | hother | hother)
        · exact .inl hother
        · rcases List.mem_cons.mp hother with rfl | hother
          · exact .inr (.inr (by rw [knows_append, knows_singleton, Bool.or_true]))
          · exact .inr (.inl hother)
        · exact .inr (.inr (by rw [knows_append, hother, Bool.true_or]))
      obtain ⟨more, rfl, hmore⟩ := hgrows
      refine ⟨⟨more ++ [(type, rule)], List.append_assoc _ _ _, ?_⟩, hknown type (.inr (.inl ?_))⟩
      · intro entry hentry
        rcases List.mem_append.mp hentry with hentry | hentry
        · exact (hmore entry hentry).mono hknown
        · rw [List.mem_singleton.mp hentry]
          exact hgrounded.mono hknown
      · exact List.mem_cons_self

/-! ## 3. Whole resolutions -/

theorem knows_append_left {first second : Table} (h : knows first type = true) :
    knows (first ++ second) type = true := by
  rw [knows_append, h, Bool.true_or]

/-- **What a resolution leaves behind**: the cache is longer, knows the type and is closed if it was
closed before. -/
theorem resolve_ok (hfactories : registry.factories = [])
    (hclosed : registry.cache.Closed registry.catalog)
    (h : registry.resolve type = .ok registry') :
    ∃ more, registry' = { registry with cache := registry.cache ++ more } ∧
      knows (registry.cache ++ more) type = true ∧
      Table.Closed registry.catalog (registry.cache ++ more) := by
  obtain ⟨staged, hvisit, h⟩ := except_bind_ok.mp h
  cases h
  obtain ⟨⟨more, hstaged, hmore⟩, hknown⟩ := visit_resolves hfactories _ [] hvisit
  obtain rfl : staged = more := hstaged
  have hall : ∀ other, Known registry [] staged other →
      knows (registry.cache ++ staged) other = true := by
    rintro other (hother | hother | hother)
    · exact knows_append_left hother
    · cases hother
    · rw [knows_append, hother, Bool.or_true]
  refine ⟨staged, rfl, hall type hknown, fun entry hentry => ?_⟩
  rcases List.mem_append.mp hentry with hentry | hentry
  · exact (hclosed entry hentry).mono fun _ => knows_append_left
  · exact (hmore entry hentry).mono hall

/-- A resolved type is resolved again at once. -/
theorem resolve_of_knows (h : knows registry.cache type = true) :
    registry.resolve type = .ok registry := by
  have hvisit : registry.visit (registry.reach type + 1) [] type [] = .ok [] := by
    unfold visit
    rw [h, Bool.true_or, Bool.true_or, if_pos rfl]
  unfold resolve
  rw [hvisit]
  show Except.ok { registry with cache := registry.cache ++ [] } = .ok registry
  rw [List.append_nil]

/-- Types resolved one after the other.  A type that is refused leaves no trace. -/
def resolveAll (registry : Registry) (types : List Ty) : Registry :=
  types.foldl (fun registry type =>
    match registry.resolve type with
    | .ok registry => registry
    | .error _ => registry) registry

theorem resolveAll_append (registry : Registry) (types others : List Ty) :
    registry.resolveAll (types ++ others) = (registry.resolveAll types).resolveAll others :=
  List.foldl_append

/-- **Whatever has been resolved before, in whatever order**, the cache is closed and only
longer. -/
theorem resolveAll_closed : ∀ (types : List Ty) {registry : Registry}, registry.factories = [] →
    registry.cache.Closed registry.catalog →
    ∃ more, registry.resolveAll types = { registry with cache := registry.cache ++ more } ∧
      Table.Closed registry.catalog (registry.cache ++ more)
  | [], registry, _, hclosed => by
    refine ⟨[], ?_, ?_⟩
    · rw [List.append_nil]
      rfl
    · rwa [List.append_nil]
  | type :: types, registry, hfactories, hclosed => by
    have hcons : registry.resolveAll (type :: types) =
        (match registry.resolve type with
          | .ok registry => registry
          | .error _ => registry).resolveAll types := rfl
    rw [hcons]
    cases hresolve : registry.resolve type with
    | error fault => exact resolveAll_closed types hfactories hclosed
    | ok next =>
      obtain ⟨more, rfl, -, hmore⟩ := resolve_ok hfactories hclosed hresolve
      have hnext : ({ registry with cache := registry.cache ++ more } : Registry).factories = [] :=
        hfactories
      obtain ⟨others, hall, hothers⟩ := resolveAll_closed types hnext hmore
      exact ⟨more ++ others, by rw [hall, List.append_assoc], by rwa [← List.append_assoc]⟩

/-- A type that has been resolved is known ever after, in a closed cache. -/
theorem resolveAll_cons_ok (types : List Ty) (hfactories : registry.factories = [])
    (hclosed : registry.cache.Closed registry.catalog)
    (h : registry.resolve type = .ok registry') :
    Table.Closed registry.catalog (registry.resolveAll (type :: types)).cache ∧
      knows (registry.resolveAll (type :: types)).cache type = true := by
  have hcons : registry.resolveAll (type :: types) = registry'.resolveAll types := by
    rw [resolveAll, List.foldl_cons, h]
    rfl
  obtain ⟨more, rfl, hknown, hmore⟩ := resolve_ok hfactories hclosed h
  have hnext : ({ registry with cache := registry.cache ++ more } : Registry).factories = [] :=
    hfactories
  obtain ⟨others, hall, hothers⟩ := resolveAll_closed types hnext hmore
  rw [hcons, hall]
  exact ⟨hothers, knows_append_left hknown⟩

/-- What a registry without factories has resolved since it was new hangs together. -/
theorem resolveAll_new (catalog : Catalog) (types : List Ty) :
    ∃ cache, (new catalog []).resolveAll types = ⟨catalog, [], cache⟩ ∧ cache.Closed catalog := by
  have hfactories : (new catalog []).factories = [] := rfl
  obtain ⟨cache, hall, hcache⟩ := resolveAll_closed types hfactories
    fun _ hentry => absurd hentry List.not_mem_nil
  exact ⟨cache, hall, hcache⟩

end Registry

end RemoteCall
