/-
# The types that a search may meet

The search of a registry has a bound on its depth.  The bound counts the types that occur in what
was asked for, in the catalog or in a factory (`length_vocabulary`), and the search does not leave
them (`encloses_vocabulary`).  Each of them is pending at most once, so the bound is never met: as
long as the depth that is left is `Ample`, it is not zero, and it stays ample one step below.
-/
import Mathlib.Data.List.Perm.Subperm
import RemoteCall.Proofs.Typed.Graph

namespace RemoteCall

/-! ## 1. The vocabulary of a search -/

/-- The types that occur in a type. -/
def Ty.occurring : Ty → List Ty
  | .option inner => .option inner :: inner.occurring
  | .list element => .list element :: element.occurring
  | .map kind element => .map kind element :: element.occurring
  | type => [type]

theorem Ty.length_occurring : ∀ type : Ty, type.occurring.length = type.size
  | .option inner => congrArg (· + 1) inner.length_occurring
  | .list element => congrArg (· + 1) element.length_occurring
  | .map _ element => congrArg (· + 1) element.length_occurring
  | .integer _ | .bool | .string | .unit | .instant | .value | .model _ | .foreign _
  | .refusing _ _ => rfl

theorem Ty.mem_occurring_self (type : Ty) : type ∈ type.occurring := by
  cases type <;> exact List.mem_cons_self

/-- What occurs in a type that occurs in another one occurs in that one. -/
theorem Ty.occurring_trans {first second : Ty} : ∀ {third : Ty}, first ∈ second.occurring →
    second ∈ third.occurring → first ∈ third.occurring
  | .option inner, h, h' => by
    rcases List.mem_cons.mp h' with rfl | h'
    · exact h
    · exact List.mem_cons_of_mem _ (occurring_trans h h')
  | .list element, h, h' => by
    rcases List.mem_cons.mp h' with rfl | h'
    · exact h
    · exact List.mem_cons_of_mem _ (occurring_trans h h')
  | .map _ element, h, h' => by
    rcases List.mem_cons.mp h' with rfl | h'
    · exact h
    · exact List.mem_cons_of_mem _ (occurring_trans h h')
  | .integer _, h, h' | .bool, h, h' | .string, h, h' | .unit, h, h' | .instant, h, h'
  | .value, h, h' | .model _, h, h' | .foreign _, h, h' | .refusing _ _, h, h' => by
    rw [List.mem_singleton.mp h'] at h
    exact h

/-- The types that a factory may ask for. -/
def Factory.occurring : Factory → List Ty
  | .through _ via _ => via.occurring
  | _ => []

namespace Registry

variable {registry : Registry} {types pending : List Ty} {fuel : Nat} {type : Ty}

/-- The types that the search for `type` may meet. -/
def vocabulary (registry : Registry) (type : Ty) : List Ty :=
  type.occurring
    ++ registry.catalog.flatMap (fun model =>
        .model model.1 :: model.2.flatMap (·.type.occurring))
    ++ registry.factories.flatMap Factory.occurring

theorem length_flatMap_occurring (members : List Member) :
    (members.flatMap (·.type.occurring)).length =
      members.foldr (fun member n => member.type.size + n) 0 := by
  induction members with
  | nil => rfl
  | cons member members ih =>
    rw [List.flatMap_cons, List.length_append, ih, Ty.length_occurring, List.foldr_cons]

/-- The bound on the depth counts the vocabulary. -/
theorem length_vocabulary (registry : Registry) (type : Ty) :
    (registry.vocabulary type).length = registry.reach type := by
  have hcatalog : ∀ catalog : Catalog,
      (catalog.flatMap fun model =>
        Ty.model model.1 :: model.2.flatMap (·.type.occurring)).length =
      catalog.foldr (fun model n =>
        1 + model.2.foldr (fun member n => member.type.size + n) 0 + n) 0 := by
    intro catalog
    induction catalog with
    | nil => rfl
    | cons model catalog ih =>
      rw [List.flatMap_cons, List.length_append, ih, List.length_cons, length_flatMap_occurring,
        List.foldr_cons, Nat.add_comm 1]
  have hfactories : ∀ factories : List Factory,
      (factories.flatMap Factory.occurring).length =
        factories.foldr (fun factory n => Factory.size factory + n) 0 := by
    intro factories
    induction factories with
    | nil => rfl
    | cons factory factories ih =>
      have hfactory : factory.occurring.length = Factory.size factory := by
        cases factory with
        | through target via answer => exact Ty.length_occurring via
        | exact target rule => rfl
        | declining => rfl
      rw [List.flatMap_cons, List.length_append, ih, hfactory, List.foldr_cons]
  unfold vocabulary reach
  rw [List.length_append, List.length_append, Ty.length_occurring, hcatalog, hfactories]

/-- A list of types that the search does not leave. -/
def Encloses (registry : Registry) (types : List Ty) : Prop :=
  (∀ type ∈ types, ∀ part ∈ type.parts registry.catalog, part ∈ types) ∧
    ∀ target via answer, Factory.through target via answer ∈ registry.factories → via ∈ types

theorem encloses_vocabulary (registry : Registry) (type : Ty) :
    registry.Encloses (registry.vocabulary type) := by
  -- what occurs in a member of the vocabulary is in the vocabulary
  have hoccurring : ∀ {part whole : Ty}, part ∈ whole.occurring →
      whole ∈ registry.vocabulary type → part ∈ registry.vocabulary type := by
    intro part whole hpart hwhole
    unfold vocabulary at hwhole ⊢
    simp only [List.mem_append, List.mem_flatMap, List.mem_cons] at hwhole ⊢
    rcases hwhole with (hwhole | ⟨model, hmodel, rfl | ⟨member, hmember, hwhole⟩⟩) |
      ⟨factory, hfactory, hwhole⟩
    · exact .inl (.inl (Ty.occurring_trans hpart hwhole))
    · rw [Ty.occurring, List.mem_singleton] at hpart
      · exact .inl (.inr ⟨model, hmodel, .inl hpart⟩)
      all_goals simp
    · exact .inl (.inr ⟨model, hmodel, .inr ⟨member, hmember, Ty.occurring_trans hpart hwhole⟩⟩)
    · refine .inr ⟨factory, hfactory, ?_⟩
      cases factory with
      | through target via answer => exact Ty.occurring_trans hpart hwhole
      | exact target rule => exact absurd hwhole List.not_mem_nil
      | declining => exact absurd hwhole List.not_mem_nil
  constructor
  · intro whole hwhole part hpart
    cases whole
    case option inner =>
      rw [List.mem_singleton.mp hpart]
      refine hoccurring ?_ hwhole
      exact List.mem_cons_of_mem _ inner.mem_occurring_self
    case list element =>
      rw [List.mem_singleton.mp hpart]
      refine hoccurring ?_ hwhole
      exact List.mem_cons_of_mem _ element.mem_occurring_self
    case map kind element =>
      rw [List.mem_singleton.mp hpart]
      refine hoccurring ?_ hwhole
      exact List.mem_cons_of_mem _ element.mem_occurring_self
    case model name =>
      simp only [Ty.parts] at hpart
      cases hfound : registry.catalog.lookup name with
      | none =>
        rw [hfound] at hpart
        cases hpart
      | some members =>
        rw [hfound] at hpart
        obtain ⟨member, hmember, rfl⟩ := List.mem_map.mp hpart
        obtain ⟨before, after, hsplit, -⟩ := List.lookup_eq_some_iff.mp hfound
        have hmodel : (name, members) ∈ registry.catalog := by
          rw [hsplit]
          exact List.mem_append_right _ List.mem_cons_self
        unfold vocabulary
        refine List.mem_append_left _ (List.mem_append_right _ ?_)
        refine List.mem_flatMap.mpr ⟨_, hmodel, List.mem_cons_of_mem _ ?_⟩
        exact List.mem_flatMap.mpr ⟨member, hmember, member.type.mem_occurring_self⟩
    all_goals cases hpart
  · intro target via answer hfactory
    unfold vocabulary
    refine List.mem_append_right _ (List.mem_flatMap.mpr ⟨_, hfactory, ?_⟩)
    exact via.mem_occurring_self

theorem mem_vocabulary_self (registry : Registry) (type : Ty) :
    type ∈ registry.vocabulary type :=
  List.mem_append_left _ (List.mem_append_left _ type.mem_occurring_self)

/-- The search does not leave a list that encloses it. -/
theorem Encloses.mayAsk (h : registry.Encloses types) (hmem : type ∈ types) :
    registry.mayAsk type ⊆ types := by
  intro next hnext
  rcases List.mem_append.mp hnext with hnext | hnext
  · exact h.1 type hmem next hnext
  · obtain ⟨factory, hfactory, hasks⟩ := List.mem_flatMap.mp hnext
    obtain ⟨answer, rfl⟩ := Factory.mem_asks_iff.mp hasks
    exact h.2 type next answer hfactory

/-! ## 2. Enough depth -/

/-- **The depth that is left is enough**: there are fewer types that are not pending. -/
structure Ample (types : List Ty) (fuel : Nat) (pending : List Ty) : Prop where
  distinct : pending.Nodup
  met : pending ⊆ types
  bound : types.length < fuel + pending.length

theorem Ample.pos (h : Ample types fuel pending) : 0 < fuel := by
  have hlength := (List.subperm_of_subset h.distinct h.met).length_le
  have hbound := h.bound
  omega

theorem Ample.cons (h : Ample types (fuel + 1) pending) (hmem : type ∈ types)
    (hnew : type ∉ pending) : Ample types fuel (type :: pending) := by
  refine ⟨List.nodup_cons.mpr ⟨hnew, h.distinct⟩, List.cons_subset.mpr ⟨hmem, h.met⟩, ?_⟩
  have hbound := h.bound
  rw [List.length_cons]
  omega

theorem ample_reach (registry : Registry) (type : Ty) :
    Ample (registry.vocabulary type) (registry.reach type + 1) [] := by
  refine ⟨List.nodup_nil, List.nil_subset _, ?_⟩
  rw [length_vocabulary]
  exact Nat.lt_succ_self _

end Registry

end RemoteCall
