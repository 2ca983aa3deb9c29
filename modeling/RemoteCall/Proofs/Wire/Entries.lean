/-
# The entries of an object by their names

Whoever reads an object by the names that they know sees the values under each of these names, in
the order of their entries (`valuesUnder`).  Entries of different names may change places, and
entries of other names come and go: that does not show (`Rearranged.valuesUnder_eq`).

Where every entry sets what its name stands for, the last entry of a name decides
(`exists_foldlM_slots`), and what nobody sets stays as it was.
-/
import RemoteCall.Proofs.Wire.Tree

namespace RemoteCall.Wire

variable {α β γ : Type} {name : String} {known : List String}
  {entries others : List (SizedText 2 × Tree)}

/-! ## 1. The values under a name -/

/-- The values under a name, in the order of their entries. -/
def valuesUnder (name : String) (entries : List (SizedText 2 × Tree)) : List Tree :=
  (entries.filter (·.1.text == name)).map (·.2)

theorem valuesUnder_cons (entry : SizedText 2 × Tree) :
    valuesUnder name (entry :: entries) =
      if entry.1.text = name then entry.2 :: valuesUnder name entries
      else valuesUnder name entries := by
  unfold valuesUnder
  by_cases h : entry.1.text = name
  · rw [List.filter_cons_of_pos (by simpa using h), List.map_cons, if_pos h]
  · rw [List.filter_cons_of_neg (by simpa using h), if_neg h]

theorem valuesUnder_append (first second : List (SizedText 2 × Tree)) :
    valuesUnder name (first ++ second) = valuesUnder name first ++ valuesUnder name second := by
  rw [valuesUnder, List.filter_append, List.map_append]
  rfl

theorem mem_valuesUnder {tree : Tree} :
    tree ∈ valuesUnder name entries ↔ ∃ entry ∈ entries, entry.1.text = name ∧ entry.2 = tree := by
  simp only [valuesUnder, List.mem_map, List.mem_filter, beq_iff_eq, and_assoc]

/-! ## 2. Objects that say the same under the known names -/

/-- Entries of different names change places, and entries whose names are not known come and go. -/
inductive Rearranged (known : List String) :
    List (SizedText 2 × Tree) → List (SizedText 2 × Tree) → Prop
  | swap {first second : SizedText 2 × Tree} (before after : List (SizedText 2 × Tree))
    (distinct : first.1.text ≠ second.1.text) :
    Rearranged known (before ++ first :: second :: after) (before ++ second :: first :: after)
  | insert {entry : SizedText 2 × Tree} (before after : List (SizedText 2 × Tree))
    (unknown : entry.1.text ∉ known) :
    Rearranged known (before ++ after) (before ++ entry :: after)
  | refl (entries : List (SizedText 2 × Tree)) : Rearranged known entries entries
  | symm {entries others : List (SizedText 2 × Tree)} (h : Rearranged known entries others) :
    Rearranged known others entries
  | trans {first second third : List (SizedText 2 × Tree)} (h : Rearranged known first second)
    (h' : Rearranged known second third) : Rearranged known first third

/-- **Rearranged objects say the same** under every known name. -/
theorem Rearranged.valuesUnder_eq (h : Rearranged known entries others) (hname : name ∈ known) :
    valuesUnder name entries = valuesUnder name others := by
  induction h with
  | @swap first second before after distinct =>
    simp only [valuesUnder_append, valuesUnder_cons]
    by_cases hfirst : first.1.text = name
    · have hsecond : second.1.text ≠ name := fun h => distinct (hfirst.trans h.symm)
      simp only [if_pos hfirst, if_neg hsecond]
    · simp only [if_neg hfirst]
  | @insert entry before after unknown =>
    have hother : entry.1.text ≠ name := fun h => unknown (h ▸ hname)
    rw [valuesUnder_append, valuesUnder_append, valuesUnder_cons, if_neg hother]
  | refl => rfl
  | symm _ ih => exact ih.symm
  | trans _ _ ih ih' => exact ih.trans ih'

theorem Rearranged.cons (entry : SizedText 2 × Tree) (h : Rearranged known entries others) :
    Rearranged known (entry :: entries) (entry :: others) := by
  induction h with
  | swap before after distinct => exact .swap (entry :: before) after distinct
  | insert before after unknown => exact .insert (entry :: before) after unknown
  | refl entries => exact .refl _
  | symm _ ih => exact ih.symm
  | trans _ _ ih ih' => exact ih.trans ih'

/-- Entries of different names may stand in any order. -/
theorem Rearranged.of_perm (h : entries.Perm others) :
    (entries.map (·.1.text)).Nodup → Rearranged known entries others := by
  induction h with
  | nil => exact fun _ => .refl []
  | cons entry _ ih => exact fun hnodup => (ih (List.nodup_cons.mp hnodup).2).cons entry
  | swap first second rest =>
    intro hnodup
    have hdistinct := (List.nodup_cons.mp hnodup).1
    exact .swap [] rest fun hname => hdistinct (List.mem_cons.mpr (.inl hname))
  | trans h _ ih ih' =>
    intro hnodup
    exact (ih hnodup).trans (ih' ((h.map _).nodup_iff.mp hnodup))

/-! ## 3. The last entry of a name decides -/

variable {m : Type → Type} [Monad m] [LawfulMonad m] {step : β → SizedText 2 × Tree → m β}

/-- Where other names change nothing, a fold over entries is one over the values under the name. -/
theorem foldlM_valuesUnder (set : β → Tree → m β)
    (hset : ∀ b entry, step b entry = if entry.1.text = name then set b entry.2 else pure b) :
    ∀ (entries : List (SizedText 2 × Tree)) (start : β),
      entries.foldlM step start = (valuesUnder name entries).foldlM set start
  | [], _ => rfl
  | entry :: entries, start => by
    rw [List.foldlM_cons, hset, valuesUnder_cons]
    split
    · rw [List.foldlM_cons]
      exact bind_congr fun b => foldlM_valuesUnder set hset entries b
    · rw [pure_bind, foldlM_valuesUnder set hset entries start]

/-- **The last entry of a name decides what its slot holds**, and without one the slot holds what it
held before.  The steps need succeed only where the invariant `holds`. -/
theorem exists_foldlM_slots {ι : Type} (names : ι → String) (slot : ι → β → γ)
    (value : ι → Tree → γ) (holds : β → Prop) :
    ∀ {entries : List (SizedText 2 × Tree)} (start : β),
    (∀ b, holds b → ∀ entry ∈ entries, ∃ b', step b entry = pure b' ∧ holds b' ∧
      ∀ i, slot i b' = if entry.1.text = names i then value i entry.2 else slot i b) →
    holds start → ∃ final, entries.foldlM step start = pure final ∧ holds final ∧
      ∀ i, slot i final =
        ((valuesUnder (names i) entries).getLast?.map (value i)).getD (slot i start)
  | [], start, _, hstart => ⟨start, rfl, hstart, fun _ => rfl⟩
  | entry :: entries, start, hsteps, hstart => by
    obtain ⟨next, hnext, hholds, hslots⟩ := hsteps start hstart entry List.mem_cons_self
    obtain ⟨final, hfinal, hend, hlast⟩ := exists_foldlM_slots names slot value holds next
      (fun b hb other hother => hsteps b hb other (List.mem_cons_of_mem _ hother)) hholds
    refine ⟨final, by rw [List.foldlM_cons, hnext, pure_bind, hfinal], hend, fun i => ?_⟩
    rw [hlast, hslots, valuesUnder_cons]
    split
    · rw [List.getLast?_cons]
      cases (valuesUnder (names i) entries).getLast? <;> rfl
    · rfl

end RemoteCall.Wire
