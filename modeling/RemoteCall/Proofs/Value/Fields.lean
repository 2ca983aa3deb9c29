/-
# Named fields

The fields of an object are kept in increasing order of their names, each name once.  Putting a
field in keeps that order (`ordered_insert`) and changes the field of its own name only
(`get?_insert`).  So the fields of a list of entries are ordered whatever the list
(`ordered_ofList`), the last entry of a name is the one that stands (`get?_ofList`), and entries
that are in order already are their own fields (`ofList_of_ordered`).
-/
import Mathlib.Data.String.Basic
import RemoteCall.Value

namespace RemoteCall.Fields

variable {α : Type} {fields : Fields α} {name : String} {value : α}

/-! ## 1. Putting one field in -/

theorem mem_insert {field : String × α} : ∀ {fields : Fields α},
    field ∈ fields.insert name value → field = (name, value) ∨ field ∈ fields
  | [], h => .inl (List.mem_singleton.mp h)
  | (other, old) :: rest, h => by
    unfold insert at h
    split at h
    · exact List.mem_cons.mp h
    · split at h
      · rcases List.mem_cons.mp h with h | h
        · exact .inl h
        · exact .inr (List.mem_cons_of_mem _ h)
      · rcases List.mem_cons.mp h with h | h
        · exact .inr (h ▸ List.mem_cons_self)
        · exact (mem_insert h).imp_right (List.mem_cons_of_mem _)

/-- **Putting a field in keeps the order.** -/
theorem ordered_insert : ∀ {fields : Fields α}, fields.Ordered → (fields.insert name value).Ordered
  | [], _ => List.pairwise_singleton _ _
  | (other, old) :: rest, h => by
    obtain ⟨hfirst, hrest⟩ := List.pairwise_cons.mp h
    unfold insert
    split
    · rename_i hlt
      refine List.pairwise_cons.mpr ⟨?_, h⟩
      intro field hfield
      rcases List.mem_cons.mp hfield with rfl | hfield
      · exact hlt
      · exact lt_trans hlt (hfirst field hfield)
    · rename_i hlt
      split
      · rename_i heq
        subst heq
        exact List.pairwise_cons.mpr ⟨hfirst, hrest⟩
      · rename_i hne
        refine List.pairwise_cons.mpr ⟨?_, ordered_insert hrest⟩
        intro field hfield
        rcases mem_insert hfield with rfl | hfield
        · exact lt_of_le_of_ne (not_lt.mp hlt) (Ne.symm hne)
        · exact hfirst field hfield

theorem get?_cons (other : String) (field : String × α) (fields : Fields α) :
    get? (field :: fields) other = if other = field.1 then some field.2 else fields.get? other := by
  obtain ⟨name, value⟩ := field
  simp only [get?, List.lookup_cons]
  by_cases h : other = name
  · simp [h]
  · simp [beq_eq_false_iff_ne.mpr h, h]

/-- Putting a field in changes the field of its name and no other. -/
theorem get?_insert (other : String) : ∀ fields : Fields α,
    (fields.insert name value).get? other = if other = name then some value else fields.get? other
  | [] => by
    rw [insert, get?_cons]
  | (first, old) :: rest => by
    have ih := get?_insert other rest
    unfold insert
    split
    · rw [get?_cons]
    · split
      · rename_i heq
        subst heq
        simp only [get?_cons]
        split <;> rfl
      · rename_i hne
        rw [get?_cons, get?_cons, ih]
        by_cases h : other = name
        · subst h
          simp [hne]
        · simp only [h, if_false]

/-- A name beyond all others goes last. -/
theorem insert_of_forall_lt : ∀ {fields : Fields α}, (∀ field ∈ fields, field.1 < name) →
    fields.insert name value = fields ++ [(name, value)]
  | [], _ => rfl
  | (other, old) :: rest, h => by
    obtain ⟨hfirst, hrest⟩ := List.forall_mem_cons.mp h
    rw [insert, if_neg (not_lt.mpr (le_of_lt hfirst)), if_neg (ne_of_gt hfirst),
      insert_of_forall_lt hrest, List.cons_append]

/-- A new name is one more. -/
theorem perm_insert : ∀ {fields : Fields α}, name ∉ fields.map (·.1) →
    (fields.insert name value).Perm ((name, value) :: fields)
  | [], _ => .refl _
  | (other, old) :: rest, h => by
    obtain ⟨hother, hrest⟩ := not_or.mp (fun hmem => h (List.mem_cons.mpr hmem))
    unfold insert
    split
    · exact .refl _
    · exact ((perm_insert hrest).cons _).trans (.swap _ _ _)

/-! ## 2. The fields of a list of entries -/

/-- **Fields made of entries are in order**, whatever the entries. -/
theorem ordered_ofList (entries : List (String × α)) : (ofList entries).Ordered := by
  have keeps : ∀ (entries : List (String × α)) (fields : Fields α), fields.Ordered →
      (entries.foldl (fun fields entry => fields.insert entry.1 entry.2) fields).Ordered := by
    intro entries
    induction entries with
    | nil => exact fun _ h => h
    | cons entry entries ih => exact fun _ h => ih _ (ordered_insert h)
  exact keeps entries [] List.Pairwise.nil

/-- A field comes from an entry. -/
theorem mem_ofList {entries : List (String × α)} {field : String × α}
    (h : field ∈ ofList entries) : field ∈ entries := by
  have comes : ∀ (entries : List (String × α)) (fields : Fields α),
      field ∈ entries.foldl (fun fields entry => fields.insert entry.1 entry.2) fields →
        field ∈ fields ∨ field ∈ entries := by
    intro entries
    induction entries with
    | nil => exact fun _ h => .inl h
    | cons entry entries ih =>
      intro fields h
      rcases ih _ h with h | h
      · rcases mem_insert h with rfl | h
        · exact .inr List.mem_cons_self
        · exact .inl h
      · exact .inr (List.mem_cons_of_mem _ h)
  exact (comes entries [] h).resolve_left List.not_mem_nil

/-- **The last entry of a name stands.** -/
theorem get?_ofList (entries : List (String × α)) (name : String) :
    (ofList entries).get? name = entries.reverse.lookup name := by
  have keeps : ∀ (entries : List (String × α)) (fields : Fields α),
      (entries.foldl (fun fields entry => fields.insert entry.1 entry.2) fields).get? name =
        (entries.reverse.lookup name).or (fields.get? name) := by
    intro entries
    induction entries with
    | nil => intro fields; rfl
    | cons entry entries ih =>
      intro fields
      have hentry : [entry].lookup name = if name = entry.1 then some entry.2 else none :=
        get?_cons name entry []
      rw [List.foldl_cons, ih, get?_insert, List.reverse_cons, List.lookup_append, Option.or_assoc,
        hentry]
      split <;> rfl
  rw [ofList, keeps]
  simp [get?]

/-- **Entries in order are their own fields.** -/
theorem ofList_of_ordered {entries : Fields α} (h : entries.Ordered) :
    ofList entries = entries := by
  have keeps : ∀ (entries fields : Fields α), Ordered (fields ++ entries) →
      entries.foldl (fun fields entry => fields.insert entry.1 entry.2) fields =
        fields ++ entries := by
    intro entries
    induction entries with
    | nil => intro fields _; simp
    | cons entry entries ih =>
      intro fields h
      have hlast : ∀ field ∈ fields, field.1 < entry.1 := fun field hfield =>
        (List.pairwise_append.mp h).2.2 field hfield entry List.mem_cons_self
      rw [List.foldl_cons, insert_of_forall_lt hlast, ih _ (by simpa using h)]
      simp
  exact keeps entries [] h

/-- **Entries of different names are all there**, if in another order. -/
theorem perm_ofList {entries : List (String × α)} (h : (entries.map (·.1)).Nodup) :
    (ofList entries).Perm entries := by
  have keeps : ∀ (entries fields : Fields α), ((fields ++ entries).map (·.1)).Nodup →
      (entries.foldl (fun fields entry => fields.insert entry.1 entry.2) fields).Perm
        (fields ++ entries) := by
    intro entries
    induction entries with
    | nil => intro fields _; simp
    | cons entry entries ih =>
      intro fields h
      have hmiddle : (fields ++ entry :: entries).Perm ((entry :: fields) ++ entries) :=
        List.perm_middle
      have hnodup := (hmiddle.map (·.1)).nodup_iff.mp h
      have hnew : entry.1 ∉ fields.map (·.1) := fun hmem => by
        simp only [List.cons_append, List.map_cons, List.nodup_cons, List.map_append] at hnodup
        exact hnodup.1 (List.mem_append_left _ hmem)
      have hinsert : ((Fields.insert entry.1 entry.2 fields) ++ entries).Perm
          ((entry :: fields) ++ entries) := (perm_insert hnew).append_right entries
      exact (ih _ ((hinsert.map (·.1)).nodup_iff.mpr hnodup)).trans (hinsert.trans hmiddle.symm)
  exact keeps entries [] h

/-- Leaving fields out keeps the order of the others, whatever becomes of their values. -/
theorem Ordered.of_sublist {β : Type} {fields : Fields α} {others : Fields β} (h : fields.Ordered)
    (hnames : (others.map (·.1)).Sublist (fields.map (·.1))) : others.Ordered :=
  List.pairwise_map.mp ((List.pairwise_map.mpr h).sublist hnames)

end RemoteCall.Fields
