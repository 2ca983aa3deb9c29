/-
# A model is read by the last entry of each of its members

The entries of an object are put in the members' places one after the other.  So a member ends up
with what its adapter reads of the last entry under its wire name, or with its default if there is
none, and nothing else of the object shows (`Registry.decode_model`).  In particular nothing shows of
entries under other names, nor of the order of entries under different names.

A resolved model has different wire names for its members.  This is what keeps their places apart.
-/
import RemoteCall.Proofs.Typed.Cache
import RemoteCall.Proofs.Typed.RoundTrip
import RemoteCall.Proofs.Typed.Verdict
import RemoteCall.Proofs.Wire.Entries

namespace RemoteCall

open Wire Wire.Reader

namespace Table

variable {table : Table} {type : Ty} {judge : Ty → Tree → Except Error Datum}
  {members : List Member} {entries : List (SizedText 2 × Tree)}

/-! ## 1. The members' places -/

/-- A member with its place. -/
abbrev Place (members : List Member) : Type :=
  { place : Nat × Member // members[place.1]? = some place.2 }

/-- Members with different wire names have different places. -/
theorem place_unique (hnodup : (members.map (·.wireName)).Nodup) {i j : Nat}
    {member other : Member} (hi : members[i]? = some member) (hj : members[j]? = some other)
    (hname : member.wireName = other.wireName) : i = j := by
  have hlt : i < (members.map (·.wireName)).length := by
    rw [List.length_map]
    exact (List.getElem?_eq_some_iff.mp hi).1
  refine (List.getElem?_inj hlt hnodup).mp ?_
  rw [List.getElem?_map, List.getElem?_map, hi, hj, Option.map_some, Option.map_some, hname]

/-- **An entry sets its member's place** and no other one. -/
theorem exists_placeMember {entry : SizedText 2 × Tree} {values : List Datum}
    (hnodup : (members.map (·.wireName)).Nodup)
    (hreads : ∀ member ∈ members, entry.1.text = member.wireName →
      ∃ datum, judge member.type entry.2 = .ok datum)
    (hlength : values.length = members.length) :
    ∃ placed, placeMember judge members values entry = pure placed ∧
      placed.length = members.length ∧ ∀ place : Place members,
        placed[place.1.1]? = if entry.1.text = place.1.2.wireName
          then (judge place.1.2.type entry.2).toOption else values[place.1.1]? := by
  unfold placeMember
  cases hindex : members.findIdx? (·.wireName == entry.1.text) with
  | none =>
    refine ⟨values, rfl, hlength, fun ⟨(i, member), hmember⟩ => (if_neg fun hname => ?_).symm⟩
    have hother := List.findIdx?_eq_none_iff.mp hindex member (List.mem_of_getElem? hmember)
    simp [hname] at hother
  | some index =>
    obtain ⟨hlt, hfound, -⟩ := List.findIdx?_eq_some_iff_getElem.mp hindex
    have hplace : members[index]? = some members[index] := List.getElem?_eq_getElem hlt
    have hname : entry.1.text = members[index].wireName := (beq_iff_eq.mp hfound).symm
    obtain ⟨datum, hdatum⟩ := hreads _ (List.getElem_mem hlt) hname
    refine ⟨values.set index datum, ?_, by rw [List.length_set, hlength],
      fun ⟨(i, member), hmember⟩ => ?_⟩
    · simp only [hplace, hdatum]
      rfl
    · by_cases hi : index = i
      · subst hi
        obtain rfl : members[index] = member := Option.some.inj (hplace.symm.trans hmember)
        rw [if_pos hname, List.getElem?_set_self (by omega), hdatum]
        rfl
      · rw [if_neg fun hsame => hi (place_unique hnodup hplace hmember (hname.symm.trans hsame)),
          List.getElem?_set_ne hi]

/-- What a member holds after the entries have been read. -/
def Settles (judge : Ty → Tree → Except Error Datum) (entries : List (SizedText 2 × Tree))
    (member : Member) (value : Datum) : Prop :=
  match (valuesUnder member.wireName entries).getLast? with
  | none => value = member.default
  | some tree => judge member.type tree = .ok value

/-- What the members hold is determined by the values under their wire names. -/
theorem settles_unique {others : List (SizedText 2 × Tree)} : ∀ {members : List Member}
    {values values' : List Datum}, (∀ member ∈ members,
      valuesUnder member.wireName entries = valuesUnder member.wireName others) →
    List.Forall₂ (Settles judge entries) members values →
    List.Forall₂ (Settles judge others) members values' → values = values'
  | [], _, _, _, .nil, .nil => rfl
  | member :: members, value :: values, value' :: values', hsame, .cons hvalue hvalues,
      .cons hvalue' hvalues' => by
    obtain ⟨hmember, hmembers⟩ := List.forall_mem_cons.mp hsame
    unfold Settles at hvalue hvalue'
    rw [hmember] at hvalue
    have hrest := settles_unique hmembers hvalues hvalues'
    split at hvalue <;> rename_i hlast <;> rw [hlast] at hvalue'
    · rw [hvalue, hvalue', hrest]
    · rw [Except.ok.inj (hvalue.symm.trans hvalue'), hrest]

/-- **Every member ends up with the last entry under its wire name.** -/
theorem exists_placeMembers (judge : Ty → Tree → Except Error Datum)
    (hnodup : (members.map (·.wireName)).Nodup)
    (hreads : ∀ member ∈ members, ∀ tree ∈ valuesUnder member.wireName entries,
      ∃ datum, judge member.type tree = .ok datum) :
    ∃ values, entries.foldlM (placeMember judge members) (members.map (·.default)) = .ok values ∧
      List.Forall₂ (Settles judge entries) members values := by
  have hsteps : ∀ values : List Datum, values.length = members.length → ∀ entry ∈ entries,
      ∃ placed, placeMember judge members values entry = pure placed ∧
        placed.length = members.length ∧ ∀ place : Place members,
          placed[place.1.1]? = if entry.1.text = place.1.2.wireName
            then (judge place.1.2.type entry.2).toOption else values[place.1.1]? := by
    intro values hlength entry hentry
    refine exists_placeMember hnodup (fun member hmember hname => ?_) hlength
    exact hreads member hmember entry.2 (mem_valuesUnder.mpr ⟨entry, hentry, hname, rfl⟩)
  have hstart : (members.map (·.default)).length = members.length := List.length_map _
  obtain ⟨values, hfold, hlength, hvalues⟩ := exists_foldlM_slots
    (fun place : Place members => place.1.2.wireName)
    (fun place (values : List Datum) => values[place.1.1]?)
    (fun place tree => (judge place.1.2.type tree).toOption)
    (fun values => values.length = members.length) _ hsteps hstart
  refine ⟨values, hfold, List.forall₂_iff_get.mpr ⟨hlength.symm, fun i hi hi' => ?_⟩⟩
  have hvalue := hvalues ⟨(i, members[i]), List.getElem?_eq_getElem hi⟩
  rw [List.getElem?_eq_getElem hi'] at hvalue
  show match (valuesUnder members[i].wireName entries).getLast? with
    | none => values[i] = members[i].default
    | some tree => judge members[i].type tree = .ok values[i]
  cases hlast : (valuesUnder members[i].wireName entries).getLast? with
  | none =>
    rw [hlast, Option.map_none, Option.getD_none, List.getElem?_map, List.getElem?_eq_getElem hi]
      at hvalue
    exact Option.some.inj hvalue
  | some tree =>
    obtain ⟨datum, hdatum⟩ := hreads _ (List.getElem_mem hi) tree (List.mem_of_getLast? hlast)
    rw [hlast, Option.map_some, Option.getD_some, hdatum] at hvalue
    exact hdatum.trans (congrArg Except.ok (Option.some.inj hvalue).symm)

/-- Where the members can be read, they see only the values under their wire names. -/
theorem placeMembers_rearranged {others : List (SizedText 2 × Tree)}
    (judge : Ty → Tree → Except Error Datum) (hnodup : (members.map (·.wireName)).Nodup)
    (hreads : ∀ member ∈ members, ∀ tree ∈ valuesUnder member.wireName entries,
      ∃ datum, judge member.type tree = .ok datum)
    (h : Rearranged (members.map (·.wireName)) entries others) :
    others.foldlM (placeMember judge members) (members.map (·.default)) =
      entries.foldlM (placeMember judge members) (members.map (·.default)) := by
  have hsame : ∀ member ∈ members,
      valuesUnder member.wireName entries = valuesUnder member.wireName others :=
    fun member hmember => h.valuesUnder_eq (List.mem_map_of_mem hmember)
  obtain ⟨values, hfold, hvalues⟩ := exists_placeMembers judge hnodup hreads
  obtain ⟨values', hfold', hvalues'⟩ := exists_placeMembers judge hnodup
    fun member hmember tree htree => hreads member hmember tree (by rwa [hsame member hmember])
  rw [hfold, hfold', settles_unique hsame hvalues hvalues']

/-- **A model is decoded as its members are placed**, whatever ends the stream. -/
theorem decode_object {tail : Bytes} (hrule : table.rule? type = some (.members members))
    (hdepth : (Tree.object entries).depth ≤ maxDepth) (htail : EndsStream tail) :
    Adapter.decode ⟨table, type⟩ ((Tree.object entries).bytes ++ tail) =
      (entries.foldlM (placeMember (fun type tree => Adapter.decode ⟨table, type⟩ tree.bytes)
        members) (members.map (·.default))).map .record := by
  refine decode_of_readsAs (readsAs_members hrule fun type entry hentry => ?_) hdepth htail
  have hpart : entry.2 ∈ (Tree.object entries).parts := List.mem_map_of_mem hentry
  exact readsAs_readWithin table entry.2 type
    (Nat.lt_of_lt_of_le (Tree.depth_lt_of_mem_parts hpart) hdepth)

end Table

/-! ## 2. Resolved models -/

namespace Registry

variable {catalog : Catalog} {factories : List Factory} {registry : Registry} {name : String}
  {members : List Member}

theorem Derivation.of_members {asked : List Ty} {rule : Rule}
    (h : Derivation catalog factories (.model name) asked rule) (hrule : rule = .members members) :
    catalog.lookup name = some members ∧ sharedName? name members = none := by
  cases h with
  | own hfaultless =>
    simp only [Ty.rule] at hrule
    simp only [Ty.fault?] at hfaultless
    cases hfound : catalog.lookup name with
    | none =>
      rw [hfound] at hrule
      cases hrule
    | some found =>
      rw [hfound] at hrule hfaultless
      cases hrule
      exact ⟨rfl, hfaultless⟩
  | exact => cases hrule
  | through => cases hrule

/-- The members of a resolved model are those declared, and differ in their wire names. -/
theorem Coherent.members_of_model {vain : Factory → Bool} (hcoherent : registry.Coherent vain)
    (hrule : registry.cache.rule? (.model name) = some (.members members)) :
    registry.catalog.lookup name = some members ∧ (members.map (·.wireName)).Nodup := by
  obtain ⟨before, after, hsplit, -⟩ := List.lookup_eq_some_iff.mp hrule
  have hentry : (Ty.model name, Rule.members members) ∈ registry.cache ++ [] := by
    rw [hsplit]
    simp
  obtain ⟨asked, hderived, -, -⟩ := hcoherent.hangs _ hentry
  obtain ⟨hfound, hnames⟩ := hderived.of_members rfl
  exact ⟨hfound, sharedName?_eq_none_iff.mp hnames⟩

/-- **A model is decoded by the last entry of each of its members**: to what the member's adapter
reads of that entry alone, or to the member's default if there is none.  The object may be rearranged
as far as it says the same under the members' wire names. -/
theorem decode_model {earlier : List Ty} {entries : List (SizedText 2 × Tree)}
    (hresolve : ((new catalog factories).resolveAll earlier).resolve (.model name) = .ok registry)
    (hrule : registry.cache.rule? (.model name) = some (.members members))
    (hdepth : (Tree.object entries).depth ≤ 512)
    (hreads : ∀ member ∈ members, ∀ tree ∈ valuesUnder member.wireName entries,
      ∃ datum, (registry.adapter member.type).decode tree.bytes = .ok datum) :
    catalog.lookup name = some members ∧ ∃ values,
      List.Forall₂ (fun member value =>
        match (valuesUnder member.wireName entries).getLast? with
        | none => value = member.default
        | some tree => (registry.adapter member.type).decode tree.bytes = .ok value)
        members values ∧
      (∀ tail, EndsStream tail →
        (registry.adapter (.model name)).decode ((Tree.object entries).bytes ++ tail) =
          .ok (.record values)) ∧
      ∀ others tail, Rearranged (members.map (·.wireName)) entries others →
        (Tree.object others).depth ≤ 512 → EndsStream tail →
        (registry.adapter (.model name)).decode ((Tree.object others).bytes ++ tail) =
          .ok (.record values) := by
  obtain ⟨hcoherent, cache, hcache⟩ :=
    coherent_resolveAll earlier (coherent_new catalog factories fun _ => false)
  obtain ⟨hfound, hnodup⟩ := (hcoherent.resolve hresolve).members_of_model hrule
  have hcatalog : registry.catalog = catalog := by
    obtain ⟨more, rfl, -, -⟩ := hcoherent.resolve_adds hresolve
    rw [hcache]
    rfl
  obtain ⟨values, hfold, hvalues⟩ := Table.exists_placeMembers
    (fun type tree => (registry.adapter type).decode tree.bytes) hnodup hreads
  have hothers : ∀ others tail, Rearranged (members.map (·.wireName)) entries others →
      (Tree.object others).depth ≤ 512 → EndsStream tail →
      (registry.adapter (.model name)).decode ((Tree.object others).bytes ++ tail) =
        .ok (.record values) := by
    intro others tail hsame hdepth htail
    have hdecode := Table.decode_object hrule hdepth htail
    have hplaced := Table.placeMembers_rearranged
      (fun type tree => (registry.adapter type).decode tree.bytes) hnodup hreads hsame
    exact hdecode.trans (congrArg (Except.map Datum.record) (hplaced.trans hfold))
  exact ⟨hcatalog ▸ hfound, values, hvalues, fun tail => hothers entries tail (.refl _) hdepth,
    hothers⟩

/-- A link with two labels, a next link and an entry of no member. -/
def labelledTwice : List (SizedText 2 × Tree) :=
  [(⟨"label", by decide⟩, .string ⟨"first", by decide⟩), (⟨"extra", by decide⟩, .array []),
    (⟨"label", by decide⟩, .string ⟨"second", by decide⟩), (⟨"nextLink", by decide⟩, .object [])]

/-- The second label stands and the missing point in time is the default, with or without the extra
entry and wherever the next link is. -/
theorem decode_model_chain : ∃ registry,
    ((new chain []).resolveAll [.list .bool]).resolve (.model "Chain") = .ok registry ∧
      (registry.adapter (.model "Chain")).decode
          ((Tree.object labelledTwice).bytes ++ [0x00, 0xff]) =
        .ok (.record [.some (.string "second"), .instant 0,
          .some (.record [.some (.string "none"), .instant 0, .none])]) ∧
      (registry.adapter (.model "Chain")).decode
          (Tree.object [(⟨"label", by decide⟩, .string ⟨"first", by decide⟩),
            (⟨"nextLink", by decide⟩, .object []),
            (⟨"label", by decide⟩, .string ⟨"second", by decide⟩)]).bytes =
        .ok (.record [.some (.string "second"), .instant 0,
          .some (.record [.some (.string "none"), .instant 0, .none])]) := by
  refine ⟨_, rfl, ?_⟩
  obtain ⟨-, values, hvalues, hdecode, hothers⟩ :=
    @decode_model chain [] _ "Chain" _ [.list .bool] labelledTwice rfl rfl (by decide) (by
      refine List.forall_mem_cons.mpr ⟨?_, List.forall_mem_cons.mpr ⟨?_, ?_⟩⟩
      · exact List.forall_mem_cons.mpr ⟨⟨_, rfl⟩, List.forall_mem_singleton.mpr ⟨_, rfl⟩⟩
      · exact fun _ h => absurd h List.not_mem_nil
      · exact List.forall_mem_singleton.mpr (List.forall_mem_singleton.mpr ⟨_, rfl⟩))
  have hsame : Rearranged ["label", "since", "nextLink"] labelledTwice
      [(⟨"label", by decide⟩, .string ⟨"first", by decide⟩),
        (⟨"nextLink", by decide⟩, .object []),
        (⟨"label", by decide⟩, .string ⟨"second", by decide⟩)] :=
    (Rearranged.insert [_] _ (by decide)).symm.trans (.swap [_] [] (by decide))
  have hlink := hothers _ [] hsame (by decide) (.inl rfl)
  rw [List.append_nil] at hlink
  obtain _ | ⟨hlabel, _ | ⟨hsince, _ | ⟨hnext, ⟨⟩⟩⟩⟩ := hvalues
  cases hlabel
  cases hsince
  cases hnext
  exact ⟨hdecode _ (.inr ⟨_, rfl⟩), hlink⟩

end Registry

end RemoteCall
