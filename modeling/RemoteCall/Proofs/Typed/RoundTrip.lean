/-
# Declared types survive the wire

A value of a declared type that can be encoded is decoded again as its `norm`.  The types may be
models that refer to themselves and each other, and the registry may have resolved anything before
and in between; there are no factories in it.

Encoding writes the tree of the value and decoding reads what the tree means, so what is left is
that the tree of a value means its norm (`datum_of_tree?`).  That is an induction on the value.  A
record is where it is not plain: the entries that are read are put in their members' places among
the defaults, and the places are right because no two members share a wire name.
-/
import RemoteCall.Proofs.Typed.Instants
import RemoteCall.Proofs.Typed.Reading
import RemoteCall.Proofs.Typed.Writing

namespace RemoteCall

open Wire Success

/-! ## 1. The members of a record -/

namespace Table

variable {catalog : Catalog} {table : Table}

/-- The place of a member among members that share no wire names. -/
theorem findIdx?_wireName {before after : List Member} {member : Member}
    (hnodup : ((before ++ member :: after).map (·.wireName)).Nodup) :
    (before ++ member :: after).findIdx? (·.wireName == member.wireName) = some before.length := by
  have hbefore : before.findIdx? (·.wireName == member.wireName) = none := by
    refine List.findIdx?_eq_none_iff.mpr fun other hother => ?_
    rw [List.map_append, List.nodup_append] at hnodup
    have := hnodup.2.2 other.wireName (List.mem_map_of_mem hother) member.wireName (by simp)
    simpa using this
  rw [List.findIdx?_append, hbefore, List.findIdx?_cons]
  simp

/-- **An entry under the wire name of the next member** sets that member's value. -/
theorem setMember?_next {inside : Ty → Tree → Option Datum} {before members : List Member}
    {member : Member} {done rest : List Datum} {old value : Datum} {tree : Tree}
    (hnodup : ((before ++ member :: members).map (·.wireName)).Nodup)
    (hdone : done.length = before.length) (hvalue : inside member.type tree = some value) :
    Ty.setMember? inside (before ++ member :: members) (done ++ old :: rest) member.wireName tree =
      some (done ++ value :: rest) := by
  rw [Ty.setMember?, findIdx?_wireName hnodup]
  simp [← hdone, hvalue]

/-! ## 2. What the tree of a value means -/

mutual

/-- **The tree of a value means its norm.** -/
theorem datum_of_tree? (hclosed : table.Closed catalog) : ∀ (datum : Datum) {type : Ty}
    {tree : Tree} {n : Nat}, Registry.knows table type = true → HasType catalog datum type →
    (∀ t ∈ datum.instants, Instant.Near t) →
    datum.tree? catalog type = some tree → tree.depth ≤ n →
    type.datumWithin? catalog (n + 1) tree = some (datum.norm catalog type)
  | .integer n, type, _, _, _, htype, _, htree, _ => by
    cases htype with
    | integer hfits =>
      obtain ⟨word, hword, rfl⟩ := Option.map_eq_some_iff.mp htree
      have hint := Value.toInt_of_toInt64? hword
      rw [Ty.datumWithin?, Ty.datumWith?, Datum.norm]
      · simp only [Tree.number?, Option.bind_some, hint, hfits, if_true]
      all_goals simp
  | .bool b, type, _, _, _, htype, _, htree, _ => by
    cases htype
    cases htree
    rfl
  | .string text, type, _, _, _, htype, _, htree, _ => by
    cases htype
    obtain ⟨sized, hsized, rfl⟩ := Option.map_eq_some_iff.mp htree
    obtain rfl := SizedText.of?_eq_some_iff.mp hsized
    rfl
  | .unit, type, _, _, _, _, _, htree, _ => by cases htree
  | .instant nanoseconds, type, _, _, _, htype, hnear, htree, _ => by
    cases htype
    obtain ⟨seconds, hseconds, rfl⟩ := Option.map_eq_some_iff.mp htree
    have hnear := hnear nanoseconds (List.mem_singleton_self _)
    have hread := Instant.ofSeconds_toSeconds hnear hseconds
    rw [Ty.datumWithin?, Ty.datumWith?, Datum.norm, Tree.number?, Option.bind_some, hread]
    rfl
  | .value generic, type, _, _, _, htype, _, htree, _ => by
    cases htype with
    | value hordered =>
      have hvalue := Value.value_of_tree? hordered htree
      rw [Ty.datumWithin?, Ty.datumWith?, Datum.norm, hvalue]
  | .none, type, _, _, _, _, _, htree, _ => by cases htree
  | .some datum, type, tree, n, hknown, htype, hnear, htree, hdepth => by
    cases htype with
    | some hdatum =>
      have ih := datum_of_tree? hclosed datum (hclosed.inner hknown) hdatum hnear htree hdepth
      rw [Ty.datumWithin?] at ih
      rw [Ty.datumWithin?, Ty.datumWith?, ih, Datum.norm]
      rfl
  | .list items, type, tree, n, hknown, htype, hnear, htree, hdepth => by
    cases htype with
    | list hitems =>
      have helement := hclosed.listElement hknown
      obtain ⟨trees, htrees, rfl⟩ := Option.map_eq_some_iff.mp htree
      cases n with
      | zero => exact absurd hdepth (Nat.not_succ_le_zero _)
      | succ n =>
        have hdepth := Tree.itemsDepth_le_iff.mp (Nat.le_of_succ_le_succ hdepth)
        rw [Ty.datumWithin?, Ty.datumWith?, Datum.norm, Tree.items?, Option.bind_some,
          data_of_itemTrees? hclosed items helement hitems hnear htrees hdepth]
        rfl
  | .map entries, type, tree, n, hknown, htype, hnear, htree, hdepth => by
    obtain ⟨kind, element, rfl⟩ : ∃ kind element, type = .map kind element := by
      cases htype <;> exact ⟨_, _, rfl⟩
    have helement := hclosed.mapElement hknown
    obtain ⟨trees, htrees, rfl⟩ := Option.map_eq_some_iff.mp htree
    cases n with
    | zero => exact absurd hdepth (Nat.not_succ_le_zero _)
    | succ n =>
      have hdepth := Tree.entriesDepth_le_iff.mp (Nat.le_of_succ_le_succ hdepth)
      rw [Ty.datumWithin?, Ty.datumWith?, Tree.entries?, Option.bind_some]
      cases htype with
      | sorted hordered hentries =>
        -- the names are in order already, so putting the entries in one by one changes nothing
        have hsame := Fields.ofList_of_ordered
          (hordered.of_sublist (Datum.names_normEntries catalog entries element))
        rw [data_of_entryTrees? hclosed entries [] helement hentries hnear htrees hdepth,
          Datum.norm, Option.map_some]
        exact congrArg (fun entries => some (Datum.map entries)) hsame
      | hashed hdistinct hentries =>
        rw [data_of_entryTrees? hclosed entries [] helement hentries hnear htrees hdepth,
          Datum.norm, Option.map_some]
        rfl
  | .record values, type, tree, n, hknown, htype, hnear, htree, hdepth => by
    cases htype with
    | record hfound hvalues =>
      obtain ⟨-, hnames, hmembers⟩ := hclosed.model hknown hfound
      obtain ⟨trees, htrees, rfl⟩ := Option.map_eq_some_iff.mp htree
      rw [hfound] at htrees
      cases n with
      | zero => exact absurd hdepth (Nat.not_succ_le_zero _)
      | succ n =>
        have hdepth := Tree.entriesDepth_le_iff.mp (Nat.le_of_succ_le_succ hdepth)
        have hrecord := data_of_memberTrees? hclosed values [] [] hnames rfl hmembers hvalues hnear
          htrees hdepth
        rw [Ty.datumWithin?, Ty.datumWith?, Datum.norm, hfound, Option.bind_some, Tree.entries?,
          Option.bind_some]
        exact congrArg (Option.map Datum.record) hrecord

theorem data_of_itemTrees? (hclosed : table.Closed catalog) : ∀ (items : List Datum) {element : Ty}
    {trees : List Tree} {n : Nat}, Registry.knows table element = true →
    (∀ item ∈ items, HasType catalog item element) →
    (∀ t ∈ Datum.itemInstants items, Instant.Near t) →
    Datum.itemTrees? catalog items element = some trees → (∀ tree ∈ trees, tree.depth ≤ n) →
    trees.mapM (element.datumWithin? catalog (n + 1)) = some (Datum.normItems catalog items element)
  | [], _, _, _, _, _, _, htrees, _ => by
    cases htrees
    rfl
  | item :: items, element, _, n, hknown, htypes, hnear, htrees, hdepth => by
    obtain ⟨htype, htypes⟩ := List.forall_mem_cons.mp htypes
    obtain ⟨hitem, hitems⟩ := List.forall_mem_append.mp hnear
    unfold Datum.itemTrees? at htrees
    split at htrees
    · cases htrees
    · obtain ⟨tree, htree, htrees⟩ := Option.bind_eq_some_iff.mp htrees
      obtain ⟨others, hothers, rfl⟩ := Option.map_eq_some_iff.mp htrees
      obtain ⟨hfirst, hrest⟩ := List.forall_mem_cons.mp hdepth
      rw [List.mapM_cons, datum_of_tree? hclosed item hknown htype hitem htree hfirst,
        data_of_itemTrees? hclosed items hknown htypes hitems hothers hrest]
      rfl

theorem data_of_entryTrees? (hclosed : table.Closed catalog) :
    ∀ (entries : List (String × Datum)) {element : Ty} {trees : List (SizedText 2 × Tree)} {n : Nat}
    (fields : Fields Datum), Registry.knows table element = true →
    (∀ entry ∈ entries, HasType catalog entry.2 element) →
    (∀ t ∈ Datum.entryInstants entries, Instant.Near t) →
    Datum.entryTrees? catalog entries element = some trees → (∀ entry ∈ trees, entry.2.depth ≤ n) →
    trees.foldlM (fun (fields : Fields Datum) entry =>
        (element.datumWithin? catalog (n + 1) entry.2).map fun datum =>
          fields.insert entry.1.text datum) fields =
      some ((Datum.normEntries catalog entries element).foldl
        (fun fields entry => fields.insert entry.1 entry.2) fields)
  | [], _, _, _, _, _, _, _, htrees, _ => by
    cases htrees
    rfl
  | (name, datum) :: entries, element, _, n, fields, hknown, htypes, hnear, htrees, hdepth => by
    obtain ⟨htype, htypes⟩ := List.forall_mem_cons.mp htypes
    obtain ⟨hdatum, hentries⟩ := List.forall_mem_append.mp hnear
    unfold Datum.entryTrees? at htrees
    unfold Datum.normEntries
    split at htrees
    · rename_i habsent
      rw [if_pos habsent]
      exact data_of_entryTrees? hclosed entries fields hknown htypes hentries htrees hdepth
    · rename_i habsent
      obtain ⟨sized, hsized, htrees⟩ := Option.bind_eq_some_iff.mp htrees
      obtain ⟨tree, htree, htrees⟩ := Option.bind_eq_some_iff.mp htrees
      obtain ⟨others, hothers, rfl⟩ := Option.map_eq_some_iff.mp htrees
      obtain ⟨hfirst, hrest⟩ := List.forall_mem_cons.mp hdepth
      rw [if_neg habsent, List.foldlM_cons, List.foldl_cons, SizedText.of?_eq_some_iff.mp hsized,
        datum_of_tree? hclosed datum hknown htype hdatum htree hfirst]
      exact data_of_entryTrees? hclosed entries _ hknown htypes hentries hothers hrest

/-- The members before `values` have been read; those after are at their defaults still. -/
theorem data_of_memberTrees? (hclosed : table.Closed catalog) : ∀ (values : List Datum)
    (before : List Member) {members : List Member} (done : List Datum)
    {trees : List (SizedText 2 × Tree)} {n : Nat},
    ((before ++ members).map (·.wireName)).Nodup → done.length = before.length →
    (∀ member ∈ members, Registry.knows table member.type = true) →
    List.Forall₂ (fun value member => HasType catalog value member.type) values members →
    (∀ t ∈ Datum.itemInstants values, Instant.Near t) →
    Datum.memberTrees? catalog values members = some trees → (∀ entry ∈ trees, entry.2.depth ≤ n) →
    trees.foldlM (fun values entry => Ty.setMember? (Ty.datumWithin? catalog (n + 1))
        (before ++ members) values entry.1.text entry.2) (done ++ members.map (·.default)) =
      some (done ++ Datum.normMembers catalog values members)
  | [], _, _, _, _, _, _, _, _, .nil, _, htrees, _ => by
    rw [Datum.memberTrees?] at htrees
    · cases htrees
      rfl
    all_goals simp
  | datum :: values, before, member :: members, done, _, n, hnodup, hdone, hknown,
      .cons htype htypes, hnear, htrees, hdepth => by
    obtain ⟨hmember, hmembers⟩ := List.forall_mem_cons.mp hknown
    obtain ⟨hdatum, hvalues⟩ := List.forall_mem_append.mp hnear
    have hshift : before ++ member :: members = (before ++ [member]) ++ members := by simp
    -- once the member has its value, it is one of those before
    have hnext : ∀ (value : Datum) {trees : List (SizedText 2 × Tree)},
        Datum.memberTrees? catalog values members = some trees →
        (∀ entry ∈ trees, entry.2.depth ≤ n) →
        trees.foldlM (fun values entry => Ty.setMember? (Ty.datumWithin? catalog (n + 1))
            (before ++ member :: members) values entry.1.text entry.2)
            (done ++ value :: members.map (·.default)) =
          some (done ++ value :: Datum.normMembers catalog values members) := by
      intro value trees htrees hdepth
      have hrest := data_of_memberTrees? hclosed values (before ++ [member]) (done ++ [value])
        (hshift ▸ hnodup) (by simp [hdone]) hmembers htypes hvalues htrees hdepth
      simpa using hrest
    unfold Datum.memberTrees? at htrees
    unfold Datum.normMembers
    split at htrees
    · rename_i habsent
      rw [if_pos habsent]
      exact hnext _ htrees hdepth
    · rename_i habsent
      obtain ⟨sized, hsized, htrees⟩ := Option.bind_eq_some_iff.mp htrees
      obtain ⟨tree, htree, htrees⟩ := Option.bind_eq_some_iff.mp htrees
      obtain ⟨others, hothers, rfl⟩ := Option.map_eq_some_iff.mp htrees
      obtain ⟨hfirst, hrest⟩ := List.forall_mem_cons.mp hdepth
      have hvalue := datum_of_tree? hclosed datum hmember htype hdatum htree hfirst
      rw [if_neg habsent, List.foldlM_cons, List.map_cons, SizedText.of?_eq_some_iff.mp hsized,
        setMember?_next hnodup hdone hvalue]
      exact hnext _ hothers hrest

end

end Table

/-! ## 3. Whole streams -/

namespace Registry

variable {catalog : Catalog} {registry : Registry} {type : Ty} {datum : Datum} {bytes : Bytes}

theorem encode_ok : registry.encode type datum = .ok bytes ↔
    ∃ next, registry.resolve type = .ok next ∧ (next.adapter type).encode datum = .ok bytes := by
  unfold encode adapter?
  cases registry.resolve type with
  | error fault =>
    constructor
    · intro h
      cases h
    · rintro ⟨_, h, -⟩
      cases h
  | ok next =>
    constructor
    · intro h
      exact ⟨next, rfl, h⟩
    · rintro ⟨_, h, hencode⟩
      cases h
      exact hencode

theorem decode_ok : registry.decode type bytes = .ok datum ↔
    ∃ next, registry.resolve type = .ok next ∧ (next.adapter type).decode bytes = .ok datum := by
  unfold decode adapter?
  cases registry.resolve type with
  | error fault =>
    constructor
    · intro h
      cases h
    · rintro ⟨_, h, -⟩
      cases h
  | ok next =>
    constructor
    · intro h
      exact ⟨next, rfl, h⟩
    · rintro ⟨_, h, hdecode⟩
      cases h
      exact hdecode

/-- A resolved type is decoded by its adapter. -/
theorem decode_of_knows (h : knows registry.cache type = true) :
    registry.decode type bytes = (registry.adapter type).decode bytes := by
  unfold decode adapter?
  rw [resolve_of_knows h]
  rfl

/-- **A value that is encoded is decoded as its norm**, whatever has been resolved before and in
between, if its points in time are near enough. -/
theorem encode_roundTrip (earlier later : List Ty) (htype : HasType catalog datum type)
    (hnear : ∀ t ∈ datum.instants, (t.tdiv Instant.nanosPerSecond).natAbs ≤ Instant.farthest)
    (h : ((new catalog []).resolveAll earlier).encode type datum = .ok bytes) :
    ((new catalog []).resolveAll (earlier ++ type :: later)).decode type bytes =
      .ok (datum.norm catalog type) := by
  obtain ⟨cache, hbefore, hcache⟩ := resolveAll_new catalog earlier
  rw [resolveAll_append, hbefore]
  rw [hbefore] at h
  obtain ⟨next, hresolve, hencode⟩ := encode_ok.mp h
  obtain ⟨more, rfl, hknown, hclosed⟩ := resolve_ok rfl hcache hresolve
  obtain ⟨hlater, hstill⟩ := resolveAll_cons_ok later rfl hcache hresolve
  have hwrite := Table.writes_write hclosed datum [] hknown htype
  obtain ⟨_, htrees, hdepth, rfl⟩ := (Writer.toBytes_eq_ok_iff (hwrite.item (by simp))).mp hencode
  obtain ⟨tree, htree, rfl⟩ := Option.map_eq_some_iff.mp htrees
  have hfits := List.forall_mem_singleton.mp hdepth
  have hdatum := Table.datum_of_tree? hclosed datum hknown htype hnear htree hfits
  rw [decode_of_knows hstill, List.flatMap_singleton]
  exact Table.decode_stream hlater hstill hfits hdatum []

/-- A model that refers to itself, with a label that has a default. -/
def chain : Catalog :=
  [("Chain", [⟨"label", "label", .option .string, .some (.string "none")⟩,
    ⟨"since", "since", .instant, .instant 0⟩,
    ⟨"next", "nextLink", .option (.model "Chain"), .none⟩])]

/-- Two links.  The missing label comes back as its default, and half a second before the epoch is
cut off. -/
theorem encode_roundTrip_chain :
    ∃ bytes, ((new chain []).resolveAll [.list .bool]).encode (.model "Chain")
        (.record [.none, .instant (-1500000000),
          .some (.record [.some (.string "end"), .instant 0, .none])]) = .ok bytes ∧
      ((new chain []).resolveAll [.list .bool, .model "Chain", .value]).decode (.model "Chain")
        bytes = .ok (.record [.some (.string "none"), .instant (-1000000000),
          .some (.record [.some (.string "end"), .instant 0, .none])]) := by
  have hlink : HasType chain (.record [.some (.string "end"), .instant 0, .none])
      (.model "Chain") :=
    .record rfl (.cons (.some (.string "end")) (.cons (.instant 0) (.cons (.none _) .nil)))
  have htype : HasType chain (.record [.none, .instant (-1500000000),
      .some (.record [.some (.string "end"), .instant 0, .none])]) (.model "Chain") :=
    .record rfl (.cons (.none _) (.cons (.instant _) (.cons (.some hlink) .nil)))
  exact ⟨_, rfl, encode_roundTrip [.list .bool] [.value] htype (by decide) rfl⟩

end Registry

end RemoteCall
