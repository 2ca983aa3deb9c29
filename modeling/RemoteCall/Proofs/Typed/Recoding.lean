/-
# What was decoded stays decoded

A peer may send a model with entries in any order, twice, missing or unknown.  Whatever of it is
decoded can be encoded again, and comes back as it was (`Registry.decoded_stays`).  The bytes need
not be the same.

A datum is `Kept` if it has a tree and this tree is read as the datum.  All that is read is kept
(`kept_of_datumWithin?`), by induction on what has been read: an integer has been found in its
range, a text has a size that fits, and a list has no absent element since nothing that is read is
absent.  The only parts that were not read are the defaults of missing members.  So these have to be
absent, and then the members are missing again, or kept themselves, which is what their own round
trip says (`Member.Stable.keeps`).

Defaults also make the one gap.  What was read fits the nesting limit, but a default that fills in
for a missing member may reach beyond it.  Reading goes by a budget that shrinks with the nesting,
and a tree means the same for any budget beyond its depth (`Ty.datumWithin?_of_depth_le`).  So a
default that was read back at the top is read back wherever it fits.
-/
import Mathlib.Data.List.Forall2
import RemoteCall.Proofs.Typed.Generic
import RemoteCall.Proofs.Typed.Graph
import RemoteCall.Proofs.Typed.Members
import RemoteCall.Proofs.Typed.TreeWriting
import RemoteCall.Proofs.Value.Canonical

namespace RemoteCall

open Wire Success

variable {catalog : Catalog} {type : Ty} {datum : Datum}

/-! ## 1. Budgets beyond the depth -/

theorem foldlM_congr {α β : Type} {f g : β → α → Option β} : ∀ {entries : List α} (start : β),
    (∀ entry ∈ entries, ∀ b, f b entry = g b entry) →
    entries.foldlM f start = entries.foldlM g start
  | [], _, _ => rfl
  | entry :: entries, start, h => by
    obtain ⟨hentry, hentries⟩ := List.forall_mem_cons.mp h
    rw [List.foldlM_cons, List.foldlM_cons, hentry start]
    exact bind_congr fun b => foldlM_congr b hentries

theorem mapM_congr {α β : Type} {f g : α → Option β} : ∀ {items : List α},
    (∀ item ∈ items, f item = g item) → items.mapM f = items.mapM g
  | [], _ => rfl
  | item :: items, h => by
    obtain ⟨hitem, hitems⟩ := List.forall_mem_cons.mp h
    rw [List.mapM_cons, List.mapM_cons, hitem, mapM_congr hitems]

namespace Ty

/-- What a tree is read as depends on what its parts are read as. -/
theorem datumWith?_congr {inside inside' : Ty → Tree → Option Datum} {tree : Tree}
    (h : ∀ part ∈ tree.parts, ∀ type, inside type part = inside' type part) : ∀ type : Ty,
    datumWith? catalog inside type tree = datumWith? catalog inside' type tree
  | .option inner => by
    rw [datumWith?, datumWith?, datumWith?_congr h inner]
  | .list element => by
    cases tree with
    | array items =>
      simp only [datumWith?, Tree.items?, Option.bind_some]
      exact congrArg (Option.map Datum.list) (mapM_congr fun item hitem => h item hitem element)
    | _ => rfl
  | .map kind element => by
    cases tree with
    | object entries =>
      simp only [datumWith?, Tree.entries?, Option.bind_some]
      refine congrArg (Option.map Datum.map) (foldlM_congr _ fun entry hentry fields => ?_)
      rw [h entry.2 (List.mem_map_of_mem hentry) element]
    | _ => rfl
  | .model name => by
    cases tree with
    | object entries =>
      simp only [datumWith?, Tree.entries?, Option.bind_some]
      refine Option.bind_congr fun members _ => ?_
      refine congrArg (Option.map Datum.record) (foldlM_congr _ fun entry hentry values => ?_)
      simp only [setMember?, h entry.2 (List.mem_map_of_mem hentry)]
    | _ => rfl
  | .integer _ | .bool | .string | .unit | .instant | .value | .foreign _ | .refusing _ _ => rfl

/-- **A budget beyond the depth of a tree makes no difference.** -/
theorem datumWithin?_of_depth_le : ∀ {m n : Nat} {type : Ty} {tree : Tree},
    tree.depth ≤ m → tree.depth ≤ n →
    type.datumWithin? catalog (m + 1) tree = type.datumWithin? catalog (n + 1) tree := by
  intro m
  induction m with
  | zero =>
    intro n type tree hm hn
    refine datumWith?_congr (fun part hpart _ => ?_) type
    exact absurd (Nat.lt_of_lt_of_le (Tree.depth_lt_of_mem_parts hpart) hm) (Nat.not_lt_zero _)
  | succ m ih =>
    intro n type tree hm hn
    refine datumWith?_congr (fun part hpart type => ?_) type
    have hlt := Tree.depth_lt_of_mem_parts hpart
    cases n with
    | zero => exact absurd (Nat.lt_of_lt_of_le hlt hn) (Nat.not_lt_zero _)
    | succ n => exact ih (by omega) (by omega)

end Ty

/-! ## 2. Data that come back -/

/-- The datum has a tree, and the tree is read as the datum. -/
structure Datum.Kept (catalog : Catalog) (datum : Datum) (type : Ty) : Prop where
  typed : HasType catalog datum type
  comes_back : ∃ tree, datum.tree? catalog type = Option.some tree ∧
    ∀ n, tree.depth ≤ n → type.datumWithin? catalog (n + 1) tree = Option.some datum

namespace Datum.Kept

/-- Missing data has no tree. -/
theorem present (h : datum.Kept catalog type) : datum.isAbsent = false := by
  obtain ⟨tree, htree, -⟩ := h.comes_back
  cases habsent : datum.isAbsent with
  | false => rfl
  | true => cases (tree?_of_isAbsent h.typed habsent).symm.trans htree

theorem integer {width : IntWidth} {n : Int64} (hfits : width.contains n.toInt = true) :
    (Datum.integer n.toInt).Kept catalog (.integer width) where
  typed := .integer hfits
  comes_back := by
    refine ⟨.number n, by rw [tree?, Value.toInt64?_toInt]; rfl, fun _ _ => ?_⟩
    rw [Ty.datumWithin?, Ty.datumWith?, Tree.number?, Option.bind_some, if_pos hfits]

theorem bool (b : Bool) : (Datum.bool b).Kept catalog .bool where
  typed := .bool b
  comes_back := ⟨.boolean b, rfl, fun _ _ => rfl⟩

theorem string (text : SizedText 4) : (Datum.string text.text).Kept catalog .string where
  typed := .string _
  comes_back := ⟨.string text, by rw [tree?, Tree.of?_text]; rfl, fun _ _ => rfl⟩

theorem instant {seconds : Int64} {nanoseconds : Int}
    (h : Instant.ofSeconds seconds = .ok nanoseconds) :
    (Datum.instant nanoseconds).Kept catalog .instant where
  typed := .instant _
  comes_back := by
    refine ⟨.number seconds, by rw [tree?, Instant.toSeconds_of_ofSeconds h]; rfl, fun _ _ => ?_⟩
    rw [Ty.datumWithin?, Ty.datumWith?, Tree.number?, Option.bind_some, h]
    rfl

/-- A generic value that was read has no null to lose. -/
theorem value (tree : Tree) : (Datum.value tree.value).Kept catalog .value where
  typed := .value (Value.ordered_value tree)
  comes_back := by
    obtain ⟨kept, hkept⟩ := (Value.exists_tree?_iff tree.value).mpr (Value.writable_value tree)
    have hvalue := Value.value_of_tree? (Value.ordered_value tree) hkept
    rw [Value.strip_value] at hvalue
    refine ⟨kept, hkept, fun _ _ => ?_⟩
    rw [Ty.datumWithin?, Ty.datumWith?, hvalue]

theorem some {inner : Ty} (h : datum.Kept catalog inner) :
    (Datum.some datum).Kept catalog (.option inner) where
  typed := .some h.typed
  comes_back := by
    obtain ⟨tree, htree, hback⟩ := h.comes_back
    refine ⟨tree, by rw [tree?, htree], fun n hdepth => ?_⟩
    have hback := hback n hdepth
    rw [Ty.datumWithin?] at hback
    rw [Ty.datumWithin?, Ty.datumWith?, hback]
    rfl

theorem exists_itemTrees {element : Ty} : ∀ {items : List Datum},
    (∀ item ∈ items, item.Kept catalog element) →
    ∃ trees, itemTrees? catalog items element = Option.some trees ∧
      ∀ n, (∀ tree ∈ trees, tree.depth ≤ n) →
        trees.mapM (element.datumWithin? catalog (n + 1)) = Option.some items
  | [], _ => ⟨[], rfl, fun _ _ => rfl⟩
  | item :: items, h => by
    obtain ⟨hitem, hitems⟩ := List.forall_mem_cons.mp h
    obtain ⟨tree, htree, hback⟩ := hitem.comes_back
    obtain ⟨trees, htrees, hrest⟩ := exists_itemTrees hitems
    refine ⟨tree :: trees, ?_, fun n hdepth => ?_⟩
    · rw [itemTrees?, hitem.present, htree, htrees]
      rfl
    · obtain ⟨hfirst, hdepth⟩ := List.forall_mem_cons.mp hdepth
      rw [List.mapM_cons, hback n hfirst, hrest n hdepth]
      rfl

theorem list {element : Ty} {items : List Datum} (h : ∀ item ∈ items, item.Kept catalog element) :
    (Datum.list items).Kept catalog (.list element) where
  typed := .list fun item hitem => (h item hitem).typed
  comes_back := by
    obtain ⟨trees, htrees, hback⟩ := exists_itemTrees h
    refine ⟨.array trees, by rw [tree?, htrees]; rfl, fun n hdepth => ?_⟩
    cases n with
    | zero => exact absurd hdepth (Nat.not_succ_le_zero _)
    | succ n =>
      have hdepth := Tree.itemsDepth_le_iff.mp (Nat.le_of_succ_le_succ hdepth)
      rw [Ty.datumWithin?, Ty.datumWith?, Tree.items?, Option.bind_some, hback n hdepth]
      rfl

/-- An entry of a map comes back under its name. -/
abbrev Entry (catalog : Catalog) (element : Ty) (entry : String × Datum) : Prop :=
  (∃ name : SizedText 2, name.text = entry.1) ∧ entry.2.Kept catalog element

theorem exists_entryTrees {element : Ty} : ∀ {entries : List (String × Datum)},
    (∀ entry ∈ entries, Entry catalog element entry) →
    ∃ trees, entryTrees? catalog entries element = Option.some trees ∧
      ∀ n (fields : Fields Datum), (∀ entry ∈ trees, entry.2.depth ≤ n) →
        trees.foldlM (fun (fields : Fields Datum) entry =>
            (element.datumWithin? catalog (n + 1) entry.2).map fun datum =>
              fields.insert entry.1.text datum) fields =
          Option.some (entries.foldl (fun fields entry => fields.insert entry.1 entry.2) fields)
  | [], _ => ⟨[], rfl, fun _ _ _ => rfl⟩
  | (_, datum) :: entries, h => by
    obtain ⟨⟨⟨name, rfl⟩, hdatum⟩, hentries⟩ := List.forall_mem_cons.mp h
    obtain ⟨tree, htree, hback⟩ := hdatum.comes_back
    obtain ⟨trees, htrees, hrest⟩ := exists_entryTrees hentries
    refine ⟨(name, tree) :: trees, ?_, fun n fields hdepth => ?_⟩
    · rw [entryTrees?, hdatum.present, Tree.of?_text, htree, htrees]
      rfl
    · obtain ⟨hfirst, hdepth⟩ := List.forall_mem_cons.mp hdepth
      rw [List.foldlM_cons, hback n hfirst]
      exact hrest n _ hdepth

theorem map {kind : MapKind} {element : Ty} {entries : List (String × Datum)}
    (hordered : Fields.Ordered entries) (h : ∀ entry ∈ entries, Entry catalog element entry) :
    (Datum.map entries).Kept catalog (.map kind element) where
  typed := by
    have htyped : ∀ entry ∈ entries, HasType catalog entry.2 element :=
      fun entry hentry => (h entry hentry).2.typed
    cases kind with
    | sorted => exact .sorted hordered htyped
    | hashed => exact .hashed ((List.pairwise_map.mpr hordered).imp ne_of_lt) htyped
  comes_back := by
    obtain ⟨trees, htrees, hback⟩ := exists_entryTrees h
    refine ⟨.object trees, by rw [tree?, htrees]; rfl, fun n hdepth => ?_⟩
    cases n with
    | zero => exact absurd hdepth (Nat.not_succ_le_zero _)
    | succ n =>
      have hdepth := Tree.entriesDepth_le_iff.mp (Nat.le_of_succ_le_succ hdepth)
      have hsame := Fields.ofList_of_ordered hordered
      rw [Ty.datumWithin?, Ty.datumWith?, Tree.entries?, Option.bind_some, hback n [] hdepth]
      exact congrArg (fun entries => Option.some (Datum.map entries)) hsame

end Datum.Kept

/-- The value of a member comes back: it is the default and absent, so that the member is missing
again, or it is kept under the member's wire name. -/
def Member.Keeps (catalog : Catalog) (value : Datum) (member : Member) : Prop :=
  (value = member.default ∧ value.isAbsent = true ∧ HasType catalog value member.type) ∨
    ((∃ name : SizedText 2, name.text = member.wireName) ∧ value.Kept catalog member.type)

theorem Member.Keeps.typed {value : Datum} {member : Member} (h : member.Keeps catalog value) :
    HasType catalog value member.type :=
  h.elim (·.2.2) (·.2.typed)

namespace Datum.Kept

/-- The members before `values` have been read; those after are at their defaults still. -/
theorem exists_memberTrees : ∀ {values : List Datum} (before : List Member) {members : List Member}
    (done : List Datum), ((before ++ members).map (·.wireName)).Nodup →
    done.length = before.length → List.Forall₂ (Member.Keeps catalog) values members →
    ∃ trees, memberTrees? catalog values members = Option.some trees ∧
      ∀ n, (∀ entry ∈ trees, entry.2.depth ≤ n) →
        trees.foldlM (fun values entry => Ty.setMember? (Ty.datumWithin? catalog (n + 1))
            (before ++ members) values entry.1.text entry.2) (done ++ members.map (·.default)) =
          Option.some (done ++ values)
  | [], _, _, done, _, _, .nil => by
    refine ⟨[], ?_, fun _ _ => rfl⟩
    rw [memberTrees?]
    all_goals simp
  | value :: values, before, member :: members, done, hnodup, hdone, .cons hvalue hvalues => by
    have hshift : before ++ member :: members = (before ++ [member]) ++ members := by simp
    obtain ⟨trees, htrees, hrest⟩ := exists_memberTrees (before ++ [member]) (done ++ [value])
      (hshift ▸ hnodup) (by simp [hdone]) hvalues
    rw [← hshift] at hrest
    simp only [List.append_assoc, List.singleton_append] at hrest
    rcases hvalue with ⟨rfl, habsent, -⟩ | ⟨⟨name, hname⟩, hkept⟩
    · refine ⟨trees, ?_, hrest⟩
      rw [memberTrees?, if_pos habsent, htrees]
    · obtain ⟨tree, htree, hback⟩ := hkept.comes_back
      refine ⟨(name, tree) :: trees, ?_, fun n hdepth => ?_⟩
      · rw [memberTrees?, hkept.present, ← hname, Tree.of?_text, htree, htrees]
        rfl
      · obtain ⟨hfirst, hdepth⟩ := List.forall_mem_cons.mp hdepth
        rw [List.foldlM_cons, List.map_cons, hname,
          Table.setMember?_next hnodup hdone (hback n hfirst)]
        exact hrest n hdepth

theorem record {name : String} {members : List Member} {values : List Datum}
    (hfound : catalog.lookup name = Option.some members)
    (hnodup : (members.map (·.wireName)).Nodup)
    (h : List.Forall₂ (Member.Keeps catalog) values members) :
    (Datum.record values).Kept catalog (.model name) where
  typed := .record hfound (h.imp fun _ _ hvalue => hvalue.typed)
  comes_back := by
    obtain ⟨trees, htrees, hback⟩ := exists_memberTrees [] [] hnodup rfl h
    refine ⟨.object trees, by rw [tree?, hfound, Option.getD_some, htrees]; rfl, fun n hdepth => ?_⟩
    cases n with
    | zero => exact absurd hdepth (Nat.not_succ_le_zero _)
    | succ n =>
      have hdepth := Tree.entriesDepth_le_iff.mp (Nat.le_of_succ_le_succ hdepth)
      rw [Ty.datumWithin?, Ty.datumWith?, hfound, Option.bind_some, Tree.entries?, Option.bind_some]
      exact congrArg (Option.map Datum.record) (hback n hdepth)

end Datum.Kept

/-! ## 3. Defaults that come back -/

/-- The default of a member is absent, or it comes back: it can be written under the member's wire
name, and what it is encoded as is decoded as the default. -/
structure Member.Stable (catalog : Catalog) (member : Member) : Prop where
  typed : HasType catalog member.default member.type
  comes_back : member.default.isAbsent = true ∨
    member.wireName.utf8ByteSize < 2 ^ 16 ∧ ∃ encoded,
      (Registry.new catalog []).encode member.type member.default = .ok encoded ∧
      (Registry.new catalog []).decode member.type encoded = .ok member.default

/-- A stable default comes back also where there is less room for nesting. -/
theorem Member.Stable.keeps {member : Member} (h : member.Stable catalog) :
    member.Keeps catalog member.default := by
  rcases h.comes_back with habsent | ⟨hname, encoded, hencode, hdecode⟩
  · exact .inl ⟨rfl, habsent, h.typed⟩
  · have hname : member.wireName.utf8ByteSize < 256 ^ 2 := hname
    obtain ⟨tree, htree, hdepth, rfl⟩ := Registry.tree_of_encode [] h.typed hencode
    obtain ⟨next, hresolve, hdecode⟩ := Registry.decode_ok.mp hdecode
    obtain ⟨more, rfl, hknown, hclosed⟩ := Registry.resolve_ok rfl
      (fun _ hentry => absurd hentry List.not_mem_nil) hresolve
    obtain ⟨other, tail, -, hother, hbytes⟩ := Table.exists_tree_of_decode hclosed hknown hdecode
    obtain ⟨rfl, -⟩ := tree.bytes_append_inj other _ _ hbytes
    exact .inr ⟨⟨⟨member.wireName, hname⟩, rfl⟩, h.typed, tree, htree,
      fun n hn => (Ty.datumWithin?_of_depth_le hn hdepth).trans hother⟩

/-- Nothing that the type leads to is the unit, and the defaults of its models are stable. -/
structure Ty.Stable (catalog : Catalog) (type : Ty) : Prop where
  no_unit : ¬ (Registry.new catalog []).Reaches type .unit
  defaults : ∀ name members, (Registry.new catalog []).Reaches type (.model name) →
    catalog.lookup name = some members → ∀ member ∈ members, member.Stable catalog

/-- The parts of a stable type are stable. -/
theorem Ty.Stable.part {next : Ty} (h : type.Stable catalog) (hnext : next ∈ type.parts catalog) :
    next.Stable catalog where
  no_unit hreach := h.no_unit (Relation.ReflTransGen.head hnext hreach)
  defaults name members hreach := h.defaults name members (Relation.ReflTransGen.head hnext hreach)

/-! ## 4. What is read is kept -/

theorem foldlM_keeps {α β : Type} {f : β → α → Option β} {p : β → Prop}
    (hstep : ∀ b entry b', p b → f b entry = some b' → p b') :
    ∀ {entries : List α} {start final : β}, p start → entries.foldlM f start = some final → p final
  | [], _, _, hstart, h => by
    cases h
    exact hstart
  | entry :: entries, start, final, hstart, h => by
    rw [List.foldlM_cons] at h
    obtain ⟨next, hnext, hrest⟩ := Option.bind_eq_some_iff.mp h
    exact foldlM_keeps hstep (hstep _ _ _ hstart hnext) hrest

theorem mem_of_mapM {α β : Type} {f : α → Option β} : ∀ {items : List α} {results : List β},
    items.mapM f = some results → ∀ result ∈ results, ∃ item ∈ items, f item = some result
  | [], _, h, _, hmem => by
    cases h
    cases hmem
  | item :: items, _, h, result, hmem => by
    rw [List.mapM_cons] at h
    obtain ⟨first, hfirst, h⟩ := Option.bind_eq_some_iff.mp h
    obtain ⟨rest, hrest, h⟩ := Option.bind_eq_some_iff.mp h
    cases h
    rcases List.mem_cons.mp hmem with rfl | hmem
    · exact ⟨item, List.mem_cons_self, hfirst⟩
    · obtain ⟨other, hother, hresult⟩ := mem_of_mapM hrest result hmem
      exact ⟨other, List.mem_cons_of_mem _ hother, hresult⟩

theorem forall₂_set {α β : Type} {R : α → β → Prop} {value : α} {member : β} :
    ∀ {values : List α} {members : List β} {index : Nat}, List.Forall₂ R values members →
      members[index]? = some member → R value member →
      List.Forall₂ R (values.set index value) members
  | _, _, 0, .cons _ hvalues, hmember, hvalue => by
    cases hmember
    exact .cons hvalue hvalues
  | _, _, index + 1, .cons hfirst hvalues, hmember, hvalue =>
    .cons hfirst (forall₂_set hvalues hmember hvalue)

namespace Table

variable {table : Table} {inside : Ty → Tree → Option Datum}

/-- One more entry that is read leaves the members as they can be kept. -/
theorem keeps_setMember? {members : List Member} {values values' : List Datum} {name : SizedText 2}
    {tree : Tree}
    (hinside : ∀ member ∈ members, ∀ datum, inside member.type tree = some datum →
      datum.Kept catalog member.type)
    (hvalues : List.Forall₂ (Member.Keeps catalog) values members)
    (h : Ty.setMember? inside members values name.text tree = some values') :
    List.Forall₂ (Member.Keeps catalog) values' members := by
  unfold Ty.setMember? at h
  cases hindex : members.findIdx? (·.wireName == name.text) with
  | none =>
    rw [hindex] at h
    cases h
    exact hvalues
  | some index =>
    obtain ⟨member, hmember⟩ := getElem?_of_findIdx? hindex
    obtain ⟨hlt, hfound, -⟩ := List.findIdx?_eq_some_iff_getElem.mp hindex
    obtain ⟨_, rfl⟩ := List.getElem?_eq_some_iff.mp hmember
    simp only [hindex, hmember] at h
    obtain ⟨datum, hdatum, rfl⟩ := Option.map_eq_some_iff.mp h
    exact forall₂_set hvalues hmember
      (.inr ⟨⟨name, (beq_iff_eq.mp hfound).symm⟩, hinside _ (List.getElem_mem hlt) datum hdatum⟩)

/-- **One level of what is read is kept** if all inside is.  The recursion is on the type for the
options. -/
theorem kept_of_datumWith? (hclosed : table.Closed catalog)
    (hinside : ∀ type : Ty, Registry.knows table type = true → type.Stable catalog →
      ∀ tree datum, inside type tree = some datum → datum.Kept catalog type) :
    ∀ type : Ty, Registry.knows table type = true → type.Stable catalog →
      ∀ tree datum, type.datumWith? catalog inside tree = some datum → datum.Kept catalog type := by
  intro type hknown hstable tree datum h
  obtain ⟨rule, -, hgrounded⟩ := hclosed.rule? hknown
  cases hgrounded
  case integer width =>
    obtain ⟨n, -, h⟩ := Option.bind_eq_some_iff.mp h
    split at h
    · rename_i hfits
      cases h
      exact .integer hfits
    · cases h
  case bool =>
    obtain ⟨b, -, rfl⟩ := Option.map_eq_some_iff.mp h
    exact .bool b
  case string =>
    cases tree with
    | string text =>
      cases h
      exact .string text
    | _ => cases h
  case unit => exact absurd .refl hstable.no_unit
  case instant =>
    obtain ⟨seconds, -, h⟩ := Option.bind_eq_some_iff.mp h
    obtain ⟨nanoseconds, hread, rfl⟩ := Option.map_eq_some_iff.mp h
    cases hseconds : Instant.ofSeconds seconds with
    | error error =>
      rw [hseconds] at hread
      cases hread
    | ok found =>
      rw [hseconds] at hread
      cases hread
      exact .instant hseconds
  case value =>
    cases h
    exact .value tree
  case option inner hinner =>
    obtain ⟨found, hfound, rfl⟩ := Option.map_eq_some_iff.mp h
    have hpart := hstable.part (List.mem_singleton_self inner)
    exact (kept_of_datumWith? hclosed hinside inner hinner hpart tree found hfound).some
  case list element helement =>
    obtain ⟨items, hitems, rfl⟩ := Option.map_eq_some_iff.mp h
    obtain ⟨trees, -, hall⟩ := Option.bind_eq_some_iff.mp hitems
    refine .list fun item hitem => ?_
    obtain ⟨part, -, hread⟩ := mem_of_mapM hall item hitem
    exact hinside element helement (hstable.part (List.mem_singleton_self element)) part item hread
  case map kind element helement =>
    obtain ⟨fields, hfields, rfl⟩ := Option.map_eq_some_iff.mp h
    obtain ⟨entries, -, hall⟩ := Option.bind_eq_some_iff.mp hfields
    have hpart := hstable.part (List.mem_singleton_self element)
    have hkept : Fields.Ordered fields ∧
        ∀ entry ∈ fields, Datum.Kept.Entry catalog element entry := by
      refine foldlM_keeps (p := fun fields : Fields Datum => fields.Ordered ∧
        ∀ entry ∈ fields, Datum.Kept.Entry catalog element entry) ?_
        ⟨List.Pairwise.nil, fun _ hmem => absurd hmem List.not_mem_nil⟩ hall
      rintro fields entry _ ⟨hordered, hentries⟩ hnext
      obtain ⟨found, hfound, rfl⟩ := Option.map_eq_some_iff.mp hnext
      refine ⟨Fields.ordered_insert hordered, fun other hother => ?_⟩
      rcases Fields.mem_insert hother with rfl | hother
      · exact ⟨⟨entry.1, rfl⟩, hinside element helement hpart entry.2 found hfound⟩
      · exact hentries other hother
    exact .map hkept.1 hkept.2
  case model name members hmembers hnames hknowns =>
    simp only [Ty.datumWith?, hmembers, Option.bind_some] at h
    obtain ⟨values, hvalues, rfl⟩ := Option.map_eq_some_iff.mp h
    obtain ⟨entries, -, hall⟩ := Option.bind_eq_some_iff.mp hvalues
    have hstart : List.Forall₂ (Member.Keeps catalog) (members.map (·.default)) members := by
      refine List.forall₂_map_left_iff.mpr (List.forall₂_same.mpr fun member hmember => ?_)
      exact (hstable.defaults name members .refl hmembers member hmember).keeps
    have hparts : ∀ member ∈ members, member.type ∈ (Ty.model name).parts catalog := by
      intro member hmember
      rw [Ty.parts, hmembers]
      exact List.mem_map_of_mem hmember
    have hstep : ∀ values (entry : SizedText 2 × Tree) values',
        List.Forall₂ (Member.Keeps catalog) values members →
        Ty.setMember? inside members values entry.1.text entry.2 = some values' →
        List.Forall₂ (Member.Keeps catalog) values' members :=
      fun values entry values' hvalues hset => keeps_setMember? (fun member hmember =>
        hinside member.type (hknowns member hmember) (hstable.part (hparts member hmember)) entry.2)
        hvalues hset
    exact .record hmembers (Registry.sharedName?_eq_none_iff.mp hnames)
      (foldlM_keeps hstep hstart hall)

/-- **What is read of a stable type is kept.**  The induction is on the budget. -/
theorem kept_of_datumWithin? (hclosed : table.Closed catalog) : ∀ {budget : Nat} (type : Ty),
    Registry.knows table type = true → type.Stable catalog →
    ∀ tree datum, type.datumWithin? catalog budget tree = some datum → datum.Kept catalog type
  | 0, _, _, _, _, _, h => by cases h
  | budget + 1, type, hknown, hstable, tree, datum, h =>
    kept_of_datumWith? hclosed (kept_of_datumWithin? hclosed) type hknown hstable tree datum h

end Table

/-! ## 5. Whole streams -/

namespace Registry

variable {bytes : Bytes}

/-- A stream of one value is decoded as what its tree means, by any registry that resolves the
type. -/
theorem decode_tree (types : List Ty) {next : Registry} (tree : Tree)
    (hresolve : ((new catalog []).resolveAll types).resolve type = .ok next)
    (hdepth : tree.depth ≤ maxDepth)
    (hdatum : type.datumWithin? catalog (maxDepth + 1) tree = some datum) (suffix : Bytes) :
    ((new catalog []).resolveAll types).decode type (tree.bytes ++ 0x00 :: suffix) = .ok datum := by
  obtain ⟨cache, hall, hcache⟩ := resolveAll_new catalog types
  rw [hall] at hresolve ⊢
  refine decode_ok.mpr ⟨next, hresolve, ?_⟩
  obtain ⟨more, rfl, hknown, hclosed⟩ := resolve_ok rfl hcache hresolve
  exact Table.decode_stream hclosed hknown hdepth hdatum suffix

/-- **What was decoded stays decoded.**  If the type does not lead to the unit and the defaults of
its models are stable, then whatever bytes a value was decoded from, the value is encoded and
decoded as it was, or it is refused for being nested too deep, which it is. -/
theorem decoded_stays {earlier : List Ty}
    (hdecode : ((new catalog []).resolveAll earlier).decode type bytes = .ok datum)
    (hunit : ¬ (new catalog []).Reaches type .unit)
    (hdefaults : ∀ name members, (new catalog []).Reaches type (.model name) →
      catalog.lookup name = some members → ∀ member ∈ members, member.Stable catalog)
    (between later : List Ty) :
    (∃ encoded,
      ((new catalog []).resolveAll (earlier ++ type :: between)).encode type datum = .ok encoded ∧
      ((new catalog []).resolveAll (earlier ++ type :: later)).decode type encoded = .ok datum) ∨
    (((new catalog []).resolveAll (earlier ++ type :: between)).encode type datum =
        .error (.stream .tooDeep) ∧
      ∃ tree, datum.tree? catalog type = some tree ∧ 512 < tree.depth) := by
  obtain ⟨cache, hbefore, hcache⟩ := resolveAll_new catalog earlier
  rw [resolveAll_append, hbefore]
  rw [hbefore] at hdecode
  obtain ⟨next, hresolve, hread⟩ := decode_ok.mp hdecode
  obtain ⟨hbetween, hstill⟩ := resolveAll_cons_ok between rfl hcache hresolve
  obtain ⟨-, hever⟩ := resolveAll_cons_ok later rfl hcache hresolve
  rw [← hbefore, ← resolveAll_append] at hever
  obtain ⟨more, rfl, hknown, hclosed⟩ := resolve_ok rfl hcache hresolve
  obtain ⟨sent, tail, -, hsent, -⟩ := Table.exists_tree_of_decode hclosed hknown hread
  obtain ⟨htype, tree, htree, hback⟩ :=
    Table.kept_of_datumWithin? hclosed type hknown ⟨hunit, hdefaults⟩ sent datum hsent
  rw [encode_eq_of_tree? hbetween hstill htype htree]
  by_cases hdepth : tree.depth ≤ maxDepth
  · exact .inl ⟨_, if_pos hdepth,
      decode_tree _ tree (resolve_of_knows hever) hdepth (hback maxDepth hdepth) []⟩
  · exact .inr ⟨if_neg hdepth, tree, htree, Nat.lt_of_not_le hdepth⟩

/-- A link with two labels, an entry of no member and no point in time.  The later label stays, and
so do the defaults that were filled in. -/
theorem decoded_stays_chain :
    let links : Datum := .record [.some (.string "second"), .instant 0,
      .some (.record [.some (.string "none"), .instant 0, .none])]
    ((new chain []).resolveAll [.list .bool]).decode (.model "Chain")
        ((Tree.object labelledTwice).bytes ++ [0x00, 0xff]) = .ok links ∧
      ∃ encoded, ((new chain []).resolveAll [.list .bool, .model "Chain", .value]).encode
          (.model "Chain") links = .ok encoded ∧
        ((new chain []).resolveAll [.list .bool, .model "Chain"]).decode (.model "Chain") encoded =
          .ok links := by
  intro links
  have hread : ((new chain []).resolveAll [.list .bool]).decode (.model "Chain")
      ((Tree.object labelledTwice).bytes ++ [0x00, 0xff]) = .ok links :=
    decode_tree [.list .bool] (.object labelledTwice) rfl (by decide) rfl [0xff]
  -- the types that a link leads to
  have hreach : ∀ type, (new chain []).Reaches (.model "Chain") type →
      type ∈ [.model "Chain", .option .string, .string, .instant, .option (.model "Chain")] :=
    fun type h => h.mem_of_closed (by decide) List.mem_cons_self
  have hlabel : Member.Stable chain ⟨"label", "label", .option .string, .some (.string "none")⟩ :=
    ⟨.some (.string _), .inr ⟨by decide, (Tree.string ⟨"none", by decide⟩).bytes ++ [0x00], rfl,
      decode_tree [] (.string ⟨"none", by decide⟩) rfl (by decide) rfl []⟩⟩
  have hsince : Member.Stable chain ⟨"since", "since", .instant, .instant 0⟩ :=
    ⟨.instant 0, .inr ⟨by decide, (Tree.number 0).bytes ++ [0x00], rfl,
      decode_tree [] (.number 0) rfl (by decide) rfl []⟩⟩
  have hnext : Member.Stable chain ⟨"next", "nextLink", .option (.model "Chain"), .none⟩ :=
    ⟨.none _, .inl rfl⟩
  have hunit : ¬ (new chain []).Reaches (.model "Chain") .unit :=
    fun h => absurd (hreach _ h) (by decide)
  have hdefaults : ∀ name members, (new chain []).Reaches (.model "Chain") (.model name) →
      chain.lookup name = some members → ∀ member ∈ members, member.Stable chain := by
    intro name members h hfound
    obtain rfl : name = "Chain" := by simpa using hreach _ h
    cases hfound
    exact List.forall_mem_cons.mpr ⟨hlabel, List.forall_mem_cons.mpr
      ⟨hsince, List.forall_mem_singleton.mpr hnext⟩⟩
  refine ⟨hread, (decoded_stays hread hunit hdefaults [.value] []).resolve_right ?_⟩
  rintro ⟨-, tree, htree, hdeep⟩
  cases htree
  exact absurd hdeep (by decide)

end Registry

end RemoteCall
