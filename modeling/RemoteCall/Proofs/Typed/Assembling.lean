/-
# The workshop keeps in step with the registry

A workshop builds adapters where a registry notes rules.  It grants and refuses the same requests,
with the same faults, and the rules of its adapters are those that the registry notes
(`adapter_mirrors`).

What an adapter holds `Stands` for the types that were asked for to derive its rule: it is the adapter
of the type, or a placeholder whose cell has been filled with that adapter, or a placeholder whose
cell is still being worked at.  The invariant of a construction is `Sound`: every adapter at hand
holds handles that stand for what they should.  When a construction succeeds its own cell is filled,
and no placeholder that waited for it is left waiting (`Sound.finish`); when it fails, what was
staged for it is thrown away, and nothing that is left holds the placeholder (`Sound.undo`).  Outside
of constructions nothing is being worked at, and what adapters hold is finished (`Whole`).
-/
import RemoteCall.Proofs.Failure
import RemoteCall.Proofs.Typed.History
import RemoteCall.Typed.Assembly

namespace RemoteCall

open Registry

/-! ## 1. What a handle stands for -/

/-- A handle stands for a type: it is the adapter of the type on the shelf, or a placeholder for that
one, or a placeholder for the adapter that a pending construction is to make. -/
inductive Stands (cells : List Cell) (shelf : List (Ty × Piece)) (pending : List (Ty × Nat))
    (type : Ty) : Handle → Prop
  | direct {piece : Piece} (shelved : shelf.lookup type = some piece) :
    Stands cells shelf pending type (.direct piece)
  | filled {cell : Nat} {piece : Piece} (filled : cells[cell]? = some ⟨type, some piece⟩)
    (shelved : shelf.lookup type = some piece) :
    Stands cells shelf pending type (.placeholder cell)
  | awaited {cell : Nat} (empty : cells[cell]? = some ⟨type, none⟩)
    (awaited : pending.lookup type = some cell) :
    Stands cells shelf pending type (.placeholder cell)

theorem Stands.grow {cells more : List Cell} {shelf others : List (Ty × Piece)}
    {pending : List (Ty × Nat)} {type : Ty} {handle : Handle}
    (h : Stands cells shelf pending type handle) :
    Stands (cells ++ more) (shelf ++ others) pending type handle := by
  have hcells : ∀ {cell : Nat} {found : Cell}, cells[cell]? = some found →
      (cells ++ more)[cell]? = some found := by
    intro cell found hfound
    rw [List.getElem?_append_left (List.getElem?_eq_some_iff.mp hfound).1]
    exact hfound
  have hshelf : ∀ {piece : Piece}, shelf.lookup type = some piece →
      (shelf ++ others).lookup type = some piece := by
    intro piece hpiece
    rw [List.lookup_append, hpiece]
    rfl
  cases h with
  | direct hshelved => exact .direct (hshelf hshelved)
  | filled hfilled hshelved => exact .filled (hcells hfilled) (hshelf hshelved)
  | awaited hempty hawaited => exact .awaited (hcells hempty) hawaited

/-- From a construction to a later state of it, cells have been opened and adapters finished, and all
that was there is as it was. -/
def Build.Grows (build build' : Build) : Prop :=
  (∃ more, build'.cells = build.cells ++ more) ∧ ∃ more, build'.staged = build.staged ++ more

theorem Build.Grows.refl (build : Build) : build.Grows build :=
  ⟨⟨[], (List.append_nil _).symm⟩, [], (List.append_nil _).symm⟩

theorem Build.Grows.trans {first second third : Build} (h : first.Grows second)
    (h' : second.Grows third) : first.Grows third := by
  obtain ⟨⟨cells, hcells⟩, staged, hstaged⟩ := h
  obtain ⟨⟨cells', hcells'⟩, staged', hstaged'⟩ := h'
  refine ⟨⟨cells ++ cells', ?_⟩, staged ++ staged', ?_⟩
  · rw [hcells', hcells, List.append_assoc]
  · rw [hstaged', hstaged, List.append_assoc]

/-- An adapter contains what it holds directly, and what that contains. -/
def Piece.Contains : Piece → Piece → Prop :=
  Relation.ReflTransGen fun piece next => .direct next ∈ piece.held

/-- What has been finished from one state of a construction to a later one is contained in what is
held in the end. -/
def Build.Gathers (build build' : Build) (held : List Handle) : Prop :=
  ∃ more, build'.staged = build.staged ++ more ∧
    ∀ entry ∈ more, ∃ piece, .direct piece ∈ held ∧ piece.Contains entry.2

theorem Build.gathers_of_eq {build build' : Build} (h : build'.staged = build.staged)
    (held : List Handle) : build.Gathers build' held :=
  ⟨[], by rw [h, List.append_nil], fun _ h => absurd h List.not_mem_nil⟩

theorem Build.Gathers.trans {first second third : Build} {held others : List Handle}
    (h : first.Gathers second held) (h' : second.Gathers third others) :
    first.Gathers third (held ++ others) := by
  obtain ⟨more, hmore, hheld⟩ := h
  obtain ⟨rest, hrest, hothers⟩ := h'
  refine ⟨more ++ rest, by rw [hrest, hmore, List.append_assoc], fun entry hentry => ?_⟩
  rcases List.mem_append.mp hentry with hentry | hentry
  · obtain ⟨piece, hpiece, hcontains⟩ := hheld entry hentry
    exact ⟨piece, List.mem_append_left _ hpiece, hcontains⟩
  · obtain ⟨piece, hpiece, hcontains⟩ := hothers entry hentry
    exact ⟨piece, List.mem_append_right _ hpiece, hcontains⟩

/-- An adapter that is finished contains itself and what it holds. -/
theorem Build.Gathers.finish {build build' : Build} {piece : Piece}
    (h : build.Gathers build' piece.held) (type : Ty) (cells : List Cell) :
    build.Gathers ⟨cells, build'.staged ++ [(type, piece)]⟩ [.direct piece] := by
  obtain ⟨more, hmore, hheld⟩ := h
  refine ⟨more ++ [(type, piece)], ?_, fun entry hentry => ?_⟩
  · show build'.staged ++ [(type, piece)] = _
    rw [hmore, List.append_assoc]
  · refine ⟨piece, List.mem_singleton_self _, ?_⟩
    rcases List.mem_append.mp hentry with hentry | hentry
    · obtain ⟨part, hpart, hcontains⟩ := hheld entry hentry
      exact .head hpart hcontains
    · rw [List.mem_singleton.mp hentry]
      exact .refl

theorem rules_append (pieces others : List (Ty × Piece)) :
    rules (pieces ++ others) = rules pieces ++ rules others :=
  List.map_append

theorem rule?_rules {pieces : List (Ty × Piece)} {type : Ty} :
    (rules pieces).rule? type = (pieces.lookup type).map (·.rule) := by
  induction pieces with
  | nil => rfl
  | cons entry pieces ih =>
    obtain ⟨other, piece⟩ := entry
    show List.lookup type ((other, piece.rule) :: rules pieces) = _
    rw [List.lookup_cons, List.lookup_cons]
    cases type == other with
    | true => rfl
    | false => exact ih

theorem knows_rules {pieces : List (Ty × Piece)} {type : Ty} :
    knows (rules pieces) type = true ↔ ∃ piece, pieces.lookup type = some piece := by
  unfold knows
  rw [rule?_rules, Option.isSome_map, Option.isSome_iff_exists]

theorem mem_keys_iff {pending : List (Ty × Nat)} {type : Ty} :
    type ∈ pending.map Prod.fst ↔ ∃ cell, pending.lookup type = some cell := by
  induction pending with
  | nil => simp
  | cons entry pending ih =>
    rw [List.map_cons, List.mem_cons, List.lookup_cons, ih]
    cases h : type == entry.1 with
    | true => simp [beq_iff_eq.mp h]
    | false => simp [beq_eq_false_iff_ne.mp h]

namespace Workshop

variable {workshop : Workshop} {pending : List (Ty × Nat)} {build build' : Build} {type : Ty}
  {handle : Handle} {piece : Piece}

/-- The adapters at hand in a construction. -/
def shelf (workshop : Workshop) (build : Build) : List (Ty × Piece) :=
  workshop.cache ++ build.staged

/-- What the adapter of a type holds stands for the types that its rule was derived from. -/
def Fitted (workshop : Workshop) (pending : List (Ty × Nat)) (build : Build) (type : Ty)
    (piece : Piece) : Prop :=
  ∃ asked, Derivation workshop.catalog workshop.factories type asked piece.rule ∧
    List.Forall₂ (fun handle next => Stands build.cells (workshop.shelf build) pending next handle)
      piece.held asked

/-- **The invariant of a construction**: the adapters at hand are fitted, and the cells of pending
types are empty until there is an adapter of the type. -/
structure Sound (workshop : Workshop) (pending : List (Ty × Nat)) (build : Build) : Prop where
  fitted : ∀ entry ∈ workshop.shelf build, workshop.Fitted pending build entry.1 entry.2
  empty : ∀ type cell, pending.lookup type = some cell → build.cells[cell]? = some ⟨type, none⟩
  lacking : ∀ type cell, pending.lookup type = some cell → (workshop.shelf build).lookup type = none

theorem stands_of_grows (hgrows : build.Grows build')
    (h : Stands build.cells (workshop.shelf build) pending type handle) :
    Stands build'.cells (workshop.shelf build') pending type handle := by
  obtain ⟨⟨cells, hcells⟩, staged, hstaged⟩ := hgrows
  unfold shelf
  rw [hcells, hstaged, ← List.append_assoc]
  exact h.grow

/-- With more cells, but no more adapters, a construction stays sound. -/
theorem Sound.undo (h : workshop.Sound pending build) (hgrows : build.Grows build') :
    workshop.Sound pending { build' with staged := build.staged } := by
  obtain ⟨⟨cells, hcells⟩, -⟩ := hgrows
  have hgrows : build.Grows { build' with staged := build.staged } :=
    ⟨⟨cells, hcells⟩, [], (List.append_nil _).symm⟩
  constructor
  · intro entry hentry
    obtain ⟨asked, hderived, hheld⟩ := h.fitted entry hentry
    exact ⟨asked, hderived, hheld.imp fun _ _ => stands_of_grows hgrows⟩
  · intro type cell hcell
    have hempty := h.empty type cell hcell
    show build'.cells[cell]? = _
    rw [hcells, List.getElem?_append_left (List.getElem?_eq_some_iff.mp hempty).1]
    exact hempty
  · exact h.lacking

/-! ## 2. A construction and a search -/

section

variable {α β γ δ : Type}

/-- **A construction does what a search does**: both succeed, with results that match, or both fail
with the same fault.  Either way the construction has grown and is sound. -/
inductive Mirrors (workshop : Workshop) (pending : List (Ty × Nat)) (build : Build)
    (P : α → Build → β → Prop) (Q : Build → Prop) :
    EStateM.Result TypeFault Build α → Except TypeFault β → Prop
  | ok {value : α} {build' : Build} {result : β} (grows : build.Grows build')
    (sound : workshop.Sound pending build') (matching : P value build' result) :
    Mirrors workshop pending build P Q (.ok value build') (.ok result)
  | error {fault : TypeFault} {build' : Build} (grows : build.Grows build')
    (sound : workshop.Sound pending build') (left : Q build') :
    Mirrors workshop pending build P Q (.error fault build') (.error fault)

/-- What is done from a later state on is done from an earlier one on. -/
theorem Mirrors.since {P : α → Build → β → Prop} {Q : Build → Prop}
    {outcome : EStateM.Result TypeFault Build α} {found : Except TypeFault β}
    (h : workshop.Mirrors pending build' P Q outcome found) (hgrows : build.Grows build') :
    workshop.Mirrors pending build P Q outcome found := by
  cases h with
  | ok hgrows' hsound hmatching => exact .ok (hgrows.trans hgrows') hsound hmatching
  | error hgrows' hsound hleft => exact .error (hgrows.trans hgrows') hsound hleft

/-- A chain does what another chain does if its parts do. -/
theorem Mirrors.bind {P : α → Build → β → Prop} {P' : γ → Build → δ → Prop} {Q : Build → Prop}
    {act : EStateM TypeFault Build α} {next : α → EStateM TypeFault Build γ}
    {search : Except TypeFault β} {after : β → Except TypeFault δ}
    (h : workshop.Mirrors pending build P Q (act build) search)
    (hnext : ∀ value build' result, build.Grows build' → workshop.Sound pending build' →
      P value build' result →
      workshop.Mirrors pending build' P' (fun _ => True) (next value build') (after result)) :
    workshop.Mirrors pending build P' (fun _ => True) ((act >>= next) build)
      (search >>= after) := by
  generalize hact : act build = left at h
  cases h with
  | @ok value mid result hgrows hsound hmatching =>
    rw [Success.bind_of_ok hact]
    exact (hnext value mid result hgrows hsound hmatching).since hgrows
  | error hgrows hsound _ =>
    rw [bind_error.mpr (.inl hact)]
    exact .error hgrows hsound trivial

end

/-- What a supply hands out stands for the type and contains what has been finished for it, and the
rules of what it has staged are what the search has staged. -/
def Supplied (workshop : Workshop) (pending : List (Ty × Nat)) (type : Ty) (start : Build)
    (handle : Handle) (build : Build) (staged : Table) : Prop :=
  staged = rules build.staged ∧ Stands build.cells (workshop.shelf build) pending type handle ∧
    start.Gathers build [handle]

/-- A supply does what a resolution does, and leaves nothing staged if it fails. -/
def Supplies (workshop : Workshop) (pending : List (Ty × Nat)) (supply : Supply)
    (resolve : Resolve) : Prop :=
  ∀ type build, workshop.Sound pending build →
    workshop.Mirrors pending build (workshop.Supplied pending type build)
      (fun build' => build'.staged = build.staged) (supply type build)
      (resolve type (rules build.staged))

/-- An adapter is made as a rule is found, and holds what has been finished for it. -/
def Made (workshop : Workshop) (pending : List (Ty × Nat)) (type : Ty) (start : Build)
    (piece : Piece) (build : Build) (found : Rule × Table) : Prop :=
  found = (piece.rule, rules build.staged) ∧ workshop.Fitted pending build type piece ∧
    start.Gathers build piece.held

variable {supply : Supply} {resolve : Resolve}

/-- Handles for types, in order. -/
theorem mapM_mirrors (hsupplies : workshop.Supplies pending supply resolve) :
    ∀ (asked : List Ty) {build : Build}, workshop.Sound pending build →
    workshop.Mirrors pending build
      (fun held build' staged => staged = rules build'.staged ∧
        List.Forall₂ (fun handle next =>
          Stands build'.cells (workshop.shelf build') pending next handle) held asked ∧
        build.Gathers build' held)
      (fun _ => True) (asked.mapM supply build) (resolveEach resolve asked (rules build.staged))
  | [], build, hsound => .ok (.refl build) hsound ⟨rfl, .nil, Build.gathers_of_eq rfl []⟩
  | type :: asked, build, hsound => by
    rw [List.mapM_cons, resolveEach_cons]
    refine (hsupplies type build hsound).bind ?_
    rintro handle mid _ - hsound ⟨rfl, hstands, hgathers⟩
    rw [← bind_pure (resolveEach resolve asked (rules mid.staged))]
    refine (mapM_mirrors hsupplies asked hsound).bind ?_
    rintro held last _ hgrows hsound ⟨rfl, hheld, hgathers'⟩
    exact .ok (.refl last) hsound
      ⟨rfl, .cons (stands_of_grows hgrows hstands) hheld, hgathers.trans hgathers'⟩

/-- The adapter that a type itself says to have is made of those of its parts. -/
theorem ownPiece_eq {catalog : Catalog} {supply : Supply} {type : Ty} :
    ownPiece catalog supply type = do
      let held ← (type.parts catalog).mapM supply
      match type.fault? catalog with
      | some fault => throw fault
      | none => return ⟨type.rule catalog, held⟩ := by
  cases type
  case model name =>
    simp only [ownPiece, Ty.parts, Ty.fault?, Ty.rule]
    cases catalog.lookup name with
    | none => rfl
    | some members =>
      dsimp only
      rw [List.mapM_map]
      rfl
  all_goals simp [ownPiece, Ty.parts, Ty.fault?, Ty.rule]

section

variable {α β : Type} {act : EStateM TypeFault Build α}
  {next : Except TypeFault α → EStateM TypeFault Build β}

theorem observing_bind_of_ok {value : α} (h : act build = .ok value build') :
    (observing act >>= next) build = next (.ok value) build' := by
  have hact : (act >>= fun value => pure (Except.ok value)) build =
      .ok (Except.ok (ε := TypeFault) value) build' := Success.bind_of_ok h
  refine Success.bind_of_ok ?_
  show EStateM.tryCatch (act >>= fun value => pure (Except.ok value))
    (fun fault => pure (Except.error fault)) build = _
  unfold EStateM.tryCatch
  rw [hact]

theorem observing_bind_of_error {fault : TypeFault} (h : act build = .error fault build') :
    (observing act >>= next) build = next (.error fault) build' := by
  have hact : (act >>= fun value => pure (Except.ok (ε := TypeFault) value)) build =
      .error fault build' := bind_error.mpr (.inl h)
  refine Success.bind_of_ok ?_
  show EStateM.tryCatch (act >>= fun value => pure (Except.ok value))
    (fun fault => pure (Except.error fault)) build = _
  unfold EStateM.tryCatch
  rw [hact]
  rfl

end

/-- The adapter of a type is made as its rule is found.  The induction is on the factories. -/
theorem pieceOf_mirrors (hsupplies : workshop.Supplies pending supply resolve) :
    ∀ {factories : List Factory}, factories ⊆ workshop.factories → ∀ {build : Build},
    workshop.Sound pending build →
    workshop.Mirrors pending build (workshop.Made pending type build) (fun _ => True)
      (pieceOf workshop.catalog supply type factories build)
      (ruleOf workshop.catalog resolve type (rules build.staged) factories)
  | [], _, build, hsound => by
    rw [pieceOf, ownPiece_eq, ruleOf, ownRule_eq]
    refine (mapM_mirrors hsupplies _ hsound).bind ?_
    rintro held mid _ - hsound ⟨rfl, hheld, hgathers⟩
    unfold conclude
    cases hfault : type.fault? workshop.catalog with
    | some fault => exact .error (.refl mid) hsound trivial
    | none => exact .ok (.refl mid) hsound ⟨rfl, ⟨_, .own hfault, hheld⟩, hgathers⟩
  | factory :: rest, hsubset, build, hsound => by
    obtain ⟨hfactory, hrest⟩ := List.cons_subset.mp hsubset
    cases factory with
    | declining => exact pieceOf_mirrors hsupplies hrest hsound
    | exact target rule =>
      unfold pieceOf ruleOf
      by_cases htarget : target = type
      · subst target
        rw [if_pos rfl, if_pos rfl]
        exact .ok (.refl build) hsound
          ⟨rfl, ⟨[], .exact hfactory, .nil⟩, Build.gathers_of_eq rfl []⟩
      · rw [if_neg htarget, if_neg htarget]
        exact pieceOf_mirrors hsupplies hrest hsound
    | through target via answer =>
      unfold pieceOf ruleOf
      by_cases htarget : target = type
      · subst target
        rw [if_pos rfl, if_pos rfl]
        have hvia := hsupplies via build hsound
        generalize hsupply : supply via build = outcome at hvia
        generalize resolve via (rules build.staged) = found at hvia ⊢
        cases hvia with
        | @error fault mid hgrows hsound hleft =>
          rw [observing_bind_of_error hsupply]
          have hothers := pieceOf_mirrors hsupplies hrest hsound
          unfold Made Build.Gathers at hothers
          rw [hleft] at hothers
          exact hothers.since hgrows
        | @ok handle mid staged hgrows hsound hmatching =>
          obtain ⟨rfl, hstands, hgathers⟩ := hmatching
          rw [observing_bind_of_ok hsupply]
          cases answer with
          | none => exact .error hgrows hsound trivial
          | some rule =>
            exact .ok hgrows hsound
              ⟨rfl, ⟨[via], .through hfactory, .cons hstands .nil⟩, hgathers⟩
      · rw [if_neg htarget, if_neg htarget]
        exact pieceOf_mirrors hsupplies hrest hsound

/-! ## 3. Cells -/

/-- A type joins the pending ones with its cell. -/
theorem lookup_joined {other : Ty} {cell mine : Nat} (hpending : pending.lookup type = none) :
    List.lookup other ((type, mine) :: pending) = some cell ↔
      (other = type ∧ cell = mine) ∨ pending.lookup other = some cell := by
  rw [List.lookup_cons]
  cases hother : other == type with
  | true =>
    rw [beq_iff_eq.mp hother, hpending]
    simp [eq_comm]
  | false => simp [beq_eq_false_iff_ne.mp hother]

theorem shelf_finished {cells : List Cell} :
    workshop.shelf ⟨cells, build.staged ++ [(type, piece)]⟩ =
      workshop.shelf build ++ [(type, piece)] :=
  (List.append_assoc _ _ _).symm

/-- A type that is not at hand is built in a new cell. -/
theorem Sound.begin (h : workshop.Sound pending build)
    (hshelf : (workshop.shelf build).lookup type = none) (hpending : pending.lookup type = none) :
    workshop.Sound ((type, build.cells.length) :: pending)
      { build with cells := build.cells ++ [⟨type, none⟩] } := by
  have hcells : ∀ {cell : Nat} {found : Cell}, build.cells[cell]? = some found →
      (build.cells ++ [⟨type, none⟩])[cell]? = some found := by
    intro cell found hfound
    rw [List.getElem?_append_left (List.getElem?_eq_some_iff.mp hfound).1]
    exact hfound
  constructor
  · intro entry hentry
    obtain ⟨asked, hderived, hheld⟩ := h.fitted entry hentry
    refine ⟨asked, hderived, hheld.imp fun handle next hstands => ?_⟩
    cases hstands with
    | direct hshelved => exact .direct hshelved
    | filled hfilled hshelved => exact .filled (hcells hfilled) hshelved
    | awaited hempty hawaited =>
      exact .awaited (hcells hempty) ((lookup_joined hpending).mpr (.inr hawaited))
  · intro other cell hcell
    rcases (lookup_joined hpending).mp hcell with ⟨rfl, rfl⟩ | hcell
    · exact List.getElem?_concat_length
    · exact hcells (h.empty other cell hcell)
  · intro other cell hcell
    rcases (lookup_joined hpending).mp hcell with ⟨rfl, rfl⟩ | hcell
    · exact hshelf
    · exact h.lacking other cell hcell

section

variable {cell : Nat}

/-- The cell of a construction is not that of another one under way. -/
theorem Sound.cell_ne {other : Ty} {theirs : Nat}
    (h : workshop.Sound ((type, cell) :: pending) build) (hpending : pending.lookup type = none)
    (htheirs : pending.lookup other = some theirs) : theirs ≠ cell := by
  rintro rfl
  have hmine := h.empty type theirs ((lookup_joined hpending).mpr (.inl ⟨rfl, rfl⟩))
  have hother := h.empty other theirs ((lookup_joined hpending).mpr (.inr htheirs))
  obtain ⟨rfl, -⟩ : type = other ∧ True := by simpa using hmine.symm.trans hother
  rw [hpending] at htheirs
  cases htheirs

/-- What stood for a type still does when the adapter of a pending type is finished. -/
theorem Sound.stands_finished {next : Ty} (h : workshop.Sound ((type, cell) :: pending) build)
    (hpending : pending.lookup type = none)
    (hstands : Stands build.cells (workshop.shelf build) ((type, cell) :: pending) next handle) :
    Stands (build.cells.set cell ⟨type, some piece⟩) (workshop.shelf build ++ [(type, piece)])
      pending next handle := by
  have hmine : List.lookup type ((type, cell) :: pending) = some cell :=
    (lookup_joined hpending).mpr (.inl ⟨rfl, rfl⟩)
  have hcell := h.empty type cell hmine
  have hshelf : ∀ {found : Piece}, (workshop.shelf build).lookup next = some found →
      (workshop.shelf build ++ [(type, piece)]).lookup next = some found := by
    intro found hfound
    rw [List.lookup_append, hfound]
    rfl
  cases hstands with
  | direct hshelved => exact .direct (hshelf hshelved)
  | @filled theirs found hfilled hshelved =>
    have hne : cell ≠ theirs := by
      rintro rfl
      simp [hcell] at hfilled
    refine .filled ?_ (hshelf hshelved)
    rw [List.getElem?_set_ne hne]
    exact hfilled
  | @awaited theirs hempty hawaited =>
    rcases (lookup_joined hpending).mp hawaited with ⟨rfl, rfl⟩ | hawaited
    · refine .filled (List.getElem?_set_self (List.getElem?_eq_some_iff.mp hcell).1) ?_
      rw [List.lookup_append, h.lacking _ _ hmine]
      simp
    · refine .awaited ?_ hawaited
      rw [List.getElem?_set_ne (h.cell_ne hpending hawaited).symm]
      exact hempty

/-- **A finished adapter fills its cell**, and whatever waited for it need not wait any more. -/
theorem Sound.finish (h : workshop.Sound ((type, cell) :: pending) build)
    (hpending : pending.lookup type = none)
    (hfitted : workshop.Fitted ((type, cell) :: pending) build type piece) :
    workshop.Sound pending
      ⟨build.cells.set cell ⟨type, some piece⟩, build.staged ++ [(type, piece)]⟩ := by
  have hkeeps : ∀ {other : Ty} {found : Piece},
      workshop.Fitted ((type, cell) :: pending) build other found →
      workshop.Fitted pending
        ⟨build.cells.set cell ⟨type, some piece⟩, build.staged ++ [(type, piece)]⟩ other found := by
    rintro other found ⟨asked, hderived, hheld⟩
    refine ⟨asked, hderived, hheld.imp fun handle next hstands => ?_⟩
    rw [shelf_finished]
    exact h.stands_finished hpending hstands
  constructor
  · intro entry hentry
    rw [shelf_finished, List.mem_append, List.mem_singleton] at hentry
    rcases hentry with hentry | rfl
    · exact hkeeps (h.fitted entry hentry)
    · exact hkeeps hfitted
  · intro other theirs htheirs
    show (build.cells.set cell _)[theirs]? = _
    rw [List.getElem?_set_ne (h.cell_ne hpending htheirs).symm]
    exact h.empty other theirs ((lookup_joined hpending).mpr (.inr htheirs))
  · intro other theirs htheirs
    have hne : (other == type) = false := by
      refine beq_eq_false_iff_ne.mpr ?_
      rintro rfl
      rw [hpending] at htheirs
      cases htheirs
    rw [shelf_finished, List.lookup_append,
      h.lacking other theirs ((lookup_joined hpending).mpr (.inr htheirs))]
    simp [List.lookup_cons, hne]

end

/-! ## 4. The supply and the search -/

theorem lookup_shelf : (workshop.shelf build).lookup type =
    (workshop.cache.lookup type).or (build.staged.lookup type) :=
  List.lookup_append

/-- A type is at hand or pending exactly if the search knows it. -/
theorem known_iff : Known workshop.registry (pending.map Prod.fst) (rules build.staged) type ↔
    (∃ piece, workshop.cache.lookup type = some piece) ∨
      (∃ cell, pending.lookup type = some cell) ∨
      ∃ piece, build.staged.lookup type = some piece :=
  or_congr knows_rules (or_congr mem_keys_iff knows_rules)

/-- **A construction does what the search does for a new type**: it makes the adapter as the rule is
found, and then fills the cell or undoes what it has staged. -/
theorem construct_mirrors {supply : Nat → Supply}
    (hsupplies : workshop.Supplies ((type, build.cells.length) :: pending)
      (supply build.cells.length) resolve)
    (hsound : workshop.Sound pending build) (hshelf : (workshop.shelf build).lookup type = none)
    (hpending : pending.lookup type = none) :
    workshop.Mirrors pending build (workshop.Supplied pending type build)
      (fun build' => build'.staged = build.staged) (workshop.construct supply type build)
      (ruleOf workshop.catalog resolve type (rules build.staged) workshop.factories >>=
        fun found => .ok (found.2 ++ [(type, found.1)])) := by
  have hmade : workshop.Mirrors ((type, build.cells.length) :: pending)
      { build with cells := build.cells ++ [⟨type, none⟩] }
      (workshop.Made ((type, build.cells.length) :: pending) type
        { build with cells := build.cells ++ [⟨type, none⟩] }) (fun _ => True)
      (pieceOf workshop.catalog (supply build.cells.length) type workshop.factories
        { build with cells := build.cells ++ [⟨type, none⟩] })
      (ruleOf workshop.catalog resolve type (rules build.staged) workshop.factories) :=
    pieceOf_mirrors hsupplies (List.Subset.refl workshop.factories)
      (hsound.begin hshelf hpending)
  unfold construct
  rw [Success.get_bind, Success.modify_bind]
  generalize hpiece : pieceOf workshop.catalog (supply build.cells.length) type workshop.factories
    { build with cells := build.cells ++ [⟨type, none⟩] } = outcome at hmade
  generalize ruleOf workshop.catalog resolve type (rules build.staged) workshop.factories = found
    at hmade ⊢
  cases hmade with
  | @ok piece mid found hgrows hmid hmatching =>
    obtain ⟨rfl, hfitted, hgathers⟩ := hmatching
    obtain ⟨⟨cells, hcells⟩, staged, hstaged⟩ := hgrows
    have hrules : rules mid.staged ++ [(type, piece.rule)] = rules (mid.staged ++ [(type, piece)]) :=
      (rules_append mid.staged [(type, piece)]).symm
    rw [observing_bind_of_ok hpiece]
    refine .ok ⟨⟨⟨type, some piece⟩ :: cells, ?_⟩, staged ++ [(type, piece)], ?_⟩
      (hmid.finish hpending hfitted) ⟨hrules, .direct ?_, hgathers.finish type _⟩
    · show mid.cells.set build.cells.length ⟨type, some piece⟩ = _
      rw [hcells, List.append_assoc, List.set_append_right _ _ (Nat.le_refl _), Nat.sub_self]
      rfl
    · show mid.staged ++ [(type, piece)] = _
      rw [hstaged, List.append_assoc]
    · rw [shelf_finished, List.lookup_append,
        hmid.lacking type _ ((lookup_joined hpending).mpr (.inl ⟨rfl, rfl⟩))]
      simp
  | @error fault mid hgrows hmid _ =>
    obtain ⟨⟨cells, hcells⟩, staged, hstaged⟩ := hgrows
    have hgrows : build.Grows mid :=
      ⟨⟨⟨type, none⟩ :: cells, by rw [hcells, List.append_assoc]; rfl⟩, staged, hstaged⟩
    have htake : mid.staged.take build.staged.length = build.staged := by
      rw [hstaged]
      exact List.take_left
    have hfailed : Build.mk mid.cells (mid.staged.take build.staged.length) =
        { mid with staged := build.staged } := by
      rw [htake]
    rw [observing_bind_of_error hpiece]
    show workshop.Mirrors pending build _ _
      (.error fault ⟨mid.cells, mid.staged.take build.staged.length⟩) _
    rw [hfailed]
    exact .error ⟨hgrows.1, [], (List.append_nil _).symm⟩ (hsound.undo hgrows) rfl

/-- **The supply does what the search does.**  The induction is on the depth. -/
theorem supply_mirrors (workshop : Workshop) : ∀ (fuel : Nat) (pending : List (Ty × Nat)),
    workshop.Supplies pending (workshop.supply fuel pending)
      (workshop.registry.visit fuel (pending.map Prod.fst))
  | 0, _, _, build, hsound => .error (.refl build) hsound rfl
  | fuel + 1, pending, type, build, hsound => by
    unfold supply
    rw [Success.get_bind]
    have hat : ∀ {handle : Handle},
        Known workshop.registry (pending.map Prod.fst) (rules build.staged) type →
        Stands build.cells (workshop.shelf build) pending type handle →
        workshop.Mirrors pending build (workshop.Supplied pending type build)
          (fun build' => build'.staged = build.staged) (.ok handle build)
          (workshop.registry.visit (fuel + 1) (pending.map Prod.fst) type
            (rules build.staged)) := by
      intro handle hknown hstands
      rw [visit_of_known (Nat.succ_pos fuel) hknown]
      exact .ok (.refl build) hsound ⟨rfl, hstands, Build.gathers_of_eq rfl _⟩
    cases hcache : workshop.cache.lookup type with
    | some piece =>
      refine hat (known_iff.mpr (.inl ⟨piece, hcache⟩)) (.direct ?_)
      rw [lookup_shelf, hcache]
      rfl
    | none =>
    cases hpending : pending.lookup type with
    | some cell =>
      refine hat (known_iff.mpr (.inr (.inl ⟨cell, hpending⟩))) ?_
      exact .awaited (hsound.empty type cell hpending) hpending
    | none =>
    cases hstaged : build.staged.lookup type with
    | some piece =>
      refine hat (known_iff.mpr (.inr (.inr ⟨piece, hstaged⟩))) (.direct ?_)
      rw [lookup_shelf, hcache, hstaged]
      rfl
    | none =>
      have hunknown : ¬ Known workshop.registry (pending.map Prod.fst) (rules build.staged)
          type := by
        rw [known_iff, hcache, hpending, hstaged]
        simp
      have hshelf : (workshop.shelf build).lookup type = none := by
        rw [lookup_shelf, hcache, hstaged]
        rfl
      rw [visit_of_unknown hunknown]
      exact construct_mirrors (supply_mirrors workshop fuel _) hsound hshelf hpending

/-! ## 5. Between constructions -/

/-- Nothing is being worked at, and the adapters are fitted. -/
def Whole (workshop : Workshop) : Prop := workshop.Sound [] ⟨workshop.cells, []⟩

theorem whole_new (catalog : Catalog) (factories : List Factory) :
    (new catalog factories).Whole where
  fitted := fun _ h => absurd h List.not_mem_nil
  empty := fun _ _ h => by cases h
  lacking := fun _ _ h => by cases h

/-- Once a construction is over, what it has made may be put in the cache. -/
theorem Sound.whole (h : workshop.Sound [] build) :
    Whole { workshop with cache := workshop.cache ++ build.staged, cells := build.cells } := by
  have hshelf : shelf { workshop with
      cache := workshop.cache ++ build.staged, cells := build.cells } ⟨build.cells, []⟩ =
      workshop.shelf build := List.append_nil _
  constructor
  · intro entry hentry
    rw [hshelf] at hentry
    obtain ⟨asked, hderived, hheld⟩ := h.fitted entry hentry
    refine ⟨asked, hderived, ?_⟩
    rw [hshelf]
    exact hheld
  · exact fun _ _ h => by cases h
  · exact fun _ _ h => by cases h

/-- From a workshop to a later state of it, cells have been opened and adapters finished, and all
that was there is as it was. -/
def Grows (workshop next : Workshop) : Prop :=
  ∃ pieces cells, next = { workshop with
    cache := workshop.cache ++ pieces, cells := workshop.cells ++ cells }

theorem Grows.refl (workshop : Workshop) : workshop.Grows workshop :=
  ⟨[], [], by rw [List.append_nil, List.append_nil]⟩

theorem Grows.trans {first second third : Workshop} (h : first.Grows second)
    (h' : second.Grows third) : first.Grows third := by
  obtain ⟨pieces, cells, rfl⟩ := h
  obtain ⟨pieces', cells', rfl⟩ := h'
  refine ⟨pieces ++ pieces', cells ++ cells', ?_⟩
  rw [List.append_assoc, List.append_assoc]

/-- **The workshop keeps in step with the registry.**  It hands out an adapter where the registry
resolves the type, and both have gained the same, all of which the adapter contains; or both refuse
with the same fault, and nothing has been gained. -/
theorem adapter_mirrors (hwhole : workshop.Whole) (type : Ty) :
    (∃ handle next, adapter type workshop = .ok handle next ∧
        workshop.registry.resolve type = .ok next.registry ∧ workshop.Grows next ∧ next.Whole ∧
        Stands next.cells next.cache [] type handle ∧
        ∃ added, next.cache = workshop.cache ++ added ∧
          ∀ entry ∈ added, ∃ piece, handle = .direct piece ∧ piece.Contains entry.2) ∨
      ∃ fault next, adapter type workshop = .error fault next ∧
        workshop.registry.resolve type = .error fault ∧ next.registry = workshop.registry ∧
        next.cache = workshop.cache ∧ workshop.Grows next ∧ next.Whole := by
  have hsupply := supply_mirrors workshop (workshop.registry.reach type + 1) [] type _ hwhole
  unfold adapter
  rw [Success.get_bind]
  generalize hbuilt : workshop.supply (workshop.registry.reach type + 1) [] type
    ⟨workshop.cells, []⟩ = outcome at hsupply
  generalize hfound : workshop.registry.visit (workshop.registry.reach type + 1)
    (List.map Prod.fst ([] : List (Ty × Nat))) type (rules []) = found at hsupply
  have hrun : EStateM.run (workshop.supply (workshop.registry.reach type + 1) [] type)
      ⟨workshop.cells, []⟩ = outcome := hbuilt
  cases hsupply with
  | @ok handle build staged hgrows hsound hmatching =>
    obtain ⟨rfl, hstands, hgathers⟩ := hmatching
    obtain ⟨⟨cells, hcells⟩, -⟩ := hgrows
    left
    refine ⟨handle, { workshop with
      cache := workshop.cache ++ build.staged, cells := build.cells }, ?_, ?_, ?_, ?_, hstands,
      build.staged, rfl, ?_⟩
    · rw [hrun]
      rfl
    · refine resolve_eq_ok.mpr ⟨_, hfound, ?_⟩
      unfold registry
      rw [rules_append]
    · exact ⟨build.staged, cells, by rw [hcells]⟩
    · exact hsound.whole
    · obtain ⟨more, hmore, hcontained⟩ := hgathers
      obtain rfl : build.staged = more := hmore
      intro entry hentry
      obtain ⟨piece, hpiece, hcontains⟩ := hcontained entry hentry
      exact ⟨piece, (List.mem_singleton.mp hpiece).symm, hcontains⟩
  | @error fault build hgrows hsound hleft =>
    obtain ⟨⟨cells, hcells⟩, -⟩ := hgrows
    have hwhole := hsound.whole
    rw [show build.staged = [] from hleft, List.append_nil] at hwhole
    right
    refine ⟨fault, { workshop with cells := build.cells }, ?_, resolve_eq_error.mpr hfound, rfl,
      rfl, ⟨[], cells, ?_⟩, hwhole⟩
    · rw [hrun]
      rfl
    · rw [List.append_nil, hcells]

/-- Adapters asked for one after the other. -/
def resolveAll (workshop : Workshop) (types : List Ty) : Workshop :=
  types.foldl (fun workshop type =>
    match adapter type workshop with
    | .ok _ next => next
    | .error _ next => next) workshop

theorem resolveAll_append (workshop : Workshop) (types others : List Ty) :
    workshop.resolveAll (types ++ others) = (workshop.resolveAll types).resolveAll others :=
  List.foldl_append

theorem resolveAll_cons_of_ok {next : Workshop} (h : adapter type workshop = .ok handle next)
    (types : List Ty) : workshop.resolveAll (type :: types) = next.resolveAll types := by
  unfold resolveAll
  rw [List.foldl_cons, h]

theorem resolveAll_cons_of_error {next : Workshop} {fault : TypeFault}
    (h : adapter type workshop = .error fault next) (types : List Ty) :
    workshop.resolveAll (type :: types) = next.resolveAll types := by
  unfold resolveAll
  rw [List.foldl_cons, h]

/-- **Whatever has been asked for**, the workshop is whole and has resolved what the registry has. -/
theorem whole_resolveAll : ∀ (types : List Ty) {workshop : Workshop}, workshop.Whole →
    (workshop.resolveAll types).Whole ∧ workshop.Grows (workshop.resolveAll types) ∧
      (workshop.resolveAll types).registry = workshop.registry.resolveAll types
  | [], workshop, hwhole => ⟨hwhole, .refl workshop, rfl⟩
  | type :: types, workshop, hwhole => by
    rcases adapter_mirrors hwhole type with
      ⟨handle, next, hadapter, hresolve, hgrows, hnext, -⟩ |
      ⟨fault, next, hadapter, hresolve, hregistry, -, hgrows, hnext⟩
    · obtain ⟨hlast, hgrows', hregistry⟩ := whole_resolveAll types hnext
      rw [resolveAll_cons_of_ok hadapter, Registry.resolveAll_cons_of_ok hresolve]
      exact ⟨hlast, hgrows.trans hgrows', hregistry⟩
    · obtain ⟨hlast, hgrows', hlater⟩ := whole_resolveAll types hnext
      rw [resolveAll_cons_of_error hadapter, Registry.resolveAll_cons_of_error hresolve,
        ← hregistry]
      exact ⟨hlast, hgrows.trans hgrows', hlater⟩

end Workshop

end RemoteCall
