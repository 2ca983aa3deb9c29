/-
# What a placeholder does

What a handle does depends on the adapter that it stands for and on nothing else
(`Handle.conduct_congr`).  As long as there is no such adapter every operation of a placeholder fails
or says no (`Handle.conduct_of_none`).

Outside of constructions a handle that an adapter holds refers to a cached adapter, directly or by a
placeholder whose cell has been filled.  So the whole of what can be got at from a cached adapter is
finished (`Whole.refers`), and it does what the registry says of its type (`Whole.conduct`).  The
proofs of that follow the operations of an adapter, as those of `Linked.complete` and `Linked.alike`
do.
-/
import RemoteCall.Proofs.Typed.Assembling
import RemoteCall.Proofs.Typed.Growing

namespace RemoteCall

open Wire

/-! ## 1. The conduct of adapters and handles -/

/-- All that can be done with an adapter. -/
@[ext]
structure Conduct where
  isAbsent : Datum → Bool
  absent : Except Error Datum
  token : Datum → Except Error Token
  write : Datum → Write Unit
  isObject : Bool
  writeFields : Datum → Write Unit
  read : Read Datum

/-- Nothing that is done fails because a type is still being resolved. -/
structure Conduct.Complete (conduct : Conduct) : Prop where
  absent : ∀ error, conduct.absent = .error error → error.IsSettled
  token : ∀ datum error, conduct.token datum = .error error → error.IsSettled
  write : ∀ datum, Fails Error.IsSettled (conduct.write datum)
  writeFields : ∀ datum, Fails Error.IsSettled (conduct.writeFields datum)
  read : Fails Error.IsSettled conduct.read

namespace Adapter

/-- What an adapter does. -/
def conduct (adapter : Adapter) : Conduct :=
  ⟨adapter.isAbsent, adapter.absent, adapter.token, adapter.write, adapter.isObject,
    adapter.writeFields, adapter.read⟩

theorem Complete.conduct {adapter : Adapter} (h : adapter.Complete) : adapter.conduct.Complete :=
  ⟨h.absent, h.token, h.write, h.writeFields, h.read⟩

theorem Alike.conduct {first second : Adapter} (h : first.Alike second) :
    first.conduct = second.conduct :=
  Conduct.ext h.isAbsent h.absent h.token h.write h.isObject h.writeFields h.read

end Adapter

namespace Handle

variable {cells : List Cell} {type : Ty} {handle other : Handle}

/-- What a handle does. -/
def conduct (cells : List Cell) (type : Ty) (handle : Handle) : Conduct where
  isAbsent datum := handle.isAbsent cells datum type
  absent := handle.absent cells type
  token datum := handle.token cells datum type
  write datum := handle.write cells datum type
  isObject := handle.isObject cells type
  writeFields datum := handle.writeFields cells datum type
  read := handle.read cells type

/-- **A placeholder does what the adapter does that it stands for.** -/
theorem conduct_congr (h : handle.piece? cells = other.piece? cells) :
    handle.conduct cells type = other.conduct cells type := by
  refine Conduct.ext (funext fun datum => ?_) ?_ (funext fun datum => ?_)
    (funext fun datum => ?_) ?_ (funext fun datum => ?_) ?_
  · show handle.isAbsent cells datum type = other.isAbsent cells datum type
    unfold isAbsent
    rw [h]
  · show handle.absent cells type = other.absent cells type
    unfold absent
    rw [h]
  · show handle.token cells datum type = other.token cells datum type
    unfold token
    rw [h]
  · show handle.write cells datum type = other.write cells datum type
    unfold write
    rw [h]
  · show handle.isObject cells type = other.isObject cells type
    unfold isObject
    rw [h]
  · show handle.writeFields cells datum type = other.writeFields cells datum type
    unfold writeFields
    rw [h]
  · show handle.read cells type = other.read cells type
    unfold read readWithin readWith
    rw [h]

/-- A placeholder whose adapter has not been finished is of no use. -/
theorem conduct_of_none (h : handle.piece? cells = none) :
    handle.conduct cells type = {
      isAbsent := fun _ => false
      absent := .error (.value (.unresolved type.name))
      token := fun _ => .error (.value (.unresolved type.name))
      write := fun _ => throw (.value (.unresolved type.name))
      isObject := false
      writeFields := fun _ => throw (.value (.unresolved type.name))
      read := throw (.value (.unresolved type.name)) } := by
  refine Conduct.ext (funext fun datum => ?_) ?_ (funext fun datum => ?_)
    (funext fun datum => ?_) ?_ (funext fun datum => ?_) ?_
  · show handle.isAbsent cells datum type = _
    unfold isAbsent
    rw [h]
  · show handle.absent cells type = _
    unfold absent
    rw [h]
  · show handle.token cells datum type = _
    unfold token
    rw [h]
  · show handle.write cells datum type = _
    unfold write
    rw [h]
  · show handle.isObject cells type = _
    unfold isObject
    rw [h]
  · show handle.writeFields cells datum type = _
    unfold writeFields
    rw [h]
  · show handle.read cells type = _
    unfold read readWithin readWith
    rw [h]

end Handle

namespace Workshop

variable {workshop : Workshop} {type : Ty} {handle : Handle} {piece : Piece}

/-! ## 2. Within reach -/

/-- A handle stands for the cached adapter of a type. -/
def Holds (workshop : Workshop) (type : Ty) (handle : Handle) (piece : Piece) : Prop :=
  workshop.cache.lookup type = some piece ∧ handle.piece? workshop.cells = some piece

/-- A handle refers to a type: it stands for the cached adapter of the type, which is finished. -/
def Refers (workshop : Workshop) (type : Ty) (handle : Handle) : Prop :=
  ∃ piece, workshop.Holds type handle piece

/-- Outside of constructions there is nothing to wait for. -/
theorem refers_of_stands (h : Stands workshop.cells workshop.cache [] type handle) :
    workshop.Refers type handle := by
  cases h with
  | direct hshelved => exact ⟨_, hshelved, rfl⟩
  | @filled cell piece hfilled hshelved =>
    refine ⟨piece, hshelved, ?_⟩
    show workshop.cells[cell]?.bind (·.piece) = _
    rw [hfilled]
    rfl
  | awaited _ hawaited => cases hawaited

theorem Refers.grow {next : Workshop} (h : workshop.Refers type handle)
    (hgrows : workshop.Grows next) : next.Refers type handle := by
  obtain ⟨pieces, cells, rfl⟩ := hgrows
  obtain ⟨piece, hcached, hpiece⟩ := h
  refine ⟨piece, ?_, ?_⟩
  · rw [List.lookup_append, hcached]
    rfl
  · cases handle with
    | direct mine => exact hpiece
    | placeholder cell =>
      obtain ⟨filled, hfilled, hmine⟩ := Option.bind_eq_some_iff.mp hpiece
      show (workshop.cells ++ cells)[cell]?.bind (·.piece) = _
      rw [List.getElem?_append_left (List.getElem?_eq_some_iff.mp hfilled).1]
      exact hpiece

/-- Handles that refer to types, in order. -/
abbrev References (workshop : Workshop) : List Handle → List Ty → Prop :=
  List.Forall₂ fun handle type => workshop.Refers type handle

/-- What the adapter of a type holds, by its rule: nothing that matters if the rule is a custom one,
and else what the rule calls on. -/
inductive Formed (workshop : Workshop) : Ty → Piece → Prop
  | custom {type : Ty} {rule : CustomRule} {held : List Handle} :
    Formed workshop type ⟨.custom rule, held⟩
  | structural {type : Ty} {held : List Handle} (inner : workshop.References held type.inner) :
    Formed workshop type ⟨.structural, held⟩
  | members {name : String} {members : List Member} {held : List Handle}
    (each : workshop.References held (members.map (·.type))) :
    Formed workshop (.model name) ⟨.members members, held⟩

/-- An own adapter is formed by the structure of its type. -/
theorem formed_own {held : List Handle} (hfaultless : type.fault? workshop.catalog = none)
    (hheld : workshop.References held (type.parts workshop.catalog)) :
    workshop.Formed type ⟨type.rule workshop.catalog, held⟩ := by
  cases type
  case model name =>
    cases hmembers : workshop.catalog.lookup name with
    | none => simp [Ty.fault?, hmembers] at hfaultless
    | some members =>
      simp only [Ty.parts, Ty.rule, hmembers] at hheld ⊢
      exact .members hheld
  all_goals exact .structural hheld

/-- What a cached adapter holds refers to the types that its rule was derived from. -/
theorem Whole.held (hwhole : workshop.Whole) (hcached : workshop.cache.lookup type = some piece) :
    ∃ asked, Registry.Derivation workshop.catalog workshop.factories type asked piece.rule ∧
      workshop.References piece.held asked := by
  have hentry : (type, piece) ∈ workshop.shelf ⟨workshop.cells, []⟩ := by
    obtain ⟨before, after, hsplit, -⟩ := List.lookup_eq_some_iff.mp hcached
    unfold shelf
    rw [hsplit]
    simp
  obtain ⟨asked, hderived, hheld⟩ := hwhole.fitted _ hentry
  have hshelf : workshop.shelf ⟨workshop.cells, []⟩ = workshop.cache := List.append_nil _
  rw [hshelf] at hheld
  exact ⟨asked, hderived, hheld.imp fun _ _ => refers_of_stands⟩

/-- A handle that refers to a type stands for an adapter that is formed as it should. -/
theorem Whole.formed (hwhole : workshop.Whole) (h : workshop.Refers type handle) :
    ∃ piece, handle.piece? workshop.cells = some piece ∧
      workshop.registry.cache.rule? type = some piece.rule ∧ workshop.Formed type piece := by
  obtain ⟨⟨rule, held⟩, hcached, hpiece⟩ := h
  refine ⟨⟨rule, held⟩, hpiece, ?_, ?_⟩
  · show (rules workshop.cache).rule? type = _
    rw [rule?_rules, hcached]
    rfl
  · obtain ⟨asked, hderived, hheld⟩ := hwhole.held hcached
    cases hderived with
    | own hfaultless => exact formed_own hfaultless hheld
    | exact _ => exact .custom
    | through _ => exact .custom

/-- What can be got at from a handle, through adapters and placeholders. -/
def Within (workshop : Workshop) : Handle → Handle → Prop :=
  Relation.ReflTransGen fun handle next =>
    ∃ piece, handle.piece? workshop.cells = some piece ∧ next ∈ piece.held

theorem exists_refers_of_mem {held : List Handle} {asked : List Ty}
    (hheld : workshop.References held asked) (hmem : handle ∈ held) :
    ∃ next, workshop.Refers next handle := by
  induction hheld with
  | nil => cases hmem
  | @cons first next _ _ hfirst _ ih =>
    rcases List.mem_cons.mp hmem with rfl | hmem
    · exact ⟨next, hfirst⟩
    · exact ih hmem

/-- **All that can be got at from a cached adapter is finished and cached.** -/
theorem Whole.refers {other : Handle} (hwhole : workshop.Whole)
    (h : workshop.Refers type handle) (hwithin : workshop.Within handle other) :
    ∃ next, workshop.Refers next other := by
  induction hwithin with
  | refl => exact ⟨type, h⟩
  | @tail between last _ hstep ih =>
    obtain ⟨next, found, hcached, hpiece⟩ := ih
    obtain ⟨middle, hmiddle, hmem⟩ := hstep
    obtain rfl : middle = found := Option.some.inj (hmiddle.symm.trans hpiece)
    obtain ⟨asked, -, hheld⟩ := hwhole.held hcached
    exact exists_refers_of_mem hheld hmem

/-! ## 3. Absence and tokens -/

theorem Whole.isAbsent_eq (hwhole : workshop.Whole) (datum : Datum) (type : Ty) (handle : Handle)
    (h : workshop.Refers type handle) :
    handle.isAbsent workshop.cells datum type = workshop.registry.cache.isAbsent datum type := by
  obtain ⟨piece, hpiece, hrule, hformed⟩ := hwhole.formed h
  unfold Handle.isAbsent Table.isAbsent
  rw [hpiece, hrule]
  cases hformed with
  | custom => rfl
  | members _ => rfl
  | structural hheld =>
    cases type
    case option inner =>
      cases datum
      case some datum =>
        obtain _ | ⟨hinner, _ | _⟩ := hheld
        exact hwhole.isAbsent_eq datum inner _ hinner
      all_goals rfl
    case value => cases datum <;> rfl
    all_goals rfl

theorem Whole.token_eq (hwhole : workshop.Whole) (datum : Datum) (type : Ty) (handle : Handle)
    (h : workshop.Refers type handle) :
    handle.token workshop.cells datum type = workshop.registry.cache.token datum type := by
  obtain ⟨piece, hpiece, hrule, hformed⟩ := hwhole.formed h
  unfold Handle.token Table.token
  rw [hpiece, hrule]
  cases hformed with
  | custom => rfl
  | members _ => rfl
  | structural hheld =>
    cases type
    case option inner =>
      cases datum
      case some datum =>
        obtain _ | ⟨hinner, _ | _⟩ := hheld
        exact hwhole.token_eq datum inner _ hinner
      all_goals rfl
    case value => cases datum <;> rfl
    all_goals rfl

theorem Whole.absent_eq (hwhole : workshop.Whole) (h : workshop.Refers type handle) :
    handle.absent workshop.cells type = workshop.registry.cache.absent type := by
  obtain ⟨piece, hpiece, hrule, hformed⟩ := hwhole.formed h
  unfold Handle.absent Table.absent
  rw [hpiece, hrule]
  cases hformed <;> rfl

theorem Whole.isObject_eq (hwhole : workshop.Whole) (h : workshop.Refers type handle) :
    handle.isObject workshop.cells type = workshop.registry.cache.isObject type := by
  obtain ⟨piece, hpiece, hrule, hformed⟩ := hwhole.formed h
  unfold Handle.isObject Table.isObject
  rw [hpiece, hrule]
  cases hformed with
  | custom => rfl
  | members _ => rfl
  | structural _ => cases type <;> rfl

theorem Whole.writeName_eq (hwhole : workshop.Whole) (h : workshop.Refers type handle)
    (name : String) (datum : Datum) :
    handle.writeName workshop.cells name datum type =
      workshop.registry.cache.writeName name datum type := by
  have hsame := hwhole.token_eq datum type handle h
  unfold Handle.writeName Table.writeName
  cases htoken : workshop.registry.cache.token datum type <;> simp only [hsame, htoken]

/-! ## 4. Writing -/

mutual

/-- **A handle writes what the registry writes.**  The induction is on the datum. -/
theorem Whole.write_eq (hwhole : workshop.Whole) :
    ∀ (datum : Datum) (type : Ty) (handle : Handle), workshop.Refers type handle →
      handle.write workshop.cells datum type = workshop.registry.cache.write datum type
  | datum, type, handle, h => by
    obtain ⟨piece, hpiece, hrule, hformed⟩ := hwhole.formed h
    unfold Handle.write Table.write
    rw [hpiece, hrule]
    cases hformed with
    | custom => rfl
    | @members name members held hheld =>
      cases datum
      case record values => simp only [hwhole.writeMembers_eq values members held hheld]
      all_goals rfl
    | structural hheld =>
      cases datum
      case some datum =>
        cases type
        case option inner =>
          obtain _ | ⟨hinner, _ | _⟩ := hheld
          exact hwhole.write_eq datum inner _ hinner
        all_goals rfl
      case list items =>
        cases type
        case list element =>
          obtain _ | ⟨helement, _ | _⟩ := hheld
          simp only [hwhole.writeItems_eq items element _ helement]
        all_goals rfl
      case map entries =>
        cases type
        case map kind element =>
          obtain _ | ⟨helement, _ | _⟩ := hheld
          simp only [hwhole.writeEntries_eq entries element _ helement]
        all_goals rfl
      all_goals rfl

theorem Whole.writeItems_eq (hwhole : workshop.Whole) :
    ∀ (items : List Datum) (element : Ty) (handle : Handle), workshop.Refers element handle →
      handle.writeItems workshop.cells items element =
        workshop.registry.cache.writeItems items element
  | [], _, _, _ => rfl
  | item :: items, element, handle, h => by
    rw [Handle.writeItems, Table.writeItems, hwhole.isAbsent_eq item element handle h,
      hwhole.write_eq item element handle h, hwhole.writeItems_eq items element handle h]

theorem Whole.writeEntries_eq (hwhole : workshop.Whole) :
    ∀ (entries : List (String × Datum)) (element : Ty) (handle : Handle),
      workshop.Refers element handle →
      handle.writeEntries workshop.cells entries element =
        workshop.registry.cache.writeEntries entries element
  | [], _, _, _ => rfl
  | (name, datum) :: entries, element, handle, h => by
    rw [Handle.writeEntries, Table.writeEntries, hwhole.isAbsent_eq datum element handle h,
      hwhole.writeName_eq h, hwhole.write_eq datum element handle h,
      hwhole.writeEntries_eq entries element handle h]

theorem Whole.writeMembers_eq (hwhole : workshop.Whole) :
    ∀ (values : List Datum) (members : List Member) (held : List Handle),
      workshop.References held (members.map (·.type)) →
      Handle.writeMembers workshop.cells values members held =
        workshop.registry.cache.writeMembers values members
  | [], _, _, _ => rfl
  | datum :: values, [], _, _ => rfl
  | datum :: values, member :: members, handle :: held, hheld => by
    obtain ⟨h, hheld⟩ := List.forall₂_cons.mp hheld
    rw [Handle.writeMembers, Table.writeMembers, hwhole.isAbsent_eq datum member.type handle h,
      hwhole.writeName_eq h, hwhole.write_eq datum member.type handle h,
      hwhole.writeMembers_eq values members held hheld]

end

theorem Whole.writeFields_eq (hwhole : workshop.Whole) (h : workshop.Refers type handle)
    (datum : Datum) :
    handle.writeFields workshop.cells datum type =
      workshop.registry.cache.writeFields datum type := by
  obtain ⟨piece, hpiece, hrule, hformed⟩ := hwhole.formed h
  unfold Handle.writeFields Table.writeFields
  rw [hpiece, hrule]
  cases hformed with
  | custom => rfl
  | @members name members held hheld =>
    cases datum
    case record values => exact hwhole.writeMembers_eq values members held hheld
    all_goals rfl
  | structural hheld =>
    cases type
    case map kind element =>
      obtain _ | ⟨helement, _ | _⟩ := hheld
      cases datum
      case map entries => exact hwhole.writeEntries_eq entries element _ helement
      all_goals rfl
    case value =>
      cases datum
      case value value => cases value <;> rfl
      all_goals rfl
    all_goals rfl

/-! ## 5. Reading -/

theorem references_getElem? {members : List Member} {held : List Handle} {index : Nat}
    {member : Member} (hheld : workshop.References held (members.map (·.type)))
    (hmember : members[index]? = some member) :
    ∃ handle, held[index]? = some handle ∧ workshop.Refers member.type handle := by
  obtain ⟨hlength, hget⟩ := List.forall₂_iff_get.mp hheld
  obtain ⟨hindex, rfl⟩ := List.getElem?_eq_some_iff.mp hmember
  rw [List.length_map] at hlength
  have hmine : index < held.length := by omega
  refine ⟨held[index], List.getElem?_eq_getElem hmine, ?_⟩
  have h := hget index hmine (by simpa using hindex)
  simpa using h

theorem readMember_eq {inside : Ty → Handle → Read Datum} {inside' : Ty → Read Datum}
    {members : List Member} {held : List Handle}
    (hheld : workshop.References held (members.map (·.type)))
    (hinside : ∀ type handle, workshop.Refers type handle → inside type handle = inside' type) :
    Handle.readMember inside members held = Table.readMember inside' members := by
  funext values
  unfold Handle.readMember Table.readMember
  congr 1
  funext name
  cases members.findIdx? (·.wireName == name) with
  | none => rfl
  | some index =>
    dsimp only
    cases hmember : members[index]? with
    | none => rfl
    | some member =>
      obtain ⟨handle, hhandle, h⟩ := references_getElem? hheld hmember
      rw [hhandle]
      dsimp only
      rw [hinside member.type handle h]

/-- A handle reads as the registry does if it does so inside of arrays and objects.  The induction
is on the type. -/
theorem Whole.readWith_eq (hwhole : workshop.Whole) {inside : Ty → Handle → Read Datum}
    {inside' : Ty → Read Datum}
    (hinside : ∀ type handle, workshop.Refers type handle → inside type handle = inside' type) :
    ∀ (type : Ty) (handle : Handle), workshop.Refers type handle →
      handle.readWith workshop.cells inside type =
        workshop.registry.cache.readWith inside' type := by
  intro type handle h
  obtain ⟨piece, hpiece, hrule, hformed⟩ := hwhole.formed h
  unfold Handle.readWith Table.readWith
  rw [hpiece, hrule]
  cases hformed with
  | custom => rfl
  | members hheld =>
    dsimp only
    rw [readMember_eq hheld hinside]
  | structural hheld =>
    cases type
    case option inner =>
      obtain _ | ⟨hinner, _ | _⟩ := hheld
      simp only [hwhole.readWith_eq hinside inner _ hinner]
    case list element =>
      obtain _ | ⟨helement, _ | _⟩ := hheld
      simp only [hinside element _ helement]
    case map kind element =>
      obtain _ | ⟨helement, _ | _⟩ := hheld
      simp only [hinside element _ helement]
    all_goals rfl

theorem Whole.readWithin_eq (hwhole : workshop.Whole) :
    ∀ (budget : Nat) (type : Ty) (handle : Handle), workshop.Refers type handle →
      handle.readWithin workshop.cells budget type =
        workshop.registry.cache.readWithin budget type
  | 0, _, _, _ => rfl
  | budget + 1, type, handle, h =>
    hwhole.readWith_eq (hwhole.readWithin_eq budget) type handle h

/-- **A handle does what the registry says of its type.** -/
theorem Whole.conduct (hwhole : workshop.Whole) (h : workshop.Refers type handle) :
    handle.conduct workshop.cells type = (workshop.registry.adapter type).conduct :=
  Conduct.ext (funext fun datum => hwhole.isAbsent_eq datum type handle h) (hwhole.absent_eq h)
    (funext fun datum => hwhole.token_eq datum type handle h)
    (funext fun datum => hwhole.write_eq datum type handle h) (hwhole.isObject_eq h)
    (funext fun datum => hwhole.writeFields_eq h datum)
    (hwhole.readWithin_eq _ type handle h)

end Workshop

end RemoteCall
