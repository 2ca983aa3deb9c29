/-
# What can be finished can be read

A stream is well-formed in the making: its elements so far are whole, and so are the elements of
every scope that is still open (`Underway`).  Each primitive that succeeds keeps this, and closing a
scope makes one element of it (`Underway.close`).  A refusal that leaves nothing behind keeps it as
well, hence so does any sequence of primitives with such refusals only, and what is finished then is
a stream of values (`dump_attempts`).

The refusals that do leave something behind are no such thing.  They use up an announcement or leave
a tag while the writer thinks that nothing has happened, and it goes on to finish a stream that
nobody can read (`dump_attempts_other_kind`).
-/
import RemoteCall.Proofs.Value.Grammar
import RemoteCall.Proofs.Wire.Refusals

namespace RemoteCall

open Wire Wire.Reader Success

namespace Wire

/-! ## 1. Streams in the making -/

/-- The bytes so far of a stream whose scopes are open: whole elements in each of them, innermost
last, and nothing nested too deep. -/
inductive Underway : List Scope → Bytes → Prop where
  | stream (trees : List Tree) (hdepth : ∀ tree ∈ trees, tree.depth ≤ room []) :
    Underway [] (trees.flatMap Tree.bytes)
  | array {scopes : List Scope} {outer : Bytes} {name? : Option (SizedText 2)}
    (houter : Underway scopes outer) (hnames : Names scopes name?) (hroom : scopes.length < maxDepth)
    (items : List Tree) (hdepth : ∀ item ∈ items, item.depth ≤ room (.array :: scopes)) :
    Underway (.array :: scopes) (outer ++ Token.beginArray.tag :: Element.nameBytes name? ++
      items.flatMap Element.bytes)
  | object {scopes : List Scope} {outer : Bytes} {name? : Option (SizedText 2)}
    (houter : Underway scopes outer) (hnames : Names scopes name?) (hroom : scopes.length < maxDepth)
    (entries : List (SizedText 2 × Tree))
    (hdepth : ∀ entry ∈ entries, entry.2.depth ≤ room (.object :: scopes)) :
    Underway (.object :: scopes) (outer ++ Token.beginObject.tag :: Element.nameBytes name? ++
      entries.flatMap Element.bytes)

namespace Underway

variable {scopes : List Scope} {bytes : Bytes} {name? : Option (SizedText 2)} {tree : Tree}

/-- **A whole element more**, with a name exactly inside an object. -/
theorem element (h : Underway scopes bytes) (hnames : Names scopes name?)
    (hdepth : tree.depth ≤ room scopes) :
    Underway scopes (bytes ++ tree.tag :: (Element.nameBytes name? ++ tree.payload)) := by
  cases h with
  | @stream trees hall =>
    obtain rfl : name? = none := by simpa [Names] using hnames
    have hmore : ∀ one ∈ trees ++ [tree], one.depth ≤ room [] := by
      simpa [or_imp, forall_and] using ⟨hall, hdepth⟩
    simpa [Element.nameBytes, Tree.bytes] using Underway.stream _ hmore
  | @array scopes outer _ houter houterName hroom items hall =>
    obtain rfl : name? = none := by simpa [Names] using hnames
    have hmore : ∀ one ∈ items ++ [tree], one.depth ≤ room (.array :: scopes) := by
      simpa [or_imp, forall_and] using ⟨hall, hdepth⟩
    simpa [Element.nameBytes, Tree.bytes, Element.bytes_tree] using
      Underway.array houter houterName hroom _ hmore
  | @object scopes outer _ houter houterName hroom entries hall =>
    obtain ⟨name, rfl⟩ : ∃ name, name? = some name :=
      Option.isSome_iff_exists.mp (hnames.mpr rfl)
    have hmore : ∀ one ∈ entries ++ [(name, tree)], one.2.depth ≤ room (.object :: scopes) := by
      intro one hone
      rcases List.mem_append.mp hone with hone | hone
      · exact hall one hone
      · obtain rfl := List.mem_singleton.mp hone
        exact hdepth
    simpa [Element.nameBytes, Element.bytes_entry] using
      Underway.object houter houterName hroom _ hmore

/-- **A scope that is closed** is an element of the scope around it. -/
theorem close {scope : Scope} (h : Underway (scope :: scopes) bytes) :
    Underway scopes (bytes ++ [scope.closing.tag]) := by
  cases h with
  | @array _ outer name? houter hnames hroom items hdepth =>
    have hwhole := houter.element hnames (gathers_array.depth_le_room_iff.mpr ⟨hroom, hdepth⟩)
    simpa [gathers_array.payload, Tree.tag, Token.tag] using hwhole
  | @object _ outer name? houter hnames hroom entries hdepth =>
    have hwhole := houter.element hnames (gathers_object.depth_le_room_iff.mpr ⟨hroom, hdepth⟩)
    simpa [gathers_object.payload, Tree.tag, Token.tag] using hwhole

/-- With no scope open the bytes are those of whole values. -/
theorem exists_trees (h : Underway [] bytes) :
    ∃ trees : List Tree, bytes = trees.flatMap Tree.bytes ∧ ∀ tree ∈ trees, tree.depth ≤ room [] := by
  cases h with
  | stream trees hdepth => exact ⟨trees, rfl, hdepth⟩

end Underway

/-! ## 2. Writers -/

namespace Writer

variable {op : Op} {out : Array UInt8} {scopes : List Scope} {announced : Option Token}
  {token : Token} {before after : Writer}

/-- The writer has written a stream in the making, and behind it the tag and the name of the value
that it knows to be announced. -/
inductive Sound : Writer → Prop where
  | settled {out : Array UInt8} {scopes : List Scope} (h : Underway scopes out.toList) :
    Sound ⟨out, scopes, none⟩
  | pending {out : Array UInt8} {scopes : List Scope} (h : Underway scopes out.toList)
    (hobject : scopes.head? = some .object) (token : Token) (name : SizedText 2) :
    Sound ⟨out ++ (token.tag :: name.bytes), scopes, some token⟩

theorem sound_new : Sound new := .settled (.stream [] (by simp))

theorem Sound.isSettled (h : Sound before) : Settled before.scopes before.announced := by
  cases h with
  | settled => exact settled_none
  | pending _ hobject => exact fun hno => absurd hobject hno

/-- Where a value begins, its tag and its name follow whole elements. -/
theorem Sound.begins (h : Sound ⟨out, scopes, announced⟩) (hawaits : Awaits scopes announced token) :
    ∃ whole name?, Underway scopes whole ∧ Names scopes name? ∧
      (out ++ lead scopes token).toList = whole ++ token.tag :: Element.nameBytes name? := by
  cases h with
  | settled h =>
    have hno : scopes.head? ≠ some .object := fun hobject => by cases hawaits hobject
    refine ⟨out.toList, none, h, by simp [Names, hno], ?_⟩
    simp [lead, hno, Element.nameBytes]
  | @pending out scopes h hobject found name =>
    obtain rfl : found = token := Option.some.inj (hawaits hobject)
    refine ⟨out.toList, some name, h, by simp [Names, hobject], ?_⟩
    simp [lead, hobject, Element.nameBytes]

/-- A value whose payload follows at once is a whole element. -/
theorem Sound.scalar (h : Sound ⟨out, scopes, announced⟩) (tree : Tree)
    (hawaits : Awaits scopes announced tree.token) (hdepth : tree.depth = 0) :
    Sound ⟨out ++ (lead scopes tree.token ++ tree.payload), scopes, none⟩ := by
  obtain ⟨whole, name?, hwhole, hnames, hbytes⟩ := h.begins hawaits
  have hmore := hwhole.element hnames (hdepth.trans_le (Nat.zero_le _))
  refine .settled ?_
  rw [← append_append, Array.toList_appendList, hbytes, List.append_assoc, List.cons_append,
    Tree.tag_token]
  exact hmore

/-- A value that is a scope has no elements yet. -/
theorem Sound.opens {scope : Scope} (h : Sound ⟨out, scopes, announced⟩)
    (hawaits : Awaits scopes announced token)
    (hopen : ∀ {whole : Bytes} {name? : Option (SizedText 2)}, Underway scopes whole →
      Names scopes name? →
      Underway (scope :: scopes) (whole ++ token.tag :: Element.nameBytes name?)) :
    Sound ⟨out ++ lead scopes token, scope :: scopes, none⟩ := by
  obtain ⟨whole, name?, hwhole, hnames, hbytes⟩ := h.begins hawaits
  refine .settled ?_
  rw [hbytes]
  exact hopen hwhole hnames

/-- **One step.**  A primitive that succeeds leaves a stream in the making. -/
theorem Sound.write {u : Unit} (h : Sound before) (hwrite : op.write before = .ok u after) :
    Sound after := by
  have hsettled := h.isSettled
  obtain ⟨out, scopes, announced⟩ := before
  cases op
  case name text token =>
    obtain ⟨hobject, rfl, -, name, rfl, rfl⟩ := writeName_ok.mp hwrite
    cases h with
    | settled h => exact .pending h hobject token name
  case number n =>
    obtain ⟨hawaits, rfl⟩ := (writeNumber_ok hsettled).mp hwrite
    exact h.scalar (.number n) hawaits rfl
  case string text =>
    obtain ⟨sized, rfl, hawaits, rfl⟩ := (writeString_ok hsettled).mp hwrite
    exact h.scalar (.string sized) hawaits rfl
  case boolean b =>
    obtain ⟨hawaits, rfl⟩ := (writeBool_ok hsettled).mp hwrite
    exact h.scalar (.boolean b) hawaits rfl
  case opens scope =>
    cases scope
    case array =>
      obtain ⟨hawaits, hroom, rfl⟩ := (beginArray_ok hsettled).mp hwrite
      exact h.opens hawaits fun hwhole hnames => by
        simpa using Underway.array hwhole hnames hroom [] (by simp)
    case object =>
      obtain ⟨hawaits, hroom, rfl⟩ := (beginObject_ok hsettled).mp hwrite
      exact h.opens hawaits fun hwhole hnames => by
        simpa using Underway.object hwhole hnames hroom [] (by simp)
  case closes scope =>
    have hclose : close scope ⟨out, scopes, announced⟩ = .ok u after := by
      cases scope <;> exact hwrite
    obtain ⟨hscope, rfl, rfl⟩ := close_ok.mp hclose
    obtain ⟨scopes, rfl⟩ : ∃ outer, scopes = scope :: outer := by
      cases scopes <;> cases hscope
      exact ⟨_, rfl⟩
    cases h with
    | settled h =>
      refine .settled ?_
      rw [Array.toList_appendList]
      exact h.close

/-- **A run.**  So does a sequence of primitives whose refusals leave nothing behind. -/
theorem Sound.attempts : ∀ (ops : List Op) {writer : Writer}, Sound writer →
    (∀ error ∈ refusals ops writer, error.leavesRemains = false) → Sound (attempts ops writer)
  | [], _, h, _ => h
  | op :: ops, writer, h, hrefusals => by
    obtain ⟨hfirst, hothers⟩ := List.forall_mem_append.mp hrefusals
    refine Sound.attempts ops ?_ hothers
    cases hwrite : op.write writer with
    | ok u after =>
      rw [effect_eq_none_iff.mpr ⟨u, hwrite⟩]
      exact h.write hwrite
    | error error after =>
      rw [effect_eq_some_iff.mpr hwrite] at hfirst ⊢
      have hnone := hfirst error (by simp)
      obtain rfl := (refusal_write h.isSettled hwrite).unchanged_iff.mpr hnone
      exact h

end Writer

end Wire

/-! ## 3. Whole streams -/

namespace Value

open Wire.Writer

/-- **A primitive that is refused leaves the writer as it was, but for two kinds of error**, and what
is finished after other refusals only can be read. -/
theorem dump_attempts (ops : List Op) :
    (∀ (op : Op) (error : Error) (after : Writer),
      op.write (attempts ops new) = .error error after →
      (after = attempts ops new ↔ error.leavesRemains = false)) ∧
    ((∀ error ∈ refusals ops new, error.leavesRemains = false) →
      ∀ bytes after, finish (attempts ops new) = .ok bytes after →
        ∃ values, dump bytes = .ok values) := by
  refine ⟨fun op error after h => (refusal_write (settled_attempts_new ops) h).unchanged_iff,
    fun hrefusals bytes after hfinish => ?_⟩
  have hsound := sound_new.attempts ops hrefusals
  generalize attempts ops new = last at hsound hfinish
  obtain ⟨out, scopes, announced⟩ := last
  obtain ⟨rfl, rfl, -⟩ := finish_ok.mp hfinish
  cases hsound with
  | settled h =>
    obtain ⟨trees, hbytes, hdepth⟩ := h.exists_trees
    rw [hbytes]
    exact ⟨_, dump_stream hdepth (.inr ⟨[], rfl⟩)⟩
  | pending _ hobject => cases hobject

/-- A closing with nothing open, a value without a name, a second name and a closing before the value:
all of these are refused and leave nothing behind, and the stream can be read. -/
theorem dump_attempts_passed_over :
    let ops : List Op := [.closes .object, .opens .object, .string "x", .name "a" .number,
      .name "b" .string, .closes .object, .number 1, .closes .object]
    refusals ops new = [.stream (.notOpen .object), .stream (.valueWithoutName .string),
        .stream (.nameWhilePending "b" .number), .stream (.closedWhilePending .object .number)] ∧
      (∃ after, (Op.closes .array).write (attempts ops new) =
        .error (.stream (.notOpen .array)) after ∧ after = attempts ops new) ∧
      ∃ bytes after, finish (attempts ops new) = .ok bytes after ∧
        ∃ values, dump bytes = .ok values := by
  intro ops
  have hclose : (Op.closes .array).write (attempts ops new) =
      .error (.stream (.notOpen .array)) (attempts ops new) := rfl
  have hfinish : finish (attempts ops new) =
      .ok [6, 1, 0, 1, 0x61, 0, 0, 0, 0, 0, 0, 0, 1, 7, 0] (attempts ops new) := rfl
  exact ⟨rfl, ⟨_, hclose, ((dump_attempts ops).1 _ _ _ hclose).mpr rfl⟩,
    _, _, hfinish, (dump_attempts ops).2 (by decide) _ _ hfinish⟩

/-- A number where a string has been announced is refused, but the object can be closed then, and
the stream that is finished has the tag and the name of a string that is missing. -/
theorem dump_attempts_other_kind :
    ∃ (ops : List Op) (bytes : Bytes) (after : Writer),
      ops = [.opens .object, .name "a" .string, .number 1, .closes .object] ∧
      refusals ops new = [.stream (.announcedOther .string .number)] ∧
      finish (attempts ops new) = .ok bytes after ∧ bytes = [6, 2, 0, 1, 0x61, 7, 0] ∧
      dump bytes = .error (.stream (.truncated 4 5 2)) :=
  ⟨_, _, _, rfl, rfl, rfl, rfl, rfl⟩

end Value

end RemoteCall
