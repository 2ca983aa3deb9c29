/-
# What a writer writes

An operation that writes one value is described by the tree it writes, if it writes one:
`Writes write scopes tree?` says that `write` succeeds exactly if there is such a tree, it fits the
nesting limit and, inside an object, its token has been announced; and that it then appends the
tree's bytes, of which inside an object the tag is out already.  `WritesAll` says the same of an
operation that writes the elements of the innermost scope.

With the recognizers this leaves nothing of the two machines: what was written is read back if the
tree means what was written.
-/
import RemoteCall.Proofs.Success
import RemoteCall.Proofs.Wire.Tree
import RemoteCall.Wire.Writer

namespace RemoteCall.Wire

open Success

/-- A text with its size, if the size fits. -/
def SizedText.of? {width : Nat} (text : String) : Option (SizedText width) :=
  if fits : text.utf8ByteSize < 256 ^ width then some ⟨text, fits⟩ else none

theorem SizedText.of?_eq_some_iff {width : Nat} {text : String} {sized : SizedText width} :
    of? text = some sized ↔ sized.text = text := by
  unfold of?
  split
  · rename_i fits
    rw [Option.some.injEq]
    constructor
    · rintro rfl
      rfl
    · rintro rfl
      rfl
  · rename_i fits
    simp only [reduceCtorEq, false_iff]
    rintro rfl
    exact fits sized.fits

namespace Writer

variable {out : Array UInt8} {scopes : List Scope} {announced : Option Token} {after : Writer}

/-! ## 1. Bytes and scopes -/

theorem append_append (out : Array UInt8) (first second : Bytes) :
    out ++ first ++ second = out ++ (first ++ second) := by
  apply Array.toList_inj.mp
  simp only [Array.toList_appendList, List.append_assoc]

theorem append_nil (out : Array UInt8) : out ++ ([] : Bytes) = out := by
  apply Array.toList_inj.mp
  rw [Array.toList_appendList, List.append_nil]

@[simp] theorem scope?_mk : (⟨out, scopes, announced⟩ : Writer).scope? = scopes.head? := by
  rfl

@[simp] theorem depth_mk : (⟨out, scopes, announced⟩ : Writer).depth = scopes.length := by
  rfl

@[simp] theorem fail_ok {α : Type} {fault : StreamFault} {a : α} {before : Writer} :
    (fail fault : Write α) before = .ok a after ↔ False :=
  throw_ok

theorem emit_ok {bytes : Bytes} {u : Unit} :
    emit bytes ⟨out, scopes, announced⟩ = .ok u after ↔
      after = ⟨out ++ bytes, scopes, announced⟩ :=
  modify_ok

@[simp] theorem emit_bind {α : Type} {bytes : Bytes} {f : Unit → Write α} :
    (emit bytes >>= f) ⟨out, scopes, announced⟩ = f () ⟨out ++ bytes, scopes, announced⟩ := by
  rfl

/-- Only inside an object is a value announced. -/
def Settled (scopes : List Scope) (announced : Option Token) : Prop :=
  scopes.head? ≠ some .object → announced = none

/-- A value may begin here: inside an object it must have been announced. -/
def Awaits (scopes : List Scope) (announced : Option Token) (token : Token) : Prop :=
  scopes.head? = some .object → announced = some token

/-- The bytes with which a value begins: its tag, unless the name before it brought the tag. -/
def lead (scopes : List Scope) (token : Token) : Bytes :=
  if scopes.head? = some .object then [] else [token.tag]

theorem settled_none : Settled scopes none := fun _ => rfl

theorem openValue_ok {token : Token} {u : Unit} (h : Settled scopes announced) :
    openValue token ⟨out, scopes, announced⟩ = .ok u after ↔
      Awaits scopes announced token ∧ after = ⟨out ++ lead scopes token, scopes, none⟩ := by
  unfold openValue
  simp only [get_bind, scope?_mk]
  by_cases hobject : scopes.head? = some .object
  · rw [if_pos hobject]
    simp only [modify_bind, Awaits, lead, hobject, if_true, true_implies, append_nil]
    cases announced with
    | none => simp
    | some found =>
      by_cases hfound : found = token
      · simp [hfound]
      · simp [hfound]
  · obtain rfl := h hobject
    rw [if_neg hobject, emit_ok]
    simp [Awaits, lead, hobject]

theorem writeName_ok {name : String} {token : Token} {u : Unit} :
    writeName name token ⟨out, scopes, announced⟩ = .ok u after ↔
      scopes.head? = some .object ∧ announced = none ∧ token.startsValue = true ∧
        ∃ sized : SizedText 2, sized.text = name ∧
          after = ⟨out ++ (token.tag :: sized.bytes), scopes, some token⟩ := by
  unfold writeName
  simp only [get_bind, scope?_mk]
  by_cases hobject : scopes.head? = some .object
  · rw [if_pos hobject]
    cases announced with
    | some found => simp
    | none =>
      by_cases hvalue : token.startsValue = true
      · simp only [hvalue, if_true]
        by_cases hfits : name.utf8ByteSize < UInt16.size
        · rw [if_pos hfits]
          simp only [emit_bind, modify_ok, append_append, hobject, true_and]
          constructor
          · rintro rfl
            exact ⟨⟨name, hfits⟩, rfl, rfl⟩
          · rintro ⟨sized, rfl, rfl⟩
            rfl
        · rw [if_neg hfits]
          simp only [throw_ok, hobject, true_and, false_iff]
          rintro ⟨sized, rfl, -⟩
          exact hfits sized.fits
      · simp [hvalue]
  · simp [hobject]

theorem push_ok {scope : Scope} {u : Unit} :
    push scope ⟨out, scopes, announced⟩ = .ok u after ↔
      scopes.length < maxDepth ∧ after = ⟨out, scope :: scopes, announced⟩ := by
  unfold push
  simp only [get_bind, depth_mk]
  by_cases h : scopes.length < maxDepth <;> simp [h]

theorem close_ok {scope : Scope} {u : Unit} :
    close scope ⟨out, scopes, announced⟩ = .ok u after ↔
      scopes.head? = some scope ∧ announced = none ∧
        after = ⟨out ++ [scope.closing.tag], scopes.tail, none⟩ := by
  unfold close
  simp only [get_bind, scope?_mk]
  by_cases h : scopes.head? = some scope
  · rw [if_pos h]
    cases announced with
    | some found => simp
    | none => simp [h]
  · simp [h]

theorem finish_ok {bytes : Bytes} :
    finish ⟨out, scopes, announced⟩ = .ok bytes after ↔
      scopes = [] ∧ bytes = out.toList ++ [0x00] ∧ after = ⟨out, scopes, announced⟩ := by
  unfold finish
  simp only [get_bind, scope?_mk]
  cases scopes with
  | nil => simp [Writer.bytes, Token.tag]
  | cons scope scopes => simp

/-! ## 2. Scalars and boundaries -/

theorem writeNumber_ok {n : Int64} {u : Unit} (h : Settled scopes announced) :
    writeNumber n ⟨out, scopes, announced⟩ = .ok u after ↔
      Awaits scopes announced .number ∧
        after = ⟨out ++ (lead scopes .number ++ Bytes.ofInt64 n), scopes, none⟩ := by
  unfold writeNumber
  simp only [bind_ok, openValue_ok h]
  constructor
  · rintro ⟨_, _, ⟨hawaits, rfl⟩, hemit⟩
    exact ⟨hawaits, by rw [← append_append]; exact emit_ok.mp hemit⟩
  · rintro ⟨hawaits, rfl⟩
    exact ⟨(), _, ⟨hawaits, rfl⟩, emit_ok.mpr (by rw [append_append])⟩

theorem writeString_ok {text : String} {u : Unit} (h : Settled scopes announced) :
    writeString text ⟨out, scopes, announced⟩ = .ok u after ↔
      ∃ sized : SizedText 4, sized.text = text ∧ Awaits scopes announced .string ∧
        after = ⟨out ++ (lead scopes .string ++ sized.bytes), scopes, none⟩ := by
  unfold writeString
  by_cases hfits : text.utf8ByteSize < UInt32.size
  · rw [if_pos hfits]
    simp only [bind_ok (x := openValue _), openValue_ok h]
    constructor
    · rintro ⟨_, _, ⟨hawaits, rfl⟩, hemit⟩
      rw [emit_bind] at hemit
      refine ⟨⟨text, hfits⟩, rfl, hawaits, ?_⟩
      rw [emit_ok.mp hemit, append_append, append_append]
      rfl
    · rintro ⟨sized, rfl, hawaits, rfl⟩
      refine ⟨(), _, ⟨hawaits, rfl⟩, ?_⟩
      rw [emit_bind, emit_ok, append_append, append_append]
      rfl
  · rw [if_neg hfits, throw_ok, false_iff]
    rintro ⟨sized, rfl, -⟩
    exact hfits sized.fits

theorem writeBool_ok {b : Bool} {u : Unit} (h : Settled scopes announced) :
    writeBool b ⟨out, scopes, announced⟩ = .ok u after ↔
      Awaits scopes announced .boolean ∧
        after = ⟨out ++ (lead scopes .boolean ++ [if b then 0x01 else 0x00]), scopes, none⟩ := by
  unfold writeBool
  simp only [bind_ok, openValue_ok h]
  constructor
  · rintro ⟨_, _, ⟨hawaits, rfl⟩, hemit⟩
    exact ⟨hawaits, by rw [← append_append]; exact emit_ok.mp hemit⟩
  · rintro ⟨hawaits, rfl⟩
    exact ⟨(), _, ⟨hawaits, rfl⟩, emit_ok.mpr (by rw [append_append])⟩

/-- A scope is opened where a value may begin. -/
theorem opens_ok {opening : Token} {scope : Scope} {u : Unit} (h : Settled scopes announced) :
    (do openValue opening; push scope) ⟨out, scopes, announced⟩ = .ok u after ↔
      Awaits scopes announced opening ∧ scopes.length < maxDepth ∧
        after = ⟨out ++ lead scopes opening, scope :: scopes, none⟩ := by
  simp only [bind_ok, openValue_ok h]
  constructor
  · rintro ⟨_, _, ⟨hawaits, rfl⟩, hpush⟩
    exact ⟨hawaits, push_ok.mp hpush⟩
  · rintro ⟨hawaits, hpush⟩
    exact ⟨(), _, ⟨hawaits, rfl⟩, push_ok.mpr hpush⟩

theorem beginArray_ok {u : Unit} (h : Settled scopes announced) :
    beginArray ⟨out, scopes, announced⟩ = .ok u after ↔
      Awaits scopes announced .beginArray ∧ scopes.length < maxDepth ∧
        after = ⟨out ++ lead scopes .beginArray, .array :: scopes, none⟩ :=
  opens_ok h

theorem beginObject_ok {u : Unit} (h : Settled scopes announced) :
    beginObject ⟨out, scopes, announced⟩ = .ok u after ↔
      Awaits scopes announced .beginObject ∧ scopes.length < maxDepth ∧
        after = ⟨out ++ lead scopes .beginObject, .object :: scopes, none⟩ :=
  opens_ok h

/-! ## 3. Writing one value, and the elements of a scope -/

variable {ε : Type} [Element ε]

/-- `write` writes the tree, if there is one and it may stand here. -/
def Writes (write : Write Unit) (scopes : List Scope) (tree? : Option Tree) : Prop :=
  ∀ (out : Array UInt8) (announced : Option Token) (u : Unit) (after : Writer),
    Settled scopes announced →
    (write ⟨out, scopes, announced⟩ = .ok u after ↔
      ∃ tree, tree? = some tree ∧ Awaits scopes announced tree.token ∧ tree.depth ≤ room scopes ∧
        after = ⟨out ++ (lead scopes tree.token ++ tree.payload), scopes, none⟩)

/-- `write` writes the elements, if there are any and they fit. -/
def WritesAll (write : Write Unit) (scopes : List Scope) (elements? : Option (List ε)) : Prop :=
  ∀ (out : Array UInt8) (u : Unit) (after : Writer),
    write ⟨out, scopes, none⟩ = .ok u after ↔
      ∃ elements, elements? = some elements ∧
        (∀ element ∈ elements, (Element.tree element).depth ≤ room scopes) ∧
        after = ⟨out ++ elements.flatMap Element.bytes, scopes, none⟩

theorem writes_number (n : Int64) : Writes (writeNumber n) scopes (some (.number n)) := by
  intro out announced u after h
  simp [writeNumber_ok h, Tree.token, Tree.depth, Tree.payload]

theorem writes_string (text : String) :
    Writes (writeString text) scopes ((SizedText.of? text).map .string) := by
  intro out announced u after h
  simp only [writeString_ok h, Option.map_eq_some_iff, SizedText.of?_eq_some_iff]
  constructor
  · rintro ⟨sized, rfl, hawaits, rfl⟩
    exact ⟨.string sized, ⟨sized, rfl, rfl⟩, hawaits, Nat.zero_le _, rfl⟩
  · rintro ⟨_, ⟨sized, rfl, rfl⟩, hawaits, -, rfl⟩
    exact ⟨sized, rfl, hawaits, rfl⟩

theorem writes_bool (b : Bool) : Writes (writeBool b) scopes (some (.boolean b)) := by
  intro out announced u after h
  simp [writeBool_ok h, Tree.token, Tree.depth, Tree.payload]

theorem writes_throw {error : Error} : Writes (throw error) scopes none := by
  intro out announced u after _
  simp

theorem writesAll_nil : WritesAll (pure ()) scopes (some ([] : List ε)) := by
  intro out u after
  simp

theorem writesAll_throw {error : Error} :
    WritesAll (throw error) scopes (none : Option (List ε)) := by
  intro out u after
  simp

/-- Elements are written one part after the other. -/
theorem WritesAll.append {first second : Write Unit} {elements? more? : Option (List ε)}
    (hfirst : WritesAll first scopes elements?) (hsecond : WritesAll second scopes more?) :
    WritesAll (do first; second) scopes
      (elements?.bind fun elements => more?.map (elements ++ ·)) := by
  intro out u after
  simp only [bind_ok, hfirst out, Option.bind_eq_some_iff, Option.map_eq_some_iff]
  constructor
  · rintro ⟨_, _, ⟨elements, helements, hdepth, rfl⟩, h⟩
    obtain ⟨more, hmore, hdepth', rfl⟩ := (hsecond _ _ _).mp h
    refine ⟨elements ++ more, ⟨elements, helements, more, hmore, rfl⟩, ?_, ?_⟩
    · exact List.forall_mem_append.mpr ⟨hdepth, hdepth'⟩
    · rw [append_append, List.flatMap_append]
  · rintro ⟨_, ⟨elements, helements, more, hmore, rfl⟩, hdepth, rfl⟩
    obtain ⟨hdepth, hdepth'⟩ := List.forall_mem_append.mp hdepth
    refine ⟨(), _, ⟨elements, helements, hdepth, rfl⟩,
      (hsecond _ _ _).mpr ⟨more, hmore, hdepth', ?_⟩⟩
    rw [append_append, List.flatMap_append]

/-- Where values have no names, a value is an element. -/
theorem Writes.item {write : Write Unit} {tree? : Option Tree} (h : Writes write scopes tree?)
    (hs : scopes.head? ≠ some .object) :
    WritesAll write scopes (tree?.map fun tree => [tree]) := by
  intro out u after
  simp only [h out none u after settled_none, Option.map_eq_some_iff]
  constructor
  · rintro ⟨tree, rfl, -, hdepth, rfl⟩
    refine ⟨[tree], ⟨tree, rfl, rfl⟩, List.forall_mem_singleton.mpr hdepth, ?_⟩
    simp [lead, hs, Element.bytes_tree, Tree.bytes]
  · rintro ⟨_, ⟨tree, rfl, rfl⟩, hdepth, rfl⟩
    refine ⟨tree, rfl, fun h => absurd h hs, hdepth tree (List.mem_singleton_self tree), ?_⟩
    simp [lead, hs, Element.bytes_tree, Tree.bytes]

/-- Inside an object a value is an element together with the name that announces it. -/
theorem Writes.entry {write : Write Unit} {tree? : Option Tree} {token : Token}
    (h : Writes write (.object :: scopes) tree?) (name : String)
    (htoken : ∀ tree, tree? = some tree → tree.token = token) :
    WritesAll (do writeName name token; write) (.object :: scopes)
      ((SizedText.of? name).bind fun (name : SizedText 2) =>
        tree?.map fun tree => [(name, tree)]) := by
  intro out u after
  simp only [bind_ok, writeName_ok, List.head?_cons, true_and, Option.bind_eq_some_iff,
    Option.map_eq_some_iff, SizedText.of?_eq_some_iff]
  constructor
  · rintro ⟨_, _, ⟨-, sized, rfl, rfl⟩, hwrite⟩
    have hsettled : Settled (.object :: scopes) (some token) := fun h => absurd rfl h
    obtain ⟨tree, rfl, -, hdepth, rfl⟩ := (h _ _ _ _ hsettled).mp hwrite
    refine ⟨[(sized, tree)], ⟨sized, rfl, tree, rfl, rfl⟩,
      List.forall_mem_singleton.mpr hdepth, ?_⟩
    simp [lead, append_append, Element.bytes_entry, ← htoken tree rfl]
  · rintro ⟨_, ⟨sized, rfl, tree, rfl, rfl⟩, hdepth, rfl⟩
    obtain rfl := htoken tree rfl
    have hsettled : Settled (.object :: scopes) (some tree.token) := fun h => absurd rfl h
    refine ⟨(), _, ⟨Tree.startsValue_token tree, sized, rfl, rfl⟩, (h _ _ _ _ hsettled).mpr
      ⟨tree, rfl, fun _ => rfl, hdepth (sized, tree) (List.mem_singleton_self _), ?_⟩⟩
    simp [lead, append_append, Element.bytes_entry]

/-- **A scope is written around its elements.** -/
theorem writes_scope {scope : Scope} {opening : Token} {gather : List ε → Tree} {write : Write Unit}
    {elements? : Option (List ε)} (hgather : Gathers scope opening gather)
    (h : WritesAll write (scope :: scopes) elements?) :
    Writes (do (do openValue opening; push scope); write; close scope) scopes
      (elements?.map gather) := by
  have hbytes : ∀ (out : Array UInt8) (elements : List ε),
      out ++ lead scopes opening ++ elements.flatMap Element.bytes ++ [scope.closing.tag] =
        out ++ (lead scopes (gather elements).token ++ (gather elements).payload) := by
    intro out elements
    rw [append_append, append_append, hgather.token, hgather.payload]
  intro out announced u after hsettled
  rw [bind_ok]
  simp only [opens_ok hsettled, bind_ok, Option.map_eq_some_iff]
  constructor
  · rintro ⟨_, _, ⟨hawaits, hroom, rfl⟩, _, _, hwrite, hclose⟩
    obtain ⟨elements, rfl, hdepth, rfl⟩ := (h _ _ _).mp hwrite
    obtain ⟨-, -, rfl⟩ := close_ok.mp hclose
    refine ⟨gather elements, ⟨elements, rfl, rfl⟩, ?_, ?_, ?_⟩
    · rw [hgather.token]
      exact hawaits
    · exact hgather.depth_le_room_iff.mpr ⟨hroom, hdepth⟩
    · rw [hbytes]
      rfl
  · rintro ⟨_, ⟨elements, rfl, rfl⟩, hawaits, hdepth, rfl⟩
    rw [hgather.token] at hawaits
    obtain ⟨hroom, hdepth⟩ := hgather.depth_le_room_iff.mp hdepth
    have hclose : close scope ⟨out ++ lead scopes opening ++ elements.flatMap Element.bytes,
        scope :: scopes, none⟩ = .ok u _ :=
      close_ok.mpr ⟨rfl, rfl, rfl⟩
    rw [hbytes] at hclose
    exact ⟨(), _, ⟨hawaits, hroom, rfl⟩, (), _, (h _ _ _).mpr ⟨elements, rfl, hdepth, rfl⟩, hclose⟩

theorem writes_array {write : Write Unit} {items? : Option (List Tree)}
    (h : WritesAll write (.array :: scopes) items?) :
    Writes (do beginArray; write; endArray) scopes (items?.map .array) :=
  writes_scope gathers_array h

theorem writes_object {write : Write Unit} {entries? : Option (List (SizedText 2 × Tree))}
    (h : WritesAll write (.object :: scopes) entries?) :
    Writes (do beginObject; write; endObject) scopes (entries?.map .object) :=
  writes_scope gathers_object h

/-! ## 4. Whole streams -/

/-- **The bytes of a stream** are those of the elements written, and then the terminator. -/
theorem toBytes_eq_ok_iff {write : Write Unit} {trees? : Option (List Tree)}
    (h : WritesAll write [] trees?) {bytes : Bytes} :
    toBytes write = .ok bytes ↔
      ∃ trees, trees? = some trees ∧ (∀ tree ∈ trees, tree.depth ≤ maxDepth) ∧
        bytes = trees.flatMap Tree.bytes ++ [0x00] := by
  have hrun : toBytes write = .ok bytes ↔ ∃ after, (do write; finish) new = .ok bytes after := by
    unfold toBytes
    simp only [EStateM.run]
    cases (do write; finish : Write Bytes) new <;> simp
  rw [hrun]
  simp only [bind_ok]
  constructor
  · rintro ⟨after, _, _, hwrite, hfinish⟩
    obtain ⟨trees, rfl, hdepth, rfl⟩ := (h _ _ _).mp hwrite
    obtain ⟨-, rfl, -⟩ := finish_ok.mp hfinish
    refine ⟨trees, rfl, hdepth, ?_⟩
    rw [Array.toList_appendList]
    rfl
  · rintro ⟨trees, rfl, hdepth, rfl⟩
    refine ⟨_, (), _, (h _ _ _).mpr ⟨trees, rfl, hdepth, rfl⟩, finish_ok.mpr ⟨rfl, ?_, rfl⟩⟩
    rw [Array.toList_appendList]
    rfl

end Writer

end RemoteCall.Wire
