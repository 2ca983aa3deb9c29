/-
# Writing a tree

The grammar says which bytes stand for a tree.  This module says by which operations they are
written (`Tree.write`): whatever a tree was made of, one operation writes it.  Nothing stands in its
way but the nesting limit.  A tree that fits is written as its bytes (`writes_tree`), and one that
does not is refused for its depth (`write_error`), since names and texts of a tree have sizes that
fit and every value is announced by its own token.
-/
import RemoteCall.Proofs.Wire.Refusals
import RemoteCall.Proofs.Wire.Writing

namespace RemoteCall.Wire.Tree

open Success Writer

/-! ## 1. The operations -/

mutual

/-- Writes a tree. -/
def write : Tree → Write Unit
  | number n => writeNumber n
  | string text => writeString text.text
  | boolean b => writeBool b
  | array items => do
    beginArray
    writeItems items
    endArray
  | object entries => do
    beginObject
    writeEntries entries
    endObject

/-- Writes values one after the other. -/
def writeItems : List Tree → Write Unit
  | [] => pure ()
  | item :: items => do
    item.write
    writeItems items

/-- Writes entries one after the other. -/
def writeEntries : List (SizedText 2 × Tree) → Write Unit
  | [] => pure ()
  | (name, tree) :: entries => do
    writeName name.text tree.token
    tree.write
    writeEntries entries

end

/-! ## 2. Trees that fit -/

theorem of?_text {width : Nat} (sized : SizedText width) : SizedText.of? sized.text = some sized :=
  SizedText.of?_eq_some_iff.mpr rfl

mutual

/-- **A tree is written as its bytes.** -/
theorem writes_tree : ∀ (tree : Tree) (scopes : List Scope), Writes tree.write scopes (some tree)
  | number n, _ => writes_number n
  | string text, scopes => by
    have h : Writes (writeString text.text) scopes _ := writes_string text.text
    rwa [of?_text] at h
  | boolean b, _ => writes_bool b
  | array items, _ => writes_array (writesAll_items items (by simp))
  | object entries, _ => writes_object (writesAll_entries entries)

theorem writesAll_items : ∀ (items : List Tree) {scopes : List Scope},
    scopes.head? ≠ some .object → WritesAll (writeItems items) scopes (some items)
  | [], _, _ => writesAll_nil
  | item :: items, scopes, hs =>
    ((writes_tree item scopes).item hs).append (writesAll_items items hs)

theorem writesAll_entries : ∀ (entries : List (SizedText 2 × Tree)) {scopes : List Scope},
    WritesAll (writeEntries entries) (.object :: scopes) (some entries)
  | [], _ => writesAll_nil
  | (name, tree) :: entries, scopes => by
    have htoken : ∀ found, some tree = some found → found.token = tree.token := by
      rintro _ ⟨⟩
      rfl
    have hentry := (writes_tree tree (.object :: scopes)).entry name.text htoken
    rw [of?_text] at hentry
    have h := hentry.append (writesAll_entries entries)
    rw [bind_assoc] at h
    exact h

end

/-! ## 3. Trees that do not -/

variable {out : Array UInt8} {scopes : List Scope} {announced : Option Token} {error : Error}
  {after : Writer}

/-- A value that is awaited fails with what comes after its beginning. -/
theorem value_error {token : Token} {rest : Write Unit} (hsettled : Settled scopes announced)
    (hawaits : Awaits scopes announced token)
    (h : (do openValue token; rest) ⟨out, scopes, announced⟩ = .error error after) :
    rest ⟨out ++ lead scopes token, scopes, none⟩ = .error error after := by
  have hopen : openValue token ⟨out, scopes, announced⟩ = .ok () _ :=
    (openValue_ok hsettled).mpr ⟨hawaits, rfl⟩
  rwa [bind_of_ok hopen] at h

/-- A scope whose elements can only be too deep can only be too deep. -/
theorem scope_error {ε : Type} [Element ε] {scope : Scope} {write : Write Unit} {elements : List ε}
    (hwrites : WritesAll write (scope :: scopes) (some elements))
    (hdeep : ∀ {out : Array UInt8}, write ⟨out, scope :: scopes, none⟩ = .error error after →
      error = .stream .tooDeep)
    (h : (do push scope; write; close scope) ⟨out, scopes, none⟩ = .error error after) :
    error = .stream .tooDeep := by
  rcases bind_error.mp h with h | ⟨_, _, hpush, h⟩
  · exact (push_error h).1
  · obtain ⟨-, rfl⟩ := push_ok.mp hpush
    rcases bind_error.mp h with h | ⟨_, _, hwrite, h⟩
    · exact hdeep h
    · obtain ⟨written, -, -, rfl⟩ := (hwrites _ _ _).mp hwrite
      have hclose : close scope ⟨out ++ written.flatMap Element.bytes, scope :: scopes, none⟩ =
          .ok () _ := close_ok.mpr ⟨rfl, rfl, rfl⟩
      cases hclose.symm.trans h

mutual

/-- **A tree is refused for its depth only.** -/
theorem write_error : ∀ (tree : Tree) {out : Array UInt8} {scopes : List Scope}
    {announced : Option Token}, Settled scopes announced → Awaits scopes announced tree.token →
    tree.write ⟨out, scopes, announced⟩ = .error error after → error = .stream .tooDeep
  | number n, _, _, _, hsettled, hawaits, h => by
    cases value_error hsettled hawaits h
  | string text, _, _, _, hsettled, hawaits, h => by
    have hfits : text.text.utf8ByteSize < UInt32.size := text.fits
    rw [write, writeString, if_pos hfits] at h
    cases value_error hsettled hawaits h
  | boolean b, _, _, _, hsettled, hawaits, h => by
    cases value_error hsettled hawaits h
  | array items, _, _, _, hsettled, hawaits, h => by
    rw [write, beginArray, bind_assoc] at h
    exact scope_error (writesAll_items items (by simp)) (writeItems_error items (by simp))
      (value_error hsettled hawaits h)
  | object entries, _, _, _, hsettled, hawaits, h => by
    rw [write, beginObject, bind_assoc] at h
    exact scope_error (writesAll_entries entries) (writeEntries_error entries)
      (value_error hsettled hawaits h)

theorem writeItems_error : ∀ (items : List Tree) {out : Array UInt8} {scopes : List Scope},
    scopes.head? ≠ some .object → writeItems items ⟨out, scopes, none⟩ = .error error after →
    error = .stream .tooDeep
  | [], _, _, _, h => by cases h
  | item :: items, _, scopes, hs, h => by
    rcases bind_error.mp h with h | ⟨_, _, hitem, h⟩
    · exact write_error item settled_none (fun hobject => absurd hobject hs) h
    · obtain ⟨_, -, -, rfl⟩ := ((writes_tree item scopes).item hs _ _ _).mp hitem
      exact writeItems_error items hs h

theorem writeEntries_error : ∀ (entries : List (SizedText 2 × Tree)) {out : Array UInt8}
    {scopes : List Scope},
    writeEntries entries ⟨out, .object :: scopes, none⟩ = .error error after →
    error = .stream .tooDeep
  | [], _, _, h => by cases h
  | (name, tree) :: entries, out, scopes, h => by
    have hname : writeName name.text tree.token ⟨out, .object :: scopes, none⟩ = .ok () _ :=
      writeName_ok.mpr ⟨rfl, rfl, startsValue_token tree, name, rfl, rfl⟩
    have hsettled : Settled (.object :: scopes) (some tree.token) := fun hno => absurd rfl hno
    rw [writeEntries, bind_of_ok hname] at h
    rcases bind_error.mp h with h | ⟨_, _, hvalue, h⟩
    · exact write_error tree hsettled (fun _ => rfl) h
    · obtain ⟨_, -, -, -, rfl⟩ := (writes_tree tree _ _ _ _ _ hsettled).mp hvalue
      exact writeEntries_error entries h

end

/-! ## 4. Whole streams -/

/-- **A tree is a stream or too deep.** -/
theorem toBytes_write (tree : Tree) : toBytes tree.write =
    if tree.depth ≤ maxDepth then .ok (tree.bytes ++ [0x00]) else .error (.stream .tooDeep) := by
  have hwrites := (writes_tree tree []).item (by simp)
  split
  · rename_i hdepth
    refine (toBytes_eq_ok_iff hwrites).mpr ⟨[tree], rfl, List.forall_mem_singleton.mpr hdepth, ?_⟩
    rw [List.flatMap_singleton]
  · rename_i hdepth
    cases hwrite : tree.write new with
    | ok u after =>
      obtain ⟨trees, htrees, hdepths, -⟩ := (hwrites _ _ _).mp hwrite
      cases htrees
      exact absurd (hdepths tree (List.mem_singleton_self tree)) hdepth
    | error error after =>
      have hawaits : Awaits [] none tree.token := fun hobject => by cases hobject
      obtain rfl := write_error tree settled_none hawaits hwrite
      have hrun : (do tree.write; finish : Write Bytes) new = .error _ after :=
        bind_error.mpr (.inl hwrite)
      rw [toBytes, EStateM.run, hrun]

end RemoteCall.Wire.Tree
