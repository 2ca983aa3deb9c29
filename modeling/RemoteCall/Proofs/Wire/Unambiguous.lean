/-
# The wire grammar is unambiguous

A stream has one derivation at most: the bytes determine the trees and what stands after them
(`Derivation.unique`).  A value needs no look at what follows it to find its end
(`Tree.bytes_append_inj`): numbers and booleans have a fixed width, texts say their size, and a scope
ends at the first byte that starts no value.

So it makes sense to speak of the objects of a stream and of the order of their entries.
-/
import RemoteCall.Proofs.Wire.Tree

namespace RemoteCall.Wire

/-! ## 1. Induction on trees -/

/-- What holds of scalars, and of a scope when it holds of the values in it, holds of every tree. -/
theorem Tree.induct {P : Tree → Prop} (number : ∀ n, P (.number n))
    (string : ∀ text, P (.string text)) (boolean : ∀ b, P (.boolean b))
    (array : ∀ items, (∀ item ∈ items, P item) → P (.array items))
    (object : ∀ entries, (∀ entry ∈ entries, P entry.2) → P (.object entries)) :
    ∀ tree : Tree, P tree
  | .number n => number n
  | .string text => string text
  | .boolean b => boolean b
  | .array items => array items fun item hitem => by
    have hsize := List.sizeOf_lt_of_mem hitem
    exact Tree.induct number string boolean array object item
  | .object entries => object entries fun entry hentry => by
    have hsize := List.sizeOf_lt_of_mem hentry
    obtain ⟨name, tree⟩ := entry
    exact Tree.induct number string boolean array object tree
termination_by tree => sizeOf tree
decreasing_by
  · simp only [Tree.array.sizeOf_spec]
    omega
  · simp only [Tree.object.sizeOf_spec, Prod.mk.sizeOf_spec] at hsize ⊢
    omega

/-! ## 2. Where a value ends -/

/-- Bytes that tell where they end, and apart from others. -/
def IsCode {α : Type} (code : α → Bytes) (a : α) : Prop :=
  ∀ (other : α) (rest rest' : Bytes), code a ++ rest = code other ++ rest' →
    a = other ∧ rest = rest'

theorem isCode_ofInt64 (n : Int64) : IsCode Bytes.ofInt64 n := by
  intro other rest rest' h
  obtain ⟨hcode, hrest⟩ := List.append_inj h (by simp)
  rw [← Bytes.toInt64_ofInt64 n, hcode, Bytes.toInt64_ofInt64]
  exact ⟨rfl, hrest⟩

theorem isCode_sizedText {width : Nat} (text : SizedText width) : IsCode SizedText.bytes text := by
  intro other rest rest' h
  unfold SizedText.bytes at h
  rw [List.append_assoc, List.append_assoc] at h
  obtain ⟨hsize, h⟩ := List.append_inj h (by simp)
  have hlength : text.text.utf8ByteSize = other.text.utf8ByteSize := by
    rw [← Bytes.toNat_bigEndian text.fits, hsize, Bytes.toNat_bigEndian other.fits]
  obtain ⟨htext, hrest⟩ := List.append_inj h (by simpa using hlength)
  have hsame : Except.ok text.text = Except.ok other.text :=
    (Utf8.decode_eq_ok_iff.mpr rfl).symm.trans (Utf8.decode_eq_ok_iff.mpr htext)
  cases text
  cases other
  cases hsame
  exact ⟨rfl, hrest⟩

/-- No value starts here. -/
def Stops (rest : Bytes) : Prop := ∀ tree : Tree, rest.head? ≠ some tree.tag

theorem stops_closing (scope : Scope) (rest : Bytes) : Stops (scope.closing.tag :: rest) := by
  intro tree h
  have htag : scope.closing.tag = tree.tag := Option.some.inj h
  cases scope <;> cases tree <;> simp [Scope.closing, Token.tag, Tree.tag] at htag

theorem EndsStream.stops {tail : Bytes} (h : EndsStream tail) : Stops tail := by
  intro tree hhead
  rcases h with rfl | ⟨rest, rfl⟩
  · cases hhead
  · have htag : 0x00 = tree.tag := Option.some.inj hhead
    cases tree <;> simp [Tree.tag] at htag

section

variable {ε : Type} [Element ε]

/-- Elements one after the other are determined by their bytes, if the bytes of each are. -/
theorem elements_append_inj : ∀ {elements elements' : List ε} {rest rest' : Bytes},
    (∀ element ∈ elements, IsCode Element.bytes element) → Stops rest → Stops rest' →
    elements.flatMap Element.bytes ++ rest = elements'.flatMap Element.bytes ++ rest' →
    elements = elements' ∧ rest = rest'
  | [], [], _, _, _, _, _, h => ⟨rfl, h⟩
  | [], element' :: _, rest, _, _, hstops, _, h => by
    have hhead : rest.head? = some (Element.tree element').tag := congrArg List.head? h
    exact absurd hhead (hstops _)
  | element :: _, [], _, rest', _, _, hstops', h => by
    have hhead : some (Element.tree element).tag = rest'.head? := congrArg List.head? h
    exact absurd hhead.symm (hstops' _)
  | element :: elements, element' :: elements', rest, rest', hcodes, hstops, hstops', h => by
    obtain ⟨hcode, hcodes⟩ := List.forall_mem_cons.mp hcodes
    rw [List.flatMap_cons, List.flatMap_cons, List.append_assoc, List.append_assoc] at h
    obtain ⟨rfl, hmore⟩ := hcode element' _ _ h
    obtain ⟨rfl, hrest⟩ := elements_append_inj hcodes hstops hstops' hmore
    exact ⟨rfl, hrest⟩

/-- A scope is determined by its bytes after the opening tag, if the bytes of its elements are. -/
theorem Gathers.append_inj {scope : Scope} {opening : Token} {gather : List ε → Tree}
    (hgathers : Gathers scope opening gather) {elements elements' : List ε} {rest rest' : Bytes}
    (hcodes : ∀ element ∈ elements, IsCode Element.bytes element)
    (h : (gather elements).payload ++ rest = (gather elements').payload ++ rest') :
    elements = elements' ∧ rest = rest' := by
  rw [hgathers.payload, hgathers.payload, List.append_assoc, List.append_assoc] at h
  obtain ⟨rfl, hrest⟩ := elements_append_inj hcodes (stops_closing scope rest)
    (stops_closing scope rest') h
  exact ⟨rfl, (List.cons.inj hrest).2⟩

end

theorem Tree.token_eq_of_tag_eq {tree other : Tree} (h : tree.tag = other.tag) :
    tree.token = other.token := by
  rw [← tag_token, ← tag_token] at h
  exact Option.some.inj (by rw [← Token.ofTag?_tag, h, Token.ofTag?_tag])

/-- What stands after a tag tells where it ends, among the values of that tag. -/
theorem Tree.payload_append_inj (tree : Tree) : ∀ {other : Tree} {rest rest' : Bytes},
    tree.token = other.token → tree.payload ++ rest = other.payload ++ rest' →
    tree = other ∧ rest = rest' := by
  induction tree using Tree.induct with
  | number n =>
    intro other rest rest' htoken h
    cases other <;> cases htoken
    obtain ⟨rfl, hrest⟩ := isCode_ofInt64 n _ _ _ h
    exact ⟨rfl, hrest⟩
  | string text =>
    intro other rest rest' htoken h
    cases other <;> cases htoken
    obtain ⟨rfl, hrest⟩ := isCode_sizedText text _ _ _ h
    exact ⟨rfl, hrest⟩
  | boolean b =>
    intro other rest rest' htoken h
    cases other <;> cases htoken
    rename_i b'
    obtain ⟨hbyte, hrest⟩ := List.cons.inj h
    cases b <;> cases b' <;> first | exact ⟨rfl, hrest⟩ | exact absurd hbyte (by decide)
  | array items ih =>
    intro other rest rest' htoken h
    cases other <;> cases htoken
    have hcodes : ∀ item ∈ items, IsCode (Element.bytes (ε := Tree)) item := by
      intro item hitem other rest rest' h
      obtain ⟨htag, h⟩ := List.cons.inj h
      exact ih item hitem (Tree.token_eq_of_tag_eq htag) h
    obtain ⟨rfl, hrest⟩ := gathers_array.append_inj hcodes h
    exact ⟨rfl, hrest⟩
  | object entries ih =>
    intro other rest rest' htoken h
    cases other <;> cases htoken
    have hcodes : ∀ entry ∈ entries, IsCode (Element.bytes (ε := SizedText 2 × Tree)) entry := by
      rintro ⟨name, tree⟩ hentry ⟨name', tree'⟩ rest rest' h
      rw [Element.bytes_entry, Element.bytes_entry] at h
      obtain ⟨htag, hnamed⟩ := List.cons.inj h
      simp only [List.append_eq, List.append_assoc] at hnamed
      obtain ⟨rfl, hpayload⟩ := isCode_sizedText name _ _ _ hnamed
      obtain ⟨rfl, hrest⟩ := ih _ hentry (Tree.token_eq_of_tag_eq htag) hpayload
      exact ⟨rfl, hrest⟩
    obtain ⟨rfl, hrest⟩ := gathers_object.append_inj hcodes h
    exact ⟨rfl, hrest⟩

/-- **The bytes of a value tell where it ends**, and which value it is. -/
theorem Tree.bytes_append_inj (tree : Tree) : IsCode Tree.bytes tree := by
  intro other rest rest' h
  obtain ⟨htag, h⟩ := List.cons.inj h
  exact tree.payload_append_inj (Tree.token_eq_of_tag_eq htag) h

/-! ## 3. Streams -/

/-- The bytes are these values, one after the other, and then the end of a stream. -/
structure Derivation (bytes : Bytes) (trees : List Tree) (tail : Bytes) : Prop where
  bytes_eq : bytes = trees.flatMap Tree.bytes ++ tail
  ends : EndsStream tail

/-- **A stream has one derivation at most.** -/
theorem Derivation.unique {bytes : Bytes} {trees trees' : List Tree} {tail tail' : Bytes}
    (h : Derivation bytes trees tail) (h' : Derivation bytes trees' tail') :
    trees = trees' ∧ tail = tail' :=
  elements_append_inj (fun tree _ => tree.bytes_append_inj) h.ends.stops h'.ends.stops
    (h.bytes_eq.symm.trans h'.bytes_eq)

end RemoteCall.Wire
