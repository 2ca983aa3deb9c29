/-
# When reading succeeds

This module says for every reading primitive exactly on which bytes it succeeds, what it answers
and where it leaves off.  A value is read in two halves.  Looking ahead (`peek_ok`) takes the tag
and, in an object, the name; the payload is read from there.  So a payload is read from a state
that has the token looked at and no name pending.
-/
import RemoteCall.Proofs.Success
import RemoteCall.Proofs.Wire.Tree
import RemoteCall.Wire.Reader

namespace RemoteCall.Wire.Reader

open Success

variable {bytes : Bytes} {position : Nat} {scopes : List Scope} {peeked : Option Token}
  {fieldName : Option String} {after : Reader}

/-! ## 1. Bytes -/

theorem take_ok {count : Nat} {head : Bytes} :
    take count ⟨bytes, position, scopes, peeked, fieldName⟩ = .ok head after ↔
      ∃ rest, bytes = head ++ rest ∧ head.length = count ∧
        after = ⟨rest, position + count, scopes, peeked, fieldName⟩ := by
  unfold take
  simp only [List.splitAt_eq]
  constructor
  · intro h
    split at h
    · rename_i hlen
      cases h
      exact ⟨_, (List.take_append_drop count bytes).symm, hlen, rfl⟩
    · cases h
  · rintro ⟨rest, rfl, rfl, rfl⟩
    simp

theorem takeText_ok {width : Nat} {fault : Utf8.Fault → StreamFault} {text : String} :
    takeText width fault ⟨bytes, position, scopes, peeked, fieldName⟩ = .ok text after ↔
      ∃ (sized : SizedText width) (rest : Bytes), sized.text = text ∧ bytes = sized.bytes ++ rest ∧
        after = ⟨rest, position + sized.bytes.length, scopes, peeked, fieldName⟩ := by
  unfold takeText
  simp only [bind_ok]
  constructor
  · rintro ⟨size, r₁, hsize, raw, r₂, hraw, h⟩
    obtain ⟨rest₁, rfl, hwidth, rfl⟩ := take_ok.mp hsize
    obtain ⟨rest, rfl, hlen, rfl⟩ := take_ok.mp hraw
    cases hfound : Utf8.decode raw with
    | error place =>
      rw [hfound] at h
      simp [fail] at h
    | ok found =>
      rw [hfound] at h
      obtain ⟨rfl, rfl⟩ := pure_ok.mp h
      obtain rfl := Utf8.decode_eq_ok_iff.mp hfound
      rw [Bytes.length_ofString] at hlen
      have hfits : text.utf8ByteSize < 256 ^ width := by
        rw [hlen, ← hwidth]
        exact Bytes.toNat_lt size
      have hbytes : Bytes.bigEndian width text.utf8ByteSize = size := by
        rw [hlen, ← hwidth, Bytes.bigEndian_toNat]
      refine ⟨⟨text, hfits⟩, rest, rfl, ?_, ?_⟩
      · simp only [SizedText.bytes, hbytes, List.append_assoc]
      · simp only [SizedText.bytes, List.length_append, Bytes.length_bigEndian,
          Bytes.length_ofString, ← hlen, Nat.add_assoc]
  · rintro ⟨sized, rest, rfl, rfl, rfl⟩
    have hsize := Bytes.toNat_bigEndian sized.fits
    refine ⟨Bytes.bigEndian width sized.text.utf8ByteSize, _, take_ok.mpr
      ⟨Bytes.ofString sized.text ++ rest, ?_, Bytes.length_bigEndian _ _, rfl⟩,
      Bytes.ofString sized.text, _, take_ok.mpr ⟨rest, rfl, ?_, rfl⟩, ?_⟩
    · simp only [SizedText.bytes, List.append_assoc]
    · rw [hsize, Bytes.length_ofString]
    · rw [Utf8.decode_eq_ok_iff.mpr rfl]
      simp only [pure_ok, SizedText.bytes, List.length_append, Bytes.length_bigEndian,
        Bytes.length_ofString, hsize, Nat.add_assoc, and_self]

/-! ## 2. Looking ahead -/

@[simp] theorem fail_ok {α : Type} {fault : StreamFault} {a : α} {before : Reader} :
    (fail fault : Read α) before = .ok a after ↔ False :=
  throw_ok

@[simp] theorem scope?_mk :
    (⟨bytes, position, scopes, peeked, fieldName⟩ : Reader).scope? = scopes.head? := by
  rfl

@[simp] theorem depth_mk :
    (⟨bytes, position, scopes, peeked, fieldName⟩ : Reader).depth = scopes.length := by
  rfl

/-- The token that ends a scope, or the stream at top level. -/
def endToken : Option Scope → Token
  | none => .endOfStream
  | some scope => scope.closing

@[simp] theorem startsValue_endToken (scope : Option Scope) :
    (endToken scope).startsValue = false := by
  rcases scope with _ | _ | _ <;> rfl

/-- `tail` begins with the end of a scope, and `rest` stands after it.  At top level the end of the
bytes is an end too. -/
def Ends (scope : Option Scope) (tail rest : Bytes) : Prop :=
  tail = (endToken scope).tag :: rest ∨ (scope = none ∧ tail = [] ∧ rest = [])

/-- A scope has named values exactly if it is an object. -/
def Names (scopes : List Scope) (name? : Option (SizedText 2)) : Prop :=
  name?.isSome ↔ scopes.head? = some .object

theorem misplacement_eq_none_iff {scope : Option Scope} {token : Token} :
    misplacement scope token position = none ↔
      token.startsValue = true ∨ token = endToken scope := by
  rcases scope with _ | _ | _ <;> cases token <;>
    simp [misplacement, Token.startsValue, endToken, Scope.closing]

theorem nextTag_ok {token : Token} :
    nextTag ⟨bytes, position, scopes, peeked, fieldName⟩ = .ok token after ↔
      (∃ rest, bytes = token.tag :: rest ∧
        (token.startsValue = true ∨ token = endToken scopes.head?) ∧
        after = ⟨rest, position + 1, scopes, peeked, fieldName⟩) ∨
      (bytes = [] ∧ scopes = [] ∧ token = .endOfStream ∧
        after = ⟨[], position, scopes, peeked, fieldName⟩) := by
  unfold nextTag
  simp only [get_bind]
  cases bytes with
  | nil =>
    constructor
    · intro h
      cases scopes with
      | nil =>
        obtain ⟨rfl, rfl⟩ := pure_ok.mp h
        exact .inr ⟨rfl, rfl, rfl, rfl⟩
      | cons scope scopes => exact (fail_ok.mp h).elim
    · rintro (⟨rest, hbytes, _⟩ | ⟨_, rfl, rfl, rfl⟩)
      · cases hbytes
      · rfl
  | cons tag rest =>
    constructor
    · intro h
      cases htag : Token.ofTag? tag with
      | none => simp [htag] at h
      | some found =>
        simp only [htag, scope?_mk] at h
        cases hplace : misplacement scopes.head? found position with
        | some fault => simp [hplace] at h
        | none =>
          simp only [hplace, set_bind, pure_ok] at h
          obtain ⟨rfl, rfl⟩ := h
          refine .inl ⟨rest, ?_, misplacement_eq_none_iff.mp hplace, rfl⟩
          rw [Token.tag_of_ofTag? htag]
    · rintro (⟨rest', hbytes, hplace, rfl⟩ | ⟨hbytes, _⟩)
      · cases hbytes
        simp [misplacement_eq_none_iff.mpr hplace]
      · cases hbytes

theorem takeName_ok {token : Token} {u : Unit} :
    takeName token ⟨bytes, position, scopes, peeked, fieldName⟩ = .ok u after ↔
      if scopes.head? = some .object ∧ token.startsValue = true then
        ∃ (name : SizedText 2) (rest : Bytes), bytes = name.bytes ++ rest ∧
          after = ⟨rest, position + name.bytes.length, scopes, peeked, some name.text⟩
      else after = ⟨bytes, position, scopes, peeked, fieldName⟩ := by
  unfold takeName
  simp only [get_bind, scope?_mk]
  split
  · simp only [bind_ok, modify_ok]
    constructor
    · rintro ⟨_, _, htext, rfl⟩
      obtain ⟨name, rest, rfl, rfl, rfl⟩ := takeText_ok.mp htext
      exact ⟨name, rest, rfl, rfl⟩
    · rintro ⟨name, rest, rfl, rfl⟩
      exact ⟨_, _, takeText_ok.mpr ⟨name, rest, rfl, rfl, rfl⟩, rfl⟩
  · simp

/-- A token looked at before is seen again. -/
theorem peek_of_peeked {token found : Token} :
    peek ⟨bytes, position, scopes, some token, fieldName⟩ = .ok found after ↔
      token = found ∧ after = ⟨bytes, position, scopes, some token, fieldName⟩ := by
  unfold peek
  simp [eq_comm (a := found)]

/-- **Looking ahead** meets either a value, whose tag and name are taken, or the end of the
innermost scope. -/
theorem peek_ok {token : Token} :
    peek ⟨bytes, position, scopes, none, none⟩ = .ok token after ↔
      (∃ (name? : Option (SizedText 2)) (rest : Bytes), token.startsValue = true ∧
        Names scopes name? ∧ bytes = token.tag :: (Element.nameBytes name? ++ rest) ∧
        after = ⟨rest, position + 1 + (Element.nameBytes name?).length, scopes, some token,
          name?.map (·.text)⟩) ∨
      (∃ rest, token = endToken scopes.head? ∧ Ends scopes.head? bytes rest ∧
        after = ⟨rest, position + (bytes.length - rest.length), scopes, some token, none⟩) := by
  unfold peek
  simp only [get_bind, bind_ok, modify_bind, pure_ok]
  constructor
  · rintro ⟨found, _, htag, _, _, hname, rfl, rfl⟩
    rcases nextTag_ok.mp htag with ⟨rest, rfl, hplace, rfl⟩ | ⟨rfl, rfl, rfl, rfl⟩
    · have hname := takeName_ok.mp hname
      by_cases hvalue : token.startsValue = true
      · left
        by_cases hobject : scopes.head? = some .object
        · rw [if_pos ⟨hobject, hvalue⟩] at hname
          obtain ⟨name, rest, rfl, rfl⟩ := hname
          exact ⟨some name, rest, hvalue, by simp [Names, hobject], rfl, rfl⟩
        · rw [if_neg (fun h => hobject h.1)] at hname
          subst hname
          exact ⟨none, rest, hvalue, by simp [Names, hobject], rfl, rfl⟩
      · right
        have hend := hplace.resolve_left hvalue
        rw [if_neg (fun h => hvalue h.2)] at hname
        subst hname
        exact ⟨rest, hend, .inl (by rw [hend]), by simp⟩
    · have hname := takeName_ok.mp hname
      rw [if_neg (by simp)] at hname
      subst hname
      exact .inr ⟨[], rfl, .inr ⟨rfl, rfl, rfl⟩, by simp⟩
  · rintro (⟨name?, rest, hvalue, hnames, rfl, rfl⟩ | ⟨rest, rfl, hends, rfl⟩)
    · refine ⟨token, _, nextTag_ok.mpr (.inl ⟨_, rfl, .inl hvalue, rfl⟩), (), ?_⟩
      cases name? with
      | none =>
        have hobject : scopes.head? ≠ some .object := by simpa [Names] using hnames
        exact ⟨_, takeName_ok.mpr (by rw [if_neg (fun h => hobject h.1)]), rfl, rfl⟩
      | some name =>
        have hobject : scopes.head? = some .object := by simpa [Names] using hnames
        refine ⟨⟨rest, position + 1 + name.bytes.length, scopes, none, some name.text⟩,
          takeName_ok.mpr ?_, rfl, rfl⟩
        rw [if_pos ⟨hobject, hvalue⟩]
        exact ⟨name, rest, rfl, rfl⟩
    · have hno : ¬(endToken scopes.head?).startsValue = true := by simp
      rcases hends with rfl | ⟨hscope, rfl, rfl⟩
      · refine ⟨_, _, nextTag_ok.mpr (.inl ⟨rest, rfl, .inr rfl, rfl⟩), (), _,
          takeName_ok.mpr (by rw [if_neg (fun h => hno h.2)]), rfl, by simp⟩
      · obtain rfl := List.head?_eq_none_iff.mp hscope
        exact ⟨_, _, nextTag_ok.mpr (.inr ⟨rfl, rfl, rfl, rfl⟩), (), _,
          takeName_ok.mpr (by rw [if_neg (by simp)]), rfl, rfl⟩

/-- What has been looked at is seen again, in the same scopes. -/
theorem peek_again {token : Token} {seen : Reader}
    (h : peek ⟨bytes, position, scopes, peeked, none⟩ = .ok token seen) :
    peek seen = .ok token seen ∧ seen.scopes = scopes := by
  cases peeked with
  | some found =>
    obtain ⟨rfl, rfl⟩ := peek_of_peeked.mp h
    exact ⟨h, rfl⟩
  | none =>
    rcases peek_ok.mp h with ⟨name?, rest, -, -, -, rfl⟩ | ⟨rest, -, -, rfl⟩
    · exact ⟨peek_of_peeked.mpr ⟨rfl, rfl⟩, rfl⟩
    · exact ⟨peek_of_peeked.mpr ⟨rfl, rfl⟩, rfl⟩

/-- **An operation that looks first** succeeds alike from where one has looked already. -/
def LooksFirst {α : Type} (read : Read α) : Prop :=
  ∀ ⦃bytes : Bytes⦄ ⦃position : Nat⦄ ⦃scopes : List Scope⦄ ⦃peeked : Option Token⦄ ⦃token : Token⦄
    ⦃seen after : Reader⦄ ⦃a : α⦄, peek ⟨bytes, position, scopes, peeked, none⟩ = .ok token seen →
      read seen = .ok a after → read ⟨bytes, position, scopes, peeked, none⟩ = .ok a after

theorem looksFirst_peek : LooksFirst peek := by
  intro bytes position scopes peeked token seen after found hpeek h
  cases (peek_again hpeek).1.symm.trans h
  exact hpeek

theorem LooksFirst.bind {α β : Type} {read : Read α} (h : LooksFirst read) (next : α → Read β) :
    LooksFirst (read >>= next) := by
  intro bytes position scopes peeked token seen after found hpeek hread
  obtain ⟨a, mid, hfirst, hnext⟩ := bind_ok.mp hread
  exact bind_ok.mpr ⟨a, mid, h hpeek hfirst, hnext⟩

theorem looksFirst_consume (token : Token) (expected : Expectation) :
    LooksFirst (consume token expected) :=
  looksFirst_peek.bind _

theorem hasNext_ok {more : Bool} {before : Reader} :
    hasNext before = .ok more after ↔
      ∃ token, peek before = .ok token after ∧ more = token.startsValue := by
  unfold hasNext
  simp only [bind_ok, pure_ok]
  constructor
  · rintro ⟨token, _, hpeek, rfl, rfl⟩
    exact ⟨token, hpeek, rfl⟩
  · rintro ⟨token, hpeek, rfl⟩
    exact ⟨token, after, hpeek, rfl, rfl⟩

/-- Inside an object the name looked at is there to be taken. -/
theorem nextName_ok {token : Token} {name : String} :
    nextName ⟨bytes, position, .object :: scopes, some token, fieldName⟩ = .ok name after ↔
      fieldName = some name ∧ after = ⟨bytes, position, .object :: scopes, some token, none⟩ := by
  unfold nextName
  simp only [get_bind, scope?_mk, List.head?_cons, ↓reduceIte, bind_ok, peek_of_peeked]
  constructor
  · rintro ⟨_, _, ⟨rfl, rfl⟩, h⟩
    cases fieldName with
    | none => simp at h
    | some found =>
      simp only [modify_bind, pure_ok] at h
      exact ⟨congrArg some h.1.symm, h.2⟩
  · rintro ⟨rfl, rfl⟩
    exact ⟨_, _, ⟨rfl, rfl⟩, rfl⟩

/-! ## 3. Scalars and boundaries -/

theorem consume_ok {token found : Token} {expected : Expectation} {u : Unit} :
    consume token expected ⟨bytes, position, scopes, some found, none⟩ = .ok u after ↔
      found = token ∧ after = ⟨bytes, position, scopes, none, none⟩ := by
  unfold consume
  simp only [bind_ok, peek_of_peeked]
  constructor
  · rintro ⟨_, _, ⟨rfl, rfl⟩, h⟩
    split at h
    · rename_i hfound
      exact ⟨hfound, modify_ok.mp h⟩
    · exact (throw_ok.mp h).elim
  · rintro ⟨rfl, rfl⟩
    refine ⟨_, _, ⟨rfl, rfl⟩, ?_⟩
    rw [if_pos rfl]
    rfl

theorem readNumber_ok {token : Token} {n : Int64} :
    readNumber ⟨bytes, position, scopes, some token, none⟩ = .ok n after ↔
      token = .number ∧ ∃ rest, bytes = Bytes.ofInt64 n ++ rest ∧
        after = ⟨rest, position + 8, scopes, none, none⟩ := by
  unfold readNumber
  simp only [bind_ok, consume_ok, pure_ok]
  constructor
  · rintro ⟨_, _, ⟨rfl, rfl⟩, raw, _, hraw, rfl, rfl⟩
    obtain ⟨rest, rfl, hlen, rfl⟩ := take_ok.mp hraw
    exact ⟨rfl, rest, by rw [Bytes.ofInt64_toInt64 hlen], rfl⟩
  · rintro ⟨rfl, rest, rfl, rfl⟩
    exact ⟨(), _, ⟨rfl, rfl⟩, _, _, take_ok.mpr ⟨rest, rfl, Bytes.length_ofInt64 n, rfl⟩,
      (Bytes.toInt64_ofInt64 n).symm, rfl⟩

theorem readString_ok {token : Token} {text : String} :
    readString ⟨bytes, position, scopes, some token, none⟩ = .ok text after ↔
      token = .string ∧ ∃ (sized : SizedText 4) (rest : Bytes), sized.text = text ∧
        bytes = sized.bytes ++ rest ∧
        after = ⟨rest, position + sized.bytes.length, scopes, none, none⟩ := by
  unfold readString
  simp only [bind_ok, consume_ok]
  constructor
  · rintro ⟨_, _, ⟨rfl, rfl⟩, htext⟩
    exact ⟨rfl, takeText_ok.mp htext⟩
  · rintro ⟨rfl, htext⟩
    exact ⟨(), _, ⟨rfl, rfl⟩, takeText_ok.mpr htext⟩

theorem readBool_ok {token : Token} {b : Bool} :
    readBool ⟨bytes, position, scopes, some token, none⟩ = .ok b after ↔
      token = .boolean ∧ ∃ rest, bytes = (if b then 0x01 else 0x00) :: rest ∧
        after = ⟨rest, position + 1, scopes, none, none⟩ := by
  unfold readBool
  simp only [bind_ok, consume_ok]
  constructor
  · rintro ⟨_, _, ⟨rfl, rfl⟩, raw, _, hraw, h⟩
    obtain ⟨rest, rfl, hlen, rfl⟩ := take_ok.mp hraw
    generalize hbyte : raw.headD 0 = byte at h
    obtain ⟨first, rfl⟩ := List.length_eq_one_iff.mp hlen
    obtain rfl : first = byte := hbyte
    simp only [ite_ok, pure_ok, fail_ok] at h
    split at h
    · rename_i hzero
      obtain ⟨rfl, rfl⟩ := h
      exact ⟨rfl, rest, by simp [hzero], rfl⟩
    · split at h
      · rename_i hone
        obtain ⟨rfl, rfl⟩ := h
        exact ⟨rfl, rest, by simp [hone], rfl⟩
      · exact h.elim
  · rintro ⟨rfl, rest, rfl, rfl⟩
    refine ⟨(), _, ⟨rfl, rfl⟩, [if b then 0x01 else 0x00], _,
      take_ok.mpr ⟨rest, rfl, rfl, rfl⟩, ?_⟩
    cases b <;> rfl

theorem push_ok {scope : Scope} {u : Unit} :
    push scope ⟨bytes, position, scopes, peeked, fieldName⟩ = .ok u after ↔
      scopes.length < maxDepth ∧
        after = ⟨bytes, position, scope :: scopes, peeked, fieldName⟩ := by
  unfold push
  simp only [get_bind, depth_mk]
  split
  · rename_i h
    simp [h]
  · rename_i h
    simp [h]

/-- A scope is opened by its token. -/
theorem opens_ok {opening token : Token} {expected : Expectation} {scope : Scope} {u : Unit} :
    (do consume opening expected; push scope) ⟨bytes, position, scopes, some token, none⟩ =
        .ok u after ↔
      token = opening ∧ scopes.length < maxDepth ∧
        after = ⟨bytes, position, scope :: scopes, none, none⟩ := by
  simp only [bind_ok, consume_ok]
  constructor
  · rintro ⟨_, _, ⟨rfl, rfl⟩, hpush⟩
    exact ⟨rfl, push_ok.mp hpush⟩
  · rintro ⟨rfl, hpush⟩
    exact ⟨(), _, ⟨rfl, rfl⟩, push_ok.mpr hpush⟩

theorem beginArray_ok {token : Token} {u : Unit} :
    beginArray ⟨bytes, position, scopes, some token, none⟩ = .ok u after ↔
      token = .beginArray ∧ scopes.length < maxDepth ∧
        after = ⟨bytes, position, .array :: scopes, none, none⟩ :=
  opens_ok

theorem beginObject_ok {token : Token} {u : Unit} :
    beginObject ⟨bytes, position, scopes, some token, none⟩ = .ok u after ↔
      token = .beginObject ∧ scopes.length < maxDepth ∧
        after = ⟨bytes, position, .object :: scopes, none, none⟩ :=
  opens_ok

theorem close_ok {scope : Scope} {u : Unit} :
    close scope ⟨bytes, position, scope :: scopes, some scope.closing, fieldName⟩ = .ok u after ↔
      after = ⟨bytes, position, scopes, none, fieldName⟩ := by
  unfold close
  simp only [get_bind, scope?_mk, List.head?_cons, ↓reduceIte, bind_ok, peek_of_peeked]
  constructor
  · rintro ⟨_, _, ⟨rfl, rfl⟩, h⟩
    rw [if_pos rfl] at h
    exact modify_ok.mp h
  · rintro rfl
    refine ⟨_, _, ⟨rfl, rfl⟩, ?_⟩
    rw [if_pos rfl]
    rfl

end RemoteCall.Wire.Reader
