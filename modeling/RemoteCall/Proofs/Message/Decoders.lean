/-
# The two response decoders agree

A response is decoded with generic data (`Response.decode`) or with data of a declared type
(`Response.decodeWith`).  For the type of generic values the two say the same of every byte string,
well-formed or not (`decode_agrees`): the same data, the same failure of the application, or the same
error.

Both read the header first, so a frame whose header is refused is refused by both for the same
reason (`Outcomes.refused`).  A header that is read is that of a well-formed object with which the
stream ends.  Its data, a generic value in any shape, can always be read, so the second pass does not
fail and an error is one of the header.
-/
import Mathlib.Data.List.Forall2
import RemoteCall.Proofs.Message.Passes

namespace RemoteCall.Response

open Wire Wire.Reader

variable {table : Table} {frame : Bytes}

/-! ## 1. The second pass -/

/-- The data of an object is read if it is generic, and of several data the last. -/
theorem readsAs_readData_of_value {α : Type} {read : Read α} (ofValue : Value → α)
    (h : ∀ tree : Tree, ReadsAs read tree (.ok (ofValue tree.value)))
    (entries : List (SizedText 2 × Tree)) :
    ReadsAs (readData read) (.object entries)
      (.ok (((valuesUnder "data" entries).getLast?.map Tree.value).map ofValue)) := by
  have hread := readsAs_readData (fun tree => .ok (ofValue tree.value))
    fun (entry : SizedText 2 × Tree) (_ : entry ∈ entries) => h entry.2
  have hdata : List.Forall₂
      (fun (tree : Tree) a => (.ok (ofValue tree.value) : Except Error α) = .ok a)
      (valuesUnder "data" entries)
      ((valuesUnder "data" entries).map fun tree => ofValue tree.value) :=
    List.forall₂_map_right_iff.mpr (List.forall₂_same.mpr fun _ _ => rfl)
  rw [foldlM_data none hdata, List.getLast?_map, Option.or_none] at hread
  rw [Option.map_map]
  exact hread

theorem readsAs_value (hvalue : table.rule? .value = some .structural) (tree : Tree) :
    ReadsAs (table.read .value) tree (.ok (.value tree.value)) := by
  rw [Table.read, Table.readWithin, Table.readWith, hvalue]
  exact (Value.readsAs_read tree).map Datum.value

/-- **The response of an object** is its header and, after a success, its last data. -/
theorem decode_of_header {entries : List (SizedText 2 × Tree)} {tail : Bytes} {code : Int64}
    {message : Option String}
    (hheader : Reader.onBytes readHeader ((Tree.object entries).bytes ++ tail) =
      .ok ⟨code, message⟩) (hdepth : (Tree.object entries).depth ≤ maxDepth) :
    decode ((Tree.object entries).bytes ++ tail) = .ok ⟨code, message,
      if code = 0 then (valuesUnder "data" entries).getLast?.map Tree.value else none⟩ := by
  have hdata := (readsAs_readData_of_value id Value.readsAs_read entries).onBytes
    (looksAhead_readData _) hdepth tail
  rw [decode, hheader]
  show (if code = 0 then _ else _) = _
  split
  · rw [hdata, Option.map_id_fun, id_eq]
    rfl
  · rfl

/-- Of a success the typed decoder gives the last data, and null without any. -/
theorem decodeWith_of_header {entries : List (SizedText 2 × Tree)} {tail : Bytes} {code : Int64}
    {message : Option String} (hvalue : table.rule? .value = some .structural)
    (hheader : Reader.onBytes readHeader ((Tree.object entries).bytes ++ tail) =
      .ok ⟨code, message⟩) (hdepth : (Tree.object entries).depth ≤ maxDepth) :
    decodeWith ⟨table, .value⟩ ((Tree.object entries).bytes ++ tail) =
      if code = 0 then
        .ok (.value (((valuesUnder "data" entries).getLast?.map Tree.value).getD .null))
      else .error (.application code (message.getD "")) := by
  have hdata : Reader.onBytes (readData (Adapter.read ⟨table, .value⟩))
      ((Tree.object entries).bytes ++ tail) = _ :=
    (readsAs_readData_of_value Datum.value (readsAs_value hvalue) entries).onBytes
      (looksAhead_readData _) hdepth tail
  have habsent : Adapter.absent ⟨table, .value⟩ = .ok (.value .null) := by
    rw [Adapter.absent, Table.absent, hvalue]
  rw [decodeWith, hheader]
  simp only [bind, Except.bind, hdata, habsent]
  cases (valuesUnder "data" entries).getLast?.map Tree.value <;> rfl

/-! ## 2. What the decoders make of a frame -/

/-- What the header, the generic response and the generic data of a frame can be together. -/
inductive Outcomes : Except Error Header → Except Error Response → Except Error Datum → Prop
  /-- The header is refused, and both decoders refuse the frame for it. -/
  | refused {error : Error} (decoding : error.IsDecoding) :
    Outcomes (.error error) (.error error) (.error error)
  /-- The application has failed, and no decoder looks at data. -/
  | failure {code : Int64} (message : Option String) (nonzero : code ≠ 0) :
    Outcomes (.ok ⟨code, message⟩) (.ok ⟨code, message, none⟩)
      (.error (.application code (message.getD "")))
  /-- The data is read, and missing data is null. -/
  | success (message : Option String) (data : Option Value) :
    Outcomes (.ok ⟨0, message⟩) (.ok ⟨0, message, data⟩) (.ok (.value (data.getD .null)))

/-- **Every frame has one of the three outcomes.** -/
theorem outcomes (hvalue : table.rule? .value = some .structural) (frame : Bytes) :
    Outcomes (Reader.onBytes readHeader frame) (decode frame)
      (decodeWith ⟨table, .value⟩ frame) := by
  cases hheader : Reader.onBytes readHeader frame with
  | error error =>
    rw [decode, decodeWith, hheader]
    exact .refused (onBytes_error fails_readHeader hheader)
  | ok header =>
    obtain ⟨entries, tail, rfl, -, hdepth, -⟩ := readHeader_ok.mp hheader
    obtain ⟨code, message⟩ := header
    rw [decode_of_header hheader hdepth, decodeWith_of_header hvalue hheader hdepth]
    by_cases hcode : code = 0
    · subst hcode
      exact .success message _
    · rw [if_neg hcode, if_neg hcode]
      exact .failure message hcode

/-! ## 3. Agreement -/

section

variable {header : Except Error Header} {decoded : Except Error Response}
  {typed : Except Error Datum}

theorem Outcomes.typed_ok_iff (h : Outcomes header decoded typed) {datum : Datum} :
    typed = .ok datum ↔ ∃ value response, datum = .value value ∧ decoded = .ok response ∧
      response.code = 0 ∧ (response.data = some value ∨ response.data = none ∧ value = .null) := by
  cases h with
  | refused => simp
  | failure message nonzero => simp [nonzero]
  | success message data =>
    constructor
    · intro h
      cases h
      refine ⟨_, _, rfl, rfl, rfl, ?_⟩
      cases data with
      | none => exact .inr ⟨rfl, rfl⟩
      | some value => exact .inl rfl
    · rintro ⟨value, response, rfl, h, -, hdata⟩
      cases h
      rcases hdata with rfl | ⟨rfl, rfl⟩ <;> rfl

theorem Outcomes.typed_application_iff (h : Outcomes header decoded typed) {code : Int64}
    {message : String} : typed = .error (.application code message) ↔
      ∃ response, decoded = .ok response ∧ response.code = code ∧ code ≠ 0 ∧
        message = response.message.getD "" := by
  cases h with
  | refused decoding =>
    constructor
    · intro h
      cases h
      exact decoding.elim
    · rintro ⟨_, h, -⟩
      cases h
  | failure message nonzero =>
    constructor
    · intro h
      cases h
      exact ⟨_, rfl, rfl, nonzero, rfl⟩
    · rintro ⟨_, h, rfl, -, rfl⟩
      cases h
      rfl
  | success message data =>
    constructor
    · intro h
      cases h
    · rintro ⟨_, h, rfl, hcode, -⟩
      cases h
      exact absurd rfl hcode

theorem Outcomes.decoded_error_iff (h : Outcomes header decoded typed) {error : Error} :
    decoded = .error error ↔
      typed = .error error ∧ ∀ code message, error ≠ .application code message := by
  cases h with
  | refused decoding =>
    constructor
    · intro h
      cases h
      refine ⟨rfl, fun code message h => ?_⟩
      cases h
      exact decoding.elim
    · rintro ⟨h, -⟩
      cases h
      rfl
  | failure message nonzero =>
    constructor
    · intro h
      cases h
    · rintro ⟨h, hother⟩
      cases h
      exact absurd rfl (hother _ _)
  | success message data => simp

theorem Outcomes.header_error_iff (h : Outcomes header decoded typed) {error : Error} :
    decoded = .error error ↔ header = .error error := by
  cases h <;> simp

end

/-- **The decoders agree on every byte string.**  For the type of generic values the typed decoder
gives the data of a success, null if there is none, and the failure of the application that the
generic decoder reports.  Otherwise the decoders give the same error, which is one of the header
pass. -/
theorem decode_agrees (hvalue : table.rule? .value = some .structural) (frame : Bytes) :
    (∀ datum, decodeWith ⟨table, .value⟩ frame = .ok datum ↔
        ∃ value response, datum = .value value ∧ decode frame = .ok response ∧
          response.code = 0 ∧
          (response.data = some value ∨ response.data = none ∧ value = .null)) ∧
      (∀ code message, decodeWith ⟨table, .value⟩ frame = .error (.application code message) ↔
        ∃ response, decode frame = .ok response ∧ response.code = code ∧ code ≠ 0 ∧
          message = response.message.getD "") ∧
      (∀ error, decode frame = .error error ↔ decodeWith ⟨table, .value⟩ frame = .error error ∧
        ∀ code message, error ≠ .application code message) ∧
      ∀ error, decode frame = .error error ↔ Reader.onBytes readHeader frame = .error error := by
  have h := outcomes hvalue frame
  exact ⟨fun _ => h.typed_ok_iff, fun _ _ => h.typed_application_iff, fun _ => h.decoded_error_iff,
    fun _ => h.header_error_iff⟩

/-- A success without data and with a list under another name, a failure with data, and a frame that
ends within a name. -/
theorem decode_agrees_frames :
    decodeWith ⟨[(.value, .structural)], .value⟩ ((Tree.object
        [(⟨"code", by decide⟩, .number 0), (⟨"x", by decide⟩, .array [.boolean true])]).bytes ++
          [0x00, 0xff]) = .ok (.value .null) ∧
    decodeWith ⟨[(.value, .structural)], .value⟩ ((Tree.object
        [(⟨"data", by decide⟩, .boolean true), (⟨"code", by decide⟩, .number 9)]).bytes ++ []) =
      .error (.application 9 "") ∧
    decodeWith ⟨[(.value, .structural)], .value⟩ [6, 1, 0, 4, 0x63] =
      .error (.stream (.truncated 4 4 1)) := by
  have hsuccess := @decode_of_header
    [(⟨"code", by decide⟩, .number 0), (⟨"x", by decide⟩, .array [.boolean true])] [0x00, 0xff] 0
    none (readHeader_ok.mpr ⟨_, _, rfl, .inr ⟨_, rfl⟩, by decide, rfl⟩) (by decide)
  have hfailure := @decode_of_header
    [(⟨"data", by decide⟩, .boolean true), (⟨"code", by decide⟩, .number 9)] [] 9
    none (readHeader_ok.mpr ⟨_, _, rfl, .inl rfl, by decide, rfl⟩) (by decide)
  exact ⟨((decode_agrees rfl _).1 _).mpr ⟨.null, _, rfl, hsuccess, rfl, .inr ⟨rfl, rfl⟩⟩,
    ((decode_agrees rfl _).2.1 9 "").mpr ⟨_, hfailure, rfl, by decide, rfl⟩,
    (((decode_agrees rfl _).2.2.1 (.stream (.truncated 4 4 1))).mp rfl).1⟩

end RemoteCall.Response
