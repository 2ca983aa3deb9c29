/-
# Why a response gives no value

A frame that gives no value of the declared type is malformed, holds something else than that type
has, or tells of a failure of the application (`Response.decodeWith_error`).  This needs nothing of
the adapter, so it holds also of one whose table does not know all the types it calls on.
-/
import RemoteCall.Message.Response
import RemoteCall.Proofs.Typed.Linked

namespace RemoteCall

open Wire

/-- The failures of reading a value: of the stream, of the tokens, or of the value itself. -/
def Error.IsDecoding : Error → Prop
  | .stream _ | .unexpected _ _ | .value _ => True
  | _ => False

theorem Error.IsReading.isDecoding : ∀ {error : Error}, error.IsReading → error.IsDecoding
  | .stream _, _ | .unexpected _ _, _ => trivial

/-- What decoding a response finds wrong is no cancellation. -/
theorem Error.IsDecoding.uncancelled {error : Error} (h : error.IsDecoding) :
    error.isCancelled = false := by
  cases error with
  | stream | unexpected | value => rfl
  | _ => cases h

theorem Table.decodes_readWithin {table : Table} :
    ∀ (budget : Nat) (type : Ty), Fails Error.IsDecoding (table.readWithin budget type)
  | 0, _ => (Reader.fails_fail .tooDeep).mono fun _ => Error.IsReading.isDecoding
  | budget + 1, type =>
    fails_readWith (fun _ => True) (fun _ => Error.IsReading.isDecoding)
      (fun _ _ => trivial) (fun _ _ _ => trivial) (fun _ _ _ _ _ => trivial)
      (fun type _ => decodes_readWithin budget type) type trivial

theorem Adapter.absent_error {adapter : Adapter} {error : Error}
    (h : adapter.absent = .error error) : error.IsDecoding := by
  unfold absent Table.absent at h
  split at h
  · cases h
    trivial
  · unfold CustomRule.absent at h
    split at h
    · cases h
    · cases h
      trivial
  · split at h <;> cases h
    trivial

namespace Response

theorem fails_readHeader : Fails Error.IsDecoding readHeader := by
  have hreading : ∀ error : Error, error.IsReading → error.IsDecoding :=
    fun _ => Error.IsReading.isDecoding
  have hfield : ∀ found, Fails Error.IsDecoding (readHeaderField found) := by
    intro found
    refine (Reader.fails_nextName.mono hreading).bind fun name => .ite ?_ (.ite ?_ ?_)
    · exact (Reader.fails_readNumber.mono hreading).bind fun _ => .pure _
    · exact (Reader.fails_readString.mono hreading).bind fun _ => .pure _
    · exact (Reader.fails_skip.mono hreading).bind fun _ => .pure _
  refine (Reader.fails_beginObject.mono hreading).bind fun _ =>
    (Reader.fails_untilEnd hreading hfield _).bind fun found =>
      ((Reader.fails_close _).mono hreading).bind fun _ =>
        (Reader.fails_finish.mono hreading).discard.bind fun _ => ?_
  split
  · exact .pure _
  · exact .throw trivial

theorem fails_readData {read : Read Datum} (h : Fails Error.IsDecoding read) :
    Fails Error.IsDecoding (readData read) := by
  have hreading : ∀ error : Error, error.IsReading → error.IsDecoding :=
    fun _ => Error.IsReading.isDecoding
  have hfield : ∀ found, Fails Error.IsDecoding (readDataField read found) := by
    intro found
    refine (Reader.fails_nextName.mono hreading).bind fun name => .ite ?_ ?_
    · exact h.bind fun _ => .pure _
    · exact (Reader.fails_skip.mono hreading).bind fun _ => .pure _
  exact (Reader.fails_beginObject.mono hreading).bind fun _ =>
    (Reader.fails_untilEnd hreading hfield _).bind fun _ =>
      ((Reader.fails_close _).mono hreading).bind fun _ => .pure _

theorem onBytes_error {α : Type} {p : Error → Prop} {read : Read α} {bytes : Bytes} {error : Error}
    (h : Fails p read) (herror : Reader.onBytes read bytes = .error error) : p error := by
  unfold Reader.onBytes at herror
  split at herror
  · cases herror
  · rename_i error' reader hrun
    cases herror
    exact h _ _ _ hrun

/-- **A frame gives no value** because it does not decode or because the application has failed. -/
theorem decodeWith_error {adapter : Adapter} {frame : Bytes} {error : Error}
    (h : decodeWith adapter frame = .error error) :
    error.IsDecoding ∨ ∃ code message, code ≠ 0 ∧ error = .application code message := by
  unfold decodeWith at h
  cases hheader : Reader.onBytes readHeader frame with
  | error fault =>
    rw [hheader] at h
    cases h
    exact .inl (onBytes_error fails_readHeader hheader)
  | ok header =>
    rw [hheader] at h
    by_cases hcode : header.code = 0
    · left
      simp only [bind, Except.bind, hcode, if_true] at h
      cases hdata : Reader.onBytes (readData adapter.read) frame with
      | error fault =>
        rw [hdata] at h
        cases h
        exact onBytes_error (fails_readData (Table.decodes_readWithin _ _)) hdata
      | ok datum? =>
        rw [hdata] at h
        cases datum? with
        | some datum => cases h
        | none => exact Adapter.absent_error h
    · simp only [bind, Except.bind, hcode, if_false] at h
      cases h
      exact .inr ⟨header.code, _, hcode, rfl⟩

end Response

end RemoteCall
