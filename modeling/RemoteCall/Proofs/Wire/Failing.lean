/-
# With which errors reading and writing fail

The primitives of a reader fail with a stream fault or with a token that was not expected, and so do
skipping and the reading of generic values (`Reader.fails_skip`, `Value.fails_read`).  Those of a
writer fail with a stream fault or because a text is too long for its length prefix, and writing a
generic value may also fail because it has no wire form (`Value.fails_write`).
-/
import RemoteCall.Proofs.Failure
import RemoteCall.Value.Codec

namespace RemoteCall

open Wire

/-! ## 1. Reading -/

/-- The failures of a reader: the stream is malformed, or something else was expected. -/
def Error.IsReading : Error → Prop
  | .stream _ | .unexpected _ _ => True
  | _ => False

namespace Wire.Reader

theorem fails_fail {α : Type} (fault : StreamFault) :
    Fails Error.IsReading (Reader.fail fault : Read α) := .throw trivial

theorem fails_take (count : Nat) : Fails Error.IsReading (take count) := by
  intro reader error reader' h
  simp only [take] at h
  split at h
  · cases h
  · cases h
    trivial

theorem fails_takeText (width : Nat) (fault : Utf8.Fault → StreamFault) :
    Fails Error.IsReading (takeText width fault) := by
  refine (fails_take width).bind fun size => (fails_take size.toNat).bind fun raw => ?_
  split
  · exact .pure _
  · exact fails_fail _

theorem fails_nextTag : Fails Error.IsReading nextTag := by
  refine Fails.get.bind fun reader => ?_
  split
  · split
    · exact .pure _
    · exact fails_fail _
  · split
    · exact fails_fail _
    · split
      · exact fails_fail _
      · exact (Fails.set _).bind fun _ => .pure _

theorem fails_takeName (token : Token) : Fails Error.IsReading (takeName token) :=
  Fails.get.bind fun _ => .ite ((fails_takeText _ _).bind fun _ => .modify _) (.pure _)

theorem fails_peek : Fails Error.IsReading peek := by
  refine Fails.get.bind fun reader => ?_
  split
  · exact .pure _
  · exact fails_nextTag.bind fun token => (fails_takeName token).bind fun _ =>
      (Fails.modify _).bind fun _ => .pure _

theorem fails_hasNext : Fails Error.IsReading hasNext := fails_peek.bind fun _ => .pure _

theorem fails_finish : Fails Error.IsReading finish := by
  refine Fails.get.bind fun reader => ?_
  split
  · exact fails_fail _
  · refine fails_peek.bind fun token => ?_
    split
    · exact Fails.get.bind fun _ => .pure _
    · exact fails_fail _

theorem fails_nextName : Fails Error.IsReading nextName := by
  refine Fails.get.bind fun reader => .ite (fails_peek.bind fun token => Fails.get.bind fun _ => ?_)
    (fails_fail _)
  split
  · exact (Fails.modify _).bind fun _ => .pure _
  · exact .throw trivial

theorem fails_consume (token : Token) (expected : Expectation) :
    Fails Error.IsReading (consume token expected) :=
  fails_peek.bind fun _ => .ite
    (Fails.get.bind fun _ => .ite (.modify _) (fails_fail _)) (.throw trivial)

theorem fails_readNumber : Fails Error.IsReading readNumber :=
  (fails_consume _ _).bind fun _ => (fails_take 8).bind fun _ => .pure _

theorem fails_readString : Fails Error.IsReading readString :=
  (fails_consume _ _).bind fun _ => fails_takeText _ _

theorem fails_readBool : Fails Error.IsReading readBool :=
  (fails_consume _ _).bind fun _ => (fails_take 1).bind fun _ =>
    .ite (.pure _) (.ite (.pure _) (fails_fail _))

theorem fails_push (scope : Scope) : Fails Error.IsReading (push scope) :=
  Fails.get.bind fun _ => .ite (.modify _) (fails_fail _)

theorem fails_close (scope : Scope) : Fails Error.IsReading (close scope) :=
  Fails.get.bind fun _ => .ite
    (fails_peek.bind fun _ => .ite (.modify _) (fails_fail _)) (fails_fail _)

theorem fails_beginArray : Fails Error.IsReading beginArray :=
  (fails_consume _ _).bind fun _ => fails_push _

theorem fails_beginObject : Fails Error.IsReading beginObject :=
  (fails_consume _ _).bind fun _ => fails_push _

/-- A loop fails with what its test and its step fail with. -/
theorem fails_foldNext {α : Type} {p : Error → Prop} {step : α → Read α}
    (hnext : ∀ error, error.IsReading → p error) (hstep : ∀ state, Fails p (step state)) :
    ∀ (left : Bytes) (state : α), Fails p (foldNext step left state)
  | [], state => (fails_hasNext.mono hnext).bind fun _ => .ite (hstep state) (.pure _)
  | _ :: left, state => (fails_hasNext.mono hnext).bind fun _ =>
    .ite ((hstep state).bind fun state => fails_foldNext hnext hstep left state) (.pure _)

theorem fails_untilEnd {α : Type} {p : Error → Prop} {step : α → Read α}
    (hnext : ∀ error, error.IsReading → p error) (hstep : ∀ state, Fails p (step state))
    (start : α) : Fails p (untilEnd step start) :=
  Fails.get.bind fun _ => fails_foldNext hnext hstep _ start

theorem fails_items {α : Type} {p : Error → Prop} {item : Read α}
    (hnext : ∀ error, error.IsReading → p error) (hitem : Fails p item) :
    Fails p (items item) :=
  (fails_untilEnd hnext (fun _ => hitem.bind fun _ => .pure _) []).bind fun _ => .pure _

theorem fails_dropName : Fails Error.IsReading dropName :=
  Fails.get.bind fun _ => .ite (.modify _) (.pure _)

theorem fails_skipWithin : ∀ budget : Nat, Fails Error.IsReading (skipWithin budget)
  | 0 => fails_fail _
  | budget + 1 => by
    refine fails_peek.bind fun token => fails_dropName.bind fun _ => ?_
    have hskip := fails_skipWithin budget
    split
    · exact fails_readNumber.discard
    · exact fails_readString.discard
    · exact fails_readBool.discard
    · exact fails_beginArray.bind fun _ =>
        (fails_untilEnd (fun _ h => h) (fun _ => hskip) _).bind fun _ => fails_close _
    · exact fails_beginObject.bind fun _ =>
        (fails_untilEnd (fun _ h => h) (fun _ => fails_nextName.discard.bind fun _ => hskip)
          _).bind fun _ => fails_close _
    · exact .throw trivial

theorem fails_skip : Fails Error.IsReading skip := fails_skipWithin _

end Wire.Reader

theorem Value.fails_readWithin : ∀ budget : Nat, Fails Error.IsReading (Value.readWithin budget)
  | 0 => Reader.fails_fail _
  | budget + 1 => by
    have hread := fails_readWithin budget
    refine Reader.fails_peek.bind fun token => ?_
    split
    · exact Reader.fails_readNumber.bind fun _ => .pure _
    · exact Reader.fails_readString.bind fun _ => .pure _
    · exact Reader.fails_readBool.bind fun _ => .pure _
    · exact Reader.fails_beginArray.bind fun _ =>
        (Reader.fails_items (fun _ h => h) hread).bind fun _ =>
          (Reader.fails_close _).bind fun _ => .pure _
    · refine Reader.fails_beginObject.bind fun _ => (Reader.fails_untilEnd (fun _ h => h)
        (fun _ => ?_) _).bind fun _ => (Reader.fails_close _).bind fun _ => .pure _
      exact Reader.fails_nextName.bind fun _ => hread.bind fun _ => .pure _
    · exact .throw trivial

theorem Value.fails_read : Fails Error.IsReading Value.read := fails_readWithin _

/-! ## 2. Writing -/

/-- The failures of a writer: the nesting is wrong, or a value has no wire form by itself. -/
def Error.IsWriting : Error → Prop
  | .stream _ => True
  | .value (.nameTooLong _) | .value (.textTooLong _) => True
  | .value .nullValue | .value (.notInteger _) => True
  | _ => False

namespace Wire.Writer

theorem fails_fail {α : Type} (fault : StreamFault) :
    Fails Error.IsWriting (Writer.fail fault : Write α) := .throw trivial

theorem fails_emit (bytes : Bytes) : Fails Error.IsWriting (emit bytes) := .modify _

theorem fails_writeName (name : String) (token : Token) :
    Fails Error.IsWriting (writeName name token) := by
  refine Fails.get.bind fun writer => .ite ?_ (fails_fail _)
  split
  · exact fails_fail _
  · refine .ite (.ite ?_ (.throw trivial)) (fails_fail _)
    exact (fails_emit _).bind fun _ => (fails_emit _).bind fun _ => .modify _

theorem fails_openValue (token : Token) : Fails Error.IsWriting (openValue token) := by
  refine Fails.get.bind fun writer => .ite ((Fails.modify _).bind fun _ => ?_) (fails_emit _)
  split
  · exact .ite (.pure _) (fails_fail _)
  · exact fails_fail _

theorem fails_writeNumber (n : Int64) : Fails Error.IsWriting (writeNumber n) :=
  (fails_openValue _).bind fun _ => fails_emit _

theorem fails_writeString (text : String) : Fails Error.IsWriting (writeString text) :=
  .ite ((fails_openValue _).bind fun _ => (fails_emit _).bind fun _ => fails_emit _)
    (.throw trivial)

theorem fails_writeBool (b : Bool) : Fails Error.IsWriting (writeBool b) :=
  (fails_openValue _).bind fun _ => fails_emit _

theorem fails_push (scope : Scope) : Fails Error.IsWriting (push scope) :=
  Fails.get.bind fun _ => .ite (.modify _) (fails_fail _)

theorem fails_close (scope : Scope) : Fails Error.IsWriting (close scope) := by
  refine Fails.get.bind fun writer => .ite ?_ (fails_fail _)
  split
  · exact fails_fail _
  · exact (fails_emit _).bind fun _ => .modify _

theorem fails_beginArray : Fails Error.IsWriting beginArray :=
  (fails_openValue _).bind fun _ => fails_push _

theorem fails_beginObject : Fails Error.IsWriting beginObject :=
  (fails_openValue _).bind fun _ => fails_push _

end Wire.Writer

namespace Value

mutual

theorem fails_write : ∀ value : Value, Fails Error.IsWriting value.write
  | .null => .throw trivial
  | .bool b => Writer.fails_writeBool b
  | .integer n => by
    unfold Value.write
    split
    · exact Writer.fails_writeNumber _
    · exact .throw trivial
  | .fraction literal => .throw trivial
  | .string text => Writer.fails_writeString text
  | .array items => Writer.fails_beginArray.bind fun _ =>
    (fails_writeItems items).bind fun _ => Writer.fails_close _
  | .object fields => Writer.fails_beginObject.bind fun _ =>
    (fails_writeFields fields).bind fun _ => Writer.fails_close _

theorem fails_writeItems : ∀ items : List Value, Fails Error.IsWriting (writeItems items)
  | [] => .pure _
  | item :: items => (fails_write item).bind fun _ => fails_writeItems items

theorem fails_writeFields : ∀ fields : List (String × Value),
    Fails Error.IsWriting (writeFields fields)
  | [] => .pure _
  | (name, value) :: fields => by
    have hfields := fails_writeFields fields
    rw [writeFields]
    split
    · exact hfields
    · exact (Writer.fails_writeName _ _).bind fun _ => (fails_write value).bind fun _ => hfields

end

end Value

end RemoteCall
