/-
# Requests with untyped parameters survive the wire

Untyped parameters are written by an operation of their own, `Value.writeScalars`, which knows
scalars only; they are read by the reader of generic values.  Both sides meet at the entries of the
parameters that are not null: they are what is written (`Value.writesAll_writeScalars`), if every one
of these parameters is a scalar, and they mean these parameters.

So a request can be made exactly of scalars (`Value.IsScalar`), it is received as it was made but for
the null parameters, and the payload is found behind it whatever its bytes are
(`Request.parameters_roundTrip`).
-/
import RemoteCall.Proofs.Message.Request
import RemoteCall.Proofs.Value.Writing

namespace RemoteCall.Value

open Wire Wire.Writer

variable {scopes : List Scope}

/-! ## 1. Scalars -/

/-- A boolean, an integer of 64 bits or a string whose size can be written. -/
inductive IsScalar : Value → Prop
  | bool (b : Bool) : IsScalar (.bool b)
  | integer {n : Int} (least : Int64.minValue.toInt ≤ n) (greatest : n ≤ Int64.maxValue.toInt) :
    IsScalar (.integer n)
  | string {text : String} (fits : text.utf8ByteSize < 2 ^ 32) : IsScalar (.string text)

/-- Whether there are no values inside the value. -/
def isFlat : Value → Bool
  | array _ => false
  | object _ => false
  | _ => true

theorem isScalar_iff {value : Value} : value.IsScalar ↔ value.isFlat = true ∧ value.Writable := by
  constructor
  · intro h
    cases h with
    | bool b => exact ⟨rfl, .bool b⟩
    | integer least greatest => exact ⟨rfl, .integer least greatest⟩
    | string fits => exact ⟨rfl, .string fits⟩
  · rintro ⟨hflat, hwritable⟩
    cases hwritable with
    | bool b => exact .bool b
    | integer least greatest => exact .integer least greatest
    | string fits => exact .string fits
    | array _ => cases hflat
    | object _ _ => cases hflat

theorem nesting_of_isFlat {value : Value} (h : value.isFlat = true) : value.nesting = 0 := by
  cases value <;> first | rfl | cases h

theorem strip_of_isFlat {value : Value} (h : value.isFlat = true) : value.strip = value := by
  cases value <;> first | rfl | cases h

theorem ordered_of_isFlat {value : Value} (h : value.isFlat = true) : value.Ordered := by
  cases value with
  | null => exact .null
  | bool b => exact .bool b
  | integer n => exact .integer n
  | fraction literal => exact .fraction literal
  | string text => exact .string text
  | array items => cases h
  | object fields => cases h

/-! ## 2. Parameters -/

/-- The parameters that are sent. -/
def nonNull (parameters : Fields Value) : Fields Value := parameters.filter (!·.2.isNull)

/-- The entries that parameters are written as, if there are no values inside them. -/
def scalarEntries? (parameters : Fields Value) : Option (List (SizedText 2 × Tree)) :=
  if parameters.all (·.2.isFlat) then entryTrees? parameters else none

theorem scalarEntries?_eq_some_iff {parameters : Fields Value}
    {entries : List (SizedText 2 × Tree)} :
    scalarEntries? parameters = some entries ↔
      (∀ field ∈ parameters, field.2.isFlat = true) ∧ entryTrees? parameters = some entries := by
  simp [scalarEntries?]

theorem entryTrees?_cons (field : String × Value) (fields : List (String × Value)) :
    entryTrees? (field :: fields) =
      (entryTrees? [field]).bind fun entries => (entryTrees? fields).map (entries ++ ·) := by
  obtain ⟨name, value⟩ := field
  simp only [entryTrees?]
  cases value.isNull with
  | true => simp
  | false => simp [Option.bind_assoc]

/-- What is announced by its token is written as an entry. -/
theorem writesAll_announced {value : Value} {token : Token} {write : Write Unit}
    (htoken : value.token = .ok token) (name : String)
    (hwrite : Writes write (.object :: scopes) value.tree?) :
    WritesAll (do Writer.writeName name token; write) (.object :: scopes)
      (entryTrees? [(name, value)]) := by
  have hnull : value.isNull = false := by cases value <;> first | rfl | cases htoken
  obtain ⟨found, hfound, hagrees⟩ := token_of_isNull_eq_false hnull
  cases hfound.symm.trans htoken
  have hentry := hwrite.entry name hagrees
  simpa [entryTrees?, hnull, Option.map_eq_bind, Function.comp_def] using hentry

/-- **A parameter is written as its entry**, if it has one and there are no values inside it. -/
theorem writesAll_writeScalar (name : String) (value : Value) :
    WritesAll (writeScalar name value) (.object :: scopes)
      (scalarEntries? [(name, value)]) := by
  have hflat : scalarEntries? [(name, value)] =
      if value.isFlat then entryTrees? [(name, value)] else none := by
    simp [scalarEntries?]
  rw [hflat]
  cases value with
  | null => exact writesAll_nil
  | bool b =>
    have hwrite := writes_write (bool b) (.object :: scopes)
    rw [write] at hwrite
    exact writesAll_announced rfl name hwrite
  | integer n =>
    have hwrite := writes_write (integer n) (.object :: scopes)
    cases hword : toInt64? n with
    | none =>
      have hentry : entryTrees? [(name, integer n)] = none := by
        simp [entryTrees?, isNull, tree?, hword]
      simp only [writeScalar, hword, hentry, ite_self]
      exact writesAll_throw
    | some word =>
      simp only [write, hword] at hwrite
      simp only [writeScalar, hword]
      exact writesAll_announced rfl name hwrite
  | fraction literal =>
    have hentry : entryTrees? [(name, fraction literal)] = none := by
      simp [entryTrees?, isNull, tree?]
    rw [hentry, ite_self]
    exact writesAll_throw
  | string text =>
    have hwrite := writes_write (string text) (.object :: scopes)
    rw [write] at hwrite
    exact writesAll_announced rfl name hwrite
  | array items => exact writesAll_throw
  | object fields => exact writesAll_throw

/-- **Parameters are written as their entries**, if there are no values inside them. -/
theorem writesAll_writeScalars : ∀ parameters : Fields Value,
    WritesAll (writeScalars parameters) (.object :: scopes) (scalarEntries? parameters)
  | [] => writesAll_nil
  | (name, value) :: parameters => by
    have h := (writesAll_writeScalar name value).append (writesAll_writeScalars parameters)
    have hcons : scalarEntries? ((name, value) :: parameters) =
        (scalarEntries? [(name, value)]).bind fun entries =>
          (scalarEntries? parameters).map (entries ++ ·) := by
      simp only [scalarEntries?, entryTrees?_cons (name, value) parameters, List.all_cons,
        List.all_nil, Bool.and_true]
      by_cases hvalue : value.isFlat = true
      · by_cases hall : parameters.all (·.2.isFlat) = true <;> simp [hvalue, hall]
      · simp [hvalue]
    rw [hcons]
    exact h

/-! ## 3. What is written, and what it means -/

/-- Parameters have entries exactly if those that are not null are scalars of short names. -/
theorem exists_scalarEntries?_iff {parameters : Fields Value} :
    (∃ entries, scalarEntries? parameters = some entries) ↔
      ∀ field ∈ parameters, field.2.isNull = false →
        field.1.utf8ByteSize ≤ 65535 ∧ field.2.IsScalar := by
  simp only [scalarEntries?_eq_some_iff, exists_and_left, exists_entryTrees?_iff]
  constructor
  · rintro ⟨hflat, hfits⟩ field hfield hnull
    obtain ⟨hname, hwritable⟩ := hfits field hfield hnull
    exact ⟨Nat.le_of_lt_succ hname, isScalar_iff.mpr ⟨hflat field hfield, hwritable⟩⟩
  · intro h
    refine ⟨fun field hfield => ?_, fun field hfield hnull => ?_⟩
    · cases hnull : field.2.isNull with
      | true => rw [tree?_null hnull, isFlat]; all_goals simp
      | false => exact (isScalar_iff.mp (h field hfield hnull).2).1
    · obtain ⟨hname, hscalar⟩ := h field hfield hnull
      exact ⟨Nat.lt_succ_of_le hname, (isScalar_iff.mp hscalar).2⟩

/-- The entries of parameters are nested in the object only. -/
theorem depth_of_scalarEntries? {parameters : Fields Value} {entries : List (SizedText 2 × Tree)}
    (h : scalarEntries? parameters = some entries) : (Tree.object entries).depth ≤ maxDepth := by
  obtain ⟨hflat, hentries⟩ := scalarEntries?_eq_some_iff.mp h
  have hnesting : fieldsNesting parameters ≤ 0 :=
    fieldsNesting_le_iff.mpr fun field hfield => (nesting_of_isFlat (hflat field hfield)).le
  rw [Tree.depth, depth_of_entryTrees? hentries, Nat.le_zero.mp hnesting]
  decide

theorem stripFields_of_isFlat : ∀ {fields : Fields Value},
    (∀ field ∈ fields, field.2.isFlat = true) → stripFields fields = nonNull fields
  | [], _ => rfl
  | (name, value) :: fields, h => by
    obtain ⟨hvalue, hfields⟩ := List.forall_mem_cons.mp h
    have ih : stripFields fields = fields.filter (!·.2.isNull) := stripFields_of_isFlat hfields
    rw [stripFields, nonNull, List.filter_cons, ih, strip_of_isFlat hvalue]
    cases value.isNull <;> rfl

/-- **The entries of parameters mean the parameters that are not null.** -/
theorem values_of_scalarEntries? {parameters : Fields Value} {entries : List (SizedText 2 × Tree)}
    (hordered : parameters.Ordered) (h : scalarEntries? parameters = some entries) :
    Fields.ofList (Tree.entryValues entries) = nonNull parameters := by
  obtain ⟨hflat, hentries⟩ := scalarEntries?_eq_some_iff.mp h
  have hvalues : ∀ field ∈ parameters, field.2.Ordered :=
    fun field hfield => ordered_of_isFlat (hflat field hfield)
  rw [values_of_entryTrees? hvalues hentries, stripFields_of_isFlat hflat]
  exact Fields.ofList_of_ordered (hordered.filter _)

end RemoteCall.Value

namespace RemoteCall

open Wire Value

/-! ## 4. Requests -/

/-- The request with the payload, if there is one. -/
def Request.carrying (request : Request) : Option Bytes → Request
  | none => request
  | some payload => request.withPayload payload

theorem Request.carrying_eq {method : String} {write : Write Unit} {request : Request}
    (h : Request.build method write = .ok request) (payload : Option Bytes) :
    request.carrying payload = { request with payload := payload } := by
  cases payload with
  | none =>
    obtain ⟨body, -, hrequest⟩ := Success.except_bind_ok.mp h
    cases hrequest
    rfl
  | some payload => rfl

/-- **A request of parameters is received as it was made**, without the parameters that are null, and
with the payload that was attached. -/
theorem Request.decode_ofParameters {method : String} {parameters : Fields Value}
    {request : Request} (hordered : parameters.Ordered)
    (h : Request.ofParameters method parameters = .ok request) (payload : Option Bytes) :
    ReceivedRequest.decode (request.carrying payload).frame =
      .ok ⟨method, nonNull parameters, payload.getD []⟩ := by
  obtain ⟨entries, hentries, -, hdecode⟩ :=
    Request.decode_frame (writesAll_writeScalars parameters) h payload
  rw [Request.carrying_eq h, hdecode, values_of_scalarEntries? hordered hentries]

/-- A request can be made of a name whose size can be written and parameters that are scalars. -/
theorem Request.exists_ofParameters_iff {method : String} {parameters : Fields Value} :
    (∃ request, Request.ofParameters method parameters = .ok request) ↔
      method.utf8ByteSize < 2 ^ 32 ∧ ∀ field ∈ parameters, field.2.isNull = false →
        field.1.utf8ByteSize ≤ 65535 ∧ field.2.IsScalar := by
  rw [← exists_scalarEntries?_iff, show 2 ^ 32 = 256 ^ 4 from rfl, ← exists_sizedText_iff]
  simp only [Request.ofParameters, Request.build_ok (writesAll_writeScalars parameters),
    SizedText.of?_eq_some_iff]
  constructor
  · rintro ⟨_, name, entries, hname, hentries, -⟩
    exact ⟨⟨name, hname⟩, entries, hentries⟩
  · rintro ⟨⟨name, hname⟩, entries, hentries⟩
    exact ⟨_, name, entries, hname, hentries, depth_of_scalarEntries? hentries, rfl⟩

/-- **Requests with untyped parameters survive the wire.**  One can be made exactly if the method's
name fits and every parameter that is not null is a scalar under a name that fits; it is received as
it was made, with the bytes of the payload, none if there is none; and so requests of the same bytes
are the same. -/
theorem Request.parameters_roundTrip (method : String) (parameters : Fields Value)
    (hordered : parameters.Ordered) :
    ((∃ request, Request.ofParameters method parameters = .ok request) ↔
      method.utf8ByteSize < 2 ^ 32 ∧ ∀ field ∈ parameters, field.2.isNull = false →
        field.1.utf8ByteSize ≤ 65535 ∧ field.2.IsScalar) ∧
    ∀ request, Request.ofParameters method parameters = .ok request → ∀ payload : Option Bytes,
      ReceivedRequest.decode (request.carrying payload).frame =
        .ok ⟨method, nonNull parameters, payload.getD []⟩ ∧
      ∀ (method' : String) (parameters' : Fields Value) (request' : Request)
        (payload' : Option Bytes), parameters'.Ordered →
        Request.ofParameters method' parameters' = .ok request' →
        (request.carrying payload).frame = (request'.carrying payload').frame →
        method = method' ∧ nonNull parameters = nonNull parameters' ∧
          payload.getD [] = payload'.getD [] := by
  refine ⟨Request.exists_ofParameters_iff, fun request hmade payload => ?_⟩
  have hdecode := Request.decode_ofParameters hordered hmade payload
  refine ⟨hdecode, fun method' parameters' request' payload' hordered' hmade' hframe => ?_⟩
  have hdecode' := Request.decode_ofParameters hordered' hmade' payload'
  rw [← hframe, hdecode] at hdecode'
  have hsame := Except.ok.inj hdecode'
  exact ⟨congrArg ReceivedRequest.method hsame, congrArg ReceivedRequest.parameters hsame,
    congrArg ReceivedRequest.payload hsame⟩

/-- A null parameter between two others, and a payload that looks like a stream. -/
theorem Request.parameters_roundTrip_payload :
    ∃ request, Request.ofParameters "m" [("a", .integer (-1)), ("b", .null), ("c", .string "x")] =
        .ok request ∧
      ReceivedRequest.decode (request.carrying (some [0x00, 0x01])).frame =
        .ok ⟨"m", [("a", .integer (-1)), ("c", .string "x")], [0x00, 0x01]⟩ := by
  have hordered : Fields.Ordered [("a", Value.integer (-1)), ("b", .null), ("c", .string "x")] := by
    simp only [Fields.Ordered, List.pairwise_cons, List.forall_mem_cons]
    decide
  obtain ⟨hmade, hreceived⟩ := Request.parameters_roundTrip "m" _ hordered
  have hscalars : ∀ field ∈ [("a", Value.integer (-1)), ("b", .null), ("c", .string "x")],
      field.2.isNull = false → field.1.utf8ByteSize ≤ 65535 ∧ field.2.IsScalar := by
    simp only [List.forall_mem_cons]
    exact ⟨fun _ => ⟨by decide, .integer (by decide) (by decide)⟩, fun h => (by cases h),
      fun _ => ⟨by decide, .string (by decide)⟩, fun _ h => absurd h List.not_mem_nil⟩
  obtain ⟨request, hrequest⟩ := hmade.mpr ⟨by decide, hscalars⟩
  exact ⟨request, hrequest, (hreceived request hrequest (some [0x00, 0x01])).1⟩

end RemoteCall
