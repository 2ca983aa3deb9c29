/-
# Responses with generic data survive the wire

A response is written as the object of its fields (`Response.write_eq`), so what is known of writing
generic values says when it can be written: the message has to be a text that fits, and data that is
not null a value that can be written one level deep.  Null data is written like none.

What stands under a name in the object is what the field's value is written as.  The decoder finds
the code and the message there and, after a success, the data without its null fields
(`Response.decode_encode`).  After a failure the data is on the wire but is not read.
-/
import RemoteCall.Proofs.Message.Decoders
import RemoteCall.Proofs.Value.RoundTrip

namespace RemoteCall

open Wire Wire.Reader

/-! ## 1. Fields by their names -/

/-- Under a name stand the trees of the fields of that name that are not null. -/
theorem Value.valuesUnder_of_entryTrees? (name : String) {fields : List (String × Value)}
    {entries : List (SizedText 2 × Tree)} (h : entryTrees? fields = some entries) :
    (fields.filter fun field => field.1 == name && !field.2.isNull).mapM (·.2.tree?) =
      some (valuesUnder name entries) := by
  induction fields generalizing entries with
  | nil =>
    cases h
    rfl
  | cons field fields ih =>
    obtain ⟨other, value⟩ := field
    unfold entryTrees? at h
    split at h
    · rename_i hnull
      rw [List.filter_cons_of_neg (by simp [hnull])]
      exact ih h
    · rename_i hnull
      obtain ⟨sized, hsized, h⟩ := Option.bind_eq_some_iff.mp h
      obtain ⟨tree, htree, h⟩ := Option.bind_eq_some_iff.mp h
      obtain ⟨others, hothers, rfl⟩ := Option.map_eq_some_iff.mp h
      obtain rfl := SizedText.of?_eq_some_iff.mp hsized
      rw [valuesUnder_cons]
      by_cases hname : sized.text = name
      · rw [List.filter_cons_of_pos (by simp [hname, hnull]), List.mapM_cons, htree, if_pos hname]
        simp [ih hothers]
      · rw [List.filter_cons_of_neg (by simp [hname]), if_neg hname]
        exact ih hothers

namespace Response

variable {response : Response} {entries : List (SizedText 2 × Tree)} {bytes : Bytes}

/-- The fields of a response as those of a generic object. -/
def fields (response : Response) : List (String × Value) :=
  ("code", .integer response.code.toInt) ::
    ((response.message.toList.map fun message => ("message", .string message)) ++
      response.data.toList.map fun data => ("data", data))

theorem writeData_eq (data : Value) : writeData data = Value.writeFields [("data", data)] := by
  rw [writeData, Value.writeFields, Value.writeFields]
  cases data.token <;> simp

/-- **A response is written as the object of its fields.** -/
theorem write_eq (response : Response) :
    response.write = (Value.object response.fields).write := by
  obtain ⟨code, message, data⟩ := response
  unfold write fields
  rw [Value.write, Value.writeFields, Value.write, Value.toInt64?_toInt]
  cases message <;> cases data <;>
    simp [Value.writeFields, Value.token, Value.write, writeData_eq]

theorem encode_ok : response.encode = .ok bytes ↔
    ∃ entries, Value.entryTrees? response.fields = some entries ∧
      (Tree.object entries).depth ≤ maxDepth ∧ bytes = (Tree.object entries).bytes ++ [0x00] := by
  have hwrites := (Value.writes_write (.object response.fields) []).item (by simp)
  rw [encode, write_eq, Writer.toBytes_eq_ok_iff hwrites, Value.tree?]
  simp only [Option.map_map, Option.map_eq_some_iff]
  constructor
  · rintro ⟨_, ⟨entries, hentries, rfl⟩, hdepth, rfl⟩
    exact ⟨entries, hentries, hdepth _ (List.mem_singleton_self _), by simp⟩
  · rintro ⟨entries, hentries, hdepth, rfl⟩
    exact ⟨_, ⟨entries, hentries, rfl⟩, List.forall_mem_singleton.mpr hdepth, by simp⟩

/-- A response can be written if all its fields can. -/
theorem exists_encode_iff_fields : (∃ bytes, response.encode = .ok bytes) ↔
    ∀ field ∈ response.fields, (field.2.isNull = false →
      field.1.utf8ByteSize < 2 ^ 16 ∧ field.2.Writable) ∧ field.2.nesting ≤ 511 := by
  rw [forall₂_and, ← Value.exists_entryTrees?_iff, ← Value.fieldsNesting_le_iff]
  simp only [encode_ok]
  constructor
  · rintro ⟨_, entries, hentries, hdepth, -⟩
    refine ⟨⟨entries, hentries⟩, ?_⟩
    rw [← Value.depth_of_entryTrees? hentries]
    exact Nat.le_of_succ_le_succ hdepth
  · rintro ⟨⟨entries, hentries⟩, hnesting⟩
    refine ⟨_, entries, hentries, ?_, rfl⟩
    rw [← Value.depth_of_entryTrees? hentries] at hnesting
    exact Nat.succ_le_succ hnesting

/-- The field of a name that fits is written if it is null, or as deep as a value may be in it. -/
theorem field_fits_iff {name : String} (hname : name.utf8ByteSize < 2 ^ 16) (value : Value) :
    (value.isNull = false → name.utf8ByteSize < 2 ^ 16 ∧ value.Writable) ∧ value.nesting ≤ 511 ↔
      (value.isNull = false → value.Writable ∧ value.nesting ≤ 511) := by
  cases hnull : value.isNull with
  | true =>
    obtain rfl := Value.tree?_null hnull
    simp [Value.nesting]
  | false => simp only [hname, true_implies, true_and]

theorem writable_string_iff {text : String} :
    (Value.string text).Writable ↔ text.utf8ByteSize < 2 ^ 32 := by
  constructor
  · rintro (_ | _ | hfits)
    exact hfits
  · exact .string

/-- A response can be written if its message fits and its data can be written one level deep. -/
theorem exists_encode_iff : (∃ bytes, response.encode = .ok bytes) ↔
    (∀ message ∈ response.message, message.utf8ByteSize < 2 ^ 32) ∧
      ∀ data ∈ response.data, data.isNull = false → data.Writable ∧ data.nesting ≤ 511 := by
  have hcode : (Value.integer response.code.toInt).Writable :=
    .integer response.code.minValue_le_toInt response.code.toInt_le
  rw [exists_encode_iff_fields, fields, List.forall_mem_cons, List.forall_mem_append,
    List.forall_mem_map, List.forall_mem_map]
  simp only [Option.mem_toList]
  refine (and_iff_right ?_).trans
    (and_congr (forall₂_congr fun message _ => (field_fits_iff (by decide) _).trans ?_)
      (forall₂_congr fun data _ => field_fits_iff (by decide) data))
  · exact (field_fits_iff (by decide) _).mpr fun _ => ⟨hcode, Nat.zero_le _⟩
  · constructor
    · intro h
      exact writable_string_iff.mp (h rfl).1
    · intro h _
      exact ⟨writable_string_iff.mpr h, Nat.zero_le _⟩

/-! ## 2. The round trip -/

theorem filter_code (response : Response) :
    (response.fields.filter fun field => field.1 == "code" && !field.2.isNull) =
      [("code", .integer response.code.toInt)] := by
  simp [fields, List.filter_map, Function.comp_def, Value.isNull]

theorem filter_message (response : Response) :
    (response.fields.filter fun field => field.1 == "message" && !field.2.isNull) =
      response.message.toList.map fun message => ("message", .string message) := by
  simp [fields, List.filter_map, Function.comp_def, Value.isNull]

theorem filter_data (response : Response) :
    (response.fields.filter fun field => field.1 == "data" && !field.2.isNull) =
      (response.data.filter (!·.isNull)).toList.map fun data => ("data", data) := by
  obtain ⟨code, message, _ | data⟩ := response
  · simp [fields, List.filter_map, Function.comp_def]
  · cases hnull : data.isNull <;>
      simp [fields, List.filter_map, Function.comp_def, Option.filter, hnull]

theorem valuesUnder_code (h : Value.entryTrees? response.fields = some entries) :
    valuesUnder "code" entries = [response.code].map Tree.number := by
  have hcode := Value.valuesUnder_of_entryTrees? "code" h
  rw [filter_code] at hcode
  simpa [Value.tree?, Value.toInt64?_toInt] using hcode.symm

theorem valuesUnder_message (h : Value.entryTrees? response.fields = some entries) :
    ∃ messages : List (SizedText 4), valuesUnder "message" entries = messages.map Tree.string ∧
      messages.getLast?.map (·.text) = response.message := by
  have hmessage := Value.valuesUnder_of_entryTrees? "message" h
  rw [filter_message] at hmessage
  cases hfound : response.message with
  | none =>
    rw [hfound] at hmessage
    exact ⟨[], by simpa using hmessage.symm, rfl⟩
  | some message =>
    rw [hfound] at hmessage
    obtain ⟨tree, htree, hunder⟩ : ∃ tree, (Value.string message).tree? = some tree ∧
        [tree] = valuesUnder "message" entries := by
      simpa [Option.bind_eq_some_iff] using hmessage
    obtain ⟨sized, hsized, rfl⟩ := Option.map_eq_some_iff.mp htree
    exact ⟨[sized], hunder.symm, congrArg some (SizedText.of?_eq_some_iff.mp hsized)⟩

/-- Data that is not null stands there as its tree. -/
theorem valuesUnder_data (h : Value.entryTrees? response.fields = some entries)
    (hordered : ∀ data ∈ response.data, data.Ordered) :
    (valuesUnder "data" entries).getLast?.map Tree.value =
      (response.data.filter (!·.isNull)).map Value.strip := by
  have hdata := Value.valuesUnder_of_entryTrees? "data" h
  rw [filter_data] at hdata
  cases hfound : response.data.filter (!·.isNull) with
  | none =>
    rw [hfound] at hdata
    have hunder : [] = valuesUnder "data" entries := by simpa using hdata
    rw [← hunder]
    rfl
  | some data =>
    rw [hfound] at hdata
    obtain ⟨tree, htree, hunder⟩ : ∃ tree, data.tree? = some tree ∧
        [tree] = valuesUnder "data" entries := by
      simpa [Option.bind_eq_some_iff] using hdata
    have hmem : data ∈ response.data := (Option.filter_eq_some_iff.mp hfound).1
    rw [← hunder, Option.map_some, ← Value.value_of_tree? (hordered data hmem) htree]
    rfl

/-- **Responses with generic data survive the wire.**  A response can be written exactly if its
message fits and its data is absent, null or a value that can be written one level deep.  It is read
back with its code and its message; of the data a success keeps what is not null, without its null
fields, and a failure nothing. -/
theorem decode_encode (response : Response) :
    ((∃ bytes, response.encode = .ok bytes) ↔
      (∀ message ∈ response.message, message.utf8ByteSize < 2 ^ 32) ∧
        ∀ data ∈ response.data, data.isNull = false → data.Writable ∧ data.nesting ≤ 511) ∧
    ∀ bytes, response.encode = .ok bytes → (∀ data ∈ response.data, data.Ordered) →
      decode bytes = .ok ⟨response.code, response.message,
        if response.code = 0 then (response.data.filter (!·.isNull)).map Value.strip else none⟩ := by
  refine ⟨exists_encode_iff, fun bytes hbytes hordered => ?_⟩
  obtain ⟨entries, hentries, hdepth, rfl⟩ := encode_ok.mp hbytes
  obtain ⟨messages, hmessages, hmessage⟩ := valuesUnder_message hentries
  have hheader : Reader.onBytes readHeader ((Tree.object entries).bytes ++ [0x00]) =
      .ok ⟨response.code, response.message⟩ := by
    refine readHeader_ok.mpr ⟨entries, [0x00], rfl, .inr ⟨[], rfl⟩, hdepth, ?_⟩
    rw [headerFields?_eq (valuesUnder_code hentries) hmessages, hmessage]
    rfl
  rw [decode_of_header hheader hdepth, valuesUnder_data hentries hordered]

/-- A success whose data has a null field and a failure with data. -/
theorem decode_encode_data :
    (∃ bytes, encode ⟨0, some "ok", some (.object [("a", .array [.integer (-3)]), ("b", .null)])⟩ =
        .ok bytes ∧
      decode bytes = .ok ⟨0, some "ok", some (.object [("a", .array [.integer (-3)])])⟩) ∧
    ∃ bytes, encode ⟨7, none, some (.bool true)⟩ = .ok bytes ∧
      decode bytes = .ok ⟨7, none, none⟩ := by
  have hordered : (Value.object [("a", .array [.integer (-3)]), ("b", .null)]).Ordered := by
    refine .object (List.pairwise_pair.mpr (by decide)) ?_
    simp only [List.forall_mem_cons]
    exact ⟨.array (List.forall_mem_singleton.mpr (.integer _)), .null,
      fun _ h => absurd h List.not_mem_nil⟩
  obtain ⟨-, hsuccess⟩ := decode_encode
    ⟨0, some "ok", some (.object [("a", .array [.integer (-3)]), ("b", .null)])⟩
  obtain ⟨-, hfailure⟩ := decode_encode ⟨7, none, some (.bool true)⟩
  refine ⟨⟨_, rfl, hsuccess _ rfl fun data hdata => ?_⟩, _, rfl,
    hfailure _ rfl fun data hdata => ?_⟩
  · cases hdata
    exact hordered
  · cases hdata
    exact .bool true

end Response

end RemoteCall
