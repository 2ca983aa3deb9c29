/-
# A response is read in two passes

Both passes read the same object.  The first takes code and message and skips the data, the second
takes the data and skips the rest.  What a pass skips is some value, of whatever shape, so the passes
find the same entries, and what each of them makes of an entry only depends on the entries of the
names that it knows.

So the result is a matter of the last code, of the last message and of the data (`decodeWith_object`):
a code other than zero decides alone.  Nothing else of the object shows, neither the order of
different fields nor any field of another name.
-/
import RemoteCall.Proofs.Message.Response
import RemoteCall.Proofs.Typed.Verdict
import RemoteCall.Proofs.Wire.Entries

namespace RemoteCall.Response

open Wire Wire.Reader Success

variable {adapter : Adapter} {entries : List (SizedText 2 × Tree)} {tail : Bytes}

/-! ## 1. The header -/

/-- What one more field gives for the header; `found` is what earlier fields gave. -/
def headerField? (found : Option Int64 × Option String) (name : String) (tree : Tree) :
    Option (Option Int64 × Option String) :=
  if name = "code" then tree.number?.map fun code => (some code, found.2)
  else if name = "message" then tree.text?.map fun message => (found.1, some message)
  else some found

/-- What the fields of an object give for the header. -/
def headerFields? (entries : List (SizedText 2 × Tree)) : Option (Option Int64 × Option String) :=
  entries.foldlM (fun found entry => headerField? found entry.1.text entry.2) (none, none)

/-- Reads what the fields of a response give for its header. -/
def readHeaderFields : Read (Option Int64 × Option String) := do
  Reader.beginObject
  let found ← Reader.untilEnd readHeaderField (none, none)
  Reader.endObject
  return found

theorem recognizes_headerField {scopes : List Scope} (found : Option Int64 × Option String)
    (name : String) :
    Recognizes (if name = "code" then do return (some (← Reader.readNumber), found.2)
      else if name = "message" then do return (found.1, some (← Reader.readString))
      else do
        Reader.skip
        return found) scopes (headerField? found name) := by
  unfold headerField?
  split
  · exact recognizes_number.map fun code => (some code, found.2)
  · split
    · exact recognizes_string.map fun message => (found.1, some message)
    · exact recognizes_skip.map fun _ => found

theorem recognizes_readHeaderFields {scopes : List Scope} :
    Recognizes readHeaderFields scopes fun tree => tree.entries?.bind headerFields? := by
  have hobject := recognizes_object id (none, none)
    fun (_ : scopes.length < maxDepth) found name => recognizes_headerField found name
  simp only [Option.map_id_fun, id_eq] at hobject
  exact hobject

/-- Ends the stream after an object whose fields gave `found`. -/
def endHeader (found : Option Int64 × Option String) : Read Header := do
  discard Reader.finish
  match found.1 with
  | some code => return ⟨code, found.2⟩
  | none => throw (.value .noResultCode)

theorem readHeaderFields_bind_endHeader : readHeaderFields >>= endHeader = readHeader := by
  simp only [readHeaderFields, bind_assoc, pure_bind]
  rfl

theorem looksAhead_readHeaderFields : LooksAhead readHeaderFields :=
  ((looksAhead_consume _ _).bind _).bind _

theorem endHeader_ok {found : Option Int64 × Option String} {position : Nat} {header : Header} :
    (∃ after, endHeader found ⟨tail, position, [], none, none⟩ = .ok header after) ↔
      EndsStream tail ∧ found = (some header.code, header.message) := by
  obtain ⟨code, message⟩ := found
  rw [← @exists_finish_ok_iff tail position]
  unfold endHeader
  simp only [bind_ok, discard_ok]
  constructor
  · rintro ⟨after, _, mid, ⟨rest, hfinish⟩, h⟩
    cases code with
    | none => exact (throw_ok.mp h).elim
    | some code =>
      obtain ⟨rfl, -⟩ := pure_ok.mp h
      exact ⟨⟨rest, mid, hfinish⟩, rfl⟩
  · rintro ⟨⟨rest, mid, hfinish⟩, h⟩
    cases h
    exact ⟨mid, (), mid, ⟨rest, hfinish⟩, rfl⟩

/-- **The header of a frame** is that of an object with a code, with which the stream ends. -/
theorem readHeader_ok {frame : Bytes} {header : Header} :
    Reader.onBytes readHeader frame = .ok header ↔
      ∃ entries tail, frame = (Tree.object entries).bytes ++ tail ∧ EndsStream tail ∧
        (Tree.object entries).depth ≤ maxDepth ∧
        headerFields? entries = some (some header.code, header.message) := by
  rw [onBytes_ok, ← readHeaderFields_bind_endHeader]
  simp only [bind_ok, recognizes_readHeaderFields.ofBytes_ok looksAhead_readHeaderFields]
  constructor
  · rintro ⟨after, found, _, ⟨tree, tail, hdepth, hfound, rfl, rfl⟩, hend⟩
    obtain ⟨entries, hentries, hfields⟩ := Option.bind_eq_some_iff.mp hfound
    obtain rfl : tree = .object entries := by cases tree <;> cases hentries; rfl
    obtain ⟨htail, rfl⟩ := endHeader_ok.mp ⟨after, hend⟩
    exact ⟨entries, tail, rfl, htail, hdepth, hfields⟩
  · rintro ⟨entries, tail, rfl, htail, hdepth, hfields⟩
    obtain ⟨after, hend⟩ := endHeader_ok.mpr ⟨htail, rfl⟩
    exact ⟨after, _, _, ⟨.object entries, tail, hdepth, hfields, rfl, rfl⟩, hend⟩

/-- A code that is a number and a message that is a string set their places. -/
theorem exists_headerField? {codes : List Int64} {messages : List (SizedText 4)}
    (hcodes : valuesUnder "code" entries = codes.map Tree.number)
    (hmessages : valuesUnder "message" entries = messages.map Tree.string)
    (found : Option Int64 × Option String) {entry : SizedText 2 × Tree} (hentry : entry ∈ entries) :
    ∃ next, headerField? found entry.1.text entry.2 = pure next ∧
      next.1 = (if entry.1.text = "code" then entry.2.number? else found.1) ∧
      next.2 = if entry.1.text = "message" then entry.2.text? else found.2 := by
  unfold headerField?
  by_cases hcode : entry.1.text = "code"
  · have hmem : entry.2 ∈ codes.map Tree.number :=
      hcodes ▸ mem_valuesUnder.mpr ⟨entry, hentry, hcode, rfl⟩
    obtain ⟨code, -, htree⟩ := List.mem_map.mp hmem
    rw [← htree, hcode]
    exact ⟨_, rfl, rfl, rfl⟩
  · by_cases hmessage : entry.1.text = "message"
    · have hmem : entry.2 ∈ messages.map Tree.string :=
        hmessages ▸ mem_valuesUnder.mpr ⟨entry, hentry, hmessage, rfl⟩
      obtain ⟨message, -, htree⟩ := List.mem_map.mp hmem
      rw [← htree, hmessage]
      exact ⟨_, rfl, rfl, rfl⟩
    · simp only [if_neg hcode, if_neg hmessage]
      exact ⟨found, rfl, rfl, rfl⟩

/-- **The last code and the last message make the header.** -/
theorem headerFields?_eq {codes : List Int64} {messages : List (SizedText 4)}
    (hcodes : valuesUnder "code" entries = codes.map Tree.number)
    (hmessages : valuesUnder "message" entries = messages.map Tree.string) :
    headerFields? entries = some (codes.getLast?, messages.getLast?.map (·.text)) := by
  obtain ⟨found, hfound, -, hcode⟩ := exists_foldlM_slots (fun _ : Unit => "code")
    (fun _ found => found.1) (fun _ => Tree.number?) (fun _ => True) (none, none)
    (fun found _ entry hentry => by
      obtain ⟨next, hnext, hcode, -⟩ := exists_headerField? hcodes hmessages found hentry
      exact ⟨next, hnext, trivial, fun _ => hcode⟩) trivial
  obtain ⟨found', hfound', -, hmessage⟩ := exists_foldlM_slots (fun _ : Unit => "message")
    (fun _ found => found.2) (fun _ => Tree.text?) (fun _ => True) (none, none)
    (fun found _ entry hentry => by
      obtain ⟨next, hnext, -, hmessage⟩ := exists_headerField? hcodes hmessages found hentry
      exact ⟨next, hnext, trivial, fun _ => hmessage⟩) trivial
  obtain rfl : found = found' := Option.some.inj (hfound.symm.trans hfound')
  refine hfound.trans (congrArg some (Prod.ext ?_ ?_))
  · rw [hcode (), hcodes, List.getLast?_map]
    cases codes.getLast? <;> rfl
  · rw [hmessage (), hmessages, List.getLast?_map]
    cases messages.getLast? <;> rfl

/-! ## 2. The data -/

theorem stepsAs_readDataField {α : Type} {read : Read α} {judge : Tree → Except Error α}
    {entry : SizedText 2 × Tree} (h : ReadsAs read entry.2 (judge entry.2)) (found : Option α) :
    StepsAs (readDataField read found) entry
      (if entry.1.text = "data" then (judge entry.2).map some else pure found) := by
  obtain ⟨name, tree⟩ := entry
  refine ReadsAs.entry (fun name => if name = "data" then do return some (← read)
    else do
      Reader.skip
      return found) ?_
  split
  · exact h.map some
  · exact readsAs_skip.map fun _ => found

/-- **The data of an object** is read from the fields of that name alone, one after the other. -/
theorem readsAs_readData {α : Type} {read : Read α} (judge : Tree → Except Error α)
    (h : ∀ entry ∈ entries, ReadsAs read entry.2 (judge entry.2)) :
    ReadsAs (readData read) (.object entries)
      ((valuesUnder "data" entries).foldlM (fun _ tree => (judge tree).map some) none) := by
  have hread := readsAs_object
    (fun found entry hentry => stepsAs_readDataField (h entry hentry) found) id none
  have hfold : entries.foldlM (fun found entry =>
      if entry.1.text = "data" then (judge entry.2).map some else pure found) none =
        (valuesUnder "data" entries).foldlM (fun _ tree => (judge tree).map some) none :=
    foldlM_valuesUnder (fun _ tree => (judge tree).map some) (fun _ _ => rfl) entries none
  rw [hfold, Except.map_id] at hread
  exact hread

theorem looksAhead_readData {α : Type} (read : Read α) : LooksAhead (readData read) :=
  ((looksAhead_consume _ _).bind _).bind _

/-- A value of the right type is the data, and of several the last one. -/
theorem foldlM_data {α : Type} {judge : Tree → Except Error α} : ∀ {trees : List Tree}
    {data : List α} (found : Option α), List.Forall₂ (fun tree a => judge tree = .ok a) trees data →
    trees.foldlM (fun _ tree => (judge tree).map some) found = .ok (data.getLast?.or found)
  | [], [], _, .nil => rfl
  | tree :: trees, a :: data, found, .cons ha hdata => by
    rw [List.foldlM_cons, ha]
    refine (foldlM_data (some a) hdata).trans ?_
    rw [List.getLast?_cons]
    cases data.getLast? <;> rfl

/-! ## 3. The result -/

/-- What a code, a message and the data come to. -/
def resultOf (adapter : Adapter) (code : Int64) (message : Option String) (data : List Tree) :
    Except Error Datum :=
  if code = 0 then do
    match ← data.foldlM (fun _ tree => (adapter.decode tree.bytes).map some) none with
    | some datum => return datum
    | none => adapter.absent
  else .error (.application code (message.getD ""))

/-- The two passes over an object come to the result of what stands under the three names. -/
theorem decodeWith_eq (adapter : Adapter) {codes : List Int64} {code : Int64}
    {messages : List (SizedText 4)}
    (hcodes : valuesUnder "code" entries = codes.map Tree.number)
    (hcode : codes.getLast? = some code)
    (hmessages : valuesUnder "message" entries = messages.map Tree.string)
    (hdepth : (Tree.object entries).depth ≤ maxDepth) (htail : EndsStream tail) :
    decodeWith adapter ((Tree.object entries).bytes ++ tail) =
      resultOf adapter code (messages.getLast?.map (·.text)) (valuesUnder "data" entries) := by
  have hheader : Reader.onBytes readHeader ((Tree.object entries).bytes ++ tail) =
      .ok ⟨code, messages.getLast?.map (·.text)⟩ := by
    refine readHeader_ok.mpr ⟨entries, tail, rfl, htail, hdepth, ?_⟩
    rw [headerFields?_eq hcodes hmessages, hcode]
  have hinside : ∀ entry ∈ entries, entry.2.depth ≤ maxDepth :=
    Tree.entriesDepth_le_iff.mp (Nat.le_of_succ_le hdepth)
  have hdata := (readsAs_readData (fun tree => adapter.decode tree.bytes) fun entry hentry =>
    Table.readsAs_read adapter.table adapter.type (hinside entry hentry)).onBytes
      (looksAhead_readData _) hdepth tail
  rw [decodeWith, hheader, resultOf, ← hdata]
  rfl

/-- **The result code decides first, and fields of other names do not count.**  An object with a
code, its codes numbers and its messages strings, comes to a failure of the application if the last
code is not zero, whatever its data; otherwise to the last data, if all data is of the type, or to
the absent value without any.  The object may be rearranged as far as it says the same under the
three names. -/
theorem decodeWith_object {codes : List Int64} {code : Int64} {messages : List (SizedText 4)}
    (hcodes : valuesUnder "code" entries = codes.map Tree.number)
    (hcode : codes.getLast? = some code)
    (hmessages : valuesUnder "message" entries = messages.map Tree.string)
    (hdepth : (Tree.object entries).depth ≤ 512) (htail : EndsStream tail) :
    (code ≠ 0 → decodeWith adapter ((Tree.object entries).bytes ++ tail) =
        .error (.application code ((messages.getLast?.map (·.text)).getD ""))) ∧
      (code = 0 → valuesUnder "data" entries = [] →
        decodeWith adapter ((Tree.object entries).bytes ++ tail) = adapter.absent) ∧
      (code = 0 → ∀ data datum,
        List.Forall₂ (fun tree datum => adapter.decode tree.bytes = .ok datum)
          (valuesUnder "data" entries) data → data.getLast? = some datum →
        decodeWith adapter ((Tree.object entries).bytes ++ tail) = .ok datum) ∧
      ∀ others tail', Rearranged ["code", "message", "data"] entries others →
        (Tree.object others).depth ≤ 512 → EndsStream tail' →
        decodeWith adapter ((Tree.object others).bytes ++ tail') =
          decodeWith adapter ((Tree.object entries).bytes ++ tail) := by
  have hresult := decodeWith_eq adapter hcodes hcode hmessages hdepth htail
  refine ⟨?_, ?_, ?_, ?_⟩
  · intro hfailure
    rw [hresult, resultOf, if_neg hfailure]
  · intro hsuccess hdata
    rw [hresult, resultOf, if_pos hsuccess, hdata]
    rfl
  · intro hsuccess data datum hdata hlast
    rw [hresult, resultOf, if_pos hsuccess, foldlM_data none hdata, hlast]
    rfl
  · intro others tail' hsame hdepth' htail'
    have hsees : ∀ name ∈ ["code", "message", "data"],
        valuesUnder name others = valuesUnder name entries :=
      fun name hname => (hsame.valuesUnder_eq hname).symm
    have hother := decodeWith_eq adapter ((hsees "code" (by simp)).trans hcodes) hcode
      ((hsees "message" (by simp)).trans hmessages) hdepth' htail'
    rw [hresult, hother, hsees "data" (by simp)]

/-- A failure with data that is no string, in two orders, and a success whose second code and second
data stand, in two orders and with an entry of another name. -/
theorem decodeWith_object_orders :
    decodeWith ⟨[(.string, .structural)], .string⟩ (Tree.object
        [(⟨"data", by decide⟩, .number 5), (⟨"code", by decide⟩, .number (-3)),
          (⟨"message", by decide⟩, .string ⟨"late", by decide⟩)]).bytes =
      .error (.application (-3) "late") ∧
    decodeWith ⟨[(.string, .structural)], .string⟩ (Tree.object
        [(⟨"message", by decide⟩, .string ⟨"late", by decide⟩), (⟨"data", by decide⟩, .number 5),
          (⟨"code", by decide⟩, .number (-3))]).bytes =
      .error (.application (-3) "late") ∧
    decodeWith ⟨[(.string, .structural)], .string⟩ ((Tree.object
        [(⟨"data", by decide⟩, .string ⟨"old", by decide⟩), (⟨"code", by decide⟩, .number 7),
          (⟨"data", by decide⟩, .string ⟨"new", by decide⟩),
          (⟨"code", by decide⟩, .number 0)]).bytes ++ [0x00, 0xff]) = .ok (.string "new") ∧
    decodeWith ⟨[(.string, .structural)], .string⟩ (Tree.object
        [(⟨"code", by decide⟩, .number 7), (⟨"data", by decide⟩, .string ⟨"old", by decide⟩),
          (⟨"extra", by decide⟩, .array []), (⟨"code", by decide⟩, .number 0),
          (⟨"data", by decide⟩, .string ⟨"new", by decide⟩)]).bytes = .ok (.string "new") := by
  obtain ⟨hfailure, -, -, hfailures⟩ := @decodeWith_object ⟨[(.string, .structural)], .string⟩
    [(⟨"data", by decide⟩, .number 5), (⟨"code", by decide⟩, .number (-3)),
      (⟨"message", by decide⟩, .string ⟨"late", by decide⟩)] [] [-3] (-3) [⟨"late", by decide⟩]
    rfl rfl rfl (by decide) (.inl rfl)
  obtain ⟨-, -, hsuccess, hsuccesses⟩ := @decodeWith_object ⟨[(.string, .structural)], .string⟩
    [(⟨"data", by decide⟩, .string ⟨"old", by decide⟩), (⟨"code", by decide⟩, .number 7),
      (⟨"data", by decide⟩, .string ⟨"new", by decide⟩), (⟨"code", by decide⟩, .number 0)]
    [0x00, 0xff] [7, 0] 0 [] rfl rfl rfl (by decide) (.inr ⟨_, rfl⟩)
  have hlate := hfailure (by decide)
  have hnew := hsuccess rfl _ _ (.cons rfl (.cons rfl .nil)) rfl
  have hrotated := hfailures _ [] (.of_perm (@List.perm_append_comm _ [_, _] [_]) (by decide))
    (by decide) (.inl rfl)
  have hswapped := hsuccesses _ []
    ((Rearranged.swap [] [_, _] (by decide)).trans ((Rearranged.swap [_, _] [] (by decide)).trans
      (@Rearranged.insert _ (⟨"extra", by decide⟩, .array []) [_, _] [_, _] (by decide))))
    (by decide) (.inl rfl)
  rw [List.append_nil] at hlate hrotated hswapped
  exact ⟨hlate, hrotated.trans hlate, hnew, hswapped.trans hnew⟩

end RemoteCall.Response
