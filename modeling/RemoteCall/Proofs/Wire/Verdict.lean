/-
# A value is read alike wherever it stands

What is read of a value, or why it is not, is a matter of the value alone: not of the bytes before
and after it, and not of the scopes it stands in as long as it fits the nesting limit.  `ReadsAs`
says so of one operation and one value, for successes and failures alike; `StepsAs` says it of an
element with the name that it may have.

The loop over the values of a scope comes to the fold of what its steps come to (`outcome_foldNext`),
and so does the scope as a value of its own (`readsAs_scope`).  The first element that is refused is
what the scope is refused for.

An operation that looks ahead first may begin before its value (`LooksAhead`), so a value that stands
alone is read as it is anywhere else (`ReadsAs.onBytes`).
-/
import RemoteCall.Proofs.Outcome
import RemoteCall.Proofs.Wire.Skipping

namespace RemoteCall.Wire

/-- The values directly inside of a value. -/
def Tree.parts : Tree → List Tree
  | array items => items
  | object entries => entries.map (·.2)
  | _ => []

theorem Tree.depth_lt_of_mem_parts {tree part : Tree} (h : part ∈ tree.parts) :
    part.depth < tree.depth := by
  cases tree with
  | array items => exact Nat.lt_succ_of_le (itemsDepth_le_iff.mp (Nat.le_refl _) part h)
  | object entries =>
    obtain ⟨entry, hentry, rfl⟩ := List.mem_map.mp h
    exact Nat.lt_succ_of_le (entriesDepth_le_iff.mp (Nat.le_refl _) entry hentry)
  | _ => cases h

theorem Tree.one_add_length_payload (tree : Tree) :
    1 + tree.payload.length = tree.bytes.length := by
  rw [Tree.bytes, List.length_cons, Nat.add_comm]

namespace Reader

open Success

variable {α β ε : Type} {scopes : List Scope} {tree : Tree} {verdict : Except Error α}

/-! ## 1. Verdicts -/

/-- With its token looked at, a value that fits is taken and comes to `verdict`, whatever stands
around it. -/
def ReadsAs (read : Read α) (tree : Tree) (verdict : Except Error α) : Prop :=
  ∀ (scopes : List Scope) (position : Nat) (rest : Bytes), tree.depth ≤ room scopes →
    outcome read ⟨tree.payload ++ rest, position, scopes, some tree.token, none⟩ =
      verdict.map (·, ⟨rest, position + tree.payload.length, scopes, none, none⟩)

/-- With its token and its name looked at, an element that fits is taken and comes to `verdict`. -/
def StepsAs [Element ε] (step : Read α) (element : ε) (verdict : Except Error α) : Prop :=
  ∀ (scopes : List Scope) (position : Nat) (rest : Bytes),
    Names scopes (Element.name? element) → (Element.tree element).depth ≤ room scopes →
    outcome step ⟨(Element.tree element).payload ++ rest, position, scopes,
        some (Element.tree element).token, (Element.name? element).map (·.text)⟩ =
      verdict.map
        (·, ⟨rest, position + (Element.tree element).payload.length, scopes, none, none⟩)

/-- What is recognized everywhere is read. -/
theorem readsAs_of_recognizes {read : Read α} {interpret : Tree → Option α} {a : α}
    (h : ∀ scopes, Recognizes read scopes interpret) (ha : interpret tree = some a) :
    ReadsAs read tree (.ok a) := by
  intro scopes position rest hdepth
  exact outcome_of_ok ((h scopes _ _ _ _ _).mpr ⟨tree, rest, rfl, hdepth, ha, rfl, rfl⟩)

theorem readsAs_throw (error : Error) : ReadsAs (throw error : Read α) tree (.error error) :=
  fun _ _ _ _ => rfl

/-- Reading on without touching the bytes. -/
theorem ReadsAs.bind {read : Read α} {next : α → Read β} (h : ReadsAs read tree verdict)
    (judge : α → Except Error β)
    (hnext : ∀ a before, outcome (next a) before = (judge a).map (·, before)) :
    ReadsAs (read >>= next) tree (verdict >>= judge) := by
  intro scopes position rest hdepth
  rw [outcome_bind, h scopes position rest hdepth]
  cases verdict with
  | error error => rfl
  | ok a => exact hnext a _

theorem ReadsAs.map {read : Read α} (h : ReadsAs read tree verdict) (k : α → β) :
    ReadsAs (do return k (← read)) tree (verdict.map k) := by
  have hpure : ∀ (a : α) (before : Reader), outcome (pure (k a) : Read β) before =
      (Except.ok (k a)).map (·, before) := fun _ _ => rfl
  have hbind := h.bind (fun a => .ok (k a)) hpure
  cases verdict <;> exact hbind

/-- A value of another kind is refused for its token. -/
theorem readsAs_of_token_ne {token : Token} {expected : Expectation} {next : Unit → Read α}
    (h : tree.token ≠ token) :
    ReadsAs (consume token expected >>= next) tree (.error (.unexpected expected tree.token)) := by
  intro scopes position rest _
  have hconsume : outcome (consume token expected)
      ⟨tree.payload ++ rest, position, scopes, some tree.token, none⟩ =
        .error (.unexpected expected tree.token) := by
    unfold consume
    rw [outcome_bind_of_ok (peek_of_peeked.mpr ⟨rfl, rfl⟩), if_neg h, outcome_throw]
  rw [outcome_bind, hconsume]
  rfl

/-- A scope does not open on a value of another kind. -/
theorem readsAs_opens_of_token_ne {token : Token} {expected : Expectation} {scope : Scope}
    {next : Unit → Read α} (h : tree.token ≠ token) :
    ReadsAs ((do consume token expected; push scope) >>= next) tree
      (.error (.unexpected expected tree.token)) := by
  rw [bind_assoc]
  exact readsAs_of_token_ne h

theorem readsAs_skip : ReadsAs skip tree (.ok ()) :=
  readsAs_of_recognizes (fun _ => recognizes_skip) rfl

/-- Outside of an object an element is its value. -/
theorem ReadsAs.item {read : Read α} (h : ReadsAs read tree verdict) :
    StepsAs read tree verdict :=
  fun scopes position rest _ hdepth => h scopes position rest hdepth

/-- Inside an object the name is taken and then the value is read. -/
theorem ReadsAs.entry {name : SizedText 2} (read : String → Read α)
    (h : ReadsAs (read name.text) tree verdict) :
    StepsAs (do read (← nextName)) (name, tree) verdict := by
  intro scopes position rest hnames hdepth
  obtain ⟨others, rfl⟩ : ∃ others, scopes = .object :: others :=
    List.head?_eq_some_iff.mp (hnames.mp rfl)
  have hname : nextName ⟨tree.payload ++ rest, position, .object :: others, some tree.token,
      some name.text⟩ = .ok name.text ⟨tree.payload ++ rest, position, .object :: others,
        some tree.token, none⟩ := nextName_ok.mpr ⟨rfl, rfl⟩
  exact (outcome_bind_of_ok hname).trans (h _ position rest hdepth)

/-! ## 2. Scopes -/

/-- A test for more values, where one has looked what comes next. -/
theorem outcome_ifNext {next : Read β} {b : β} {token : Token} {before seen : Reader}
    (h : peek before = .ok token seen) :
    outcome (do if ← hasNext then next else return b) before =
      if token.startsValue then outcome next seen else .ok (b, seen) := by
  rw [outcome_bind_of_ok (hasNext_ok.mpr ⟨token, h, rfl⟩)]
  cases token.startsValue <;> rfl

/-- An element is looked ahead at by its token and its name. -/
theorem peek_element [Element ε] (element : ε) (hnames : Names scopes (Element.name? element))
    (position : Nat) (rest : Bytes) :
    peek ⟨Element.bytes element ++ rest, position, scopes, none, none⟩ =
      .ok (Element.tree element).token ⟨(Element.tree element).payload ++ rest,
        position + 1 + (Element.nameBytes (Element.name? element)).length, scopes,
        some (Element.tree element).token, (Element.name? element).map (·.text)⟩ :=
  peek_ok.mpr (.inl ⟨Element.name? element, _, Tree.startsValue_token _, hnames,
    by simp [Element.bytes], rfl⟩)

/-- One element and then on. -/
theorem outcome_round [Element ε] {step : β → Read β} {next : β → Read β} {element : ε} {b : β}
    {judged : Except Error β} (hstep : StepsAs (step b) element judged)
    (hnames : Names scopes (Element.name? element))
    (hdepth : (Element.tree element).depth ≤ room scopes) (position : Nat) (rest : Bytes) :
    outcome (do if ← hasNext then (do let b ← step b; next b) else return b)
        ⟨Element.bytes element ++ rest, position, scopes, none, none⟩ =
      judged >>= fun b => outcome (next b)
        ⟨rest, position + (Element.bytes element).length, scopes, none, none⟩ := by
  have hend : position + (Element.bytes element).length =
      position + 1 + (Element.nameBytes (Element.name? element)).length +
        (Element.tree element).payload.length := by
    rw [length_element_bytes]
    omega
  rw [outcome_ifNext (peek_element element hnames position rest), if_pos (Tree.startsValue_token _),
    outcome_bind, hstep _ _ _ hnames hdepth, hend]
  cases judged <;> rfl

/-- **A loop comes to the fold of what its steps come to.**  The induction is on the elements; each of
them takes at least one byte, so the bound on the rounds is not met. -/
theorem outcome_foldNext [Element ε] {step : β → Read β} {judge : β → ε → Except Error β}
    {tail rest : Bytes} (hends : Ends scopes.head? tail rest) :
    ∀ {elements : List ε} {left : Bytes} (position : Nat) (b : β),
    (∀ b, ∀ element ∈ elements, StepsAs (step b) element (judge b element)) →
    Fits scopes elements → (elements.flatMap Element.bytes ++ tail).length ≤ left.length →
    outcome (foldNext step left b)
        ⟨elements.flatMap Element.bytes ++ tail, position, scopes, none, none⟩ =
      (elements.foldlM judge b).map (·, atEnd scopes rest (position +
        ((elements.flatMap Element.bytes ++ tail).length - rest.length)))
  | [], left, position, b, _, _, _ => by
    have hstop : peek ⟨tail, position, scopes, none, none⟩ =
        .ok (endToken scopes.head?) (atEnd scopes rest (position + (tail.length - rest.length))) :=
      peek_ok.mpr (.inr ⟨rest, rfl, hends, rfl⟩)
    cases left with
    | nil =>
      rw [foldNext]
      exact (outcome_ifNext hstop).trans (by rw [startsValue_endToken]; rfl)
    | cons byte left =>
      rw [foldNext]
      exact (outcome_ifNext hstop).trans (by rw [startsValue_endToken]; rfl)
  | element :: elements, [], _, _, _, _, hlen => by
    rw [List.flatMap_cons, List.append_assoc, List.length_append, length_element_bytes,
      List.length_nil] at hlen
    omega
  | element :: elements, byte :: left, position, b, hsteps, hfits, hlen => by
    obtain ⟨⟨hnames, hdepth⟩, hmore⟩ := List.forall_mem_cons.mp hfits
    have hshort : (elements.flatMap Element.bytes ++ tail).length ≤ left.length := by
      rw [List.flatMap_cons, List.append_assoc, List.length_append, length_element_bytes,
        List.length_cons] at hlen
      omega
    rw [foldNext, List.flatMap_cons, List.append_assoc, List.foldlM_cons,
      outcome_round (hsteps b element List.mem_cons_self) hnames hdepth]
    cases judge b element with
    | error error => rfl
    | ok b =>
      have ih := outcome_foldNext hends (position + (Element.bytes element).length) b
        (fun b other hother => hsteps b other (List.mem_cons_of_mem _ hother)) hmore hshort
      have hlength := ends_length hends
      have hend : position + (Element.bytes element).length +
          ((elements.flatMap Element.bytes ++ tail).length - rest.length) =
            position + ((Element.bytes element ++
              (elements.flatMap Element.bytes ++ tail)).length - rest.length) := by
        simp only [List.length_append]
        omega
      rw [hend] at ih
      exact ih

/-- **A scope comes to the fold of its elements.** -/
theorem readsAs_scope [Element ε] {scope : Scope} {opening : Token} {gather : List ε → Tree}
    (hgather : Gathers scope opening gather) {expected : Expectation} {step : β → Read β}
    {judge : β → ε → Except Error β} {elements : List ε}
    (hsteps : ∀ b, ∀ element ∈ elements, StepsAs (step b) element (judge b element))
    (k : β → α) (start : β) :
    ReadsAs (do
        (do consume opening expected; push scope)
        let b ← untilEnd step start
        close scope
        return k b) (gather elements) ((elements.foldlM judge start).map k) := by
  intro scopes position rest hdepth
  obtain ⟨hroom, hfits⟩ := hgather.depth_le_room_iff.mp hdepth
  have hends : Ends (scope :: scopes).head? (scope.closing.tag :: rest) rest := .inl rfl
  have hinside := outcome_foldNext hends position start hsteps ((fits_iff hgather).mpr hfits)
    (Nat.le_refl _)
  have hend : position + ((elements.flatMap Element.bytes ++ scope.closing.tag :: rest).length -
      rest.length) = position + (elements.flatMap Element.bytes ++ [scope.closing.tag]).length := by
    simp only [List.length_append, List.length_cons, List.length_nil]
    omega
  rw [outcome_bind_of_ok (a := ()) (opens_ok.mpr ⟨hgather.token elements, hroom, rfl⟩),
    outcome_bind, hgather.payload, List.append_assoc, List.singleton_append, untilEnd]
  show outcome (foldNext _ _ _) _ >>= _ = _
  rw [hinside, hend]
  cases elements.foldlM judge start with
  | error error => rfl
  | ok b => exact outcome_bind_of_ok (a := ()) (close_ok.mpr rfl)

theorem readsAs_array {read : β → Read β} {judge : β → Tree → Except Error β} {items : List Tree}
    (h : ∀ b, ∀ item ∈ items, ReadsAs (read b) item (judge b item)) (k : β → α) (start : β) :
    ReadsAs (do beginArray; let b ← untilEnd read start; endArray; return k b) (.array items)
      ((items.foldlM judge start).map k) :=
  readsAs_scope gathers_array (fun b item hitem => (h b item hitem).item) k start

/-- The items of an array, in order. -/
theorem readsAs_items {read : Read β} {judge : Tree → Except Error β} {items : List Tree}
    (h : ∀ item ∈ items, ReadsAs read item (judge item)) (k : List β → α) :
    ReadsAs (do beginArray; let values ← Reader.items read; endArray; return k values)
      (.array items)
      ((items.foldlM (fun done item => (judge item).map (· :: done)) []).map (k ·.reverse)) := by
  have hfold := readsAs_array (fun done item hitem => (h item hitem).map (· :: done))
    (fun done => k done.reverse) []
  simp only [Reader.items, bind_assoc, pure_bind]
  exact hfold

theorem readsAs_object {step : β → Read β} {judge : β → SizedText 2 × Tree → Except Error β}
    {entries : List (SizedText 2 × Tree)}
    (h : ∀ b, ∀ entry ∈ entries, StepsAs (step b) entry (judge b entry)) (k : β → α) (start : β) :
    ReadsAs (do beginObject; let b ← untilEnd step start; endObject; return k b) (.object entries)
      ((entries.foldlM judge start).map k) :=
  readsAs_scope gathers_object h k start

/-! ## 3. Whatever the value is

A value of another kind is refused, so each of these operations has a verdict on every value. -/

theorem exists_readsAs_of_token {token : Token} {expected : Expectation} {next : Unit → Read α}
    {interpret : Tree → Option α}
    (h : ∀ scopes, Recognizes (consume token expected >>= next) scopes interpret)
    (hsome : tree.token = token → ∃ a, interpret tree = some a) :
    ∃ verdict, ReadsAs (consume token expected >>= next) tree verdict := by
  by_cases htoken : tree.token = token
  · obtain ⟨a, ha⟩ := hsome htoken
    exact ⟨_, readsAs_of_recognizes h ha⟩
  · exact ⟨_, readsAs_of_token_ne htoken⟩

theorem exists_readsAs_number (tree : Tree) : ∃ verdict, ReadsAs readNumber tree verdict :=
  exists_readsAs_of_token (fun _ => recognizes_number) fun htoken => by
    cases tree <;> cases htoken
    exact ⟨_, rfl⟩

theorem exists_readsAs_string (tree : Tree) : ∃ verdict, ReadsAs readString tree verdict :=
  exists_readsAs_of_token (fun _ => recognizes_string) fun htoken => by
    cases tree <;> cases htoken
    exact ⟨_, rfl⟩

theorem exists_readsAs_bool (tree : Tree) : ∃ verdict, ReadsAs readBool tree verdict :=
  exists_readsAs_of_token (fun _ => recognizes_boolean) fun htoken => by
    cases tree <;> cases htoken
    exact ⟨_, rfl⟩

section

variable {ι : Type} {holds : ι → Prop}

/-- The verdict on an array is the same for all operations that read its items alike. -/
theorem exists_readsAs_items {read : ι → Read β} {judge : Tree → Except Error β} (tree : Tree)
    (h : ∀ i, holds i → ∀ part ∈ tree.parts, ReadsAs (read i) part (judge part))
    (k : List β → α) : ∃ verdict, ∀ i, holds i →
      ReadsAs (do beginArray; let values ← items (read i); endArray; return k values)
        tree verdict := by
  by_cases htoken : tree.token = .beginArray
  · obtain ⟨items, rfl⟩ : ∃ items, tree = .array items := by
      cases tree <;> cases htoken
      exact ⟨_, rfl⟩
    exact ⟨_, fun i hi => readsAs_items (h i hi) k⟩
  · exact ⟨_, fun i _ => readsAs_opens_of_token_ne htoken⟩

/-- The verdict on an object is the same for all operations that read its entries alike. -/
theorem exists_readsAs_object {step : ι → β → Read β} (tree : Tree)
    (judge : β → SizedText 2 × Tree → Except Error β)
    (h : ∀ i, holds i → ∀ b (entry : SizedText 2 × Tree), entry.2 ∈ tree.parts →
      StepsAs (step i b) entry (judge b entry))
    (k : β → α) (start : β) : ∃ verdict, ∀ i, holds i →
      ReadsAs (do beginObject; let b ← untilEnd (step i) start; endObject; return k b)
        tree verdict := by
  by_cases htoken : tree.token = .beginObject
  · obtain ⟨entries, rfl⟩ : ∃ entries, tree = .object entries := by
      cases tree <;> cases htoken
      exact ⟨_, rfl⟩
    exact ⟨_, fun i hi => readsAs_object
      (fun b entry hentry => h i hi b entry (List.mem_map_of_mem hentry)) k start⟩
  · exact ⟨_, fun i _ => readsAs_opens_of_token_ne htoken⟩

end

/-! ## 4. Before the value -/

/-- An operation that looks ahead before anything else: it comes to the same where one has looked
already, and it does not succeed where there is nothing to look at. -/
structure LooksAhead (read : Read α) : Prop where
  alike : ∀ {bytes : Bytes} {position : Nat} {scopes : List Scope} {token : Token} {seen : Reader},
    peek ⟨bytes, position, scopes, none, none⟩ = .ok token seen →
      outcome read ⟨bytes, position, scopes, none, none⟩ = outcome read seen
  looks : ∀ {bytes : Bytes} {position : Nat} {scopes : List Scope} {a : α} {after : Reader},
    read ⟨bytes, position, scopes, none, none⟩ = .ok a after →
      ∃ token seen, peek ⟨bytes, position, scopes, none, none⟩ = .ok token seen

theorem looksAhead_peek : LooksAhead peek where
  alike h := by rw [outcome_of_ok h, outcome_of_ok (peek_again h).1]
  looks h := ⟨_, _, h⟩

theorem looksAhead_throw (error : Error) : LooksAhead (throw error : Read α) where
  alike _ := rfl
  looks h := (throw_ok.mp h).elim

theorem LooksAhead.bind {read : Read α} (h : LooksAhead read) (next : α → Read β) :
    LooksAhead (read >>= next) where
  alike hpeek := by rw [outcome_bind, outcome_bind, h.alike hpeek]
  looks hread := by
    obtain ⟨a, mid, hfirst, -⟩ := bind_ok.mp hread
    exact h.looks hfirst

theorem looksAhead_consume (token : Token) (expected : Expectation) :
    LooksAhead (consume token expected) :=
  looksAhead_peek.bind _

theorem looksAhead_skip : LooksAhead skip :=
  looksAhead_peek.bind _

/-- A value that stands first is looked ahead at. -/
theorem peek_tree (tree : Tree) (rest : Bytes) :
    peek (ofBytes (tree.bytes ++ rest)) =
      .ok tree.token ⟨tree.payload ++ rest, 1, [], some tree.token, none⟩ := by
  have hnames : Names [] (Element.name? tree) := by simp [Names, Element.name?]
  exact peek_element tree hnames 0 rest

/-- **A value that stands first is read as it is anywhere else.** -/
theorem ReadsAs.ofBytes {read : Read α} (h : ReadsAs read tree verdict) (hlooks : LooksAhead read)
    (hdepth : tree.depth ≤ maxDepth) (rest : Bytes) :
    outcome read (ofBytes (tree.bytes ++ rest)) =
      verdict.map (·, ⟨rest, tree.bytes.length, [], none, none⟩) := by
  have hread := h [] 1 rest hdepth
  rw [tree.one_add_length_payload] at hread
  exact (hlooks.alike (peek_tree tree rest)).trans hread

theorem onBytes_eq (read : Read α) (bytes : Bytes) :
    onBytes read bytes = (outcome read (ofBytes bytes)).map Prod.fst := by
  unfold onBytes outcome EStateM.run
  cases read (ofBytes bytes) <;> rfl

theorem ReadsAs.onBytes {read : Read α} (h : ReadsAs read tree verdict) (hlooks : LooksAhead read)
    (hdepth : tree.depth ≤ maxDepth) (rest : Bytes) :
    Reader.onBytes read (tree.bytes ++ rest) = verdict := by
  rw [onBytes_eq, h.ofBytes hlooks hdepth]
  cases verdict <;> rfl

/-- **What is recognized at the start of a byte string is a value that stands first.** -/
theorem Recognizes.ofBytes_ok {read : Read α} {interpret : Tree → Option α} {bytes : Bytes} {a : α}
    {after : Reader} (h : Recognizes read [] interpret) (hlooks : LooksAhead read) :
    read (ofBytes bytes) = .ok a after ↔
      ∃ (tree : Tree) (rest : Bytes), tree.depth ≤ maxDepth ∧ interpret tree = some a ∧
        bytes = tree.bytes ++ rest ∧ after = ⟨rest, tree.bytes.length, [], none, none⟩ := by
  have halike : ∀ {token seen}, peek (ofBytes bytes) = .ok token seen →
      (read (ofBytes bytes) = .ok a after ↔ read seen = .ok a after) := fun hpeek => by
    rw [← outcome_eq_ok_iff, ← outcome_eq_ok_iff, ofBytes, hlooks.alike hpeek]
  constructor
  · intro hread
    obtain ⟨token, seen, hpeek⟩ := hlooks.looks hread
    have hseen := (halike hpeek).mp hread
    rcases peek_ok.mp hpeek with ⟨name?, tail, -, hnames, hbytes, rfl⟩ | ⟨tail, rfl, -, rfl⟩
    · obtain rfl : name? = none := by simpa [Names] using hnames
      obtain ⟨tree, rest, rfl, hdepth, ha, rfl, rfl⟩ := (h _ _ _ _ _).mp hseen
      refine ⟨tree, rest, hdepth, ha, ?_, ?_⟩
      · rw [hbytes, tree.tag_token]
        rfl
      · rw [← tree.one_add_length_payload]
        rfl
    · obtain ⟨tree, _, htoken, -⟩ := (h _ _ _ _ _).mp hseen
      have hvalue := tree.startsValue_token
      rw [htoken, startsValue_endToken] at hvalue
      cases hvalue
  · rintro ⟨tree, rest, hdepth, ha, rfl, rfl⟩
    rw [halike (peek_tree tree rest), ← tree.one_add_length_payload]
    exact (h _ _ _ _ _).mpr ⟨tree, rest, rfl, hdepth, ha, rfl, rfl⟩

/-- **A stream ends here** exactly if nothing is left or the terminator comes next. -/
theorem exists_finish_ok_iff {tail : Bytes} {position : Nat} :
    (∃ rest after, finish ⟨tail, position, [], none, none⟩ = .ok rest after) ↔
      EndsStream tail := by
  constructor
  · rintro ⟨rest, after, h⟩
    rw [finish, get_bind] at h
    obtain ⟨token, seen, hpeek, htoken⟩ := bind_ok.mp h
    rcases peek_ok.mp hpeek with ⟨_, _, hvalue, -⟩ | ⟨_, -, hends, -⟩
    · cases token
      case endOfStream => cases hvalue
      all_goals exact (fail_ok.mp htoken).elim
    · rcases hends with rfl | ⟨-, rfl, -⟩
      · exact .inr ⟨_, rfl⟩
      · exact .inl rfl
  · rintro (rfl | ⟨rest, rfl⟩)
    · exact ⟨[], _, rfl⟩
    · exact ⟨rest, _, finish_terminator⟩

end Reader

end RemoteCall.Wire
