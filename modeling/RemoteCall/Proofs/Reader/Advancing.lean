/-
# Every value takes a byte

A loop over the values of a scope goes on for as long as `hasNext` says so.  It ends because every
value that is read takes at least one byte, from whatever state the reader is in.  Looking ahead
makes this less plain than it sounds: the tag of a value, and in an object its name, may have been
taken before the loop came to it.

* A number, a text and a boolean take the bytes behind their tag.
* A scope takes the tag of its end.  It is met by a look from inside, and there no look has been
  taken before, since opening the scope has used up what was looked at (`takes_scope`).

So `Takes` counts the bytes that a success takes at least; it says also that the open scopes are
left as they were, which is what loops inside of loops need.  `takes_of_round` is the step, and
`untilEnd_unrolled` the run: however a loop is unrolled, nothing that stands behind more rounds than
there are bytes is ever reached.
-/
import RemoteCall.Proofs.Reader.Peeking
import RemoteCall.Typed.Adapter
import Mathlib.Logic.Function.Iterate

namespace RemoteCall.Wire.Reader

open Success

variable {α β : Type} {token : Token} {before mid after : Reader} {count more : Nat}

/-! ## 1. Further in the same bytes -/

/-- The reader has taken at least `count` bytes. -/
def Ahead (count : Nat) (before after : Reader) : Prop :=
  ∃ taken, count ≤ taken.length ∧ before.rest = taken ++ after.rest ∧
    after.position = before.position + taken.length

theorem Ahead.refl (reader : Reader) : Ahead 0 reader reader :=
  ⟨[], by simp, by simp, by simp⟩

theorem Ahead.trans (h : Ahead count before mid) (h' : Ahead more mid after) :
    Ahead (count + more) before after := by
  obtain ⟨taken, hcount, hrest, hposition⟩ := h
  obtain ⟨next, hmore, hrest', hposition'⟩ := h'
  refine ⟨taken ++ next, ?_, ?_, ?_⟩
  · simp only [List.length_append]
    omega
  · rw [hrest, hrest', List.append_assoc]
  · simp only [List.length_append]
    omega

theorem Ahead.mono (h : Ahead count before after) (hle : more ≤ count) :
    Ahead more before after := by
  obtain ⟨taken, hcount, h⟩ := h
  exact ⟨taken, Nat.le_trans hle hcount, h⟩

theorem Ahead.position_le (h : Ahead count before after) :
    before.position + count ≤ after.position := by
  obtain ⟨taken, hcount, -, hposition⟩ := h
  omega

theorem Ahead.length_le (h : Ahead count before after) :
    after.rest.length + count ≤ before.rest.length := by
  obtain ⟨taken, hcount, hrest, -⟩ := h
  rw [hrest, List.length_append]
  omega

/-! ## 2. What a success takes -/

/-- A success takes at least `count` bytes and leaves the open scopes as they were. -/
def Takes (count : Nat) (x : Read α) : Prop :=
  ∀ before a after, x before = .ok a after →
    Ahead count before after ∧ after.scopes = before.scopes

namespace Takes

theorem mono {x : Read α} (h : Takes count x) (hle : more ≤ count) : Takes more x := by
  intro before a after hx
  obtain ⟨hahead, hscopes⟩ := h before a after hx
  exact ⟨hahead.mono hle, hscopes⟩

theorem pure (a : α) : Takes 0 (Pure.pure a : Read α) := by
  intro before b after h
  obtain ⟨-, rfl⟩ := pure_ok.mp h
  exact ⟨.refl _, rfl⟩

/-- What always fails takes as many bytes as one likes. -/
theorem throw (error : Error) : Takes count (throw error : Read α) := by
  intro before a after h
  exact (throw_ok.mp h).elim

/-- **A chain takes what its parts take.** -/
theorem bind {x : Read α} {f : α → Read β} (h : Takes count x) (hf : ∀ a, Takes more (f a)) :
    Takes (count + more) (x >>= f) := by
  intro before b after hx
  obtain ⟨a, mid, hx, hnext⟩ := bind_ok.mp hx
  obtain ⟨hahead, hscopes⟩ := h before a mid hx
  obtain ⟨hahead', hscopes'⟩ := hf a mid b after hnext
  exact ⟨hahead.trans hahead', hscopes'.trans hscopes⟩

/-- What the first part takes the chain takes. -/
theorem first {x : Read α} {f : α → Read β} (h : Takes count x) (hf : ∀ a, Takes 0 (f a)) :
    Takes count (x >>= f) := h.bind hf

/-- What the later part takes the chain takes. -/
theorem later {x : Read α} {f : α → Read β} (h : Takes 0 x) (hf : ∀ a, Takes count (f a)) :
    Takes count (x >>= f) := (h.bind hf).mono (by omega)

theorem map {x : Read α} {k : α → β} (h : Takes count x) : Takes count (do return k (← x)) :=
  h.first fun a => .pure (k a)

theorem discard {x : Read α} (h : Takes count x) : Takes count (discard x) := by
  intro before u after hx
  obtain ⟨a, hx⟩ := discard_ok.mp hx
  exact h before a after hx

theorem ite {p : Prop} [Decidable p] {x y : Read α} (hx : Takes count x) (hy : Takes count y) :
    Takes count (if p then x else y) := by
  split
  · exact hx
  · exact hy

end Takes

/-! ## 3. Bytes, and looking ahead -/

theorem takes_take (count : Nat) : Takes count (take count) := by
  rintro ⟨bytes, position, scopes, peeked, fieldName⟩ head after h
  obtain ⟨rest, rfl, hlength, rfl⟩ := take_ok.mp h
  exact ⟨⟨head, by omega, rfl, by simp [hlength]⟩, rfl⟩

theorem takes_takeText (width : Nat) (fault : Utf8.Fault → StreamFault) :
    Takes width (takeText width fault) := by
  refine (takes_take width).first fun size =>
    ((takes_take _).mono (Nat.zero_le _)).first fun raw => ?_
  cases Utf8.decode raw with
  | ok text => exact .pure text
  | error place => exact .throw _

/-- Inside a scope a tag takes its byte. -/
theorem ahead_nextTag (h : nextTag before = .ok token after) :
    Ahead (if before.scopes = [] then 0 else 1) before after ∧ after.scopes = before.scopes := by
  obtain ⟨bytes, position, scopes, peeked, fieldName⟩ := before
  rcases nextTag_ok.mp h with ⟨rest, rfl, -, rfl⟩ | ⟨rfl, rfl, -, rfl⟩
  · refine ⟨⟨[token.tag], ?_, rfl, rfl⟩, rfl⟩
    split <;> simp
  · exact ⟨.refl _, rfl⟩

theorem takes_takeName (token : Token) : Takes 0 (takeName token) := by
  rintro ⟨bytes, position, scopes, peeked, fieldName⟩ u after h
  have h := takeName_ok.mp h
  split at h
  · obtain ⟨name, rest, rfl, rfl⟩ := h
    exact ⟨⟨name.bytes, Nat.zero_le _, rfl, rfl⟩, rfl⟩
  · subst h
    exact ⟨.refl _, rfl⟩

/-- A first look from inside a scope takes the tag. -/
theorem ahead_peek (h : peek before = .ok token after) :
    Ahead (if before.peeked = none ∧ before.scopes ≠ [] then 1 else 0) before after ∧
      after.scopes = before.scopes := by
  cases hpeeked : before.peeked with
  | some found =>
    rw [peek_of_some hpeeked] at h
    cases h
    exact ⟨by simpa using Ahead.refl before, rfl⟩
  | none =>
    unfold peek at h
    rw [get_bind, hpeeked] at h
    obtain ⟨found, tagged, htag, h⟩ := bind_ok.mp h
    obtain ⟨_, named, hname, h⟩ := bind_ok.mp h
    obtain ⟨-, rfl⟩ := pure_ok.mp h
    obtain ⟨hahead, hscopes⟩ := ahead_nextTag htag
    obtain ⟨hmore, hscopes'⟩ := takes_takeName found tagged _ named hname
    refine ⟨(hahead.trans hmore).mono ?_, hscopes'.trans hscopes⟩
    split <;> simp_all

theorem takes_peek : Takes 0 peek := by
  intro before token after h
  obtain ⟨hahead, hscopes⟩ := ahead_peek h
  exact ⟨hahead.mono (Nat.zero_le _), hscopes⟩

theorem takes_hasNext : Takes 0 hasNext := takes_peek.map

theorem takes_dropName : Takes 0 dropName := by
  intro before u after h
  unfold dropName at h
  rw [get_bind] at h
  split at h
  · obtain rfl := modify_ok.mp h
    exact ⟨.refl _, rfl⟩
  · obtain ⟨-, rfl⟩ := pure_ok.mp h
    exact ⟨.refl _, rfl⟩

theorem takes_nextName : Takes 0 nextName := by
  intro before name after h
  unfold nextName at h
  rw [get_bind] at h
  split at h
  · obtain ⟨token, seen, hpeek, h⟩ := bind_ok.mp h
    have hseen := takes_peek before token seen hpeek
    rw [get_bind] at h
    cases hname : seen.fieldName with
    | none =>
      rw [hname] at h
      exact (throw_ok.mp h).elim
    | some found =>
      rw [hname] at h
      obtain ⟨-, rfl⟩ := pure_ok.mp h
      exact hseen
  · exact (fail_ok.mp h).elim

/-! ## 4. Values -/

/-- What is left when a token has been consumed: nothing is looked at. -/
theorem consume_leaves {expected : Expectation} {u : Unit}
    (h : consume token expected before = .ok u after) :
    Ahead 0 before after ∧ after.scopes = before.scopes ∧ after.peeked = none := by
  obtain ⟨found, seen, hpeek, h⟩ := bind_ok.mp h
  obtain ⟨hahead, hscopes⟩ := takes_peek before found seen hpeek
  split at h
  · rw [get_bind] at h
    split at h
    · obtain rfl := modify_ok.mp h
      exact ⟨hahead, hscopes, rfl⟩
    · exact (fail_ok.mp h).elim
  · exact (throw_ok.mp h).elim

theorem takes_consume (token : Token) (expected : Expectation) :
    Takes 0 (consume token expected) := by
  intro before u after h
  obtain ⟨hahead, hscopes, -⟩ := consume_leaves h
  exact ⟨hahead, hscopes⟩

theorem takes_readNumber : Takes 8 readNumber :=
  (takes_consume _ _).later fun _ => (takes_take 8).map

theorem takes_readString : Takes 4 readString :=
  (takes_consume _ _).later fun _ => takes_takeText 4 _

theorem takes_readBool : Takes 1 readBool :=
  (takes_consume _ _).later fun _ => (takes_take 1).first fun _ =>
    .ite (.pure _) (.ite (.pure _) (.throw _))

/-- A success closes the innermost scope. -/
def Closes (x : Read α) : Prop :=
  ∀ before a after, x before = .ok a after →
    Ahead 0 before after ∧ after.scopes = before.scopes.tail

theorem closes_close (scope : Scope) : Closes (close scope) := by
  intro before u after h
  unfold close at h
  rw [get_bind] at h
  split at h
  · obtain ⟨found, seen, hpeek, h⟩ := bind_ok.mp h
    obtain ⟨hahead, hscopes⟩ := takes_peek before found seen hpeek
    split at h
    · obtain rfl := modify_ok.mp h
      exact ⟨hahead, congrArg List.tail hscopes⟩
    · exact (fail_ok.mp h).elim
  · exact (fail_ok.mp h).elim

theorem Closes.map {x : Read α} (h : Closes x) (b : β) : Closes (x >>= fun _ => pure b) := by
  intro before found after hx
  obtain ⟨a, mid, hx, hb⟩ := bind_ok.mp hx
  obtain ⟨-, rfl⟩ := pure_ok.mp hb
  exact h before a after hx

/-- What is left when a scope has been opened: it is one more, and nothing is looked at. -/
theorem opens_leaves_unpeeked {opening : Token} {expected : Expectation} {scope : Scope} {u : Unit}
    (h : (do consume opening expected; push scope) before = .ok u after) :
    Ahead 0 before after ∧ after.scopes = scope :: before.scopes ∧ after.peeked = none ∧
      before.depth < maxDepth := by
  obtain ⟨_, mid, hconsume, h⟩ := bind_ok.mp h
  obtain ⟨hahead, hscopes, hpeeked⟩ := consume_leaves hconsume
  unfold push at h
  rw [get_bind] at h
  split at h
  · rename_i hroom
    obtain rfl := modify_ok.mp h
    refine ⟨hahead, by rw [hscopes], hpeeked, ?_⟩
    rwa [depth, hscopes] at hroom
  · exact (fail_ok.mp h).elim

/-! ## 5. Loops -/

/-- A loop leaves the scopes as its rounds do.  The induction is on the bound of the rounds. -/
theorem takes_foldNext {step : α → Read α} (hstep : ∀ a, Takes 0 (step a)) :
    ∀ (left : Bytes) (a : α), Takes 0 (foldNext step left a) := by
  intro left
  induction left with
  | nil =>
    intro a
    exact takes_hasNext.first fun _ => .ite (hstep a) (.pure a)
  | cons byte left ih =>
    intro a
    exact takes_hasNext.first fun _ => .ite ((hstep a).first ih) (.pure a)

/-- **A loop that begins inside a scope takes a byte**, if only the tag of the end. -/
theorem ahead_untilEnd {step : α → Read α} (hstep : ∀ a, Takes 0 (step a)) {start result : α}
    (hpeeked : before.peeked = none) (hscopes : before.scopes ≠ [])
    (h : untilEnd step start before = .ok result after) :
    Ahead 1 before after ∧ after.scopes = before.scopes := by
  -- the loop is a look ahead and what follows it
  obtain ⟨f, hf, hloop⟩ : ∃ f : Bool → Read α, (∀ b, Takes 0 (f b)) ∧
      untilEnd step start before = (hasNext >>= f) before := by
    unfold untilEnd
    rw [get_bind]
    cases before.rest with
    | nil => exact ⟨_, fun _ => .ite (hstep start) (.pure start), rfl⟩
    | cons byte left =>
      exact ⟨_, fun _ => .ite ((hstep start).first (takes_foldNext hstep left)) (.pure start), rfl⟩
  rw [hloop] at h
  obtain ⟨b, seen, hnext, h⟩ := bind_ok.mp h
  obtain ⟨token, looked, hpeek, hnext⟩ := bind_ok.mp hnext
  obtain ⟨-, hlooked⟩ := pure_ok.mp hnext
  rw [hlooked] at h
  obtain ⟨hahead, hsame⟩ := ahead_peek hpeek
  rw [if_pos ⟨hpeeked, hscopes⟩] at hahead
  obtain ⟨hmore, hsame'⟩ := hf b looked result after h
  exact ⟨hahead.trans hmore, hsame'.trans hsame⟩

/-- **A scope takes a byte**, and is closed again. -/
theorem takes_scope {step : α → Read α} (hstep : ∀ a, Takes 0 (step a)) (opening : Token)
    (expected : Expectation) (scope : Scope) (start : α) {ending : α → Read β}
    (hending : ∀ a, Closes (ending a)) :
    Takes 1 ((do consume opening expected; push scope) >>= fun _ =>
      untilEnd step start >>= ending) := by
  intro before b after h
  obtain ⟨_, inside, hopens, h⟩ := bind_ok.mp h
  obtain ⟨result, ended, hloop, h⟩ := bind_ok.mp h
  obtain ⟨hahead, hscopes, hpeeked, -⟩ := opens_leaves_unpeeked hopens
  obtain ⟨hahead', hscopes'⟩ := ahead_untilEnd hstep hpeeked (by simp [hscopes]) hloop
  obtain ⟨hahead'', hscopes''⟩ := hending result ended b after h
  refine ⟨(hahead.trans hahead').trans hahead'', ?_⟩
  rw [hscopes'', hscopes', hscopes]
  rfl

/-- One round of a loop, with what comes after it. -/
def round (step : α → Read α) (next : α → Read α) (state : α) : Read α := do
  if ← hasNext then next (← step state) else return state

/-- **A round that goes on has taken a byte.** -/
theorem ahead_round {step : α → Read α} (hstep : ∀ a, Takes 1 (step a)) {state result : α}
    (hnext : hasNext before = .ok true mid) (h : step state mid = .ok result after) :
    Ahead 1 before after := by
  obtain ⟨hahead, -⟩ := takes_hasNext before true mid hnext
  obtain ⟨hahead', -⟩ := hstep state mid result after h
  simpa using hahead.trans hahead'

/-- **A loop is over when its bytes are used up.**  However far it is unrolled beyond the number of
bytes left, what stands behind the last round is never reached.  The induction is on the rounds. -/
theorem foldNext_unrolled {step : α → Read α} (hstep : ∀ a, Takes 1 (step a))
    (other : α → Read α) {rounds : Nat} {left : Bytes} {state : α} {reader : Reader}
    (hleft : reader.rest.length ≤ left.length) (hrounds : reader.rest.length < rounds) :
    ((round step)^[rounds] other) state reader = foldNext step left state reader := by
  induction rounds generalizing left state reader with
  | zero => omega
  | succ rounds ih =>
    rw [Function.iterate_succ_apply']
    cases left with
    | nil =>
      refine bind_congr_of_ok rfl fun b mid hnext => ?_
      cases b with
      | false => rfl
      | true =>
        -- no byte is left for the value
        show (step state >>= (round step)^[rounds] other) mid = step state mid
        cases hresult : step state mid with
        | ok result after =>
          have hlength := (ahead_round hstep hnext hresult).length_le
          simp only [List.length_nil] at hleft
          omega
        | error error after => exact bind_error.mpr (.inl hresult)
    | cons byte left =>
      refine bind_congr_of_ok rfl fun b mid hnext => ?_
      cases b with
      | false => rfl
      | true =>
        refine bind_congr_of_ok rfl fun result after hresult => ?_
        have hlength := (ahead_round hstep hnext hresult).length_le
        rw [List.length_cons] at hleft
        exact ih (by omega) (by omega)

theorem untilEnd_unrolled {step : α → Read α} (hstep : ∀ a, Takes 1 (step a))
    (other : α → Read α) {rounds : Nat} (state : α) {reader : Reader}
    (hrounds : reader.rest.length < rounds) :
    ((round step)^[rounds] other) state reader = untilEnd step state reader :=
  foldNext_unrolled hstep other (Nat.le_refl _) hrounds

/-! ## 6. Whole values -/

/-- **A value that is skipped takes a byte.**  The induction is on the budget. -/
theorem takes_skipWithin (budget : Nat) : Takes 1 (skipWithin budget) := by
  induction budget with
  | zero => exact .throw _
  | succ budget ih =>
    have hitem (_ : Unit) : Takes 0 (skipWithin budget) := ih.mono (Nat.zero_le _)
    have hentry (_ : Unit) : Takes 0 (do discard nextName; skipWithin budget) :=
      takes_nextName.discard.first fun _ => ih.mono (Nat.zero_le _)
    refine takes_peek.later fun token => takes_dropName.later fun _ => ?_
    cases token
    case number => exact (takes_readNumber.mono (by omega)).discard
    case string => exact (takes_readString.mono (by omega)).discard
    case boolean => exact takes_readBool.discard
    case beginArray => exact takes_scope hitem _ _ _ () fun _ => closes_close .array
    case beginObject => exact takes_scope hentry _ _ _ () fun _ => closes_close .object
    all_goals exact .throw _

/-- **A generic value takes a byte.**  The induction is on the budget. -/
theorem takes_readWithin (budget : Nat) : Takes 1 (Value.readWithin budget) := by
  induction budget with
  | zero => exact .throw _
  | succ budget ih =>
    have hitem (done : List Value) : Takes 0 (do return (← Value.readWithin budget) :: done) :=
      ih.map.mono (Nat.zero_le _)
    have hentry (fields : Fields Value) : Takes 0 (do
        let name ← nextName
        let value ← Value.readWithin budget
        return fields.insert name value) :=
      takes_nextName.first fun _ => ih.map.mono (Nat.zero_le _)
    refine takes_peek.later fun token => ?_
    cases token
    case number => exact (takes_readNumber.mono (by omega)).map
    case string => exact (takes_readString.mono (by omega)).map
    case boolean => exact takes_readBool.map
    case beginArray =>
      simp only [items, bind_assoc, pure_bind]
      exact takes_scope hitem _ _ _ [] fun _ => (closes_close .array).map _
    case beginObject => exact takes_scope hentry _ _ _ [] fun _ => (closes_close .object).map _
    all_goals exact .throw _

end RemoteCall.Wire.Reader
