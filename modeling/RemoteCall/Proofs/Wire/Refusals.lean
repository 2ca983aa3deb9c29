/-
# What a refused primitive leaves behind

A writer outlives the failures of its primitives.  Whoever holds it may ignore them and go on, so
the writers that can come up are those of any sequence of primitives of which some were refused
(`Writer.attempts`), and what a primitive has done before it is refused counts.

Names, texts and closings are checked before anything is written.  A value is not: it uses up the
announcement before the kinds are compared, and a scope has begun before the nesting is checked.
`Refusal` lists what comes of that.  Either the writer is left as it was, or the announcement is
gone while tag and name stay in the output, or the tag of a scope stays that has not been opened;
and the error tells which (`Refusal.unchanged_iff`).
-/
import RemoteCall.Proofs.Failure
import RemoteCall.Proofs.Outcome
import RemoteCall.Proofs.Wire.Mirror

namespace RemoteCall

open Wire Success

/-- The errors of a writer that tell of remains: a value of another kind than announced, and a scope
that is too deep. -/
def Error.leavesRemains : Error → Bool
  | .stream (.announcedOther _ _) | .stream .tooDeep => true
  | _ => false

namespace Wire.Writer

variable {op : Op} {token : Token} {before after : Writer} {error : Error}

/-! ## 1. Refusals -/

/-- What a writer becomes when it refuses a primitive. -/
inductive Refusal : Writer → Error → Writer → Prop where
  /-- It stays as it was. -/
  | unchanged (writer : Writer) {error : Error} (h : error.leavesRemains = false) :
    Refusal writer error writer
  /-- The value is of another kind than announced.  The announcement is used up nevertheless. -/
  | otherKind (out : Array UInt8) {scopes : List Scope} {found written : Token}
    (hobject : scopes.head? = some .object) (hkinds : found ≠ written) :
    Refusal ⟨out, scopes, some found⟩ (.stream (.announcedOther found written)) ⟨out, scopes, none⟩
  /-- The scope is too deep.  It has begun nevertheless. -/
  | tooDeep (out : Array UInt8) {scopes : List Scope} {announced : Option Token} {opening : Token}
    (hawaits : Awaits scopes announced opening) (hdeep : maxDepth ≤ scopes.length) :
    Refusal ⟨out, scopes, announced⟩ (.stream .tooDeep) ⟨out ++ lead scopes opening, scopes, none⟩

/-- **The error tells whether anything is left.** -/
theorem Refusal.unchanged_iff (h : Refusal before error after) :
    after = before ↔ error.leavesRemains = false := by
  cases h with
  | unchanged _ h => exact iff_of_true rfl h
  | otherKind => simp [Error.leavesRemains]
  | @tooDeep out scopes announced opening hawaits _ =>
    refine iff_of_false (fun hsame => ?_) (by simp [Error.leavesRemains])
    obtain ⟨hout, -, hannounced⟩ := Writer.mk.inj hsame
    by_cases hobject : scopes.head? = some .object
    · rw [hawaits hobject] at hannounced
      cases hannounced
    · have hlength := congrArg (·.toList.length) hout
      simp [lead, hobject] at hlength

/-- Only inside an object is a value announced, also after a refusal. -/
theorem Refusal.settled (h : Refusal before error after)
    (hsettled : Settled before.scopes before.announced) :
    Settled after.scopes after.announced := by
  cases h with
  | unchanged => exact hsettled
  | otherKind => exact settled_none
  | tooDeep => exact settled_none

/-! ## 2. Every primitive -/

theorem fail_error {fault : StreamFault} :
    (fail fault : Write Unit) before = .error error after ↔
      error = .stream fault ∧ after = before := by
  show EStateM.Result.error _ _ = EStateM.Result.error _ _ ↔ _
  rw [EStateM.Result.error.injEq, eq_comm, @eq_comm _ before]

theorem fail_unchanged {fault : StreamFault} (hfault : (Error.stream fault).leavesRemains = false)
    (h : (fail fault : Write Unit) before = .error error after) :
    error.leavesRemains = false ∧ after = before := by
  obtain ⟨rfl, rfl⟩ := fail_error.mp h
  exact ⟨hfault, rfl⟩

/-- A name is checked before it is written. -/
theorem writeName_unchanged {name : String}
    (h : writeName name token before = .error error after) :
    error.leavesRemains = false ∧ after = before := by
  obtain ⟨out, scopes, announced⟩ := before
  unfold writeName at h
  rw [get_bind] at h
  split at h
  · cases announced with
    | some found => exact fail_unchanged rfl h
    | none =>
      dsimp only at h
      split at h
      · split at h
        · cases h
        · cases h
          exact ⟨rfl, rfl⟩
      · exact fail_unchanged rfl h
  · exact fail_unchanged rfl h

/-- A scope is checked before it is closed. -/
theorem close_unchanged {scope : Scope} (h : close scope before = .error error after) :
    error.leavesRemains = false ∧ after = before := by
  obtain ⟨out, scopes, announced⟩ := before
  unfold close at h
  rw [get_bind] at h
  split at h
  · cases announced with
    | some found => exact fail_unchanged rfl h
    | none => cases h
  · exact fail_unchanged rfl h

theorem push_error {scope : Scope} (h : push scope before = .error error after) :
    error = .stream .tooDeep ∧ maxDepth ≤ before.depth ∧ after = before := by
  unfold push at h
  rw [get_bind] at h
  split at h
  · cases h
  · rename_i hdeep
    obtain ⟨rfl, rfl⟩ := fail_error.mp h
    exact ⟨rfl, Nat.le_of_not_lt hdeep, rfl⟩

theorem Refusal.of_unchanged (h : error.leavesRemains = false ∧ after = before) :
    Refusal before error after := by
  obtain ⟨hnone, rfl⟩ := h
  exact .unchanged after hnone

/-- The announcement is used up before the kinds are compared. -/
theorem refusal_openValue (h : openValue token before = .error error after) :
    Refusal before error after := by
  obtain ⟨out, scopes, announced⟩ := before
  unfold openValue at h
  rw [get_bind] at h
  split at h
  · rename_i hobject
    rw [modify_bind] at h
    cases announced with
    | none => exact .of_unchanged (fail_unchanged rfl h)
    | some found =>
      dsimp only at h
      split at h
      · cases h
      · rename_i hkinds
        obtain ⟨rfl, rfl⟩ := fail_error.mp h
        exact .otherKind out hobject hkinds
  · cases h

/-- What is appended behind a value's beginning cannot fail. -/
theorem refusal_scalar {bytes : Bytes}
    (h : (do openValue token; emit bytes) before = .error error after) :
    Refusal before error after := by
  rcases bind_error.mp h with h | ⟨_, _, -, h⟩
  · exact refusal_openValue h
  · cases h

theorem refusal_writeString {text : String} (h : writeString text before = .error error after) :
    Refusal before error after := by
  unfold writeString at h
  split at h
  · rcases bind_error.mp h with h | ⟨_, _, -, h⟩
    · exact refusal_openValue h
    · cases h
  · cases h
    exact .unchanged _ rfl

/-- A scope begins before the nesting is checked. -/
theorem refusal_opens {scope : Scope} (hsettled : Settled before.scopes before.announced)
    (h : (do openValue token; push scope) before = .error error after) :
    Refusal before error after := by
  rcases bind_error.mp h with h | ⟨_, _, hopen, h⟩
  · exact refusal_openValue h
  · obtain ⟨hawaits, rfl⟩ := (openValue_ok hsettled).mp hopen
    obtain ⟨rfl, hdeep, rfl⟩ := push_error h
    exact .tooDeep before.out hawaits hdeep

/-- **What any primitive leaves that is refused.** -/
theorem refusal_write (hsettled : Settled before.scopes before.announced)
    (h : op.write before = .error error after) : Refusal before error after := by
  cases op
  case name text token => exact .of_unchanged (writeName_unchanged h)
  case number n => exact refusal_scalar h
  case string text => exact refusal_writeString h
  case boolean b => exact refusal_scalar h
  case opens scope => cases scope <;> exact refusal_opens hsettled h
  case closes scope => cases scope <;> exact .of_unchanged (close_unchanged h)

/-! ## 3. Going on after refusals -/

/-- The writer after a sequence of primitives of which those that fail are passed over. -/
def attempts : List Op → Writer → Writer
  | [], writer => writer
  | op :: ops, writer => attempts ops (effect op.write writer).2

/-- The errors that are passed over, first to last. -/
def refusals : List Op → Writer → List Error
  | [], _ => []
  | op :: ops, writer =>
    (effect op.write writer).1.toList ++ refusals ops (effect op.write writer).2

theorem settled_effect (hsettled : Settled before.scopes before.announced) :
    Settled (effect op.write before).2.scopes (effect op.write before).2.announced := by
  unfold effect
  cases h : op.write before with
  | ok u after => exact (op.follows_write hsettled h).1
  | error error after => exact (refusal_write hsettled h).settled hsettled

/-- **Only inside an object is a value ever announced**, whatever was refused before. -/
theorem settled_attempts : ∀ (ops : List Op) {writer : Writer},
    Settled writer.scopes writer.announced →
    Settled (attempts ops writer).scopes (attempts ops writer).announced
  | [], _, hsettled => hsettled
  | _ :: ops, _, hsettled => settled_attempts ops (settled_effect hsettled)

theorem settled_attempts_new (ops : List Op) :
    Settled (attempts ops new).scopes (attempts ops new).announced :=
  settled_attempts ops settled_none

end Wire.Writer

end RemoteCall
