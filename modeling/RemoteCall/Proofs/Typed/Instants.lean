/-
# Which points in time come back

A point in time is written as its whole seconds, cut toward the epoch, as long as these fit a signed
word.  It is read through milliseconds, and these have to fit a signed word too.  So the reader
covers a thousandth of what the writer covers: a point in time farther from the epoch than
`farthest` seconds can be written but is refused when it is read (`ofSeconds_of_toSeconds`).  The
limits lie the same way on both sides of the epoch.
-/
import RemoteCall.Typed.Instant

namespace RemoteCall.Instant

variable {nanoseconds : Int} {seconds : Int64}

/-- The greatest distance from the epoch, in whole seconds, that is read back: its milliseconds fit
a signed word. -/
def farthest : Nat := 9223372036854775

/-- A point in time is near enough to the epoch to be read back. -/
def Near (nanoseconds : Int) : Prop :=
  (nanoseconds.tdiv nanosPerSecond).natAbs ≤ farthest

/-! ## 1. Writing -/

/-- The whole seconds are written, and they are so near the epoch that their opposite fits too. -/
theorem toSeconds_eq_ok_iff :
    toSeconds nanoseconds = .ok seconds ↔
      seconds.toInt = nanoseconds.tdiv nanosPerSecond ∧ seconds ≠ Int64.minValue := by
  unfold toSeconds
  generalize nanoseconds.tdiv nanosPerSecond = whole
  dsimp only
  rw [ne_eq, ← Int64.toInt_inj, Int64.toInt_minValue, Int64.toInt_maxValue]
  have hleast := seconds.minValue_le_toInt
  have hgreatest := seconds.toInt_le
  rw [Int64.toInt_minValue] at hleast
  rw [Int64.toInt_maxValue] at hgreatest
  constructor
  · intro h
    split at h
    · rename_i hfits
      cases h
      have hwhole : (Int64.ofInt whole).toInt = whole :=
        Int64.toInt_ofInt_of_le (by omega) (by omega)
      omega
    · cases h
  · rintro ⟨rfl, hleast'⟩
    rw [if_pos (by omega), Int64.ofInt_toInt]

/-- The whole seconds of an instant that are written. -/
theorem toInt_of_toSeconds (h : (toSeconds nanoseconds).toOption = some seconds) :
    seconds.toInt = nanoseconds.tdiv nanosPerSecond := by
  cases hwritten : toSeconds nanoseconds with
  | error error =>
    rw [hwritten] at h
    cases h
  | ok found =>
    rw [hwritten] at h
    obtain rfl : found = seconds := Option.some.inj h
    exact (toSeconds_eq_ok_iff.mp hwritten).1

/-! ## 2. Reading -/

/-- Milliseconds fit a signed word exactly if the seconds are near enough. -/
theorem milliseconds_fit_iff {whole : Int} :
    (Int64.minValue.toInt ≤ whole * 1000 ∧ whole * 1000 ≤ Int64.maxValue.toInt) ↔
      whole.natAbs ≤ farthest := by
  rw [Int64.toInt_minValue, Int64.toInt_maxValue, farthest]
  omega

theorem ofSeconds_eq : ofSeconds seconds =
    if seconds.toInt.natAbs ≤ farthest then .ok (seconds.toInt * nanosPerSecond)
    else .error (.value (.secondsOutOfRange seconds.toInt)) := by
  unfold ofSeconds Value.toInt64?
  simp only [milliseconds_fit_iff]
  by_cases hnear : seconds.toInt.natAbs ≤ farthest
  · rw [if_pos hnear, if_pos hnear]
  · rw [if_neg hnear, if_neg hnear]

/-- A point in time that is near enough comes back with its fraction of a second cut off. -/
theorem ofSeconds_toSeconds (hnear : Near nanoseconds)
    (h : (toSeconds nanoseconds).toOption = some seconds) :
    ofSeconds seconds = .ok (nanoseconds.tdiv nanosPerSecond * nanosPerSecond) := by
  unfold Near at hnear
  rw [← toInt_of_toSeconds h] at hnear ⊢
  rw [ofSeconds_eq, if_pos hnear]

/-- What is read is written as it was. -/
theorem toSeconds_of_ofSeconds (h : ofSeconds seconds = .ok nanoseconds) :
    toSeconds nanoseconds = .ok seconds := by
  rw [ofSeconds_eq] at h
  split at h
  · rename_i hnear
    cases h
    have hwhole : (seconds.toInt * nanosPerSecond).tdiv nanosPerSecond = seconds.toInt :=
      Int.mul_tdiv_cancel _ (by decide)
    refine toSeconds_eq_ok_iff.mpr ⟨hwhole.symm, fun hleast => ?_⟩
    rw [hleast, Int64.toInt_minValue, farthest] at hnear
    omega
  · cases h

/-! ## 3. Both -/

/-- **What is read of a point in time that was written** is the point in time with its fraction of a
second cut off toward the epoch, if its milliseconds fit a signed word, and nothing otherwise. -/
theorem ofSeconds_of_toSeconds (h : toSeconds nanoseconds = .ok seconds) :
    ofSeconds seconds =
      if seconds.toInt.natAbs ≤ 9223372036854775 then
        .ok (nanoseconds.tdiv nanosPerSecond * nanosPerSecond)
      else .error (.value (.secondsOutOfRange seconds.toInt)) := by
  rw [← (toSeconds_eq_ok_iff.mp h).1]
  exact ofSeconds_eq

/-- The last whole second before the limit on the far side of the epoch, and half a second more. -/
theorem ofSeconds_of_toSeconds_earliest :
    toSeconds (-9223372036854775500000000) = .ok (-9223372036854775) ∧
      ofSeconds (-9223372036854775) = .ok (-9223372036854775000000000) :=
  ⟨rfl, @ofSeconds_of_toSeconds (-9223372036854775500000000) _ rfl⟩

/-- **One second farther** is written and not read. -/
theorem toSeconds_farther :
    toSeconds 9223372036854776000000000 = .ok 9223372036854776 ∧
      ofSeconds 9223372036854776 =
        .error (.value (.secondsOutOfRange 9223372036854776)) :=
  ⟨rfl, rfl⟩

end RemoteCall.Instant
