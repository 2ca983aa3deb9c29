/-
# Points in time

A point in time is a number of nanoseconds since the epoch.  On the wire it is the number of whole
seconds, cut toward the epoch.  Seconds are converted through milliseconds, so that only numbers of
seconds whose milliseconds fit a signed word are read.
-/
import RemoteCall.Error
import RemoteCall.Value

namespace RemoteCall.Instant

/-- Nanoseconds in a second. -/
def nanosPerSecond : Int := 1000000000

/-- The whole seconds of an instant, if their distance from the epoch fits a signed word. -/
def toSeconds (nanoseconds : Int) : Except Error Int64 :=
  let seconds := nanoseconds.tdiv nanosPerSecond
  if (seconds.natAbs : Int) ≤ Int64.maxValue.toInt then .ok (Int64.ofInt seconds)
  else .error (.value .instantOutOfRange)

/-- The instant of a number of seconds, if their milliseconds fit a signed word. -/
def ofSeconds (seconds : Int64) : Except Error Int :=
  match Value.toInt64? (seconds.toInt * 1000) with
  | some _ => .ok (seconds.toInt * nanosPerSecond)
  | none => .error (.value (.secondsOutOfRange seconds.toInt))

end RemoteCall.Instant
