import TimeSeries.Time.Calendar

/-!
# Instants and timestamps

A sample carries a timestamp: nanoseconds since the start of 1970 in a 64-bit
word. People give times as an `Instant`, whole seconds and a part of a second.
Timestamps reach as far as instants whose nanoseconds fit a signed 64-bit word,
so the two agree on exactly the timestamps below `2 ^ 63`.
-/

namespace TimeSeries

/-- **Timestamp** of a sample: nanoseconds since the start of 1970. -/
abbrev Timestamp : Type := UInt64

/-- **Instant**: a point in time, in coordinated universal time. -/
structure Instant : Type where
  /-- whole seconds since the start of 1970 -/
  seconds : Int
  /-- nanoseconds on top; from `10 ^ 9` on they lie in a leap second -/
  nanos : Nat
  deriving DecidableEq, Repr

namespace Instant

/-- Nanoseconds of a second. -/
def nanosPerSecond : Nat := 1000000000

/-- Nanoseconds since the start of 1970. -/
def total (t : Instant) : Int := t.seconds * nanosPerSecond + t.nanos

/-- The number of timestamps that are those of instants: `2 ^ 63`. -/
def timestamps : Nat := UInt64.size / 2

/-- **Timestamp of an instant**: there is none before 1970 and from `2 ^ 63`
nanoseconds on. -/
def timestamp? (t : Instant) : Option Timestamp :=
  if 0 ≤ t.total ∧ t.total < timestamps then some (UInt64.ofNat t.total.toNat) else none

/-- **Instant of a timestamp**: there is none from `2 ^ 63` on. -/
def ofTimestamp? (ts : Timestamp) : Option Instant :=
  if ts.toNat < timestamps then
    some ⟨(ts.toNat / nanosPerSecond : Nat), ts.toNat % nanosPerSecond⟩
  else none

/-- The text of an instant, as in `2024-01-02 03:04:05.250 UTC`. A leap second is
second 60. -/
def text (t : Instant) : String :=
  let date := Calendar.Date.ofDay (t.seconds.fdiv 86400)
  let second := (t.seconds.fmod 86400).toNat
  let leap := decide (nanosPerSecond ≤ t.nanos)
  let clock := Calendar.padded 2 (second / 3600) ++ ':' ::
    (Calendar.padded 2 (second / 60 % 60) ++ ':' ::
      Calendar.padded 2 (second % 60 + if leap then 1 else 0))
  let fraction := Calendar.fractionText (if leap then t.nanos - nanosPerSecond else t.nanos)
  String.ofList (date.text ++ ' ' :: (clock ++ fraction ++ " UTC".toList))

end Instant

end TimeSeries
