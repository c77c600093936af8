import TimeSeries.Time.Instant

/-!
# Instants as counts of nanoseconds

An instant outside a leap second is the same as its count of nanoseconds, be that negative or not:
`Instant.ofTotal` undoes `Instant.total`, and later instants have larger counts. A timestamp is such
a count that fits both a signed word and a word (`Instant.timestamp?_eq_bind`), so the two
conversions undo each other (`Instant.timestamp?_eq_some_iff_ofTimestamp?`) on the instants from the
start of 1970 on and the timestamps below `2 ^ 63`, and on nothing else.
-/

namespace TimeSeries.Instant

variable {t t' : Instant} {ts ts' : Timestamp} {n : Int}

/-! ### Counts of nanoseconds -/

/-- **Ordinary instants** do not lie in a leap second. -/
def Ordinary (t : Instant) : Prop := t.nanos < nanosPerSecond

instance (t : Instant) : Decidable t.Ordinary := Nat.decLt _ _

/-- **The instant of a count** of nanoseconds since the start of 1970. Seconds are rounded down,
also before 1970. -/
def ofTotal (n : Int) : Instant := ⟨n / nanosPerSecond, (n % nanosPerSecond).toNat⟩

theorem ordinary_ofTotal (n : Int) : (ofTotal n).Ordinary := by
  rw [Ordinary, ofTotal, nanosPerSecond]
  dsimp only
  omega

/-- An instant has the count that it was made of. -/
@[simp] theorem total_ofTotal (n : Int) : (ofTotal n).total = n := by
  rw [total, ofTotal, nanosPerSecond]
  dsimp only
  omega

/-- **An ordinary instant is made of its count.** -/
theorem ofTotal_total (h : t.Ordinary) : ofTotal t.total = t := by
  obtain ⟨seconds, nanos⟩ := t
  rw [Ordinary, nanosPerSecond] at h
  rw [ofTotal, total, nanosPerSecond, mk.injEq]
  dsimp only at h ⊢
  omega

/-- **One instant before another**: by the seconds and, where these are equal, by the part of a
second. -/
def Before (t t' : Instant) : Prop :=
  t.seconds < t'.seconds ∨ t.seconds = t'.seconds ∧ t.nanos < t'.nanos

/-- **Counts grow with time.** -/
theorem before_iff_total_lt (h : t.Ordinary) (h' : t'.Ordinary) :
    t.Before t' ↔ t.total < t'.total := by
  rw [Ordinary, nanosPerSecond] at h h'
  rw [Before, total, total, nanosPerSecond]
  omega

/-! ### Words -/

/-- A count as a signed word, if it fits one: from `-2 ^ 63` on and below `2 ^ 63`. -/
def signed? (n : Int) : Option Int :=
  if -(timestamps : Int) ≤ n ∧ n < timestamps then some n else none

/-- A count as a word, if it fits one. -/
def word? (n : Int) : Option Timestamp :=
  if 0 ≤ n ∧ n < UInt64.size then some (UInt64.ofNat n.toNat) else none

theorem timestamps_lt_size : timestamps < UInt64.size := by decide

theorem timestamp?_eq_some_iff :
    t.timestamp? = some ts ↔ t.total = ts.toNat ∧ ts.toNat < timestamps := by
  have hsize := timestamps_lt_size
  rw [timestamp?]
  constructor
  · intro h
    split at h
    next hrange =>
      obtain rfl := Option.some.inj h
      rw [UInt64.toNat_ofNat_of_lt' (by omega)]
      omega
    next => cases h
  · rintro ⟨htotal, hsmall⟩
    rw [htotal, if_pos (by omega), Int.toNat_natCast, UInt64.ofNat_toNat]

theorem ofTimestamp?_eq_some_iff :
    ofTimestamp? ts = some t ↔ ts.toNat < timestamps ∧ ofTotal ts.toNat = t := by
  have hfloor : (⟨(ts.toNat / nanosPerSecond : Nat), ts.toNat % nanosPerSecond⟩ : Instant) =
      ofTotal ts.toNat := by
    rw [ofTotal, nanosPerSecond, mk.injEq]
    omega
  rw [ofTimestamp?, hfloor]
  split <;> simp [*]

/-- **A timestamp is a count** that is first put into a signed word and then into a word. -/
theorem timestamp?_eq_bind (t : Instant) : t.timestamp? = (signed? t.total).bind word? := by
  have hsize := timestamps_lt_size
  rw [timestamp?, signed?]
  by_cases hsigned : -(timestamps : Int) ≤ t.total ∧ t.total < timestamps
  · rw [if_pos hsigned, Option.bind_some, word?]
    by_cases hpos : 0 ≤ t.total
    · rw [if_pos (by omega), if_pos (by omega)]
    · rw [if_neg (by omega), if_neg (by omega)]
  · rw [if_neg hsigned, if_neg (by omega), Option.bind_none]

/-- **The instant of a timestamp** is that of its count, if this fits a signed word. -/
theorem ofTimestamp?_eq_map (ts : Timestamp) :
    ofTimestamp? ts = (signed? ts.toNat).map ofTotal := by
  ext t
  rw [ofTimestamp?_eq_some_iff, signed?]
  by_cases hsmall : ts.toNat < timestamps
  · rw [if_pos (by omega)]
    simp [hsmall]
  · rw [if_neg (by omega)]
    simp [hsmall]

/-! ### Timestamps -/

/-- **An instant has a timestamp** exactly if it is at or after the start of 1970 and less than
`2 ^ 63` nanoseconds after it. -/
theorem isSome_timestamp?_iff :
    t.timestamp?.isSome ↔ 0 ≤ t.total ∧ t.total < timestamps := by
  rw [timestamp?]
  split <;> simp [*]

/-- **A timestamp is that of an instant** exactly if it is below `2 ^ 63`. -/
theorem isSome_ofTimestamp?_iff : (ofTimestamp? ts).isSome ↔ ts.toNat < timestamps := by
  rw [ofTimestamp?]
  split <;> simp [*]

/-- **The conversions undo each other.** -/
theorem timestamp?_eq_some_iff_ofTimestamp? (h : t.Ordinary) :
    t.timestamp? = some ts ↔ ofTimestamp? ts = some t := by
  rw [timestamp?_eq_some_iff, ofTimestamp?_eq_some_iff]
  constructor
  · rintro ⟨htotal, hsmall⟩
    exact ⟨hsmall, by rw [← htotal, ofTotal_total h]⟩
  · rintro ⟨hsmall, rfl⟩
    exact ⟨total_ofTotal _, hsmall⟩

/-- The instant of a timestamp is ordinary. -/
theorem ordinary_of_ofTimestamp? (h : ofTimestamp? ts = some t) : t.Ordinary := by
  obtain ⟨-, rfl⟩ := ofTimestamp?_eq_some_iff.mp h
  exact ordinary_ofTotal _

/-- **Later instants have larger timestamps.** -/
theorem before_iff_timestamp_lt (h : t.Ordinary) (h' : t'.Ordinary) (hts : t.timestamp? = some ts)
    (hts' : t'.timestamp? = some ts') : t.Before t' ↔ ts < ts' := by
  rw [before_iff_total_lt h h', (timestamp?_eq_some_iff.mp hts).1,
    (timestamp?_eq_some_iff.mp hts').1, UInt64.lt_iff_toNat_lt]
  omega

end TimeSeries.Instant
