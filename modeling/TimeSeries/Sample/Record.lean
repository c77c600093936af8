import TimeSeries.Sample.Header

/-!
# Records: what an engine sends

A record says one of three things about a series: that it has a value at a
timestamp, that it has a tuple of values there, or only that it exists. `encode`
writes a record the way `Header` lays it out.
-/

namespace TimeSeries

/-- **Record** of a query's result. -/
inductive Record : Type where
  /-- one value -/
  | scalar (series : SeriesId) (timestamp : Timestamp) (value : Double)
  /-- one slot for each of several values, some of them missing -/
  | tuple (series : SeriesId) (timestamp : Timestamp) (slots : List (Option Double))
  /-- no value -/
  | seriesOnly (series : SeriesId)
  deriving DecidableEq, Repr

namespace Record

/-! ### What a record says -/

/-- The series that a record is about. -/
def series : Record → SeriesId
  | scalar series _ _ => series
  | tuple series _ _ => series
  | seriesOnly series => series

/-- The timestamp of a record; a record without values has none of its own. -/
def timestamp : Record → Timestamp
  | scalar _ timestamp _ => timestamp
  | tuple _ timestamp _ => timestamp
  | seriesOnly _ => 0

/-- The values of a record, NaN for those that are missing. -/
def values : Record → List Double
  | scalar _ _ value => [value]
  | tuple _ _ slots => slots.map fun slot => slot.getD Double.nan
  | seriesOnly _ => []

/-! ### Bytes -/

/-- The bits of some slots, the first slot's least significant: set for those that
have a value. -/
def presence : List (Option Double) → Nat
  | [] => 0
  | slot :: slots => (if slot.isSome then 1 else 0) + 2 * presence slots

/-- The slot map of some slots. -/
def slotMap (slots : List (Option Double)) : UInt64 :=
  UInt64.ofNat ((slots.length <<< maxSlots) + presence slots)

/-- The header of a record. -/
def header : Record → Header
  | scalar series timestamp value =>
    ⟨timestamp, series, value.bits, Kind.scalar, UInt16.ofNat headerSize⟩
  | tuple series timestamp slots =>
    ⟨timestamp, series, slotMap slots, Kind.tuple,
      UInt16.ofNat (headerSize + 8 * (slots.filterMap id).length)⟩
  | seriesOnly series => ⟨0, series, 0, Kind.seriesOnly, UInt16.ofNat headerSize⟩

/-- The doubles after the header: the values of a tuple that are not missing. -/
def tail : Record → List Double
  | tuple _ _ slots => slots.filterMap id
  | _ => []

/-- **Bytes of a record.** -/
def encode (r : Record) : Bytes :=
  r.header.write ++ r.tail.flatMap fun d => Bytes.ofWord d.bits

/-- A record that has bytes: a tuple may have no more slots than a slot map has
bits. -/
def Encodable : Record → Prop
  | tuple _ _ slots => slots.length ≤ maxSlots
  | _ => True

instance : DecidablePred Encodable := fun r => by
  cases r <;> unfold Encodable <;> infer_instance

/-- What is said about a tuple that has no bytes. -/
def tooWide (slots : Nat) : String :=
  s!"tuple has {slots} slots, at most {maxSlots} are supported"

end Record

end TimeSeries
