import TimeSeries.Double
import TimeSeries.Sample.Bytes
import TimeSeries.Time.Instant

/-!
# Record headers

Query results travel as records packed back to back. A record is a header of 32
bytes, with little-endian fields, and a tail of doubles:

| at | width | field |
|---:|---:|---|
| 0 | 8 | timestamp |
| 8 | 8 | series id |
| 16 | 8 | value, or the slot map of a tuple |
| 24 | 2 | kind |
| 26 | 2 | length of the whole record |
| 28 | 4 | unused |

The slot map of a tuple holds the number of slots in its top six bits and, for
the first 58 slots, one bit each that says whether the slot has a value. The tail
has a double for each slot that does. `Header.parse` accepts a header only if
its length is the one its kind and slot map call for and the record is all there.
-/

namespace TimeSeries

/-- **Series id**: the number an engine knows a series by. -/
abbrev SeriesId : Type := UInt64

/-! ### Kinds -/

/-- **Kind** of a record: a set of flags. -/
structure Kind : Type where
  /-- the flags, one bit each -/
  flags : UInt16
  deriving DecidableEq, Repr

namespace Kind

/-- Whether a bit is set. -/
def has (k : Kind) (bit : Nat) : Bool := k.flags.toNat.testBit bit

/-- The record names a series; its timestamp counts as well then. -/
def hasSeries (k : Kind) : Bool := k.has 0

/-- The record holds one value. -/
def isScalar (k : Kind) : Bool := k.has 4

/-- The record holds a tuple of values, unless it holds one value. -/
def isTuple (k : Kind) : Bool := k.has 6

/-- The kind of a record with one value: series, timestamp (bit 1) and value. -/
def scalar : Kind := ⟨0x13⟩

/-- The kind of a record with a tuple: series, timestamp and tuple. -/
def tuple : Kind := ⟨0x43⟩

/-- The kind of a record that only names a series. -/
def seriesOnly : Kind := ⟨0x01⟩

end Kind

/-! ### Slot maps -/

/-- Slots that have a bit in a slot map. -/
def maxSlots : Nat := 58

namespace SlotMap

/-- The number of slots: the top six bits. -/
def count (map : UInt64) : Nat := map.toNat >>> maxSlots

/-- Whether a slot has a value. Slots without a bit have none. -/
def present (map : UInt64) (slot : Nat) : Bool := slot < maxSlots && map.toNat.testBit slot

/-- **Slots** of a map in order: whether each has a value. -/
def slots (map : UInt64) : List Bool := (List.range (count map)).map (present map)

/-- The number of slots that have a value. -/
def filled (map : UInt64) : Nat := (slots map).count true

end SlotMap

/-! ### Headers -/

/-- Bytes of a header. -/
def headerSize : Nat := 32

/-- Bytes of the largest record: a header and a full tuple. -/
def maxRecordSize : Nat := headerSize + maxSlots * 8

/-- **Header** of a record. -/
structure Header : Type where
  /-- the timestamp -/
  timestamp : Timestamp
  /-- the series id -/
  series : SeriesId
  /-- the value, or the slot map of a tuple -/
  value : UInt64
  /-- what the record holds -/
  kind : Kind
  /-- the length the header declares for the whole record -/
  size : UInt16
  deriving DecidableEq, Repr

/-- **Fault** of a record: how its header and the bytes at hand disagree. -/
inductive RecordFault : Type where
  /-- fewer bytes than a header has -/
  | truncated (available : Nat)
  /-- the declared length is less than a header has -/
  | undersized (declared : Nat)
  /-- the declared length is more than there is -/
  | overrun (declared available : Nat)
  /-- the declared length is not the one the contents call for -/
  | mismatched (declared needed : Nat)
  deriving DecidableEq, Repr

/-- The text of a fault. -/
def RecordFault.text : RecordFault → String
  | truncated available => s!"truncated header: {available} bytes available"
  | undersized declared => s!"declared size {declared} is smaller than the header"
  | overrun declared available =>
    s!"declared size {declared} overruns the {available} readable bytes"
  | mismatched declared needed => s!"declared size {declared} but payload needs {needed}"

namespace Header

/-- The length the header declares for the whole record. -/
def length (h : Header) : Nat := h.size.toNat

/-- The number of doubles in the tail: one for each filled slot of a tuple. -/
def tailLength (h : Header) : Nat :=
  if h.kind.isScalar then 0 else if h.kind.isTuple then SlotMap.filled h.value else 0

/-- The length the contents call for. -/
def needed (h : Header) : Nat := headerSize + 8 * h.tailLength

/-- The fields at the front of some bytes, of which there are enough. -/
def read (bytes : Bytes) : Header :=
  { timestamp := bytes.word 0
    series := bytes.word 8
    value := bytes.word 16
    kind := ⟨UInt16.ofNat (bytes.field 24 2)⟩
    size := UInt16.ofNat (bytes.field 26 2) }

/-- **Reads and checks** the header at the front of some bytes. The first of the
four faults that applies is reported. -/
def parse (bytes : Bytes) : Except RecordFault Header :=
  if bytes.length < headerSize then .error (.truncated bytes.length)
  else
    let h := read bytes
    if h.length < headerSize then .error (.undersized h.length)
    else if bytes.length < h.length then .error (.overrun h.length bytes.length)
    else if h.length ≠ h.needed then .error (.mismatched h.length h.needed)
    else .ok h

/-- The bytes of a header, the unused ones zero. -/
def write (h : Header) : Bytes :=
  Bytes.ofWord h.timestamp ++ Bytes.ofWord h.series ++ Bytes.ofWord h.value ++
    Bytes.toLE 2 h.kind.flags.toNat ++ Bytes.toLE 2 h.size.toNat ++ Bytes.toLE 4 0

end Header

end TimeSeries
