import TimeSeries.Row
import TimeSeries.Sample.Header

/-!
# From records to rows

Decoding a record gives a row. The series id is looked up only if the kind says
there is a series, and a series without a name is an error; the values come from
the header, the slot map and the tail.
-/

namespace TimeSeries

/-- The doubles in some bytes, eight bytes each; fewer than eight at the end are
left out. -/
def doubles : Bytes → List Double
  | b0 :: b1 :: b2 :: b3 :: b4 :: b5 :: b6 :: b7 :: rest =>
    ⟨UInt64.ofNat (Bytes.ofLE [b0, b1, b2, b3, b4, b5, b6, b7])⟩ :: doubles rest
  | _ => []

/-- Deals values out to the slots that have one; a missing value is NaN. -/
def fillSlots : List Bool → List Double → List Double
  | [], _ => []
  | true :: slots, d :: ds => d :: fillSlots slots ds
  | _ :: slots, ds => Double.nan :: fillSlots slots ds

namespace Header

/-- The bytes after the header, up to the declared length. If there are not that
many, there are none. -/
def tailBytes (h : Header) (record : Bytes) : Bytes :=
  if h.length ≤ record.length then (record.take h.length).drop headerSize else []

/-- The values of a record that begins with this header. -/
def values (h : Header) (record : Bytes) : List Double :=
  if h.kind.isScalar then [⟨h.value⟩]
  else if h.kind.isTuple then fillSlots (SlotMap.slots h.value) (doubles (h.tailBytes record))
  else []

/-- **Decodes a record** that begins with this header. The error is the id of a
series that has no name. -/
def decodeRow (h : Header) (record : Bytes) (resolve : SeriesId → Option String) :
    Except SeriesId Row :=
  if h.kind.hasSeries then
    match resolve h.series with
    | some name => .ok ⟨some name, some h.timestamp, h.values record⟩
    | none => .error h.series
  else .ok ⟨none, none, h.values record⟩

end Header

end TimeSeries
