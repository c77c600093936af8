import TimeSeries.Engine.Interface

/-!
# The read buffer of a cursor

A buffer has a fixed capacity. A delivery fills it from the front, and what was
filled is then consumed from a position that moves on. Bytes beyond those of a
delivery keep their old contents: if a delivery claims more than it brings, they
are what is read.

Positions are machine words. Moving on adds to one before it is held back at what was
filled, and the program stops if the sum is no word.
-/

namespace TimeSeries

/-- **Read buffer.** -/
structure ReadBuffer : Type where
  /-- all bytes of the buffer, as many as its capacity -/
  data : Bytes
  /-- how many bytes were consumed -/
  position : Nat := 0
  /-- how many bytes are filled -/
  filled : Nat := 0
  deriving DecidableEq, Repr

namespace ReadBuffer

/-- An empty buffer, all of it zero. -/
def ofCapacity (capacity : Nat) : ReadBuffer := { data := List.replicate capacity 0 }

/-- The capacity in bytes. -/
def capacity (b : ReadBuffer) : Nat := b.data.length

/-- Whether everything that was filled is consumed. -/
def isExhausted (b : ReadBuffer) : Bool := b.position == b.filled

/-- The bytes that are filled and not consumed. -/
def unread (b : ReadBuffer) : Bytes := (b.data.drop b.position).take (b.filled - b.position)

/-- **Refills** the buffer from a delivery. Neither bytes nor their number go beyond
the capacity. -/
def refill (b : ReadBuffer) (d : Delivery) : ReadBuffer :=
  { data := d.bytes.take b.capacity ++ b.data.drop d.bytes.length
    position := 0
    filled := min d.count b.capacity }

/-- The sum of two machine words; none if it is no word, at which the program stops. -/
def addWords? (a b : Nat) : Option Nat := if a + b < UInt64.size then some (a + b) else none

/-- **Consumes** some bytes, but none that were not filled. There is no buffer after it
if the program stops. -/
def advance? (b : ReadBuffer) (length : Nat) : Option ReadBuffer :=
  (addWords? b.position length).map fun sum => { b with position := min sum b.filled }

/-- Consumes everything. -/
def discard (b : ReadBuffer) : ReadBuffer := { b with position := b.filled }

end ReadBuffer

end TimeSeries
