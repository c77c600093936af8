import TimeSeries.Cursor.Buffer

/-!
# What a read buffer holds

A reader sees of a buffer only its unread bytes. Over valid buffers (`ReadBuffer.Valid`)
each operation has one effect on them: `refill` replaces them by a delivery
(`ReadBuffer.unread_refill`), `discard` leaves none, and `advance?` drops them from the front
(`ReadBuffer.Valid.unread_consume`), provided that position and number add up to a word; otherwise
the program stops. Validity is kept by all three, so positions never pass what was filled and,
as the capacity is a word, consuming what is unread never stops the program
(`ReadBuffer.Valid.advance?_eq`).
-/

namespace TimeSeries.ReadBuffer

/-- **Valid buffers**: only what was filled is consumed, no more is filled than there is
room for, and the room is counted by a word. -/
structure Valid (b : ReadBuffer) : Prop where
  /-- only what was filled is consumed -/
  position_le : b.position ≤ b.filled
  /-- what was filled fits -/
  filled_le : b.filled ≤ b.capacity
  /-- the capacity is a word -/
  capacity_lt : b.capacity < UInt64.size

variable {b : ReadBuffer}

/-! ### Capacity -/

@[simp] theorem capacity_ofCapacity (capacity : Nat) :
    (ofCapacity capacity).capacity = capacity := by
  rw [ofCapacity, ReadBuffer.capacity, List.length_replicate]

@[simp] theorem capacity_refill (b : ReadBuffer) (d : Delivery) :
    (b.refill d).capacity = b.capacity := by
  simp only [refill, capacity, List.length_append, List.length_take, List.length_drop]
  omega

/-- The buffer with some bytes consumed, but none that were not `filled`. -/
def consume (b : ReadBuffer) (length : Nat) : ReadBuffer :=
  { b with position := min (b.position + length) b.filled }

@[simp] theorem capacity_consume (b : ReadBuffer) (length : Nat) :
    (b.consume length).capacity = b.capacity := rfl

@[simp] theorem capacity_discard (b : ReadBuffer) : b.discard.capacity = b.capacity := rfl

/-! ### Validity -/

theorem valid_ofCapacity {capacity : Nat} (h : capacity < UInt64.size) :
    (ofCapacity capacity).Valid :=
  ⟨Nat.le_refl 0, Nat.zero_le _, by rwa [capacity_ofCapacity]⟩

theorem Valid.refill (h : b.Valid) (d : Delivery) : (b.refill d).Valid :=
  ⟨Nat.zero_le _, by rw [capacity_refill]; exact Nat.min_le_right _ _,
    by rw [capacity_refill]; exact h.capacity_lt⟩

theorem Valid.consume (h : b.Valid) (length : Nat) : (b.consume length).Valid :=
  ⟨Nat.min_le_right _ _, h.filled_le, h.capacity_lt⟩

theorem Valid.discard (h : b.Valid) : b.discard.Valid :=
  ⟨Nat.le_refl _, h.filled_le, h.capacity_lt⟩

/-! ### Unread bytes -/

theorem Valid.length_unread (h : b.Valid) : b.unread.length = b.filled - b.position := by
  have hfilled : b.filled ≤ b.data.length := h.filled_le
  rw [unread, List.length_take, List.length_drop]
  omega

/-- A `Valid` buffer is used up when there is nothing to read. -/
theorem Valid.isExhausted_iff (h : b.Valid) : b.isExhausted = true ↔ b.unread = [] := by
  have hlength := h.length_unread
  have hposition := h.position_le
  rw [isExhausted, beq_iff_eq, ← List.length_eq_zero_iff, hlength]
  omega

@[simp] theorem unread_ofCapacity (capacity : Nat) : (ofCapacity capacity).unread = [] := rfl

@[simp] theorem unread_discard (b : ReadBuffer) : b.discard.unread = [] := by
  rw [unread, discard, Nat.sub_self, List.take_zero]

/-- **A `refill`** replaces what is unread by the delivery, if it brings what it claims and fits. -/
theorem unread_refill {d : Delivery} (hcount : d.count = d.bytes.length)
    (hfits : d.bytes.length ≤ b.capacity) : (b.refill d).unread = d.bytes := by
  simp only [refill, unread, List.drop_zero, Nat.sub_zero]
  rw [hcount, Nat.min_eq_left hfits, List.take_of_length_le hfits, List.take_left]

/-- To `consume` bytes that are there moves the position on by their number. -/
theorem Valid.position_consume (h : b.Valid) {length : Nat} (hlength : length ≤ b.unread.length) :
    (b.consume length).position = b.position + length := by
  have hunread := h.length_unread
  have hposition := h.position_le
  have hsum : b.position + length ≤ b.filled := by omega
  exact Nat.min_eq_left hsum

/-- **To `consume`** drops bytes from the front of what is unread. -/
theorem Valid.unread_consume (h : b.Valid) {length : Nat} (hlength : length ≤ b.unread.length) :
    (b.consume length).unread = b.unread.drop length := by
  rw [unread, h.position_consume hlength]
  simp only [ReadBuffer.consume, unread, List.drop_take, List.drop_drop]
  rw [Nat.sub_sub]

/-! ### When the program stops -/

theorem advance?_of_lt {length : Nat} (hsum : b.position + length < UInt64.size) :
    b.advance? length = some (b.consume length) := by
  rw [advance?, addWords?, if_pos hsum]
  rfl

/-- **The program stops** in `advance?` just if position and number don't add up to a word. -/
theorem advance?_eq_none_iff {length : Nat} :
    b.advance? length = none ↔ UInt64.size ≤ b.position + length := by
  rw [advance?, addWords?, Option.map_eq_none_iff]
  split
  next hsum => exact ⟨fun h => (by cases h), fun h => absurd hsum (Nat.not_lt.mpr h)⟩
  next hsum => exact ⟨fun _ => Nat.not_lt.mp hsum, fun _ => rfl⟩

/-- If `advance?` goes on, the bytes are consumed. -/
theorem eq_consume_of_advance? {b' : ReadBuffer} {length : Nat}
    (h : b.advance? length = some b') : b' = b.consume length := by
  rcases Nat.lt_or_ge (b.position + length) UInt64.size with hsum | hsum
  · rw [advance?_of_lt hsum] at h
    exact (Option.some.inj h).symm
  · rw [advance?_eq_none_iff.mpr hsum] at h
    cases h

/-- **To `advance?` past what is unread** never stops the program. -/
theorem Valid.advance?_eq (h : b.Valid) {length : Nat} (hlength : length ≤ b.unread.length) :
    b.advance? length = some (b.consume length) := by
  have hunread := h.length_unread
  have hposition := h.position_le
  have hfilled := h.filled_le
  have hcapacity := h.capacity_lt
  exact advance?_of_lt (by omega)

end TimeSeries.ReadBuffer
