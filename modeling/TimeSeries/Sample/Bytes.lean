/-!
# Bytes: little-endian fields

The fields of a record are unsigned integers of a fixed number of bytes, least
significant byte first. Main facts: `ofLE_toLE` — a field reads back the number
it was written from, modulo the field's size — and `toLE_ofLE`, its converse.
-/

namespace TimeSeries

/-- A run of bytes. -/
abbrev Bytes : Type := List UInt8

namespace Bytes

/-- **Writing a field**: the `width` least significant bytes of `n`, least
significant first. -/
def toLE : (width : Nat) → Nat → Bytes
  | 0, _ => []
  | width + 1, n => UInt8.ofNat (n % 256) :: toLE width (n / 256)

/-- **Reading a field**: the number whose bytes, least significant first, these
are. -/
def ofLE : Bytes → Nat
  | [] => 0
  | b :: bs => b.toNat + 256 * ofLE bs

/-- The bytes of a 64-bit word. -/
def ofWord (w : UInt64) : Bytes := toLE 8 w.toNat

/-- The field of `width` bytes at position `pos`. -/
def field (bytes : Bytes) (pos width : Nat) : Nat := ofLE ((bytes.drop pos).take width)

/-- The 64-bit word at position `pos`. -/
def word (bytes : Bytes) (pos : Nat) : UInt64 := UInt64.ofNat (bytes.field pos 8)

/-- **Size of a field**: how many numbers `width` bytes can stand for. -/
def size (width : Nat) : Nat := 1 <<< (8 * width)

/-! ### What is written is read back -/

theorem size_succ (width : Nat) : size (width + 1) = 256 * size width := by
  rw [size, size, Nat.one_shiftLeft, Nat.one_shiftLeft, Nat.mul_succ, Nat.pow_add, Nat.mul_comm]

@[simp] theorem length_toLE (width n : Nat) : (toLE width n).length = width := by
  induction width generalizing n with
  | zero => rfl
  | succ width ih => simp [toLE, ih]

theorem ofLE_toLE (width n : Nat) : ofLE (toLE width n) = n % size width := by
  induction width generalizing n with
  | zero => exact (Nat.mod_one n).symm
  | succ width ih =>
    have hmod : n % 256 % 2 ^ 8 = n % 256 := Nat.mod_eq_of_lt (by omega)
    rw [toLE, ofLE, ih, UInt8.toNat_ofNat', hmod, size_succ, Nat.mod_mul]

theorem ofLE_lt (bs : Bytes) : ofLE bs < size bs.length := by
  induction bs with
  | nil => exact Nat.one_pos
  | cons b bs ih =>
    have hb : b.toNat < 256 := b.toNat_lt
    rw [ofLE, List.length_cons, size_succ]
    omega

theorem toLE_ofLE (bs : Bytes) : toLE bs.length (ofLE bs) = bs := by
  induction bs with
  | nil => rfl
  | cons b bs ih =>
    have hb : b.toNat < 256 := b.toNat_lt
    have hmod : (b.toNat + 256 * ofLE bs) % 256 = b.toNat := by omega
    have hdiv : (b.toNat + 256 * ofLE bs) / 256 = ofLE bs := by omega
    rw [List.length_cons, ofLE, toLE, hmod, hdiv, ih, UInt8.ofNat_toNat]

end Bytes

end TimeSeries
