import TimeSeries.Proofs.Cursor.Buffer

/-!
# Positions of a read buffer

A buffer is refilled, consumed from and discarded in any order and with any numbers
(`ReadBuffer.act?`). Whatever is done to it, its position stays within what is filled, and what is
filled within the capacity (`ReadBuffer.Valid.acts`).

Only `advance?` can stop the program: it adds the number to the position before it holds the sum
back at what is filled, and the sum may be no word. As long as it is one, the position becomes
exactly the sum, held back, and so never goes back. A run of acts stops just where this first
happens (`ReadBuffer.acts?_eq_none_iff`). Main result: `ReadBuffer.position_of_acts`.
-/

namespace TimeSeries.ReadBuffer

/-! ### What is done to a buffer -/

/-- **Act** on a `ReadBuffer`. -/
inductive Act : Type where
  /-- refill it from a delivery, which may claim any number of bytes -/
  | refill (d : Delivery)
  /-- consume some bytes -/
  | advance (length : UInt64)
  /-- consume everything -/
  | discard
  deriving DecidableEq, Repr

/-- What an `Act` makes of a buffer; none if the program stops. -/
def act? (b : ReadBuffer) : Act → Option ReadBuffer
  | .refill d => some (b.refill d)
  | .advance length => b.advance? length.toNat
  | .discard => some b.discard

/-- What one `Act` after another makes of a buffer; none if the program stops at one of them. -/
def acts? (b : ReadBuffer) (as : List Act) : Option ReadBuffer := as.foldlM act? b

variable {b b' : ReadBuffer} {a : Act} {as : List Act}

theorem acts?_cons (b : ReadBuffer) (a : Act) (as : List Act) :
    b.acts? (a :: as) = (b.act? a).bind fun b' => b'.acts? as := List.foldlM_cons

theorem acts?_append (b : ReadBuffer) (as more : List Act) :
    b.acts? (as ++ more) = (b.acts? as).bind fun b' => b'.acts? more := List.foldlM_append

/-- **Induction along a run** of `acts?` that does not stop. -/
theorem acts?_induction {P : ReadBuffer → Prop} (hstart : P b)
    (hstep : ∀ {b b' a}, P b → b.act? a = some b' → P b') (h : b.acts? as = some b') : P b' := by
  induction as generalizing b with
  | nil => exact Option.some.inj h ▸ hstart
  | cons a as ih =>
    rw [acts?_cons] at h
    obtain ⟨b₁, hact, hacts⟩ := Option.bind_eq_some_iff.mp h
    exact ih (hstep hstart hact) hacts

theorem capacity_of_act? (h : b.act? a = some b') : b'.capacity = b.capacity := by
  cases a with
  | refill d => rw [← Option.some.inj h, capacity_refill]
  | advance length => rw [eq_consume_of_advance? h, capacity_consume]
  | discard => rw [← Option.some.inj h, capacity_discard]

theorem Valid.act (h : b.Valid) (hact : b.act? a = some b') : b'.Valid := by
  cases a with
  | refill d => exact Option.some.inj hact ▸ h.refill d
  | advance length => exact eq_consume_of_advance? hact ▸ h.consume length.toNat
  | discard => exact Option.some.inj hact ▸ h.discard

/-- **Buffers stay `Valid`**, whatever is done to them. -/
theorem Valid.acts (h : b.Valid) (hacts : b.acts? as = some b') : b'.Valid :=
  acts?_induction h (fun h => h.act) hacts

theorem capacity_of_acts? (h : b.acts? as = some b') : b'.capacity = b.capacity :=
  acts?_induction (P := fun b' => b'.capacity = b.capacity) rfl
    (fun h hact => (capacity_of_act? hact).trans h) h

/-! ### What is unread -/

/-- **What is `unread`** is what is filled, from the position on. -/
theorem unread_eq (b : ReadBuffer) : b.unread = (b.data.take b.filled).drop b.position := by
  rw [unread, List.drop_take]

/-- To `consume` does not go back. -/
theorem Valid.le_position_consume (h : b.Valid) (length : Nat) :
    b.position ≤ (b.consume length).position :=
  Nat.le_min.mpr ⟨Nat.le_add_right _ _, h.position_le⟩

/-! ### Runs that stop -/

/-- An act at which the program stops is an `advance` by a number that does not add up to a word
with the position. -/
theorem act?_eq_none_iff : b.act? a = none ↔
    ∃ length, a = .advance length ∧ UInt64.size ≤ b.position + length.toNat := by
  cases a with
  | advance length => simp [act?, advance?_eq_none_iff]
  | refill d => simp [act?]
  | discard => simp [act?]

/-- **A run stops** just if it comes to an `advance` by a number that does not add up to a word with
the position it has come to. -/
theorem acts?_eq_none_iff : b.acts? as = none ↔ ∃ before length after b',
    as = before ++ .advance length :: after ∧ b.acts? before = some b' ∧
      UInt64.size ≤ b'.position + length.toNat := by
  constructor
  · intro h
    induction as generalizing b with
    | nil => cases h
    | cons a as ih =>
      rw [acts?_cons] at h
      cases hact : b.act? a with
      | none =>
        obtain ⟨length, rfl, hsum⟩ := act?_eq_none_iff.mp hact
        exact ⟨[], length, as, b, rfl, rfl, hsum⟩
      | some b₁ =>
        rw [hact, Option.bind_some] at h
        obtain ⟨before, length, after, b', rfl, hbefore, hsum⟩ := ih h
        refine ⟨a :: before, length, after, b', rfl, ?_, hsum⟩
        rw [acts?_cons, hact, Option.bind_some, hbefore]
  · rintro ⟨before, length, after, b', rfl, hbefore, hsum⟩
    have hstops : b'.act? (.advance length) = none := act?_eq_none_iff.mpr ⟨length, rfl, hsum⟩
    rw [acts?_append, hbefore, Option.bind_some, acts?_cons, hstops, Option.bind_none]

/-! ### Runs -/

/-- **A buffer along any run of acts.** The program stops at an act just if the act is an `advance`
by a number that does not add up to a word with the position. Up to there, the position is within
what is filled, that is within the capacity, and what is `unread` is what is filled from the
position on. A `refill` takes the position to the front and fills what the delivery claims, up to
the capacity. An `advance` changes the position only: it becomes the exact sum, held back at what is
filled, which is never less than it was. -/
theorem position_of_acts {capacity : Nat} (hcapacity : capacity < UInt64.size) (as : List Act) :
    ((ofCapacity capacity).acts? as = none ↔ ∃ before length after b,
      as = before ++ .advance length :: after ∧ (ofCapacity capacity).acts? before = some b ∧
        UInt64.size ≤ b.position + length.toNat) ∧
    ∀ b, (ofCapacity capacity).acts? as = some b →
      (b.position ≤ b.filled ∧ b.filled ≤ b.capacity ∧ b.capacity = capacity) ∧
      b.unread = (b.data.take b.filled).drop b.position ∧
      (∀ d, ∃ b', b.act? (.refill d) = some b' ∧ b'.position = 0 ∧
        b'.filled = min d.count capacity) ∧
      (∀ length : UInt64,
        let sum := b.position + length.toNat
        b.act? (.advance length) =
            (if sum < UInt64.size then some { b with position := min sum b.filled } else none) ∧
          b.position ≤ min sum b.filled) ∧
      b.act? .discard = some { b with position := b.filled } := by
  refine ⟨acts?_eq_none_iff, fun b hacts => ?_⟩
  have hvalid : b.Valid := (valid_ofCapacity hcapacity).acts hacts
  have hsize : b.capacity = capacity := by rw [capacity_of_acts? hacts, capacity_ofCapacity]
  refine ⟨⟨hvalid.position_le, hvalid.filled_le, hsize⟩, b.unread_eq, ?_, ?_, rfl⟩
  · intro d
    exact ⟨_, rfl, rfl, by rw [← hsize]; rfl⟩
  · intro length sum
    refine ⟨?_, hvalid.le_position_consume length.toNat⟩
    split
    next hsum => exact advance?_of_lt hsum
    next hsum => exact advance?_eq_none_iff.mpr (Nat.not_lt.mp hsum)

/-- Three bytes are filled and two consumed: ten more take the position to the end, and at the
largest word the program stops. -/
theorem position_of_acts_three_bytes :
    let as : List Act := [.refill ⟨[1, 2, 3], 3⟩, .advance 2]
    (ofCapacity 8).acts? (as ++ [.advance 18446744073709551615]) = none ∧
      ∃ b, (ofCapacity 8).acts? as = some b ∧ b.unread = [3] ∧
        b.act? (.advance 10) = some { b with position := 3 } := by
  intro as
  let b : ReadBuffer := ⟨[1, 2, 3, 0, 0, 0, 0, 0], 2, 3⟩
  have hacts : (ofCapacity 8).acts? as = some b := rfl
  obtain ⟨-, hrun⟩ := @position_of_acts 8 (by decide) as
  obtain ⟨-, hunread, -, hadvance, -⟩ := hrun b hacts
  refine ⟨?_, b, hacts, hunread, (hadvance 10).1⟩
  exact (@position_of_acts 8 (by decide) _).1.mpr
    ⟨as, 18446744073709551615, [], b, rfl, hacts, by decide⟩

/-- **A program stops**: of eight bytes one is consumed and then as many as the largest word says,
which should leave none. -/
theorem stops_at_largest_word :
    let as : List Act := [.refill ⟨[1, 2, 3, 4, 5, 6, 7, 8], 8⟩, .advance 1]
    (∃ b, (ofCapacity 8).acts? as = some b ∧ b.position = 1 ∧ b.filled = 8 ∧
        min (b.position + 18446744073709551615) b.filled = 8) ∧
      (ofCapacity 8).acts? (as ++ [.advance 18446744073709551615]) = none := by
  exact ⟨⟨_, rfl, rfl, rfl, by decide⟩, by decide⟩

end TimeSeries.ReadBuffer
