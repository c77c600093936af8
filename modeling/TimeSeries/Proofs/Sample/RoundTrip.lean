import TimeSeries.Failure
import TimeSeries.Proofs.Sample.Framing
import TimeSeries.Sample.Record

/-!
# Records are read back

What an engine encodes, a reader decodes to the same values. The slot map of a tuple
says of each slot whether it has a value (`Record.slots_slotMap`), the tail holds the
values that are there, and `fillSlots` deals them out again (`fillSlots_filterMap`).

Main results: `Record.parse_encode` — an encoded record is accepted at its own length,
which is at most `maxRecordSize` (`Record.length_encode_le`) — and
`Record.decodeRow_encode`, which gives the row.
-/

namespace TimeSeries

/-! ### Flags of the three kinds -/

namespace Kind

@[simp] theorem hasSeries_scalar : scalar.hasSeries = true := by decide
@[simp] theorem hasSeries_tuple : tuple.hasSeries = true := by decide
@[simp] theorem hasSeries_seriesOnly : seriesOnly.hasSeries = true := by decide
@[simp] theorem isScalar_scalar : scalar.isScalar = true := by decide
@[simp] theorem isScalar_tuple : tuple.isScalar = false := by decide
@[simp] theorem isScalar_seriesOnly : seriesOnly.isScalar = false := by decide
@[simp] theorem isTuple_tuple : tuple.isTuple = true := by decide
@[simp] theorem isTuple_seriesOnly : seriesOnly.isTuple = false := by decide

end Kind

/-! ### Doubles in a tail -/

theorem doubles_append (d : Double) (rest : Bytes) :
    doubles (Bytes.ofWord d.bits ++ rest) = d :: doubles rest := by
  have hword := Bytes.ofNat_ofLE_ofWord d.bits
  simp only [Bytes.ofWord, Bytes.toLE, List.cons_append, List.nil_append] at hword ⊢
  rw [doubles, hword]

/-- The doubles of a tail are read back. -/
theorem doubles_flatMap (ds : List Double) :
    doubles (ds.flatMap fun d => Bytes.ofWord d.bits) = ds := by
  induction ds with
  | nil => rfl
  | cons d ds ih => rw [List.flatMap_cons, doubles_append, ih]

theorem fillSlots_false (flags : List Bool) (ds : List Double) :
    fillSlots (false :: flags) ds = Double.nan :: fillSlots flags ds := by
  cases ds <;> rfl

/-- Values are dealt out to the slots they came from; the others are NaN. -/
theorem fillSlots_filterMap (slots : List (Option Double)) :
    fillSlots (slots.map Option.isSome) (slots.filterMap id) =
      slots.map fun slot => slot.getD Double.nan := by
  induction slots with
  | nil => rfl
  | cons slot slots ih =>
    cases slot with
    | none =>
      have hrest : (none :: slots).filterMap id = slots.filterMap id := rfl
      rw [hrest, List.map_cons, List.map_cons, Option.isSome_none, fillSlots_false, ih,
        Option.getD_none]
    | some d =>
      have hrest : (some d :: slots).filterMap id = d :: slots.filterMap id := rfl
      rw [hrest, List.map_cons, List.map_cons, Option.isSome_some, fillSlots, ih, Option.getD_some]

namespace Record

/-! ### Slot maps -/

/-- The bits of some slots do not reach into the count. -/
theorem presence_lt {slots : List (Option Double)} (h : slots.length ≤ maxSlots) :
    presence slots < 1 <<< maxSlots := by
  have hlt : presence slots < 2 ^ slots.length := by
    clear h
    induction slots with
    | nil => exact Nat.one_pos
    | cons slot slots ih =>
      rw [presence, List.length_cons, Nat.pow_succ]
      split <;> omega
  rw [Nat.one_shiftLeft]
  exact Nat.lt_of_lt_of_le hlt (Nat.pow_le_pow_right (by decide) h)

/-- The bit of a position is set if there is a slot and it has a value. -/
theorem testBit_presence (slots : List (Option Double)) (i : Nat) :
    (presence slots).testBit i = slots[i]?.join.isSome := by
  induction slots generalizing i with
  | nil => exact Nat.zero_testBit i
  | cons slot slots ih =>
    rw [presence]
    cases i with
    | zero =>
      rw [Nat.testBit_zero, List.getElem?_cons_zero]
      cases slot <;> simp
    | succ i =>
      have hdiv : ((if slot.isSome then 1 else 0) + 2 * presence slots) / 2 = presence slots := by
        split <;> omega
      rw [Nat.testBit_succ, hdiv, List.getElem?_cons_succ, ih]

/-- The word of a slot map holds count and bits next to each other. -/
theorem toNat_slotMap {slots : List (Option Double)} (h : slots.length ≤ maxSlots) :
    (slotMap slots).toNat = (slots.length <<< maxSlots) + presence slots := by
  have hpresence := presence_lt h
  have hlength : slots.length ≤ 58 := h
  have hword : (slots.length <<< maxSlots) + presence slots < UInt64.size := by
    rw [maxSlots, Nat.one_shiftLeft] at hpresence
    rw [maxSlots, Nat.shiftLeft_eq, UInt64.size]
    omega
  rw [slotMap, UInt64.toNat_ofNat', Nat.mod_eq_of_lt hword]

/-- **A slot map has the number of its slots**, and a bit for just those that have a value. -/
theorem count_and_present_slotMap {slots : List (Option Double)} (h : slots.length ≤ maxSlots) :
    SlotMap.count (slotMap slots) = slots.length ∧
      ∀ i < maxSlots, SlotMap.present (slotMap slots) i = slots[i]?.join.isSome := by
  have hpresence : presence slots < 2 ^ maxSlots := by
    rw [← Nat.one_shiftLeft]
    exact presence_lt h
  have hword : (slotMap slots).toNat = 2 ^ maxSlots * slots.length + presence slots := by
    rw [toNat_slotMap h, Nat.shiftLeft_eq, Nat.mul_comm]
  refine ⟨?_, fun i hi => ?_⟩
  · rw [SlotMap.count, hword, Nat.shiftRight_eq_div_pow, Nat.mul_add_div (Nat.two_pow_pos maxSlots),
      Nat.div_eq_of_lt hpresence, Nat.add_zero]
  · rw [SlotMap.present, hword, Nat.testBit_two_pow_mul_add _ hpresence, if_pos hi,
      testBit_presence, decide_eq_true hi, Bool.true_and]

/-- **A slot map is read back**: it says of each slot whether it has a value. -/
theorem slots_slotMap {slots : List (Option Double)} (h : slots.length ≤ maxSlots) :
    SlotMap.slots (slotMap slots) = slots.map Option.isSome := by
  obtain ⟨hcount, hpresent⟩ := count_and_present_slotMap h
  apply List.ext_getElem
  · rw [SlotMap.slots, hcount, List.length_map, List.length_range, List.length_map]
  · intro i hi hi'
    rw [List.length_map] at hi'
    simp only [SlotMap.slots, List.getElem_map, List.getElem_range]
    rw [hpresent i (Nat.lt_of_lt_of_le hi' h), List.getElem?_eq_getElem hi', Option.join_some]

/-- As many slots count as filled as there are values. -/
theorem filled_slotMap {slots : List (Option Double)} (h : slots.length ≤ maxSlots) :
    SlotMap.filled (slotMap slots) = (slots.filterMap id).length := by
  rw [SlotMap.filled, slots_slotMap h]
  clear h
  induction slots with
  | nil => rfl
  | cons slot slots ih => cases slot <;> simp [ih]

/-! ### Lengths -/

/-- There are no more values than slots. -/
theorem length_filterMap_id_le (slots : List (Option Double)) :
    (slots.filterMap id).length ≤ slots.length := List.length_filterMap_le id slots

theorem length_header (r : Record) (h : r.Encodable) :
    r.header.length = headerSize + 8 * r.tail.length := by
  cases r with
  | scalar series timestamp value => rfl
  | seriesOnly series => rfl
  | tuple series timestamp slots =>
    have hslots : slots.length ≤ 58 := h
    have hvalues := length_filterMap_id_le slots
    have hsize : headerSize + 8 * (slots.filterMap id).length < 2 ^ 16 := by
      rw [headerSize]
      omega
    rw [header, Header.length, tail, UInt16.toNat_ofNat', Nat.mod_eq_of_lt hsize]

theorem length_encode (r : Record) : r.encode.length = headerSize + 8 * r.tail.length := by
  have htail : ∀ ds : List Double,
      (ds.flatMap fun d => Bytes.ofWord d.bits).length = 8 * ds.length := by
    intro ds
    induction ds with
    | nil => rfl
    | cons d ds ih =>
      rw [List.flatMap_cons, List.length_append, ih, Bytes.length_ofWord, List.length_cons]
      omega
  rw [encode, List.length_append, Header.length_write, htail]

/-- **No record is larger** than the largest. -/
theorem length_encode_le {r : Record} (h : r.Encodable) : r.encode.length ≤ maxRecordSize := by
  have htail : r.tail.length ≤ maxSlots := by
    cases r with
    | scalar series timestamp value => exact Nat.zero_le _
    | seriesOnly series => exact Nat.zero_le _
    | tuple series timestamp slots => exact Nat.le_trans (length_filterMap_id_le slots) h
  rw [length_encode, maxRecordSize]
  omega

/-- A record calls for as many doubles as it has. -/
theorem tailLength_header {r : Record} (h : r.Encodable) :
    r.header.tailLength = r.tail.length := by
  cases r with
  | scalar series timestamp value => simp [Header.tailLength, header, tail]
  | seriesOnly series => simp [Header.tailLength, header, tail]
  | tuple series timestamp slots =>
    have hfilled := @filled_slotMap slots h
    simp [Header.tailLength, header, tail, hfilled]

/-! ### Whole records -/

/-- **An encoded record is accepted**, with the header it was written with. -/
theorem parse_encode {r : Record} (h : r.Encodable) : Header.parse r.encode = .ok r.header := by
  have hlength : r.encode.length = r.header.length := by rw [length_encode, length_header r h]
  refine Header.parse_eq_ok.mpr ⟨?_, ?_, Nat.le_of_eq hlength.symm, ?_⟩
  · rw [length_encode]
    omega
  · rw [encode, Header.read_write]
  · rw [length_header r h, Header.needed, tailLength_header h]

@[simp] theorem series_header (r : Record) : r.header.series = r.series := by
  cases r <;> rfl

@[simp] theorem timestamp_header (r : Record) : r.header.timestamp = r.timestamp := by
  cases r <;> rfl

@[simp] theorem hasSeries_header (r : Record) : r.header.kind.hasSeries = true := by
  cases r <;> simp [header]

theorem values_header {r : Record} (h : r.Encodable) : r.header.values r.encode = r.values := by
  cases r with
  | scalar series timestamp value => simp [Header.values, header, values]
  | seriesOnly series => simp [Header.values, header, values]
  | tuple series timestamp slots =>
    have hlength : (tuple series timestamp slots).header.length =
        (tuple series timestamp slots).encode.length := by
      rw [length_encode, length_header _ h]
    have htail : (tuple series timestamp slots).header.tailBytes
        (tuple series timestamp slots).encode =
          (slots.filterMap id).flatMap fun d => Bytes.ofWord d.bits := by
      rw [Header.tailBytes, if_pos (Nat.le_of_eq hlength), hlength, List.take_length, encode,
        ← Header.length_write (tuple series timestamp slots).header, List.drop_left, tail]
    have hslots : SlotMap.slots (tuple series timestamp slots).header.value =
        slots.map Option.isSome := slots_slotMap h
    have hkind : (tuple series timestamp slots).header.kind = Kind.tuple := rfl
    rw [Header.values, hkind, Kind.isScalar_tuple, Kind.isTuple_tuple, htail, hslots,
      doubles_flatMap, fillSlots_filterMap]
    rfl

/-- **The row of an encoded record** whose series has a name. -/
theorem decodeRow_encode {r : Record} (h : r.Encodable) {resolve : SeriesId → Option String}
    {name : String} (hname : resolve r.series = some name) :
    r.header.decodeRow r.encode resolve = .ok ⟨some name, some r.timestamp, r.values⟩ := by
  rw [Header.decodeRow, hasSeries_header, if_pos rfl, series_header, hname, timestamp_header,
    values_header h]

end Record

end TimeSeries
