import Mathlib.Data.Nat.Count
import TimeSeries.Proofs.Sample.RoundTrip

/-!
# The shape of a record

Which bytes are a record, and what row they give, said by the bytes alone. A record declares a
length, and the flags of its kind and its slot map call for one (`Bytes.Framed`); it is accepted
if both are the same and the bytes are there (`Header.parse_isOk_iff`). Slots are then filled by
rank: a slot whose bit is set gets the double of the tail that has as many before it as there are
set bits below the slot (`Bytes.slotValue`). A tail has exactly one double for each set bit
(`Bytes.Dealt`), so values never run out and none is left over.

Main result: `Header.parse_and_decodeRow`.
-/

namespace TimeSeries

namespace Bytes

/-! ### What the bytes say -/

section Fields

variable (bytes : Bytes)

/-- Whether a flag of the kind is set: 0 for a series, 4 for one value, 6 for a tuple. -/
def flag (i : Nat) : Bool := (bytes.field 24 2).testBit i

/-- The length that is declared for the whole record. -/
def declared : Nat := bytes.field 26 2

/-- The number of slots. -/
def slotCount : Nat := bytes.field 16 8 / 2 ^ 58

/-- Whether the bit of a slot is set. -/
def slotBit (i : Nat) : Bool := (bytes.field 16 8).testBit i

/-- **Rank** of a slot: the number of set bits below its own. -/
def rank (i : Nat) : Nat := Nat.count (fun j => bytes.slotBit j) i

/-- **The number of doubles that are called for**: none if there is one value or no tuple, else
one for each set bit of a slot, where only the first 58 slots have a bit. -/
def tailCount : Nat :=
  if bytes.flag 4 || !bytes.flag 6 then 0 else bytes.rank (min bytes.slotCount 58)

/-- A double of the tail. -/
def tailDouble (k : Nat) : Double := ⟨bytes.word (32 + 8 * k)⟩

/-- **The value of a slot**: the double at the rank of the slot if its bit is set, else NaN. -/
def slotValue (i : Nat) : Double :=
  if i < 58 ∧ bytes.slotBit i then bytes.tailDouble (bytes.rank i) else Double.nan

/-- **Framed**: a header is there, and the declared length is the one called for and is there. -/
structure Framed : Prop where
  /-- a header is there -/
  header_le : 32 ≤ bytes.length
  /-- what is declared is there -/
  declared_le : bytes.declared ≤ bytes.length
  /-- what is declared is what is called for -/
  declared_eq : bytes.declared = 32 + 8 * bytes.tailCount

instance : Decidable bytes.Framed :=
  decidable_of_iff
    (32 ≤ bytes.length ∧ bytes.declared ≤ bytes.length ∧
      bytes.declared = 32 + 8 * bytes.tailCount)
    ⟨fun ⟨header, le, eq⟩ => ⟨header, le, eq⟩, fun ⟨header, le, eq⟩ => ⟨header, le, eq⟩⟩

/-- **The row that is given**, with the name that the series has. -/
structure Gives (resolve : SeriesId → Option String) (row : Row) : Prop where
  /-- the series is looked up if there is one -/
  series : row.series = if bytes.flag 0 then resolve (bytes.word 8) else none
  /-- there is a name if there is a series -/
  series_isSome : row.series.isSome = bytes.flag 0
  /-- there is a timestamp if there is a series -/
  timestamp : row.timestamp = if bytes.flag 0 then some (bytes.word 0) else none
  /-- one value -/
  scalar : bytes.flag 4 = true → row.values = [⟨bytes.word 16⟩]
  /-- a tuple has a value for each slot -/
  length_tuple : bytes.flag 4 = false → bytes.flag 6 = true → row.values.length = bytes.slotCount
  /-- the values of a tuple -/
  tuple : bytes.flag 4 = false → bytes.flag 6 = true →
    ∀ i < bytes.slotCount, row.values[i]? = some (bytes.slotValue i)
  /-- no values -/
  bare : bytes.flag 4 = false → bytes.flag 6 = false → row.values = []

/-- **Dealt out**: the tail of a tuple has a double for every slot whose bit is set, and every
double of it goes to one. -/
structure Dealt (tail : Bytes) : Prop where
  /-- the doubles of the tail -/
  doubles_eq : doubles tail = (List.range bytes.tailCount).map bytes.tailDouble
  /-- a slot whose bit is set gets a double -/
  rank_lt : bytes.flag 4 = false → bytes.flag 6 = true →
    ∀ i < min bytes.slotCount 58, bytes.slotBit i = true → bytes.rank i < bytes.tailCount
  /-- a double goes to a slot whose bit is set -/
  exists_rank_eq : ∀ k < bytes.tailCount,
    ∃ i < min bytes.slotCount 58, bytes.slotBit i = true ∧ bytes.rank i = k

end Fields

/-! ### Fields are numbers of their width -/

section Widths

variable {bytes : Bytes}

theorem field_lt (bytes : Bytes) (pos width : Nat) : bytes.field pos width < 2 ^ (8 * width) := by
  have hlt := ofLE_lt ((bytes.drop pos).take width)
  have hlength : ((bytes.drop pos).take width).length ≤ width := by
    rw [List.length_take]
    exact Nat.min_le_left _ _
  rw [size, Nat.one_shiftLeft] at hlt
  exact Nat.lt_of_lt_of_le hlt (Nat.pow_le_pow_right (by decide) (Nat.mul_le_mul_left 8 hlength))

theorem toNat_word (bytes : Bytes) (pos : Nat) : (bytes.word pos).toNat = bytes.field pos 8 := by
  rw [word, UInt64.toNat_ofNat', Nat.mod_eq_of_lt (field_lt bytes pos 8)]

theorem toNat_short (bytes : Bytes) (pos : Nat) :
    (UInt16.ofNat (bytes.field pos 2)).toNat = bytes.field pos 2 := by
  rw [UInt16.toNat_ofNat', Nat.mod_eq_of_lt (field_lt bytes pos 2)]

/-- A field depends on the bytes up to its end only. -/
theorem field_take {pos width stop : Nat} (h : pos + width ≤ stop) (hstop : stop ≤ bytes.length) :
    field (bytes.take stop) pos width = bytes.field pos width := by
  have hlength : pos + width ≤ (bytes.take stop).length := by
    rw [List.length_take, Nat.min_eq_left hstop]
    exact h
  rw [← @field_append_left _ (bytes.drop stop) _ _ hlength, List.take_append_drop]

theorem word_take {pos stop : Nat} (h : pos + 8 ≤ stop) (hstop : stop ≤ bytes.length) :
    word (bytes.take stop) pos = bytes.word pos := by
  rw [word, word, field_take h hstop]

theorem word_drop (bytes : Bytes) (start pos : Nat) :
    word (bytes.drop start) pos = bytes.word (start + pos) := by
  rw [word, word, field, field, List.drop_drop]

/-- **A run of doubles**, eight bytes each. -/
theorem doubles_eq_map {count : Nat} (h : bytes.length = 8 * count) :
    doubles bytes = (List.range count).map fun k => ⟨bytes.word (8 * k)⟩ := by
  induction count generalizing bytes with
  | zero =>
    obtain rfl := List.length_eq_zero_iff.mp h
    rfl
  | succ count ih =>
    have hfirst : Bytes.ofWord (bytes.word 0) = bytes.take 8 := by
      have hlength : (bytes.take 8).length = 8 := by
        rw [List.length_take]
        omega
      have hbytes := toLE_ofLE (bytes.take 8)
      rw [hlength] at hbytes
      rw [ofWord, toNat_word, field, List.drop_zero, hbytes]
    have hrest : (bytes.drop 8).length = 8 * count := by
      rw [List.length_drop]
      omega
    have hdoubles := doubles_append ⟨bytes.word 0⟩ (bytes.drop 8)
    rw [hfirst, List.take_append_drop, ih hrest] at hdoubles
    rw [hdoubles, List.range_succ_eq_map, List.map_cons, List.map_map]
    refine congrArg _ (List.map_congr_left fun k _ => ?_)
    rw [word_drop, Function.comp_apply, Nat.mul_succ, Nat.add_comm]

end Widths

/-! ### Ranks -/

section Ranks

variable (bytes : Bytes)

theorem rank_succ (i : Nat) :
    bytes.rank (i + 1) = bytes.rank i + if bytes.slotBit i then 1 else 0 := Nat.count_succ _ i

/-- Below the rank of a position, every number is the rank of a slot whose bit is set. -/
theorem exists_rank_eq {stop k : Nat} (h : k < bytes.rank stop) :
    ∃ i < stop, bytes.slotBit i = true ∧ bytes.rank i = k := by
  induction stop with
  | zero => exact absurd h (Nat.not_lt_zero k)
  | succ stop ih =>
    rcases Nat.lt_or_ge k (bytes.rank stop) with hlt | hge
    · obtain ⟨i, hi, hbit⟩ := ih hlt
      exact ⟨i, Nat.lt_succ_of_lt hi, hbit⟩
    · -- the slot before the position is the one that makes the difference
      rw [rank_succ] at h
      cases hbit : bytes.slotBit stop with
      | false =>
        rw [hbit] at h
        exact absurd hge (Nat.not_le_of_lt h)
      | true =>
        rw [hbit] at h
        exact ⟨stop, Nat.lt_succ_self stop, hbit, Nat.le_antisymm hge (Nat.lt_succ_iff.mp h)⟩

end Ranks

end Bytes

/-! ### Slots by rank -/

theorem fillSlots_nil (present : Bool) (flags : List Bool) :
    fillSlots (present :: flags) [] = Double.nan :: fillSlots flags [] := by
  cases present <;> rfl

@[simp] theorem length_fillSlots (flags : List Bool) (ds : List Double) :
    (fillSlots flags ds).length = flags.length := by
  induction flags generalizing ds with
  | nil => rfl
  | cons present flags ih =>
    cases present with
    | false => rw [fillSlots_false, List.length_cons, List.length_cons, ih]
    | true =>
      cases ds with
      | nil => rw [fillSlots_nil, List.length_cons, List.length_cons, ih]
      | cons d ds => rw [fillSlots, List.length_cons, List.length_cons, ih]

/-- **A slot gets the value** that has as many before it as there are filled slots before. -/
theorem getElem?_fillSlots (flags : List Bool) (ds : List Double) (i : Nat) :
    (fillSlots flags ds)[i]? = flags[i]?.map fun present =>
      if present then ds.getD ((flags.take i).count true) Double.nan else Double.nan := by
  induction flags generalizing ds i with
  | nil => rfl
  | cons present flags ih =>
    cases present with
    | false =>
      rw [fillSlots_false]
      cases i with
      | zero => rfl
      | succ i => simp [ih]
    | true =>
      cases ds with
      | nil => cases i <;> simp [fillSlots_nil, ih]
      | cons d ds => cases i <;> simp [fillSlots, ih]

namespace SlotMap

@[simp] theorem length_slots (map : UInt64) : (slots map).length = count map := by
  rw [slots, List.length_map, List.length_range]

/-- The filled slots among the first few are counted by their bits. -/
theorem count_true_slots (map : UInt64) {i : Nat} (h : i ≤ count map) :
    ((slots map).take i).count true = Nat.count (fun j => present map j) i := by
  rw [slots, ← List.map_take, List.take_range, Nat.min_eq_left h, List.count, List.countP_map,
    Nat.count]
  exact List.countP_congr fun j _ => by simp

end SlotMap

namespace Header

open Bytes

variable {bytes : Bytes} {h : Header}

/-! ### The header of some bytes -/

theorem has_read (bytes : Bytes) (i : Nat) : (read bytes).kind.has i = bytes.flag i := by
  rw [Kind.has, read, toNat_short, flag]

theorem length_read (bytes : Bytes) : (read bytes).length = bytes.declared := by
  rw [length, read, toNat_short, declared]

theorem count_read (bytes : Bytes) : SlotMap.count (read bytes).value = bytes.slotCount := by
  rw [SlotMap.count, read, toNat_word, Nat.shiftRight_eq_div_pow, slotCount, maxSlots]

theorem present_read (bytes : Bytes) (i : Nat) :
    SlotMap.present (read bytes).value i = (decide (i < 58) && bytes.slotBit i) := by
  rw [SlotMap.present, read, toNat_word, slotBit, maxSlots]

/-- The filled slots before a position are the set bits before it that belong to slots. -/
theorem count_present_read (bytes : Bytes) (i : Nat) :
    Nat.count (fun j => SlotMap.present (read bytes).value j) i = bytes.rank (min i 58) := by
  induction i with
  | zero => rfl
  | succ i ih =>
    rw [Nat.count_succ, ih, present_read]
    rcases Nat.lt_or_ge i 58 with hlt | hge
    · rw [Nat.min_eq_left (Nat.le_of_lt hlt), Nat.min_eq_left hlt, rank_succ, decide_eq_true hlt,
        Bool.true_and]
    · rw [Nat.min_eq_right hge, Nat.min_eq_right (Nat.le_succ_of_le hge),
        decide_eq_false (Nat.not_lt.mpr hge), Bool.false_and]
      rfl

/-- The header calls for as many doubles as the bytes do. -/
theorem tailLength_read (bytes : Bytes) : (read bytes).tailLength = bytes.tailCount := by
  have hfilled : SlotMap.filled (read bytes).value = bytes.rank (min bytes.slotCount 58) := by
    have hcount := SlotMap.count_true_slots (read bytes).value (Nat.le_refl _)
    rw [SlotMap.filled, ← count_present_read, ← count_read, ← hcount, ← SlotMap.length_slots,
      List.take_length]
  rw [tailLength, Kind.isScalar, Kind.isTuple, has_read, has_read, hfilled, tailCount]
  cases bytes.flag 4 <;> cases bytes.flag 6 <;> rfl

/-- **Acceptance**, said by the bytes. -/
theorem parse_isOk_iff (bytes : Bytes) : (∃ h, parse bytes = .ok h) ↔ bytes.Framed := by
  constructor
  · rintro ⟨h, hparse⟩
    obtain ⟨hheader, rfl, hlength, hneeded⟩ := parse_eq_ok.mp hparse
    rw [length_read] at hlength hneeded
    rw [needed, tailLength_read] at hneeded
    exact ⟨hheader, hlength, hneeded⟩
  · rintro ⟨hheader, hlength, hneeded⟩
    refine ⟨read bytes, parse_eq_ok.mpr ⟨hheader, rfl, ?_, ?_⟩⟩
    · rw [length_read]
      exact hlength
    · rw [length_read, needed, tailLength_read]
      exact hneeded

/-! ### The tail -/

/-- The doubles in the tail of a framed record. -/
theorem doubles_tailBytes (hframed : bytes.Framed) :
    doubles ((read bytes).tailBytes bytes) =
      (List.range bytes.tailCount).map bytes.tailDouble := by
  obtain ⟨-, hle, heq⟩ := hframed
  have htail : (read bytes).tailBytes bytes = (bytes.take bytes.declared).drop 32 := by
    rw [tailBytes, length_read, if_pos hle, headerSize]
  have hlength : ((bytes.take bytes.declared).drop 32).length = 8 * bytes.tailCount := by
    rw [List.length_drop, List.length_take, Nat.min_eq_left hle]
    omega
  rw [htail, doubles_eq_map hlength]
  refine List.map_congr_left fun k hk => ?_
  have hk := List.mem_range.mp hk
  rw [word_drop, word_take (by omega) hle, tailDouble]

/-- **The tail is dealt out**, one double for each set bit. -/
theorem dealt (hframed : bytes.Framed) : bytes.Dealt ((read bytes).tailBytes bytes) := by
  have htuple : bytes.flag 4 = false → bytes.flag 6 = true →
      bytes.tailCount = bytes.rank (min bytes.slotCount 58) := by
    intro hscalar htuple
    rw [tailCount, hscalar, htuple]
    rfl
  refine ⟨doubles_tailBytes hframed, fun h4 h6 i hi hbit => ?_, fun k hk => ?_⟩
  · rw [htuple h4 h6]
    exact Nat.count_strict_mono hbit hi
  · rw [tailCount] at hk
    split at hk
    · exact absurd hk (Nat.not_lt_zero k)
    · exact bytes.exists_rank_eq hk

/-! ### The row -/

/-- **The values of a tuple**, slot by slot. -/
theorem getElem?_values (hframed : bytes.Framed) (h4 : bytes.flag 4 = false)
    (h6 : bytes.flag 6 = true) :
    ((read bytes).values bytes).length = bytes.slotCount ∧
      ∀ i < bytes.slotCount, ((read bytes).values bytes)[i]? = some (bytes.slotValue i) := by
  have hvalues : (read bytes).values bytes =
      fillSlots (SlotMap.slots (read bytes).value)
        ((List.range bytes.tailCount).map bytes.tailDouble) := by
    rw [values, Kind.isScalar, Kind.isTuple, has_read, has_read, h4, h6, doubles_tailBytes hframed]
    rfl
  rw [hvalues]
  refine ⟨?_, fun i hi => ?_⟩
  · rw [length_fillSlots, SlotMap.length_slots, count_read]
  have hslot : (SlotMap.slots (read bytes).value)[i]? =
      some (decide (i < 58) && bytes.slotBit i) := by
    rw [SlotMap.slots, List.getElem?_map, count_read, List.getElem?_range hi, Option.map_some,
      present_read]
  rw [getElem?_fillSlots, hslot, Option.map_some, SlotMap.count_true_slots _
    (by rw [count_read]; exact Nat.le_of_lt hi), count_present_read, slotValue]
  by_cases hset : i < 58 ∧ bytes.slotBit i
  · -- the bit is set: the double of the rank is there
    obtain ⟨hlt, hbit⟩ := hset
    have hrank := (dealt hframed).rank_lt h4 h6 i (Nat.lt_min.mpr ⟨hi, hlt⟩) hbit
    rw [decide_eq_true hlt, hbit, Bool.true_and, if_pos rfl, if_pos ⟨hlt, rfl⟩,
      Nat.min_eq_left (Nat.le_of_lt hlt), List.getD_eq_getElem?_getD, List.getElem?_map,
      List.getElem?_range hrank]
    rfl
  · have hclear : (decide (i < 58) && bytes.slotBit i) = false := by
      rw [Bool.eq_false_iff]
      exact fun hboth => hset (by simpa using hboth)
    rw [if_neg hset, hclear]
    rfl

/-- **The row of a framed record**: there is one, but for a series that has no name. -/
theorem decodeRow_read (hframed : bytes.Framed) (resolve : SeriesId → Option String) :
    (∀ id, (read bytes).decodeRow bytes resolve = .error id ↔
      id = bytes.word 8 ∧ bytes.flag 0 = true ∧ resolve id = none) ∧
    ∀ row, (read bytes).decodeRow bytes resolve = .ok row → bytes.Gives resolve row := by
  have hseries : (read bytes).kind.hasSeries = bytes.flag 0 := has_read bytes 0
  have hid : (read bytes).series = bytes.word 8 := rfl
  have hscalar : bytes.flag 4 = true → (read bytes).values bytes = [⟨bytes.word 16⟩] := by
    intro h4
    rw [values, Kind.isScalar, has_read, h4]
    rfl
  have hbare : bytes.flag 4 = false → bytes.flag 6 = false → (read bytes).values bytes = [] := by
    intro h4 h6
    rw [values, Kind.isScalar, Kind.isTuple, has_read, has_read, h4, h6]
    rfl
  rw [decodeRow, hseries, hid]
  cases hflag : bytes.flag 0 with
  | false =>
    refine ⟨fun id => ⟨fun h => (by cases h), fun h => (by cases h.2.1)⟩, ?_⟩
    rintro row ⟨⟩
    refine ⟨?_, ?_, ?_, hscalar, fun h4 h6 => (getElem?_values hframed h4 h6).1,
      fun h4 h6 => (getElem?_values hframed h4 h6).2, hbare⟩ <;> rw [hflag] <;> rfl
  | true =>
    rw [if_pos rfl]
    cases hname : resolve (bytes.word 8) with
    | none =>
      refine ⟨fun id => ⟨?_, ?_⟩, fun row h => by cases h⟩
      · rintro ⟨⟩
        exact ⟨rfl, rfl, hname⟩
      · rintro ⟨rfl, -, -⟩
        rfl
    | some name =>
      refine ⟨fun id => ⟨fun h => (by cases h), ?_⟩, ?_⟩
      · rintro ⟨rfl, -, hnone⟩
        cases hname.symm.trans hnone
      · rintro row ⟨⟩
        refine ⟨?_, ?_, ?_, hscalar, fun h4 h6 => (getElem?_values hframed h4 h6).1,
          fun h4 h6 => (getElem?_values hframed h4 h6).2, hbare⟩ <;> rw [hflag]
        · exact hname.symm
        · rfl
        · rfl

/-! ### What does not matter -/

/-- **Neither the unused bytes nor what stands behind a record** matter to it. -/
theorem parse_of_alike {other : Bytes} (hparse : parse bytes = .ok h)
    (hlength : bytes.declared ≤ other.length) (hhead : other.take 28 = bytes.take 28)
    (htail : (other.take bytes.declared).drop 32 = (bytes.take bytes.declared).drop 32) :
    parse other = .ok h ∧
      ∀ resolve, h.decodeRow other resolve = h.decodeRow bytes resolve := by
  obtain ⟨hheader, rfl, hle, hneeded⟩ := parse_eq_ok.mp hparse
  have hsize : headerSize ≤ bytes.declared := by
    rw [← length_read]
    exact headerSize_le_length hparse
  rw [headerSize] at hheader hsize
  have hfield : ∀ {pos width : Nat}, pos + width ≤ 28 →
      other.field pos width = bytes.field pos width := by
    intro pos width hstop
    rw [← field_take hstop (by omega), hhead, field_take hstop (by omega)]
  have hread : read other = read bytes := by
    rw [read, read, word, word, word, word, word, word, hfield (by omega), hfield (by omega),
      hfield (by omega), hfield (by omega), hfield (by omega)]
  have htailBytes : (read bytes).tailBytes other = (read bytes).tailBytes bytes := by
    rw [tailBytes, tailBytes, if_pos hle, length_read, if_pos hlength, headerSize, htail]
  refine ⟨parse_eq_ok.mpr ⟨?_, hread, ?_, hneeded⟩, fun resolve => ?_⟩
  · rw [headerSize]
    omega
  · rw [length_read]
    exact hlength
  · rw [decodeRow, decodeRow, values, values, htailBytes]

/-! ### All of it -/

/-- **Acceptance and shape of a record.** Bytes are accepted just if they are framed, and else
there is a fault at the offset at hand. What is accepted gives a row, unless it has a series
without a name; its series, timestamp and values are those that the bytes say, every double of the
tail goes to a slot and no slot lacks one. The unused bytes and those behind the record do not
matter. -/
theorem parse_and_decodeRow (bytes : Bytes) (offset : Nat) :
    ((∃ h, (parse bytes).mapError (Failure.corruptRecord offset) = .ok h) ↔ bytes.Framed) ∧
    (¬bytes.Framed → ∃ fault,
      (parse bytes).mapError (Failure.corruptRecord offset) =
        .error (.corruptRecord offset fault)) ∧
    ∀ h, (parse bytes).mapError (Failure.corruptRecord offset) = .ok h →
      (∀ resolve,
        (∀ id, h.decodeRow bytes resolve = .error id ↔
          id = bytes.word 8 ∧ bytes.flag 0 = true ∧ resolve id = none) ∧
        ∀ row, h.decodeRow bytes resolve = .ok row → bytes.Gives resolve row) ∧
      bytes.Dealt (h.tailBytes bytes) ∧
      ∀ other : Bytes, bytes.declared ≤ other.length → other.take 28 = bytes.take 28 →
        (other.take bytes.declared).drop 32 = (bytes.take bytes.declared).drop 32 →
        (parse other).mapError (Failure.corruptRecord offset) = .ok h ∧
          ∀ resolve, h.decodeRow other resolve = h.decodeRow bytes resolve := by
  have hok : ∀ {b : Bytes} {h : Header},
      (parse b).mapError (Failure.corruptRecord offset) = .ok h ↔ parse b = .ok h := by
    intro b h
    rcases parse b with fault | h'
    · constructor <;> rintro ⟨⟩
    · constructor <;> rintro ⟨⟩ <;> rfl
  simp only [hok]
  refine ⟨parse_isOk_iff bytes, fun hframed => ?_, fun h hparse => ?_⟩
  · rcases hparse : parse bytes with fault | h
    · exact ⟨fault, rfl⟩
    · exact absurd ((parse_isOk_iff bytes).mp ⟨h, hparse⟩) hframed
  · have hframed := (parse_isOk_iff bytes).mp ⟨h, hparse⟩
    have hread := (parse_eq_ok.mp hparse).2.1
    refine ⟨fun resolve => ?_, ?_, fun other hlength hhead htail =>
      parse_of_alike hparse hlength hhead htail⟩
    · rw [← hread]
      exact decodeRow_read hframed resolve
    · rw [← hread]
      exact dealt hframed

/-- A tuple of three slots, the first and the last with a value, and a stray bit behind them. -/
def strayBit : Bytes :=
  write ⟨9, 1, UInt64.ofNat (3 * 2 ^ 58 + 0b100101), Kind.tuple, 48⟩ ++
    (Bytes.ofWord 5 ++ Bytes.ofWord 6)

/-- No bytes are no record. A tuple with a stray bit is one, and the bit gets no double. -/
theorem parse_and_decodeRow_strayBit :
    (¬Framed [] ∧ ∃ fault, (parse []).mapError (Failure.corruptRecord 3) =
      .error (.corruptRecord 3 fault)) ∧
    ∃ h row, (parse strayBit).mapError (Failure.corruptRecord 3) = .ok h ∧
      h.decodeRow strayBit (fun _ => some "a") = .ok row ∧
      strayBit.Gives (fun _ => some "a") row ∧ strayBit.flag 4 = false ∧ strayBit.flag 6 = true ∧
      strayBit.slotCount = 3 ∧
      (List.range 3).map strayBit.slotValue = [⟨5⟩, Double.nan, ⟨6⟩] ∧
      h.decodeRow strayBit (fun _ => none) = .error 1 ∧ strayBit.Dealt (h.tailBytes strayBit) ∧
      strayBit.declared ≤ (strayBit ++ [1]).length ∧
      (strayBit ++ [1]).take 28 = strayBit.take 28 ∧
      ((strayBit ++ [1]).take strayBit.declared).drop 32 =
        (strayBit.take strayBit.declared).drop 32 ∧
      (parse (strayBit ++ [1])).mapError (Failure.corruptRecord 3) = .ok h := by
  have hempty : ¬Framed [] := by decide
  have hframed : strayBit.Framed := by decide +kernel
  obtain ⟨hok, -, hshape⟩ := parse_and_decodeRow strayBit 3
  obtain ⟨h, hparse⟩ := hok.mpr hframed
  obtain ⟨hrow, hdealt, halike⟩ := hshape h hparse
  have hlength : strayBit.declared ≤ (strayBit ++ [1]).length := by decide +kernel
  have hhead : (strayBit ++ [1]).take 28 = strayBit.take 28 := by decide +kernel
  have htail : ((strayBit ++ [1]).take strayBit.declared).drop 32 =
      (strayBit.take strayBit.declared).drop 32 := by decide +kernel
  have hnone : h.decodeRow strayBit (fun _ => none) = .error 1 :=
    ((hrow fun _ => none).1 1).mpr (by decide +kernel)
  refine ⟨⟨hempty, (parse_and_decodeRow [] 3).2.1 hempty⟩, h, ?_⟩
  rcases hdecode : h.decodeRow strayBit (fun _ => some "a") with id | row
  · cases (((hrow fun _ => some "a").1 id).mp hdecode).2.2
  · exact ⟨row, hparse, rfl, (hrow fun _ => some "a").2 row hdecode, by decide +kernel,
      by decide +kernel, by decide +kernel, by decide +kernel, hnone, hdealt, hlength, hhead, htail,
      (halike (strayBit ++ [1]) hlength hhead htail).1⟩

end Header

end TimeSeries
