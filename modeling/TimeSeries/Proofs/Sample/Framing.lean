import TimeSeries.Sample.Decode

/-!
# Framing: where a record ends

A header is read from the front of whatever bytes it begins, and what it says settles
where its record ends. `Header.read_write` reads a header back from its own bytes;
`Header.parse_eq_ok` says which bytes are accepted. From that follow the two facts a
reader of a stream relies on: what stands behind a record changes neither whether it is
accepted (`Header.parse_append`) nor the row it gives (`Header.decodeRow_append`).
-/

namespace TimeSeries

/-! ### Fields of a header -/

namespace Bytes

/-- A field is read from wherever it stands among other bytes. -/
theorem field_append {before mid after : Bytes} {pos width : Nat} (hpos : before.length = pos)
    (hwidth : mid.length = width) : field (before ++ (mid ++ after)) pos width = ofLE mid := by
  subst hpos hwidth
  rw [field, List.drop_left, List.take_left]

/-- Bytes behind a field do not matter to it. -/
theorem field_append_left {bytes after : Bytes} {pos width : Nat}
    (h : pos + width ≤ bytes.length) :
    field (bytes ++ after) pos width = field bytes pos width := by
  have hpos : pos ≤ bytes.length := by omega
  have hwidth : width ≤ (bytes.drop pos).length := by rw [List.length_drop]; omega
  rw [field, field, List.drop_append_of_le_length hpos, List.take_append_of_le_length hwidth]

theorem word_append_left {bytes after : Bytes} {pos : Nat} (h : pos + 8 ≤ bytes.length) :
    word (bytes ++ after) pos = word bytes pos := by
  rw [word, word, field_append_left h]

@[simp] theorem length_ofWord (w : UInt64) : (ofWord w).length = 8 := length_toLE 8 w.toNat

/-- A word is read back from its bytes. -/
theorem ofNat_ofLE_ofWord (w : UInt64) : UInt64.ofNat (ofLE (ofWord w)) = w := by
  have hw : w.toNat < size 8 := w.toNat_lt
  rw [ofWord, ofLE_toLE, Nat.mod_eq_of_lt hw, UInt64.ofNat_toNat]

theorem word_append {before after : Bytes} {pos : Nat} (w : UInt64) (hpos : before.length = pos) :
    word (before ++ (ofWord w ++ after)) pos = w := by
  rw [word, field_append hpos (length_ofWord w), ofNat_ofLE_ofWord]

theorem word_zero (w : UInt64) (after : Bytes) : word (ofWord w ++ after) 0 = w :=
  @word_append [] after 0 w rfl

/-- A field of two bytes is read back. -/
theorem ofNat_ofLE_toLE (n : UInt16) : UInt16.ofNat (ofLE (toLE 2 n.toNat)) = n := by
  have hn : n.toNat < size 2 := n.toNat_lt
  rw [ofLE_toLE, Nat.mod_eq_of_lt hn, UInt16.ofNat_toNat]

end Bytes

namespace Header

@[simp] theorem length_write (h : Header) : h.write.length = headerSize := by
  simp [write, headerSize]

/-- **A header is read back** from the bytes it is written as. -/
theorem read_write (h : Header) (after : Bytes) : read (h.write ++ after) = h := by
  obtain ⟨timestamp, series, value, ⟨flags⟩, size⟩ := h
  have htimestamp : (Header.write ⟨timestamp, series, value, ⟨flags⟩, size⟩ ++ after).word 0 =
      timestamp := by
    simp only [write, List.append_assoc]
    exact Bytes.word_zero timestamp _
  have hseries : (Header.write ⟨timestamp, series, value, ⟨flags⟩, size⟩ ++ after).word 8 =
      series := by
    simp only [write, List.append_assoc]
    exact Bytes.word_append series (by simp)
  have hvalue : (Header.write ⟨timestamp, series, value, ⟨flags⟩, size⟩ ++ after).word 16 =
      value := by
    simp only [write, List.append_assoc]
    rw [← List.append_assoc]
    exact Bytes.word_append value (by simp)
  have hflags : (Header.write ⟨timestamp, series, value, ⟨flags⟩, size⟩ ++ after).field 24 2 =
      Bytes.ofLE (Bytes.toLE 2 flags.toNat) := by
    simp only [write, List.append_assoc]
    rw [← List.append_assoc, ← List.append_assoc]
    exact Bytes.field_append (by simp) (by simp)
  have hsize : (Header.write ⟨timestamp, series, value, ⟨flags⟩, size⟩ ++ after).field 26 2 =
      Bytes.ofLE (Bytes.toLE 2 size.toNat) := by
    simp only [write, List.append_assoc]
    rw [← List.append_assoc, ← List.append_assoc, ← List.append_assoc]
    exact Bytes.field_append (by simp) (by simp)
  rw [read, htimestamp, hseries, hvalue, hflags, hsize, Bytes.ofNat_ofLE_toLE,
    Bytes.ofNat_ofLE_toLE]

/-- The header at the front of some bytes depends on the first of them only. -/
theorem read_append {bytes : Bytes} (after : Bytes) (h : headerSize ≤ bytes.length) :
    read (bytes ++ after) = read bytes := by
  rw [headerSize] at h
  rw [read, read, Bytes.word_append_left (by omega), Bytes.word_append_left (by omega),
    Bytes.word_append_left (by omega), Bytes.field_append_left (by omega),
    Bytes.field_append_left (by omega)]

/-- **What is accepted**: the header is all there, it declares the length its contents
call for, and so many bytes are at hand. -/
theorem parse_eq_ok {bytes : Bytes} {h : Header} :
    parse bytes = .ok h ↔
      headerSize ≤ bytes.length ∧ read bytes = h ∧ h.length ≤ bytes.length ∧
        h.length = h.needed := by
  rw [parse]
  constructor
  · intro hp
    split at hp
    next => cases hp
    next hsize =>
      dsimp only at hp
      split at hp
      next => cases hp
      next =>
        split at hp
        next => cases hp
        next hover =>
          split at hp
          next => cases hp
          next hneeded =>
            cases hp
            exact ⟨by omega, rfl, by omega, Classical.not_not.mp hneeded⟩
  · rintro ⟨hsize, rfl, hover, hneeded⟩
    have hunder : headerSize ≤ (read bytes).length := by rw [hneeded, needed]; omega
    rw [if_neg (by omega)]
    dsimp only
    rw [if_neg (by omega), if_neg (by omega), if_neg (Classical.not_not.mpr hneeded)]

/-- An accepted record is at least a header long. -/
theorem headerSize_le_length {bytes : Bytes} {h : Header} (hp : parse bytes = .ok h) :
    headerSize ≤ h.length := by
  obtain ⟨-, -, -, hneeded⟩ := parse_eq_ok.mp hp
  rw [hneeded, needed]
  omega

/-- An accepted record is all there. -/
theorem length_le_of_parse {bytes : Bytes} {h : Header} (hp : parse bytes = .ok h) :
    h.length ≤ bytes.length :=
  (parse_eq_ok.mp hp).2.2.1

/-- **Framing**: a header that is accepted is accepted whatever follows. -/
theorem parse_append {bytes : Bytes} {h : Header} (after : Bytes) (hp : parse bytes = .ok h) :
    parse (bytes ++ after) = .ok h := by
  obtain ⟨hsize, hread, hlength, hneeded⟩ := parse_eq_ok.mp hp
  have happend : (bytes ++ after).length = bytes.length + after.length := List.length_append
  exact parse_eq_ok.mpr
    ⟨by omega, by rw [read_append after hsize, hread], by omega, hneeded⟩

/-- The row of a record that is all there does not depend on what follows. -/
theorem decodeRow_append {record : Bytes} {h : Header} (after : Bytes)
    (resolve : SeriesId → Option String) (hlength : h.length ≤ record.length) :
    h.decodeRow (record ++ after) resolve = h.decodeRow record resolve := by
  have htail : h.tailBytes (record ++ after) = h.tailBytes record := by
    have happend : h.length ≤ (record ++ after).length := by rw [List.length_append]; omega
    rw [tailBytes, tailBytes, if_pos hlength, if_pos happend,
      List.take_append_of_le_length hlength]
  have hvalues : h.values (record ++ after) = h.values record := by
    rw [values, values, htail]
  rw [decodeRow, decodeRow, hvalues]

end Header

end TimeSeries
