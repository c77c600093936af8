import TimeSeries.Proofs.Sample.Shape

/-!
# Streams of records are read back

Records that are written one behind the other are read back one after the other, wherever the
first of them stands and whatever stands behind the last. One record is decoded at its offset
(`Record.decodeAt_encode`), with a length that is the one of its bytes; so the next one is decoded
at the next offset, and the induction is on the records. What stands before the records grows by
a record with each step.

Main result: `Record.walkStream_flatMap_encode`.
-/

namespace TimeSeries

namespace Record

/-! ### Slot maps among bytes -/

/-- **The slot map in the bytes of a tuple** has the number of its slots, and a bit for just the
slots that have a value. -/
theorem slotMap_encode (series : SeriesId) (timestamp : Timestamp) {slots : List (Option Double)}
    (h : slots.length ≤ maxSlots) :
    (tuple series timestamp slots).encode.slotCount = slots.length ∧
      ∀ i < maxSlots,
        (tuple series timestamp slots).encode.slotBit i = slots[i]?.join.isSome := by
  have hvalue : (Header.read (tuple series timestamp slots).encode).value = slotMap slots := by
    rw [encode, Header.read_write]
    rfl
  obtain ⟨hcount, hpresent⟩ := count_and_present_slotMap h
  refine ⟨?_, fun i hi => ?_⟩
  · rw [← Header.count_read, hvalue, hcount]
  · have hi' : i < 58 := hi
    rw [← hpresent i hi, ← hvalue, Header.present_read, decide_eq_true hi', Bool.true_and]

/-! ### One record among other bytes -/

/-- The row that a record reads as. -/
def row (resolve : SeriesId → Option String) (r : Record) : Row :=
  ⟨resolve r.series, some r.timestamp, r.values⟩

/-- **A record is decoded where it stands**, with the length of its bytes. -/
theorem decodeAt_encode {r : Record} {resolve : SeriesId → Option String} (h : r.Encodable)
    (hname : (resolve r.series).isSome) (before after : Bytes) :
    decodeAt (before ++ (r.encode ++ after)) before.length resolve =
      .ok (r.row resolve, r.encode.length) := by
  obtain ⟨name, hname⟩ := Option.isSome_iff_exists.mp hname
  have hlength : r.header.length = r.encode.length := by
    rw [length_header r h, length_encode]
  have hparse : Header.parseAt (before ++ (r.encode ++ after)) before.length = .ok r.header := by
    rw [Header.parseAt, List.drop_left, Header.parse_append after (parse_encode h)]
    rfl
  have hrow : r.header.decodeRow (r.encode ++ after) resolve = .ok (r.row resolve) := by
    rw [Header.decodeRow_append after resolve (Nat.le_of_eq hlength), decodeRow_encode h hname,
      row, hname]
  rw [decodeAt, hparse, List.drop_left]
  dsimp only
  rw [hrow, hlength]

/-! ### Streams -/

/-- **A walk over records** gives their rows, and goes on behind them. -/
theorem walkStream_append {records : List Record} {resolve : SeriesId → Option String}
    (hencodable : ∀ r ∈ records, r.Encodable) (hnames : ∀ r ∈ records, (resolve r.series).isSome)
    (before after : Bytes) (fuel : Nat) :
    walkStream (before ++ (records.flatMap encode ++ after)) resolve (records.length + fuel)
        before.length =
      let rest := walkStream (before ++ (records.flatMap encode ++ after)) resolve fuel
        (before.length + (records.flatMap encode).length)
      (records.map (row resolve) ++ rest.1, rest.2) := by
  induction records generalizing before with
  | nil => simp
  | cons r records ih =>
    -- what stands before the other records has the first one in it
    have hrest := ih (fun r' hr' => hencodable r' (List.mem_cons_of_mem r hr'))
      (fun r' hr' => hnames r' (List.mem_cons_of_mem r hr')) (before ++ r.encode)
    have hdecode := decodeAt_encode (hencodable r List.mem_cons_self)
      (hnames r List.mem_cons_self) before (records.flatMap encode ++ after)
    have hbytes : before ++ ((r :: records).flatMap encode ++ after) =
        before ++ (r.encode ++ (records.flatMap encode ++ after)) := by
      rw [List.flatMap_cons, List.append_assoc]
    have hinside : ¬(before ++ (r.encode ++ (records.flatMap encode ++ after))).length ≤
        before.length := by
      rw [List.length_append, List.length_append, length_encode, headerSize]
      omega
    have hfuel : (r :: records).length + fuel = records.length + fuel + 1 := by
      rw [List.length_cons, Nat.add_right_comm]
    rw [List.append_assoc, List.length_append] at hrest
    rw [hbytes, hfuel, walkStream, if_neg hinside, hdecode]
    dsimp only
    rw [hrest, List.flatMap_cons, List.length_append, Nat.add_assoc]
    rfl

/-- **A stream of records is read back**, from where the first stands to behind the last: the rows
are those of the records in order, with the names of their series, and the end is reached without
a failure. With more steps to go, the walk continues there with whatever stands behind. No record
is longer than the largest, and the slot map of a tuple has a bit for just the slots that have a
value. -/
theorem walkStream_flatMap_encode {records : List Record} {resolve : SeriesId → Option String}
    (hencodable : ∀ r ∈ records, r.Encodable) (hnames : ∀ r ∈ records, (resolve r.series).isSome)
    (before after : Bytes) :
    walkStream (before ++ (records.flatMap encode ++ after)) resolve records.length
        before.length =
      (records.map (row resolve), none, before.length + (records.flatMap encode).length) ∧
    (∀ fuel, walkStream (before ++ (records.flatMap encode ++ after)) resolve
        (records.length + fuel) before.length =
      let rest := walkStream (before ++ (records.flatMap encode ++ after)) resolve fuel
        (before.length + (records.flatMap encode).length)
      (records.map (row resolve) ++ rest.1, rest.2)) ∧
    ∀ r ∈ records, r.encode.length ≤ maxRecordSize ∧
      ∀ series timestamp slots, r = tuple series timestamp slots →
        r.encode.slotCount = slots.length ∧
        ∀ i < maxSlots, r.encode.slotBit i = slots[i]?.join.isSome := by
  have hwalk := walkStream_append hencodable hnames before after
  refine ⟨?_, hwalk, fun r hr => ⟨length_encode_le (hencodable r hr), ?_⟩⟩
  · have hend := hwalk 0
    rw [walkStream, Nat.add_zero] at hend
    dsimp only at hend
    rw [List.append_nil] at hend
    exact hend
  · rintro series timestamp slots rfl
    exact slotMap_encode series timestamp (hencodable _ hr)

/-- Three records between other bytes: a value, a tuple with a slot that has none, and a series. -/
theorem walkStream_flatMap_encode_three :
    let records := [scalar 1 5 ⟨7⟩, tuple 2 6 [some ⟨8⟩, none], seriesOnly 3]
    let resolve : SeriesId → Option String := fun id => some (toString id)
    (∀ r ∈ records, r.Encodable) ∧ (∀ r ∈ records, (resolve r.series).isSome) ∧
      walkStream ([1] ++ (records.flatMap encode ++ [2])) resolve 3 1 =
        ([⟨some "1", some 5, [⟨7⟩]⟩, ⟨some "2", some 6, [⟨8⟩, Double.nan]⟩,
          ⟨some "3", some 0, []⟩], none, 105) ∧
      (tuple 2 6 [some ⟨8⟩, none]).encode.slotBit 0 = true ∧
      (tuple 2 6 [some ⟨8⟩, none]).encode.slotBit 1 = false := by
  intro records resolve
  have hencodable : ∀ r ∈ records, r.Encodable := by decide
  have hnames : ∀ r ∈ records, (resolve r.series).isSome := fun _ _ => rfl
  obtain ⟨hwalk, -, hrecords⟩ := walkStream_flatMap_encode hencodable hnames [1] [2]
  have hslots := (hrecords (tuple 2 6 [some ⟨8⟩, none]) (by decide)).2 2 6 _ rfl
  exact ⟨hencodable, hnames, hwalk, hslots.2 0 (by decide), hslots.2 1 (by decide)⟩

end Record

end TimeSeries
