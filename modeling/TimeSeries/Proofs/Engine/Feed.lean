import TimeSeries.Engine.Memory

/-!
# What a feed gives

A read of a cursor gives whole records from the front of its queue, as many as fit:
`Memory.takeWhole_spec`. So what a reader gets, followed by what is still queued, is
what was queued before, and nothing is torn apart.
-/

namespace TimeSeries.Memory

/-- A record that fits is taken by `takeWhole`, and then what fits behind it. -/
theorem takeWhole_cons {room : Nat} {record : Bytes} (rest : List Bytes)
    (h : record.length ≤ room) :
    takeWhole room (record :: rest) =
      (record ++ (takeWhole (room - record.length) rest).1,
        (takeWhole (room - record.length) rest).2) := by
  rw [takeWhole, if_pos h]

/-- Nothing is taken by `takeWhole` if the first record does not fit. -/
theorem takeWhole_of_lt {room : Nat} {record : Bytes} (rest : List Bytes)
    (h : room < record.length) : takeWhole room (record :: rest) = ([], record :: rest) := by
  rw [takeWhole, if_neg (by omega)]

/-- **Whole records**: what `takeWhole` takes is a run of records from the front, it fits, and the
record behind it does not. -/
theorem takeWhole_spec (room : Nat) (records : List Bytes) :
    ∃ taken, records = taken ++ (takeWhole room records).2 ∧
      (takeWhole room records).1 = taken.flatten ∧ taken.flatten.length ≤ room ∧
      ∀ r ∈ (takeWhole room records).2.head?, room < taken.flatten.length + r.length := by
  induction records generalizing room with
  | nil => exact ⟨[], rfl, rfl, Nat.zero_le _, fun r hr => by cases hr⟩
  | cons record rest ih =>
    rcases Nat.lt_or_ge room record.length with hlt | hfits
    · rw [takeWhole_of_lt rest hlt]
      refine ⟨[], rfl, rfl, Nat.zero_le _, ?_⟩
      intro r hr
      obtain rfl : record = r := Option.some.inj hr
      rw [List.flatten_nil, List.length_nil]
      omega
    · rw [takeWhole_cons rest hfits]
      obtain ⟨taken, hsplit, hbytes, hroom, hnext⟩ := ih (room - record.length)
      refine ⟨record :: taken, ?_, ?_, ?_, ?_⟩
      · rw [List.cons_append, ← hsplit]
      · rw [List.flatten_cons, hbytes]
      · rw [List.flatten_cons, List.length_append]
        omega
      · intro r hr
        have hr := hnext r hr
        rw [List.flatten_cons, List.length_append]
        omega

/-- The first record is taken if it fits. -/
theorem takeWhole_of_le {room : Nat} {record : Bytes} (rest : List Bytes)
    (h : record.length ≤ room) :
    ∃ taken left, rest = taken ++ left ∧ (record ++ taken.flatten).length ≤ room ∧
      takeWhole room (record :: rest) = (record ++ taken.flatten, left) := by
  obtain ⟨taken, hsplit, hbytes, hroom, -⟩ := takeWhole_spec (room - record.length) rest
  refine ⟨taken, _, hsplit, ?_, ?_⟩
  · rw [List.length_append]
    omega
  · rw [takeWhole_cons rest h, hbytes]

/-- A feed at its end gives nothing by `Feed.read` and does not fail. -/
theorem read_nil (room : Nat) : Feed.read {} room = ([], {}) := rfl

/-- A feed whose first record does not fit fails with `overflow`. -/
theorem read_of_lt {room : Nat} {record : Bytes} (rest : List Bytes)
    (h : room < record.length) :
    Feed.read { records := record :: rest } room =
      ([], { records := record :: rest, error := some .overflow }) := by
  simp only [Feed.read, takeWhole_of_lt rest h]
  rfl

/-- A feed whose first record fits gives it, perhaps with more, and goes on. -/
theorem read_of_le {room : Nat} {record : Bytes} (rest : List Bytes)
    (hrecord : record ≠ []) (h : record.length ≤ room) :
    ∃ taken left, rest = taken ++ left ∧ (record ++ taken.flatten).length ≤ room ∧
      Feed.read { records := record :: rest } room =
        (record ++ taken.flatten, { records := left }) := by
  obtain ⟨taken, left, hsplit, hroom, htake⟩ := takeWhole_of_le rest h
  refine ⟨taken, left, hsplit, hroom, ?_⟩
  have hbytes : (record ++ taken.flatten).isEmpty = false := by
    rw [List.isEmpty_eq_false_iff]
    exact List.append_ne_nil_of_left_ne_nil hrecord _
  simp only [Feed.read, htake, hbytes, Bool.false_and]
  rfl

/-- A feed with a single record gives all of it if it fits, be it empty. -/
theorem read_single {room : Nat} {record : Bytes} (h : record.length ≤ room) :
    Feed.read { records := [record] } room = (record, {}) := by
  simp [Feed.read, takeWhole, h]

/-- **A `Feed.read` of a feed that has not failed**: its first record does not fit, or nothing is
left, or it gives bytes that fit and has fewer records than before. -/
theorem read_cases {feed : Feed} (room : Nat) (h : feed.error = none) :
    (∃ left, Feed.read feed room = ([], { records := left, error := some .overflow })) ∨
      Feed.read feed room = ([], {}) ∨
      ∃ bytes left, bytes ≠ [] ∧ bytes.length ≤ room ∧ left.length < feed.records.length ∧
        Feed.read feed room = (bytes, { records := left }) := by
  obtain ⟨taken, hsplit, hbytes, hroom, -⟩ := takeWhole_spec room feed.records
  rcases htake : takeWhole room feed.records with ⟨bytes, left⟩
  rw [htake] at hsplit hbytes
  obtain rfl : bytes = taken.flatten := hbytes
  have hread : Feed.read feed room = (taken.flatten,
      { records := left
        error := if taken.flatten.isEmpty && !left.isEmpty then some .overflow else none }) := by
    simp only [Feed.read, h, htake]
  rw [hread]
  cases hflat : taken.flatten with
  | nil =>
    cases left with
    | nil => exact .inr (.inl rfl)
    | cons record left => exact .inl ⟨record :: left, rfl⟩
  | cons byte bytes =>
    refine .inr (.inr ⟨byte :: bytes, left, List.cons_ne_nil _ _, hflat ▸ hroom, ?_, rfl⟩)
    cases taken with
    | nil => cases hflat
    | cons record taken =>
      rw [hsplit, List.length_append, List.length_cons]
      dsimp only
      omega

theorem room_le (m : Memory) (capacity : Nat) : m.room capacity ≤ capacity := by
  rw [room]
  split
  · exact Nat.min_le_right _ _
  · exact Nat.le_refl _

end TimeSeries.Memory
