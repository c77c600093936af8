import TimeSeries.Failure
import TimeSeries.Proofs.Cursor.Frame
import TimeSeries.Proofs.Cursor.Iteration

/-!
# A walk over arbitrary bytes

A result can be any bytes at all: whole records, records with unknown series, torn ones.
`walk` says what they read as, by a plain recursion along the offsets of the records, and
a cursor over such a result gives the same items (`Cursor.Walking.itemAt_eq`). The
invariant is `Cursor.Walking`: the position in the buffer is the offset of the walk, and
what is unread are the bytes from there on. So the two fail at the same place and for the
same reason, and no more than the bytes is ever read (`Cursor.Within`). Main result:
`Session.items_of_raw`.
-/

namespace TimeSeries

/-! ### The walk -/

theorem Header.parseAt_eq_ok {bytes : Bytes} {offset : Nat} {h : Header} :
    parseAt bytes offset = .ok h ↔ parse (bytes.drop offset) = .ok h := by
  rw [parseAt]
  rcases parse (bytes.drop offset) with fault | h'
  · constructor <;> rintro ⟨⟩
  · constructor <;> rintro ⟨⟩ <;> rfl

theorem Header.parseAt_eq_error {bytes : Bytes} {offset : Nat} {fault : RecordFault} :
    parseAt bytes offset = .error (.corruptRecord offset fault) ↔
      parse (bytes.drop offset) = .error fault := by
  rw [parseAt]
  rcases parse (bytes.drop offset) with fault' | h
  · constructor <;> rintro ⟨⟩ <;> rfl
  · constructor <;> rintro ⟨⟩

/-- A record that `parseAt` accepts at an offset ends before the bytes do. -/
theorem Header.add_length_le_of_parseAt {bytes : Bytes} {offset : Nat} {h : Header}
    (hparse : parseAt bytes offset = .ok h) :
    offset + headerSize ≤ offset + h.length ∧ offset + h.length ≤ bytes.length := by
  have hp := parseAt_eq_ok.mp hparse
  have hheader := headerSize_le_length hp
  have hlength := length_le_of_parse hp
  rw [List.length_drop] at hlength
  rw [headerSize] at hheader ⊢
  omega

/-- **Walk** over bytes from an offset on: at the end it is over, at a record that is not
accepted it ends with that failure, and else it gives what the record reads as and goes on
behind it. -/
def walk (bytes : Bytes) (resolve : SeriesId → Option String) (offset : Nat) : List (Item Row) :=
  if offset = bytes.length then []
  else
    match _hparse : Header.parseAt bytes offset with
    | .error failure => [.error failure]
    | .ok h =>
      (h.decodeRow (bytes.drop offset) resolve).mapError .unresolvedSeries ::
        walk bytes resolve (offset + h.length)
termination_by bytes.length - offset
decreasing_by
  obtain ⟨hheader, hlength⟩ := Header.add_length_le_of_parseAt _hparse
  rw [headerSize] at hheader
  omega

section Walk

variable {bytes : Bytes} {resolve : SeriesId → Option String} {offset : Nat}

theorem walk_length : walk bytes resolve bytes.length = [] := by
  rw [walk, if_pos rfl]

theorem walk_of_error {failure : Failure} (hoffset : offset ≠ bytes.length)
    (hparse : Header.parseAt bytes offset = .error failure) :
    walk bytes resolve offset = [.error failure] := by
  rw [walk, if_neg hoffset]
  split
  next failure' hparse' => rw [hparse] at hparse'; cases hparse'; rfl
  next h hparse' => rw [hparse] at hparse'; cases hparse'

theorem walk_of_ok {h : Header} (hparse : Header.parseAt bytes offset = .ok h) :
    walk bytes resolve offset =
      (h.decodeRow (bytes.drop offset) resolve).mapError .unresolvedSeries ::
        walk bytes resolve (offset + h.length) := by
  have hoffset : offset ≠ bytes.length := by
    have hlength := Header.add_length_le_of_parseAt hparse
    rw [headerSize] at hlength
    omega
  rw [walk, if_neg hoffset]
  split
  next failure hparse' => rw [hparse] at hparse'; cases hparse'
  next h' hparse' => rw [hparse] at hparse'; cases hparse'; rfl

/-- A `walk` has at most one item for each byte, and one more. -/
theorem length_walk_le (hoffset : offset ≤ bytes.length) :
    offset + (walk bytes resolve offset).length ≤ bytes.length + 1 := by
  induction offset using walk.induct bytes with
  | case1 => rw [walk_length]; exact Nat.le_succ_of_le hoffset
  | case2 offset hne failure hparse =>
    rw [walk_of_error hne hparse, List.length_singleton]
    omega
  | case3 offset hne h hparse ih =>
    obtain ⟨hheader, hlength⟩ := Header.add_length_le_of_parseAt hparse
    have hrest := ih hlength
    rw [headerSize] at hheader
    rw [walk_of_ok hparse, List.length_cons]
    omega

/-- **A `corruptRecord` is the last item** of a walk. -/
theorem length_walk_of_corrupt {call place : Nat} {fault : RecordFault}
    (hitem : (walk bytes resolve offset)[call]? = some (.error (.corruptRecord place fault))) :
    (walk bytes resolve offset).length = call + 1 := by
  induction offset using walk.induct bytes generalizing call with
  | case1 =>
    rw [walk_length] at hitem
    cases hitem
  | case2 offset hne failure hparse =>
    rw [walk_of_error hne hparse] at hitem ⊢
    cases call with
    | zero => rfl
    | succ call => cases hitem
  | case3 offset hne h hparse ih =>
    rw [walk_of_ok hparse] at hitem ⊢
    cases call with
    | zero =>
      -- a record that is accepted is no corrupt one
      rw [List.getElem?_cons_zero] at hitem
      cases hdecode : h.decodeRow (bytes.drop offset) resolve <;> rw [hdecode] at hitem <;>
        cases hitem
    | succ call => rw [List.length_cons, ih hitem]

end Walk

/-! ### A cursor on its walk -/

namespace Cursor

variable {session handle : Handle} {resolve : SeriesId → Option String} {bytes : Bytes}
  {offset : Nat} {c : Cursor} {w : World Memory}

/-- **Within bytes**: the buffer is `Valid`, what is unread is the end of the bytes, and the engine
did not panic. -/
structure Within (bytes : Bytes) (c : Cursor) (w : World Memory) : Prop where
  /-- positions stay within what was filled -/
  valid : c.buffer.Valid
  /-- what is unread is the end of the bytes -/
  unread : c.buffer.unread <:+ bytes
  /-- the engine did not panic -/
  panic : w.channel.panic = none

/-- **Walking**: the cursor is at an offset of the bytes, which are in the buffer or, as
long as nothing was read, still in the feed. -/
structure Walking (session handle : Handle) (resolve : SeriesId → Option String) (bytes : Bytes)
    (offset : Nat) (c : Cursor) (w : World Memory) : Prop where
  /-- the cursor is live -/
  live : Live session handle c
  /-- the engine did not panic -/
  panic : w.channel.panic = none
  /-- how ids are looked up -/
  resolve_eq : w.engine.idToSeries session = resolve
  /-- the bytes fit the buffer -/
  fits : bytes.length ≤ c.buffer.capacity
  /-- the bytes are in the buffer, or in the feed -/
  place : (offset ≤ bytes.length ∧ c.buffer.position = offset ∧
      c.buffer.unread = bytes.drop offset ∧ w.engine.cursors.find? handle = some {}) ∨
    (offset = 0 ∧ c.buffer.unread = [] ∧ bytes.length ≤ w.engine.room c.buffer.capacity ∧
      w.engine.cursors.find? handle = some { records := [bytes] })

namespace Walking

theorem within (h : Walking session handle resolve bytes offset c w) : Within bytes c w := by
  refine ⟨h.live.valid, ?_, h.panic⟩
  obtain ⟨-, -, hunread, -⟩ | ⟨-, hunread, -, -⟩ := h.place
  · rw [hunread]
    exact List.drop_suffix offset bytes
  · rw [hunread]
    exact List.nil_suffix

variable (parse : String → Option Json)

/-- What a call leaves: the walk is over, or it goes on `Walking` with the rest of the items. -/
def Goes (session handle : Handle) (resolve : SeriesId → Option String) (bytes : Bytes)
    (items : List (Item Row)) (c : Cursor) (w : World Memory) : Prop :=
  (items = [] ∧ c.ended = true ∧ Within bytes c w) ∨
    ∃ offset, items = walk bytes resolve offset ∧ Walking session handle resolve bytes offset c w

/-- At the end of what was delivered the result ends. -/
theorem next_of_unread_nil {feed : Feed} {items : List (Item Row)} (hlive : Live session handle c)
    (hpanic : w.channel.panic = none) (hunread : c.buffer.unread = [])
    (hfeed : w.engine.cursors.find? handle = some feed)
    (hread : Memory.Feed.read feed (w.engine.room c.buffer.capacity) = ([], {}))
    (hitems : items = []) :
    ∃ c' w', c.next (Memory.engine parse) w = (items.head?, c', w') ∧
      Goes session handle resolve bytes items.tail c' w' := by
  subst hitems
  have hobserved := (moves_next (Memory.engine parse) c w).observed
  obtain ⟨c', w', hended, hbuffer, hnext⟩ := next_end parse hlive hpanic hunread hfeed hread rfl rfl
  rw [hnext] at hobserved
  refine ⟨c', w', hnext, .inl ⟨rfl, hended, ?_, ?_, by rw [hobserved.channel, hpanic]⟩⟩
  · rw [hbuffer]
    exact hlive.valid.refill _
  · rw [hbuffer, ReadBuffer.unread_refill rfl (Nat.zero_le _)]
    exact List.nil_suffix

/-- **One call** on bytes that are in the buffer. -/
theorem next_buffered (hlive : Live session handle c) (hpanic : w.channel.panic = none)
    (hresolve : w.engine.idToSeries session = resolve) (hfits : bytes.length ≤ c.buffer.capacity)
    (hoffset : offset ≤ bytes.length) (hposition : c.buffer.position = offset)
    (hunread : c.buffer.unread = bytes.drop offset)
    (hfeed : w.engine.cursors.find? handle = some {}) :
    ∃ c' w', c.next (Memory.engine parse) w = ((walk bytes resolve offset).head?, c', w') ∧
      Goes session handle resolve bytes (walk bytes resolve offset).tail c' w' := by
  have hobserved := (moves_next (Memory.engine parse) c w).observed
  rcases Nat.eq_or_lt_of_le hoffset with rfl | hlt
  -- at the end of the bytes the feed has nothing more
  · rw [List.drop_length] at hunread
    exact next_of_unread_nil parse hlive hpanic hunread hfeed (Memory.read_nil _) walk_length
  have hnonempty : c.buffer.unread ≠ [] := by
    rw [hunread]
    exact fun hnil => absurd (List.drop_eq_nil_iff.mp hnil) (Nat.not_le_of_lt hlt)
  cases hparse : Header.parse (bytes.drop offset) with
  | error fault =>
    -- the cursor names the place by its position, the walk by its offset
    have hparseAt := Header.parseAt_eq_error.mpr hparse
    obtain ⟨c', w', -, hended, hbuffer, hnext⟩ :=
      next_corrupt parse hlive hpanic hfeed rfl hnonempty (by rw [hunread, hparse])
    rw [hnext] at hobserved
    rw [walk_of_error (Nat.ne_of_lt hlt) hparseAt]
    rw [hposition] at hnext
    refine ⟨c', w', hnext, .inl ⟨rfl, hended, ?_, ?_, by rw [hobserved.channel, hpanic]⟩⟩
    · rw [hbuffer]
      exact hlive.valid.discard
    · rw [hbuffer, ReadBuffer.unread_discard]
      exact List.nil_suffix
  | ok header =>
    -- both go on behind the record, whatever became of its id
    have hparseAt := Header.parseAt_eq_ok.mpr hparse
    obtain ⟨-, hend⟩ := Header.add_length_le_of_parseAt hparseAt
    obtain ⟨w', hasked, hnext⟩ := next_record parse hlive hpanic hfeed rfl
      (by rw [hunread, hparse])
    have hroom : header.length ≤ c.buffer.unread.length := by
      rw [hunread]
      exact Header.length_le_of_parse hparse
    rw [walk_of_ok hparseAt]
    rw [hunread, hresolve] at hnext
    refine ⟨_, w', hnext, .inr ⟨offset + header.length, rfl, ?_⟩⟩
    refine ⟨⟨hlive.session_eq, hlive.handle_eq, hlive.corrupt_eq, hlive.ended_eq,
      hlive.valid.consume _⟩, by rw [hasked.channel, hpanic], by rw [hasked.engine, hresolve],
      hfits, .inl ⟨hend, ?_, ?_, by rw [hasked.engine, hfeed]⟩⟩
    · rw [hlive.valid.position_consume hroom, hposition]
    · rw [hlive.valid.unread_consume hroom, hunread, List.drop_drop]

/-- **One call of `next`**: it gives the first item of the `walk`, and leaves the rest. -/
theorem next (h : Walking session handle resolve bytes offset c w) :
    ∃ c' w', c.next (Memory.engine parse) w = ((walk bytes resolve offset).head?, c', w') ∧
      Goes session handle resolve bytes (walk bytes resolve offset).tail c' w' := by
  obtain ⟨hlive, hpanic, hresolve, hfits, hplace⟩ := h
  obtain ⟨hoffset, hposition, hunread, hfeed⟩ | ⟨rfl, hunread, hroom, hfeed⟩ := hplace
  · exact next_buffered parse hlive hpanic hresolve hfits hoffset hposition hunread hfeed
  -- the first call moves all bytes to the buffer at one go
  have hread := Memory.read_single hroom
  cases hbytes : bytes with
  | nil =>
    subst hbytes
    exact next_of_unread_nil parse hlive hpanic hunread hfeed hread walk_length
  | cons byte rest =>
    rw [← hbytes]
    obtain ⟨hlive', hunread', hnext⟩ := next_refill parse hlive hpanic hunread hfeed hread rfl
      (by rw [hbytes]; exact List.cons_ne_nil _ _) hfits
    rw [hnext]
    refine next_buffered parse hlive' hpanic ?_ ?_ (Nat.zero_le _) rfl hunread'
      (find?_delivered w handle _ _)
    · rw [idToSeries_delivered, hresolve]
    · rw [ReadBuffer.capacity_refill]
      exact hfits

/-- **Item by item**, what a cursor gives by `itemAt` is the `walk`. -/
theorem itemAt_eq (h : Walking session handle resolve bytes offset c w) (call : Nat) :
    itemAt (Memory.engine parse) call quietly c w = (walk bytes resolve offset)[call]? := by
  induction call generalizing offset c w with
  | zero =>
    obtain ⟨c', w', hnext, -⟩ := h.next parse
    rw [itemAt_zero hnext, List.head?_eq_getElem?]
  | succ call ih =>
    obtain ⟨c', w', hnext, hgoes⟩ := h.next parse
    rw [itemAt_succ call hnext, quietly_shift, ← List.getElem?_tail]
    obtain ⟨hitems, hended, -⟩ | ⟨offset', hitems, hrest⟩ := hgoes
    · rw [hitems, itemAt_of_ended hended]
      rfl
    · rw [hitems]
      exact ih hrest

/-- **No call reads beyond the bytes**: the cursor stays `Within` them. -/
theorem within_after (h : Walking session handle resolve bytes offset c w) (calls : Nat) :
    Within bytes (after (Memory.engine parse) calls quietly c w).1
      (after (Memory.engine parse) calls quietly c w).2 := by
  induction calls generalizing offset c w with
  | zero => exact h.within
  | succ calls ih =>
    obtain ⟨c', w', hnext, hgoes⟩ := h.next parse
    rw [after_succ calls hnext, quietly_shift]
    obtain ⟨-, hended, hwithin⟩ | ⟨offset', -, hrest⟩ := hgoes
    · rw [after_of_ended hended]
      exact hwithin
    · exact ih hrest

end Walking

end Cursor

end TimeSeries
