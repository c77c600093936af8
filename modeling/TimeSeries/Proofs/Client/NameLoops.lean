import TimeSeries.Json.Reader
import TimeSeries.Proofs.Client.MetricLookup
import TimeSeries.Proofs.Client.RowLoops

/-!
# Draining the names of a query

Names are read off the rows of a cursor, and rows without a series are passed over. They can be
drained by a loop or taken as items, and the two go different ways: the loop reads rows and asks
whether every name has been read, which is not so while the engine reports an error, and the
iterator takes the items of the rows, which the rows' own question ends. Over any feed the two pass
through the same states of the cursor as long as there are names (`NameCourse`). So a loop over
names does not miss the failure of a query, as one over rows does.

Main result: `Session.names_of_openCursor`.
-/

namespace TimeSeries

open Cursor

namespace NameCursor

/-! ### Names among items -/

/-- What an `Item Row` is to a reader of names: a failure is passed on, and of a row there is only
its series. -/
def named? : Item Row → Option (Item String)
  | .ok row => row.series.map .ok
  | .error failure => some (.error failure)

/-- **The names** among some items, and the failures, as `named?` says. -/
def names (items : List (Item Row)) : List (Item String) := items.filterMap named?

theorem names_cons_row (row : Row) (items : List (Item Row)) :
    names (.ok row :: items) = (row.series.map .ok).toList ++ names items := by
  rw [names, List.filterMap_cons, named?]
  cases row.series <;> rfl

/-- The names that are `collected` are those of the rows that have a series, in their order. -/
theorem values_names (items : List (Item Row)) :
    collected (names items) = (collected items).filterMap Row.series := by
  induction items with
  | nil => rfl
  | cons item items ih =>
    rcases item with failure | row
    · exact ih
    · rw [names_cons_row, collected_append, ih]
      cases hseries : row.series <;> simp [collected, hseries, Except.toOption]

/-- The `verdict` is that of the rows. -/
theorem verdict_names (items : List (Item Row)) : verdict (names items) = verdict items := by
  induction items with
  | nil => rfl
  | cons item items ih =>
    rcases item with failure | row
    · cases failure with
      | unresolvedSeries id => exact ih
      | _ => rfl
    · rw [names_cons_row, verdict, ← ih]
      cases row.series <;> rfl

end NameCursor

/-! ### Courses of names -/

variable (parse : String → Option Json) {session handle : Handle}
  {resolve : SeriesId → Option String} {room : Nat → Nat} {c c' : Cursor} {feed feed' : Feed}
  {w : World Memory}

/-- **The course of a cursor over names**: the names that are to come, and the failures. Whoever
reads, by `nextName` in the loop or by `next` of the iterator, gets the same one and leaves the same
cursor and feed, as long as it is given enough tries. -/
inductive NameCourse (session handle : Handle) (resolve : SeriesId → Option String)
    (room : Nat → Nat) : Cursor → Feed → List (Item String) → Prop where
  /-- a name or a series without one, and then the rest -/
  | item {c c' : Cursor} {feed feed' : Feed} {item : Item String} {names : List (Item String)} :
      Live session handle c → feed.error = none →
      (c.buffer.unread.isEmpty && feed.records.isEmpty) = false →
      (∀ failure, item = .error failure → ∃ id, failure = .unresolvedSeries id) →
      (∀ w, Offers session handle resolve room feed w → ∀ fuel, size c feed + 2 ≤ fuel → ∃ w',
        NameCursor.nextNameWithin (Memory.engine parse) fuel c w = (item.map some, c', w') ∧
          NameCursor.nextWithin (Memory.engine parse) fuel c w = (some item, c', w') ∧
          Offers session handle resolve room feed' w') →
      NameCourse session handle resolve room c' feed' names →
      NameCourse session handle resolve room c feed (item :: names)
  /-- nothing -/
  | nothing {c : Cursor} {feed : Feed} :
      Live session handle c → feed.error = none →
      (∀ w, Offers session handle resolve room feed w → ∀ fuel, size c feed + 2 ≤ fuel →
        ∃ c₁ w₁ w₂ c₃ w₃,
          NameCursor.nextNameWithin (Memory.engine parse) fuel c w = (.ok none, c₁, w₁) ∧
          NameCursor.done (Memory.engine parse) ⟨c₁⟩ w₁ = (.ok true, w₂) ∧
          NameCursor.nextWithin (Memory.engine parse) fuel c w = (none, c₃, w₃) ∧
          c₃.ended = true) →
      NameCourse session handle resolve room c feed []
  /-- a failure for good -/
  | failed {c : Cursor} {feed : Feed} {failure : Failure} :
      Live session handle c →
      (feed.error = none → (c.buffer.unread.isEmpty && feed.records.isEmpty) = false) →
      (∀ id, failure ≠ .unresolvedSeries id) →
      (∀ w, Offers session handle resolve room feed w → ∀ fuel, size c feed + 2 ≤ fuel →
        ∃ c₁ w₁ c₂ w₂,
          NameCursor.nextNameWithin (Memory.engine parse) fuel c w = (.error failure, c₁, w₁) ∧
          NameCursor.nextWithin (Memory.engine parse) fuel c w =
            (some (.error failure), c₂, w₂) ∧
          c₂.ended = true) →
      NameCourse session handle resolve room c feed [.error failure]

/-! ### Whether every name has been read -/

/-- A `Live` cursor over names is `done` if nothing is left, and its feed has not failed. -/
theorem NameCursor.done_live (hlive : Live session handle c)
    (hoffers : Offers session handle resolve room feed w) :
    ∃ w', w.Asked w' ∧ NameCursor.done (Memory.engine parse) ⟨c⟩ w =
      (.ok (feed.error.isNone && (c.buffer.unread.isEmpty && feed.records.isEmpty)), w') := by
  have hproceed : c.canProceed (Memory.engine parse) w =
      (.ok feed.error.isNone, w.called (.cursorError handle)) := by
    rw [Cursor.canProceed, World.check_of_no_panic hoffers.panic, hlive.handle_eq]
    dsimp only
    rw [Memory.ask_cursorError, cursorError_of_find? hoffers.find_eq]
  rw [NameCursor.done, hproceed]
  cases herror : feed.error with
  | some status =>
    refine ⟨_, .called w (.cursorError handle), ?_⟩
    dsimp only [Option.isNone]
    rw [Cursor.isClosed, hlive.handle_eq]
    rfl
  | none =>
    obtain ⟨w', hasked, hdone⟩ := Cursor.done_live parse hlive herror
      (hoffers.asked (.called w (.cursorError handle)))
    exact ⟨w', .trans (.called w _) hasked, hdone⟩

/-! ### From rows to names -/

section Course

variable {parse}

/-- **A row without a series** is passed over, at the cost of one try. -/
theorem NameCourse.skip {row : Row} {names : List (Item String)} (hlive : Live session handle c)
    (herror : feed.error = none)
    (hmore : (c.buffer.unread.isEmpty && feed.records.isEmpty) = false)
    (hseries : row.series = none)
    (htakes : Takes parse session handle resolve room c feed (.ok (some row)) c' feed')
    (hless : size c' feed' < size c feed)
    (h : NameCourse parse session handle resolve room c' feed' names) :
    NameCourse parse session handle resolve room c feed names := by
  have hskips : ∀ w, Offers session handle resolve room feed w → ∀ fuel, size c feed + 2 ≤ fuel →
      ∃ w' fuel', Offers session handle resolve room feed' w' ∧ size c' feed' + 2 ≤ fuel' ∧
        NameCursor.nextNameWithin (Memory.engine parse) fuel c w =
          NameCursor.nextNameWithin (Memory.engine parse) fuel' c' w' ∧
        NameCursor.nextWithin (Memory.engine parse) fuel c w =
          NameCursor.nextWithin (Memory.engine parse) fuel' c' w' := by
    intro w hoffers fuel hfuel
    obtain ⟨w', hrow, hoffers'⟩ := htakes w hoffers
    obtain ⟨fuel, rfl⟩ : ∃ fuel', fuel = fuel' + 1 := ⟨fuel - 1, by omega⟩
    refine ⟨w', fuel, hoffers', by omega, ?_, ?_⟩
    · simp only [NameCursor.nextNameWithin, hrow, hseries]
    · simp only [NameCursor.nextWithin, next_of_row hlive.ended_eq hrow, hseries]
  cases h with
  | item _ _ _ hitem hgives hrest =>
    refine .item hlive herror hmore hitem (fun w hoffers fuel hfuel => ?_) hrest
    obtain ⟨w', fuel', hoffers', hfuel', hname, hnext⟩ := hskips w hoffers fuel hfuel
    rw [hname, hnext]
    exact hgives w' hoffers' fuel' hfuel'
  | nothing _ _ hgives =>
    refine .nothing hlive herror fun w hoffers fuel hfuel => ?_
    obtain ⟨w', fuel', hoffers', hfuel', hname, hnext⟩ := hskips w hoffers fuel hfuel
    rw [hname, hnext]
    exact hgives w' hoffers' fuel' hfuel'
  | failed _ _ hfailure hgives =>
    refine .failed hlive (fun _ => hmore) hfailure fun w hoffers fuel hfuel => ?_
    obtain ⟨w', fuel', hoffers', hfuel', hname, hnext⟩ := hskips w hoffers fuel hfuel
    rw [hname, hnext]
    exact hgives w' hoffers' fuel' hfuel'

/-- **A `Course` of rows is a `NameCourse`** of their names. -/
theorem Cursor.Course.names {items : List (Item Row)}
    (h : Course parse session handle resolve room c feed items) :
    NameCourse parse session handle resolve room c feed (NameCursor.names items) := by
  induction h with
  | @item c c' feed feed' item items hlive herror hmore hitem htakes herror' hless _ ih =>
    rcases item with failure | row
    · obtain ⟨id, rfl⟩ := hitem failure rfl
      refine .item hlive herror hmore (fun failure h => ⟨id, (Except.error.inj h).symm⟩)
        (fun w hoffers fuel hfuel => ?_) ih
      obtain ⟨w', hrow, hoffers'⟩ := htakes w hoffers
      obtain ⟨fuel, rfl⟩ : ∃ fuel', fuel = fuel' + 1 := ⟨fuel - 1, by omega⟩
      rw [NameCursor.nextNameWithin, NameCursor.nextWithin, hrow,
        next_of_unresolved hlive.ended_eq hrow]
      exact ⟨w', rfl, rfl, hoffers'⟩
    · rw [NameCursor.names_cons_row]
      cases hseries : row.series with
      | none => exact ih.skip hlive herror hmore hseries htakes hless
      | some name =>
        refine .item hlive herror hmore (fun failure h => by cases h)
          (fun w hoffers fuel hfuel => ?_) ih
        obtain ⟨w', hrow, hoffers'⟩ := htakes w hoffers
        obtain ⟨fuel, rfl⟩ : ∃ fuel', fuel = fuel' + 1 := ⟨fuel - 1, by omega⟩
        refine ⟨w', ?_, ?_, hoffers'⟩
        · simp only [NameCursor.nextNameWithin, hrow, hseries, Except.map]
        · simp only [NameCursor.nextWithin, next_of_row hlive.ended_eq hrow, hseries]
  | @nothing c c' feed hlive herror htakes hlive' hunread =>
    refine .nothing hlive herror fun w hoffers fuel hfuel => ?_
    obtain ⟨w', hrow, hoffers'⟩ := htakes w hoffers
    obtain ⟨w'', -, hend⟩ := Cursor.done_live parse hlive' rfl hoffers'
    obtain ⟨w₂, -, hdone⟩ := NameCursor.done_live parse hlive' hoffers'
    obtain ⟨fuel, rfl⟩ : ∃ fuel', fuel = fuel' + 1 := ⟨fuel - 1, by omega⟩
    rw [hunread] at hend hdone
    rw [NameCursor.nextNameWithin, NameCursor.nextWithin, hrow,
      next_of_done hlive.ended_eq hrow hend]
    exact ⟨c', w', w₂, _, _, rfl, hdone, rfl, rfl⟩
  | @failed c c' feed feed' failure hlive hmore hfailure htakes =>
    refine .failed hlive hmore hfailure fun w hoffers fuel hfuel => ?_
    obtain ⟨w', hrow, -⟩ := htakes w hoffers
    obtain ⟨fuel, rfl⟩ : ∃ fuel', fuel = fuel' + 1 := ⟨fuel - 1, by omega⟩
    rw [NameCursor.nextNameWithin, NameCursor.nextWithin, hrow,
      next_of_failure hlive.ended_eq hrow hfailure]
    exact ⟨_, _, _, _, rfl, rfl, rfl⟩

end Course

/-! ### Both ways -/

section BothWays

/-- The `budget` of a cursor has enough tries for what is to come. -/
theorem Cursor.size_le_budget (hlive : Live session handle c)
    (hoffers : Offers session handle resolve room feed w) :
    size c feed + 2 ≤ c.budget (Memory.engine parse) w := by
  have hpatience : feed.records.length ≤ (Memory.engine parse).patience w :=
    Memory.length_le_patience hoffers.find_eq
  have hrecords := Nat.mul_le_mul_right (c.buffer.capacity + 1) (Nat.add_le_add_right hpatience 1)
  have hunread := hlive.valid.length_unread
  have hfilled := hlive.valid.filled_le
  rw [Nat.add_mul feed.records.length, Nat.mul_succ] at hrecords
  rw [size, budget]
  omega

namespace NameCursor

variable {σ : Type} {E : Engine σ} {c c' : Cursor} {w w' : World σ}

theorem nextName_eq {result : Except Failure (Option String)}
    (h : nextNameWithin E (c.budget E w) c w = (result, c', w')) :
    nextName E ⟨c⟩ w = (result, ⟨c'⟩, w') := by
  rw [nextName, h]

theorem next_eq {item : Option (Item String)}
    (h : nextWithin E (c.budget E w) c w = (item, c', w')) :
    next E ⟨c⟩ w = (item, ⟨c'⟩, w') := by
  rw [next, h]

/-- A cursor over names that has `ended` gives nothing. -/
theorem itemAt_of_ended (hended : c.ended = true) (call : Nat) : itemAt E call ⟨c⟩ w = none := by
  have hnext : next E ⟨c⟩ w = (none, ⟨c⟩, w) := by
    rw [next, budget, nextWithin, next_of_ended hended]
  induction call with
  | zero => rw [itemAt, hnext]
  | succ call ih =>
    rw [itemAt, hnext]
    exact ih

/-- A call that ends the result gives the last item, if there is one. -/
theorem itemAt_of_last {last : Option (Item String)} (hnext : next E ⟨c⟩ w = (last, ⟨c'⟩, w'))
    (hended : c'.ended = true) (call : Nat) : itemAt E call ⟨c⟩ w = last.toList[call]? := by
  cases call with
  | zero =>
    rw [itemAt, hnext]
    cases last <;> rfl
  | succ call =>
    rw [itemAt, hnext]
    refine (itemAt_of_ended hended call).trans ?_
    cases last <;> rfl

end NameCursor

variable {parse} {names : List (Item String)}

/-- **The iterator gives the course**, one item for each call of `next`, and then nothing. -/
theorem NameCourse.itemAt_eq (h : NameCourse parse session handle resolve room c feed names)
    (hoffers : Offers session handle resolve room feed w) (call : Nat) :
    NameCursor.itemAt (Memory.engine parse) call ⟨c⟩ w = names[call]? := by
  induction h generalizing w call with
  | item hlive _ _ _ hgives _ ih =>
    obtain ⟨w', -, hnext, hoffers'⟩ := hgives w hoffers _ (size_le_budget parse hlive hoffers)
    cases call with
    | zero => rw [NameCursor.itemAt, NameCursor.next_eq hnext, List.getElem?_cons_zero]
    | succ call =>
      rw [NameCursor.itemAt, NameCursor.next_eq hnext, List.getElem?_cons_succ]
      exact ih hoffers' call
  | nothing hlive _ hgives =>
    obtain ⟨_, _, _, _, _, -, -, hnext, hended⟩ :=
      hgives w hoffers _ (size_le_budget parse hlive hoffers)
    exact NameCursor.itemAt_of_last (NameCursor.next_eq hnext) hended call
  | failed hlive _ _ hgives =>
    obtain ⟨_, _, _, _, -, hnext, hended⟩ :=
      hgives w hoffers _ (size_le_budget parse hlive hoffers)
    exact NameCursor.itemAt_of_last (NameCursor.next_eq hnext) hended call

/-- **The loop `Drains` the course**, and ends with its failure. -/
theorem NameCourse.drains (h : NameCourse parse session handle resolve room c feed names)
    (hoffers : Offers session handle resolve room feed w) :
    Drains (NameCursor.done (Memory.engine parse)) (NameCursor.nextName (Memory.engine parse))
      ⟨c⟩ w (collected names) (verdict names) := by
  induction h generalizing w with
  | @item c _ feed _ item _ hlive herror hmore hitem hgives _ ih =>
    obtain ⟨w₁, hasked, hdone⟩ := NameCursor.done_live parse hlive hoffers
    have hoffers₁ := hoffers.asked hasked
    obtain ⟨w', hname, -, hoffers'⟩ := hgives w₁ hoffers₁ _ (size_le_budget parse hlive hoffers₁)
    rw [herror, hmore] at hdone
    rcases item with failure | name
    · obtain ⟨id, rfl⟩ := hitem failure rfl
      exact .turn hdone (NameCursor.nextName_eq hname) rfl (ih hoffers')
    · exact .turn hdone (NameCursor.nextName_eq hname) rfl (ih hoffers')
  | @nothing c feed hlive herror hgives =>
    obtain ⟨w₁, hasked, hdone⟩ := NameCursor.done_live parse hlive hoffers
    have hoffers₁ := hoffers.asked hasked
    obtain ⟨_, _, _, _, _, hname, hend, -, -⟩ :=
      hgives w₁ hoffers₁ _ (size_le_budget parse hlive hoffers₁)
    rw [herror, Option.isNone_none, Bool.true_and] at hdone
    cases hmore : c.buffer.unread.isEmpty && feed.records.isEmpty with
    | true =>
      rw [hmore] at hdone
      exact .ended hdone
    | false =>
      -- there were records without bytes, or rows without a series
      rw [hmore] at hdone
      exact .turn hdone (NameCursor.nextName_eq hname) rfl (.ended hend)
  | @failed c feed failure hlive hmore hfailure hgives =>
    obtain ⟨w₁, hasked, hdone⟩ := NameCursor.done_live parse hlive hoffers
    have hoffers₁ := hoffers.asked hasked
    obtain ⟨_, _, _, _, hname, -, -⟩ :=
      hgives w₁ hoffers₁ _ (size_le_budget parse hlive hoffers₁)
    have hmore' : (feed.error.isNone && (c.buffer.unread.isEmpty && feed.records.isEmpty)) =
        false := by
      cases herror : feed.error with
      | none => exact hmore herror
      | some status => rfl
    rw [hmore'] at hdone
    obtain ⟨hverdict, hgained⟩ := verdict_and_gained (α := String) hfailure
    rw [hverdict]
    exact .failed hdone (NameCursor.nextName_eq hname) hgained

end BothWays

variable {parse} in
/-- The items are those that `itemAt` gives before the first call that gives nothing. -/
theorem NameCursor.eq_of_itemAt {names names' : List (Item String)} {n : NameCursor}
    (hitemAt : ∀ call, itemAt (Memory.engine parse) call n w = names[call]?)
    (hgives : ∀ call < names'.length, itemAt (Memory.engine parse) call n w = names'[call]?)
    (hend : itemAt (Memory.engine parse) names'.length n w = none) : names = names' := by
  have hlength := List.getElem?_eq_none_iff.mp ((hitemAt names'.length).symm.trans hend)
  refine List.ext_getElem? fun call => ?_
  by_cases hcall : call < names'.length
  · rw [← hitemAt, hgives call hcall]
  · rw [List.getElem?_eq_none (by omega), List.getElem?_eq_none (by omega)]

/-! ### Names of a query -/

/-- A failure that is the last item is the last of the names. -/
theorem NameCursor.getLast?_names {items : List (Item Row)} {failure : Failure}
    (h : items.getLast? = some (.error failure)) :
    (names items).getLast? = some (.error failure) := by
  obtain ⟨init, rfl⟩ := List.getLast?_eq_some_iff.mp h
  rw [names, List.filterMap_append]
  exact List.getLast?_concat

namespace Session

variable {s : Session}

/-- The cursor of `openCursor` has a `Course`, whatever the text and the state of the engine. -/
theorem course_of_openCursor (text : String) (hpanic : w.channel.panic = none)
    (hhandle : s.handle = some session) (hbuffer : s.settings.buffer < UInt64.size) :
    ∃ handle w' feed, s.openCursor (Memory.engine parse) text w =
        (.ok (.ofHandle session handle s.settings.buffer), w') ∧
      Offers session handle (w'.engine.idToSeries session) w'.engine.room feed w' ∧
      ∃ items, Course parse session handle (w'.engine.idToSeries session) w'.engine.room
          (.ofHandle session handle s.settings.buffer) feed items ∧
        ∀ call, Cursor.itemAt (Memory.engine parse) call quietly
          (.ofHandle session handle s.settings.buffer) w' = items[call]? := by
  obtain ⟨feed, w', hopen, hpanic', hfeed, hfailed⟩ :=
    openCursor_feed parse text hpanic hhandle
  have hlive := live_ofHandle session w.engine.nextHandle hbuffer
  have hunread := ReadBuffer.unread_ofCapacity s.settings.buffer
  have hoffers : Offers session w.engine.nextHandle (w'.engine.idToSeries session) w'.engine.room
    feed w' := ⟨hpanic', rfl, rfl, hfeed⟩
  refine ⟨_, w', feed, hopen, hoffers, ?_⟩
  obtain herror | ⟨status, rfl⟩ := hfailed
  · obtain ⟨items, hcourse⟩ := exists_course parse (Memory.room_le w'.engine) hlive herror
    exact ⟨items, hcourse, ((hcourse.comesTo herror) w' hoffers).2⟩
  · exact ⟨[.error (.engine status)], .failed hlive (fun h => by cases h) (fun id h => by cases h)
        (takes_failed parse hlive hunread rfl rfl),
      (items_of_failed parse hlive hunread hpanic' hfeed).1⟩

/-- **Both ways of draining names agree and lose nothing**, for any text and any state of the engine
without a panic. The calls of the iterator give the `names` one by one, the loop comes to an end,
has `collected` the same names and ends with the same `verdict`, if there is one. It is then the
last of the items, and that of the engine or of a record. And the names are the series of the rows,
as far as they have one, that a cursor over rows gives, which ends with the same failure. -/
theorem names_of_openCursor (text : String) (hpanic : w.channel.panic = none)
    (hhandle : s.handle = some session) (hbuffer : s.settings.buffer < UInt64.size) :
    ∃ c w', s.openCursor (Memory.engine parse) text w = (.ok c, w') ∧ ∃ items : List (Item Row),
      (∀ call, Cursor.itemAt (Memory.engine parse) call quietly c w' = items[call]?) ∧
      let names := NameCursor.names items
      (∀ call, NameCursor.itemAt (Memory.engine parse) call ⟨c⟩ w' = names[call]?) ∧
      (∀ read outcome, Drains (NameCursor.done (Memory.engine parse))
          (NameCursor.nextName (Memory.engine parse)) ⟨c⟩ w' read outcome ↔
        read = collected names ∧ outcome = verdict names) ∧
      (∀ failure ∈ verdict names, names.getLast? = some (.error failure) ∧
        ((∃ status, failure = .engine status) ∨
          ∃ offset fault, failure = .corruptRecord offset fault)) ∧
      collected names = (collected items).filterMap Row.series ∧
      verdict names = verdict items := by
  obtain ⟨handle, w', feed, hopen, hoffers, items, hcourse, hitemAt⟩ :=
    course_of_openCursor parse text hpanic hhandle hbuffer
  have hdrains := hcourse.names.drains hoffers
  refine ⟨_, w', hopen, items, hitemAt, hcourse.names.itemAt_eq hoffers,
    fun read outcome => ⟨fun h => hdrains.unique h, ?_⟩, fun failure hfailure => ?_,
    NameCursor.values_names items, NameCursor.verdict_names items⟩
  · rintro ⟨rfl, rfl⟩
    exact hdrains
  · rw [NameCursor.verdict_names] at hfailure
    obtain ⟨hlast, hkind⟩ := hcourse.last_of_verdict hoffers hfailure
    exact ⟨NameCursor.getLast?_names hlast, hkind⟩

/-- In a session on a database with one point: a text that is no document, with whose failure the
loop ends; and bytes that wait to be read instead, a record of an unknown series, one without a
series, one of the series that there is and a torn one. -/
theorem names_of_openCursor_torn :
    let E := Memory.engine Json.parse?
    let s : Session := ⟨some 2, { buffer := 128 }⟩
    let w := (Workspace.begunWith Json.parse? ⟨0⟩).world
    let bytes := (Record.seriesOnly 7).encode ++ Header.write ⟨0, 0, 0, ⟨0⟩, 32⟩ ++
      (Record.seriesOnly 1).encode ++ [1]
    let drains := fun w read outcome => ∃ c w', s.openCursor E "\x7b" w = (.ok c, w') ∧
      Drains (NameCursor.done E) (NameCursor.nextName E) ⟨c⟩ w' read outcome
    w.channel.panic = none ∧ s.settings.buffer < UInt64.size ∧
      drains w [] (some (.engine .queryParsingError)) ∧
      drains (Memory.disturb w (.rawResult bytes)) ["cpu host=a"]
        (some (.corruptRecord 96 (.truncated 1))) := by
  intro E s w bytes drains
  have hpanic : w.channel.panic = none := rfl
  have hbuffer : s.settings.buffer < UInt64.size := by decide
  refine ⟨hpanic, hbuffer, ?_, ?_⟩
  · obtain ⟨c, w', hopen, items, -, hitemAt, hdrains, -⟩ :=
      @names_of_openCursor Json.parse? 2 w s "\x7b" hpanic rfl hbuffer
    have hnames : NameCursor.names items = [.error (.engine .queryParsingError)] := by
      cases hopen
      exact NameCursor.eq_of_itemAt hitemAt (by decide +kernel) (by decide +kernel)
    rw [hnames] at hdrains
    exact ⟨c, w', hopen, (hdrains _ _).mpr ⟨rfl, rfl⟩⟩
  · obtain ⟨c, w', hopen, items, -, hitemAt, hdrains, -⟩ := @names_of_openCursor Json.parse? 2
      (Memory.disturb w (.rawResult bytes)) s "\x7b" hpanic rfl hbuffer
    have hnames : NameCursor.names items = [.error (.unresolvedSeries 7), .ok "cpu host=a",
        .error (.corruptRecord 96 (.truncated 1))] := by
      cases hopen
      exact NameCursor.eq_of_itemAt hitemAt (by decide +kernel) (by decide +kernel)
    rw [hnames] at hdrains
    exact ⟨c, w', hopen, (hdrains _ _).mpr ⟨rfl, rfl⟩⟩

end Session

end TimeSeries
