import TimeSeries.Proofs.Client.Panics
import TimeSeries.Proofs.Engine.Coherence
import TimeSeries.Proofs.Engine.Feed

/-!
# What a cursor does not come back from

A cursor shares its engine with others. Between two of its own operations anything may be asked of
the engine, by whatever handle, anybody may work with databases, sessions and cursors, and the
engine may be disturbed (`Incident`). All of this can do three things to the feed of a cursor: read
from it, fail it or close it (`Feed.Step`), since handles are not given out twice. So a feed that
failed or is gone stays so (`Feed.Failed`), and so does one that has nothing more to give
(`Feed.Over`).

The rest is the cursor's own: a buffer that is used up over such a feed stays used up
(`Cursor.Spent`), a cursor that is spoilt stays so until it is closed (`Cursor.Spoilt`), and then it
is spent. Main result: `Cursor.absorbs_of_openCursor`.
-/

namespace TimeSeries

/-! ### Feeds -/

namespace Feed

/-- **Step of a feed**, or of none: what a call or a disturbance makes of it. -/
inductive Step : Option Feed → Option Feed → Prop where
  /-- it is left alone -/
  | refl (feed? : Option Feed) : Step feed? feed?
  /-- it is read from -/
  | read (feed : Feed) (room : Nat) : Step (some feed) (some (Memory.Feed.read feed room).2)
  /-- it fails -/
  | fail (feed : Feed) (status : Status) :
      Step (some feed) (some { feed with error := some status })
  /-- it is closed -/
  | close (feed? : Option Feed) : Step feed? none

/-- **A failed `Feed`**, or one that is gone. -/
def Failed (feed? : Option Feed) : Prop := ∀ feed ∈ feed?, feed.error.isSome

/-- **A `Feed` that is over**: it failed, has no records left, or is gone. -/
def Over (feed? : Option Feed) : Prop := ∀ feed ∈ feed?, feed.error.isSome ∨ feed.records = []

/-- A `read` of a feed that failed gives nothing and changes nothing. -/
theorem read_of_failed {feed : Feed} (h : feed.error.isSome) (room : Nat) :
    Memory.Feed.read feed room = ([], feed) := by
  obtain ⟨status, hstatus⟩ := Option.isSome_iff_exists.mp h
  rw [Memory.Feed.read, hstatus]

/-- A `read` of a feed that is over gives nothing and changes nothing. -/
theorem read_of_over {feed : Feed} (h : feed.error.isSome ∨ feed.records = []) (room : Nat) :
    Memory.Feed.read feed room = ([], feed) := by
  obtain ⟨records, _ | status⟩ := feed
  · obtain h | rfl := h
    · cases h
    · exact Memory.read_nil room
  · exact read_of_failed rfl room

variable {feed? feed?' : Option Feed}

theorem Failed.step (h : Failed feed?) (hstep : Step feed? feed?') : Failed feed?' := by
  cases hstep with
  | refl => exact h
  | close => exact fun _ hnone => by cases hnone
  | fail feed status =>
    rintro _ ⟨⟩
    rfl
  | read feed room =>
    rw [read_of_failed (h feed rfl)]
    exact h

theorem Over.step (h : Over feed?) (hstep : Step feed? feed?') : Over feed?' := by
  cases hstep with
  | refl => exact h
  | close => exact fun _ hnone => by cases hnone
  | fail feed status =>
    rintro _ ⟨⟩
    exact .inl rfl
  | read feed room =>
    rw [read_of_over (h feed rfl)]
    exact h

end Feed

namespace Memory

variable (parse : String → Option Json) {handle : Handle}

/-- A cursor has a `cursorError` just when its feed `Failed`. -/
theorem cursorError_isSome_iff (m : Memory) (handle : Handle) :
    (m.cursorError handle).isSome ↔ Feed.Failed (m.cursors.find? handle) := by
  rw [cursorError, Feed.Failed]
  cases m.cursors.find? handle <;> simp

/-- A cursor has nothing more to give, `cursorIsDone`, just when its feed is `Over`. -/
theorem cursorIsDone_iff (m : Memory) (handle : Handle) :
    m.cursorIsDone handle = true ↔ Feed.Over (m.cursors.find? handle) := by
  rw [cursorIsDone, Feed.Over]
  cases m.cursors.find? handle <;> simp

/-- **What a `Call` does to a feed** that was given out: one that reads or closes its cursor does
that, and no other does anything to it. -/
theorem step_ask (call : Call) {w : World Memory} (hgiven : handle ≤ w.engine.lastHandle) :
    Feed.Step (w.engine.cursors.find? handle)
      (((engine parse).ask call w).2.engine.cursors.find? handle) := by
  by_cases htouches : call.Touches handle
  · cases call with
    | cursorRead cursor capacity =>
      obtain rfl : cursor = handle := htouches
      rw [ask_cursorRead, onEngine, cursorRead]
      dsimp only
      cases hfeed : w.engine.cursors.find? cursor with
      | none =>
        dsimp only
        rw [hfeed]
        exact .refl none
      | some feed =>
        dsimp only
        rw [Table.find?_put_self]
        exact .read feed _
    | cursorClose cursor =>
      obtain rfl : cursor = handle := htouches
      have hclosed : ((engine parse).ask (.cursorClose cursor) w).2.engine.cursors.find? cursor =
          none := (Table.find?_erase w.engine.cursors cursor cursor).trans (if_pos rfl)
      rw [hclosed]
      exact .close _
    | _ => exact htouches.elim
  · rw [feed_ask parse hgiven htouches]
    exact .refl _

/-- **What a `Disturbance` does to a feed**: it fails with all others, or is left alone. -/
theorem step_disturb (w : World Memory) (d : Disturbance) (handle : Handle) :
    Feed.Step (w.engine.cursors.find? handle)
      ((disturb w d).engine.cursors.find? handle) := by
  cases d with
  | failCursors status =>
    have hmapped := Table.find?_mapValues w.engine.cursors
      (fun f : Feed => { f with error := some status }) handle
    rw [disturb, hmapped]
    cases w.engine.cursors.find? handle with
    | none => exact .refl none
    | some feed => exact .fail feed status
  | _ => exact .refl _

theorem lastHandle_disturb (w : World Memory) (d : Disturbance) :
    (disturb w d).engine.lastHandle = w.engine.lastHandle := by
  cases d <;> rfl

end Memory

/-! ### Incidents -/

/-- **Incident**: one of a cursor's own operations, or what others do between them. -/
inductive Incident : Type where
  /-- the cursor's next row is read -/
  | nextRow
  /-- the cursor's next item is taken -/
  | next
  /-- the cursor is asked whether everything has been read -/
  | done
  /-- the cursor is asked whether the engine reports no error -/
  | canProceed
  /-- the cursor is closed -/
  | close
  /-- an act on the engine: a call with any handles, a disturbance or a change of files -/
  | act (a : Memory.Act)
  /-- a command to any workspace over the same world, whatever is in it -/
  | command (databases : Table Label Database) (sessions : Table Label (Child Session))
      (readers : Table Label (Child Reader)) (c : Command)

/-- **Calm incidents**: those that report no panic. -/
def Incident.Calm (t : Incident) : Prop := ∀ message, t ≠ .act (.disturb (.raisePanic message))

namespace Cursor

variable (parse : String → Option Json)

/-- What an incident makes of a cursor and the world. -/
def meet (c : Cursor) (w : World Memory) : Incident → Cursor × World Memory
  | .nextRow => (c.nextRow (Memory.engine parse) w).2
  | .next => (c.next (Memory.engine parse) w).2
  | .done => (c, (c.done (Memory.engine parse) w).2)
  | .canProceed => (c, (c.canProceed (Memory.engine parse) w).2)
  | .close => (c.close (Memory.engine parse) w).2
  | .act a => (c, Memory.act parse w a)
  | .command databases sessions readers command =>
    let ws : Workspace Memory := { world := w, databases, sessions, readers }
    (c, (ws.run (Memory.engine parse) command).2.world)

/-- What one `Incident` after another makes of a cursor and the world. -/
def undergo (c : Cursor) (w : World Memory) (later : List Incident) : Cursor × World Memory :=
  later.foldl (fun state t => meet parse state.1 state.2 t) (c, w)

/-- **Ever after**: whatever incidents of some kind there are, `P` holds. -/
def EverAfter (kind : Incident → Prop) (P : Cursor → World Memory → Prop) (c : Cursor)
    (w : World Memory) : Prop :=
  ∀ later : List Incident, (∀ t ∈ later, kind t) →
    P (undergo parse c w later).1 (undergo parse c w later).2

variable {parse} {kind : Incident → Prop} {P Q : Cursor → World Memory → Prop} {c c' : Cursor}
  {w w' : World Memory}

/-- **What every incident keeps** is so `EverAfter`. -/
theorem everAfter_of_keeps
    (hstep : ∀ {c w} t, kind t → P c w → P (meet parse c w t).1 (meet parse c w t).2)
    (h : P c w) : EverAfter parse kind P c w := by
  intro later hlater
  induction later generalizing c w with
  | nil => exact h
  | cons t later ih =>
    have hmeet := hstep t (hlater t List.mem_cons_self) h
    exact ih hmeet fun t' ht' => hlater t' (List.mem_cons_of_mem t ht')

theorem EverAfter.mono (h : EverAfter parse kind P c w) (hPQ : ∀ {c w}, P c w → Q c w) :
    EverAfter parse kind Q c w := fun later hlater => hPQ (h later hlater)

/-! ### The feed of a cursor -/

/-- **Feeding**: there was no panic, and the handle of the cursor, if it was not given up, was given
out and stands for a feed of some kind. -/
structure Feeds (F : Option Feed → Prop) (c : Cursor) (w : World Memory) : Prop where
  /-- there was no panic -/
  panic : w.channel.panic = none
  /-- its handle was given out -/
  given : ∀ handle, c.handle = some handle → handle ≤ w.engine.lastHandle
  /-- its feed is of the kind -/
  feed : ∀ handle, c.handle = some handle → F (w.engine.cursors.find? handle)

namespace Feeds

variable {F : Option Feed → Prop}

/-- Only the handle of the cursor matters. -/
theorem of_handle (h : c.Feeds F w)
    (hhandle : ∀ handle, c'.handle = some handle → c.handle = some handle) : c'.Feeds F w :=
  ⟨h.panic, fun handle hc => h.given handle (hhandle handle hc),
    fun handle hc => h.feed handle (hhandle handle hc)⟩

/-- Of whatever kind the feed is, there was no panic and the handle was given out. -/
theorem some_kind (h : c.Feeds F w) : c.Feeds (fun _ => True) w :=
  ⟨h.panic, h.given, fun _ _ => trivial⟩

/-- A closed cursor has no feed. -/
theorem of_closed (hpanic : w.channel.panic = none) (hclosed : c.handle = none) : c.Feeds F w :=
  ⟨hpanic, fun _ hhandle => (nomatch hclosed.symm.trans hhandle),
    fun _ hhandle => (nomatch hclosed.symm.trans hhandle)⟩

section Keeping

variable (hkeeps : ∀ {feed? feed?'}, Feed.Step feed? feed?' → F feed? → F feed?')

include hkeeps

/-- A world that follows in one step. -/
theorem world (h : c.Feeds F w) (hpanic : w'.channel.panic = w.channel.panic)
    (hlast : w.engine.lastHandle ≤ w'.engine.lastHandle)
    (hstep : ∀ handle ≤ w.engine.lastHandle,
      Feed.Step (w.engine.cursors.find? handle) (w'.engine.cursors.find? handle)) :
    c.Feeds F w' :=
  ⟨hpanic.trans h.panic, fun handle hhandle => Nat.le_trans (h.given handle hhandle) hlast,
    fun handle hhandle => hkeeps (hstep handle (h.given handle hhandle)) (h.feed handle hhandle)⟩

theorem leads {calls : Call → Prop} (h : c.Feeds F w)
    (hleads : (Memory.engine parse).Leads calls w w') : c.Feeds F w' :=
  hleads.keeps (P := c.Feeds F)
    (fun call v _ hv => hv.world hkeeps (Memory.panic_ask parse call v)
      (Memory.framed_ask parse call v).lastHandle_le
      fun _ hgiven => Memory.step_ask parse call hgiven) h

theorem disturb (h : c.Feeds F w) (d : Memory.Disturbance)
    (hcalm : ∀ message, d ≠ .raisePanic message) : c.Feeds F (Memory.disturb w d) := by
  refine h.world hkeeps ?_ (Nat.le_of_eq (Memory.lastHandle_disturb w d).symm)
    fun handle _ => Memory.step_disturb w d handle
  cases d with
  | raisePanic message => exact absurd rfl (hcalm message)
  | _ => rfl

theorem advances (h : c.Feeds F w) (hadvances : Advances (Memory.engine parse) c w c' w') :
    c'.Feeds F w' :=
  (h.leads hkeeps hadvances.asks).of_handle fun _ hhandle => hadvances.handle_eq ▸ hhandle

/-- **A calm incident keeps the feed** of its kind, if steps do. -/
theorem meet (h : c.Feeds F w) {t : Incident} (hcalm : t.Calm) :
    (meet parse c w t).1.Feeds F (meet parse c w t).2 := by
  cases t with
  | nextRow => exact h.advances hkeeps (c.advances_nextRow _ w)
  | next => exact h.advances hkeeps (c.advances_next _ w)
  | done => exact h.leads hkeeps (c.asks_done _ w)
  | canProceed => exact h.leads hkeeps (c.asks_canProceed _ w)
  | close =>
    have hclosed := (Reader.rows c).close_cursor (Memory.engine parse) w
    exact (h.leads hkeeps (c.leads_close _ w)).of_handle hclosed.2
  | command databases sessions readers command =>
    exact h.leads hkeeps (Workspace.leads_run parse ⟨w, databases, sessions, readers⟩ command)
  | act a =>
    cases a with
    | call call =>
      have hleads : (Memory.engine parse).Leads (fun _ => True) w
        ((Memory.engine parse).ask call w).2 := .one trivial w
      exact h.leads hkeeps hleads
    | disturb d =>
      exact h.disturb hkeeps d fun message hd => hcalm message (by rw [hd])
    | files tree => exact ⟨h.panic, h.given, h.feed⟩

end Keeping

end Feeds

/-! ### Cursors that can't proceed -/

/-- A cursor can't proceed, by `canProceed`, just when its feed `Failed`, or it has none. -/
theorem canProceed_eq_false_iff (h : c.Feeds (fun _ => True) w) :
    (c.canProceed (Memory.engine parse) w).1 = .ok false ↔ c.Feeds Feed.Failed w := by
  rw [canProceed, World.check_of_no_panic h.panic]
  cases hhandle : c.handle with
  | none => exact ⟨fun _ => .of_closed h.panic hhandle, fun _ => rfl⟩
  | some handle =>
    have herror := w.engine.cursorError_isSome_iff handle
    simp only [Memory.ask_cursorError, Except.ok.injEq, Option.isNone_eq_false_iff, herror]
    constructor
    · intro hfailed
      refine ⟨h.panic, h.given, fun handle' hhandle' => ?_⟩
      obtain rfl : handle = handle' := Option.some.inj (hhandle.symm.trans hhandle')
      exact hfailed
    · exact fun hfailed => hfailed.feed handle hhandle

/-! ### Cursors that are done -/

/-- **Spent cursors**: the buffer is used up and the feed is `Over`, or there is none. -/
structure Spent (c : Cursor) (w : World Memory) : Prop where
  /-- there is nothing in the buffer -/
  exhausted : c.buffer.isExhausted = true
  /-- there is nothing more to come -/
  drained : c.Feeds Feed.Over w

/-- A cursor is `done` just when it is `Spent`. -/
theorem done_eq_true_iff (h : c.Feeds (fun _ => True) w) :
    (c.done (Memory.engine parse) w).1 = .ok true ↔ c.Spent w := by
  rw [done, World.check_of_no_panic h.panic]
  cases hexhausted : c.buffer.isExhausted with
  | false =>
    refine ⟨fun hdone => ?_, fun hspent => ?_⟩
    · cases hdone
    · cases hexhausted.symm.trans hspent.exhausted
  | true =>
    cases hhandle : c.handle with
    | none => exact ⟨fun _ => ⟨hexhausted, .of_closed h.panic hhandle⟩, fun _ => rfl⟩
    | some handle =>
      have hover := w.engine.cursorIsDone_iff handle
      simp only [Memory.ask_cursorIsDone, Except.ok.injEq, Bool.not_true, Bool.false_eq_true,
        if_false, hover]
      constructor
      · intro hover
        refine ⟨hexhausted, h.panic, h.given, fun handle' hhandle' => ?_⟩
        obtain rfl : handle = handle' := Option.some.inj (hhandle.symm.trans hhandle')
        exact hover
      · exact fun hspent => hspent.drained.feed handle hhandle

/-- Bytes that are `unread` are in a buffer that is not used up. -/
theorem isExhausted_of_unread (hunread : c.buffer.unread ≠ []) : c.buffer.isExhausted = false := by
  rw [ReadBuffer.isExhausted, beq_eq_false_iff_ne]
  intro hposition
  rw [ReadBuffer.unread, hposition, Nat.sub_self, List.take_zero] at hunread
  exact hunread rfl

namespace Spent

/-- A `topUp` from a feed that is over brings nothing. -/
theorem isExhausted_topUp (h : c.Spent w) {handle : Handle} (hhandle : c.handle = some handle) :
    (c.topUp (Memory.engine parse) handle w).1.buffer.isExhausted = true := by
  rw [topUp, if_pos h.exhausted, Memory.ask_cursorRead, Memory.onEngine, Memory.cursorRead]
  dsimp only
  cases hfeed : w.engine.cursors.find? handle with
  | none => rfl
  | some feed =>
    dsimp only
    rw [Feed.read_of_over (h.drained.feed handle hhandle feed hfeed)]
    rfl

/-- **A spent cursor gives no row**, and its buffer stays used up. -/
theorem nextRow (h : c.Spent w) :
    (∀ row, (c.nextRow (Memory.engine parse) w).1 ≠ .ok (some row)) ∧
      (c.nextRow (Memory.engine parse) w).2.1.buffer.isExhausted = true := by
  rw [Cursor.nextRow, World.check_of_no_panic h.drained.panic]
  cases hhandle : c.handle with
  | none => exact ⟨fun row hrow => (by cases hrow), h.exhausted⟩
  | some handle =>
    cases hcorrupt : c.corrupt with
    | some fault => exact ⟨fun row hrow => (by cases hrow), h.exhausted⟩
    | none =>
      have hexhausted : (c.topUp (Memory.engine parse) handle w).1.buffer.isExhausted = true :=
        h.isExhausted_topUp hhandle
      dsimp only
      rw [readOn]
      rcases htop : c.topUp (Memory.engine parse) handle w with ⟨c', w'⟩
      rw [htop] at hexhausted
      dsimp only at hexhausted ⊢
      rw [Memory.ask_cursorError]
      cases w'.engine.cursorError handle with
      | some status => exact ⟨fun row hrow => (by cases hrow), hexhausted⟩
      | none =>
        dsimp only
        rw [if_pos hexhausted]
        exact ⟨fun row hrow => (by cases hrow), hexhausted⟩

/-- **A spent cursor stays spent**, whatever its next item is. -/
theorem nextWithin (h : c.Spent w) (fuel : Nat) :
    (nextWithin (Memory.engine parse) fuel c w).2.1.buffer.isExhausted = true := by
  induction fuel generalizing c w with
  | zero => exact h.exhausted
  | succ fuel ih =>
    have hadvances := c.advances_nextRow (Memory.engine parse) w
    have hrow : (∀ row, (c.nextRow (Memory.engine parse) w).1 ≠ .ok (some row)) ∧
      (c.nextRow (Memory.engine parse) w).2.1.buffer.isExhausted = true := h.nextRow
    rw [Cursor.nextWithin]
    rcases hstep : c.nextRow (Memory.engine parse) w with ⟨failure | _ | row, c', w'⟩ <;>
      rw [hstep] at hadvances hrow <;> obtain ⟨hnone, hexhausted⟩ := hrow
    · cases failure <;> exact hexhausted
    · have hspent : c'.Spent w' :=
        ⟨hexhausted, h.drained.advances (fun hs hf => hf.step hs) hadvances⟩
      have hasks := c'.asks_done (Memory.engine parse) w'
      dsimp only
      rcases hdone : c'.done (Memory.engine parse) w' with ⟨failure | _ | _, w''⟩ <;>
        rw [hdone] at hasks
      · exact hexhausted
      · exact ih ⟨hexhausted, hspent.drained.leads (fun hs hf => hf.step hs) hasks⟩
      · exact hexhausted
    · exact absurd rfl (hnone row)

/-- **A spent cursor stays spent**, whatever the incident. -/
theorem meet (h : c.Spent w) {t : Incident} (hcalm : t.Calm) :
    (meet parse c w t).1.Spent (meet parse c w t).2 := by
  refine ⟨?_, h.drained.meet (fun hs hf => hf.step hs) hcalm⟩
  cases t with
  | nextRow => exact h.nextRow.2
  | next =>
    rw [Cursor.meet, next]
    split
    · exact h.exhausted
    · exact h.nextWithin _
  | close =>
    rw [Cursor.meet, close, World.check_of_no_panic h.drained.panic]
    cases c.handle with
    | none => exact h.exhausted
    | some handle => exact beq_self_eq_true _
  | done => exact h.exhausted
  | canProceed => exact h.exhausted
  | act a => exact h.exhausted
  | command databases sessions readers command => exact h.exhausted

end Spent

/-! ### Cursors that are spoilt -/

/-- **Spoilt cursors**: open ones that met a record that does not fit its bytes, which is in
`corrupt`. -/
structure Spoilt (offset : Nat) (fault : RecordFault) (c : Cursor) (w : World Memory) : Prop where
  /-- there was no panic, and the handle was given out -/
  feeds : c.Feeds (fun _ => True) w
  /-- the record -/
  corrupt_eq : c.corrupt = some (offset, fault)
  /-- the cursor is open -/
  isOpen : c.handle.isSome

variable {offset : Nat} {fault : RecordFault}

/-- Only a record that does not fit its bytes is reported as `corruptRecord`, and it spoils the
cursor. -/
theorem takeRecord_corrupt
    (h : (c.takeRecord (Memory.engine parse) w).1 = .error (.corruptRecord offset fault)) :
    (c.takeRecord (Memory.engine parse) w).2.1.corrupt = some (offset, fault) := by
  rw [takeRecord] at h ⊢
  split at h
  next fault' _ =>
    cases h
    rfl
  next header hparse =>
    dsimp only at h
    split at h
    · cases h
    · split at h <;> cases h

/-- **A `corruptRecord` spoils the cursor.** -/
theorem spoilt_of_nextRow (h : c.Feeds (fun _ => True) w)
    (hrow : (c.nextRow (Memory.engine parse) w).1 = .error (.corruptRecord offset fault)) :
    (c.nextRow (Memory.engine parse) w).2.1.Spoilt offset fault
      (c.nextRow (Memory.engine parse) w).2.2 := by
  have hadvances := c.advances_nextRow (Memory.engine parse) w
  have hfeeds := h.advances (fun _ _ => trivial) hadvances
  have hcorrupt : (c.nextRow (Memory.engine parse) w).2.1.corrupt = some (offset, fault) ∧
      c.handle.isSome := by
    rw [nextRow, World.check_of_no_panic h.panic] at hrow ⊢
    cases hhandle : c.handle with
    | none => rw [hhandle] at hrow; cases hrow
    | some handle =>
      cases hcorrupt : c.corrupt with
      | some earlier =>
        rw [hhandle, hcorrupt] at hrow
        cases hrow
        exact ⟨hcorrupt, rfl⟩
      | none =>
        rw [hhandle, hcorrupt] at hrow
        dsimp only at hrow ⊢
        rw [readOn] at hrow ⊢
        rcases htop : c.topUp (Memory.engine parse) handle w with ⟨c', w'⟩
        rw [htop] at hrow
        dsimp only at hrow ⊢
        rw [Memory.ask_cursorError] at hrow ⊢
        cases herror : w'.engine.cursorError handle with
        | some status => rw [herror] at hrow; cases hrow
        | none =>
          rw [herror] at hrow
          dsimp only at hrow ⊢
          split at hrow
          · cases hrow
          next hunread => exact ⟨by rw [if_neg hunread]; exact takeRecord_corrupt hrow, rfl⟩
  exact ⟨hfeeds, hcorrupt.1, hadvances.handle_eq ▸ hcorrupt.2⟩

namespace Spoilt

/-- **A `Spoilt` cursor says so** and asks nothing. -/
theorem nextRow_eq (h : c.Spoilt offset fault w) :
    c.nextRow (Memory.engine parse) w = (.error (.corruptRecord offset fault), c, w) := by
  obtain ⟨handle, hhandle⟩ := Option.isSome_iff_exists.mp h.isOpen
  rw [nextRow, World.check_of_no_panic h.feeds.panic, hhandle, h.corrupt_eq]

/-- **A spoilt cursor stays spoilt** until it is closed. -/
theorem meet (h : c.Spoilt offset fault w) {t : Incident} (hcalm : t.Calm) (hopen : t ≠ .close) :
    (meet parse c w t).1.Spoilt offset fault (meet parse c w t).2 := by
  have hfeeds : (Cursor.meet parse c w t).1.Feeds (fun _ => True) (Cursor.meet parse c w t).2 :=
    h.feeds.meet (fun _ _ => trivial) hcalm
  cases t with
  | nextRow =>
    rw [Cursor.meet, h.nextRow_eq]
    exact h
  | next =>
    rw [Cursor.meet, next]
    split
    · exact h
    · rw [nextWithin, h.nextRow_eq]
      exact ⟨h.feeds.of_handle fun _ hhandle => hhandle, h.corrupt_eq, h.isOpen⟩
  | close => exact absurd rfl hopen
  | done => exact ⟨hfeeds, h.corrupt_eq, h.isOpen⟩
  | canProceed => exact ⟨hfeeds, h.corrupt_eq, h.isOpen⟩
  | act a => exact ⟨hfeeds, h.corrupt_eq, h.isOpen⟩
  | command databases sessions readers command => exact ⟨hfeeds, h.corrupt_eq, h.isOpen⟩

end Spoilt

/-! ### Closed cursors -/

/-- **Closed cursors** that are `Spent`. -/
structure Shut (c : Cursor) (w : World Memory) : Prop where
  /-- it is spent -/
  spent : c.Spent w
  /-- it is closed -/
  closed : c.handle = none

/-- **To `close`** an open cursor shuts it. -/
theorem shut_close (h : c.Feeds (fun _ => True) w) (hopen : c.handle.isSome) :
    (c.close (Memory.engine parse) w).2.1.Shut (c.close (Memory.engine parse) w).2.2 := by
  obtain ⟨handle, hhandle⟩ := Option.isSome_iff_exists.mp hopen
  rw [close, World.check_of_no_panic h.panic, hhandle]
  exact ⟨⟨beq_self_eq_true _, .of_closed h.panic rfl⟩, rfl⟩

/-- **A closed cursor stays closed**, whatever the incident. -/
theorem Shut.meet (h : c.Shut w) {t : Incident} (hcalm : t.Calm) :
    (meet parse c w t).1.Shut (meet parse c w t).2 := by
  refine ⟨h.spent.meet hcalm, ?_⟩
  cases t with
  | nextRow => exact (c.advances_nextRow _ w).handle_eq.trans h.closed
  | next => exact (c.advances_next _ w).handle_eq.trans h.closed
  | close =>
    rw [Cursor.meet, close, World.check_of_no_panic h.spent.drained.panic, h.closed]
    exact h.closed
  | done => exact h.closed
  | canProceed => exact h.closed
  | act a => exact h.closed
  | command databases sessions readers command => exact h.closed

theorem Shut.nextRow_eq (h : c.Shut w) :
    c.nextRow (Memory.engine parse) w = (.ok none, c, w) := by
  rw [nextRow, World.check_of_no_panic h.spent.drained.panic, h.closed]

/-! ### Ever after -/

/-- A cursor that `openCursor` gives has a handle that was given out. -/
theorem feeds_of_openCursor {s : Session} {text : String} {w₀ : World Memory}
    (hopen : s.openCursor (Memory.engine parse) text w₀ = (.ok c, w)) :
    c.Feeds (fun _ => True) w := by
  have hpanic : w₀.channel.panic = none := by
    cases hpanic : w₀.channel.panic with
    | none => rfl
    | some message =>
      rw [s.openCursor_of_panic _ hpanic] at hopen
      cases hopen
  rw [Session.openCursor] at hopen
  split at hopen
  · cases hopen
  next session _ =>
    have hkept := Memory.panic_ask parse (.query session text) w₀
    have hnext := Workspace.ask_query_fst parse session text w₀
    obtain ⟨_, _, _, _, hquery⟩ := Memory.query_eq parse (w := w₀) session text
    rcases hasked : (Memory.engine parse).ask (.query session text) w₀ with ⟨handle, w'⟩
    rw [hasked] at hopen hkept hnext hquery
    cases hopen
    refine ⟨hkept.trans hpanic, ?_, fun _ _ => trivial⟩
    rintro _ ⟨⟩
    obtain rfl : handle = w₀.engine.nextHandle := hnext
    dsimp only at hquery
    exact Nat.le_of_eq (by rw [hquery])

/-- **What a cursor does not come back from.** Take any cursor, after any incidents. If by
`canProceed` it can't proceed, it never can again. If it is `done`, it is done ever after, and
`nextRow` gives no row any more; it is not done while there are unread bytes in its buffer. If its
next row is corrupt, then that is said again at every try, without a call, until it is closed; and
then there is nothing any more, it is done, and it can't proceed. -/
theorem absorbs_of_openCursor {s : Session} {text : String} {w₀ w₁ : World Memory} {c₁ : Cursor}
    (hopen : s.openCursor (Memory.engine parse) text w₀ = (.ok c₁, w₁)) (earlier : List Incident)
    (hcalm : ∀ t ∈ earlier, t.Calm) :
    let E := Memory.engine parse
    let c := (undergo parse c₁ w₁ earlier).1
    let w := (undergo parse c₁ w₁ earlier).2
    ((c.canProceed E w).1 = .ok false →
      EverAfter parse Incident.Calm (fun c w => (c.canProceed E w).1 = .ok false) c w) ∧
    ((c.done E w).1 = .ok true →
      EverAfter parse Incident.Calm
        (fun c w => (c.done E w).1 = .ok true ∧ ∀ row, (c.nextRow E w).1 ≠ .ok (some row)) c w) ∧
    (c.buffer.unread ≠ [] → (c.done E w).1 = .ok false) ∧
    ∀ offset fault, (c.nextRow E w).1 = .error (.corruptRecord offset fault) →
      EverAfter parse (fun t => t.Calm ∧ t ≠ .close)
        (fun c w => c.nextRow E w = (.error (.corruptRecord offset fault), c, w) ∧
          EverAfter parse Incident.Calm
            (fun c w => (c.nextRow E w).1 = .ok none ∧ (c.done E w).1 = .ok true ∧
              (c.canProceed E w).1 = .ok false)
            (c.close E w).2.1 (c.close E w).2.2)
        (c.nextRow E w).2.1 (c.nextRow E w).2.2 := by
  intro E c w
  have hfeeds : c.Feeds (fun _ => True) w :=
    everAfter_of_keeps (P := Feeds fun _ => True)
      (fun _ ht h => h.meet (fun _ _ => trivial) ht) (feeds_of_openCursor hopen) earlier hcalm
  refine ⟨fun hstuck => ?_, fun hdone => ?_, fun hunread => ?_, fun offset fault hrow => ?_⟩
  · have hfailed := (canProceed_eq_false_iff hfeeds).mp hstuck
    refine (everAfter_of_keeps (P := Feeds Feed.Failed)
      (fun _ ht h => h.meet (fun hs hf => hf.step hs) ht) hfailed).mono fun h => ?_
    exact (canProceed_eq_false_iff h.some_kind).mpr h
  · have hspent := (done_eq_true_iff hfeeds).mp hdone
    refine (everAfter_of_keeps (P := Spent) (fun _ ht h => h.meet ht) hspent).mono fun h => ?_
    exact ⟨(done_eq_true_iff h.drained.some_kind).mpr h, h.nextRow.1⟩
  · rw [done, World.check_of_no_panic hfeeds.panic, isExhausted_of_unread hunread]
    rfl
  · have hspoilt := spoilt_of_nextRow hfeeds hrow
    refine (everAfter_of_keeps (P := Spoilt offset fault)
      (fun _ ht h => h.meet ht.1 ht.2) hspoilt).mono fun h => ⟨h.nextRow_eq, ?_⟩
    have hshut := @shut_close parse _ _ h.feeds h.isOpen
    refine (everAfter_of_keeps (P := Shut) (fun _ ht h => h.meet ht) hshut).mono fun h => ?_
    have hfeeds := h.spent.drained.some_kind
    exact ⟨by rw [h.nextRow_eq], (done_eq_true_iff hfeeds).mpr h.spent,
      (canProceed_eq_false_iff hfeeds).mpr (.of_closed hfeeds.panic h.closed)⟩

/-- A cursor over a single byte, which is no record: that is said again, whatever happens, until the
cursor is closed. -/
theorem absorbs_of_openCursor_truncated :
    let parse : String → Option Json := fun _ => none
    let E := Memory.engine parse
    let w₀ : World Memory := { engine := { rawResults := [[7]] }, files := {} }
    let c : Cursor := .ofHandle 1 1 8
    let w := (E.ask (.query 1 "") w₀).2
    (⟨some 1, { buffer := 8 }⟩ : Session).openCursor E "" w₀ = (.ok c, w) ∧
      (c.nextRow E w).1 = .error (.corruptRecord 0 (.truncated 1)) ∧
      EverAfter parse (fun t => t.Calm ∧ t ≠ .close)
        (fun c w => c.nextRow E w = (.error (.corruptRecord 0 (.truncated 1)), c, w))
        (c.nextRow E w).2.1 (c.nextRow E w).2.2 := by
  intro parse E w₀ c w
  have hopen : (⟨some 1, { buffer := 8 }⟩ : Session).openCursor E "" w₀ = (.ok c, w) := rfl
  have hrow : (c.nextRow E w).1 = .error (.corruptRecord 0 (.truncated 1)) := rfl
  obtain ⟨-, -, -, hcorrupt⟩ := absorbs_of_openCursor hopen [] fun t ht => by cases ht
  exact ⟨hopen, hrow, (hcorrupt 0 (.truncated 1) hrow).mono fun h => h.1⟩

end Cursor

end TimeSeries
