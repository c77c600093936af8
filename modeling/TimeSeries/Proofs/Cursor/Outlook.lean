import TimeSeries.Proofs.Cursor.Reading

/-!
# What a cursor has in prospect

How a cursor gets at its rows is its own business; what it is going to give is told by its
outlook: the rows that are left, the status that its query failed with, or that it was closed
(`Stage`), and whether its iteration has come to the end (`Outlook`). A cursor that expects a
stage (`Cursor.Expects`) gives what the outlook says and expects the next one
(`Expects.nextRow`, `Expects.next`), whatever its buffer holds and however much patience the
engine asks for. Nothing but its feed and the names of its series matter to it
(`Expects.kept`).
-/

namespace TimeSeries

/-! ### Outlooks -/

/-- **Stage** of a cursor: what it is going to give. -/
inductive Stage : Type where
  /-- some rows and then nothing -/
  | rows (left : List Row)
  /-- a failure at every read -/
  | failed (status : Status)
  /-- nothing, as it was closed -/
  | closed

namespace Stage

/-- What the next `nextRow` gives. -/
def first : Stage → Except Failure (Option Row)
  | rows left => .ok left.head?
  | failed status => .error (.engine status)
  | closed => .ok none

/-- The stage after `nextRow`. -/
def rest : Stage → Stage
  | rows left => rows left.tail
  | failed status => failed status
  | closed => closed

/-- All items that are going to be given. -/
def items : Stage → List (Item Row)
  | rows left => left.map .ok
  | failed status => [.error (.engine status)]
  | closed => []

/-- Whether everything was read, as `done` says. A cursor over names is not done while there is a
failure. -/
def isDone (names : Bool) : Stage → Bool
  | rows left => left.isEmpty
  | failed _ => !names
  | closed => true

/-- Whether there is no failure. A closed cursor can't proceed. -/
def canProceed : Stage → Bool
  | rows _ => true
  | _ => false

/-- Whether the cursor was closed. -/
def isClosed : Stage → Bool
  | closed => true
  | _ => false

end Stage

/-- **Outlook** of a cursor: its `Stage`, and whether its iteration is over. -/
structure Outlook : Type where
  /-- what it is going to give -/
  stage : Stage
  /-- whether its iteration has come to the end -/
  ended : Bool := false

/-- What the next call of `next` gives, and the outlook after it. -/
def Outlook.item (o : Outlook) : Option (Item Row) × Outlook :=
  if o.ended then (none, o)
  else
    match o.stage.first with
    | .ok (some row) => (some (.ok row), { stage := o.stage.rest })
    | .ok none => (none, { stage := o.stage.rest, ended := true })
    | .error failure => (some (.error failure), { stage := o.stage.rest, ended := true })

/-- A row that `item` gives is the `first` to be read. -/
theorem Outlook.first_of_item {o : Outlook} {row : Row} (h : o.item.1 = some (.ok row)) :
    o.stage.first = .ok (some row) := by
  rw [item] at h
  split at h
  · cases h
  · split at h
    next hfirst => cases h; exact hfirst
    next => cases h
    next => cases h

/-! ### Cursors and their outlooks -/

/-- **A record tells a row**: `readAlone` gives the row, with the name of its series. -/
structure Tells (resolve : SeriesId → Option String) (record : Bytes) (row : Row) : Prop where
  /-- it is a record -/
  isRecord : IsRecord record
  /-- it gives the row -/
  read_eq : readAlone resolve record = .ok row
  /-- the row has the name of a series -/
  named : row.series.isSome

/-- What a record `Tells` it still tells when names are added. -/
theorem Tells.mono {resolve resolve' : SeriesId → Option String} {record : Bytes} {row : Row}
    (h : Tells resolve record row)
    (hnames : ∀ id name, resolve id = some name → resolve' id = some name) :
    Tells resolve' record row := by
  obtain ⟨header, hparse, -⟩ := h.isRecord
  refine ⟨h.isRecord, ?_, h.named⟩
  have hread := h.read_eq
  rw [readAlone_eq hparse, Header.decodeRow] at hread ⊢
  split at hread
  next hseries =>
    rw [if_pos hseries]
    cases hname : resolve header.series with
    | none => rw [hname] at hread; cases hread
    | some name =>
      rw [hname] at hread
      rw [hnames _ _ hname]
      exact hread
  next hseries =>
    rw [if_neg hseries]
    exact hread

namespace Cursor

variable {c c' : Cursor} {w w' : World Memory} {stage : Stage}

/-- The cursor as if its iteration had not `ended`. -/
abbrev reopened (c : Cursor) : Cursor := { c with ended := false }

/-- **Expecting a `Stage`**: the cursor is going to give what the stage says. -/
inductive Expects (c : Cursor) (w : World Memory) : Stage → Prop where
  /-- the records of the rows are in the buffer and in the feed -/
  | rows {handle : Handle} {records : List Bytes} {left : List Row} :
    Streaming c.session handle c.reopened w records →
    List.Forall₂ (Tells (w.engine.idToSeries c.session)) records left → Expects c w (.rows left)
  /-- the feed failed, and there is nothing in the buffer -/
  | failed {handle : Handle} {feed : Feed} {status : Status} :
    Live c.session handle c.reopened → c.buffer.unread = [] →
    w.engine.cursors.find? handle = some feed → feed.error = some status →
    Expects c w (.failed status)
  /-- the cursor was closed, and there is nothing in the buffer -/
  | closed : c.handle = none → c.buffer.isExhausted = true → Expects c w .closed

/-- **What a cursor `Expects` is kept** as long as its feed is and its series keep their names. -/
theorem Expects.kept (h : c.Expects w stage) (hpanic : w'.channel.panic = none)
    (hopen : ∀ handle, c.handle = some handle →
      w'.engine.cursors.find? handle = w.engine.cursors.find? handle ∧
        ∀ id name, w.engine.idToSeries c.session id = some name →
          w'.engine.idToSeries c.session id = some name) : c.Expects w' stage := by
  cases h with
  | rows hstream htells =>
    obtain ⟨hfeed, hnames⟩ := hopen _ hstream.live.handle_eq
    exact .rows (hstream.undisturbed ⟨hfeed, fun _ => hpanic⟩)
      (htells.imp fun record row h => h.mono hnames)
  | failed hlive hunread hfound herror =>
    exact .failed hlive hunread ((hopen _ hlive.handle_eq).1.trans hfound) herror
  | closed hhandle hexhausted => exact .closed hhandle hexhausted

/-- Questions do not matter. -/
theorem Expects.asked (h : c.Expects w stage) (hpanic : w.channel.panic = none)
    (hasked : w.Asked w') : c.Expects w' stage :=
  h.kept (by rw [hasked.channel, hpanic]) fun _ _ => by
    rw [hasked.engine]
    exact ⟨rfl, fun _ _ => id⟩

/-- Whether the iteration has `ended` does not matter to what is expected. -/
theorem Expects.reopen {b : Bool} (h : c.Expects w stage) :
    ({ c with ended := b } : Cursor).Expects w stage := by
  cases h with
  | rows hstream htells => exact .rows hstream htells
  | failed hlive hunread hfound herror => exact .failed hlive hunread hfound herror
  | closed hhandle hexhausted => exact .closed hhandle hexhausted

/-- A row is read by `nextRow` regardless of whether the iteration has `ended`. -/
theorem nextRow_ended {σ : Type} (E : Engine σ) (c : Cursor) (b : Bool) (w : World σ) :
    ({ c with ended := b } : Cursor).nextRow E w =
      ((c.nextRow E w).1, { (c.nextRow E w).2.1 with ended := b }, (c.nextRow E w).2.2) := by
  have htake : ∀ (c : Cursor) (w : World σ),
      ({ c with ended := b } : Cursor).takeRecord E w =
        ((c.takeRecord E w).1, { (c.takeRecord E w).2.1 with ended := b },
          (c.takeRecord E w).2.2) := by
    intro c w
    rw [takeRecord, takeRecord]
    dsimp only
    split
    · rfl
    · dsimp only [resolve]
      split
      · rfl
      · split <;> rfl
  have hread : ∀ handle, ({ c with ended := b } : Cursor).readOn E handle w =
        ((c.readOn E handle w).1, { (c.readOn E handle w).2.1 with ended := b },
          (c.readOn E handle w).2.2) := by
    intro handle
    have htop : ({ c with ended := b } : Cursor).topUp E handle w =
        ({ (c.topUp E handle w).1 with ended := b }, (c.topUp E handle w).2) := by
      rw [topUp, topUp]
      dsimp only
      split <;> rfl
    rw [readOn, readOn, htop]
    rcases c.topUp E handle w with ⟨c', w'⟩
    dsimp only
    rcases E.ask (.cursorError handle) w' with ⟨_ | status, w''⟩
    · dsimp only
      split
      · rfl
      · exact htake c' w''
    · rfl
  rw [nextRow, nextRow]
  dsimp only
  split
  · rfl
  · rfl
  · rfl
  · exact hread _

/-! ### One call -/

namespace Expects

variable (parse : String → Option Json)

/-- **Whether a cursor is `done`** is told by its stage. -/
theorem done (h : c.Expects w stage) (hpanic : w.channel.panic = none) :
    ∃ w', w.Asked w' ∧ c.done (Memory.engine parse) w = (.ok (stage.isDone false), w') := by
  cases h with
  | rows hstream htells =>
    obtain ⟨buffered, queued, rfl, hunread, hfeed⟩ := hstream.split
    cases buffered with
    | nil =>
      have hexhausted := hstream.live.valid.isExhausted_iff.mpr hunread
      have hdone := done_of_isExhausted parse (c := c) hstream.live.handle_eq hpanic hexhausted hfeed
      cases htells <;> exact ⟨_, .called w _, hdone⟩
    | cons record buffered =>
      have hne : c.buffer.unread ≠ [] := by
        intro hnil
        rw [hnil, List.flatten_cons] at hunread
        exact (hstream.fits record List.mem_cons_self).1.ne_nil
          (List.append_eq_nil_iff.mp hunread.symm).1
      have hexhausted := isExhausted_eq_false hstream.live hne
      refine ⟨w, .refl w, ?_⟩
      rw [Cursor.done, World.check_of_no_panic hpanic]
      simp only [hexhausted]
      cases htells
      rfl
  | failed hlive hunread hfeed herror =>
    have hexhausted := hlive.valid.isExhausted_iff.mpr hunread
    have hdone := done_of_isExhausted parse (c := c) hlive.handle_eq hpanic hexhausted hfeed
    rw [herror] at hdone
    exact ⟨_, .called w _, hdone⟩
  | closed hhandle hexhausted =>
    refine ⟨w, .refl w, ?_⟩
    rw [Cursor.done, World.check_of_no_panic hpanic]
    simp only [hexhausted, hhandle]
    rfl

/-- **Whether a cursor can proceed** is told by its stage. -/
theorem canProceed (h : c.Expects w stage) (hpanic : w.channel.panic = none) :
    ∃ w', w.Asked w' ∧ c.canProceed (Memory.engine parse) w = (.ok stage.canProceed, w') := by
  have hopen : ∀ {handle feed}, c.handle = some handle →
      w.engine.cursors.find? handle = some feed →
      c.canProceed (Memory.engine parse) w =
        (.ok feed.error.isNone, w.called (.cursorError handle)) := by
    intro handle feed hhandle hfeed
    rw [Cursor.canProceed, World.check_of_no_panic hpanic, hhandle]
    simp only [Memory.ask_cursorError, cursorError_of_find? hfeed]
  cases h with
  | rows hstream htells =>
    obtain ⟨buffered, queued, -, -, hfeed⟩ := hstream.split
    exact ⟨_, .called w _, hopen hstream.live.handle_eq hfeed⟩
  | failed hlive hunread hfeed herror =>
    have hproceed := hopen hlive.handle_eq hfeed
    rw [herror] at hproceed
    exact ⟨_, .called w _, hproceed⟩
  | closed hhandle hexhausted =>
    refine ⟨w, .refl w, ?_⟩
    rw [Cursor.canProceed, World.check_of_no_panic hpanic, hhandle]
    rfl

/-- **A row is read by `nextRow`** as the stage says, if deliveries are not limited. -/
theorem nextRow (h : c.Expects w stage) (hpanic : w.channel.panic = none)
    (hlimit : w.engine.chunkLimit = none) :
    ∃ c' w', c.nextRow (Memory.engine parse) w = (stage.first, c', w') ∧ c'.Expects w' stage.rest ∧
      c'.ended = c.ended := by
  have hreopened : ∀ {result c' w'},
      c.reopened.nextRow (Memory.engine parse) w = (result, c', w') →
      c'.Expects w' stage.rest →
      ∃ c' w', c.nextRow (Memory.engine parse) w = (result, c', w') ∧ c'.Expects w' stage.rest ∧
        c'.ended = c.ended := by
    intro result c' w' hrow hexpects
    have hrow' := nextRow_ended (Memory.engine parse) c.reopened c.ended w
    rw [hrow] at hrow'
    exact ⟨_, _, hrow', hexpects.reopen, rfl⟩
  cases h with
  | rows hstream htells =>
    cases htells with
    | nil =>
      obtain ⟨buffered, queued, hsplit, hunread, hfeed⟩ := hstream.split
      obtain ⟨rfl, rfl⟩ := List.append_eq_nil_iff.mp hsplit.symm
      obtain ⟨hlive, hunread', hrow⟩ := nextRow_end parse hstream.live hpanic hunread hfeed
        (Memory.read_nil _) rfl
      refine hreopened hrow (.rows ⟨hlive, hpanic, ?_, [], [], rfl, hunread', ?_⟩ .nil)
      · intro record hrecord
        cases hrecord
      · exact find?_delivered w _ c.buffer.capacity _
    | cons hfirst hrest =>
      have hfed : ∀ record, ¬Starved c.reopened w record := by
        rintro record ⟨-, limit, hsome, -⟩
        rw [hlimit] at hsome
        cases hsome
      obtain ⟨c', w', hrow, hstream', -⟩ := hstream.nextRow_cons parse (hfed _)
      rw [hfirst.read_eq] at hrow
      have hmoves := c.reopened.moves_nextRow (Memory.engine parse) w
      rw [hrow] at hmoves
      -- the cursor stays in its session, where names are looked up as before
      have hsession : c'.session = c.session := hmoves.session_eq
      have hreopened' : c'.reopened = c' := by
        rw [reopened, ← hstream'.live.ended_eq]
      rw [← hsession] at hstream'
      rw [← hsession, ← hmoves.observed.idToSeries] at hrest
      exact hreopened hrow (.rows (by rw [hreopened']; exact hstream') hrest)
  | failed hlive hunread hfeed herror =>
    rename_i handle feed status
    have hread : Memory.Feed.read feed (w.engine.room c.buffer.capacity) = ([], feed) := by
      rw [Memory.Feed.read, herror]
    have hrow := nextRow_failed parse hlive hpanic hunread hfeed hread herror
    exact hreopened hrow (.failed ⟨hlive.session_eq, hlive.handle_eq, hlive.corrupt_eq, rfl,
      hlive.valid.refill _⟩ (ReadBuffer.unread_refill rfl (Nat.zero_le _))
      (find?_delivered w handle c.buffer.capacity feed) herror)
  | closed hhandle hexhausted =>
    have hrow : c.reopened.nextRow (Memory.engine parse) w = (.ok none, c.reopened, w) := by
      rw [Cursor.nextRow, World.check_of_no_panic hpanic, hhandle]
    exact hreopened hrow (.closed hhandle hexhausted)

/-- **An item is given by `next`** as the outlook says, if deliveries are not limited. -/
theorem next (h : c.Expects w stage) (hpanic : w.channel.panic = none)
    (hlimit : w.engine.chunkLimit = none) :
    ∃ c' w', c.next (Memory.engine parse) w = ((Outlook.mk stage c.ended).item.1, c', w') ∧
      c'.Expects w' (Outlook.mk stage c.ended).item.2.stage ∧
      c'.ended = (Outlook.mk stage c.ended).item.2.ended := by
  cases hended : c.ended with
  | true => exact ⟨c, w, next_of_ended hended w, h, hended⟩
  | false =>
    obtain ⟨c', w', hrow, hexpects, hended'⟩ := h.nextRow parse hpanic hlimit
    have hmoves := c.moves_nextRow (Memory.engine parse) w
    rw [hrow] at hmoves
    rw [Outlook.item, if_neg Bool.false_ne_true]
    dsimp only
    cases hfirst : stage.first with
    | error failure =>
      rw [hfirst] at hrow
      have hfailure : ∀ id, failure ≠ .unresolvedSeries id := by
        rintro id rfl
        cases stage <;> cases hfirst
      exact ⟨_, w', next_of_failure hended hrow hfailure, hexpects.reopen, rfl⟩
    | ok row =>
      rw [hfirst] at hrow
      cases row with
      | some row => exact ⟨c', w', next_of_row hended hrow, hexpects, hended'.trans hended⟩
      | none =>
        -- without a row for now there is none to come
        have hdone : stage.rest.isDone false = true := by
          cases stage with
          | rows left => cases left <;> first | rfl | cases hfirst
          | failed status => rfl
          | closed => rfl
        have hpanic' : w'.channel.panic = none := by rw [hmoves.observed.channel, hpanic]
        obtain ⟨w'', hasked, hend⟩ := hexpects.done parse hpanic'
        rw [hdone] at hend
        exact ⟨_, w'', next_of_done hended hrow hend,
          (hexpects.asked hpanic' hasked).reopen, rfl⟩

/-- The rows of a stage have names. -/
theorem named {row : Row} (h : c.Expects w stage) (hfirst : stage.first = .ok (some row)) :
    row.series.isSome := by
  cases h with
  | rows hstream htells =>
    cases htells with
    | nil => cases hfirst
    | cons hrow hrest =>
      cases hfirst
      exact hrow.named
  | failed hlive hunread hfeed herror => cases hfirst
  | closed hhandle hexhausted => cases hfirst

/-- **A cursor is closed.** -/
theorem close (h : c.Expects w stage) (hpanic : w.channel.panic = none) :
    ∃ c' w', c.close (Memory.engine parse) w = (.ok (), c', w') ∧ c'.Expects w' .closed ∧
      c'.ended = c.ended := by
  cases hhandle : c.handle with
  | none =>
    refine ⟨c, w, ?_, ?_, rfl⟩
    · rw [Cursor.close, World.check_of_no_panic hpanic, hhandle]
    · cases h with
      | rows hstream htells => cases hhandle.symm.trans hstream.live.handle_eq
      | failed hlive hunread hfeed herror => cases hhandle.symm.trans hlive.handle_eq
      | closed _ hexhausted => exact .closed hhandle hexhausted
  | some handle =>
    refine ⟨{ c with handle := none, buffer := c.buffer.discard },
      ((Memory.engine parse).ask (.cursorClose handle) w).2, ?_,
      .closed rfl (beq_self_eq_true c.buffer.filled), rfl⟩
    rw [Cursor.close, World.check_of_no_panic hpanic, hhandle]

theorem isClosed_eq (h : c.Expects w stage) : c.isClosed = stage.isClosed := by
  cases h with
  | rows hstream htells => rw [isClosed, hstream.live.handle_eq]; rfl
  | failed hlive hunread hfeed herror => rw [isClosed, hlive.handle_eq]; rfl
  | closed hhandle hexhausted => rw [isClosed, hhandle]; rfl

end Expects

end Cursor

/-! ### Readers and their outlooks -/

/-- Whether a `Reader` is one over names. -/
def Reader.isNames : Reader → Bool
  | rows _ => false
  | names _ => true

/-- The name of the series of a row that has one. -/
def Row.name (row : Row) : String := row.series.getD ""

/-- **What an outlook has to answer** to a reader's `Command`, and the outlook after it. A reader
over names shows no more of a row than its name. -/
def Outlook.answer (names : Bool) (o : Outlook) : Command → Answer × Outlook
  | .next _ =>
    (if names then .ofExcept (fun row => .name (row.map Row.name)) o.stage.first
      else .ofExcept .row o.stage.first,
      { o with stage := o.stage.rest })
  | .item _ =>
    (if names then .nameItem (o.item.1.map (·.map Row.name)) else .rowItem o.item.1,
      o.item.2)
  | .done _ => (.flag (o.stage.isDone names), o)
  | .canProceed _ => (.flag o.stage.canProceed, o)
  | .closeReader _ => (.ok, { o with stage := .closed })
  | .isClosed _ => (.flag o.stage.isClosed, o)
  | _ => (.ok, o)

/-- **Expecting an `Outlook`**: the cursor of the reader expects its stage. -/
structure Reader.Expects (r : Reader) (w : World Memory) (names : Bool) (o : Outlook) : Prop where
  /-- it is over names or over rows -/
  kind : r.isNames = names
  /-- the cursor expects the stage -/
  stage : r.cursor.Expects w o.stage
  /-- its iteration has come to the end or not -/
  ended : r.cursor.ended = o.ended

namespace Reader.Expects

variable {r : Reader} {w w' : World Memory} {names : Bool} {o : Outlook}
  (parse : String → Option Json)

theorem next (h : r.Expects w names o) (hpanic : w.channel.panic = none)
    (hlimit : w.engine.chunkLimit = none) (label : Label) :
    ∃ r' w', r.next (Memory.engine parse) w = ((o.answer names (.next label)).1, r', w') ∧
      r'.Expects w' names (o.answer names (.next label)).2 := by
  obtain ⟨rfl, hstage, hended⟩ := h
  obtain ⟨c', w', hrow, hexpects, hended'⟩ := hstage.nextRow parse hpanic hlimit
  cases r with
  | rows c =>
    refine ⟨.rows c', w', ?_, rfl, hexpects, hended'.trans hended⟩
    simp only [Reader.next, Reader.cursor] at hrow ⊢
    rw [hrow]
    rfl
  | names n =>
    refine ⟨.names ⟨c'⟩, w', ?_, rfl, hexpects, hended'.trans hended⟩
    simp only [Reader.next, Reader.cursor, NameCursor.nextName, Cursor.budget] at hrow ⊢
    rw [NameCursor.nextNameWithin, hrow]
    simp only [Outlook.answer, Reader.isNames, if_true]
    rcases hfirst : o.stage.first with failure | _ | row
    · rfl
    · rfl
    · obtain ⟨name, hname⟩ := Option.isSome_iff_exists.mp (hstage.named hfirst)
      simp only [hname, Answer.ofExcept, Option.map_some, Row.name, Option.getD_some]

theorem item (h : r.Expects w names o) (hpanic : w.channel.panic = none)
    (hlimit : w.engine.chunkLimit = none) (label : Label) :
    ∃ r' w', r.item (Memory.engine parse) w = ((o.answer names (.item label)).1, r', w') ∧
      r'.Expects w' names (o.answer names (.item label)).2 := by
  obtain ⟨rfl, hstage, hended⟩ := h
  obtain ⟨c', w', hitem, hexpects, hended'⟩ := hstage.next parse hpanic hlimit
  rw [hended] at hitem hexpects hended'
  cases r with
  | rows c =>
    refine ⟨.rows c', w', ?_, rfl, hexpects, hended'⟩
    simp only [Reader.item, Reader.cursor] at hitem ⊢
    rw [hitem]
    rfl
  | names n =>
    refine ⟨.names ⟨c'⟩, w', ?_, rfl, hexpects, hended'⟩
    simp only [Reader.item, Reader.cursor, NameCursor.next, Cursor.budget] at hitem ⊢
    rw [NameCursor.nextWithin, hitem]
    simp only [Outlook.answer, Reader.isNames, if_true]
    rcases hfirst : o.item.1 with _ | failure | row
    · rfl
    · rfl
    · obtain ⟨name, hname⟩ := Option.isSome_iff_exists.mp
        (hstage.named (Outlook.first_of_item hfirst))
      simp only [hname, Option.map_some, Except.map, Row.name, Option.getD_some]

theorem done (h : r.Expects w names o) (hpanic : w.channel.panic = none) :
    ∃ w', w.Asked w' ∧ r.done (Memory.engine parse) w = (.ok (o.stage.isDone names), w') := by
  obtain ⟨rfl, hstage, -⟩ := h
  cases r with
  | rows c => exact hstage.done parse hpanic
  | names n =>
    obtain ⟨w', hasked, hproceed⟩ := hstage.canProceed parse hpanic
    have hpanic' : w'.channel.panic = none := by rw [hasked.channel, hpanic]
    obtain ⟨w'', hasked', hdone⟩ := (hstage.asked hpanic hasked).done parse hpanic'
    have hclosed := hstage.isClosed_eq
    simp only [Reader.done, NameCursor.done, Reader.cursor] at hproceed hdone hclosed ⊢
    rw [hproceed]
    cases hkind : o.stage with
    | rows left =>
      rw [hkind] at hdone
      exact ⟨w'', hasked.trans hasked', hdone⟩
    | failed status =>
      rw [hkind] at hclosed
      exact ⟨w', hasked, by simp only [Stage.canProceed, hclosed]; rfl⟩
    | closed =>
      rw [hkind] at hclosed
      exact ⟨w', hasked, by simp only [Stage.canProceed, hclosed]; rfl⟩

theorem canProceed (h : r.Expects w names o) (hpanic : w.channel.panic = none) :
    ∃ w', w.Asked w' ∧ r.canProceed (Memory.engine parse) w = (.ok o.stage.canProceed, w') := by
  cases r with
  | rows c => exact h.stage.canProceed parse hpanic
  | names n => exact h.stage.canProceed parse hpanic

theorem close (h : r.Expects w names o) (hpanic : w.channel.panic = none) :
    ∃ r' w', r.close (Memory.engine parse) w = (.ok (), r', w') ∧
      r'.Expects w' names { o with stage := .closed } := by
  obtain ⟨rfl, hstage, hended⟩ := h
  obtain ⟨c', w', hclose, hexpects, hended'⟩ := hstage.close parse hpanic
  cases r with
  | rows c =>
    refine ⟨.rows c', w', ?_, rfl, hexpects, hended'.trans hended⟩
    simp only [Reader.close, Reader.cursor] at hclose ⊢
    rw [hclose]
  | names n =>
    refine ⟨.names ⟨c'⟩, w', ?_, rfl, hexpects, hended'.trans hended⟩
    simp only [Reader.close, NameCursor.close, Reader.cursor] at hclose ⊢
    rw [hclose]

theorem isClosed_eq (h : r.Expects w names o) : r.isClosed = o.stage.isClosed := by
  cases r with
  | rows c => exact h.stage.isClosed_eq
  | names n => exact h.stage.isClosed_eq

/-- **What a reader expects is kept** as long as its feed is and its series keep their names. -/
theorem kept (h : r.Expects w names o) (hpanic : w'.channel.panic = none)
    (hopen : ∀ handle, r.cursor.handle = some handle →
      w'.engine.cursors.find? handle = w.engine.cursors.find? handle ∧
        ∀ id name, w.engine.idToSeries r.cursor.session id = some name →
          w'.engine.idToSeries r.cursor.session id = some name) : r.Expects w' names o :=
  ⟨h.kind, h.stage.kept hpanic hopen, h.ended⟩

/-- Questions do not matter. -/
theorem asked (h : r.Expects w names o) (hpanic : w.channel.panic = none) (hasked : w.Asked w') :
    r.Expects w' names o := ⟨h.kind, h.stage.asked hpanic hasked, h.ended⟩

end Reader.Expects

end TimeSeries
