import TimeSeries.Client.Workspace
import TimeSeries.Proofs.Engine.Calls

/-!
# Readers only read

Whatever is done with a reader, it makes reading calls only, with its own handle and in its own
session: it looks up names, reads and closes its cursor and asks about it
(`Call.ReadsFor`). Over the engine in memory such calls leave everything but that feed as
it was (`World.Observed`), so a run of any reader is invisible to stores, sessions, databases
and other readers. What is done with a cursor but for closing it only asks (`Call.AsksFor`) and
leaves its handle and its session in place (`Cursor.Advances`, `Cursor.Moves`).
-/

namespace TimeSeries

/-- **Reading calls**: those a reader makes, to a cursor or to `idToSeries`. -/
def Call.Reads : Call → Prop
  | .idToSeries .. | .cursorRead .. | .cursorIsDone .. | .cursorError .. | .cursorClose .. => True
  | _ => False

/-- **Reading calls of a cursor**: those with its handle, if it has one, and its session. -/
def Call.ReadsFor (session : Handle) (cursor : Option Handle) : Call → Prop
  | .idToSeries s _ => s = session
  | .cursorRead c _ | .cursorIsDone c | .cursorError c | .cursorClose c => cursor = some c
  | _ => False

/-- **Questions of a cursor**: its reading calls, but for closing it. -/
def Call.AsksFor (session : Handle) (cursor : Option Handle) : Call → Prop
  | .idToSeries s _ => s = session
  | .cursorRead c _ | .cursorIsDone c | .cursorError c => cursor = some c
  | _ => False

theorem Call.AsksFor.readsFor {session : Handle} {cursor : Option Handle} {call : Call}
    (h : call.AsksFor session cursor) : call.ReadsFor session cursor := by
  cases call <;> first | exact h | exact h.elim

theorem Call.ReadsFor.reads {session : Handle} {cursor : Option Handle} {call : Call}
    (h : call.ReadsFor session cursor) : call.Reads := by
  cases call <;> trivial

/-! ### Cursors -/

namespace Cursor

variable {σ : Type} {E : Engine σ} {c c' c'' : Cursor} {w w' w'' : World σ}

/-- The reading calls of a cursor of its own. -/
abbrev Makes (c : Cursor) : Call → Prop := Call.ReadsFor c.session c.handle

/-- **A cursor moves on** by reading calls that it `Makes`, and stays the cursor it is. -/
structure Moves (E : Engine σ) (c : Cursor) (w : World σ) (c' : Cursor) (w' : World σ) : Prop where
  /-- it makes reading calls of its own -/
  leads : E.Leads c.Makes w w'
  /-- it stays in its session -/
  session_eq : c'.session = c.session
  /-- it keeps its handle -/
  handle_eq : c'.handle = c.handle

theorem Moves.trans (h : Moves E c w c' w') (h' : Moves E c' w' c'' w'') : Moves E c w c'' w'' := by
  have hleads := h'.leads
  rw [Makes, h.session_eq, h.handle_eq] at hleads
  exact ⟨h.leads.trans hleads, h'.session_eq.trans h.session_eq, h'.handle_eq.trans h.handle_eq⟩

/-- Calls that leave the cursor as it is come after. -/
theorem Moves.trans_leads (h : Moves E c w c' w') (h' : E.Leads c'.Makes w' w'') :
    Moves E c w c' w'' := h.trans ⟨h', rfl, rfl⟩

/-- The questions of a cursor of its own. -/
abbrev Asks (c : Cursor) : Call → Prop := Call.AsksFor c.session c.handle

/-- **A cursor advances** by questions that it `Asks`, and stays the cursor it is. -/
structure Advances (E : Engine σ) (c : Cursor) (w : World σ) (c' : Cursor) (w' : World σ) :
    Prop where
  /-- it asks questions of its own -/
  asks : E.Leads c.Asks w w'
  /-- it stays in its session -/
  session_eq : c'.session = c.session
  /-- it keeps its handle -/
  handle_eq : c'.handle = c.handle

theorem Advances.moves (h : Advances E c w c' w') : Moves E c w c' w' :=
  ⟨h.asks.mono fun _ hcall => hcall.readsFor, h.session_eq, h.handle_eq⟩

theorem Advances.refl (c : Cursor) (w : World σ) : Advances E c w c w := ⟨.refl, rfl, rfl⟩

theorem Advances.trans (h : Advances E c w c' w') (h' : Advances E c' w' c'' w'') :
    Advances E c w c'' w'' := by
  have hasks := h'.asks
  rw [Asks, h.session_eq, h.handle_eq] at hasks
  exact ⟨h.asks.trans hasks, h'.session_eq.trans h.session_eq, h'.handle_eq.trans h.handle_eq⟩

/-- Questions that leave the cursor as it is come after. -/
theorem Advances.trans_asks (h : Advances E c w c' w') (h' : E.Leads c'.Asks w' w'') :
    Advances E c w c' w'' := h.trans ⟨h', rfl, rfl⟩

/-- Only the world and not the handle of a cursor is looked at by `finish`. -/
theorem Advances.finish (h : Advances E c w c' w') : Advances E c w c'.finish w' :=
  ⟨h.asks, h.session_eq, h.handle_eq⟩

section Operations

variable (E) (c) (w)

theorem asks_canProceed : E.Leads c.Asks w (c.canProceed E w).2 := by
  rw [canProceed]
  split
  · exact .refl
  · exact .refl
  next hhandle => exact .one hhandle w

theorem asks_done : E.Leads c.Asks w (c.done E w).2 := by
  rw [done]
  split
  · exact .refl
  · split
    · exact .refl
    · split
      · exact .refl
      next hhandle => exact .one hhandle w

theorem advances_topUp {handle : Handle} (hhandle : c.handle = some handle) :
    Advances E c w (c.topUp E handle w).1 (c.topUp E handle w).2 := by
  rw [topUp]
  split
  · exact ⟨.one hhandle w, rfl, rfl⟩
  · exact .refl c w

theorem advances_takeRecord : Advances E c w (c.takeRecord E w).2.1 (c.takeRecord E w).2.2 := by
  have hresolve : ∀ h, E.Leads c.Asks w (c.resolve E h w).2 := by
    intro h
    rw [resolve]
    split
    · have hown : c.Asks (.idToSeries c.session h.series) := rfl
      exact .one hown w
    · exact .refl
  rw [takeRecord]
  split
  · exact ⟨.refl, rfl, rfl⟩
  next header _ =>
    dsimp only
    split
    · exact ⟨hresolve header, rfl, rfl⟩
    · split <;> exact ⟨hresolve header, rfl, rfl⟩

theorem advances_readOn {handle : Handle} (hhandle : c.handle = some handle) :
    Advances E c w (c.readOn E handle w).2.1 (c.readOn E handle w).2.2 := by
  have htop := advances_topUp E c w hhandle
  rw [readOn]
  rcases htopUp : c.topUp E handle w with ⟨c', w'⟩
  rw [htopUp] at htop
  have hown : c'.Asks (.cursorError handle) := htop.handle_eq.trans hhandle
  have hasked := htop.trans_asks (.one hown w')
  dsimp only at hasked ⊢
  rcases herror : E.ask (.cursorError handle) w' with ⟨_ | status, w''⟩ <;> rw [herror] at hasked
  · dsimp only
    split
    · exact hasked
    · exact hasked.trans (advances_takeRecord E c' w'')
  · exact hasked

theorem advances_nextRow : Advances E c w (c.nextRow E w).2.1 (c.nextRow E w).2.2 := by
  rw [nextRow]
  split
  · exact .refl c w
  · exact .refl c w
  · exact .refl c w
  next hhandle _ => exact advances_readOn E c w hhandle

theorem advances_nextWithin (fuel : Nat) :
    Advances E c w (nextWithin E fuel c w).2.1 (nextWithin E fuel c w).2.2 := by
  induction fuel generalizing c w with
  | zero => exact (Advances.refl c w).finish
  | succ fuel ih =>
    have hrow := advances_nextRow E c w
    rw [nextWithin]
    rcases hstep : c.nextRow E w with ⟨failure | _ | row, c', w'⟩ <;> rw [hstep] at hrow
    · cases failure <;> first | exact hrow | exact hrow.finish
    · have hdone := hrow.trans_asks (asks_done E c' w')
      dsimp only
      rcases hend : c'.done E w' with ⟨failure | _ | _, w''⟩ <;> rw [hend] at hdone
      · exact hdone.finish
      · exact hdone.trans (ih c' w'')
      · exact hdone.finish
    · exact hrow

theorem advances_next : Advances E c w (c.next E w).2.1 (c.next E w).2.2 := by
  rw [next]
  split
  · exact .refl c w
  · exact advances_nextWithin E c w _

theorem advances_itemsWithin (fuel : Nat) :
    Advances E c w (itemsWithin E fuel c w).2.1 (itemsWithin E fuel c w).2.2 := by
  induction fuel generalizing c w with
  | zero => exact .refl c w
  | succ fuel ih =>
    have hnext := advances_next E c w
    rw [itemsWithin]
    rcases hstep : c.next E w with ⟨_ | item, c', w'⟩ <;> rw [hstep] at hnext
    · exact hnext
    · exact hnext.trans (ih c' w')

theorem advances_items : Advances E c w (c.items E w).2.1 (c.items E w).2.2 :=
  advances_itemsWithin E c w _

theorem moves_nextRow : Moves E c w (c.nextRow E w).2.1 (c.nextRow E w).2.2 :=
  (advances_nextRow E c w).moves

theorem moves_next : Moves E c w (c.next E w).2.1 (c.next E w).2.2 := (advances_next E c w).moves

theorem moves_items : Moves E c w (c.items E w).2.1 (c.items E w).2.2 :=
  (advances_items E c w).moves

theorem leads_close : E.Leads c.Makes w (c.close E w).2.2 := by
  rw [close]
  split
  · exact .refl
  · exact .refl
  next hhandle => exact .one hhandle w

theorem leads_drop : E.Leads c.Makes w (c.drop E w) := by
  rw [drop]
  split
  next hhandle =>
    split
    · exact .refl
    · exact .one hhandle w
  · exact .refl

end Operations

end Cursor

/-! ### Cursors over names -/

namespace NameCursor

variable {σ : Type} (E : Engine σ)

theorem advances_nextName (n : NameCursor) (w : World σ) :
    Cursor.Advances E n.rows w (n.nextName E w).2.1.rows (n.nextName E w).2.2 := by
  have hwithin : ∀ (fuel : Nat) (c : Cursor) (w : World σ),
      Cursor.Advances E c w (nextNameWithin E fuel c w).2.1 (nextNameWithin E fuel c w).2.2 := by
    intro fuel
    induction fuel with
    | zero => intro c w; exact .refl c w
    | succ fuel ih =>
      intro c w
      have hrow := c.advances_nextRow E w
      rw [nextNameWithin]
      rcases hstep : c.nextRow E w with ⟨failure | _ | row, c', w'⟩ <;> rw [hstep] at hrow
      · exact hrow
      · exact hrow
      · dsimp only
        split
        · exact hrow
        · exact hrow.trans (ih c' w')
  exact hwithin (n.rows.budget E w) n.rows w

theorem advances_next (n : NameCursor) (w : World σ) :
    Cursor.Advances E n.rows w (n.next E w).2.1.rows (n.next E w).2.2 := by
  have hwithin : ∀ (fuel : Nat) (c : Cursor) (w : World σ),
      Cursor.Advances E c w (nextWithin E fuel c w).2.1 (nextWithin E fuel c w).2.2 := by
    intro fuel
    induction fuel with
    | zero => intro c w; exact .refl c w
    | succ fuel ih =>
      intro c w
      have hnext := c.advances_next E w
      rw [nextWithin]
      rcases hstep : c.next E w with ⟨_ | failure | row, c', w'⟩ <;> rw [hstep] at hnext
      · exact hnext
      · exact hnext
      · dsimp only
        split
        · exact hnext
        · exact hnext.trans (ih c' w')
  exact hwithin (n.rows.budget E w) n.rows w

theorem asks_done (n : NameCursor) (w : World σ) : E.Leads n.rows.Asks w (n.done E w).2 := by
  have hproceed := n.rows.asks_canProceed E w
  rw [done]
  rcases hasked : n.rows.canProceed E w with ⟨failure | _ | _, w'⟩ <;> rw [hasked] at hproceed
  · exact hproceed
  · exact hproceed
  · exact hproceed.trans (n.rows.asks_done E w')

end NameCursor

/-! ### Readers -/

namespace Reader

variable {σ : Type} (E : Engine σ) (r : Reader) (w : World σ)

/-- The cursor of a reader. -/
def cursor : Reader → Cursor
  | rows c => c
  | names n => n.rows

theorem cursor_ofCursor (source : Source) (c : Cursor) : (ofCursor source c).cursor = c := by
  rw [ofCursor]
  split <;> rfl

theorem advances_next :
    Cursor.Advances E r.cursor w (r.next E w).2.1.cursor (r.next E w).2.2 := by
  cases r with
  | rows c => exact c.advances_nextRow E w
  | names n => exact n.advances_nextName E w

theorem advances_item :
    Cursor.Advances E r.cursor w (r.item E w).2.1.cursor (r.item E w).2.2 := by
  cases r with
  | rows c => exact c.advances_next E w
  | names n => exact n.advances_next E w

theorem asks_done : E.Leads r.cursor.Asks w (r.done E w).2 := by
  cases r with
  | rows c => exact c.asks_done E w
  | names n => exact n.asks_done E w

theorem asks_canProceed : E.Leads r.cursor.Asks w (r.canProceed E w).2 := by
  cases r with
  | rows c => exact c.asks_canProceed E w
  | names n => exact n.rows.asks_canProceed E w

theorem moves_next :
    Cursor.Moves E r.cursor w (r.next E w).2.1.cursor (r.next E w).2.2 :=
  (r.advances_next E w).moves

theorem moves_item :
    Cursor.Moves E r.cursor w (r.item E w).2.1.cursor (r.item E w).2.2 :=
  (r.advances_item E w).moves

theorem leads_done : E.Leads r.cursor.Makes w (r.done E w).2 :=
  (r.asks_done E w).mono fun _ hcall => hcall.readsFor

theorem leads_canProceed : E.Leads r.cursor.Makes w (r.canProceed E w).2 :=
  (r.asks_canProceed E w).mono fun _ hcall => hcall.readsFor

theorem leads_close : E.Leads r.cursor.Makes w (r.close E w).2.2 := by
  cases r with
  | rows c => exact c.leads_close E w
  | names n => exact n.rows.leads_close E w

/-- To `close` a reader leaves it in its session, and gives it no handle. -/
theorem close_cursor :
    (r.close E w).2.1.cursor.session = r.cursor.session ∧
      ∀ handle, (r.close E w).2.1.cursor.handle = some handle → r.cursor.handle = some handle := by
  have hcursor : ∀ c : Cursor, (c.close E w).2.1.session = c.session ∧
      ∀ handle, (c.close E w).2.1.handle = some handle → c.handle = some handle := by
    intro c
    rw [Cursor.close]
    split
    · exact ⟨rfl, fun _ => id⟩
    · exact ⟨rfl, fun _ => id⟩
    · exact ⟨rfl, fun _ hhandle => by cases hhandle⟩
  cases r with
  | rows c => exact hcursor c
  | names n => exact hcursor n.rows

theorem leads_drop : E.Leads r.cursor.Makes w (r.drop E w) := by
  cases r with
  | rows c => exact c.leads_drop E w
  | names n => exact n.rows.leads_drop E w

end Reader

/-! ### What reading leaves alone -/

/-- **Only feeds and the record of calls differ.** -/
def World.Observed (w w' : World Memory) : Prop :=
  ∃ cursors calls, w' = { w with engine := { w.engine with cursors }, calls }

namespace World.Observed

variable {w w' w'' : World Memory}

theorem refl (w : World Memory) : w.Observed w := ⟨w.engine.cursors, w.calls, rfl⟩

theorem trans (h : w.Observed w') (h' : w'.Observed w'') : w.Observed w'' := by
  obtain ⟨cursors, calls, rfl⟩ := h
  obtain ⟨cursors', calls', rfl⟩ := h'
  exact ⟨cursors', calls', rfl⟩

theorem channel (h : w.Observed w') : w'.channel = w.channel := by
  obtain ⟨cursors, calls, rfl⟩ := h
  rfl

/-- The limit on deliveries, `chunkLimit`, is as before. -/
theorem chunkLimit (h : w.Observed w') : w'.engine.chunkLimit = w.engine.chunkLimit := by
  obtain ⟨cursors, calls, rfl⟩ := h
  rfl

/-- Names are looked up by `idToSeries` as before. -/
theorem idToSeries (h : w.Observed w') : w'.engine.idToSeries = w.engine.idToSeries := by
  obtain ⟨cursors, calls, rfl⟩ := h
  rfl

end World.Observed

/-- **A call that `Reads` leaves all but the feeds alone.** -/
theorem Memory.observed_ask (parse : String → Option Json) {call : Call} (h : call.Reads)
    (w : World Memory) : w.Observed ((engine parse).ask call w).2 := by
  cases call with
  | idToSeries session id => exact ⟨w.engine.cursors, _, rfl⟩
  | cursorIsDone cursor => exact ⟨w.engine.cursors, _, rfl⟩
  | cursorError cursor => exact ⟨w.engine.cursors, _, rfl⟩
  | cursorClose cursor => exact ⟨w.engine.cursors.erase cursor, _, rfl⟩
  | cursorRead cursor capacity =>
    rw [ask_cursorRead, onEngine, cursorRead]
    split
    · exact ⟨w.engine.cursors, _, rfl⟩
    · exact ⟨_, _, rfl⟩
  | _ => exact h.elim

/-- **Readers are invisible** to all but themselves, as `Observed` says. -/
theorem Engine.Leads.observed {parse : String → Option Json} {kind : Call → Prop}
    {w w' : World Memory} (h : (Memory.engine parse).Leads kind w w')
    (hkind : ∀ call, kind call → call.Reads) : w.Observed w' :=
  h.keeps (P := w.Observed)
    (fun call v hcall hv => hv.trans (Memory.observed_ask parse (hkind call hcall) v)) (.refl w)

theorem Cursor.Moves.observed {parse : String → Option Json} {c c' : Cursor}
    {w w' : World Memory} (h : Moves (Memory.engine parse) c w c' w') : w.Observed w' :=
  h.leads.observed fun _ hcall => hcall.reads

end TimeSeries
