import TimeSeries.Json.Reader
import TimeSeries.Proofs.Client.Runs
import TimeSeries.Proofs.Cursor.Loop

/-!
# Draining the cursor of a query

A session starts a query from any text, and gets a cursor over whatever there is to be read: the
answer of its store, bytes that were waiting instead, or the failure of the query. As long as the
query has not failed, it does not matter which way the cursor is drained. If it has, the loop does
not tell it from a query without rows.

Main result: `Session.pulls_of_openCursor`.
-/

namespace TimeSeries.Session

variable (parse : String → Option Json) {session : Handle} {w : World Memory} {s : Session}

/-- **Calling `openCursor` in any state**: its cursor is fresh, and its feed either has not failed
or has only a failure. -/
theorem openCursor_feed (text : String) (hpanic : w.channel.panic = none)
    (hhandle : s.handle = some session) :
    ∃ feed w', s.openCursor (Memory.engine parse) text w =
        (.ok (.ofHandle session w.engine.nextHandle s.settings.buffer), w') ∧
      w'.channel.panic = none ∧ w'.engine.cursors.find? w.engine.nextHandle = some feed ∧
      (feed.error = none ∨ ∃ status, feed = { error := some status }) := by
  rw [openCursor, hhandle, checkHandle_some hpanic]
  simp only [Engine.ask, Memory.engine, Memory.answer, Memory.query]
  rcases w.engine.result parse session text with ⟨status | records, m⟩
  · exact ⟨_, _, rfl, hpanic, Table.find?_put_self _ _ _, .inr ⟨status, rfl⟩⟩
  · exact ⟨_, _, rfl, hpanic, Table.find?_put_self _ _ _, .inl rfl⟩

/-- **Two ways of draining a cursor**, for any text and any state of the engine without a panic.
Either the cursor `canProceed`, and the loop comes to an end and collects and ends with just what
the `items` amount to; or the query has failed, which is the only item, and the loop ends cleanly
without it. -/
theorem pulls_of_openCursor (text : String) (hpanic : w.channel.panic = none)
    (hhandle : s.handle = some session) (hbuffer : s.settings.buffer < UInt64.size) :
    ∃ c w', s.openCursor (Memory.engine parse) text w = (.ok c, w') ∧
      let items := (c.items (Memory.engine parse) w').1
      (((c.canProceed (Memory.engine parse) w').1 = .ok true ∧
          ∀ rows outcome, c.Pulls (Memory.engine parse) w' rows outcome ↔
            rows = collected items ∧ outcome = verdict items) ∨
        ((c.canProceed (Memory.engine parse) w').1 = .ok false ∧
          (∃ status, items = [.error (.engine status)]) ∧
          ∀ rows outcome, c.Pulls (Memory.engine parse) w' rows outcome ↔
            rows = [] ∧ outcome = none)) := by
  obtain ⟨feed, w', hopen, hpanic', hfeed, hfailed⟩ :=
    openCursor_feed parse text hpanic hhandle
  have hlive := Cursor.live_ofHandle session w.engine.nextHandle hbuffer
  have hunread := ReadBuffer.unread_ofCapacity s.settings.buffer
  have hproceed : ((Cursor.ofHandle session w.engine.nextHandle s.settings.buffer).canProceed
      (Memory.engine parse) w').1 = .ok feed.error.isNone := by
    rw [Cursor.canProceed, World.check_of_no_panic hpanic', hlive.handle_eq]
    dsimp only
    rw [Memory.ask_cursorError, Cursor.cursorError_of_find? hfeed]
  refine ⟨_, w', hopen, ?_⟩
  obtain herror | ⟨status, rfl⟩ := hfailed
  · rw [herror] at hproceed
    exact .inl ⟨hproceed, Cursor.pulls_iff_items parse hlive hunread hpanic' hfeed herror⟩
  · have hpulls := Cursor.pulls_iff_of_failed parse hlive hunread hpanic' hfeed
    exact .inr ⟨hproceed, ⟨status, (hpulls [] none).2⟩, fun rows outcome => (hpulls rows outcome).1⟩

/-- In a session on a database without points: a text that is no document, and torn bytes that
wait to be read instead. -/
theorem pulls_of_openCursor_brace :
    let s : Session := ⟨some 2, {}⟩
    let w := (Workspace.begun Json.parse?).world
    w.channel.panic = none ∧
      (∃ c w', s.openCursor (Memory.engine Json.parse?) "\x7b" w = (.ok c, w') ∧
        (∃ status, (c.items (Memory.engine Json.parse?) w').1 = [.error (.engine status)]) ∧
        c.Pulls (Memory.engine Json.parse?) w' [] none) ∧
      ∃ c w', s.openCursor (Memory.engine Json.parse?) "\x7b"
          (Memory.disturb w (.rawResult [1])) = (.ok c, w') ∧
        c.Pulls (Memory.engine Json.parse?) w'
          (collected (c.items (Memory.engine Json.parse?) w').1)
          (verdict (c.items (Memory.engine Json.parse?) w').1) := by
  intro s w
  have hpanic : w.channel.panic = none := rfl
  refine ⟨hpanic, ?_, ?_⟩
  · obtain ⟨c, w', hopen, hways⟩ :=
      @pulls_of_openCursor Json.parse? 2 w s "\x7b" hpanic rfl (by decide)
    have hproceed : (c.canProceed (Memory.engine Json.parse?) w').1 = .ok false := by
      cases hopen
      rfl
    obtain ⟨htrue, -⟩ | ⟨-, hitems, hpulls⟩ := hways
    · cases htrue.symm.trans hproceed
    · exact ⟨c, w', hopen, hitems, (hpulls [] none).mpr ⟨rfl, rfl⟩⟩
  · obtain ⟨c, w', hopen, hways⟩ := @pulls_of_openCursor Json.parse? 2
      (Memory.disturb w (.rawResult [1])) s "\x7b" hpanic rfl (by decide)
    have hproceed : (c.canProceed (Memory.engine Json.parse?) w').1 = .ok true := by
      cases hopen
      rfl
    obtain ⟨-, hpulls⟩ | ⟨hfalse, -⟩ := hways
    · exact ⟨c, w', hopen, (hpulls _ _).mpr ⟨rfl, rfl⟩⟩
    · cases hfalse.symm.trans hproceed

/-- **The two ways do not always agree**: with that text the loop ends cleanly, but there is an
item that says that the text can't be parsed. -/
theorem pulls_disagree_with_items :
    ¬∀ (text : String) (c : Cursor) (w' : World Memory),
      (⟨some 2, {}⟩ : Session).openCursor (Memory.engine Json.parse?) text
          (Workspace.begun Json.parse?).world = (.ok c, w') →
      ∀ rows outcome, c.Pulls (Memory.engine Json.parse?) w' rows outcome →
        rows = collected (c.items (Memory.engine Json.parse?) w').1 ∧
          outcome = verdict (c.items (Memory.engine Json.parse?) w').1 := by
  intro hagree
  obtain ⟨feed, w', hopen, hpanic, hfeed, -⟩ := @openCursor_feed Json.parse? 2
    (Workspace.begun Json.parse?).world ⟨some 2, {}⟩ "\x7b" rfl rfl
  have hfailed : feed = { error := some .queryParsingError } := by
    cases hopen
    exact (Option.some.inj hfeed).symm
  rw [hfailed] at hfeed
  have hbuffer : ({} : OpenSettings).buffer < UInt64.size := by decide
  obtain ⟨hpulls, hitems⟩ := Cursor.pulls_iff_of_failed Json.parse?
    (Cursor.live_ofHandle 2 _ hbuffer) rfl hpanic hfeed [] none
  have hagrees := hagree "\x7b" _ w' hopen [] none (hpulls.mpr ⟨rfl, rfl⟩)
  rw [hitems] at hagrees
  cases hagrees.2

end TimeSeries.Session
