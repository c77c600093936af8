import TimeSeries.Proofs.Client.RunAnswers
import TimeSeries.Proofs.Cursor.Outlook

/-!
# What a session serves

Writes and queries that read all their rows work on one store, that of the session, and as long
as the engine refuses no writes all that they answer and all that they change is made from it.
`Command.serve` says what a store makes of such a command, without handles, cursors and
buffers, and `InOrder.serve` that this is what running the command comes to.
-/

namespace TimeSeries

/-! ### What a store makes of a command -/

namespace Store

/-- **Takes a point**, or says why not. -/
def take (st : Store) (series : String) (timestamp : Timestamp) (value : Double) :
    Except Failure Unit × Store :=
  if Series.maxNameBytes < series.utf8ByteSize then (.error (.invalidSeries series .badArg), st)
  else
    match Series.normalize series with
    | none => (.error (.invalidSeries series .badData), st)
    | some name =>
      match (st.enlist name).2.append? ⟨(st.enlist name).1, timestamp, value⟩ with
      | none => (.error (.engine .badArg), (st.enlist name).2)
      | some st' => (.ok (), st')

/-- Each `take` of a point after another, with the failures. -/
def takeAll (st : Store) : List (String × Timestamp × Double) → List Failure × Store
  | [] => ([], st)
  | (series, timestamp, value) :: points =>
    let (result, st) := st.take series timestamp value
    let (failures, st) := st.takeAll points
    (match result with
      | .ok () => failures
      | .error failure => failure :: failures, st)

/-- **What an answer of `query` has in prospect**: the rows of its records, or the refusal. -/
def prospect (st : Store) (document : Option Json) : Stage :=
  match st.query document with
  | (.ok records, st') => .rows (records.map st'.row)
  | (.error status, _) => .failed status

end Store

namespace Command

/-- The label of the session in which a `Command` writes, or reads all rows of a query. -/
def session? : Command → Option Label
  | write label .. | writeAt label .. | writeAll label _ | rows label _ => some label
  | _ => none

variable (parse : String → Option Json)

/-- **What a store makes of a `Command`** that writes or reads all rows of a query. -/
def serve (st : Store) : Command → Answer × Store
  | write _ series timestamp value =>
    let (result, st) := st.take series timestamp value
    (.ofExcept (fun () => .ok) result, st)
  | writeAt _ series time value =>
    match time.timestamp? with
    | none => (.failed (.timeOutOfRange time), st)
    | some timestamp =>
      let (result, st) := st.take series timestamp value
      (.ofExcept (fun () => .ok) result, st)
  | writeAll _ points =>
    let (failures, st) := st.takeAll points
    (.writes failures, st)
  | rows _ source =>
    match source.render with
    | .error failure => (.failed failure, st)
    | .ok text => (.items (st.prospect (parse text)).items, (st.query (parse text)).2)
  | _ => (.ok, st)

/-- What a closed session answers to such a `Command`. -/
def refuse : Command → Answer
  | writeAt _ _ time _ =>
    match time.timestamp? with
    | none => .failed (.timeOutOfRange time)
    | some _ => .failed .closed
  | writeAll _ points => .writes (points.map fun _ => .closed)
  | rows _ source =>
    match source.render with
    | .error failure => .failed failure
    | .ok _ => .failed .closed
  | _ => .failed .closed

end Command

namespace Store

/-- The store after a point of a series was written. -/
def appended (s : Store) (name : String) (timestamp : Timestamp) (value : Double) : Store :=
  (s.enlist name).2.withPoint ⟨(s.enlist name).1, timestamp, value⟩

/-- **What `take` makes of a point** does not depend on the store, if names can be counted: it is
refused, or `appended` under its canonical name. -/
theorem take_cases (series : String) (timestamp : Timestamp) (value : Double) :
    (∃ failure, ∀ s : Store, s.take series timestamp value = (.error failure, s)) ∨
    ∃ name, ∀ s : Store, (s.take series timestamp value).2.names = (s.enlist name).2.names ∧
      ((s.enlist name).2.Countable →
        s.take series timestamp value = (.ok (), s.appended name timestamp value)) := by
  by_cases hlong : Series.maxNameBytes < series.utf8ByteSize
  · exact .inl ⟨_, fun s => by rw [take, if_pos hlong]⟩
  cases hname : Series.normalize series with
  | none => exact .inl ⟨_, fun s => by rw [take, if_neg hlong, hname]⟩
  | some name =>
    refine .inr ⟨name, fun s => ⟨?_, fun hcount => ?_⟩⟩
    · rw [take, if_neg hlong, hname]
      dsimp only
      split
      · rfl
      next st' happend => rw [append?_eq_some happend]; rfl
    · rw [take, if_neg hlong, hname]
      dsimp only
      rw [append?, name?_enlist hcount]
      rfl

theorem names_take (s : Store) (series : String) (timestamp : Timestamp) (value : Double) :
    s.names <+: (s.take series timestamp value).2.names := by
  obtain ⟨failure, hrefused⟩ | ⟨name, htaken⟩ := take_cases series timestamp value
  · simp only [hrefused, List.prefix_refl]
  · rw [(htaken s).1]
    exact (enlist_grows s name).names

theorem names_takeAll (s : Store) (points : List (String × Timestamp × Double)) :
    s.names <+: (s.takeAll points).2.names := by
  induction points generalizing s with
  | nil => exact List.prefix_refl _
  | cons point points ih => exact (names_take s _ _ _).trans (ih _)

end Store

/-! ### Writes -/

namespace Session

variable (parse : String → Option Json) {session : Handle} {file : FileKey} {st : Store}
  {w : World Memory} {s : Session}

/-- **An idle engine takes a `write`** as the store does by `take`. -/
theorem write_take (series : String) (timestamp : Timestamp) (value : Double)
    (hpanic : w.channel.panic = none) (hhandle : s.handle = some session)
    (hserves : w.engine.Serves session file st) (hidle : w.engine.busyWrites = 0) :
    ∃ w', s.write (Memory.engine parse) series timestamp value w =
        ((st.take series timestamp value).1, w') ∧
      w.Becomes (w.engine.withStore file (st.take series timestamp value).2) w' := by
  rw [write, hhandle, checkHandle_some hpanic, Store.take]
  dsimp only
  split
  · exact ⟨w, rfl, by rw [hserves.withStore_self], rfl⟩
  simp only [Engine.ask, Memory.engine, Memory.answer, Memory.onEngine, Memory.seriesToId]
  cases hname : Series.normalize series with
  | none => exact ⟨_, rfl, by rw [hserves.withStore_self], rfl⟩
  | some name =>
    have hserves' := hserves.withStore (st.enlist name).2
    have hidle' : (w.engine.withStore file (st.enlist name).2).busyWrites = 0 := hidle
    simp only [hserves.store?_eq, hserves.setStore_eq]
    rw [attempt]
    simp only [Engine.ask, Memory.answer, Memory.onEngine, Memory.write, hidle',
      hserves'.store?_eq]
    cases happend : (st.enlist name).2.append? ⟨(st.enlist name).1, timestamp, value⟩ with
    | none => exact ⟨_, rfl, rfl, rfl⟩
    | some st' =>
      simp only [hserves'.setStore_eq, Memory.withStore_withStore]
      exact ⟨_, rfl, rfl, rfl⟩

theorem writeAll_takeAll (points : List (String × Timestamp × Double))
    (hpanic : w.channel.panic = none) (hhandle : s.handle = some session)
    (hserves : w.engine.Serves session file st) (hidle : w.engine.busyWrites = 0) :
    ∃ w', Workspace.writeAll (Memory.engine parse) s points w = ((st.takeAll points).1, w') ∧
      w.Becomes (w.engine.withStore file (st.takeAll points).2) w' := by
  induction points generalizing w st with
  | nil => exact ⟨w, rfl, by rw [Store.takeAll, hserves.withStore_self], rfl⟩
  | cons point points ih =>
    obtain ⟨series, timestamp, value⟩ := point
    obtain ⟨w₁, hwrite, hbecomes⟩ :=
      write_take parse series timestamp value hpanic hhandle hserves hidle
    have hserves₁ : w₁.engine.Serves session file (st.take series timestamp value).2 := by
      rw [hbecomes.engine]
      exact hserves.withStore _
    obtain ⟨w₂, hrest, hbecomes₂⟩ := ih (hbecomes.no_panic hpanic) hserves₁
      (by rw [hbecomes.engine]; exact hidle)
    refine ⟨w₂, ?_, ?_, hbecomes₂.panic.trans hbecomes.panic⟩
    · rcases htake : st.take series timestamp value with ⟨failure | u, st₁⟩ <;>
        rw [htake] at hwrite hrest <;>
        simp only [Workspace.writeAll, hwrite, hrest, Store.takeAll, htake]
    · rw [hbecomes₂.engine, hbecomes.engine, Memory.withStore_withStore, Store.takeAll]

theorem writeAll_of_closed (points : List (String × Timestamp × Double))
    (hpanic : w.channel.panic = none) (hhandle : s.handle = none) :
    Workspace.writeAll (Memory.engine parse) s points w = (points.map fun _ => .closed, w) := by
  induction points with
  | nil => rfl
  | cons point points ih =>
    rw [Workspace.writeAll, write_of_closed parse hpanic hhandle]
    dsimp only
    rw [ih]
    rfl

end Session

/-! ### Commands -/

/-- **A store was served from**: it becomes another, and handles and feeds may be added. -/
def World.Served (w : World Memory) (file : FileKey) (st : Store) (w' : World Memory) : Prop :=
  ∃ lastHandle ≥ w.engine.lastHandle, ∃ cursors,
    w.Becomes { w.engine.withStore file st with lastHandle, cursors } w'

namespace World.Served

variable {w w' w'' : World Memory} {file : FileKey} {st : Store}

theorem of_becomes (h : w.Becomes (w.engine.withStore file st) w') : w.Served file st w' :=
  ⟨_, Nat.le_refl _, w.engine.cursors, h⟩

theorem refl {session : Handle} (hserves : w.engine.Serves session file st) :
    w.Served file st w :=
  .of_becomes ⟨by rw [hserves.withStore_self], rfl⟩

theorem observed (h : w.Served file st w') (h' : w'.Observed w'') : w.Served file st w'' := by
  obtain ⟨lastHandle, hle, cursors, hengine, hpanic⟩ := h
  obtain ⟨cursors', calls, rfl⟩ := h'
  exact ⟨lastHandle, hle, cursors', by rw [hengine], hpanic⟩

theorem stores_eq (h : w.Served file st w') : w'.engine.stores = w.engine.stores.put file st := by
  obtain ⟨_, _, _, hengine, _⟩ := h
  rw [hengine]
  rfl

/-- The store is in its place. -/
theorem find?_self (h : w.Served file st w') : w'.engine.stores.find? file = some st := by
  rw [h.stores_eq, Table.find?_put_self]

end World.Served

namespace InOrder

variable {parse : String → Option Json} {ws : Workspace Memory} {H : History} {label : Label}
  {s : Child Session} {session : Handle} {file : FileKey} {st : Store}

/-- **Calling `readAll`** of a query gives what the answer has in `prospect`, if the names of the
store can be counted. -/
theorem readAll_prospect (parse : String → Option Json) (h : InOrder ws H)
    (hs : ws.sessions.find? label = some s)
    (hhandle : s.it.handle = some session) (hserves : ws.world.engine.Serves session file st)
    (text : String) :
    ∃ answer w', Workspace.readAll (Memory.engine parse) s.it text ws.world = (answer, w') ∧
      ws.world.Served file (st.query (parse text)).2 w' ∧
      ((st.query (parse text)).2.Countable → answer = .items (st.prospect (parse text)).items) := by
  have husable := h.tied.sessions_usable hs
  obtain ⟨w₁, hopen, hbecomes⟩ :=
    Session.openCursor_becomes parse text h.panic h.calm.raw hhandle hserves
  have hserved : ws.world.Served file (st.query (parse text)).2 w₁ :=
    ⟨_, Nat.le_succ _, _, hbecomes⟩
  rw [Workspace.readAll, hopen]
  refine ⟨_, _, rfl, hserved.observed ((Cursor.moves_items (Memory.engine parse) _ w₁).observed.trans
    ((Cursor.leads_drop _ _ _).observed fun _ hcall => hcall.reads)), fun hcount => ?_⟩
  congr 1
  rw [Store.prospect]
  rcases hquery : st.query (parse text) with ⟨status | records, st'⟩
  · obtain ⟨w₂, hopen', hitems, -⟩ := Session.items_of_refusal h.panic h.calm.raw husable hhandle
      hserves hquery
    obtain rfl : w₁ = w₂ := congrArg Prod.snd (hopen.symm.trans hopen')
    exact hitems
  · rw [hquery] at hcount
    obtain ⟨w₂, hopen', -, hitems, -⟩ := h.rows_of_answer husable hhandle hserves hquery hcount
    obtain rfl : w₁ = w₂ := congrArg Prod.snd (hopen.symm.trans hopen')
    exact hitems.trans List.map_map.symm

/-- **The command `rows`**: the store is asked, and is answered with what it has in `prospect`. -/
theorem run_rows (parse : String → Option Json) (h : InOrder ws H) {source : Source} {text : String}
    (hs : ws.sessions.find? label = some s)
    (hhandle : s.it.handle = some session) (hserves : ws.world.engine.Serves session file st)
    (hrender : source.render = .ok text) :
    ws.world.Served file (st.query (parse text)).2
        (ws.run (Memory.engine parse) (.rows label source)).2.world ∧
      ((st.query (parse text)).2.Countable →
        (ws.run (Memory.engine parse) (.rows label source)).1 =
          .items (st.prospect (parse text)).items) := by
  obtain ⟨answer, w', hread, hserved, hanswer⟩ := h.readAll_prospect parse hs hhandle hserves text
  simp only [Workspace.run, Workspace.withSession, hs, hrender, hread]
  exact ⟨hserved, hanswer⟩

/-- **A session serves from its store**: while the engine refuses no writes, a command that
writes or reads all rows answers what the store makes of it, if its names can be counted
afterwards, and leaves the store as that. -/
theorem serve (parse : String → Option Json) (h : InOrder ws H)
    (hidle : ws.world.engine.busyWrites = 0) {c : Command}
    (hc : c.session? = some label) (hs : ws.sessions.find? label = some s)
    (hhandle : s.it.handle = some session) (hserves : ws.world.engine.Serves session file st) :
    ∃ answer w', ws.run (Memory.engine parse) c = (answer, { ws with world := w' }) ∧
      ws.world.Served file (c.serve parse st).2 w' ∧
      ((c.serve parse st).2.Countable → answer = (c.serve parse st).1) := by
  cases c with
  | write l series timestamp value =>
    obtain rfl := Option.some.inj hc
    obtain ⟨w', hwrite, hbecomes⟩ :=
      Session.write_take parse series timestamp value h.panic hhandle hserves hidle
    refine ⟨_, w', ?_, .of_becomes hbecomes, fun _ => rfl⟩
    simp only [Workspace.run, Workspace.withSession, hs, hwrite, Command.serve]
  | writeAt l series time value =>
    obtain rfl := Option.some.inj hc
    cases htime : time.timestamp? with
    | none =>
      refine ⟨.failed (.timeOutOfRange time), ws.world, ?_, ?_, ?_⟩ <;>
        simp only [Workspace.run, Workspace.withSession, hs, Session.writeAt, Command.serve, htime]
      · rfl
      · exact .refl hserves
      · exact fun _ => trivial
    | some timestamp =>
      obtain ⟨w', hwrite, hbecomes⟩ :=
        Session.write_take parse series timestamp value h.panic hhandle hserves hidle
      refine ⟨.ofExcept (fun () => .ok) (st.take series timestamp value).1, w', ?_, ?_, ?_⟩ <;>
        simp only [Workspace.run, Workspace.withSession, hs, Session.writeAt, Command.serve, htime,
          hwrite]
      · exact .of_becomes hbecomes
      · exact fun _ => trivial
  | writeAll l points =>
    obtain rfl := Option.some.inj hc
    obtain ⟨w', hwrites, hbecomes⟩ :=
      Session.writeAll_takeAll parse points h.panic hhandle hserves hidle
    refine ⟨_, w', ?_, .of_becomes hbecomes, fun _ => rfl⟩
    simp only [Workspace.run, Workspace.withSession, hs, hwrites, Command.serve]
  | rows l source =>
    obtain rfl := Option.some.inj hc
    cases hrender : source.render with
    | error failure =>
      refine ⟨.failed failure, ws.world, ?_, ?_, ?_⟩ <;>
        simp only [Workspace.run, Workspace.withSession, hs, Command.serve, hrender]
      · exact .refl hserves
      · exact fun _ => trivial
    | ok text =>
      obtain ⟨answer, w', hread, hserved, hanswer⟩ := h.readAll_prospect parse hs hhandle hserves text
      refine ⟨answer, w', ?_, ?_, ?_⟩
      · simp only [Workspace.run, Workspace.withSession, hs, hrender, hread]
      · simpa only [Command.serve, hrender] using hserved
      · simpa only [Command.serve, hrender] using hanswer
  | _ => cases hc

/-- **A closed session refuses** such a command, as `Command.refuse` says, and changes nothing. -/
theorem refuse (parse : String → Option Json) (h : InOrder ws H) {c : Command}
    (hc : c.session? = some label)
    (hs : ws.sessions.find? label = some s) (hhandle : s.it.handle = none) :
    ws.run (Memory.engine parse) c = (c.refuse, ws) := by
  cases c with
  | write l series timestamp value =>
    obtain rfl := Option.some.inj hc
    simp only [Workspace.run, Workspace.withSession, hs,
      Session.write_of_closed parse h.panic hhandle, Command.refuse, Answer.ofExcept]
  | writeAt l series time value =>
    obtain rfl := Option.some.inj hc
    cases htime : time.timestamp? <;>
      simp only [Workspace.run, Workspace.withSession, hs, Session.writeAt, htime,
        Session.write_of_closed parse h.panic hhandle, Command.refuse, Answer.ofExcept]
  | writeAll l points =>
    obtain rfl := Option.some.inj hc
    simp only [Workspace.run, Workspace.withSession, hs,
      Session.writeAll_of_closed parse points h.panic hhandle, Command.refuse]
  | rows l source =>
    obtain rfl := Option.some.inj hc
    cases hrender : source.render <;>
      simp only [Workspace.run, Workspace.withSession, hs, hrender, Workspace.readAll,
        Session.openCursor_of_closed parse _ h.panic hhandle, Command.refuse]
  | _ => cases hc

end InOrder

/-- Nothing goes by the label: nothing is done. -/
theorem Workspace.run_of_no_session {parse : String → Option Json} {ws : Workspace Memory}
    {label : Label} {c : Command} (hc : c.session? = some label)
    (hs : ws.sessions.find? label = none) :
    ws.run (Memory.engine parse) c = (.noHandle, ws) := by
  cases c <;> cases hc <;> simp only [run, withSession, hs]

end TimeSeries
