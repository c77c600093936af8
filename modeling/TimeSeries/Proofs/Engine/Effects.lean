import TimeSeries.Proofs.Client.Sessions

/-!
# What a call does to an engine

A call opens or closes something, changes the store of one file, reads from a feed, or does nothing.
`Memory.Effect` lists what can come of a call, one case for each, with what has to be so for it and
the handle that is lent by it; `Memory.effect_ask` says that nothing else can. So what every call
keeps is shown by the cases of the effect, and how calls are answered is looked into only here.
-/

namespace TimeSeries

/-! ### Leases -/

/-- **Lease**: a `Handle`, and what it stands for. -/
inductive Lease : Type where
  /-- an open database -/
  | database (handle : Handle)
  /-- an open session -/
  | session (handle : Handle)
  /-- an open cursor -/
  | cursor (handle : Handle)
  deriving DecidableEq, Repr

/-- The handle of a `Lease`. -/
def Lease.handle : Lease → Handle
  | database handle | session handle | cursor handle => handle

/-- **What a `Call` lends** by its reply. -/
def Call.lease? : (call : Call) → call.Reply → Option Lease
  | .openDatabase .., reply =>
    match reply with
    | .ok handle => some (.database handle)
    | .error _ => none
  | .createSession _, reply =>
    match reply with
    | .ok handle => some (.session handle)
    | .error _ => none
  | .query .., handle => some (.cursor handle)
  | _, _ => none

/-- **What a `Call` releases**, if it is there. -/
def Call.release? : Call → Option Lease
  | .closeDatabase handle => some (.database handle)
  | .destroySession handle => some (.session handle)
  | .cursorClose handle => some (.cursor handle)
  | _ => none

/-! ### Effects -/

namespace Memory

/-- The engine after a query was refused, as its session was not open. -/
def denied (m : Memory) : Memory :=
  { m with
    lastHandle := m.nextHandle
    cursors := m.cursors.put m.nextHandle { error := some .closed } }

/-- The engine after a read from a cursor, which had this feed. -/
def delivered (m : Memory) (cursor : Handle) (feed : Feed) (capacity : Nat) : Memory :=
  { m with cursors := m.cursors.put cursor (Feed.read feed (m.room capacity)).2 }

variable (parse : String → Option Json)

/-- **Effect of a `Call`** on an engine: what it lends and what it leaves. -/
inductive Effect (m : Memory) : Call → Option Lease → Memory → Prop where
  /-- nothing comes of a call that releases nothing -/
  | idle {call : Call} : call.release? = none → Effect m call none m
  /-- a database is opened -/
  | opened (path : Path) (log : Option (LogSettings × Path)) :
    Effect m (.openDatabase path log) (some (.database m.nextHandle)) (m.opened path.key)
  /-- a database is closed, if it is open -/
  | closed (database : Handle) :
    Effect m (.closeDatabase database) none (m.closeDatabase database)
  /-- a file of which no database is open is removed, and its store with it -/
  | removed {path : Path} : path.key ∉ m.databases.values →
    Effect m (.removeDatabase path) none (m.removed path.key)
  /-- a session is begun on a database that is open -/
  | begun {database : Handle} : m.databases.has database = true →
    Effect m (.createSession database) (some (.session m.nextHandle)) (m.begun database)
  /-- a session is ended, if it is there -/
  | ended (session : Handle) :
    Effect m (.destroySession session) none (m.destroySession session)
  /-- a series is listed -/
  | enlisted {session : Handle} {series name : String} {file : FileKey} {st : Store} :
    Series.normalize series = some name → m.Serves session file st →
    Effect m (.seriesToId session series) none (m.withStore file (st.enlist name).2)
  /-- a point is appended -/
  | appended {session : Handle} {id : SeriesId} {timestamp : Timestamp} {value : Double}
    {file : FileKey} {st st' : Store} :
    m.Serves session file st → st.append? ⟨id, timestamp, value⟩ = some st' →
    Effect m (.write session id timestamp value) none (m.withStore file st')
  /-- a write is refused -/
  | refused {session : Handle} {id : SeriesId} {timestamp : Timestamp} {value : Double} {left : Nat} :
    m.busyWrites = left + 1 →
    Effect m (.write session id timestamp value) none (m.refusing left)
  /-- a query is answered -/
  | answered {session : Handle} (text : String) {file : FileKey} {st : Store} :
    m.rawResults = [] → m.Serves session file st →
    Effect m (.query session text) (some (.cursor m.nextHandle))
      (m.answered file (st.query (parse text)))
  /-- a query gets bytes that waited -/
  | fed (session : Handle) (text : String) {bytes : Bytes} {rest : List Bytes} :
    m.rawResults = bytes :: rest →
    Effect m (.query session text) (some (.cursor m.nextHandle)) (m.fed bytes rest)
  /-- a query is refused -/
  | denied (session : Handle) (text : String) :
    Effect m (.query session text) (some (.cursor m.nextHandle)) m.denied
  /-- records are delivered -/
  | delivered {cursor : Handle} {feed : Feed} (capacity : Nat) : m.cursors.find? cursor = some feed →
    Effect m (.cursorRead cursor capacity) none (m.delivered cursor feed capacity)
  /-- a cursor is closed, if it is there -/
  | shut (cursor : Handle) : Effect m (.cursorClose cursor) none (m.cursorClose cursor)

theorem effect_openDatabase (path : Path) (log : Option (LogSettings × Path)) (w : World Memory) :
    Effect parse w.engine (.openDatabase path log)
      (Call.lease? (.openDatabase path log) ((engine parse).ask (.openDatabase path log) w).1)
      ((engine parse).ask (.openDatabase path log) w).2.engine := by
  simp only [Engine.ask, engine, answer, openDatabase]
  split
  · exact .idle rfl
  · exact .opened path log

theorem effect_removeDatabase (path : Path) (w : World Memory) :
    Effect parse w.engine (.removeDatabase path) none
      ((engine parse).ask (.removeDatabase path) w).2.engine := by
  simp only [Engine.ask, engine, answer, removeDatabase]
  split
  · exact .idle rfl
  next hopen =>
    have hclosed : path.key ∉ w.engine.databases.values := by simpa using hopen
    split
    · exact .idle rfl
    · split
      · exact .idle rfl
      · exact .removed hclosed

theorem effect_seriesToId (session : Handle) (series : String) (w : World Memory) :
    Effect parse w.engine (.seriesToId session series) none
      ((engine parse).ask (.seriesToId session series) w).2.engine := by
  simp only [Engine.ask, engine, answer, onEngine, seriesToId]
  split
  · exact .idle rfl
  next hname =>
    split
    · exact .idle rfl
    next hst =>
      obtain ⟨file, hserves⟩ := serves_of_store? hst
      rw [hserves.setStore_eq]
      exact .enlisted hname hserves

theorem effect_write (session : Handle) (id : SeriesId) (timestamp : Timestamp) (value : Double)
    (w : World Memory) :
    Effect parse w.engine (.write session id timestamp value) none
      ((engine parse).ask (.write session id timestamp value) w).2.engine := by
  simp only [Engine.ask, engine, answer, onEngine, write]
  split
  next hbusy => exact .refused hbusy
  · split
    · exact .idle rfl
    next hst =>
      obtain ⟨file, hserves⟩ := serves_of_store? hst
      split
      · exact .idle rfl
      next happend =>
        rw [hserves.setStore_eq]
        exact .appended hserves happend

theorem effect_query (session : Handle) (text : String) (w : World Memory) :
    Effect parse w.engine (.query session text)
      (some (.cursor ((engine parse).ask (.query session text) w).1))
      ((engine parse).ask (.query session text) w).2.engine := by
  cases hraw : w.engine.rawResults with
  | cons bytes rest =>
    simp only [Engine.ask, engine, answer, query, result, hraw]
    exact .fed session text hraw
  | nil =>
    cases hst : w.engine.store? session with
    | none =>
      have hresult : w.engine.result parse session text = (.error .closed, w.engine) := by
        simp only [result, hraw, hst]
      simp only [Engine.ask, engine, answer, query, hresult]
      exact .denied session text
    | some st =>
      obtain ⟨file, hserves⟩ := serves_of_store? hst
      obtain ⟨hhandle, hengine⟩ := ask_query_of_serves parse text hraw hserves
      rw [hhandle, hengine]
      exact .answered text hraw hserves

/-- **Every call that is made by `ask` has one of the effects.** -/
theorem effect_ask (call : Call) (w : World Memory) :
    Effect parse w.engine call (call.lease? ((engine parse).ask call w).1)
      ((engine parse).ask call w).2.engine := by
  cases call with
  | createDatabase name directory volumes =>
    simp only [Engine.ask, engine, answer, createDatabase]
    split
    · exact .idle rfl
    · split <;> exact .idle rfl
  | removeDatabase path => exact effect_removeDatabase parse path w
  | openDatabase path log => exact effect_openDatabase parse path log w
  | closeDatabase database => exact .closed database
  | createSession database =>
    simp only [Engine.ask, engine, answer, onEngine, createSession]
    split
    next hopen => exact .begun hopen
    · exact .idle rfl
  | destroySession session => exact .ended session
  | seriesToId session series => exact effect_seriesToId parse session series w
  | idToSeries session id => exact .idle rfl
  | write session id timestamp value => exact effect_write parse session id timestamp value w
  | query session text => exact effect_query parse session text w
  | cursorRead cursor capacity =>
    rw [ask_cursorRead, onEngine, cursorRead]
    split
    · exact .idle rfl
    next hfeed => exact .delivered capacity hfeed
  | cursorIsDone cursor => exact .idle rfl
  | cursorError cursor => exact .idle rfl
  | cursorClose cursor => exact .shut cursor

end Memory

end TimeSeries
