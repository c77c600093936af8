import TimeSeries.Proofs.Client.Handles
import TimeSeries.Proofs.Client.Histories
import TimeSeries.Proofs.Cursor.Frame
import TimeSeries.Proofs.Store.Answers

/-!
# The invariant of runs

`InOrder` is what holds of a workspace and its history all along a run of quiet events: there
is no panic, nothing tampers with answers, the caller's handles are tied to the engine's and
the logs of the stores are the history. There is one lemma for each way in which a command
can change the world or the tables, the commands are put together from these
(`InOrder.command`), and by induction along the run the invariant holds of every workspace
that is reached: `Reached.inOrder`.
-/

namespace TimeSeries

/-- **Calm engines** answer from their stores: no bytes wait, no name is forgotten and
deliveries are not limited. -/
structure Memory.Calm (m : Memory) : Prop where
  /-- no bytes wait to take the place of an answer -/
  raw : m.rawResults = []
  /-- no name is forgotten -/
  forgotten : m.forgotten = []
  /-- deliveries are not limited -/
  limit : m.chunkLimit = none

/-- **In order**: what holds of a workspace and its `History` all along a run. -/
structure InOrder (ws : Workspace Memory) (H : History) : Prop where
  /-- there was no panic -/
  panic : ws.world.channel.panic = none
  /-- the engine is calm -/
  calm : ws.world.engine.Calm
  /-- handles are tied -/
  tied : Tied ws.world.engine ws.databases ws.sessions
  /-- the logs are the history -/
  recorded : Recorded ws.world.engine H

/-! ### Changes of the world -/

namespace InOrder

variable {parse : String → Option Json} {ws : Workspace Memory} {H : History} {w' : World Memory}
  {m' : Memory} {databases : Table Label Database} {sessions : Table Label (Child Session)}
  {readers : Table Label (Child Reader)} {label : Label}

theorem start (files : FileTree) : InOrder (.ofWorld { engine := {}, files }) fun _ => [] :=
  ⟨rfl, ⟨rfl, rfl, rfl⟩, .empty _, fun _ => rfl⟩

/-- **The engine `Becomes` another** that is `Calm`, `Tied` and `Recorded`. -/
theorem becomes {H' : History} (h : InOrder ws H) (hbecomes : ws.world.Becomes m' w')
    (hcalm : m'.Calm) (htied : Tied m' databases sessions) (hrecorded : Recorded m' H') :
    InOrder { world := w', databases, sessions, readers } H' := by
  obtain ⟨rfl, hpanic⟩ := hbecomes
  exact ⟨hpanic.trans h.panic, hcalm, htied, hrecorded⟩

/-- A world that `Becomes` one with the same engine does not matter. -/
theorem same (h : InOrder ws H) (hbecomes : ws.world.Becomes ws.world.engine w') :
    InOrder { ws with world := w', readers } H :=
  h.becomes hbecomes h.calm h.tied h.recorded

/-- **Readers only read**, as `Observed` says. -/
theorem observed (h : InOrder ws H) (hobserved : ws.world.Observed w') :
    InOrder { ws with world := w', readers } H := by
  obtain ⟨cursors, calls, rfl⟩ := hobserved
  have hext : ws.world.engine.Extends { ws.world.engine with cursors } :=
    ⟨Nat.le_refl _, fun _ _ => rfl, fun _ _ => rfl, fun _ => id⟩
  exact ⟨h.panic, ⟨h.calm.raw, h.calm.forgotten, h.calm.limit⟩, h.tied.extend hext,
    h.recorded.of_stores_eq rfl⟩

/-- **Calling `openCursor`** adds names at most. -/
theorem openCursor (parse : String → Option Json) {s : Child Session} (h : InOrder ws H)
    (hs : ws.sessions.find? label = some s) (text : String)
    (readers : Table Label (Child Reader)) :
    InOrder { ws with world := (s.it.openCursor (Memory.engine parse) text ws.world).2, readers }
      H := by
  cases hhandle : s.it.handle with
  | none =>
    rw [Session.openCursor_of_closed parse text h.panic hhandle]
    exact h.same (.refl _)
  | some session =>
    obtain ⟨d, st, -, hserves⟩ := h.tied.serves hs hhandle
    obtain ⟨w', hopen, hbecomes⟩ :=
      Session.openCursor_becomes parse text h.panic h.calm.raw hhandle hserves
    have hgrows := Store.grows_query st (parse text)
    have hext : ws.world.engine.Extends
        (ws.world.engine.answered d.file.key (st.query (parse text))) :=
      ⟨Nat.le_succ _, fun _ _ => rfl, fun _ _ => rfl,
        (Memory.extends_withStore ws.world.engine d.file.key (st.query (parse text)).2).stores⟩
    rw [hopen]
    exact h.becomes hbecomes ⟨h.calm.raw, h.calm.forgotten, h.calm.limit⟩ (h.tied.extend hext)
      ((h.recorded.grow hserves.find_eq hgrows).of_stores_eq rfl)

/-- **Writing** in an open session, as `Writes` says. -/
theorem writes {session : Handle} {d : Database} {st : Store} {written : List Written}
    (h : InOrder ws H) (hserves : ws.world.engine.Serves session d.file.key st)
    (hwrites : ws.world.Writes d.file.key st w' written) (hfits : w'.engine.Fits) :
    InOrder { ws with world := w' } (H.add d.file.key written) := by
  obtain ⟨st', busy, hbecomes, -, hlog⟩ := hwrites
  have hcount : st'.Countable := by
    refine hfits d.file.key st' ?_
    rw [hbecomes.engine]
    exact Table.find?_put_self _ _ _
  have hext : ws.world.engine.Extends
      ((ws.world.engine.withStore d.file.key st').refusing busy) :=
    ⟨Nat.le_refl _, fun _ _ => rfl, fun _ _ => rfl,
      (Memory.extends_withStore ws.world.engine d.file.key st').stores⟩
  exact h.becomes hbecomes ⟨h.calm.raw, h.calm.forgotten, h.calm.limit⟩ (h.tied.extend hext)
    ((h.recorded.add hserves.find_eq (hlog hcount)).of_stores_eq rfl)

/-- **Changes of `files`** from outside do not matter. -/
theorem files (h : InOrder ws H) (t : FileTree) :
    InOrder { ws with world := { ws.world with files := t } } H :=
  h.same ⟨rfl, rfl⟩

/-- **Disturbances that are `Quiet`** do not matter. -/
theorem disturb (h : InOrder ws H) {d : Memory.Disturbance} (hquiet : (Event.disturb d).Quiet) :
    InOrder { ws with world := Memory.disturb ws.world d } H := by
  have hext : ∀ {m : Memory}, m.lastHandle = ws.world.engine.lastHandle →
      m.databases = ws.world.engine.databases → m.sessions = ws.world.engine.sessions →
      m.stores = ws.world.engine.stores → ws.world.engine.Extends m := by
    intro m hlast hdatabases hsessions hstores
    refine ⟨Nat.le_of_eq hlast.symm, fun _ _ => ?_, fun _ _ => ?_, fun _ hk => ?_⟩
    · rw [hdatabases]
    · rw [hsessions]
    · rwa [hstores]
  cases d with
  | busyWrites count =>
    have hbecomes : ws.world.Becomes (ws.world.engine.refusing count)
        (Memory.disturb ws.world (.busyWrites count)) := ⟨rfl, rfl⟩
    exact h.becomes hbecomes ⟨h.calm.raw, h.calm.forgotten, h.calm.limit⟩
      (h.tied.extend (hext rfl rfl rfl rfl)) (h.recorded.of_stores_eq rfl)
  | chunkLimit limit =>
    have hbecomes : ws.world.Becomes { ws.world.engine with chunkLimit := limit }
        (Memory.disturb ws.world (.chunkLimit limit)) := ⟨rfl, rfl⟩
    exact h.becomes hbecomes ⟨h.calm.raw, h.calm.forgotten, hquiet⟩
      (h.tied.extend (hext rfl rfl rfl rfl)) (h.recorded.of_stores_eq rfl)
  | delays nanos => exact h.same ⟨rfl, rfl⟩
  | failCursors status => exact h.observed ⟨_, _, rfl⟩
  | forgetSeries series => exact hquiet.elim
  | rawResult bytes => exact hquiet.elim
  | raisePanic message => exact hquiet.elim

end InOrder

end TimeSeries
