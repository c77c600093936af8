import TimeSeries.Client.Workspace
import TimeSeries.Proofs.Engine.Calls

/-!
# What operations on databases and sessions do

Over the engine in memory, and as long as there is no panic, each operation of a caller
either changes nothing that counts or makes one change of the engine's state. The lemmas
here say which, one for each operation, so nothing later has to look into an operation
again. `World.Becomes` is the common form of a change: the engine's state becomes another
and no panic is reported; files, log and the record of calls are left open.
-/

namespace TimeSeries

/-- **The engine's state becomes `m`**, and no panic is reported. -/
structure World.Becomes (w : World Memory) (m : Memory) (w' : World Memory) : Prop where
  /-- the state of the engine afterwards -/
  engine : w'.engine = m
  /-- no panic is reported -/
  panic : w'.channel.panic = w.channel.panic

namespace World.Becomes

variable {w w' : World Memory} {m : Memory}

theorem refl (w : World Memory) : w.Becomes w.engine w := ⟨rfl, rfl⟩

theorem no_panic (h : w.Becomes m w') (hpanic : w.channel.panic = none) :
    w'.channel.panic = none := h.panic.trans hpanic

end World.Becomes

theorem checkHandle_some {σ : Type} {w : World σ} (hpanic : w.channel.panic = none)
    (handle : Handle) : checkHandle w (some handle) = .ok handle := by
  simp [checkHandle, World.check_of_no_panic hpanic]

theorem checkHandle_none {σ : Type} {w : World σ} (hpanic : w.channel.panic = none) :
    checkHandle w none = .error .closed := by
  simp [checkHandle, World.check_of_no_panic hpanic]

variable (parse : String → Option Json) {w : World Memory}

/-! ### Databases -/

namespace Memory

/-- The engine after a database was opened on a file. -/
def opened (m : Memory) (file : FileKey) : Memory :=
  { m with
    lastHandle := m.nextHandle
    stores := if m.stores.has file then m.stores else m.stores.put file .empty
    databases := m.databases.put m.nextHandle file }

/-- The engine after a session was begun on a database. -/
def begun (m : Memory) (database : Handle) : Memory :=
  { m with
    lastHandle := m.nextHandle
    sessions := m.sessions.put m.nextHandle database }

/-- The engine after the store of a file was removed. -/
def removed (m : Memory) (file : FileKey) : Memory := { m with stores := m.stores.erase file }

end Memory

namespace Database

/-- **Calling `create`** is no business of the engine's state. -/
theorem create_becomes (directory : Path) (name : String) (volumes : VolumeSettings) :
    w.Becomes w.engine (create (Memory.engine parse) directory name volumes w).2 := by
  rw [create]
  dsimp only
  split
  · exact .refl w
  · simp only [Engine.ask, Memory.engine, Memory.answer, Memory.createDatabase]
    split
    · exact ⟨rfl, rfl⟩
    · split <;> exact ⟨rfl, rfl⟩

/-- **Calling `openAt`** fails without a trace, or gives a database on its file that has
`nextHandle` and settings that pass their `check`. -/
theorem openAt_becomes (directory : Path) (name : String) (settings : OpenSettings)
    (w : World Memory) :
    (∃ failure w', openAt (Memory.engine parse) directory name settings w = (.error failure, w') ∧
      w.Becomes w.engine w') ∨
    ∃ w', openAt (Memory.engine parse) directory name settings w =
        (.ok ⟨some w.engine.nextHandle, databasePath directory name, settings⟩, w') ∧
      settings.check = .ok () ∧
        w.Becomes (w.engine.opened (databasePath directory name).key) w' := by
  rw [openAt]
  split
  next failure _ => exact .inl ⟨failure, w, rfl, .refl w⟩
  next hchecked =>
    have hsettings : settings.check = .ok () := by
      cases hcheck : settings.check with
      | ok _ => rfl
      | error fault =>
        rw [hcheck] at hchecked
        cases hw : w.check <;> cases hname : checkName name <;> rw [hw, hname] at hchecked <;>
          cases hchecked
    simp only [Engine.ask, Memory.engine, Memory.answer, Memory.openDatabase]
    by_cases hfile : w.files.has (databasePath directory name)
    · simp only [hfile, Bool.not_true, Bool.false_eq_true, if_false]
      exact .inr ⟨_, rfl, hsettings, rfl, rfl⟩
    · simp only [hfile, Bool.not_false, if_true]
      exact .inl ⟨_, _, rfl, rfl, rfl⟩

/-- **Calling `remove`** fails without a trace, or the database is not open and its store is
gone. -/
theorem remove_becomes (directory : Path) (name : String) (w : World Memory) :
    (∃ failure w', remove (Memory.engine parse) directory name w = (.error failure, w') ∧
      w.Becomes w.engine w') ∨
    ∃ w', remove (Memory.engine parse) directory name w = (.ok (), w') ∧
      (databasePath directory name).key ∉ w.engine.databases.values ∧
      w.Becomes (w.engine.removed (databasePath directory name).key) w' := by
  rw [remove]
  dsimp only
  split
  next failure _ => exact .inl ⟨failure, w, rfl, .refl w⟩
  next =>
    simp only [Engine.ask, Memory.engine, Memory.answer, Memory.removeDatabase]
    split
    · exact .inl ⟨_, _, rfl, rfl, rfl⟩
    next hopen =>
      split
      · exact .inl ⟨_, _, rfl, rfl, rfl⟩
      · split
        · exact .inl ⟨_, _, rfl, rfl, rfl⟩
        · refine .inr ⟨_, rfl, ?_, rfl, rfl⟩
          simpa using hopen

/-- The engine after a database was given up. -/
def released (d : Database) (m : Memory) : Memory :=
  match d.handle with
  | some handle => m.closeDatabase handle
  | none => m

/-- Only tables of handles change. -/
theorem released_eq (d : Database) (m : Memory) :
    ∃ databases sessions, d.released m = { m with databases, sessions } := by
  rw [released]
  split
  · rw [Memory.closeDatabase]
    split <;> exact ⟨_, _, rfl⟩
  · exact ⟨_, _, rfl⟩

theorem close_becomes (d : Database) (hpanic : w.channel.panic = none) :
    ∃ w', d.close (Memory.engine parse) w = (.ok (), { d with handle := none }, w') ∧
      w.Becomes (d.released w.engine) w' := by
  rw [close, World.check_of_no_panic hpanic, released]
  obtain ⟨_ | handle, file, settings⟩ := d
  · exact ⟨w, rfl, .refl w⟩
  · exact ⟨_, rfl, rfl, rfl⟩

theorem drop_becomes (d : Database) (hpanic : w.channel.panic = none) :
    w.Becomes (d.released w.engine) (d.drop (Memory.engine parse) w) := by
  rw [drop, released]
  cases d.handle with
  | none => exact .refl w
  | some handle =>
    simp only [Channel.hasPanic, hpanic]
    exact ⟨rfl, rfl⟩

end Database

/-! ### Sessions -/

/-- **Calling `session`** on an open database begins one with `nextHandle`. -/
theorem Database.session_becomes {d : Database} {handle : Handle}
    (hpanic : w.channel.panic = none) (hhandle : d.handle = some handle)
    (hopen : w.engine.databases.has handle = true) :
    ∃ w', d.session (Memory.engine parse) w =
        (.ok ⟨some w.engine.nextHandle, d.settings⟩, w') ∧
      w.Becomes (w.engine.begun handle) w' := by
  rw [Database.session, hhandle, checkHandle_some hpanic]
  simp only [Engine.ask, Memory.engine, Memory.answer, Memory.onEngine, Memory.createSession, hopen,
    if_true]
  exact ⟨_, rfl, rfl, rfl⟩

theorem Database.session_of_closed {d : Database} (hpanic : w.channel.panic = none)
    (hhandle : d.handle = none) :
    d.session (Memory.engine parse) w = (.error .closed, w) := by
  rw [Database.session, hhandle, checkHandle_none hpanic]

namespace Session

/-- The engine after a session was given up. -/
def released (s : Session) (m : Memory) : Memory :=
  match s.handle with
  | some handle => m.destroySession handle
  | none => m

/-- Only the table of sessions changes. -/
theorem released_eq (s : Session) (m : Memory) :
    ∃ sessions, s.released m = { m with sessions } := by
  rw [released]
  split <;> exact ⟨_, rfl⟩

theorem close_becomes (s : Session) (hpanic : w.channel.panic = none) :
    ∃ w', s.close (Memory.engine parse) w = (.ok (), { s with handle := none }, w') ∧
      w.Becomes (s.released w.engine) w' := by
  rw [close, World.check_of_no_panic hpanic, released]
  obtain ⟨_ | handle, settings⟩ := s
  · exact ⟨w, rfl, .refl w⟩
  · exact ⟨_, rfl, rfl, rfl⟩

theorem drop_becomes (s : Session) (hpanic : w.channel.panic = none) :
    w.Becomes (s.released w.engine) (s.drop (Memory.engine parse) w) := by
  rw [drop, released]
  cases s.handle with
  | none => exact .refl w
  | some handle =>
    simp only [Channel.hasPanic, hpanic]
    exact ⟨rfl, rfl⟩

end Session

end TimeSeries
