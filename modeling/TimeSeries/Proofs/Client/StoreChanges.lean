import TimeSeries.Proofs.Client.ReaderOutlooks
import TimeSeries.Proofs.Client.DatabaseFiles
import TimeSeries.Proofs.Client.FilledFiles

/-!
# What a command makes of the stores

A command changes at most one store: it begins or removes that of the file it names, or it writes or
asks in an open session and makes of its store what writing or asking makes of it
(`InOrder.restocks`). So all that is done on one file leaves the stores of the others alone
(`InOrder.find?_stores_run`), whatever goes wrong on the way.
-/

namespace TimeSeries

/-- The label of the session in which a `Command` writes. -/
def Command.writer? : Command → Option Label
  | write label .. | writeAt label .. | writeAll label _ => some label
  | _ => none

/-- The label of the session in which a `Command` asks. -/
def Command.asker? : Command → Option Label
  | rows label _ | openReader _ label _ => some label
  | _ => none

/-- **The file that a `Command` works on**: the one that it names, or that of its session. -/
def Workspace.worksOn? (ws : Workspace Memory) (c : Command) : Option FileKey :=
  match c with
  | .create directory name _ | .remove directory name | .openDatabase _ directory name _ =>
    some (databasePath directory name).key
  | .write label .. | .writeAt label .. | .writeAll label _ | .rows label _
  | .openReader _ label _ => ws.file? label
  | _ => none

/-- **Stores after a `Command`**: what it can make of the stores of an engine. -/
inductive Workspace.Restocks (ws : Workspace Memory) (c : Command) : Table FileKey Store → Prop where
  /-- they stay as they are -/
  | same : Restocks ws c ws.world.engine.stores
  /-- a database is opened on a file that is there -/
  | opened {label : Label} {directory : Path} {name : String} {settings : OpenSettings} :
    c = .openDatabase label directory name settings →
    ws.world.files.hasFile (databasePath directory name) = true →
    Restocks ws c (ws.world.engine.opened (databasePath directory name).key).stores
  /-- a database is removed -/
  | removed {directory : Path} {name : String} : c = .remove directory name →
    Restocks ws c (ws.world.engine.removed (databasePath directory name).key).stores
  /-- an open session writes to its store -/
  | written {label : Label} {file : FileKey} {st st' : Store} : c.writer? = some label →
    ws.OpenOn label file → ws.world.engine.stores.find? file = some st →
    Restocks ws c (ws.world.engine.stores.put file st')
  /-- an open session asks its store -/
  | asked {label : Label} {file : FileKey} {st : Store} (document : Option Json) :
    c.asker? = some label → ws.OpenOn label file → ws.world.engine.stores.find? file = some st →
    Restocks ws c (ws.world.engine.stores.put file (st.query document).2)

namespace Workspace

variable {ws : Workspace Memory} {c : Command} {label : Label} {file : FileKey}

theorem worksOn?_of_openOn (hc : c.writer? = some label ∨ c.asker? = some label)
    (hopen : ws.OpenOn label file) : ws.worksOn? c = some file := by
  obtain ⟨_, _, _, _, hfile⟩ := hopen
  cases c <;> simp only [Command.writer?, Command.asker?, reduceCtorEq, or_false, false_or,
    or_self, Option.some.injEq] at hc <;> exact hc ▸ hfile

/-- **The stores of other files** than that of `worksOn?` stay as they are. -/
theorem Restocks.find?_eq {stores : Table FileKey Store} (h : ws.Restocks c stores)
    (hother : ws.worksOn? c ≠ some file) :
    stores.find? file = ws.world.engine.stores.find? file := by
  cases h with
  | same => rfl
  | opened hc hfile =>
    subst hc
    rw [Memory.opened]
    dsimp only
    split
    · rfl
    · exact Table.find?_put_ne _ _ fun heq => hother (congrArg some heq)
  | removed hc =>
    subst hc
    rw [Memory.removed, Table.find?_erase, if_neg fun heq => hother (congrArg some heq)]
  | written hc hopen =>
    refine Table.find?_put_ne _ _ fun heq => hother ?_
    rw [worksOn?_of_openOn (.inl hc) hopen, heq]
  | asked document hc hopen =>
    refine Table.find?_put_ne _ _ fun heq => hother ?_
    rw [worksOn?_of_openOn (.inr hc) hopen, heq]

end Workspace

namespace InOrder

variable {parse : String → Option Json} {ws : Workspace Memory} {H : History} {c : Command}
  {label session : Label} {source : Source}

/-- What is `Writing` in a session writes to its store. -/
theorem restocks_writing {f : Session → World Memory → Answer × World Memory}
    {written : Session → World Memory → List Written} (h : InOrder ws H) (hf : Writing f written)
    (hc : c.writer? = some label) :
    ws.Restocks c (ws.withSession label f).2.world.engine.stores := by
  rw [Workspace.withSession]
  cases hs : ws.sessions.find? label with
  | none => exact .same
  | some s =>
    dsimp only
    cases hhandle : s.it.handle with
    | none =>
      rw [(hf.closed h.panic hhandle).1]
      exact .same
    | some handle =>
      obtain ⟨d, st, hd, hserves⟩ := h.tied.serves hs hhandle
      obtain ⟨st', busy, hbecomes, -⟩ := hf.opened h.panic hhandle hserves
      rw [hbecomes.engine]
      exact .written hc ⟨s, handle, hs, hhandle, Workspace.file?_eq hs hd⟩ hserves.find_eq

/-- The command `rows` asks the store of the session. -/
theorem restocks_rows (parse : String → Option Json) (h : InOrder ws H) (label : Label)
    (source : Source) :
    ws.Restocks (.rows label source)
      (ws.run (Memory.engine parse) (.rows label source)).2.world.engine.stores := by
  cases hs : ws.sessions.find? label with
  | none => rw [Workspace.run_of_no_session rfl hs]; exact .same
  | some s =>
    cases hhandle : s.it.handle with
    | none => rw [h.refuse parse rfl hs hhandle]; exact .same
    | some handle =>
      obtain ⟨d, st, hd, hserves⟩ := h.tied.serves hs hhandle
      cases hrender : source.render with
      | error failure =>
        simp only [Workspace.run, Workspace.withSession, hs, hrender]
        exact .same
      | ok text =>
        obtain ⟨hserved, -⟩ := h.run_rows parse hs hhandle hserves hrender
        rw [hserved.stores_eq]
        exact .asked (parse text) rfl ⟨s, handle, hs, hhandle, Workspace.file?_eq hs hd⟩
          hserves.find_eq

/-- The command `openReader` asks the store of the session. -/
theorem restocks_openReader (parse : String → Option Json) (h : InOrder ws H) (hlent : Lent ws)
    (label session : Label) (source : Source) :
    ws.Restocks (.openReader label session source)
      (ws.run (Memory.engine parse) (.openReader label session source)).2.world.engine.stores := by
  cases hs : ws.sessions.find? session with
  | none => rw [Workspace.run, Workspace.openReader, hs]; exact .same
  | some s =>
    cases hrender : source.render with
    | error failure => rw [Workspace.run, Workspace.openReader, hs, hrender]; exact .same
    | ok text =>
      cases hhandle : s.it.handle with
      | none =>
        rw [Workspace.run, Workspace.openReader, hs, hrender]
        dsimp only
        rw [Session.openCursor_of_closed parse text h.panic hhandle]
        exact .same
      | some handle =>
        obtain ⟨d, st, hd, hserves⟩ := h.tied.serves hs hhandle
        obtain ⟨w', r, hrun, hserved, -⟩ :=
          h.expects_openReader parse hlent label hs hrender hhandle hserves
        rw [hrun]
        dsimp only
        rw [hserved.stores_eq]
        exact .asked (parse text) rfl ⟨s, handle, hs, hhandle, Workspace.file?_eq hs hd⟩
          hserves.find_eq

/-- **What `run` makes of the stores** is what the command `Restocks`, where all is `InOrder`. -/
theorem restocks (parse : String → Option Json) (h : InOrder ws H) (hlent : Lent ws)
    (c : Command) :
    ws.Restocks c (ws.run (Memory.engine parse) c).2.world.engine.stores := by
  cases c with
  | openDatabase label directory name settings =>
    rw [Workspace.run]
    obtain ⟨_, w', hopen, hbecomes⟩ | ⟨w', hopen, -, hbecomes⟩ :=
      Database.openAt_becomes parse directory name settings ws.world
    · rw [hopen]
      dsimp only
      rw [hbecomes.engine]
      exact .same
    · have hfile := Database.hasFile_of_openAt parse directory name h.panic hopen
      have hdropped := Memory.stores_leads parse
        (Workspace.leads_dropDatabase parse { ws with world := w' } label)
        (by rintro _ ⟨_, _, rfl⟩; exact id)
      rw [hopen]
      dsimp only
      rw [hdropped, hbecomes.engine]
      exact .opened rfl hfile
  | remove directory name =>
    rw [Workspace.run]
    obtain ⟨_, w', hremove, hbecomes⟩ | ⟨w', hremove, -, hbecomes⟩ :=
      Database.remove_becomes parse directory name ws.world <;> rw [hremove] <;> dsimp only <;>
      rw [hbecomes.engine]
    · exact .same
    · exact .removed rfl
  | write label series timestamp value =>
    exact h.restocks_writing (writing_write series timestamp value) rfl
  | writeAt label series time value =>
    exact h.restocks_writing (writing_writeAt series time value) rfl
  | writeAll label points => exact h.restocks_writing (writing_writeAll points) rfl
  | rows label source => exact h.restocks_rows parse label source
  | openReader label session source => exact h.restocks_openReader parse hlent label session source
  | _ =>
    rw [Workspace.stores_run id]
    exact .same

/-- **The stores of other files** than that of `worksOn?` are left alone by `run`. -/
theorem find?_stores_run (parse : String → Option Json) (h : InOrder ws H) (hlent : Lent ws)
    {file : FileKey} (hother : ws.worksOn? c ≠ some file) :
    (ws.run (Memory.engine parse) c).2.world.engine.stores.find? file =
      ws.world.engine.stores.find? file :=
  (h.restocks parse hlent c).find?_eq hother

end InOrder

end TimeSeries
