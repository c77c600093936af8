import TimeSeries.Proofs.Client.CommandSides
import TimeSeries.Proofs.Client.View

/-!
# Views show workspaces

A view shows the own side of a workspace (`Shows`), and its readers have in prospect what those of
the workspace expect (`Expecting`). A command on the own side is mirrored in the view
(`Shows.mirrors`): it is answered alike, and what becomes of the view shows what becomes of the
workspace. There is one lemma for each sort of command.
-/

namespace TimeSeries

theorem Command.readerLabel?_of_session? {c : Command} {label : Label}
    (hc : c.session? = some label) : c.readerLabel? = none := by
  cases c <;> first | rfl | cases hc

theorem Command.readerLabel?_of_reader? {c : Command} {label : Label}
    (hc : c.reader? = some label) : c.readerLabel? = some label := by
  cases c <;> first | exact hc | cases hc

/-- **A `View` shows the own side** of a workspace: its files but for some places `apart`, its
stores, its databases and its sessions, and of its readers which sessions they were opened in. -/
structure Shows (P : Parting) (apart : FileKey → Prop) (ws : Workspace Memory) (v : View) : Prop where
  /-- the files -/
  files : ws.world.files.Agrees apart v.files
  /-- the stores -/
  stores : ws.world.engine.stores.Shown P.files (fun st st' => st' = st) v.stores
  /-- the databases -/
  databases : ws.databases.Shown P.databases (fun d b => b = ⟨d.handle.isSome, d.file⟩) v.databases
  /-- the sessions -/
  sessions : ws.sessions.Shown P.sessions (fun s b => b = ⟨s.parent, ⟨s.it.handle.isSome⟩⟩)
    v.sessions
  /-- the readers -/
  readers : ws.readers.Shown P.readers (fun r b => b.parent = r.parent) v.readers

/-- **Readers of the own side `Expects`** what they have in prospect in the view. -/
def Expecting (P : Parting) (ws : Workspace Memory) (v : View) : Prop :=
  ∀ label r, P.readers label = true → ws.readers.find? label = some r →
    ∃ b, v.readers.find? label = some b ∧ r.it.Expects ws.world b.it.names b.it.outlook

/-- **A result is mirrored** in a view: what becomes of the view `Shows` what becomes of the
workspace, and if names can be counted afterwards, the answer is the same and the reader at a label
`Expects` what it then has in prospect. -/
structure Mirrors (P : Parting) (apart : FileKey → Prop) (label? : Option Label)
    (result : Answer × Workspace Memory) (result' : Answer × View) : Prop where
  /-- what becomes of the view -/
  shows : Shows P apart result.2 result'.2
  /-- the answer -/
  answer : result.2.world.engine.Fits → result.1 = result'.1
  /-- the reader -/
  reader : result.2.world.engine.Fits → ∀ {label r}, P.readers label = true →
    label? = some label → result.2.readers.find? label = some r →
      ∃ b, result'.2.readers.find? label = some b ∧
        r.it.Expects result.2.world b.it.names b.it.outlook

/-- **A command is mirrored** if the result of its `run` is. -/
abbrev MirrorsRun (parse : String → Option Json) (P : Parting) (apart : FileKey → Prop)
    (ws : Workspace Memory) (v : View) (c : Command) : Prop :=
  Mirrors P apart c.readerLabel? (ws.run (Memory.engine parse) c) (v.run parse c)

section

variable {parse : String → Option Json} {P : Parting} {apart : FileKey → Prop}
  {ws : Workspace Memory} {v : View} {H : History} {label : Label}

/-- A command that is on no reader. -/
theorem Mirrors.plain {answer : Answer} (h : Shows P apart ws v) :
    Mirrors P apart none (answer, ws) (answer, v) := by
  refine ⟨h, fun _ => rfl, fun _ {l r} _ hl => ?_⟩
  cases hl

/-- A command on a reader that changes nothing. -/
theorem Mirrors.still {label? : Option Label} {answer : Answer} (h : Shows P apart ws v)
    (hexpecting : Expecting P ws v) : Mirrors P apart label? (answer, ws) (answer, v) :=
  ⟨h, fun _ => rfl, fun _ {_ _} hown _ hr => hexpecting _ _ hown hr⟩

namespace Shows

/-! ### What is shown -/

/-- Paths lead, by `walk`, to the same place in the files that are shown. -/
theorem walk (h : Shows P apart ws v) {p : Path}
    (hp : ∀ place, v.files.walk p = .ok place → ¬apart place) :
    ∀ place, ws.world.files.walk p = .ok place → ¬apart place := fun place hwalk =>
  hp place ((FileTree.walk_eq_ok h.files.directories).mp hwalk)

/-- **Whether a database is in use**, `databaseInUse`, is shown. -/
theorem databaseInUse_eq (h : Shows P apart ws v) (hparted : Parted P ws)
    (hown : P.databases label = true) : v.databaseInUse label = ws.databaseInUse label := by
  refine h.sessions.holds_eq hparted.distinct_sessions (fun s b hb => by rw [hb]) ?_
  intro l s hs hparent
  rw [← hparted.sessions hs, beq_iff_eq.mp hparent, hown]

/-- **Whether a session is in use**, `sessionInUse`, is shown. -/
theorem sessionInUse_eq (h : Shows P apart ws v) (hparted : Parted P ws)
    (hown : P.sessions label = true) : v.sessionInUse label = ws.sessionInUse label := by
  refine h.readers.holds_eq hparted.distinct_readers (fun r b hb => by rw [hb]) ?_
  intro l r hr hparent
  rw [← hparted.readers hr, beq_iff_eq.mp hparent, hown]

/-- **Whether a file is open**, `isOpenOn`, is shown: all open databases are accounted for. -/
theorem isOpenOn_eq (h : Shows P apart ws v) (hparted : Parted P ws) (horder : InOrder ws H)
    {file : FileKey} (hown : P.files file = true) :
    v.isOpenOn file = ws.world.engine.databases.values.contains file := by
  rw [Bool.eq_iff_iff, View.isOpenOn, Table.holds_iff, List.contains_iff_mem]
  constructor
  · rintro ⟨l, b, hb, hopen⟩
    obtain ⟨-, d, hd, rfl⟩ := h.databases.of_find? hb
    obtain ⟨hhandle, hfile⟩ := Bool.and_eq_true_iff.mp hopen
    obtain ⟨handle, hhandle⟩ := Option.isSome_iff_exists.mp hhandle
    have hfound := (horder.tied.databases_open hd hhandle).file_eq
    rw [beq_iff_eq.mp hfile] at hfound
    exact Table.mem_values_of_find? hfound
  · intro hmem
    obtain ⟨⟨handle, file⟩, hentry, rfl⟩ := List.mem_map.mp hmem
    obtain ⟨l, d, hd, hhandle, hfile⟩ := hparted.accounted _ _ hentry
    have hl : P.databases l = true := by rw [← hparted.databases hd, hfile, hown]
    obtain ⟨b, hb, rfl⟩ := h.databases.find?_eq_some hl hd
    refine ⟨l, _, hb, Bool.and_eq_true_iff.mpr ⟨?_, beq_iff_eq.mpr hfile⟩⟩
    rw [hhandle, Option.isSome_some]

/-- What is at the label of a session is shown. -/
theorem session_of_find? (h : Shows P apart ws v) (hown : P.sessions label = true)
    {s : Child Session} (hs : ws.sessions.find? label = some s) :
    v.sessions.find? label = some ⟨s.parent, ⟨s.it.handle.isSome⟩⟩ := by
  obtain ⟨b, hb, rfl⟩ := h.sessions.find?_eq_some hown hs
  exact hb

/-- **What an open session works on**, `store?`, is shown, and it is on the own side. -/
theorem store?_of_open (h : Shows P apart ws v) (hparted : Parted P ws) (horder : InOrder ws H)
    (hown : P.sessions label = true) {s : Child Session} (hs : ws.sessions.find? label = some s)
    {handle : Handle} (hhandle : s.it.handle = some handle) :
    ∃ file st, ws.world.engine.Serves handle file st ∧ P.files file = true ∧
      v.store? ⟨s.parent, ⟨s.it.handle.isSome⟩⟩ = some (file, st) := by
  obtain ⟨d, st, hd, hserves⟩ := horder.tied.serves hs hhandle
  have hparent : P.databases s.parent = true := (hparted.sessions hs).trans hown
  have hfile : P.files d.file.key = true := (hparted.databases hd).trans hparent
  obtain ⟨b, hb, rfl⟩ := h.databases.find?_eq_some hparent hd
  obtain ⟨st', hst', rfl⟩ := h.stores.find?_eq_some hfile hserves.find_eq
  refine ⟨d.file.key, st', hserves, hfile, ?_⟩
  simp only [View.store?, hhandle, Option.isSome_some, if_true, hb, Option.bind_some, hst',
    Option.map_some]

theorem store?_of_closed {s : Child Session} (hhandle : s.it.handle = none) :
    v.store? ⟨s.parent, ⟨s.it.handle.isSome⟩⟩ = none := by
  simp only [View.store?, hhandle, Option.isSome_none, Bool.false_eq_true, if_false]

/-- Calls that are neither `OnFiles` nor `OnStores` are not seen. -/
theorem led (h : Shows P apart ws v) {kind : Call → Prop} {w' : World Memory}
    (hleads : (Memory.engine parse).Leads kind ws.world w')
    (hkind : ∀ call, kind call → ¬call.OnFiles ∧ ¬call.OnStores) :
    Shows P apart { ws with world := w' } v := by
  have hfiles := Memory.files_leads parse hleads fun call hcall => (hkind call hcall).1
  have hstores := Memory.stores_leads parse hleads fun call hcall => (hkind call hcall).2
  refine { h with files := ?_, stores := ?_ }
  · rw [hfiles]
    exact h.files
  · rw [hstores]
    exact h.stores

/-! ### Files and databases -/

/-- **The command `create`** is mirrored. -/
theorem mirrors_create (h : Shows P apart ws v) (horder : InOrder ws H) (directory : Path)
    (name : String) (volumes : VolumeSettings)
    (hp : ∀ place, v.files.walk (databasePath directory name) = .ok place → ¬apart place) :
    MirrorsRun parse P apart ws v (.create directory name volumes) := by
  obtain ⟨w', hcreate, hfiles⟩ := Database.create_files parse directory name horder.panic volumes
  have hengine := (@Database.create_becomes parse ws.world directory name volumes).engine
  rw [hcreate] at hengine
  obtain ⟨hanswer, hagrees⟩ := h.files.createDatabase volumes (h.walk hp)
  rw [MirrorsRun, Workspace.run, View.run, hcreate, hanswer]
  refine .plain { h with files := ?_, stores := ?_ }
  · rw [hfiles]
    exact hagrees
  · rw [hengine]
    exact h.stores

/-- **The command `openDatabase`** is mirrored. -/
theorem mirrors_openDatabase (h : Shows P apart ws v) (horder : InOrder ws H)
    (hlabel : P.databases label = true) (directory : Path) (name : String)
    (settings : OpenSettings) (hfile : P.files (databasePath directory name).key = true)
    (hp : ∀ place, v.files.walk (databasePath directory name) = .ok place → ¬apart place) :
    MirrorsRun parse P apart ws v (.openDatabase label directory name settings) := by
  obtain ⟨w', hopen, hfiles⟩ := Database.openAt_files parse directory name horder.panic settings
  have hchecked := h.files.checkOpening_eq settings (h.walk hp)
  rw [MirrorsRun, Workspace.run, View.run, hopen, ← hchecked]
  cases hopening : ws.world.files.checkOpening directory name settings with
  | error failure =>
    rw [hopening] at hopen
    obtain ⟨_, w₁, hfailed, hbecomes⟩ | ⟨w₁, hdone, -⟩ :=
      Database.openAt_becomes parse directory name settings ws.world
    · obtain ⟨-, rfl⟩ := Prod.mk.inj (hfailed.symm.trans hopen)
      refine .plain { h with files := ?_, stores := ?_ }
      · rw [hfiles]
        exact h.files
      · rw [hbecomes.engine]
        exact h.stores
    · cases hdone.symm.trans hopen
  | ok u =>
    rw [hopening] at hopen
    obtain ⟨_, w₁, hfailed, -⟩ | ⟨w₁, hdone, -, hbecomes⟩ :=
      Database.openAt_becomes parse directory name settings ws.world
    · cases hfailed.symm.trans hopen
    obtain ⟨-, rfl⟩ := Prod.mk.inj (hdone.symm.trans hopen)
    have hopened : Shows P apart { ws with world := w₁ } { v with
        stores := if v.stores.has (databasePath directory name).key then v.stores
          else v.stores.put (databasePath directory name).key .empty } := by
      refine { h with files := ?_, stores := ?_ }
      · rw [hfiles]
        exact h.files
      · rw [hbecomes.engine, Memory.opened, h.stores.has_eq hfile]
        dsimp only
        split
        · exact h.stores
        · exact h.stores.put hfile rfl
    have hdropped := hopened.led (Workspace.leads_dropDatabase parse { ws with world := w₁ } label)
      (by rintro _ ⟨_, _, rfl⟩; exact ⟨id, id⟩)
    simp only [Except.map]
    rw [Workspace.dropDatabase_eq]
    exact .plain { hdropped with databases := (h.databases.erase label).put hlabel rfl }

/-- **The command `remove`** is mirrored. -/
theorem mirrors_remove (h : Shows P apart ws v) (hparted : Parted P ws) (horder : InOrder ws H)
    (directory : Path) (name : String) (hfile : P.files (databasePath directory name).key = true)
    (hp : ∀ place, v.files.walk (databasePath directory name) = .ok place → ¬apart place) :
    MirrorsRun parse P apart ws v (.remove directory name) := by
  obtain ⟨w', hremove, hfiles⟩ := Database.remove_files parse directory name horder.panic
  obtain ⟨hanswer, hagrees⟩ := h.files.removeDatabase
    (ws.world.engine.databases.values.contains (databasePath directory name).key) (h.walk hp)
  rw [MirrorsRun, Workspace.run, View.run, h.isOpenOn_eq hparted horder hfile, hremove, hanswer]
  rw [← hfiles] at hagrees
  rw [hanswer] at hremove
  generalize v.files.removeDatabase directory name _ = removed at hremove hagrees ⊢
  obtain ⟨failure | u, files⟩ := removed
  · obtain ⟨_, w₁, hfailed, hbecomes⟩ | ⟨w₁, hdone, -⟩ :=
      Database.remove_becomes parse directory name ws.world
    · obtain ⟨-, rfl⟩ := Prod.mk.inj (hfailed.symm.trans hremove)
      refine .plain { h with files := hagrees, stores := ?_ }
      rw [hbecomes.engine]
      exact h.stores
    · cases hdone.symm.trans hremove
  · obtain ⟨_, w₁, hfailed, -⟩ | ⟨w₁, hdone, -, hbecomes⟩ :=
      Database.remove_becomes parse directory name ws.world
    · cases hfailed.symm.trans hremove
    · obtain ⟨-, rfl⟩ := Prod.mk.inj (hdone.symm.trans hremove)
      refine .plain { h with files := hagrees, stores := ?_ }
      rw [hbecomes.engine]
      exact h.stores.erase _

/-- **The command `closeDatabase`** is mirrored. -/
theorem mirrors_closeDatabase (h : Shows P apart ws v) (hparted : Parted P ws)
    (horder : InOrder ws H) (hlabel : P.databases label = true) :
    MirrorsRun parse P apart ws v (.closeDatabase label) := by
  rw [MirrorsRun, Workspace.run, View.run, h.databaseInUse_eq hparted hlabel]
  cases hd : ws.databases.find? label with
  | none =>
    rw [h.databases.find?_eq_none hlabel hd]
    exact .plain h
  | some d =>
    obtain ⟨b, hb, rfl⟩ := h.databases.find?_eq_some hlabel hd
    rw [hb]
    dsimp only
    split
    · exact .plain h
    · obtain ⟨w', hclose, -⟩ := d.close_becomes parse horder.panic
      have hleads := d.leads_close (Memory.engine parse) ws.world
      rw [hclose] at hleads ⊢
      have hclosed := h.led hleads (by rintro _ ⟨_, _, rfl⟩; exact ⟨id, id⟩)
      exact .plain { hclosed with databases := h.databases.put hlabel rfl }

/-- **The command `dropDatabase`** is mirrored. -/
theorem mirrors_dropDatabase (h : Shows P apart ws v) (hparted : Parted P ws)
    (hlabel : P.databases label = true) :
    MirrorsRun parse P apart ws v (.dropDatabase label) := by
  rw [MirrorsRun, Workspace.run, View.run, h.databases.has_eq hlabel,
    h.databaseInUse_eq hparted hlabel]
  split
  · exact .plain h
  · split
    · exact .plain h
    · have hdropped := h.led (Workspace.leads_dropDatabase parse ws label)
        (by rintro _ ⟨_, _, rfl⟩; exact ⟨id, id⟩)
      rw [Workspace.dropDatabase_eq]
      exact .plain { hdropped with databases := h.databases.erase label }

/-! ### Sessions -/

/-- **The command `openSession`** is mirrored. -/
theorem mirrors_openSession (h : Shows P apart ws v) (horder : InOrder ws H) {database : Label}
    (hlabel : P.sessions label = true) (hparent : P.databases database = true) :
    MirrorsRun parse P apart ws v (.openSession label database) := by
  rw [MirrorsRun, Workspace.run, View.run, Workspace.openSession]
  cases hd : ws.databases.find? database with
  | none =>
    rw [h.databases.find?_eq_none hparent hd]
    exact .plain h
  | some d =>
    obtain ⟨b, hb, rfl⟩ := h.databases.find?_eq_some hparent hd
    rw [hb]
    cases hhandle : d.handle with
    | none =>
      dsimp only
      rw [Database.session_of_closed parse horder.panic hhandle]
      exact .plain h
    | some owner =>
      have hopen := horder.tied.databases_open hd hhandle
      obtain ⟨w', hsession, -⟩ := Database.session_becomes parse horder.panic hhandle
        (by rw [Table.has, hopen.file_eq, Option.isSome_some])
      have hleads := d.leads_session (Memory.engine parse) ws.world
      dsimp only
      rw [hsession] at hleads ⊢
      have hbegun := h.led hleads (by rintro _ ⟨_, _, rfl⟩; exact ⟨id, id⟩)
      have hdropped := hbegun.led (Workspace.leads_dropSession parse { ws with world := w' } label)
        (by rintro _ ⟨_, _, rfl⟩; exact ⟨id, id⟩)
      dsimp only [Option.isSome_some]
      rw [Workspace.dropSession_eq, if_pos rfl]
      exact .plain { hdropped with sessions := (h.sessions.erase label).put hlabel rfl }

/-- **The command `closeSession`** is mirrored. -/
theorem mirrors_closeSession (h : Shows P apart ws v) (hparted : Parted P ws)
    (horder : InOrder ws H) (hlabel : P.sessions label = true) :
    MirrorsRun parse P apart ws v (.closeSession label) := by
  rw [MirrorsRun, Workspace.run, View.run, h.sessionInUse_eq hparted hlabel]
  cases hs : ws.sessions.find? label with
  | none =>
    rw [h.sessions.find?_eq_none hlabel hs]
    exact .plain h
  | some s =>
    rw [h.session_of_find? hlabel hs]
    dsimp only
    split
    · exact .plain h
    · obtain ⟨w', hclose, -⟩ := s.it.close_becomes parse horder.panic
      have hleads := s.it.leads_close (Memory.engine parse) ws.world
      rw [hclose] at hleads ⊢
      have hclosed := h.led hleads (by rintro _ ⟨_, _, rfl⟩; exact ⟨id, id⟩)
      exact .plain { hclosed with sessions := h.sessions.put hlabel rfl }

/-- **The command `dropSession`** is mirrored. -/
theorem mirrors_dropSession (h : Shows P apart ws v) (hparted : Parted P ws)
    (hlabel : P.sessions label = true) : MirrorsRun parse P apart ws v (.dropSession label) := by
  rw [MirrorsRun, Workspace.run, View.run, h.sessions.has_eq hlabel,
    h.sessionInUse_eq hparted hlabel]
  split
  · exact .plain h
  · split
    · exact .plain h
    · have hdropped := h.led (Workspace.leads_dropSession parse ws label)
        (by rintro _ ⟨_, _, rfl⟩; exact ⟨id, id⟩)
      rw [Workspace.dropSession_eq]
      exact .plain { hdropped with sessions := h.sessions.erase label }

/-- **Writing and reading all rows** in a session, the commands with a `session?`, are mirrored. -/
theorem mirrors_session (h : Shows P apart ws v) (hparted : Parted P ws) (horder : InOrder ws H)
    (hidle : ws.world.engine.busyWrites = 0) (hlabel : P.sessions label = true) {c : Command}
    (hc : c.session? = some label) : MirrorsRun parse P apart ws v c := by
  have hplain := Command.readerLabel?_of_session? hc
  rw [MirrorsRun, View.run_of_session? hc, View.inSession, hplain]
  cases hs : ws.sessions.find? label with
  | none =>
    rw [Workspace.run_of_no_session hc hs, h.sessions.find?_eq_none hlabel hs]
    exact .plain h
  | some s =>
    rw [h.session_of_find? hlabel hs]
    cases hhandle : s.it.handle with
    | none =>
      have hstore : v.store? ⟨s.parent, ⟨s.it.handle.isSome⟩⟩ = none := store?_of_closed hhandle
      rw [horder.refuse parse hc hs hhandle]
      rw [hhandle] at hstore
      simp only [hstore]
      exact .plain h
    | some handle =>
      obtain ⟨file, st, hserves, hfile, hstore⟩ := h.store?_of_open hparted horder hlabel hs hhandle
      obtain ⟨answer, w', hrun, hserved, hanswer⟩ := horder.serve parse hidle hc hs hhandle hserves
      have hfiles := @Workspace.files_run parse ws c (by cases c <;> first | exact id | cases hc)
      rw [hrun] at hfiles ⊢
      rw [hhandle] at hstore
      simp only [hstore]
      refine ⟨{ h with files := ?_, stores := ?_ }, fun hfits => ?_, fun _ {l r} _ hl => ?_⟩
      · rw [hfiles]
        exact h.files
      · rw [hserved.stores_eq]
        exact h.stores.put hfile rfl
      · exact hanswer (hfits file _ hserved.find?_self)
      · cases hl

/-! ### Readers -/

/-- **The command `openReader`** is mirrored. -/
theorem mirrors_openReader (h : Shows P apart ws v) (hexpecting : Expecting P ws v)
    (hparted : Parted P ws) (horder : InOrder ws H) (hlent : Lent ws)
    (hlabel : P.readers label = true) {session : Label} (hparent : P.sessions session = true)
    (source : Source) : MirrorsRun parse P apart ws v (.openReader label session source) := by
  rw [MirrorsRun, View.run, View.openReader]
  cases hs : ws.sessions.find? session with
  | none =>
    rw [Workspace.run, Workspace.openReader, hs, h.sessions.find?_eq_none hparent hs]
    exact .still h hexpecting
  | some s =>
    rw [h.session_of_find? hparent hs]
    cases hrender : source.render with
    | error failure =>
      rw [Workspace.run, Workspace.openReader, hs, hrender]
      exact .still h hexpecting
    | ok text =>
      dsimp only
      cases hhandle : s.it.handle with
      | none =>
        have hstore : v.store? ⟨s.parent, ⟨s.it.handle.isSome⟩⟩ = none := store?_of_closed hhandle
        rw [hhandle] at hstore
        rw [Workspace.run, Workspace.openReader, hs, hrender, hstore]
        dsimp only
        rw [Session.openCursor_of_closed parse text horder.panic hhandle]
        exact .still h hexpecting
      | some handle =>
        obtain ⟨file, st, hserves, hfile, hstore⟩ :=
          h.store?_of_open hparted horder hparent hs hhandle
        obtain ⟨w', r, hrun, hserved, hexpects⟩ :=
          horder.expects_openReader parse hlent label hs hrender hhandle hserves
        have hfiles := @Workspace.files_run parse ws (.openReader label session source) id
        rw [hhandle] at hstore
        rw [hrun] at hfiles ⊢
        rw [hstore]
        refine ⟨{ h with files := ?_, stores := ?_, readers := ?_ }, fun _ => rfl,
          fun hfits {l r'} _ hl hr' => ?_⟩
        · rw [hfiles]
          exact h.files
        · rw [hserved.stores_eq]
          exact h.stores.put hfile rfl
        · exact (h.readers.erase label).put hlabel rfl
        · obtain rfl := Option.some.inj hl
          obtain rfl := Option.some.inj ((Table.find?_put_self _ _ _).symm.trans hr')
          exact ⟨_, Table.find?_put_self _ _ _, hexpects (hfits file _ hserved.find?_self)⟩

/-- **Asking, reading and closing** a reader, the commands with a `reader?`, are mirrored. -/
theorem mirrors_reader (h : Shows P apart ws v) (hexpecting : Expecting P ws v)
    (horder : InOrder ws H) (hlabel : P.readers label = true) {c : Command}
    (hc : c.reader? = some label) : MirrorsRun parse P apart ws v c := by
  rw [MirrorsRun, View.run_of_reader? hc, View.withReader]
  cases hr : ws.readers.find? label with
  | none =>
    rw [Workspace.run_of_no_reader hc hr, h.readers.find?_eq_none hlabel hr]
    exact .still h hexpecting
  | some r =>
    obtain ⟨b, hb, hexpects⟩ := hexpecting _ _ hlabel hr
    obtain ⟨b', hb', hparent⟩ := h.readers.find?_eq_some hlabel hr
    obtain rfl := Option.some.inj (hb.symm.trans hb')
    obtain ⟨r', w', hrun, hobserved, hexpects'⟩ := horder.run_reader parse hc hr hexpects
    rw [hrun, hb]
    obtain ⟨cursors, calls, rfl⟩ := hobserved
    refine ⟨{ h with readers := h.readers.put hlabel hparent }, fun _ => rfl,
      fun _ {l r''} _ hl hr'' => ?_⟩
    rw [Command.readerLabel?_of_reader? hc] at hl
    obtain rfl := Option.some.inj hl
    obtain rfl := Option.some.inj ((Table.find?_put_self _ _ _).symm.trans hr'')
    exact ⟨_, Table.find?_put_self _ _ _, hexpects'⟩

/-- **The command `dropReader`** is mirrored. -/
theorem mirrors_dropReader (h : Shows P apart ws v) (hexpecting : Expecting P ws v)
    (hlabel : P.readers label = true) : MirrorsRun parse P apart ws v (.dropReader label) := by
  rw [MirrorsRun, Workspace.run, View.run, h.readers.has_eq hlabel]
  split
  · have hdropped := h.led (Workspace.leads_dropReader parse ws label) fun _ hcall =>
      (Workspace.on_of_reads hcall.reads).imp_right And.left
    rw [Workspace.dropReader_eq]
    refine ⟨{ hdropped with readers := h.readers.erase label }, fun _ => rfl,
      fun _ {l r} _ hl hr => ?_⟩
    obtain rfl := Option.some.inj hl
    rw [Table.find?_erase, if_pos rfl] at hr
    cases hr
  · exact .still h hexpecting

/-! ### All commands -/

/-- **The command `dropAll`** is mirrored. -/
theorem mirrors_dropAll (h : Shows P apart ws v) : MirrorsRun parse P apart ws v .dropAll := by
  have hdropped := h.led (ws.leads_dropAll parse) fun _ => Workspace.on_of_letsGo
  obtain ⟨hdatabases, hsessions, hreaders⟩ := ws.dropAll_tables (Memory.engine parse)
  have hempty : ∀ {α β : Type} {own : Label → Bool} {R : α → β → Prop} (t : Table Label α),
      ((Workspace.sortLabels t.keys).foldl Table.erase t).Shown own R {} := fun t =>
    (Table.Shown.empty _ _).unseen fun l _ => Workspace.find?_foldl_sortLabels t l
  refine .plain { hdropped with databases := ?_, sessions := ?_, readers := ?_ }
  · rw [hdatabases]
    exact hempty _
  · rw [hsessions]
    exact hempty _
  · rw [hreaders]
    exact hempty _

/-- **Every command on the own side of `P` is mirrored**, if what it names as a file leads to no
place apart. -/
theorem mirrors (parse : String → Option Json) (h : Shows P apart ws v)
    (hexpecting : Expecting P ws v) (hparted : Parted P ws) (horder : InOrder ws H)
    (hlent : Lent ws) (hidle : ws.world.engine.busyWrites = 0) {c : Command}
    (hside : P.side? c = some true)
    (hpath : ∀ p, c.path? = some p → ∀ place, v.files.walk p = .ok place → ¬apart place) :
    MirrorsRun parse P apart ws v c := by
  cases c with
  | create directory name volumes => exact h.mirrors_create horder directory name volumes (hpath _ rfl)
  | openDatabase label directory name settings =>
    obtain ⟨hlabel, hfile⟩ := Parting.common_eq_some.mp hside
    exact h.mirrors_openDatabase horder hlabel directory name settings hfile (hpath _ rfl)
  | remove directory name =>
    exact h.mirrors_remove hparted horder directory name (Option.some.inj hside) (hpath _ rfl)
  | openSession label database =>
    obtain ⟨hlabel, hparent⟩ := Parting.common_eq_some.mp hside
    exact h.mirrors_openSession horder hlabel hparent
  | openReader label session source =>
    obtain ⟨hlabel, hparent⟩ := Parting.common_eq_some.mp hside
    exact h.mirrors_openReader hexpecting hparted horder hlent hlabel hparent source
  | closeDatabase label => exact h.mirrors_closeDatabase hparted horder (Option.some.inj hside)
  | dropDatabase label => exact h.mirrors_dropDatabase hparted (Option.some.inj hside)
  | closeSession label => exact h.mirrors_closeSession hparted horder (Option.some.inj hside)
  | dropSession label => exact h.mirrors_dropSession hparted (Option.some.inj hside)
  | dropReader label => exact h.mirrors_dropReader hexpecting (Option.some.inj hside)
  | write label | writeAt label | writeAll label | rows label =>
    exact h.mirrors_session hparted horder hidle (Option.some.inj hside) rfl
  | next label | item label | done label | canProceed label | closeReader label | isClosed label =>
    exact h.mirrors_reader hexpecting horder (Option.some.inj hside) rfl
  | dropAll => exact h.mirrors_dropAll

end Shows

end

end TimeSeries
