import TimeSeries.Proofs.Client.Operations
import TimeSeries.Proofs.Engine.Trees

/-!
# Databases as files

What the operations on databases answer and what they do to the files is made from the files
alone, but for whether a database is open (`Database.create_files`, `Database.openAt_files`,
`Database.remove_files`). On trees that agree where their paths lead they come to the same and
leave trees that agree, and in one tree alone, at places apart, they are not seen in the agreement.
-/

namespace TimeSeries

/-! ### Operations on trees -/

namespace FileTree

variable (directory : Path) (name : String)

/-- What is asked for is checked before `createDatabase`. -/
def checkCreation (volumes : VolumeSettings) : Except Failure Unit := do
  checkName name
  volumes.check.mapError .settings

/-- **Creating a database** in a tree of files. -/
def createDatabase (volumes : VolumeSettings) (t : FileTree) : Except Failure Path × FileTree :=
  let file := databasePath directory name
  match checkCreation name volumes with
  | .error failure => (.error failure, t)
  | .ok () =>
    if t.has file then (.error (.engine .general), t)
    else
      match t.writeFile file (Memory.marker volumes) with
      | .ok t => (.ok file, t)
      | .error _ => (.error (.engine .io), t)

/-- **Whether a database can be opened** from a tree of files. -/
def checkOpening (settings : OpenSettings) (t : FileTree) : Except Failure Unit := do
  checkName name
  settings.check.mapError .settings
  if t.hasFile (databasePath directory name) then .ok ()
  else .error (.databaseNotFound (databasePath directory name))

/-- **Whether there is a database to remove** in a tree of files. -/
def checkRemoval (t : FileTree) : Except Failure Unit := do
  checkName name
  if t.hasFile (databasePath directory name) then .ok ()
  else .error (.databaseNotFound (databasePath directory name))

/-- **Removing a database**, which may be open, from a tree of files. -/
def removeDatabase (isOpen : Bool) (t : FileTree) : Except Failure Unit × FileTree :=
  match t.checkRemoval directory name with
  | .error failure => (.error failure, t)
  | .ok () =>
    if isOpen then (.error (.engine .busy), t)
    else
      match t.removeFile (databasePath directory name) with
      | .ok t => (.ok (), t)
      | .error _ => (.error (.engine .io), t)

variable {directory name}

theorem hasFile_of_checkRemoval {t : FileTree} {u : Unit}
    (h : t.checkRemoval directory name = .ok u) :
    t.hasFile (databasePath directory name) = true := by
  rw [checkRemoval] at h
  cases hname : checkName name with
  | error failure => rw [hname] at h; cases h
  | ok u =>
    by_cases hfile : t.hasFile (databasePath directory name) = true
    · exact hfile
    · rw [hname, if_neg hfile] at h
      cases h

theorem hasFile_of_checkOpening {t : FileTree} {settings : OpenSettings} {u : Unit}
    (h : t.checkOpening directory name settings = .ok u) :
    t.hasFile (databasePath directory name) = true := by
  rw [checkOpening] at h
  cases hname : checkName name with
  | error failure => rw [hname] at h; cases h
  | ok u =>
    cases hsettings : settings.check with
    | error fault => rw [hname, hsettings] at h; cases h
    | ok u =>
      by_cases hfile : t.hasFile (databasePath directory name) = true
      · exact hfile
      · rw [hname, hsettings, if_neg hfile] at h
        cases h

theorem has_of_hasFile {t : FileTree} {p : Path} (h : t.hasFile p = true) : t.has p = true := by
  rw [hasFile] at h
  rw [has]
  split at h
  next hnode => rw [hnode]; rfl
  next => cases h

/-! ### Trees that agree -/

namespace Agrees

variable {apart : FileKey → Prop} {t t' t₁ : FileTree} {p : Path} {directory : Path}
  {name : String}

/-- Calling `writeFile` does alike where there is agreement on that there is nothing. -/
theorem writeFile (h : Agrees apart t t') (hnothing : t.has p = false)
    (hnothing' : t'.has p = false) (contents : String) :
    (∃ t₁ t₁', t.writeFile p contents = .ok t₁ ∧ t'.writeFile p contents = .ok t₁' ∧
      Agrees apart t₁ t₁') ∨
    ∃ fault fault', t.writeFile p contents = .error fault ∧
      t'.writeFile p contents = .error fault' := by
  cases hwrite : t.writeFile p contents with
  | ok t₁ =>
    obtain ⟨place, hwalk, rfl⟩ := (writeFile_eq_ok hnothing).mp hwrite
    have hwalk' := (walk_eq_ok h.directories).mp hwalk
    exact .inl ⟨_, _, rfl, (writeFile_eq_ok hnothing').mpr ⟨place, hwalk', rfl⟩, h.put _ _⟩
  | error fault =>
    cases hwrite' : t'.writeFile p contents with
    | ok t₁' =>
      obtain ⟨place, hwalk', -⟩ := (writeFile_eq_ok hnothing').mp hwrite'
      rw [(writeFile_eq_ok hnothing).mpr ⟨place, (walk_eq_ok h.directories).mpr hwalk', rfl⟩]
        at hwrite
      cases hwrite
    | error fault' => exact .inr ⟨fault, fault', rfl, rfl⟩

/-- **A database is created alike** where there is agreement. -/
theorem createDatabase (h : Agrees apart t t') (volumes : VolumeSettings)
    (hp : ∀ place, t.walk (databasePath directory name) = .ok place → ¬apart place) :
    (t.createDatabase directory name volumes).1 = (t'.createDatabase directory name volumes).1 ∧
      Agrees apart (t.createDatabase directory name volumes).2
        (t'.createDatabase directory name volumes).2 := by
  rw [FileTree.createDatabase, FileTree.createDatabase, ← h.has_eq hp]
  split
  · exact ⟨rfl, h⟩
  · split
    · exact ⟨rfl, h⟩
    next hnothing =>
      have hnothing := Bool.eq_false_iff.mpr hnothing
      obtain ⟨t₁, t₁', hwrite, hwrite', hagrees⟩ | ⟨_, _, hwrite, hwrite'⟩ :=
        h.writeFile hnothing ((h.has_eq hp).symm.trans hnothing) (Memory.marker volumes)
      · rw [hwrite, hwrite']
        exact ⟨rfl, hagrees⟩
      · rw [hwrite, hwrite']
        exact ⟨rfl, h⟩

/-- Whether there is a database to remove, or one that can be opened, is the same where trees are in
`Agrees`. -/
theorem checkRemoval_eq (h : Agrees apart t t')
    (hp : ∀ place, t.walk (databasePath directory name) = .ok place → ¬apart place) :
    t.checkRemoval directory name = t'.checkRemoval directory name := by
  rw [checkRemoval, checkRemoval, h.hasFile_eq hp]

theorem checkOpening_eq (h : Agrees apart t t') (settings : OpenSettings)
    (hp : ∀ place, t.walk (databasePath directory name) = .ok place → ¬apart place) :
    t.checkOpening directory name settings = t'.checkOpening directory name settings := by
  rw [checkOpening, checkOpening, h.hasFile_eq hp]

/-- **A database is removed alike** where there is agreement. -/
theorem removeDatabase (h : Agrees apart t t') (isOpen : Bool)
    (hp : ∀ place, t.walk (databasePath directory name) = .ok place → ¬apart place) :
    (t.removeDatabase directory name isOpen).1 = (t'.removeDatabase directory name isOpen).1 ∧
      Agrees apart (t.removeDatabase directory name isOpen).2
        (t'.removeDatabase directory name isOpen).2 := by
  rw [FileTree.removeDatabase, FileTree.removeDatabase, ← h.checkRemoval_eq hp]
  split
  · exact ⟨rfl, h⟩
  next hchecked =>
    split
    · exact ⟨rfl, h⟩
    · have hfile := hasFile_of_checkRemoval hchecked
      obtain ⟨place, _, hwalk, -, hremove⟩ := removeFile_eq_ok hfile
      obtain ⟨place', _, hwalk', -, hremove'⟩ := removeFile_eq_ok ((h.hasFile_eq hp).symm.trans hfile)
      rw [(walk_eq_ok h.directories).mp hwalk] at hwalk'
      obtain rfl := Except.ok.inj hwalk'
      rw [hremove, hremove']
      exact ⟨rfl, h.erase place⟩

/-- What `createDatabase` makes at a place apart is not seen. -/
theorem createDatabase_apart (h : Agrees apart t t') (volumes : VolumeSettings)
    (hp : ∀ place, t.walk (databasePath directory name) = .ok place → apart place) :
    Agrees apart (t.createDatabase directory name volumes).2 t' := by
  rw [FileTree.createDatabase]
  split
  · exact h
  · split
    · exact h
    next hnothing =>
      have hnothing := Bool.eq_false_iff.mpr hnothing
      split
      next t₁ hwrite =>
        obtain ⟨place, hwalk, rfl⟩ := (writeFile_eq_ok hnothing).mp hwrite
        refine h.put_apart (hp place hwalk) ?_ (fun heq => by cases heq)
        rw [find?_of_has_eq_false hnothing hwalk]
        exact fun heq => by cases heq
      next => exact h

/-- What `removeDatabase` takes from a place apart is not seen. -/
theorem removeDatabase_apart (h : Agrees apart t t') (isOpen : Bool)
    (hp : ∀ place, t.walk (databasePath directory name) = .ok place → apart place) :
    Agrees apart (t.removeDatabase directory name isOpen).2 t' := by
  rw [FileTree.removeDatabase]
  split
  · exact h
  next hchecked =>
    split
    · exact h
    · obtain ⟨place, contents, hwalk, hnode, hremove⟩ := removeFile_eq_ok (hasFile_of_checkRemoval hchecked)
      rw [hremove]
      refine h.erase_apart (hp place hwalk) ?_
      rw [hnode]
      exact fun heq => by cases heq

end Agrees

/-- Calling `createDatabase` leaves the directories alone. -/
theorem createDatabase_directories (directory : Path) (name : String) (volumes : VolumeSettings)
    (t : FileTree) : SameDirectories (t.createDatabase directory name volumes).2 t :=
  ((Agrees.refl (fun _ => True) t).createDatabase_apart volumes fun _ _ => trivial).directories

/-- Calling `removeDatabase` leaves the directories alone. -/
theorem removeDatabase_directories (directory : Path) (name : String) (isOpen : Bool)
    (t : FileTree) : SameDirectories (t.removeDatabase directory name isOpen).2 t :=
  ((Agrees.refl (fun _ => True) t).removeDatabase_apart isOpen fun _ _ => trivial).directories

end FileTree

/-! ### Operations of callers -/

namespace Database

variable (parse : String → Option Json) {w : World Memory} (directory : Path) (name : String)

/-- **What `create` answers** and what becomes of the files is as `createDatabase` says. -/
theorem create_files (hpanic : w.channel.panic = none) (volumes : VolumeSettings) :
    ∃ w', create (Memory.engine parse) directory name volumes w =
        ((w.files.createDatabase directory name volumes).1, w') ∧
      w'.files = (w.files.createDatabase directory name volumes).2 := by
  rw [create, World.check_of_no_panic hpanic, FileTree.createDatabase]
  have hchecked : (do Except.ok (); checkName name; volumes.check.mapError .settings) =
      FileTree.checkCreation name volumes := rfl
  dsimp only
  rw [hchecked]
  cases FileTree.checkCreation name volumes with
  | error failure => exact ⟨w, rfl, rfl⟩
  | ok u =>
    simp only [Engine.ask, Memory.engine, Memory.answer, Memory.createDatabase]
    by_cases hhas : w.files.has (databasePath directory name) = true
    · simp only [hhas, if_true]
      exact ⟨_, rfl, rfl⟩
    · simp only [hhas]
      cases w.files.writeFile (databasePath directory name) (Memory.marker volumes) with
      | ok t => exact ⟨_, rfl, rfl⟩
      | error fault => exact ⟨_, rfl, rfl⟩

/-- **What `openAt` answers** is as `checkOpening` says; the files stay as they are. -/
theorem openAt_files (hpanic : w.channel.panic = none) (settings : OpenSettings) :
    ∃ w', openAt (Memory.engine parse) directory name settings w =
        ((w.files.checkOpening directory name settings).map fun () =>
          ⟨some w.engine.nextHandle, databasePath directory name, settings⟩, w') ∧
      w'.files = w.files := by
  rw [openAt, World.check_of_no_panic hpanic]
  have hchecked : (do
      Except.ok (); checkName name; settings.check.mapError .settings
      checkFile w (databasePath directory name)) =
      w.files.checkOpening directory name settings := rfl
  rw [hchecked]
  split
  next hfailed => exact ⟨w, by rw [hfailed]; rfl, rfl⟩
  next hopening =>
    rw [hopening]
    have hhas := FileTree.has_of_hasFile (FileTree.hasFile_of_checkOpening hopening)
    simp only [Engine.ask, Memory.engine, Memory.answer, Memory.openDatabase, hhas, Bool.not_true,
      Bool.false_eq_true, if_false]
    exact ⟨_, rfl, rfl⟩

/-- What `openAt` opens is a file. -/
theorem hasFile_of_openAt (hpanic : w.channel.panic = none) {settings : OpenSettings} {d : Database}
    {w' : World Memory}
    (h : openAt (Memory.engine parse) directory name settings w = (.ok d, w')) :
    w.files.hasFile (databasePath directory name) = true := by
  obtain ⟨_, hopen, -⟩ := openAt_files parse directory name hpanic settings
  have hanswer := congrArg Prod.fst (hopen.symm.trans h)
  cases hopening : w.files.checkOpening directory name settings with
  | ok u => exact FileTree.hasFile_of_checkOpening hopening
  | error failure => rw [hopening] at hanswer; cases hanswer

/-- **What `remove` answers** and what becomes of the files is as `removeDatabase` says. -/
theorem remove_files (hpanic : w.channel.panic = none) :
    let isOpen := w.engine.databases.values.contains (databasePath directory name).key
    ∃ w', remove (Memory.engine parse) directory name w =
        ((w.files.removeDatabase directory name isOpen).1, w') ∧
      w'.files = (w.files.removeDatabase directory name isOpen).2 := by
  intro isOpen
  rw [remove, World.check_of_no_panic hpanic, FileTree.removeDatabase]
  have hchecked : (do
      Except.ok (); checkName name; checkFile w (databasePath directory name)) =
      w.files.checkRemoval directory name := rfl
  rw [hchecked]
  cases hremoval : w.files.checkRemoval directory name with
  | error failure => exact ⟨w, rfl, rfl⟩
  | ok u =>
    have hhas := FileTree.has_of_hasFile (FileTree.hasFile_of_checkRemoval hremoval)
    simp only [Engine.ask, Memory.engine, Memory.answer, Memory.removeDatabase, hhas, Bool.not_true,
      Bool.false_eq_true, if_false]
    by_cases hopen : isOpen = true
    · rw [if_pos hopen, if_pos hopen]
      exact ⟨_, rfl, rfl⟩
    · rw [if_neg hopen, if_neg hopen]
      cases w.files.removeFile (databasePath directory name) with
      | ok t => exact ⟨_, rfl, rfl⟩
      | error fault => exact ⟨_, rfl, rfl⟩

end Database

end TimeSeries
