import TimeSeries.Proofs.Client.ReaderOutlooks
import TimeSeries.Proofs.Client.DatabaseFiles

/-!
# What a caller can tell of a workspace

A view of a workspace holds what its answers are made from, and nothing of how they are made:
what goes by which label and whether it is open, the files and the stores, and what readers have
in prospect. There are no handles, no feeds and no buffers in it. `View.run` says for every
command what is answered to it and what becomes of the view.
-/

namespace TimeSeries

/-! ### Views -/

/-- **A `Database` in a view.** -/
structure DatabaseView : Type where
  /-- whether it is open -/
  isOpen : Bool
  /-- its file -/
  file : Path

/-- **A `Session` in a view.** -/
structure SessionView : Type where
  /-- whether it is open -/
  isOpen : Bool

/-- **A `Reader` in a view.** -/
structure ReaderView : Type where
  /-- whether it is over names -/
  names : Bool
  /-- what it has in prospect -/
  outlook : Outlook

/-- **View** of a `Workspace`: what a caller can tell of it. -/
structure View : Type where
  /-- the files -/
  files : FileTree
  /-- the store of each file that was opened -/
  stores : Table FileKey Store := {}
  /-- databases that were not dropped -/
  databases : Table Label DatabaseView := {}
  /-- sessions that were not dropped -/
  sessions : Table Label (Child SessionView) := {}
  /-- readers that were not dropped -/
  readers : Table Label (Child ReaderView) := {}

namespace View

variable (parse : String → Option Json) (v : View)

/-- Whether a database has sessions that were not dropped. -/
def databaseInUse (label : Label) : Bool := v.sessions.holds fun s => s.parent == label

/-- Whether a session has readers that were not dropped. -/
def sessionInUse (label : Label) : Bool := v.readers.holds fun r => r.parent == label

/-- Whether a database is open on a file. -/
def isOpenOn (file : FileKey) : Bool := v.databases.holds fun d => d.isOpen && d.file.key == file

/-- **What a session works on** while it is open: a file, and its store. -/
def store? (s : Child SessionView) : Option (FileKey × Store) :=
  if s.it.isOpen then
    (v.databases.find? s.parent).bind fun d =>
      (v.stores.find? d.file.key).map fun st => (d.file.key, st)
  else none

/-- What `Command.serve` does in the session at a label, if it is open. -/
def inSession (label : Label) (c : Command) : Answer × View :=
  match v.sessions.find? label with
  | none => (.noHandle, v)
  | some s =>
    match v.store? s with
    | none => (c.refuse, v)
    | some (file, st) =>
      ((c.serve parse st).1, { v with stores := v.stores.put file (c.serve parse st).2 })

/-- What `Outlook.answer` does with the reader at a label. -/
def withReader (label : Label) (c : Command) : Answer × View :=
  match v.readers.find? label with
  | none => (.noHandle, v)
  | some r =>
    let (answer, outlook) := r.it.outlook.answer r.it.names c
    (answer, { v with readers := v.readers.put label { r with it := { r.it with outlook } } })

/-- Starts a query under a label, with what its answer has in `prospect`. -/
def openReader (label session : Label) (source : Source) : Answer × View :=
  match v.sessions.find? session with
  | none => (.noHandle, v)
  | some s =>
    match source.render with
    | .error failure => (.failed failure, v)
    | .ok text =>
      match v.store? s with
      | none => (.failed .closed, v)
      | some (file, st) =>
        let outlook := { stage := st.prospect (parse text) }
        (.ok, { v with
          stores := v.stores.put file (st.query (parse text)).2
          readers := (v.readers.erase label).put label ⟨session, ⟨source.isListing, outlook⟩⟩ })

/-- **Runs a `Command`** in a view. -/
def run : Command → Answer × View
  | .create directory name volumes =>
    let (result, files) := v.files.createDatabase directory name volumes
    (.ofExcept .created result, { v with files })
  | .openDatabase label directory name settings =>
    let file := databasePath directory name
    match v.files.checkOpening directory name settings with
    | .error failure => (.failed failure, v)
    | .ok () =>
      (.opened file settings, { v with
        stores := if v.stores.has file.key then v.stores else v.stores.put file.key .empty
        databases := (v.databases.erase label).put label ⟨true, file⟩ })
  | .remove directory name =>
    let key := (databasePath directory name).key
    match v.files.removeDatabase directory name (v.isOpenOn key) with
    | (.error failure, files) => (.failed failure, { v with files })
    | (.ok (), files) => (.ok, { v with files, stores := v.stores.erase key })
  | .openSession label database =>
    match v.databases.find? database with
    | none => (.noHandle, v)
    | some d =>
      if d.isOpen then
        (.ok, { v with sessions := (v.sessions.erase label).put label ⟨database, ⟨true⟩⟩ })
      else (.failed .closed, v)
  | .closeDatabase label =>
    match v.databases.find? label with
    | none => (.noHandle, v)
    | some d =>
      if v.databaseInUse label then (.borrowed, v)
      else (.ok, { v with databases := v.databases.put label { d with isOpen := false } })
  | .dropDatabase label =>
    if !v.databases.has label then (.noHandle, v)
    else if v.databaseInUse label then (.borrowed, v)
    else (.ok, { v with databases := v.databases.erase label })
  | .closeSession label =>
    match v.sessions.find? label with
    | none => (.noHandle, v)
    | some s =>
      if v.sessionInUse label then (.borrowed, v)
      else (.ok, { v with sessions := v.sessions.put label { s with it := ⟨false⟩ } })
  | .dropSession label =>
    if !v.sessions.has label then (.noHandle, v)
    else if v.sessionInUse label then (.borrowed, v)
    else (.ok, { v with sessions := v.sessions.erase label })
  | .openReader label session source => v.openReader parse label session source
  | .dropReader label =>
    if v.readers.has label then (.ok, { v with readers := v.readers.erase label })
    else (.noHandle, v)
  | .dropAll => (.ok, { v with databases := {}, sessions := {}, readers := {} })
  | .write label series timestamp value =>
    v.inSession parse label (.write label series timestamp value)
  | .writeAt label series time value => v.inSession parse label (.writeAt label series time value)
  | .writeAll label points => v.inSession parse label (.writeAll label points)
  | .rows label source => v.inSession parse label (.rows label source)
  | .next label => v.withReader label (.next label)
  | .item label => v.withReader label (.item label)
  | .done label => v.withReader label (.done label)
  | .canProceed label => v.withReader label (.canProceed label)
  | .closeReader label => v.withReader label (.closeReader label)
  | .isClosed label => v.withReader label (.isClosed label)

theorem run_of_session? {parse : String → Option Json} {v : View} {c : Command} {label : Label}
    (hc : c.session? = some label) : v.run parse c = v.inSession parse label c := by
  cases c <;> cases hc <;> rfl

theorem run_of_reader? {parse : String → Option Json} {v : View} {c : Command} {label : Label}
    (hc : c.reader? = some label) : v.run parse c = v.withReader label c := by
  cases c <;> cases hc <;> rfl

/-! ### What a command leaves alone -/

section Frame

variable {parse : String → Option Json} {v : View} {c : Command} {label l : Label}

theorem files_inSession : (v.inSession parse label c).2.files = v.files := by
  rw [inSession]
  split
  · rfl
  · split <;> rfl

theorem readers_inSession : (v.inSession parse label c).2.readers = v.readers := by
  rw [inSession]
  split
  · rfl
  · split <;> rfl

theorem files_withReader : (v.withReader label c).2.files = v.files := by
  rw [withReader]
  split <;> rfl

theorem find?_readers_withReader (hne : l ≠ label) :
    (v.withReader l c).2.readers.find? label = v.readers.find? label := by
  rw [withReader]
  split
  · rfl
  · exact Table.find?_put_ne _ _ hne

/-- **Readers at other labels** than `readerLabel?` are left alone. -/
theorem readers_run (hall : c ≠ .dropAll) (hlabel : c.readerLabel? ≠ some label) :
    (v.run parse c).2.readers.find? label = v.readers.find? label := by
  cases c with
  | openReader l session source =>
    have hne : l ≠ label := fun heq => hlabel (congrArg some heq)
    simp only [run, openReader]
    repeat' split
    all_goals first
      | rfl
      | (dsimp only; rw [Table.find?_put_ne _ _ hne, Table.find?_erase, if_neg hne])
  | dropReader l =>
    have hne : l ≠ label := fun heq => hlabel (congrArg some heq)
    rw [run]
    split
    · dsimp only
      rw [Table.find?_erase, if_neg hne]
    · rfl
  | next l | item l | done l | canProceed l | closeReader l | isClosed l =>
    exact find?_readers_withReader fun heq => hlabel (congrArg some heq)
  | write l | writeAt l | writeAll l | rows l => rw [run, readers_inSession]
  | dropAll => exact absurd rfl hall
  | _ =>
    simp only [run]
    repeat' split
    all_goals rfl

/-- **Directories** are neither made nor removed by `run`. -/
theorem directories_run : FileTree.SameDirectories (v.run parse c).2.files v.files := by
  have hsame : (v.run parse c).2.files = v.files →
      FileTree.SameDirectories (v.run parse c).2.files v.files := fun heq => by
    rw [heq]
    exact fun _ => Iff.rfl
  cases c with
  | create directory name volumes =>
    exact FileTree.createDatabase_directories directory name volumes v.files
  | remove directory name =>
    have hremoved := FileTree.removeDatabase_directories directory name
      (v.isOpenOn (databasePath directory name).key) v.files
    rw [run]
    split <;> next heq => rw [heq] at hremoved; exact hremoved
  | next l | item l | done l | canProceed l | closeReader l | isClosed l =>
    exact hsame files_withReader
  | write l | writeAt l | writeAll l | rows l => exact hsame files_inSession
  | _ =>
    refine hsame ?_
    simp only [run, openReader]
    repeat' split
    all_goals rfl

end Frame

end View

/-! ### Runs of views -/

/-- **The names fit in memory** in a view: every store is `Countable`. -/
def View.Fits (v : View) : Prop := ∀ file st, v.stores.find? file = some st → st.Countable

/-- **What a caller can do**, as it is seen in a view; see `Workspace.Allows`. -/
def View.Allows (v : View) : Command → Prop
  | .openDatabase label _ _ settings =>
    v.databaseInUse label = false ∧ settings.buffer < UInt64.size
  | .openSession label _ => v.sessionInUse label = false
  | _ => True

section Views

variable (parse : String → Option Json)

/-- **What a run can go on by**, as it is seen in a view; see `Workspace.Permits`. -/
def View.Permits (v : View) : List Command → Prop
  | [] => True
  | c :: cs => v.Allows c ∧ (v.run parse c).2.Fits ∧ (v.run parse c).2.Permits cs

instance (v : View) : Decidable v.Fits :=
  decidable_of_iff (∀ file ∈ v.stores.keys, ∀ st ∈ v.stores.find? file, st.names.length < UInt64.size)
    ⟨fun h file st hst => h file (Table.mem_keys_of_find? hst) st hst, fun h file _ st hst =>
      h file st hst⟩

instance (v : View) : (c : Command) → Decidable (v.Allows c)
  | .openDatabase .. => inferInstanceAs (Decidable (_ ∧ _))
  | .openSession .. => inferInstanceAs (Decidable (_ = _))
  | .create .. | .remove .. | .closeDatabase _ | .dropDatabase _ | .closeSession _ | .dropSession _
  | .write .. | .writeAt .. | .writeAll .. | .rows .. | .openReader .. | .next _ | .item _ | .done _
  | .canProceed _ | .closeReader _ | .isClosed _ | .dropReader _ | .dropAll => .isTrue trivial

instance View.decidablePermits : (v : View) → (cs : List Command) → Decidable (v.Permits parse cs)
  | _, [] => .isTrue trivial
  | v, c :: cs =>
    have := decidablePermits (v.run parse c).2 cs
    inferInstanceAs (Decidable (_ ∧ _ ∧ _))

/-- **Transcript** of a run of a view. -/
def View.transcript {α : Type} (command : α → Command) (v : View) : List α → List (α × Answer)
  | [] => []
  | step :: steps =>
    (step, (v.run parse (command step)).1) ::
      (v.run parse (command step)).2.transcript command steps

end Views

end TimeSeries
