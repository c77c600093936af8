import TimeSeries.Proofs.Client.Runs
import TimeSeries.Proofs.Table

/-!
# What a command does to labels

A command edits a table of a workspace at one label at most: at that which it names as what it
opens, lets go of or reads from (`Command.databaseLabel?`, `Command.sessionLabel?`,
`Command.readerLabel?`), and not even there while something depends on what is there
(`edited_run`). So what is at all other labels is left alone (`databases_run`, `sessions_run`,
`readers_run`). Letting go of everything is the one command that is not like this: it removes all
entries (`dropAll_tables`).
-/

namespace TimeSeries

/-! ### The labels of a command -/

namespace Command

/-- The label at which a `Command` opens or lets go of a database. -/
def databaseLabel? : Command → Option Label
  | openDatabase label .. | closeDatabase label | dropDatabase label => some label
  | _ => none

/-- The label at which a `Command` begins or lets go of a session. -/
def sessionLabel? : Command → Option Label
  | openSession label _ | closeSession label | dropSession label => some label
  | _ => none

/-- The label at which a `Command` opens a reader or does something with it. -/
def readerLabel? : Command → Option Label
  | openReader label .. | next label | item label | done label | canProceed label
  | closeReader label | isClosed label | dropReader label => some label
  | _ => none

end Command

namespace Workspace

variable {σ : Type} (E : Engine σ) {ws : Workspace σ} {c : Command} {label l : Label}

/-! ### Letting go -/

theorem dropDatabase_eq : ws.dropDatabase E label =
    { ws with
      world := (ws.dropDatabase E label).world
      databases := ws.databases.erase label } := by
  rw [dropDatabase]
  split
  · rfl
  next hnone => rw [Table.erase_of_find?_eq_none hnone]

theorem dropSession_eq : ws.dropSession E label =
    { ws with
      world := (ws.dropSession E label).world
      sessions := ws.sessions.erase label } := by
  rw [dropSession]
  split
  · rfl
  next hnone => rw [Table.erase_of_find?_eq_none hnone]

theorem dropReader_eq : ws.dropReader E label =
    { ws with
      world := (ws.dropReader E label).world
      readers := ws.readers.erase label } := by
  rw [dropReader]
  split
  · rfl
  next hnone => rw [Table.erase_of_find?_eq_none hnone]

theorem databases_dropDatabase :
    (ws.dropDatabase E label).databases = ws.databases.erase label := by rw [dropDatabase_eq]

@[simp] theorem sessions_dropDatabase : (ws.dropDatabase E label).sessions = ws.sessions := by
  rw [dropDatabase_eq]

@[simp] theorem readers_dropDatabase : (ws.dropDatabase E label).readers = ws.readers := by
  rw [dropDatabase_eq]

@[simp] theorem databases_dropSession : (ws.dropSession E label).databases = ws.databases := by
  rw [dropSession_eq]

theorem sessions_dropSession : (ws.dropSession E label).sessions = ws.sessions.erase label := by
  rw [dropSession_eq]

@[simp] theorem readers_dropSession : (ws.dropSession E label).readers = ws.readers := by
  rw [dropSession_eq]

@[simp] theorem databases_dropReader : (ws.dropReader E label).databases = ws.databases := by
  rw [dropReader_eq]

@[simp] theorem sessions_dropReader : (ws.dropReader E label).sessions = ws.sessions := by
  rw [dropReader_eq]

theorem readers_dropReader : (ws.dropReader E label).readers = ws.readers.erase label := by
  rw [dropReader_eq]

/-! ### Commands that leave tables alone -/

section WithSession

variable {f : Session → World σ → Answer × World σ}

@[simp] theorem databases_withSession : (ws.withSession label f).2.databases = ws.databases := by
  rw [withSession]
  split <;> rfl

@[simp] theorem sessions_withSession : (ws.withSession label f).2.sessions = ws.sessions := by
  rw [withSession]
  split <;> rfl

@[simp] theorem readers_withSession : (ws.withSession label f).2.readers = ws.readers := by
  rw [withSession]
  split <;> rfl

end WithSession

section WithReader

variable {f : Reader → World σ → Answer × Reader × World σ}

@[simp] theorem databases_withReader : (ws.withReader label f).2.databases = ws.databases := by
  rw [withReader]
  split <;> rfl

@[simp] theorem sessions_withReader : (ws.withReader label f).2.sessions = ws.sessions := by
  rw [withReader]
  split <;> rfl

theorem readers_withReader :
    Table.Edit label ws.readers (ws.withReader label f).2.readers := by
  rw [withReader]
  split
  · exact .refl
  · exact .put _ .refl

end WithReader

section OpenReader

variable {session : Label} {source : Source}

theorem databases_openReader :
    (ws.openReader E label session source).2.databases = ws.databases := by
  rw [openReader]
  split
  · rfl
  · split
    · rfl
    · split <;> simp

theorem sessions_openReader :
    (ws.openReader E label session source).2.sessions = ws.sessions := by
  rw [openReader]
  split
  · rfl
  · split
    · rfl
    · split <;> simp

theorem readers_openReader :
    Table.Edit label ws.readers (ws.openReader E label session source).2.readers := by
  rw [openReader]
  split
  · exact .refl
  · split
    · exact .refl
    · split
      · exact .refl
      · dsimp only
        rw [readers_dropReader]
        exact .put _ (.erase .refl)

end OpenReader

/-! ### All commands -/

section Run

variable {E : Engine Memory} {ws : Workspace Memory} {c : Command} {label l : Label}

/-- **What a command edits**: one of the tables at most, at the label that it names. If `Allows`
admits the command, nothing depends on the database or the session there. -/
inductive Edited (c : Command) (ws ws' : Workspace Memory) : Prop where
  /-- no table is edited -/
  | nothing : ws'.databases = ws.databases → ws'.sessions = ws.sessions →
    ws'.readers = ws.readers → Edited c ws ws'
  /-- the databases are -/
  | databases {label : Label} : c.databaseLabel? = some label →
    (ws.Allows (.command c) → ws.databaseInUse label = false) →
    Table.Edit label ws.databases ws'.databases → ws'.sessions = ws.sessions →
    ws'.readers = ws.readers → Edited c ws ws'
  /-- the sessions are -/
  | sessions {label : Label} : c.sessionLabel? = some label →
    (ws.Allows (.command c) → ws.sessionInUse label = false) →
    ws'.databases = ws.databases → Table.Edit label ws.sessions ws'.sessions →
    ws'.readers = ws.readers → Edited c ws ws'
  /-- the readers are -/
  | readers {label : Label} : c.readerLabel? = some label → ws'.databases = ws.databases →
    ws'.sessions = ws.sessions → Table.Edit label ws.readers ws'.readers → Edited c ws ws'

/-- **To `run` a command edits** one table at most, but for `dropAll`. -/
theorem edited_run (hall : c ≠ .dropAll) : Edited c ws (ws.run E c).2 := by
  cases c with
  | create directory name volumes => exact .nothing rfl rfl rfl
  | remove directory name => exact .nothing rfl rfl rfl
  | openDatabase label directory name settings =>
    rw [run]
    split
    · exact .nothing rfl rfl rfl
    · refine .databases rfl And.left ?_ (sessions_dropDatabase E) (readers_dropDatabase E)
      dsimp only
      rw [databases_dropDatabase]
      exact .put _ (.erase .refl)
  | closeDatabase label =>
    rw [run]
    split
    · exact .nothing rfl rfl rfl
    · split
      · exact .nothing rfl rfl rfl
      next hfree =>
        exact .databases rfl (fun _ => Bool.eq_false_iff.mpr hfree) (.put _ .refl) rfl rfl
  | dropDatabase label =>
    rw [run]
    split
    · exact .nothing rfl rfl rfl
    · split
      · exact .nothing rfl rfl rfl
      next hfree =>
        refine .databases rfl (fun _ => Bool.eq_false_iff.mpr hfree) ?_ (sessions_dropDatabase E)
          (readers_dropDatabase E)
        rw [databases_dropDatabase]
        exact .erase .refl
  | openSession label database =>
    rw [run, openSession]
    split
    · exact .nothing rfl rfl rfl
    · split
      · exact .nothing rfl rfl rfl
      · refine .sessions rfl id (databases_dropSession E) ?_ (readers_dropSession E)
        dsimp only
        rw [sessions_dropSession]
        exact .put _ (.erase .refl)
  | closeSession label =>
    rw [run]
    split
    · exact .nothing rfl rfl rfl
    · split
      · exact .nothing rfl rfl rfl
      next hfree =>
        exact .sessions rfl (fun _ => Bool.eq_false_iff.mpr hfree) rfl (.put _ .refl) rfl
  | dropSession label =>
    rw [run]
    split
    · exact .nothing rfl rfl rfl
    · split
      · exact .nothing rfl rfl rfl
      next hfree =>
        refine .sessions rfl (fun _ => Bool.eq_false_iff.mpr hfree) (databases_dropSession E) ?_
          (readers_dropSession E)
        rw [sessions_dropSession]
        exact .erase .refl
  | write label | writeAt label | writeAll label | rows label =>
    exact .nothing databases_withSession sessions_withSession readers_withSession
  | openReader label session source =>
    exact .readers rfl (databases_openReader E) (sessions_openReader E) (readers_openReader E)
  | next label | item label | done label | canProceed label | closeReader label
  | isClosed label =>
    exact .readers rfl databases_withReader sessions_withReader readers_withReader
  | dropReader label =>
    rw [run]
    split
    · refine .readers rfl (databases_dropReader E) (sessions_dropReader E) ?_
      rw [readers_dropReader]
      exact .erase .refl
    · exact .nothing rfl rfl rfl
  | dropAll => exact absurd rfl hall

/-- **Edits of `databases`** are at `databaseLabel?` at most, and only if it is not in use. -/
theorem databases_edit (hall : c ≠ .dropAll) (hallows : ws.Allows (.command c)) :
    (ws.run E c).2.databases = ws.databases ∨
      ∃ label, c.databaseLabel? = some label ∧ ws.databaseInUse label = false ∧
        Table.Edit label ws.databases (ws.run E c).2.databases := by
  have hedited : Edited c ws (ws.run E c).2 := edited_run hall
  cases hedited with
  | databases hlabel hfree hedit _ _ => exact .inr ⟨_, hlabel, hfree hallows, hedit⟩
  | nothing hsame | sessions _ _ hsame | readers _ hsame => exact .inl hsame

/-- **Edits of `sessions`** are at `sessionLabel?` at most, and only if it is not in use. -/
theorem sessions_edit (hall : c ≠ .dropAll) (hallows : ws.Allows (.command c)) :
    (ws.run E c).2.sessions = ws.sessions ∨
      ∃ label, c.sessionLabel? = some label ∧ ws.sessionInUse label = false ∧
        Table.Edit label ws.sessions (ws.run E c).2.sessions := by
  have hedited : Edited c ws (ws.run E c).2 := edited_run hall
  cases hedited with
  | sessions hlabel hfree _ hedit _ => exact .inr ⟨_, hlabel, hfree hallows, hedit⟩
  | nothing _ hsame | databases _ _ _ hsame | readers _ _ hsame => exact .inl hsame

/-- **Edits of `readers`** are at `readerLabel?` at most. -/
theorem readers_edit (hall : c ≠ .dropAll) :
    (ws.run E c).2.readers = ws.readers ∨
      ∃ label, c.readerLabel? = some label ∧
        Table.Edit label ws.readers (ws.run E c).2.readers := by
  have hedited : Edited c ws (ws.run E c).2 := edited_run hall
  cases hedited with
  | readers hlabel _ _ hedit => exact .inr ⟨_, hlabel, hedit⟩
  | nothing _ _ hsame | databases _ _ _ _ hsame | sessions _ _ _ _ hsame => exact .inl hsame

/-- **Databases at other labels** than `databaseLabel?` are left alone, and so are those in use. -/
theorem databases_run (hall : c ≠ .dropAll) (hallows : ws.Allows (.command c))
    (hl : c.databaseLabel? ≠ some l ∨ ws.databaseInUse l = true) :
    (ws.run E c).2.databases.find? l = ws.databases.find? l := by
  obtain hsame | ⟨label, hlabel, hfree, hedit⟩ := databases_edit (E := E) hall hallows
  · rw [hsame]
  · refine hedit.find?_eq ?_
    rintro rfl
    exact hl.elim (fun hl => hl hlabel) fun hused => by rw [hfree] at hused; cases hused

/-- **Sessions at other labels** than `sessionLabel?` are left alone, and so are those in use. -/
theorem sessions_run (hall : c ≠ .dropAll) (hallows : ws.Allows (.command c))
    (hl : c.sessionLabel? ≠ some l ∨ ws.sessionInUse l = true) :
    (ws.run E c).2.sessions.find? l = ws.sessions.find? l := by
  obtain hsame | ⟨label, hlabel, hfree, hedit⟩ := sessions_edit (E := E) hall hallows
  · rw [hsame]
  · refine hedit.find?_eq ?_
    rintro rfl
    exact hl.elim (fun hl => hl hlabel) fun hused => by rw [hfree] at hused; cases hused

/-- **Readers at other labels** than `readerLabel?` are left alone. -/
theorem readers_run (hall : c ≠ .dropAll) (hl : c.readerLabel? ≠ some l) :
    (ws.run E c).2.readers.find? l = ws.readers.find? l := by
  obtain hsame | ⟨label, hlabel, hedit⟩ := readers_edit (E := E) hall
  · rw [hsame]
  · refine hedit.find?_eq ?_
    rintro rfl
    exact hl hlabel

end Run

/-! ### Letting go of everything -/

section DropAll

theorem foldl_dropReader (ws : Workspace σ) (labels : List Label) :
    (labels.foldl (dropReader E) ws).databases = ws.databases ∧
      (labels.foldl (dropReader E) ws).sessions = ws.sessions ∧
      (labels.foldl (dropReader E) ws).readers = labels.foldl Table.erase ws.readers := by
  induction labels generalizing ws with
  | nil => exact ⟨rfl, rfl, rfl⟩
  | cons label labels ih =>
    obtain ⟨hdatabases, hsessions, hreaders⟩ := ih (ws.dropReader E label)
    rw [databases_dropReader] at hdatabases
    rw [sessions_dropReader] at hsessions
    rw [readers_dropReader] at hreaders
    exact ⟨hdatabases, hsessions, hreaders⟩

theorem foldl_dropSession (ws : Workspace σ) (labels : List Label) :
    (labels.foldl (dropSession E) ws).databases = ws.databases ∧
      (labels.foldl (dropSession E) ws).sessions = labels.foldl Table.erase ws.sessions ∧
      (labels.foldl (dropSession E) ws).readers = ws.readers := by
  induction labels generalizing ws with
  | nil => exact ⟨rfl, rfl, rfl⟩
  | cons label labels ih =>
    obtain ⟨hdatabases, hsessions, hreaders⟩ := ih (ws.dropSession E label)
    rw [databases_dropSession] at hdatabases
    rw [sessions_dropSession] at hsessions
    rw [readers_dropSession] at hreaders
    exact ⟨hdatabases, hsessions, hreaders⟩

theorem foldl_dropDatabase (ws : Workspace σ) (labels : List Label) :
    (labels.foldl (dropDatabase E) ws).databases = labels.foldl Table.erase ws.databases ∧
      (labels.foldl (dropDatabase E) ws).sessions = ws.sessions ∧
      (labels.foldl (dropDatabase E) ws).readers = ws.readers := by
  induction labels generalizing ws with
  | nil => exact ⟨rfl, rfl, rfl⟩
  | cons label labels ih =>
    obtain ⟨hdatabases, hsessions, hreaders⟩ := ih (ws.dropDatabase E label)
    rw [databases_dropDatabase] at hdatabases
    rw [sessions_dropDatabase] at hsessions
    rw [readers_dropDatabase] at hreaders
    exact ⟨hdatabases, hsessions, hreaders⟩

/-- The command `dropAll` removes the entries of all tables. -/
theorem dropAll_tables (ws : Workspace σ) :
    (ws.dropAll E).databases = (sortLabels ws.databases.keys).foldl Table.erase ws.databases ∧
      (ws.dropAll E).sessions = (sortLabels ws.sessions.keys).foldl Table.erase ws.sessions ∧
      (ws.dropAll E).readers = (sortLabels ws.readers.keys).foldl Table.erase ws.readers := by
  obtain ⟨hdatabases, hsessions, hreaders⟩ := foldl_dropReader E ws (sortLabels ws.readers.keys)
  rw [dropAll]
  generalize (sortLabels ws.readers.keys).foldl (dropReader E) ws = v at hdatabases hsessions hreaders
  obtain ⟨hdatabases', hsessions', hreaders'⟩ :=
    foldl_dropSession E v (sortLabels v.sessions.keys)
  generalize (sortLabels v.sessions.keys).foldl (dropSession E) v = v'
    at hdatabases' hsessions' hreaders' ⊢
  obtain ⟨hdatabases'', hsessions'', hreaders''⟩ :=
    foldl_dropDatabase E v' (sortLabels v'.databases.keys)
  rw [hdatabases'', hsessions'', hreaders'', hdatabases', hsessions', hreaders', hdatabases,
    hsessions, hreaders]
  exact ⟨rfl, rfl, rfl⟩

theorem find?_foldl_sortLabels {α : Type} (t : Table Label α) (l : Label) :
    ((sortLabels t.keys).foldl Table.erase t).find? l = none := by
  refine Table.find?_foldl_erase t _ ?_
  cases hfind : t.find? l with
  | none => exact .inr rfl
  | some a => exact .inl (List.mem_mergeSort.mpr (Table.mem_keys_of_find? hfind))

end DropAll

end Workspace

end TimeSeries
