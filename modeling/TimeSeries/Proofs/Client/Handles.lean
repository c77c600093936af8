import TimeSeries.Proofs.Client.Sessions

/-!
# Handles: what a workspace and its engine agree on

A caller's databases and sessions hold handles, and the engine has tables of what each
stands for. `Tied` says that the two agree: the handle of an open database stands for its
file, that of an open session for the open database it was begun on, and no two labels
share a handle (`Apart`). Everything a workspace does keeps them tied: the engine may give
out more handles (`Tied.extend`), something may be opened under a label
(`Tied.put_database`, `Tied.put_session`) and what is at a label may be let go of (`LetGo`,
`Tied.release_database`, `Tied.release_session`).
-/

namespace TimeSeries

/-- **Usable settings**: the buffer of a cursor holds a record of `maxRecordSize`, and its size is a
word. -/
structure OpenSettings.Usable (settings : OpenSettings) : Prop where
  /-- every record fits -/
  record : maxRecordSize ≤ settings.buffer
  /-- the size is a word -/
  word : settings.buffer < UInt64.size

theorem OpenSettings.usable_of_check {settings : OpenSettings} (hcheck : settings.check = .ok ())
    (hword : settings.buffer < UInt64.size) : settings.Usable := by
  refine ⟨Nat.le_of_not_lt fun hlt => ?_, hword⟩
  have hbuffer : checkBuffer settings.buffer = .error (.bufferTooSmall settings.buffer) := by
    rw [checkBuffer, if_pos hlt]
  rw [check, hbuffer] at hcheck
  cases hlog : settings.log with
  | none => rw [hlog] at hcheck; cases hcheck
  | some log =>
    rw [hlog] at hcheck
    dsimp only at hcheck
    cases hlogged : log.check <;> rw [hlogged] at hcheck <;> cases hcheck

/-! ### Engines with more handles -/

namespace Memory

/-- **Extension** of an engine `m` to `m'`: what was given out stands for the same, and no store is
lost. -/
structure Extends (m m' : Memory) : Prop where
  /-- handles are only added -/
  lastHandle_le : m.lastHandle ≤ m'.lastHandle
  /-- databases keep their files -/
  databases : ∀ h ≤ m.lastHandle, m'.databases.find? h = m.databases.find? h
  /-- sessions keep their databases -/
  sessions : ∀ h ≤ m.lastHandle, m'.sessions.find? h = m.sessions.find? h
  /-- files keep having stores -/
  stores : ∀ file, m.stores.has file = true → m'.stores.has file = true

variable {m : Memory}

theorem nextHandle_ne {h : Handle} (hle : h ≤ m.lastHandle) : m.nextHandle ≠ h :=
  Nat.ne_of_gt (Nat.lt_succ_of_le hle)

theorem has_put (stores : Table FileKey Store) (file k : FileKey) (s : Store)
    (h : stores.has k = true) : (stores.put file s).has k = true := by
  rw [Table.has, Table.find?_put]
  split
  · rfl
  · exact h

theorem extends_withStore (m : Memory) (file : FileKey) (s : Store) :
    m.Extends (m.withStore file s) :=
  ⟨Nat.le_refl _, fun _ _ => rfl, fun _ _ => rfl, fun k => has_put m.stores file k s⟩

theorem extends_opened (m : Memory) (file : FileKey) : m.Extends (m.opened file) := by
  refine ⟨Nat.le_succ _, fun h hle => ?_, fun _ _ => rfl, fun k hk => ?_⟩
  · exact Table.find?_put_ne _ _ (nextHandle_ne hle)
  · rw [opened]
    dsimp only
    split
    · exact hk
    · exact has_put m.stores file k .empty hk

theorem extends_begun (m : Memory) (database : Handle) : m.Extends (m.begun database) :=
  ⟨Nat.le_succ _, fun _ _ => rfl,
    fun _ hle => Table.find?_put_ne _ _ (nextHandle_ne hle), fun _ => id⟩

end Memory

/-! ### Labels with handles -/

section Labels

variable {α : Type} {handle? : α → Option Handle} {t t' : Table Label α} {label l : Label} {a b : α}
  {handle : Handle}

/-- **Apart**: no two labels share a handle. -/
structure Apart (handle? : α → Option Handle) (t : Table Label α) : Prop where
  /-- what has the same handle is at the same label -/
  label_eq : ∀ {l l' a b handle}, t.find? l = some a → t.find? l' = some b →
    handle? a = some handle → handle? b = some handle → l = l'

/-- **Letting go** of a label: nothing with a handle is left there, and nothing else
changes. -/
structure LetGo (handle? : α → Option Handle) (t t' : Table Label α) (label : Label) : Prop where
  /-- nothing else changes -/
  other : ∀ {l}, l ≠ label → t'.find? l = t.find? l
  /-- nothing with a handle is left -/
  left : ∀ {a}, t'.find? label = some a → handle? a = none

/-- What has a handle after a label was `LetGo` of is at another one. -/
theorem LetGo.find?_eq (h : LetGo handle? t t' label) (ha : t'.find? l = some a)
    (hhandle : handle? a = some handle) : l ≠ label ∧ t.find? l = some a := by
  have hl : l ≠ label := by
    rintro rfl
    rw [h.left ha] at hhandle
    cases hhandle
  exact ⟨hl, by rw [← h.other hl, ha]⟩

theorem letGo_erase (t : Table Label α) (label : Label) :
    LetGo handle? t (t.erase label) label := by
  constructor
  · intro l hl
    rw [Table.find?_erase, if_neg hl.symm]
  · intro a ha
    rw [Table.find?_erase, if_pos rfl] at ha
    cases ha

theorem letGo_put (t : Table Label α) (label : Label) (ha : handle? a = none) :
    LetGo handle? t (t.put label a) label := by
  constructor
  · intro l hl
    exact Table.find?_put_ne _ _ hl.symm
  · rintro b hb
    rw [Table.find?_put_self] at hb
    cases hb
    exact ha

theorem Apart.letGo (h : Apart handle? t) (hgone : LetGo handle? t t' label) :
    Apart handle? t' :=
  ⟨fun ha hb hhandle hhandle' => h.label_eq (hgone.find?_eq ha hhandle).2
    (hgone.find?_eq hb hhandle').2 hhandle hhandle'⟩

theorem Apart.put (h : Apart handle? t) (ha : handle? a = some handle)
    (hfresh : ∀ {l b}, t.find? l = some b → handle? b ≠ some handle) :
    Apart handle? (t.put label a) := by
  constructor
  intro l l' b b' handle' hb hb' hhandle hhandle'
  obtain ⟨rfl, rfl⟩ | hb := Table.find?_put_eq_some hb <;>
    obtain ⟨rfl, rfl⟩ | hb' := Table.find?_put_eq_some hb'
  · rfl
  · exact absurd (hhandle'.trans (hhandle.symm.trans ha)) (hfresh hb')
  · exact absurd (hhandle.trans (hhandle'.symm.trans ha)) (hfresh hb)
  · exact h.label_eq hb hb' hhandle hhandle'

end Labels

/-! ### Tied tables -/

/-- **Open database**: its handle stands for its file, which has a store. -/
structure Database.OpenIn (d : Database) (m : Memory) (handle : Handle) : Prop where
  /-- it has the handle -/
  handle_eq : d.handle = some handle
  /-- the handle was given out -/
  handle_le : handle ≤ m.lastHandle
  /-- the handle stands for the file -/
  file_eq : m.databases.find? handle = some d.file.key
  /-- the file has a store -/
  has_store : m.stores.has d.file.key = true

/-- **Open session**: its handle stands for the open database it was begun on. -/
structure Session.OpenIn (s : Child Session) (m : Memory) (databases : Table Label Database)
    (handle : Handle) : Prop where
  /-- it has the handle -/
  handle_eq : s.it.handle = some handle
  /-- the handle was given out -/
  handle_le : handle ≤ m.lastHandle
  /-- the handle stands for the database -/
  owner : ∃ d owner, databases.find? s.parent = some d ∧ d.handle = some owner ∧
    m.sessions.find? handle = some owner

section Released

variable {m : Memory} {databases databases' : Table Label Database} {handle : Handle}

/-- A database stays `OpenIn` the engine when another one is `released`. -/
theorem Database.OpenIn.released {d' : Database} (h : d'.OpenIn m handle) {d : Database}
    (hne : d.handle ≠ some handle) : d'.OpenIn (d.released m) handle := by
  rw [Database.released]
  split
  next other hother =>
    rw [Memory.closeDatabase]
    split
    · refine ⟨h.handle_eq, h.handle_le, ?_, h.has_store⟩
      dsimp only
      rw [Table.find?_erase, if_neg fun heq => hne (by rw [hother, heq]), h.file_eq]
    · exact h
  next => exact h

/-- A session stays `OpenIn` the engine when a database is `released` that it was not begun on. -/
theorem Session.OpenIn.released_database {s : Child Session}
    (h : Session.OpenIn s m databases handle) {d : Database}
    (hparent : databases'.find? s.parent = databases.find? s.parent)
    (hne : ∀ {d' owner}, databases.find? s.parent = some d' → d'.handle = some owner →
      d.handle ≠ some owner) :
    Session.OpenIn s (d.released m) databases' handle := by
  obtain ⟨d', owner, hd', howner, hfound⟩ := h.owner
  rw [← hparent] at hd'
  rw [Database.released]
  split
  next other hother =>
    rw [Memory.closeDatabase]
    split
    · refine ⟨h.handle_eq, h.handle_le, d', owner, hd', howner, Table.find?_keep _ hfound ?_⟩
      simpa using fun heq => hne (hparent ▸ hd') howner (by rw [hother, heq])
    · exact ⟨h.handle_eq, h.handle_le, d', owner, hd', howner, hfound⟩
  next => exact ⟨h.handle_eq, h.handle_le, d', owner, hd', howner, hfound⟩

/-- A session stays `OpenIn` the engine when another one is `released`. -/
theorem Session.OpenIn.released {s' : Child Session} (h : Session.OpenIn s' m databases handle)
    {s : Session} (hne : s.handle ≠ some handle) :
    Session.OpenIn s' (s.released m) databases handle := by
  rw [Session.released]
  split
  next other hother =>
    obtain ⟨d, owner, hd, howner, hfound⟩ := h.owner
    refine ⟨h.handle_eq, h.handle_le, d, owner, hd, howner, ?_⟩
    rw [Memory.destroySession, Table.find?_erase, if_neg fun heq => hne (by rw [hother, heq]),
      hfound]
  next => exact h

/-- A database stays `OpenIn` the engine when a session is `released`. -/
theorem Database.OpenIn.released_session {d : Database} (h : d.OpenIn m handle) (s : Session) :
    d.OpenIn (s.released m) handle := by
  rw [Session.released]
  split
  · exact ⟨h.handle_eq, h.handle_le, h.file_eq, h.has_store⟩
  · exact h

end Released

/-- **Tied**: a caller's tables agree with those of the engine `m`. -/
structure Tied (m : Memory) (databases : Table Label Database)
    (sessions : Table Label (Child Session)) : Prop where
  /-- databases with a handle are open -/
  databases_open : ∀ {label d handle}, databases.find? label = some d →
    d.handle = some handle → d.OpenIn m handle
  /-- databases have usable settings -/
  databases_usable : ∀ {label d}, databases.find? label = some d → d.settings.Usable
  /-- no two databases share a handle -/
  databases_apart : Apart Database.handle databases
  /-- sessions with a handle are open -/
  sessions_open : ∀ {label s handle}, sessions.find? label = some s →
    s.it.handle = some handle → Session.OpenIn s m databases handle
  /-- sessions have usable settings -/
  sessions_usable : ∀ {label s}, sessions.find? label = some s → s.it.settings.Usable
  /-- no two sessions share a handle -/
  sessions_apart : Apart (fun s => s.it.handle) sessions

namespace Tied

variable {m m' : Memory} {databases databases' : Table Label Database}
  {sessions sessions' : Table Label (Child Session)} {label : Label} {d : Database}
  {s : Child Session} {handle owner : Handle}

theorem empty (m : Memory) : Tied m {} {} := by
  refine ⟨?_, ?_, ⟨?_⟩, ?_, ?_, ⟨?_⟩⟩ <;> intros <;> contradiction

/-- **An engine that `Extends` another** is `Tied` to the same tables. -/
theorem extend (h : Tied m databases sessions) (hext : m.Extends m') :
    Tied m' databases sessions := by
  refine { h with databases_open := ?_, sessions_open := ?_ }
  · intro label d handle hd hhandle
    have hopen := h.databases_open hd hhandle
    exact ⟨hhandle, Nat.le_trans hopen.handle_le hext.lastHandle_le,
      by rw [hext.databases _ hopen.handle_le, hopen.file_eq], hext.stores _ hopen.has_store⟩
  · intro label s handle hs hhandle
    have hopen := h.sessions_open hs hhandle
    obtain ⟨d, owner, hd, howner, hsession⟩ := hopen.owner
    exact ⟨hhandle, Nat.le_trans hopen.handle_le hext.lastHandle_le, d, owner, hd, howner,
      by rw [hext.sessions _ hopen.handle_le, hsession]⟩

/-- **An open session `Serves`** the store of the file of its database. -/
theorem serves (h : Tied m databases sessions) (hs : sessions.find? label = some s)
    (hhandle : s.it.handle = some handle) :
    ∃ d st, databases.find? s.parent = some d ∧ m.Serves handle d.file.key st := by
  obtain ⟨d, owner, hd, howner, hsession⟩ := (h.sessions_open hs hhandle).owner
  have hopen := h.databases_open hd howner
  obtain ⟨st, hst⟩ := Option.isSome_iff_exists.mp hopen.has_store
  refine ⟨d, st, hd, ?_, hst⟩
  rw [Memory.sessionFile?, hsession, Option.bind_some, hopen.file_eq]

/-! ### Something is opened -/

/-- **A `put` of a database under a label** that no session was begun on. -/
theorem put_database (h : Tied m databases sessions) (hopen : d.OpenIn m handle)
    (husable : d.settings.Usable)
    (hfresh : ∀ {l d'}, databases.find? l = some d' → d'.handle ≠ some handle)
    (hfree : ∀ {l s}, sessions.find? l = some s → s.parent ≠ label) :
    Tied m (databases.put label d) sessions := by
  refine { h with
    databases_open := ?_, databases_usable := ?_, sessions_open := ?_
    databases_apart := h.databases_apart.put hopen.handle_eq hfresh }
  · intro l d' handle' hd' hhandle'
    obtain ⟨-, rfl⟩ | hd' := Table.find?_put_eq_some hd'
    · obtain rfl : handle = handle' := Option.some.inj (hopen.handle_eq.symm.trans hhandle')
      exact hopen
    · exact h.databases_open hd' hhandle'
  · intro l d' hd'
    obtain ⟨-, rfl⟩ | hd' := Table.find?_put_eq_some hd'
    · exact husable
    · exact h.databases_usable hd'
  · intro l s handle' hs hhandle'
    have hsession := h.sessions_open hs hhandle'
    obtain ⟨d', owner, hd', howner, hfound⟩ := hsession.owner
    refine ⟨hhandle', hsession.handle_le, d', owner, ?_, howner, hfound⟩
    rw [Table.find?_put_ne _ _ (hfree hs).symm, hd']

/-- **A `put` of a session under a label.** -/
theorem put_session (h : Tied m databases sessions) (hopen : Session.OpenIn s m databases handle)
    (husable : s.it.settings.Usable)
    (hfresh : ∀ {l s'}, sessions.find? l = some s' → s'.it.handle ≠ some handle) :
    Tied m databases (sessions.put label s) := by
  refine { h with
    sessions_open := ?_, sessions_usable := ?_
    sessions_apart := h.sessions_apart.put hopen.handle_eq hfresh }
  · intro l s' handle' hs' hhandle'
    obtain ⟨-, rfl⟩ | hs' := Table.find?_put_eq_some hs'
    · obtain rfl : handle = handle' := Option.some.inj (hopen.handle_eq.symm.trans hhandle')
      exact hopen
    · exact h.sessions_open hs' hhandle'
  · intro l s' hs'
    obtain ⟨-, rfl⟩ | hs' := Table.find?_put_eq_some hs'
    · exact husable
    · exact h.sessions_usable hs'

/-! ### Something is let go of -/

/-- **A database is `released`** that no session was begun on. -/
theorem release_database (h : Tied m databases sessions) (hd : databases.find? label = some d)
    (hfree : ∀ {l s}, sessions.find? l = some s → s.parent ≠ label)
    (hgone : LetGo Database.handle databases databases' label)
    (husable : ∀ {l d'}, databases'.find? l = some d' → d'.settings.Usable) :
    Tied (d.released m) databases' sessions := by
  -- what has a handle has another one than the database that is let go of
  have hkept : ∀ {l d' handle'}, l ≠ label → databases.find? l = some d' →
      d'.handle = some handle' → d.handle ≠ some handle' := fun hl hd' hhandle' hhandle =>
    hl (h.databases_apart.label_eq hd' hd hhandle' hhandle)
  refine ⟨?_, husable, h.databases_apart.letGo hgone, ?_, h.sessions_usable, h.sessions_apart⟩
  · intro l d' handle' hd' hhandle'
    obtain ⟨hl, hd'⟩ := hgone.find?_eq hd' hhandle'
    exact (h.databases_open hd' hhandle').released (hkept hl hd' hhandle')
  · intro l s handle' hs hhandle'
    exact (h.sessions_open hs hhandle').released_database (hgone.other (hfree hs))
      (hkept (hfree hs))

/-- **A session is `released`.** -/
theorem release_session (h : Tied m databases sessions) (hs : sessions.find? label = some s)
    (hgone : LetGo (fun s => s.it.handle) sessions sessions' label)
    (husable : ∀ {l s'}, sessions'.find? l = some s' → s'.it.settings.Usable) :
    Tied (s.it.released m) databases sessions' := by
  refine ⟨?_, h.databases_usable, h.databases_apart, ?_, husable, h.sessions_apart.letGo hgone⟩
  · intro l d' handle' hd' hhandle'
    exact (h.databases_open hd' hhandle').released_session s.it
  · intro l s' handle' hs' hhandle'
    obtain ⟨hl, hs'⟩ := hgone.find?_eq hs' hhandle'
    exact (h.sessions_open hs' hhandle').released fun hhandle =>
      hl (h.sessions_apart.label_eq hs' hs hhandle' hhandle)

/-- **A store is `removed`** whose file no database is open on. -/
theorem removed {file : FileKey} (h : Tied m databases sessions)
    (hclosed : file ∉ m.databases.values) : Tied (m.removed file) databases sessions := by
  refine { h with databases_open := ?_, sessions_open := ?_ }
  · intro l d handle hd hhandle
    have hopen := h.databases_open hd hhandle
    have hne : file ≠ d.file.key := by
      rintro rfl
      exact hclosed (Table.mem_values_of_find? hopen.file_eq)
    refine ⟨hhandle, hopen.handle_le, hopen.file_eq, ?_⟩
    rw [Memory.removed, Table.has, Table.find?_erase, if_neg hne]
    exact hopen.has_store
  · intro l s handle hs hhandle
    have hopen := h.sessions_open hs hhandle
    exact ⟨hhandle, hopen.handle_le, hopen.owner⟩

end Tied

end TimeSeries
