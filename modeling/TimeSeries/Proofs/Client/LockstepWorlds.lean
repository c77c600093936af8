import TimeSeries.Proofs.Client.WriteAttempts
import TimeSeries.Proofs.Client.LockstepStores

/-!
# Worlds in lockstep

Two worlds stand side by side if their stores do, file by file, and nothing else tells them apart
but the feeds of cursors, notices and the record of calls (`World.Beside`). A call that comes from
keeping house is answered the same in both, and so is a query but for its feed; the id of a series
may be another, but a point that is written under it is taken in both or in neither. So every
operation that does not read comes to the same in both and leaves them side by side (`World.Agree`),
as long as the names of the first fit in memory.
-/

namespace TimeSeries

/-! ### Stores -/

/-- **All stores side by side** (`Store.Beside`), file by file, each with a stray of its own at
most. -/
def Store.AllBeside (strays : FileKey → Option String) (t t' : Table FileKey Store) : Prop :=
  ∀ file, Option.Rel (Store.Beside (strays file)) (t.find? file) (t'.find? file)

namespace Store.AllBeside

variable {strays : FileKey → Option String} {t t' : Table FileKey Store} {file : FileKey}
  {s s' : Store}

/-- A file has no store on either side, or one on each. -/
theorem find?_cases (h : AllBeside strays t t') (file : FileKey) :
    t.find? file = none ∧ t'.find? file = none ∨
      ∃ s s', t.find? file = some s ∧ t'.find? file = some s' ∧
        Store.Beside (strays file) s s' := by
  have hfile := h file
  generalize t.find? file = found, t'.find? file = found' at hfile ⊢
  cases hfile with
  | none => exact .inl ⟨rfl, rfl⟩
  | some hs => exact .inr ⟨_, _, rfl, rfl, hs⟩

theorem has_eq (h : AllBeside strays t t') (file : FileKey) : t'.has file = t.has file := by
  rw [Table.has, Table.has]
  obtain ⟨hnone, hnone'⟩ | ⟨s, s', hs, hs', -⟩ := h.find?_cases file
  · rw [hnone, hnone']
  · rw [hs, hs']
    rfl

theorem put (h : AllBeside strays t t') (hs : Store.Beside (strays file) s s') :
    AllBeside strays (t.put file s) (t'.put file s') := by
  intro other
  rw [Table.find?_put, Table.find?_put]
  split
  next heq =>
    subst heq
    exact .some hs
  · exact h other

theorem erase (h : AllBeside strays t t') (file : FileKey) :
    AllBeside strays (t.erase file) (t'.erase file) := by
  intro other
  rw [Table.find?_erase, Table.find?_erase]
  split
  · exact .none
  · exact h other

end Store.AllBeside

/-! ### Worlds -/

/-- **Worlds side by side**: their stores are (`Store.AllBeside`), and there is no other difference
than in `cursors`, notices and the record of `calls`. -/
structure World.Beside (strays : FileKey → Option String) (w w' : World Memory) : Prop where
  /-- the engines differ in stores and feeds only -/
  engine : ∃ stores cursors, w'.engine = { w.engine with stores, cursors }
  /-- the stores stand side by side -/
  stores : Store.AllBeside strays w.engine.stores w'.engine.stores
  /-- the files are the same -/
  files : w'.files = w.files
  /-- there was the same panic, or none -/
  panic : w'.channel.panic = w.channel.panic
  /-- attempts take the same time -/
  delays : w'.delays = w.delays

/-- **Agreement** of two results: the same came of both, and the worlds are `Beside` one another. -/
def World.Agree (strays : FileKey → Option String) {α : Type} (r r' : α × World Memory) : Prop :=
  r'.1 = r.1 ∧ World.Beside strays r.2 r'.2

theorem World.Agree.exists_eq {strays : FileKey → Option String} {α : Type}
    {r r' : α × World Memory} (h : World.Agree strays r r') :
    ∃ w', r' = (r.1, w') ∧ World.Beside strays r.2 w' := ⟨r'.2, Prod.ext h.1 rfl, h.2⟩

/-- **Housekeeping**: the calls by which databases and sessions come and go, from `createDatabase`
to `destroySession`. -/
def Call.KeepsHouse : Call → Prop
  | .createDatabase .. | .removeDatabase _ | .openDatabase .. | .closeDatabase _
  | .createSession _ | .destroySession _ => True
  | _ => False

theorem no_panic_of_checkHandle {σ : Type} {w : World σ} {handle? : Option Handle}
    {handle : Handle} (h : checkHandle w handle? = .ok handle) : w.channel.panic = none := by
  cases hpanic : w.channel.panic with
  | none => rfl
  | some message =>
    simp only [checkHandle, World.check, hpanic, reduceCtorEq] at h

/-- Names that fit in memory (`Memory.Fits`) fitted before, if no call was `removeDatabase`. -/
theorem Engine.Leads.fits {parse : String → Option Json} {kind : Call → Prop} {w w' : World Memory}
    (h : (Memory.engine parse).Leads kind w w')
    (hkind : ∀ call, kind call → ∀ path, call ≠ .removeDatabase path) (hfits : w'.engine.Fits) :
    w.engine.Fits := by
  intro file st hst
  obtain ⟨st', hst', hnames⟩ := h.keeps
    (P := fun v => ∃ st', v.engine.stores.find? file = some st' ∧ st.names <+: st'.names)
    (fun call v hcall ⟨st', hst', hnames⟩ => by
      obtain ⟨st'', hst'', hmore⟩ := Memory.names_ask parse hst'
        (fun path hremove => absurd hremove (hkind call hcall path))
      exact ⟨st'', hst'', hnames.trans hmore⟩)
    ⟨st, hst, List.prefix_refl _⟩
  exact Nat.lt_of_le_of_lt hnames.length_le (hfits file st' hst')

/-- If the names `Fits` in memory after a series was `lookedUp` and its point tried by `attempt`,
they did before. -/
theorem Session.countable_of_attempt {parse : String → Option Json} {retry : RetryPolicy}
    {session : Handle} {p : Point} {fuel attempts elapsed : Nat} {delays : List Nat}
    {w : World Memory} {series name : String} {file : FileKey} {st : Store}
    (hfits : (attempt (Memory.engine parse) retry session p fuel attempts elapsed delays
      (w.lookedUp session series name file st)).2.engine.Fits) : (st.enlist name).2.Countable := by
  have hleads := leads_attempt (Memory.engine parse) (w.lookedUp session series name file st) retry
    session p fuel attempts elapsed delays
  exact hleads.fits (fun call hcall path => by rintro rfl; exact hcall) hfits file _
    (Table.find?_put_self _ _ _)

namespace World.Beside

variable (parse : String → Option Json) {strays : FileKey → Option String}
  {w w' v v' : World Memory}

theorem check (h : Beside strays w w') : w'.check = w.check := by
  rw [World.check, World.check, h.panic]

theorem checkHandle (h : Beside strays w w') (handle : Option Handle) :
    checkHandle w' handle = checkHandle w handle := by
  simp only [TimeSeries.checkHandle, h.check]

theorem busyWrites (h : Beside strays w w') : w'.engine.busyWrites = w.engine.busyWrites := by
  obtain ⟨⟨stores, cursors, hengine⟩, -⟩ := h
  rw [hengine]

/-- **A session works** on nothing in both worlds, or on stores that are `Store.Beside` one
another. -/
theorem serves (h : Beside strays w w') (session : Handle) :
    w.engine.store? session = none ∧ w'.engine.store? session = none ∨
      ∃ file st st', w.engine.Serves session file st ∧ w'.engine.Serves session file st' ∧
        Store.Beside (strays file) st st' := by
  obtain ⟨⟨stores, cursors, hengine⟩, hstores, -⟩ := h
  have hfile : w'.engine.sessionFile? session = w.engine.sessionFile? session := by
    rw [hengine]
    rfl
  cases hsession : w.engine.sessionFile? session with
  | none =>
    rw [hsession] at hfile
    exact .inl ⟨by rw [Memory.store?, hsession]; rfl, by rw [Memory.store?, hfile]; rfl⟩
  | some file =>
    rw [hsession] at hfile
    obtain ⟨hnone, hnone'⟩ | ⟨st, st', hst, hst', hbeside⟩ := hstores.find?_cases file
    · exact .inl ⟨by rw [Memory.store?, hsession]; exact hnone,
        by rw [Memory.store?, hfile]; exact hnone'⟩
    · exact .inr ⟨file, st, st', ⟨hsession, hst⟩, ⟨hfile, hst'⟩, hbeside⟩

theorem served_eq (h : Beside strays w w') (session : Handle) :
    (w'.engine.store? session).isSome = (w.engine.store? session).isSome := by
  obtain ⟨hnone, hnone'⟩ | ⟨file, st, st', hserves, hserves', -⟩ := h.serves session
  · rw [hnone, hnone']
  · rw [hserves.store?_eq, hserves'.store?_eq]
    rfl

/-! ### Calls -/

/-- **Reading**, by which worlds are `Observed` only, keeps them side by side. -/
theorem observed (h : Beside strays w w') (hleft : w.Observed v) (hright : w'.Observed v') :
    Beside strays v v' := by
  obtain ⟨cursors, calls, rfl⟩ := hleft
  obtain ⟨cursors', calls', rfl⟩ := hright
  obtain ⟨⟨stores, _, hengine⟩, hstores, hfiles, hpanic, hdelays⟩ := h
  exact ⟨⟨stores, cursors', by rw [hengine]⟩, hstores, hfiles, hpanic, hdelays⟩

/-- **A `Memory.Disturbance`** is the same on both sides. -/
theorem disturb (h : Beside strays w w') (d : Memory.Disturbance) :
    Beside strays (Memory.disturb w d) (Memory.disturb w' d) := by
  obtain ⟨⟨stores, cursors, hengine⟩, hstores, hfiles, hpanic, hdelays⟩ := h
  obtain ⟨engine', files', channel', calls', delays'⟩ := w'
  dsimp only at hengine hstores hfiles hpanic hdelays
  subst hengine hfiles
  cases d with
  | delays nanos => exact ⟨⟨_, _, rfl⟩, hstores, rfl, hpanic, rfl⟩
  | raisePanic message =>
    refine ⟨⟨_, _, rfl⟩, hstores, rfl, ?_, hdelays⟩
    simp only [Memory.disturb, World.reportPanic, Channel.panic_reportPanic]
    exact congrArg (·.or (some message)) hpanic
  | _ => exact ⟨⟨_, _, rfl⟩, hstores, rfl, hpanic, hdelays⟩

/-- **Calls that keep house** (`Call.KeepsHouse`) are answered the same on both sides. -/
theorem ask (h : Beside strays w w') (call : Call) (hcall : call.KeepsHouse) :
    Agree strays ((Memory.engine parse).ask call w) ((Memory.engine parse).ask call w') := by
  obtain ⟨⟨stores, cursors, hengine⟩, hstores, hfiles, hpanic, hdelays⟩ := h
  obtain ⟨engine', files', channel', calls', delays'⟩ := w'
  dsimp only at hengine hstores hfiles hpanic hdelays
  subst hengine hfiles
  have hhas := hstores.has_eq
  simp only [Engine.ask, Memory.engine]
  cases call with
  | createDatabase name directory volumes =>
    simp only [Memory.answer, Memory.createDatabase]
    split
    · exact ⟨rfl, ⟨_, _, rfl⟩, hstores, rfl, hpanic, hdelays⟩
    · cases w.files.writeFile (databasePath directory name) (Memory.marker volumes) <;>
        exact ⟨rfl, ⟨_, _, rfl⟩, hstores, rfl, hpanic, hdelays⟩
  | removeDatabase file =>
    simp only [Memory.answer, Memory.removeDatabase]
    split
    · exact ⟨rfl, ⟨_, _, rfl⟩, hstores, rfl, hpanic, hdelays⟩
    · split
      · exact ⟨rfl, ⟨_, _, rfl⟩, hstores, rfl, hpanic, hdelays⟩
      · cases w.files.removeFile file with
        | error fault => exact ⟨rfl, ⟨_, _, rfl⟩, hstores, rfl, hpanic, hdelays⟩
        | ok files => exact ⟨rfl, ⟨_, _, rfl⟩, hstores.erase file.key, rfl, hpanic, hdelays⟩
  | openDatabase file log =>
    simp only [Memory.answer, Memory.openDatabase, hhas]
    split
    · exact ⟨rfl, ⟨_, _, rfl⟩, hstores, rfl, hpanic, hdelays⟩
    · refine ⟨rfl, ⟨_, _, rfl⟩, ?_, rfl, hpanic, hdelays⟩
      dsimp only [World.note]
      split
      · exact hstores
      · exact hstores.put (.empty _)
  | closeDatabase database =>
    simp only [Memory.answer, Memory.onEngine, Memory.closeDatabase]
    split <;> exact ⟨rfl, ⟨_, _, rfl⟩, hstores, rfl, hpanic, hdelays⟩
  | createSession database =>
    simp only [Memory.answer, Memory.onEngine, Memory.createSession]
    split <;> exact ⟨rfl, ⟨_, _, rfl⟩, hstores, rfl, hpanic, hdelays⟩
  | destroySession session => exact ⟨rfl, ⟨_, _, rfl⟩, hstores, rfl, hpanic, hdelays⟩
  | _ => exact hcall.elim

/-- **The `result` of a query** uses up the same `rawResults`, or is made from stores side by
side. -/
theorem result (h : Beside strays w w') (session : Handle) (text : String) :
    ∃ stores stores' rawResults,
      (w.engine.result parse session text).2 = { w.engine with stores, rawResults } ∧
        (w'.engine.result parse session text).2 =
          { w'.engine with stores := stores', rawResults } ∧
        ((∀ file st, stores.find? file = some st → st.Countable) →
          Store.AllBeside strays stores stores') := by
  have hraw' : w'.engine.rawResults = w.engine.rawResults := by
    obtain ⟨⟨stores, cursors, hengine⟩, -⟩ := h
    rw [hengine]
  cases hraw : w.engine.rawResults with
  | cons bytes rest =>
    rw [hraw] at hraw'
    simp only [Memory.result, hraw, hraw']
    exact ⟨_, _, rest, rfl, rfl, fun _ => h.stores⟩
  | nil =>
    rw [hraw] at hraw'
    obtain ⟨hnone, hnone'⟩ | ⟨file, st, st', hserves, hserves', hbeside⟩ := h.serves session
    · simp only [Memory.result, hraw, hraw', hnone, hnone']
      exact ⟨w.engine.stores, w'.engine.stores, [], by rw [← hraw], by rw [← hraw'],
        fun _ => h.stores⟩
    · simp only [Memory.result, hraw, hraw', hserves.store?_eq, hserves'.store?_eq,
        hserves.setStore_eq, hserves'.setStore_eq]
      refine ⟨w.engine.stores.put file (st.query (parse text)).2,
        w'.engine.stores.put file (st'.query (parse text)).2, [], ?_, ?_, fun hfits => ?_⟩
      · rw [Memory.withStore, ← hraw]
      · rw [Memory.withStore, ← hraw']
      · exact h.stores.put (hbeside.query _ (hfits file _ (Table.find?_put_self _ _ _)))

/-- **The call `query`** is answered with the same handle on both sides. -/
theorem query (h : Beside strays w w') (session : Handle) (text : String)
    (hfits : ((Memory.engine parse).ask (.query session text) w).2.engine.Fits) :
    Agree strays ((Memory.engine parse).ask (.query session text) w)
      ((Memory.engine parse).ask (.query session text) w') := by
  obtain ⟨stores, stores', rawResults, hresult, hresult', hstores⟩ := h.result parse session text
  obtain ⟨feed, channel, hasked, hchannel⟩ := Memory.ask_query parse session text w
  obtain ⟨feed', channel', hasked', hchannel'⟩ := Memory.ask_query parse session text w'
  obtain ⟨⟨_, cursors, hengine⟩, -, hfiles, hpanic, hdelays⟩ := h
  rw [hasked, hresult] at hfits
  rw [hasked, hasked', hresult, hresult', hengine]
  exact ⟨rfl, ⟨stores', _, rfl⟩, hstores hfits, hfiles,
    hchannel'.trans (hpanic.trans hchannel.symm), hdelays⟩

/-! ### Databases and sessions -/

theorem create (h : Beside strays w w') (directory : Path) (name : String)
    (volumes : VolumeSettings) :
    Agree strays (Database.create (Memory.engine parse) directory name volumes w)
      (Database.create (Memory.engine parse) directory name volumes w') := by
  rw [Database.create, Database.create, h.check]
  dsimp only
  split
  · exact ⟨rfl, h⟩
  · obtain ⟨hstatus, hafter⟩ := h.ask parse (.createDatabase name directory volumes) trivial
    exact ⟨by rw [hstatus], hafter⟩

theorem openAt (h : Beside strays w w') (directory : Path) (name : String)
    (settings : OpenSettings) :
    Agree strays (Database.openAt (Memory.engine parse) directory name settings w)
      (Database.openAt (Memory.engine parse) directory name settings w') := by
  rw [Database.openAt, Database.openAt, h.check, Database.checkFile, Database.checkFile, h.files]
  split
  · exact ⟨rfl, h⟩
  · obtain ⟨v', hasked', hafter⟩ := (h.ask parse (.openDatabase
      (databasePath directory name) (Database.logFor directory settings)) trivial).exists_eq
    rw [hasked']
    generalize (Memory.engine parse).ask (.openDatabase (databasePath directory name)
      (Database.logFor directory settings)) w = opened at hafter ⊢
    obtain ⟨status | handle, v⟩ := opened <;> exact ⟨rfl, hafter⟩

theorem remove (h : Beside strays w w') (directory : Path) (name : String) :
    Agree strays (Database.remove (Memory.engine parse) directory name w)
      (Database.remove (Memory.engine parse) directory name w') := by
  rw [Database.remove, Database.remove, h.check, Database.checkFile, Database.checkFile, h.files]
  dsimp only
  split
  · exact ⟨rfl, h⟩
  · obtain ⟨hstatus, hafter⟩ := h.ask parse
      (.removeDatabase (databasePath directory name)) trivial
    exact ⟨by rw [hstatus], hafter⟩

theorem closeDatabase (h : Beside strays w w') (d : Database) :
    Agree strays (d.close (Memory.engine parse) w).2 (d.close (Memory.engine parse) w').2 := by
  rw [Database.close, Database.close, h.check]
  split
  · exact ⟨rfl, h⟩
  · exact ⟨rfl, h⟩
  next handle _ _ =>
    exact ⟨rfl, (h.ask parse (.closeDatabase handle) trivial).2⟩

theorem dropDatabase (h : Beside strays w w') (d : Database) :
    Beside strays (d.drop (Memory.engine parse) w) (d.drop (Memory.engine parse) w') := by
  rw [Database.drop, Database.drop, Channel.hasPanic, Channel.hasPanic, h.panic]
  split
  next handle _ =>
    split
    · exact h
    · exact (h.ask parse (.closeDatabase handle) trivial).2
  · exact h

theorem session (h : Beside strays w w') (d : Database) :
    Agree strays (d.session (Memory.engine parse) w) (d.session (Memory.engine parse) w') := by
  rw [Database.session, Database.session, h.checkHandle]
  split
  · exact ⟨rfl, h⟩
  next handle _ =>
    obtain ⟨v', hasked', hafter⟩ := (h.ask parse (.createSession handle) trivial).exists_eq
    rw [hasked']
    generalize (Memory.engine parse).ask (.createSession handle) w = begun at hafter ⊢
    obtain ⟨status | session, v⟩ := begun <;> exact ⟨rfl, hafter⟩

theorem closeSession (h : Beside strays w w') (s : Session) :
    Agree strays (s.close (Memory.engine parse) w).2 (s.close (Memory.engine parse) w').2 := by
  rw [Session.close, Session.close, h.check]
  split
  · exact ⟨rfl, h⟩
  · exact ⟨rfl, h⟩
  next handle _ _ =>
    exact ⟨rfl, (h.ask parse (.destroySession handle) trivial).2⟩

theorem dropSession (h : Beside strays w w') (s : Session) :
    Beside strays (s.drop (Memory.engine parse) w) (s.drop (Memory.engine parse) w') := by
  rw [Session.drop, Session.drop, Channel.hasPanic, Channel.hasPanic, h.panic]
  split
  next handle _ =>
    split
    · exact h
    · exact (h.ask parse (.destroySession handle) trivial).2
  · exact h

theorem openCursor (h : Beside strays w w') (s : Session) (text : String)
    (hfits : (s.openCursor (Memory.engine parse) text w).2.engine.Fits) :
    Agree strays (s.openCursor (Memory.engine parse) text w)
      (s.openCursor (Memory.engine parse) text w') := by
  rw [Session.openCursor] at hfits
  rw [Session.openCursor, Session.openCursor, h.checkHandle]
  split at hfits
  · exact ⟨rfl, h⟩
  next session _ =>
    obtain ⟨v', hasked', hafter⟩ := (h.query parse session text hfits).exists_eq
    rw [hasked']
    exact ⟨rfl, hafter⟩

/-! ### Writes -/

theorem refusing (h : Beside strays w w') (busy : Nat) (call call' : Call) (n n' : Nat) :
    Beside strays (w.tried call n (w.engine.refusing busy))
      (w'.tried call' n' (w'.engine.refusing busy)) := by
  obtain ⟨⟨stores, cursors, hengine⟩, hstores, hfiles, hpanic, hdelays⟩ := h
  exact ⟨⟨stores, cursors, by rw [hengine]; rfl⟩, hstores, hfiles, hpanic, hdelays⟩

theorem stocked (h : Beside strays w w') {file : FileKey} {s s' : Store}
    (hs : Store.Beside (strays file) s s') {busy busy' : Nat} (hbusy : busy' = busy)
    (call call' : Call) (n n' : Nat) :
    Beside strays (w.tried call n ((w.engine.withStore file s).refusing busy))
      (w'.tried call' n' ((w'.engine.withStore file s').refusing busy')) := by
  obtain ⟨⟨stores, cursors, hengine⟩, hstores, hfiles, hpanic, hdelays⟩ := h
  subst hbusy
  exact ⟨⟨_, cursors, by rw [hengine]; rfl⟩, hstores.put hs, hfiles, hpanic, hdelays⟩

section Writing

variable {session : Handle} {file : FileKey} {st st' : Store} {name : String} {id id' : SeriesId}

/-- **A point is tried** by `Session.attempt` on both sides until it is taken or given up on both,
under whatever id there is for the name of its series. -/
theorem attempt (h : Beside strays w w') (hpanic : w.channel.panic = none)
    (hserves : w.engine.Serves session file st) (hserves' : w'.engine.Serves session file st')
    (hbeside : Store.Beside (strays file) st st') (hname : st.name? id = some name)
    (hname' : st'.name? id' = some name) (retry : RetryPolicy) (timestamp : Timestamp)
    (value : Double) {fuel fuel' : Nat} (hfuel : w.engine.busyWrites < fuel)
    (hfuel' : w.engine.busyWrites < fuel') :
    Agree strays
      (Session.attempt (Memory.engine parse) retry session ⟨id, timestamp, value⟩ fuel 0 0 w.delays w)
      (Session.attempt (Memory.engine parse) retry session ⟨id', timestamp, value⟩ fuel' 0 0
        w'.delays w') := by
  have hpanic' : w'.channel.panic = none := h.panic.trans hpanic
  rw [h.delays]
  -- both engines refuse the same number of writes, so the policy comes to the same on both sides
  obtain hpatient | ⟨n, hn, hmore, hgone⟩ :=
    retry.patient_or_givesUp 0 0 w.delays w.engine.busyWrites
  · rw [Session.attempt_of_patient parse hpanic hserves (Store.append?_of_name? hname) rfl hfuel
        hpatient,
      Session.attempt_of_patient parse hpanic' hserves' (Store.append?_of_name? hname')
        h.busyWrites hfuel' hpatient]
    exact ⟨rfl, h.stocked (hbeside.withPoint hname hname' timestamp value) rfl _ _ _ _⟩
  · rw [Session.attempt_of_givesUp parse hpanic rfl hn (Nat.lt_trans hn hfuel) hmore hgone,
      Session.attempt_of_givesUp parse hpanic' h.busyWrites hn (Nat.lt_trans hn hfuel') hmore
        hgone]
    exact ⟨rfl, h.refusing _ _ _ _ _⟩

end Writing

/-- **A `Session.write`** comes to the same on both sides. -/
theorem write (h : Beside strays w w') (s : Session) (series : String) (timestamp : Timestamp)
    (value : Double)
    (hfits : (s.write (Memory.engine parse) series timestamp value w).2.engine.Fits) :
    Agree strays (s.write (Memory.engine parse) series timestamp value w)
      (s.write (Memory.engine parse) series timestamp value w') := by
  have hchecked' := h.checkHandle s.handle
  cases hchecked : TimeSeries.checkHandle w s.handle with
  | error failure =>
    rw [Session.write, Session.write, hchecked', hchecked]
    exact ⟨rfl, h⟩
  | ok session =>
    rw [hchecked] at hchecked'
    have hhandle := eq_some_of_checkHandle hchecked
    have hpanic := no_panic_of_checkHandle hchecked
    have hpanic' : w'.channel.panic = none := h.panic.trans hpanic
    cases hrefusal : Session.refusal? series (w.engine.store? session).isSome with
    | some status =>
      obtain ⟨calls, hwrite⟩ :=
        Session.write_of_refusal parse hpanic hhandle hrefusal timestamp value
      rw [← h.served_eq] at hrefusal
      obtain ⟨calls', hwrite'⟩ :=
        Session.write_of_refusal parse hpanic' hhandle hrefusal timestamp value
      rw [hwrite, hwrite']
      exact ⟨rfl, h.engine, h.stores, h.files, h.panic, h.delays⟩
    | none =>
      obtain ⟨hlength, ⟨name, hname⟩, hserved⟩ := Session.of_refusal?_eq_none hrefusal
      obtain ⟨hnone, -⟩ | ⟨file, st, st', hserves, hserves', hbeside⟩ := h.serves session
      · rw [hnone] at hserved
        cases hserved
      rw [Session.write_eq_attempt parse hpanic hhandle hserves hlength hname] at hfits ⊢
      rw [Session.write_eq_attempt parse hpanic' hhandle hserves' hlength hname]
      have hcount := Session.countable_of_attempt hfits
      obtain ⟨hcount', henlisted⟩ := hbeside.enlist hcount
      have hlooked : Beside strays (w.lookedUp session series name file st)
          (w'.lookedUp session series name file st') :=
        h.stocked henlisted h.busyWrites _ _ 1 1
      have hfuel : ∀ v : World Memory, v.engine.busyWrites < Memory.patience v + 1 :=
        fun v => Nat.lt_succ_of_le (Nat.le_add_right _ _)
      exact attempt parse hlooked hpanic (hserves.withStore _) (hserves'.withStore _) henlisted
        (Store.name?_enlist hcount) (Store.name?_enlist hcount') _ timestamp value (hfuel _)
        (hlooked.busyWrites ▸ hfuel _)

theorem writeAt (h : Beside strays w w') (s : Session) (series : String) (time : Instant)
    (value : Double) (hfits : (s.writeAt (Memory.engine parse) series time value w).2.engine.Fits) :
    Agree strays (s.writeAt (Memory.engine parse) series time value w)
      (s.writeAt (Memory.engine parse) series time value w') := by
  rw [Session.writeAt] at hfits
  rw [Session.writeAt, Session.writeAt]
  split at hfits
  · exact ⟨rfl, h⟩
  · exact h.write parse s series _ value hfits

/-- **Writes one after another**, by `Session.writeAll`, come to the same. -/
theorem writeAll (h : Beside strays w w') (s : Session) (points : List (String × Timestamp × Double))
    (hfits : (Workspace.writeAll (Memory.engine parse) s points w).2.engine.Fits) :
    Agree strays (Workspace.writeAll (Memory.engine parse) s points w)
      (Workspace.writeAll (Memory.engine parse) s points w') := by
  induction points generalizing w w' with
  | nil => exact ⟨rfl, h⟩
  | cons point points ih =>
    obtain ⟨series, timestamp, value⟩ := point
    -- what is written after a point only adds to the names
    have hearlier : (s.write (Memory.engine parse) series timestamp value w).2.engine.Fits :=
      (s.leads_writeAll (Memory.engine parse) _ points).fits
        (by rintro _ ⟨_, -, hcall⟩ path rfl; exact hcall) hfits
    obtain ⟨hresult, hbeside⟩ := h.write parse s series timestamp value hearlier
    obtain ⟨hfailures, hafter⟩ := ih hbeside hfits
    refine ⟨?_, hafter⟩
    simp only [Workspace.writeAll]
    rw [hresult, hfailures]

end World.Beside

end TimeSeries
