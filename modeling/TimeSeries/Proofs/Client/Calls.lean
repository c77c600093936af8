import TimeSeries.Proofs.Cursor.Frame

/-!
# The calls of a command

What a command makes of the world it makes of it by calls, and a command has few of them: those
that go with it, on the handles that are at the labels it names (`Workspace.Makes`). So
whatever every such call keeps is kept by the command (`Workspace.leads_run`), and nothing
later has to look into a command to see what it leaves alone.
-/

namespace TimeSeries

/-! ### Operations -/

/-- A `write` in a session. -/
def Call.WritesIn (session : Handle) : Call → Prop
  | .seriesToId s _ | .write s .. => s = session
  | _ => False

section Operations

variable {σ : Type} (E : Engine σ) (w : World σ)

theorem eq_some_of_checkHandle {w : World σ} {handle? : Option Handle} {handle : Handle}
    (h : checkHandle w handle? = .ok handle) : handle? = some handle := by
  unfold checkHandle at h
  split at h
  · cases h
  · cases h
  · cases h
    rfl

namespace Database

theorem leads_create (directory : Path) (name : String) (volumes : VolumeSettings) :
    E.Leads (· = .createDatabase name directory volumes) w
      (create E directory name volumes w).2 := by
  rw [create]
  dsimp only
  split
  · exact .refl
  · exact .ask _ rfl .refl

theorem leads_openAt (directory : Path) (name : String) (settings : OpenSettings) :
    E.Leads (· = .openDatabase (databasePath directory name) (logFor directory settings)) w
      (openAt E directory name settings w).2 := by
  rw [openAt]
  split
  · exact .refl
  · have hopen : E.Leads (· = .openDatabase (databasePath directory name)
        (logFor directory settings)) w _ := .ask _ rfl .refl
    split <;> next hasked => rw [hasked] at hopen; exact hopen

theorem leads_remove (directory : Path) (name : String) :
    E.Leads (· = .removeDatabase (databasePath directory name)) w
      (remove E directory name w).2 := by
  rw [remove]
  dsimp only
  split
  · exact .refl
  · exact .ask _ rfl .refl

variable (d : Database)

theorem leads_close :
    E.Leads (fun call => ∃ handle, d.handle = some handle ∧ call = .closeDatabase handle) w
      (d.close E w).2.2 := by
  rw [close]
  split
  · exact .refl
  · exact .refl
  next handle _ hhandle => exact .one ⟨handle, hhandle, rfl⟩ w

theorem leads_drop :
    E.Leads (fun call => ∃ handle, d.handle = some handle ∧ call = .closeDatabase handle) w
      (d.drop E w) := by
  rw [drop]
  split
  next handle hhandle =>
    split
    · exact .refl
    · exact .one ⟨handle, hhandle, rfl⟩ w
  · exact .refl

theorem leads_session :
    E.Leads (fun call => ∃ handle, d.handle = some handle ∧ call = .createSession handle) w
      (d.session E w).2 := by
  rw [session]
  split
  · exact .refl
  next handle hchecked =>
    have hbegun : E.Leads (fun call => ∃ handle, d.handle = some handle ∧
        call = .createSession handle) w _ :=
      .ask _ ⟨handle, eq_some_of_checkHandle hchecked, rfl⟩ .refl
    split <;> next hasked => rw [hasked] at hbegun; exact hbegun

end Database

namespace Session

variable (s : Session)

theorem leads_attempt (retry : RetryPolicy) (session : Handle) (p : Point)
    (fuel attempts elapsed : Nat) (delays : List Nat) :
    E.Leads (Call.WritesIn session) w
      (attempt E retry session p fuel attempts elapsed delays w).2 := by
  induction fuel generalizing attempts elapsed delays w with
  | zero => exact .refl
  | succ fuel ih =>
    have hasked : E.Leads (Call.WritesIn session) w
        (E.ask (.write session p.series p.timestamp p.value) w).2 := .ask _ rfl .refl
    rw [attempt]
    rcases hwrite : E.ask (.write session p.series p.timestamp p.value) w with ⟨status, w'⟩
    rw [hwrite] at hasked
    cases status <;> try exact hasked
    dsimp only
    split
    · exact hasked
    · split
      · exact hasked
      · exact hasked.trans (ih w' _ _ _)

theorem leads_write (series : String) (timestamp : Timestamp) (value : Double) :
    E.Leads (fun call => ∃ session, s.handle = some session ∧ call.WritesIn session) w
      (s.write E series timestamp value w).2 := by
  rw [write]
  split
  · exact .refl
  next session hchecked =>
    have hhandle := eq_some_of_checkHandle hchecked
    split
    · exact .refl
    · have hasked : E.Leads (Call.WritesIn session) w
          (E.ask (.seriesToId session series) w).2 := .ask _ rfl .refl
      rcases hid : E.ask (.seriesToId session series) w with ⟨failure | id, w'⟩ <;>
        rw [hid] at hasked
      · exact hasked.mono fun call hcall => ⟨session, hhandle, hcall⟩
      · exact (hasked.trans (leads_attempt E w' _ session _ _ _ _ _)).mono
          fun call hcall => ⟨session, hhandle, hcall⟩

theorem leads_writeAt (series : String) (time : Instant) (value : Double) :
    E.Leads (fun call => ∃ session, s.handle = some session ∧ call.WritesIn session) w
      (s.writeAt E series time value w).2 := by
  rw [writeAt]
  split
  · exact .refl
  · exact s.leads_write E w _ _ _

theorem leads_writeAll (points : List (String × Timestamp × Double)) :
    E.Leads (fun call => ∃ session, s.handle = some session ∧ call.WritesIn session) w
      (Workspace.writeAll E s points w).2 := by
  induction points generalizing w with
  | nil => exact .refl
  | cons point points ih => exact (s.leads_write E w _ _ _).trans (ih _)

theorem leads_openCursor (text : String) :
    E.Leads (fun call => ∃ session, s.handle = some session ∧ call = .query session text) w
      (s.openCursor E text w).2 := by
  rw [openCursor]
  split
  · exact .refl
  next session hchecked => exact .ask _ ⟨session, eq_some_of_checkHandle hchecked, rfl⟩ .refl

theorem leads_close :
    E.Leads (fun call => ∃ handle, s.handle = some handle ∧ call = .destroySession handle) w
      (s.close E w).2.2 := by
  rw [close]
  split
  · exact .refl
  · exact .refl
  next handle _ hhandle => exact .one ⟨handle, hhandle, rfl⟩ w

theorem leads_drop :
    E.Leads (fun call => ∃ handle, s.handle = some handle ∧ call = .destroySession handle) w
      (s.drop E w) := by
  rw [drop]
  split
  next handle hhandle =>
    split
    · exact .refl
    · exact .one ⟨handle, hhandle, rfl⟩ w
  · exact .refl

end Session

end Operations

/-- **Calls that let go** of something: `closeDatabase`, `destroySession`, or a call that only
`Reads`. -/
def Call.LetsGo : Call → Prop
  | .closeDatabase _ | .destroySession _ => True
  | call => call.Reads

theorem Call.Reads.letsGo {call : Call} (h : call.Reads) : call.LetsGo := by
  cases call <;> first | exact h | trivial

/-! ### Commands -/

namespace Workspace

variable {σ : Type}

/-- The `handle` of the database at a label. -/
def DatabaseAt (ws : Workspace σ) (label : Label) (handle : Handle) : Prop :=
  ∃ d, ws.databases.find? label = some d ∧ d.handle = some handle

/-- The `handle` of the session at a label. -/
def SessionAt (ws : Workspace σ) (label : Label) (handle : Handle) : Prop :=
  ∃ s, ws.sessions.find? label = some s ∧ s.it.handle = some handle

/-- Calls that the cursor of the reader at a label `Makes`. -/
def ReadsAt (ws : Workspace σ) (label : Label) (call : Call) : Prop :=
  ∃ r, ws.readers.find? label = some r ∧ r.it.cursor.Makes call

theorem ReadsAt.reads {ws : Workspace σ} {label : Label} {call : Call}
    (h : ws.ReadsAt label call) : call.Reads := by
  obtain ⟨_, _, hcall⟩ := h
  exact hcall.reads

/-- **The calls of a `Command`** to `Memory.engine`: they are on the handles at the labels that it
names, but for the cursor that `readAll` starts, which gets `nextHandle`. -/
def Makes (ws : Workspace Memory) : Command → Call → Prop
  | .create directory name volumes, call => call = .createDatabase name directory volumes
  | .openDatabase label directory name settings, call =>
    call = .openDatabase (databasePath directory name) (Database.logFor directory settings) ∨
      ∃ handle, ws.DatabaseAt label handle ∧ call = .closeDatabase handle
  | .remove directory name, call => call = .removeDatabase (databasePath directory name)
  | .openSession label database, call =>
    (∃ handle, ws.DatabaseAt database handle ∧ call = .createSession handle) ∨
      ∃ handle, ws.SessionAt label handle ∧ call = .destroySession handle
  | .closeDatabase label, call | .dropDatabase label, call =>
    ∃ handle, ws.DatabaseAt label handle ∧ call = .closeDatabase handle
  | .closeSession label, call | .dropSession label, call =>
    ∃ handle, ws.SessionAt label handle ∧ call = .destroySession handle
  | .write label .., call | .writeAt label .., call | .writeAll label _, call =>
    ∃ session, ws.SessionAt label session ∧ call.WritesIn session
  | .rows label _, call =>
    ∃ session, ws.SessionAt label session ∧
      ((∃ text, call = .query session text) ∨
        call.ReadsFor session (some ws.world.engine.nextHandle))
  | .openReader label session _, call =>
    (∃ handle text, ws.SessionAt session handle ∧ call = .query handle text) ∨
      ws.ReadsAt label call
  | .next label, call | .item label, call | .done label, call | .canProceed label, call
  | .closeReader label, call | .isClosed label, call | .dropReader label, call =>
    ws.ReadsAt label call
  | .dropAll, _ => True

/-- Only the command `remove` makes the call `removeDatabase`. -/
theorem remove_of_makes {ws : Workspace Memory} {c : Command} {file : Path} (hall : c ≠ .dropAll)
    (h : ws.Makes c (.removeDatabase file)) : ∃ directory name, c = .remove directory name := by
  cases c with
  | remove directory name => exact ⟨directory, name, rfl⟩
  | create directory name volumes => cases h
  | openDatabase label directory name settings => obtain h | ⟨_, -, h⟩ := h <;> cases h
  | openSession label database => obtain ⟨_, -, h⟩ | ⟨_, -, h⟩ := h <;> cases h
  | closeDatabase label | dropDatabase label | closeSession label | dropSession label =>
    obtain ⟨_, -, h⟩ := h
    cases h
  | write label | writeAt label | writeAll label =>
    obtain ⟨_, -, h⟩ := h
    exact h.elim
  | rows label source =>
    obtain ⟨_, -, ⟨_, h⟩ | h⟩ := h
    · cases h
    · exact h.elim
  | openReader label session source =>
    obtain ⟨_, _, -, h⟩ | ⟨_, -, h⟩ := h
    · cases h
    · exact h.elim
  | next label | item label | done label | canProceed label | closeReader label | isClosed label
  | dropReader label =>
    obtain ⟨_, -, h⟩ := h
    exact h.elim
  | dropAll => exact absurd rfl hall

variable (parse : String → Option Json) (ws : Workspace Memory)

theorem leads_dropDatabase (label : Label) :
    (Memory.engine parse).Leads
      (fun call => ∃ handle, ws.DatabaseAt label handle ∧ call = .closeDatabase handle) ws.world
      (ws.dropDatabase (Memory.engine parse) label).world := by
  rw [dropDatabase]
  split
  next d hd =>
    refine (d.leads_drop _ ws.world).mono ?_
    rintro call ⟨handle, hhandle, rfl⟩
    exact ⟨handle, ⟨d, hd, hhandle⟩, rfl⟩
  · exact .refl

theorem leads_dropSession (label : Label) :
    (Memory.engine parse).Leads
      (fun call => ∃ handle, ws.SessionAt label handle ∧ call = .destroySession handle) ws.world
      (ws.dropSession (Memory.engine parse) label).world := by
  rw [dropSession]
  split
  next s hs =>
    refine (s.it.leads_drop _ ws.world).mono ?_
    rintro call ⟨handle, hhandle, rfl⟩
    exact ⟨handle, ⟨s, hs, hhandle⟩, rfl⟩
  · exact .refl

theorem leads_dropReader (label : Label) :
    (Memory.engine parse).Leads (ws.ReadsAt label) ws.world
      (ws.dropReader (Memory.engine parse) label).world := by
  rw [dropReader]
  split
  next r hr => exact (r.it.leads_drop _ ws.world).mono fun call hcall => ⟨r, hr, hcall⟩
  · exact .refl

/-- What `withSession` does with a session that does not change it. -/
theorem leads_withSession {label : Label} {f : Session → World Memory → Answer × World Memory}
    {kind : Call → Prop}
    (hf : ∀ s, ws.sessions.find? label = some s →
      (Memory.engine parse).Leads kind ws.world (f s.it ws.world).2) :
    (Memory.engine parse).Leads kind ws.world (ws.withSession label f).2.world := by
  rw [withSession]
  split
  · exact .refl
  next s hs => exact hf s hs

/-- What `withReader` does with a reader. -/
theorem leads_withReader {label : Label}
    {f : Reader → World Memory → Answer × Reader × World Memory}
    (hf : ∀ r w, (Memory.engine parse).Leads r.cursor.Makes w (f r w).2.2) :
    (Memory.engine parse).Leads (ws.ReadsAt label) ws.world (ws.withReader label f).2.world := by
  rw [withReader]
  split
  · exact .refl
  next r hr => exact (hf r.it ws.world).mono fun call hcall => ⟨r, hr, hcall⟩

/-- A `query` gets `nextHandle`. -/
theorem ask_query_fst (session : Handle) (text : String) (w : World Memory) :
    ((Memory.engine parse).ask (.query session text) w).1 = w.engine.nextHandle := by
  simp only [Engine.ask, Memory.engine, Memory.answer, Memory.query]
  split <;> rfl

/-- Calling `readAll` starts the query and reads with the handle it got. -/
theorem leads_readAll (s : Session) (text : String) (w : World Memory) :
    (Memory.engine parse).Leads
      (fun call => ∃ session, s.handle = some session ∧
        (call = .query session text ∨ call.ReadsFor session (some w.engine.nextHandle))) w
      (readAll (Memory.engine parse) s text w).2 := by
  rw [readAll, Session.openCursor]
  cases hchecked : checkHandle w s.handle with
  | error failure => exact .refl
  | ok session =>
    have hhandle := eq_some_of_checkHandle hchecked
    have hquery : (Memory.engine parse).Leads (fun call => ∃ session, s.handle = some session ∧
        (call = .query session text ∨ call.ReadsFor session (some w.engine.nextHandle))) w
        ((Memory.engine parse).ask (.query session text) w).2 :=
      .ask _ ⟨session, hhandle, .inl rfl⟩ .refl
    have hfresh := ask_query_fst parse session text w
    rcases hasked : (Memory.engine parse).ask (.query session text) w with ⟨handle, w'⟩
    simp only [hasked] at hquery hfresh ⊢
    obtain rfl : handle = w.engine.nextHandle := hfresh
    -- the cursor is read to its end and closed
    have hitems := (Cursor.ofHandle session w.engine.nextHandle s.settings.buffer).moves_items
      (Memory.engine parse) w'
    have hread := (hitems.trans_leads (Cursor.leads_drop _ _ _)).leads
    exact hquery.trans (hread.mono fun call hcall => ⟨session, hhandle, .inr hcall⟩)

theorem leads_openReader (label session : Label) (source : Source) :
    (Memory.engine parse).Leads (ws.Makes (.openReader label session source)) ws.world
      (ws.openReader (Memory.engine parse) label session source).2.world := by
  rw [openReader]
  split
  · exact .refl
  next s hs =>
    split
    · exact .refl
    next text _ =>
      have hopen : (Memory.engine parse).Leads (ws.Makes (.openReader label session source)) ws.world
          (s.it.openCursor (Memory.engine parse) text ws.world).2 := by
        refine (s.it.leads_openCursor _ ws.world text).mono ?_
        rintro call ⟨handle, hhandle, rfl⟩
        exact .inl ⟨handle, text, ⟨s, hs, hhandle⟩, rfl⟩
      rcases hopened : s.it.openCursor (Memory.engine parse) text ws.world with
          ⟨failure | c, w'⟩ <;> rw [hopened] at hopen
      · exact hopen
      · exact hopen.trans ((leads_dropReader parse { ws with world := w' } label).mono
          fun call hcall => .inr hcall)

theorem leads_openSession (label database : Label) :
    (Memory.engine parse).Leads (ws.Makes (.openSession label database)) ws.world
      (ws.openSession (Memory.engine parse) label database).2.world := by
  rw [openSession]
  split
  · exact .refl
  next d hd =>
    have hbegin : (Memory.engine parse).Leads (ws.Makes (.openSession label database)) ws.world
        (d.session (Memory.engine parse) ws.world).2 := by
      refine (d.leads_session _ ws.world).mono ?_
      rintro call ⟨handle, hhandle, rfl⟩
      exact .inl ⟨handle, ⟨d, hd, hhandle⟩, rfl⟩
    rcases hbegun : d.session (Memory.engine parse) ws.world with ⟨failure | s, w'⟩ <;>
      rw [hbegun] at hbegin
    · exact hbegin
    · exact hbegin.trans ((leads_dropSession parse { ws with world := w' } label).mono
        fun call hcall => .inr hcall)

theorem leads_openDatabase (label : Label) (directory : Path) (name : String)
    (settings : OpenSettings) :
    (Memory.engine parse).Leads (ws.Makes (.openDatabase label directory name settings)) ws.world
      (ws.run (Memory.engine parse) (.openDatabase label directory name settings)).2.world := by
  rw [run]
  have hopen : (Memory.engine parse).Leads
      (ws.Makes (.openDatabase label directory name settings)) ws.world
      (Database.openAt (Memory.engine parse) directory name settings ws.world).2 :=
    (Database.leads_openAt _ ws.world directory name settings).mono fun call hcall => .inl hcall
  rcases hopened : Database.openAt (Memory.engine parse) directory name settings ws.world with
      ⟨failure | d, w'⟩ <;> rw [hopened] at hopen
  · exact hopen
  · exact hopen.trans ((leads_dropDatabase parse { ws with world := w' } label).mono
      fun call hcall => .inr hcall)

/-- The command `dropAll` makes calls that `LetsGo` of something only. -/
theorem leads_dropAll :
    (Memory.engine parse).Leads Call.LetsGo ws.world (ws.dropAll (Memory.engine parse)).world := by
  have hfold : ∀ {f : Workspace Memory → Label → Workspace Memory},
      (∀ v label, (Memory.engine parse).Leads Call.LetsGo v.world (f v label).world) →
      ∀ (labels : List Label) (v : Workspace Memory),
        (Memory.engine parse).Leads Call.LetsGo v.world (labels.foldl f v).world := by
    intro f hf labels
    induction labels with
    | nil => exact fun v => .refl
    | cons label labels ih => exact fun v => (hf v label).trans (ih _)
  have hreader : ∀ (v : Workspace Memory) label, (Memory.engine parse).Leads Call.LetsGo v.world
      (v.dropReader (Memory.engine parse) label).world := fun v label =>
    (leads_dropReader parse v label).mono fun call hcall => hcall.reads.letsGo
  have hsession : ∀ (v : Workspace Memory) label, (Memory.engine parse).Leads Call.LetsGo v.world
      (v.dropSession (Memory.engine parse) label).world := fun v label =>
    (leads_dropSession parse v label).mono fun call ⟨_, _, hcall⟩ => by rw [hcall]; trivial
  have hdatabase : ∀ (v : Workspace Memory) label, (Memory.engine parse).Leads Call.LetsGo v.world
      (v.dropDatabase (Memory.engine parse) label).world := fun v label =>
    (leads_dropDatabase parse v label).mono fun call ⟨_, _, hcall⟩ => by rw [hcall]; trivial
  rw [dropAll]
  exact ((hfold hreader _ ws).trans (hfold hsession _ _)).trans (hfold hdatabase _ _)

/-- **To `run` a command makes calls that it `Makes`**, and no others. -/
theorem leads_run (c : Command) :
    (Memory.engine parse).Leads (ws.Makes c) ws.world
      (ws.run (Memory.engine parse) c).2.world := by
  cases c with
  | create directory name volumes => exact Database.leads_create _ ws.world directory name volumes
  | openDatabase label directory name settings =>
    exact ws.leads_openDatabase parse label directory name settings
  | remove directory name => exact Database.leads_remove _ ws.world directory name
  | openSession label database => exact ws.leads_openSession parse label database
  | closeDatabase label =>
    rw [run]
    split
    · exact .refl
    next d hd =>
      split
      · exact .refl
      · refine (d.leads_close _ ws.world).mono ?_
        rintro call ⟨handle, hhandle, rfl⟩
        exact ⟨handle, ⟨d, hd, hhandle⟩, rfl⟩
  | dropDatabase label =>
    rw [run]
    split
    · exact .refl
    · split
      · exact .refl
      · exact ws.leads_dropDatabase parse label
  | closeSession label =>
    rw [run]
    split
    · exact .refl
    next s hs =>
      split
      · exact .refl
      · refine (s.it.leads_close _ ws.world).mono ?_
        rintro call ⟨handle, hhandle, rfl⟩
        exact ⟨handle, ⟨s, hs, hhandle⟩, rfl⟩
  | dropSession label =>
    rw [run]
    split
    · exact .refl
    · split
      · exact .refl
      · exact ws.leads_dropSession parse label
  | write label series timestamp value =>
    refine ws.leads_withSession parse fun s hs =>
      (s.it.leads_write _ ws.world series timestamp value).mono ?_
    rintro call ⟨handle, hhandle, hcall⟩
    exact ⟨handle, ⟨s, hs, hhandle⟩, hcall⟩
  | writeAt label series time value =>
    refine ws.leads_withSession parse fun s hs =>
      (s.it.leads_writeAt _ ws.world series time value).mono ?_
    rintro call ⟨handle, hhandle, hcall⟩
    exact ⟨handle, ⟨s, hs, hhandle⟩, hcall⟩
  | writeAll label points =>
    refine ws.leads_withSession parse fun s hs =>
      (s.it.leads_writeAll _ ws.world points).mono ?_
    rintro call ⟨handle, hhandle, hcall⟩
    exact ⟨handle, ⟨s, hs, hhandle⟩, hcall⟩
  | rows label source =>
    refine ws.leads_withSession parse fun s hs => ?_
    split
    · exact .refl
    next text _ =>
      refine (leads_readAll parse s.it text ws.world).mono ?_
      rintro call ⟨handle, hhandle, hcall⟩
      exact ⟨handle, ⟨s, hs, hhandle⟩, hcall.imp (fun hquery => ⟨text, hquery⟩) id⟩
  | openReader label session source => exact ws.leads_openReader parse label session source
  | next label => exact ws.leads_withReader parse fun r w => (r.moves_next _ w).leads
  | item label => exact ws.leads_withReader parse fun r w => (r.moves_item _ w).leads
  | done label => exact ws.leads_withReader parse fun r w => r.leads_done _ w
  | canProceed label => exact ws.leads_withReader parse fun r w => r.leads_canProceed _ w
  | closeReader label => exact ws.leads_withReader parse fun r w => r.leads_close _ w
  | isClosed label => exact ws.leads_withReader parse fun r w => .refl
  | dropReader label =>
    rw [run]
    split
    · exact ws.leads_dropReader parse label
    · exact .refl
  | dropAll => exact (ws.leads_dropAll parse).mono fun _ _ => trivial

end Workspace

end TimeSeries
