import TimeSeries.Proofs.Client.LockstepWorlds
import TimeSeries.Proofs.Client.Labels

/-!
# Workspaces in lockstep

Two workspaces whose worlds stand side by side have the same databases and sessions under the same
labels, and readers of the same sessions (`Workspace.Beside`). What is in the feeds of the readers
may differ, but no command but those on the reader itself goes by it. So the two stay side by side
whatever happens to both (`Workspace.Beside.undergo`), as long as the names of the first fit in
memory.
-/

namespace TimeSeries.Workspace

/-- **Workspaces side by side**: their worlds are `World.Beside` one another, and the rest is the
same but for the cursors of readers. -/
structure Beside (strays : FileKey → Option String) (ws ws' : Workspace Memory) : Prop where
  /-- their worlds stand side by side -/
  world : World.Beside strays ws.world ws'.world
  /-- the databases are the same -/
  databases : ws'.databases = ws.databases
  /-- the sessions are the same -/
  sessions : ws'.sessions = ws.sessions
  /-- there are readers of the same sessions -/
  readers : ws'.readers.image Child.parent = ws.readers.image Child.parent

/-- What `readAll` does after `openCursor` is seen in feeds only. -/
theorem observed_readAll (parse : String → Option Json) (s : Session) (text : String)
    (w : World Memory) :
    (s.openCursor (Memory.engine parse) text w).2.Observed
      (readAll (Memory.engine parse) s text w).2 := by
  rw [readAll]
  rcases s.openCursor (Memory.engine parse) text w with ⟨failure | c, w'⟩
  · exact .refl w'
  · exact (c.moves_items _ w').observed.trans (((c.items _ w').2.1.leads_drop _ _).observed
      fun _ hcall => hcall.reads)

theorem fits_of_readAll {parse : String → Option Json} {s : Session} {text : String}
    {w : World Memory} (hfits : (readAll (Memory.engine parse) s text w).2.engine.Fits) :
    (s.openCursor (Memory.engine parse) text w).2.engine.Fits := by
  obtain ⟨cursors, calls, hread⟩ := observed_readAll parse s text w
  rw [hread] at hfits
  exact hfits

namespace Beside

variable (parse : String → Option Json) {strays : FileKey → Option String}
  {ws ws' : Workspace Memory} {label : Label} {w w' : World Memory}

/-- The second workspace is the first with another world and other readers. -/
theorem exists_eq (h : Beside strays ws ws') :
    ∃ w' readers', ws' = { ws with world := w', readers := readers' } ∧
      World.Beside strays ws.world w' ∧
        readers'.image Child.parent = ws.readers.image Child.parent := by
  obtain ⟨w', databases, sessions, readers⟩ := ws'
  obtain ⟨hworld, rfl, rfl, hreaders⟩ := h
  exact ⟨w', readers, rfl, hworld, hreaders⟩

theorem databaseInUse_eq (h : Beside strays ws ws') (label : Label) :
    ws'.databaseInUse label = ws.databaseInUse label := by
  rw [databaseInUse, databaseInUse, h.sessions]

theorem sessionInUse_eq (h : Beside strays ws ws') (label : Label) :
    ws'.sessionInUse label = ws.sessionInUse label := by
  have huse : ∀ ws : Workspace Memory, ws.sessionInUse label =
      (ws.readers.image Child.parent).values.any fun parent => parent == label := by
    intro ws
    rw [Table.values_image, List.any_map]
    rfl
  rw [huse, huse, h.readers]

/-- There is no reader at a label on either side, or one of the same session on each. -/
theorem reader_cases (h : Beside strays ws ws') (label : Label) :
    ws.readers.find? label = none ∧ ws'.readers.find? label = none ∨
      ∃ r r', ws.readers.find? label = some r ∧ ws'.readers.find? label = some r' ∧
        r'.parent = r.parent := by
  have himage : (ws'.readers.image Child.parent).find? label =
      (ws.readers.image Child.parent).find? label := by rw [h.readers]
  rw [Table.find?_image, Table.find?_image] at himage
  cases hr : ws.readers.find? label <;> cases hr' : ws'.readers.find? label <;>
    rw [hr, hr'] at himage
  · exact .inl ⟨rfl, rfl⟩
  · cases himage
  · cases himage
  · exact .inr ⟨_, _, rfl, rfl, Option.some.inj himage⟩

theorem hasReader_eq (h : Beside strays ws ws') (label : Label) :
    ws'.readers.has label = ws.readers.has label := by
  rw [Table.has, Table.has]
  obtain ⟨hnone, hnone'⟩ | ⟨r, r', hr, hr', -⟩ := h.reader_cases label
  · rw [hnone, hnone']
  · rw [hr, hr']
    rfl

/-! ### Letting go -/

theorem dropDatabase (h : Beside strays ws ws') (label : Label) :
    Beside strays (ws.dropDatabase (Memory.engine parse) label)
      (ws'.dropDatabase (Memory.engine parse) label) := by
  rw [Workspace.dropDatabase, Workspace.dropDatabase, h.databases]
  split
  next d _ => exact { h with world := h.world.dropDatabase parse d, databases := rfl }
  · exact h

theorem dropSession (h : Beside strays ws ws') (label : Label) :
    Beside strays (ws.dropSession (Memory.engine parse) label)
      (ws'.dropSession (Memory.engine parse) label) := by
  rw [Workspace.dropSession, Workspace.dropSession, h.sessions]
  split
  next s _ => exact { h with world := h.world.dropSession parse s.it, sessions := rfl }
  · exact h

theorem dropReader (h : Beside strays ws ws') (label : Label) :
    Beside strays (ws.dropReader (Memory.engine parse) label)
      (ws'.dropReader (Memory.engine parse) label) := by
  have hobserved : ∀ (r : Reader) (w : World Memory),
      w.Observed (r.drop (Memory.engine parse) w) := fun r w =>
    (r.leads_drop (Memory.engine parse) w).observed fun _ hcall => hcall.reads
  rw [Workspace.dropReader, Workspace.dropReader]
  obtain ⟨hnone, hnone'⟩ | ⟨r, r', hr, hr', -⟩ := h.reader_cases label
  · rw [hnone, hnone']
    exact h
  · rw [hr, hr']
    refine { h with world := h.world.observed (hobserved _ _) (hobserved _ _), readers := ?_ }
    rw [Table.image_erase, Table.image_erase, h.readers]

/-! ### Putting something under a label -/

theorem putDatabase (h : Beside strays ws ws') (label : Label) (d : Database) :
    Beside strays { ws with databases := ws.databases.put label d }
      { ws' with databases := ws'.databases.put label d } :=
  { h with databases := congrArg (·.put label d) h.databases }

theorem putSession (h : Beside strays ws ws') (label : Label) (s : Child Session) :
    Beside strays { ws with sessions := ws.sessions.put label s }
      { ws' with sessions := ws'.sessions.put label s } :=
  { h with sessions := congrArg (·.put label s) h.sessions }

theorem putReader (h : Beside strays ws ws') (label : Label) {r r' : Child Reader}
    (hparent : r'.parent = r.parent) :
    Beside strays { ws with readers := ws.readers.put label r }
      { ws' with readers := ws'.readers.put label r' } := by
  refine { h with readers := ?_ }
  dsimp only
  rw [Table.image_put, Table.image_put, h.readers, hparent]

/-! ### Letting go of everything -/

/-- What each step keeps of both, `List.foldl` keeps. -/
theorem foldl {step : Workspace Memory → Label → Workspace Memory}
    (hstep : ∀ {ws ws'}, Beside strays ws ws' → ∀ label,
      Beside strays (step ws label) (step ws' label))
    (h : Beside strays ws ws') (labels : List Label) :
    Beside strays (labels.foldl step ws) (labels.foldl step ws') := by
  induction labels generalizing ws ws' with
  | nil => exact h
  | cons label labels ih => exact ih (hstep h label)

theorem dropAll (h : Beside strays ws ws') :
    Beside strays (ws.dropAll (Memory.engine parse)) (ws'.dropAll (Memory.engine parse)) := by
  have hkeys : ws'.readers.keys = ws.readers.keys := by
    rw [← Table.keys_image Child.parent, h.readers, Table.keys_image]
  rw [Workspace.dropAll, Workspace.dropAll, hkeys]
  have hreaders := h.foldl (fun h label => h.dropReader parse label) (sortLabels ws.readers.keys)
  rw [hreaders.sessions]
  have hsessions := hreaders.foldl (fun h label => h.dropSession parse label) (sortLabels
    ((sortLabels ws.readers.keys).foldl (Workspace.dropReader (Memory.engine parse)) ws).sessions.keys)
  rw [hsessions.databases]
  exact hsessions.foldl (fun h label => h.dropDatabase parse label) _

/-! ### Commands -/

/-- What is done by `withSession` at a label keeps both `Beside`, if it does so with the session. -/
theorem withSession (h : Beside strays ws ws') {f : Session → World Memory → Answer × World Memory}
    (hf : ∀ s : Session, (f s ws.world).2.engine.Fits →
      World.Beside strays (f s ws.world).2 (f s ws'.world).2)
    (hfits : (ws.withSession label f).2.world.engine.Fits) :
    Beside strays (ws.withSession label f).2 (ws'.withSession label f).2 := by
  obtain ⟨w', readers', rfl, -, hreaders⟩ := h.exists_eq
  rw [Workspace.withSession] at hfits ⊢
  rw [Workspace.withSession]
  dsimp only
  cases hs : ws.sessions.find? label with
  | none => exact h
  | some s =>
    rw [hs] at hfits
    exact ⟨hf s.it hfits, rfl, rfl, hreaders⟩

/-- What is done by `withReader` at a label keeps both `Beside`, if it is reading. -/
theorem withReader (h : Beside strays ws ws')
    {f : Reader → World Memory → Answer × Reader × World Memory}
    (hf : ∀ r w, (Memory.engine parse).Leads r.cursor.Makes w (f r w).2.2) (label : Label) :
    Beside strays (ws.withReader label f).2 (ws'.withReader label f).2 := by
  have hobserved : ∀ (r : Reader) (w : World Memory), w.Observed (f r w).2.2 :=
    fun r w => (hf r w).observed fun _ hcall => hcall.reads
  rw [Workspace.withReader, Workspace.withReader]
  obtain ⟨hnone, hnone'⟩ | ⟨r, r', hr, hr', hparent⟩ := h.reader_cases label
  · rw [hnone, hnone']
    exact h
  · rw [hr, hr']
    refine { h with world := h.world.observed (hobserved _ _) (hobserved _ _), readers := ?_ }
    dsimp only
    rw [Table.image_put, Table.image_put, h.readers, hparent]

theorem openDatabase (h : Beside strays ws ws') (label : Label) (directory : Path) (name : String)
    (settings : OpenSettings) :
    Beside strays (ws.run (Memory.engine parse) (.openDatabase label directory name settings)).2
      (ws'.run (Memory.engine parse) (.openDatabase label directory name settings)).2 := by
  obtain ⟨w', readers', rfl, hworld, hreaders⟩ := h.exists_eq
  obtain ⟨v', hopen, hafter⟩ := (hworld.openAt parse directory name settings).exists_eq
  rw [Workspace.run, Workspace.run]
  dsimp only
  rw [hopen]
  generalize Database.openAt (Memory.engine parse) directory name settings ws.world = opened
    at hafter ⊢
  obtain ⟨failure | d, v⟩ := opened
  · exact ⟨hafter, rfl, rfl, hreaders⟩
  · have hopened : Beside strays { ws with world := v }
        { ws with world := v', readers := readers' } := ⟨hafter, rfl, rfl, hreaders⟩
    exact (hopened.dropDatabase parse label).putDatabase label d

theorem closeDatabase (h : Beside strays ws ws') (label : Label) :
    Beside strays (ws.run (Memory.engine parse) (.closeDatabase label)).2
      (ws'.run (Memory.engine parse) (.closeDatabase label)).2 := by
  have huse := h.databaseInUse_eq label
  obtain ⟨w', readers', rfl, hworld, hreaders⟩ := h.exists_eq
  rw [Workspace.run, Workspace.run, huse]
  dsimp only
  cases ws.databases.find? label with
  | none => exact h
  | some d =>
    dsimp only
    split
    · exact h
    · obtain ⟨hclosed, hafter⟩ := hworld.closeDatabase parse d
      exact ⟨hafter, congrArg (ws.databases.put label) hclosed, rfl, hreaders⟩

theorem closeSession (h : Beside strays ws ws') (label : Label) :
    Beside strays (ws.run (Memory.engine parse) (.closeSession label)).2
      (ws'.run (Memory.engine parse) (.closeSession label)).2 := by
  have huse := h.sessionInUse_eq label
  obtain ⟨w', readers', rfl, hworld, hreaders⟩ := h.exists_eq
  rw [Workspace.run, Workspace.run, huse]
  dsimp only
  cases ws.sessions.find? label with
  | none => exact h
  | some s =>
    dsimp only
    split
    · exact h
    · obtain ⟨hclosed, hafter⟩ := hworld.closeSession parse s.it
      exact ⟨hafter, rfl, congrArg (fun session => ws.sessions.put label { s with it := session })
        hclosed, hreaders⟩

theorem openSession (h : Beside strays ws ws') (label database : Label) :
    Beside strays (ws.openSession (Memory.engine parse) label database).2
      (ws'.openSession (Memory.engine parse) label database).2 := by
  obtain ⟨w', readers', rfl, hworld, hreaders⟩ := h.exists_eq
  rw [Workspace.openSession, Workspace.openSession]
  dsimp only
  cases ws.databases.find? database with
  | none => exact h
  | some d =>
    obtain ⟨v', hsession, hafter⟩ := (hworld.session parse d).exists_eq
    dsimp only
    rw [hsession]
    generalize d.session (Memory.engine parse) ws.world = begun at hafter ⊢
    obtain ⟨failure | session, v⟩ := begun
    · exact ⟨hafter, rfl, rfl, hreaders⟩
    · have hopened : Beside strays { ws with world := v }
          { ws with world := v', readers := readers' } := ⟨hafter, rfl, rfl, hreaders⟩
      exact (hopened.dropSession parse label).putSession label _

theorem openReader (h : Beside strays ws ws') (label session : Label) (source : Source)
    (hfits : (ws.openReader (Memory.engine parse) label session source).2.world.engine.Fits) :
    Beside strays (ws.openReader (Memory.engine parse) label session source).2
      (ws'.openReader (Memory.engine parse) label session source).2 := by
  obtain ⟨w', readers', rfl, hworld, hreaders⟩ := h.exists_eq
  rw [Workspace.openReader] at hfits ⊢
  rw [Workspace.openReader]
  dsimp only
  cases hs : ws.sessions.find? session with
  | none => exact h
  | some s =>
    rw [hs] at hfits
    dsimp only at hfits ⊢
    cases hrender : source.render with
    | error failure => exact h
    | ok text =>
      rw [hrender] at hfits
      dsimp only at hfits ⊢
      have hearlier : (s.it.openCursor (Memory.engine parse) text ws.world).2.engine.Fits := by
        generalize s.it.openCursor (Memory.engine parse) text ws.world = opened at hfits ⊢
        obtain ⟨failure | c, v⟩ := opened
        · exact hfits
        · exact (leads_dropReader parse { ws with world := v } label).fits
            (by rintro _ hcall path rfl; exact hcall.reads) hfits
      obtain ⟨v', hopen, hafter⟩ := (hworld.openCursor parse s.it text hearlier).exists_eq
      rw [hopen]
      generalize s.it.openCursor (Memory.engine parse) text ws.world = opened at hafter ⊢
      obtain ⟨failure | c, v⟩ := opened
      · exact ⟨hafter, rfl, rfl, hreaders⟩
      · have hopened : Beside strays { ws with world := v }
            { ws with world := v', readers := readers' } := ⟨hafter, rfl, rfl, hreaders⟩
        exact (hopened.dropReader parse label).putReader label rfl

/-- **All rows are read** by `readAll`: what comes after the query is seen in feeds only. -/
theorem readAll (h : World.Beside strays w w') (s : Session) (text : String)
    (hfits : (Workspace.readAll (Memory.engine parse) s text w).2.engine.Fits) :
    World.Beside strays (Workspace.readAll (Memory.engine parse) s text w).2
      (Workspace.readAll (Memory.engine parse) s text w').2 := by
  have hasked := h.openCursor parse s text (fits_of_readAll hfits)
  exact hasked.2.observed (observed_readAll parse s text w) (observed_readAll parse s text w')

/-- **A command** keeps workspaces side by side when both `run` it. -/
theorem run (h : Beside strays ws ws') (c : Command)
    (hfits : (ws.run (Memory.engine parse) c).2.world.engine.Fits) :
    Beside strays (ws.run (Memory.engine parse) c).2 (ws'.run (Memory.engine parse) c).2 := by
  cases c with
  | create directory name volumes =>
    exact { h with world := (h.world.create parse directory name volumes).2 }
  | remove directory name => exact { h with world := (h.world.remove parse directory name).2 }
  | openDatabase label directory name settings =>
    exact h.openDatabase parse label directory name settings
  | openSession label database => exact h.openSession parse label database
  | closeDatabase label => exact h.closeDatabase parse label
  | closeSession label => exact h.closeSession parse label
  | dropDatabase label =>
    rw [Workspace.run, Workspace.run, h.databaseInUse_eq, h.databases]
    split
    · exact h
    · split
      · exact h
      · exact h.dropDatabase parse label
  | dropSession label =>
    rw [Workspace.run, Workspace.run, h.sessionInUse_eq, h.sessions]
    split
    · exact h
    · split
      · exact h
      · exact h.dropSession parse label
  | dropReader label =>
    rw [Workspace.run, Workspace.run, h.hasReader_eq]
    split
    · exact h.dropReader parse label
    · exact h
  | write label series timestamp value =>
    exact h.withSession (fun s hfits =>
      (h.world.write parse s series timestamp value hfits).2) hfits
  | writeAt label series time value =>
    exact h.withSession (fun s hfits =>
      (h.world.writeAt parse s series time value hfits).2) hfits
  | writeAll label points =>
    exact h.withSession (fun s hfits => (h.world.writeAll parse s points hfits).2) hfits
  | rows label source =>
    refine h.withSession (fun s => ?_) hfits
    cases source.render with
    | error failure => exact fun _ => h.world
    | ok text => exact readAll parse h.world s text
  | openReader label session source => exact h.openReader parse label session source hfits
  | next label =>
    exact h.withReader parse (fun r w => (r.moves_next _ w).leads) label
  | item label => exact h.withReader parse (fun r w => (r.moves_item _ w).leads) label
  | done label => exact h.withReader parse (fun r w => r.leads_done _ w) label
  | canProceed label => exact h.withReader parse (fun r w => r.leads_canProceed _ w) label
  | closeReader label => exact h.withReader parse (fun r w => r.leads_close _ w) label
  | isClosed label => exact h.withReader parse (fun _ _ => .refl) label
  | dropAll => exact h.dropAll parse

/-- **Whatever both `meet` with** keeps them side by side. -/
theorem meet (h : Beside strays ws ws') (happening : Happening)
    (hfits : (ws.meet parse happening).world.engine.Fits) :
    Beside strays (ws.meet parse happening) (ws'.meet parse happening) := by
  obtain ⟨w', readers', rfl, hworld, hreaders⟩ := h.exists_eq
  cases happening with
  | record message =>
    refine ⟨⟨hworld.engine, hworld.stores, hworld.files, ?_, hworld.delays⟩, rfl, rfl, hreaders⟩
    exact (Channel.panic_reportPanic _ _).trans
      (by rw [hworld.panic]; exact (Channel.panic_reportPanic _ _).symm)
  | event e =>
    cases e with
    | command c => exact h.run parse c hfits
    | files t => exact ⟨⟨hworld.engine, hworld.stores, rfl, hworld.panic, hworld.delays⟩, rfl, rfl, hreaders⟩
    | disturb d => exact ⟨hworld.disturb d, rfl, rfl, hreaders⟩

/-- **Side by side** along a run that both `undergo`, as long as the names of the first `Fits` in
memory. -/
theorem undergo (h : Beside strays ws ws') {happenings : List Happening}
    (hfits : ∀ before, before <+: happenings → (ws.undergo parse before).world.engine.Fits) :
    Beside strays (ws.undergo parse happenings) (ws'.undergo parse happenings) := by
  induction happenings generalizing ws ws' with
  | nil => exact h
  | cons happening later ih =>
    exact ih (h.meet parse happening (hfits [happening] ⟨later, rfl⟩))
      fun before hbefore => hfits (happening :: before) (List.cons_prefix_cons.mpr ⟨rfl, hbefore⟩)

end Beside

end TimeSeries.Workspace
