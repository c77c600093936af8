import TimeSeries.Proofs.Client.Calls
import TimeSeries.Proofs.Client.Runs

/-!
# After a panic

Once an engine has reported a panic it is left alone. That is so for any engine: an operation that
asks for a panic first fails without a call, and what is let go of is not closed. So a command
leaves the whole world as it was (`Workspace.world_run_of_panic`), whatever the handles at its
labels are. A panic that is reported once more changes nothing but the log.

The panic is kept from the first report on. A call to the engine in memory does not report one
(`Memory.panic_ask`), so along a run it is the first that was reported from outside
(`Workspace.panic_undergo`). Main result: `Workspace.world_of_panic`.
-/

namespace TimeSeries

section Frozen

variable {σ : Type} (E : Engine σ) {w : World σ} {message : String}

/-! ### Checks -/

theorem World.check_of_panic (h : w.channel.panic = some message) :
    w.check = .error (.panicked message) := by
  rw [check, h]

theorem World.hasPanic_of_panic (h : w.channel.panic = some message) :
    w.channel.hasPanic = true := by
  rw [Channel.hasPanic, h, Option.isSome_some]

theorem checkHandle_of_panic (h : w.channel.panic = some message) (handle : Option Handle) :
    checkHandle w handle = .error (.panicked message) := by
  unfold checkHandle
  rw [World.check_of_panic h]

/-! ### Databases -/

namespace Database

theorem create_of_panic (h : w.channel.panic = some message) (directory : Path) (name : String)
    (volumes : VolumeSettings) :
    create E directory name volumes w = (.error (.panicked message), w) := by
  rw [create, World.check_of_panic h]
  rfl

theorem openAt_of_panic (h : w.channel.panic = some message) (directory : Path) (name : String)
    (settings : OpenSettings) :
    openAt E directory name settings w = (.error (.panicked message), w) := by
  rw [openAt, World.check_of_panic h]
  rfl

theorem remove_of_panic (h : w.channel.panic = some message) (directory : Path) (name : String) :
    remove E directory name w = (.error (.panicked message), w) := by
  rw [remove, World.check_of_panic h]
  rfl

theorem close_of_panic (h : w.channel.panic = some message) (d : Database) :
    d.close E w = (.error (.panicked message), d, w) := by
  rw [close, World.check_of_panic h]

theorem drop_of_panic (h : w.channel.panic = some message) (d : Database) : d.drop E w = w := by
  rw [drop]
  split
  · rw [if_pos (World.hasPanic_of_panic h)]
  · rfl

theorem session_of_panic (h : w.channel.panic = some message) (d : Database) :
    d.session E w = (.error (.panicked message), w) := by
  rw [session, checkHandle_of_panic h]

end Database

/-! ### Sessions -/

namespace Session

theorem write_of_panic (h : w.channel.panic = some message) (s : Session) (series : String)
    (timestamp : Timestamp) (value : Double) :
    s.write E series timestamp value w = (.error (.panicked message), w) := by
  rw [write, checkHandle_of_panic h]

/-- Calling `writeAt` finds out that an instant has no timestamp even before a panic. -/
theorem writeAt_of_panic (h : w.channel.panic = some message) (s : Session) (series : String)
    (time : Instant) (value : Double) : (s.writeAt E series time value w).2 = w := by
  rw [writeAt]
  split
  · rfl
  · rw [s.write_of_panic E h]

theorem openCursor_of_panic (h : w.channel.panic = some message) (s : Session) (text : String) :
    s.openCursor E text w = (.error (.panicked message), w) := by
  rw [openCursor, checkHandle_of_panic h]

theorem close_of_panic (h : w.channel.panic = some message) (s : Session) :
    s.close E w = (.error (.panicked message), s, w) := by
  rw [close, World.check_of_panic h]

theorem drop_of_panic (h : w.channel.panic = some message) (s : Session) : s.drop E w = w := by
  rw [drop]
  split
  · rw [if_pos (World.hasPanic_of_panic h)]
  · rfl

theorem writeAll_of_panic (h : w.channel.panic = some message) (s : Session)
    (points : List (String × Timestamp × Double)) : (Workspace.writeAll E s points w).2 = w := by
  induction points with
  | nil => rfl
  | cons point points ih => rw [Workspace.writeAll, s.write_of_panic E h, ih]

theorem readAll_of_panic (h : w.channel.panic = some message) (s : Session) (text : String) :
    Workspace.readAll E s text w = (.failed (.panicked message), w) := by
  rw [Workspace.readAll, s.openCursor_of_panic E h]

end Session

/-! ### Cursors -/

namespace Cursor

theorem canProceed_of_panic (h : w.channel.panic = some message) (c : Cursor) :
    c.canProceed E w = (.error (.panicked message), w) := by
  rw [canProceed, World.check_of_panic h]

theorem done_of_panic (h : w.channel.panic = some message) (c : Cursor) :
    c.done E w = (.error (.panicked message), w) := by
  rw [done, World.check_of_panic h]

theorem nextRow_of_panic (h : w.channel.panic = some message) (c : Cursor) :
    c.nextRow E w = (.error (.panicked message), c, w) := by
  rw [nextRow, World.check_of_panic h]

/-- A panic is the last item of `next`. -/
theorem next_of_panic (h : w.channel.panic = some message) (c : Cursor) :
    c.next E w =
      if c.ended then (none, c, w) else (some (.error (.panicked message)), c.finish, w) := by
  rw [next, nextWithin, c.nextRow_of_panic E h]

theorem close_of_panic (h : w.channel.panic = some message) (c : Cursor) :
    c.close E w = (.error (.panicked message), c, w) := by
  rw [close, World.check_of_panic h]

theorem drop_of_panic (h : w.channel.panic = some message) (c : Cursor) : c.drop E w = w := by
  rw [drop]
  split
  · rw [if_pos (World.hasPanic_of_panic h)]
  · rfl

end Cursor

namespace NameCursor

theorem nextNameWithin_of_panic (h : w.channel.panic = some message) (fuel : Nat) (c : Cursor) :
    (nextNameWithin E fuel c w).2.2 = w := by
  cases fuel with
  | zero => rfl
  | succ fuel => rw [nextNameWithin, c.nextRow_of_panic E h]

theorem nextWithin_of_panic (h : w.channel.panic = some message) (fuel : Nat) (c : Cursor) :
    (nextWithin E fuel c w).2.2 = w := by
  cases fuel with
  | zero => rfl
  | succ fuel =>
    rw [nextWithin, c.next_of_panic E h]
    cases c.ended <;> rfl

theorem done_of_panic (h : w.channel.panic = some message) (n : NameCursor) :
    n.done E w = (.error (.panicked message), w) := by
  rw [done, n.rows.canProceed_of_panic E h]

end NameCursor

namespace Reader

theorem next_of_panic (h : w.channel.panic = some message) (r : Reader) :
    (r.next E w).2.2 = w := by
  cases r with
  | rows c => rw [next, c.nextRow_of_panic E h]
  | names n => exact NameCursor.nextNameWithin_of_panic E h (n.rows.budget E w) n.rows

theorem item_of_panic (h : w.channel.panic = some message) (r : Reader) :
    (r.item E w).2.2 = w := by
  cases r with
  | rows c =>
    rw [item, c.next_of_panic E h]
    cases c.ended <;> rfl
  | names n => exact NameCursor.nextWithin_of_panic E h (n.rows.budget E w) n.rows

theorem done_of_panic (h : w.channel.panic = some message) (r : Reader) :
    r.done E w = (.error (.panicked message), w) := by
  cases r with
  | rows c => exact c.done_of_panic E h
  | names n => exact n.done_of_panic E h

theorem canProceed_of_panic (h : w.channel.panic = some message) (r : Reader) :
    r.canProceed E w = (.error (.panicked message), w) := by
  cases r with
  | rows c => exact c.canProceed_of_panic E h
  | names n => exact n.rows.canProceed_of_panic E h

theorem close_of_panic (h : w.channel.panic = some message) (r : Reader) :
    r.close E w = (.error (.panicked message), r, w) := by
  cases r with
  | rows c => rw [close, c.close_of_panic E h]
  | names n => rw [close, NameCursor.close, n.rows.close_of_panic E h]

theorem drop_of_panic (h : w.channel.panic = some message) (r : Reader) : r.drop E w = w := by
  cases r with
  | rows c => exact c.drop_of_panic E h
  | names n => exact n.rows.drop_of_panic E h

end Reader

/-! ### Commands -/

namespace Workspace

variable {ws : Workspace σ}

theorem world_dropDatabase_of_panic (h : ws.world.channel.panic = some message) (label : Label) :
    (ws.dropDatabase E label).world = ws.world := by
  rw [dropDatabase]
  split
  next d _ => exact d.drop_of_panic E h
  · rfl

theorem world_dropSession_of_panic (h : ws.world.channel.panic = some message) (label : Label) :
    (ws.dropSession E label).world = ws.world := by
  rw [dropSession]
  split
  next s _ => exact s.it.drop_of_panic E h
  · rfl

theorem world_dropReader_of_panic (h : ws.world.channel.panic = some message) (label : Label) :
    (ws.dropReader E label).world = ws.world := by
  rw [dropReader]
  split
  next r _ => exact r.it.drop_of_panic E h
  · rfl

/-- What leaves the world alone at one label does so at several. -/
theorem world_foldl_of_panic {f : Workspace σ → Label → Workspace σ}
    (hf : ∀ {v : Workspace σ}, v.world.channel.panic = some message → ∀ label,
      (f v label).world = v.world)
    (labels : List Label) (h : ws.world.channel.panic = some message) :
    (labels.foldl f ws).world = ws.world := by
  induction labels generalizing ws with
  | nil => rfl
  | cons label labels ih =>
    have hstep := hf h label
    rw [List.foldl_cons, ih (hstep ▸ h), hstep]

theorem world_dropAll_of_panic (h : ws.world.channel.panic = some message) :
    (ws.dropAll E).world = ws.world := by
  have hreaders := world_foldl_of_panic (world_dropReader_of_panic E)
    (sortLabels ws.readers.keys) h
  have hsessions := world_foldl_of_panic (world_dropSession_of_panic E)
    (sortLabels ((sortLabels ws.readers.keys).foldl (dropReader E) ws).sessions.keys)
    (hreaders ▸ h)
  rw [dropAll, world_foldl_of_panic (world_dropDatabase_of_panic E) _
    (by rw [hsessions, hreaders, h]), hsessions, hreaders]

theorem world_withSession {label : Label} {f : Session → World σ → Answer × World σ}
    (hf : ∀ s, (f s ws.world).2 = ws.world) : (ws.withSession label f).2.world = ws.world := by
  rw [withSession]
  split
  · rfl
  next s _ => exact hf s.it

theorem world_withReader {label : Label} {f : Reader → World σ → Answer × Reader × World σ}
    (hf : ∀ r, (f r ws.world).2.2 = ws.world) : (ws.withReader label f).2.world = ws.world := by
  rw [withReader]
  split
  · rfl
  next r _ => exact hf r.it

/-- **To `run` a command leaves the world alone** after a panic. -/
theorem world_run_of_panic (h : ws.world.channel.panic = some message) (c : Command) :
    (ws.run E c).2.world = ws.world := by
  cases c with
  | create directory name volumes => rw [run, Database.create_of_panic E h]
  | openDatabase label directory name settings => rw [run, Database.openAt_of_panic E h]
  | remove directory name => rw [run, Database.remove_of_panic E h]
  | openSession label database =>
    rw [run, openSession]
    split
    · rfl
    next d _ => rw [d.session_of_panic E h]
  | closeDatabase label =>
    rw [run]
    split
    · rfl
    next d _ =>
      split
      · rfl
      · rw [d.close_of_panic E h]
  | dropDatabase label =>
    rw [run]
    split
    · rfl
    · split
      · rfl
      · exact world_dropDatabase_of_panic E h label
  | closeSession label =>
    rw [run]
    split
    · rfl
    next s _ =>
      split
      · rfl
      · rw [s.it.close_of_panic E h]
  | dropSession label =>
    rw [run]
    split
    · rfl
    · split
      · rfl
      · exact world_dropSession_of_panic E h label
  | write label series timestamp value =>
    exact world_withSession fun s => by rw [s.write_of_panic E h]
  | writeAt label series time value => exact world_withSession fun s => s.writeAt_of_panic E h ..
  | writeAll label points => exact world_withSession fun s => s.writeAll_of_panic E h points
  | rows label source =>
    refine world_withSession fun s => ?_
    split
    · rfl
    · rw [s.readAll_of_panic E h]
  | openReader label session source =>
    rw [run, openReader]
    split
    · rfl
    next s _ =>
      split
      · rfl
      · rw [s.it.openCursor_of_panic E h]
  | next label => exact world_withReader (Reader.next_of_panic E h)
  | item label => exact world_withReader (Reader.item_of_panic E h)
  | done label => exact world_withReader fun r => by rw [r.done_of_panic E h]
  | canProceed label => exact world_withReader fun r => by rw [r.canProceed_of_panic E h]
  | closeReader label => exact world_withReader fun r => by rw [r.close_of_panic E h]
  | isClosed label => exact world_withReader fun r => rfl
  | dropReader label =>
    rw [run]
    split
    · exact world_dropReader_of_panic E h label
    · rfl
  | dropAll => exact world_dropAll_of_panic E h

end Workspace

end Frozen

/-! ### Reports -/

/-- **Happening**: an `Event`, or a panic that the caller records. -/
inductive Happening : Type where
  /-- an event -/
  | event (e : Event)
  /-- a panic is recorded -/
  | record (message : String)

namespace Happening

/-- The panic that is reported from outside. -/
def report? : Happening → Option String
  | event (.disturb (.raisePanic message)) => some message
  | record message => some message
  | _ => none

/-- **Operations**: commands, and reports of a panic. -/
def IsOperation : Happening → Prop
  | event (.command _) => True
  | event (.disturb (.raisePanic _)) => True
  | record _ => True
  | _ => False

end Happening

theorem Channel.panic_reportPanic (c : Channel) (message : String) :
    (c.reportPanic message).panic = c.panic.or (some message) := by
  rw [reportPanic]
  cases hpanic : c.panic with
  | none => rfl
  | some first => exact hpanic

namespace World

variable {σ : Type} {w w' w'' : World σ}

/-- **Only the log changed**, if anything did. -/
def Noted (w w' : World σ) : Prop := ∃ log, w' = { w with channel := { w.channel with log } }

theorem Noted.refl (w : World σ) : w.Noted w := ⟨w.channel.log, rfl⟩

theorem Noted.trans (h : w.Noted w') (h' : w'.Noted w'') : w.Noted w'' := by
  obtain ⟨log, rfl⟩ := h
  obtain ⟨log', rfl⟩ := h'
  exact ⟨log', rfl⟩

theorem Noted.engine (h : w.Noted w') : w'.engine = w.engine := by
  obtain ⟨log, rfl⟩ := h
  rfl

theorem Noted.files (h : w.Noted w') : w'.files = w.files := by
  obtain ⟨log, rfl⟩ := h
  rfl

theorem Noted.calls (h : w.Noted w') : w'.calls = w.calls := by
  obtain ⟨log, rfl⟩ := h
  rfl

theorem Noted.panic (h : w.Noted w') : w'.channel.panic = w.channel.panic := by
  obtain ⟨log, rfl⟩ := h
  rfl

theorem noted_note (w : World σ) (level : Level) (message : String) :
    w.Noted (w.note level message) := ⟨_, rfl⟩

/-- A `reportPanic` that is not the first is only `Noted`. -/
theorem noted_reportPanic {first : String} (h : w.channel.panic = some first) (message : String) :
    w.Noted (w.reportPanic message) := by
  rw [reportPanic, Channel.reportPanic, h]
  exact ⟨_, rfl⟩

end World

namespace Workspace

variable (parse : String → Option Json)

/-- What a `Happening` makes of a workspace. -/
def meet (ws : Workspace Memory) : Happening → Workspace Memory
  | .event e => ws.react parse e
  | .record message => { ws with world := ws.world.reportPanic message }

/-- What one `Happening` after another makes of a workspace. -/
def undergo (ws : Workspace Memory) (happenings : List Happening) : Workspace Memory :=
  happenings.foldl (meet parse) ws

theorem panic_meet (ws : Workspace Memory) (happening : Happening) :
    (ws.meet parse happening).world.channel.panic =
      ws.world.channel.panic.or happening.report? := by
  cases happening with
  | record message => exact Channel.panic_reportPanic _ _
  | event e =>
    cases e with
    | command c =>
      have hkept := (ws.leads_run parse c).keeps
        (fun call w _ hw => (Memory.panic_ask parse call w).trans hw) rfl
      exact hkept.trans (Option.or_none).symm
    | files t => exact (Option.or_none).symm
    | disturb d =>
      cases d with
      | raisePanic message => exact Channel.panic_reportPanic _ _
      | _ => exact (Option.or_none).symm

/-- **The first `report?` is kept.** -/
theorem panic_undergo (ws : Workspace Memory) (happenings : List Happening) :
    (ws.undergo parse happenings).world.channel.panic =
      ws.world.channel.panic.or (happenings.findSome? Happening.report?) := by
  rw [undergo]
  induction happenings generalizing ws with
  | nil => exact (Option.or_none).symm
  | cons happening happenings ih =>
    rw [List.foldl_cons, ih, panic_meet, Option.or_assoc, List.findSome?_cons]
    cases happening.report? <;> rfl

/-- **An operation only writes to the log** after a panic, as `Noted` says. -/
theorem noted_meet {ws : Workspace Memory} {message : String} {happening : Happening}
    (h : ws.world.channel.panic = some message) (hoperation : happening.IsOperation) :
    ws.world.Noted (ws.meet parse happening).world := by
  cases happening with
  | record later => exact World.noted_reportPanic h later
  | event e =>
    cases e with
    | command c =>
      have hworld : (ws.meet parse (.event (.command c))).world = ws.world :=
        world_run_of_panic (Memory.engine parse) h c
      rw [hworld]
      exact .refl ws.world
    | files t => exact hoperation.elim
    | disturb d =>
      cases d with
      | raisePanic later =>
        -- the engine notes what it reports
        have hnoted := ws.world.noted_note .error later
        exact hnoted.trans (World.noted_reportPanic (hnoted.panic.trans h) later)
      | _ => exact hoperation.elim

/-- So do operations one after another. -/
theorem noted_undergo {ws : Workspace Memory} {message : String} {happenings : List Happening}
    (h : ws.world.channel.panic = some message)
    (hoperations : ∀ happening ∈ happenings, happening.IsOperation) :
    ws.world.Noted (ws.undergo parse happenings).world := by
  induction happenings generalizing ws with
  | nil => exact .refl ws.world
  | cons happening happenings ih =>
    have hstep := noted_meet parse h (hoperations happening List.mem_cons_self)
    exact hstep.trans (ih (hstep.panic.trans h) fun later hlater =>
      hoperations later (List.mem_cons_of_mem happening hlater))

/-- **After a panic the engine is left alone.** If a panic is there after a run, it is the first
that was reported in it; and whatever `later` operations follow, with whatever arguments and on
whatever handles there are, the engine, the files and the calls that were made stay as they were,
and so does the panic. -/
theorem world_of_panic (files : FileTree) (earlier : List Happening) {later : List Happening}
    {message : String} (hoperations : ∀ happening ∈ later, happening.IsOperation)
    (hpanic : ((ofWorld { engine := {}, files }).undergo parse earlier).world.channel.panic =
      some message) :
    earlier.findSome? Happening.report? = some message ∧
    let ws := (ofWorld { engine := {}, files }).undergo parse earlier
    (ws.undergo parse later).world.engine = ws.world.engine ∧
      (ws.undergo parse later).world.files = ws.world.files ∧
      (ws.undergo parse later).world.calls = ws.world.calls ∧
      (ws.undergo parse later).world.channel.panic = some message := by
  have hfirst := (ofWorld { engine := {}, files }).panic_undergo parse earlier
  rw [hpanic] at hfirst
  have hnoted := noted_undergo parse hpanic hoperations
  exact ⟨hfirst.symm, hnoted.engine, hnoted.files, hnoted.calls, hnoted.panic.trans hpanic⟩

/-- A run in which a query is started and then a panic raised; what follows is tried in vain. -/
theorem world_of_panic_corrupt :
    let earlier : List Happening :=
      [.event (.command (.openDatabase "d" ⟨""⟩ "a" {})),
        .event (.command (.openSession "s" "d")),
        .event (.command (.openReader "c" "s" (.text "\x7b"))),
        .event (.disturb (.raisePanic "engine corrupt"))]
    let later : List Happening :=
      [.record "disk failure", .event (.command (.next "c")), .event (.command (.item "c")),
        .event (.command (.write "s" "cpu host=a" 5 ⟨0⟩)), .event (.command (.closeReader "c")),
        .event (.command .dropAll)]
    let files : FileTree := ⟨Table.empty.put ["a.akumuli"] (.file "")⟩
    let ws := (ofWorld { engine := {}, files }).undergo (fun _ => none) earlier
    (∀ happening ∈ later, happening.IsOperation) ∧
      ws.world.channel.panic = some "engine corrupt" ∧ ws.world.calls.length = 3 ∧
      (ws.undergo (fun _ => none) later).world.engine = ws.world.engine ∧
      (ws.undergo (fun _ => none) later).world.calls = ws.world.calls ∧
      (ws.undergo (fun _ => none) later).world.channel.panic = some "engine corrupt" := by
  intro earlier later files ws
  have hoperations : ∀ happening ∈ later, happening.IsOperation := by
    simp [later, Happening.IsOperation]
  have hpanic : ws.world.channel.panic = some "engine corrupt" := panic_undergo _ _ _
  obtain ⟨-, hengine, -, hcalls, hkept⟩ := world_of_panic _ _ _ hoperations hpanic
  exact ⟨hoperations, hpanic, rfl, hengine, hcalls, hkept⟩

end Workspace

end TimeSeries
