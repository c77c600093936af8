import TimeSeries.Proofs.Client.HeldHandles

/-!
# Commands as transactions

Every command is made of moves that keep a workspace square: what is opened is asked for and put
under a label, what is closed or dropped is given up, and all other calls are plain. So it takes a
square workspace to a square one by calls that settle, whether it succeeds or fails. Main result:
`Workspace.Square.run`.
-/

namespace TimeSeries

open scoped List

/-! ### Plain calls -/

theorem Call.AsksFor.plain {session : Handle} {cursor : Option Handle} {call : Call}
    (h : call.AsksFor session cursor) : call.Plain := by
  cases call <;> first | exact h.elim | exact ⟨fun _ => rfl, rfl⟩

theorem Call.WritesIn.plain {session : Handle} {call : Call} (h : call.WritesIn session) :
    call.Plain := by
  cases call <;> first | exact h.elim | exact ⟨fun _ => rfl, rfl⟩

/-- The calls with which a session writes are `Plain`. -/
theorem Session.plain_of_writesIn (s : Session) (call : Call)
    (h : ∃ session, s.handle = some session ∧ call.WritesIn session) : call.Plain := by
  obtain ⟨session, -, hcall⟩ := h
  exact hcall.plain

namespace Workspace

variable (parse : String → Option Json) {ws ws' : Workspace Memory} {pending : List Lease}
  {label : Label}

/-! ### Opening -/

/-- **Calling `openAt`**: if it succeeds, what it gives holds what is pending. -/
theorem Square.openAt (h : ws.Square []) (directory : Path) (name : String)
    (settings : OpenSettings) :
    Transacts parse ws
      { ws with
        world := (Database.openAt (Memory.engine parse) directory name settings ws.world).2 }
      ((Database.openAt (Memory.engine parse) directory name settings ws.world).1.toOption.bind
        Database.lease?).toList := by
  rw [Database.openAt]
  split
  · exact h.transacts
  · have hasked := h.ask parse
      (.openDatabase (databasePath directory name) (Database.logFor directory settings)) rfl
    rw [List.append_nil] at hasked
    rcases hresult : (Memory.engine parse).ask (.openDatabase (databasePath directory name)
      (Database.logFor directory settings)) ws.world with ⟨status | handle, w'⟩ <;>
      rw [hresult] at hasked <;> exact hasked

/-- **Calling `session`**: if it succeeds, what it gives is on the database. -/
theorem Square.beginSession (h : ws.Square []) (d : Database) :
    Transacts parse ws { ws with world := (d.session (Memory.engine parse) ws.world).2 }
      ((d.session (Memory.engine parse) ws.world).1.toOption.bind Session.lease?).toList ∧
    ∀ s, (d.session (Memory.engine parse) ws.world).1 = .ok s → ∀ {handle owner},
      s.handle = some handle →
        (d.session (Memory.engine parse) ws.world).2.engine.lending.sessions.find? handle =
          some owner → d.handle = some owner := by
  rw [Database.session]
  cases hchecked : checkHandle ws.world d.handle with
  | error failure => exact ⟨h.transacts, fun s hs => by cases hs⟩
  | ok database =>
    have hasked := h.ask parse (.createSession database) rfl
    have hdeal := Memory.deal_ask parse (.createSession database) ws.world
    rw [List.append_nil] at hasked
    rcases hresult : (Memory.engine parse).ask (.createSession database) ws.world with
      ⟨status | handle, w'⟩ <;> simp only [hresult] at hasked hdeal ⊢
    · exact ⟨hasked, fun s hs => by cases hs⟩
    · refine ⟨hasked, ?_⟩
      rintro s hs handle' owner hhandle howner
      cases hs
      cases hhandle
      obtain rfl : database = owner := Option.some.inj (hdeal.owner_eq.symm.trans howner)
      exact eq_some_of_checkHandle hchecked

/-- **Calling `openCursor`**: if the query is started, what it gives holds what is pending. -/
theorem Square.openCursor (h : ws.Square []) (s : Session) (text : String) :
    Transacts parse ws { ws with world := (s.openCursor (Memory.engine parse) text ws.world).2 }
      ((s.openCursor (Memory.engine parse) text ws.world).1.toOption.bind
        fun c => c.handle.map Lease.cursor).toList := by
  rw [Session.openCursor]
  cases hchecked : checkHandle ws.world s.handle with
  | error failure => exact h.transacts
  | ok session =>
    have hasked := h.ask parse (.query session text) rfl
    rw [List.append_nil] at hasked
    exact hasked

/-! ### Letting go -/

theorem dropDatabase_of_no_panic {σ : Type} (E : Engine σ) {ws : Workspace σ}
    (hpanic : ws.world.channel.panic = none) (label : Label) :
    ws.dropDatabase E label =
      { ws with
        world := ws.world.giveUp E (ws.databases.leaseAt? Database.lease? label)
        databases := ws.databases.erase label } := by
  rw [dropDatabase_eq, dropDatabase, Table.leaseAt?]
  cases ws.databases.find? label with
  | none => rfl
  | some d => simp only [d.drop_eq E hpanic, Option.bind_some]

theorem dropSession_of_no_panic {σ : Type} (E : Engine σ) {ws : Workspace σ}
    (hpanic : ws.world.channel.panic = none) (label : Label) :
    ws.dropSession E label =
      { ws with
        world := ws.world.giveUp E (ws.sessions.leaseAt? (·.it.lease?) label)
        sessions := ws.sessions.erase label } := by
  rw [dropSession_eq, dropSession, Table.leaseAt?]
  cases ws.sessions.find? label with
  | none => rfl
  | some s => simp only [s.it.drop_eq E hpanic, Option.bind_some]

theorem dropReader_of_no_panic {σ : Type} (E : Engine σ) {ws : Workspace σ}
    (hpanic : ws.world.channel.panic = none) (label : Label) :
    ws.dropReader E label =
      { ws with
        world := ws.world.giveUp E (ws.readers.leaseAt? (·.it.lease?) label)
        readers := ws.readers.erase label } := by
  rw [dropReader_eq, dropReader, Table.leaseAt?]
  cases ws.readers.find? label with
  | none => rfl
  | some r => simp only [r.it.drop_eq E hpanic, Option.bind_some]

/-- **A database is released** by `giveUp` and `erase`, from a label that is not in use. -/
theorem Square.releaseDatabase (h : ws.Square []) (hfree : ws.databaseInUse label = false) :
    Transacts parse ws
      { ws with
        world := ws.world.giveUp (Memory.engine parse)
          (ws.databases.leaseAt? Database.lease? label)
        databases := ws.databases.erase label } [] := by
  have htaken := h.takeDatabase hfree
  rw [List.append_nil] at htaken
  have hgiven := htaken.giveUp parse
  exact ⟨hgiven.square, hgiven.settles⟩

/-- **A session is released** by `giveUp` and `erase`. -/
theorem Square.releaseSession (h : ws.Square []) (label : Label) :
    Transacts parse ws
      { ws with
        world := ws.world.giveUp (Memory.engine parse) (ws.sessions.leaseAt? (·.it.lease?) label)
        sessions := ws.sessions.erase label } [] := by
  have htaken := h.takeSession label
  rw [List.append_nil] at htaken
  have hgiven := htaken.giveUp parse
  exact ⟨hgiven.square, hgiven.settles⟩

/-- **A reader is released** by `giveUp` and `erase`. -/
theorem Square.releaseReader (h : ws.Square []) (label : Label) :
    Transacts parse ws
      { ws with
        world := ws.world.giveUp (Memory.engine parse) (ws.readers.leaseAt? (·.it.lease?) label)
        readers := ws.readers.erase label } [] := by
  have htaken := h.takeReader label
  rw [List.append_nil] at htaken
  have hgiven := htaken.giveUp parse
  exact ⟨hgiven.square, hgiven.settles⟩

theorem Square.dropDatabase (h : ws.Square []) (hfree : ws.databaseInUse label = false) :
    Transacts parse ws (ws.dropDatabase (Memory.engine parse) label) [] := by
  rw [dropDatabase_of_no_panic _ h.panic]
  exact h.releaseDatabase parse hfree

theorem Square.dropSession (h : ws.Square []) (label : Label) :
    Transacts parse ws (ws.dropSession (Memory.engine parse) label) [] := by
  rw [dropSession_of_no_panic _ h.panic]
  exact h.releaseSession parse label

theorem Square.dropReader (h : ws.Square []) (label : Label) :
    Transacts parse ws (ws.dropReader (Memory.engine parse) label) [] := by
  rw [dropReader_of_no_panic _ h.panic]
  exact h.releaseReader parse label

/-- **The command `closeDatabase`** leaves what is closed at its label. -/
theorem Square.closeDatabase (h : ws.Square []) (label : Label) :
    Transacts parse ws (ws.run (Memory.engine parse) (.closeDatabase label)).2 [] := by
  rw [run]
  split
  · exact h.transacts
  next d hd =>
    split
    · exact h.transacts
    next hused =>
      have hfree := Bool.eq_false_iff.mpr hused
      have hreleased := h.releaseDatabase parse hfree
      rw [Table.leaseAt?, hd] at hreleased
      rw [d.close_eq _ h.panic]
      refine ⟨?_, hreleased.settles⟩
      exact hreleased.square.putDatabase h.databases fun s hs => label_ne_parent hfree hs

theorem Square.closeSession (h : ws.Square []) (label : Label) :
    Transacts parse ws (ws.run (Memory.engine parse) (.closeSession label)).2 [] := by
  rw [run]
  split
  · exact h.transacts
  next s hs =>
    split
    · exact h.transacts
    · have hreleased := h.releaseSession parse label
      rw [Table.leaseAt?, hs] at hreleased
      rw [s.it.close_eq _ h.panic]
      refine ⟨?_, hreleased.settles⟩
      apply hreleased.square.putSession h.sessions
      rintro handle owner hhandle
      cases hhandle

theorem Square.closeReader (h : ws.Square []) (label : Label) :
    Transacts parse ws (ws.run (Memory.engine parse) (.closeReader label)).2 [] := by
  rw [run, Workspace.withReader]
  split
  · exact h.transacts
  next r hr =>
    have hreleased := h.releaseReader parse label
    rw [Table.leaseAt?, hr] at hreleased
    obtain ⟨r', hclose, hnone⟩ := r.it.close_eq (Memory.engine parse) h.panic
    rw [hclose]
    refine ⟨?_, hreleased.settles⟩
    apply Square.putReader _ h.readers
    dsimp only
    rw [hnone]
    exact hreleased.square

/-! ### Replacing -/

/-- **A database takes the place** of what `dropDatabase` let go of, at a label that is not in
use. -/
theorem Square.replaceDatabase {d : Database} (h : ws.Square d.lease?.toList)
    (hfree : ws.databaseInUse label = false) :
    Transacts parse ws
      { ws.dropDatabase (Memory.engine parse) label with
        databases := (ws.dropDatabase (Memory.engine parse) label).databases.put label d } [] := by
  rw [dropDatabase_of_no_panic _ h.panic]
  have htaken := h.takeDatabase hfree
  have hput : Square { ws with databases := (ws.databases.erase label).put label d } _ :=
    Square.putDatabase (by rw [Table.erase_erase]; exact htaken.perm List.perm_append_comm)
      htaken.databases fun s hs => label_ne_parent hfree hs
  have hgiven := hput.giveUp parse
  exact ⟨hgiven.square, hgiven.settles⟩

/-- **A session takes the place** of what `dropSession` let go of, if it is on its database. -/
theorem Square.replaceSession {s : Child Session} (h : ws.Square s.it.lease?.toList)
    (howned : ∀ {handle owner}, s.it.handle = some handle →
      ws.world.engine.lending.sessions.find? handle = some owner →
        ∃ d, ws.databases.find? s.parent = some d ∧ d.handle = some owner) (label : Label) :
    Transacts parse ws
      { ws.dropSession (Memory.engine parse) label with
        sessions := (ws.dropSession (Memory.engine parse) label).sessions.put label s } [] := by
  rw [dropSession_of_no_panic _ h.panic]
  have htaken := h.takeSession label
  have hput : Square { ws with sessions := (ws.sessions.erase label).put label s } _ :=
    Square.putSession (by rw [Table.erase_erase]; exact htaken.perm List.perm_append_comm)
      htaken.sessions howned
  have hgiven := hput.giveUp parse
  exact ⟨hgiven.square, hgiven.settles⟩

/-- **A reader takes the place** of what `dropReader` let go of. -/
theorem Square.replaceReader {r : Child Reader} (h : ws.Square r.it.lease?.toList)
    (label : Label) :
    Transacts parse ws
      { ws.dropReader (Memory.engine parse) label with
        readers := (ws.dropReader (Memory.engine parse) label).readers.put label r } [] := by
  rw [dropReader_of_no_panic _ h.panic]
  have htaken := h.takeReader label
  have hput : Square { ws with readers := (ws.readers.erase label).put label r } _ :=
    Square.putReader (by rw [Table.erase_erase]; exact htaken.perm List.perm_append_comm)
      htaken.readers
  have hgiven := hput.giveUp parse
  exact ⟨hgiven.square, hgiven.settles⟩

/-! ### Commands -/

theorem Square.openDatabase (h : ws.Square []) {directory : Path} {name : String}
    {settings : OpenSettings} (hfree : ws.databaseInUse label = false) :
    Transacts parse ws
      (ws.run (Memory.engine parse) (.openDatabase label directory name settings)).2 [] := by
  have hopened := h.openAt parse directory name settings
  rw [run]
  rcases hresult : Database.openAt (Memory.engine parse) directory name settings ws.world with
    ⟨failure | d, w'⟩ <;> rw [hresult] at hopened
  · exact hopened
  · exact hopened.trans (hopened.square.replaceDatabase parse hfree)

theorem Square.openSession (h : ws.Square []) (label database : Label) :
    Transacts parse ws (ws.openSession (Memory.engine parse) label database).2 [] := by
  rw [Workspace.openSession]
  split
  · exact h.transacts
  next d hd =>
    obtain ⟨hbegun, howner⟩ := h.beginSession parse d
    rcases hresult : d.session (Memory.engine parse) ws.world with ⟨failure | s, w'⟩ <;>
      rw [hresult] at hbegun howner
    · exact hbegun
    · exact hbegun.trans (Square.replaceSession parse (s := ⟨database, s⟩) hbegun.square
        (fun hhandle hfound => ⟨d, hd, howner s rfl hhandle hfound⟩) label)

theorem Square.openReader (h : ws.Square []) (label session : Label) (source : Source) :
    Transacts parse ws (ws.openReader (Memory.engine parse) label session source).2 [] := by
  rw [Workspace.openReader]
  split
  · exact h.transacts
  next s hs =>
    split
    · exact h.transacts
    next text _ =>
      have hopened := h.openCursor parse s.it text
      rcases hresult : s.it.openCursor (Memory.engine parse) text ws.world with
        ⟨failure | c, w'⟩ <;> rw [hresult] at hopened
      · exact hopened
      · have hreader : (Reader.ofCursor source c).lease? = c.handle.map .cursor := by
          rw [Reader.lease?, Reader.cursor_ofCursor]
        apply hopened.trans
        apply Square.replaceReader parse (r := ⟨session, .ofCursor source c⟩)
        dsimp only
        rw [hreader]
        exact hopened.square

/-- **Calling `readAll`** gives up the cursor in the end. -/
theorem Square.readAll (h : ws.Square []) (s : Session) (text : String) :
    Transacts parse ws
      { ws with world := (readAll (Memory.engine parse) s text ws.world).2 } [] := by
  have hopened := h.openCursor parse s text
  rw [Workspace.readAll]
  rcases hresult : s.openCursor (Memory.engine parse) text ws.world with ⟨failure | c, w'⟩ <;>
    rw [hresult] at hopened
  · exact hopened
  · have hadvances := c.advances_items (Memory.engine parse) w'
    have hread := hopened.trans (hopened.square.asks hadvances.asks fun _ hcall => hcall.plain)
    dsimp only
    rw [Cursor.drop_eq _ hread.square.panic, hadvances.handle_eq]
    exact hread.trans (hread.square.giveUp parse)

/-- **What `withSession` does** that lends and releases nothing. -/
theorem Square.withSession (h : ws.Square []) {f : Session → World Memory → Answer × World Memory}
    (hf : ∀ s, Transacts parse ws { ws with world := (f s ws.world).2 } []) :
    Transacts parse ws (ws.withSession label f).2 [] := by
  rw [Workspace.withSession]
  split
  · exact h.transacts
  next s _ => exact hf s.it

/-- **What `withReader` does** with a reader that stays open or closed, as it is. -/
theorem Square.withReader (h : ws.Square [])
    {f : Reader → World Memory → Answer × Reader × World Memory}
    (hasks : ∀ r w, (Memory.engine parse).Leads r.cursor.Asks w (f r w).2.2)
    (hlease : ∀ r w, (f r w).2.1.lease? = r.lease?) :
    Transacts parse ws (ws.withReader label f).2 [] := by
  rw [Workspace.withReader]
  split
  · exact h.transacts
  next r hr =>
    have hasked := h.asks (hasks r.it ws.world) fun _ hcall => hcall.plain
    have htaken := hasked.square.takeReader label
    rw [Table.leaseAt?, hr, Option.bind_some, ← hlease r.it ws.world] at htaken
    exact ⟨htaken.putReader h.readers, hasked.settles⟩

/-- What `Transacts` at one label does so at several, as long as it keeps what it asks for. -/
theorem Square.foldl {P : Workspace Memory → Prop} {f : Workspace Memory → Label → Workspace Memory}
    (hf : ∀ (v : Workspace Memory) label, v.Square [] → P v →
      Transacts parse v (f v label) [] ∧ P (f v label))
    (labels : List Label) {ws : Workspace Memory} (h : ws.Square []) (hws : P ws) :
    Transacts parse ws (labels.foldl f ws) [] := by
  induction labels generalizing ws with
  | nil => exact h.transacts
  | cons label labels ih =>
    obtain ⟨hstep, hkept⟩ := hf ws label h hws
    exact hstep.trans (ih hstep.square hkept)

/-- **The command `dropAll`**: no database is in use when it is let go of. -/
theorem Square.dropAll (h : ws.Square []) :
    Transacts parse ws (ws.dropAll (Memory.engine parse)) [] := by
  rw [Workspace.dropAll]
  have hread := h.foldl parse (P := fun _ => True)
    (fun v label hv _ => ⟨hv.dropReader parse label, trivial⟩) (sortLabels ws.readers.keys) trivial
  generalize (sortLabels ws.readers.keys).foldl _ ws = v at hread ⊢
  have hended := hread.square.foldl parse (P := fun _ => True)
    (fun v label hv _ => ⟨hv.dropSession parse label, trivial⟩) (sortLabels v.sessions.keys) trivial
  have hnone : ((sortLabels v.sessions.keys).foldl
      (Workspace.dropSession (Memory.engine parse)) v).sessions.values = [] := by
    rw [(foldl_dropSession _ v _).2.1]
    exact Table.values_eq_nil (find?_foldl_sortLabels v.sessions)
  refine (hread.trans hended).trans ?_
  apply hended.square.foldl parse (P := fun v => v.sessions.values = []) _ _ hnone
  intro v label hv hnone
  have hfree : v.databaseInUse label = false := by rw [databaseInUse, hnone]; rfl
  exact ⟨hv.dropDatabase parse hfree, by rwa [sessions_dropDatabase]⟩

/-- **To `run` a command is a transaction**, if `Allows` admits it. -/
theorem Square.run (h : ws.Square []) (c : Command) (hallows : ws.Allows (.command c)) :
    Transacts parse ws (ws.run (Memory.engine parse) c).2 [] := by
  cases c with
  | create directory name volumes =>
    apply h.asks (Database.leads_create _ ws.world directory name volumes)
    rintro call rfl
    exact ⟨fun _ => rfl, rfl⟩
  | remove directory name =>
    apply h.asks (Database.leads_remove _ ws.world directory name)
    rintro call rfl
    exact ⟨fun _ => rfl, rfl⟩
  | openDatabase label directory name settings => exact h.openDatabase parse hallows.1
  | openSession label database => exact h.openSession parse label database
  | openReader label session source => exact h.openReader parse label session source
  | closeDatabase label => exact h.closeDatabase parse label
  | closeSession label => exact h.closeSession parse label
  | closeReader label => exact h.closeReader parse label
  | dropDatabase label =>
    rw [Workspace.run]
    split
    · exact h.transacts
    · split
      · exact h.transacts
      next hused => exact h.dropDatabase parse (Bool.eq_false_iff.mpr hused)
  | dropSession label =>
    rw [Workspace.run]
    split
    · exact h.transacts
    · split
      · exact h.transacts
      · exact h.dropSession parse label
  | dropReader label =>
    rw [Workspace.run]
    split
    · exact h.dropReader parse label
    · exact h.transacts
  | write label series timestamp value =>
    exact h.withSession parse fun s =>
      h.asks (s.leads_write _ ws.world series timestamp value) s.plain_of_writesIn
  | writeAt label series time value =>
    exact h.withSession parse fun s =>
      h.asks (s.leads_writeAt _ ws.world series time value) s.plain_of_writesIn
  | writeAll label points =>
    exact h.withSession parse fun s =>
      h.asks (s.leads_writeAll _ ws.world points) s.plain_of_writesIn
  | rows label source =>
    refine h.withSession parse fun s => ?_
    split
    · exact h.transacts
    next text _ => exact h.readAll parse s text
  | next label =>
    refine h.withReader parse (fun r w => (r.advances_next _ w).asks) fun r w => ?_
    rw [Reader.lease?, (r.advances_next _ w).handle_eq, Reader.lease?]
  | item label =>
    refine h.withReader parse (fun r w => (r.advances_item _ w).asks) fun r w => ?_
    rw [Reader.lease?, (r.advances_item _ w).handle_eq, Reader.lease?]
  | done label => exact h.withReader parse (fun r w => r.asks_done _ w) fun r w => rfl
  | canProceed label => exact h.withReader parse (fun r w => r.asks_canProceed _ w) fun r w => rfl
  | isClosed label => exact h.withReader parse (fun r w => .refl) fun r w => rfl
  | dropAll => exact h.dropAll parse

end Workspace

end TimeSeries
