import TimeSeries.Proofs.Client.WriteAttempts
import TimeSeries.Proofs.Client.Labels

/-!
# Settings along a run

The settings of a database are checked when it is opened, and its sessions have them from it. So
along every run in which a caller keeps to what it is allowed all settings are usable, whatever
becomes of the engine (`Workspace.Equipped.undergo`): every cursor has a buffer for the largest
record.
-/

namespace TimeSeries

section Operations

variable {σ : Type} (E : Engine σ) (d : Database) (s : Session) (w : World σ)

theorem Database.settings_session {s : Session} (h : (d.session E w).1 = .ok s) :
    s.settings = d.settings := by
  rw [Database.session] at h
  split at h
  · cases h
  next handle _ =>
    rcases hasked : E.ask (.createSession handle) w with ⟨status | session, w'⟩ <;>
      rw [hasked] at h <;> cases h
    rfl

theorem Database.settings_close : (d.close E w).2.1.settings = d.settings := by
  rw [Database.close]
  split <;> rfl

theorem Session.settings_close : (s.close E w).2.1.settings = s.settings := by
  rw [Session.close]
  split <;> rfl

end Operations

namespace Workspace

/-- **Equipped workspaces**: all settings are `Usable`. -/
structure Equipped (ws : Workspace Memory) : Prop where
  /-- those of databases are -/
  databases : ∀ label d, ws.databases.find? label = some d → d.settings.Usable
  /-- those of sessions are -/
  sessions : ∀ label s, ws.sessions.find? label = some s → s.it.settings.Usable

namespace Equipped

variable (parse : String → Option Json) {ws ws' : Workspace Memory} {label : Label}

theorem ofWorld (w : World Memory) : Equipped (.ofWorld w) :=
  ⟨fun _ _ h => (by cases h), fun _ _ h => (by cases h)⟩

/-- What was there before is `Usable`. -/
theorem of_found (h : ws.Equipped)
    (hdatabases : ∀ label d, ws'.databases.find? label = some d →
      ws.databases.find? label = some d)
    (hsessions : ∀ label s, ws'.sessions.find? label = some s →
      ws.sessions.find? label = some s) : ws'.Equipped :=
  ⟨fun label d hd => h.databases label d (hdatabases label d hd),
    fun label s hs => h.sessions label s (hsessions label s hs)⟩

/-- Only databases and sessions matter. -/
theorem same (h : ws.Equipped) (hdatabases : ws'.databases = ws.databases)
    (hsessions : ws'.sessions = ws.sessions) : ws'.Equipped :=
  h.of_found (fun _ _ hd => hdatabases ▸ hd) fun _ _ hs => hsessions ▸ hs

theorem putDatabase (h : ws.Equipped) (label : Label) {d : Database} (hd : d.settings.Usable) :
    Equipped { ws with databases := ws.databases.put label d } := by
  refine ⟨fun l d' hd' => ?_, h.sessions⟩
  obtain ⟨-, rfl⟩ | hd' := Table.find?_put_eq_some hd'
  · exact hd
  · exact h.databases l d' hd'

theorem putSession (h : ws.Equipped) (label : Label) {s : Child Session}
    (hs : s.it.settings.Usable) :
    Equipped { ws with sessions := ws.sessions.put label s } := by
  refine ⟨h.databases, fun l s' hs' => ?_⟩
  obtain ⟨-, rfl⟩ | hs' := Table.find?_put_eq_some hs'
  · exact hs
  · exact h.sessions l s' hs'

theorem dropDatabase (h : ws.Equipped) (label : Label) :
    (ws.dropDatabase (Memory.engine parse) label).Equipped := by
  refine h.of_found (fun l d hd => ?_) fun l s hs => ?_
  · rw [databases_dropDatabase] at hd
    exact Table.find?_erase_eq_some hd
  · rwa [sessions_dropDatabase] at hs

theorem dropSession (h : ws.Equipped) (label : Label) :
    (ws.dropSession (Memory.engine parse) label).Equipped := by
  refine h.of_found (fun l d hd => ?_) fun l s hs => ?_
  · rwa [databases_dropSession] at hd
  · rw [sessions_dropSession] at hs
    exact Table.find?_erase_eq_some hs

theorem openDatabase (h : ws.Equipped) (label : Label) (directory : Path) (name : String)
    {settings : OpenSettings} (hword : settings.buffer < UInt64.size) :
    (ws.run (Memory.engine parse) (.openDatabase label directory name settings)).2.Equipped := by
  rw [run]
  obtain ⟨failure, w', hopen, -⟩ | ⟨w', hopen, hcheck, -⟩ :=
    Database.openAt_becomes parse directory name settings ws.world <;> rw [hopen]
  · exact h.same rfl rfl
  · have hopened : Equipped { ws with world := w' } := h.same rfl rfl
    exact (hopened.dropDatabase parse label).putDatabase label
      (OpenSettings.usable_of_check hcheck hword)

theorem openSession (h : ws.Equipped) (label database : Label) :
    (ws.openSession (Memory.engine parse) label database).2.Equipped := by
  rw [Workspace.openSession]
  cases hd : ws.databases.find? database with
  | none => exact h
  | some d =>
    dsimp only
    rcases hbegun : d.session (Memory.engine parse) ws.world with ⟨failure | session, w'⟩
    · exact h.same rfl rfl
    · have hsettings : session.settings = d.settings :=
        d.settings_session (Memory.engine parse) ws.world (by rw [hbegun])
      have hopened : Equipped { ws with world := w' } := h.same rfl rfl
      exact (hopened.dropSession parse label).putSession label
        (hsettings ▸ h.databases database d hd)

theorem closeDatabase (h : ws.Equipped) (label : Label) :
    (ws.run (Memory.engine parse) (.closeDatabase label)).2.Equipped := by
  rw [Workspace.run]
  cases hd : ws.databases.find? label with
  | none => exact h
  | some d =>
    dsimp only
    split
    · exact h
    · have hclosed := d.settings_close (Memory.engine parse) ws.world
      have hafter : Equipped { ws with world := (d.close (Memory.engine parse) ws.world).2.2 } :=
        h.same rfl rfl
      exact hafter.putDatabase label (hclosed ▸ h.databases label d hd)

theorem closeSession (h : ws.Equipped) (label : Label) :
    (ws.run (Memory.engine parse) (.closeSession label)).2.Equipped := by
  rw [Workspace.run]
  cases hs : ws.sessions.find? label with
  | none => exact h
  | some s =>
    dsimp only
    split
    · exact h
    · have hclosed := s.it.settings_close (Memory.engine parse) ws.world
      have hafter :
          Equipped { ws with world := (s.it.close (Memory.engine parse) ws.world).2.2 } :=
        h.same rfl rfl
      exact hafter.putSession label (hclosed ▸ h.sessions label s hs)

theorem dropAll (h : ws.Equipped) :
    (ws.dropAll (Memory.engine parse)).Equipped := by
  obtain ⟨hdatabases, hsessions, -⟩ := dropAll_tables (Memory.engine parse) ws
  refine h.of_found (fun l d hd => ?_) fun l s hs => ?_
  · have hnone := find?_foldl_sortLabels ws.databases l
    rw [← hdatabases] at hnone
    cases hnone.symm.trans hd
  · have hnone := find?_foldl_sortLabels ws.sessions l
    rw [← hsessions] at hnone
    cases hnone.symm.trans hs

/-- **To `run` a command that `Allows` admits** keeps a workspace `Equipped`. -/
theorem run (h : ws.Equipped) (c : Command) (hallows : ws.Allows (.command c)) :
    (ws.run (Memory.engine parse) c).2.Equipped := by
  have hsession : ∀ {label f}, (ws.withSession label f).2.Equipped := fun {_ _} =>
    h.same databases_withSession sessions_withSession
  have hreader : ∀ {label f}, (ws.withReader label f).2.Equipped := fun {_ _} =>
    h.same databases_withReader sessions_withReader
  cases c with
  | create directory name volumes => exact h.same rfl rfl
  | remove directory name => exact h.same rfl rfl
  | openDatabase label directory name settings =>
    exact h.openDatabase parse label directory name hallows.2
  | openSession label database => exact h.openSession parse label database
  | closeDatabase label => exact h.closeDatabase parse label
  | closeSession label => exact h.closeSession parse label
  | dropDatabase label =>
    rw [Workspace.run]
    split
    · exact h
    · split
      · exact h
      · exact h.dropDatabase parse label
  | dropSession label =>
    rw [Workspace.run]
    split
    · exact h
    · split
      · exact h
      · exact h.dropSession parse label
  | dropReader label =>
    rw [Workspace.run]
    split
    · exact h.same (databases_dropReader _) (sessions_dropReader _)
    · exact h
  | dropAll => exact h.dropAll parse
  | openReader label session source =>
    exact h.same (databases_openReader _) (sessions_openReader _)
  | write | writeAt | writeAll | rows => exact hsession
  | next | item | done | canProceed | closeReader | isClosed => exact hreader

/-- **Along a run** that `Obeys` what a caller is allowed all settings stay `Usable`. -/
theorem undergo (h : ws.Equipped) {happenings : List Happening}
    (hobeys : ws.Obeys parse happenings) : (ws.undergo parse happenings).Equipped := by
  induction happenings generalizing ws with
  | nil => exact h
  | cons happening later ih =>
    refine ih ?_ hobeys.2
    cases happening with
    | record message => exact h.same rfl rfl
    | event e =>
      cases e with
      | command c => exact h.run parse c (hobeys.1 _ rfl)
      | files t => exact h.same rfl rfl
      | disturb d => exact h.same rfl rfl

end Equipped

theorem Arises.equipped {parse : String → Option Json} {ws : Workspace Memory}
    (h : ws.Arises parse) : ws.Equipped := by
  obtain ⟨files, happenings, hobeys, rfl, -⟩ := h
  exact (Equipped.ofWorld _).undergo parse hobeys

end Workspace

end TimeSeries
