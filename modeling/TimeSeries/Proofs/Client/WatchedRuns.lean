import TimeSeries.Proofs.Client.ViewSimulation
import TimeSeries.Proofs.Client.StoreChanges
import TimeSeries.Proofs.Client.Transcripts

/-!
# Runs that are watched

A run from a fresh engine is watched by the view of its own side (`Watched`): a step on the own
side is answered as in the view (`Watched.step`), and a step on the other side is not seen
(`Watched.step_other`). So what is put down of the own side is what the view puts down
(`Watched.transcript_eq`), and a run that is seen whole can go on by what its view permits
(`Watched.permits`).
-/

namespace TimeSeries

/-! ### What is done on the other side -/

section

variable {parse : String → Option Json} {P : Parting} {apart : FileKey → Prop}
  {ws : Workspace Memory} {v : View} {H H' : History} {c : Command} {label : Label}

/-- **The file of `worksOn?` is on the `side?` of the command.** -/
theorem Parted.side_of_worksOn? (h : Parted P ws) {side : Bool} (hside : P.side? c = some side)
    {file : FileKey} (hfile : ws.worksOn? c = some file) : P.files file = side := by
  have hsession : ∀ {l}, P.sessions l = side → ws.file? l = some file → P.files file = side := by
    intro l hl hfile
    obtain ⟨s, hs, hfile⟩ := Option.bind_eq_some_iff.mp hfile
    obtain ⟨d, hd, rfl⟩ := Option.map_eq_some_iff.mp hfile
    rw [h.databases hd, h.sessions hs, hl]
  cases c with
  | create | remove | openDatabase =>
    cases hfile
    exact Parting.side_of_path? hside rfl
  | write | writeAt | writeAll | rows => exact hsession (Option.some.inj hside) hfile
  | openReader => exact hsession (Parting.common_eq_some.mp hside).2 hfile
  | _ => cases hfile

/-- **What `run` does on the other side** the view does not show. -/
theorem Shows.unseen_run (parse : String → Option Json) (h : Shows P apart ws v) (hparted : Parted P ws)
    (horder : InOrder ws H) (hlent : Lent ws) (hside : P.side? c = some false)
    (hallows : ws.Allows (.command c))
    (hpath : ∀ p, c.path? = some p → ∀ place, v.files.walk p = .ok place → apart place) :
    Shows P apart (ws.run (Memory.engine parse) c).2 v := by
  have hall := Parting.ne_dropAll hside
  have hwalk : ∀ p, c.path? = some p → ∀ place, ws.world.files.walk p = .ok place → apart place :=
    fun p hp place hplace => hpath p hp place ((FileTree.walk_eq_ok h.files.directories).mp hplace)
  refine ⟨?_, h.stores.unseen fun file hfile => ?_, h.databases.unseen fun l hl => ?_,
    h.sessions.unseen fun l hl => ?_, h.readers.unseen fun l hl => ?_⟩
  · cases c with
    | create directory name volumes =>
      obtain ⟨w', hcreate, hfiles⟩ := Database.create_files parse directory name horder.panic volumes
      rw [Workspace.run, hcreate]
      dsimp only
      rw [hfiles]
      exact h.files.createDatabase_apart volumes (hwalk _ rfl)
    | remove directory name =>
      obtain ⟨w', hremove, hfiles⟩ := Database.remove_files parse directory name horder.panic
      rw [Workspace.run, hremove]
      dsimp only
      rw [hfiles]
      exact h.files.removeDatabase_apart _ (hwalk _ rfl)
    | _ =>
      rw [Workspace.files_run id]
      exact h.files
  · refine horder.find?_stores_run parse hlent fun hworks => ?_
    cases hfile.symm.trans (hparted.side_of_worksOn? hside hworks)
  · exact Workspace.databases_run hall hallows (.inl fun hlabel => by
      cases hl.symm.trans (Parting.side_of_databaseLabel? hside hlabel))
  · exact Workspace.sessions_run hall hallows (.inl fun hlabel => by
      cases hl.symm.trans (Parting.side_of_sessionLabel? hside hlabel))
  · exact Workspace.readers_run hall fun hlabel => by
      cases hl.symm.trans (Parting.side_of_readerLabel? hside hlabel)

/-- **Readers go on as in `Expecting`**, if the reader that a command is on expects what it then has
in prospect. -/
theorem Expecting.run {v' : View} (h : Expecting P ws v) (horder : InOrder ws H)
    (hafter : InOrder (ws.run (Memory.engine parse) c).2 H') (hlent : Lent ws) (hall : c ≠ .dropAll)
    (hallows : ws.Allows (.command c))
    (hother : ∀ {l}, c.readerLabel? ≠ some l → v'.readers.find? l = v.readers.find? l)
    (hself : ∀ {l r}, P.readers l = true → c.readerLabel? = some l →
      (ws.run (Memory.engine parse) c).2.readers.find? l = some r →
        ∃ b, v'.readers.find? l = some b ∧
          r.it.Expects (ws.run (Memory.engine parse) c).2.world b.it.names b.it.outlook) :
    Expecting P (ws.run (Memory.engine parse) c).2 v' := by
  intro l r hown hr
  by_cases hlabel : c.readerLabel? = some l
  · exact hself hown hlabel hr
  · rw [Workspace.readers_run hall hlabel] at hr
    obtain ⟨b, hb, hexpects⟩ := h _ _ hown hr
    exact ⟨b, (hother hlabel).trans hb,
      horder.expects_run hafter hlent hall hallows hr hlabel hexpects⟩

end

/-! ### Files of the two sides -/

namespace Parting

/-- **What a command names as a file leads `apart`** if and only if the command is on the other
side. -/
def Separates (P : Parting) (apart : FileKey → Prop) (files : FileTree) (c : Command) : Prop :=
  ∀ p, c.path? = some p → ∀ place, files.walk p = .ok place →
    (apart place ↔ P.side? c = some false)

theorem separates_whole (files : FileTree) (c : Command) :
    whole.Separates (fun _ => False) files c := by
  intro p _ place _
  rw [side?_whole]
  exact ⟨False.elim, fun heq => by cases heq⟩

end Parting

section

variable {parse : String → Option Json} {P : Parting} {apart : FileKey → Prop} {files : FileTree}
  {ws : Workspace Memory} {v : View} {c : Command}

namespace Shows

theorem allows_iff (h : Shows P apart ws v) (hparted : Parted P ws) (hside : P.side? c = some true) :
    v.Allows c ↔ ws.Allows (.command c) := by
  cases c with
  | openDatabase label directory name settings =>
    rw [View.Allows, Workspace.Allows,
      h.databaseInUse_eq hparted (Parting.common_eq_some.mp hside).1]
  | openSession label database =>
    rw [View.Allows, Workspace.Allows, h.sessionInUse_eq hparted (Parting.common_eq_some.mp hside).1]
  | _ => exact Iff.rfl

theorem fits (h : Shows P apart ws v) (hfits : ws.world.engine.Fits) : v.Fits := by
  intro file st hst
  obtain ⟨-, st', hst', rfl⟩ := h.stores.of_find? hst
  exact hfits file _ hst'

/-- All names fit in memory if those do that are shown, and everything is shown. -/
theorem fits_of_whole (h : Shows .whole apart ws v) (hfits : v.Fits) : ws.world.engine.Fits := by
  intro file st hst
  obtain ⟨st', hst', rfl⟩ := h.stores.find?_eq_some rfl hst
  exact hfits file _ hst'

end Shows

/-! ### Runs that are watched -/

/-- **A run is watched by a `View`**: all that holds of a workspace and the view of its own side
along a run from an idle engine with some files. -/
structure Watched (parse : String → Option Json) (P : Parting) (apart : FileKey → Prop)
    (files : FileTree) (ws : Workspace Memory) (v : View) : Prop where
  /-- the workspace is reached -/
  reached : ∃ H, Reached parse ws H
  /-- the engine refuses no writes -/
  idle : ws.world.engine.busyWrites = 0
  /-- everything is on its side -/
  parted : Parted P ws
  /-- the view shows the own side -/
  shows : Shows P apart ws v
  /-- readers expect what they have in prospect in the view -/
  expecting : Expecting P ws v
  /-- the directories are those from the beginning -/
  directories : v.files.SameDirectories files

namespace Watched

/-- A run begins with nothing but the files. -/
theorem start (parse : String → Option Json) (P : Parting) (apart : FileKey → Prop)
    (files : FileTree) : Watched parse P apart files (.ofWorld { engine := {}, files }) { files } := by
  refine ⟨⟨_, .start files⟩, rfl, .start P files, ⟨.refl apart files, .empty _ _, .empty _ _,
    .empty _ _, .empty _ _⟩, ?_, fun _ => Iff.rfl⟩
  intro label r _ hr
  cases hr

theorem mirrors (h : Watched parse P apart files ws v) (hside : P.side? c = some true)
    (hseparates : P.Separates apart files c) : MirrorsRun parse P apart ws v c := by
  obtain ⟨H, hreached⟩ := h.reached
  refine h.shows.mirrors parse h.expecting h.parted hreached.inOrder hreached.lent h.idle hside ?_
  intro p hp place hplace happart
  have hwalk := (FileTree.walk_eq_ok h.directories).mp hplace
  cases ((hseparates p hp place hwalk).mp happart).symm.trans hside

/-- **A step on the own side** is answered as `View.run` does. -/
theorem step (h : Watched parse P apart files ws v) (hside : P.side? c = some true)
    (hseparates : P.Separates apart files c) (hallows : ws.Allows (.command c))
    (hfits : (ws.run (Memory.engine parse) c).2.world.engine.Fits) :
    (ws.run (Memory.engine parse) c).1 = (v.run parse c).1 ∧
      Watched parse P apart files (ws.run (Memory.engine parse) c).2 (v.run parse c).2 := by
  have hmirrors := h.mirrors hside hseparates
  obtain ⟨H, hreached⟩ := h.reached
  have hafter := hreached.step (.command c) hallows trivial hfits
  refine ⟨hmirrors.answer hfits, ⟨_, hafter⟩,
    Memory.idle_leads parse (Workspace.leads_run parse ws c) h.idle,
    h.parted.command parse hreached.inOrder hside hallows, hmirrors.shows, ?_,
    fun place => (View.directories_run place).trans (h.directories place)⟩
  by_cases hall : c = .dropAll
  · subst hall
    intro label r _ hr
    rw [Workspace.run, (ws.dropAll_tables _).2.2, Workspace.find?_foldl_sortLabels _ label] at hr
    cases hr
  · exact h.expecting.run hreached.inOrder hafter.inOrder hreached.lent hall hallows
      (View.readers_run hall) (hmirrors.reader hfits)

/-- **A step on the other side** is not seen. -/
theorem step_other (h : Watched parse P apart files ws v) (hside : P.side? c = some false)
    (hseparates : P.Separates apart files c) (hallows : ws.Allows (.command c))
    (hfits : (ws.run (Memory.engine parse) c).2.world.engine.Fits) :
    Watched parse P apart files (ws.run (Memory.engine parse) c).2 v := by
  obtain ⟨H, hreached⟩ := h.reached
  have hafter := hreached.step (.command c) hallows trivial hfits
  refine ⟨⟨_, hafter⟩, Memory.idle_leads parse (Workspace.leads_run parse ws c) h.idle,
    h.parted.command parse hreached.inOrder hside hallows, ?_, ?_, h.directories⟩
  · refine h.shows.unseen_run parse h.parted hreached.inOrder hreached.lent hside hallows ?_
    intro p hp place hplace
    exact (hseparates p hp place ((FileTree.walk_eq_ok h.directories).mp hplace)).mpr hside
  · refine h.expecting.run hreached.inOrder hafter.inOrder hreached.lent (Parting.ne_dropAll hside)
      hallows (fun _ => rfl) fun hown hlabel _ => ?_
    cases hown.symm.trans (Parting.side_of_readerLabel? hside hlabel)

/-- **The `transcript` of the own side** is that of the view, and the view `Permits` it. -/
theorem transcript_eq {α : Type} {steps : List α} (h : Watched parse P apart files ws v)
    (command : α → Command) (hsides : ∀ a ∈ steps, (P.side? (command a)).isSome)
    (hseparates : ∀ a ∈ steps, P.Separates apart files (command a))
    (hpermits : ws.Permits parse (steps.map fun a => .command (command a))) :
    ((ws.transcript parse command steps).filter fun entry =>
        P.side? (command entry.1) = some true) =
        v.transcript parse command (steps.filter fun a => P.side? (command a) = some true) ∧
      v.Permits parse ((steps.filter fun a => P.side? (command a) = some true).map command) := by
  induction steps generalizing ws v with
  | nil => exact ⟨rfl, trivial⟩
  | cons a steps ih =>
    obtain ⟨hallows, -, hfits, hrest⟩ := hpermits
    have hseparate := hseparates a List.mem_cons_self
    obtain ⟨side, hside⟩ := Option.isSome_iff_exists.mp (hsides a List.mem_cons_self)
    have hsides' : ∀ a ∈ steps, (P.side? (command a)).isSome := fun a ha =>
      hsides a (List.mem_cons_of_mem _ ha)
    have hseparates' : ∀ a ∈ steps, P.Separates apart files (command a) := fun a ha =>
      hseparates a (List.mem_cons_of_mem _ ha)
    have hcons : ws.transcript parse command (a :: steps) =
        (a, (ws.run (Memory.engine parse) (command a)).1) ::
          (ws.run (Memory.engine parse) (command a)).2.transcript parse command steps := rfl
    rw [hcons, List.filter_cons, List.filter_cons]
    cases side with
    | true =>
      obtain ⟨hanswer, hwatched⟩ := h.step hside hseparate hallows hfits
      obtain ⟨htranscript, hpermits'⟩ := ih hwatched hsides' hseparates' hrest
      rw [if_pos (decide_eq_true hside), if_pos (decide_eq_true hside)]
      refine ⟨?_, (h.shows.allows_iff h.parted hside).mpr hallows, hwatched.shows.fits hfits, hpermits'⟩
      rw [View.transcript, hanswer, htranscript]
    | false =>
      have hother : ¬decide (P.side? (command a) = some true) = true := by
        rw [hside]
        decide
      rw [if_neg hother, if_neg hother]
      exact ih (h.step_other hside hseparate hallows hfits) hsides' hseparates' hrest

/-- **The `transcript` of a whole run** is that of its view, and the view `Permits` it. -/
theorem transcript_whole {α : Type} {steps : List α}
    (h : Watched parse .whole (fun _ => False) files ws v) (command : α → Command)
    (hpermits : ws.Permits parse (steps.map fun a => .command (command a))) :
    ws.transcript parse command steps = v.transcript parse command steps ∧
      v.Permits parse (steps.map command) := by
  have hall : ∀ {β : Type} (l : List β) (f : β → Command),
      (l.filter fun b => Parting.whole.side? (f b) = some true) = l := fun l f =>
    List.filter_eq_self.mpr fun b _ => decide_eq_true (Parting.side?_whole (f b))
  have htranscript := h.transcript_eq command (fun a _ => by rw [Parting.side?_whole]; rfl)
    (fun a _ => Parting.separates_whole files (command a)) hpermits
  rw [hall _ fun entry : α × Answer => command entry.1, hall _ command] at htranscript
  exact htranscript

/-- **A run can go on** by what its view `Permits`, if the view shows everything. -/
theorem permits {α : Type} {steps : List α}
    (h : Watched parse .whole (fun _ => False) files ws v) (command : α → Command)
    (hpermits : v.Permits parse (steps.map command)) :
    ws.Permits parse (steps.map fun a => .command (command a)) := by
  induction steps generalizing ws v with
  | nil => trivial
  | cons a steps ih =>
    obtain ⟨hallows, hfits, hrest⟩ := hpermits
    have hside := Parting.side?_whole (command a)
    have hseparates := Parting.separates_whole files (command a)
    have hallows' := (h.shows.allows_iff h.parted hside).mp hallows
    have hfits' := (h.mirrors hside hseparates).shows.fits_of_whole hfits
    exact ⟨hallows', trivial, hfits', ih (h.step hside hseparates hallows' hfits').2 hrest⟩

end Watched

end

end TimeSeries
