import TimeSeries.Proofs.Client.WatchedRuns

/-!
# Databases are isolated

All databases share one engine, with one counter of handles and one table for each kind of
handle. Still what is done on one file is never seen in what is answered on another: if all
commands on the one side are left out of a run, those on the other are answered as they were
(`Workspace.transcript_of_parting`), though their handles have other numbers then. Both runs are
watched by the same view, and in a view there are no handles.
-/

namespace TimeSeries

/-! ### Files of the two sides -/

namespace Parting

/-- **The two sides of a `Parting` do not meet**: no file of the own side that is named in a run is
at the same place as one of the other side. -/
def Divides (P : Parting) (files : FileTree) (commands : List Command) : Prop :=
  ∀ c ∈ commands, ∀ c' ∈ commands, ∀ p p' place, c.path? = some p → c'.path? = some p' →
    P.files p.key = true → P.files p'.key = false →
      files.walk p = .ok place → files.walk p' ≠ .ok place

/-- The two sides do not meet if `walk` leads every path to the place that its components name. -/
theorem divides_of_walk {P : Parting} {files : FileTree} {commands : List Command}
    (h : ∀ c ∈ commands, ∀ p ∈ c.path?, files.walk p = .ok p.key) : P.Divides files commands := by
  intro c hc c' hc' p p' place hp hp' hown hother hplace hplace'
  obtain rfl := Except.ok.inj ((h c hc p hp).symm.trans hplace)
  have hkey := Except.ok.inj ((h c' hc' p' hp').symm.trans hplace')
  rw [hkey, hown] at hother
  cases hother

/-- A place to which a path leads that is named on the other side of a run. -/
def OtherPlace (P : Parting) (files : FileTree) (commands : List Command) (place : FileKey) : Prop :=
  ∃ c ∈ commands, ∃ p, c.path? = some p ∧ P.files p.key = false ∧ files.walk p = .ok place

theorem Divides.separates {P : Parting} {files : FileTree} {commands : List Command}
    (h : P.Divides files commands) (hsides : ∀ c ∈ commands, (P.side? c).isSome) {c : Command}
    (hc : c ∈ commands) : P.Separates (P.OtherPlace files commands) files c := by
  intro p hp place hplace
  obtain ⟨side, hside⟩ := Option.isSome_iff_exists.mp (hsides c hc)
  have hfile := side_of_path? hside hp
  rw [hside]
  constructor
  · rintro ⟨c', hc', p', hp', hfile', hplace'⟩
    cases side with
    | true => exact absurd hplace' (h c hc c' hc' p p' place hp hp' hfile hfile' hplace)
    | false => rfl
  · rintro ⟨⟩
    exact ⟨c, hc, p, hp, hfile, hplace⟩

end Parting

/-! ### Isolation -/

/-- **Databases are isolated**: in a run from a fresh engine in which every command has a `side?`,
what is answered on the own side is answered as well if all that is done on the other side is left
out, however the two are interleaved, as long as the parting `Divides` the files: no path of the one
side leads to where one of the other side does. -/
theorem Workspace.transcript_of_parting (parse : String → Option Json) (P : Parting)
    (files : FileTree) (commands : List Command) (hsides : ∀ c ∈ commands, (P.side? c).isSome)
    (hdivides : P.Divides files commands)
    (hpermits : (ofWorld { engine := {}, files }).Permits parse (commands.map .command)) :
    ((ofWorld { engine := {}, files }).transcript parse id commands).filter
        (fun step => P.side? step.1 = some true) =
      (ofWorld { engine := {}, files }).transcript parse id
        (commands.filter fun c => P.side? c = some true) := by
  have hwatched := Watched.start parse P (P.OtherPlace files commands) files
  obtain ⟨htranscript, hpermits'⟩ := hwatched.transcript_eq id hsides
    (fun c hc => hdivides.separates hsides hc) hpermits
  -- the run without the other side is watched by the same view, which shows all of it
  have halone := Watched.start parse .whole (fun _ => False) files
  exact htranscript.trans (halone.transcript_whole id (halone.permits id hpermits')).1.symm

/-- Two databases are created, opened, written to under the same name, read from, dropped and
removed by turns. -/
theorem Workspace.transcript_of_two_databases :
    let parse : String → Option Json := fun _ => some (.object [("select", .text "cpu")])
    let P : Parting := ⟨(· == "d"), (· == "s"), (· == "r"), (· == ["a.akumuli"])⟩
    let commands : List Command := [.create ⟨""⟩ "a" {}, .create ⟨""⟩ "b" {},
      .openDatabase "e" ⟨""⟩ "b" {}, .openDatabase "d" ⟨""⟩ "a" {}, .openSession "s" "d",
      .openSession "t" "e", .write "t" "cpu host=b" 4 (.ofWord 1),
      .write "s" "cpu host=a" 5 (.ofWord 2), .openReader "r" "s" (.text ""),
      .write "t" "cpu host=a" 6 (.ofWord 3), .item "r", .rows "s" (.text ""), .dropSession "t",
      .dropDatabase "e", .remove ⟨""⟩ "b", .next "r", .remove ⟨""⟩ "a", .dropAll,
      .remove ⟨""⟩ "a"]
    let ws : Workspace Memory := .ofWorld { engine := {}, files := {} }
    (∀ c ∈ commands, (P.side? c).isSome) ∧ P.Divides {} commands ∧
      ws.Permits parse (commands.map .command) ∧
      (ws.transcript parse id commands).filter (fun step => P.side? step.1 = some true) =
        ws.transcript parse id (commands.filter fun c => P.side? c = some true) := by
  intro parse P commands ws
  have hsides : ∀ c ∈ commands, (P.side? c).isSome := by decide +kernel
  have hdivides : P.Divides {} commands := Parting.divides_of_walk (by decide +kernel)
  have hview : View.Permits parse { files := {} } commands := by decide +kernel
  have hpermits : ws.Permits parse (commands.map .command) :=
    (Watched.start parse .whole (fun _ => False) {}).permits id ((List.map_id commands).symm ▸ hview)
  exact ⟨hsides, hdivides, hpermits,
    transcript_of_parting parse P {} commands hsides hdivides hpermits⟩

end TimeSeries
