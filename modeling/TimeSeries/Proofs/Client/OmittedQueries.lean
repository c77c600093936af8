import TimeSeries.Proofs.Client.EquivalentStores
import TimeSeries.Proofs.Client.WatchedRuns

/-!
# Queries that are left out

Queries leave traces in a store, names and the ids that they use up, but nobody sees them: if
queries are left out of a run, with all that is read of them, what is answered to the other steps
stays as it was (`Workspace.transcript_of_deletion`). The run as it is and the run without them are
watched by two views that go side by side and are alike (`View.Alike`): a step that both take keeps
them alike and is answered alike (`View.Alike.step`), and so does a query that only one of them
takes (`View.Alike.query_left`).
-/

namespace TimeSeries

/-- **Queries**: `rows` and the like, of which all rows are read at once, and all that is done with
readers. -/
def Command.isQuery : Command → Bool
  | rows .. => true
  | c => c.readerLabel?.isSome

/-! ### Views that answer alike -/

namespace View

/-- **Alike views**: nothing but what queries leave behind tells one from the other. The stores are
`Store.Alike`, and of the readers of the first the second has those that are kept. -/
structure Alike (kept : Label → Bool) (v v' : View) : Prop where
  /-- the files are the same -/
  files : v'.files = v.files
  /-- the databases are the same -/
  databases : v'.databases = v.databases
  /-- the sessions are the same -/
  sessions : v'.sessions = v.sessions
  /-- the stores are alike -/
  stores : v.stores.Shown (fun _ => true) Store.Alike v'.stores
  /-- the readers are those that are kept -/
  readers : v.readers.Shown kept (fun r r' => r' = r) v'.readers

/-- **Alike results**: the same answer, and views that are `Alike`. -/
def AlikeResult (kept : Label → Bool) (result result' : Answer × View) : Prop :=
  result'.1 = result.1 ∧ result.2.Alike kept result'.2

variable {parse : String → Option Json} {kept : Label → Bool} {v v' : View} {c : Command}
  {label : Label}

/-- **What becomes of a view by a query**: a store gets what `query` leaves in it. -/
theorem run_of_isQuery (hc : c.isQuery = true) :
    ∃ stores readers, (v.run parse c).2 = { v with stores, readers } ∧
      (stores = v.stores ∨ ∃ s file st document,
        v.store? s = some (file, st) ∧ stores = v.stores.put file (st.query document).2) := by
  cases c with
  | rows label source =>
    rw [run, inSession]
    split
    · exact ⟨_, _, rfl, .inl rfl⟩
    next s _ =>
      split
      · exact ⟨_, _, rfl, .inl rfl⟩
      next file st hstore =>
        refine ⟨_, _, rfl, .inr ⟨s, file, st, ?_⟩⟩
        cases hrender : source.render with
        | error failure => exact ⟨none, hstore, by simp only [Command.serve, hrender, Store.query]⟩
        | ok text => exact ⟨parse text, hstore, by simp only [Command.serve, hrender]⟩
  | openReader label session source =>
    rw [run, openReader]
    split
    · exact ⟨_, _, rfl, .inl rfl⟩
    next s _ =>
      split
      · exact ⟨_, _, rfl, .inl rfl⟩
      next text _ =>
        split
        · exact ⟨_, _, rfl, .inl rfl⟩
        next file st hstore => exact ⟨_, _, rfl, .inr ⟨s, file, st, parse text, hstore, rfl⟩⟩
  | next | item | done | canProceed | closeReader | isClosed =>
    rw [run, withReader]
    split <;> exact ⟨_, _, rfl, .inl rfl⟩
  | dropReader =>
    rw [run]
    split <;> exact ⟨_, _, rfl, .inl rfl⟩
  | _ => cases hc

namespace Alike

theorem start (kept : Label → Bool) (files : FileTree) : Alike kept { files } { files } := by
  refine ⟨rfl, rfl, rfl, .empty _ _, .empty _ _⟩

/-- A reader that is kept is in both. -/
theorem reader_eq (h : v.Alike kept v') (hkept : kept label = true) :
    v'.readers.find? label = v.readers.find? label := by
  cases hr : v.readers.find? label with
  | none => exact h.readers.find?_eq_none hkept hr
  | some r =>
    obtain ⟨_, hr', rfl⟩ := h.readers.find?_eq_some hkept hr
    exact hr'

/-- A session without readers has none in the second either. -/
theorem sessionInUse (h : v.Alike kept v') (hfree : v.sessionInUse label = false) :
    v'.sessionInUse label = false := by
  by_contra hused
  obtain ⟨l, r, hr, hparent⟩ := Table.holds_iff.mp (Bool.eq_true_of_not_eq_false hused)
  obtain ⟨-, _, hr', rfl⟩ := h.readers.of_find? hr
  have hused' : v.sessionInUse label = true := Table.holds_iff.mpr ⟨l, _, hr', hparent⟩
  cases hfree.symm.trans hused'

/-- **A session works on stores that are `Alike`**, if it works on any. -/
theorem store?_cases (h : v.Alike kept v') (s : Child SessionView) :
    v.store? s = none ∧ v'.store? s = none ∨
      ∃ file st st', v.store? s = some (file, st) ∧ v'.store? s = some (file, st') ∧
        v'.stores.find? file = some st' ∧ st.Alike st' := by
  rw [store?, store?, h.databases]
  split
  · cases v.databases.find? s.parent with
    | none => exact .inl ⟨rfl, rfl⟩
    | some d =>
      have hstores := h.stores.shown (k := d.file.key) rfl
      simp only [Option.bind_some]
      generalize v.stores.find? d.file.key = found, hfind : v'.stores.find? d.file.key = found'
        at hstores
      cases hstores with
      | none => exact .inl ⟨rfl, rfl⟩
      | some halike => exact .inr ⟨_, _, _, rfl, rfl, hfind, halike⟩
  · exact .inl ⟨rfl, rfl⟩

theorem allows (h : v.Alike kept v') (hallows : v.Allows c) : v'.Allows c := by
  cases c with
  | openDatabase label directory name settings =>
    rw [Allows, databaseInUse, h.sessions]
    exact hallows
  | openSession label database => exact h.sessionInUse hallows
  | _ => trivial

theorem fits (h : v.Alike kept v') (hfits : v.Fits) : v'.Fits := by
  intro file st' hst'
  obtain ⟨-, st, hst, halike⟩ := h.stores.of_find? hst'
  exact halike.countable (hfits file st hst)

/-! ### A query that is left out -/

/-- **A query that the first takes alone** is not noticed. -/
theorem query_left (h : v.Alike kept v') (hc : c.isQuery = true)
    (hleft : ∀ l, c.readerLabel? = some l → kept l = false) (hfits : (v.run parse c).2.Fits) :
    (v.run parse c).2.Alike kept v' := by
  have hall : c ≠ .dropAll := by rintro rfl; cases hc
  have hreaders : (v.run parse c).2.readers.Shown kept (fun r r' => r' = r) v'.readers :=
    h.readers.unseen fun l hl => readers_run hall fun hlabel => by
      cases hl.symm.trans (hleft l hlabel)
  obtain ⟨stores, readers, hrun, hstores⟩ := @run_of_isQuery parse v c hc
  rw [hrun] at hreaders hfits ⊢
  refine ⟨h.files, h.databases, h.sessions, ?_, hreaders⟩
  obtain rfl | ⟨s, file, st, document, hstore, rfl⟩ := hstores
  · exact h.stores
  · obtain ⟨hnone, -⟩ | ⟨_, _, st', hstore', -, hst', halike⟩ := h.store?_cases s
    · cases hnone.symm.trans hstore
    · cases hstore'.symm.trans hstore
      exact h.stores.put_left hst'
        (halike.query_left document (hfits file _ (Table.find?_put_self _ _ _)))

/-! ### A step that both take -/

/-- What `inSession` does is done alike. -/
theorem inSession (h : v.Alike kept v') (hfits : (v.inSession parse label c).2.Fits) :
    AlikeResult kept (v.inSession parse label c) (v'.inSession parse label c) := by
  rw [View.inSession, View.inSession, h.sessions]
  rw [View.inSession] at hfits
  cases hs : v.sessions.find? label with
  | none => exact ⟨rfl, h⟩
  | some s =>
    obtain ⟨hstore, hstore'⟩ | ⟨file, st, st', hstore, hstore', -, halike⟩ := h.store?_cases s
    · simp only [hstore, hstore']
      exact ⟨rfl, h⟩
    · simp only [hs, hstore, hstore'] at hfits ⊢
      obtain ⟨hanswer, hserved⟩ :=
        halike.serve parse c (hfits file _ (Table.find?_put_self _ _ _))
      exact ⟨hanswer, h.files, h.databases, rfl, h.stores.put rfl hserved, h.readers⟩

/-- What `withReader` does with a reader that is kept is done alike. -/
theorem withReader (h : v.Alike kept v') (hkept : kept label = true) :
    AlikeResult kept (v.withReader label c) (v'.withReader label c) := by
  rw [View.withReader, View.withReader, h.reader_eq hkept]
  split
  · exact ⟨rfl, h⟩
  · exact ⟨rfl, h.files, h.databases, h.sessions, h.stores, h.readers.put hkept rfl⟩

/-- The command `openReader` starts a query alike under a label that is kept. -/
theorem openReader {session : Label} {source : Source} (h : v.Alike kept v')
    (hkept : kept label = true) (hfits : (v.openReader parse label session source).2.Fits) :
    AlikeResult kept (v.openReader parse label session source)
      (v'.openReader parse label session source) := by
  rw [View.openReader, View.openReader, h.sessions]
  rw [View.openReader] at hfits
  cases hs : v.sessions.find? session with
  | none => exact ⟨rfl, h⟩
  | some s =>
    cases hrender : source.render with
    | error failure => exact ⟨rfl, h⟩
    | ok text =>
      obtain ⟨hstore, hstore'⟩ | ⟨file, st, st', hstore, hstore', -, halike⟩ := h.store?_cases s
      · simp only [hstore, hstore']
        exact ⟨rfl, h⟩
      · simp only [hs, hrender, hstore, hstore'] at hfits ⊢
        obtain ⟨hprospect, hserved⟩ :=
          halike.query (parse text) (hfits file _ (Table.find?_put_self _ _ _))
        exact ⟨rfl, h.files, h.databases, rfl, h.stores.put rfl hserved,
          (h.readers.erase label).put hkept (by rw [hprospect])⟩

/-- **A step that both take** is answered alike, unless the answer is `borrowed`: something depends
on what was to be closed. -/
theorem step (h : v.Alike kept v') (hkept : ∀ l, c.readerLabel? = some l → kept l = true)
    (hborrowed : (v.run parse c).1 ≠ .borrowed) (hfits : (v.run parse c).2.Fits) :
    AlikeResult kept (v.run parse c) (v'.run parse c) := by
  have hfiles := h.files
  have hdatabases := h.databases
  have hsessions := h.sessions
  have hinUse : ∀ l, v'.databaseInUse l = v.databaseInUse l := fun l => by
    rw [databaseInUse, databaseInUse, hsessions]
  cases c with
  | write l | writeAt l | writeAll l | rows l => exact h.inSession hfits
  | next l | item l | done l | canProceed l | closeReader l | isClosed l =>
    exact h.withReader (hkept l rfl)
  | openReader l session source => exact h.openReader (hkept l rfl) hfits
  | create directory name volumes =>
    rw [run, run, hfiles]
    exact ⟨rfl, rfl, hdatabases, hsessions, h.stores, h.readers⟩
  | openDatabase l directory name settings =>
    rw [run, run, hfiles]
    split
    · exact ⟨rfl, h⟩
    · rw [hdatabases, h.stores.has_eq rfl]
      refine ⟨rfl, rfl, rfl, hsessions, ?_, h.readers⟩
      dsimp only
      split
      · exact h.stores
      · exact h.stores.put rfl .empty
  | remove directory name =>
    have hopen : ∀ file, v'.isOpenOn file = v.isOpenOn file := fun file => by
      rw [isOpenOn, isOpenOn, hdatabases]
    rw [run, run, hfiles, hopen]
    split
    · exact ⟨rfl, rfl, hdatabases, hsessions, h.stores, h.readers⟩
    · exact ⟨rfl, rfl, hdatabases, hsessions, h.stores.erase _, h.readers⟩
  | openSession l database =>
    rw [run, run, hdatabases]
    cases v.databases.find? database with
    | none => exact ⟨rfl, h⟩
    | some d =>
      dsimp only
      split
      · rw [hsessions]
        exact ⟨rfl, hfiles, rfl, rfl, h.stores, h.readers⟩
      · exact ⟨rfl, h⟩
  | closeDatabase l =>
    rw [run, run, hdatabases, hinUse]
    cases v.databases.find? l with
    | none => exact ⟨rfl, h⟩
    | some d =>
      dsimp only
      split
      · exact ⟨rfl, h⟩
      · exact ⟨rfl, hfiles, rfl, hsessions, h.stores, h.readers⟩
  | dropDatabase l =>
    rw [run, run, hdatabases, hinUse]
    split
    · exact ⟨rfl, h⟩
    · split
      · exact ⟨rfl, h⟩
      · exact ⟨rfl, hfiles, rfl, hsessions, h.stores, h.readers⟩
  | closeSession l =>
    rw [run] at hborrowed
    rw [run, run, hsessions]
    cases hs : v.sessions.find? l with
    | none => exact ⟨rfl, h⟩
    | some s =>
      cases hused : v.sessionInUse l with
      | true => exact absurd (by simp only [hs, hused, if_true]) hborrowed
      | false =>
        rw [h.sessionInUse hused]
        exact ⟨rfl, hfiles, hdatabases, rfl, h.stores, h.readers⟩
  | dropSession l =>
    rw [run] at hborrowed
    rw [run, run, hsessions]
    cases hs : v.sessions.has l with
    | false => exact ⟨rfl, h⟩
    | true =>
      cases hused : v.sessionInUse l with
      | true => exact absurd (by simp [hs, hused]) hborrowed
      | false =>
        rw [h.sessionInUse hused]
        exact ⟨rfl, hfiles, hdatabases, rfl, h.stores, h.readers⟩
  | dropReader l =>
    rw [run, run, h.readers.has_eq (hkept l rfl)]
    split
    · exact ⟨rfl, hfiles, hdatabases, hsessions, h.stores, h.readers.erase l⟩
    · exact ⟨rfl, h⟩
  | dropAll => exact ⟨rfl, hfiles, rfl, rfl, h.stores, .empty _ _⟩

end Alike

end View

/-! ### Leaving queries out -/

/-- **Step** of a run from which some are left out: those for which `stays` is `false`. -/
structure Step : Type where
  /-- what is done -/
  command : Command
  /-- whether the step stays in the run -/
  stays : Bool

/-- **Only commands that are `isQuery` are left out**, and each reader either with all that is done
with it or not at all. -/
structure LeavesOutQueries (kept : Label → Bool) (steps : List Step) : Prop where
  /-- what is left out are queries -/
  queries : ∀ step ∈ steps, step.stays = false → step.command.isQuery = true
  /-- what is done with a reader stays if the reader is kept -/
  readers : ∀ step ∈ steps, ∀ label ∈ step.command.readerLabel?, step.stays = kept label

theorem LeavesOutQueries.tail {kept : Label → Bool} {step : Step} {steps : List Step}
    (h : LeavesOutQueries kept (step :: steps)) : LeavesOutQueries kept steps :=
  ⟨fun s hs => h.queries s (List.mem_cons_of_mem _ hs),
    fun s hs => h.readers s (List.mem_cons_of_mem _ hs)⟩

/-- **Views that are `Alike` put down the same** of the steps that stay, and what the first
`Permits` the second does. -/
theorem View.Alike.transcript {parse : String → Option Json} {kept : Label → Bool} {v v' : View}
    {steps : List Step} (h : v.Alike kept v') (hleaves : LeavesOutQueries kept steps)
    (hborrowed : ∀ entry ∈ v.transcript parse Step.command steps, entry.2 ≠ .borrowed)
    (hpermits : v.Permits parse (steps.map Step.command)) :
    (v.transcript parse Step.command steps).filter (·.1.stays) =
        v'.transcript parse Step.command (steps.filter Step.stays) ∧
      v'.Permits parse ((steps.filter Step.stays).map Step.command) := by
  induction steps generalizing v v' with
  | nil => exact ⟨rfl, trivial⟩
  | cons step steps ih =>
    obtain ⟨hallows, hfits, hrest⟩ := hpermits
    obtain ⟨hanswer, hborrowed'⟩ := List.forall_mem_cons.mp hborrowed
    have hreader := hleaves.readers step List.mem_cons_self
    rw [View.transcript, List.filter_cons, List.filter_cons]
    cases hstays : step.stays with
    | true =>
      obtain ⟨hsame, halike⟩ := h.step (fun l hl => (hreader l hl).symm.trans hstays) hanswer hfits
      obtain ⟨htranscript, hpermits'⟩ := ih halike hleaves.tail hborrowed' hrest
      rw [if_pos rfl, if_pos rfl, View.transcript, hsame, htranscript]
      exact ⟨rfl, h.allows hallows, halike.fits hfits, hpermits'⟩
    | false =>
      have hquery := hleaves.queries step List.mem_cons_self hstays
      have halike := h.query_left hquery (fun l hl => (hreader l hl).symm.trans hstays) hfits
      rw [if_neg Bool.false_ne_true, if_neg Bool.false_ne_true]
      exact ih halike hleaves.tail hborrowed' hrest

/-- **Queries never change answers**: in every run from a fresh engine any of the queries can be
left out, as `LeavesOutQueries` says, and the `transcript` of the other steps stays the same: the
rows and refusals that queries get, with names, timestamps, values and order, and the results of
writes and of all other operations. The run must not try to close a session while something is read
in it. -/
theorem Workspace.transcript_of_deletion (parse : String → Option Json) (files : FileTree)
    (kept : Label → Bool) (steps : List Step) (hleaves : LeavesOutQueries kept steps)
    (hborrowed : ∀ entry ∈ (ofWorld { engine := {}, files }).transcript parse Step.command steps,
      entry.2 ≠ .borrowed)
    (hpermits : (ofWorld { engine := {}, files }).Permits parse
      (steps.map fun step => .command step.command)) :
    ((ofWorld { engine := {}, files }).transcript parse Step.command steps).filter (·.1.stays) =
      (ofWorld { engine := {}, files }).transcript parse Step.command
        (steps.filter Step.stays) := by
  have hwatched := Watched.start parse .whole (fun _ => False) files
  obtain ⟨htranscript, hview⟩ := hwatched.transcript_whole Step.command hpermits
  rw [htranscript] at hborrowed ⊢
  obtain ⟨hsame, hview'⟩ := (View.Alike.start kept files).transcript hleaves hborrowed hview
  have hpermits' := hwatched.permits Step.command hview'
  exact hsame.trans (hwatched.transcript_whole Step.command hpermits').1.symm

instance (answer : Answer) : Decidable (answer = .borrowed) :=
  match answer with
  | .borrowed => .isTrue rfl
  | .ok | .failed _ | .noHandle | .created _ | .opened .. | .writes _ | .items _ | .row _ | .name _
  | .rowItem _ | .nameItem _ | .flag _ => .isFalse nofun

/-- An aggregate gives an id to `cpu:max host=a` before that series is written, and so does one that
is read by turns with a write. If both are left out, the series is listed all the same, and in the
same place. -/
theorem Workspace.transcript_of_aggregates :
    let parse : String → Option Json := fun text =>
      if text = "list" then some Listing.all.document
      else some (Query.document ⟨.aggregate "cpu" .max, {}⟩)
    let kept : Label → Bool := (· == "k")
    let steps : List Step := [⟨.create ⟨""⟩ "a" {}, true⟩, ⟨.openDatabase "d" ⟨""⟩ "a" {}, true⟩,
      ⟨.openSession "s" "d", true⟩, ⟨.write "s" "cpu host=a" 5 (.ofWord 1), true⟩,
      ⟨.rows "s" (.text "reduce"), false⟩, ⟨.openReader "r" "s" (.text "reduce"), false⟩,
      ⟨.openReader "k" "s" (.text "reduce"), true⟩,
      ⟨.write "s" "cpu:max host=a" 6 (.ofWord 2), true⟩, ⟨.item "r", false⟩, ⟨.item "k", true⟩,
      ⟨.dropReader "r", false⟩, ⟨.rows "s" (.text "list"), true⟩]
    let ws : Workspace Memory := .ofWorld { engine := {}, files := {} }
    LeavesOutQueries kept steps ∧
      (∀ entry ∈ ws.transcript parse Step.command steps, entry.2 ≠ .borrowed) ∧
      ws.Permits parse (steps.map fun step => .command step.command) ∧
      (ws.transcript parse Step.command steps).filter (·.1.stays) =
        ws.transcript parse Step.command (steps.filter Step.stays) := by
  intro parse kept steps ws
  have hleaves : LeavesOutQueries kept steps := ⟨by decide +kernel, by decide +kernel⟩
  have hwatched := Watched.start parse .whole (fun _ => False) {}
  have hview : View.Permits parse { files := {} } (steps.map Step.command) := by decide +kernel
  have hpermits : ws.Permits parse (steps.map fun step => .command step.command) :=
    hwatched.permits Step.command hview
  have hborrowed : ∀ entry ∈ ws.transcript parse Step.command steps, entry.2 ≠ .borrowed := by
    rw [(hwatched.transcript_whole Step.command hpermits).1]
    decide +kernel
  exact ⟨hleaves, hborrowed, hpermits,
    transcript_of_deletion parse {} kept steps hleaves hborrowed hpermits⟩

end TimeSeries
