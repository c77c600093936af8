import TimeSeries.Proofs.Client.FilePlaces
import TimeSeries.Proofs.Client.StoreChanges

/-!
# Databases that were created

The file of a database only marks that it exists. What was written is kept by the engine, under the
components of the path, until the database is removed by these components. So a database that is
created where an old one was is empty only if the store of the old one went together with its file.
In runs in which no file is taken away while its store stays (`Kept`) every store has its file
(`Kept.marked`), and where something is created there is no store. From then on, as long as nothing
is written to the file (`Created`), all stores that are begun at its place stay blank
(`Created.blank`), and whatever is asked in a session on them gives no rows and no names:
`Created.items_eq_nil`.
-/

namespace TimeSeries

/-! ### Blank stores -/

/-- **Blank stores** have no `points` and list no series. -/
structure Store.Blank (s : Store) : Prop where
  /-- there are no points -/
  points : s.points = []
  /-- no series is listed -/
  listed : s.listed = []

namespace Store

variable {s : Store} {j : Json} {plan : Plan}

theorem blank_empty : Blank empty := ⟨rfl, rfl⟩

namespace Blank

/-- **A `Blank` store answers nothing** to any `Plan`, and stays as it is. -/
theorem answer_eq (h : s.Blank) (plan : Plan) : s.answer plan = ([], s) := by
  have hmatching : ∀ f, s.matching f = [] := fun f => by rw [matching, h.points]; rfl
  have hpage : ∀ {α : Type} (o : Output), o.page ([] : List α) = [] := fun o => by
    rw [Output.page, List.drop_nil]
    cases o.limit <;> simp
  cases plan with
  | names f => simp [answer, list, listing, h.listed]
  | select f o => simp [answer, select, hmatching, hpage]
  | join f o => simp [answer, join, joinRows, hmatching, hpage, registerAll]
  | aggregate f fn => simp [answer, aggregate, reduceAll, seriesNames, hmatching, registerAll]

theorem query_eq (h : s.Blank) (document : Option Json) : (s.query document).2 = s := by
  rcases document with _ | j
  · rfl
  · simp only [query]
    cases Plan.ofJson j with
    | error status => rfl
    | ok plan => simp only [h.answer_eq]

theorem prospect_eq (h : s.Blank) (hplan : Plan.ofJson j = .ok plan) :
    s.prospect (some j) = .rows [] := by
  simp only [prospect, query, hplan, h.answer_eq, List.map_nil]

end Blank

end Store

/-! ### Sessions on blank stores -/

namespace Reached

variable {parse : String → Option Json} {ws : Workspace Memory} {H : History} {label : Label}
  {s : Child Session} {session : Handle} {file : FileKey} {st : Store} {source : Source}
  {text : String} {document : Json} {plan : Plan}

/-- The command `rows` of a query to a `Blank` store gives none. -/
theorem rows_of_blank (h : Reached parse ws H) (hs : ws.sessions.find? label = some s)
    (hhandle : s.it.handle = some session) (hserves : ws.world.engine.Serves session file st)
    (hblank : st.Blank) (hrender : source.render = .ok text) (hparse : parse text = some document)
    (hplan : Plan.ofJson document = .ok plan) :
    (ws.run (Memory.engine parse) (.rows label source)).1 = .items [] := by
  have hcount : (st.query (parse text)).2.Countable := by
    rw [hblank.query_eq]
    exact h.fits _ _ hserves.find_eq
  obtain ⟨-, hanswer⟩ := h.inOrder.run_rows parse hs hhandle hserves hrender
  rw [hanswer hcount, hparse, hblank.prospect_eq hplan]
  rfl

/-- A reader that `openReader` opens on a `Blank` store is at its end. -/
theorem item_of_blank (h : Reached parse ws H) (hs : ws.sessions.find? label = some s)
    (hhandle : s.it.handle = some session) (hserves : ws.world.engine.Serves session file st)
    (hblank : st.Blank) (hrender : source.render = .ok text) (hparse : parse text = some document)
    (hplan : Plan.ofJson document = .ok plan) (reader : Label) :
    (ws.run (Memory.engine parse) (.openReader reader label source)).1 = .ok ∧
      ((ws.react parse (.command (.openReader reader label source))).run (Memory.engine parse)
        (.item reader)).1 = if source.isListing then .nameItem none else .rowItem none := by
  obtain ⟨w', r, hrun, hserved, hexpects⟩ :=
    h.inOrder.expects_openReader parse h.lent reader hs hrender hhandle hserves
  rw [hparse, hblank.query_eq] at hserved hexpects
  have hexpects' := hexpects (h.fits _ _ hserves.find_eq)
  rw [hblank.prospect_eq hplan] at hexpects'
  have hfits : (ws.react parse (.command (.openReader reader label source))).world.engine.Fits := by
    rw [Workspace.react, hrun]
    intro file' st' hst'
    rw [hserved.stores_eq, Table.put_of_find? hserves.find_eq] at hst'
    exact h.fits file' st' hst'
  have hopened := (h.step (.command (.openReader reader label source)) trivial trivial hfits).inOrder
  rw [Workspace.react, hrun] at hopened ⊢
  obtain ⟨_, _, hitem, -⟩ :=
    hopened.run_reader parse (c := .item reader) rfl (Table.find?_put_self _ _ _) hexpects'
  rw [hitem]
  refine ⟨rfl, ?_⟩
  cases source.isListing <;> rfl

end Reached

/-! ### Files and stores that go together -/

/-- **Marked worlds**: where the engine has a store, `files` has its file. -/
def World.Marked (w : World Memory) : Prop :=
  ∀ file : FileKey, w.engine.stores.has file = true → w.files.nodes.has file.place = true

namespace Workspace

/-- **An `Event` that keeps markers**: from outside no file is taken away of which there is a store,
and `remove` names a database by the components that its store goes by. -/
def KeepsMarkers (ws : Workspace Memory) : Event → Prop
  | .files t => ∀ file : FileKey, ws.world.engine.stores.has file = true →
      t.nodes.has file.place = true
  | .command (.remove directory name) =>
      ∀ file : FileKey, ws.world.engine.stores.has file = true →
        file.place = (databasePath directory name).key.place → file = (databasePath directory name).key
  | _ => True

/-- **An `Event` that writes nothing** to the files at a place. -/
def WritesNothing (ws : Workspace Memory) (place : FileKey) : Event → Prop
  | .command c => ∀ label (file : FileKey), c.writer? = some label → ws.OpenOn label file →
      file.place ≠ place
  | _ => True

variable {ws : Workspace Memory} {c : Command} {stores : Table FileKey Store} {file : FileKey}

/-- **A store was there before**, or `openDatabase` found a file for it. -/
theorem Restocks.has_before (h : ws.Restocks c stores) (hhas : stores.has file = true) :
    ws.world.engine.stores.has file = true ∨ ∃ p, ws.world.files.hasFile p = true ∧ p.key = file := by
  have hput : ∀ {key : FileKey} {st : Store}, (ws.world.engine.stores.put key st).has file = true →
      key = file ∨ ws.world.engine.stores.has file = true := by
    intro key st hhas
    obtain ⟨_, hfound⟩ := Option.isSome_iff_exists.mp hhas
    exact (Table.find?_put_eq_some hfound).imp And.left fun hbefore => by rw [Table.has, hbefore]; rfl
  cases h with
  | same => exact .inl hhas
  | @opened _ directory name _ _ hfile =>
    rw [Memory.opened] at hhas
    dsimp only at hhas
    split at hhas
    · exact .inl hhas
    · obtain heq | hbefore := hput hhas
      · exact .inr ⟨_, hfile, heq⟩
      · exact .inl hbefore
  | removed =>
    rw [Memory.removed, Table.has, Table.find?_erase] at hhas
    split at hhas
    · cases hhas
    · exact .inl hhas
  | written _ _ hst | asked _ _ _ hst =>
    obtain rfl | hbefore := hput hhas
    · exact .inl (by rw [Table.has, hst]; rfl)
    · exact .inl hbefore

/-- **Stores at a place stay `Blank`** if the command `WritesNothing` there. -/
theorem Restocks.blank {place : FileKey} (h : ws.Restocks c stores)
    (hwrites : ws.WritesNothing place (.command c))
    (hblank : ∀ (file : FileKey) st, file.place = place →
      ws.world.engine.stores.find? file = some st → st.Blank) {st : Store}
    (hplace : file.place = place) (hst : stores.find? file = some st) : st.Blank := by
  cases h with
  | same => exact hblank file st hplace hst
  | opened =>
    rw [Memory.opened] at hst
    dsimp only at hst
    split at hst
    · exact hblank file st hplace hst
    · obtain ⟨-, rfl⟩ | hbefore := Table.find?_put_eq_some hst
      · exact Store.blank_empty
      · exact hblank file st hplace hbefore
  | removed =>
    rw [Memory.removed, Table.find?_erase] at hst
    split at hst
    · cases hst
    · exact hblank file st hplace hst
  | written hc hopen =>
    obtain ⟨rfl, -⟩ | hbefore := Table.find?_put_eq_some hst
    · exact absurd hplace (hwrites _ _ hc hopen)
    · exact hblank file st hplace hbefore
  | @asked _ _ old document _ _ hold =>
    obtain ⟨rfl, rfl⟩ | hbefore := Table.find?_put_eq_some hst
    · have hold' := hblank _ old hplace hold
      rwa [hold'.query_eq]
    · exact hblank file st hplace hbefore

end Workspace

namespace InOrder

variable {parse : String → Option Json} {ws : Workspace Memory} {H : History}

/-- **A command that `KeepsMarkers`** keeps a world `Marked`. -/
theorem marked_run (h : InOrder ws H) (hlent : Lent ws) (hmarked : ws.world.Marked) {c : Command}
    (hkeeps : ws.KeepsMarkers (.command c)) :
    (ws.run (Memory.engine parse) c).2.world.Marked := by
  intro file hhas
  by_cases hfiles : c.OnFiles
  · cases c with
    | create directory name volumes =>
      obtain ⟨result, w', hcreate, hengine, hfiles⟩ :=
        Database.create_cases parse directory name h.panic volumes
      rw [Workspace.run, hcreate] at hhas ⊢
      dsimp only at hhas ⊢
      rw [hengine] at hhas
      have hbefore := hmarked file hhas
      obtain ⟨_, -, hsame⟩ | ⟨-, -, hcreated⟩ := hfiles
      · rwa [hsame]
      · rw [hcreated, Table.has, Table.find?_put]
        split
        · rfl
        · exact hbefore
    | remove directory name =>
      obtain ⟨result, w', hremove, hremoved⟩ := Database.remove_cases parse directory name h.panic
      rw [Workspace.run, hremove] at hhas ⊢
      dsimp only at hhas ⊢
      obtain ⟨hengine, hfiles⟩ | ⟨hengine, hfiles⟩ := hremoved
      · rw [hengine] at hhas
        rw [hfiles]
        exact hmarked file hhas
      · rw [hengine, Memory.removed, Table.has, Table.find?_erase] at hhas
        split at hhas
        · cases hhas
        next hother =>
          -- what is left of the stores goes by other components, and so has its file elsewhere
          have hplace : (databasePath directory name).key.place ≠ file.place := fun heq =>
            hother (hkeeps file hhas heq.symm).symm
          rw [hfiles, Table.has, Table.find?_erase, if_neg hplace]
          exact hmarked file hhas
    | _ => exact hfiles.elim
  · rw [Workspace.files_run hfiles]
    obtain hbefore | ⟨p, hfile, rfl⟩ := (h.restocks parse hlent c).has_before hhas
    · exact hmarked file hbefore
    · exact FileTree.has_place_of_hasFile hfile

end InOrder

/-! ### Runs -/

/-- **Runs in which every event `KeepsMarkers`**: runs from a fresh engine and any files, with their
histories. -/
inductive Kept (parse : String → Option Json) : Workspace Memory → History → Prop where
  /-- nothing has happened -/
  | start (files : FileTree) : Kept parse (.ofWorld { engine := {}, files }) fun _ => []
  /-- one event more -/
  | step {ws : Workspace Memory} {H : History} (e : Event) : Kept parse ws H → ws.Allows e →
      e.Quiet → ws.KeepsMarkers e → (ws.react parse e).world.engine.Fits →
      Kept parse (ws.react parse e) (ws.history parse H e)

/-- **Runs in which `create` made a file** and every event since then `WritesNothing` at its place.
Until then the run was `Kept`. -/
inductive Created (parse : String → Option Json) (file : Path) : Workspace Memory → History → Prop where
  /-- the file is created -/
  | create {ws : Workspace Memory} {H : History} {directory : Path} {name : String}
      {volumes : VolumeSettings} : Kept parse ws H →
      (ws.run (Memory.engine parse) (.create directory name volumes)).1 = .created file →
      Created parse file (ws.react parse (.command (.create directory name volumes)))
        (ws.history parse H (.command (.create directory name volumes)))
  /-- one event more -/
  | step {ws : Workspace Memory} {H : History} (e : Event) : Created parse file ws H →
      ws.Allows e → e.Quiet → ws.WritesNothing file.key.place e →
      (ws.react parse e).world.engine.Fits →
      Created parse file (ws.react parse e) (ws.history parse H e)

section Runs

variable {parse : String → Option Json} {ws : Workspace Memory} {H : History} {file : Path}

theorem Kept.reached (h : Kept parse ws H) : Reached parse ws H := by
  induction h with
  | start files => exact .start files
  | step e _ hallows hquiet _ hfits ih => exact .step e ih hallows hquiet hfits

/-- **Every store has its file** as long as a run is `Kept`. -/
theorem Kept.marked (h : Kept parse ws H) : ws.world.Marked := by
  induction h with
  | start files => exact fun file hhas => (by cases hhas)
  | step e hrun _ _ hkeeps _ ih =>
    cases e with
    | command c => exact hrun.reached.inOrder.marked_run hrun.reached.lent ih hkeeps
    | files t => exact hkeeps
    | disturb d => cases d <;> exact ih

/-- **The command `create`** does nothing to the engine, and what it creates is where no store has
its file. -/
theorem Kept.created (h : Kept parse ws H) {directory : Path} {name : String}
    {volumes : VolumeSettings}
    (hcreated : (ws.run (Memory.engine parse) (.create directory name volumes)).1 = .created file) :
    (ws.react parse (.command (.create directory name volumes))).world.engine = ws.world.engine ∧
      ∀ key : FileKey, key.place = file.key.place → ws.world.engine.stores.find? key = none := by
  obtain ⟨result, w', hcreate, hengine, hresult⟩ :=
    Database.create_cases parse directory name h.reached.inOrder.panic volumes
  rw [Workspace.run, hcreate] at hcreated
  rw [Workspace.react, Workspace.run, hcreate]
  refine ⟨hengine, fun key hplace => ?_⟩
  obtain ⟨failure, rfl, -⟩ | ⟨rfl, hnothing, -⟩ := hresult
  · cases hcreated
  · obtain rfl := Answer.created.inj hcreated
    rw [← Option.not_isSome_iff_eq_none]
    intro hhas
    have hnode := h.marked key hhas
    rw [Table.has, hplace, hnothing] at hnode
    cases hnode

theorem Created.reached (h : Created parse file ws H) : Reached parse ws H := by
  induction h with
  | create hkept hcreated =>
    refine hkept.reached.step _ trivial trivial ?_
    rw [(hkept.created hcreated).1]
    exact hkept.reached.fits
  | step e _ hallows hquiet _ hfits ih => exact ih.step e hallows hquiet hfits

/-- **The stores of a new file are `Blank`**, by whatever path it is opened. -/
theorem Created.blank (h : Created parse file ws H) {key : FileKey} {st : Store}
    (hplace : key.place = file.key.place) (hst : ws.world.engine.stores.find? key = some st) :
    st.Blank := by
  induction h generalizing key st with
  | create hkept hcreated =>
    obtain ⟨hengine, hnone⟩ := hkept.created hcreated
    rw [hengine, hnone key hplace] at hst
    cases hst
  | @step ws H e hrun _ _ hwrites _ ih =>
    cases e with
    | command c =>
      have hrestocks := hrun.reached.inOrder.restocks parse hrun.reached.lent c
      exact hrestocks.blank hwrites (fun _ _ hplace hst => ih hplace hst) hplace hst
    | files t => exact ih hplace hst
    | disturb d => cases d <;> exact ih hplace hst

/-- **A database that was `Created` is empty**: until something is written to it, every query in an
open session on it is answered with no rows, and every listing with no names, be they read at once
by `rows` or by a reader. This is so by whatever path the file is opened and whatever else the
caller does or is done to files from outside, as long as up to the creation no file was taken away
while the engine kept its store: neither from outside nor by `remove` through another path. -/
theorem Created.items_eq_nil {label : Label} {key : FileKey} {source : Source} {text : String}
    {document : Json} {plan : Plan} (h : Created parse file ws H) (hopen : ws.OpenOn label key)
    (hplace : key.place = file.key.place) (hrender : source.render = .ok text)
    (hparse : parse text = some document) (hplan : Plan.ofJson document = .ok plan) :
    (ws.run (Memory.engine parse) (.rows label source)).1 = .items [] ∧
      ∀ reader, (ws.run (Memory.engine parse) (.openReader reader label source)).1 = .ok ∧
        ((ws.react parse (.command (.openReader reader label source))).run (Memory.engine parse)
          (.item reader)).1 = if source.isListing then .nameItem none else .rowItem none := by
  obtain ⟨s, session, hs, hhandle, hfile⟩ := hopen
  obtain ⟨d, st, hd, hserves⟩ := h.reached.inOrder.tied.serves hs hhandle
  obtain rfl : d.file.key = key := Option.some.inj ((Workspace.file?_eq hs hd).symm.trans hfile)
  have hblank := h.blank hplace hserves.find_eq
  exact ⟨h.reached.rows_of_blank hs hhandle hserves hblank hrender hparse hplan,
    h.reached.item_of_blank hs hhandle hserves hblank hrender hparse hplan⟩

end Runs

/-! ### A database that was used -/

/-- Reads every text as one select. -/
def asSelect : String → Option Json := fun _ => some (.object [("select", .text "cpu")])

/-- **A workspace in which a database was used**: a point was written, and then it was let go of. -/
def Workspace.used : Workspace Memory :=
  ((begunWith asSelect (.ofWord 1)).react asSelect (.command (.dropSession "s"))).react asSelect
    (.command (.dropDatabase "d"))

/-- A workspace goes on with `create`, `openDatabase` and `openSession`. -/
def Workspace.renewed (ws : Workspace Memory) : Workspace Memory :=
  ((ws.react asSelect (.command (.create ⟨""⟩ "a" {}))).react asSelect
    (.command (.openDatabase "d" ⟨""⟩ "a" {}))).react asSelect (.command (.openSession "s" "d"))

theorem Kept.used : ∃ H, Kept asSelect .used H := by
  have hstart : Kept asSelect _ _ := .start ⟨Table.empty.put ["a.akumuli"] (.file "")⟩
  have hopened := hstart.step (.command (.openDatabase "d" ⟨""⟩ "a" {})) ⟨rfl, by decide⟩ trivial
    trivial (Memory.fits_of_values (by decide +kernel))
  have hbegun := hopened.step (.command (.openSession "s" "d")) rfl trivial trivial
    (Memory.fits_of_values (by decide +kernel))
  have hwritten := hbegun.step (.command (.write "s" "cpu host=a" 5 (.ofWord 1))) trivial trivial
    trivial (Memory.fits_of_values (by decide +kernel))
  have hended := hwritten.step (.command (.dropSession "s")) trivial trivial trivial
    (Memory.fits_of_values (by decide +kernel))
  exact ⟨_, hended.step (.command (.dropDatabase "d")) trivial trivial trivial
    (Memory.fits_of_values (by decide +kernel))⟩

instance (answer : Answer) (file : Path) : Decidable (answer = .created file) :=
  match answer with
  | .created other =>
    if h : other = file then .isTrue (congrArg _ h) else .isFalse fun heq => h (Answer.created.inj heq)
  | .ok | .failed _ | .noHandle | .borrowed | .opened .. | .writes _ | .items _ | .row _ | .name _
  | .rowItem _ | .nameItem _ | .flag _ => .isFalse nofun

/-- The database is removed by `remove` and another created: a select gives nothing. -/
theorem Created.items_of_second_file :
    let ws := (Workspace.used.react asSelect (.command (.remove ⟨""⟩ "a"))).renewed
    (∃ H, Created asSelect (databasePath ⟨""⟩ "a") ws H) ∧ ws.OpenOn "s" ["a.akumuli"] ∧
      (ws.run (Memory.engine asSelect) (.rows "s" (.text ""))).1 = .items [] := by
  intro ws
  obtain ⟨H, hkept⟩ := Kept.used
  have hkeys : ∀ file ∈ Workspace.used.world.engine.stores.keys,
      file = (databasePath ⟨""⟩ "a").key := by decide +kernel
  have hremoved := hkept.step (.command (.remove ⟨""⟩ "a")) trivial trivial
    (fun file hhas _ => by
      obtain ⟨_, hfound⟩ := Option.isSome_iff_exists.mp hhas
      exact hkeys file (Table.mem_keys_of_find? hfound))
    (Memory.fits_of_values (by decide +kernel))
  have hcreated := @Created.create _ (databasePath ⟨""⟩ "a") _ _ ⟨""⟩ "a" {} hremoved
    (by decide +kernel)
  have hopened := hcreated.step (.command (.openDatabase "d" ⟨""⟩ "a" {}))
    ⟨by decide +kernel, by decide⟩ trivial (by rintro _ _ ⟨⟩)
    (Memory.fits_of_values (by decide +kernel))
  have hbegun := hopened.step (.command (.openSession "s" "d"))
    (by decide +kernel : Workspace.sessionInUse _ "s" = false) trivial (by rintro _ _ ⟨⟩)
    (Memory.fits_of_values (by decide +kernel))
  have hopen : ws.OpenOn "s" ["a.akumuli"] :=
    ⟨⟨"d", some 4, {}⟩, 4, by decide +kernel, rfl, by decide +kernel⟩
  have hrender : (Source.text "").render = .ok "" := rfl
  exact ⟨⟨_, hbegun⟩, hopen, (hbegun.items_eq_nil hopen rfl hrender rfl rfl).1⟩

/-- The file is deleted from outside and another created: a select gives the point that was written
to the old one. -/
theorem Reached.items_of_deleted_file :
    let ws := (Workspace.used.react asSelect (.files {})).renewed
    (∃ H, Reached asSelect ws H) ∧
      ((Workspace.used.react asSelect (.files {})).run (Memory.engine asSelect)
        (.create ⟨""⟩ "a" {})).1 = .created (databasePath ⟨""⟩ "a") ∧
      ws.OpenOn "s" ["a.akumuli"] ∧
      (ws.run (Memory.engine asSelect) (.rows "s" (.text ""))).1 =
        .items [.ok ⟨some "cpu host=a", some 5, [.ofWord 1]⟩] := by
  intro ws
  obtain ⟨H, hkept⟩ := Kept.used
  have hdeleted := hkept.reached.step (.files {}) trivial trivial
    (Memory.fits_of_values (by decide +kernel))
  have hcreated := hdeleted.step (.command (.create ⟨""⟩ "a" {})) trivial trivial
    (Memory.fits_of_values (by decide +kernel))
  have hopened := hcreated.step (.command (.openDatabase "d" ⟨""⟩ "a" {}))
    ⟨by decide +kernel, by decide⟩ trivial (Memory.fits_of_values (by decide +kernel))
  have hreached : Reached asSelect ws _ := hopened.step (.command (.openSession "s" "d"))
    (by decide +kernel : Workspace.sessionInUse _ "s" = false) trivial
    (Memory.fits_of_values (by decide +kernel))
  have hopen : ws.OpenOn "s" ["a.akumuli"] :=
    ⟨⟨"d", some 4, {}⟩, 4, by decide +kernel, rfl, by decide +kernel⟩
  refine ⟨⟨_, hreached⟩, by decide +kernel, hopen, ?_⟩
  -- the new session works on the old store
  let st := Store.ofSeries ["cpu host=a"] [⟨1, 5, .ofWord 1⟩]
  have hserves : ws.world.engine.Serves 4 ["a.akumuli"] st := ⟨by decide +kernel, by decide +kernel⟩
  have hmatching : st.matching ⟨["cpu"], {}, none⟩ = [⟨"cpu host=a", ⟨1, 5, .ofWord 1⟩⟩] := by
    decide +kernel
  have hselect : st.select ⟨["cpu"], {}, none⟩ {} = [.scalar 1 5 (.ofWord 1)] := by
    rw [Store.select, hmatching]
    exact congrArg (List.map Store.Match.record) (List.mergeSort_singleton _)
  have hquery : st.query (asSelect "") = (.ok [.scalar 1 5 (.ofWord 1)], st) :=
    congrArg (fun records => (Except.ok records, st)) hselect
  have hs : ws.sessions.find? "s" = some ⟨"d", some 4, {}⟩ := by decide +kernel
  have hrender : (Source.text "").render = .ok "" := rfl
  obtain ⟨-, hanswer⟩ := hreached.inOrder.run_rows asSelect hs rfl hserves hrender
  rw [hanswer (by rw [hquery]; decide), Store.prospect, hquery]
  rfl

end TimeSeries
