import TimeSeries.Json.Reader
import TimeSeries.Proofs.Client.SessionSettings
import TimeSeries.Proofs.Client.QueryReadouts
import TimeSeries.Proofs.Client.LockstepWorkspaces

/-!
# Writes that fail

A write that fails either leaves everything as it was, or it was tried as often as it may be and
given up (`Session.write_of_failure`). In the second case its series was enlisted before, so its
name stays behind where no point does. The run that goes on from there and the run without the write
stand side by side, whatever happens next, with that name as the only stray
(`Workspace.beside_of_failed_write`). So nobody ever sees the write: it is in no answer but a
listing of the file, where its name may be one row more (`Workspace.rows_of_failed_write`), and
there it can be seen indeed (`Workspace.lists_write_given_up`).
-/

namespace TimeSeries

/-! ### What a failed write leaves behind -/

namespace Session

variable {parse : String → Option Json} {session : Handle} {file : FileKey} {st : Store} {p : Point}
  {fuel : Nat} {delays : List Nat} {w w' : World Memory} {failure : Failure}

/-- **An `attempt` that fails** is given up with `writeBusy`, and leaves nothing behind than fewer
refusals. -/
theorem attempt_of_failure {retry : RetryPolicy} (hpanic : w.channel.panic = none)
    (hserves : w.engine.Serves session file st) (happend : st.append? p = some (st.withPoint p))
    (hfuel : w.engine.busyWrites < fuel)
    (h : attempt (Memory.engine parse) retry session p fuel 0 0 delays w = (.error failure, w')) :
    ∃ n busy calls, failure = .writeBusy n ∧
      w' = { w with engine := w.engine.refusing busy, calls } := by
  obtain hpatient | ⟨n, hn, hmore, hgone⟩ :=
    retry.patient_or_givesUp 0 0 delays w.engine.busyWrites
  · rw [attempt_of_patient parse hpanic hserves happend rfl hfuel hpatient] at h
    cases h
  · rw [attempt_of_givesUp parse hpanic rfl hn (Nat.lt_trans hn hfuel) hmore hgone] at h
    cases h
    exact ⟨_, _, _, rfl, rfl⟩

/-- **A write that is given up**, after some number of attempts: the series was enlisted by
`seriesToId`, and the engine refuses fewer writes. -/
structure GivesUp (s : Session) (series : String) (w : World Memory) (file : FileKey) (st : Store)
    (name : String) (w' : World Memory) : Prop where
  /-- the series has a name -/
  name_eq : Series.normalize series = some name
  /-- the session works on the store of the file -/
  serves : ∃ session, s.handle = some session ∧ w.engine.Serves session file st
  /-- the names fit in memory -/
  countable : (st.enlist name).2.Countable
  /-- what is left behind -/
  after : ∃ busy calls,
    w' = { w with engine := (w.engine.withStore file (st.enlist name).2).refusing busy, calls }

/-- **A `write` that fails** leaves nothing behind but the calls it made, or it `GivesUp` with
`writeBusy`. -/
theorem write_of_failure {s : Session} {series : String} {timestamp : Timestamp} {value : Double}
    (hfits : w'.engine.Fits)
    (h : s.write (Memory.engine parse) series timestamp value w = (.error failure, w')) :
    (∀ n, failure ≠ .writeBusy n) ∧ w.Asked w' ∨
      ∃ n file st name, failure = .writeBusy n ∧ s.GivesUp series w file st name w' := by
  cases hchecked : checkHandle w s.handle with
  | error failure' =>
    rw [write, hchecked] at h
    cases h
    refine .inl ⟨?_, .refl w⟩
    rintro n rfl
    cases hpanic : w.channel.panic <;> cases hhandle : s.handle <;>
      simp [checkHandle, World.check, hpanic, hhandle] at hchecked
  | ok session =>
    have hhandle := eq_some_of_checkHandle hchecked
    have hpanic := no_panic_of_checkHandle hchecked
    cases hrefusal : refusal? series (w.engine.store? session).isSome with
    | some status =>
      obtain ⟨calls, hwrite⟩ := write_of_refusal parse hpanic hhandle hrefusal timestamp value
      rw [hwrite] at h
      cases h
      exact .inl ⟨fun _ hbusy => (by cases hbusy), calls, rfl⟩
    | none =>
      obtain ⟨hlength, ⟨name, hname⟩, hserved⟩ := of_refusal?_eq_none hrefusal
      obtain ⟨st, hstore⟩ := Option.isSome_iff_exists.mp hserved
      obtain ⟨file, hserves⟩ := Memory.serves_of_store? hstore
      rw [write_eq_attempt parse hpanic hhandle hserves hlength hname] at h
      have hcount : (st.enlist name).2.Countable :=
        countable_of_attempt (by rw [h]; exact hfits)
      obtain ⟨n, busy, calls, hfailure, hafter⟩ :=
        attempt_of_failure (w := w.lookedUp session series name file st) hpanic
          (hserves.withStore _) (Store.append?_of_name? (Store.name?_enlist hcount))
          (Nat.lt_succ_of_le (Nat.le_add_right _ _)) h
      exact .inr ⟨n, file, st, name, hfailure, hname, ⟨session, hhandle, hserves⟩, hcount, busy,
        calls, hafter⟩

end Session

/-! ### The run without the write -/

/-- **Writing commands**: `write` and `writeAt`, to `series` in the session at `label`. -/
def Command.WritesAt (label : Label) (series : String) : Command → Prop
  | .write l s _ _ | .writeAt l s _ _ => l = label ∧ s = series
  | _ => False

/-- Stores that are `Coherent` stand beside themselves. -/
theorem Store.AllBeside.refl {t : Table FileKey Store} (strays : FileKey → Option String)
    (h : ∀ file st, t.find? file = some st → st.Coherent) : AllBeside strays t t := by
  intro file
  cases hst : t.find? file with
  | none => exact .none
  | some st => exact .some ((h file st hst).beside _)

/-- The strays of all files if `file` is the only one to have one. -/
def Store.strayIn (file : FileKey) (name : String) (other : FileKey) : Option String :=
  if other = file then some name else none

/-- **A name that `enlist` adds on one side** is a stray in its file. -/
theorem Store.AllBeside.of_enlist {t : Table FileKey Store} {file : FileKey} {st : Store}
    {name : String} (h : ∀ file st, t.find? file = some st → st.Coherent)
    (hst : t.find? file = some st) (hcount : (st.enlist name).2.Countable) :
    AllBeside (strayIn file name) (t.put file (st.enlist name).2) t := by
  intro other
  rw [Table.find?_put]
  split
  next heq =>
    subst heq
    rw [hst, strayIn, if_pos rfl]
    exact .some ((h file st hst).beside_of_enlist hcount)
  · exact refl _ h other

namespace Workspace

variable {parse : String → Option Json} {ws ws' : Workspace Memory} {c : Command} {label : Label}
  {series : String} {failure : Failure}

/-- The file whose store the session at a label works on. -/
def fileAt? (ws : Workspace Memory) (label : Label) : Option FileKey :=
  (ws.sessions.find? label).bind fun s => s.it.handle.bind ws.world.engine.sessionFile?

/-- **A writing command that fails** changes nothing but the world, by a `Session.write` that fails,
if it comes to one at all. -/
theorem run_of_failed_write (hwrites : c.WritesAt label series)
    (hfailed : (ws.run (Memory.engine parse) c).1 = .failed failure) :
    ∃ s w', ws.sessions.find? label = some s ∧
      (ws.run (Memory.engine parse) c).2 = { ws with world := w' } ∧
        (w' = ws.world ∧ (∀ n, failure ≠ .writeBusy n) ∨
          ∃ timestamp value,
            s.it.write (Memory.engine parse) series timestamp value ws.world =
              (.error failure, w')) := by
  have hrun : ∀ {f : Session → World Memory → Except Failure Unit × World Memory},
      (ws.withSession label fun s w => (.ofExcept (fun () => .ok) (f s w).1, (f s w).2)).1 =
          .failed failure →
        ∃ s w', ws.sessions.find? label = some s ∧
          (ws.withSession label fun s w => (.ofExcept (fun () => .ok) (f s w).1, (f s w).2)).2 =
            { ws with world := w' } ∧ f s.it ws.world = (.error failure, w') := by
    intro f h
    rw [withSession] at h ⊢
    cases hs : ws.sessions.find? label with
    | none =>
      rw [hs] at h
      cases h
    | some s =>
      rw [hs] at h
      dsimp only at h ⊢
      rcases hf : f s.it ws.world with ⟨failure' | ⟨⟩, w'⟩ <;> rw [hf] at h <;> cases h
      exact ⟨s, w', rfl, rfl, hf⟩
  cases c with
  | write l written timestamp value =>
    obtain ⟨rfl, rfl⟩ := hwrites
    obtain ⟨s, w', hs, hafter, hwrite⟩ := hrun hfailed
    exact ⟨s, w', hs, hafter, .inr ⟨timestamp, value, hwrite⟩⟩
  | writeAt l written time value =>
    obtain ⟨rfl, rfl⟩ := hwrites
    obtain ⟨s, w', hs, hafter, hwrite⟩ := hrun hfailed
    refine ⟨s, w', hs, hafter, ?_⟩
    have hwrite : s.it.writeAt (Memory.engine parse) _ time value ws.world = (.error failure, w') :=
      hwrite
    rw [Session.writeAt] at hwrite
    cases htime : time.timestamp? with
    | none =>
      rw [htime] at hwrite
      cases hwrite
      exact .inl ⟨rfl, fun _ hbusy => by cases hbusy⟩
    | some timestamp =>
      rw [htime] at hwrite
      exact .inr ⟨timestamp, value, hwrite⟩
  | _ => exact hwrites.elim

/-- **The run with a failed write and the run without it** stand side by side: without it, and with
as many `busyWrites` left as there are after it. Either nothing is left of the write but `calls` on
record, or it failed with `writeBusy`, and its name is a stray in its file. -/
theorem beside_of_failed_write (hcoherent : ws.world.engine.Coherent)
    (hwrites : c.WritesAt label series)
    (hfailed : (ws.run (Memory.engine parse) c).1 = .failed failure)
    (hfits : (ws.run (Memory.engine parse) c).2.world.engine.Fits) :
    let tried := (ws.run (Memory.engine parse) c).2
    let spared := ws.react parse (.disturb (.busyWrites tried.world.engine.busyWrites))
    ((∀ n, failure ≠ .writeBusy n) ∧ spared = ws ∧
        (∃ calls, tried = { ws with world := { ws.world with calls } }) ∧
          Beside (fun _ => none) tried spared) ∨
      ∃ n file name, failure = .writeBusy n ∧ Series.normalize series = some name ∧
        ws.fileAt? label = some file ∧ Beside (Store.strayIn file name) tried spared := by
  intro tried spared
  obtain ⟨s, w', hs, htried, hwrite⟩ := run_of_failed_write hwrites hfailed
  have htried : tried = { ws with world := w' } := htried
  rw [show (ws.run (Memory.engine parse) c).2 = tried from rfl, htried] at hfits
  have hcases : (∀ n, failure ≠ .writeBusy n) ∧ ws.world.Asked w' ∨
      ∃ n file st name, failure = .writeBusy n ∧ s.it.GivesUp series ws.world file st name w' := by
    obtain ⟨rfl, hbusy⟩ | ⟨timestamp, value, hwrite⟩ := hwrite
    · exact .inl ⟨hbusy, .refl _⟩
    · exact Session.write_of_failure hfits hwrite
  obtain ⟨hbusy, calls, rfl⟩ | ⟨n, file, st, name, hbusy, hgivesUp⟩ := hcases
  · have hspared : spared = ws := by
      simp only [spared, htried]
      rfl
    refine .inl ⟨hbusy, hspared, ⟨calls, htried⟩, ?_⟩
    rw [htried, hspared]
    exact ⟨⟨⟨_, _, rfl⟩, .refl _ hcoherent.stores, rfl, rfl, rfl⟩, rfl, rfl, rfl⟩
  · obtain ⟨session, hhandle, hserves⟩ := hgivesUp.serves
    obtain ⟨busy, calls, rfl⟩ := hgivesUp.after
    refine .inr ⟨n, file, name, hbusy, hgivesUp.name_eq, ?_, ?_⟩
    · rw [fileAt?, hs, Option.bind_some, hhandle]
      exact hserves.file_eq
    · simp only [spared, htried]
      exact ⟨⟨⟨_, _, rfl⟩, .of_enlist hcoherent.stores hserves.find_eq hgivesUp.countable, rfl,
        rfl, rfl⟩, rfl, rfl, rfl⟩

end Workspace

/-! ### What is read after it -/

/-- **The same answer**: equal, or with the `SameItems`. -/
inductive SameAnswer : Answer → Answer → Prop where
  /-- the very same -/
  | refl (answer : Answer) : SameAnswer answer answer
  /-- the same items -/
  | items {items items' : List (Item Row)} : SameItems items items' →
      SameAnswer (.items items) (.items items')

/-- **An item more** in the first of two answers, which lists `name`. -/
def AnswerMore (name : String) (answer answer' : Answer) : Prop :=
  ∃ items items', answer = .items items ∧ answer' = .items items' ∧ ItemMore name items items'

/-- Whether the text of a source is read as **a listing**, by `Plan.ofJson`. -/
def Source.lists (parse : String → Option Json) (source : Source) : Bool :=
  match source.render with
  | .ok written => Plan.lists (parse written)
  | .error _ => false

section Reading

variable {parse : String → Option Json} {strays : FileKey → Option String}

/-- **All rows of a query**, by `readAll`, in worlds side by side. -/
theorem World.Beside.answer_readAll {w w' : World Memory} (h : World.Beside strays w w')
    {s : Session} (husable : s.settings.Usable) (hraw : w.engine.rawResults = []) (text : String)
    (hfits : (Workspace.readAll (Memory.engine parse) s text w).2.engine.Fits) :
    let answer := (Workspace.readAll (Memory.engine parse) s text w).1
    let answer' := (Workspace.readAll (Memory.engine parse) s text w').1
    SameAnswer answer answer' ∨ Plan.lists (parse text) = true ∧
      ∃ file, s.handle.bind w.engine.sessionFile? = some file ∧
        ∃ name ∈ strays file, AnswerMore name answer answer' := by
  intro answer answer'
  have hchecked' := h.checkHandle s.handle
  cases hchecked : TimeSeries.checkHandle w s.handle with
  | error failure =>
    rw [hchecked] at hchecked'
    have hanswer : answer = .failed failure := by
      simp only [answer, Workspace.readAll, Session.openCursor, hchecked]
    have hanswer' : answer' = .failed failure := by
      simp only [answer', Workspace.readAll, Session.openCursor, hchecked']
    rw [hanswer, hanswer']
    exact .inl (.refl _)
  | ok session =>
    have hhandle := eq_some_of_checkHandle hchecked
    have hpanic := no_panic_of_checkHandle hchecked
    have hpanic' : w'.channel.panic = none := h.panic.trans hpanic
    obtain ⟨hraw', hlimit, hforgotten⟩ : w'.engine.rawResults = [] ∧
        w'.engine.chunkLimit = w.engine.chunkLimit ∧
          w'.engine.forgotten = w.engine.forgotten := by
      obtain ⟨stores, cursors, hengine⟩ := h.engine
      rw [hengine]
      exact ⟨hraw, rfl, rfl⟩
    obtain ⟨hnone, hnone'⟩ | ⟨file, st, st', hserves, hserves', hbeside⟩ := h.serves session
    · have hanswer : answer = _ :=
        Session.readAll_of_unserved parse hpanic hraw husable hhandle hnone text
      have hanswer' : answer' = _ :=
        Session.readAll_of_unserved parse hpanic' hraw' husable hhandle hnone' text
      rw [hanswer, hanswer']
      exact .inl (.refl _)
    · have hanswer : answer = _ :=
        Session.readAll_of_serves parse hpanic hraw husable hhandle hserves text
      have hanswer' : answer' = _ :=
        Session.readAll_of_serves parse hpanic' hraw' husable hhandle hserves' text
      have hcount : (st.query (parse text)).2.Countable := by
        obtain ⟨v, hopen, hbecomes⟩ :=
          Session.openCursor_becomes parse text hpanic hraw hhandle hserves
        have hasked := Workspace.fits_of_readAll hfits
        rw [hopen, hbecomes.engine] at hasked
        exact hasked file _ (Table.find?_put_self _ _ _)
      rw [hanswer, hanswer', hlimit, hforgotten]
      refine (hbeside.readout w.engine.chunkLimit w.engine.forgotten (parse text) hcount).imp
        .items ?_
      rintro ⟨hlists, name, hname, hmore⟩
      refine ⟨hlists, file, ?_, name, hname, _, _, rfl, rfl, hmore⟩
      rw [hhandle]
      exact hserves.file_eq

/-- **The answer to the command `rows`** in workspaces side by side. -/
theorem Workspace.Beside.answer_rows {ws ws' : Workspace Memory} {label : Label} {source : Source}
    (h : Beside strays ws ws') (hequipped : ws.Equipped)
    (hraw : ws.world.engine.rawResults = [])
    (hfits : (ws.run (Memory.engine parse) (.rows label source)).2.world.engine.Fits) :
    let answer := (ws.run (Memory.engine parse) (.rows label source)).1
    let answer' := (ws'.run (Memory.engine parse) (.rows label source)).1
    SameAnswer answer answer' ∨ source.lists parse = true ∧
      ∃ file, ws.fileAt? label = some file ∧
        ∃ name ∈ strays file, AnswerMore name answer answer' := by
  obtain ⟨w', readers', rfl, hworld, -⟩ := h.exists_eq
  intro answer answer'
  simp only [answer, answer', Workspace.run, Workspace.withSession] at hfits ⊢
  cases hs : ws.sessions.find? label with
  | none => exact .inl (.refl _)
  | some s =>
    simp only [hs] at hfits
    cases hrender : source.render with
    | error failure => exact .inl (.refl _)
    | ok text =>
      simp only [hrender] at hfits
      refine (hworld.answer_readAll (hequipped.sessions label s hs) hraw text hfits).imp_right ?_
      rintro ⟨hlists, file, hfile, hmore⟩
      refine ⟨?_, file, ?_, hmore⟩
      · rw [Source.lists, hrender]
        exact hlists
      · rw [fileAt?, hs]
        exact hfile

end Reading

namespace Workspace

variable {parse : String → Option Json} {ws : Workspace Memory} {c : Command} {label : Label}
  {series : String} {failure : Failure}

theorem undergo_concat (ws : Workspace Memory) (later : List Happening) (c : Command) :
    ws.undergo parse (later ++ [.event (.command c)]) =
      ((ws.undergo parse later).run (Memory.engine parse) c).2 := by
  rw [undergo, List.foldl_append]
  rfl

/-- **The answer to the command `rows`** after both have undergone the same happenings. -/
theorem Beside.answer_rows_undergo {strays : FileKey → Option String} {ws' : Workspace Memory}
    (h : Beside strays ws ws') (hequipped : ws.Equipped) {later : List Happening} {other : Label}
    {source : Source} (hobeys : ws.Obeys parse later)
    (hfits : ∀ before, before <+: later ++ [.event (.command (.rows other source))] →
      (ws.undergo parse before).world.engine.Fits)
    (hraw : (ws.undergo parse later).world.engine.rawResults = []) :
    let answer := ((ws.undergo parse later).run (Memory.engine parse) (.rows other source)).1
    let answer' := ((ws'.undergo parse later).run (Memory.engine parse) (.rows other source)).1
    SameAnswer answer answer' ∨ source.lists parse = true ∧
      ∃ file, (ws.undergo parse later).fileAt? other = some file ∧
        ∃ name ∈ strays file, AnswerMore name answer answer' := by
  have hafter := hfits _ (List.prefix_refl _)
  rw [undergo_concat] at hafter
  exact (h.undergo parse fun before hbefore =>
    hfits before (hbefore.trans (List.prefix_append _ _))).answer_rows
      (hequipped.undergo parse hobeys) hraw hafter

/-- **A failed write is in no answer but a listing.** In any state that `Arises`, for a command
`write` or `writeAt` that fails, whatever its arguments are and whyever it fails: compare the run in
which it was tried and the run in which it was not, from where the engine refuses as many writes as
after it. Unless the failure is `writeBusy`, the two states are the same but for the `calls` on
record. In any case, whatever both `undergo` next and whatever `rows` are then asked for, in
whatever session, the same is read, item by item. There is one exception: after `writeBusy`, a
listing of the file can have one row more, that of the name of the series. -/
theorem rows_of_failed_write (harises : ws.Arises parse) (hwrites : c.WritesAt label series)
    (hfailed : (ws.run (Memory.engine parse) c).1 = .failed failure)
    (hfits : (ws.run (Memory.engine parse) c).2.world.engine.Fits) :
    let tried := (ws.run (Memory.engine parse) c).2
    let spared := ws.react parse (.disturb (.busyWrites tried.world.engine.busyWrites))
    ((∀ n, failure ≠ .writeBusy n) →
      spared = ws ∧ ∃ calls, tried = { ws with world := { ws.world with calls } }) ∧
    ∀ (later : List Happening) (other : Label) (source : Source),
      tried.Obeys parse later →
      (∀ before, before <+: later ++ [.event (.command (.rows other source))] →
        (tried.undergo parse before).world.engine.Fits) →
      (tried.undergo parse later).world.engine.rawResults = [] →
      let answer := ((tried.undergo parse later).run (Memory.engine parse) (.rows other source)).1
      let answer' := ((spared.undergo parse later).run (Memory.engine parse) (.rows other source)).1
      SameAnswer answer answer' ∨
        ∃ n name, failure = .writeBusy n ∧ Series.normalize series = some name ∧
          source.lists parse = true ∧
          (tried.undergo parse later).fileAt? other = ws.fileAt? label ∧
          AnswerMore name answer answer' := by
  intro tried spared
  have hcoherent : ws.world.engine.Coherent := by
    obtain ⟨files, happenings, -, rfl, -⟩ := harises
    exact coherent_undergo Memory.coherent_empty happenings
  have hallows : ws.Allows (.command c) := by
    cases c <;> first | exact hwrites.elim | trivial
  have hequipped : tried.Equipped := harises.equipped.run parse c hallows
  obtain ⟨hbusy, hspared, htried, hbeside⟩ | ⟨n, file, name, hbusy, hname, hfile, hbeside⟩ :=
    beside_of_failed_write hcoherent hwrites hfailed hfits
  · refine ⟨fun _ => ⟨hspared, htried⟩, fun later other source hobeys hroom hraw => .inl ?_⟩
    obtain hsame | ⟨-, -, -, name, hname, -⟩ :=
      hbeside.answer_rows_undergo hequipped hobeys hroom hraw
    · exact hsame
    · cases hname
  · refine ⟨fun hother => absurd hbusy (hother n), fun later other source hobeys hroom hraw => ?_⟩
    refine (hbeside.answer_rows_undergo hequipped hobeys hroom hraw).imp_right ?_
    rintro ⟨hlists, file', hfile', name', hname', hmore⟩
    rw [Store.strayIn] at hname'
    split at hname'
    next heq =>
      obtain rfl : name = name' := Option.some.inj hname'
      exact ⟨n, name, hbusy, hname, hlists, by rw [hfile', heq, hfile], hmore⟩
    next => cases hname'

/-! ### A write that is given up -/

deriving instance DecidableEq for Answer

/-- A workspace over an engine that is about to refuse a write, with a session whose `maxAttempts`
is one. -/
def impatient : Workspace Memory :=
  (ofWorld { engine := {}, files := ⟨Table.empty.put ["a.akumuli"] (.file "")⟩ }).undergo Json.parse?
    [.event (.command (.openDatabase "d" ⟨""⟩ "a" { retry := ⟨some 1, none⟩ })),
      .event (.command (.openSession "s" "d")), .event (.disturb (.busyWrites 1))]

theorem arises_impatient : impatient.Arises Json.parse? := by
  refine ⟨_, _, ?_, rfl, by decide +kernel⟩
  simp only [obeys_cons, obeys_nil, Allows, and_true]
  decide +kernel

/-- **The name of a write that failed with `writeBusy` is listed**, and without the write it is
not. -/
theorem lists_write_given_up :
    let E := Memory.engine Json.parse?
    let c : Command := .write "s" "cpu host=a" 5 ⟨0⟩
    impatient.Arises Json.parse? ∧
      (impatient.run E c).1 = .failed (.writeBusy 1) ∧
      ((impatient.run E c).2.run E (.rows "s" (.listing none))).1 =
        .items [.ok ⟨some "cpu host=a", some 0, []⟩] ∧
      (impatient.run E (.rows "s" (.listing none))).1 = .items [] :=
  ⟨arises_impatient, by decide +kernel, by decide +kernel, by decide +kernel⟩

/-- A select after the same write, and after a point of another series was written: it gives that
point and no trace of the other. -/
theorem rows_of_failed_write_given_up :
    let E := Memory.engine Json.parse?
    let c : Command := .write "s" "cpu host=a" 5 ⟨0⟩
    let later : List Happening := [.event (.command (.write "s" "cpu host=b" 6 ⟨0⟩))]
    let query : Command := .rows "s" (.query (.ok (.select "cpu")) [])
    let tried := (impatient.run E c).2
    let spared := impatient.react Json.parse? (.disturb (.busyWrites 0))
    (impatient.run E c).1 = .failed (.writeBusy 1) ∧
      ((tried.undergo Json.parse? later).run E query).1 =
        .items [.ok ⟨some "cpu host=b", some 6, [⟨0⟩]⟩] ∧
      SameAnswer ((tried.undergo Json.parse? later).run E query).1
        ((spared.undergo Json.parse? later).run E query).1 := by
  intro E c later query tried spared
  have hfailed : (impatient.run E c).1 = .failed (.writeBusy 1) := by decide +kernel
  have hleft : tried.world.engine.busyWrites = 0 := by decide +kernel
  have hfits : ∀ before ∈ [[], later, later ++ [.event (.command query)]],
      ∀ s ∈ (tried.undergo Json.parse? before).world.engine.stores.values,
        s.names.length < UInt64.size := by decide +kernel
  have hroom : ∀ before, before <+: later ++ [.event (.command query)] →
      (tried.undergo Json.parse? before).world.engine.Fits := by
    intro before hbefore
    refine Memory.fits_of_values (hfits before ?_)
    simp only [later, List.cons_append, List.nil_append, List.prefix_cons_iff,
      List.prefix_nil] at hbefore
    obtain rfl | ⟨_, rfl, rfl | ⟨_, rfl, rfl⟩⟩ := hbefore <;> simp [later]
  have hsame := (rows_of_failed_write arises_impatient (c := c) ⟨rfl, rfl⟩ hfailed
    (hroom [] List.nil_prefix)).2 later "s" (.query (.ok (.select "cpu")) [])
    (obeys_cons.mpr ⟨trivial, trivial⟩) hroom (by decide +kernel)
  rw [show (impatient.run (Memory.engine Json.parse?) c).2 = tried from rfl, hleft] at hsame
  refine ⟨hfailed, by decide +kernel, ?_⟩
  obtain hsame | ⟨-, -, -, -, hlists, -⟩ := hsame
  · exact hsame
  · have hselect : Source.lists Json.parse? (.query (.ok (.select "cpu")) []) = false := by
      decide +kernel
    cases hlists.symm.trans hselect

end Workspace

end TimeSeries
