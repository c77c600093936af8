import TimeSeries.Proofs.Client.Runs
import TimeSeries.Proofs.Client.Sessions

/-!
# Histories: what a store has to do with what was written

The points of a store, by the names of their series, are its log, `Store.log`. `Recorded`
says that the logs of an engine are a history. It is kept when stores grow by names, as an
id keeps its meaning (`Recorded.grow`); what is written is added to both (`Recorded.add`),
and removing a store clears both (`Recorded.removed`). `World.Writes` is what writing does
to the store of a session, be it one write or many.
-/

namespace TimeSeries

/-! ### Logs -/

/-- **Log** of a store: its points by the names of their series, in the order written. -/
def Store.log (s : Store) : List (Option Written) :=
  s.points.map fun p => (s.name? p.series).map fun name => ⟨name, p.timestamp, p.value⟩

/-- The `log` of the store of a file. A file without a store has an empty one. -/
def Memory.log (m : Memory) (file : FileKey) : List (Option Written) :=
  ((m.stores.find? file).map Store.log).getD []

namespace Store

variable {s s' : Store} {l : List Written}

/-- A `log` is kept while the store `Grows` by names. -/
theorem log_of_grows (h : s.Grows s') (hlog : s.log = l.map some) : s'.log = l.map some := by
  rw [← hlog, log, log, h.points]
  refine List.map_congr_left fun p hp => ?_
  -- a point that is logged has a name, which it keeps
  have hmem : (s.name? p.series).map (fun name => Written.mk name p.timestamp p.value) ∈ s.log :=
    List.mem_map_of_mem hp
  rw [hlog] at hmem
  obtain ⟨written, -, hwritten⟩ := List.mem_map.mp hmem
  obtain ⟨name, hname, -⟩ := Option.map_eq_some_iff.mp hwritten.symm
  rw [hname, h.name? hname]

/-- The point of `withPoint` is logged last, by the name of its series. -/
theorem log_withPoint {name : String} (p : Point) (hname : s.name? p.series = some name) :
    (s.withPoint p).log = s.log ++ [some ⟨name, p.timestamp, p.value⟩] := by
  have hnames : (s.withPoint p).name? = s.name? := rfl
  have hpoints : (s.withPoint p).points = s.points ++ [p] := rfl
  rw [log, log, hnames, hpoints, List.map_append]
  simp [hname]

/-- **A write**, `withPoint` after `enlist`, is logged under the canonical name of its series. -/
theorem log_write (name : String) (timestamp : Timestamp) (value : Double)
    (hcount : (s.enlist name).2.Countable) (hlog : s.log = l.map some) :
    ((s.enlist name).2.withPoint ⟨(s.enlist name).1, timestamp, value⟩).log =
      (l ++ [Written.mk name timestamp value]).map some := by
  rw [log_withPoint _ (name?_enlist hcount), log_of_grows (enlist_grows s name) hlog,
    List.map_append]
  rfl

end Store

theorem History.add_nil (H : History) (file : FileKey) : H.add file [] = H := by
  funext k
  rw [History.add]
  split
  · rw [List.append_nil]
  · rfl

/-! ### Engines and histories -/

/-- **Recorded**: the `log` of every file is its history. -/
def Recorded (m : Memory) (H : History) : Prop := ∀ file, m.log file = (H file).map some

namespace Recorded

variable {m m' : Memory} {H : History} {file : FileKey} {st st' : Store}

theorem of_stores_eq (h : Recorded m H) (hstores : m'.stores = m.stores) : Recorded m' H := by
  intro k
  rw [Memory.log, hstores]
  exact h k

theorem log_withStore (m : Memory) (file k : FileKey) (st : Store) :
    (m.withStore file st).log k = if k = file then st.log else m.log k := by
  rw [Memory.log, Memory.withStore, Table.find?_put]
  by_cases hk : k = file
  · subst hk
    simp
  · rw [if_neg fun heq => hk heq.symm, if_neg hk, Memory.log]

theorem log_eq (h : Recorded m H) (hfind : m.stores.find? file = some st) :
    st.log = (H file).map some := by
  rw [← h file, Memory.log, hfind]
  rfl

/-- **What is added to a log** is added to the history. -/
theorem add (h : Recorded m H) (hfind : m.stores.find? file = some st) {more : List Written}
    (hlog : ∀ l : List Written, st.log = l.map some → st'.log = (l ++ more).map some) :
    Recorded (m.withStore file st') (H.add file more) := by
  intro k
  rw [log_withStore, History.add]
  split
  next hk =>
    subst hk
    exact hlog _ (h.log_eq hfind)
  next => exact h k

/-- **Names by which a store `Grows`** do not matter. -/
theorem grow (h : Recorded m H) (hfind : m.stores.find? file = some st) (hgrows : st.Grows st') :
    Recorded (m.withStore file st') H := by
  rw [← H.add_nil file]
  refine h.add hfind fun l hl => ?_
  rw [List.append_nil]
  exact Store.log_of_grows hgrows hl

/-- A database that is `opened` for the first time has an empty log, as it had before. -/
theorem opened (h : Recorded m H) (file : FileKey) : Recorded (m.opened file) H := by
  intro k
  rw [← h k, Memory.log, Memory.opened]
  dsimp only
  split
  · rfl
  next hhas =>
    rw [Table.find?_put, Memory.log]
    split
    next hk =>
      subst hk
      rw [Table.has, Bool.not_eq_true, Option.isSome_eq_false_iff,
        Option.isNone_iff_eq_none] at hhas
      rw [hhas]
      rfl
    next => rfl

/-- **A store that is `removed`** has its log and its history cleared. -/
theorem removed (h : Recorded m H) (file : FileKey) : Recorded (m.removed file) (H.clear file) := by
  intro k
  rw [Memory.log, Memory.removed, Table.find?_erase, History.clear]
  by_cases hk : k = file
  · subst hk
    simp
  · rw [if_neg fun heq => hk heq.symm, if_neg hk]
    exact h k

end Recorded

/-! ### Writing -/

/-- **Writing**: the store of a file becomes one with the same names and perhaps more, in whose
`log` there is what was `written`, and nothing else changes that counts. -/
def World.Writes (w : World Memory) (file : FileKey) (st : Store) (w' : World Memory)
    (written : List Written) : Prop :=
  ∃ st' busy, w.Becomes ((w.engine.withStore file st').refusing busy) w' ∧
    st.names <+: st'.names ∧
    (st'.Countable → ∀ l : List Written, st.log = l.map some → st'.log = (l ++ written).map some)

namespace World.Writes

variable {w w' w'' : World Memory} {session : Handle} {file : FileKey} {st : Store}
  {written written' : List Written}

/-- Nothing is written. -/
theorem refl (hserves : w.engine.Serves session file st) : w.Writes file st w [] := by
  refine ⟨st, w.engine.busyWrites, ⟨?_, rfl⟩, List.prefix_refl _, fun _ l hl => ?_⟩
  · rw [hserves.withStore_self]
    rfl
  · rw [List.append_nil, hl]

theorem no_panic (h : w.Writes file st w' written) (hpanic : w.channel.panic = none) :
    w'.channel.panic = none := by
  obtain ⟨_, _, hbecomes, -⟩ := h
  exact hbecomes.no_panic hpanic

theorem trans (hserves : w.engine.Serves session file st) (h : w.Writes file st w' written)
    (h' : ∀ st', w'.engine.Serves session file st' → w'.Writes file st' w'' written') :
    w.Writes file st w'' (written ++ written') := by
  obtain ⟨st', busy, hbecomes, hnames, hlog⟩ := h
  have hserves' : w'.engine.Serves session file st' := by
    rw [hbecomes.engine]
    exact (hserves.withStore st').refusing busy
  obtain ⟨st'', busy', hbecomes', hnames', hlog'⟩ := h' st' hserves'
  refine ⟨st'', busy', ⟨?_, hbecomes'.panic.trans hbecomes.panic⟩, hnames.trans hnames', ?_⟩
  · rw [hbecomes'.engine, hbecomes.engine]
    simp
  · intro hcount l hl
    have hcount' : st'.Countable := Nat.lt_of_le_of_lt hnames'.length_le hcount
    rw [← List.append_assoc]
    exact hlog' hcount _ (hlog hcount' l hl)

end World.Writes

namespace Session

variable (parse : String → Option Json) {s : Session} {session : Handle} {file : FileKey}
  {st : Store} {w : World Memory}

/-- **A `write`** writes its point if it succeeds. -/
theorem writes_write (series : String) (timestamp : Timestamp) (value : Double)
    (hpanic : w.channel.panic = none) (hhandle : s.handle = some session)
    (hserves : w.engine.Serves session file st) :
    w.Writes file st (s.write (Memory.engine parse) series timestamp value w).2
      (written series timestamp value
        (s.write (Memory.engine parse) series timestamp value w).1) := by
  obtain ⟨failure, w', st', busy, hwrite, hgrows, hbecomes⟩ |
      ⟨name, w', busy, hwrite, hname, hbecomes⟩ :=
    write_becomes parse series timestamp value hpanic hhandle hserves
  · rw [hwrite]
    refine ⟨st', busy, hbecomes, hgrows.names, fun _ l hl => ?_⟩
    rw [written, List.append_nil]
    exact Store.log_of_grows hgrows hl
  · rw [hwrite, written, hname]
    exact ⟨_, busy, hbecomes, (Store.enlist_grows st name).names,
      fun hcount l hl => Store.log_write name timestamp value hcount hl⟩

/-- **A `writeAll`** writes the points of those writes that succeed. -/
theorem writes_writeAll (points : List (String × Timestamp × Double))
    (hpanic : w.channel.panic = none) (hhandle : s.handle = some session)
    (hserves : w.engine.Serves session file st) :
    w.Writes file st (Workspace.writeAll (Memory.engine parse) s points w).2
      (s.writtenAll parse points w) := by
  induction points generalizing w st with
  | nil => exact .refl hserves
  | cons point points ih =>
    obtain ⟨series, timestamp, value⟩ := point
    have hwrite := writes_write parse series timestamp value hpanic hhandle hserves
    exact hwrite.trans hserves fun st' hserves' => ih (hwrite.no_panic hpanic) hserves'

end Session

end TimeSeries
