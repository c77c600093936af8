import TimeSeries.Proofs.Client.RowsFromLog

/-!
# Stores that answer alike

Two stores are alike if nobody can tell them apart by what they answer, though they may keep
their names under other ids: `Store.Alike`. The second of the two may have fewer names, for a
query registers names for its rows and may have been put to the first alone
(`Alike.query_left`). What a command makes of two alike stores is alike again, and the answers
are the same (`Alike.serve`).
-/

namespace TimeSeries.Store

variable {s s' : Store} {name : String}

/-! ### Fewer names -/

/-- A `Sound` store has no more names than one that has them all. -/
theorem Sound.countable_of_subset (h : s'.Sound) (hnames : s'.names ⊆ s.names)
    (hcount : s.Countable) : s'.Countable :=
  Nat.lt_of_le_of_lt (h.nodup.subperm hnames).length_le hcount

theorem names_enlist_subset (hnames : s'.names ⊆ s.names) (name : String) :
    (s'.enlist name).2.names ⊆ (s.enlist name).2.names := by
  intro n hn
  rw [names_enlist, mem_names_register] at hn ⊢
  exact hn.imp_left fun hn => hnames hn

theorem names_answer_subset {l : List Written} (hlog : s.log = l.map some)
    (hlog' : s'.log = l.map some) (hnames : s'.names ⊆ s.names) (p : Plan) :
    (s'.answer p).2.names ⊆ (s.answer p).2.names := by
  intro n hn
  rw [mem_names_answer hlog]
  exact ((mem_names_answer hlog' p).mp hn).imp_left fun hn => hnames hn

/-- **Alike stores**: `Sound` stores that have the same `log` and the same `listedNames`, of which
the second has no names but those of the first. -/
structure Alike (s s' : Store) : Prop where
  /-- the first is sound -/
  sound : s.Sound
  /-- the second is sound -/
  sound' : s'.Sound
  /-- all points of the first have a name -/
  logged : ∃ l : List Written, s.log = l.map some
  /-- the same was written -/
  log : s'.log = s.log
  /-- the same is listed -/
  listed : s'.listedNames = s.listedNames
  /-- the second has no names beside those of the first -/
  names : s'.names ⊆ s.names

theorem Alike.empty : Alike empty empty := ⟨sound_empty, sound_empty, ⟨[], rfl⟩, rfl, rfl, fun _ => id⟩

theorem Alike.countable (h : s.Alike s') (hcount : s.Countable) : s'.Countable :=
  h.sound'.countable_of_subset h.names hcount

/-! ### Queries -/

/-- **A `query` that is put to the first store alone** leaves the two `Alike`. -/
theorem Alike.query_left (h : s.Alike s') (document : Option Json)
    (hcount : (s.query document).2.Countable) : (s.query document).2.Alike s' := by
  have hgrows := grows_query s document
  obtain ⟨l, hlog⟩ := h.logged
  have hlog' := log_of_grows hgrows hlog
  refine ⟨h.sound.query document, h.sound', ⟨l, hlog'⟩, h.log.trans (hlog.trans hlog'.symm), ?_,
    fun n hn => hgrows.names.subset (h.names hn)⟩
  rw [h.sound.listedNames_query (Countable.of_grows hgrows hcount), h.listed]

theorem Alike.answer (h : s.Alike s') (p : Plan) (hcount : (s.answer p).2.Countable) :
    (s.answer p).2.Alike (s'.answer p).2 := by
  obtain ⟨l, hlog⟩ := h.logged
  have hlog' : s'.log = l.map some := h.log.trans hlog
  have hgrows := grows_answer s p
  have hgrows' := grows_answer s' p
  have hafter := log_of_grows hgrows hlog
  have hcount' := Countable.of_grows hgrows hcount
  refine ⟨sound_answer h.sound p, sound_answer h.sound' p, ⟨l, hafter⟩,
    (log_of_grows hgrows' hlog').trans hafter.symm, ?_, names_answer_subset hlog hlog' h.names p⟩
  rw [h.sound.listedNames_grow hcount' hgrows (listed_answer s p),
    h.sound'.listedNames_grow (h.countable hcount') hgrows' (listed_answer s' p), h.listed]

/-- **A `query` that is put to both** has the same in `prospect`, and leaves them `Alike`. -/
theorem Alike.query (h : s.Alike s') (document : Option Json)
    (hcount : (s.query document).2.Countable) :
    s'.prospect document = s.prospect document ∧ (s.query document).2.Alike (s'.query document).2 := by
  cases document with
  | none => exact ⟨rfl, h⟩
  | some j =>
    simp only [Store.query, prospect] at hcount ⊢
    cases hplan : Plan.ofJson j with
    | error status => exact ⟨rfl, h⟩
    | ok p =>
      rw [hplan] at hcount
      obtain ⟨l, hlog⟩ := h.logged
      have hanswer := h.answer p hcount
      have hrows := rows_answer hlog p hcount
      have hrows' := rows_answer (h.log.trans hlog) p (hanswer.countable hcount)
      refine ⟨?_, hanswer⟩
      rw [h.listed, ← hrows] at hrows'
      exact congrArg Stage.rows hrows'

/-! ### Writes -/

theorem Sound.appended (hs : s.Sound) (name : String) (timestamp : Timestamp) (value : Double) :
    (s.appended name timestamp value).Sound := (hs.enlist name).withPoints _

/-- **A point that is `appended` to both** adds the same to `log` and `listedNames`. -/
theorem Alike.appended (h : s.Alike s') (hcount : (s.enlist name).2.Countable)
    (timestamp : Timestamp) (value : Double) :
    (s'.enlist name).2.Countable ∧
      (s.appended name timestamp value).Alike (s'.appended name timestamp value) := by
  have hnames := names_enlist_subset h.names name
  have hcount' := (h.sound'.enlist name).countable_of_subset hnames hcount
  obtain ⟨l, hlog⟩ := h.logged
  have hafter := log_write name timestamp value hcount hlog
  have hlisted := h.sound.listedNames_enlist hcount
  have hlisted' := h.sound'.listedNames_enlist hcount'
  rw [h.listed, ← hlisted] at hlisted'
  exact ⟨hcount', h.sound.appended .., h.sound'.appended .., ⟨_, hafter⟩,
    (log_write name timestamp value hcount' (h.log.trans hlog)).trans hafter.symm, hlisted', hnames⟩

/-- **A point that both are to `take`** is taken by both or refused by both. -/
theorem Alike.take (h : s.Alike s') (series : String) (timestamp : Timestamp) (value : Double)
    (hcount : (s.take series timestamp value).2.Countable) :
    (s'.take series timestamp value).1 = (s.take series timestamp value).1 ∧
      (s.take series timestamp value).2.Alike (s'.take series timestamp value).2 := by
  obtain ⟨failure, hrefused⟩ | ⟨name, htaken⟩ := take_cases series timestamp value
  · rw [hrefused, hrefused]
    exact ⟨rfl, h⟩
  · obtain ⟨hnames, htaken'⟩ := htaken s
    rw [Countable, hnames] at hcount
    obtain ⟨hcount', happended⟩ := h.appended hcount timestamp value
    rw [htaken' hcount, (htaken s').2 hcount']
    exact ⟨rfl, happended⟩

theorem Alike.takeAll (h : s.Alike s') (points : List (String × Timestamp × Double))
    (hcount : (s.takeAll points).2.Countable) :
    (s'.takeAll points).1 = (s.takeAll points).1 ∧
      (s.takeAll points).2.Alike (s'.takeAll points).2 := by
  induction points generalizing s s' with
  | nil => exact ⟨rfl, h⟩
  | cons point points ih =>
    obtain ⟨series, timestamp, value⟩ := point
    have hcount' : (s.take series timestamp value).2.Countable :=
      Nat.lt_of_le_of_lt (names_takeAll _ points).length_le hcount
    obtain ⟨hresult, halike⟩ := h.take series timestamp value hcount'
    obtain ⟨hfailures, hafter⟩ := ih halike hcount
    refine ⟨?_, hafter⟩
    simp only [Store.takeAll]
    rw [hresult, hfailures]

/-! ### Commands -/

/-- **Alike stores serve alike**: what they `serve` for a `Command` is the same answer, and leaves
them `Alike`. -/
theorem Alike.serve (parse : String → Option Json) (h : s.Alike s') (c : Command)
    (hcount : (c.serve parse s).2.Countable) :
    (c.serve parse s').1 = (c.serve parse s).1 ∧
      (c.serve parse s).2.Alike (c.serve parse s').2 := by
  cases c with
  | write label series timestamp value =>
    obtain ⟨hresult, halike⟩ := h.take series timestamp value hcount
    exact ⟨congrArg (Answer.ofExcept fun _ => .ok) hresult, halike⟩
  | writeAt label series time value =>
    simp only [Command.serve] at hcount ⊢
    cases htime : time.timestamp? with
    | none => exact ⟨rfl, h⟩
    | some timestamp =>
      rw [htime] at hcount
      obtain ⟨hresult, halike⟩ := h.take series timestamp value hcount
      exact ⟨congrArg (Answer.ofExcept fun _ => .ok) hresult, halike⟩
  | writeAll label points =>
    obtain ⟨hfailures, halike⟩ := h.takeAll points hcount
    exact ⟨congrArg Answer.writes hfailures, halike⟩
  | rows label source =>
    simp only [Command.serve] at hcount ⊢
    cases hrender : source.render with
    | error failure => exact ⟨rfl, h⟩
    | ok text =>
      rw [hrender] at hcount
      obtain ⟨hprospect, halike⟩ := h.query (parse text) hcount
      exact ⟨congrArg (fun stage => Answer.items stage.items) hprospect, halike⟩
  | _ => exact ⟨rfl, h⟩

end TimeSeries.Store
