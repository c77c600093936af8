import TimeSeries.Proofs.Client.RowsFromLog
import TimeSeries.Proofs.Engine.Coherence
import TimeSeries.Proofs.Query.Forms

/-!
# Leafing through a query

The rows of a select or a join can be asked for page by page. Each page is a query of its own, of
the store that the one before has left: a join registers the names of its page only, so the store is
not the same from page to page. But what is left out of one page is in another, and names that are
registered page by page are in the end those that the whole query registers, in the same order.

Main result: `Store.rows_of_pages`.
-/

namespace TimeSeries

/-! ### The rows of a page -/

namespace Plan

variable {l : List Written} {listed listed' : List String} {plan : Plan} {o : Output}

theorem page_of_unpaged {α : Type} (hlimit : o.limit = none) (hoffset : o.offset = 0)
    (rows : List α) : o.page rows = rows := by
  rw [Output.page, hlimit, hoffset]
  exact List.drop_zero

/-- **The `rows` of a page** are so many of all rows. -/
theorem rows_paged (houtput : plan.output? = some o) (hlimit : o.limit = none)
    (hoffset : o.offset = 0) (k n : Nat) :
    (plan.paged k n).rows l listed' = ((plan.rows l listed).drop n).take k := by
  cases plan with
  | names f => cases houtput
  | select f o =>
    cases houtput
    rw [rows, page_of_unpaged hlimit hoffset, ← List.map_drop, ← List.map_take]
    rfl
  | join f o =>
    cases houtput
    rw [rows, joined, page_of_unpaged hlimit hoffset, ← List.map_drop, ← List.map_take]
    rfl
  | aggregate f fn => cases houtput

/-- **A page has `registered`** so many of all names. -/
theorem registered_paged (houtput : plan.output? = some o) (hlimit : o.limit = none)
    (hoffset : o.offset = 0) (k n : Nat) :
    (plan.paged k n).registered l = ((plan.registered l).drop n).take k := by
  cases plan with
  | names f => cases houtput
  | select f o => simp [paged, revise, registered]
  | join f o =>
    cases houtput
    rw [registered, joined, page_of_unpaged hlimit hoffset, ← List.map_drop, ← List.map_take]
    rfl
  | aggregate f fn => cases houtput

/-- There is a row for each name that is `registered`. -/
theorem length_registered_le (plan : Plan) (l : List Written) (listed : List String) :
    (plan.registered l).length ≤ (plan.rows l listed).length := by
  cases plan <;> simp [registered, rows]

end Plan

/-! ### How many rows there are -/

/-- There are no more `matches` than points that are logged. -/
theorem PointFilter.length_matches_le (f : PointFilter) (l : List Written) :
    (f.matches l).length ≤ l.length := by
  rw [PointFilter.matches, List.length_map]
  exact List.length_filter_le _ _

namespace Store

theorem length_putSlot_le (width : Nat) (key : RowKey) (slot : Nat) (value : Double)
    (rows : List JoinRow) : (putSlot width key slot value rows).length ≤ rows.length + 1 := by
  induction rows with
  | nil => rfl
  | cons row rows ih =>
    rw [putSlot]
    split
    · exact Nat.le_succ _
    · exact Nat.succ_le_succ ih

/-- Each `joinPoint` begins one row at most. -/
theorem length_foldl_joinPoint_le (metrics : List String) (ms : List Match)
    (rows : List JoinRow) :
    (ms.foldl (joinPoint metrics) rows).length ≤ rows.length + ms.length := by
  induction ms generalizing rows with
  | nil => rfl
  | cons m ms ih =>
    have hstep : (joinPoint metrics rows m).length ≤ rows.length + 1 := by
      rw [joinPoint]
      split
      · exact length_putSlot_le ..
      · exact Nat.le_succ _
    refine (ih _).trans ?_
    rw [List.length_cons]
    omega

end Store

/-- **There are no more `rows` than points.** -/
theorem Plan.length_rows_le {plan : Plan} {o : Output} (houtput : plan.output? = some o)
    (hlimit : o.limit = none) (hoffset : o.offset = 0) (l : List Written) (listed : List String) :
    (plan.rows l listed).length ≤ l.length := by
  cases plan with
  | names f => cases houtput
  | select f o =>
    cases houtput
    rw [rows, page_of_unpaged hlimit hoffset, List.length_map, List.length_mergeSort]
    exact (List.length_filter_le _ _).trans (f.length_matches_le l)
  | join f o =>
    cases houtput
    rw [rows, joined, page_of_unpaged hlimit hoffset, List.length_map, List.length_mergeSort]
    refine (Store.length_foldl_joinPoint_le f.metrics _ []).trans ?_
    rw [List.length_nil, Nat.zero_add]
    exact f.length_matches_le l
  | aggregate f fn => cases houtput

namespace Store

variable {s s' s'' : Store} {j : Json} {rows more : List Row} {l : List Written} {plan : Plan}

/-! ### What a query gives -/

/-- **A query gives rows**: `query` answers it, and in the store that the answer leaves the records
are read as these rows. -/
def Gives (s : Store) (j : Json) (rows : List Row) (s' : Store) : Prop :=
  ∃ records, s.query (some j) = (.ok records, s') ∧
    records.map (fun r => readAlone s'.name? r.encode) = rows.map .ok

/-- A query `Gives` one thing. -/
theorem Gives.unique (h : s.Gives j rows s') (h' : s.Gives j more s'') :
    rows = more ∧ s' = s'' := by
  obtain ⟨records, hquery, hrows⟩ := h
  obtain ⟨records', hquery', hmore⟩ := h'
  cases hquery.symm.trans hquery'
  refine ⟨?_, rfl⟩
  exact List.map_injective_iff.mpr (fun _ _ => Except.ok.inj) (hrows.symm.trans hmore)

/-- **A plan gives its `rows`.** -/
theorem gives_of_ofJson (hlog : s.log = l.map some) (hplan : Plan.ofJson j = .ok plan)
    (hcount : (s.answer plan).2.Countable) :
    s.Gives j (plan.rows l s.listedNames) (s.answer plan).2 := by
  have hquery : s.query (some j) = (.ok (s.answer plan).1, (s.answer plan).2) := by
    rw [query, hplan]
  refine ⟨(s.answer plan).1, hquery, ?_⟩
  rw [← rows_answer hlog plan hcount, List.map_map]
  refine List.map_congr_left fun r hr => ?_
  exact readAlone_of_names (encodable_query (congrArg Prod.fst hquery) r hr)
    (names_query hquery hcount r hr)

/-! ### Names that are registered -/

/-- Registers names one after another. -/
def registerNames (s : Store) (names : List String) : Store :=
  names.foldl (fun s name => (s.register name).2) s

theorem registerNames_append (s : Store) (names names' : List String) :
    s.registerNames (names ++ names') = (s.registerNames names).registerNames names' :=
  List.foldl_append

theorem grows_registerNames (s : Store) (names : List String) : s.Grows (s.registerNames names) := by
  induction names generalizing s with
  | nil => exact .refl s
  | cons name names ih => exact (register_grows s name).trans (ih _)

theorem store_registerAll {α : Type} {step : Store → α → Record × Store} {nameOf : α → String}
    (hstep : ∀ (s : Store) (row : α), (step s row).2 = (s.register (nameOf row)).2) (s : Store)
    (rows : List α) : (registerAll step s rows).2 = s.registerNames (rows.map nameOf) := by
  induction rows generalizing s with
  | nil => rfl
  | cons row rows ih => exact (ih _).trans (by rw [hstep]; rfl)

/-- **An `answer` leaves the store** with the names that the plan has `registered`. -/
theorem store_answer (hlog : s.log = l.map some) (plan : Plan) :
    (s.answer plan).2 = s.registerNames (plan.registered l) := by
  cases plan with
  | names f => rfl
  | select f o => rfl
  | join f o =>
    rw [Plan.registered, ← joinRows_eq hlog]
    exact store_registerAll (fun _ _ => rfl) s _
  | aggregate f fn =>
    rw [Plan.registered, ← matching_bare hlog, reduceAll_bare]
    exact store_registerAll (fun _ _ => rfl) s _

/-! ### Leafing -/

/-- **Leafing through** a query: pages of `k` rows are asked for, from page `i` on, each of the
store that the one before has left, until one is empty. These are all their rows, and the store that
is left in the end. -/
inductive Leafs (root : List (String × Json)) (k : UInt64) :
    Nat → Store → List Row → Store → Prop
  /-- a page without rows is the last one -/
  | done {i : Nat} {s s' : Store}
    (page : s.Gives (.object (Json.withPage k (UInt64.ofNat (i * k.toNat)) root)) [] s') :
    Leafs root k i s [] s'
  /-- one with rows is turned over -/
  | turn {i : Nat} {s s' s'' : Store} {rows more : List Row} (some : rows ≠ [])
    (page : s.Gives (.object (Json.withPage k (UInt64.ofNat (i * k.toNat)) root)) rows s')
    (rest : Leafs root k (i + 1) s' more s'') : Leafs root k i s (rows ++ more) s''

variable {root : List (String × Json)} {k : UInt64} {o : Output} {i : Nat}

/-- There is one way to leaf through a query, as `Leafs` does. -/
theorem Leafs.unique (h : Leafs root k i s rows s') (h' : Leafs root k i s more s'') :
    rows = more ∧ s' = s'' := by
  induction h generalizing more s'' with
  | done page =>
    cases h' with
    | done page' => exact page.unique page'
    | turn hsome page' _ => exact absurd (page.unique page').1.symm hsome
  | turn hsome page _ ih =>
    cases h' with
    | done page' => exact absurd (page.unique page').1 hsome
    | turn _ page' rest' =>
      obtain ⟨rfl, rfl⟩ := page.unique page'
      obtain ⟨rfl, rfl⟩ := ih rest'
      exact ⟨rfl, rfl⟩

/-- The offset of a page that is asked for is a word, if there are not too many rows. -/
theorem toNat_ofNat_offset {count : Nat} (hfits : 2 * count ≤ UInt64.size)
    (hasked : i * k.toNat < count + k.toNat) :
    (UInt64.ofNat (i * k.toNat)).toNat = i * k.toNat := by
  have hk : k.toNat < UInt64.size := k.toNat_lt_size
  have hword : i * k.toNat < UInt64.size := by
    rcases Nat.lt_or_ge k.toNat count with hlt | hge
    · omega
    · -- all rows are on the first page, so there is no third one
      have htwo : i < 2 := Nat.lt_of_mul_lt_mul_right (a := k.toNat) (by omega)
      rcases Nat.lt_succ_iff_lt_or_eq.mp htwo with hfirst | rfl
      · rw [Nat.lt_one_iff.mp hfirst, Nat.zero_mul]
        exact Nat.zero_lt_of_lt hk
      · rwa [Nat.one_mul]
  rw [UInt64.toNat_ofNat', Nat.mod_eq_of_lt hword]

section Pages

variable (hlog : s.log = l.map some) (hplan : Plan.ofJson (.object root) = .ok plan)
  (houtput : plan.output? = some o) (hlimit : o.limit = none) (hoffset : o.offset = 0)
  (hcount : (s.registerNames (plan.registered l)).Countable)

include hlog hplan houtput hlimit hoffset hcount

/-- **A page gives its `rows`**, if the pages before it have registered their names. -/
theorem gives_page (listed : List String)
    (hword : (UInt64.ofNat (i * k.toNat)).toNat = i * k.toNat) :
    (s.registerNames ((plan.registered l).take (i * k.toNat))).Gives
      (.object (Json.withPage k (UInt64.ofNat (i * k.toNat)) root))
      (((plan.rows l listed).drop (i * k.toNat)).take k.toNat)
      (s.registerNames ((plan.registered l).take ((i + 1) * k.toNat))) := by
  have hlog' := log_of_grows (grows_registerNames s ((plan.registered l).take (i * k.toNat))) hlog
  have hpage := Plan.ofJson_withPage hplan k (UInt64.ofNat (i * k.toNat))
  rw [hword] at hpage
  have hstore : ((s.registerNames ((plan.registered l).take (i * k.toNat))).answer
      (plan.paged k.toNat (i * k.toNat))).2 =
        s.registerNames ((plan.registered l).take ((i + 1) * k.toNat)) := by
    rw [store_answer hlog', Plan.registered_paged houtput hlimit hoffset, ← registerNames_append,
      Nat.succ_mul, List.take_add]
  have hcount' : (s.registerNames ((plan.registered l).take ((i + 1) * k.toNat))).Countable := by
    rw [← List.take_append_drop ((i + 1) * k.toNat) (plan.registered l),
      registerNames_append] at hcount
    exact .of_grows (grows_registerNames _ _) hcount
  have hgives := gives_of_ofJson hlog' hpage (by rwa [hstore])
  rwa [hstore, Plan.rows_paged houtput hlimit hoffset] at hgives

/-- **Behind the last row** there is an empty page, and nothing is left to be registered. -/
theorem leafs_end (listed : List String) (hfits : 2 * (plan.rows l listed).length ≤ UInt64.size)
    (hasked : i * k.toNat < (plan.rows l listed).length + k.toNat)
    (hend : (plan.rows l listed).length ≤ i * k.toNat) :
    Leafs root k i (s.registerNames ((plan.registered l).take (i * k.toNat))) []
      (s.registerNames (plan.registered l)) := by
  have hpage := gives_page hlog hplan houtput hlimit hoffset hcount listed
    (toNat_ofNat_offset hfits hasked)
  have hall : (plan.registered l).take ((i + 1) * k.toNat) = plan.registered l := by
    refine List.take_of_length_le ((plan.length_registered_le l listed).trans (hend.trans ?_))
    exact Nat.mul_le_mul_right _ (Nat.le_succ i)
  rw [List.drop_eq_nil_of_le hend, List.take_nil, hall] at hpage
  exact .done hpage

/-- **From page `i` on** all rows from there on are given. The induction is on a bound on how many
these are. -/
theorem leafs_from (listed : List String) (hk : 0 < k.toNat)
    (hfits : 2 * (plan.rows l listed).length ≤ UInt64.size) (n : Nat)
    (hn : (plan.rows l listed).length ≤ i * k.toNat + n)
    (hasked : i * k.toNat < (plan.rows l listed).length + k.toNat) :
    Leafs root k i (s.registerNames ((plan.registered l).take (i * k.toNat)))
      ((plan.rows l listed).drop (i * k.toNat)) (s.registerNames (plan.registered l)) := by
  induction n generalizing i with
  | zero =>
    rw [Nat.add_zero] at hn
    rw [List.drop_eq_nil_of_le hn]
    exact leafs_end hlog hplan houtput hlimit hoffset hcount listed hfits hasked hn
  | succ n ih =>
    rcases Nat.lt_or_ge (i * k.toNat) (plan.rows l listed).length with hmore | hend
    · have hpage := gives_page hlog hplan houtput hlimit hoffset hcount listed
        (toNat_ofNat_offset hfits hasked)
      have hsome : ((plan.rows l listed).drop (i * k.toNat)).take k.toNat ≠ [] := by
        rw [← List.length_pos_iff, List.length_take, List.length_drop]
        omega
      have hnext : (i + 1) * k.toNat = i * k.toNat + k.toNat := Nat.succ_mul i k.toNat
      have hturn := Leafs.turn hsome hpage (ih (by omega) (by omega))
      rwa [hnext, ← List.drop_drop, List.take_append_drop] at hturn
    · rw [List.drop_eq_nil_of_le hend]
      exact leafs_end hlog hplan houtput hlimit hoffset hcount listed hfits hasked hend

end Pages

/-- **Pages lose and repeat nothing.** A select of points or a join without a page of its own
`Gives` some rows. Whoever `Leafs` through it, by any number of rows, gets these rows, and leaves
the store as the whole query does. Points need names, lest one gets the name of a row while pages
are turned, and the offset of the last page has to be a word. -/
theorem rows_of_pages (hplan : Plan.ofJson (.object root) = .ok plan)
    (houtput : plan.output? = some o) (hlimit : o.limit = none) (hoffset : o.offset = 0)
    (hpointed : s.Pointed) (hcount : (s.query (some (.object root))).2.Countable)
    (hfits : 2 * s.points.length ≤ UInt64.size) (hk : 0 < k) :
    ∃ rows s', s.Gives (.object root) rows s' ∧ Leafs root k 0 s rows s' ∧
      ∀ more s'', Leafs root k 0 s more s'' → more = rows ∧ s'' = s' := by
  obtain ⟨l, hlog⟩ := hpointed.exists_log
  have hlength : l.length = s.points.length := by
    have h := congrArg List.length hlog
    rwa [log, List.length_map, List.length_map, eq_comm] at h
  have hanswer : (s.query (some (.object root))).2 = (s.answer plan).2 := by rw [query, hplan]
  rw [hanswer] at hcount
  have hgives := gives_of_ofJson hlog hplan hcount
  rw [store_answer hlog] at hgives hcount
  have hrows := Plan.length_rows_le houtput hlimit hoffset l s.listedNames
  have hpos : 0 < k.toNat := UInt64.lt_iff_toNat_lt.mp hk
  have hleafs := leafs_from (i := 0) hlog hplan houtput hlimit hoffset hcount s.listedNames hpos
    (by omega) (plan.rows l s.listedNames).length (by omega) (by omega)
  rw [Nat.zero_mul, List.take_zero, List.drop_zero] at hleafs
  exact ⟨_, _, hgives, hleafs, fun more s'' h => h.unique hleafs⟩

/-- A join of two rows, a row to a page: each page registers the name of its row, and the third page
is empty. -/
theorem rows_of_pages_join :
    let s := ofSeries ["m host=a", "n host=a", "m host=b"]
      [⟨1, 5, ⟨0⟩⟩, ⟨2, 5, Double.nan⟩, ⟨3, 5, Double.negZero⟩]
    let root : List (String × Json) := [("join", .array [.text "m", .text "n"])]
    let rows : List Row := [⟨some "m|n host=a", some 5, [⟨0⟩, Double.nan]⟩,
      ⟨some "m|n host=b", some 5, [Double.negZero, Double.nan]⟩]
    let s' := (s.addName "m|n host=a").addName "m|n host=b"
    Plan.ofJson (.object root) = .ok (.join ⟨["m", "n"], {}, none⟩ {}) ∧ s.Pointed ∧
      s.Gives (.object root) rows s' ∧ s'.Countable ∧ Leafs root 1 0 s rows s' := by
  intro s root rows s'
  have hplan : Plan.ofJson (.object root) = .ok (.join ⟨["m", "n"], {}, none⟩ {}) := by
    decide +kernel
  have hpointed : s.Pointed := by decide
  have hbegun : (s.matching ⟨["m", "n"], {}, none⟩).foldl (joinPoint ["m", "n"]) [] =
      [⟨⟨"host=a", 5⟩, [some ⟨0⟩, some Double.nan]⟩,
        ⟨⟨"host=b", 5⟩, [some Double.negZero, none]⟩] := by decide +kernel
  have hquery : s.query (some (.object root)) = (.ok
      [.tuple 4 5 [some ⟨0⟩, some Double.nan], .tuple 5 5 [some Double.negZero, none]], s') := by
    rw [query, hplan]
    dsimp only [answer, join, joinRows]
    rw [hbegun, List.mergeSort_of_pairwise (by decide +kernel)]
    decide +kernel
  have hgives : s.Gives (.object root) rows s' := ⟨_, hquery, by decide +kernel⟩
  have hcount : (s.query (some (.object root))).2.Countable := by
    rw [hquery]
    decide +kernel
  obtain ⟨_, _, hall, hleafs, -⟩ :=
    rows_of_pages (k := 1) hplan rfl rfl rfl hpointed hcount (by decide) (by decide)
  obtain ⟨rfl, rfl⟩ := hall.unique hgives
  rw [hquery] at hcount
  exact ⟨hplan, hpointed, hgives, hcount, hleafs⟩

end Store

end TimeSeries
