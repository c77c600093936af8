import Mathlib.Data.List.Induction
import TimeSeries.Proofs.Client.RunAnswers
import TimeSeries.Proofs.Client.RowsFromLog
import TimeSeries.Proofs.Engine.Coherence
import TimeSeries.Proofs.Engine.Listings
import TimeSeries.Proofs.Query.Forms
import TimeSeries.Proofs.Store.SelectAnswer
import TimeSeries.Proofs.Text.Utf8

/-!
# What was registered is what is listed

A name gets into a store when a writer asks for the id of its series, or when an answer makes it up
for a row, and only the former lists it, whichever happens first. So what the store of a file lists
can be read off the acts that led to it: the names that were registered (`Memory.Registered`) by an
act after which the file was not removed. One act enlists a name, removes the store or leaves what
is listed alone (`Memory.turn_act`), and by induction over acts the store lists what was registered
(`Memory.lists_acts`).

Main result: `Memory.names_of_acts`.
-/

namespace TimeSeries

/-! ### Names in order -/

/-- The names that a filter lets through are listed by `list` in the order of their bytes, each
once. -/
theorem Store.Lists.exists_rows {s : Store} {names : List String} (h : s.Lists names)
    (f : PointFilter) :
    ∃ rows : List String, (s.list f).map s.row = rows.map (fun name => ⟨some name, some 0, []⟩) ∧
      rows.Pairwise (fun a b => Text.bytes a < Text.bytes b) ∧
      ∀ name, name ∈ rows ↔ name ∈ names ∧ f.accepts name = true := by
  refine ⟨_, rows_list s f, ?_, fun name => ?_⟩
  · exact (pairwise_sorted_names (h.nodup.filter _)).imp Text.bytes_lt_iff.mpr
  · rw [List.mem_mergeSort, List.mem_filter, h.mem]

/-- What a `Listing` lets through: the names of its metric that have its tag. -/
theorem Listing.accepts_iff (l : Listing) (range : TimeRange) (name : String) :
    PointFilter.accepts ⟨l.metric.toList, range, l.tag⟩ name = true ↔
      (∀ metric ∈ l.metric, Series.metric name = metric) ∧ ∀ clause ∈ l.tag,
        ∃ tag ∈ Series.tags name, tag.name = clause.tag ∧ tag.value ∈ clause.values := by
  rw [Store.accepts_iff]
  refine and_congr_left' ?_
  cases l.metric <;> simp

namespace Memory

variable (parse : String → Option Json) {file : FileKey} {w : World Memory} {a : Act}
  {as : List Act} {name name' : String}

/-! ### Registrations -/

/-- **Enlisting a name**: an `Act` that asks for the id of a series with this canonical name, by
`seriesToId` in a session on the file, and gets one. -/
def Enlists (file : FileKey) (w : World Memory) (a : Act) (name : String) : Prop :=
  ∃ session series, a = .call (.seriesToId session series) ∧
    w.engine.sessionFile? session = some file ∧ Series.normalize series = some name ∧
    ∃ id, ((engine parse).ask (.seriesToId session series) w).1 = .ok id

/-- **Registered names**: those that one of the acts `Enlists`, after which no other act removes the
file. -/
def Registered (file : FileKey) (w : World Memory) (as : List Act) (name : String) : Prop :=
  ∃ before a after, as = before ++ a :: after ∧ Enlists parse file (acts parse w before) a name ∧
    Spare parse file (acts parse w (before ++ [a])) after

variable {parse}

/-- An act `Enlists` one name at most. -/
theorem Enlists.unique (h : Enlists parse file w a name) (h' : Enlists parse file w a name') :
    name' = name := by
  obtain ⟨session, series, rfl, -, hname, -⟩ := h
  obtain ⟨_, _, hact, -, hname', -⟩ := h'
  cases hact
  exact Option.some.inj (hname'.symm.trans hname)

/-- Whatever is enlisted, the file stays. -/
theorem Enlists.not_removes (h : Enlists parse file w a name) : ¬Removes parse file w a := by
  obtain ⟨session, series, rfl, -⟩ := h
  rintro ⟨path, hact, -⟩
  cases hact

/-- **What is `Registered` was asked for** by a writer. -/
theorem Registered.exists_call (h : Registered parse file w as name) :
    ∃ session series, .call (.seriesToId session series) ∈ as ∧
      Series.normalize series = some name := by
  obtain ⟨before, a, after, rfl, ⟨session, series, rfl, -, hname, -⟩, -⟩ := h
  exact ⟨session, series, List.mem_append_right before List.mem_cons_self, hname⟩

variable (parse)

theorem acts_append (w : World Memory) (as bs : List Act) :
    acts parse w (as ++ bs) = acts parse (acts parse w as) bs := List.foldl_append

theorem spare_append {bs : List Act} : Spare parse file w (as ++ bs) ↔
    Spare parse file w as ∧ Spare parse file (acts parse w as) bs := by
  induction as generalizing w with
  | nil => exact ⟨fun h => ⟨trivial, h⟩, And.right⟩
  | cons a as ih =>
    rw [List.cons_append, Spare, Spare, ih, and_assoc]
    rfl

/-- Acts that remove no file `Spare` all of them. -/
theorem spare_of_forall (h : ∀ a ∈ as, ∀ path, a ≠ .call (.removeDatabase path)) :
    Spare parse file w as := by
  induction as generalizing w with
  | nil => exact trivial
  | cons a as ih =>
    refine ⟨?_, ih fun b hb => h b (List.mem_cons_of_mem a hb)⟩
    rintro ⟨path, hact, -⟩
    exact h a List.mem_cons_self path hact

/-- **One act more** `Enlists` a name, and leaves registered what was, unless it removes the
file. -/
theorem registered_concat : Registered parse file w (as ++ [a]) name ↔
    Enlists parse file (acts parse w as) a name ∨
      Registered parse file w as name ∧ ¬Removes parse file (acts parse w as) a := by
  constructor
  · rintro ⟨before, b, after, has, henlists, hspare⟩
    -- the act that enlists is the last one, or the last one is among those that spare the file
    obtain rfl | ⟨after, c, rfl⟩ := List.eq_nil_or_concat after
    · obtain ⟨rfl, hlast⟩ := List.append_inj' has rfl
      cases hlast
      exact .inl henlists
    · rw [List.concat_eq_append, ← List.cons_append, ← List.append_assoc] at has
      obtain ⟨rfl, hlast⟩ := List.append_inj' has rfl
      cases hlast
      rw [List.concat_eq_append, spare_append, ← acts_append, ← List.append_cons] at hspare
      exact .inr ⟨⟨before, b, after, rfl, henlists, hspare.1⟩, hspare.2.1⟩
  · rintro (henlists | ⟨⟨before, b, after, rfl, henlists, hspare⟩, hspared⟩)
    · exact ⟨as, a, [], rfl, henlists, trivial⟩
    · refine ⟨before, b, after ++ [a], by simp, henlists, (spare_append parse).mpr ⟨hspare, ?_⟩⟩
      rw [← acts_append, ← List.append_cons]
      exact ⟨hspared, trivial⟩

/-! ### One act -/

/-- **What an act makes of what a file lists.** -/
inductive Turn (file : FileKey) (w : World Memory) (a : Act) : Prop
  /-- the file is removed, and its store with it -/
  | removed (hremoves : Removes parse file w a)
    (hstore : (act parse w a).engine.storeOf file = .empty)
  /-- a name is enlisted -/
  | enlisted {name : String} (henlists : Enlists parse file w a name)
    (hstore : (act parse w a).engine.storeOf file = ((w.engine.storeOf file).enlist name).2)
  /-- nothing is enlisted, though names may be made up -/
  | kept (hspared : ¬Removes parse file w a) (hnone : ∀ name, ¬Enlists parse file w a name)
    (hnames : (w.engine.storeOf file).names <+: ((act parse w a).engine.storeOf file).names)
    (hlisted : ((act parse w a).engine.storeOf file).listed = (w.engine.storeOf file).listed)

variable {parse}

theorem Turn.of_storeOf_eq (hspared : ¬Removes parse file w a)
    (hnone : ∀ name, ¬Enlists parse file w a name)
    (hstore : (act parse w a).engine.storeOf file = w.engine.storeOf file) :
    Turn parse file w a := by
  have hsame : (w.engine.storeOf file).names <+: ((act parse w a).engine.storeOf file).names ∧
      ((act parse w a).engine.storeOf file).listed = (w.engine.storeOf file).listed := by
    rw [hstore]
    exact ⟨List.prefix_refl _, rfl⟩
  exact .kept hspared hnone hsame.1 hsame.2

variable (parse)

theorem turn_seriesToId (session : Handle) (series : String) (w : World Memory) :
    Turn parse file w (.call (.seriesToId session series)) := by
  have hspared : ¬Removes parse file w (.call (.seriesToId session series)) := by
    rintro ⟨path, hact, -⟩
    cases hact
  have hasked : (engine parse).ask (.seriesToId session series) w =
      ((w.engine.seriesToId session series).1, { w with
        engine := (w.engine.seriesToId session series).2
        calls := .seriesToId session series :: w.calls }) := rfl
  cases hname : Series.normalize series with
  | none =>
    refine .of_storeOf_eq hspared ?_ ?_
    · rintro name ⟨_, _, hact, -, hname', -⟩
      cases hact
      rw [hname] at hname'
      cases hname'
    · rw [act, hasked, seriesToId, hname]
  | some name =>
    cases hst : w.engine.store? session with
    | none =>
      refine .of_storeOf_eq hspared ?_ ?_
      · rintro name' ⟨_, _, hact, -, -, id, hid⟩
        cases hact
        rw [hasked, seriesToId, hname, hst] at hid
        cases hid
      · rw [act, hasked, seriesToId, hname, hst]
    | some st =>
      have hengine : (act parse w (.call (.seriesToId session series))).engine =
          w.engine.setStore session (st.enlist name).2 := by
        rw [act, hasked, seriesToId, hname, hst]
      obtain ⟨key, hkey, hfind⟩ := Option.bind_eq_some_iff.mp hst
      by_cases hsame : key = file
      · subst hsame
        refine .enlisted ⟨session, series, rfl, hkey, hname, (st.enlist name).1, ?_⟩ ?_
        · rw [hasked, seriesToId, hname, hst]
        · rw [hengine, storeOf, storeOf, hfind, setStore, hkey, Table.find?_put_self]
          rfl
      · refine .of_storeOf_eq hspared ?_ ?_
        · rintro name' ⟨_, _, hact, hfile, -⟩
          cases hact
          exact hsame (Option.some.inj (hkey.symm.trans hfile))
        · rw [hengine, storeOf, storeOf, setStore, hkey, Table.find?_put_ne _ _ hsame]

theorem turn_removeDatabase (path : Path) (w : World Memory) :
    Turn parse file w (.call (.removeDatabase path)) := by
  have hnone : ∀ name, ¬Enlists parse file w (.call (.removeDatabase path)) name := by
    rintro name ⟨_, _, hact, -⟩
    cases hact
  rcases ask_removeDatabase_cases parse path w with ⟨hfailed, hengine⟩ | ⟨-, hsuccess, hengine⟩
  · refine .of_storeOf_eq ?_ hnone (by rw [act, hengine])
    rintro ⟨_, hact, -, hsuccess⟩
    cases hact
    exact hfailed hsuccess
  · by_cases hsame : path.key = file
    · refine .removed ⟨path, rfl, hsame, hsuccess⟩ ?_
      subst hsame
      rw [act, hengine, storeOf, removed, Table.find?_erase, if_pos rfl]
      rfl
    · refine .of_storeOf_eq ?_ hnone ?_
      · rintro ⟨_, hact, hkey, -⟩
        cases hact
        exact hsame hkey
      · rw [act, hengine, storeOf, storeOf, removed, Table.find?_erase, if_neg hsame]

/-- **Every act** enlists a name, removes the file or leaves what is listed alone. -/
theorem turn_act (a : Act) (w : World Memory) : Turn parse file w a := by
  have hother : (∀ c, a ≠ .call c) →
      ¬Removes parse file w a ∧ ∀ name, ¬Enlists parse file w a name := by
    intro hcall
    exact ⟨fun ⟨path, hact, _⟩ => hcall _ hact, fun name ⟨_, _, hact, _⟩ => hcall _ hact⟩
  cases a with
  | files t =>
    obtain ⟨hspared, hnone⟩ := hother fun c h => by cases h
    exact .of_storeOf_eq hspared hnone rfl
  | disturb d =>
    obtain ⟨hspared, hnone⟩ := hother fun c h => by cases h
    refine .of_storeOf_eq hspared hnone ?_
    cases d <;> rfl
  | call c =>
    by_cases hc : c.OnListings
    · cases c with
      | seriesToId session series => exact turn_seriesToId parse session series w
      | removeDatabase path => exact turn_removeDatabase parse path w
      | _ => exact hc.elim
    · obtain ⟨hnames, hlisted⟩ := @storeOf_ask parse w file c hc
      refine .kept ?_ ?_ hnames hlisted
      · rintro ⟨path, hact, -⟩
        cases hact
        exact hc trivial
      · rintro name ⟨_, _, hact, -⟩
        cases hact
        exact hc trivial

/-! ### All acts -/

theorem Coherent.sound_storeOf {m : Memory} (h : m.Coherent) (file : FileKey) :
    (m.storeOf file).Sound := by
  rw [storeOf]
  cases hst : m.stores.find? file with
  | none => exact Store.sound_empty
  | some st => exact (Store.coherent_iff.mp (h.stores file st hst)).1

/-- **A store lists what was `Registered`**, as long as its names can be counted by words. -/
theorem lists_acts (h : w.engine.Coherent) (hempty : w.engine.storeOf file = .empty)
    (hcount : ((acts parse w as).engine.storeOf file).Countable) :
    ∃ names, ((acts parse w as).engine.storeOf file).Lists names ∧
      ∀ name, name ∈ names ↔ Registered parse file w as name := by
  -- by the last act: names can only be counted before it if they can be after it
  induction as using List.reverseRecOn with
  | nil =>
    refine ⟨[], ?_, fun name => ⟨fun hname => (by cases hname), ?_⟩⟩
    · rw [acts, List.foldl_nil, hempty]
      exact Store.lists_empty
    · rintro ⟨before, a, after, has, -⟩
      cases before <;> cases has
  | append_singleton as a ih =>
    have hact : acts parse w (as ++ [a]) = act parse (acts parse w as) a :=
      acts_append parse w as [a]
    have hsound := (coherent_foldl parse h as).sound_storeOf file
    rw [hact] at hcount ⊢
    have hturn : Turn parse file (acts parse w as) a := turn_act parse a _
    cases hturn with
    | removed hremoves hstore =>
      refine ⟨[], hstore ▸ Store.lists_empty, fun name => ?_⟩
      rw [registered_concat]
      refine ⟨fun hname => (by cases hname), ?_⟩
      rintro (henlists | ⟨-, hspared⟩)
      · exact absurd hremoves henlists.not_removes
      · exact absurd hremoves hspared
    | @enlisted new henlists hstore =>
      rw [hstore] at hcount ⊢
      obtain ⟨names, hlists, hnames⟩ := ih (.of_grows (Store.enlist_grows _ new) hcount)
      refine ⟨_, hlists.enlist hsound hcount, fun name => ?_⟩
      rw [registered_concat, List.mem_append, List.mem_singleton, hnames]
      constructor
      · rintro (hname | rfl)
        · exact .inr ⟨hname, henlists.not_removes⟩
        · exact .inl henlists
      · rintro (hname | ⟨hname, -⟩)
        · exact .inr (henlists.unique hname)
        · exact .inl hname
    | kept hspared hnone hgrown hlisted =>
      obtain ⟨names, hlists, hnames⟩ := ih (Nat.lt_of_le_of_lt hgrown.length_le hcount)
      refine ⟨names, hlists.grow hgrown hlisted, fun name => ?_⟩
      rw [registered_concat, hnames]
      exact ⟨fun hname => .inr ⟨hname, hspared⟩, fun h => (h.resolve_left (hnone name)).1⟩

/-! ### Listings after acts -/

/-- **Candid acts** leave alone what answers are made from: no name is forgotten, and no bytes are
put in the place of an answer. All calls are candid. -/
def Act.Candid : Act → Prop
  | .disturb (.forgetSeries _) | .disturb (.rawResult _) => False
  | _ => True

/-- **Candid engines** answer from their stores, by names that they know. -/
structure Candid (m : Memory) : Prop where
  /-- no bytes wait to take the place of an answer -/
  raw : m.rawResults = []
  /-- no name is forgotten -/
  forgotten : m.forgotten = []

theorem Candid.ask (h : w.engine.Candid) (call : Call) :
    ((engine parse).ask call w).2.engine.Candid := by
  have heffect := effect_ask parse call w
  generalize call.lease? ((engine parse).ask call w).1 = lent at heffect
  generalize ((engine parse).ask call w).2.engine = m at heffect ⊢
  cases heffect with
  | idle => exact h
  | closed database =>
    rw [closeDatabase]
    split
    · exact ⟨h.raw, h.forgotten⟩
    · exact h
  | fed session text hraw => cases h.raw.symm.trans hraw
  | opened | removed | begun | ended | enlisted | appended | refused | answered | denied | delivered
  | shut => exact ⟨h.raw, h.forgotten⟩

theorem Candid.acts (h : w.engine.Candid) (hcandid : ∀ a ∈ as, a.Candid) :
    (acts parse w as).engine.Candid := by
  induction as generalizing w with
  | nil => exact h
  | cons a as ih =>
    refine ih ?_ fun b hb => hcandid b (List.mem_cons_of_mem a hb)
    have ha := hcandid a List.mem_cons_self
    cases a with
    | call c => exact h.ask parse c
    | files t => exact h
    | disturb d =>
      cases d with
      | forgetSeries series => exact ha.elim
      | rawResult bytes => exact ha.elim
      | _ => exact ⟨h.raw, h.forgotten⟩

/-- The store of an open session is that of its file, `storeOf`. -/
theorem Coherent.serves {m : Memory} (h : m.Coherent) {session : Handle}
    (hfile : m.sessionFile? session = some file) : m.Serves session file (m.storeOf file) := by
  obtain ⟨database, -, hdatabase⟩ := Option.bind_eq_some_iff.mp hfile
  obtain ⟨st, hst⟩ := Option.isSome_iff_exists.mp
    (h.housed file (Table.mem_values_of_find? hdatabase))
  refine ⟨hfile, ?_⟩
  rw [storeOf, hst]
  rfl

/-- **A listing is answered** with one record for each name that it asks for among those that the
store of the session lists, in the order of their bytes. -/
theorem Serves.names_of_query {session : Handle} {st : Store} {listed : List String}
    {text : String} {root : List (String × Json)} {l : Listing}
    (hserves : w.engine.Serves session file st) (hcandid : w.engine.Candid)
    (hlists : st.Lists listed) (hcount : st.Countable) (hparse : parse text = some (.object root))
    (hasked : l.Asked root) :
    let reply := (engine parse).ask (.query session text) w
    ∃ (names : List String) (records : List Bytes),
      reply.2.engine.cursors.find? reply.1 = some { records } ∧
      records.map (readAlone (reply.2.engine.idToSeries session)) =
        names.map (fun name => .ok ⟨some name, some 0, []⟩) ∧
      names.Pairwise (fun a b => Text.bytes a < Text.bytes b) ∧
      ∀ name, name ∈ names ↔ name ∈ listed ∧
        (∀ metric ∈ l.metric, Series.metric name = metric) ∧ ∀ clause ∈ l.tag,
          ∃ tag ∈ Series.tags name, tag.name = clause.tag ∧ tag.value ∈ clause.values := by
  intro reply
  obtain ⟨range, hplan⟩ := Listing.asked_iff.mp hasked
  obtain ⟨names, hrows, hsorted, hnames⟩ :=
    hlists.exists_rows ⟨l.metric.toList, range, l.tag⟩
  have hquery : st.query (parse text) = (.ok (st.list ⟨l.metric.toList, range, l.tag⟩), st) := by
    rw [hparse, Store.query, hplan]
    rfl
  obtain ⟨hhandle, hengine⟩ := ask_query_of_serves parse text hcandid.raw hserves
  rw [hquery] at hengine
  refine ⟨names, (st.list ⟨l.metric.toList, range, l.tag⟩).map Record.encode, ?_, ?_, hsorted,
    fun name => ?_⟩
  · rw [hhandle, hengine]
    exact Table.find?_put_self _ _ _
  · rw [hengine, List.map_map]
    refine (readAlone_answered hserves hcandid.forgotten hquery hcount).trans ?_
    have hread := congrArg (List.map (Except.ok : Row → Except Failure Row)) hrows
    rwa [List.map_map, List.map_map] at hread
  · rw [hnames, Listing.accepts_iff]

/-- **Listings.** After any acts on a fresh engine that are `Candid`, and so do not tamper with
answers, in a session on some file, the document of a listing gets a cursor with one record for each
name that it asks for. The names are those that were `Registered` by writers since the file was last
removed, and of these the ones with the metric and the tag of the listing; they are in the order of
their bytes, each once. Names that answers made up for their rows are not among them, unless they
were registered as well. -/
theorem names_of_acts {start : World Memory} {as : List Act} (hstart : start.engine = {})
    (hcandid : ∀ a ∈ as, a.Candid) {session : Handle} {file : FileKey} {text : String}
    {root : List (String × Json)} {l : Listing}
    (hfile : (acts parse start as).engine.sessionFile? session = some file)
    (hcount : ((acts parse start as).engine.storeOf file).Countable)
    (hparse : parse text = some (.object root)) (hasked : l.Asked root) :
    let reply := (engine parse).ask (.query session text) (acts parse start as)
    ∃ (names : List String) (records : List Bytes),
      reply.2.engine.cursors.find? reply.1 = some { records } ∧
      records.map (readAlone (reply.2.engine.idToSeries session)) =
        names.map (fun name => .ok ⟨some name, some 0, []⟩) ∧
      names.Pairwise (fun a b => Text.bytes a < Text.bytes b) ∧
      ∀ name, name ∈ names ↔ Registered parse file start as name ∧
        (∀ metric ∈ l.metric, Series.metric name = metric) ∧ ∀ clause ∈ l.tag,
          ∃ tag ∈ Series.tags name, tag.name = clause.tag ∧ tag.value ∈ clause.values := by
  intro reply
  have hfresh : start.engine.Coherent ∧ start.engine.Candid ∧ start.engine.storeOf file = .empty := by
    rw [hstart]
    exact ⟨coherent_empty, ⟨rfl, rfl⟩, rfl⟩
  obtain ⟨hcoherent, hanswers, hempty⟩ := hfresh
  obtain ⟨registered, hlists, hregistered⟩ := lists_acts parse hcoherent hempty hcount
  have hserves := (coherent_foldl parse hcoherent as).serves hfile
  obtain ⟨names, records, hfeed, hread, hsorted, hnames⟩ :=
    hserves.names_of_query parse (hanswers.acts parse hcandid) hlists hcount hparse hasked
  refine ⟨names, records, hfeed, hread, hsorted, fun name => ?_⟩
  rw [hnames, hregistered]

/-- Two series are registered, the later one with more blanks than its canonical name, and between
that an aggregate makes up a name of its own. The listing is of the two, in order. -/
theorem names_of_acts_aggregate :
    let root : List (String × Json) := [("select", .text "meta:names:cpu"),
      ("where", .object [("host", .array [.text "a", .text "b"])])]
    let parse : String → Option Json := fun text =>
      some (.object (if text = "" then root else [("aggregate", .object [("cpu", .text "max")])]))
    let start : World Memory :=
      { engine := {}, files := ⟨Table.empty.put ["a.akumuli"] (.file "")⟩ }
    let as : List Act :=
      [.call (.openDatabase ⟨"a.akumuli"⟩ none), .call (.createSession 1),
        .call (.seriesToId 2 "cpu host=b"), .call (.write 2 1 5 ⟨0⟩), .call (.query 2 "max"),
        .call (.seriesToId 2 " cpu  host=a")]
    let reply := (engine parse).ask (.query 2 "") (acts parse start as)
    ((acts parse start as).engine.storeOf ["a.akumuli"]).names =
        ["cpu host=b", "cpu:max host=b", "cpu host=a"] ∧
      ∃ records : List Bytes, reply.2.engine.cursors.find? reply.1 = some { records } ∧
        records.map (readAlone (reply.2.engine.idToSeries 2)) =
          [.ok ⟨some "cpu host=a", some 0, []⟩, .ok ⟨some "cpu host=b", some 0, []⟩] := by
  intro root parse start as
  have hstore : ((acts parse start as).engine.storeOf ["a.akumuli"]).names =
      ["cpu host=b", "cpu:max host=b", "cpu host=a"] := by decide +kernel
  have hcandid : ∀ a ∈ as, a.Candid := by
    intro a ha
    simp only [as, List.mem_cons, List.not_mem_nil, or_false] at ha
    rcases ha with rfl | rfl | rfl | rfl | rfl | rfl <;> exact trivial
  have hcount : ((acts parse start as).engine.storeOf ["a.akumuli"]).Countable := by
    rw [Store.Countable, hstore]
    decide
  have hasked : Listing.Asked ⟨some "cpu", some ⟨"host", ["a", "b"]⟩⟩ root :=
    ⟨⟨rfl, rfl, rfl⟩, rfl, .inr rfl, {}, rfl⟩
  have hfile : (acts parse start as).engine.sessionFile? 2 = some ["a.akumuli"] := by
    decide +kernel
  have hparse : parse "" = some (.object root) := rfl
  obtain ⟨names, records, hfeed, hread, hsorted, hnames⟩ :=
    names_of_acts parse rfl hcandid hfile hcount hparse hasked
  have hfirst : Series.normalize "cpu host=b" = some "cpu host=b" := by decide +kernel
  have hlast : Series.normalize " cpu  host=a" = some "cpu host=a" := by decide +kernel
  have hregistered : ∀ name, Registered parse ["a.akumuli"] start as name ↔
      name = "cpu host=a" ∨ name = "cpu host=b" := by
    intro name
    constructor
    · intro h
      obtain ⟨session, series, hcall, hname⟩ := h.exists_call
      simp only [as, List.mem_cons, List.not_mem_nil, or_false, Act.call.injEq, reduceCtorEq,
        false_or, Call.seriesToId.injEq] at hcall
      rcases hcall with ⟨-, rfl⟩ | ⟨-, rfl⟩
      · exact .inr (Option.some.inj (hname.symm.trans hfirst))
      · exact .inl (Option.some.inj (hname.symm.trans hlast))
    · rintro (rfl | rfl)
      · exact ⟨as.take 5, _, [], rfl, ⟨2, _, rfl, by decide +kernel, hlast, 3, by decide +kernel⟩,
          trivial⟩
      · exact ⟨as.take 2, _, as.drop 3, rfl,
          ⟨2, _, rfl, by decide +kernel, hfirst, 1, by decide +kernel⟩,
          spare_of_forall parse (by simp [as])⟩
  have hascending := hsorted.imp Text.bytes_lt_iff.mp
  have hlist : names = ["cpu host=a", "cpu host=b"] := by
    have hpair : ["cpu host=a", "cpu host=b"].Pairwise (· < ·) := by decide +kernel
    refine List.Perm.eq_of_pairwise (fun a b _ _ hab hba => absurd hba (String.lt_asymm hab))
      hascending hpair ((List.perm_ext_iff_of_nodup (hascending.imp ne_of_lt)
        (hpair.imp ne_of_lt)).mpr fun name => ?_)
    rw [hnames, hregistered, List.mem_cons, List.mem_singleton, and_iff_left_iff_imp]
    rintro (rfl | rfl) <;> decide +kernel
  rw [hlist] at hread
  exact ⟨hstore, records, hfeed, hread⟩

end Memory

end TimeSeries
