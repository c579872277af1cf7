import Pandora.Sessions.Events

/-! # Paging through the events of a session

The rows of a session after a cursor are those of the page and those after the next cursor
(`split_page`), and a later append only adds rows after every cursor given before (`Extends`). So
the pages together are the rows that `resume` reads when the last page is made (`paging_exact`),
however many events are appended in between. -/

namespace Pandora.Sessions.Paging

open Ids Lib.Checked Lib.Runs Text Sessions.Events SessionStore List

variable {ε ρ : Type} {format : EventFormat ε} {sha : Sha256} {table table' : EventTable}
  {store store' : SessionStore} {scope : Scope} {limit : UInt16}

/-! ## What appends do -/

/-- The rows that came later have larger numbers. -/
def Extends (table table' : EventTable) : Prop :=
  table.last ≤ table'.last ∧
    ∃ new, table'.rows = table.rows ++ new ∧ ∀ row ∈ new, table.last < row.sequence

theorem Extends.refl (table : EventTable) : Extends table table :=
  ⟨le_refl _, [], (append_nil _).symm, by simp⟩

theorem Extends.trans {table'' : EventTable} (h : Extends table table')
    (h' : Extends table' table'') : Extends table table'' := by
  obtain ⟨hlast, new, hrows, hnew⟩ := h
  obtain ⟨hlast', new', hrows', hnew'⟩ := h'
  refine ⟨hlast.trans hlast', new ++ new', ?_, fun row hrow => ?_⟩
  · rw [hrows', hrows, append_assoc]
  · rcases mem_append.mp hrow with hrow | hrow
    · exact hnew row hrow
    · exact lt_of_le_of_lt hlast (hnew' row hrow)

/-- The texts of all rows can be read. -/
def Readable (format : EventFormat ε) (table : EventTable) : Prop :=
  ∀ row ∈ table.rows, ∃ event, format.fromStr row.eventJson = some event

/-- The format reads what it writes. -/
def ReadsBack (format : EventFormat ε) : Prop :=
  ∀ event text, format.toVec event = some text → format.fromStr text = some event

variable {sessionId : SessionId} {recordedAt : Option ℕ}

theorem insert_extends {text : String}
    (h : table.insert sessionId text recordedAt = .ok table') : Extends table table' := by
  unfold EventTable.insert at h
  split_ifs at h with hlast
  cases h
  refine ⟨(lt_add_one _).le, _, rfl, fun row hrow => ?_⟩
  obtain rfl := mem_singleton.mp hrow
  exact lt_add_one _

/-- The rows of the session after the cursor. -/
def after (table : EventTable) (sessionId : SessionId) (cursor : ℤ) : List EventRow :=
  table.rows.filter fun row => row.sessionId = sessionId && cursor < row.sequence

/-- The events of the rows. -/
def Reads (format : EventFormat ε) (rows : List EventRow) (events : List ε) : Prop :=
  List.Forall₂ (fun row event => format.fromStr row.eventJson = some event) rows events

theorem exists_reads : ∀ {rows : List EventRow},
    (∀ row ∈ rows, ∃ event, format.fromStr row.eventJson = some event) →
      ∃ events, Reads format rows events
  | [], _ => ⟨[], .nil⟩
  | row :: rows, h => by
    obtain ⟨hrow, hrows⟩ := forall_mem_cons.mp h
    obtain ⟨event, hevent⟩ := hrow
    obtain ⟨events, hevents⟩ := exists_reads hrows
    exact ⟨event :: events, .cons hevent hevents⟩

theorem Reads.unique {rows : List EventRow} {events events' : List ε} (h : Reads format rows events)
    (h' : Reads format rows events') : events = events' :=
  right_unique_forall₂' (fun _ _ _ h h' => Option.some.inj (h.symm.trans h')) h h'

theorem Readable.exists_reads (h : Readable format table) (sessionId : SessionId) (cursor : ℤ) :
    ∃ events, Reads format (after table sessionId cursor) events :=
  Paging.exists_reads fun row hrow => h row (mem_filter.mp hrow).1

theorem readable_of_reads
    (h : ∀ sessionId, ∃ events, Reads format (after table sessionId 0) events) :
    Readable format table := by
  intro row hrow
  obtain ⟨events, hreads⟩ := h row.sessionId
  have hmem : row ∈ after table row.sessionId 0 := by
    refine mem_filter.mpr ⟨hrow, ?_⟩
    rw [decide_eq_true (table.range row hrow).1, Bool.and_true]
    exact decide_eq_true rfl
  obtain ⟨i, hi, hget⟩ := getElem_of_mem hmem
  have hread := hreads.get hi (hreads.length_eq ▸ hi)
  rw [get_eq_getElem, hget] at hread
  exact ⟨_, hread⟩

variable {events : List ε}

theorem insert_reads {text : String} {event : ε} (htext : format.fromStr text = some event)
    (h : table.insert sessionId text recordedAt = .ok table') (other : SessionId)
    (hreads : Reads format (after table other 0) events) :
    Reads format (after table' other 0) (events ++ if sessionId = other then [event] else []) := by
  unfold EventTable.insert at h
  split_ifs at h with hlast
  cases h
  have hnonneg := table.last_nonneg
  have hpos : (0 : ℤ) < table.last + 1 := by omega
  unfold after
  dsimp only
  rw [filter_append]
  refine rel_append hreads ?_
  by_cases hother : sessionId = other
  · rw [if_pos hother, filter_cons_of_pos (by simp [hother, hpos])]
    exact .cons htext .nil
  · rw [if_neg hother, filter_cons_of_neg (by simp [hother])]
    exact .nil

/-- The events of the call, if they are of the session. -/
def eventsFor (sessionId : SessionId) : AppendCall ε → List ε
  | .appendEvent scope event _ => if scope.sessionId = sessionId then [event] else []
  | .appendEvents scope events _ => if scope.sessionId = sessionId then events else []
  | .appendExecution scope events _ _ _ _ => if scope.sessionId = sessionId then events else []

/-- The events that the successful calls append to the session, in order. -/
def appendedTo (format : EventFormat ε) (sha : Sha256) (sessionId : SessionId) :
    SessionStore → List (AppendCall ε) → List ε
  | _, [] => []
  | store, call :: calls =>
    match call.result format sha store with
    | .ok store => eventsFor sessionId call ++ appendedTo format sha sessionId store calls
    | .error _ => appendedTo format sha sessionId store calls

/-- What a transaction does to the store: it adds events to each session. -/
structure Appended (format : EventFormat ε) (store store' : SessionStore)
    (added : SessionId → List ε) : Prop where
  sessions : store'.sessions = store.sessions
  extends_ : Extends store.events store'.events
  reads : ∀ sessionId events, Reads format (after store.events sessionId 0) events →
    Reads format (after store'.events sessionId 0) (events ++ added sessionId)

theorem Appended.refl (format : EventFormat ε) (store : SessionStore) :
    Appended format store store fun _ => [] :=
  ⟨rfl, Extends.refl _, fun _ events h => (append_nil events).symm ▸ h⟩

theorem Appended.trans {store'' : SessionStore} {added added' : SessionId → List ε}
    (h : Appended format store store' added) (h' : Appended format store' store'' added') :
    Appended format store store'' fun sessionId => added sessionId ++ added' sessionId := by
  refine ⟨h'.sessions.trans h.sessions, h.extends_.trans h'.extends_,
    fun sessionId events hreads => ?_⟩
  rw [← append_assoc]
  exact h'.reads sessionId _ (h.reads sessionId events hreads)

theorem Appended.readable {added : SessionId → List ε} (h : Appended format store store' added)
    (hreadable : Readable format store.events) : Readable format store'.events := by
  refine readable_of_reads fun sessionId => ?_
  obtain ⟨events, hreads⟩ := hreadable.exists_reads sessionId 0
  exact ⟨_, h.reads sessionId events hreads⟩

theorem foldlM_insert : ∀ {texts : List String} {events : List ε} {table table' : EventTable},
    List.Forall₂ (fun text event => format.fromStr text = some event) texts events →
    texts.foldlM (fun table text => EventTable.insert table sessionId text recordedAt) table =
      .ok table' →
    Extends table table' ∧ ∀ other before, Reads format (after table other 0) before →
      Reads format (after table' other 0) (before ++ if sessionId = other then events else [])
  | _, _, table, table', .nil, h => by
    rw [foldlM_nil, pure_eq_ok] at h
    subst h
    refine ⟨Extends.refl _, fun other before hreads => ?_⟩
    rwa [ite_self, append_nil]
  | _, _, table, table', .cons htext htexts, h => by
    rw [foldlM_cons, bind_eq_ok] at h
    obtain ⟨middle, hfirst, hrest⟩ := h
    obtain ⟨hextends, hreads⟩ := foldlM_insert htexts hrest
    refine ⟨(insert_extends hfirst).trans hextends, fun other before hbefore => ?_⟩
    have hafter := hreads other _ (insert_reads htext hfirst other hbefore)
    rw [append_assoc] at hafter
    split_ifs at hafter ⊢
    · exact hafter
    · exact hafter

theorem serialize_reads (hformat : ReadsBack format) : ∀ {events : List ε} {texts : List String},
    serialize format events = .ok texts →
      List.Forall₂ (fun text event => format.fromStr text = some event) texts events
  | [], texts, h => by
    rw [serialize, mapM_nil, pure_eq_ok] at h
    subst h
    exact .nil
  | event :: events, texts, h => by
    simp only [serialize, mapM_cons, bind_eq_ok, orError_eq_ok, ensure_eq_ok, pure_eq_ok,
      exists_const] at h
    obtain ⟨text, ⟨_, hserialized, -, rfl⟩, texts, htexts, rfl⟩ := h
    exact .cons (hformat event _ hserialized) (serialize_reads hformat htexts)

theorem insertAll_appended {texts : List String} (hformat : ReadsBack format)
    (htexts : serialize format events = .ok texts)
    (h : store.insertAll scope recordedAt texts = .ok store') :
    Appended format store store' fun other => if scope.sessionId = other then events else [] := by
  unfold insertAll at h
  simp only [bind_eq_ok, pure_eq_ok] at h
  obtain ⟨table', hfold, rfl⟩ := h
  obtain ⟨hextends, hreads⟩ := foldlM_insert (serialize_reads hformat htexts) hfold
  exact ⟨rfl, hextends, hreads⟩

theorem result_appended {call : AppendCall ε} (hformat : ReadsBack format)
    (h : call.result format sha store = .ok store') :
    Appended format store store' (eventsFor · call) := by
  cases call with
  | appendEvent scope event recordedAt =>
    change store.appendEventRecordedAt format scope event recordedAt = .ok store' at h
    unfold appendEventRecordedAt at h
    simp only [bind_eq_ok] at h
    obtain ⟨texts, htexts, _, -, _, -, hinsert⟩ := h
    exact insertAll_appended hformat htexts hinsert
  | appendEvents scope events recordedAt =>
    change store.appendEventsAt format scope events recordedAt = .ok store' at h
    unfold appendEventsAt at h
    split_ifs at h with hempty
    · cases h
      simp only [eventsFor, hempty, ite_self]
      exact Appended.refl _ _
    · simp only [bind_eq_ok] at h
      obtain ⟨texts, htexts, _, -, _, -, hinsert⟩ := h
      exact insertAll_appended hformat htexts hinsert
  | appendExecution scope events evaluation rollout recordedAt others =>
    change store.appendExecutionWithRollout format sha scope events evaluation rollout recordedAt
      others = .ok store' at h
    unfold appendExecutionWithRollout at h
    simp only [bind_eq_ok, pure_eq_ok] at h
    obtain ⟨_, -, _, -, texts, htexts, _, -, _, -, _, -, _, hinsert, _, -, rfl⟩ := h
    exact insertAll_appended hformat htexts hinsert

theorem run_appended (hformat : ReadsBack format) (sha : Sha256) (calls : List (AppendCall ε)) :
    ∀ store, Appended format store ((appender format sha).run store calls)
      (appendedTo format sha · store calls) := by
  induction calls with
  | nil => exact Appended.refl format
  | cons call calls ih =>
    intro store
    rw [Machine.run_cons]
    unfold appendedTo
    rcases hresult : call.result format sha store with error | store'
    · have hstep : ((appender format sha).step store call).1 = store := by
        simp only [appender, hresult]
      rw [hstep]
      exact ih store
    · have hstep : ((appender format sha).step store call).1 = store' := by
        simp only [appender, hresult]
      rw [hstep]
      exact (result_appended hformat hresult).trans (ih store')

/-! ## Rows after a cursor -/

theorem select_eq (table : EventTable) (p : EventRow → Bool) :
    table.select p = table.rows.filter p :=
  List.Pairwise.insertionSort_eq ((table.increasing.filter p).imp le_of_lt)

theorem select_session (table : EventTable) (sessionId : SessionId) :
    table.select (·.sessionId = sessionId) = after table sessionId 0 := by
  rw [select_eq]
  refine filter_congr fun row hrow => ?_
  rw [decide_eq_true (table.range row hrow).1, Bool.and_true]

theorem after_increasing (table : EventTable) (sessionId : SessionId) (cursor : ℤ) :
    (after table sessionId cursor).Pairwise fun a b => a.sequence < b.sequence :=
  table.increasing.filter _

theorem filter_drop {rows : List EventRow} {top : ℤ} {n : ℕ} {row : EventRow}
    (h : rows.Pairwise fun a b => a.sequence < b.sequence)
    (hlast : (rows.take n).getLast? = some row) (htop : top = row.sequence) :
    rows.filter (fun r => top < r.sequence) = rows.drop n := by
  obtain ⟨front, hfront⟩ := List.getLast?_eq_some_iff.mp hlast
  have hrows := take_append_drop n rows
  rw [hfront, append_assoc, singleton_append] at hrows
  rw [← hrows] at h
  obtain ⟨-, hlater, hbefore⟩ := pairwise_append.mp h
  have hafter := (pairwise_cons.mp hlater).1
  conv_lhs => rw [← take_append_drop n rows, hfront]
  subst htop
  rw [filter_append, filter_eq_nil_iff.mpr, nil_append, filter_eq_self.mpr]
  · exact fun r hr => decide_eq_true (hafter r hr)
  · intro r hr
    rw [decide_eq_true_eq]
    rcases mem_append.mp hr with hr | hr
    · exact (hbefore r hr row mem_cons_self).asymm
    · obtain rfl := mem_singleton.mp hr
      exact lt_irrefl _

/-- The rows after a cursor are those of a page and those after the next cursor, also after more
events have been appended. -/
theorem split_page {cursor : ℤ} {n : ℕ} {row : EventRow} (h : Extends table table')
    (hlast : ((after table sessionId cursor).take n).getLast? = some row) :
    after table' sessionId cursor =
      (after table sessionId cursor).take n ++ after table' sessionId row.sequence := by
  obtain ⟨-, new, hrows, hnew⟩ := h
  have hrow : row ∈ after table sessionId cursor :=
    mem_of_mem_take (mem_of_getLast? hlast)
  obtain ⟨hmem, hkept⟩ := mem_filter.mp hrow
  rw [Bool.and_eq_true, decide_eq_true_eq, decide_eq_true_eq] at hkept
  have hcursor := hkept.2
  have hbound := (table.range row hmem).2
  have hold : after table sessionId row.sequence = (after table sessionId cursor).drop n := by
    rw [← filter_drop (after_increasing table sessionId cursor) hlast rfl]
    unfold after
    rw [filter_filter]
    refine filter_congr fun r _ => ?_
    rw [Bool.eq_iff_iff]
    simp only [Bool.and_eq_true, decide_eq_true_eq]
    constructor
    · exact fun h => ⟨h.2, h.1, hcursor.trans h.2⟩
    · exact fun h => ⟨h.2.1, h.1⟩
  have hlater : ∀ top : ℤ, top ≤ table.last → after table' sessionId top =
        after table sessionId top ++ new.filter (·.sessionId = sessionId) := by
    intro top htop
    unfold after
    rw [hrows, filter_append]
    congr 1
    refine filter_congr fun r hr => ?_
    rw [decide_eq_true (lt_of_le_of_lt htop (hnew r hr)), Bool.and_true]
  rw [hlater cursor (hcursor.le.trans hbound), hlater row.sequence hbound, hold,
    ← append_assoc, take_append_drop]

/-! ## Pages -/

theorem decodePage_eq : ∀ {rows : List EventRow} {events : List ε}, Reads format rows events →
    (∀ row ∈ rows, 0 < row.sequence) → rows.mapM (decodePageRow format) =
      .ok ((rows.map fun row => row.sequence.toNat).zip events)
  | _, _, .nil, _ => rfl
  | row :: rows, event :: events, .cons hrow hrows, hpos => by
    obtain ⟨hfirst, hpos⟩ := forall_mem_cons.mp hpos
    have hdecode : decodePageRow format row = .ok (row.sequence.toNat, event) := by
      unfold decodePageRow fitsU64
      rw [if_pos hfirst.le, hrow]
      rfl
    rw [mapM_cons, hdecode, ok_bind, decodePage_eq hrows hpos]
    rfl

theorem decodeAll_eq : ∀ {rows : List EventRow} {events : List ε}, Reads format rows events →
    (∀ row ∈ rows, 0 < row.sequence) → rows.mapM (decodeRow format) =
      .ok (events.zip (rows.map fun row => ⟨row.sequence.toNat, row.recordedAt⟩))
  | _, _, .nil, _ => rfl
  | row :: rows, event :: events, .cons hrow hrows, hpos => by
    obtain ⟨hfirst, hpos⟩ := forall_mem_cons.mp hpos
    have hdecode : decodeRow format row = .ok (event, ⟨row.sequence.toNat, row.recordedAt⟩) := by
      unfold decodeRow fitsU64
      rw [hrow, if_pos hfirst.le]
      rfl
    rw [mapM_cons, hdecode, ok_bind, decodeAll_eq hrows hpos]
    rfl

/-- A cursor that a page may have given. -/
def cursorValue : Option ℕ → ℕ
  | none => 0
  | some sequence => sequence

variable {session : Pandora.Sessions.Journal.Session}

/-- A page with all that is left, or the first rows of it and the number of the last of them. -/
theorem eventPage_eq {cursor : Option ℕ} (hlimit : limit ≠ 0)
    (hscope : store.sessionIn scope = .ok session)
    (hcursor : cursorValue cursor < 2 ^ 63)
    (hreads : Reads format (after store.events scope.sessionId (cursorValue cursor)) events) :
    store.eventPage format scope cursor limit = .ok (if limit.toNat < events.length then
        ⟨events.take limit.toNat, (((after store.events scope.sessionId
          (cursorValue cursor)).take limit.toNat).getLast?).map fun row => row.sequence.toNat⟩
      else ⟨events, none⟩) := by
  have hafter : afterColumn cursor = .ok (cursorValue cursor) := by
    cases cursor with
    | none => rfl
    | some sequence => exact orError_eq_ok.mpr (fitsI64_eq_some.mpr ⟨hcursor, rfl⟩)
  have hselect : store.events.select (fun row => row.sessionId = scope.sessionId &&
      ((cursorValue cursor : ℕ) : ℤ) < row.sequence) =
      after store.events scope.sessionId (cursorValue cursor) := select_eq _ _
  set rows := after store.events scope.sessionId (cursorValue cursor) with hrows
  have hlength : rows.length = events.length := hreads.length_eq
  have hpos : ∀ row ∈ rows.take (limit.toNat + 1), 0 < row.sequence := fun row hrow =>
    (store.events.range row (mem_filter.mp (mem_of_mem_take hrow)).1).1
  set pairs := (rows.map fun row => row.sequence.toNat).zip events with hpairs
  have hnumbers : (rows.map fun row => row.sequence.toNat).length = events.length := by
    rw [length_map, hlength]
  have hfst : pairs.map Prod.fst = rows.map fun row => row.sequence.toNat :=
    map_fst_zip hnumbers.le
  have hsnd : pairs.map Prod.snd = events := map_snd_zip hnumbers.ge
  have hcount : pairs.length = events.length := by rw [← hsnd, length_map]
  have hdecode : (rows.take (limit.toNat + 1)).mapM (decodePageRow format) =
      .ok (pairs.take (limit.toNat + 1)) := by
    rw [decodePage_eq (forall₂_take (limit.toNat + 1) hreads) hpos, map_take]
    exact congrArg Except.ok take_zipWith.symm
  unfold eventPage
  rw [hafter, hscope]
  unfold ensure
  simp only [if_pos hlimit, ok_bind, hselect, hdecode, length_take, hcount]
  by_cases hmore : limit.toNat < events.length
  · have hdrop : (pairs.take (limit.toNat + 1)).dropLast = pairs.take limit.toNat := by
      rw [dropLast_eq_take, length_take, hcount, take_take]
      congr 1
      omega
    rw [if_pos hmore, if_pos (by omega), hdrop, map_take, hsnd, ← List.getLast?_map,
      map_take, hfst, ← map_take, List.getLast?_map]
    rfl
  · rw [if_neg hmore, if_neg (by omega), map_take, hsnd, take_of_length_le (by omega)]
    rfl

/-- What `resume` shows of the events. -/
theorem resume_eq (hscope : store.sessionIn scope = .ok session)
    (hreads : Reads format (after store.events scope.sessionId 0) events) (rest : ρ) :
    store.resume format scope (.ok rest) = .ok ⟨session, events,
      (after store.events scope.sessionId 0).map fun row =>
        ⟨row.sequence.toNat, row.recordedAt⟩, rest⟩ := by
  have hpos : ∀ row ∈ after store.events scope.sessionId 0, 0 < row.sequence := fun row hrow =>
    (store.events.range row (mem_filter.mp hrow).1).1
  unfold resume
  rw [hscope]
  simp only [ok_bind, select_session, decodeAll_eq hreads hpos]
  rw [map_fst_zip, map_snd_zip]
  · rfl
  · rw [length_map, hreads.length_eq]
  · rw [length_map, hreads.length_eq]

/-- What a reader gets from a cursor on: the events of the rows after it, as they are in the end. -/
theorem follow_spec (format : EventFormat ε) (sha : Sha256) (hformat : ReadsBack format)
    (hlimit : limit ≠ 0) :
    ∀ (schedule : List (List (AppendCall ε))) (store : SessionStore) (cursor : Option ℕ),
      store.sessionIn scope = .ok session → Readable format store.events →
      cursorValue cursor < 2 ^ 63 →
      ∃ answer, follow format sha scope limit schedule store cursor = .ok answer ∧
        (∀ events final, answer = some (events, final) → final.sessionIn scope = .ok session ∧
          Extends store.events final.events ∧
          Reads format (after final.events scope.sessionId (cursorValue cursor)) events ∧
          ∃ done, done <+: schedule.flatten ∧ final = (appender format sha).run store done) ∧
        ((after ((appender format sha).run store schedule.flatten).events scope.sessionId
          (cursorValue cursor)).length < schedule.length → answer ≠ none) := by
  intro schedule
  induction schedule with
  | nil =>
    intro store cursor _ _ _
    exact ⟨none, rfl, fun _ _ hsome => absurd hsome.symm (Option.some_ne_none _),
      fun hlength => absurd hlength (Nat.not_lt_zero _)⟩
  | cons appends schedule ih =>
    intro store cursor hscope hreadable hcursor
    have happended := run_appended hformat sha appends store
    have hrunAll : (appender format sha).run store (appends :: schedule).flatten =
        (appender format sha).run ((appender format sha).run store appends) schedule.flatten := by
      rw [flatten_cons, Machine.run_append]
    rw [hrunAll]
    have hlater := run_appended hformat sha schedule.flatten
      ((appender format sha).run store appends)
    unfold follow
    set store' := (appender format sha).run store appends with hstore
    have hscope' : store'.sessionIn scope = .ok session := by
      unfold sessionIn
      rw [happended.sessions]
      exact hscope
    have hreadable' := happended.readable hreadable
    set rows := after store'.events scope.sessionId (cursorValue cursor) with hrows
    obtain ⟨events, hreads⟩ : ∃ events, Reads format rows events := hreadable'.exists_reads _ _
    have hlength : rows.length = events.length := hreads.length_eq
    have hpage := eventPage_eq hlimit hscope' hcursor hreads
    rw [← hrows] at hpage
    dsimp only
    rw [hpage, ok_bind]
    by_cases hmore : limit.toNat < events.length
    · rw [if_pos hmore]
      have hpositive : 0 < limit.toNat :=
        Nat.pos_of_ne_zero fun hzero => hlimit (UInt16.toNat_inj.mp hzero)
      have htake : rows.take limit.toNat ≠ [] := by
        rw [← length_pos_iff, length_take]
        omega
      obtain ⟨row, hrow⟩ : ∃ row, (rows.take limit.toNat).getLast? = some row :=
        ⟨_, List.getLast?_eq_some_getLast htake⟩
      have hmem := (mem_filter.mp (mem_of_mem_take (mem_of_getLast? hrow))).1
      have hrange := store'.events.range row hmem
      have hlast := store'.events.last_lt
      have hnumber : ((row.sequence.toNat : ℕ) : ℤ) = row.sequence :=
        Int.toNat_of_nonneg hrange.1.le
      have hnext : cursorValue (some row.sequence.toNat) < 2 ^ 63 := by
        show row.sequence.toNat < 2 ^ 63
        omega
      obtain ⟨answer, hfollow, hanswer, hends⟩ :=
        ih store' (some row.sequence.toNat) hscope' hreadable' hnext
      have hsplit := fun {table : EventTable} (h : Extends store'.events table) =>
        split_page h hrow
      have hvalue : ((cursorValue (some row.sequence.toNat) : ℕ) : ℤ) = row.sequence := hnumber
      rw [hvalue] at hanswer hends
      rw [hrow]
      dsimp only [Option.map_some]
      rw [hfollow, ok_bind]
      refine ⟨_, rfl, fun read final hread => ?_, fun hcount hnone => ?_⟩
      · obtain ⟨⟨later, final'⟩, hsome, hpair⟩ := Option.map_eq_some_iff.mp hread
        cases hpair
        obtain ⟨hfinal, hextends, hlaterReads, done, hdone, hrun⟩ := hanswer later final' hsome
        refine ⟨hfinal, happended.extends_.trans hextends, ?_, appends ++ done, ?_, ?_⟩
        · rw [hsplit hextends]
          exact rel_append (forall₂_take limit.toNat hreads) hlaterReads
        · rw [flatten_cons]
          exact (prefix_append_right_inj appends).mpr hdone
        · rw [Machine.run_append]
          exact hrun
      · refine hends ?_ (Option.map_eq_none_iff.mp hnone)
        rw [hsplit hlater.extends_, length_append, length_take, ← hrows, hlength,
          length_cons] at hcount
        omega
    · rw [if_neg hmore]
      refine ⟨_, rfl, fun read final hread => ?_, fun _ => Option.some_ne_none _⟩
      cases hread
      exact ⟨hscope', happended.extends_, hreads, appends, prefix_append appends _, rfl⟩

/-- **Paging loses and repeats nothing.** Every page request succeeds, there are no more pages than
events, and the events of the pages are those that `resume` shows in the store in which the last
page was made, in order: those it showed first, and then those of the appends that succeeded. -/
theorem paging_exact (format : EventFormat ε) (sha : Sha256) (hformat : ReadsBack format)
    (hlimit : limit ≠ 0) {session : Pandora.Sessions.Journal.Session}
    (hscope : store.sessionIn scope = .ok session) (hreadable : Readable format store.events)
    (schedule : List (List (AppendCall ε))) :
    ∃ answer, follow format sha scope limit schedule store none = .ok answer ∧
      ((((appender format sha).run store schedule.flatten).events.select
        (·.sessionId = scope.sessionId)).length < schedule.length → answer ≠ none) ∧
      ∀ events final, answer = some (events, final) → (∀ (ρ : Type) (rest : ρ),
        ∃ metadata, final.resume format scope (.ok rest) = .ok ⟨session, events, metadata, rest⟩ ∧
          metadata.length = events.length ∧
          metadata.Pairwise fun a b => a.sequence < b.sequence) ∧
        ∃ done, done <+: schedule.flatten ∧ final = (appender format sha).run store done ∧
          ∃ before, events = before ++ appendedTo format sha scope.sessionId store done ∧
            ∀ (ρ : Type) (rest : ρ), ∃ metadata,
              store.resume format scope (.ok rest) = .ok ⟨session, before, metadata, rest⟩ := by
  obtain ⟨answer, hfollow, hanswer, hends⟩ :=
    follow_spec format sha hformat hlimit schedule store none hscope hreadable (by decide)
  refine ⟨answer, hfollow, ?_, fun events final hsome => ?_⟩
  · rw [select_session]
    exact hends
  obtain ⟨hfinal, -, hreads, done, hdone, hrun⟩ := hanswer events final hsome
  refine ⟨fun _ rest => ⟨_, resume_eq hfinal hreads rest, ?_, ?_⟩, done, hdone, hrun, ?_⟩
  · rw [length_map]
    exact hreads.length_eq
  · rw [pairwise_map]
    refine (after_increasing _ _ _).imp_of_mem fun {a b} ha hb hab => ?_
    have hpos := (final.events.range a (mem_filter.mp ha).1).1
    have hpos' := (final.events.range b (mem_filter.mp hb).1).1
    dsimp only
    omega
  · obtain ⟨before, hbefore⟩ := hreadable.exists_reads scope.sessionId 0
    have hafter := (run_appended hformat sha done store).reads scope.sessionId before hbefore
    rw [← hrun] at hafter
    exact ⟨before, hreads.unique hafter, fun _ rest => ⟨_, resume_eq hscope hbefore rest⟩⟩

/-! ## Two pages with an append between them -/

def sampleSession : Pandora.Sessions.Journal.Session where
  id := .ofLiteral "session-1"
  principalId := .ofLiteral "principal-1"
  tenantId := .ofLiteral "tenant-1"
  workspaceId := .ofLiteral "workspace-1"
  createdAt := 100

def sampleScope : Scope where
  sessionId := .ofLiteral "session-1"
  principalId := .ofLiteral "principal-1"
  tenantId := .ofLiteral "tenant-1"
  workspaceId := .ofLiteral "workspace-1"

def sampleEvent : Rollout.Reducer.RuntimeEvent where
  eventId := .ofLiteral "event-1"
  eventType := .sessionStarted
  context := ⟨.ofLiteral "tenant-1", .ofLiteral "workspace-1", none, none, none, none, none, none⟩
  payload := .empty

/-- The text that is written for the event. -/
def sampleText : String :=
  "\x7b\"protocol_version\":1,\"event_id\":\"event-1\",\"event_type\":\"session_started\"," ++
  "\"context\":\x7b\"tenant_id\":\"tenant-1\",\"workspace_id\":\"workspace-1\"," ++
  "\"session_id\":null,\"execution_id\":null,\"harness_id\":null,\"gene_id\":null," ++
  "\"policy_version\":null,\"receipt_id\":null\x7d,\"payload\":\x7b\"type\":\"empty\"\x7d\x7d"

def sampleFormat : EventFormat Rollout.Reducer.RuntimeEvent where
  context event := event.context
  toVec event := if event = sampleEvent then some sampleText else none
  fromStr text := if text = sampleText then some sampleEvent else none

def sampleSha : Sha256 := fun _ => ⟨List.replicate 32 0, Text.length_zeroBytes⟩

def sampleStore : SessionStore where
  sessions := ⟨[sampleSession], nodup_singleton _⟩
  events := .empty

theorem paging_sample : ∃ answer, follow sampleFormat sampleSha sampleScope 1
    [[.appendEvents sampleScope [sampleEvent, sampleEvent] 100],
      [.appendEvent sampleScope sampleEvent none], [], []] sampleStore none = .ok answer ∧
    answer ≠ none := by
  have hformat : ReadsBack sampleFormat := by
    intro event text htext
    unfold sampleFormat at htext ⊢
    dsimp only at htext ⊢
    split_ifs at htext with hevent
    rw [if_pos (Option.some.inj htext).symm, hevent]
  obtain ⟨answer, hfollow, hends, -⟩ := paging_exact sampleFormat sampleSha
    hformat (by decide : (1 : UInt16) ≠ 0) (by decide : sampleStore.sessionIn sampleScope =
      .ok sampleSession) (fun row hrow => absurd hrow not_mem_nil)
    [[.appendEvents sampleScope [sampleEvent, sampleEvent] 100],
      [.appendEvent sampleScope sampleEvent none], [], []]
  exact ⟨answer, hfollow, hends (by decide +kernel)⟩

end Pandora.Sessions.Paging
