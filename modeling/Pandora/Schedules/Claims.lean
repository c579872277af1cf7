import Pandora.Schedules.Store

/-! # Claims, and the schedules that are due

A claim moves at most a batch of the due schedules on, the earliest first, and fails as a whole if
the next time of one of them does not fit its column. The occurrences up to now that are still to
come become fewer with every claim that finds a schedule due, so repeated claims reach every due
schedule, unless one fails on the way: exactly if a schedule has no next time after now that fits
(`claims_iff`). -/

namespace Pandora.Schedules

open Ids Lib.Checked Lib.Runs Lib.Tables Store List

variable {kind : ScheduleKind} {store store' : Store kind} {scope : Scope} {now limit : ℕ}
  {workerId : JobWorkerId} {create : Creator kind}

/-! ## One claim -/

/-- The columns hold what they may. -/
def Schedule.Valid (schedule : Schedule kind) : Prop :=
  0 < schedule.intervalSeconds ∧ schedule.nextRunAt < 2 ^ 63

/-- The next time fits its column. -/
def Schedule.Fits (schedule : Schedule kind) : Prop :=
  schedule.nextRunAt + schedule.intervalSeconds < 2 ^ 63

/-- The schedule after one of its runs has been made. -/
def movedOn (now : ℕ) (schedule : Schedule kind) : Schedule kind :=
  moveOn now (schedule.nextRunAt + schedule.intervalSeconds) schedule schedule

def HasRun (store : Store kind) (schedule : Schedule kind) : Prop :=
  store.runs.get? (schedule.scope, schedule.id, schedule.nextRunAt) ≠ none

def Keeps (store store' : Store kind) : Prop :=
  ∀ k, store.runs.get? k ≠ none → store'.runs.get? k ≠ none

theorem keeps_update {p : ScheduleRun kind → Bool} {f : ScheduleRun kind → ScheduleRun kind}
    {hf : ∀ r, p r = true → (f r).key = r.key} :
    Keeps store { store with runs := store.runs.update p f hf } := by
  intro k hk
  dsimp only
  rw [Table.get?_update]
  exact fun hnone => hk (Option.map_eq_none_iff.mp hnone)

theorem keeps_insertRun (run : ScheduleRun kind) : Keeps store (store.insertRun run) := by
  intro k hk
  unfold insertRun
  dsimp only
  rcases hinsert : store.runs.insert? run with _ | runs
  · exact hk
  · rw [Option.getD_some, Table.get?_insert? hinsert]
    split_ifs
    · exact Option.some_ne_none _
    · exact hk

theorem get?_insertRun (run : ScheduleRun kind) :
    (store.insertRun run).runs.get? run.key ≠ none := by
  unfold insertRun
  dsimp only
  rcases hget : store.runs.get? run.key with _ | row
  · obtain ⟨runs, hruns⟩ := Table.exists_insert? run hget
    rw [hruns, Option.getD_some, Table.get?_insert? hruns, if_pos rfl]
    exact Option.some_ne_none _
  · refine keeps_insertRun run run.key ?_
    rw [hget]
    exact Option.some_ne_none _

/-- What `materialise` does where nothing stands against it. -/
structure Materialised (now : ℕ) (schedule : Schedule kind) (store store' : Store kind) : Prop where
  rows : store'.schedules.rows = store.schedules.rows.map fun row =>
    if isRow schedule row then moveOn now
      (schedule.nextRunAt + schedule.intervalSeconds) schedule row else row
  run : HasRun store' schedule
  keeps : Keeps store store'

variable {schedule : Schedule kind}

theorem materialise_eq_ok (now : ℕ) (store : Store kind) (hvalid : schedule.Valid) :
    (∃ store', materialise now store schedule = .ok store') ↔ schedule.Fits := by
  unfold materialise Schedule.Fits
  simp only [bind_eq_ok, ensure_eq_ok, orError_eq_ok, pure_eq_ok, fitsI64_eq_some]
  constructor
  · rintro ⟨_, _, -, _, ⟨hfits, -⟩, -⟩
    exact hfits
  · exact fun hfits => ⟨_, (), hvalid.1, _, ⟨hfits, rfl⟩, rfl⟩

theorem materialise_spec (h : materialise now store schedule = .ok store') :
    Materialised now schedule store store' := by
  unfold materialise at h
  simp only [bind_eq_ok, ensure_eq_ok, orError_eq_ok, pure_eq_ok, fitsI64_eq_some] at h
  obtain ⟨_, -, _, ⟨-, rfl⟩, rfl⟩ := h
  exact ⟨rfl, get?_insertRun _, keeps_insertRun _⟩

def advance (now : ℕ) (due : List (Schedule kind)) (row : Schedule kind) : Schedule kind :=
  due.foldl (fun row schedule => if isRow schedule row then moveOn now
    (schedule.nextRunAt + schedule.intervalSeconds) schedule row else row) row

theorem advance_of_other : ∀ {due : List (Schedule kind)} {row : Schedule kind},
    (∀ schedule ∈ due, schedule.key ≠ row.key) → advance now due row = row
  | [], _, _ => rfl
  | schedule :: due, row, h => by
    obtain ⟨hfirst, hrest⟩ := forall_mem_cons.mp h
    have hnot : ¬ isRow schedule row = true := by
      unfold isRow
      rw [Bool.and_eq_true, decide_eq_true_eq]
      exact fun hrow => hfirst hrow.1.symm
    unfold advance
    rw [foldl_cons, if_neg hnot]
    exact advance_of_other hrest

theorem advance_of_mem : ∀ {due : List (Schedule kind)} {row : Schedule kind},
    (due.map Schedule.key).Nodup → row ∈ due → advance now due row = movedOn now row
  | schedule :: due, row, hnodup, hrow => by
    rw [map_cons, nodup_cons] at hnodup
    unfold advance
    rw [foldl_cons]
    rcases mem_cons.mp hrow with rfl | hrow
    · have hself : isRow row row = true := by
        unfold isRow
        rw [decide_eq_true rfl, decide_eq_true rfl, Bool.and_self]
      rw [if_pos hself]
      refine advance_of_other fun other hother => ?_
      rw [key_moveOn]
      exact fun hkey => hnodup.1 (hkey ▸ mem_map_of_mem hother)
    · have hnot : ¬ isRow schedule row = true := by
        unfold isRow
        rw [Bool.and_eq_true, decide_eq_true_eq]
        exact fun hkey => hnodup.1 (hkey.1 ▸ mem_map_of_mem hrow)
      rw [if_neg hnot]
      exact advance_of_mem hnodup.2 hrow

/-- What a claim does to the due schedules. -/
structure Advanced (now : ℕ) (due : List (Schedule kind)) (store store' : Store kind) : Prop where
  rows : store'.schedules.rows = store.schedules.rows.map (advance now due)
  runs : ∀ schedule ∈ due, HasRun store' schedule
  keeps : Keeps store store'

theorem foldlM_materialise : ∀ {due : List (Schedule kind)} {store store' : Store kind},
    due.foldlM (materialise now) store = .ok store' → Advanced now due store store'
  | [], store, store', h => by
    rw [foldlM_nil, pure_eq_ok] at h
    subst h
    exact ⟨(map_id _).symm, fun _ hnone => absurd hnone not_mem_nil, fun _ hk => hk⟩
  | schedule :: due, store, store', h => by
    rw [foldlM_cons, bind_eq_ok] at h
    obtain ⟨middle, hfirst, hrest⟩ := h
    have hfirst := materialise_spec hfirst
    have hrest := foldlM_materialise hrest
    refine ⟨?_, fun row hrow => ?_, fun k hk => hrest.keeps k (hfirst.keeps k hk)⟩
    · rw [hrest.rows, hfirst.rows, map_map]
      rfl
    · rcases mem_cons.mp hrow with rfl | hrow
      · exact hrest.keeps _ hfirst.run
      · exact hrest.runs row hrow

theorem foldlM_materialise_ok : ∀ {due : List (Schedule kind)} (store : Store kind),
    (∀ schedule ∈ due, schedule.Valid) →
    ((∃ store', due.foldlM (materialise now) store = .ok store') ↔ ∀ schedule ∈ due, schedule.Fits)
  | [], store, _ => ⟨fun _ _ h => absurd h not_mem_nil, fun _ => ⟨store, rfl⟩⟩
  | schedule :: due, store, hvalid => by
    obtain ⟨hfirst, hrest⟩ := forall_mem_cons.mp hvalid
    rw [forall_mem_cons, ← materialise_eq_ok now store hfirst]
    simp only [foldlM_cons, bind_eq_ok]
    constructor
    · rintro ⟨store', middle, hmiddle, hstore'⟩
      exact ⟨⟨middle, hmiddle⟩, (foldlM_materialise_ok middle hrest).mp ⟨store', hstore'⟩⟩
    · rintro ⟨⟨middle, hmiddle⟩, hfits⟩
      obtain ⟨store', hstore'⟩ := (foldlM_materialise_ok middle hrest).mpr hfits
      exact ⟨store', middle, hmiddle, hstore'⟩

theorem foldlM_claimRun {leaseUntil : ℕ} : ∀ {pending : List (ScheduleRun kind)}
    {state state' : Store kind × List (ScheduleRun kind)},
    pending.foldlM (claimRun workerId now leaseUntil) state = .ok state' →
      state'.1.schedules = state.1.schedules ∧ Keeps state.1 state'.1
  | [], state, state', h => by
    rw [foldlM_nil, pure_eq_ok] at h
    subst h
    exact ⟨rfl, fun _ hk => hk⟩
  | run :: pending, state, state', h => by
    rw [foldlM_cons, bind_eq_ok] at h
    obtain ⟨middle, hfirst, hrest⟩ := h
    unfold claimRun at hfirst
    simp only [bind_eq_ok, pure_eq_ok] at hfirst
    obtain ⟨_, -, rfl⟩ := hfirst
    obtain ⟨hschedules, hkeeps⟩ := foldlM_claimRun hrest
    exact ⟨hschedules, fun k hk => hkeeps k (keeps_update k hk)⟩

theorem exists_claimRun (workerId : JobWorkerId) (now : ℕ) {leaseUntil : ℕ}
    (hlease : leaseUntil < 2 ^ 63) : ∀ (pending : List (ScheduleRun kind))
    (state : Store kind × List (ScheduleRun kind)),
    ∃ state', pending.foldlM (claimRun workerId now leaseUntil) state = .ok state'
  | [], state => ⟨state, rfl⟩
  | run :: pending, state => by
    have hfits : orError (fitsI64 leaseUntil) ScheduleError.corruptRecord = .ok leaseUntil :=
      orError_eq_ok.mpr (fitsI64_eq_some.mpr ⟨hlease, rfl⟩)
    obtain ⟨middle, hmiddle⟩ : ∃ middle,
        claimRun workerId now leaseUntil state run = .ok middle := by
      unfold claimRun
      rw [hfits, ok_bind]
      exact ⟨_, rfl⟩
    obtain ⟨state', hstate'⟩ := exists_claimRun workerId now hlease pending middle
    refine ⟨state', ?_⟩
    rw [foldlM_cons, hmiddle, ok_bind, hstate']

/-- The schedules that a claim finds due. -/
def dueRows (store : Store kind) (scope : Scope) (now : ℕ) : List (Schedule kind) :=
  store.dueSchedules scope none now

theorem mem_of_dueRows (h : schedule ∈ dueRows store scope now) :
    schedule ∈ store.schedules.rows ∧ isDue scope now schedule = true := by
  have hmem := (mem_insertionSort _).mp (mem_of_mem_take h)
  obtain ⟨hrow, hdue⟩ := mem_filter.mp hmem
  exact ⟨hrow, (Bool.and_eq_true _ _ ▸ hdue).1⟩

theorem nodup_dueRows (store : Store kind) (scope : Scope) (now : ℕ) :
    ((dueRows store scope now).map Schedule.key).Nodup := by
  have hfilter := store.schedules.nodup.sublist ((filter_sublist (p := fun row =>
    isDue scope now row && selects none row.id)).map Schedule.key)
  have hsorted := ((perm_insertionSort (fun a b : Schedule kind =>
    timeBefore (a.nextRunAt, a.id) (b.nextRunAt, b.id)) _).map Schedule.key).nodup_iff.mpr hfilter
  exact hsorted.sublist ((take_sublist _ _).map _)

theorem dueRows_ne_nil (hrow : schedule ∈ store.schedules.rows)
    (hdue : isDue scope now schedule = true) : dueRows store scope now ≠ [] := by
  intro hnil
  have hmem : schedule ∈ (store.schedules.rows.filter fun row =>
      isDue scope now row && selects none row.id).insertionSort fun a b =>
        timeBefore (a.nextRunAt, a.id) (b.nextRunAt, b.id) := by
    rw [mem_insertionSort, mem_filter]
    exact ⟨hrow, Bool.and_eq_true _ _ ▸ ⟨hdue, rfl⟩⟩
  unfold dueRows dueSchedules maxClaimBatch at hnil
  rw [take_eq_nil_iff] at hnil
  rcases hnil with hzero | hnil
  · cases hzero
  · rw [hnil] at hmem
    exact not_mem_nil hmem

/-- What a claim asks of its limit. -/
def ValidLimit (limit : ℕ) : Prop := limit ≠ 0 ∧ limit ≤ maxClaimBatch

def AllValid (store : Store kind) : Prop := ∀ schedule ∈ store.schedules.rows, schedule.Valid

/-- A claim that succeeds moves the schedules on that it finds due. -/
theorem claimDue_ok {result : Store kind × List (ScheduleRun kind)} (hvalid : AllValid store)
    (h : store.claimDue scope workerId now limit = .ok result) :
    (∀ schedule ∈ dueRows store scope now, schedule.Fits) ∧
      Advanced now (dueRows store scope now) store result.1 := by
  have htaken : Keeps store (store.takeBack scope now) := keeps_update
  unfold claimDue claimDueFor at h
  simp only [bind_eq_ok, orError_eq_ok, fitsI64_eq_some] at h
  obtain ⟨_, -, _, -, _, ⟨-, rfl⟩, middle, hmiddle, hclaimed⟩ := h
  have hadvanced := foldlM_materialise hmiddle
  obtain ⟨hschedules, hkeeps⟩ := foldlM_claimRun hclaimed
  refine ⟨(foldlM_materialise_ok _ fun schedule hschedule => ?_).mp ⟨middle, hmiddle⟩, ?_,
    fun schedule hschedule => hkeeps _ (hadvanced.runs schedule hschedule),
    fun k hk => hkeeps k (hadvanced.keeps k (htaken k hk))⟩
  · exact hvalid schedule (mem_of_dueRows hschedule).1
  · rw [hschedules]
    exact hadvanced.rows

theorem exists_claimDue (workerId : JobWorkerId) (hlimit : ValidLimit limit)
    (hnow : now + scheduleLeaseSeconds < 2 ^ 63) (hvalid : AllValid store)
    (hfits : ∀ schedule ∈ dueRows store scope now, schedule.Fits) :
    ∃ result, store.claimDue scope workerId now limit = .ok result := by
  have hcolumn : orError (fitsI64 now) ScheduleError.corruptRecord = .ok now :=
    orError_eq_ok.mpr (fitsI64_eq_some.mpr ⟨by omega, rfl⟩)
  have hlease : min (now + scheduleLeaseSeconds) (2 ^ 64 - 1) < 2 ^ 63 := by omega
  obtain ⟨middle, hmiddle⟩ := (foldlM_materialise_ok (store.takeBack scope now)
    fun schedule hschedule => hvalid schedule (mem_of_dueRows hschedule).1).mpr hfits
  obtain ⟨result, hresult⟩ := exists_claimRun workerId now hlease
    (middle.pendingRuns scope none limit) (middle, [])
  refine ⟨result, ?_⟩
  unfold claimDue claimDueFor ensure
  rw [if_pos (show limit ≠ 0 ∧ limit ≤ maxClaimBatch from hlimit), if_pos workerId.nonblank,
    hcolumn]
  simp only [ok_bind, bind_eq_ok]
  exact ⟨middle, hmiddle, hresult⟩

/-! ## What is still to come -/

/-- The number of runs of the schedule up to now that are still to be made. -/
def remaining (scope : Scope) (now : ℕ) (schedule : Schedule kind) : ℕ :=
  if isDue scope now schedule then
    if kind.oneShot schedule.subject then 1
    else (now - schedule.nextRunAt) / schedule.intervalSeconds + 1
  else 0

/-- The first time of the schedule after now fits; of a schedule that is used once, the next. -/
def Schedule.FitsAfter (now : ℕ) (schedule : Schedule kind) : Prop :=
  if kind.oneShot schedule.subject then schedule.Fits
  else schedule.nextRunAt + schedule.intervalSeconds *
    ((now - schedule.nextRunAt) / schedule.intervalSeconds + 1) < 2 ^ 63

theorem isDue_iff : isDue scope now schedule = true ↔
    schedule.scope = scope ∧ schedule.enabled = true ∧ schedule.nextRunAt ≤ now := by
  unfold isDue
  rw [Bool.and_eq_true, Bool.and_eq_true, decide_eq_true_eq, decide_eq_true_eq, and_assoc]

theorem movedOn_of_oneShot (h : kind.oneShot schedule.subject = true) :
    isDue scope now (movedOn now schedule) = false := by
  rw [← Bool.not_eq_true, isDue_iff]
  unfold movedOn moveOn
  rw [if_pos h]
  exact fun hdue => Bool.false_ne_true hdue.2.1

theorem div_step {now next interval : ℕ} (hpos : 0 < interval) (hle : next + interval ≤ now) :
    (now - next) / interval = (now - (next + interval)) / interval + 1 := by
  have hsplit : now - next = (now - (next + interval)) + interval := by omega
  rw [hsplit, Nat.add_div_right _ hpos]

/-- A schedule that is used again is due again if its next time is not after now. -/
theorem isDue_movedOn (hone : kind.oneShot schedule.subject = false)
    (hdue : isDue scope now schedule = true) :
    isDue scope now (movedOn now schedule) = true ↔
      schedule.nextRunAt + schedule.intervalSeconds ≤ now := by
  obtain ⟨hscope, henabled, -⟩ := isDue_iff.mp hdue
  have hmoved : (movedOn now schedule).scope = schedule.scope ∧
      (movedOn now schedule).enabled = schedule.enabled ∧
      (movedOn now schedule).nextRunAt = schedule.nextRunAt + schedule.intervalSeconds := by
    simp [movedOn, moveOn, hone]
  rw [isDue_iff, hmoved.1, hmoved.2.1, hmoved.2.2]
  simp [hscope, henabled]

theorem movedOn_of_again (hone : kind.oneShot schedule.subject = false) :
    movedOn now schedule = { schedule with
      nextRunAt := schedule.nextRunAt + schedule.intervalSeconds
      lastClaimedAt := some now
      runCount := schedule.runCount + 1 } := by
  simp [movedOn, moveOn, hone]

theorem remaining_movedOn (hvalid : schedule.Valid) (hdue : isDue scope now schedule = true) :
    remaining scope now (movedOn now schedule) + 1 = remaining scope now schedule := by
  unfold remaining
  rw [if_pos hdue]
  rcases hone : kind.oneShot schedule.subject with _ | _
  · obtain ⟨-, -, hle⟩ := isDue_iff.mp hdue
    have hagain := isDue_movedOn hone hdue
    by_cases hmore : schedule.nextRunAt + schedule.intervalSeconds ≤ now
    · have hstep := div_step hvalid.1 hmore
      rw [if_pos (hagain.mpr hmore), movedOn_of_again hone]
      simp [hone, hstep]
    · have hzero : (now - schedule.nextRunAt) / schedule.intervalSeconds = 0 :=
        Nat.div_eq_of_lt (by omega)
      rw [if_neg (fun h => hmore (hagain.mp h))]
      simp [hzero]
  · simp [movedOn_of_oneShot hone]

theorem fits_of_fitsAfter (h : schedule.FitsAfter now) :
    schedule.Fits := by
  unfold Schedule.FitsAfter at h
  split_ifs at h
  · exact h
  · have hle : schedule.intervalSeconds ≤ schedule.intervalSeconds *
        ((now - schedule.nextRunAt) / schedule.intervalSeconds + 1) :=
      Nat.le_mul_of_pos_right _ (Nat.succ_pos _)
    unfold Schedule.Fits
    omega

/-- The first time after now stays the same while it is not the next. -/
theorem fitsAfter_iff (hvalid : schedule.Valid) (hdue : isDue scope now schedule = true) :
    schedule.FitsAfter now ↔ schedule.Fits ∧ (isDue scope now (movedOn now schedule) = true →
        (movedOn now schedule).FitsAfter now) := by
  obtain ⟨-, -, hle⟩ := isDue_iff.mp hdue
  rcases hone : kind.oneShot schedule.subject with _ | _
  · have hagain := isDue_movedOn hone hdue
    by_cases hmore : schedule.nextRunAt + schedule.intervalSeconds ≤ now
    · have hstep := div_step hvalid.1 hmore
      have hsame : schedule.FitsAfter now ↔ (movedOn now schedule).FitsAfter now := by
        rw [movedOn_of_again hone]
        unfold Schedule.FitsAfter
        dsimp only
        rw [hone, if_neg Bool.false_ne_true, if_neg Bool.false_ne_true, hstep, Nat.mul_add_one,
          ← Nat.add_assoc, Nat.add_right_comm]
      exact ⟨fun h => ⟨fits_of_fitsAfter h, fun _ => hsame.mp h⟩,
        fun h => hsame.mpr (h.2 (hagain.mpr hmore))⟩
    · have hzero : (now - schedule.nextRunAt) / schedule.intervalSeconds = 0 :=
        Nat.div_eq_of_lt (by omega)
      have hlast : schedule.FitsAfter now ↔ schedule.Fits := by
        simp [Schedule.FitsAfter, Schedule.Fits, hone, hzero]
      rw [hlast]
      exact ⟨fun h => ⟨h, fun hstill => absurd (hagain.mp hstill) hmore⟩, And.left⟩
  · have hlast : schedule.FitsAfter now ↔ schedule.Fits := by
      simp [Schedule.FitsAfter, hone]
    rw [hlast]
    simp [movedOn_of_oneShot hone]

theorem valid_movedOn (hvalid : schedule.Valid)
    (hfits : schedule.Fits) : (movedOn now schedule).Valid := by
  unfold movedOn moveOn
  split_ifs
  · exact hvalid
  · exact ⟨hvalid.1, hfits⟩

/-! ## Repeated claims -/

/-- The runs of the scope that are still to be made. -/
def total (scope : Scope) (now : ℕ) (store : Store kind) : ℕ :=
  (store.schedules.rows.map (remaining scope now)).sum

/-- Every due schedule of the scope has a first time after now that fits. -/
def AllFitAfter (scope : Scope) (now : ℕ) (store : Store kind) : Prop :=
  ∀ schedule ∈ store.schedules.rows, isDue scope now schedule = true → schedule.FitsAfter now

theorem advance_cases (scope : Scope) (now : ℕ) (row : Schedule kind)
    (hrow : row ∈ store.schedules.rows) :
    (row ∈ dueRows store scope now ∧ isDue scope now row = true ∧
      advance now (dueRows store scope now) row = movedOn now row) ∨
    (row ∉ dueRows store scope now ∧ advance now (dueRows store scope now) row = row) := by
  by_cases hdue : row ∈ dueRows store scope now
  · exact Or.inl ⟨hdue, (mem_of_dueRows hdue).2,
      advance_of_mem (nodup_dueRows store scope now) hdue⟩
  · refine Or.inr ⟨hdue, advance_of_other fun schedule hschedule hkey => hdue ?_⟩
    have hsame : schedule = row :=
      Table.eq_of_key (mem_of_dueRows hschedule).1 hrow hkey
    exact hsame ▸ hschedule

/-- A claim that succeeds leaves less to come, if a schedule is due. -/
theorem total_advanced (hvalid : AllValid store)
    (h : Advanced now (dueRows store scope now) store store') :
    total scope now store' + (if dueRows store scope now = [] then 0 else 1) ≤
      total scope now store := by
  have hle : ∀ row ∈ store.schedules.rows,
      remaining scope now (advance now (dueRows store scope now) row) ≤
        remaining scope now row := by
    intro row hrow
    rcases advance_cases scope now row hrow with ⟨-, hdue, hmoved⟩ | ⟨-, hsame⟩
    · have hless := remaining_movedOn (hvalid row hrow) hdue
      rw [hmoved]
      omega
    · rw [hsame]
  have htotal : total scope now store' = (store.schedules.rows.map fun row =>
      remaining scope now (advance now (dueRows store scope now) row)).sum := by
    unfold total
    rw [h.rows, map_map]
    rfl
  rw [htotal]
  split_ifs with hnil
  · exact sum_le_sum hle
  · obtain ⟨first, hfirst⟩ := exists_mem_of_ne_nil _ hnil
    have hrow := mem_of_dueRows hfirst
    refine sum_lt_sum _ _ hle ⟨first, hrow.1, ?_⟩
    have hless := remaining_movedOn (hvalid first hrow.1) hrow.2
    rw [advance_of_mem (nodup_dueRows store scope now) hfirst]
    omega

theorem valid_advanced (hvalid : AllValid store)
    (hfits : ∀ schedule ∈ dueRows store scope now, schedule.Fits)
    (h : Advanced now (dueRows store scope now) store store') : AllValid store' := by
  intro row' hrow'
  rw [h.rows] at hrow'
  obtain ⟨row, hrow, rfl⟩ := mem_map.mp hrow'
  rcases advance_cases scope now row hrow with ⟨hmem, -, hmoved⟩ | ⟨-, hsame⟩
  · rw [hmoved]
    exact valid_movedOn (hvalid row hrow) (hfits row hmem)
  · rw [hsame]
    exact hvalid row hrow

/-- The condition before a claim is that the claim succeeds, and the condition after it. -/
theorem allFitAfter_iff (hvalid : AllValid store)
    (h : Advanced now (dueRows store scope now) store store') :
    AllFitAfter scope now store ↔
      (∀ schedule ∈ dueRows store scope now, schedule.Fits) ∧ AllFitAfter scope now store' := by
  constructor
  · intro hall
    refine ⟨fun schedule hschedule => ?_, fun row' hrow' hdue' => ?_⟩
    · obtain ⟨hrow, hdue⟩ := mem_of_dueRows hschedule
      exact fits_of_fitsAfter (hall schedule hrow hdue)
    · rw [h.rows] at hrow'
      obtain ⟨row, hrow, rfl⟩ := mem_map.mp hrow'
      rcases advance_cases scope now row hrow with ⟨-, hdue, hmoved⟩ | ⟨-, hsame⟩
      · rw [hmoved] at hdue' ⊢
        exact ((fitsAfter_iff (hvalid row hrow) hdue).mp (hall row hrow hdue)).2 hdue'
      · rw [hsame] at hdue' ⊢
        exact hall row hrow hdue'
  · rintro ⟨hfits, hall⟩ row hrow hdue
    have hafter : advance now (dueRows store scope now) row ∈ store'.schedules.rows := by
      rw [h.rows]
      exact mem_map_of_mem hrow
    rcases advance_cases scope now row hrow with ⟨hmem, -, hmoved⟩ | ⟨-, hsame⟩
    · rw [hmoved] at hafter
      exact (fitsAfter_iff (hvalid row hrow) hdue).mpr ⟨hfits row hmem, hall _ hafter⟩
    · rw [hsame] at hafter
      exact hall row hafter hdue

/-- Claims at one time, each with its worker and its limit. -/
def claims (kind : ScheduleKind) (scope : Scope) (now : ℕ) (attempts : List (JobWorkerId × ℕ)) :
    List (Call kind) :=
  attempts.map fun attempt => .claimDue scope attempt.1 now attempt.2

def AllLimits (attempts : List (JobWorkerId × ℕ)) : Prop :=
  ∀ attempt ∈ attempts, ValidLimit attempt.2

/-- No schedule of the scope blocks the others: every further claim succeeds, and with so many
claims every schedule that is due has its run. -/
structure Unblocked (create : Creator kind) (scope : Scope) (now : ℕ) (store : Store kind) :
    Prop where
  succeeds : ∀ attempts, AllLimits attempts → ∀ workerId limit, ValidLimit limit →
    ∃ result, ((machine create).run store (claims kind scope now attempts)).claimDue scope
      workerId now limit = .ok result
  reaches : ∀ schedule ∈ store.schedules.rows, isDue scope now schedule = true →
    ∃ enough, ∀ attempts, AllLimits attempts → enough ≤ attempts.length →
      HasRun ((machine create).run store (claims kind scope now attempts)) schedule

theorem run_cons_claims {attempt : JobWorkerId × ℕ} {attempts : List (JobWorkerId × ℕ)}
    {result : Store kind × List (ScheduleRun kind)}
    (h : store.claimDue scope attempt.1 now attempt.2 = .ok result) :
    (machine create).run store (claims kind scope now (attempt :: attempts)) =
      (machine create).run result.1 (claims kind scope now attempts) := by
  unfold claims
  rw [map_cons, Machine.run_cons]
  show (machine create).run (commit store (store.claimDue scope attempt.1 now attempt.2)).1 _ = _
  rw [h]
  rfl

theorem claim_of_allFitAfter (workerId : JobWorkerId) (hlimit : ValidLimit limit)
    (hnow : now + scheduleLeaseSeconds < 2 ^ 63) (hvalid : AllValid store)
    (hall : AllFitAfter scope now store) : ∃ result,
      store.claimDue scope workerId now limit = .ok result ∧ AllValid result.1 ∧
      AllFitAfter scope now result.1 ∧
      Advanced now (dueRows store scope now) store result.1 := by
  have hfits : ∀ schedule ∈ dueRows store scope now, schedule.Fits := fun schedule hschedule =>
    fits_of_fitsAfter (hall schedule (mem_of_dueRows hschedule).1 (mem_of_dueRows hschedule).2)
  obtain ⟨result, hresult⟩ := exists_claimDue workerId hlimit hnow hvalid hfits
  have hadvanced := (claimDue_ok hvalid hresult).2
  exact ⟨result, hresult, valid_advanced hvalid hfits hadvanced,
    ((allFitAfter_iff hvalid hadvanced).mp hall).2, hadvanced⟩

/-- Where the condition holds, it holds after every list of claims, and no run is lost. -/
theorem run_claims (create : Creator kind) (hnow : now + scheduleLeaseSeconds < 2 ^ 63) :
    ∀ (attempts : List (JobWorkerId × ℕ)) {store : Store kind}, AllLimits attempts →
      AllValid store → AllFitAfter scope now store →
      AllValid ((machine create).run store (claims kind scope now attempts)) ∧
      AllFitAfter scope now ((machine create).run store (claims kind scope now attempts)) ∧
      Keeps store ((machine create).run store (claims kind scope now attempts))
  | [], _, _, hvalid, hall => ⟨hvalid, hall, fun _ hk => hk⟩
  | attempt :: attempts, store, hlimits, hvalid, hall => by
    obtain ⟨hlimit, hlimits⟩ := forall_mem_cons.mp hlimits
    obtain ⟨result, hresult, hvalid', hall', hadvanced⟩ :=
      claim_of_allFitAfter attempt.1 hlimit hnow hvalid hall
    obtain ⟨hvalidRun, hallRun, hkeeps⟩ := run_claims create hnow attempts hlimits hvalid' hall'
    rw [run_cons_claims hresult]
    exact ⟨hvalidRun, hallRun, fun k hk => hkeeps k (hadvanced.keeps k hk)⟩

/-- With as many claims as there are runs to come, a due schedule has its run. -/
theorem hasRun_of_total (create : Creator kind) (hnow : now + scheduleLeaseSeconds < 2 ^ 63)
    (hdue : isDue scope now schedule = true) :
    ∀ (attempts : List (JobWorkerId × ℕ)) {store : Store kind}, AllLimits attempts →
      AllValid store → AllFitAfter scope now store → schedule ∈ store.schedules.rows →
      total scope now store ≤ attempts.length →
      HasRun ((machine create).run store (claims kind scope now attempts)) schedule
  | [], store, _, hvalid, _, hrow, htotal => by
    have hless := remaining_movedOn (hvalid schedule hrow) hdue
    have hle : remaining scope now schedule ≤ total scope now store :=
      single_le_sum (fun _ _ => Nat.zero_le _) _ (mem_map_of_mem hrow)
    rw [length_nil] at htotal
    omega
  | attempt :: attempts, store, hlimits, hvalid, hall, hrow, htotal => by
    obtain ⟨hlimit, hlimits⟩ := forall_mem_cons.mp hlimits
    obtain ⟨result, hresult, hvalid', hall', hadvanced⟩ :=
      claim_of_allFitAfter attempt.1 hlimit hnow hvalid hall
    rw [run_cons_claims hresult]
    rcases advance_cases scope now schedule hrow with ⟨hmem, -, -⟩ | ⟨-, hsame⟩
    · exact (run_claims create hnow attempts hlimits hvalid' hall').2.2 _
        (hadvanced.runs schedule hmem)
    · have hless := total_advanced hvalid hadvanced
      rw [if_neg (dueRows_ne_nil hrow hdue)] at hless
      rw [length_cons] at htotal
      refine hasRun_of_total create hnow hdue attempts hlimits hvalid' hall' ?_ (by omega)
      rw [hadvanced.rows, ← hsame]
      exact mem_map_of_mem hrow

theorem allFitAfter_of_succeeds (create : Creator kind) : ∀ (n : ℕ) {store : Store kind},
    total scope now store ≤ n → AllValid store →
    (∀ attempts, AllLimits attempts → ∀ workerId limit, ValidLimit limit →
      ∃ result, ((machine create).run store (claims kind scope now attempts)).claimDue scope
        workerId now limit = .ok result) → AllFitAfter scope now store
  | n, store, htotal, hvalid, hsucceeds => by
    have hone : ValidLimit 1 := ⟨by decide, by decide⟩
    obtain ⟨result, hresult⟩ := hsucceeds [] (fun _ h => absurd h not_mem_nil)
      (.ofLiteral "worker") 1 hone
    obtain ⟨hfits, hadvanced⟩ := claimDue_ok hvalid hresult
    have hless := total_advanced hvalid hadvanced
    refine (allFitAfter_iff hvalid hadvanced).mpr ⟨hfits, ?_⟩
    by_cases hnil : dueRows store scope now = []
    · -- nothing is due, before and after
      intro row hrow hdue
      have hnone : ∀ row ∈ store.schedules.rows, isDue scope now row = true → False :=
        fun row hrow hdue => dueRows_ne_nil hrow hdue hnil
      rw [hadvanced.rows, hnil] at hrow
      obtain ⟨row', hrow', rfl⟩ := mem_map.mp hrow
      exact absurd hdue (hnone row' hrow')
    · rw [if_neg hnil] at hless
      cases n with
      | zero => omega
      | succ n =>
        refine allFitAfter_of_succeeds create n (by omega) (valid_advanced hvalid hfits hadvanced)
          fun attempts hlimits workerId limit hlimit => ?_
        have hrun := hsucceeds ((.ofLiteral "worker", 1) :: attempts)
          (forall_mem_cons.mpr ⟨hone, hlimits⟩) workerId limit hlimit
        rw [run_cons_claims hresult] at hrun
        exact hrun

/-- **Repeated claims.** -/
theorem unblocked_iff (create : Creator kind) (hnow : now + scheduleLeaseSeconds < 2 ^ 63)
    (hvalid : AllValid store) :
    Unblocked create scope now store ↔ AllFitAfter scope now store := by
  constructor
  · intro h
    exact allFitAfter_of_succeeds create _ (le_refl _) hvalid h.succeeds
  · intro hall
    refine ⟨fun attempts hlimits workerId limit hlimit => ?_, fun schedule hrow hdue =>
      ⟨total scope now store, fun attempts hlimits htotal =>
        hasRun_of_total create hnow hdue attempts hlimits hvalid hall hrow htotal⟩⟩
    obtain ⟨hvalid', hall', -⟩ := run_claims create hnow attempts hlimits hvalid hall
    obtain ⟨result, hresult, -⟩ := claim_of_allFitAfter workerId hlimit hnow hvalid' hall'
    exact ⟨result, hresult⟩

/-! ## The stores -/

/-- A creation that succeeds adds one row, with an interval and a time that fit. -/
structure Created (create : Creator kind) : Prop where
  adds : ∀ {store store' : Store kind} {id scope subject interval now},
    create store id scope subject interval now = .ok store' → ∃ schedule : Schedule kind,
      schedule.Valid ∧ store'.schedules.rows = store.schedules.rows ++ [schedule]

theorem insertSchedule_ok {id : RunLoopId} {subject : kind.Subject} {interval : ℕ}
    (hinterval : interval ≠ 0) (hnow : now < 2 ^ 63)
    (h : store.insertSchedule id scope subject interval now = .ok store') :
    ∃ schedule : Schedule kind,
      schedule.Valid ∧ store'.schedules.rows = store.schedules.rows ++ [schedule] := by
  unfold insertSchedule at h
  simp only [bind_eq_ok, orError_eq_ok, pure_eq_ok] at h
  obtain ⟨schedules, hschedules, rfl⟩ := h
  have hpos : 0 < interval := Nat.pos_of_ne_zero hinterval
  exact ⟨_, ⟨hpos, hnow⟩, (Table.insert?_eq_some hschedules).2⟩

theorem created_synthesis : Created createSynthesis := by
  refine ⟨fun {store store' id scope subject interval now} h => ?_⟩
  unfold createSynthesis at h
  simp only [bind_eq_ok, ensure_eq_ok, orError_eq_ok, fitsI64_eq_some] at h
  obtain ⟨_, -, _, -, _, -, _, -, _, -, _, hinterval, _, ⟨hnow, rfl⟩, _, -, h⟩ := h
  exact insertSchedule_ok hinterval.1 hnow h

theorem created_evaluation : Created createEvaluation := by
  refine ⟨fun {store store' id scope subject interval now} h => ?_⟩
  unfold createEvaluation at h
  simp only [bind_eq_ok, ensure_eq_ok, orError_eq_ok, fitsI64_eq_some] at h
  obtain ⟨_, -, _, -, _, hinterval, _, ⟨hnow, rfl⟩, h⟩ := h
  exact insertSchedule_ok hinterval.1 hnow h

theorem allValid_disable {id : RunLoopId} (hvalid : AllValid store)
    (h : store.disable id scope = .ok store') : AllValid store' := by
  unfold disable at h
  simp only [bind_eq_ok, ensure_eq_ok, pure_eq_ok] at h
  obtain ⟨_, -, rfl⟩ := h
  intro schedule hschedule
  obtain ⟨row, hrow, rfl⟩ := mem_map.mp hschedule
  have hkept := hvalid row hrow
  split_ifs
  all_goals exact hkept

theorem allValid_step (hcreate : Created create) (store : Store kind) (call : Call kind)
    (hvalid : AllValid store) : AllValid ((machine create).step store call).1 := by
  have hcommit : ∀ result : Except ScheduleError (Store kind × List (ScheduleRun kind)),
      (∀ done, result = .ok done → AllValid done.1) → AllValid (commit store result).1 := by
    rintro (_ | done) hdone
    · exact hvalid
    · exact hdone done rfl
  cases call with
  | create id scope subject interval now =>
    refine hcommit _ fun done hdone => ?_
    obtain ⟨store', hstore', rfl⟩ := map_eq_ok.mp hdone
    obtain ⟨schedule, hschedule, hrows⟩ := hcreate.adds hstore'
    intro row hrow
    rw [hrows, mem_append, mem_singleton] at hrow
    rcases hrow with hrow | rfl
    · exact hvalid row hrow
    · exact hschedule
  | disable id scope =>
    refine hcommit _ fun done hdone => ?_
    obtain ⟨store', hstore', rfl⟩ := map_eq_ok.mp hdone
    exact allValid_disable hvalid hstore'
  | claimDue scope workerId now limit =>
    refine hcommit _ fun done hdone => ?_
    obtain ⟨hfits, hadvanced⟩ := claimDue_ok hvalid hdone
    exact valid_advanced hvalid hfits hadvanced

theorem allValid_run (hcreate : Created create) (calls : List (Call kind)) :
    AllValid ((machine create).run empty calls) :=
  (machine create).run_invariant (fun store call => allValid_step hcreate store call)
    calls fun _ hnone => absurd hnone not_mem_nil

/-- **One schedule and the others.** In both stores, whatever was called: no schedule of a scope
blocks the others exactly if each that is due has a first time after now that fits. -/
theorem claims_iff (scope : Scope) (now : ℕ) (hnow : now + scheduleLeaseSeconds < 2 ^ 63) :
    (∀ calls, let store := (machine createSynthesis).run empty calls
      Unblocked createSynthesis scope now store ↔ AllFitAfter scope now store) ∧
    (∀ calls, let store := (machine createEvaluation).run empty calls
      Unblocked createEvaluation scope now store ↔ AllFitAfter scope now store) :=
  ⟨fun calls => unblocked_iff createSynthesis hnow (allValid_run created_synthesis calls),
    fun calls => unblocked_iff createEvaluation hnow (allValid_run created_evaluation calls)⟩

def sampleScope : Scope := ⟨.ofLiteral "owner", .ofLiteral "tenant", .ofLiteral "workspace"⟩

def sampleSubject : SynthesisSubject where
  sessionId := .ofLiteral "session"
  name := "nightly"
  provider := "local"
  memoryId := .ofLiteral "memory"
  kind := .lesson
  summary := "what was learned"
  classification := .internal

def sampleSuite : EvaluationSubject := ⟨"nightly", "suite", none⟩

theorem claims_sample :
    Unblocked createSynthesis sampleScope 100 ((machine createSynthesis).run empty
        [.create (.ofLiteral "hourly") sampleScope sampleSubject 3600 100]) ∧
      Unblocked createEvaluation sampleScope 100 ((machine createEvaluation).run empty
        [.create (.ofLiteral "hourly") sampleScope sampleSuite 3600 100]) := by
  have h := claims_iff sampleScope 100 (by decide)
  refine ⟨(h.1 _).mpr ?_, (h.2 _).mpr ?_⟩ <;>
  · unfold AllFitAfter Schedule.FitsAfter Schedule.Fits
    decide +kernel

/-- An hourly schedule, and one with the longest interval that `create` takes. -/
def sampleCalls (subject : kind.Subject) : List (Call kind) :=
  [.create (.ofLiteral "hourly") sampleScope subject 3600 100,
    .create (.ofLiteral "rare") sampleScope subject (2 ^ 63 - 1) 100]

/-- What both creations leave. -/
def sampleStore (create : Creator kind) (subject : kind.Subject) : Store kind :=
  (machine create).run empty (sampleCalls subject)

theorem not_unblocked {e : ScheduleError} (workerId : JobWorkerId) (hlimit : ValidLimit limit)
    (h : error? (store.claimDue scope workerId now limit) = some e) :
    ¬ Unblocked create scope now store := by
  intro hunblocked
  have hno : AllLimits [] := fun _ hnone => absurd hnone not_mem_nil
  obtain ⟨result, hresult⟩ := hunblocked.succeeds [] hno workerId limit hlimit
  rw [error?_eq_some] at h
  exact absurd (h.symm.trans hresult) nofun

/-- Both schedules are there and due, and no claim of the scope succeeds. -/
theorem rare_blocks :
    ((sampleStore createSynthesis sampleSubject).schedules.rows.countP
        (Store.isDue sampleScope 100) = 2 ∧
      error? ((sampleStore createSynthesis sampleSubject).claimDue sampleScope
        (.ofLiteral "worker") 100 1) = some .corruptRecord ∧
      ¬ Unblocked createSynthesis sampleScope 100 (sampleStore createSynthesis sampleSubject)) ∧
    (sampleStore createEvaluation sampleSuite).schedules.rows.countP
        (Store.isDue sampleScope 100) = 2 ∧
      error? ((sampleStore createEvaluation sampleSuite).claimDue sampleScope
        (.ofLiteral "worker") 100 1) = some .corruptRecord ∧
      ¬ Unblocked createEvaluation sampleScope 100 (sampleStore createEvaluation sampleSuite) := by
  have hone : ValidLimit 1 := ⟨by decide, by decide⟩
  have hsynthesis : error? ((sampleStore createSynthesis sampleSubject).claimDue sampleScope
      (.ofLiteral "worker") 100 1) = some .corruptRecord := by decide +kernel
  have hevaluation : error? ((sampleStore createEvaluation sampleSuite).claimDue sampleScope
      (.ofLiteral "worker") 100 1) = some .corruptRecord := by decide +kernel
  exact ⟨⟨by decide +kernel, hsynthesis, not_unblocked _ hone hsynthesis⟩,
    by decide +kernel, hevaluation, not_unblocked _ hone hevaluation⟩

end Pandora.Schedules
