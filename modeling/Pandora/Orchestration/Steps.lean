import Pandora.Orchestration.Accounts

/-! # Calls on the orchestration store

Any number of workers share one database; every call is a transaction, so a run of the store is a
list of calls. `Step` says what a call can do: nothing, when it is refused or finds no work, or
write the row of one run and the budget tables of that run. -/

namespace Pandora.Orchestration.Steps

open Ids Text Lib.Checked Lib.Tables Lib.Runs Orchestration.Store Orchestration.Accounts Table

/-! ### The store as a machine -/

inductive Call
  | submit (runId : OrchestrationRunId) (scope : RunScope) (plan : GovernedOrchestrationPlan)
    (createdAt : ℕ)
  | claimNext (scope : RunScope) (workerId : JobWorkerId) (now : ℕ)
  | startReady (runId : OrchestrationRunId) (scope : RunScope) (workerId : JobWorkerId) (now : ℕ)
  | completeRole (runId : OrchestrationRunId) (scope : RunScope) (workerId : JobWorkerId)
    (roleId : RoleId) (receipt : OrchestrationRoleReceipt) (now : ℕ)
  | markInterrupted (runId : OrchestrationRunId) (scope : RunScope) (reason : String) (now : ℕ)
  | reconcileInterruptedRole (runId : OrchestrationRunId) (scope : RunScope) (roleId : RoleId)
    (usage : OrchestrationUsage) (evidenceDigest : RequestDigest) (now : ℕ)
  | resume (runId : OrchestrationRunId) (scope : RunScope) (now : ℕ)
  | cancel (runId : OrchestrationRunId) (scope : RunScope) (now : ℕ)

inductive Reply
  | run (record : OrchestrationRunRecord)
  | claimed (record : Option OrchestrationRunRecord)
  | started (roles : List RoleAssignment)

/-- Run a transaction and wrap its answer. -/
def transact {α : Type} (db : OrchestrationDb) (reply : α → Reply)
    (result : Except OrchestrationStoreError (OrchestrationDb × α)) :
    OrchestrationDb × Except OrchestrationStoreError Reply :=
  ((commit db result).1, (commit db result).2.map reply)

def exec (db : OrchestrationDb) : Call → OrchestrationDb × Except OrchestrationStoreError Reply
  | .submit runId scope plan createdAt => transact db .run (submit db runId scope plan createdAt)
  | .claimNext scope workerId now => transact db .claimed (claimNext db scope workerId now)
  | .startReady runId scope workerId now =>
    transact db .started (startReady db runId scope workerId now)
  | .completeRole runId scope workerId roleId receipt now =>
    transact db .run (completeRole db runId scope workerId roleId receipt now)
  | .markInterrupted runId scope reason now =>
    transact db .run (markInterrupted db runId scope reason now)
  | .reconcileInterruptedRole runId scope roleId usage evidenceDigest now =>
    transact db .run (reconcileInterruptedRole db runId scope roleId usage evidenceDigest now)
  | .resume runId scope now => transact db .run (resume db runId scope now)
  | .cancel runId scope now => transact db .run (cancel db runId scope now)

def store : Machine OrchestrationDb Call (Except OrchestrationStoreError Reply) := ⟨exec⟩

/-- The database after a list of calls. -/
def dbAfter (calls : List Call) : OrchestrationDb := store.run .empty calls

theorem transact_error {α : Type} {db : OrchestrationDb} {reply : α → Reply}
    {result : Except OrchestrationStoreError (OrchestrationDb × α)} {e : OrchestrationStoreError}
    (h : (transact db reply result).2 = .error e) : (transact db reply result).1 = db := by
  rcases result with _ | ⟨db', a⟩
  · rfl
  · cases h

variable {call : Call}

theorem exec_error {db : OrchestrationDb} {e : OrchestrationStoreError}
    (h : (exec db call).2 = .error e) : (exec db call).1 = db := by
  cases call <;> exact transact_error h

/-! ### Reading and writing the row of a run -/

/-- The budget tables are the same. -/
structure SameBudgets (db db' : OrchestrationDb) : Prop where
  budgets : db'.budgets = db.budgets
  reservations : db'.reservations = db.reservations
  reconciliations : db'.reconciliations = db.reconciliations

section

variable {db db' : OrchestrationDb} {runId : OrchestrationRunId} {scope : RunScope}

theorem SameBudgets.elsewhere (h : SameBudgets db db') (runId : OrchestrationRunId) :
    Elsewhere runId db db' where
  budgets _ _ := by rw [h.budgets]
  reservations _ _ _ := by rw [h.reservations]
  reservationTotal _ _ := by rw [h.reservations]
  reconciliations _ _ := by rw [h.reconciliations]
  reconciliationTotal _ _ := by rw [h.reconciliations]

theorem SameBudgets.account {budget : OrchestrationAggregateBudget}
    {active completed : RoleId → Prop} (hsame : SameBudgets db db')
    (h : Account db runId scope budget active completed) :
    Account db' runId scope budget active completed := by
  obtain ⟨runs, budgets, reservations, reconciliations⟩ := db
  obtain ⟨runs', budgets', reservations', reconciliations'⟩ := db'
  obtain ⟨rfl, rfl, rfl⟩ := hsame
  obtain ⟨⟨row, hrow, hbalanced⟩, hplanned, hactive, hsettled, hreconciled⟩ := h
  refine ⟨⟨row, hrow, ?_⟩, hplanned, hactive, hsettled, hreconciled⟩
  exact ⟨hbalanced.scope, hbalanced.ceiling, hbalanced.consumed, hbalanced.committed_le,
    hbalanced.committed_lt⟩

variable {record : OrchestrationRunRecord}

theorem loadScoped_eq_some :
    loadScoped db runId scope = .ok (some record) ↔
      ∃ row, db.runs.get? runId = some row ∧ row.record.scope = scope ∧ row.record = record ∧
        validateRecord record = .ok () := by
  unfold loadScoped
  constructor
  · intro h
    rcases hfilter : (db.runs.get? runId).filter fun row => row.record.scope = scope with _ | row
    · rw [hfilter] at h
      cases h
    · rw [hfilter, Option.mapM_some, map_eq_ok] at h
      obtain ⟨record', hdecode, hsome⟩ := h
      obtain rfl := Option.some.inj hsome
      simp only [decodeRecord, bind_eq_ok, mapError_eq_ok, pure_eq_ok] at hdecode
      obtain ⟨⟨⟩, hvalid, rfl⟩ := hdecode
      obtain ⟨hget, hscope⟩ := Option.filter_eq_some_iff.mp hfilter
      exact ⟨row, hget, of_decide_eq_true hscope, rfl, hvalid⟩
  · rintro ⟨row, hget, hscope, rfl, hvalid⟩
    have hfilter : (db.runs.get? runId).filter (fun row => row.record.scope = scope) = some row :=
      Option.filter_eq_some_iff.mpr ⟨hget, decide_eq_true hscope⟩
    rw [hfilter, Option.mapM_some, map_eq_ok]
    refine ⟨row.record, ?_, rfl⟩
    simp only [decodeRecord, bind_eq_ok, mapError_eq_ok, pure_eq_ok]
    exact ⟨(), hvalid, trivial⟩

variable {workerId : JobWorkerId}

theorem runningOwned_eq_ok :
    runningOwned db runId scope workerId = .ok record ↔
      loadScoped db runId scope = .ok (some record) ∧ record.status = .running ∧
        record.workerId = some workerId := by
  simp only [runningOwned, bind_eq_ok, orError_eq_ok, ensure_eq_ok, exists_const, pure_eq_ok]
  constructor
  · rintro ⟨_, hload, current, rfl, hstatus, hworker, rfl⟩
    exact ⟨hload, hstatus, hworker⟩
  · rintro ⟨hload, hstatus, hworker⟩
    exact ⟨_, hload, _, rfl, hstatus, hworker, rfl⟩

variable {p : OrchestrationRunRecord → Bool} {row : RunRow}

theorem selectsRun_key
    (h : selectsRun runId scope p row) : row.runId = runId := (of_decide_eq_true h).1

theorem updateRun_of_selects {f : OrchestrationRunRecord → OrchestrationRunRecord}
    (hf : ∀ record, (f record).runId = record.runId)
    (hrow : db.runs.get? runId = some row) (hscope : row.record.scope = scope)
    (hp : p row.record = true) :
    ∃ runs, updateRun db runId scope p f hf = .ok { db with runs } ∧
      Table.Writes db.runs runs runId { row with record := f row.record } := by
  have hrun : row.runId = runId := (Table.get?_eq_some.mp hrow).2
  have hselected : selectsRun runId scope p row := decide_eq_true ⟨hrun, hscope, hp⟩
  have hput := put_update (f := fun row : RunRow => { row with record := f row.record })
    (fun row _ => hf row.record) (fun s hs => selectsRun_key hs) hrow hselected
  refine ⟨_, ?_, hput.writes⟩
  unfold updateRun
  rw [countP_eq_one (fun s hs => selectsRun_key hs) hrow hselected]
  rfl

theorem updateRun_eq_ok {f : OrchestrationRunRecord → OrchestrationRunRecord}
    {hf : ∀ record, (f record).runId = record.runId}
    (hok : updateRun db runId scope p f hf = .ok db') (hrow : db.runs.get? runId = some row)
    (hscope : row.record.scope = scope) :
    Table.Writes db.runs db'.runs runId { row with record := f row.record } ∧
      SameBudgets db db' := by
  have hcount : db.runs.rows.countP (selectsRun runId scope p) = 1 := by
    simp only [updateRun, bind_eq_ok, ensure_eq_ok, exists_const] at hok
    exact hok.1
  have hselected := of_countP_eq_one (fun s hs => selectsRun_key hs) hrow hcount
  obtain ⟨runs, hupdate, hwrites⟩ :=
    updateRun_of_selects hf hrow hscope (of_decide_eq_true hselected).2.2
  rw [hupdate] at hok
  obtain rfl := Except.ok.inj hok
  exact ⟨hwrites, rfl, rfl, rfl⟩

/-! ### What a call does -/

/-- The record of a run that was submitted. -/
def submittedRecord (runId : OrchestrationRunId) (scope : RunScope)
    (plan : GovernedOrchestrationPlan) (createdAt : ℕ) : OrchestrationRunRecord :=
  { runId, scope, plan, snapshot := (OrchestrationRun.new plan.plan).snapshot, status := .queued
    workerId := none, roleReceipts := [], interruptionReason := none, createdAt
    updatedAt := createdAt }

/-- The row of a stored run is replaced. -/
structure Rewrites (db db' : OrchestrationDb) (runId : OrchestrationRunId) (scope : RunScope)
    (row : RunRow) (record : OrchestrationRunRecord) : Prop where
  was : db.runs.get? runId = some row
  scope : row.record.scope = scope
  writes : Table.Writes db.runs db'.runs runId { row with record }

/-- One call. -/
inductive Step (db : OrchestrationDb) :
    Call → OrchestrationDb → Except OrchestrationStoreError Reply → Prop
  | refused {call : Call} (e : OrchestrationStoreError) : Step db call db (.error e)
  | idle {scope : RunScope} {workerId : JobWorkerId} {now : ℕ} :
    Step db (.claimNext scope workerId now) db (.ok (.claimed none))
  | submitted {db' : OrchestrationDb} {runId : OrchestrationRunId} {scope : RunScope}
    {plan : GovernedOrchestrationPlan} {createdAt : ℕ} {budget : OrchestrationAggregateBudget}
    {sequence : ℤ} (hvalid : plan.validate = .ok ()) (hbudget : plan.aggregateBudget = some budget)
    (hfree : db.runs.get? runId = none)
    (hruns : Table.Writes db.runs db'.runs runId
      ⟨submittedRecord runId scope plan createdAt, sequence⟩)
    (hbudgets : Table.Writes db.budgets db'.budgets runId
      ⟨runId, scope, budget.ceiling, ⟨.zero, 0, 0⟩, createdAt, createdAt⟩)
    (hreservations : db'.reservations = db.reservations)
    (hreconciliations : db'.reconciliations = db.reconciliations) :
    Step db (.submit runId scope plan createdAt) db'
      (.ok (.run (submittedRecord runId scope plan createdAt)))
  | claimed {db' : OrchestrationDb} {runId : OrchestrationRunId} {scope : RunScope}
    {workerId : JobWorkerId} {now : ℕ} {row : RunRow} {record : OrchestrationRunRecord}
    (hstatus : row.record.status = .queued)
    (hrecord : record = { row.record with
      status := .running, workerId := some workerId, updatedAt := now })
    (hrun : Rewrites db db' runId scope row record) (hsame : SameBudgets db db') :
    Step db (.claimNext scope workerId now) db' (.ok (.claimed (some record)))
  | started {db₁ db' : OrchestrationDb} {runId : OrchestrationRunId} {scope : RunScope}
    {workerId : JobWorkerId} {now : ℕ} {row : RunRow} {run run' : OrchestrationRun}
    {ready : List RoleAssignment} {budget : OrchestrationAggregateBudget}
    (hstatus : row.record.status = .running) (hworker : row.record.workerId = some workerId)
    (hsnapshot : OrchestrationRun.fromSnapshot row.record.snapshot = .ok run)
    (hready : run.startReady = .ok (run', ready))
    (hbudget : row.record.plan.aggregateBudget = some budget)
    (hreserve : reserveRoles runId scope budget now db ready = .ok db₁)
    (hrun : Rewrites db db' runId scope row
      { row.record with snapshot := run'.snapshot, updatedAt := now })
    (hsame : SameBudgets db₁ db') :
    Step db (.startReady runId scope workerId now) db' (.ok (.started ready))
  | completed {db₁ db' : OrchestrationDb} {runId : OrchestrationRunId} {scope : RunScope}
    {workerId : JobWorkerId} {roleId : RoleId} {receipt : OrchestrationRoleReceipt} {now : ℕ}
    {row : RunRow} {run run' : OrchestrationRun} {reply : OrchestrationRunRecord}
    (hstatus : row.record.status = .running) (hworker : row.record.workerId = some workerId)
    (hreceipt : row.record.plan.validateReceipt runId roleId receipt = .ok ())
    (hnew : ∀ stored ∈ row.record.roleReceipts, stored.receiptId ≠ receipt.receiptId)
    (hsettle : settleRoleBudget db runId scope roleId receipt now = .ok db₁)
    (hsnapshot : OrchestrationRun.fromSnapshot row.record.snapshot = .ok run)
    (hcomplete : run.complete roleId = .ok run')
    (hrun : Rewrites db db' runId scope row { row.record with
        snapshot := run'.snapshot, roleReceipts := row.record.roleReceipts ++ [receipt]
        status := if run'.isComplete then .completed else .running, updatedAt := now })
    (hsame : SameBudgets db₁ db') :
    Step db (.completeRole runId scope workerId roleId receipt now) db' (.ok (.run reply))
  | interrupted {db' : OrchestrationDb} {runId : OrchestrationRunId} {scope : RunScope}
    {reason : String} {now : ℕ} {row : RunRow} {reply : OrchestrationRunRecord}
    (hstatus : row.record.status = .running) (hreason : ¬ (trim reason).isEmpty)
    (hrun : Rewrites db db' runId scope row { row.record with
      status := .interrupted, interruptionReason := some (trim reason), updatedAt := now })
    (hsame : SameBudgets db db') :
    Step db (.markInterrupted runId scope reason now) db' (.ok (.run reply))
  | reconciled {db₁ db' : OrchestrationDb} {runId : OrchestrationRunId} {scope : RunScope}
    {roleId : RoleId} {usage : OrchestrationUsage} {evidenceDigest : RequestDigest} {now : ℕ}
    {row : RunRow} {run run' : OrchestrationRun} {reply : OrchestrationRunRecord}
    (hstatus : row.record.status = .interrupted)
    (hsnapshot : OrchestrationRun.fromSnapshot row.record.snapshot = .ok run)
    (hrelease : run.releaseActive roleId = .ok run')
    (hreconcile : reconcileFailedRoleBudget db runId scope roleId usage evidenceDigest now =
      .ok db₁)
    (hrun : Rewrites db db' runId scope row
      { row.record with snapshot := run'.snapshot, updatedAt := now })
    (hsame : SameBudgets db₁ db') :
    Step db (.reconcileInterruptedRole runId scope roleId usage evidenceDigest now) db'
      (.ok (.run reply))
  | resumed {db' : OrchestrationDb} {runId : OrchestrationRunId} {scope : RunScope} {now : ℕ}
    {row : RunRow} {reply : OrchestrationRunRecord}
    (hstatus : row.record.status = .interrupted) (hidle : row.record.snapshot.active = [])
    (hrun : Rewrites db db' runId scope row { row.record with
      status := .queued, workerId := none, interruptionReason := none, updatedAt := now })
    (hsame : SameBudgets db db') :
    Step db (.resume runId scope now) db' (.ok (.run reply))
  | cancelled {db₁ db' : OrchestrationDb} {runId : OrchestrationRunId} {scope : RunScope} {now : ℕ}
    {row : RunRow} {reply : OrchestrationRunRecord}
    (hstatus : row.record.status = .queued)
    (hrun : Rewrites db db₁ runId scope row
      { row.record with status := .cancelled, updatedAt := now })
    (hsame : SameBudgets db db₁)
    (hrelease : releaseActiveBudgetReservations db₁ runId scope now = .ok db') :
    Step db (.cancel runId scope now) db' (.ok (.run reply))

/-- A transaction that fails leaves the database, one that succeeds leaves its own. -/
theorem transact_step {α : Type} {reply : α → Reply}
    {result : Except OrchestrationStoreError (OrchestrationDb × α)}
    (h : ∀ db' a, result = .ok (db', a) → Step db call db' (.ok (reply a))) :
    Step db call (transact db reply result).1 (transact db reply result).2 := by
  rcases result with e | ⟨db', a⟩
  · exact .refused e
  · exact h db' a rfl

theorem submit_step {plan : GovernedOrchestrationPlan} {createdAt : ℕ}
    (h : submit db runId scope plan createdAt = .ok (db', record)) :
    Step db (.submit runId scope plan createdAt) db' (.ok (.run record)) := by
  simp only [submit, bind_eq_ok, mapError_eq_ok, orError_eq_ok, toI64,
    fitsI64_eq_some, ensure_eq_ok, exists_const, pure_eq_ok, Prod.mk.injEq] at h
  obtain ⟨⟨⟩, hvalid, budget, hbudget, sequence, -, created, ⟨-, rfl⟩, -, runs, hruns,
    budgets, hbudgets, rfl, rfl⟩ := h
  have hfree := (put_insert? hruns).was
  exact .submitted hvalid hbudget hfree (Table.get?_insert? hruns) (Table.get?_insert? hbudgets)
    rfl rfl

variable {now : ℕ}

theorem claimNext_step {found : Option OrchestrationRunRecord}
    (h : claimNext db scope workerId now = .ok (db', found)) :
    Step db (.claimNext scope workerId now) db' (.ok (.claimed found)) := by
  unfold claimNext at h
  rcases hnext : nextQueued db scope with _ | row
  · rw [hnext] at h
    obtain ⟨rfl, rfl⟩ := Prod.mk.inj (Except.ok.inj h)
    exact .idle
  · rw [hnext] at h
    simp only [bind_eq_ok, orError_eq_ok, toI64, fitsI64_eq_some, pure_eq_ok, Prod.mk.injEq] at h
    obtain ⟨time, ⟨-, rfl⟩, db₁, hupdate, _, hload, record, rfl, rfl, rfl⟩ := h
    have hmem := List.mem_filter.mp (firstBy_eq_some hnext).1
    obtain ⟨hscope, hstatus⟩ := of_decide_eq_true hmem.2
    have hrow : db.runs.get? row.runId = some row := Table.get?_eq_some.mpr ⟨hmem.1, rfl⟩
    obtain ⟨hwrites, hsame⟩ := updateRun_eq_ok hupdate hrow hscope
    obtain ⟨row', hrow', -, rfl, -⟩ := loadScoped_eq_some.mp hload
    obtain rfl := Option.some.inj (hwrites.same.symm.trans hrow')
    exact .claimed hstatus rfl ⟨hrow, hscope, hwrites⟩ hsame

theorem startReady_step {ready : List RoleAssignment}
    (h : startReady db runId scope workerId now = .ok (db', ready)) :
    Step db (.startReady runId scope workerId now) db' (.ok (.started ready)) := by
  simp only [startReady, bind_eq_ok, mapError_eq_ok, orError_eq_ok, toI64,
    fitsI64_eq_some, pure_eq_ok, Prod.mk.injEq, runningOwned_eq_ok, Prod.exists] at h
  obtain ⟨_, ⟨hload, hstatus, hworker⟩, run, hsnapshot, run', _, hready, budget, hbudget, db₁,
    hreserve, time, ⟨-, rfl⟩, db₂, hupdate, rfl, rfl⟩ := h
  obtain ⟨row, hrow, hscope, rfl, -⟩ := loadScoped_eq_some.mp hload
  have hruns := reserveRoles_runs hreserve
  obtain ⟨hwrites, hsame⟩ := updateRun_eq_ok hupdate (hruns ▸ hrow) hscope
  rw [hruns] at hwrites
  exact .started hstatus hworker hsnapshot hready hbudget hreserve ⟨hrow, hscope, hwrites⟩ hsame

theorem completeRole_step {roleId : RoleId} {receipt : OrchestrationRoleReceipt}
    (h : completeRole db runId scope workerId roleId receipt now = .ok (db', record)) :
    Step db (.completeRole runId scope workerId roleId receipt now) db' (.ok (.run record)) := by
  simp only [completeRole, bind_eq_ok, mapError_eq_ok, toI64, orError_eq_ok, fitsI64_eq_some,
    ensure_eq_ok, exists_const, pure_eq_ok, Prod.mk.injEq, runningOwned_eq_ok] at h
  obtain ⟨_, ⟨hload, hstatus, hworker⟩, ⟨⟩, hreceipt, hnew, db₁, hsettle, run, hsnapshot, run',
    hcomplete, time, ⟨-, rfl⟩, db₂, hupdate, rfl, rfl⟩ := h
  obtain ⟨row, hrow, hscope, rfl, -⟩ := loadScoped_eq_some.mp hload
  have hruns := settleRoleBudget_runs hsettle
  obtain ⟨hwrites, hsame⟩ := updateRun_eq_ok hupdate (hruns ▸ hrow) hscope
  rw [hruns] at hwrites
  refine .completed hstatus hworker hreceipt ?_ hsettle hsnapshot hcomplete ⟨hrow, hscope, hwrites⟩
    hsame
  intro stored hstored heq
  exact hnew (List.any_eq_true.mpr ⟨stored, hstored, decide_eq_true heq⟩)

theorem markInterrupted_step {reason : String}
    (h : markInterrupted db runId scope reason now = .ok (db', record)) :
    Step db (.markInterrupted runId scope reason now) db' (.ok (.run record)) := by
  simp only [markInterrupted, bind_eq_ok, toI64, orError_eq_ok, fitsI64_eq_some, ensure_eq_ok,
    exists_const, pure_eq_ok, Prod.mk.injEq] at h
  obtain ⟨_, hload, _, rfl, hstatus, hreason, time, ⟨-, rfl⟩, db₁, hupdate, rfl, rfl⟩ := h
  obtain ⟨row, hrow, hscope, rfl, -⟩ := loadScoped_eq_some.mp hload
  obtain ⟨hwrites, hsame⟩ := updateRun_eq_ok hupdate hrow hscope
  exact .interrupted hstatus hreason ⟨hrow, hscope, hwrites⟩ hsame

theorem reconcileInterruptedRole_step {roleId : RoleId} {usage : OrchestrationUsage}
    {evidenceDigest : RequestDigest}
    (h : reconcileInterruptedRole db runId scope roleId usage evidenceDigest now =
      .ok (db', record)) :
    Step db (.reconcileInterruptedRole runId scope roleId usage evidenceDigest now) db'
      (.ok (.run record)) := by
  simp only [reconcileInterruptedRole, bind_eq_ok, mapError_eq_ok, toI64, orError_eq_ok,
    fitsI64_eq_some, ensure_eq_ok, exists_const, pure_eq_ok, Prod.mk.injEq] at h
  obtain ⟨⟨⟩, -, _, hload, _, rfl, hstatus, run, hsnapshot, run', hrelease, db₁, hreconcile, time,
    ⟨-, rfl⟩, db₂, hupdate, rfl, rfl⟩ := h
  obtain ⟨row, hrow, hscope, rfl, -⟩ := loadScoped_eq_some.mp hload
  have hruns := reconcileFailedRoleBudget_runs hreconcile
  obtain ⟨hwrites, hsame⟩ := updateRun_eq_ok hupdate (hruns ▸ hrow) hscope
  rw [hruns] at hwrites
  exact .reconciled hstatus hsnapshot hrelease hreconcile ⟨hrow, hscope, hwrites⟩ hsame

theorem resume_step (h : resume db runId scope now = .ok (db', record)) :
    Step db (.resume runId scope now) db' (.ok (.run record)) := by
  simp only [resume, bind_eq_ok, toI64, orError_eq_ok, fitsI64_eq_some, ensure_eq_ok, exists_const,
    pure_eq_ok, Prod.mk.injEq] at h
  obtain ⟨_, hload, _, rfl, hstatus, hidle, time, ⟨-, rfl⟩, db₁, hupdate, rfl, rfl⟩ := h
  obtain ⟨row, hrow, hscope, rfl, -⟩ := loadScoped_eq_some.mp hload
  obtain ⟨hwrites, hsame⟩ := updateRun_eq_ok hupdate hrow hscope
  exact .resumed hstatus hidle ⟨hrow, hscope, hwrites⟩ hsame

theorem cancel_step (h : cancel db runId scope now = .ok (db', record)) :
    Step db (.cancel runId scope now) db' (.ok (.run record)) := by
  simp only [cancel, bind_eq_ok, toI64, orError_eq_ok, fitsI64_eq_some, ensure_eq_ok, exists_const,
    pure_eq_ok, Prod.mk.injEq] at h
  obtain ⟨_, hload, _, rfl, hstatus, time, ⟨-, rfl⟩, db₁, hupdate, db₂, hrelease, rfl, rfl⟩ := h
  obtain ⟨row, hrow, hscope, rfl, -⟩ := loadScoped_eq_some.mp hload
  obtain ⟨hwrites, hsame⟩ := updateRun_eq_ok hupdate hrow hscope
  exact .cancelled hstatus ⟨hrow, hscope, hwrites⟩ hsame hrelease

/-- **Every call is a step.** -/
theorem exec_step (db : OrchestrationDb) (call : Call) :
    Step db call (exec db call).1 (exec db call).2 := by
  cases call with
  | submit runId scope plan createdAt => exact transact_step fun _ _ h => submit_step h
  | claimNext scope workerId now => exact transact_step fun _ _ h => claimNext_step h
  | startReady runId scope workerId now => exact transact_step fun _ _ h => startReady_step h
  | completeRole runId scope workerId roleId receipt now =>
    exact transact_step fun _ _ h => completeRole_step h
  | markInterrupted runId scope reason now =>
    exact transact_step fun _ _ h => markInterrupted_step h
  | reconcileInterruptedRole runId scope roleId usage evidenceDigest now =>
    exact transact_step fun _ _ h => reconcileInterruptedRole_step h
  | resume runId scope now => exact transact_step fun _ _ h => resume_step h
  | cancel runId scope now => exact transact_step fun _ _ h => cancel_step h

theorem exec_step_ok {reply : Reply} (h : (exec db call).2 = .ok reply) :
    Step db call (exec db call).1 (.ok reply) := by
  rw [← h]
  exact exec_step db call

end

end Pandora.Orchestration.Steps
