import Pandora.Orchestration.Steps

/-! # What every reachable database satisfies

`Coherent record run budget` is about the record of a run: its snapshot is that of a safe run of its
plan, its receipts are those of the completed roles, and its status fits both. `Sound db` says that
every stored record is coherent and that the budget tables are the account of the run it is about;
every call keeps it. -/

namespace Pandora.Orchestration.Coherence

open Ids Text Lib.Checked Lib.OrderedSets Lib.Tables Orchestration.Store List Orchestration.Accounts
  Orchestration.Steps OrchestrationRun

/-! ### Records -/

/-- The record of a run with the given roles active and completed. -/
structure Coherent (record : OrchestrationRunRecord) (run : OrchestrationRun)
    (budget : OrchestrationAggregateBudget) : Prop where
  safe : run.Safe
  snapshot : record.snapshot = run.snapshot
  plan : run.plan = record.plan.plan
  valid : record.plan.validate = .ok ()
  budget : record.plan.aggregateBudget = some budget
  status : statusValid record.status record.workerId record.interruptionReason = true
  complete : record.status = .completed ↔ run.isComplete = true
  idle : record.status = .queued ∨ record.status = .cancelled → ∀ id, id ∉ run.active
  receiptIds : (record.roleReceipts.map OrchestrationRoleReceipt.receiptId).Nodup
  roles : (record.roleReceipts.map OrchestrationRoleReceipt.roleId).Nodup
  receipts : ∀ receipt ∈ record.roleReceipts,
    record.plan.validateReceipt record.runId receipt.roleId receipt = .ok ()
  completed : ∀ id, id ∈ run.completed ↔ ∃ receipt ∈ record.roleReceipts, receipt.roleId = id

section

variable {record : OrchestrationRunRecord} {run run' : OrchestrationRun}
  {budget : OrchestrationAggregateBudget}

/-- A coherent record passes the check that is made when it is read. -/
theorem Coherent.validate (h : Coherent record run budget) : validateRecord record = .ok () := by
  have hrun : fromSnapshot record.snapshot = .ok run := by
    rw [h.snapshot]
    exact h.safe.fromSnapshot_snapshot
  have hplan : record.snapshot.plan = record.plan.plan := by
    rw [h.snapshot]
    exact h.plan
  have hcomplete : ¬ (record.status = .completed ∧ ¬ run.isComplete) :=
    fun hnot => hnot.2 (h.complete.mp hnot.1)
  have hrepeated : firstRepeated [] (record.roleReceipts.map OrchestrationRoleReceipt.receiptId) =
      none := firstRepeated_eq_none.mpr ⟨h.receiptIds, fun _ _ => not_mem_nil⟩
  simp only [validateRecord, bind_eq_ok, mapError_eq_ok, ensure_eq_ok]
  exact ⟨(), h.valid, run, hrun, (), hplan, (), ⟨h.status, hcomplete⟩, hrepeated, h.receipts⟩

theorem Coherent.eq_of_fromSnapshot (h : Coherent record run budget)
    (hrun : fromSnapshot record.snapshot = .ok run') : run' = run := by
  rw [h.snapshot, h.safe.fromSnapshot_snapshot] at hrun
  exact (Except.ok.inj hrun).symm

theorem isComplete_iff (h : run.Safe) :
    run.isComplete = true ↔ ∀ role ∈ run.plan.roles, role.id ∈ run.completed := by
  have hsub : run.completed.elems ⊆ run.plan.roles.map RoleAssignment.id := by
    intro id hid
    obtain ⟨role, hrole, hrid, -⟩ := h.completed_settled id hid
    exact mem_map.mpr ⟨role, hrole, hrid⟩
  have hsubperm := run.completed.nodup.subperm hsub
  rw [isComplete, decide_eq_true_eq, OrderedSet.card]
  constructor
  · intro hlength role hrole
    have hperm := hsubperm.perm_of_length_le (by rw [length_map, hlength])
    exact hperm.mem_iff.mpr (mem_map_of_mem hrole)
  · intro hall
    have hsub' : run.plan.roles.map RoleAssignment.id ⊆ run.completed.elems := by
      intro id hid
      obtain ⟨role, hrole, rfl⟩ := mem_map.mp hid
      exact hall role hrole
    have hle := hsubperm.length_le
    have hge := (run.plan.valid.nodup.subperm hsub').length_le
    rw [length_map] at hle hge
    exact Nat.le_antisymm hle hge

/-- A record with the same plan and receipts, of a run with the same roles completed. -/
structure Coherent.Moves (record record' : OrchestrationRunRecord) (run run' : OrchestrationRun) :
    Prop where
  runId : record'.runId = record.runId
  plan : record'.plan = record.plan
  receipts : record'.roleReceipts = record.roleReceipts
  snapshot : record'.snapshot = run'.snapshot
  safe : run'.Safe
  runPlan : run'.plan = run.plan
  completed : run'.completed = run.completed

theorem Coherent.move {record' : OrchestrationRunRecord} (h : Coherent record run budget)
    (hmoves : Coherent.Moves record record' run run')
    (hstatus : statusValid record'.status record'.workerId record'.interruptionReason = true)
    (hcomplete : record'.status = .completed ↔ record.status = .completed)
    (hidle : record'.status = .queued ∨ record'.status = .cancelled → ∀ id, id ∉ run'.active) :
    Coherent record' run' budget := by
  refine ⟨hmoves.safe, hmoves.snapshot, ?_, ?_, ?_, hstatus, ?_, hidle, ?_, ?_, ?_, ?_⟩
  · rw [hmoves.runPlan, hmoves.plan, h.plan]
  · rw [hmoves.plan, h.valid]
  · rw [hmoves.plan, h.budget]
  · rw [hcomplete, h.complete, isComplete, isComplete, hmoves.completed, hmoves.runPlan]
  · rw [hmoves.receipts]
    exact h.receiptIds
  · rw [hmoves.receipts]
    exact h.roles
  · rw [hmoves.receipts, hmoves.plan, hmoves.runId]
    exact h.receipts
  · rw [hmoves.completed, hmoves.receipts]
    exact h.completed

theorem Coherent.claim (h : Coherent record run budget) (hstatus : record.status = .queued)
    (workerId : JobWorkerId) (now : ℕ) :
    Coherent { record with status := .running, workerId := some workerId, updatedAt := now } run
      budget := by
  have hvalid := h.status
  rw [hstatus] at hvalid
  refine h.move ⟨rfl, rfl, rfl, h.snapshot, h.safe, rfl, rfl⟩ ?_ ?_ ?_
  · simp only [statusValid, Bool.and_eq_true] at hvalid ⊢
    exact ⟨rfl, hvalid.2⟩
  · simp [hstatus]
  · simp

theorem Coherent.interrupt (h : Coherent record run budget) (hstatus : record.status = .running)
    {reason : String} (hreason : ¬ (trim reason).isEmpty) (now : ℕ) :
    Coherent { record with
      status := .interrupted, interruptionReason := some (trim reason), updatedAt := now } run
      budget := by
  have hvalid := h.status
  rw [hstatus] at hvalid
  have hblank := trim_trim_nonblank hreason
  refine h.move ⟨rfl, rfl, rfl, h.snapshot, h.safe, rfl, rfl⟩ ?_ ?_ ?_
  · simp only [statusValid, Bool.and_eq_true] at hvalid ⊢
    refine ⟨hvalid.1, ?_⟩
    simpa using hblank
  · simp [hstatus]
  · simp

theorem Coherent.resume (h : Coherent record run budget) (hstatus : record.status = .interrupted)
    (hidle : record.snapshot.active = []) (now : ℕ) :
    Coherent { record with
      status := .queued, workerId := none, interruptionReason := none, updatedAt := now } run
      budget := by
  refine h.move ⟨rfl, rfl, rfl, h.snapshot, h.safe, rfl, rfl⟩ rfl ?_ ?_
  · simp [hstatus]
  · intro _ id hid
    have hactive : run.active.elems = [] := by
      rw [h.snapshot] at hidle
      exact hidle
    have hmem : id ∈ run.active.elems := hid
    rw [hactive] at hmem
    exact not_mem_nil hmem

theorem Coherent.cancel (h : Coherent record run budget) (hstatus : record.status = .queued)
    (now : ℕ) : Coherent { record with status := .cancelled, updatedAt := now } run budget := by
  have hvalid := h.status
  rw [hstatus] at hvalid
  refine h.move ⟨rfl, rfl, rfl, h.snapshot, h.safe, rfl, rfl⟩ hvalid ?_ ?_
  · simp [hstatus]
  · exact fun _ => h.idle (Or.inl hstatus)

theorem Coherent.moveRoles (h : Coherent record run budget)
    (hstatus : record.status = .running ∨ record.status = .interrupted) (hsafe : run'.Safe)
    (hplan : run'.plan = run.plan) (hcompleted : run'.completed = run.completed) (now : ℕ) :
    Coherent { record with snapshot := run'.snapshot, updatedAt := now } run' budget := by
  refine h.move ⟨rfl, rfl, rfl, rfl, hsafe, hplan, hcompleted⟩ h.status Iff.rfl ?_
  change record.status = .queued ∨ record.status = .cancelled → _
  rcases hstatus with hstatus | hstatus
  all_goals simp [hstatus]

theorem coherent_submitted {runId : OrchestrationRunId} {scope : RunScope}
    {plan : GovernedOrchestrationPlan} {createdAt : ℕ} (hvalid : plan.validate = .ok ())
    (hbudget : plan.aggregateBudget = some budget) :
    Coherent (submittedRecord runId scope plan createdAt) (.new plan.plan) budget where
  safe := safe_new _
  snapshot := rfl
  plan := rfl
  valid := hvalid
  budget := hbudget
  status := rfl
  complete := by
    have hpos := plan.plan.valid.positive
    have hle := plan.plan.valid.parallelism_le
    have hcard : (new plan.plan).completed.card = 0 := rfl
    have hroles : (new plan.plan).plan.roles = plan.plan.roles := rfl
    rw [isComplete, decide_eq_true_eq, hcard, hroles]
    refine ⟨fun h => ?_, fun h => ?_⟩
    · cases h
    · omega
  idle _ id := OrderedSet.not_mem_empty
  receiptIds := nodup_nil
  roles := nodup_nil
  receipts _ h := absurd h not_mem_nil
  completed id := by
    simp [new, submittedRecord]

theorem Coherent.complete_role (h : Coherent record run budget) {roleId : RoleId}
    {receipt : OrchestrationRoleReceipt} {now : ℕ} (hstatus : record.status = .running)
    (hreceipt : record.plan.validateReceipt record.runId roleId receipt = .ok ())
    (hnew : ∀ stored ∈ record.roleReceipts, stored.receiptId ≠ receipt.receiptId)
    (hcomplete : run.complete roleId = .ok run') :
    Coherent { record with
      snapshot := run'.snapshot, roleReceipts := record.roleReceipts ++ [receipt]
      status := if run'.isComplete then .completed else .running, updatedAt :=
        now } run' budget := by
  have hsafe := h.safe.complete hcomplete
  obtain ⟨hfresh, -, rfl⟩ := complete_eq_ok.mp hcomplete
  have hrole := (GovernedOrchestrationPlan.validateReceipt_names hreceipt).2
  have hvalid := h.status
  rw [hstatus] at hvalid
  refine ⟨hsafe, rfl, h.plan, h.valid, h.budget, ?_, ?_, ?_, ?_, ?_, ?_, ?_⟩
  · change statusValid (if _ then _ else _) record.workerId record.interruptionReason = true
    split_ifs
    all_goals exact hvalid
  · change (if _ then _ else _) = _ ↔ _
    split_ifs with hall
    all_goals simp [hall]
  · change (if _ then _ else _) = _ ∨ (if _ then _ else _) = _ → _
    split_ifs
    · simp
    · simp
  · change ((record.roleReceipts ++ [receipt]).map _).Nodup
    rw [map_append, map_singleton, nodup_append]
    refine ⟨h.receiptIds, nodup_singleton _, fun a ha b hb => ?_⟩
    obtain ⟨stored, hstored, rfl⟩ := mem_map.mp ha
    rw [mem_singleton.mp hb]
    exact hnew stored hstored
  · change ((record.roleReceipts ++ [receipt]).map _).Nodup
    rw [map_append, map_singleton, nodup_append]
    refine ⟨h.roles, nodup_singleton _, fun a ha b hb => ?_⟩
    obtain ⟨stored, hstored, rfl⟩ := mem_map.mp ha
    rw [mem_singleton.mp hb, hrole]
    rintro rfl
    exact hfresh ((h.completed _).mpr ⟨stored, hstored, rfl⟩)
  · intro stored hstored
    rcases mem_append.mp hstored with hstored | hstored
    · exact h.receipts stored hstored
    · rw [mem_singleton.mp hstored, hrole]
      exact hreceipt
  · intro id
    have hsplit : (∃ stored ∈ record.roleReceipts ++ [receipt], stored.roleId = id) ↔
        (∃ stored ∈ record.roleReceipts, stored.roleId = id) ∨ receipt.roleId = id := by
      simp only [mem_append, mem_singleton, or_and_right, exists_or, exists_eq_left]
    change id ∈ run.completed.insert roleId ↔ _
    rw [OrderedSet.mem_insert, h.completed, hsplit, hrole, or_comm, @eq_comm _ id]

end

/-! ### Databases -/

/-- The record of a run and the account of its budget. -/
def Accounted (db : OrchestrationDb) (runId : OrchestrationRunId) (record : OrchestrationRunRecord)
    (run : OrchestrationRun) (budget : OrchestrationAggregateBudget) : Prop :=
  Coherent record run budget ∧ Account db runId record.scope budget (fun id => id ∈ run.active)
    (fun id => id ∈ run.completed)

/-- Every run is accounted for, and the budget tables are about stored runs. -/
structure Sound (db : OrchestrationDb) : Prop where
  runs : ∀ runId row, db.runs.get? runId = some row →
    ∃ run budget, Accounted db runId row.record run budget
  reservations : ∀ row ∈ db.reservations, db.runs.get? row.runId ≠ none
  reconciliations : ∀ row ∈ db.reconciliations, db.runs.get? row.runId ≠ none

theorem sound_empty : Sound .empty where
  runs runId row h := by simp [OrchestrationDb.empty] at h
  reservations row h := absurd h (Table.not_mem_empty _)
  reconciliations row h := absurd h (Table.not_mem_empty _)

section

variable {db db' : OrchestrationDb} {runId : OrchestrationRunId} {scope : RunScope}

variable {row : RunRow} {run : OrchestrationRun} {budget : OrchestrationAggregateBudget}

theorem Sound.write (h : Sound db)
    (hwrites : Table.Writes db.runs db'.runs runId row) (helse : Elsewhere runId db db')
    (haccounted : Accounted db' runId row.record run budget) : Sound db' := by
  have hstored : ∀ k, db.runs.get? k ≠ none → db'.runs.get? k ≠ none := by
    intro k hk
    rw [hwrites k]
    split_ifs
    · exact Option.some_ne_none _
    · exact hk
  refine ⟨?_, ?_, ?_⟩
  · intro k other hother
    by_cases hk : k = runId
    · subst hk
      obtain rfl := Option.some.inj (hwrites.same.symm.trans hother)
      exact ⟨run, budget, haccounted⟩
    · rw [hwrites.other hk] at hother
      obtain ⟨run', budget', hcoherent, haccount⟩ := h.runs k other hother
      exact ⟨run', budget', hcoherent, haccount.elsewhere helse hk⟩
  · intro other hother
    by_cases hk : other.runId = runId
    · rw [hk, hwrites.same]
      exact Option.some_ne_none _
    · have hget := get?_of_mem hother
      rw [helse.reservations _ _ hk] at hget
      exact hstored _ (h.reservations other (Table.get?_eq_some.mp hget).1)
  · intro other hother
    by_cases hk : other.runId = runId
    · rw [hk, hwrites.same]
      exact Option.some_ne_none _
    · exact hstored _ (h.reconciliations other ((helse.reconciliations other hk).mp hother))

theorem Sound.rewrite (h : Sound db) {record : OrchestrationRunRecord}
    (hrun : Rewrites db db' runId scope row record) (hsame : SameBudgets db db')
    (hscope : record.scope = row.record.scope)
    (hcoherent : ∀ run budget, Coherent row.record run budget → Coherent record run budget) :
    Sound db' := by
  obtain ⟨run, budget, hold, haccount⟩ := h.runs runId row hrun.was
  have haccounted : Accounted db' runId record run budget := by
    refine ⟨hcoherent run budget hold, ?_⟩
    rw [hscope]
    exact hsame.account haccount
  exact h.write hrun.writes (hsame.elsewhere runId) haccounted

theorem Sound.submitted (h : Sound db) {plan : GovernedOrchestrationPlan} {createdAt : ℕ}
    {sequence : ℤ} (hvalid : plan.validate = .ok ())
    (hbudget : plan.aggregateBudget = some budget) (hfree : db.runs.get? runId = none)
    (hruns : Table.Writes db.runs db'.runs runId
      ⟨submittedRecord runId scope plan createdAt, sequence⟩)
    (hbudgets : Table.Writes db.budgets db'.budgets runId
      ⟨runId, scope, budget.ceiling, ⟨.zero, 0, 0⟩, createdAt, createdAt⟩)
    (hreservations : db'.reservations = db.reservations)
    (hreconciliations : db'.reconciliations = db.reconciliations) : Sound db' := by
  have helse : Elsewhere runId db db' := by
    refine ⟨fun k hk => hbudgets.other hk, ?_, ?_, ?_, ?_⟩
    · intro k roleId _
      rw [hreservations]
    · intro w _
      rw [hreservations]
    · intro row _
      rw [hreconciliations]
    · intro w _
      rw [hreconciliations]
  have haccount : Account db' runId scope budget (fun _ => False) (fun _ => False) := by
    refine account_new hbudgets.same rfl rfl rfl ?_ ?_
    · rw [hreservations]
      rintro other hother rfl
      exact h.reservations other hother hfree
    · rw [hreconciliations]
      rintro other hother rfl
      exact h.reconciliations other hother hfree
  refine h.write hruns helse ⟨coherent_submitted hvalid hbudget, haccount.congr ?_ ?_⟩
  all_goals exact fun id => iff_of_false OrderedSet.not_mem_empty not_false

variable {db₁ : OrchestrationDb} {run' : OrchestrationRun}

theorem Sound.started (h : Sound db) {now : ℕ} {ready : List RoleAssignment}
    (hstatus : row.record.status = .running)
    (hsnapshot : fromSnapshot row.record.snapshot = .ok run)
    (hready : run.startReady = .ok (run', ready))
    (hbudget : row.record.plan.aggregateBudget = some budget)
    (hreserve : reserveRoles runId scope budget now db ready = .ok db₁)
    (hrun : Rewrites db db' runId scope row
      { row.record with snapshot := run'.snapshot, updatedAt := now })
    (hsame : SameBudgets db₁ db') : Sound db' := by
  obtain ⟨was, budget', hcoherent, haccount⟩ := h.runs runId row hrun.was
  obtain rfl := hcoherent.eq_of_fromSnapshot hsnapshot
  obtain rfl := Option.some.inj (hbudget.symm.trans hcoherent.budget)
  rw [hcoherent.safe.startReady_eq] at hready
  obtain ⟨rfl, rfl⟩ := Prod.mk.inj (Except.ok.inj hready)
  rw [hrun.scope] at haccount
  obtain ⟨haccount', helse, -⟩ := reserveRoles_spec haccount hreserve
  refine h.write hrun.writes (helse.trans (hsame.elsewhere runId)) ⟨hcoherent.moveRoles
    (Or.inl hstatus) hcoherent.safe.started rfl rfl now, ?_⟩
  have hscope : row.record.scope = scope := hrun.scope
  change Account db' runId row.record.scope budget _ _
  rw [hscope]
  refine (hsame.account haccount').congr (fun id => ?_) (fun id => Iff.rfl)
  exact mem_started_active

theorem Sound.completed (h : Sound db) {roleId : RoleId}
    {receipt : OrchestrationRoleReceipt} {now : ℕ}
    (hstatus : row.record.status = .running)
    (hreceipt : row.record.plan.validateReceipt runId roleId receipt = .ok ())
    (hnew : ∀ stored ∈ row.record.roleReceipts, stored.receiptId ≠ receipt.receiptId)
    (hsettle : settleRoleBudget db runId scope roleId receipt now = .ok db₁)
    (hsnapshot : fromSnapshot row.record.snapshot = .ok run)
    (hcomplete : run.complete roleId = .ok run')
    (hrun : Rewrites db db' runId scope row { row.record with
        snapshot := run'.snapshot, roleReceipts := row.record.roleReceipts ++ [receipt]
        status := if run'.isComplete then .completed else .running, updatedAt := now })
    (hsame : SameBudgets db₁ db') : Sound db' := by
  obtain ⟨was, budget, hcoherent, haccount⟩ := h.runs runId row hrun.was
  obtain rfl := hcoherent.eq_of_fromSnapshot hsnapshot
  have hrunId : row.record.runId = runId := (Table.get?_eq_some.mp hrun.was).2
  rw [← hrunId] at hreceipt
  rw [hrun.scope] at haccount
  obtain ⟨haccount', helse, -⟩ := settleRoleBudget_spec haccount hsettle
  refine h.write hrun.writes (helse.trans (hsame.elsewhere runId)) ⟨hcoherent.complete_role hstatus
    hreceipt hnew hcomplete, ?_⟩
  have hscope : row.record.scope = scope := hrun.scope
  change Account db' runId row.record.scope budget _ _
  rw [hscope]
  obtain ⟨-, -, rfl⟩ := complete_eq_ok.mp hcomplete
  refine (hsame.account haccount').congr (fun id => ?_) (fun id => ?_)
  · exact OrderedSet.mem_remove
  · exact OrderedSet.mem_insert

theorem Sound.reconciled (h : Sound db) {roleId : RoleId}
    {usage : OrchestrationUsage} {evidenceDigest : RequestDigest} {now : ℕ}
    (hstatus : row.record.status = .interrupted)
    (hsnapshot : fromSnapshot row.record.snapshot = .ok run)
    (hrelease : run.releaseActive roleId = .ok run')
    (hreconcile : reconcileFailedRoleBudget db runId scope roleId usage evidenceDigest now =
      .ok db₁)
    (hrun : Rewrites db db' runId scope row
      { row.record with snapshot := run'.snapshot, updatedAt := now })
    (hsame : SameBudgets db₁ db') : Sound db' := by
  obtain ⟨was, budget, hcoherent, haccount⟩ := h.runs runId row hrun.was
  obtain rfl := hcoherent.eq_of_fromSnapshot hsnapshot
  have hsafe := hcoherent.safe.releaseActive hrelease
  obtain ⟨-, rfl⟩ := releaseActive_eq_ok.mp hrelease
  rw [hrun.scope] at haccount
  obtain ⟨haccount', helse⟩ := reconcileFailedRoleBudget_spec haccount hreconcile
  refine h.write hrun.writes (helse.trans (hsame.elsewhere runId)) ⟨hcoherent.moveRoles
    (Or.inr hstatus) hsafe rfl rfl now, ?_⟩
  have hscope : row.record.scope = scope := hrun.scope
  change Account db' runId row.record.scope budget _ _
  rw [hscope]
  refine (hsame.account haccount').congr (fun id => ?_) (fun id => Iff.rfl)
  exact OrderedSet.mem_remove

theorem Sound.cancelled (h : Sound db) {now : ℕ} (hstatus : row.record.status = .queued)
    (hrun : Rewrites db db₁ runId scope row
      { row.record with status := .cancelled, updatedAt := now })
    (hsame : SameBudgets db db₁)
    (hrelease : releaseActiveBudgetReservations db₁ runId scope now = .ok db') : Sound db' := by
  obtain ⟨run, budget, hcoherent, haccount⟩ := h.runs runId row hrun.was
  rw [hrun.scope] at haccount
  obtain ⟨haccount', helse, -⟩ := releaseActiveBudgetReservations_spec (hsame.account haccount)
    (hcoherent.idle (Or.inl hstatus)) hrelease
  have hwrites := hrun.writes
  rw [← releaseActiveBudgetReservations_runs hrelease] at hwrites
  refine h.write hwrites ((hsame.elsewhere runId).trans helse) ⟨hcoherent.cancel hstatus now, ?_⟩
  have hscope : row.record.scope = scope := hrun.scope
  change Account db' runId row.record.scope budget _ _
  rw [hscope]
  exact haccount'

/-- **Every call keeps the database sound.** -/
theorem step_sound {call : Call} {reply : Except OrchestrationStoreError Reply} (h : Sound db)
    (hstep : Step db call db' reply) : Sound db' := by
  cases hstep with
  | refused e => exact h
  | idle => exact h
  | submitted hvalid hbudget hfree hruns hbudgets hreservations hreconciliations =>
    exact h.submitted hvalid hbudget hfree hruns hbudgets hreservations hreconciliations
  | claimed hstatus hrecord hrun hsame =>
    subst hrecord
    exact h.rewrite hrun hsame rfl fun run budget hc => hc.claim hstatus _ _
  | started hstatus hworker hsnapshot hready hbudget hreserve hrun hsame =>
    exact h.started hstatus hsnapshot hready hbudget hreserve hrun hsame
  | completed hstatus hworker hreceipt hnew hsettle hsnapshot hcomplete hrun hsame =>
    exact h.completed hstatus hreceipt hnew hsettle hsnapshot hcomplete hrun hsame
  | interrupted hstatus hreason hrun hsame =>
    exact h.rewrite hrun hsame rfl fun run budget hc => hc.interrupt hstatus hreason _
  | reconciled hstatus hsnapshot hrelease hreconcile hrun hsame =>
    exact h.reconciled hstatus hsnapshot hrelease hreconcile hrun hsame
  | resumed hstatus hidle hrun hsame =>
    exact h.rewrite hrun hsame rfl fun run budget hc => hc.resume hstatus hidle _
  | cancelled hstatus hrun hsame hrelease => exact h.cancelled hstatus hrun hsame hrelease

theorem dbAfter_sound (calls : List Call) : Sound (dbAfter calls) :=
  store.run_invariant (P := Sound) (fun db call h => step_sound h (exec_step db call)) calls
    sound_empty

end

end Pandora.Orchestration.Coherence
