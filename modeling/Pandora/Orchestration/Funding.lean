import Pandora.Orchestration.Budget

/-! # An admitted plan does not starve

The reservations of all roles of an admitted plan fit the ceiling together. As long as no role of a
run is reconciled, each role is reserved or charged once: what is consumed is bounded by the
reservations of the settled roles, so together with the active reservations and one more role it is
bounded by the reservations of the plan. So `start_ready` always finds room for the roles that are
ready. -/

namespace Pandora.Orchestration.Funding

open List
open Ids Lib.Checked Lib.Tables Orchestration.Store Orchestration.Accounts Orchestration.Steps
  Orchestration.Coherence Orchestration.Budget

/-! ### Room in the budget -/

/-- What the budget reserves for a role. -/
def reservedFor (budget : OrchestrationAggregateBudget) (resource : Resource) (roleId : RoleId) :
    ℕ :=
  ((budget.reservationForRole roleId).map fun reservation => reservation.of resource).getD 0

section

variable {db db' : OrchestrationDb} {runId : OrchestrationRunId} {scope : RunScope}
  {budget : OrchestrationAggregateBudget} {active completed : RoleId → Prop} {roleId : RoleId}
  {reservation : OrchestrationBudgetAmount}

theorem reservedFor_of (h : budget.reservationForRole roleId = some reservation)
    (resource : Resource) : reservedFor budget resource roleId = reservation.of resource := by
  rw [reservedFor, h, Option.map_some, Option.getD_some]

theorem sum_le_total (hbudget : (budget.roles.map OrchestrationRoleBudget.roleId).Nodup)
    {ids : List RoleId} (hnodup : ids.Nodup)
    (hplanned : ∀ id ∈ ids, budget.reservationForRole id ≠ none) (resource : Resource) :
    (ids.map (reservedFor budget resource)).sum ≤ budget.total resource := by
  have hfind : ∀ role ∈ budget.roles, reservedFor budget resource role.roleId =
      role.reservation.of resource := by
    intro role hrole
    refine reservedFor_of ?_ resource
    rw [OrchestrationAggregateBudget.reservationForRole, Lib.SortedMaps.find?_of_unique hrole
      (decide_eq_true rfl)]
    · rfl
    · intro other hother heq
      exact inj_on_of_nodup_map hbudget hother hrole (of_decide_eq_true heq)
  have htotal : budget.total resource = ((budget.roles.map OrchestrationRoleBudget.roleId).map
        (reservedFor budget resource)).sum := by
    rw [OrchestrationAggregateBudget.total, map_map]
    exact congrArg List.sum (map_congr_left fun role hrole => (hfind role hrole).symm)
  have hsub : ids.toFinset ⊆ (budget.roles.map OrchestrationRoleBudget.roleId).toFinset := by
    intro id hid
    obtain ⟨reservation, hreservation⟩ :=
      Option.ne_none_iff_exists'.mp (hplanned id (mem_toFinset.mp hid))
    obtain ⟨role, hrole, hrid, -⟩ :=
      OrchestrationAggregateBudget.reservationForRole_eq_some hreservation
    exact mem_toFinset.mpr (mem_map.mpr ⟨role, hrole, hrid⟩)
  rw [htotal, ← sum_toFinset _ hnodup, ← sum_toFinset _ hbudget]
  exact Finset.sum_le_sum_of_subset hsub

/-- The reservations of a run that are active or settled. -/
def held (db : OrchestrationDb) (runId : OrchestrationRunId) : List ReservationRow :=
  db.reservations.rows.filter fun row => row.runId = runId ∧ row.record.state ≠ .released

theorem mem_held {row : ReservationRow} : row ∈ held db runId ↔
    row ∈ db.reservations ∧ row.runId = runId ∧ row.record.state ≠ .released := by
  rw [held, mem_filter, Table.mem_rows, decide_eq_true_eq]

theorem nodup_held : ((held db runId).map fun row => row.record.roleId).Nodup := by
  have hkeys : ((held db runId).map ReservationRow.key).Nodup :=
    db.reservations.nodup.sublist (filter_sublist.map _)
  have hpair : (held db runId).map ReservationRow.key =
      ((held db runId).map fun row => row.record.roleId).map fun id => (runId, id) := by
    rw [map_map]
    refine map_congr_left fun row hrow => ?_
    obtain ⟨-, hrun, -⟩ := mem_held.mp hrow
    rw [ReservationRow.key, hrun]
    rfl
  rw [hpair] at hkeys
  exact hkeys.of_map

theorem Account.charged_le (h : Account db runId scope budget active completed)
    (resource : Resource) : settled db runId resource + reserved db runId resource ≤
      ((held db runId).map fun row => reservedFor budget resource row.record.roleId).sum := by
  rw [held, Table.sum_filter]
  refine Table.total_add_le fun row hrow => ?_
  by_cases hrun : row.runId = runId
  · subst hrun
    obtain ⟨-, hplanned, hcharged⟩ := h.planned _ row (get?_of_mem hrow)
    have hof := reservedFor_of hplanned resource
    rcases hstate : row.record.state with _ | _ | _
    · simp [settledOf, activeOf, hstate, hof]
    · obtain ⟨usage, husage, hle⟩ := hcharged hstate
      simpa [settledOf, activeOf, hstate, hof, husage] using hle resource
    · simp [settledOf, activeOf, hstate]
  · simp [settledOf, activeOf, hrun]

/-- No role of the run was reconciled. -/
def Unreconciled (db : OrchestrationDb) (runId : OrchestrationRunId) : Prop :=
  ∀ row ∈ db.reconciliations, row.runId ≠ runId

/-- **There is room for every role that is neither active nor completed.** -/
theorem Account.room {plan : OrchestrationPlan} {row : BudgetRow}
    (h : Account db runId scope budget active completed) (hfunded : budget.Funded plan)
    (hnone : Unreconciled db runId) (hrow : db.budgets.get? runId = some row)
    (hreservation : budget.reservationForRole roleId = some reservation)
    (hactive : ¬ active roleId) (hcompleted : ¬ completed roleId) (resource : Resource) :
    row.ledger.enforcedConsumed.of resource + reserved db runId resource +
      reservation.of resource ≤ budget.total resource := by
  obtain ⟨row', hrow', hbalanced⟩ := h.budgeted
  obtain rfl := Option.some.inj (hrow.symm.trans hrow')
  have hreconciled : reconciled db runId budget resource = 0 :=
    Table.total_eq_zero fun other hother => if_neg (hnone other hother)
  have hconsumed := hbalanced.consumed resource
  have hheld := Account.charged_le h resource
  have hfresh : roleId ∉ (held db runId).map fun row => row.record.roleId := by
    intro hmem
    obtain ⟨other, hother, rfl⟩ := mem_map.mp hmem
    obtain ⟨hin, rfl, hstate⟩ := mem_held.mp hother
    have hget := get?_of_mem hin
    rcases hkind : other.record.state with _ | _ | _
    · exact hactive ((h.active_iff _).mpr ⟨other, hget, hkind⟩)
    · exact hcompleted ((h.settled_iff _).mpr ⟨other, hget, hkind⟩)
    · exact hstate hkind
  have hsum := sum_le_total hfunded.nodup (nodup_cons.mpr ⟨hfresh, nodup_held⟩) ?_ resource
  · rw [map_cons, sum_cons, reservedFor_of hreservation, map_map] at hsum
    simp only [Function.comp_def] at hsum
    omega
  · intro id hid
    rcases mem_cons.mp hid with rfl | hid
    · rw [hreservation]
      exact Option.some_ne_none _
    · obtain ⟨other, hother, rfl⟩ := mem_map.mp hid
      obtain ⟨hin, rfl, -⟩ := mem_held.mp hother
      rw [(h.planned _ other (get?_of_mem hin)).reservation]
      exact Option.some_ne_none _

/-! ### Reserving succeeds -/

theorem exists_writeReservation (reservation : OrchestrationBudgetAmount) (now : ℕ)
    (h : Account db runId scope budget active completed) (hactive : ¬ active roleId)
    (hcompleted : ¬ completed roleId) :
    (∀ item ∈ (loadBudgetReservations db runId scope).find? fun item => item.roleId = roleId,
      item.state = .released) ∧
    ∃ db', writeReservation db runId scope roleId reservation ((loadBudgetReservations db runId
      scope).find? fun item => item.roleId = roleId).isSome now = .ok db' := by
  have hreleased : ∀ row, db.reservations.get? (runId, roleId) = some row →
      row.record.state = .released := by
    intro row hrow
    rcases hstate : row.record.state with _ | _ | _
    · exact absurd ((h.active_iff _).mpr ⟨row, hrow, hstate⟩) hactive
    · exact absurd ((h.settled_iff _).mpr ⟨row, hrow, hstate⟩) hcompleted
    · rfl
  rcases hfind : (loadBudgetReservations db runId scope).find? fun item => item.roleId = roleId with
    _ | item
  · have hfree : db.reservations.get? (runId, roleId) = none := by
      rcases hget : db.reservations.get? (runId, roleId) with _ | row
      · rfl
      · have hsome := find?_loaded.mpr ⟨row, hget, (h.planned roleId row hget).scope, rfl⟩
        rw [hfind] at hsome
        cases hsome
    rw [hfind]
    refine ⟨fun item hitem => absurd hitem (Option.not_mem_none _), ?_⟩
    let row : ReservationRow := ⟨runId, scope, newReservation roleId reservation now⟩
    obtain ⟨reservations, hinsert⟩ := Table.exists_insert? row hfree
    refine ⟨{ db with reservations }, ?_⟩
    simp only [writeReservation, Option.isSome_none, Bool.false_eq_true, if_false, bind_eq_ok,
      orError_eq_ok, pure_eq_ok]
    exact ⟨reservations, hinsert, rfl⟩
  · obtain ⟨row, hrow, hscope, rfl⟩ := find?_loaded.mp hfind
    rw [hfind]
    refine ⟨fun item hitem => ?_, ?_⟩
    · obtain rfl := Option.some.inj hitem
      exact hreleased row hrow
    · obtain ⟨reservations, hupdate, -⟩ := updateReservation_put
        (f := fun record => newReservation record.roleId reservation now) (fun _ => rfl)
        hrow hscope (hreleased row hrow)
      exact ⟨_, hupdate⟩

theorem exists_reserveRoleBudget {plan : OrchestrationPlan} {now : ℕ}
    (h : Account db runId scope budget active completed) (hfunded : budget.Funded plan)
    (hnone : Unreconciled db runId)
    (hreservation : budget.reservationForRole roleId = some reservation)
    (hactive : ¬ active roleId) (hcompleted : ¬ completed roleId) (hnow : now < 2 ^ 63) :
    ∃ db', reserveRoleBudget db runId scope roleId reservation now = .ok db' := by
  obtain ⟨row, hrow, hbalanced⟩ := h.budgeted
  have hroom := Account.room h hfunded hnone hrow hreservation hactive hcompleted
  obtain ⟨total, htotal⟩ := h.exists_sumActive
  have hreserved := h.sumActive htotal
  obtain ⟨part, hpart⟩ := OrchestrationBudgetAmount.exists_checkedAdd fun resource =>
      (congrArg (_ + ·) (hreserved resource)).trans_lt (hbalanced.committed_lt resource)
  have hpart' := OrchestrationBudgetAmount.checkedAdd_eq_some.mp hpart
  obtain ⟨committed, hcommitted⟩ : ∃ committed, part.checkedAdd reservation = some committed := by
    refine OrchestrationBudgetAmount.exists_checkedAdd fun resource => ?_
    have hlt := hfunded.total_lt resource
    have hle := hroom resource
    rw [← (hpart' resource).2, hreserved]
    omega
  have hcommitted' := OrchestrationBudgetAmount.checkedAdd_eq_some.mp hcommitted
  have hwithin : ∀ resource, committed.of resource ≤ row.ceiling.of resource := by
    intro resource
    rw [← (hcommitted' resource).2, ← (hpart' resource).2, hreserved, hbalanced.ceiling]
    exact (hroom resource).trans (hfunded.total_le resource)
  obtain ⟨hfree, db₁, hwritten⟩ := exists_writeReservation reservation now h hactive hcompleted
  refine ⟨updateBudget db₁ runId scope (fun row => { row with updatedAt := now }) fun _ => rfl, ?_⟩
  simp only [reserveRoleBudget, bind_eq_ok, ensure_eq_ok, orError_eq_ok, toI64, fitsI64_eq_some,
    ensureAggregateWithin_eq_ok, loadBudgetState_eq_ok, Option.bind_eq_some_iff, pure_eq_ok]
  exact ⟨row, ⟨hrow, hbalanced.scope⟩, (), hfree, total, htotal, committed,
    ⟨part, hpart, hcommitted⟩, (), hwithin, now, ⟨hnow, rfl⟩, db₁, hwritten, rfl⟩

/-- **The loop of `start_ready` succeeds** for distinct roles that are neither active nor
completed. -/
theorem exists_reserveRoles {plan : OrchestrationPlan} {now : ℕ} (hfunded : budget.Funded plan)
    (hnow : now < 2 ^ 63) : ∀ {ready : List RoleAssignment} {db : OrchestrationDb}
    {active : RoleId → Prop}, Account db runId scope budget active completed →
    Unreconciled db runId → (ready.map RoleAssignment.id).Nodup →
    (∀ role ∈ ready, role ∈ plan.roles ∧ ¬ active role.id ∧ ¬ completed role.id) →
    ∃ db', reserveRoles runId scope budget now db ready = .ok db'
  | [], db, _, _, _, _, _ => ⟨db, rfl⟩
  | role :: ready, db, active, h, hnone, hnodup, hready => by
    obtain ⟨hplanned, hactive, hcompleted⟩ := hready role mem_cons_self
    obtain ⟨hfresh, hnodup⟩ := nodup_cons.mp hnodup
    obtain ⟨reservation, hreservation⟩ := hfunded.planned role hplanned
    obtain ⟨db₁, hfirst⟩ :=
      exists_reserveRoleBudget h hfunded hnone hreservation hactive hcompleted hnow
    obtain ⟨haccount, -, hreconciliations⟩ := reserveRoleBudget_spec h hreservation hfirst
    have hnone₁ : Unreconciled db₁ runId := by
      unfold Unreconciled
      rw [hreconciliations]
      exact hnone
    obtain ⟨db', hrest⟩ :=
      exists_reserveRoles hfunded hnow haccount hnone₁ hnodup fun other hother => by
      obtain ⟨hplanned', hactive', hcompleted'⟩ := hready other (mem_cons_of_mem _ hother)
      refine ⟨hplanned', ?_, hcompleted'⟩
      rintro (heq | hother')
      · exact hfresh (heq ▸ mem_map_of_mem hother)
      · exact hactive' hother'
    refine ⟨db', ?_⟩
    simp only [reserveRoles, bind_eq_ok, orError_eq_ok]
    exact ⟨reservation, hreservation, db₁, hfirst, hrest⟩

/-- **`start_ready` succeeds** on a run of the caller that was never reconciled. -/
theorem exists_startReady {row : RunRow} {workerId : JobWorkerId} {now : ℕ} (h : Sound db)
    (hnone : Unreconciled db runId) (hrow : db.runs.get? runId = some row)
    (hscope : row.record.scope = scope) (hstatus : row.record.status = .running)
    (hworker : row.record.workerId = some workerId) (hnow : now < 2 ^ 63) :
    ∃ db' ready, startReady db runId scope workerId now = .ok (db', ready) := by
  obtain ⟨run, budget, hcoherent, haccount⟩ := h.runs runId row hrow
  have hload : loadScoped db runId scope = .ok (some row.record) :=
    loadScoped_eq_some.mpr ⟨row, hrow, hscope, rfl, hcoherent.validate⟩
  have hsnapshot : OrchestrationRun.fromSnapshot row.record.snapshot = .ok run := by
    rw [hcoherent.snapshot]
    exact hcoherent.safe.fromSnapshot_snapshot
  have hfunded := GovernedOrchestrationPlan.funded_of_validate hcoherent.valid hcoherent.budget
  rw [hscope] at haccount
  obtain ⟨db₁, hreserve⟩ : ∃ db₁, reserveRoles runId scope budget now db
      (run.startable.take (run.plan.maxParallelism - run.active.card)) = .ok db₁ := by
    refine exists_reserveRoles hfunded hnow haccount hnone ?_ fun role hrole => ?_
    · have hsub : (run.startable.take (run.plan.maxParallelism - run.active.card)).Sublist
          run.plan.roles := (take_sublist _ _).trans filter_sublist
      exact run.plan.valid.nodup.sublist (hsub.map RoleAssignment.id)
    · obtain ⟨hmem, heligible, hactive⟩ :=
        OrchestrationRun.mem_startable.mp (mem_of_mem_take hrole)
      rw [hcoherent.plan] at hmem
      exact ⟨hmem, hactive, (OrchestrationPlan.eligible_iff.mp heligible).1⟩
  have hruns := reserveRoles_runs hreserve
  obtain ⟨runs, hupdate, -⟩ := updateRun_of_selects
    (p := fun record => record.status = .running ∧ record.workerId = some workerId)
    (f := fun record => { record with snapshot := run.started.snapshot, updatedAt := now })
    (fun _ => rfl) (hruns ▸ hrow) hscope (decide_eq_true ⟨hstatus, hworker⟩)
  refine ⟨{ db₁ with runs }, run.startable.take (run.plan.maxParallelism - run.active.card), ?_⟩
  simp only [startReady, bind_eq_ok, mapError_eq_ok, orError_eq_ok, toI64, fitsI64_eq_some,
    pure_eq_ok, runningOwned_eq_ok]
  exact ⟨row.record, ⟨hload, hstatus, hworker⟩, run, hsnapshot, _, hcoherent.safe.startReady_eq,
    budget, hcoherent.budget, db₁, hreserve, now, ⟨hnow, rfl⟩, { db₁ with runs }, hupdate, rfl⟩

/-! ### Runs of the store -/

/-- The reconciliations of a run come from the calls that reconcile it. -/
theorem step_unreconciled {call : Call} {reply : Except OrchestrationStoreError Reply}
    (h : Sound db) (hnone : Unreconciled db runId)
    (hcall : ∀ scope roleId usage digest now,
      call ≠ .reconcileInterruptedRole runId scope roleId usage digest now)
    (hstep : Step db call db' reply) : Unreconciled db' runId := by
  have hkeep : db'.reconciliations = db.reconciliations → Unreconciled db' runId := by
    intro heq
    unfold Unreconciled
    rw [heq]
    exact hnone
  cases hstep with
  | refused | idle => exact hnone
  | submitted hvalid hbudget hfree hruns hbudgets hreservations hreconciliations =>
    exact hkeep hreconciliations
  | claimed hstatus hrecord hrun hsame => exact hkeep hsame.reconciliations
  | started hstatus hworker hsnapshot hready hbudget hreserve hrun hsame =>
    obtain ⟨run, budget', hcoherent, haccount⟩ := h.runs _ _ hrun.was
    obtain rfl := Option.some.inj (hbudget.symm.trans hcoherent.budget)
    rw [hrun.scope] at haccount
    obtain ⟨-, -, hreconciliations⟩ := reserveRoles_spec haccount hreserve
    exact hkeep (hsame.reconciliations.trans hreconciliations)
  | completed hstatus hworker hreceipt hnew hsettle hsnapshot hcomplete hrun hsame =>
    obtain ⟨run, budget, hcoherent, haccount⟩ := h.runs _ _ hrun.was
    rw [hrun.scope] at haccount
    obtain ⟨-, -, hreconciliations⟩ := settleRoleBudget_spec haccount hsettle
    exact hkeep (hsame.reconciliations.trans hreconciliations)
  | interrupted hstatus hreason hrun hsame => exact hkeep hsame.reconciliations
  | @reconciled db₁ _ k _ _ _ _ _ _ _ _ _ hstatus hsnapshot hrelease hreconcile hrun hsame =>
    obtain ⟨run, budget, hcoherent, haccount⟩ := h.runs _ _ hrun.was
    rw [hrun.scope] at haccount
    obtain ⟨-, helse⟩ := reconcileFailedRoleBudget_spec haccount hreconcile
    rintro other hother rfl
    have hne : other.runId ≠ k := by
      rintro rfl
      exact hcall _ _ _ _ _ rfl
    rw [hsame.reconciliations] at hother
    exact hnone other ((helse.reconciliations other hne).mp hother) rfl
  | resumed hstatus hidle hrun hsame => exact hkeep hsame.reconciliations
  | cancelled hstatus hrun hsame hrelease =>
    obtain ⟨run, budget, hcoherent, haccount⟩ := h.runs _ _ hrun.was
    rw [hrun.scope] at haccount
    obtain ⟨-, -, hreconciliations⟩ := releaseActiveBudgetReservations_spec (hsame.account haccount)
      (hcoherent.idle (Or.inl hstatus)) hrelease
    exact hkeep (hreconciliations.trans hsame.reconciliations)

end

/-- No call of the list reconciles a role of the run. -/
def NeverReconciled (runId : OrchestrationRunId) (calls : List Call) : Prop :=
  ∀ scope roleId usage digest now,
    .reconcileInterruptedRole runId scope roleId usage digest now ∉ calls

theorem dbAfter_unreconciled {runId : OrchestrationRunId} {calls : List Call}
    (h : NeverReconciled runId calls) : Unreconciled (dbAfter calls) runId := by
  have hall : NeverReconciled runId calls → Unreconciled (dbAfter calls) runId := by
    refine store.run_history (P := fun calls db => NeverReconciled runId calls →
      Unreconciled db runId)
      ?_ ?_ calls
    · exact fun _ row hrow => absurd hrow (Table.not_mem_empty _)
    · intro calls call ih hnever
      refine step_unreconciled (dbAfter_sound calls) (ih ?_) ?_ (exec_step _ call)
      · exact fun scope roleId usage digest now hmem =>
          hnever scope roleId usage digest now (mem_append_left _ hmem)
      · rintro scope roleId usage digest now rfl
        exact hnever scope roleId usage digest now (mem_append_right _ mem_cons_self)
  exact hall h

/-- The errors of a run that finds no room in its own budget. -/
def Starved : OrchestrationStoreError → Prop
  | .aggregateBudgetExceeded _ => True
  | .aggregateBudgetOverflow => True
  | .budgetReservationNotActive => True
  | .corruptRecord => True
  | _ => False

/-- `running_owned` finds the run of the caller, or refuses for a reason that has nothing to do with
the budget. -/
theorem runningOwned_cases {db : OrchestrationDb} (h : Sound db) (runId : OrchestrationRunId)
    (scope : RunScope) (workerId : JobWorkerId) :
    (∃ row, db.runs.get? runId = some row ∧ row.record.scope = scope ∧
      row.record.status = .running ∧ row.record.workerId = some workerId) ∨
    ∃ e, ¬ Starved e ∧ runningOwned db runId scope workerId = .error e := by
  rcases hfound : (db.runs.get? runId).filter fun row => row.record.scope = scope with _ | row
  · refine Or.inr ⟨.runNotFound, id, ?_⟩
    simp only [runningOwned, loadScoped, hfound]
    rfl
  · obtain ⟨hget, hscope⟩ := Option.filter_eq_some_iff.mp hfound
    have hscope' : row.record.scope = scope := of_decide_eq_true hscope
    obtain ⟨run, budget, hcoherent, -⟩ := h.runs runId row hget
    have hload : loadScoped db runId scope = .ok (some row.record) :=
      loadScoped_eq_some.mpr ⟨row, hget, hscope', rfl, hcoherent.validate⟩
    by_cases hstatus : row.record.status = .running
    · by_cases hworker : row.record.workerId = some workerId
      · exact Or.inl ⟨row, hget, hscope', hstatus, hworker⟩
      · refine Or.inr ⟨.runOwnedByAnotherWorker, id, ?_⟩
        simp only [runningOwned, hload, ok_bind, orError, ensure, if_pos hstatus, if_neg hworker]
        rfl
    · refine Or.inr ⟨.invalidTransition row.record.status "update", id, ?_⟩
      simp only [runningOwned, hload, ok_bind, orError, ensure, if_neg hstatus]
      rfl

/-- **An admitted plan never starves on its own budget**: on a run that was never reconciled,
`start_ready` does not fail for want of budget; it succeeds whenever the run is the caller's. -/
theorem admitted_never_starves (calls : List Call) (runId : OrchestrationRunId) (scope : RunScope)
    (workerId : JobWorkerId) (now : ℕ) (hnever : NeverReconciled runId calls)
    (hnow : now < 2 ^ 63) :
    (∀ e, (exec (dbAfter calls) (.startReady runId scope workerId now)).2 = .error e →
      ¬ Starved e) ∧
    ∀ row, (dbAfter calls).runs.get? runId = some row → row.record.scope = scope →
      row.record.status = .running → row.record.workerId = some workerId →
      ∃ ready, (exec (dbAfter calls) (.startReady runId scope workerId now)).2 =
        .ok (.started ready) := by
  have hsound := dbAfter_sound calls
  have hstart : ∀ row, (dbAfter calls).runs.get? runId = some row → row.record.scope = scope →
      row.record.status = .running → row.record.workerId = some workerId →
      ∃ ready, (exec (dbAfter calls) (.startReady runId scope workerId now)).2 =
        .ok (.started ready) := by
    intro row hrow hscope hstatus hworker
    obtain ⟨db', ready, hok⟩ := exists_startReady hsound (dbAfter_unreconciled hnever) hrow hscope
      hstatus hworker hnow
    refine ⟨ready, ?_⟩
    simp only [exec, transact, hok]
    rfl
  refine ⟨fun e he => ?_, hstart⟩
  rcases runningOwned_cases hsound runId scope workerId with ⟨row, hrow, hscope, hstatus, hworker⟩ |
    ⟨e', hfine, hrefused⟩
  · obtain ⟨ready, hok⟩ := hstart row hrow hscope hstatus hworker
    rw [hok] at he
    cases he
  · have hexec : (exec (dbAfter calls) (.startReady runId scope workerId now)).2 = .error e' := by
      simp only [exec, transact, startReady, hrefused]
      rfl
    rw [hexec] at he
    obtain rfl := Except.error.inj he
    exact hfine

theorem sample_never_starves :
    ∃ ready, (exec (dbAfter sampleCalls)
      (.startReady sampleRun sampleScope sampleWorker 5)).2 = .ok (.started ready) := by
  have hstored : ((dbAfter sampleCalls).runs.get? sampleRun).any (fun row =>
      row.record.scope = sampleScope ∧ row.record.status = .running ∧
        row.record.workerId = some sampleWorker) = true := by
    decide +kernel
  obtain ⟨row, hrow, hfields⟩ := (Option.any_eq_true _ _).mp hstored
  obtain ⟨hscope, hstatus, hworker⟩ := of_decide_eq_true hfields
  refine (admitted_never_starves sampleCalls sampleRun sampleScope sampleWorker 5 ?_ (by decide)).2
    row
    hrow hscope hstatus hworker
  intro scope roleId usage digest now hmem
  simp [sampleCalls] at hmem

/-- A time that does not fit the column is a corrupt record to `start_ready`. -/
theorem late_start_corrupt :
    ¬ ∀ (calls : List Call) (runId : OrchestrationRunId) (scope : RunScope) (workerId : JobWorkerId)
      (now : ℕ), NeverReconciled runId calls → now < 2 ^ 64 →
      ∀ e, (exec (dbAfter calls) (.startReady runId scope workerId now)).2 = .error e →
        ¬ Starved e := by
  intro hclaim
  have hnever : NeverReconciled sampleRun sampleCalls := by
    intro scope roleId usage digest now hmem
    simp [sampleCalls] at hmem
  refine hclaim sampleCalls sampleRun sampleScope sampleWorker (2 ^ 63) hnever (by decide)
    .corruptRecord (error?_eq_some.mp ?_) trivial
  decide +kernel

end Pandora.Orchestration.Funding
