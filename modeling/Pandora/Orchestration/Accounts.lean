import Pandora.Lib.SortedMaps
import Pandora.Orchestration.Store

/-! # The accounts of a run

What the budget tables say about one run, in terms of its roles: `Account db runId scope budget
active completed` holds when the active reservations are those of the roles in `active`, the settled
ones those of the roles in `completed`, the ledger has consumed what the settled reservations and
the reconciliations were charged, and this and the active reservations fit the ceiling. Reserving a
role adds it to `active`, settling moves it to `completed`, reconciling takes it out; the rows of
other runs stay (`Elsewhere`). -/

namespace Pandora.Orchestration.Accounts

open Lib Ids Lib.Checked Lib.Tables Orchestration.Store Table ReservationRow List

/-! ### Sums -/

/-- The reservation, if it is an active one of the run. -/
def activeOf (runId : OrchestrationRunId) (resource : Resource) (row : ReservationRow) : ℕ :=
  if row.runId = runId ∧ row.record.state = .active then row.record.reservation.of resource else 0

/-- The charge of a reservation, if it is a settled one of the run. -/
def settledOf (runId : OrchestrationRunId) (resource : Resource) (row : ReservationRow) : ℕ :=
  if row.runId = runId ∧ row.record.state = .settled then
    (row.record.usage.map fun usage => (usage.enforced row.record.reservation).of resource).getD 0
  else 0

/-- The charge of a reconciliation, if it is one of the run. -/
def reconciledOf (runId : OrchestrationRunId) (budget : OrchestrationAggregateBudget)
    (resource : Resource) (row : ReconciliationRow) : ℕ :=
  if row.runId = runId then
    ((budget.reservationForRole row.roleId).map fun reservation =>
      (row.usage.enforced reservation).of resource).getD 0
  else 0

/-- The active reservations of the run. -/
def reserved (db : OrchestrationDb) (runId : OrchestrationRunId) (resource : Resource) : ℕ :=
  db.reservations.total (activeOf runId resource)

/-- What the settled reservations of the run were charged. -/
def settled (db : OrchestrationDb) (runId : OrchestrationRunId) (resource : Resource) : ℕ :=
  db.reservations.total (settledOf runId resource)

/-- What the reconciliations of the run were charged. -/
def reconciled (db : OrchestrationDb) (runId : OrchestrationRunId)
    (budget : OrchestrationAggregateBudget) (resource : Resource) : ℕ :=
  db.reconciliations.total (reconciledOf runId budget resource)

theorem exceededResource_eq_none {amount ceiling : OrchestrationBudgetAmount} :
    exceededResource amount ceiling = none ↔
      ∀ resource, amount.of resource ≤ ceiling.of resource := by
  unfold exceededResource
  constructor
  · intro h resource
    split_ifs at h with ht hl he hc
    cases resource
    · exact Nat.le_of_not_lt ht
    · exact Nat.le_of_not_lt hl
    · exact Nat.le_of_not_lt he
    · exact Nat.le_of_not_lt hc
  · intro h
    have ht : ¬ ceiling.tokens < amount.tokens := Nat.not_lt.mpr (h .token)
    have hl : ¬ ceiling.tools < amount.tools := Nat.not_lt.mpr (h .tool)
    have he : ¬ ceiling.elapsedMs < amount.elapsedMs := Nat.not_lt.mpr (h .elapsedTime)
    have hc : ¬ ceiling.costMicros < amount.costMicros := Nat.not_lt.mpr (h .cost)
    rw [if_neg ht, if_neg hl, if_neg he, if_neg hc]

variable {reservation : OrchestrationBudgetAmount}

@[simp] theorem ensureUsageWithin_eq_ok {usage : OrchestrationBudgetAmount} {u : Unit} :
    ensureUsageWithin usage reservation = .ok u ↔
      ∀ resource, usage.of resource ≤ reservation.of resource := by
  rw [ensureUsageWithin, refuse_eq_ok, exceededResource_eq_none]

@[simp] theorem ensureAggregateWithin_eq_ok {committed ceiling : OrchestrationBudgetAmount}
    {u : Unit} :
    ensureAggregateWithin committed ceiling = .ok u ↔
      ∀ resource, committed.of resource ≤ ceiling.of resource := by
  rw [ensureAggregateWithin, refuse_eq_ok, exceededResource_eq_none]

/-- The loop of `sum_active_reservations`. -/
theorem foldlM_reservations : ∀ {items : List OrchestrationBudgetReservationRecord}
    {start total : OrchestrationBudgetAmount},
    items.foldlM (fun total item =>
      (orError (total.checkedAdd item.reservation) .aggregateBudgetOverflow :
        Except OrchestrationStoreError _)) start = .ok total →
    ∀ resource, total.of resource =
      start.of resource + (items.map fun item => item.reservation.of resource).sum
  | [], start, total, h, resource => by
    obtain rfl := Except.ok.inj h
    simp
  | item :: items, start, total, h, resource => by
    rw [foldlM_cons, bind_eq_ok] at h
    obtain ⟨next, hnext, hrest⟩ := h
    obtain ⟨-, hsum⟩ :=
      OrchestrationBudgetAmount.checkedAdd_eq_some.mp (orError_eq_ok.mp hnext) resource
    rw [foldlM_reservations hrest resource, ← hsum, map_cons, sum_cons, Nat.add_assoc]

theorem exists_foldlM_reservations : ∀ (items : List OrchestrationBudgetReservationRecord)
    (start : OrchestrationBudgetAmount),
    (∀ resource, start.of resource +
      (items.map fun item => item.reservation.of resource).sum < 2 ^ 64) →
    ∃ total, items.foldlM (fun total item =>
      (orError (total.checkedAdd item.reservation) .aggregateBudgetOverflow :
        Except OrchestrationStoreError _)) start = .ok total
  | [], start, _ => ⟨start, rfl⟩
  | item :: items, start, h => by
    have hsum : ∀ resource, start.of resource + item.reservation.of resource +
        (items.map fun item => item.reservation.of resource).sum < 2 ^ 64 := by
      intro resource
      have hlt := h resource
      rw [map_cons, sum_cons] at hlt
      omega
    obtain ⟨next, hnext⟩ := OrchestrationBudgetAmount.exists_checkedAdd fun resource =>
      Nat.lt_of_le_of_lt (Nat.le_add_right _ _) (hsum resource)
    obtain ⟨total, htotal⟩ := exists_foldlM_reservations items next fun resource => by
      rw [← (OrchestrationBudgetAmount.checkedAdd_eq_some.mp hnext resource).2]
      exact hsum resource
    refine ⟨total, ?_⟩
    rw [foldlM_cons, hnext]
    exact htotal

/-! ### Reading the reservations of a run -/

section Reading

variable {db : OrchestrationDb} {runId : OrchestrationRunId} {scope : RunScope}

theorem mem_loadBudgetReservations {item : OrchestrationBudgetReservationRecord} :
    item ∈ loadBudgetReservations db runId scope ↔
      ∃ row ∈ db.reservations, row.runId = runId ∧ row.scope = scope ∧ row.record = item := by
  unfold loadBudgetReservations
  rw [mem_insertionSort, mem_map]
  simp only [mem_filter, decide_eq_true_eq, mem_rows, and_assoc]

/-- A sum over the reservations that are read is a sum over the table. -/
theorem sum_loaded (q : OrchestrationBudgetReservationRecord → Bool) (resource : Resource) :
    (((loadBudgetReservations db runId scope).filter q).map
      fun item => item.reservation.of resource).sum =
    db.reservations.total fun row => if row.runId = runId ∧ row.scope = scope ∧ q row.record then
      row.record.reservation.of resource else 0 := by
  have hperm : ((loadBudgetReservations db runId scope).filter q).Perm
      (((db.reservations.rows.filter fun row => row.runId = runId ∧ row.scope = scope).map
        record).filter q) :=
    (perm_insertionSort _ _).filter q
  rw [(hperm.map _).sum_nat, filter_map, map_map, filter_filter, sum_filter]
  refine total_congr fun row _ => ?_
  simp only [Function.comp_apply, Bool.and_eq_true, decide_eq_true_eq]
  by_cases hq : q row.record
  all_goals simp [hq]

theorem find?_loaded {roleId : RoleId} {item : OrchestrationBudgetReservationRecord} :
    (loadBudgetReservations db runId scope).find? (fun item => item.roleId = roleId) = some item ↔
      ∃ row, db.reservations.get? (runId, roleId) = some row ∧ row.scope = scope ∧
        row.record = item := by
  constructor
  · intro h
    obtain ⟨row, hrow, hrun, hscope, rfl⟩ :=
      mem_loadBudgetReservations.mp (mem_of_find?_eq_some h)
    have hrole : row.record.roleId = roleId := by simpa using List.find?_some h
    refine ⟨row, get?_eq_some.mpr ⟨hrow, ?_⟩, hscope, rfl⟩
    rw [key, hrun, hrole]
  · rintro ⟨row, hget, hscope, rfl⟩
    obtain ⟨hrow, hkey⟩ := get?_eq_some.mp hget
    obtain ⟨hrun, hrole⟩ := Prod.mk.inj hkey
    refine SortedMaps.find?_of_unique
      (mem_loadBudgetReservations.mpr ⟨row, hrow, hrun, hscope, rfl⟩)
      (decide_eq_true hrole) fun item hitem hrole' => ?_
    obtain ⟨row', hrow', hrun', -, rfl⟩ := mem_loadBudgetReservations.mp hitem
    have hkey' : row'.key = row.key := by
      rw [key, key, hrun', hrun, of_decide_eq_true hrole', hrole]
    rw [eq_of_key hrow' hrow hkey']

end Reading

/-! ### What the calls keep -/

/-- The rows of other runs stay. -/
structure Elsewhere (runId : OrchestrationRunId) (db db' : OrchestrationDb) : Prop where
  budgets : ∀ k, k ≠ runId → db'.budgets.get? k = db.budgets.get? k
  reservations : ∀ k roleId, k ≠ runId →
    db'.reservations.get? (k, roleId) = db.reservations.get? (k, roleId)
  reservationTotal : ∀ w : ReservationRow → ℕ, (∀ row, row.runId = runId → w row = 0) →
    db'.reservations.total w = db.reservations.total w
  reconciliations : ∀ row, row.runId ≠ runId →
    (row ∈ db'.reconciliations ↔ row ∈ db.reconciliations)
  reconciliationTotal : ∀ w : ReconciliationRow → ℕ, (∀ row, row.runId = runId → w row = 0) →
    db'.reconciliations.total w = db.reconciliations.total w

theorem Elsewhere.refl (runId : OrchestrationRunId) (db : OrchestrationDb) :
    Elsewhere runId db db :=
  ⟨fun _ _ => rfl, fun _ _ _ => rfl, fun _ _ => rfl, fun _ _ => Iff.rfl, fun _ _ => rfl⟩

theorem Elsewhere.trans {runId : OrchestrationRunId} {a b c : OrchestrationDb}
    (hab : Elsewhere runId a b) (hbc : Elsewhere runId b c) : Elsewhere runId a c where
  budgets k hk := (hbc.budgets k hk).trans (hab.budgets k hk)
  reservations k roleId hk := (hbc.reservations k roleId hk).trans (hab.reservations k roleId hk)
  reservationTotal w hw := (hbc.reservationTotal w hw).trans (hab.reservationTotal w hw)
  reconciliations row hrow := (hbc.reconciliations row hrow).trans (hab.reconciliations row hrow)
  reconciliationTotal w hw := (hbc.reconciliationTotal w hw).trans (hab.reconciliationTotal w hw)

section Runs

variable {db db' : OrchestrationDb} {runId : OrchestrationRunId} {scope : RunScope}
  {roleId : RoleId}

/-! No budget call writes a run. -/

theorem updateReservation_runs {state : OrchestrationBudgetReservationState}
    {f : OrchestrationBudgetReservationRecord → OrchestrationBudgetReservationRecord}
    {hf : ∀ record, (f record).roleId = record.roleId}
    (hok : updateReservation db runId scope roleId state f hf = .ok db') : db'.runs = db.runs := by
  simp only [updateReservation, bind_eq_ok, ensure_eq_ok, exists_const, pure_eq_ok] at hok
  obtain ⟨-, rfl⟩ := hok
  rfl

theorem writeLedger_runs {ledger : OrchestrationBudgetLedger} {now : ℕ}
    (hok : writeLedger db runId scope ledger now = .ok db') : db'.runs = db.runs := by
  simp only [writeLedger, bind_eq_ok, ensure_eq_ok, exists_const, pure_eq_ok] at hok
  obtain ⟨-, rfl⟩ := hok
  rfl

theorem reserveRoleBudget_runs {now : ℕ}
    (hok : reserveRoleBudget db runId scope roleId reservation now = .ok db') :
    db'.runs = db.runs := by
  simp only [reserveRoleBudget, bind_eq_ok, pure_eq_ok] at hok
  obtain ⟨_, -, _, -, _, -, _, -, _, -, time, -, db₁, hwritten, rfl⟩ := hok
  change db₁.runs = db.runs
  unfold writeReservation at hwritten
  split_ifs at hwritten
  · exact updateReservation_runs hwritten
  · simp only [bind_eq_ok, pure_eq_ok] at hwritten
    obtain ⟨reservations, -, rfl⟩ := hwritten
    rfl

theorem reserveRoles_runs {budget : OrchestrationAggregateBudget} {now : ℕ} :
    ∀ {ready : List RoleAssignment} {db db' : OrchestrationDb},
      reserveRoles runId scope budget now db ready = .ok db' → db'.runs = db.runs
  | [], db, db', hok => by
    obtain rfl := Except.ok.inj hok
    rfl
  | role :: ready, db, db', hok => by
    simp only [reserveRoles, bind_eq_ok] at hok
    obtain ⟨reservation, -, db₁, hfirst, hrest⟩ := hok
    rw [reserveRoles_runs hrest, reserveRoleBudget_runs hfirst]

theorem settleRoleBudget_runs {receipt : OrchestrationRoleReceipt} {now : ℕ}
    (hok : settleRoleBudget db runId scope roleId receipt now = .ok db') : db'.runs = db.runs := by
  simp only [settleRoleBudget, bind_eq_ok] at hok
  obtain ⟨_, -, _, -, _, -, _, -, db₁, hupdate, hwrite⟩ := hok
  rw [writeLedger_runs hwrite, updateReservation_runs hupdate]

theorem reconcileFailedRoleBudget_runs {usage : OrchestrationUsage} {evidenceDigest : RequestDigest}
    {now : ℕ}
    (hok : reconcileFailedRoleBudget db runId scope roleId usage evidenceDigest now = .ok db') :
    db'.runs = db.runs := by
  simp only [reconcileFailedRoleBudget, bind_eq_ok] at hok
  obtain ⟨_, -, _, -, _, -, db₁, hupdate, hwrite⟩ := hok
  rw [writeLedger_runs hwrite, updateReservation_runs hupdate]

theorem releaseActiveBudgetReservations_runs {now : ℕ}
    (hok : releaseActiveBudgetReservations db runId scope now = .ok db') : db'.runs = db.runs := by
  simp only [releaseActiveBudgetReservations, bind_eq_ok, pure_eq_ok] at hok
  obtain ⟨time, -, rfl⟩ := hok
  rfl

end Runs

/-- A reservation as the budget plans it; a settled one was charged no more than it reserved. -/
structure Planned (scope : RunScope) (budget : OrchestrationAggregateBudget)
    (row : ReservationRow) :
    Prop where
  scope : row.scope = scope
  reservation : budget.reservationForRole row.record.roleId = some row.record.reservation
  charged : row.record.state = .settled → ∃ usage, row.record.usage = some usage ∧
    ∀ resource, (usage.enforced row.record.reservation).of resource ≤
      row.record.reservation.of resource

/-- The budget row of a run: the ledger has what was charged, and with the active reservations it
fits the ceiling. -/
structure Balanced (db : OrchestrationDb) (runId : OrchestrationRunId) (scope : RunScope)
    (budget : OrchestrationAggregateBudget) (row : BudgetRow) : Prop where
  scope : row.scope = scope
  ceiling : row.ceiling = budget.ceiling
  consumed : ∀ resource, row.ledger.enforcedConsumed.of resource =
    settled db runId resource + reconciled db runId budget resource
  committed_le : ∀ resource, row.ledger.enforcedConsumed.of resource + reserved db runId resource ≤
    budget.ceiling.of resource
  committed_lt : ∀ resource, row.ledger.enforcedConsumed.of resource + reserved db runId resource <
    2 ^ 64

/-- The budget tables of a run whose roles in `active` are active and in `completed` are
completed. -/
structure Account (db : OrchestrationDb) (runId : OrchestrationRunId) (scope : RunScope)
    (budget : OrchestrationAggregateBudget) (active completed : RoleId → Prop) : Prop where
  budgeted : ∃ row, db.budgets.get? runId = some row ∧ Balanced db runId scope budget row
  planned : ∀ roleId row, db.reservations.get? (runId, roleId) = some row →
    Planned scope budget row
  active_iff : ∀ roleId, active roleId ↔
    ∃ row, db.reservations.get? (runId, roleId) = some row ∧ row.record.state = .active
  settled_iff : ∀ roleId, completed roleId ↔
    ∃ row, db.reservations.get? (runId, roleId) = some row ∧ row.record.state = .settled
  reconciledRoles : ∀ row ∈ db.reconciliations, row.runId = runId →
    ∃ reservation, budget.reservationForRole row.roleId = some reservation

section Specs

variable {db db' : OrchestrationDb} {runId : OrchestrationRunId} {scope : RunScope}
  {budget : OrchestrationAggregateBudget} {active completed : RoleId → Prop} {roleId : RoleId}

variable {row : ReservationRow}

theorem runId_of_get? (h : db.reservations.get? (runId, roleId) = some row) :
    row.runId = runId ∧ row.record.roleId = roleId :=
  Prod.mk.inj (get?_eq_some.mp h).2

theorem get?_of_mem (h : row ∈ db.reservations) :
    db.reservations.get? (row.runId, row.record.roleId) = some row :=
  get?_eq_some.mpr ⟨h, rfl⟩

theorem account_new {row : BudgetRow} (hrow : db.budgets.get? runId = some row)
    (hscope : row.scope = scope) (hceiling : row.ceiling = budget.ceiling)
    (hconsumed : row.ledger.enforcedConsumed = .zero)
    (hreservations : ∀ other ∈ db.reservations, other.runId ≠ runId)
    (hreconciliations : ∀ other ∈ db.reconciliations, other.runId ≠ runId) :
    Account db runId scope budget (fun _ => False) (fun _ => False) := by
  have hreserved : ∀ resource, reserved db runId resource = 0 := fun resource =>
    total_eq_zero fun other hother => if_neg fun h => hreservations other hother h.1
  have hsettled : ∀ resource, settled db runId resource = 0 := fun resource =>
    total_eq_zero fun other hother => if_neg fun h => hreservations other hother h.1
  have hreconciled : ∀ resource, reconciled db runId budget resource = 0 := fun resource =>
    total_eq_zero fun other hother => if_neg fun h => hreconciliations other hother h
  have hnone : ∀ roleId other, db.reservations.get? (runId, roleId) ≠ some other :=
    fun roleId other hget =>
      hreservations other (get?_eq_some.mp hget).1 (runId_of_get? hget).1
  refine ⟨⟨row, hrow, hscope, hceiling, ?_, ?_, ?_⟩, ?_, ?_, ?_, ?_⟩
  · intro resource
    rw [hconsumed, hsettled, hreconciled, OrchestrationBudgetAmount.of_zero]
  · intro resource
    rw [hconsumed, hreserved, OrchestrationBudgetAmount.of_zero]
    exact Nat.zero_le _
  · intro resource
    rw [hconsumed, hreserved, OrchestrationBudgetAmount.of_zero]
    exact Nat.two_pow_pos 64
  · intro roleId other hother
    exact absurd hother (hnone roleId other)
  · intro roleId
    simp [hnone]
  · intro roleId
    simp [hnone]
  · intro other hother hrun
    exact absurd hrun (hreconciliations other hother)

theorem Account.elsewhere {k : OrchestrationRunId}
    (h : Account db runId scope budget active completed) (helse : Elsewhere k db db')
    (hne : runId ≠ k) :
    Account db' runId scope budget active completed := by
  have hreserved : ∀ resource, reserved db' runId resource = reserved db runId resource := by
    intro resource
    refine helse.reservationTotal _ fun row hrow => if_neg ?_
    rintro ⟨hrun, -⟩
    exact hne (hrun.symm.trans hrow)
  have hsettled : ∀ resource, settled db' runId resource = settled db runId resource := by
    intro resource
    refine helse.reservationTotal _ fun row hrow => if_neg ?_
    rintro ⟨hrun, -⟩
    exact hne (hrun.symm.trans hrow)
  have hreconciled : ∀ resource,
      reconciled db' runId budget resource = reconciled db runId budget resource := by
    intro resource
    refine helse.reconciliationTotal _ fun row hrow => if_neg ?_
    intro hrun
    exact hne (hrun.symm.trans hrow)
  obtain ⟨row, hrow, hbalanced⟩ := h.budgeted
  refine ⟨⟨row, ?_, ?_⟩, ?_, ?_, ?_, ?_⟩
  · rw [helse.budgets runId hne, hrow]
  · refine ⟨hbalanced.scope, hbalanced.ceiling, fun resource => ?_, fun resource => ?_,
      fun resource => ?_⟩
    · rw [hsettled, hreconciled, hbalanced.consumed]
    · rw [hreserved]
      exact hbalanced.committed_le resource
    · rw [hreserved]
      exact hbalanced.committed_lt resource
  · intro roleId row hrow
    rw [helse.reservations runId roleId hne] at hrow
    exact h.planned roleId row hrow
  · intro roleId
    rw [helse.reservations runId roleId hne]
    exact h.active_iff roleId
  · intro roleId
    rw [helse.reservations runId roleId hne]
    exact h.settled_iff roleId
  · intro row hrow hrun
    exact h.reconciledRoles row ((helse.reconciliations row (hrun ▸ hne)).mp hrow) hrun

theorem loadBudgetState_eq_ok {row : BudgetRow} :
    loadBudgetState db runId scope = .ok row ↔
      db.budgets.get? runId = some row ∧ row.scope = scope := by
  rw [loadBudgetState, orError_eq_ok, Option.filter_eq_some_iff, decide_eq_true_eq]

/-- Every reservation of the run has its scope, so the sum that is read is the sum of the run. -/
theorem Account.sum_active (h : Account db runId scope budget active completed)
    (resource : Resource) :
    (((loadBudgetReservations db runId scope).filter fun item =>
      item.state = .active ∧ (none : Option RoleId) ≠ some item.roleId).map
        fun item => item.reservation.of resource).sum = reserved db runId resource := by
  rw [sum_loaded]
  refine total_congr fun row hrow => ?_
  by_cases hrun : row.runId = runId
  · subst hrun
    have hscope := (h.planned _ row (get?_of_mem hrow)).scope
    simp [activeOf, hscope]
  · simp [activeOf, hrun]

theorem Account.sum_others (h : Account db runId scope budget active completed)
    (hrow : db.reservations.get? (runId, roleId) = some row)
    (hactive : row.record.state = .active) (resource : Resource) :
    (((loadBudgetReservations db runId scope).filter fun item =>
      item.state = .active ∧ some roleId ≠ some item.roleId).map
        fun item => item.reservation.of resource).sum + row.record.reservation.of resource =
      reserved db runId resource := by
  have hexcept := total_except hrow (activeOf runId resource)
  have hown : activeOf runId resource row = row.record.reservation.of resource :=
    if_pos ⟨(runId_of_get? hrow).1, hactive⟩
  rw [hown] at hexcept
  rw [reserved, ← hexcept, sum_loaded]
  congr 1
  refine total_congr fun other hother => ?_
  by_cases hrun : other.runId = runId
  · subst hrun
    have hscope := (h.planned _ other (get?_of_mem hother)).scope
    by_cases hrole : other.record.roleId = roleId
    · simp [key, hrole]
    · simp [activeOf, key, hscope, hrole, Ne.symm hrole]
  · simp [activeOf, key, hrun]

/-- `UPDATE orchestration_budgets` on the row of the run. -/
theorem updateBudget_writes {row : BudgetRow} {f : BudgetRow → BudgetRow}
    {hf : ∀ row, (f row).runId = row.runId} (hrow : db.budgets.get? runId = some row)
    (hscope : row.scope = scope) :
    Table.Writes db.budgets (updateBudget db runId scope f hf).budgets runId (f row) := by
  have hrun : row.runId = runId := (get?_eq_some.mp hrow).2
  exact (put_update (fun row _ => hf row) (fun s hs => (of_decide_eq_true hs).1) hrow
    (decide_eq_true ⟨hrun, hscope⟩)).writes

variable {old : Option ReservationRow}

theorem Account.put (h : Account db runId scope budget active completed)
    (hput : Table.Put db.reservations db'.reservations (runId, roleId) old row)
    (hplanned : Planned scope budget row)
    (hbudgeted : ∃ row, db'.budgets.get? runId = some row ∧ Balanced db' runId scope budget row)
    (hreconciled : ∀ row ∈ db'.reconciliations, row.runId = runId →
      ∃ reservation, budget.reservationForRole row.roleId = some reservation) :
    Account db' runId scope budget
      (fun k => if k = roleId then row.record.state = .active else active k)
      (fun k => if k = roleId then row.record.state = .settled else completed k) := by
  have hget : ∀ k, db'.reservations.get? (runId, k) =
      if k = roleId then some row else db.reservations.get? (runId, k) := by
    intro k
    rw [hput.writes]
    by_cases hk : k = roleId
    · rw [if_pos (by rw [hk]), if_pos hk]
    · rw [if_neg (fun heq => hk (Prod.mk.inj heq).2), if_neg hk]
  refine ⟨hbudgeted, ?_, ?_, ?_, hreconciled⟩
  · intro k other hother
    rw [hget] at hother
    split_ifs at hother with hk
    · obtain rfl := Option.some.inj hother
      exact hplanned
    · exact h.planned k other hother
  · intro k
    rw [hget]
    split_ifs with hk
    · simp
    · exact h.active_iff k
  · intro k
    rw [hget]
    split_ifs with hk
    · simp
    · exact h.settled_iff k

theorem Account.congr {active' completed' : RoleId → Prop}
    (h : Account db runId scope budget active completed) (hactive : ∀ k, active' k ↔ active k)
    (hcompleted : ∀ k, completed' k ↔ completed k) :
    Account db runId scope budget active' completed' :=
  ⟨h.budgeted, h.planned, fun k => (hactive k).trans (h.active_iff k),
    fun k => (hcompleted k).trans (h.settled_iff k), h.reconciledRoles⟩

variable {budgetRow : BudgetRow}

/-- The other runs, when a reservation of the run and its budget row are written. -/
theorem elsewhere_of_put (hput : Table.Put db.reservations db'.reservations (runId, roleId) old row)
    (hrow : row.runId = runId) (hwrites : Table.Writes db.budgets db'.budgets runId budgetRow)
    (hreconciliations : db'.reconciliations = db.reconciliations) : Elsewhere runId db db' where
  budgets k hk := hwrites.other hk
  reservations k role hk := hput.writes.other fun heq => hk (Prod.mk.inj heq).1
  reservationTotal w hw := by
    refine hput.total_eq (hw row hrow) fun s hs => hw s ?_
    rw [← hput.was] at hs
    exact (runId_of_get? hs).1
  reconciliations row _ := by rw [hreconciliations]
  reconciliationTotal w _ := by rw [hreconciliations]

/-- A reservation that is neither active nor settled weighs nothing. -/
theorem weightless (hold : ∀ row ∈ old, row.record.state = .released) (resource : Resource) :
    (old.map (activeOf runId resource)).getD 0 = 0 ∧
      (old.map (settledOf runId resource)).getD 0 = 0 := by
  rcases old with _ | row
  · exact ⟨rfl, rfl⟩
  · have hstate := hold row rfl
    simp [activeOf, settledOf, hstate]

theorem selectsReservation_key {state : OrchestrationBudgetReservationState}
    (h : selectsReservation runId scope roleId state row) : row.key = (runId, roleId) := by
  obtain ⟨hrun, -, hrole, -⟩ := of_decide_eq_true h
  rw [key, hrun, hrole]

theorem updateReservation_put {state : OrchestrationBudgetReservationState}
    {f : OrchestrationBudgetReservationRecord → OrchestrationBudgetReservationRecord}
    (hf : ∀ record, (f record).roleId = record.roleId)
    (hrow : db.reservations.get? (runId, roleId) = some row) (hscope : row.scope = scope)
    (hstate : row.record.state = state) :
    ∃ reservations, updateReservation db runId scope roleId state f hf =
        .ok { db with reservations } ∧
      Table.Put db.reservations reservations (runId, roleId) (some row)
        { row with record := f row.record } := by
  obtain ⟨hrun, hrole⟩ := runId_of_get? hrow
  have hselected : selectsReservation runId scope roleId state row :=
    decide_eq_true ⟨hrun, hscope, hrole, hstate⟩
  have hkey : ∀ r :
    ReservationRow, ({ r with record := f r.record } : ReservationRow).key = r.key := by
    intro r
    simp only [key, hf]
  refine ⟨_, ?_, put_update (fun r _ => hkey r) (fun s hs => selectsReservation_key hs) hrow
    hselected⟩
  unfold updateReservation
  rw [countP_eq_one (fun s hs => selectsReservation_key hs) hrow hselected]
  rfl

theorem writeReservation_put {now : ℕ}
    (hfree : ∀ item ∈ (loadBudgetReservations db runId scope).find? fun item => item.roleId =
      roleId, item.state = .released)
    (hok : writeReservation db runId scope roleId reservation ((loadBudgetReservations db runId
      scope).find? fun item => item.roleId = roleId).isSome now = .ok db') :
    db'.budgets = db.budgets ∧ db'.reconciliations = db.reconciliations ∧
      ∃ old, (∀ row ∈ old, row.record.state = .released) ∧
        Table.Put db.reservations db'.reservations (runId, roleId) old
          ⟨runId, scope, newReservation roleId reservation now⟩ := by
  rcases hfind : (loadBudgetReservations db runId scope).find? fun item => item.roleId = roleId with
    _ | item
  · rw [hfind] at hok
    simp only [writeReservation, Option.isSome_none, Bool.false_eq_true, if_false,
      bind_eq_ok, orError_eq_ok, pure_eq_ok] at hok
    obtain ⟨reservations, hinsert, rfl⟩ := hok
    exact ⟨rfl, rfl, none, fun _ hrow => absurd hrow (Option.not_mem_none _), put_insert? hinsert⟩
  · have hreleased := hfree item hfind
    obtain ⟨row, hrow, hscope, rfl⟩ := find?_loaded.mp hfind
    obtain ⟨hrun, hrole⟩ := runId_of_get? hrow
    obtain ⟨reservations, hupdate, hput⟩ := updateReservation_put
      (f := fun record => newReservation record.roleId reservation now) (fun _ => rfl)
      hrow hscope hreleased
    rw [hfind] at hok
    simp only [writeReservation, Option.isSome_some, if_true] at hok
    rw [hupdate] at hok
    obtain rfl := Except.ok.inj hok
    have hsame : (⟨runId, scope, newReservation roleId reservation now⟩ : ReservationRow) =
        { row with record := newReservation row.record.roleId reservation now } := by
      rw [hrole, ← hrun, ← hscope]
    refine ⟨rfl, rfl, some row, fun r hr => ?_, hsame ▸ hput⟩
    obtain rfl := Option.some.inj hr
    exact hreleased

/-- What the loop of `sum_active_reservations` returns for the run. -/
theorem Account.sumActive (h : Account db runId scope budget active completed)
    {total : OrchestrationBudgetAmount}
    (hsum : sumActiveReservations (loadBudgetReservations db runId scope) none = .ok total)
    (resource : Resource) : total.of resource = reserved db runId resource := by
  rw [foldlM_reservations hsum resource, OrchestrationBudgetAmount.of_zero, Nat.zero_add]
  exact h.sum_active resource

theorem Account.exists_sumActive (h : Account db runId scope budget active completed) :
    ∃ total, sumActiveReservations (loadBudgetReservations db runId scope) none = .ok total := by
  obtain ⟨row, -, hbalanced⟩ := h.budgeted
  refine exists_foldlM_reservations _ _ fun resource => ?_
  rw [OrchestrationBudgetAmount.of_zero, Nat.zero_add, h.sum_active resource]
  have hlt := hbalanced.committed_lt resource
  omega

/-- **Reserving a role** makes it active. -/
theorem reserveRoleBudget_spec {now : ℕ} (h : Account db runId scope budget active completed)
    (hreservation : budget.reservationForRole roleId = some reservation)
    (hok : reserveRoleBudget db runId scope roleId reservation now = .ok db') :
    Account db' runId scope budget (fun k => k = roleId ∨ active k) completed ∧
      Elsewhere runId db db' ∧ db'.reconciliations = db.reconciliations := by
  simp only [reserveRoleBudget, bind_eq_ok, ensure_eq_ok, exists_const, orError_eq_ok, toI64,
    fitsI64_eq_some, ensureAggregateWithin_eq_ok, loadBudgetState_eq_ok, Option.bind_eq_some_iff,
    OrchestrationBudgetAmount.checkedAdd_eq_some, pure_eq_ok] at hok
  obtain ⟨row, ⟨hrow, hscope⟩, hfree, total, htotal, committed, ⟨part, hpart, hcommitted⟩,
    hle, time, ⟨-, rfl⟩, db₁, hwritten, hdb'⟩ := hok
  obtain ⟨hbudgets, hreconciliations, old, hold, hput⟩ := writeReservation_put hfree hwritten
  obtain ⟨row', hrow', hbalanced⟩ := h.budgeted
  obtain rfl := Option.some.inj (hrow.symm.trans hrow')
  have hwrites : Table.Writes db.budgets db'.budgets runId { row with updatedAt := now } := by
    rw [← hbudgets] at hrow ⊢
    rw [← hdb']
    exact updateBudget_writes hrow hscope
  replace hput : Table.Put db.reservations db'.reservations (runId, roleId) old
      ⟨runId, scope, newReservation roleId reservation now⟩ := by
    rw [← hdb']
    exact hput
  replace hreconciliations : db'.reconciliations = db.reconciliations := by
    rw [← hdb', ← hreconciliations]
    rfl
  have hreserved : ∀ resource, reserved db' runId resource =
      reserved db runId resource + reservation.of resource := by
    intro resource
    have hmove := hput.total (activeOf runId resource)
    rw [(weightless hold resource).1] at hmove
    unfold reserved
    simpa [activeOf, newReservation] using hmove
  have hsettled : ∀ resource, settled db' runId resource = settled db runId resource := by
    intro resource
    have hmove := hput.total (settledOf runId resource)
    rw [(weightless hold resource).2] at hmove
    unfold settled
    simpa [settledOf, newReservation] using hmove
  refine ⟨?_, elsewhere_of_put hput rfl hwrites hreconciliations, hreconciliations⟩
  refine (h.put hput ?_ ⟨_, hwrites.same, ?_⟩ (hreconciliations ▸ h.reconciledRoles)).congr ?_ ?_
  · exact ⟨rfl, hreservation, fun hstate => by cases hstate⟩
  · refine ⟨hscope, hbalanced.ceiling, fun resource => ?_, fun resource => ?_, fun resource => ?_⟩
    · rw [hsettled, reconciled, hreconciliations]
      exact hbalanced.consumed resource
    · have hfits := hle resource
      rw [← (hcommitted resource).2, ← (hpart resource).2, h.sumActive htotal,
        hbalanced.ceiling] at hfits
      rw [hreserved, ← Nat.add_assoc]
      exact hfits
    · have hlt := (hcommitted resource).1
      rw [← (hpart resource).2, h.sumActive htotal] at hlt
      rw [hreserved, ← Nat.add_assoc]
      exact hlt
  · intro k
    by_cases hk : k = roleId
    · simp [hk, newReservation]
    · simp [hk]
  · intro k
    by_cases hk : k = roleId
    · subst hk
      have hnot : ¬ completed k := by
        rw [h.settled_iff]
        rintro ⟨s, hs, hstate⟩
        have hreleased := hold s (hput.was ▸ hs)
        rw [hreleased] at hstate
        cases hstate
      simp [newReservation, hnot]
    · simp [hk]

/-- What a role that is settled or reconciled is charged with. -/
structure Charge (db : OrchestrationDb) (runId : OrchestrationRunId) (roleId : RoleId)
    (budget : OrchestrationAggregateBudget) (usage : OrchestrationUsage)
    (ledger : OrchestrationBudgetLedger) (row : ReservationRow) (budgetRow : BudgetRow) : Prop where
  found : db.reservations.get? (runId, roleId) = some row
  active : row.record.state = .active
  budgeted : db.budgets.get? runId = some budgetRow
  within : ∀ resource, (usage.enforced row.record.reservation).of resource ≤
    row.record.reservation.of resource
  consumed : ∀ resource, ledger.enforcedConsumed.of resource =
    budgetRow.ledger.enforcedConsumed.of resource +
      (usage.enforced row.record.reservation).of resource
  committed_le : ∀ resource, ledger.enforcedConsumed.of resource + reserved db runId resource ≤
    budget.ceiling.of resource + row.record.reservation.of resource
  committed_lt : ∀ resource, ledger.enforcedConsumed.of resource + reserved db runId resource <
    2 ^ 64 + row.record.reservation.of resource

/-- The two ways of counting the cost differ in the other fields of the ledger only. -/
theorem chargeRole_eq_ok {usage : OrchestrationUsage} {ledger : OrchestrationBudgetLedger}
    (hok : chargeRole db runId scope roleId usage = .ok ledger) :
    ∃ current budgetRow others committed,
      (loadBudgetReservations db runId scope).find? (fun item => item.roleId = roleId) =
        some current ∧ current.state = .active ∧
      (∀ resource, (usage.enforced current.reservation).of resource ≤
        current.reservation.of resource) ∧
      loadBudgetState db runId scope = .ok budgetRow ∧
      sumActiveReservations (loadBudgetReservations db runId scope) (some roleId) = .ok others ∧
      budgetRow.ledger.enforcedConsumed.checkedAdd (usage.enforced current.reservation) =
        some ledger.enforcedConsumed ∧
      ledger.enforcedConsumed.checkedAdd others = some committed ∧
      ∀ resource, committed.of resource ≤ budgetRow.ceiling.of resource := by
  unfold chargeRole at hok
  rcases hcost : usage.costMicros with _ | cost
  all_goals
    simp only [hcost, bind_eq_ok, orError_eq_ok, ensure_eq_ok, exists_const, pure_eq_ok,
      ensureUsageWithin_eq_ok, ensureAggregateWithin_eq_ok] at hok
    obtain ⟨current, hfind, hactive, hwithin, budgetRow, hbudget, others, hothers, consumed,
      hconsumed, _, -, _, rfl, committed, hcommitted, hle, rfl⟩ := hok
    exact ⟨current, budgetRow, others, committed, hfind, hactive, hwithin, hbudget, hothers,
      hconsumed, hcommitted, hle⟩

theorem chargeRole_spec {usage : OrchestrationUsage} {ledger : OrchestrationBudgetLedger}
    (h : Account db runId scope budget active completed)
    (hok : chargeRole db runId scope roleId usage = .ok ledger) :
    ∃ row budgetRow, Charge db runId roleId budget usage ledger row budgetRow ∧
      Planned scope budget row ∧ Balanced db runId scope budget budgetRow := by
  obtain ⟨current, budgetRow, others, committed, hfind, hactive, hwithin, hbudget, hothers,
    hconsumed, hcommitted, hle⟩ := chargeRole_eq_ok hok
  obtain ⟨row, hrow, hscope, rfl⟩ := find?_loaded.mp hfind
  obtain ⟨hbudgetRow, -⟩ := loadBudgetState_eq_ok.mp hbudget
  obtain ⟨budgetRow', hbudgetRow', hbalanced⟩ := h.budgeted
  obtain rfl := Option.some.inj (hbudgetRow.symm.trans hbudgetRow')
  have hother : ∀ resource, others.of resource + row.record.reservation.of resource =
      reserved db runId resource := by
    intro resource
    rw [foldlM_reservations hothers resource, OrchestrationBudgetAmount.of_zero, Nat.zero_add]
    exact h.sum_others hrow hactive resource
  refine ⟨row, budgetRow,
    ⟨hrow, hactive, hbudgetRow, hwithin, fun resource => ?_, fun resource => ?_,
      fun resource => ?_⟩, h.planned roleId row hrow, hbalanced⟩
  · exact ((OrchestrationBudgetAmount.checkedAdd_eq_some.mp hconsumed) resource).2.symm
  · have hsum := ((OrchestrationBudgetAmount.checkedAdd_eq_some.mp hcommitted) resource).2
    have hfits := hle resource
    rw [hbalanced.ceiling] at hfits
    have hreserved := hother resource
    omega
  · have hsum := ((OrchestrationBudgetAmount.checkedAdd_eq_some.mp hcommitted) resource).1
    have hreserved := hother resource
    omega

theorem writeLedger_eq_ok {ledger : OrchestrationBudgetLedger} {now : ℕ} {row : BudgetRow}
    (hok : writeLedger db runId scope ledger now = .ok db')
    (hrow : db.budgets.get? runId = some row) (hscope : row.scope = scope) :
    Table.Writes db.budgets db'.budgets runId { row with ledger, updatedAt := now } ∧
      db'.reservations = db.reservations ∧ db'.reconciliations = db.reconciliations := by
  simp only [writeLedger, bind_eq_ok, ensure_eq_ok, exists_const, pure_eq_ok] at hok
  obtain ⟨-, rfl⟩ := hok
  exact ⟨updateBudget_writes hrow hscope, rfl, rfl⟩

/-- The charged reservation is no longer active: what is left is reserved for the others. -/
theorem Charge.reserved_eq {usage : OrchestrationUsage} {ledger : OrchestrationBudgetLedger}
    {row' : ReservationRow}
    (h : Charge db runId roleId budget usage ledger row budgetRow)
    (hput : Table.Put db.reservations db'.reservations (runId, roleId) (some row) row')
    (hstate : row'.record.state ≠ .active) (resource : Resource) :
    reserved db' runId resource + row.record.reservation.of resource =
      reserved db runId resource := by
  have hmove := hput.total (activeOf runId resource)
  have hown : activeOf runId resource row = row.record.reservation.of resource :=
    if_pos ⟨(runId_of_get? h.found).1, h.active⟩
  have hnew : activeOf runId resource row' = 0 := if_neg fun hactive => hstate hactive.2
  rw [Option.map_some, Option.getD_some, hown, hnew, Nat.add_zero] at hmove
  exact hmove

/-- Once its role is charged the run is balanced, whichever table the charge is found in. -/
theorem Charge.balanced {usage : OrchestrationUsage} {ledger : OrchestrationBudgetLedger}
    {row' : ReservationRow} (now : ℕ)
    (h : Charge db runId roleId budget usage ledger row budgetRow)
    (hbalanced : Balanced db runId scope budget budgetRow)
    (hput : Table.Put db.reservations db'.reservations (runId, roleId) (some row) row')
    (hstate : row'.record.state ≠ .active)
    (hcharged : ∀ resource, settled db' runId resource + reconciled db' runId budget resource =
      settled db runId resource + reconciled db runId budget resource +
        (usage.enforced row.record.reservation).of resource) :
    Balanced db' runId scope budget { budgetRow with ledger, updatedAt := now } := by
  refine ⟨hbalanced.scope, hbalanced.ceiling, fun resource => ?_, fun resource => ?_,
    fun resource => ?_⟩
  · rw [hcharged, ← hbalanced.consumed]
    exact h.consumed resource
  · have hle := h.committed_le resource
    have hreserved := h.reserved_eq hput hstate resource
    change ledger.enforcedConsumed.of resource + _ ≤ _
    omega
  · have hlt := h.committed_lt resource
    have hreserved := h.reserved_eq hput hstate resource
    change ledger.enforcedConsumed.of resource + _ < _
    omega

/-- **Settling a role** moves it from the active roles to the completed ones. -/
theorem settleRoleBudget_spec {receipt : OrchestrationRoleReceipt} {now : ℕ}
    (h : Account db runId scope budget active completed)
    (hok : settleRoleBudget db runId scope roleId receipt now = .ok db') :
    Account db' runId scope budget (fun k => k ≠ roleId ∧ active k)
        (fun k => k = roleId ∨ completed k) ∧
      Elsewhere runId db db' ∧ db'.reconciliations = db.reconciliations := by
  simp only [settleRoleBudget, bind_eq_ok, orError_eq_ok, toI64, fitsI64_eq_some, ensure_eq_ok,
    exists_const] at hok
  obtain ⟨usage, -, ledger, hcharge, time, ⟨-, rfl⟩, -, db₁, hupdate, hwrite⟩ := hok
  obtain ⟨row, budgetRow, hcharged, hplanned, hbalanced⟩ := chargeRole_spec h hcharge
  obtain ⟨reservations, hupdated, hput⟩ := updateReservation_put (f := fun record =>
      { record with
        state := .settled
        completionReceiptId := some receipt.receiptId
        usage := some usage
        updatedAt := now })
    (fun _ => rfl) hcharged.found hplanned.scope hcharged.active
  rw [hupdated] at hupdate
  obtain rfl := Except.ok.inj hupdate
  obtain ⟨hwrites, hreservations, hreconciliations⟩ :=
    writeLedger_eq_ok hwrite hcharged.budgeted hbalanced.scope
  dsimp only at hreservations hreconciliations
  rw [← hreservations] at hput
  have hrun := (runId_of_get? hcharged.found).1
  have hsettled : ∀ resource, settled db' runId resource =
      settled db runId resource + (usage.enforced row.record.reservation).of resource := by
    intro resource
    have hmove := hput.total (settledOf runId resource)
    unfold settled
    simpa [settledOf, hrun, hcharged.active] using hmove
  have hbalanced' := hcharged.balanced now hbalanced hput (by simp) fun resource => by
    rw [hsettled, reconciled, hreconciliations]
    change _ + reconciled db runId budget resource = _
    omega
  refine ⟨?_, elsewhere_of_put hput hrun hwrites hreconciliations, hreconciliations⟩
  refine (h.put hput ⟨hplanned.scope, hplanned.reservation, fun _ => ?_⟩
    ⟨_, hwrites.same, hbalanced'⟩ (hreconciliations ▸ h.reconciledRoles)).congr ?_ ?_
  · exact ⟨usage, rfl, hcharged.within⟩
  · intro k
    by_cases hk : k = roleId
    · simp [hk]
    · simp [hk]
  · intro k
    by_cases hk : k = roleId
    · simp [hk]
    · simp [hk]

theorem elsewhere_of_insert {row : ReconciliationRow}
    {reconciliations : Table ReconciliationRow.key}
    (hinsert : db.reconciliations.insert? row = some reconciliations) (hrow : row.runId = runId) :
    Elsewhere runId db { db with reconciliations } where
  budgets _ _ := rfl
  reservations _ _ _ := rfl
  reservationTotal _ _ := rfl
  reconciliations other hother := by
    rw [mem_insert? hinsert]
    refine ⟨fun h => h.resolve_right ?_, Or.inl⟩
    rintro rfl
    exact hother hrow
  reconciliationTotal w hw := by
    rw [total_insert? hinsert, hw row hrow, Nat.add_zero]

/-- **Reconciling a role** takes it out of the active ones. -/
theorem reconcileFailedRoleBudget_spec {usage : OrchestrationUsage} {evidenceDigest : RequestDigest}
    {now : ℕ} (h : Account db runId scope budget active completed)
    (hok : reconcileFailedRoleBudget db runId scope roleId usage evidenceDigest now = .ok db') :
    Account db' runId scope budget (fun k => k ≠ roleId ∧ active k) completed ∧
      Elsewhere runId db db' := by
  simp only [reconcileFailedRoleBudget, bind_eq_ok, orError_eq_ok, toI64, fitsI64_eq_some] at hok
  obtain ⟨ledger, hcharge, time, ⟨-, rfl⟩, reconciliations, hinsert, db₁, hupdate, hwrite⟩ := hok
  obtain ⟨row, budgetRow, hcharged, hplanned, hbalanced⟩ := chargeRole_spec h hcharge
  obtain ⟨hrun, hrole⟩ := runId_of_get? hcharged.found
  have hfound : ({ db with reconciliations } : OrchestrationDb).reservations.get? (runId, roleId) =
      some row := hcharged.found
  obtain ⟨reservations, hupdated, hput⟩ := updateReservation_put
    (f := fun record => { record with state := .released
                                      reconciliationEvidenceDigest := some evidenceDigest
                                      usage := some usage, updatedAt := now })
    (fun _ => rfl) hfound hplanned.scope hcharged.active
  rw [hupdated] at hupdate
  obtain rfl := Except.ok.inj hupdate
  obtain ⟨hwrites, hreservations, hreconciliations⟩ :=
    writeLedger_eq_ok hwrite hcharged.budgeted hbalanced.scope
  dsimp only at hreservations hreconciliations
  rw [← hreservations] at hput
  have hsettled : ∀ resource, settled db' runId resource = settled db runId resource := by
    intro resource
    have hmove := hput.total (settledOf runId resource)
    unfold settled
    simpa [settledOf, hcharged.active] using hmove
  have hreservation := hplanned.reservation
  rw [hrole] at hreservation
  have hreconciled : ∀ resource, reconciled db' runId budget resource =
      reconciled db runId budget resource +
        (usage.enforced row.record.reservation).of resource := by
    intro resource
    rw [reconciled, hreconciliations, total_insert? hinsert]
    congr 1
    simp [reconciledOf, hreservation]
  have hbalanced' := hcharged.balanced now hbalanced hput (by simp) fun resource => by
    rw [hsettled, hreconciled, Nat.add_assoc]
  refine ⟨?_, (elsewhere_of_insert hinsert rfl).trans
    (elsewhere_of_put hput hrun hwrites hreconciliations)⟩
  refine (h.put hput ⟨hplanned.scope, hplanned.reservation, fun hstate => by cases hstate⟩
    ⟨_, hwrites.same, hbalanced'⟩ ?_).congr ?_ ?_
  · rw [hreconciliations]
    intro other hother hrun'
    rcases (mem_insert? hinsert).mp hother with hother | rfl
    · exact h.reconciledRoles other hother hrun'
    · exact ⟨_, hreservation⟩
  · intro k
    by_cases hk : k = roleId
    all_goals simp [hk]
  · intro k
    by_cases hk : k = roleId
    · subst hk
      have hnot : ¬ completed k := by
        rw [h.settled_iff]
        rintro ⟨s, hs, hstate⟩
        obtain rfl := Option.some.inj (hcharged.found.symm.trans hs)
        rw [hcharged.active] at hstate
        cases hstate
      simp [hnot]
    · simp [hk]

/-- **The loop of `start_ready`** makes its roles active. -/
theorem reserveRoles_spec {now : ℕ} : ∀ {ready : List RoleAssignment} {db db' : OrchestrationDb}
    {active : RoleId → Prop}, Account db runId scope budget active completed →
    reserveRoles runId scope budget now db ready = .ok db' →
    Account db' runId scope budget (fun k => active k ∨ ∃ role ∈ ready, role.id = k) completed ∧
      Elsewhere runId db db' ∧ db'.reconciliations = db.reconciliations
  | [], db, db', active, h, hok => by
    obtain rfl := Except.ok.inj hok
    exact ⟨h.congr (by simp) (by simp), Elsewhere.refl _ _, rfl⟩
  | role :: ready, db, db', active, h, hok => by
    simp only [reserveRoles, bind_eq_ok, orError_eq_ok] at hok
    obtain ⟨reservation, hreservation, db₁, hfirst, hrest⟩ := hok
    obtain ⟨haccount, helse, hreconciliations⟩ := reserveRoleBudget_spec h hreservation hfirst
    obtain ⟨haccount', helse', hreconciliations'⟩ := reserveRoles_spec haccount hrest
    refine ⟨haccount'.congr (fun k => ?_) (fun _ => Iff.rfl), helse.trans helse',
      hreconciliations'.trans hreconciliations⟩
    simp only [mem_cons, exists_eq_or_imp]
    rw [@eq_comm _ role.id, or_left_comm, or_assoc]

theorem releaseActiveBudgetReservations_spec {now : ℕ}
    (h : Account db runId scope budget active completed) (hnone : ∀ k, ¬ active k)
    (hok : releaseActiveBudgetReservations db runId scope now = .ok db') :
    Account db' runId scope budget active completed ∧ Elsewhere runId db db' ∧
      db'.reconciliations = db.reconciliations := by
  simp only [releaseActiveBudgetReservations, bind_eq_ok, orError_eq_ok, toI64, fitsI64_eq_some,
    pure_eq_ok] at hok
  obtain ⟨time, ⟨-, rfl⟩, hdb'⟩ := hok
  have hreservations : db'.reservations = db.reservations := by
    rw [← hdb']
    refine update_of_none ?_ fun row hrow => ?_
    · exact fun _ _ => rfl
    · rw [decide_eq_false_iff_not]
      rintro ⟨rfl, -, hactive⟩
      exact hnone row.record.roleId ((h.active_iff _).mpr ⟨row, get?_of_mem hrow, hactive⟩)
  have hreconciliations : db'.reconciliations = db.reconciliations := by
    rw [← hdb']
    rfl
  obtain ⟨row, hrow, hbalanced⟩ := h.budgeted
  have hwrites : Table.Writes db.budgets db'.budgets runId { row with updatedAt := now } := by
    rw [← hdb']
    exact updateBudget_writes hrow hbalanced.scope
  have hbalanced' : Balanced db' runId scope budget { row with updatedAt := now } := by
    refine ⟨hbalanced.scope, hbalanced.ceiling, ?_, ?_, ?_⟩
    · simpa only [settled, reconciled, hreservations, hreconciliations] using hbalanced.consumed
    · simpa only [reserved, hreservations] using hbalanced.committed_le
    · simpa only [reserved, hreservations] using hbalanced.committed_lt
  refine ⟨⟨⟨_, hwrites.same, hbalanced'⟩, ?_, ?_, ?_, hreconciliations ▸ h.reconciledRoles⟩,
    ⟨fun k hk => hwrites.other hk, ?_, ?_, ?_, ?_⟩, hreconciliations⟩
  · rw [hreservations]
    exact h.planned
  · rw [hreservations]
    exact h.active_iff
  · rw [hreservations]
    exact h.settled_iff
  · intro k role _
    rw [hreservations]
  · intro w _
    rw [hreservations]
  · intro row _
    rw [hreconciliations]
  · intro w _
    rw [hreconciliations]

end Specs

end Pandora.Orchestration.Accounts
