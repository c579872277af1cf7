import Pandora.Orchestration.Budget

/-! # Roles are completed once, by the worker that holds the run

A role that was completed stays completed (`Done`), and `complete_role` refuses a completed role; so
no role is settled twice, however often its run is interrupted, resumed and claimed again. The
worker of a run is the one that claimed it last, or none (`Owned`). -/

namespace Pandora.Orchestration.Receipts

open Ids Lib.OrderedSets Lib.Tables Lib.Runs Orchestration.Store Orchestration.Steps
  GovernedOrchestrationPlan Orchestration.Coherence Orchestration.Budget

/-! ### Completed roles stay completed -/

/-- The role of the run is completed. -/
def Done (runId : OrchestrationRunId) (roleId : RoleId) (db : OrchestrationDb) : Prop :=
  ∃ row, db.runs.get? runId = some row ∧ roleId ∈ row.record.snapshot.completed

section

variable {db db' : OrchestrationDb} {runId : OrchestrationRunId} {roleId : RoleId} {call : Call}
  {reply : Except OrchestrationStoreError Reply}

theorem Done.rewrite {k : OrchestrationRunId} {scope : RunScope} {row : RunRow}
    {record : OrchestrationRunRecord} (h : Done runId roleId db)
    (hrun : Rewrites db db' k scope row record)
    (hmono : ∀ id ∈ row.record.snapshot.completed, id ∈ record.snapshot.completed) :
    Done runId roleId db' := by
  obtain ⟨other, hget, hdone⟩ := h
  by_cases hk : runId = k
  · subst hk
    obtain rfl := Option.some.inj (hrun.was.symm.trans hget)
    exact ⟨_, hrun.writes.same, hmono roleId hdone⟩
  · exact ⟨other, (hrun.writes.other hk).trans hget, hdone⟩

theorem Done.step (h : Done runId roleId db) (hsound : Sound db) (hstep : Step db call db' reply) :
    Done runId roleId db' := by
  cases hstep with
  | refused e => exact h
  | idle => exact h
  | submitted hvalid hbudget hfree hruns hbudgets hreservations hreconciliations =>
    obtain ⟨row, hget, hdone⟩ := h
    refine ⟨row, (hruns.other ?_).trans hget, hdone⟩
    rintro rfl
    rw [hfree] at hget
    cases hget
  | claimed hstatus hrecord hrun hsame =>
    subst hrecord
    exact h.rewrite hrun fun id hid => hid
  | started hstatus hworker hsnapshot hready hbudget hreserve hrun hsame =>
    refine h.rewrite hrun fun id hid => ?_
    obtain ⟨run, budget, hcoherent, -⟩ := hsound.runs _ _ hrun.was
    obtain rfl := hcoherent.eq_of_fromSnapshot hsnapshot
    rw [hcoherent.safe.startReady_eq] at hready
    obtain ⟨rfl, -⟩ := Prod.mk.inj (Except.ok.inj hready)
    rw [hcoherent.snapshot] at hid
    exact hid
  | completed hstatus hworker hreceipt hnew hsettle hsnapshot hcomplete hrun hsame =>
    refine h.rewrite hrun fun id hid => ?_
    obtain ⟨run, budget, hcoherent, -⟩ := hsound.runs _ _ hrun.was
    obtain rfl := hcoherent.eq_of_fromSnapshot hsnapshot
    obtain ⟨-, -, rfl⟩ := OrchestrationRun.complete_eq_ok.mp hcomplete
    rw [hcoherent.snapshot] at hid
    exact OrderedSet.mem_insert.mpr (Or.inr hid)
  | interrupted hstatus hreason hrun | resumed hstatus hidle hrun =>
    exact h.rewrite hrun fun id hid => hid
  | reconciled hstatus hsnapshot hrelease hreconcile hrun hsame =>
    refine h.rewrite hrun fun id hid => ?_
    obtain ⟨run, budget, hcoherent, -⟩ := hsound.runs _ _ hrun.was
    obtain rfl := hcoherent.eq_of_fromSnapshot hsnapshot
    obtain ⟨-, rfl⟩ := OrchestrationRun.releaseActive_eq_ok.mp hrelease
    rw [hcoherent.snapshot] at hid
    exact hid
  | cancelled hstatus hrun hsame hrelease =>
    obtain ⟨row, hget, hdone⟩ := h.rewrite hrun fun id hid => hid
    refine ⟨row, ?_, hdone⟩
    rw [Accounts.releaseActiveBudgetReservations_runs hrelease]
    exact hget

theorem Done.run (hsound : Sound db) (h : Done runId roleId db) (calls : List Call) :
    Done runId roleId (store.run db calls) := by
  have hkept := store.run_invariant (P := fun db => Sound db ∧ Done runId roleId db)
    (fun db call hdb => ⟨step_sound hdb.1 (exec_step db call), hdb.2.step hdb.1
      (exec_step db call)⟩)
    calls ⟨hsound, h⟩
  exact hkept.2

/-- `complete_role` completes a role that was not completed. -/
theorem completed_new {scope : RunScope} {workerId : JobWorkerId}
    {receipt : OrchestrationRoleReceipt} {now : ℕ} {r : Reply} (hsound : Sound db)
    (hstep : Step db (.completeRole runId scope workerId roleId receipt now) db' (.ok r)) :
    ¬ Done runId roleId db ∧ Done runId roleId db' := by
  cases hstep with
  | completed hstatus hworker hreceipt hnew hsettle hsnapshot hcomplete hrun hsame =>
    obtain ⟨run, budget, hcoherent, -⟩ := hsound.runs _ _ hrun.was
    obtain rfl := hcoherent.eq_of_fromSnapshot hsnapshot
    obtain ⟨hfresh, -, rfl⟩ := OrchestrationRun.complete_eq_ok.mp hcomplete
    constructor
    · rintro ⟨other, hget, hdone⟩
      obtain rfl := Option.some.inj (hrun.was.symm.trans hget)
      rw [hcoherent.snapshot] at hdone
      exact hfresh hdone
    · exact ⟨_, hrun.writes.same, OrderedSet.mem_insert.mpr (Or.inl rfl)⟩

end

/-- `complete_role` settles the role of the run at position `k`. -/
def CompletedAt (calls : List Call) (k : ℕ) (runId : OrchestrationRunId) (roleId : RoleId) : Prop :=
  ∃ scope workerId receipt now reply, store.Answers .empty calls k
    (.completeRole runId scope workerId roleId receipt now) (.ok reply)

variable {runId : OrchestrationRunId}

theorem completed_not_later {calls : List Call} {k l : ℕ}
    {roleId : RoleId} (hk : CompletedAt calls k runId roleId)
    (hl : CompletedAt calls l runId roleId) : ¬ k < l := by
  intro hlt
  obtain ⟨scope, workerId, receipt, now, reply, hk⟩ := hk
  obtain ⟨scope', workerId', receipt', now', reply', hl⟩ := hl
  obtain ⟨before, between, after, -, hfirst, hsecond⟩ := hk.split hl hlt
  have hsound := dbAfter_sound before
  have hdone := (completed_new hsound (exec_step_ok hfirst)).2
  have hsound' := step_sound hsound (exec_step_ok hfirst)
  have hlater := hdone.run hsound' between
  have hsound'' :=
    store.run_invariant (P := Sound) (fun db call h => step_sound h (exec_step db call))
    between hsound'
  exact (completed_new hsound'' (exec_step_ok hsecond)).1 hlater

/-! ### The worker of a run -/

/-- Nobody but the worker holds the run. -/
def Owned (runId : OrchestrationRunId) (workerId : JobWorkerId) (db : OrchestrationDb) : Prop :=
  ∀ row, db.runs.get? runId = some row → ∀ w, row.record.workerId = some w → w = workerId

/-- The call claimed the run. -/
def Claims (runId : OrchestrationRunId) (call : Call)
    (reply : Except OrchestrationStoreError Reply) :
    Prop :=
  ∃ scope workerId now record, call = .claimNext scope workerId now ∧
    reply = .ok (.claimed (some record)) ∧ record.runId = runId

section

variable {db db' : OrchestrationDb} {runId : OrchestrationRunId} {workerId : JobWorkerId}
  {call : Call} {reply : Except OrchestrationStoreError Reply}

theorem Owned.write {k : OrchestrationRunId} {row : RunRow} (h : Owned runId workerId db)
    (hwrites : Table.Writes db.runs db'.runs k row)
    (hrow : k = runId → ∀ w, row.record.workerId = some w → w = workerId) :
    Owned runId workerId db' := by
  intro other hother
  by_cases hk : runId = k
  · subst hk
    obtain rfl := Option.some.inj (hwrites.same.symm.trans hother)
    exact hrow rfl
  · rw [hwrites.other hk] at hother
    exact h other hother

theorem Owned.rewrite {k : OrchestrationRunId} {scope : RunScope} {row : RunRow}
    {record : OrchestrationRunRecord} (h : Owned runId workerId db)
    (hrun : Rewrites db db' k scope row record) (hworker : record.workerId = row.record.workerId) :
    Owned runId workerId db' := by
  refine h.write hrun.writes ?_
  rintro rfl w hw
  rw [show record.workerId = some w from hw] at hworker
  exact h row hrun.was w hworker.symm

theorem Owned.step (h : Owned runId workerId db) (hstep : Step db call db' reply)
    (hclaims : ¬ Claims runId call reply) : Owned runId workerId db' := by
  cases hstep with
  | refused e => exact h
  | idle => exact h
  | submitted hvalid hbudget hfree hruns hbudgets hreservations hreconciliations =>
    refine h.write hruns ?_
    rintro rfl w hw
    cases hw
  | @claimed _ k _ _ _ row _ hstatus hrecord hrun hsame =>
    refine h.write hrun.writes fun hk => absurd ?_ hclaims
    have hrunId : row.record.runId = k := (Table.get?_eq_some.mp hrun.was).2
    refine ⟨_, _, _, _, rfl, rfl, ?_⟩
    rw [hrecord, ← hk]
    exact hrunId
  | started hstatus hworker hsnapshot hready hbudget hreserve hrun hsame => exact h.rewrite hrun rfl
  | completed hstatus hworker hreceipt hnew hsettle hsnapshot hcomplete hrun hsame =>
    exact h.rewrite hrun rfl
  | interrupted hstatus hreason hrun hsame => exact h.rewrite hrun rfl
  | reconciled hstatus hsnapshot hrelease hreconcile hrun hsame => exact h.rewrite hrun rfl
  | resumed hstatus hidle hrun hsame =>
    refine h.write hrun.writes ?_
    rintro rfl w hw
    cases hw
  | cancelled hstatus hrun hsame hrelease =>
    have howned := h.rewrite hrun rfl
    unfold Owned
    rw [Accounts.releaseActiveBudgetReservations_runs hrelease]
    exact howned

theorem owned_of_claim {scope : RunScope} {now : ℕ} {record : OrchestrationRunRecord}
    (hstep : Step db (.claimNext scope workerId now) db' (.ok (.claimed (some record)))) :
    Owned record.runId workerId db' := by
  cases hstep with
  | @claimed _ k _ _ _ row _ hstatus hrecord hrun hsame =>
    have hrunId : row.record.runId = k := (Table.get?_eq_some.mp hrun.was).2
    subst hrecord
    intro other hother w hw
    rw [show _ = k from hrunId] at hother
    obtain rfl := Option.some.inj (hrun.writes.same.symm.trans hother)
    exact (Option.some.inj hw).symm

theorem queued_of_claim {scope : RunScope} {now : ℕ} {record : OrchestrationRunRecord}
    (hstep : Step db (.claimNext scope workerId now) db' (.ok (.claimed (some record)))) :
    ∃ row, db.runs.get? record.runId = some row ∧ row.record.status = .queued := by
  cases hstep with
  | @claimed _ k _ _ _ row _ hstatus hrecord hrun hsame =>
    have hrunId : row.record.runId = k := (Table.get?_eq_some.mp hrun.was).2
    subst hrecord
    refine ⟨row, ?_, hstatus⟩
    rw [show _ = k from hrunId]
    exact hrun.was

/-- The two calls that a worker makes on a run it holds. -/
def WorkerCall (runId : OrchestrationRunId) (workerId : JobWorkerId) (call : Call) : Prop :=
  (∃ scope now, call = .startReady runId scope workerId now) ∨
    ∃ scope roleId receipt now, call = .completeRole runId scope workerId roleId receipt now

theorem owner_of_workerCall {r : Reply} (hcall : WorkerCall runId workerId call)
    (hstep : Step db call db' (.ok r)) :
    ∃ row, db.runs.get? runId = some row ∧ row.record.status = .running ∧
      row.record.workerId = some workerId := by
  rcases hcall with ⟨scope, now, rfl⟩ | ⟨scope, roleId, receipt, now, rfl⟩
  · cases hstep with
    | started hstatus hworker hsnapshot hready hbudget hreserve hrun hsame =>
      exact ⟨_, hrun.was, hstatus, hworker⟩
  · cases hstep with
    | completed hstatus hworker hreceipt hnew hsettle hsnapshot hcomplete hrun hsame =>
      exact ⟨_, hrun.was, hstatus, hworker⟩

end

/-- The worker claims the run at position `k`. -/
def ClaimedAt (calls : List Call) (k : ℕ) (runId : OrchestrationRunId) (workerId : JobWorkerId) :
    Prop :=
  ∃ scope now record, store.Answers .empty calls k (.claimNext scope workerId now)
    (.ok (.claimed (some record))) ∧ record.runId = runId

/-- The worker claims the run at position `k`, and nobody claims it afterwards. -/
def LastClaim (calls : List Call) (k : ℕ) (runId : OrchestrationRunId) (workerId : JobWorkerId) :
    Prop :=
  ClaimedAt calls k runId workerId ∧ ∀ l w, k < l → ¬ ClaimedAt calls l runId w

theorem owned_of_lastClaim {workerId : JobWorkerId} {k : ℕ}
    (calls : List Call) : LastClaim calls k runId workerId →
    Owned runId workerId (dbAfter calls) := by
  refine store.run_history
    (P := fun calls db => LastClaim calls k runId workerId → Owned runId workerId db) ?_ ?_ calls
  · rintro ⟨⟨scope, now, record, hanswers, -⟩, -⟩
    exact absurd hanswers.lt (Nat.not_lt_zero k)
  · rintro calls call ih ⟨⟨scope, now, record, hanswers, hrun⟩, hlast⟩
    have hstep := exec_step (dbAfter calls) call
    rcases hanswers.of_snoc with hbefore | ⟨hk, rfl, hnow⟩
    · have hclaims : ¬ Claims runId call (exec (dbAfter calls) call).2 := by
        rintro ⟨scope', w, now', record', rfl, hreply, hrun'⟩
        refine hlast calls.length w hbefore.lt ⟨scope', now', record', ?_, hrun'⟩
        exact Machine.answers_last hreply
      refine (ih ⟨⟨scope, now, record, hbefore, hrun⟩, fun l w hl hclaimed => ?_⟩).step
        hstep hclaims
      obtain ⟨scope', now', record', hanswers', hrun'⟩ := hclaimed
      exact hlast l w hl ⟨scope', now', record', hanswers'.append [call], hrun'⟩
    · rw [← hrun]
      exact owned_of_claim (exec_step_ok hnow)

/-- The receipts of a run, as they are stored. -/
structure Receipted (runId : OrchestrationRunId) (record : OrchestrationRunRecord) : Prop where
  receiptIds : (record.roleReceipts.map OrchestrationRoleReceipt.receiptId).Nodup
  roleIds : (record.roleReceipts.map OrchestrationRoleReceipt.roleId).Nodup
  completed : ∀ id, id ∈ record.snapshot.completed ↔
    ∃ receipt ∈ record.roleReceipts, receipt.roleId = id
  bound : ∀ receipt ∈ record.roleReceipts,
    record.plan.validateReceipt runId receipt.roleId receipt = .ok () ∧ receipt.runId = runId ∧
    ∃ repository, record.plan.repositoryForRole receipt.roleId = some repository ∧
      receipt.repositoryId = repository.repositoryId ∧
      receipt.workspaceId = repository.workspaceId ∧ receipt.exactCommit = repository.exactCommit
  complete : record.status = .completed ↔
    ∀ role ∈ record.plan.plan.roles, ∃ receipt ∈ record.roleReceipts, receipt.roleId = role.id

theorem receipted_of_coherent {record : OrchestrationRunRecord}
    {run : OrchestrationRun} {budget : OrchestrationAggregateBudget}
    (h : Coherent record run budget) (hrunId : record.runId = runId) : Receipted runId record where
  receiptIds := h.receiptIds
  roleIds := h.roles
  completed id := by
    rw [h.snapshot]
    exact h.completed id
  bound receipt hreceipt := by
    have hvalid := h.receipts receipt hreceipt
    rw [hrunId] at hvalid
    refine ⟨hvalid, (validateReceipt_names hvalid).1, ?_⟩
    exact validateReceipt_repository hvalid
  complete := by
    rw [h.complete, isComplete_iff h.safe, h.plan]
    exact forall₂_congr fun role _ => h.completed role.id

/-- **Every role is completed once**, whatever the calls: the receipts of a run are those of its
completed roles, bound to its plan, and it is completed exactly when every role has one; every
record can be read again; and while a worker has claimed a run, no call of another one on it
succeeds. -/
theorem roles_completed_once (calls : List Call) :
    (∀ k l runId roleId, CompletedAt calls k runId roleId → CompletedAt calls l runId roleId →
      k = l) ∧
    (∀ runId row, (dbAfter calls).runs.get? runId = some row → Receipted runId row.record ∧
      validateRecord row.record = .ok () ∧
      loadScoped (dbAfter calls) runId row.record.scope = .ok (some row.record)) ∧
    (∀ k runId workerId, LastClaim calls k runId workerId → ∀ other call reply, other ≠ workerId →
      WorkerCall runId other call → (exec (dbAfter calls) call).2 ≠ .ok reply) ∧
    (∀ runId row, (dbAfter calls).runs.get? runId = some row → row.record.status = .running →
      ∀ call, ¬ Claims runId call (exec (dbAfter calls) call).2) := by
  have hsound := dbAfter_sound calls
  refine ⟨?_, ?_, ?_, ?_⟩
  · intro k l runId roleId hk hl
    have hkl := completed_not_later hk hl
    have hlk := completed_not_later hl hk
    omega
  · intro runId row hrow
    obtain ⟨run, budget, hcoherent, -⟩ := hsound.runs runId row hrow
    have hrunId : row.record.runId = runId := (Table.get?_eq_some.mp hrow).2
    refine ⟨receipted_of_coherent hcoherent hrunId, hcoherent.validate, ?_⟩
    exact loadScoped_eq_some.mpr ⟨row, hrow, rfl, rfl, hcoherent.validate⟩
  · intro k runId workerId hlast other call reply hother hcall hreply
    obtain ⟨row, hrow, -, hworker⟩ := owner_of_workerCall hcall (exec_step_ok hreply)
    exact hother (owned_of_lastClaim calls hlast row hrow other hworker)
  · rintro runId row hrow hrunning call ⟨scope, workerId, now, record, rfl, hreply, hrun⟩
    obtain ⟨row', hrow', hqueued⟩ := queued_of_claim (exec_step_ok hreply)
    rw [hrun] at hrow'
    obtain rfl := Option.some.inj (hrow.symm.trans hrow')
    rw [hqueued] at hrunning
    cases hrunning

def otherWorker : JobWorkerId := .ofLiteral "other"

/-- The sample goes on: the run is interrupted, resumed and claimed by another worker. -/
def handedOver : List Call :=
  sampleCalls ++
    [.markInterrupted sampleRun sampleScope "stopped" 5, .resume sampleRun sampleScope 6,
      .claimNext sampleScope otherWorker 7]

/-- The run that a reply hands out. -/
def claimedRun (reply : Except OrchestrationStoreError Reply) : Option OrchestrationRunId :=
  match reply with
  | .ok (.claimed record) => record.map OrchestrationRunRecord.runId
  | _ => none

theorem claimedRun_eq_some {reply : Except OrchestrationStoreError Reply}
    (h : claimedRun reply = some runId) :
    ∃ record, reply = .ok (.claimed (some record)) ∧ record.runId = runId := by
  rcases reply with e | (record | found | roles)
  · cases h
  · cases h
  · obtain ⟨record, rfl, hrun⟩ := Option.map_eq_some_iff.mp h
    exact ⟨record, rfl, hrun⟩
  · cases h

theorem handedOver_lastClaim : LastClaim handedOver 6 sampleRun otherWorker := by
  refine ⟨?_, ?_⟩
  · have hreply : claimedRun (store.answer (store.run .empty (handedOver.take 6))
        (.claimNext sampleScope otherWorker 7)) = some sampleRun := by
      decide +kernel
    obtain ⟨record, hok, hrun⟩ := claimedRun_eq_some hreply
    exact ⟨sampleScope, 7, record, ⟨rfl, hok⟩, hrun⟩
  · rintro l w hl ⟨scope, now, record, hanswers, -⟩
    have hlt : l < 7 := hanswers.lt
    omega

/-- The worker that held the run before does not start its roles any more. -/
theorem handedOver_refused :
    ¬ ∃ reply, (exec (dbAfter handedOver)
      (.startReady sampleRun sampleScope sampleWorker 8)).2 = .ok reply := by
  rintro ⟨reply, hreply⟩
  have hne : sampleWorker ≠ otherWorker := by decide
  exact (roles_completed_once handedOver).2.2.1 6 sampleRun otherWorker handedOver_lastClaim
    sampleWorker _ reply hne (Or.inl ⟨sampleScope, 8, rfl⟩) hreply

end Pandora.Orchestration.Receipts
