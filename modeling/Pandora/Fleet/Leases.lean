import Pandora.Fleet.Records

/-! # Nodes, leases and supervisors

The operations of the engine on nodes, leases and supervisors. Each is one immediate transaction: a
function from the database to the database it commits and its answer, or an error, which rolls back.
`renewLease` commits and fails: a lease found past its expiry is marked expired in the transaction
that refuses to renew it. -/

namespace Pandora.Fleet.Leases

open Lib.Checked Lib.Tables Fleet.Records

/-- `ensure_work_permitted`: an expired quiescence is removed, a live one blocks new work. -/
def ensureWorkPermitted (db : FleetDb) (now : ℕ) : Except FleetError FleetDb := do
  let _ ← toI64 now
  let db := { db with quiescence := db.quiescence.filter fun row => now < row.expiresAt }
  ensure (¬ db.quiescence.any fun row => now < row.expiresAt) .quiescenceActive
  return db

theorem ensureWorkPermitted_eq_ok {db db' : FleetDb} {now : ℕ} :
    ensureWorkPermitted db now = .ok db' ↔
      now < 2 ^ 63 ∧ (∀ row, db.quiescence = some row → row.expiresAt ≤ now) ∧
        db' = { db with quiescence := none } := by
  simp only [ensureWorkPermitted, bind_eq_ok, toI64_eq_ok, ensure_eq_ok, pure_eq_ok]
  rcases hq : db.quiescence with _ | row
  · simp [eq_comm]
  · by_cases hlive : now < row.expiresAt
    · simp [hlive]
    · simp [Option.filter, hlive, eq_comm, Nat.le_of_not_lt hlive]

theorem ensureWorkPermitted_held {db : FleetDb} {now : ℕ} {row : QuiescenceRow}
    (hnow : now < 2 ^ 63) (hq : db.quiescence = some row) (hlive : now < row.expiresAt) :
    ensureWorkPermitted db now = .error .quiescenceActive := by
  have hcol : toI64 now = .ok now := toI64_eq_ok.mpr ⟨hnow, rfl⟩
  unfold ensureWorkPermitted
  rw [hcol, hq]
  simp [bind, Except.bind, ensure, hlive]

/-! ## Nodes -/

/-- `register_node`: the node is stored with the state it comes with. -/
def registerNode (db : FleetDb) (node : FleetNode) : Except FleetError (FleetDb × FleetNode) := do
  ensure (db.nodes.rows.length < maxFleetNodes) .fleetNodeLimitExceeded
  let _ ← toI64 node.registeredAt
  let nodes ← orError (db.nodes.insert? node) .nodeAlreadyRegistered
  return ({ db with nodes }, node)

/-- `transition_node`: the node and its active leases change state together. -/
def transitionNode (db : FleetDb) (nodeId : String) (state : FleetNodeState)
    (leaseState : FleetLeaseState) : Except FleetError (FleetDb × Unit) := do
  ensure (db.nodes.get? nodeId).isSome .nodeNotFound
  let nodes := db.nodes.update (·.id = nodeId) (fun node => { node with state }) fun _ _ => rfl
  let leases := db.leases.update (fun lease => lease.nodeId = nodeId ∧ lease.state = .active)
    (fun lease => { lease with state := leaseState }) fun _ _ => rfl
  return ({ db with nodes, leases }, ())

def quarantineNode (db : FleetDb) (nodeId : String) : Except FleetError (FleetDb × Unit) :=
  transitionNode db nodeId .quarantined .revoked

def revokeNode (db : FleetDb) (nodeId : String) : Except FleetError (FleetDb × Unit) :=
  transitionNode db nodeId .revoked .revoked

def killNode (db : FleetDb) (nodeId : String) : Except FleetError (FleetDb × Unit) :=
  transitionNode db nodeId .killed .killed

/-! ## Leases -/

/-- `UPDATE fleet_leases SET state = ? WHERE state = 'active' AND …`. -/
def closeLeases (db : FleetDb) (p : FleetLease → Bool) (state : FleetLeaseState) : FleetDb :=
  let leases := db.leases.update (fun lease => p lease && decide (lease.state = .active))
    (fun lease => { lease with state }) fun _ _ => rfl
  { db with leases }

theorem mem_closeLeases {db : FleetDb} {p : FleetLease → Bool} {state : FleetLeaseState}
    {lease : FleetLease} : lease ∈ (closeLeases db p state).leases ↔ ∃ old ∈ db.leases, lease =
        if p old ∧ old.state = .active then { old with state } else old := by
  simp only [closeLeases, Table.mem_update, Bool.and_eq_true, decide_eq_true_eq]

/-- `active_lease_count`. -/
def activeLeaseCount (db : FleetDb) (nodeId : String) : ℕ :=
  db.leases.rows.countP fun lease => lease.nodeId = nodeId ∧ lease.state = .active

theorem activeLeaseCount_eq_zero {db : FleetDb} {nodeId : String} :
    activeLeaseCount db nodeId = 0 ↔
      ∀ lease ∈ db.leases, lease.nodeId = nodeId → lease.state ≠ .active := by
  simp [activeLeaseCount, List.countP_eq_zero, Table.mem_rows]

/-- A node with a supervisor takes work only while the supervisor runs. -/
def ensureSupervisorAccepts (supervisor : Option FleetSupervisor) : Except FleetError Unit :=
  match supervisor with
  | none => .ok ()
  | some supervisor =>
    ensure (supervisor.state = .running) (.supervisorNotAcceptingWork supervisor.state)

theorem ensureSupervisorAccepts_eq_ok {supervisor : Option FleetSupervisor} {u : Unit} :
    ensureSupervisorAccepts supervisor = .ok u ↔ ∀ s, supervisor = some s → s.state = .running := by
  cases supervisor <;> simp [ensureSupervisorAccepts]

def acquireLease (db : FleetDb) (leaseId nodeId executionId : String) (budget : FleetBudget)
    (now duration : ℕ) : Except FleetError (FleetDb × FleetLease) := do
  ensure (duration ≠ 0) .invalidLeaseDuration
  let leaseId ← validateText "lease ID" leaseId 256
  let nodeId ← validateText "node ID" nodeId 256
  let executionId ← validateText "execution ID" executionId 256
  let expiresAt ← orError (checkedAdd now duration) .invalidLeaseDuration
  let db ← ensureWorkPermitted db now
  ensure (db.leases.rows.length < maxFleetLeases) .fleetLeaseLimitExceeded
  let node ← orError (db.nodes.get? nodeId) .nodeNotFound
  ensure (node.state = .ready) (.nodeUnavailable node.state)
  ensureSupervisorAccepts (db.supervisors.get? nodeId)
  let _ ← toI64 now
  let _ ← toI64 expiresAt
  let lease : FleetLease := ⟨leaseId, nodeId, executionId, budget, now, expiresAt, .active⟩
  let leases ← orError (db.leases.insert? lease) .leaseAlreadyExists
  return ({ db with leases }, lease)

/-- `renew_lease`; the inner result is the answer of a call that commits. -/
def renewLease (db : FleetDb) (leaseId executionId : String) (now duration : ℕ) :
    Except FleetError (FleetDb × Except FleetError FleetLease) := do
  ensure (duration ≠ 0) .invalidLeaseDuration
  let executionId ← validateText "execution ID" executionId 256
  let expiresAt ← orError (checkedAdd now duration) .invalidLeaseDuration
  let db ← ensureWorkPermitted db now
  let lease ← orError (db.leases.get? leaseId) .leaseNotFound
  ensure (lease.state = .active) (.leaseNotActive lease.state)
  ensure (lease.executionId = executionId) .leaseExecutionMismatch
  if lease.expiresAt ≤ now then
    return (closeLeases db (fun lease => lease.id = leaseId) .expired,
      .error (.leaseNotActive .expired))
  else
    let _ ← toI64 expiresAt
    let leases := db.leases.update
      (fun lease => lease.id = leaseId ∧ lease.state = .active ∧ lease.executionId = executionId)
      (fun lease => { lease with expiresAt }) fun _ _ => rfl
    let renewed ← orError (leases.get? leaseId) .database
    return ({ db with leases }, .ok renewed)

/-- `transition_lease`. -/
def transitionLease (db : FleetDb) (leaseId : String) (state : FleetLeaseState) :
    Except FleetError (FleetDb × FleetLease) := do
  let current ← orError (db.leases.get? leaseId) .leaseNotFound
  ensure (current.state = .active) (.leaseNotActive current.state)
  let db := closeLeases db (fun lease => lease.id = leaseId) state
  let lease ← orError (db.leases.get? leaseId) .database
  return (db, lease)

def releaseLease (db : FleetDb) (leaseId : String) : Except FleetError (FleetDb × FleetLease) :=
  transitionLease db leaseId .released

def expireLeases (db : FleetDb) (now : ℕ) : Except FleetError (FleetDb × ℕ) := do
  let _ ← toI64 now
  let changed := db.leases.rows.countP fun lease => lease.expiresAt ≤ now ∧ lease.state = .active
  return (closeLeases db (fun lease => lease.expiresAt ≤ now) .expired, changed)

/-! ## Supervisors -/

/-- `save_supervisor`: the record replaces the one of its node. -/
def saveSupervisor (db : FleetDb) (supervisor : FleetSupervisor) : Except FleetError FleetDb := do
  let _ ← toI64 supervisor.generation
  let _ ← toI64 supervisor.updatedAt
  ensure (0 < supervisor.generation) .database
  return { db with supervisors := db.supervisors.upsert supervisor }

/-- `load_supervisor`, for an operation that needs the record. -/
def loadSupervisor (db : FleetDb) (nodeId : String) : Except FleetError FleetSupervisor :=
  orError (db.supervisors.get? nodeId) .supervisorNotFound

/-- The leases of a node past their expiry are expired. -/
def expireNodeLeases (db : FleetDb) (nodeId : String) (now : ℕ) : Except FleetError FleetDb := do
  let _ ← toI64 now
  return closeLeases db (fun lease => lease.nodeId = nodeId ∧ lease.expiresAt ≤ now) .expired

/-- `heartbeat_supervisor_with_process`. -/
def heartbeatSupervisor (db : FleetDb) (nodeId : String) (processId : Option ℕ) (now : ℕ) :
    Except FleetError (FleetDb × FleetSupervisor) := do
  let nodeId ← validateText "node ID" nodeId 256
  let current ← loadSupervisor db nodeId
  ensure (current.state = .running) (.invalidSupervisorTransition current.state "heartbeat")
  ensure (processId = none ∨ current.processId = processId) .supervisorProcessMismatch
  let supervisor := { current with reason := some "worker_heartbeat", updatedAt := now }
  let db ← saveSupervisor db supervisor
  return (db, supervisor)

def reconcileSupervisor (db : FleetDb) (nodeId : String) (now staleAfter : ℕ) :
    Except FleetError (FleetDb × FleetSupervisor) := do
  ensure (staleAfter ≠ 0) .invalidSupervisorStaleness
  let nodeId ← validateText "node ID" nodeId 256
  let current ← loadSupervisor db nodeId
  if current.state ≠ .running ∨ now - current.updatedAt ≤ staleAfter then
    return (db, current)
  else
    let db ← expireNodeLeases db nodeId now
    let supervisor := { current with
      state := .recovering, reason := some "heartbeat_expired", updatedAt := now }
    let db ← saveSupervisor db supervisor
    return (db, supervisor)

/-- The loop of `reap_stale_supervisors`: one transaction for each stale record, until one fails. -/
def reconcileAll (now staleAfter : ℕ) : FleetDb → List FleetSupervisor →
    FleetDb × Except FleetError (List FleetSupervisor)
  | db, [] => (db, .ok [])
  | db, stale :: rest =>
    match reconcileSupervisor db stale.nodeId now staleAfter with
    | .error e => (db, .error e)
    | .ok (db, supervisor) =>
      let (db, result) := reconcileAll now staleAfter db rest
      (db, result.map (supervisor :: ·))

def reapStaleSupervisors (db : FleetDb) (now staleAfter : ℕ) :
    FleetDb × Except FleetError (List FleetSupervisor) :=
  if staleAfter = 0 then (db, .error .invalidSupervisorStaleness)
  else reconcileAll now staleAfter db
    ((db.supervisors.rows.insertionSort fun a b => a.nodeId ≤ b.nodeId).filter fun supervisor =>
      supervisor.state = .running ∧ staleAfter < now - supervisor.updatedAt)

/-- The first half of a restart: a stale running record is recovered, a stopped or recovering one is
taken as it is. -/
def recoverForRestart (db : FleetDb) (current : FleetSupervisor) (nodeId : String)
    (now staleAfter : ℕ) : Except FleetError (FleetDb × FleetSupervisor) :=
  match current.state with
  | .running => do
    ensure (staleAfter < now - current.updatedAt) .supervisorNotStale
    let db ← expireNodeLeases db nodeId now
    return (db, { current with
      state := .recovering, reason := some "heartbeat_expired", updatedAt := now })
  | .stopped | .recovering => .ok (db, current)
  | .draining => .error (.invalidSupervisorTransition .draining "restart")

/-- `restart_supervisor_for_process`. -/
def restartSupervisor (db : FleetDb) (nodeId : String) (processId now staleAfter : ℕ) :
    Except FleetError (FleetDb × FleetSupervisor) := do
  ensure (staleAfter ≠ 0) .invalidSupervisorStaleness
  let nodeId ← validateText "node ID" nodeId 256
  let node ← orError (db.nodes.get? nodeId) .nodeNotFound
  ensure (node.state = .ready) (.nodeUnavailable node.state)
  let current ← loadSupervisor db nodeId
  let (db, current) ← recoverForRestart db current nodeId now staleAfter
  let db ← saveSupervisor db current
  ensure (activeLeaseCount db nodeId = 0) .activeLeasesPresent
  let generation ← orError (checkedAdd current.generation 1) .corruptRecord
  let supervisor : FleetSupervisor :=
    ⟨nodeId, .running, generation, some processId, some "operator_restart", now⟩
  let db ← saveSupervisor db supervisor
  return (db, supervisor)

/-- The generation a started supervisor gets. -/
def startGeneration (db : FleetDb) (nodeId : String) : Except FleetError ℕ :=
  match db.supervisors.get? nodeId with
  | none => .ok 1
  | some current =>
    match current.state with
    | .running => .error .supervisorAlreadyRunning
    | .draining => .error (.invalidSupervisorTransition .draining "start")
    | .stopped | .recovering => do
      ensure (activeLeaseCount db nodeId = 0) .activeLeasesPresent
      orError (checkedAdd current.generation 1) .corruptRecord

/-- `start_supervisor_with_process`. -/
def startSupervisor (db : FleetDb) (nodeId : String) (processId : Option ℕ) (now : ℕ) :
    Except FleetError (FleetDb × FleetSupervisor) := do
  let nodeId ← validateText "node ID" nodeId 256
  let node ← orError (db.nodes.get? nodeId) .nodeNotFound
  ensure (node.state = .ready) (.nodeUnavailable node.state)
  let generation ← startGeneration db nodeId
  let supervisor : FleetSupervisor := ⟨nodeId, .running, generation, processId, none, now⟩
  let db ← saveSupervisor db supervisor
  return (db, supervisor)

def drainSupervisor (db : FleetDb) (nodeId : String) (now : ℕ) :
    Except FleetError (FleetDb × FleetSupervisor) := do
  let nodeId ← validateText "node ID" nodeId 256
  let current ← loadSupervisor db nodeId
  ensure (current.state = .running) (.invalidSupervisorTransition current.state "drain")
  let supervisor := { current with
    state := .draining, reason := some "operator_draining", updatedAt := now }
  let db ← saveSupervisor db supervisor
  return (db, supervisor)

def stopSupervisor (db : FleetDb) (nodeId : String) (now : ℕ) :
    Except FleetError (FleetDb × FleetSupervisor) := do
  let nodeId ← validateText "node ID" nodeId 256
  let current ← loadSupervisor db nodeId
  ensure (current.state = .draining ∨ current.state = .recovering)
    (.invalidSupervisorTransition current.state "stop")
  ensure (activeLeaseCount db nodeId = 0) .activeLeasesPresent
  let supervisor := { current with
    state := .stopped, reason := some "operator_stopped", updatedAt := now }
  let db ← saveSupervisor db supervisor
  return (db, supervisor)

/-- `shutdown_supervisor_for_process`. -/
def shutdownSupervisor (db : FleetDb) (nodeId : String) (processId : ℕ) (leaseId : String)
    (now : ℕ) : Except FleetError (FleetDb × FleetSupervisor) := do
  let nodeId ← validateText "node ID" nodeId 256
  let leaseId ← validateText "lease ID" leaseId 256
  let current ← loadSupervisor db nodeId
  ensure (current.processId = some processId) .supervisorProcessMismatch
  let lease ← orError (db.leases.get? leaseId) .leaseNotFound
  ensure (lease.nodeId = nodeId) .leaseExecutionMismatch
  let db := closeLeases db (fun lease => lease.id = leaseId) .released
  ensure (activeLeaseCount db nodeId = 0) .activeLeasesPresent
  if current.state = .stopped then
    return (db, current)
  else
    let supervisor := { current with
      state := .stopped, reason := some "process_shutdown", updatedAt := now }
    let db ← saveSupervisor db supervisor
    return (db, supervisor)

def recoverSupervisor (db : FleetDb) (nodeId : String) (now : ℕ) :
    Except FleetError (FleetDb × FleetSupervisor) := do
  let nodeId ← validateText "node ID" nodeId 256
  let current ← loadSupervisor db nodeId
  let db ← expireNodeLeases db nodeId now
  let supervisor := { current with
    state := .recovering, reason := some "operator_recovery", updatedAt := now }
  let db ← saveSupervisor db supervisor
  return (db, supervisor)

end Pandora.Fleet.Leases
