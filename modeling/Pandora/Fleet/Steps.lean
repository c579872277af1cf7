import Pandora.Fleet.Engine

/-! # What a request can do to the database

`Change req` is the abstract machine of the fleet: the changes of single tables that the engine
makes, each with the condition under which it is made. It says nothing about how a call is checked
or answered.

**Refinement** (`exec_changes`): every request is a sequence of such changes. A property that each
change keeps is therefore kept by every request, and by every run (`dbAfter_keeps`,
`run_keeps_pair`); the results about leases, fences and quiescence are proved over changes and never
look into a call. -/

namespace Pandora.Fleet.Steps

open Lib.Checked Lib.Tables Text Fleet.Records Fleet.Leases Fleet.Fences Fleet.Engine Table

/-- The fence an operation row is bound to is live as far as the row records it, and outlasts it. -/
def Covers (fence : FenceRow) (op : FenceOperationRow) : Prop :=
  fence.state = .active ∧ fence.ownerId = op.fenceOwnerId ∧ fence.generation = op.fenceGeneration ∧
    fence.tokenHash = op.fenceTokenHash ∧ fence.issuedAt = op.fenceIssuedAt ∧
    op.expiresAt ≤ fence.expiresAt

theorem node_kept (state : FleetNodeState) (node : FleetNode) : { node with state }.id = node.id :=
  rfl

theorem lease_kept (state : FleetLeaseState) (lease : FleetLease) :
    { lease with state }.id = lease.id :=
  rfl

/-- A node changes state and its active leases end. -/
def withdrawNode (db : FleetDb) (nodeId : String) (state : FleetNodeState)
    (leaseState : FleetLeaseState) : FleetDb :=
  { db with
    nodes := db.nodes.update (·.id = nodeId) (fun node => { node with state })
      fun node _ => node_kept state node
    leases := db.leases.update (fun lease => lease.nodeId = nodeId ∧ lease.state = .active)
      (fun lease => { lease with state := leaseState }) fun lease _ => lease_kept leaseState lease }

variable {db : FleetDb} {nodeId : String} {state : FleetNodeState} {leaseState : FleetLeaseState}

theorem mem_withdrawNode_nodes {node : FleetNode} :
    node ∈ (withdrawNode db nodeId state leaseState).nodes ↔
      ∃ old ∈ db.nodes, node = if old.id = nodeId then { old with state } else old := by
  simp only [withdrawNode, mem_update, decide_eq_true_eq]

theorem mem_withdrawNode_leases {lease : FleetLease} :
    lease ∈ (withdrawNode db nodeId state leaseState).leases ↔ ∃ old ∈ db.leases, lease =
        if old.nodeId = nodeId ∧ old.state = .active then { old with state := leaseState }
        else old := by
  simp only [withdrawNode, mem_update, decide_eq_true_eq]

/-- The expiry of some leases moves. -/
def extendLeases (db : FleetDb) (p : FleetLease → Bool) (expiresAt : ℕ) : FleetDb :=
  let leases := db.leases.update p (fun lease => { lease with expiresAt }) fun _ _ => rfl
  { db with leases }

variable {expiresAt : ℕ}

theorem mem_extendLeases {p : FleetLease → Bool} {lease : FleetLease} :
    lease ∈ (extendLeases db p expiresAt).leases ↔
      ∃ old ∈ db.leases, lease = if p old then { old with expiresAt } else old := by
  simp only [extendLeases, mem_update]

/-- The expiry of a fence moves. -/
def extendFence (db : FleetDb) (key : String) (generation expiresAt : ℕ) : FleetDb :=
  let fences := db.fences.update
    (fun row => row.fenceKey = key ∧ row.generation = generation ∧ row.state = .active)
    (fun row => { row with expiresAt }) fun _ _ => rfl
  { db with fences }

theorem mem_extendFence {key : String} {generation : ℕ} {row : FenceRow} :
    row ∈ (extendFence db key generation expiresAt).fences ↔ ∃ old ∈ db.fences, row =
        if old.fenceKey = key ∧ old.generation = generation ∧ old.state = .active
        then { old with expiresAt } else old := by
  simp only [extendFence, mem_update, decide_eq_true_eq]

/-- An operation is renewed. -/
def extendOperation (db : FleetDb) (hash : Bytes32) (now expiresAt : ℕ) : FleetDb :=
  let operations := db.operations.update (fun row => row.operationHash = hash)
    (fun row => { row with lastRenewedAt := now, expiresAt }) fun _ _ => rfl
  { db with operations }

variable {now : ℕ}

theorem mem_extendOperation {hash : Bytes32}
    {row : FenceOperationRow} : row ∈ (extendOperation db hash now expiresAt).operations ↔
      ∃ old ∈ db.operations, row =
        if old.operationHash = hash then { old with lastRenewedAt := now, expiresAt } else old := by
  simp only [extendOperation, mem_update, decide_eq_true_eq]

/-- **One change** made by a request. -/
inductive Change (req : GuardRequest) : FleetDb → FleetDb → Prop
  | nodeRegistered {db : FleetDb} {nodes : Table FleetNode.id} (node : FleetNode)
      (hins : db.nodes.insert? node = some nodes) : Change req db { db with nodes }
  | nodeWithdrawn {db : FleetDb} (nodeId : String) {state : FleetNodeState}
      {leaseState : FleetLeaseState} (hlease : leaseState ≠ .active) :
      Change req db (withdrawNode db nodeId state leaseState)
  | leasesClosed {db : FleetDb} (p : FleetLease → Bool) {state : FleetLeaseState}
      (hstate : state ≠ .active) : Change req db (closeLeases db p state)
  | leasesExtended {db : FleetDb} (p : FleetLease → Bool) (expiresAt : ℕ) :
      Change req db (extendLeases db p expiresAt)
  | leaseGranted {db : FleetDb} {leases : Table FleetLease.id} {lease : FleetLease}
    {node : FleetNode} (hins : db.leases.insert? lease = some leases)
      (hnode : db.nodes.get? lease.nodeId = some node) (hready : node.state = .ready)
      (hsup : ∀ s, db.supervisors.get? lease.nodeId = some s → s.state = .running)
      (hquiet : db.quiescence = none) : Change req db { db with leases }
  | supervisorSaved {db : FleetDb} (supervisor : FleetSupervisor)
      (hidle : supervisor.state = .stopped →
        ∀ lease ∈ db.leases, lease.nodeId = supervisor.nodeId → lease.state ≠ .active) :
      Change req db { db with supervisors := db.supervisors.upsert supervisor }
  | quiescenceLapsed {db : FleetDb} {t : ℕ} (ht : t = req.now ∨ req.clock = some t)
      (hlapsed : ∀ row, db.quiescence = some row → row.expiresAt ≤ t) :
      Change req db { db with quiescence := none }
  | quiescenceDropped {db : FleetDb} {guard : FleetQuiescenceGuard}
      (hcall : req.call = .dropQuiescence guard) : Change req db (dropQuiescence db guard)
  | quiescenceGranted {db : FleetDb} {owner : String} {duration t : ℕ}
      (hcall : req.call = .acquireQuiescence owner duration) (hclock : req.clock = some t)
      (hnone : db.quiescence = none) (hleases : ∀ lease ∈ db.leases, lease.state ≠ .active)
      (hops : ∀ op ∈ db.operations, op.expiresAt ≤ t) (hfits : req.now + duration < 2 ^ 63) :
      Change req db { db with quiescence := some ⟨trim owner, req.now, req.now + duration⟩ }
  | fenceInstalled {db : FleetDb} (row : FenceRow)
      (hfree : ∀ op ∈ db.operations, op.fenceKey ≠ row.fenceKey)
      (hgen : ∀ old, db.fences.get? row.fenceKey = some old → row.generation = old.generation + 1) :
      Change req db { db with fences := db.fences.upsert row }
  | fenceClosed {db : FleetDb} {key : String} (p : FenceRow → Bool) (state : FleetFenceState)
      (hfree : ∀ op ∈ db.operations, op.fenceKey ≠ key) : Change req db (closeFence db key p state)
  | fenceExtended {db : FleetDb} {key : String} (generation : ℕ) {expiresAt : ℕ}
      (hops : ∀ op ∈ db.operations, op.fenceKey = key → op.expiresAt < expiresAt) :
      Change req db (extendFence db key generation expiresAt)
  | operationGranted {db : FleetDb} {row : FenceOperationRow}
      {operations : Table FenceOperationRow.operationHash} {fence : FenceRow}
      (hins : db.operations.insert? row = some operations)
      (hfence : db.fences.get? row.fenceKey = some fence) (hcov : Covers fence row)
      (hfree : ∀ op ∈ db.operations, op.fenceKey ≠ row.fenceKey) (hquiet : db.quiescence = none)
      (hclock : req.clock = some row.acquiredAt) : Change req db { db with operations }
  | operationExtended {db : FleetDb} {guard : FenceOperationGuard} {duration t : ℕ}
      {row : FenceOperationRow} {fence : FenceRow}
      (hcall : req.call = .renewFenceOperation guard duration) (hclock : req.clock = some t)
      (hrow : row ∈ db.operations) (hhash : row.operationHash = guard.operationHash)
      (hbind : Binds guard row) (hfence : db.fences.get? row.fenceKey = some fence)
      (hle : t + duration ≤ fence.expiresAt) (hlt : t < t + duration) :
      Change req db (extendOperation db guard.operationHash t (t + duration))
  | operationReleased {db : FleetDb} {guard : FenceOperationGuard} {row : FenceOperationRow}
      (hcall : req.call = .releaseFenceOperation guard) (hrow : row ∈ db.operations)
      (hhash : row.operationHash = guard.operationHash) (hbind : Binds guard row) :
      Change req db { db with
        operations := db.operations.delete fun row => row.operationHash = guard.operationHash }
  | operationsReaped {db : FleetDb} {t : ℕ} (p : FenceOperationRow → Bool)
      (hclock : req.clock = some t) (hexp : ∀ op ∈ db.operations, p op = true → op.expiresAt ≤ t) :
      Change req db { db with operations := db.operations.delete p }

/-- A sequence of changes made by one request. -/
def Changes (req : GuardRequest) : FleetDb → FleetDb → Prop := Relation.ReflTransGen (Change req)

namespace Changes

variable {req : GuardRequest} {db db₁ db₂ : FleetDb}

theorem refl : Changes req db db := Relation.ReflTransGen.refl

theorem one (h : Change req db db₁) : Changes req db db₁ := Relation.ReflTransGen.single h

theorem snoc (h : Changes req db db₁) (hlast : Change req db₁ db₂) : Changes req db db₂ :=
  Relation.ReflTransGen.tail h hlast

theorem trans (h : Changes req db db₁) (h' : Changes req db₁ db₂) : Changes req db db₂ :=
  Relation.ReflTransGen.trans h h'

theorem keeps {P : FleetDb → Prop} (h : Changes req db db₁)
    (hchange : ∀ {a b}, Change req a b → P a → P b) (hdb : P db) : P db₁ := by
  induction h with
  | refl => exact hdb
  | tail _ hlast ih => exact hchange hlast ih

end Changes

/-! ## The operations are sequences of changes -/

section Refinement

variable {req : GuardRequest} {db db' : FleetDb}

/-! ### Nodes and leases -/

theorem permitted_changes {t : ℕ} (ht : t = req.now ∨ req.clock = some t)
    (h : ensureWorkPermitted db t = .ok db') : Changes req db db' := by
  obtain ⟨-, hlapsed, rfl⟩ := ensureWorkPermitted_eq_ok.mp h
  exact .one (.quiescenceLapsed ht hlapsed)

theorem registerNode_changes {node n : FleetNode} (h : registerNode db node = .ok (db', n)) :
    Changes req db db' := by
  simp only [registerNode, bind_eq_ok, ensure_eq_ok, orError_eq_ok, pure_eq_ok, Prod.mk.injEq] at h
  obtain ⟨-, -, -, -, nodes, hins, rfl, -⟩ := h
  exact .one (.nodeRegistered node hins)

variable {u : Unit}

theorem transitionNode_changes (hlease : leaseState ≠ .active)
    (h : transitionNode db nodeId state leaseState = .ok (db', u)) : Changes req db db' := by
  simp only [transitionNode, bind_eq_ok, ensure_eq_ok, pure_eq_ok, Prod.mk.injEq] at h
  obtain ⟨-, -, rfl, -⟩ := h
  exact .one (.nodeWithdrawn nodeId hlease)

variable {leaseId : String}

theorem acquireLease_changes {executionId : String} {budget : FleetBudget}
    {duration : ℕ} {l : FleetLease}
    (h : acquireLease db leaseId nodeId executionId budget req.now duration = .ok (db', l)) :
    Changes req db db' := by
  simp only [acquireLease, bind_eq_ok, ensure_eq_ok, orError_eq_ok, pure_eq_ok, Prod.mk.injEq] at h
  obtain ⟨-, -, lid, -, nid, -, eid, -, expiresAt, -, db₁, hperm, -, -, node, hnode, -, hready,
    ⟨⟩, hsup, -, -, -, -, leases, hins, rfl, -⟩ := h
  refine (permitted_changes (Or.inl rfl) hperm).snoc (.leaseGranted hins hnode hready ?_ ?_)
  · exact ensureSupervisorAccepts_eq_ok.mp hsup
  · obtain ⟨-, -, rfl⟩ := ensureWorkPermitted_eq_ok.mp hperm
    rfl

theorem renewLease_changes {executionId : String} {duration : ℕ}
    {result : Except FleetError FleetLease}
    (h : renewLease db leaseId executionId req.now duration = .ok (db', result)) :
    Changes req db db' := by
  simp only [renewLease, bind_eq_ok, ensure_eq_ok, orError_eq_ok] at h
  obtain ⟨-, -, eid, -, expiresAt, -, db₁, hperm, lease, -, -, -, -, -, h⟩ := h
  have hfirst := permitted_changes (Or.inl rfl) hperm
  split_ifs at h with hexp
  · simp only [pure_eq_ok, Prod.mk.injEq] at h
    obtain ⟨rfl, -⟩ := h
    exact hfirst.snoc (.leasesClosed _ (by simp))
  · simp only [bind_eq_ok, orError_eq_ok, pure_eq_ok, Prod.mk.injEq] at h
    obtain ⟨-, -, renewed, -, rfl, -⟩ := h
    exact hfirst.snoc (.leasesExtended _ expiresAt)

theorem transitionLease_changes {state : FleetLeaseState} {l : FleetLease}
    (hstate : state ≠ .active) (h : transitionLease db leaseId state = .ok (db', l)) :
    Changes req db db' := by
  simp only [transitionLease, bind_eq_ok, ensure_eq_ok, orError_eq_ok, pure_eq_ok,
    Prod.mk.injEq] at h
  obtain ⟨-, -, -, -, lease, -, rfl, -⟩ := h
  exact .one (.leasesClosed _ hstate)

theorem expireLeases_changes {n : ℕ} (h : expireLeases db req.now = .ok (db', n)) :
    Changes req db db' := by
  simp only [expireLeases, bind_eq_ok, pure_eq_ok, Prod.mk.injEq] at h
  obtain ⟨-, -, rfl, -⟩ := h
  exact .one (.leasesClosed _ (by simp))

/-! ### Supervisors -/

variable {s : FleetSupervisor}

theorem saveSupervisor_changes
    (hidle : s.state = .stopped → ∀ lease ∈ db.leases, lease.nodeId = s.nodeId →
      lease.state ≠ .active)
    (h : saveSupervisor db s = .ok db') : Changes req db db' := by
  simp only [saveSupervisor, bind_eq_ok, pure_eq_ok] at h
  obtain ⟨-, -, -, -, -, -, rfl⟩ := h
  exact .one (.supervisorSaved s hidle)

theorem expireNodeLeases_changes
    (h : expireNodeLeases db nodeId now = .ok db') : Changes req db db' := by
  simp only [expireNodeLeases, bind_eq_ok, pure_eq_ok] at h
  obtain ⟨-, -, rfl⟩ := h
  exact .one (.leasesClosed _ (by simp))

theorem heartbeatSupervisor_changes {processId : Option ℕ}
    (h : heartbeatSupervisor db nodeId processId now = .ok (db', s)) :
    Changes req db db' := by
  simp only [heartbeatSupervisor, bind_eq_ok, ensure_eq_ok, pure_eq_ok, Prod.mk.injEq] at h
  obtain ⟨nid, -, current, -, -, hrun, -, -, db₁, hsave, rfl, -⟩ := h
  exact saveSupervisor_changes (fun hstop => by simp [hrun] at hstop) hsave

variable {staleAfter : ℕ}

theorem reconcileSupervisor_changes
    (h : reconcileSupervisor db nodeId now staleAfter = .ok (db', s)) : Changes req db db' := by
  simp only [reconcileSupervisor, bind_eq_ok, ensure_eq_ok] at h
  obtain ⟨-, -, nid, -, current, -, h⟩ := h
  split_ifs at h
  · simp only [pure_eq_ok, Prod.mk.injEq] at h
    obtain ⟨rfl, -⟩ := h
    exact .refl
  · simp only [bind_eq_ok, pure_eq_ok, Prod.mk.injEq] at h
    obtain ⟨db₁, hexp, db₂, hsave, rfl, -⟩ := h
    exact (expireNodeLeases_changes hexp).trans (saveSupervisor_changes (by simp) hsave)

theorem reconcileAll_changes : ∀ (stale : List FleetSupervisor) {db : FleetDb},
    Changes req db (reconcileAll now staleAfter db stale).1
  | [], _ => .refl
  | s :: stale, db => by
    unfold reconcileAll
    rcases h : reconcileSupervisor db s.nodeId now staleAfter with e | ⟨db₁, s'⟩
    · exact .refl
    · exact (reconcileSupervisor_changes h).trans (reconcileAll_changes stale)

theorem reapStaleSupervisors_changes :
    Changes req db (reapStaleSupervisors db now staleAfter).1 := by
  unfold reapStaleSupervisors
  split_ifs
  · exact .refl
  · exact reconcileAll_changes _

theorem loadSupervisor_eq_ok (h : loadSupervisor db nodeId = .ok s) : s.nodeId = nodeId := by
  rw [loadSupervisor, orError_eq_ok] at h
  exact (Table.get?_eq_some.mp h).2

/-- The check that lets a record be saved as stopped, made before or after other records are
saved. -/
theorem idle_of_count (h : activeLeaseCount db nodeId = 0) (hsame : db'.leases = db.leases) :
    ∀ lease ∈ db'.leases, lease.nodeId = nodeId → lease.state ≠ .active := by
  rw [hsame]; exact activeLeaseCount_eq_zero.mp h

theorem saveSupervisor_leases (h : saveSupervisor db s = .ok db') :
    db'.leases = db.leases := by
  simp only [saveSupervisor, bind_eq_ok, pure_eq_ok] at h
  obtain ⟨-, -, -, -, -, -, rfl⟩ := h
  rfl

theorem restartSupervisor_changes {processId : ℕ}
    (h : restartSupervisor db nodeId processId now staleAfter = .ok (db', s)) :
    Changes req db db' := by
  simp only [restartSupervisor, bind_eq_ok, ensure_eq_ok, orError_eq_ok, pure_eq_ok,
    Prod.mk.injEq] at h
  obtain ⟨-, -, nid, -, node, -, -, -, current, hload, ⟨db₁, cur⟩, hcur, db₂, hsave, -, hidle,
    generation, -, db₃, hlast, rfl, -⟩ := h
  have hcurrent := loadSupervisor_eq_ok hload
  -- The first record that is saved may be a stopped one: the leases are counted only after it, but
  -- they are the same.
  have hidle₁ := idle_of_count hidle (saveSupervisor_leases hsave).symm
  have hstart : Changes req db db₁ ∧ cur.nodeId = nid := by
    unfold recoverForRestart at hcur
    split at hcur
    · simp only [bind_eq_ok, ensure_eq_ok, pure_eq_ok, Prod.mk.injEq] at hcur
      obtain ⟨-, -, db₀, hexp, rfl, rfl⟩ := hcur
      exact ⟨expireNodeLeases_changes hexp, hcurrent⟩
    case h_2 | h_3 =>
      simp only [Except.ok.injEq, Prod.mk.injEq] at hcur
      obtain ⟨rfl, rfl⟩ := hcur
      exact ⟨.refl, hcurrent⟩
    · simp at hcur
  obtain ⟨hfirst, hnode⟩ := hstart
  have hsecond : Changes req db₁ db₂ := saveSupervisor_changes (fun _ => by rwa [hnode]) hsave
  exact (hfirst.trans hsecond).trans (saveSupervisor_changes (by simp) hlast)

theorem startSupervisor_changes {processId : Option ℕ}
    (h : startSupervisor db nodeId processId now = .ok (db', s)) :
    Changes req db db' := by
  simp only [startSupervisor, bind_eq_ok, pure_eq_ok, Prod.mk.injEq] at h
  obtain ⟨nid, -, node, -, -, -, generation, -, db₁, hsave, rfl, -⟩ := h
  exact saveSupervisor_changes (by simp) hsave

theorem drainSupervisor_changes
    (h : drainSupervisor db nodeId now = .ok (db', s)) : Changes req db db' := by
  simp only [drainSupervisor, bind_eq_ok, pure_eq_ok, Prod.mk.injEq] at h
  obtain ⟨nid, -, current, -, -, -, db₁, hsave, rfl, -⟩ := h
  exact saveSupervisor_changes (by simp) hsave

theorem stopSupervisor_changes
    (h : stopSupervisor db nodeId now = .ok (db', s)) : Changes req db db' := by
  simp only [stopSupervisor, bind_eq_ok, ensure_eq_ok, pure_eq_ok, Prod.mk.injEq] at h
  obtain ⟨nid, -, current, hload, -, -, -, hidle, db₁, hsave, rfl, -⟩ := h
  refine saveSupervisor_changes (fun _ => ?_) hsave
  rw [loadSupervisor_eq_ok hload]
  exact idle_of_count hidle rfl

theorem shutdownSupervisor_changes {processId : ℕ}
    (h : shutdownSupervisor db nodeId processId leaseId now = .ok (db', s)) :
    Changes req db db' := by
  simp only [shutdownSupervisor, bind_eq_ok, ensure_eq_ok] at h
  obtain ⟨nid, -, lid, -, current, hload, -, -, lease, -, -, -, -, hidle, h⟩ := h
  have hfirst : Changes req db (closeLeases db (fun lease => lease.id = lid) .released) :=
    .one (.leasesClosed _ (by simp))
  split_ifs at h with hstop
  · simp only [pure_eq_ok, Prod.mk.injEq] at h
    obtain ⟨rfl, -⟩ := h
    exact hfirst
  · simp only [bind_eq_ok, pure_eq_ok, Prod.mk.injEq] at h
    obtain ⟨db₁, hsave, rfl, -⟩ := h
    refine hfirst.trans (saveSupervisor_changes (fun _ => ?_) hsave)
    rw [loadSupervisor_eq_ok hload]
    exact idle_of_count hidle rfl

theorem recoverSupervisor_changes
    (h : recoverSupervisor db nodeId now = .ok (db', s)) : Changes req db db' := by
  simp only [recoverSupervisor, bind_eq_ok, pure_eq_ok, Prod.mk.injEq] at h
  obtain ⟨nid, -, current, -, db₁, hexp, db₂, hsave, rfl, -⟩ := h
  exact (expireNodeLeases_changes hexp).trans (saveSupervisor_changes (by simp) hsave)

/-! ### Fences -/

variable (sha : Sha256)

theorem permitted_none {t : ℕ} (h : ensureWorkPermitted db t = .ok db') :
    db'.quiescence = none := by
  obtain ⟨-, -, rfl⟩ := ensureWorkPermitted_eq_ok.mp h
  rfl

variable {fence : FleetLeaseFence}

theorem acquireFence_changes {key ownerId : String} {duration : ℕ}
    (h : acquireFence sha db key ownerId req.now duration req.clock req.random = .ok (db', fence)) :
    Changes req db db' := by
  simp only [acquireFence, acquireFenceAt, bind_eq_ok, ensure_eq_ok, orError_eq_ok, pure_eq_ok,
    Prod.mk.injEq] at h
  obtain ⟨t, -, -, -, k, -, o, -, expiresAt, -, token, -, db₁, hperm, ⟨⟩, hblock, generation,
    hgen, -, -, -, -, -, -, rfl, -⟩ := h
  refine (permitted_changes (Or.inl rfl) hperm).snoc
    (.fenceInstalled _ (blockFenceMutation_ok hblock) ?_)
  intro old hold
  exact (nextGeneration_ok hgen hold).1

theorem invalidateFence_changes {key ownerId : String} {b : Bool}
    (h : invalidateFence db key ownerId req.clock = .ok (db', b)) : Changes req db db' := by
  simp only [invalidateFence, invalidateFenceAt, bind_eq_ok] at h
  obtain ⟨t, -, k, -, o, -, ⟨⟩, hblock, h⟩ := h
  split at h
  · simp only [pure_eq_ok, Prod.mk.injEq] at h
    obtain ⟨rfl, -⟩ := h
    exact .refl
  · simp only [bind_eq_ok, pure_eq_ok, Prod.mk.injEq] at h
    obtain ⟨-, -, -, -, rfl, -⟩ := h
    exact .one (.fenceClosed _ _ (blockFenceMutation_ok hblock))

theorem renewFence_changes {fence' : FleetLeaseFence} {duration : ℕ}
    (h : renewFence sha db fence req.now duration req.clock = .ok (db', fence')) :
    Changes req db db' := by
  simp only [renewFence, renewFenceAt, bind_eq_ok, pure_eq_ok, Prod.mk.injEq] at h
  obtain ⟨t, -, -, -, expiresAt, -, operation, hop, ⟨⟩, hbeyond, -, -, -, -, -, -, rfl, -⟩ := h
  refine .one (.fenceExtended fence.generation fun op hmem hkey => ?_)
  rcases operation with _ | operation
  · exact absurd hkey (operationForFence_none hop op hmem)
  · rw [(operationForFence_some hop).2 op hmem hkey]
    exact ensure_eq_ok.mp hbeyond

theorem assertFence_changes
    (h : assertFence sha db fence req.now = .ok (db', u)) : Changes req db db' := by
  simp only [assertFence, bind_eq_ok, pure_eq_ok, Prod.mk.injEq] at h
  obtain ⟨-, -, rfl, -⟩ := h
  exact .refl

theorem releaseFence_changes
    (h : releaseFence sha db fence req.now req.clock = .ok (db', u)) : Changes req db db' := by
  simp only [releaseFence, releaseFenceAt, bind_eq_ok, pure_eq_ok, Prod.mk.injEq] at h
  obtain ⟨t, -, ⟨⟩, hblock, -, -, -, -, rfl, -⟩ := h
  exact .one (.fenceClosed _ _ (blockFenceMutation_ok hblock))

/-- The loop writes fences only: what was checked before it still holds at each of its steps. -/
theorem expireEach_changes : ∀ (keys : List String) {db : FleetDb},
    (∀ key ∈ keys, ∀ op ∈ db.operations, op.fenceKey ≠ key) →
      Changes req db (expireEach now db keys)
  | [], _, _ => .refl
  | key :: keys, db, hfree => by
    have hone := hfree key (by simp)
    have hrest : ∀ k ∈ keys, ∀ op ∈ db.operations, op.fenceKey ≠ k :=
      fun k hk => hfree k (by simp [hk])
    refine (Changes.one (.fenceClosed (fun row => row.expiresAt ≤ now) .expired hone)).trans ?_
    exact expireEach_changes keys hrest

theorem expireFences_changes {n : ℕ} (h : expireFences db req.now req.clock = .ok (db', n)) :
    Changes req db db' := by
  simp only [expireFences, expireFencesAt, bind_eq_ok, pure_eq_ok, Prod.mk.injEq] at h
  obtain ⟨t, -, -, -, ⟨⟩, hall, rfl, -⟩ := h
  exact expireEach_changes _ fun key hkey => blockFenceMutation_ok (forM_eq_ok.mp hall key hkey)

/-! ### Fence operations -/

theorem acquireFenceOperation_changes {duration : ℕ} {guard : FenceOperationGuard}
    (h : acquireFenceOperation sha db fence duration req.clock req.random = .ok (db', guard)) :
    Changes req db db' := by
  simp only [acquireFenceOperation, bind_eq_ok, ensure_eq_ok, orError_eq_ok, pure_eq_ok,
    trustedNow_eq_ok, readFenceRow_eq_ok, Prod.mk.injEq] at h
  obtain ⟨-, -, t, hclock, db₁, hperm, record, ⟨hrow, -⟩, -, hbind, op, hop, -,
    hnone, -, -, requested, -, -, hlt, nonce, -, -, -, -, -, -, -, -, -, -, -, operations, hins,
    rfl, -⟩ := h
  obtain ⟨hstate, -, -, -, howner, -, hhash⟩ := hbind
  subst hnone
  have hcov : Covers record ⟨sha nonce.bytes, fence.key, fence.ownerId, record.generation,
      fenceTokenHash sha fence.token, record.issuedAt, t, t, min requested record.expiresAt⟩ :=
    ⟨hstate, howner, rfl, hhash, rfl, Nat.min_le_right _ _⟩
  exact (permitted_changes (Or.inr hclock) hperm).snoc
    (.operationGranted hins hrow hcov (operationForFence_none hop) (permitted_none hperm) hclock)

theorem assertFenceOperation_changes {guard : FenceOperationGuard}
    (h : assertFenceOperation db guard req.clock = .ok (db', u)) : Changes req db db' := by
  simp only [assertFenceOperation, bind_eq_ok, pure_eq_ok, Prod.mk.injEq] at h
  obtain ⟨-, -, -, -, -, -, -, -, -, -, rfl, -⟩ := h
  exact .refl

/-- A renewal is a single change, made to the database it is called on. -/
theorem renewFenceOperation_change {guard guard' : FenceOperationGuard} {duration : ℕ}
    (hcall : req.call = .renewFenceOperation guard duration)
    (h : renewFenceOperation db guard duration req.clock = .ok (db', guard')) :
    Change req db db' := by
  simp only [renewFenceOperation, bind_eq_ok, ensure_eq_ok, orError_eq_ok, pure_eq_ok,
    trustedNow_eq_ok, readFenceRow_eq_ok, checkedAdd_eq_some, Prod.mk.injEq] at h
  obtain ⟨⟨⟩, hdur, t, hclock, -, -, row, hmatch, fence, ⟨hfence, -⟩, requested,
    ⟨-, rfl⟩, -, hle, -, -, -, -, -, -, -, -, rfl, -⟩ := h
  obtain ⟨hmem, hhash, hbind, -, -⟩ := matchingOperation_ok hmatch
  rw [validateOperationDuration, ensure_eq_ok] at hdur
  rw [← hbind.1] at hfence
  exact .operationExtended hcall hclock hmem hhash hbind hfence hle (by omega)

theorem releaseFenceOperation_changes {guard : FenceOperationGuard}
    (hcall : req.call = .releaseFenceOperation guard)
    (h : releaseFenceOperation db guard req.clock = .ok (db', u)) : Changes req db db' := by
  simp only [releaseFenceOperation, bind_eq_ok, pure_eq_ok, Prod.mk.injEq] at h
  obtain ⟨t, -, row, hmatch, rfl, -⟩ := h
  obtain ⟨hmem, hhash, hbind, -, -⟩ := matchingOperation_ok hmatch
  exact .one (.operationReleased hcall hmem hhash hbind)

theorem recoverExpiredFenceOperations_changes {limit : ℕ} {recovery : FenceOperationRecovery}
    (h : recoverExpiredFenceOperations db limit req.clock = .ok (db', recovery)) :
    Changes req db db' := by
  simp only [recoverExpiredFenceOperations, bind_eq_ok, pure_eq_ok, trustedNow_eq_ok,
    Prod.mk.injEq] at h
  obtain ⟨-, -, t, hclock, -, -, -, -, rfl, -⟩ := h
  refine .one (.operationsReaped _ hclock fun op _ hp => ?_)
  simp only [Bool.and_eq_true, decide_eq_true_eq] at hp
  exact hp.2

/-! ### Quiescence -/

theorem lapsed_of_not_held {quiescence : Option QuiescenceRow}
    (h : ¬ (quiescence.filter fun row => now < row.expiresAt).any fun row => now < row.expiresAt) :
    (quiescence.filter fun row => now < row.expiresAt) = none ∧
      ∀ row, quiescence = some row → row.expiresAt ≤ now := by
  rcases quiescence with _ | row
  · simp
  · by_cases hlive : now < row.expiresAt
    · simp [Option.filter, hlive] at h
    · simp [Option.filter, hlive, Nat.le_of_not_lt hlive]

theorem acquireQuiescence_changes {owner : String} {duration : ℕ} {guard : FleetQuiescenceGuard}
    (hcall : req.call = .acquireQuiescence owner duration)
    (h : acquireQuiescence db owner req.now duration req.clock = .ok (db', guard)) :
    Changes req db db' := by
  simp only [acquireQuiescence, bind_eq_ok, ensure_eq_ok, orError_eq_ok, pure_eq_ok,
    trustedNow_eq_ok, toI64_eq_ok, checkedAdd_eq_some, readOperationRows_eq_ok, Prod.mk.injEq] at h
  obtain ⟨-, -, o, howner, expiresAt, ⟨-, rfl⟩, -, -, -, hheld, -, hleases, t, hclock, rows,
    ⟨-, rfl⟩, -, hops, -, ⟨hfits, -⟩, rfl, -⟩ := h
  obtain ⟨hnone, hlapsed⟩ := lapsed_of_not_held hheld
  rw [validateText_eq_ok howner]
  let closed := closeLeases db (fun lease => lease.expiresAt ≤ req.now) .expired
  have hclose : Change req db closed := .leasesClosed _ (by simp)
  have hlapse : Change req closed { closed with quiescence := none } :=
    .quiescenceLapsed (Or.inl rfl) hlapsed
  refine ((Changes.one hclose).snoc hlapse).snoc (.quiescenceGranted hcall hclock rfl ?_ ?_ hfits)
  · intro lease hlease
    simp only [List.countP_eq_zero, decide_eq_true_eq] at hleases
    exact hleases lease hlease
  · intro op hop
    simp only [List.any_eq_true, not_exists, not_and, decide_eq_true_eq, Nat.not_lt] at hops
    exact hops op hop

end Refinement

/-! ## Requests and runs -/

section Runs

variable (sha : Sha256)

variable {req : GuardRequest}

theorem transact_changes {α : Type} {reply : α → Reply} {result : Except FleetError (FleetDb × α)}
    (h : ∀ db' a, result = .ok (db', a) → Changes req db db') :
    Changes req db (transact db reply result).1 := by
  rcases result with e | ⟨db', a⟩
  · exact .refl
  · exact h db' a rfl

/-- **Refinement**: what a request does to the database is a sequence of changes. -/
theorem exec_changes (db : FleetDb) (req : GuardRequest) : Changes req db (exec sha db req).1 := by
  unfold exec
  split
  next => exact transact_changes fun _ _ h => registerNode_changes h
  next => exact transact_changes fun _ _ h => transitionNode_changes (by simp) h
  next => exact transact_changes fun _ _ h => transitionNode_changes (by simp) h
  next => exact transact_changes fun _ _ h => transitionNode_changes (by simp) h
  next => exact transact_changes fun _ _ h => heartbeatSupervisor_changes h
  next => exact transact_changes fun _ _ h => reconcileSupervisor_changes h
  next => exact reapStaleSupervisors_changes
  next => exact transact_changes fun _ _ h => restartSupervisor_changes h
  next => exact transact_changes fun _ _ h => startSupervisor_changes h
  next => exact transact_changes fun _ _ h => drainSupervisor_changes h
  next => exact transact_changes fun _ _ h => stopSupervisor_changes h
  next => exact transact_changes fun _ _ h => shutdownSupervisor_changes h
  next => exact transact_changes fun _ _ h => recoverSupervisor_changes h
  next => exact transact_changes fun _ _ h => acquireLease_changes h
  next leaseId executionId duration _ =>
    rcases h : renewLease db leaseId executionId req.now duration with e | ⟨db', result⟩
    · exact .refl
    · exact renewLease_changes h
  next => exact transact_changes fun _ _ h => transitionLease_changes (by simp) h
  next => exact transact_changes fun _ _ h => expireLeases_changes h
  next hcall => exact transact_changes fun _ _ h => acquireQuiescence_changes hcall h
  next hcall => exact .one (.quiescenceDropped hcall)
  next => exact transact_changes fun _ _ h => acquireFence_changes sha h
  next => exact transact_changes fun _ _ h => invalidateFence_changes h
  next => exact transact_changes fun _ _ h => renewFence_changes sha h
  next => exact transact_changes fun _ _ h => assertFence_changes sha h
  next => exact transact_changes fun _ _ h => releaseFence_changes sha h
  next => exact transact_changes fun _ _ h => expireFences_changes h
  next => exact transact_changes fun _ _ h => acquireFenceOperation_changes sha h
  next => exact transact_changes fun _ _ h => assertFenceOperation_changes h
  next hcall => exact transact_changes fun _ _ h => .one (renewFenceOperation_change hcall h)
  next hcall => exact transact_changes fun _ _ h => releaseFenceOperation_changes hcall h
  next => exact transact_changes fun _ _ h => recoverExpiredFenceOperations_changes h

/-- A renewal of an operation changes nothing or makes one change, on the database it is called
on. -/
theorem exec_renewFenceOperation (db : FleetDb) {guard : FenceOperationGuard}
    {duration : ℕ} (hcall : req.call = .renewFenceOperation guard duration) :
    (exec sha db req).1 = db ∨ Change req db (exec sha db req).1 := by
  have hexec : (exec sha db req).1 =
      (transact db .operation (renewFenceOperation db guard duration req.clock)).1 := by
    simp only [exec, hcall]
  rw [hexec]
  rcases h : renewFenceOperation db guard duration req.clock with e | ⟨db', guard'⟩
  · exact Or.inl rfl
  · exact Or.inr (renewFenceOperation_change hcall h)

theorem exec_keeps {P : FleetDb → Prop} (hchange : ∀ {a b}, Change req a b → P a → P b) (h : P db) :
    P (exec sha db req).1 :=
  (exec_changes sha db req).keeps hchange h

/-- **What every change keeps holds in every reachable database.** -/
theorem dbAfter_keeps {P : FleetDb → Prop} (hfresh : P .fresh)
    (hchange : ∀ {req a b}, Change req a b → P a → P b) (reqs : List GuardRequest) :
    P (dbAfter sha reqs) :=
  (engine sha).run_invariant (fun _ _ h => exec_keeps sha hchange h) reqs hfresh

theorem run_keeps_pair {R : FleetDb → FleetDb → Prop} (hrefl : ∀ a, R a a)
    (htrans : ∀ a b c, R a b → R b c → R a c) (hchange : ∀ {req a b}, Change req a b → R a b)
    (db : FleetDb) (reqs : List GuardRequest) : R db ((engine sha).run db reqs) :=
  (engine sha).run_relates hrefl htrans (fun s req => by
    show R s (exec sha s req).1
    exact exec_keeps sha (fun hch h => htrans _ _ _ h (hchange hch)) (hrefl s)) db reqs

end Runs

end Pandora.Fleet.Steps
