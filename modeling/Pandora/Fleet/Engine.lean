import Pandora.Fleet.Fences
import Pandora.Lib.Runs
import Pandora.Lib.Objects

/-! # The engine

One `Request` is one call of a public operation that changes the database, with all that the
environment supplies: the caller's `now`, the sample of the trusted clock (`none` when it is
unavailable) and the bytes the random source returns (`none` when it fails). Requests of several
processes meet in one database; each is one transaction, so a run is a list of requests.

Calls are generic in the guards they are given. In `engine` a guard is the value itself, and any
value may be passed. In `World` it is the index of a guard object: renewal updates it in place, and
release or drop consumes it. -/

namespace Pandora.Fleet.Engine

open Lib.Checked Lib.Runs Text Fleet.Records Fleet.Leases Fleet.Fences

/-- The operations of the engine; `γ` and `δ` are the guards of operations and of quiescence. -/
inductive Call (γ δ : Type)
  | registerNode (node : FleetNode)
  | quarantineNode (nodeId : String)
  | revokeNode (nodeId : String)
  | killNode (nodeId : String)
  | heartbeatSupervisor (nodeId : String) (processId : Option ℕ)
  | reconcileSupervisor (nodeId : String) (staleAfter : ℕ)
  | reapStaleSupervisors (staleAfter : ℕ)
  | restartSupervisor (nodeId : String) (processId staleAfter : ℕ)
  | startSupervisor (nodeId : String) (processId : Option ℕ)
  | drainSupervisor (nodeId : String)
  | stopSupervisor (nodeId : String)
  | shutdownSupervisor (nodeId : String) (processId : ℕ) (leaseId : String)
  | recoverSupervisor (nodeId : String)
  | acquireLease (leaseId nodeId executionId : String) (budget : FleetBudget) (duration : ℕ)
  | renewLease (leaseId executionId : String) (duration : ℕ)
  | releaseLease (leaseId : String)
  | expireLeases
  | acquireQuiescence (owner : String) (duration : ℕ)
  | dropQuiescence (guard : δ)
  | acquireFence (key ownerId : String) (duration : ℕ)
  | invalidateFence (key ownerId : String)
  | renewFence (fence : FleetLeaseFence) (duration : ℕ)
  | assertFence (fence : FleetLeaseFence)
  | releaseFence (fence : FleetLeaseFence)
  | expireFences
  | acquireFenceOperation (fence : FleetLeaseFence) (duration : ℕ)
  | assertFenceOperation (guard : γ)
  | renewFenceOperation (guard : γ) (duration : ℕ)
  | releaseFenceOperation (guard : γ)
  | recoverExpiredFenceOperations (limit : ℕ)

/-- A call and what the environment supplies to it. -/
structure Request (γ δ : Type) where
  now : ℕ
  clock : Option ℕ
  random : Option Bytes32
  call : Call γ δ

/-- A request with the guards themselves. -/
abbrev GuardRequest := Request FenceOperationGuard FleetQuiescenceGuard

/-- What a successful call returns. -/
inductive Reply
  | unit
  | count (n : ℕ)
  | flag (b : Bool)
  | node (node : FleetNode)
  | lease (lease : FleetLease)
  | supervisor (supervisor : FleetSupervisor)
  | supervisors (supervisors : List FleetSupervisor)
  | quiescence (guard : FleetQuiescenceGuard)
  | fence (fence : FleetLeaseFence)
  | operation (guard : FenceOperationGuard)
  | recovery (recovery : FenceOperationRecovery)
deriving DecidableEq

/-- Run a transaction and wrap its answer. -/
def transact {α : Type} (db : FleetDb) (reply : α → Reply)
    (result : Except FleetError (FleetDb × α)) : FleetDb × Except FleetError Reply :=
  ((commit db result).1, (commit db result).2.map reply)

variable (sha : Sha256)

def exec (db : FleetDb) (req : GuardRequest) : FleetDb × Except FleetError Reply :=
  match req.call with
  | .registerNode node => transact db .node (registerNode db node)
  | .quarantineNode nodeId => transact db (fun _ => .unit) (quarantineNode db nodeId)
  | .revokeNode nodeId => transact db (fun _ => .unit) (revokeNode db nodeId)
  | .killNode nodeId => transact db (fun _ => .unit) (killNode db nodeId)
  | .heartbeatSupervisor nodeId processId =>
    transact db .supervisor (heartbeatSupervisor db nodeId processId req.now)
  | .reconcileSupervisor nodeId staleAfter =>
    transact db .supervisor (reconcileSupervisor db nodeId req.now staleAfter)
  | .reapStaleSupervisors staleAfter =>
    let (db, result) := reapStaleSupervisors db req.now staleAfter
    (db, result.map .supervisors)
  | .restartSupervisor nodeId processId staleAfter =>
    transact db .supervisor (restartSupervisor db nodeId processId req.now staleAfter)
  | .startSupervisor nodeId processId =>
    transact db .supervisor (startSupervisor db nodeId processId req.now)
  | .drainSupervisor nodeId => transact db .supervisor (drainSupervisor db nodeId req.now)
  | .stopSupervisor nodeId => transact db .supervisor (stopSupervisor db nodeId req.now)
  | .shutdownSupervisor nodeId processId leaseId =>
    transact db .supervisor (shutdownSupervisor db nodeId processId leaseId req.now)
  | .recoverSupervisor nodeId => transact db .supervisor (recoverSupervisor db nodeId req.now)
  | .acquireLease leaseId nodeId executionId budget duration =>
    transact db .lease (acquireLease db leaseId nodeId executionId budget req.now duration)
  | .renewLease leaseId executionId duration =>
    let (db, result) := commit db (renewLease db leaseId executionId req.now duration)
    (db, (result.bind id).map .lease)
  | .releaseLease leaseId => transact db .lease (releaseLease db leaseId)
  | .expireLeases => transact db .count (expireLeases db req.now)
  | .acquireQuiescence owner duration =>
    transact db .quiescence (acquireQuiescence db owner req.now duration req.clock)
  | .dropQuiescence guard => (dropQuiescence db guard, .ok .unit)
  | .acquireFence key ownerId duration =>
    transact db .fence (acquireFence sha db key ownerId req.now duration req.clock req.random)
  | .invalidateFence key ownerId => transact db .flag (invalidateFence db key ownerId req.clock)
  | .renewFence fence duration =>
    transact db .fence (renewFence sha db fence req.now duration req.clock)
  | .assertFence fence => transact db (fun _ => .unit) (assertFence sha db fence req.now)
  | .releaseFence fence =>
    transact db (fun _ => .unit) (releaseFence sha db fence req.now req.clock)
  | .expireFences => transact db .count (expireFences db req.now req.clock)
  | .acquireFenceOperation fence duration =>
    transact db .operation (acquireFenceOperation sha db fence duration req.clock req.random)
  | .assertFenceOperation guard =>
    transact db (fun _ => .unit) (assertFenceOperation db guard req.clock)
  | .renewFenceOperation guard duration =>
    transact db .operation (renewFenceOperation db guard duration req.clock)
  | .releaseFenceOperation guard =>
    transact db (fun _ => .unit) (releaseFenceOperation db guard req.clock)
  | .recoverExpiredFenceOperations limit =>
    transact db .recovery (recoverExpiredFenceOperations db limit req.clock)

/-- The engine as a machine on its database. -/
def engine : Machine FleetDb GuardRequest (Except FleetError Reply) := ⟨exec sha⟩

/-- The database after a run from a fresh engine. -/
def dbAfter (reqs : List GuardRequest) : FleetDb := (engine sha).run .fresh reqs

/-- The answer to a request after a run. -/
def answerAfter (reqs : List GuardRequest) (req : GuardRequest) : Except FleetError Reply :=
  (engine sha).answer (dbAfter sha reqs) req

theorem transact_snd {α : Type} {db : FleetDb} {reply : α → Reply}
    {result : Except FleetError (FleetDb × α)} {r : Reply}
    (h : (transact db reply result).2 = .ok r) :
    ∃ a, reply a = r ∧ result = .ok ((transact db reply result).1, a) := by
  rcases result with e | ⟨db', a⟩
  · simp [transact, commit, Except.map] at h
  · simp only [transact, commit, Except.map, Except.ok.injEq] at h ⊢
    exact ⟨a, h, rfl⟩

theorem transact_error {α : Type} {db : FleetDb} {reply : α → Reply}
    {result : Except FleetError (FleetDb × α)} {e : FleetError}
    (h : (transact db reply result).2 = .error e) : (transact db reply result).1 = db := by
  rcases result with e' | ⟨db', a⟩
  · rfl
  · simp [transact, commit, Except.map] at h

/-! ## Guard objects -/

/-- The database with the guard objects that exist. An object is at the index of its acquisition,
`none` once it is consumed. With a quiescence guard stands the row its acquisition wrote. -/
structure World where
  db : FleetDb
  guards : List (Option FenceOperationGuard)
  quiescences : List (Option (FleetQuiescenceGuard × QuiescenceRow))

def World.fresh : World := ⟨.fresh, [], []⟩

/-- A request that names guard objects by their index. -/
abbrev ObjectRequest := Request ℕ ℕ

/-- The call with the guards the objects hold; `none` when an object is gone. -/
def resolveCall (w : World) : Call ℕ ℕ → Option (Call FenceOperationGuard FleetQuiescenceGuard)
  | .registerNode node => some (.registerNode node)
  | .quarantineNode nodeId => some (.quarantineNode nodeId)
  | .revokeNode nodeId => some (.revokeNode nodeId)
  | .killNode nodeId => some (.killNode nodeId)
  | .heartbeatSupervisor nodeId processId => some (.heartbeatSupervisor nodeId processId)
  | .reconcileSupervisor nodeId staleAfter => some (.reconcileSupervisor nodeId staleAfter)
  | .reapStaleSupervisors staleAfter => some (.reapStaleSupervisors staleAfter)
  | .restartSupervisor nodeId processId staleAfter =>
    some (.restartSupervisor nodeId processId staleAfter)
  | .startSupervisor nodeId processId => some (.startSupervisor nodeId processId)
  | .drainSupervisor nodeId => some (.drainSupervisor nodeId)
  | .stopSupervisor nodeId => some (.stopSupervisor nodeId)
  | .shutdownSupervisor nodeId processId leaseId =>
    some (.shutdownSupervisor nodeId processId leaseId)
  | .recoverSupervisor nodeId => some (.recoverSupervisor nodeId)
  | .acquireLease leaseId nodeId executionId budget duration =>
    some (.acquireLease leaseId nodeId executionId budget duration)
  | .renewLease leaseId executionId duration => some (.renewLease leaseId executionId duration)
  | .releaseLease leaseId => some (.releaseLease leaseId)
  | .expireLeases => some .expireLeases
  | .acquireQuiescence owner duration => some (.acquireQuiescence owner duration)
  | .dropQuiescence i => (w.quiescences[i]?.join).map fun held => .dropQuiescence held.1
  | .acquireFence key ownerId duration => some (.acquireFence key ownerId duration)
  | .invalidateFence key ownerId => some (.invalidateFence key ownerId)
  | .renewFence fence duration => some (.renewFence fence duration)
  | .assertFence fence => some (.assertFence fence)
  | .releaseFence fence => some (.releaseFence fence)
  | .expireFences => some .expireFences
  | .acquireFenceOperation fence duration => some (.acquireFenceOperation fence duration)
  | .assertFenceOperation i => (w.guards[i]?.join).map .assertFenceOperation
  | .renewFenceOperation i duration =>
    (w.guards[i]?.join).map fun guard => .renewFenceOperation guard duration
  | .releaseFenceOperation i => (w.guards[i]?.join).map .releaseFenceOperation
  | .recoverExpiredFenceOperations limit => some (.recoverExpiredFenceOperations limit)

/-- The operation guards after a call and its answer: renewal updates the guard it is given, release
consumes it whatever it answers. -/
def guardsAfter (guards : List (Option FenceOperationGuard)) (call : Call ℕ ℕ)
    (reply : Except FleetError Reply) : List (Option FenceOperationGuard) :=
  match call, reply with
  | .acquireFenceOperation _ _, .ok (.operation guard) => guards ++ [some guard]
  | .renewFenceOperation i _, .ok (.operation guard) => guards.set i (some guard)
  | .releaseFenceOperation i, _ => guards.set i none
  | _, _ => guards

/-- The quiescence guards after a call and its answer. -/
def quiescencesAfter (quiescences : List (Option (FleetQuiescenceGuard × QuiescenceRow)))
    (call : Call ℕ ℕ) (reply : Except FleetError Reply) (row : Option QuiescenceRow) :
    List (Option (FleetQuiescenceGuard × QuiescenceRow)) :=
  match call, reply with
  | .acquireQuiescence _ _, .ok (.quiescence guard) =>
    quiescences ++ [row.map fun row => (guard, row)]
  | .dropQuiescence i, _ => quiescences.set i none
  | _, _ => quiescences

/-- One request on the world; `none` is the answer to a call on an object that is gone. -/
def World.step (w : World) (req : ObjectRequest) : World × Option (Except FleetError Reply) :=
  match resolveCall w req.call with
  | none => (w, none)
  | some call =>
    let (db, reply) := exec sha w.db { req with call }
    (⟨db, guardsAfter w.guards req.call reply,
      quiescencesAfter w.quiescences req.call reply db.quiescence⟩, some reply)

/-- A step on the world does nothing, when an object it names is gone, or is the step of the engine
with the guards it names. -/
theorem World.step_cases (w : World) (req : ObjectRequest) :
    World.step sha w req = (w, none) ∨
    ∃ call, resolveCall w req.call = some call ∧
      World.step sha w req = (⟨(exec sha w.db { req with call }).1,
        guardsAfter w.guards req.call (exec sha w.db { req with call }).2,
        quiescencesAfter w.quiescences req.call (exec sha w.db { req with call }).2
          (exec sha w.db { req with call }).1.quiescence⟩,
        some (exec sha w.db { req with call }).2) := by
  unfold World.step
  rcases h : resolveCall w req.call with _ | call
  · exact Or.inl rfl
  · exact Or.inr ⟨call, rfl, rfl⟩

/-- The engine with its guard objects. -/
def world : Machine World ObjectRequest (Option (Except FleetError Reply)) := ⟨World.step sha⟩

/-- The world after a run from a fresh engine. -/
def worldAfter (reqs : List ObjectRequest) : World := (world sha).run .fresh reqs

/-- The answer to a request on the world after a run. -/
def worldAnswer (reqs : List ObjectRequest) (req : ObjectRequest) :
    Option (Except FleetError Reply) :=
  (world sha).answer (worldAfter sha reqs) req

end Pandora.Fleet.Engine
