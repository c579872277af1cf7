import Pandora.Fleet.Leases

/-! # Fences, fence operations and quiescence

A fence is a lease on a key: a row with an owner, a generation that grows with every acquisition,
and the hash of a random token. A fence operation is a row bound to one fence; while it is there,
the fence may not change except for an extension beyond the operation's own expiry.

Two clocks meet here: `now`, supplied by the caller, decides about the fence itself and about
quiescence; the trusted clock (`clock`, or `blockerNow` once sampled) decides whether an operation
is live. -/

namespace Pandora.Fleet.Fences

open Lib.Checked Lib.Tables Text Fleet.Records Fleet.Leases

/-! ## Reading rows -/

/-- What `decode_operation_row` asks of a row. -/
def OperationDecodes (row : FenceOperationRow) : Prop :=
  row.fenceKey ≠ "" ∧ row.fenceKey.utf8ByteSize ≤ 256 ∧ row.fenceOwnerId ≠ "" ∧
    row.fenceOwnerId.utf8ByteSize ≤ 256 ∧ row.fenceTokenHash.utf8ByteSize = 64 ∧
    row.fenceGeneration ≠ 0 ∧ row.acquiredAt ≤ row.lastRenewedAt ∧ row.acquiredAt < row.expiresAt ∧
    row.lastRenewedAt < row.expiresAt

instance (row : FenceOperationRow) : Decidable (OperationDecodes row) := by
  unfold OperationDecodes; infer_instance

def decodeOperationRow (row : FenceOperationRow) : Except FleetError FenceOperationRow := do
  ensure (OperationDecodes row) .corruptRecord
  return row

/-- `read_operation_rows`: one row that does not decode fails the read. -/
def readOperationRows (rows : List FenceOperationRow) :
    Except FleetError (List FenceOperationRow) :=
  rows.mapM decodeOperationRow

theorem readOperationRows_eq_ok {rows rows' : List FenceOperationRow} :
    readOperationRows rows = .ok rows' ↔ (∀ row ∈ rows, OperationDecodes row) ∧ rows' = rows := by
  refine mapM_check_eq_ok fun a b => ?_
  simp only [decodeOperationRow, bind_eq_ok, ensure_eq_ok, pure_eq_ok]
  constructor
  · rintro ⟨-, h, rfl⟩
    exact ⟨h, rfl⟩
  · rintro ⟨h, rfl⟩
    exact ⟨(), h, rfl⟩

/-- The `CHECK` constraints of `fleet_fence_operations`; `length` counts characters. -/
def OperationCheck (row : FenceOperationRow) : Prop :=
  (1 ≤ row.fenceKey.length ∧ row.fenceKey.length ≤ 256) ∧
    (1 ≤ row.fenceOwnerId.length ∧ row.fenceOwnerId.length ≤ 256) ∧ 0 < row.fenceGeneration ∧
    row.fenceTokenHash.length = 64 ∧ row.acquiredAt ≤ row.lastRenewedAt ∧
    row.acquiredAt < row.expiresAt ∧ row.lastRenewedAt < row.expiresAt

instance (row : FenceOperationRow) : Decidable (OperationCheck row) := by
  unfold OperationCheck; infer_instance

/-- What `decode_fence_row` asks of a row. -/
def FenceDecodes (row : FenceRow) : Prop :=
  row.ownerId ≠ "" ∧ row.ownerId.utf8ByteSize ≤ 256 ∧ row.generation ≠ 0 ∧ row.tokenHash ≠ "" ∧
    row.issuedAt ≤ row.expiresAt ∧ ¬ (row.state = .expired ∧ row.expiresAt = 0)

instance (row : FenceRow) : Decidable (FenceDecodes row) := by
  unfold FenceDecodes; infer_instance

/-- `read_fence_row`, failing with `missing` when there is no row. -/
def readFenceRow (db : FleetDb) (key : String) (missing : FleetError) :
    Except FleetError FenceRow := do
  let row ← orError (db.fences.get? key) missing
  ensure (FenceDecodes row) .corruptRecord
  return row

variable {db : FleetDb} {key : String} {row : FenceRow}

theorem readFenceRow_eq_ok {missing : FleetError} :
    readFenceRow db key missing = .ok row ↔ db.fences.get? key = some row ∧ FenceDecodes row := by
  simp only [readFenceRow, bind_eq_ok, orError_eq_ok, ensure_eq_ok, pure_eq_ok]
  constructor
  · rintro ⟨_, hrow, -, hdec, rfl⟩; exact ⟨hrow, hdec⟩
  · rintro ⟨hrow, hdec⟩; exact ⟨row, hrow, (), hdec, rfl⟩

/-- `operation_for_fence`: the live operation bound to a key, if there is a row. -/
def operationForFence (db : FleetDb) (key : String) (now : ℕ) :
    Except FleetError (Option FenceOperationRow) := do
  let rows ← readOperationRows (db.operations.rows.filter fun row => row.fenceKey = key)
  match rows with
  | [] => pure none
  | [row] => do
    ensure (now < row.expiresAt) .fenceOperationRecoveryRequired
    pure (some row)
  | _ :: _ :: _ => throw .corruptRecord

variable {now : ℕ}

theorem operationForFence_none
    (h : operationForFence db key now = .ok none) : ∀ row ∈ db.operations, row.fenceKey ≠ key := by
  simp only [operationForFence, bind_eq_ok, readOperationRows_eq_ok] at h
  obtain ⟨rows, ⟨-, rfl⟩, h⟩ := h
  split at h
  · next hnil =>
    intro row hrow he
    have : row ∈ db.operations.rows.filter fun row => row.fenceKey = key := by
      simp [List.mem_filter, Table.mem_rows, hrow, he]
    rw [hnil] at this; simp at this
  · simp at h
  · simp at h

theorem operationForFence_some {op : FenceOperationRow}
    (h : operationForFence db key now = .ok (some op)) :
    now < op.expiresAt ∧ ∀ row ∈ db.operations, row.fenceKey = key → row = op := by
  simp only [operationForFence, bind_eq_ok, readOperationRows_eq_ok] at h
  obtain ⟨rows, ⟨-, rfl⟩, h⟩ := h
  split at h
  · simp at h
  · next hone =>
    simp only [bind_eq_ok, ensure_eq_ok, pure_eq_ok, Option.some.injEq] at h
    obtain ⟨-, hlive, rfl⟩ := h
    refine ⟨hlive, fun row hrow he => ?_⟩
    have : row ∈ db.operations.rows.filter fun row => row.fenceKey = key := by
      simp [List.mem_filter, Table.mem_rows, hrow, he]
    rw [hone] at this; simpa using this
  · simp at h

/-- `block_fence_mutation`: the single blocker every fence mutation consults. -/
def blockFenceMutation (db : FleetDb) (key : String) (now : ℕ) : Except FleetError Unit := do
  match ← operationForFence db key now with
  | some _ => throw .fenceOperationActive
  | none => pure ()

/-- **The blocker**: it lets a mutation pass only when the fence has no operation row, live or
not. -/
theorem blockFenceMutation_ok {u : Unit}
    (h : blockFenceMutation db key now = .ok u) : ∀ row ∈ db.operations, row.fenceKey ≠ key := by
  simp only [blockFenceMutation, bind_eq_ok] at h
  obtain ⟨op, hop, h⟩ := h
  rcases op with _ | op
  · exact operationForFence_none hop
  · simp at h

/-! ## Fences -/

variable (sha : Sha256)

/-- `fence_token_hash`. -/
def fenceTokenHash (token : String) : String := hex (sha (asBytes token)).bytes

/-- `generate_fence_token`: `none` when the random source fails. -/
def generateFenceToken (random : Option Bytes32) : Except FleetError String :=
  (orError random FleetError.random).map fun bytes => hex bytes.bytes

/-- `validate_fence`: the binding of a handle, checked without changing anything. -/
def validateFence (db : FleetDb) (fence : FleetLeaseFence) (now : ℕ) : Except FleetError Unit := do
  let row ← readFenceRow db fence.key .fenceNotFound
  ensure (row.state = .active) .fenceMismatch
  ensure (now < row.expiresAt) .fenceExpired
  ensure (row.issuedAt ≤ now ∧ row.ownerId = fence.ownerId ∧ row.generation = fence.generation ∧
    row.tokenHash = fenceTokenHash sha fence.token) .fenceMismatch

theorem validateFence_ok {fence : FleetLeaseFence} {u : Unit}
    (h : validateFence sha db fence now = .ok u) :
    ∃ row, db.fences.get? fence.key = some row ∧ row.state = .active ∧ now < row.expiresAt ∧
      row.issuedAt ≤ now ∧ row.ownerId = fence.ownerId ∧ row.generation = fence.generation ∧
      row.tokenHash = fenceTokenHash sha fence.token := by
  simp only [validateFence, bind_eq_ok, readFenceRow_eq_ok, ensure_eq_ok] at h
  obtain ⟨row, ⟨hrow, -⟩, -, hstate, -, hlive, hbind⟩ := h
  exact ⟨row, hrow, hstate, hlive, hbind⟩

/-- The generation of an acquisition: a live fence is not acquired again. -/
def nextGeneration (db : FleetDb) (key : String) (now : ℕ) : Except FleetError ℕ :=
  match db.fences.get? key with
  | none => do
    ensure (db.fences.rows.length < maxFleetFences) .fenceLimitExceeded
    return 1
  | some row => do
    ensure (¬ (row.state = .active ∧ now < row.expiresAt)) .fenceAlreadyActive
    orError (checkedAdd row.generation 1) .corruptRecord

theorem nextGeneration_ok {generation : ℕ} (h : nextGeneration db key now = .ok generation)
    (hrow : db.fences.get? key = some row) :
    generation = row.generation + 1 ∧ ¬ (row.state = .active ∧ now < row.expiresAt) := by
  simp only [nextGeneration, hrow, bind_eq_ok, ensure_eq_ok, orError_eq_ok, checkedAdd_eq_some] at h
  obtain ⟨-, hdead, -, hgen⟩ := h
  exact ⟨hgen.symm, hdead⟩

/-- `acquire_fence_at`. -/
def acquireFenceAt (db : FleetDb) (key ownerId : String) (now duration blockerNow : ℕ)
    (random : Option Bytes32) : Except FleetError (FleetDb × FleetLeaseFence) := do
  ensure (duration ≠ 0) .invalidFenceDuration
  let key ← validateText "fence key" key 256
  let ownerId ← validateText "fence owner" ownerId 256
  let expiresAt ← orError (checkedAdd now duration) .invalidFenceDuration
  let token ← generateFenceToken random
  let db ← ensureWorkPermitted db now
  blockFenceMutation db key blockerNow
  let generation ← nextGeneration db key now
  let _ ← toI64 generation
  let _ ← toI64 now
  let _ ← toI64 expiresAt
  let row : FenceRow :=
    ⟨key, ownerId, generation, fenceTokenHash sha token, now, expiresAt, .active⟩
  return ({ db with fences := db.fences.upsert row },
    ⟨key, ownerId, generation, token, now, expiresAt, .active⟩)

/-- `acquire_fence`: the blocker is judged on the trusted clock. -/
def acquireFence (db : FleetDb) (key ownerId : String) (now duration : ℕ) (clock : Option ℕ)
    (random : Option Bytes32) : Except FleetError (FleetDb × FleetLeaseFence) := do
  acquireFenceAt sha db key ownerId now duration (← trustedNow clock) random

/-- `UPDATE fleet_fences SET state = ? WHERE fence_key = ? AND state = 'active' AND …`. -/
def closeFence (db : FleetDb) (key : String) (p : FenceRow → Bool) (state : FleetFenceState) :
    FleetDb :=
  let fences := db.fences.update
    (fun row => row.fenceKey = key && (decide (row.state = .active) && p row))
    (fun row => { row with state }) fun _ _ => rfl
  { db with fences }

theorem mem_closeFence {p : FenceRow → Bool} {state : FleetFenceState} : row ∈
    (closeFence db key p state).fences ↔
      ∃ old ∈ db.fences, row =
        if old.fenceKey = key ∧ old.state = .active ∧ p old then { old with state } else old := by
  simp only [closeFence, Table.mem_update, Bool.and_eq_true, decide_eq_true_eq]

/-- `invalidate_fence_at`. -/
def invalidateFenceAt (db : FleetDb) (key ownerId : String) (blockerNow : ℕ) :
    Except FleetError (FleetDb × Bool) := do
  let key ← validateText "fence key" key 256
  let ownerId ← validateText "fence owner" ownerId 256
  blockFenceMutation db key blockerNow
  match db.fences.get? key with
  | none => pure (db, false)
  | some row => do
    ensure (FenceDecodes row) .corruptRecord
    ensure (row.ownerId = ownerId) .fenceMismatch
    pure (closeFence db key (fun row => row.ownerId = ownerId) .released, true)

def invalidateFence (db : FleetDb) (key ownerId : String) (clock : Option ℕ) :
    Except FleetError (FleetDb × Bool) := do
  invalidateFenceAt db key ownerId (← trustedNow clock)

/-- An extension is let through beside a live operation only beyond the operation's expiry. -/
def ensureBeyond (operation : Option FenceOperationRow) (expiresAt : ℕ) : Except FleetError Unit :=
  match operation with
  | none => .ok ()
  | some operation => ensure (operation.expiresAt < expiresAt) .fenceOperationActive

/-- `renew_fence_at`: the one mutation a live operation permits, and only beyond its own expiry. -/
def renewFenceAt (db : FleetDb) (fence : FleetLeaseFence) (now duration blockerNow : ℕ) :
    Except FleetError (FleetDb × FleetLeaseFence) := do
  ensure (duration ≠ 0) .invalidFenceDuration
  let expiresAt ← orError (checkedAdd now duration) .invalidFenceDuration
  ensureBeyond (← operationForFence db fence.key blockerNow) expiresAt
  validateFence sha db fence now
  let _ ← toI64 expiresAt
  let _ ← toI64 fence.generation
  let fences := db.fences.update
    (fun row => row.fenceKey = fence.key ∧ row.generation = fence.generation ∧ row.state = .active)
    (fun row => { row with expiresAt }) fun _ _ => rfl
  return ({ db with fences }, { fence with expiresAt, state := .active })

def renewFence (db : FleetDb) (fence : FleetLeaseFence) (now duration : ℕ) (clock : Option ℕ) :
    Except FleetError (FleetDb × FleetLeaseFence) := do
  renewFenceAt sha db fence now duration (← trustedNow clock)

def assertFence (db : FleetDb) (fence : FleetLeaseFence) (now : ℕ) :
    Except FleetError (FleetDb × Unit) := do
  validateFence sha db fence now
  return (db, ())

/-- `release_fence_at`. -/
def releaseFenceAt (db : FleetDb) (fence : FleetLeaseFence) (now blockerNow : ℕ) :
    Except FleetError (FleetDb × Unit) := do
  blockFenceMutation db fence.key blockerNow
  validateFence sha db fence now
  let _ ← toI64 fence.generation
  return (closeFence db fence.key (fun row => row.generation = fence.generation) .released, ())

def releaseFence (db : FleetDb) (fence : FleetLeaseFence) (now : ℕ) (clock : Option ℕ) :
    Except FleetError (FleetDb × Unit) := do
  releaseFenceAt sha db fence now (← trustedNow clock)

/-- The write loop of `expire_fences_at`. -/
def expireEach (now : ℕ) (db : FleetDb) (keys : List String) : FleetDb :=
  keys.foldl (fun db key => closeFence db key (fun row => row.expiresAt ≤ now) .expired) db

/-- `expire_fences_at`: every candidate is checked before anything is written. -/
def expireFencesAt (db : FleetDb) (now blockerNow : ℕ) : Except FleetError (FleetDb × ℕ) := do
  let _ ← toI64 now
  let due := db.fences.rows.filter fun row => row.state = .active ∧ row.expiresAt ≤ now
  let candidates := (due.map (·.fenceKey)).insertionSort (· ≤ ·)
  forM candidates fun key => blockFenceMutation db key blockerNow
  return (expireEach now db candidates, candidates.length)

def expireFences (db : FleetDb) (now : ℕ) (clock : Option ℕ) : Except FleetError (FleetDb × ℕ) := do
  expireFencesAt db now (← trustedNow clock)

/-! ## Fence operations -/

/-- `validate_operation_duration`. -/
def validateOperationDuration (duration : ℕ) : Except FleetError Unit :=
  ensure (duration ≠ 0 ∧ duration ≤ maxFenceOperationDurationSeconds) .invalidFenceOperationDuration

/-- `acquire_fence_operation`: every field of the binding is compared, and the operation ends with
its fence at the latest. -/
def acquireFenceOperation (db : FleetDb) (fence : FleetLeaseFence) (duration : ℕ) (clock : Option ℕ)
    (random : Option Bytes32) : Except FleetError (FleetDb × FenceOperationGuard) := do
  validateOperationDuration duration
  let now ← trustedNow clock
  let db ← ensureWorkPermitted db now
  let record ← readFenceRow db fence.key .fenceNotFound
  ensure (record.state = .active ∧ now < record.expiresAt ∧ record.issuedAt ≤ now ∧
    record.issuedAt = fence.issuedAt ∧ record.ownerId = fence.ownerId ∧
    record.generation = fence.generation ∧ record.tokenHash = fenceTokenHash sha fence.token)
    .fenceMismatch
  ensure ((← operationForFence db fence.key now) = none) .fenceOperationAlreadyActive
  ensure (db.operations.rows.length < maxFenceOperationRows) .fenceOperationLimitExceeded
  let requested ← orError (checkedAdd now duration) .invalidFenceOperationDuration
  let expiresAt := min requested record.expiresAt
  ensure (now < expiresAt) .fenceOperationWouldOutliveFence
  let nonce ← orError random .random
  let operationHash := sha nonce.bytes
  let row : FenceOperationRow := ⟨operationHash, fence.key, fence.ownerId, record.generation,
    fenceTokenHash sha fence.token, record.issuedAt, now, now, expiresAt⟩
  let _ ← toI64 record.generation
  let _ ← toI64 record.issuedAt
  let _ ← toI64 now
  let _ ← toI64 expiresAt
  ensure (OperationCheck row) .database
  let operations ← orError (db.operations.insert? row) .database
  return ({ db with operations }, ⟨operationHash, fence.key, fence.ownerId, record.generation,
    fenceTokenHash sha fence.token, record.issuedAt, now, now, expiresAt⟩)

/-- The row of a guard's operation carries the guard's binding. -/
def Binds (guard : FenceOperationGuard) (row : FenceOperationRow) : Prop :=
  row.fenceKey = guard.fenceKey ∧ row.fenceOwnerId = guard.fenceOwnerId ∧
    row.fenceGeneration = guard.fenceGeneration ∧ row.fenceTokenHash = guard.fenceTokenHash ∧
    row.fenceIssuedAt = guard.fenceIssuedAt ∧ row.acquiredAt = guard.acquiredAt

instance (guard : FenceOperationGuard) (row : FenceOperationRow) : Decidable (Binds guard row) := by
  unfold Binds; infer_instance

/-- `matching_operation`: the guard's own row. A row that does not decode is a database error here,
and one that does not carry the guard's binding is corruption; a missing row is `FenceOperationLost`
at every caller. -/
def matchingOperation (db : FleetDb) (guard : FenceOperationGuard) (now : ℕ) :
    Except FleetError FenceOperationRow := do
  let row ← orError (db.operations.get? guard.operationHash) .fenceOperationLost
  ensure (OperationDecodes row) .database
  ensure (Binds guard row) .corruptRecord
  ensure (row.acquiredAt ≤ now ∧ row.lastRenewedAt ≤ now) .fenceOperationClockRegressed
  return row

theorem matchingOperation_ok {guard : FenceOperationGuard}
    {row : FenceOperationRow} (h : matchingOperation db guard now = .ok row) :
    row ∈ db.operations ∧ row.operationHash = guard.operationHash ∧ Binds guard row ∧
      row.acquiredAt ≤ now ∧ row.lastRenewedAt ≤ now := by
  simp only [matchingOperation, bind_eq_ok, orError_eq_ok, ensure_eq_ok, pure_eq_ok] at h
  obtain ⟨_, hrow, -, -, -, hbind, -, hclock, rfl⟩ := h
  obtain ⟨hmem, hhash⟩ := Table.get?_eq_some.mp hrow
  exact ⟨hmem, hhash, hbind, hclock⟩

/-- `assert_fence_operation`: the fence's expiry is not compared with the clock. -/
def assertFenceOperation (db : FleetDb) (guard : FenceOperationGuard) (clock : Option ℕ) :
    Except FleetError (FleetDb × Unit) := do
  let now ← trustedNow clock
  let row ← matchingOperation db guard now
  ensure (now < row.expiresAt) .fenceOperationLost
  let fence ← readFenceRow db guard.fenceKey .fenceOperationLost
  ensure (fence.state = .active ∧ fence.ownerId = guard.fenceOwnerId ∧
    fence.generation = guard.fenceGeneration ∧ fence.issuedAt = guard.fenceIssuedAt ∧
    fence.tokenHash = guard.fenceTokenHash) .corruptRecord
  return (db, ())

/-- `renew_fence_operation`: the guard and its row move to the new expiry together. Neither the
row's own expiry nor quiescence is looked at. -/
def renewFenceOperation (db : FleetDb) (guard : FenceOperationGuard) (duration : ℕ)
    (clock : Option ℕ) : Except FleetError (FleetDb × FenceOperationGuard) := do
  validateOperationDuration duration
  let now ← trustedNow clock
  ensure (guard.lastRenewedAt ≤ now) .fenceOperationClockRegressed
  let _ ← matchingOperation db guard now
  let fence ← readFenceRow db guard.fenceKey .fenceOperationLost
  let requested ← orError (checkedAdd now duration) .invalidFenceOperationDuration
  ensure (requested ≤ fence.expiresAt) .invalidFenceOperationDuration
  ensure (guard.expiresAt < requested) .fenceOperationNonIncreasing
  let _ ← toI64 now
  let _ ← toI64 requested
  let operations := db.operations.update (fun row => row.operationHash = guard.operationHash)
    (fun row => { row with lastRenewedAt := now, expiresAt := requested }) fun _ _ => rfl
  ensure (∀ row ∈ operations.rows, row.operationHash = guard.operationHash → OperationCheck row)
    .database
  return ({ db with operations }, { guard with lastRenewedAt := now, expiresAt := requested })

/-- `release_fence_operation`: the guard is consumed and exactly its own row deleted. -/
def releaseFenceOperation (db : FleetDb) (guard : FenceOperationGuard) (clock : Option ℕ) :
    Except FleetError (FleetDb × Unit) := do
  let now ← trustedNow clock
  let _ ← matchingOperation db guard now
  let operations := db.operations.delete fun row => row.operationHash = guard.operationHash
  return ({ db with operations }, ())

/-- The order of the reaper: by expiry, then by hash. -/
def reapBefore (a b : FenceOperationRow) : Prop :=
  a.expiresAt < b.expiresAt ∨ (a.expiresAt = b.expiresAt ∧
      a.operationHash.bytes.map (·.toNat) ≤ b.operationHash.bytes.map (·.toNat))

instance : DecidableRel reapBefore := fun _ _ => inferInstanceAs (Decidable (_ ∨ _ ∧ _))

/-- `recover_expired_fence_operations`: the first `limit` expired rows go; one more is probed. -/
def recoverExpiredFenceOperations (db : FleetDb) (limit : ℕ) (clock : Option ℕ) :
    Except FleetError (FleetDb × FenceOperationRecovery) := do
  ensure (limit ≠ 0 ∧ limit ≤ maxFenceOperationRecoveryLimit) (.invalidField "recovery limit")
  let now ← trustedNow clock
  let _ ← readOperationRows db.operations.rows
  let _ ← toI64 now
  let expired := db.operations.rows.filter fun row => row.expiresAt ≤ now
  let probe := ((expired.insertionSort reapBefore).map (·.operationHash)).take (limit + 1)
  let removed := probe.take limit
  let operations := db.operations.delete fun row =>
    decide (row.operationHash ∈ removed) && decide (row.expiresAt ≤ now)
  return ({ db with operations }, ⟨removed, decide (limit < probe.length)⟩)

/-! ## Quiescence -/

/-- `acquire_quiescence`: leases and operations are both work; an expired operation row is not. -/
def acquireQuiescence (db : FleetDb) (owner : String) (now duration : ℕ) (clock : Option ℕ) :
    Except FleetError (FleetDb × FleetQuiescenceGuard) := do
  ensure (duration ≠ 0) .invalidLeaseDuration
  let owner ← validateText "quiescence owner" owner 256
  let expiresAt ← orError (checkedAdd now duration) .invalidLeaseDuration
  let _ ← toI64 now
  let db := closeLeases db (fun lease => lease.expiresAt ≤ now) .expired
  let db := { db with quiescence := db.quiescence.filter fun row => now < row.expiresAt }
  ensure (¬ db.quiescence.any fun row => now < row.expiresAt) .quiescenceHeld
  ensure (db.leases.rows.countP (fun lease => lease.state = .active) = 0) .activeLeasesPresent
  let nowTrusted ← trustedNow clock
  let rows ← readOperationRows db.operations.rows
  ensure (¬ rows.any fun row => nowTrusted < row.expiresAt) .activeFenceOperationsPresent
  let _ ← toI64 expiresAt
  return ({ db with quiescence := some ⟨owner, now, expiresAt⟩ }, ⟨owner⟩)

/-- `FleetQuiescenceGuard::drop`: the row goes if it has the guard's owner. -/
def dropQuiescence (db : FleetDb) (guard : FleetQuiescenceGuard) : FleetDb :=
  { db with quiescence := db.quiescence.filter fun row => row.owner ≠ guard.owner }

end Pandora.Fleet.Fences
