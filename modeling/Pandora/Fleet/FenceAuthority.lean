import Pandora.Fleet.Steps

/-! # The authority of fence operations

An operation row is authority over its fence: there is at most one for a key, and the fence it is
bound to stays as the row records it and lasts at least as long (`Authority`). Every change keeps
this, with no assumption on the clocks: the mutations of a fence are blocked by the row itself, live
or not, and the one that is let through extends the fence beyond the row. -/

namespace Pandora.Fleet.FenceAuthority

open Lib.Checked Lib.Tables Text Fleet.Records Fleet.Fences Fleet.Engine Fleet.Steps

/-- At most one row for a fence, and the fence covers it. -/
structure Authority (db : FleetDb) : Prop where
  unique : ∀ a ∈ db.operations, ∀ b ∈ db.operations, a.fenceKey = b.fenceKey → a = b
  covered : ∀ op ∈ db.operations, ∃ fence ∈ db.fences, fence.fenceKey = op.fenceKey ∧
    Covers fence op

theorem fresh_authority : Authority .fresh := ⟨by simp [FleetDb.fresh], by simp [FleetDb.fresh]⟩

section

variable {req : GuardRequest} {db : FleetDb}

/-! ### Changes of fences -/

theorem fenceInstalled_authority (h : Authority db) {row : FenceRow}
    (hfree : ∀ op ∈ db.operations, op.fenceKey ≠ row.fenceKey) :
    Authority { db with fences := db.fences.upsert row } := by
  refine ⟨h.unique, fun op hop => ?_⟩
  obtain ⟨fence, hfence, hkey, hcov⟩ := h.covered op hop
  have hne : fence.fenceKey ≠ row.fenceKey := by rw [hkey]; exact hfree op hop
  exact ⟨fence, Table.mem_upsert.mpr (Or.inr ⟨hfence, hne⟩), hkey, hcov⟩

theorem fenceClosed_authority (h : Authority db) {key : String} {p : FenceRow → Bool}
    {state : FleetFenceState} (hfree : ∀ op ∈ db.operations, op.fenceKey ≠ key) :
    Authority (closeFence db key p state) := by
  refine ⟨h.unique, fun op hop => ?_⟩
  obtain ⟨fence, hfence, hkey, hcov⟩ := h.covered op hop
  have hne : fence.fenceKey ≠ key := by rw [hkey]; exact hfree op hop
  exact ⟨fence, mem_closeFence.mpr ⟨fence, hfence, by simp [hne]⟩, hkey, hcov⟩

theorem fenceExtended_authority (h : Authority db) {key : String} {generation expiresAt : ℕ}
    (hops : ∀ op ∈ db.operations, op.fenceKey = key → op.expiresAt < expiresAt) :
    Authority (extendFence db key generation expiresAt) := by
  refine ⟨h.unique, fun op hop => ?_⟩
  obtain ⟨fence, hfence, hkey, hcov⟩ := h.covered op hop
  refine ⟨_, mem_extendFence.mpr ⟨fence, hfence, rfl⟩, ?_⟩
  split_ifs with hp
  · -- The extended fence still outlasts the row: only its expiry moves, and beyond the row's.
    obtain ⟨hstate, howner, hgen, hhash, hissued, -⟩ := hcov
    have hlt := hops op hop (by rw [← hkey]; exact hp.1)
    exact ⟨hkey, hstate, howner, hgen, hhash, hissued, Nat.le_of_lt hlt⟩
  · exact ⟨hkey, hcov⟩

/-! ### Changes of operations -/

theorem operationGranted_authority (h : Authority db) {row : FenceOperationRow}
    {operations : Table FenceOperationRow.operationHash} {fence : FenceRow}
    (hins : db.operations.insert? row = some operations)
    (hfence : db.fences.get? row.fenceKey = some fence) (hcov : Covers fence row)
    (hfree : ∀ op ∈ db.operations, op.fenceKey ≠ row.fenceKey) :
    Authority { db with operations } := by
  refine ⟨fun a ha b hb hkey => ?_, fun op hop => ?_⟩
  · rcases (Table.mem_insert? hins).mp ha with ha | rfl <;>
      rcases (Table.mem_insert? hins).mp hb with hb | rfl
    · exact h.unique a ha b hb hkey
    · exact absurd hkey (hfree a ha)
    · exact absurd hkey.symm (hfree b hb)
    · rfl
  · rcases (Table.mem_insert? hins).mp hop with hop | rfl
    · exact h.covered op hop
    · obtain ⟨hmem, hkey⟩ := Table.get?_eq_some.mp hfence
      exact ⟨fence, hmem, hkey, hcov⟩

theorem operationExtended_authority (h : Authority db) {hash : Bytes32} {t expiresAt : ℕ}
    {row : FenceOperationRow} {fence : FenceRow} (hrow : row ∈ db.operations)
    (hhash : row.operationHash = hash) (hfence : db.fences.get? row.fenceKey = some fence)
    (hle : expiresAt ≤ fence.expiresAt) : Authority (extendOperation db hash t expiresAt) := by
  refine ⟨fun a ha b hb hkey => ?_, fun op hop => ?_⟩
  · obtain ⟨a₀, ha₀, rfl⟩ := mem_extendOperation.mp ha
    obtain ⟨b₀, hb₀, rfl⟩ := mem_extendOperation.mp hb
    have hkey₀ : a₀.fenceKey = b₀.fenceKey := by
      split_ifs at hkey <;> exact hkey
    rw [h.unique a₀ ha₀ b₀ hb₀ hkey₀]
  · obtain ⟨op₀, hop₀, rfl⟩ := mem_extendOperation.mp hop
    obtain ⟨cover, hcover, hkey, hcov⟩ := h.covered op₀ hop₀
    split_ifs with hp
    · -- The renewed row is the guard's own, and the new expiry was compared with its fence.
      obtain rfl : op₀ = row := Table.eq_of_key hop₀ hrow (by rw [hp, hhash])
      obtain ⟨hmem, hfkey⟩ := Table.get?_eq_some.mp hfence
      obtain rfl : cover = fence := Table.eq_of_key hcover hmem (by rw [hkey, hfkey])
      obtain ⟨hstate, howner, hgen, htoken, hissued, -⟩ := hcov
      exact ⟨cover, hcover, hkey, hstate, howner, hgen, htoken, hissued, hle⟩
    · exact ⟨cover, hcover, hkey, hcov⟩

theorem operationsDeleted_authority (h : Authority db) (p : FenceOperationRow → Bool) :
    Authority { db with operations := db.operations.delete p } :=
  ⟨fun a ha b hb => h.unique a (Table.mem_delete.mp ha).1 b (Table.mem_delete.mp hb).1,
    fun op hop => h.covered op (Table.mem_delete.mp hop).1⟩

theorem change_authority {db' : FleetDb} (hch : Change req db db') (h : Authority db) :
    Authority db' := by
  cases hch with
  | nodeRegistered | nodeWithdrawn | leasesClosed | leasesExtended | leaseGranted | supervisorSaved
  | quiescenceLapsed | quiescenceDropped | quiescenceGranted => exact ⟨h.unique, h.covered⟩
  | fenceInstalled row hfree => exact fenceInstalled_authority h hfree
  | fenceClosed p state hfree => exact fenceClosed_authority h hfree
  | fenceExtended generation hops => exact fenceExtended_authority h hops
  | operationGranted hins hfence hcov hfree =>
    exact operationGranted_authority h hins hfence hcov hfree
  | operationExtended hcall hclock hrow hhash hbind hfence hle =>
    exact operationExtended_authority h hrow hhash hfence hle
  | operationReleased => exact operationsDeleted_authority h _
  | operationsReaped p => exact operationsDeleted_authority h p

end

variable (sha : Sha256)

theorem dbAfter_authority (reqs : List GuardRequest) : Authority (dbAfter sha reqs) :=
  dbAfter_keeps sha fresh_authority change_authority reqs

theorem Authority.rows_le_one {db : FleetDb} (h : Authority db) (key : String) :
    (db.operations.rows.filter fun op => op.fenceKey = key).length ≤ 1 := by
  have hnodup : (db.operations.rows.filter fun op => op.fenceKey = key).Nodup :=
    (List.Nodup.of_map _ db.operations.nodup).filter _
  by_contra hlen
  have h0 : 0 < (db.operations.rows.filter fun op => op.fenceKey = key).length := by omega
  have h1 : 1 < (db.operations.rows.filter fun op => op.fenceKey = key).length := by omega
  obtain ⟨ha, hakey⟩ := List.mem_filter.mp (List.getElem_mem h0)
  obtain ⟨hb, hbkey⟩ := List.mem_filter.mp (List.getElem_mem h1)
  rw [decide_eq_true_eq] at hakey hbkey
  have heq := h.unique _ ha _ hb (by rw [hakey, hbkey])
  exact absurd ((List.Nodup.getElem_inj_iff hnodup).mp heq) (by omega)

theorem Authority.assert_live {db : FleetDb} (h : Authority db) {guard : FenceOperationGuard}
    {t : ℕ} {r : FleetDb × Unit} (hok : assertFenceOperation db guard (some t) = .ok r) :
    ∃ fence, db.fences.get? guard.fenceKey = some fence ∧ fence.state = .active ∧
      fence.ownerId = guard.fenceOwnerId ∧ fence.generation = guard.fenceGeneration ∧
      fence.tokenHash = guard.fenceTokenHash ∧ fence.issuedAt = guard.fenceIssuedAt ∧
      t < fence.expiresAt := by
  simp only [assertFenceOperation, bind_eq_ok, ensure_eq_ok, trustedNow_eq_ok,
    Option.some.injEq] at hok
  obtain ⟨_, rfl, row, hmatch, -, hlive, -⟩ := hok
  obtain ⟨hmem, -, ⟨hkey, howner, hgen, htoken, hissued, -⟩, -, -⟩ := matchingOperation_ok hmatch
  obtain ⟨fence, hfence, hfkey, hstate, hfowner, hfgen, hftoken, hfissued, hle⟩ :=
    h.covered row hmem
  refine ⟨fence, Table.get?_eq_some.mpr ⟨hfence, by rw [hfkey, hkey]⟩, hstate, ?_, ?_, ?_, ?_, ?_⟩
  · rw [hfowner, howner]
  · rw [hfgen, hgen]
  · rw [hftoken, htoken]
  · rw [hfissued, hissued]
  · exact Nat.lt_of_lt_of_le hlive hle

/-- **The authority invariant**, in every reachable database and with any clocks: a key has at most
one operation row, and the fence of the row is there, active, with what the row records, and lasts
at least as long; so an asserted operation is bound to a fence that is active and unexpired. -/
theorem fence_operation_authority (reqs : List GuardRequest) :
    (∀ key, ((dbAfter sha reqs).operations.rows.filter fun op => op.fenceKey = key).length ≤ 1) ∧
    (∀ op ∈ (dbAfter sha reqs).operations, ∃ fence,
      (dbAfter sha reqs).fences.get? op.fenceKey = some fence ∧ Covers fence op) ∧
    ∀ (now t : ℕ) (random : Option Bytes32) (guard : FenceOperationGuard),
      answerAfter sha reqs ⟨now, some t, random, .assertFenceOperation guard⟩ = .ok .unit →
      ∃ fence, (dbAfter sha reqs).fences.get? guard.fenceKey = some fence ∧ fence.state = .active ∧
        fence.ownerId = guard.fenceOwnerId ∧ fence.generation = guard.fenceGeneration ∧
        fence.tokenHash = guard.fenceTokenHash ∧ fence.issuedAt = guard.fenceIssuedAt ∧
        t < fence.expiresAt := by
  have h := dbAfter_authority sha reqs
  refine ⟨h.rows_le_one, fun op hop => ?_, fun now t random guard hok => ?_⟩
  · obtain ⟨fence, hfence, hkey, hcov⟩ := h.covered op hop
    exact ⟨fence, Table.get?_eq_some.mpr ⟨hfence, hkey⟩, hcov⟩
  · obtain ⟨_, -, hassert⟩ := transact_snd hok
    exact h.assert_live hassert

/-! ### A run with an operation

The random source returns 32 zero bytes; the digests are those of SHA-256 for these bytes and for
their hexadecimal text. -/

def zeroBytes : Bytes32 := ⟨List.replicate 32 0, rfl⟩

def sampleSha : Sha256 := fun message =>
  if message = zeroBytes.bytes then
    ⟨[102, 104, 122, 173, 248, 98, 189, 119, 108, 143, 193, 139, 142, 159, 142, 32, 8, 151, 20, 133,
      110, 226, 51, 179, 144, 42, 89, 29, 13, 95, 41, 37], rfl⟩
  else
    ⟨[96, 224, 91, 209, 177, 149, 175, 47, 148, 17, 47, 167, 25, 122, 92, 136, 40, 144, 88, 132, 12,
      231, 198, 223, 150, 147, 117, 107, 198, 37, 15, 85], rfl⟩

/-- A request at one time for both clocks. -/
def requestAt {γ δ : Type} (t : ℕ) (call : Call γ δ) : Request γ δ :=
  ⟨t, some t, some zeroBytes, call⟩

/-- The fence that `a` acquires on `k` at time 100 for 1000 seconds. -/
def sampleFence : FleetLeaseFence :=
  ⟨"k", "a", 1, "0000000000000000000000000000000000000000000000000000000000000000", 100,
    1100, .active⟩

/-- Its operation, acquired at time 100 for 50 seconds. -/
def sampleGuard : FenceOperationGuard :=
  ⟨sampleSha zeroBytes.bytes, "k", "a", 1, fenceTokenHash sampleSha sampleFence.token, 100, 100,
    100, 150⟩

/-- The fence and its operation are acquired. -/
def sampleRun {γ δ : Type} : List (Request γ δ) :=
  [requestAt 100 (.acquireFence "k" "a" 1000), requestAt 100
    (.acquireFenceOperation sampleFence 50)]

theorem fence_operation_authority_sample :
    ∃ fence, (dbAfter sampleSha sampleRun).fences.get? "k" = some fence ∧ fence.state = .active ∧
      fence.ownerId = "a" ∧ fence.generation = 1 ∧ fence.tokenHash = sampleGuard.fenceTokenHash ∧
      fence.issuedAt = 100 ∧ 149 < fence.expiresAt :=
  (fence_operation_authority sampleSha sampleRun).2.2 0 149 none sampleGuard (by decide +kernel)

end Pandora.Fleet.FenceAuthority
