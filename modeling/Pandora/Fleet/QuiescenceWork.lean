import Pandora.Fleet.FenceAuthority

/-! # Quiescence and running operations

A quiescence is granted only when no operation is live, and a new operation is refused while it is
held: both look at the clock once, at the grant. An operation row that had expired before the grant
is still there, and `renew_fence_operation` compares neither the row's expiry nor the quiescence, so
it can bring the row back to life (`quiescence_beside_live_operation`).

**Main result** (`quiescence_excludes_operations`): this is the only way. -/

namespace Pandora.Fleet.QuiescenceWork

open Lib.Tables Lib.Runs.Machine Text Fleet.Records Fleet.Fences Fleet.Engine Fleet.Steps
  Fleet.FenceAuthority

/-- The caller's clock and the trusted clock are one. -/
def Synchronous {γ δ : Type} (req : Request γ δ) : Prop := ∀ t, req.clock = some t → t = req.now

def timeOf {γ δ : Type} (req : Request γ δ) : Option ℕ := some req.now

/-- No expired operation row is renewed while an unexpired quiescence row is present. -/
def RevivesNothing (db : FleetDb) (req : GuardRequest) : Prop :=
  match req.call with
  | .renewFenceOperation guard _ =>
    ∀ row, db.quiescence = some row → req.now < row.expiresAt →
      ∀ op ∈ db.operations, op.operationHash = guard.operationHash → req.now < op.expiresAt
  | _ => True

/-- An unexpired quiescence row excludes unexpired operation rows. -/
def Excludes (c : ℕ) (db : FleetDb) : Prop :=
  ∀ row, db.quiescence = some row → c < row.expiresAt → ∀ op ∈ db.operations, op.expiresAt ≤ c

theorem Excludes.mono {c c' : ℕ} {db : FleetDb} (hc : c ≤ c') (h : Excludes c db) :
    Excludes c' db :=
  fun row hrow hlive op hop => Nat.le_trans (h row hrow (by omega) op hop) hc

theorem fresh_excludes : Excludes 0 .fresh := by
  intro row hrow
  simp [FleetDb.fresh] at hrow

/-- A change keeps the exclusion, unless it renews an expired row under a live quiescence. -/
theorem change_excludes {req : GuardRequest} {a b : FleetDb} (hch : Change req a b)
    (hsync : Synchronous req) (hrevive : RevivesNothing a req) (h : Excludes req.now a) :
    Excludes req.now b := by
  intro row hrow hlive
  cases hch with
  | quiescenceLapsed => simp at hrow
  | quiescenceDropped => exact h row (Option.filter_eq_some_iff.mp hrow).1 hlive
  | quiescenceGranted hcall hclock hnone hleases hops =>
    rw [← hsync _ hclock]
    exact hops
  | operationGranted hins hfence hcov hfree hquiet => rw [hquiet] at hrow; simp at hrow
  | operationExtended hcall hclock hmem hhash =>
    -- The row the guard names had expired, so this renewal is the one that is excluded.
    have hexp := h row hrow hlive _ hmem
    simp only [RevivesNothing, hcall] at hrevive
    have hnot := hrevive row hrow hlive _ hmem hhash
    omega
  | operationReleased | operationsReaped =>
    exact fun op hop => h row hrow hlive op (Table.mem_delete.mp hop).1
  | _ => exact h row hrow hlive

variable (sha : Sha256)

theorem exec_excludes {db : FleetDb} {req : GuardRequest} (hsync : Synchronous req)
    (hrevive : RevivesNothing db req) (h : Excludes req.now db) :
    Excludes req.now (exec sha db req).1 := by
  by_cases hcall : ∃ guard duration, req.call = .renewFenceOperation guard duration
  · obtain ⟨guard, duration, hcall⟩ := hcall
    rcases exec_renewFenceOperation sha db hcall with hsame | hch
    · rw [hsame]; exact h
    · exact change_excludes hch hsync hrevive h
  · -- Of any other call there is nothing to ask, whichever database its changes meet.
    have hany : ∀ a, RevivesNothing a req := by
      intro a
      unfold RevivesNothing
      split
      · next guard duration heq => exact absurd ⟨guard, duration, heq⟩ hcall
      · trivial
    exact exec_keeps sha (fun {a b} hch => change_excludes hch hsync (hany a)) h

/-- **Quiescence excludes running operations**, in every run with one non-decreasing clock that
renews no expired operation row while an unexpired quiescence row is present. -/
theorem quiescence_excludes_operations (reqs : List GuardRequest) (c : ℕ)
    (hclock : Clocked timeOf 0 reqs c)
    (hsteps : (engine sha).Along (fun db req => Synchronous req ∧ RevivesNothing db req)
      .fresh reqs) :
    ∀ row, (dbAfter sha reqs).quiescence = some row → c < row.expiresAt →
      ∀ op ∈ (dbAfter sha reqs).operations, op.expiresAt ≤ c :=
  run_invariant_clocked (engine sha) (P := Excludes) Excludes.mono
    (fun _ hC h => exec_excludes sha hC.1 hC.2 h) reqs hclock hsteps fresh_excludes

/-- The operation of `sampleRun` expires at 150; a quiescence is acquired then, and nothing is
live. -/
theorem quiescence_excludes_operations_sample :
    (dbAfter sampleSha (sampleRun ++ [requestAt 150 (.acquireQuiescence "q" 100)])).quiescence =
      some ⟨"q", 150, 250⟩ ∧
    ∀ op ∈ (dbAfter sampleSha
      (sampleRun ++ [requestAt 150 (.acquireQuiescence "q" 100)])).operations,
        op.expiresAt ≤ 150 := by
  have hheld :
      (dbAfter sampleSha (sampleRun ++ [requestAt 150 (.acquireQuiescence "q" 100)])).quiescence =
      some ⟨"q", 150, 250⟩ := by decide +kernel
  refine ⟨hheld, quiescence_excludes_operations sampleSha
    (sampleRun ++ [requestAt 150 (.acquireQuiescence "q" 100)]) 150 ?_ ?_ _ hheld (by decide)⟩
  · simp [Clocked, sampleRun, requestAt, timeOf]
  · simp [Along, sampleRun, requestAt, Synchronous, RevivesNothing]

/-- Renewal of the expired operation under the quiescence. -/
def revivalRun : List GuardRequest :=
  sampleRun ++ [requestAt 150 (.acquireQuiescence "q" 100),
    requestAt 160 (.renewFenceOperation sampleGuard 60)]

/-- At time 160 of this run a quiescence that lasts until 250 stands beside an operation that lasts
until 220; the guard renewed is the one its acquisition returned. -/
theorem quiescence_beside_live_operation :
    answerAfter sampleSha [requestAt 100 (.acquireFence "k" "a" 1000)]
      (requestAt 100 (.acquireFenceOperation sampleFence 50)) = .ok (.operation sampleGuard) ∧
    Clocked timeOf 0 revivalRun 160 ∧ (∀ req ∈ revivalRun, Synchronous req) ∧
    (dbAfter sampleSha revivalRun).quiescence = some ⟨"q", 150, 250⟩ ∧ 160 < 250 ∧
    ∃ op ∈ (dbAfter sampleSha revivalRun).operations, 160 < op.expiresAt := by
  refine ⟨by decide +kernel, ?_, ?_, by decide +kernel, by decide, ?_⟩
  · simp [Clocked, revivalRun, sampleRun, requestAt, timeOf]
  · simp [revivalRun, sampleRun, requestAt, Synchronous]
  · have hlive :
        (dbAfter sampleSha revivalRun).operations.rows.any (fun op => 160 < op.expiresAt) =
          true := by
      decide +kernel
    simpa [Table.mem_rows] using hlive

end Pandora.Fleet.QuiescenceWork
