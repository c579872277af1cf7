import Pandora.Fleet.FenceAuthority

/-! # Supersession of fences

A handle is only as good as the generation it carries: the row of its key keeps the highest
generation ever issued. `Ages` says that a row never disappears and its generation never decreases;
every handle returned is recorded by the row from then on (`issued_recorded`), and an acquisition
goes strictly beyond it. A handle from before an acquisition is therefore refused for good. -/

namespace Pandora.Fleet.Supersession

open Lib.Checked Lib.Tables Lib.Runs.Machine Text Fleet.Records Fleet.Leases Fleet.Fences
  Fleet.Engine Fleet.Steps Fleet.FenceAuthority

/-! ### The row of a key -/

/-- The rows of `a` are in `b` with at least their generation. -/
def Ages (a b : FleetDb) : Prop :=
  ∀ row ∈ a.fences, ∃ row' ∈ b.fences, row'.fenceKey = row.fenceKey ∧
    row.generation ≤ row'.generation

theorem Ages.refl (db : FleetDb) : Ages db db := fun row hrow => ⟨row, hrow, rfl, Nat.le_refl _⟩

theorem Ages.trans {a b c : FleetDb} (hab : Ages a b) (hbc : Ages b c) : Ages a c := by
  intro row hrow
  obtain ⟨r₁, hr₁, hk₁, hg₁⟩ := hab row hrow
  obtain ⟨r₂, hr₂, hk₂, hg₂⟩ := hbc r₁ hr₁
  exact ⟨r₂, hr₂, by rw [hk₂, hk₁], by omega⟩

variable {req : GuardRequest}

theorem change_ages {a b : FleetDb} (hch : Change req a b) : Ages a b := by
  intro row hrow
  cases hch with
  | fenceInstalled new hfree hgen =>
    by_cases hkey : row.fenceKey = new.fenceKey
    · have hnext := hgen row (Table.get?_eq_some.mpr ⟨hrow, hkey⟩)
      exact ⟨new, Table.mem_upsert.mpr (Or.inl rfl), hkey.symm, by omega⟩
    · exact ⟨row, Table.mem_upsert.mpr (Or.inr ⟨hrow, hkey⟩), rfl, Nat.le_refl _⟩
  | fenceClosed p state hfree =>
    refine ⟨_, mem_closeFence.mpr ⟨row, hrow, rfl⟩, ?_⟩
    split_ifs <;> exact ⟨rfl, Nat.le_refl _⟩
  | fenceExtended generation hops =>
    refine ⟨_, mem_extendFence.mpr ⟨row, hrow, rfl⟩, ?_⟩
    split_ifs <;> exact ⟨rfl, Nat.le_refl _⟩
  | _ => exact ⟨row, hrow, rfl, Nat.le_refl _⟩

variable (sha : Sha256)

theorem run_ages (db : FleetDb) (reqs : List GuardRequest) : Ages db ((engine sha).run db reqs) :=
  run_keeps_pair sha Ages.refl (fun _ _ _ => Ages.trans) change_ages db reqs

/-! ### Handles -/

/-- The handle was returned by a request of the run. -/
def Issued (reqs : List GuardRequest) (fence : FleetLeaseFence) : Prop :=
  ∃ before req after, reqs = before ++ req :: after ∧
    answerAfter sha before req = .ok (.fence fence)

/-- The calls that present a handle. -/
def Presents (fence : FleetLeaseFence) : Call FenceOperationGuard FleetQuiescenceGuard → Prop
  | .assertFence f => f = fence
  | .renewFence f _ => f = fence
  | .releaseFence f => f = fence
  | .acquireFenceOperation f _ => f = fence
  | _ => False

/-- A row of the handle's key has at least the handle's generation. -/
def Recorded (db : FleetDb) (fence : FleetLeaseFence) : Prop :=
  ∃ row ∈ db.fences, row.fenceKey = fence.key ∧ fence.generation ≤ row.generation

variable {fence : FleetLeaseFence}

theorem Recorded.ages {a b : FleetDb} (h : Recorded a fence)
    (hab : Ages a b) : Recorded b fence := by
  obtain ⟨row, hrow, hkey, hgen⟩ := h
  obtain ⟨row', hrow', hkey', hgen'⟩ := hab row hrow
  exact ⟨row', hrow', by rw [hkey', hkey], by omega⟩

variable {sha} {db db' : FleetDb}

variable {now duration : ℕ}

/-- An acquisition installs the row of the handle it returns. It goes beyond the row it replaces,
and replaces none that is live. -/
theorem acquireFence_ok {key ownerId : String} {clock : Option ℕ} {random : Option Bytes32}
    (h : acquireFence sha db key ownerId now duration clock random = .ok (db', fence)) :
    (∃ row ∈ db'.fences, row.fenceKey = fence.key ∧ row.generation = fence.generation) ∧
    ∀ row ∈ db.fences, row.fenceKey = fence.key →
      row.generation < fence.generation ∧ ¬ (row.state = .active ∧ now < row.expiresAt) := by
  simp only [acquireFence, acquireFenceAt, bind_eq_ok, pure_eq_ok, Prod.mk.injEq] at h
  obtain ⟨t, -, -, -, k, -, o, -, expiresAt, -, token, -, db₁, hperm, -, -, generation,
    hgen, -, -, -, -, -, -, rfl, rfl⟩ := h
  refine ⟨⟨_, Table.mem_upsert.mpr (Or.inl rfl), rfl, rfl⟩, fun row hrow hkey => ?_⟩
  obtain ⟨-, -, rfl⟩ := ensureWorkPermitted_eq_ok.mp hperm
  obtain ⟨hnext, hdead⟩ := nextGeneration_ok hgen (Table.get?_eq_some.mpr ⟨hrow, hkey⟩)
  refine ⟨?_, hdead⟩
  show row.generation < generation
  omega

/-- A renewal returns the handle it was given, with another expiry, and the row has its
generation. -/
theorem renewFence_ok {fence' : FleetLeaseFence} {clock : Option ℕ}
    (h : renewFence sha db fence now duration clock = .ok (db', fence')) :
    (∃ expiresAt, fence' = { fence with expiresAt, state := .active }) ∧
      validateFence sha db fence now = .ok () := by
  simp only [renewFence, renewFenceAt, bind_eq_ok, pure_eq_ok, Prod.mk.injEq] at h
  obtain ⟨t, -, -, -, expiresAt, -, operation, -, -, -, ⟨⟩, hvalid, -, -, -, -, -, rfl⟩ := h
  exact ⟨⟨expiresAt, rfl⟩, hvalid⟩

theorem exec_fence_reply (h : (exec sha db req).2 = .ok (.fence fence)) :
    (∃ key ownerId duration, req.call = .acquireFence key ownerId duration ∧
      acquireFence sha db key ownerId req.now duration req.clock req.random =
        .ok ((exec sha db req).1, fence)) ∨
    ∃ old duration, req.call = .renewFence old duration ∧
      renewFence sha db old req.now duration req.clock = .ok ((exec sha db req).1, fence) := by
  obtain ⟨now, clock, random, call⟩ := req
  cases call with
  | acquireFence key ownerId duration =>
    obtain ⟨a, ha, hres⟩ := transact_snd h
    cases ha
    exact Or.inl ⟨key, ownerId, duration, rfl, hres⟩
  | renewFence old duration =>
    obtain ⟨a, ha, hres⟩ := transact_snd h
    cases ha
    exact Or.inr ⟨old, duration, rfl, hres⟩
  | dropQuiescence => cases h
  | renewLease leaseId executionId duration =>
    rcases hr : ((commit db (renewLease db leaseId executionId now duration)).2.bind id) with e | l
    all_goals simp [exec, hr, Except.map] at h
  | reapStaleSupervisors staleAfter =>
    rcases hr : (reapStaleSupervisors db now staleAfter).2 with e | l
    all_goals simp [exec, hr, Except.map] at h
  | _ =>
    obtain ⟨a, ha, -⟩ := transact_snd h
    cases ha

/-- A handle that validates carries the generation of the row of its key. -/
theorem validateFence_generation {u : Unit} (h : validateFence sha db fence now = .ok u) :
    ∃ row ∈ db.fences, row.fenceKey = fence.key ∧ row.generation = fence.generation ∧
      row.state = .active ∧ now < row.expiresAt := by
  obtain ⟨row, hget, hstate, hlive, -, -, hgen, -⟩ := validateFence_ok sha h
  obtain ⟨hrow, hkey⟩ := Table.get?_eq_some.mp hget
  exact ⟨row, hrow, hkey, hgen, hstate, hlive⟩

/-- `assert_fence` answers what `validate_fence` finds. -/
theorem exec_assertFence {reply : Reply}
    (hcall : req.call = .assertFence fence) (h : (exec sha db req).2 = .ok reply) :
    validateFence sha db fence req.now = .ok () := by
  simp only [exec, hcall] at h
  obtain ⟨a, -, hres⟩ := transact_snd h
  simp only [assertFence, bind_eq_ok] at hres
  obtain ⟨⟨⟩, hvalid, -⟩ := hres
  exact hvalid

/-- A call that presents a handle succeeds only for the generation of the row. -/
theorem exec_presents {reply : Reply}
    (hcall : Presents fence req.call) (h : (exec sha db req).2 = .ok reply) :
    ∃ row ∈ db.fences, row.fenceKey = fence.key ∧ row.generation = fence.generation := by
  obtain ⟨now, clock, random, call⟩ := req
  cases call with
  | assertFence f =>
    obtain rfl : f = fence := hcall
    obtain ⟨row, hrow, hkey, hgen, -⟩ := validateFence_generation (exec_assertFence rfl h)
    exact ⟨row, hrow, hkey, hgen⟩
  | renewFence f duration =>
    obtain rfl : f = fence := hcall
    obtain ⟨a, -, hres⟩ := transact_snd h
    obtain ⟨row, hrow, hkey, hgen, -⟩ := validateFence_generation (renewFence_ok hres).2
    exact ⟨row, hrow, hkey, hgen⟩
  | releaseFence f =>
    obtain rfl : f = fence := hcall
    obtain ⟨a, -, hres⟩ := transact_snd h
    simp only [releaseFence, releaseFenceAt, bind_eq_ok] at hres
    obtain ⟨t, -, -, -, ⟨⟩, hvalid, -⟩ := hres
    obtain ⟨row, hrow, hkey, hgen, -⟩ := validateFence_generation hvalid
    exact ⟨row, hrow, hkey, hgen⟩
  | acquireFenceOperation f duration =>
    obtain rfl : f = fence := hcall
    obtain ⟨a, -, hres⟩ := transact_snd h
    simp only [acquireFenceOperation, bind_eq_ok, ensure_eq_ok, readFenceRow_eq_ok] at hres
    obtain ⟨-, -, t, -, db₁, hperm, record, ⟨hget, -⟩, -, hbind, -⟩ := hres
    obtain ⟨-, -, rfl⟩ := ensureWorkPermitted_eq_ok.mp hperm
    obtain ⟨hrow, hkey⟩ := Table.get?_eq_some.mp hget
    exact ⟨record, hrow, hkey, hbind.2.2.2.2.2.1⟩
  | _ => exact hcall.elim

/-- The handle a request returns is recorded in the database it leaves. -/
theorem exec_recorded
    (h : (exec sha db req).2 = .ok (.fence fence)) : Recorded (exec sha db req).1 fence := by
  rcases exec_fence_reply h with ⟨key, ownerId, duration, -, hres⟩ | ⟨old, duration, -, hres⟩
  · obtain ⟨⟨row, hrow, hkey, hgen⟩, -⟩ := acquireFence_ok hres
    exact ⟨row, hrow, hkey, by omega⟩
  · obtain ⟨⟨expiresAt, rfl⟩, hvalid⟩ := renewFence_ok hres
    obtain ⟨row, hrow, hkey, hgen, -⟩ := validateFence_generation hvalid
    have hold : Recorded db { old with expiresAt, state := .active } :=
      ⟨row, hrow, hkey, ge_of_eq hgen⟩
    exact hold.ages (run_ages sha db [req])

variable (sha)

theorem dbAfter_append (reqs later : List GuardRequest) :
    dbAfter sha (reqs ++ later) = (engine sha).run (dbAfter sha reqs) later := run_append _ _ _ _

/-- Every handle ever returned is recorded: the row of its key has at least its generation. -/
theorem issued_recorded {reqs : List GuardRequest}
    (h : Issued sha reqs fence) : Recorded (dbAfter sha reqs) fence := by
  obtain ⟨before, req, after, rfl, hans⟩ := h
  rw [dbAfter_append, run_cons]
  exact (exec_recorded hans).ages (run_ages sha _ after)

theorem acquired_beyond {reqs : List GuardRequest} {key ownerId : String}
    {old new : FleetLeaseFence}
    (hcall : req.call = .acquireFence key ownerId duration)
    (hnew : answerAfter sha reqs req = .ok (.fence new)) (hold : Issued sha reqs old)
    (hkey : old.key = new.key) : old.generation < new.generation := by
  obtain ⟨row, hrow, hrkey, hgen⟩ := issued_recorded sha hold
  rcases exec_fence_reply hnew with ⟨_, _, _, -, hres⟩ | ⟨_, _, hother, -⟩
  · have hlt := ((acquireFence_ok hres).2 row hrow (by rw [hrkey, hkey])).1
    omega
  · rw [hcall] at hother; cases hother

/-- Beyond its generation, a handle is refused whatever call presents it. -/
theorem superseded_refused {db : FleetDb} {old new : FleetLeaseFence}
    (hrec : Recorded db new) (hkey : old.key = new.key) (hgen : old.generation < new.generation)
    (hcall : Presents old req.call) (reply : Reply) : (exec sha db req).2 ≠ .ok reply := by
  intro hok
  obtain ⟨row, hrow, hrkey, hrgen⟩ := hrec
  obtain ⟨row', hrow', hrkey', hrgen'⟩ := exec_presents hcall hok
  obtain rfl : row' = row := Table.eq_of_key hrow' hrow (by rw [hrkey', hrkey, hkey])
  omega

/-- **Supersession.** In any run with any clocks the generation of a key never decreases; a
successful acquisition returns one beyond that of every handle before, each of which passes no check
from then on; two handles of one key that both pass `assert_fence` are of one generation; and a
handle and its renewal are, and pass at the same times. -/
theorem fence_supersession (reqs : List GuardRequest) :
    (∀ key row later, (dbAfter sha reqs).fences.get? key = some row →
      ∃ row', (dbAfter sha (reqs ++ later)).fences.get? key = some row' ∧
        row.generation ≤ row'.generation) ∧
    (∀ req key ownerId duration new, req.call = .acquireFence key ownerId duration →
      answerAfter sha reqs req = .ok (.fence new) →
      ∀ old, Issued sha reqs old → old.key = new.key → old.generation < new.generation ∧
        (∀ later present reply, Presents old present.call →
          answerAfter sha (reqs ++ req :: later) present ≠ .ok reply) ∧
        ∀ check reply, check.call = .assertFence old → check.now = req.now →
          answerAfter sha reqs check ≠ .ok reply) ∧
    (∀ a b check check' reply reply', check.call = .assertFence a → check'.call = .assertFence b →
      answerAfter sha reqs check = .ok reply → answerAfter sha reqs check' = .ok reply' →
      a.key = b.key → a.generation = b.generation) ∧
    ∀ req old duration new, req.call = .renewFence old duration →
      answerAfter sha reqs req = .ok (.fence new) →
      (new.key = old.key ∧ new.generation = old.generation) ∧
        ∀ later check check', check.call = .assertFence old → check'.call = .assertFence new →
          check.now = check'.now → answerAfter sha later check = answerAfter sha later check' := by
  refine ⟨fun key row later hget => ?_, fun req key ownerId duration new hcall hnew old hold hkey =>
    ⟨acquired_beyond sha hcall hnew hold hkey, fun later present reply hpresents => ?_,
      fun check reply hcheck htime hok => ?_⟩,
    fun a b check check' reply reply' hcheck hcheck' hok hok' hkey => ?_,
    fun req old duration new hcall hnew => ?_⟩
  · obtain ⟨hrow, rfl⟩ := Table.get?_eq_some.mp hget
    rw [dbAfter_append]
    obtain ⟨row', hrow', hkey, hgen⟩ := run_ages sha (dbAfter sha reqs) later row hrow
    exact ⟨row', Table.get?_eq_some.mpr ⟨hrow', hkey⟩, hgen⟩
  · have hrec : Recorded (dbAfter sha (reqs ++ req :: later)) new := by
      rw [dbAfter_append, run_cons]
      exact (exec_recorded hnew).ages (run_ages sha _ later)
    exact superseded_refused sha hrec hkey (acquired_beyond sha hcall hnew hold hkey)
      hpresents reply
  · -- The row the acquisition replaces is the one the handle is checked against, at the same time.
    obtain ⟨row, hrow, hrkey, -, hstate, hlive⟩ :=
      validateFence_generation (exec_assertFence hcheck hok)
    rcases exec_fence_reply hnew with ⟨_, _, _, -, hres⟩ | ⟨_, _, hother, -⟩
    · rw [htime] at hlive
      exact ((acquireFence_ok hres).2 row hrow (by rw [hrkey, hkey])).2 ⟨hstate, hlive⟩
    · rw [hcall] at hother; cases hother
  · obtain ⟨row, hrow, hrkey, hgen, -⟩ := validateFence_generation (exec_assertFence hcheck hok)
    obtain ⟨row', hrow', hrkey', hgen', -⟩ :=
      validateFence_generation (exec_assertFence hcheck' hok')
    obtain rfl : row' = row := Table.eq_of_key hrow' hrow (by rw [hrkey', hrkey, hkey])
    omega
  · rcases exec_fence_reply hnew with ⟨_, _, _, hother, -⟩ | ⟨_, _, hsame, hres⟩
    · rw [hcall] at hother
      cases hother
    · rw [hcall] at hsame
      cases hsame
      obtain ⟨⟨expiresAt, rfl⟩, -⟩ := renewFence_ok hres
      -- the expiry is the only part of a handle that `validate_fence` does not read
      refine ⟨⟨rfl, rfl⟩, fun later check check' hcheck hcheck' htime => ?_⟩
      show (exec sha _ check).2 = (exec sha _ check').2
      simp only [exec, hcheck, hcheck', htime]
      rfl

/-- The handle that `sampleFence` becomes when it is renewed at time 110 for 2000 seconds. -/
def renewedFence : FleetLeaseFence := { sampleFence with expiresAt := 2110 }

/-- A handle and its renewal, two handles of one key, both pass `assert_fence` at time 120. -/
theorem renewed_handle_beside_original :
    answerAfter sampleSha [] (requestAt 100 (.acquireFence "k" "a" 1000)) =
      .ok (.fence sampleFence) ∧
    answerAfter sampleSha [requestAt 100 (.acquireFence "k" "a" 1000)]
      (requestAt 110 (.renewFence sampleFence 2000)) = .ok (.fence renewedFence) ∧
    sampleFence ≠ renewedFence ∧ sampleFence.key = renewedFence.key ∧
    answerAfter sampleSha [requestAt 100 (.acquireFence "k" "a" 1000),
      requestAt 110 (.renewFence sampleFence 2000)] (requestAt 120 (.assertFence sampleFence)) =
        .ok .unit ∧
    answerAfter sampleSha [requestAt 100 (.acquireFence "k" "a" 1000),
      requestAt 110 (.renewFence sampleFence 2000)] (requestAt 120 (.assertFence renewedFence)) =
        .ok .unit := by
  refine ⟨?_, ?_, ?_, rfl, ?_, ?_⟩ <;> decide +kernel

end Pandora.Fleet.Supersession
