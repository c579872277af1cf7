import Pandora.Fleet.FenceAuthority

/-! # Expiry of operation guards

A guard object and its row move together: the row has the guard's expiry, or it is gone for good and
the guard has expired (`Bound`). A row of another acquisition never passes for the guard's own,
because it was acquired later. So an expired guard is dead unless its own renewal moves its expiry,
and `renew_fence_operation` does not look at it: before the reaper's sweep it brings the guard back
(`expired_guard_revived`). -/

namespace Pandora.Fleet.GuardExpiry

open Lib.Checked Lib.Tables Lib.Runs.Machine Lib.Objects Text Fleet.Records Fleet.Leases
  Fleet.Fences Fleet.Engine Fleet.Steps Fleet.FenceAuthority

/-! ### One guard and its row -/

/-- The row is the guard's own. -/
def Owns (g : FenceOperationGuard) (row : FenceOperationRow) : Prop :=
  row.operationHash = g.operationHash ∧ Binds g row

/-- The guard's row is there, with the guard's expiry, or it is gone and the guard has expired. -/
def Bound (c : ℕ) (db : FleetDb) (g : FenceOperationGuard) : Prop :=
  g.acquiredAt < g.expiresAt ∧ ((∃ row ∈ db.operations, Owns g row ∧ row.expiresAt = g.expiresAt) ∨
      (g.expiresAt ≤ c ∧ ∀ row ∈ db.operations, ¬ Owns g row))

/-- Two guards of different acquisitions. -/
def Apart (g g' : FenceOperationGuard) : Prop :=
  g.operationHash = g'.operationHash → g.acquiredAt ≠ g'.acquiredAt

variable {g : FenceOperationGuard}

theorem Apart.symm {g' : FenceOperationGuard} (h : Apart g g') : Apart g' g :=
  fun hhash hacq => h hhash.symm hacq.symm

/-- The guard whose row a call writes. -/
def writes {δ : Type} : Call FenceOperationGuard δ → Option FenceOperationGuard
  | .renewFenceOperation guard _ => some guard
  | .releaseFenceOperation guard => some guard
  | _ => none

theorem Bound.mono {c c' : ℕ} {db : FleetDb} (hc : c ≤ c') (h : Bound c db g) : Bound c' db g := by
  obtain ⟨hlt, hrow | ⟨hexp, hnone⟩⟩ := h
  · exact ⟨hlt, Or.inl hrow⟩
  · exact ⟨hlt, Or.inr ⟨by omega, hnone⟩⟩

section

variable {req : GuardRequest} {a : FleetDb} {c : ℕ} {g guard : FenceOperationGuard}

variable {row : FenceOperationRow}

theorem Apart.not_owns (h : Apart g guard) (hg : Owns g row) :
    ¬ Owns guard row := by
  intro hguard
  have hhash : g.operationHash = guard.operationHash := by rw [← hg.1, hguard.1]
  obtain ⟨-, -, -, -, -, hacq⟩ := hg.2
  obtain ⟨-, -, -, -, -, hacq'⟩ := hguard.2
  exact h hhash (by rw [← hacq, hacq'])

theorem Apart.operationHash_ne {a : FleetDb} {own : FenceOperationRow} (h : Apart g guard)
    (hmem : own ∈ a.operations) (howns : Owns g own) (hrow : row ∈ a.operations)
    (hown : Owns guard row) : own.operationHash ≠ guard.operationHash := by
  intro he
  obtain rfl : own = row := Table.eq_of_key hmem hrow (by rw [he, hown.1])
  exact h.not_owns howns hown

theorem operationGranted_bound {operations : Table FenceOperationRow.operationHash}
    (hins : a.operations.insert? row = some operations) (hacq : row.acquiredAt = c)
    (h : Bound c a g) : Bound c { a with operations } g := by
  obtain ⟨hlt, ⟨own, hmem, hown⟩ | ⟨hexp, hnone⟩⟩ := h
  · exact ⟨hlt, Or.inl ⟨own, (Table.mem_insert? hins).mpr (Or.inl hmem), hown⟩⟩
  · refine ⟨hlt, Or.inr ⟨hexp, fun r hr howns => ?_⟩⟩
    rcases (Table.mem_insert? hins).mp hr with hr | rfl
    · exact hnone r hr howns
    · -- The new row was acquired now, after the guard expired.
      obtain ⟨-, -, -, -, -, -, hat⟩ := howns
      omega

theorem operationExtended_bound {t expiresAt : ℕ}
    (hrow : row ∈ a.operations) (hown : Owns guard row) (hapart : Apart g guard) (h : Bound c a g) :
    Bound c (extendOperation a guard.operationHash t expiresAt) g := by
  obtain ⟨hlt, ⟨own, hmem, howns, hexp⟩ | ⟨hexp, hnone⟩⟩ := h
  · have hne := hapart.operationHash_ne hmem howns hrow hown
    exact ⟨hlt, Or.inl ⟨own, mem_extendOperation.mpr ⟨own, hmem, by simp [hne]⟩, howns, hexp⟩⟩
  · refine ⟨hlt, Or.inr ⟨hexp, fun r hr howns => ?_⟩⟩
    obtain ⟨old, hold, rfl⟩ := mem_extendOperation.mp hr
    refine hnone old hold ?_
    split_ifs at howns with hp
    all_goals exact howns

theorem operationReleased_bound (hrow : row ∈ a.operations)
    (hown : Owns guard row) (hapart : Apart g guard) (h : Bound c a g) :
    Bound c { a with
      operations := a.operations.delete fun row => row.operationHash = guard.operationHash } g := by
  obtain ⟨hlt, ⟨own, hmem, howns, hexp⟩ | ⟨hexp, hnone⟩⟩ := h
  · have hne := hapart.operationHash_ne hmem howns hrow hown
    exact ⟨hlt, Or.inl ⟨own, Table.mem_delete.mpr ⟨hmem, by simp [hne]⟩, howns, hexp⟩⟩
  · exact ⟨hlt, Or.inr ⟨hexp, fun r hr => hnone r (Table.mem_delete.mp hr).1⟩⟩

theorem operationsReaped_bound {p : FenceOperationRow → Bool}
    (hp : ∀ op ∈ a.operations, p op = true → op.expiresAt ≤ c) (h : Bound c a g) :
    Bound c { a with operations := a.operations.delete p } g := by
  obtain ⟨hlt, ⟨own, hmem, howns, hexp⟩ | ⟨hexp, hnone⟩⟩ := h
  · by_cases hdel : p own = true
    · -- The guard's row is swept: it had expired, and no other row has its hash.
      have hle := hp own hmem hdel
      refine ⟨hlt, Or.inr ⟨by omega, fun r hr hr' => ?_⟩⟩
      obtain ⟨hr, hkeep⟩ := Table.mem_delete.mp hr
      obtain rfl : r = own := Table.eq_of_key hr hmem (by rw [hr'.1, howns.1])
      rw [hdel] at hkeep; simp at hkeep
    · exact ⟨hlt, Or.inl ⟨own, Table.mem_delete.mpr ⟨hmem, by simpa using hdel⟩, howns, hexp⟩⟩
  · exact ⟨hlt, Or.inr ⟨hexp, fun r hr => hnone r (Table.mem_delete.mp hr).1⟩⟩

/-- A change keeps a guard bound, unless it writes the guard's own row. -/
theorem change_bound {b : FleetDb} (hch : Change req a b) (hclock : ∀ t, req.clock = some t → t = c)
    (hapart : ∀ guard, writes req.call = some guard → Apart g guard) (h : Bound c a g) :
    Bound c b g := by
  cases hch with
  | operationGranted hins hfence hcov hfree hquiet hacq =>
    exact operationGranted_bound hins (hclock _ hacq) h
  | operationExtended hcall hat hrow hhash hbind =>
    exact operationExtended_bound hrow ⟨hhash, hbind⟩ (hapart _ (by rw [hcall]; rfl)) h
  | operationReleased hcall hrow hhash hbind =>
    exact operationReleased_bound hrow ⟨hhash, hbind⟩ (hapart _ (by rw [hcall]; rfl)) h
  | operationsReaped p hat hexp =>
    rw [hclock _ hat] at hexp
    exact operationsReaped_bound hexp h
  | _ => exact h

end

/-! ### What the calls do to a guard -/

/-- The guard is new: acquired now, its hash free before, its row there after. -/
structure Granted (clock : Option ℕ) (db db' : FleetDb) (g : FenceOperationGuard) : Prop where
  now : clock = some g.acquiredAt
  lasts : g.acquiredAt < g.expiresAt
  free : ∀ row ∈ db.operations, row.operationHash ≠ g.operationHash
  row : ∃ row ∈ db'.operations, Owns g row ∧ row.expiresAt = g.expiresAt

/-- The guard is `g₀` renewed: its row was there, and has the new expiry after. -/
structure Renewed (clock : Option ℕ) (db db' : FleetDb) (g₀ g : FenceOperationGuard) : Prop where
  clocked : ∃ t, clock = some t
  hash : g.operationHash = g₀.operationHash
  acquired : g.acquiredAt = g₀.acquiredAt
  lasts : g.acquiredAt < g.expiresAt
  before : ∃ row ∈ db.operations, Owns g₀ row
  row : ∃ row ∈ db'.operations, Owns g row ∧ row.expiresAt = g.expiresAt

section

variable {sha : Sha256} {db db' : FleetDb} {g g' : FenceOperationGuard} {clock : Option ℕ}
  {duration : ℕ}

theorem acquireFenceOperation_ok {fence : FleetLeaseFence} {random : Option Bytes32}
    (h : acquireFenceOperation sha db fence duration clock random = .ok (db', g)) :
    Granted clock db db' g := by
  simp only [acquireFenceOperation, bind_eq_ok, ensure_eq_ok, orError_eq_ok, pure_eq_ok,
    trustedNow_eq_ok, Prod.mk.injEq] at h
  obtain ⟨-, -, t, hclock, db₁, hperm, record, -, -, -, op, -, -, -, -, -, requested, -, -,
    hlt, nonce, -, -, -, -, -, -, -, -, -, -, -, operations, hins, rfl, rfl⟩ := h
  obtain ⟨-, -, rfl⟩ := ensureWorkPermitted_eq_ok.mp hperm
  refine ⟨hclock, hlt, (Table.insert?_eq_some hins).1, _, (Table.mem_insert? hins).mpr (Or.inr rfl),
    ⟨rfl, ?_⟩, rfl⟩
  exact ⟨rfl, rfl, rfl, rfl, rfl, rfl⟩

theorem renewFenceOperation_ok (h : renewFenceOperation db g duration clock = .ok (db', g')) :
    Renewed clock db db' g g' := by
  simp only [renewFenceOperation, bind_eq_ok, orError_eq_ok, pure_eq_ok, trustedNow_eq_ok,
    checkedAdd_eq_some, Prod.mk.injEq] at h
  obtain ⟨⟨⟩, hdur, t, hclock, -, -, row, hmatch, fence, -, requested,
    ⟨-, rfl⟩, -, -, -, -, -, -, -, -, -, -, rfl, rfl⟩ := h
  obtain ⟨hmem, hhash, hbind, hacq, -⟩ := matchingOperation_ok hmatch
  rw [validateOperationDuration, ensure_eq_ok] at hdur
  have hsame : row.acquiredAt = g.acquiredAt := hbind.2.2.2.2.2
  have hrow : { row with lastRenewedAt := t, expiresAt := t + duration } ∈
      (extendOperation db g.operationHash t (t + duration)).operations :=
    mem_extendOperation.mpr ⟨row, hmem, by simp [hhash]⟩
  have hlasts : g.acquiredAt < t + duration := by omega
  exact ⟨⟨t, hclock⟩, rfl, rfl, hlasts, ⟨row, hmem, hhash, hbind⟩, _, hrow, ⟨hhash, hbind⟩, rfl⟩

end

/-! ### Guard objects -/

variable {i : ℕ}

/-- The live objects after a call: those that were there and were not written, a new one, or a
renewed one. -/
theorem guardsAfter_live {guards : List (Option FenceOperationGuard)} {call : Call ℕ ℕ}
    {reply : Except FleetError Reply}
    (h : Live (guardsAfter guards call reply) i g) :
    (Live guards i g ∧ call ≠ .releaseFenceOperation i ∧
      ∀ d g', call = .renewFenceOperation i d → reply ≠ .ok (.operation g')) ∨
    (i = guards.length ∧ ∃ f d, call = .acquireFenceOperation f d ∧ reply = .ok (.operation g)) ∨
    ∃ d, call = .renewFenceOperation i d ∧ reply = .ok (.operation g) := by
  unfold guardsAfter at h
  split at h
  · next f d guard =>
    rcases live_append.mp h with h | ⟨hi, hg⟩
    · exact Or.inl ⟨h, by simp, by simp⟩
    · cases hg
      exact Or.inr (Or.inl ⟨hi, f, d, rfl, rfl⟩)
  · next j d guard =>
    rcases live_set h with ⟨hij, h⟩ | ⟨rfl, hg⟩
    · refine Or.inl ⟨h, by simp, fun d' g' he => ?_⟩
      cases he
      exact absurd rfl hij
    · cases hg
      exact Or.inr (Or.inr ⟨d, rfl, rfl⟩)
  · next j reply =>
    rcases live_set h with ⟨hij, h⟩ | ⟨-, hg⟩
    · refine Or.inl ⟨h, fun he => ?_, by simp⟩
      cases he
      exact absurd rfl hij
    · cases hg
  · next hrel hacq hren => exact Or.inl ⟨h, hrel i, fun d g' => hren i d g'⟩

theorem length_guardsAfter (guards : List (Option FenceOperationGuard)) (call : Call ℕ ℕ)
    (reply : Except FleetError Reply) : guards.length ≤ (guardsAfter guards call reply).length := by
  unfold guardsAfter
  split <;> simp

/-- The guard a resolved call writes is the value of a live object. -/
theorem resolveCall_writes {w : World} {call : Call ℕ ℕ}
    {resolved : Call FenceOperationGuard FleetQuiescenceGuard} {guard : FenceOperationGuard}
    (h : resolveCall w call = some resolved) (hw : writes resolved = some guard) :
    ∃ j, Live w.guards j guard ∧
      ((∃ d, call = .renewFenceOperation j d ∧ resolved = .renewFenceOperation guard d) ∨
        call = .releaseFenceOperation j) := by
  cases call with
  | renewFenceOperation j d =>
    simp only [resolveCall, Option.map_eq_some_iff] at h
    obtain ⟨guard', hj, rfl⟩ := h
    obtain rfl : guard' = guard := by simpa [writes] using hw
    exact ⟨j, join_eq_some.mp hj, Or.inl ⟨d, rfl, rfl⟩⟩
  | releaseFenceOperation j =>
    simp only [resolveCall, Option.map_eq_some_iff] at h
    obtain ⟨guard', hj, rfl⟩ := h
    obtain rfl : guard' = guard := by simpa [writes] using hw
    exact ⟨j, join_eq_some.mp hj, Or.inr rfl⟩
  | dropQuiescence | assertFenceOperation =>
    simp only [resolveCall, Option.map_eq_some_iff] at h
    obtain ⟨held, -, rfl⟩ := h
    simp [writes] at hw
  | _ =>
    simp only [resolveCall, Option.some.injEq] at h
    subst h
    simp [writes] at hw

/-- Every live guard object is bound, and no two are of one acquisition. -/
structure GuardsBound (c : ℕ) (w : World) : Prop where
  bound : ∀ {i g}, Live w.guards i g → Bound c w.db g
  apart : ∀ {i j g g'}, Live w.guards i g → Live w.guards j g' → i ≠ j → Apart g g'

theorem GuardsBound.mono {c c' : ℕ} {w : World} (hc : c ≤ c') (h : GuardsBound c w) :
    GuardsBound c' w := ⟨fun hg => (h.bound hg).mono hc, h.apart⟩

theorem fresh_guardsBound : GuardsBound 0 .fresh :=
  ⟨by simp [World.fresh, Live], by simp [World.fresh, Live]⟩

/-- A live object after a step is one from before that the step did not write, a new one, or one
that the step renewed. -/
inductive Origin (w : World) (req : ObjectRequest) (result : FleetDb × Except FleetError Reply)
    (i : ℕ) (g : FenceOperationGuard) : Prop
  | kept (hlive : Live w.guards i g) (hrel : req.call ≠ .releaseFenceOperation i)
      (hren : ∀ d g', req.call = .renewFenceOperation i d → result.2 ≠ .ok (.operation g'))
  | granted (hi : i = w.guards.length) (h : Granted req.clock w.db result.1 g)
  | renewed {g₀ : FenceOperationGuard} {d : ℕ} (hlive : Live w.guards i g₀)
      (hreq : req.call = .renewFenceOperation i d) (h : Renewed req.clock w.db result.1 g₀ g)

section

variable {sha : Sha256} {w : World} {req : ObjectRequest} {c : ℕ}
  {call : Call FenceOperationGuard FleetQuiescenceGuard}

theorem step_origin (hcall : resolveCall w req.call = some call)
    (hg : Live (guardsAfter w.guards req.call (exec sha w.db { req with call }).2) i g) :
    Origin w req (exec sha w.db { req with call }) i g := by
  rcases guardsAfter_live hg with ⟨hlive, hrel, hren⟩ | ⟨hi, f, d, hreq, hreply⟩ | ⟨d, hreq, hreply⟩
  · exact .kept hlive hrel hren
  · rw [hreq, resolveCall, Option.some.injEq] at hcall
    subst hcall
    obtain ⟨g', hg', hres⟩ := transact_snd hreply
    cases hg'
    exact .granted hi (acquireFenceOperation_ok hres)
  · rw [hreq, resolveCall, Option.map_eq_some_iff] at hcall
    obtain ⟨g₀, hlive, rfl⟩ := hcall
    obtain ⟨g', hg', hres⟩ := transact_snd hreply
    cases hg'
    exact .renewed (join_eq_some.mp hlive) hreq (renewFenceOperation_ok hres)

theorem kept_bound (hclock : ∀ t, req.clock = some t → t = c) (h : GuardsBound c w)
    (hcall : resolveCall w req.call = some call)
    (hlive : Live w.guards i g) (hrel : req.call ≠ .releaseFenceOperation i)
    (hren : ∀ d g', req.call = .renewFenceOperation i d →
      (exec sha w.db { req with call }).2 ≠ .ok (.operation g')) :
    Bound c (exec sha w.db { req with call }).1 g := by
  by_cases hown : ∃ d, req.call = .renewFenceOperation i d
  · -- Its own renewal failed, and left the database as it was.
    obtain ⟨d, hreq⟩ := hown
    have hguard := hcall
    rw [hreq, resolveCall, Option.map_eq_some_iff] at hguard
    obtain ⟨g₀, -, rfl⟩ := hguard
    rcases hreply : (exec sha w.db { req with call := .renewFenceOperation g₀ d }).2 with e | r
    · have hsame := transact_error hreply
      have hb := h.bound hlive
      rw [← hsame] at hb
      exact hb
    · obtain ⟨g', rfl, -⟩ := transact_snd hreply
      exact absurd hreply (hren d g' hreq)
  · refine exec_keeps sha (fun hch hb => change_bound hch hclock (fun guard hw => ?_) hb)
      (h.bound hlive)
    obtain ⟨j, hj, ⟨d, hreq, -⟩ | hreq⟩ := resolveCall_writes hcall hw
    · exact h.apart hlive hj fun hij => hown ⟨d, by rw [hij]; exact hreq⟩
    · exact h.apart hlive hj fun hij => hrel (by rw [hij]; exact hreq)

/-- An object from before and a new one are of different acquisitions. -/
theorem GuardsBound.apart_granted (h : GuardsBound c w) (hclock : ∀ t, req.clock = some t → t = c)
    {db' : FleetDb} {g' : FenceOperationGuard} (hlive : Live w.guards i g)
    (hnew : Granted req.clock w.db db' g') : Apart g g' := by
  intro hhash hacq
  have hnow := hclock _ hnew.now
  obtain ⟨hlt, ⟨row, hrow, hown, -⟩ | ⟨hexp, -⟩⟩ := h.bound hlive
  · exact hnew.free row hrow (by rw [hown.1, hhash])
  · omega

theorem Origin.old_or_new {result : FleetDb × Except FleetError Reply}
    (h : Origin w req result i g) :
    (∃ g₀, Live w.guards i g₀ ∧ g₀.operationHash = g.operationHash ∧ g₀.acquiredAt = g.acquiredAt) ∨
      (i = w.guards.length ∧ Granted req.clock w.db result.1 g) := by
  cases h with
  | kept hlive => exact Or.inl ⟨g, hlive, rfl, rfl⟩
  | granted hi h => exact Or.inr ⟨hi, h⟩
  | renewed hlive hreq h => exact Or.inl ⟨_, hlive, h.hash.symm, h.acquired.symm⟩

theorem step_guardsBound (hclock : ∀ t, req.clock = some t → t = c) (h : GuardsBound c w) :
    GuardsBound c (World.step sha w req).1 := by
  rcases World.step_cases sha w req with hstep | ⟨call, hcall, hstep⟩
  · rw [hstep]; exact h
  rw [hstep]
  refine ⟨fun {i g} hg => ?_, fun {i j g g'} hg hg' hij => ?_⟩
  · cases step_origin hcall hg with
    | kept hlive hrel hren => exact kept_bound hclock h hcall hlive hrel hren
    | granted hi hnew => exact ⟨hnew.lasts, Or.inl hnew.row⟩
    | renewed hlive hreq hren => exact ⟨hren.lasts, Or.inl hren.row⟩
  · rcases (step_origin hcall hg).old_or_new with ⟨g₀, hlive, hhash, hacq⟩ | ⟨hi, hnew⟩ <;>
      rcases (step_origin hcall hg').old_or_new with ⟨g₀', hlive', hhash', hacq'⟩ | ⟨hj, hnew'⟩
    · have hold := h.apart hlive hlive' hij
      rw [Apart, hhash, hhash', hacq, hacq'] at hold
      exact hold
    · have hold := h.apart_granted hclock hlive hnew'
      rw [Apart, hhash, hacq] at hold
      exact hold
    · have hold := h.apart_granted hclock hlive' hnew
      rw [Apart, hhash', hacq'] at hold
      exact Apart.symm hold
    · exact absurd (hi.trans hj.symm) hij

/-! ### Expired objects -/

/-- No expired guard is renewed while its row is still there. -/
def NoLateRenewal (w : World) (req : ObjectRequest) : Prop :=
  match req.call with
  | .renewFenceOperation i _ =>
    ∀ g t, Live w.guards i g → req.clock = some t →
      (∃ op ∈ w.db.operations, op.operationHash = g.operationHash) → t < g.expiresAt
  | _ => True

/-- Object `i` was created, and has expired if it is still there. -/
def Dead (i c : ℕ) (w : World) : Prop :=
  i < w.guards.length ∧ ∀ g, Live w.guards i g → g.expiresAt ≤ c

theorem Dead.mono {c' : ℕ} (hc : c ≤ c') (h : Dead i c w) : Dead i c' w :=
  ⟨h.1, fun g hg => Nat.le_trans (h.2 g hg) hc⟩

theorem step_dead (hclock : ∀ t, req.clock = some t → t = c) (hlate : NoLateRenewal w req)
    (h : Dead i c w) : Dead i c (World.step sha w req).1 := by
  rcases World.step_cases sha w req with hstep | ⟨call, hcall, hstep⟩
  · rw [hstep]; exact h
  rw [hstep]
  refine ⟨Nat.lt_of_lt_of_le h.1 (length_guardsAfter _ _ _), fun g hg => ?_⟩
  cases step_origin hcall hg with
  | kept hlive => exact h.2 g hlive
  | granted hi => exact absurd h.1 (by omega)
  | renewed hlive hreq hren =>
    obtain ⟨t, ht⟩ := hren.clocked
    obtain ⟨row, hrow, hown⟩ := hren.before
    have hexp := h.2 _ hlive
    have hnow := hclock t ht
    simp only [NoLateRenewal, hreq] at hlate
    have hlt := hlate _ t hlive ht ⟨row, hrow, hown.1⟩
    omega

theorem dead_refused {t now : ℕ} {random : Option Bytes32} {reply : Reply} (hb : GuardsBound c w)
    (h : Dead i c w) (ht : c ≤ t) :
    (World.step sha w ⟨now, some t, random, .assertFenceOperation i⟩).2 ≠ some (.ok reply) := by
  intro hok
  rcases World.step_cases sha w ⟨now, some t, random, .assertFenceOperation i⟩ with
    hstep | ⟨call, hcall, hstep⟩
  · rw [hstep] at hok; simp at hok
  rw [hstep, Option.some.injEq] at hok
  simp only [resolveCall, Option.map_eq_some_iff] at hcall
  obtain ⟨g, hlive, rfl⟩ := hcall
  have hlive := join_eq_some.mp hlive
  obtain ⟨a, -, hres⟩ := transact_snd hok
  simp only [assertFenceOperation, bind_eq_ok, ensure_eq_ok, trustedNow_eq_ok,
    Option.some.injEq] at hres
  obtain ⟨_, rfl, row, hmatch, -, hrow, -⟩ := hres
  obtain ⟨hmem, hhash, hbind, -, -⟩ := matchingOperation_ok hmatch
  have hexp := h.2 g hlive
  obtain ⟨-, ⟨own, hown, howns, hsame⟩ | ⟨-, hnone⟩⟩ := hb.bound hlive
  · obtain rfl : row = own := Table.eq_of_key hmem hown (by rw [hhash, howns.1])
    omega
  · exact hnone row hmem ⟨hhash, hbind⟩

end

variable (sha : Sha256)

theorem worldAfter_guardsBound {reqs : List ObjectRequest} {c : ℕ}
    (hclock : Clocked Request.clock 0 reqs c) : GuardsBound c (worldAfter sha reqs) :=
  run_invariant_clocked (world sha) (P := GuardsBound) GuardsBound.mono
    (fun _ _ h => step_guardsBound (fun t ht => by rw [ht]; rfl) h) reqs hclock
    ((world sha).along_of_forall (fun _ _ => trivial) reqs _) fresh_guardsBound

/-- **An expired guard stays dead**, in every run with a non-decreasing trusted clock: if guard
object `i` has expired at the end of `reqs`, no later call on it asserts it, as long as no expired
guard is renewed while its row is still there. -/
theorem expired_guard_stays_dead (reqs later : List ObjectRequest) (c c' : ℕ)
    (hclock : Clocked Request.clock 0 reqs c) (hlater : Clocked Request.clock c later c')
    (hsteps : (world sha).Along NoLateRenewal (worldAfter sha reqs) later)
    (i : ℕ) (g : FenceOperationGuard) (hg : Live (worldAfter sha reqs).guards i g)
    (hexp : g.expiresAt ≤ c) :
    ∀ now t random reply, c' ≤ t →
      worldAnswer sha (reqs ++ later) ⟨now, some t, random, .assertFenceOperation i⟩ ≠
        some (.ok reply) := by
  intro now t random reply ht
  have hstart : GuardsBound c (worldAfter sha reqs) ∧ Dead i c (worldAfter sha reqs) :=
    ⟨worldAfter_guardsBound sha hclock, hg.lt, fun g' hg' => by rw [← hg.unique hg']; exact hexp⟩
  have hend := run_invariant_clocked (world sha) (P := fun c w => GuardsBound c w ∧ Dead i c w)
    (fun hc h => ⟨h.1.mono hc, h.2.mono hc⟩)
    (fun _ hlate h => ⟨step_guardsBound (fun t ht => by rw [ht]; rfl) h.1,
      step_dead (fun t ht => by rw [ht]; rfl) hlate h.2⟩) later hlater hsteps hstart
  rw [worldAnswer, worldAfter, run_append]
  exact dead_refused hend.1 hend.2 ht

/-- The operation of `sampleRun` expires at 150 and is swept at 160. -/
theorem expired_guard_stays_dead_sample :
    worldAnswer sampleSha (sampleRun ++ [requestAt 160 (.recoverExpiredFenceOperations 10)])
      (requestAt 170 (.assertFenceOperation 0)) ≠ some (.ok .unit) := by
  refine expired_guard_stays_dead sampleSha sampleRun
    [requestAt 160 (.recoverExpiredFenceOperations 10)] 150 160 ?_ ?_ ?_ 0 sampleGuard ?_
      (by decide)
    170 170 (some zeroBytes) .unit (by decide)
  · simp [Clocked, sampleRun, requestAt]
  · simp [Clocked, requestAt]
  · simp [Along, requestAt, NoLateRenewal]
  · have hlive : (worldAfter sampleSha sampleRun).guards[0]? = some (some sampleGuard) := by
      decide +kernel
    exact hlive

/-- The guard of `sampleRun` has expired at 150; renewed at 160, it is asserted at 161. -/
theorem expired_guard_revived :
    Clocked Request.clock 0 (sampleRun (γ := ℕ) (δ := ℕ)) 150 ∧
    (worldAfter sampleSha sampleRun).guards[0]? = some (some sampleGuard) ∧
    sampleGuard.expiresAt ≤ 150 ∧
    Clocked Request.clock 150 [requestAt (γ := ℕ) (δ := ℕ) 160 (.renewFenceOperation 0 60)] 161 ∧
    worldAnswer sampleSha (sampleRun ++ [requestAt 160 (.renewFenceOperation 0 60)])
      (requestAt 161 (.assertFenceOperation 0)) = some (.ok .unit) := by
  refine ⟨?_, by decide +kernel, by decide, ?_, by decide +kernel⟩
  · simp [Clocked, sampleRun, requestAt]
  · simp [Clocked, requestAt]

end Pandora.Fleet.GuardExpiry
