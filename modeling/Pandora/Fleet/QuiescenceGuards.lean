import Pandora.Fleet.QuiescenceWork

/-! # Quiescence guards

A quiescence guard names its row by the owner only. The row of an expired acquisition may be
replaced while its guard object is still alive, so a drop can meet a row that another acquisition
wrote for the same owner and delete it (`dropped_guard_removes_later_row`).

**Main result** (`quiescence_guards_independent`): it takes an owner that is used again. -/

namespace Pandora.Fleet.QuiescenceGuards

open Lib.Checked Lib.Runs.Machine Lib.Objects Text Fleet.Records Fleet.Leases Fleet.Fences
  Fleet.Engine Fleet.Steps Fleet.FenceAuthority Fleet.QuiescenceWork

/-! ### New work under a quiescence -/

/-- The calls that start work. -/
def StartsWork {γ δ : Type} : Call γ δ → Prop
  | .acquireLease .. => True
  | .acquireFence .. => True
  | .acquireFenceOperation .. => True
  | _ => False

section

variable {db : FleetDb} {row : QuiescenceRow} {now : ℕ}

theorem permitted_refused {α : Type} (hq : db.quiescence = some row) (hlive : now < row.expiresAt)
    (k : FleetDb → Except FleetError α) :
    Refused .quiescenceActive (fun db => ensureWorkPermitted db now >>= k) db := by
  by_cases hfits : now < 2 ^ 63
  · have hheld := ensureWorkPermitted_held hfits hq hlive
    refine Or.inl ?_
    simp only [hheld]
    rfl
  · have hcol : toI64 now = .error .corruptRecord := by
      rw [toI64, fitsI64_eq_none hfits]
      rfl
    refine Or.inr ⟨.corruptRecord, fun db' => ?_⟩
    simp only [ensureWorkPermitted, hcol]
    rfl

theorem acquireLease_refused (hq : db.quiescence = some row) (hlive : now < row.expiresAt)
    (leaseId nodeId executionId : String) (budget : FleetBudget) (duration : ℕ) :
    Refused .quiescenceActive
      (fun db => acquireLease db leaseId nodeId executionId budget now duration) db := by
  unfold acquireLease
  refine refused_bind fun _ => refused_bind fun _ => refused_bind fun _ => refused_bind fun _ =>
    refused_bind fun _ => ?_
  exact permitted_refused hq hlive _

theorem acquireFence_refused (sha : Sha256) (hq : db.quiescence = some row)
    (hlive : now < row.expiresAt) (key ownerId : String) (duration : ℕ) (clock : Option ℕ)
    (random : Option Bytes32) :
    Refused .quiescenceActive
      (fun db => acquireFence sha db key ownerId now duration clock random) db := by
  unfold acquireFence acquireFenceAt
  refine refused_bind fun _ => refused_bind fun _ => refused_bind fun _ => refused_bind fun _ =>
    refused_bind fun _ => refused_bind fun _ => ?_
  exact permitted_refused hq hlive _

theorem acquireFenceOperation_refused (sha : Sha256) (hq : db.quiescence = some row)
    {clock : Option ℕ} (hlive : ∀ t, clock = some t → t < row.expiresAt) (fence : FleetLeaseFence)
    (duration : ℕ) (random : Option Bytes32) :
    Refused .quiescenceActive
      (fun db => acquireFenceOperation sha db fence duration clock random) db := by
  unfold acquireFenceOperation
  refine refused_bind fun _ => ?_
  rcases clock with _ | t
  · exact Or.inr ⟨.clockUnavailable, fun _ => rfl⟩
  · exact permitted_refused hq (hlive t rfl) _

theorem transact_refused {α : Type} {e : FleetError} (reply : α → Reply)
    {f : FleetDb → Except FleetError (FleetDb × α)} (h : Refused e f db) :
    Refused e (fun db => (transact db reply (f db)).2) db := by
  rcases h with h | ⟨e', h⟩
  · refine Or.inl ?_
    simp only [h]
    rfl
  · refine Or.inr ⟨e', fun db' => ?_⟩
    simp only [h]
    rfl

theorem world_refused {sha : Sha256} {w : World} {req : ObjectRequest} {e : FleetError}
    {f : FleetDb → Except FleetError Reply}
    (hstep : ∀ w', (World.step sha w' req).2 = some (f w'.db)) (h : Refused e f w.db) :
    (World.step sha w req).2 = some (.error e) ∨
      ∃ e', ∀ w', (World.step sha w' req).2 = some (.error e') := by
  rcases h with h | ⟨e', h⟩
  · exact Or.inl (by rw [hstep, h])
  · exact Or.inr ⟨e', fun w' => by rw [hstep, h]⟩

/-- Under a live quiescence a call that starts work is answered `QuiescenceActive`, unless its
arguments are refused whatever the state. -/
theorem step_refused (sha : Sha256) {w : World} {req : ObjectRequest} (hstart : StartsWork req.call)
    (hsync : Synchronous req) (hq : w.db.quiescence = some row) (hlive : req.now < row.expiresAt) :
    (World.step sha w req).2 = some (.error .quiescenceActive) ∨
      ∃ e, ∀ w', (World.step sha w' req).2 = some (.error e) := by
  obtain ⟨now, clock, random, call⟩ := req
  cases call with
  | acquireLease leaseId nodeId executionId budget duration =>
    exact world_refused (fun _ => rfl) (transact_refused .lease
      (acquireLease_refused hq hlive leaseId nodeId executionId budget duration))
  | acquireFence key ownerId duration =>
    exact world_refused (fun _ => rfl) (transact_refused .fence
      (acquireFence_refused sha hq hlive key ownerId duration clock random))
  | acquireFenceOperation fence duration =>
    have htrusted : ∀ t, clock = some t → t < row.expiresAt := by
      intro t ht
      rw [hsync t ht]; exact hlive
    exact world_refused (fun _ => rfl) (transact_refused .operation
      (acquireFenceOperation_refused sha hq htrusted fence duration random))
  | _ => exact hstart.elim

end

/-! ### The row of a guard -/

/-- The row is in the database, or it has expired. -/
def Present (c : ℕ) (db : FleetDb) (row : QuiescenceRow) : Prop :=
  db.quiescence = some row ∨ row.expiresAt ≤ c

variable {row : QuiescenceRow}

/-- A change removes a live row only by the drop of a guard with its owner. -/
theorem change_present {req : GuardRequest} {a b : FleetDb}
    (hch : Change req a b) (hsync : Synchronous req)
    (hdrop : ∀ guard, req.call = .dropQuiescence guard → row.owner ≠ guard.owner)
    (h : Present req.now a row) : Present req.now b row := by
  rcases h with hrow | hexp
  · cases hch with
    | @quiescenceLapsed t ht hlapsed =>
      have hle := hlapsed row hrow
      have hnow : t = req.now := ht.elim id (hsync t)
      exact Or.inr (by omega)
    | quiescenceDropped hcall =>
      have hne := hdrop _ hcall
      exact Or.inl (Option.filter_eq_some_iff.mpr ⟨hrow, by simpa using hne⟩)
    | quiescenceGranted hcall hclock hnone => rw [hnone] at hrow; simp at hrow
    | _ => exact Or.inl hrow
  · exact Or.inr hexp

variable {owner : String} {guard : FleetQuiescenceGuard}

theorem acquireQuiescence_ok {db db' : FleetDb} {now duration : ℕ} {clock : Option ℕ}
    (h : acquireQuiescence db owner now duration clock = .ok (db', guard)) :
    guard.owner = trim owner ∧ db'.quiescence = some ⟨trim owner, now, now + duration⟩ ∧
      ∀ row, db.quiescence = some row → row.expiresAt ≤ now := by
  simp only [acquireQuiescence, bind_eq_ok, ensure_eq_ok, orError_eq_ok, pure_eq_ok,
    checkedAdd_eq_some, Prod.mk.injEq] at h
  obtain ⟨-, -, o, howner, expiresAt, ⟨-, rfl⟩, -, -, -, hheld, -, -, t, -,
    rows, -, -, -, -, -, rfl, rfl⟩ := h
  rw [validateText_eq_ok howner]
  exact ⟨rfl, rfl, (lapsed_of_not_held hheld).2⟩

/-! ### Guard objects -/

/-- No acquisition names the owner of a guard that has expired but was not dropped. -/
def FreshOwner (w : World) (req : ObjectRequest) : Prop :=
  match req.call with
  | .acquireQuiescence owner _ =>
    ∀ i g row, Live w.quiescences i (g, row) → g.owner = trim owner → req.now < row.expiresAt
  | _ => True

/-- Every guard object has its row, unless the row has expired, and an owner of its own. -/
structure Held (c : ℕ) (w : World) : Prop where
  owner : ∀ {i g row}, Live w.quiescences i (g, row) → row.owner = g.owner
  present : ∀ {i g row}, Live w.quiescences i (g, row) → Present c w.db row
  distinct : ∀ {i j g g' row row'}, Live w.quiescences i (g, row) →
    Live w.quiescences j (g', row') →
    i ≠ j → g.owner ≠ g'.owner

theorem Held.mono {c c' : ℕ} {w : World} (hc : c ≤ c') (h : Held c w) : Held c' w :=
  ⟨h.owner, fun hl => (h.present hl).imp id fun hexp => Nat.le_trans hexp hc, h.distinct⟩

theorem fresh_held : Held 0 .fresh :=
  ⟨by simp [World.fresh, Live], by simp [World.fresh, Live], by simp [World.fresh, Live]⟩

variable {i : ℕ}

/-- The live objects after a call: those that were there and were not dropped, or a new one. -/
theorem quiescencesAfter_live {qs : List (Option (FleetQuiescenceGuard × QuiescenceRow))}
    {call : Call ℕ ℕ} {reply : Except FleetError Reply} {row : Option QuiescenceRow}
    {x : FleetQuiescenceGuard × QuiescenceRow} (h : Live (quiescencesAfter qs call reply row) i x) :
    (Live qs i x ∧ call ≠ .dropQuiescence i) ∨
    (i = qs.length ∧ row = some x.2 ∧ reply = .ok (.quiescence x.1) ∧
      ∃ owner d, call = .acquireQuiescence owner d) := by
  unfold quiescencesAfter at h
  split at h
  · next owner d guard =>
    rcases live_append.mp h with h | ⟨hi, hx⟩
    · exact Or.inl ⟨h, by simp⟩
    · obtain ⟨r, hr, rfl⟩ := Option.map_eq_some_iff.mp hx
      exact Or.inr ⟨hi, hr, rfl, owner, d, rfl⟩
  · next j reply =>
    rcases live_set h with ⟨hij, h⟩ | ⟨-, hx⟩
    · refine Or.inl ⟨h, fun he => ?_⟩
      cases he
      exact absurd rfl hij
    · cases hx
  · next hdrop hacq => exact Or.inl ⟨h, hdrop i⟩

section

variable {sha : Sha256} {w : World} {req : ObjectRequest}
  {call : Call FenceOperationGuard FleetQuiescenceGuard}

/-- A new guard object: its row is the one in the database, and no live row was there before. -/
theorem step_granted (hcall : resolveCall w req.call = some call) {d : ℕ}
    (hreq : req.call = .acquireQuiescence owner d)
    (hreply : (exec sha w.db { req with call }).2 = .ok (.quiescence guard)) :
    guard.owner = trim owner ∧
      (exec sha w.db { req with call }).1.quiescence = some ⟨trim owner, req.now, req.now + d⟩ ∧
      ∀ row, w.db.quiescence = some row → row.expiresAt ≤ req.now := by
  rw [hreq, resolveCall, Option.some.injEq] at hcall
  subst hcall
  obtain ⟨g, hg, hres⟩ := transact_snd hreply
  cases hg
  exact acquireQuiescence_ok hres

/-- The guard a resolved drop names is the value of a live object. -/
theorem resolveCall_drops {named : Call ℕ ℕ}
    (h : resolveCall w named = some (.dropQuiescence guard)) :
    ∃ j row, Live w.quiescences j (guard, row) ∧ named = .dropQuiescence j := by
  cases named with
  | dropQuiescence j =>
    simp only [resolveCall, Option.map_eq_some_iff] at h
    obtain ⟨⟨guard', row⟩, hj, he⟩ := h
    cases he
    exact ⟨j, row, join_eq_some.mp hj, rfl⟩
  | assertFenceOperation | renewFenceOperation | releaseFenceOperation =>
    simp [resolveCall] at h
  | _ => simp [resolveCall] at h

variable {g : FleetQuiescenceGuard}

theorem kept_present (hsync : Synchronous req) (h : Held req.now w)
    (hcall : resolveCall w req.call = some call) (hlive : Live w.quiescences i (g, row))
    (hkept : req.call ≠ .dropQuiescence i) :
    Present req.now (exec sha w.db { req with call }).1 row := by
  refine exec_keeps sha (fun hch hp => change_present hch hsync (fun guard hdrop => ?_) hp)
    (h.present hlive)
  obtain rfl : call = .dropQuiescence guard := hdrop
  obtain ⟨j, row', hj, hreq⟩ := resolveCall_drops hcall
  have hij : i ≠ j := by
    rintro rfl
    exact hkept hreq
  rw [h.owner hlive]
  exact h.distinct hlive hj hij

/-- An acquisition that succeeds has an owner that no live object has. -/
theorem granted_distinct (hfresh : FreshOwner w req) (h : Held req.now w) {d : ℕ}
    (hreq : req.call = .acquireQuiescence owner d)
    (hnone : ∀ row, w.db.quiescence = some row → row.expiresAt ≤ req.now)
    (hlive : Live w.quiescences i (g, row)) :
    g.owner ≠ trim owner := by
  intro howner
  simp only [FreshOwner, hreq] at hfresh
  have hlt := hfresh i g row hlive howner
  rcases h.present hlive with hrow | hexp
  · have := hnone row hrow
    omega
  · omega

theorem step_held (hsync : Synchronous req) (hfresh : FreshOwner w req) (h : Held req.now w) :
    Held req.now (World.step sha w req).1 := by
  rcases World.step_cases sha w req with hstep | ⟨call, hcall, hstep⟩
  · rw [hstep]; exact h
  rw [hstep]
  refine ⟨fun {i g row} hl => ?_, fun {i g row} hl => ?_, fun {i j g g' row row'} hl hl' hij => ?_⟩
  · rcases quiescencesAfter_live hl with ⟨hlive, -⟩ | ⟨-, hrow, hreply, owner, d, hreq⟩
    · exact h.owner hlive
    · obtain ⟨howner, hq, -⟩ := step_granted hcall hreq hreply
      rw [hq, Option.some.injEq] at hrow
      obtain rfl : _ = row := hrow
      exact howner.symm
  · rcases quiescencesAfter_live hl with ⟨hlive, hkept⟩ | ⟨-, hrow, -⟩
    · exact kept_present hsync h hcall hlive hkept
    · exact Or.inl hrow
  · rcases quiescencesAfter_live hl with ⟨hlive, -⟩ | ⟨hi, -, hreply, owner, d, hreq⟩ <;>
      rcases quiescencesAfter_live hl' with ⟨hlive', -⟩ | ⟨hj, -, hreply', owner', d', hreq'⟩
    · exact h.distinct hlive hlive' hij
    · obtain ⟨howner, -, hnone⟩ := step_granted hcall hreq' hreply'
      rw [howner]
      exact granted_distinct hfresh h hreq' hnone hlive
    · obtain ⟨howner, -, hnone⟩ := step_granted hcall hreq hreply
      rw [howner]
      exact (granted_distinct hfresh h hreq hnone hlive').symm
    · exact absurd (hi.trans hj.symm) hij

theorem Held.drop_other {c : ℕ} (h : Held c w) {j : ℕ} (hlive : Live w.quiescences i (g, row))
    (hrow : w.db.quiescence = some row) (hij : j ≠ i) (hreq : req.call = .dropQuiescence j) :
    (World.step sha w req).1.db.quiescence = some row := by
  rcases World.step_cases sha w req with hstep | ⟨call, hcall, hstep⟩
  · rw [hstep]; exact hrow
  rw [hstep]
  rw [hreq, resolveCall, Option.map_eq_some_iff] at hcall
  obtain ⟨⟨g', row'⟩, hj, rfl⟩ := hcall
  have hne := h.distinct hlive (join_eq_some.mp hj) (Ne.symm hij)
  rw [← h.owner hlive] at hne
  exact Option.filter_eq_some_iff.mpr ⟨hrow, by simpa using hne⟩

end

variable (sha : Sha256)

/-- **Quiescence guards are independent**, in every run with one non-decreasing clock in which no
acquisition names the owner of a guard that has expired but was not dropped: the row of an alive
guard is left by the drop of another, and until it expires it is there and work is refused. -/
theorem quiescence_guards_independent (reqs : List ObjectRequest) (c : ℕ)
    (hclock : Clocked timeOf 0 reqs c)
    (hsteps : (world sha).Along (fun w req => Synchronous req ∧ FreshOwner w req) .fresh reqs)
    (i : ℕ) (g : FleetQuiescenceGuard) (row : QuiescenceRow)
    (hlive : Live (worldAfter sha reqs).quiescences i (g, row)) :
    (∀ j drop, j ≠ i → drop.call = .dropQuiescence j →
      (worldAfter sha reqs).db.quiescence = some row →
      (worldAfter sha (reqs ++ [drop])).db.quiescence = some row) ∧
    (c < row.expiresAt → (worldAfter sha reqs).db.quiescence = some row) ∧
    ∀ req, StartsWork req.call → Synchronous req → c ≤ req.now → req.now < row.expiresAt →
      worldAnswer sha reqs req = some (.error .quiescenceActive) ∨
        ∃ e, ∀ w, (world sha).answer w req = some (.error e) := by
  have h : Held c (worldAfter sha reqs) :=
    run_invariant_clocked (world sha) (P := Held) Held.mono
      (fun _ hC h => step_held hC.1 hC.2 h) reqs hclock hsteps fresh_held
  have hpresent : c < row.expiresAt → (worldAfter sha reqs).db.quiescence = some row := by
    intro hc
    rcases h.present hlive with hrow | hexp
    · exact hrow
    · omega
  refine ⟨fun j drop hij hreq hrow => ?_, hpresent, fun req hstart hsync hle hlt => ?_⟩
  · rw [worldAfter, run_snoc]
    exact h.drop_other hlive hrow hij hreq
  · exact step_refused sha hstart hsync (hpresent (by omega)) hlt

/-- Two acquisitions of different owners: the first expires at 200 and is still to be dropped. -/
def twoGuards (owner owner' : String) : List ObjectRequest :=
  [requestAt 100 (.acquireQuiescence owner 100), requestAt 200 (.acquireQuiescence owner' 100)]

theorem quiescence_guards_independent_sample :
    (worldAfter sampleSha
      (twoGuards "p" "q" ++ [requestAt 210 (.dropQuiescence 0)])).db.quiescence =
      some ⟨"q", 200, 300⟩ := by
  have hlive : (worldAfter sampleSha (twoGuards "p" "q")).quiescences[1]? =
      some (some (⟨"q"⟩, ⟨"q", 200, 300⟩)) := by decide +kernel
  refine (quiescence_guards_independent sampleSha (twoGuards "p" "q") 200 ?_ ?_ 1 ⟨"q"⟩
    ⟨"q", 200, 300⟩ hlive).1 0 (requestAt 210 (.dropQuiescence 0)) (by decide) rfl
      (by decide +kernel)
  · simp [Clocked, twoGuards, requestAt, timeOf]
  · have hfirst :
        ((world sampleSha).step .fresh (requestAt 100 (.acquireQuiescence "p" 100))).1.quiescences =
        [some (⟨"p"⟩, ⟨"p", 100, 200⟩)] := by decide +kernel
    have hsync : ∀ (t : ℕ) (call : Call ℕ ℕ), Synchronous (requestAt t call) := by
      simp [Synchronous, requestAt]
    refine ⟨⟨hsync _ _, ?_⟩, ⟨hsync _ _, ?_⟩, trivial⟩
    · intro i g row hl
      simp [World.fresh, Live] at hl
    · intro i g row hl howner
      rw [Live, hfirst] at hl
      obtain ⟨rfl, -⟩ : g = ⟨"p"⟩ ∧ row = ⟨"p", 100, 200⟩ := by
        simpa using List.mem_of_getElem? hl
      exact absurd howner (by decide)

/-- With one owner the drop of the first guard at 210 removes the row of the second, which lasts
until 300, and a fence is acquired at 220. -/
theorem dropped_guard_removes_later_row :
    Clocked timeOf 0 (twoGuards "q" "q" ++ [requestAt 210 (.dropQuiescence 0)]) 220 ∧
    (∀ req ∈ twoGuards "q" "q" ++ [requestAt 210 (.dropQuiescence 0)], Synchronous req) ∧
    (worldAfter sampleSha (twoGuards "q" "q")).db.quiescence = some ⟨"q", 200, 300⟩ ∧
    (worldAfter sampleSha
      (twoGuards "q" "q" ++ [requestAt 210 (.dropQuiescence 0)])).quiescences[1]? =
      some (some (⟨"q"⟩, ⟨"q", 200, 300⟩)) ∧
    (worldAfter sampleSha
      (twoGuards "q" "q" ++ [requestAt 210 (.dropQuiescence 0)])).db.quiescence =
      none ∧
    worldAnswer sampleSha (twoGuards "q" "q" ++ [requestAt 210 (.dropQuiescence 0)])
      (requestAt 220 (.acquireFence "k" "a" 1000)) =
        some (.ok (.fence { sampleFence with issuedAt := 220, expiresAt := 1220 })) := by
  refine ⟨?_, ?_, by decide +kernel, by decide +kernel, by decide +kernel, by decide +kernel⟩
  · simp [Clocked, twoGuards, requestAt, timeOf]
  · simp [twoGuards, requestAt, Synchronous]

end Pandora.Fleet.QuiescenceGuards
