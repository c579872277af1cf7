import Pandora.Orchestration.Plan
import Pandora.Lib.Runs

/-! # Runs of an orchestration plan

A run keeps the set of completed roles, the set of active roles and the number of handoffs used.
`OrchestrationPlan.readyRoles` already cuts its list to the parallelism of the plan, then
`startReady` leaves the active roles out and cuts the list again to the free places. An active role
is itself ready, so the first cut loses nothing (`take_filter_take`).

A method that fails leaves the run as it is, so a method returns the new run or an error. In a
sequence of calls (`RunCall`) any snapshot taken so far may be restored. -/

namespace Pandora.Orchestration

open Ids Lib.Checked Lib.OrderedSets Lib.Runs OrderedSet List

inductive OrchestrationError
  | roleNotFound (id : RoleId)
  | roleNotActive (id : RoleId)
  | roleAlreadyCompleted (id : RoleId)
  | handoffNotDeclared (source target : RoleId)
  | handoffSourceIncomplete
  | handoffLimit
  | invalidSnapshot
deriving DecidableEq

/-- A plan with the roles that are active or complete. -/
structure OrchestrationRun where
  plan : OrchestrationPlan
  (completed active : OrderedSet RoleId)
  handoffsUsed : ℕ

structure OrchestrationRunSnapshot where
  plan : OrchestrationPlan
  (completed active : List RoleId)
  handoffsUsed : ℕ

namespace OrchestrationRun

def new (plan : OrchestrationPlan) : OrchestrationRun := ⟨plan, .empty, .empty, 0⟩

def readyRoles (run : OrchestrationRun) : Except OrchestrationError (List RoleAssignment) :=
  .ok (((run.plan.readyRoles run.completed.elems).filter fun role => role.id ∉ run.active).take
    (run.plan.maxParallelism - run.active.card))

def startReady (run : OrchestrationRun) :
    Except OrchestrationError (OrchestrationRun × List RoleAssignment) := do
  let ready ← run.readyRoles
  pure ({ run with active := (ready.map RoleAssignment.id).foldl .insert run.active }, ready)

/-- `active.remove` with the error it gives if the role is not active. -/
def removeActive (run : OrchestrationRun) (roleId : RoleId) :
    Except OrchestrationError (OrderedSet RoleId) := do
  if roleId ∈ run.active then pure (run.active.remove roleId)
  else if (run.plan.role roleId).isNone then throw (.roleNotFound roleId)
  else throw (.roleNotActive roleId)

def complete (run : OrchestrationRun) (roleId : RoleId) :
    Except OrchestrationError OrchestrationRun := do
  ensure (roleId ∉ run.completed) (.roleAlreadyCompleted roleId)
  let active ← run.removeActive roleId
  pure { run with active, completed := run.completed.insert roleId }

def releaseActive (run : OrchestrationRun) (roleId : RoleId) :
    Except OrchestrationError OrchestrationRun := do
  let active ← run.removeActive roleId
  pure { run with active }

def handoff (run : OrchestrationRun) (source target : RoleId) :
    Except OrchestrationError OrchestrationRun := do
  ensure (run.plan.handoff source target).isSome (.handoffNotDeclared source target)
  ensure (source ∈ run.completed) .handoffSourceIncomplete
  ensure (run.handoffsUsed < run.plan.maxHandoffs) .handoffLimit
  pure { run with handoffsUsed := run.handoffsUsed + 1 }

def isComplete (run : OrchestrationRun) : Bool := run.completed.card = run.plan.roles.length

def snapshot (run : OrchestrationRun) : OrchestrationRunSnapshot :=
  ⟨run.plan, run.completed.elems, run.active.elems, run.handoffsUsed⟩

def fromSnapshot (snapshot : OrchestrationRunSnapshot) :
    Except OrchestrationError OrchestrationRun := do
  let completed := ofList snapshot.completed
  let active := ofList snapshot.active
  ensure (completed.card = snapshot.completed.length ∧ active.card = snapshot.active.length ∧
    (∀ id ∈ completed.elems, (snapshot.plan.role id).isSome) ∧
    (∀ id ∈ active.elems, (snapshot.plan.role id).isSome) ∧
    (∀ id ∈ completed.elems, id ∉ active) ∧
    snapshot.handoffsUsed ≤ snapshot.plan.maxHandoffs) .invalidSnapshot
  pure ⟨snapshot.plan, completed, active, snapshot.handoffsUsed⟩

end OrchestrationRun

/-! ### The two cuts -/

/-- A list cut to `n` places, with the elements left out that fail `p`, and cut again to the places
that are not taken by these: the first cut loses nothing. -/
theorem take_filter_take {α : Type} (p : α → Bool) (l : List α) (n : ℕ) :
    ((l.take n).filter p).take (n - (l.filter fun a => !p a).length) =
      (l.filter p).take (n - (l.filter fun a => !p a).length) := by
  have hsplit : l.filter p = (l.take n).filter p ++ (l.drop n).filter p := by
    rw [← filter_append, take_append_drop]
  have hcount : (l.take n).length =
      ((l.take n).filter p).length + ((l.take n).filter fun a => !p a).length :=
    length_eq_length_filter_add p
  have hout : ((l.take n).filter fun a => !p a).length ≤ (l.filter fun a => !p a).length :=
    ((take_sublist n l).filter _).length_le
  rw [length_take] at hcount
  by_cases hlong : n ≤ l.length
  · rw [hsplit, take_append_of_le_length (by omega)]
  · have hall : l.take n = l := take_of_length_le (by omega)
    rw [hall]

/-! ### What every state of a run satisfies -/

namespace OrchestrationRun

/-- The roles that could be started if there were places. -/
def startable (run : OrchestrationRun) : List RoleAssignment :=
  run.plan.roles.filter fun role =>
    OrchestrationPlan.eligible run.completed role ∧ role.id ∉ run.active

/-- Active and completed roles are roles of the plan with all dependencies completed, no role is
both, and no more roles are active than the plan allows. -/
structure Safe (run : OrchestrationRun) : Prop where
  active_eligible : ∀ id ∈ run.active, ∃ role ∈ run.plan.roles, role.id = id ∧
    OrchestrationPlan.eligible run.completed role
  completed_settled : ∀ id ∈ run.completed, ∃ role ∈ run.plan.roles, role.id = id ∧
    ∀ dependency ∈ role.dependsOn, dependency ∈ run.completed
  active_le : run.active.card ≤ run.plan.maxParallelism
  handoffs_le : run.handoffsUsed ≤ run.plan.maxHandoffs

theorem safe_new (plan : OrchestrationPlan) : Safe (new plan) where
  active_eligible _ h := absurd h not_mem_empty
  completed_settled _ h := absurd h not_mem_empty
  active_le := Nat.zero_le _
  handoffs_le := Nat.zero_le _

variable {run : OrchestrationRun}

theorem Safe.not_completed (h : Safe run) {id : RoleId} (hid : id ∈ run.active) :
    id ∉ run.completed := by
  obtain ⟨role, -, rfl, heligible⟩ := h.active_eligible id hid
  exact (OrchestrationPlan.eligible_iff.mp heligible).1

theorem Safe.length_active (h : Safe run) :
    ((run.plan.roles.filter (OrchestrationPlan.eligible run.completed)).filter
      fun role => !decide (role.id ∉ run.active)).length = run.active.card := by
  have hsub : ((run.plan.roles.filter (OrchestrationPlan.eligible run.completed)).filter
      fun role => !decide (role.id ∉ run.active)).Sublist run.plan.roles :=
    filter_sublist.trans filter_sublist
  have hnodup := run.plan.valid.nodup.sublist (hsub.map RoleAssignment.id)
  have hperm : (((run.plan.roles.filter (OrchestrationPlan.eligible run.completed)).filter
      fun role => !decide (role.id ∉ run.active)).map RoleAssignment.id).Perm run.active.elems := by
    refine (perm_ext_iff_of_nodup hnodup run.active.nodup).mpr fun id => ?_
    simp only [mem_map, mem_filter, Bool.not_eq_true', decide_eq_false_iff_not, not_not]
    constructor
    · rintro ⟨role, ⟨-, hactive⟩, rfl⟩
      exact hactive
    · intro hid
      obtain ⟨role, hrole, rfl, heligible⟩ := h.active_eligible id hid
      exact ⟨role, ⟨⟨hrole, heligible⟩, hid⟩, rfl⟩
  rw [← length_map RoleAssignment.id, hperm.length_eq]
  rfl

/-- The roles that are ready: the first startable ones of the plan, as many as there are places. -/
theorem Safe.readyRoles_eq (h : Safe run) :
    run.readyRoles = .ok (run.startable.take (run.plan.maxParallelism - run.active.card)) := by
  have hcuts := take_filter_take (fun role : RoleAssignment => decide (role.id ∉ run.active))
    (run.plan.roles.filter (OrchestrationPlan.eligible run.completed)) run.plan.maxParallelism
  rw [h.length_active] at hcuts
  rw [readyRoles, OrchestrationPlan.readyRoles, ofList_elems, hcuts, startable, filter_filter]
  congr 3
  funext role
  simp [and_comm]

theorem mem_startable {role : RoleAssignment} : role ∈ run.startable ↔
    role ∈ run.plan.roles ∧ OrchestrationPlan.eligible run.completed role ∧
      role.id ∉ run.active := by
  simp [startable]

/-- The run after `startReady`. -/
def started (run : OrchestrationRun) : OrchestrationRun :=
  let ready := run.startable.take (run.plan.maxParallelism - run.active.card)
  { run with active := (ready.map RoleAssignment.id).foldl .insert run.active }

theorem Safe.startReady_eq (h : Safe run) : run.startReady =
    .ok (run.started, run.startable.take (run.plan.maxParallelism - run.active.card)) := by
  rw [startReady, h.readyRoles_eq, ok_bind]
  rfl

theorem mem_started_active {id : RoleId} : id ∈ run.started.active ↔ id ∈ run.active ∨
    ∃ role ∈ run.startable.take (run.plan.maxParallelism - run.active.card), role.id = id := by
  rw [started, mem_foldl_insert, mem_map, or_comm]

theorem card_started : run.started.active.card = run.active.card +
    min (run.plan.maxParallelism - run.active.card) run.startable.length := by
  have hsub : (run.startable.take (run.plan.maxParallelism - run.active.card)).Sublist
      run.plan.roles := (take_sublist _ _).trans filter_sublist
  have hnodup := run.plan.valid.nodup.sublist (hsub.map RoleAssignment.id)
  rw [started, card_foldl_insert _ _ hnodup, length_map, length_take]
  intro id hid
  obtain ⟨role, hrole, rfl⟩ := mem_map.mp hid
  exact (mem_startable.mp (mem_of_mem_take hrole)).2.2

theorem Safe.started (h : Safe run) : Safe run.started where
  active_eligible id hid := by
    rcases mem_started_active.mp hid with hid | ⟨role, hrole, rfl⟩
    · exact h.active_eligible id hid
    · obtain ⟨hmem, heligible, -⟩ := mem_startable.mp (mem_of_mem_take hrole)
      exact ⟨role, hmem, rfl, heligible⟩
  completed_settled := h.completed_settled
  active_le := by
    have hle := h.active_le
    rw [card_started]
    change run.active.card + _ ≤ run.plan.maxParallelism
    omega
  handoffs_le := h.handoffs_le

variable {roleId : RoleId}

theorem removeActive_eq_ok {active : OrderedSet RoleId} :
    run.removeActive roleId = .ok active ↔
      roleId ∈ run.active ∧ active = run.active.remove roleId := by
  unfold removeActive
  by_cases h : roleId ∈ run.active
  · rw [if_pos h, pure_eq_ok]
    exact ⟨fun he => ⟨h, he.symm⟩, fun he => he.2.symm⟩
  · rw [if_neg h]
    split_ifs <;> simp [h]

variable {run' : OrchestrationRun}

theorem complete_eq_ok :
    run.complete roleId = .ok run' ↔ roleId ∉ run.completed ∧ roleId ∈ run.active ∧
      run' = { run with active := run.active.remove roleId
                        completed := run.completed.insert roleId } := by
  simp only [complete, bind_eq_ok, ensure_eq_ok, exists_const, removeActive_eq_ok, pure_eq_ok]
  constructor
  · rintro ⟨hnew, _, ⟨hactive, rfl⟩, rfl⟩
    exact ⟨hnew, hactive, rfl⟩
  · rintro ⟨hnew, hactive, rfl⟩
    exact ⟨hnew, _, ⟨hactive, rfl⟩, rfl⟩

theorem releaseActive_eq_ok :
    run.releaseActive roleId = .ok run' ↔ roleId ∈ run.active ∧
      run' = { run with active := run.active.remove roleId } := by
  simp only [releaseActive, bind_eq_ok, removeActive_eq_ok, pure_eq_ok]
  constructor
  · rintro ⟨_, ⟨hactive, rfl⟩, rfl⟩
    exact ⟨hactive, rfl⟩
  · rintro ⟨hactive, rfl⟩
    exact ⟨_, ⟨hactive, rfl⟩, rfl⟩

/-- A role that stays active keeps its dependencies when another one is completed. -/
theorem Safe.complete (h : Safe run) (hcomplete : run.complete roleId = .ok run') : Safe run' := by
  obtain ⟨-, hactive, rfl⟩ := complete_eq_ok.mp hcomplete
  refine ⟨?_, ?_, (card_remove_le _ _).trans h.active_le, h.handoffs_le⟩
  · intro id hid
    obtain ⟨hne, hid⟩ := mem_remove.mp hid
    obtain ⟨role, hrole, rfl, heligible⟩ := h.active_eligible id hid
    obtain ⟨hnew, hdeps⟩ := OrchestrationPlan.eligible_iff.mp heligible
    refine ⟨role, hrole, rfl, OrchestrationPlan.eligible_iff.mpr ⟨?_, ?_⟩⟩
    · intro hmem
      exact (mem_insert.mp hmem).elim hne hnew
    · exact fun dependency hd => mem_insert.mpr (Or.inr (hdeps dependency hd))
  · intro id hid
    have hsettled : ∃ role ∈ run.plan.roles, role.id = id ∧
        ∀ dependency ∈ role.dependsOn, dependency ∈ run.completed := by
      rcases mem_insert.mp hid with rfl | hid
      · obtain ⟨role, hrole, hrid, heligible⟩ := h.active_eligible _ hactive
        exact ⟨role, hrole, hrid, (OrchestrationPlan.eligible_iff.mp heligible).2⟩
      · exact h.completed_settled id hid
    obtain ⟨role, hrole, hrid, hdeps⟩ := hsettled
    exact ⟨role, hrole, hrid, fun dependency hd => mem_insert.mpr (Or.inr (hdeps dependency hd))⟩

theorem Safe.releaseActive (h : Safe run)
    (hrelease : run.releaseActive roleId = .ok run') : Safe run' := by
  obtain ⟨-, rfl⟩ := releaseActive_eq_ok.mp hrelease
  refine ⟨fun id hid => ?_, h.completed_settled,
    (card_remove_le _ _).trans h.active_le, h.handoffs_le⟩
  exact h.active_eligible id (mem_remove.mp hid).2

theorem Safe.handoff (h : Safe run) {source target : RoleId}
    (hhandoff : run.handoff source target = .ok run') : Safe run' ∧ run'.plan = run.plan := by
  simp only [OrchestrationRun.handoff, bind_eq_ok, ensure_eq_ok, exists_const, pure_eq_ok]
    at hhandoff
  obtain ⟨-, -, hlt, rfl⟩ := hhandoff
  exact ⟨⟨h.active_eligible, h.completed_settled, h.active_le, hlt⟩, rfl⟩

theorem Safe.fromSnapshot_snapshot (h : Safe run) : fromSnapshot run.snapshot = .ok run := by
  have hcompleted : ∀ id ∈ run.completed.elems, (run.plan.role id).isSome := by
    intro id hid
    obtain ⟨role, hrole, hrid, -⟩ := h.completed_settled id hid
    exact isSome_roleById.mpr ⟨role, hrole, hrid⟩
  have hactive : ∀ id ∈ run.active.elems, (run.plan.role id).isSome := by
    intro id hid
    obtain ⟨role, hrole, hrid, -⟩ := h.active_eligible id hid
    exact isSome_roleById.mpr ⟨role, hrole, hrid⟩
  have hdisjoint : ∀ id ∈ run.completed.elems, id ∉ run.active :=
    fun id hid hmem => h.not_completed hmem hid
  simp only [fromSnapshot, snapshot, ofList_elems]
  rw [ensure, if_pos ⟨rfl, rfl, hcompleted, hactive, hdisjoint, h.handoffs_le⟩]
  rfl

/-- A run that is not complete and has no active role has a role to start. -/
theorem Safe.startable_ne_nil (h : Safe run) (hincomplete : run.isComplete = false)
    (hidle : run.active.card = 0) : run.startable ≠ [] := by
  intro hnil
  have hclosed : ∀ role ∈ run.plan.roles,
      (∀ dependency ∈ role.dependsOn, dependency ∈ run.completed) → role.id ∈ run.completed := by
    intro role hrole hdeps
    by_contra hnew
    have hmem : role ∈ run.startable := mem_startable.mpr ⟨hrole,
      OrchestrationPlan.eligible_iff.mpr ⟨hnew, hdeps⟩, card_eq_zero.mp hidle _⟩
    rw [hnil] at hmem
    exact not_mem_nil hmem
  have hroles : ∀ id ∈ run.completed, id ∈ run.plan.roles.map RoleAssignment.id := by
    intro id hid
    obtain ⟨role, hrole, hrid, -⟩ := h.completed_settled id hid
    exact mem_map.mpr ⟨role, hrole, hrid⟩
  have hall := card_of_closed run.plan.valid.acyclic hclosed hroles
  simp [isComplete, hall] at hincomplete

end OrchestrationRun

/-! ### Sequences of calls -/

/-- A call on a run; `fromSnapshot i` goes back to the `i`-th snapshot taken. -/
inductive RunCall
  | startReady
  | complete (roleId : RoleId)
  | releaseActive (roleId : RoleId)
  | handoff (source target : RoleId)
  | snapshot
  | fromSnapshot (i : ℕ)

/-- A run and the snapshots taken of it. -/
structure RunState where
  run : OrchestrationRun
  snapshots : List OrchestrationRunSnapshot

/-- The run after a method, or the run as it was if the method fails. -/
def RunState.after (s : RunState) (result : Except OrchestrationError OrchestrationRun) :
    RunState :=
  match result with
  | .ok run => { s with run }
  | .error _ => s

def RunState.call (s : RunState) : RunCall → RunState
  | .startReady => s.after (s.run.startReady.map Prod.fst)
  | .complete roleId => s.after (s.run.complete roleId)
  | .releaseActive roleId => s.after (s.run.releaseActive roleId)
  | .handoff source target => s.after (s.run.handoff source target)
  | .snapshot => { s with snapshots := s.snapshots ++ [s.run.snapshot] }
  | .fromSnapshot i =>
    match s.snapshots[i]? with
    | some snapshot => s.after (OrchestrationRun.fromSnapshot snapshot)
    | none => s

def runMachine : Machine RunState RunCall Unit := ⟨fun s call => (s.call call, ())⟩

/-- The run of a plan after a sequence of calls. -/
def runAfter (plan : OrchestrationPlan) (calls : List RunCall) : OrchestrationRun :=
  (runMachine.run ⟨.new plan, []⟩ calls).run

/-- The run is safe, and every snapshot is one of a safe run of the same plan. -/
structure RunState.Safe (plan : OrchestrationPlan) (s : RunState) : Prop where
  run : s.run.Safe
  plan_eq : s.run.plan = plan
  snapshots : ∀ snapshot ∈ s.snapshots, ∃ run : OrchestrationRun,
    run.Safe ∧ run.plan = plan ∧ snapshot = run.snapshot

theorem RunState.Safe.after {plan : OrchestrationPlan} {s : RunState} (h : s.Safe plan)
    {result : Except OrchestrationError OrchestrationRun}
    (hresult : ∀ run, result = .ok run → run.Safe ∧ run.plan = plan) :
    (s.after result).Safe plan := by
  cases result with
  | ok run => exact ⟨(hresult run rfl).1, (hresult run rfl).2, h.snapshots⟩
  | error e => exact h

theorem RunState.Safe.call {plan : OrchestrationPlan} {s : RunState} (h : s.Safe plan)
    (c : RunCall) : (s.call c).Safe plan := by
  cases c with
  | startReady =>
    change (s.after (s.run.startReady.map Prod.fst)).Safe plan
    refine h.after fun run hrun => ?_
    rw [h.run.startReady_eq] at hrun
    obtain rfl : s.run.started = run := Except.ok.inj hrun
    exact ⟨h.run.started, h.plan_eq⟩
  | complete roleId =>
    refine h.after fun run hrun => ⟨h.run.complete hrun, ?_⟩
    obtain ⟨-, -, rfl⟩ := OrchestrationRun.complete_eq_ok.mp hrun
    exact h.plan_eq
  | releaseActive roleId =>
    refine h.after fun run hrun => ⟨h.run.releaseActive hrun, ?_⟩
    obtain ⟨-, rfl⟩ := OrchestrationRun.releaseActive_eq_ok.mp hrun
    exact h.plan_eq
  | handoff source target =>
    refine h.after fun run hrun => ⟨(h.run.handoff hrun).1, ?_⟩
    rw [(h.run.handoff hrun).2, h.plan_eq]
  | snapshot =>
    refine ⟨h.run, h.plan_eq, fun snapshot hmem => ?_⟩
    rcases mem_append.mp hmem with hmem | hmem
    · exact h.snapshots snapshot hmem
    · exact ⟨s.run, h.run, h.plan_eq, mem_singleton.mp hmem⟩
  | fromSnapshot i =>
    simp only [RunState.call]
    split
    · rename_i saved hget
      obtain ⟨run, hsafe, hplan, rfl⟩ := h.snapshots _ (mem_of_getElem? hget)
      refine h.after fun run' hrun' => ?_
      rw [hsafe.fromSnapshot_snapshot] at hrun'
      obtain rfl := Except.ok.inj hrun'
      exact ⟨hsafe, hplan⟩
    · exact h

theorem safe_runAfter (plan : OrchestrationPlan) (calls : List RunCall) :
    (runAfter plan calls).Safe ∧ (runAfter plan calls).plan = plan := by
  have hstart : RunState.Safe plan ⟨.new plan, []⟩ :=
    ⟨OrchestrationRun.safe_new plan, rfl, fun _ hmem => absurd hmem not_mem_nil⟩
  have hend := runMachine.run_invariant (P := RunState.Safe plan)
    (fun s c h => RunState.Safe.call h c) calls hstart
  exact ⟨hend.run, hend.plan_eq⟩

/-- **The scheduler is safe and work-conserving.** After every sequence of calls on the run of an
accepted plan, the active roles have places and their dependencies completed; `startReady` starts
the first startable roles, as many as there are places; a run that is not complete and has no active
role starts one; and the snapshot of the run restores it. -/
theorem schedule_safe (plan : OrchestrationPlan) (calls : List RunCall) :
    let run := runAfter plan calls
    let started := run.startable.take (plan.maxParallelism - run.active.card)
    (∀ id ∈ run.active, id ∉ run.completed) ∧ run.active.card ≤ plan.maxParallelism ∧
    (∀ id, id ∈ run.active ∨ id ∈ run.completed → ∃ role ∈ plan.roles, role.id = id ∧
      ∀ dependency ∈ role.dependsOn, dependency ∈ run.completed) ∧
    run.startReady = .ok (run.started, started) ∧
    started.length = min (plan.maxParallelism - run.active.card) run.startable.length ∧
    run.started.active.card = run.active.card + started.length ∧
    (run.isComplete = false → run.active.card = 0 → started ≠ []) ∧
    OrchestrationRun.fromSnapshot run.snapshot = .ok run := by
  intro run started
  obtain ⟨hsafe, hplan⟩ : run.Safe ∧ run.plan = plan := safe_runAfter plan calls
  have hlength : started.length = min (plan.maxParallelism - run.active.card)
      run.startable.length := length_take
  refine ⟨fun id hid => hsafe.not_completed hid, hplan ▸ hsafe.active_le, ?_, ?_, hlength, ?_, ?_,
    hsafe.fromSnapshot_snapshot⟩
  · rintro id (hid | hid)
    · obtain ⟨role, hrole, hrid, heligible⟩ := hsafe.active_eligible id hid
      exact ⟨role, hplan ▸ hrole, hrid, (OrchestrationPlan.eligible_iff.mp heligible).2⟩
    · obtain ⟨role, hrole, hrid, hdeps⟩ := hsafe.completed_settled id hid
      exact ⟨role, hplan ▸ hrole, hrid, hdeps⟩
  · rw [hsafe.startReady_eq, hplan]
  · rw [OrchestrationRun.card_started, hplan, hlength]
  · intro hincomplete hidle hnil
    have hne := hsafe.startable_ne_nil hincomplete hidle
    have hpos := plan.valid.positive
    have hsome : 0 < run.startable.length := length_pos_of_ne_nil hne
    rw [hnil, length_nil] at hlength
    omega

/-- A plan of two roles, the second after the first. -/
def twoRoles : List RoleAssignment :=
  [⟨.ofLiteral "plan", .planner, .ofLiteral "h", []⟩,
    ⟨.ofLiteral "make", .maker, .ofLiteral "h", [.ofLiteral "plan"]⟩]

theorem twoRoles_accepted : checkPlan twoRoles 2 0 [] = .ok () := by decide +kernel

/-- After the first role of the plan is completed, the second one is started. -/
theorem schedule_safe_twoRoles :
    let run := runAfter ⟨.ofLiteral "p", twoRoles, 2, 0, [], twoRoles_accepted⟩
      [.startReady, .complete (.ofLiteral "plan")]
    run.isComplete = false ∧ run.active.card = 0 ∧ run.startable.take (2 - run.active.card) ≠ [] :=
  ⟨by decide +kernel, by decide +kernel,
    (schedule_safe ⟨.ofLiteral "p", twoRoles, 2, 0, [], twoRoles_accepted⟩
      [.startReady, .complete (.ofLiteral "plan")]).2.2.2.2.2.2.1 (by decide +kernel)
      (by decide +kernel)⟩

end Pandora.Orchestration
