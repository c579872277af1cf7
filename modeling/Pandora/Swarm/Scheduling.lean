import Pandora.Lib.ListScheduling
import Pandora.Swarm.Tasks

/-! # The schedule of a task graph

`critical_path_span` and `simulate_work_stealing` of `swarm_mesh.rs`. The span is found along the
topological order, for each task from the tasks it depends on. In the simulation every round hands
out the tasks that are ready to the free slots of the workers, moves the time on to where the next
task ends, and completes all tasks that end there.

The completed tasks are counted in the source and are listed here; the loop has as many rounds as
there are tasks. Sums of weights are natural numbers. -/

namespace Pandora.Swarm.Tasks

open Lib.Checked Lib.Kahn Lib.Graphs Lib.SortedMaps Lib.ListScheduling SortedMap
open List hiding keys mem_keys

/-- An error, or the panic at a task that is not in the map. -/
inductive ScheduleError
  | swarm (error : TaskDagError)
  | unknownTask (id : String)

/-- What a worker runs, and when it ends. -/
abbrev Slot := Option (String × ℕ)

structure Simulation where
  workerAssignment : List Slot
  readyQueue : List String
  remainingDeps : String → Option ℕ
  completedTasks : List String
  currentTime : ℕ

namespace TaskDag

def totalWork (dag : TaskDag) : ℕ := (dag.tasks.entries.map fun entry => entry.2.weight).sum

/-! ### The span -/

def extendDist (dag : TaskDag) (dist : SortedMap String ℕ) (id : String) :
    Except ScheduleError (SortedMap String ℕ) := do
  let task ← orError (dag.tasks.get? id) (.unknownTask id)
  let predMax := ((dag.preds id).map fun pred => (dist.get? pred).getD 0).max?.getD 0
  pure (dist.insert id (predMax + task.weight))

def criticalPathSpan (dag : TaskDag) (shuffle : Shuffle) : Except ScheduleError ℕ := do
  let order ← (dag.topologicalSort shuffle).mapError .swarm
  let dist ← order.foldlM dag.extendDist .empty
  pure ((dist.entries.map Prod.snd).max?.getD 0)

/-! ### The simulation -/

/-- The free slots take tasks from the queue, until it is empty. -/
def assign (dag : TaskDag) (currentTime : ℕ) :
    List Slot → List String → Except ScheduleError (List Slot × List String)
  | [], ready => .ok ([], ready)
  | some running :: slots, ready => do
    let (slots, ready) ← dag.assign currentTime slots ready
    pure (some running :: slots, ready)
  | none :: slots, [] => .ok (none :: slots, [])
  | none :: slots, taskId :: ready => do
    let task ← orError (dag.tasks.get? taskId) (.unknownTask taskId)
    let (slots, ready) ← dag.assign currentTime slots ready
    pure (some (taskId, currentTime + task.weight) :: slots, ready)

def nextEvent (slots : List Slot) : Option ℕ :=
  (slots.filterMap fun slot => slot.map Prod.snd).min?

/-- One dependency is taken away, if there is one left. -/
def release (state : List String × (String → Option ℕ)) (succ : String) :
    List String × (String → Option ℕ) :=
  match state.2 succ with
  | none => state
  | some deps =>
    if 0 < deps then
      (if deps - 1 = 0 then state.1 ++ [succ] else state.1,
        Function.update state.2 succ (some (deps - 1)))
    else state

/-- The loop that completes the tasks, over the slots; it returns them too. -/
def complete (dag : TaskDag) (currentTime : ℕ) : List Slot →
    List String × (String → Option ℕ) → List String →
    List Slot × (List String × (String → Option ℕ)) × List String
  | [], state, completed => ([], state, completed)
  | none :: slots, state, completed =>
    let (slots, result) := dag.complete currentTime slots state completed
    (none :: slots, result)
  | some (taskId, finish) :: slots, state, completed =>
    if finish = currentTime then
      let (slots, result) := dag.complete currentTime slots
        ((dag.succs taskId).foldl release state) (completed ++ [taskId])
      (none :: slots, result)
    else
      let (slots, result) := dag.complete currentTime slots state completed
      (some (taskId, finish) :: slots, result)

/-- The body of the loop; nothing where it breaks. -/
def round (dag : TaskDag) (s : Simulation) : Except ScheduleError (Option Simulation) := do
  let (slots, ready) ← dag.assign s.currentTime s.workerAssignment s.readyQueue
  match nextEvent slots with
  | none => pure none
  | some nextTime =>
    let (slots, (ready, deps), completed) :=
      dag.complete nextTime slots (ready, s.remainingDeps) s.completedTasks
    pure (some ⟨slots, ready, deps, completed, nextTime⟩)

/-- The loop, for at most `fuel` rounds. -/
def rounds (dag : TaskDag) : ℕ → Simulation → Except ScheduleError Simulation
  | 0, s => .ok s
  | fuel + 1, s =>
    if s.completedTasks.length < dag.tasks.entries.length then do
      match ← dag.round s with
      | none => pure s
      | some s => dag.rounds fuel s
    else .ok s

def simulationStart (dag : TaskDag) (shuffle : Shuffle) (workers : ℕ) : Simulation where
  workerAssignment := List.replicate (max workers 1) none
  readyQueue := shuffle.order ((dag.reverseAdjacency.entries.filter
    fun entry => entry.2.length = 0).map Prod.fst)
  remainingDeps id := (dag.reverseAdjacency.get? id).map List.length
  completedTasks := []
  currentTime := 0

/-- The state after the loop. -/
def simulate (dag : TaskDag) (sorted queued : Shuffle) (workers : ℕ) :
    Except ScheduleError Simulation := do
  let _ ← (dag.topologicalSort sorted).mapError .swarm
  dag.rounds dag.tasks.entries.length (dag.simulationStart queued workers)

def simulateWorkStealing (dag : TaskDag) (sorted queued : Shuffle) (workers : ℕ) :
    Except ScheduleError ℕ :=
  (dag.simulate sorted queued workers).map Simulation.currentTime

/-! ### The span is the heaviest path -/

variable {dag : TaskDag}

/-- The weight of a task, or nothing. -/
def weight (dag : TaskDag) (id : String) : ℕ := ((dag.tasks.get? id).map TaskNode.weight).getD 0

theorem weight_of_get? {id : String} {task : TaskNode} (h : dag.tasks.get? id = some task) :
    dag.weight id = task.weight := by
  rw [weight, h]
  rfl

theorem totalWork_eq (dag : TaskDag) : dag.totalWork = total dag.weight dag.tasks.keys := by
  unfold totalWork total keys
  rw [map_map]
  congr 1
  refine map_congr_left fun entry hentry => ?_
  exact (weight_of_get? (get?_eq_some.mpr hentry)).symm

theorem Formed.mem_preds (h : dag.Formed) {pred id : String} :
    pred ∈ dag.preds id ↔ dag.Edge pred id := by
  rw [Edge, ← count_pos_iff, ← count_pos_iff, h.mirrored]

/-- What the loop over the order has found: for each task so far the heaviest path to it. -/
structure Measured (h : dag.Formed) (before : List String) (dist : SortedMap String ℕ) : Prop where
  known : ∀ id, (dist.get? id).isSome ↔ id ∈ before
  heaviest : ∀ id d, dist.get? id = some d →
    IsGreatest (weightsTo (dag.graph h) dag.weight id) d

theorem extendDist_spec {h : dag.Formed} {before : List String} {dist : SortedMap String ℕ}
    {id : String} (hdist : Measured h before dist) (hid : id ∈ dag.tasks.keys)
    (hpreds : ∀ pred, dag.Edge pred id → pred ∈ before) :
    ∃ dist', dag.extendDist dist id = .ok dist' ∧ Measured h (before ++ [id]) dist' := by
  obtain ⟨task, htask⟩ := Option.isSome_iff_exists.mp (mem_keys.mp hid)
  unfold extendDist
  rw [htask]
  refine ⟨_, rfl, fun other => ?_, fun other d hget => ?_⟩
  · rw [get?_insert, mem_append, mem_singleton, ← hdist.known]
    split_ifs with hother
    all_goals simp [hother]
  · rw [get?_insert] at hget
    split_ifs at hget with hother
    · obtain rfl := Option.some.inj hget
      subst hother
      rw [← weight_of_get? htask]
      refine isGreatest_weightsTo hid (fun pred => ?_) fun pred hpred => ?_
      · rw [edge_graph, h.mem_preds]
      · have hsome := (hdist.known pred).mpr (hpreds pred (h.mem_preds.mp hpred))
        obtain ⟨d, hd⟩ := Option.isSome_iff_exists.mp hsome
        rw [hd]
        exact hdist.heaviest pred d hd
    · exact hdist.heaviest other d hget

theorem foldlM_extendDist {h : dag.Formed} {order : List String} (horder : dag.IsOrder order) :
    ∀ {after before : List String} {dist : SortedMap String ℕ}, order = before ++ after →
      Measured h before dist →
      ∃ dist', after.foldlM dag.extendDist dist = .ok dist' ∧ Measured h order dist'
  | [], before, dist, hsplit, hdist => by
    rw [append_nil] at hsplit
    exact ⟨dist, rfl, hsplit ▸ hdist⟩
  | id :: after, before, dist, hsplit, hdist => by
    have hid : id ∈ dag.tasks.keys :=
      horder.perm.mem_iff.mp (hsplit ▸ mem_append_right _ mem_cons_self)
    obtain ⟨dist', hextend, hnext⟩ :=
      extendDist_spec hdist hid fun pred hedge => horder.after before id after hsplit pred hedge
    obtain ⟨last, hrest, hlast⟩ := foldlM_extendDist horder
      (hsplit.trans (by rw [append_assoc]; rfl)) hnext
    refine ⟨last, ?_, hlast⟩
    rw [foldlM_cons, hextend]
    exact hrest

/-- **The span** is the weight of the heaviest path. -/
theorem Formed.criticalPathSpan_spec (h : dag.Formed) (hacyclic : Acyclic dag.Edge)
    (shuffle : Shuffle) :
    ∃ span, dag.criticalPathSpan shuffle = .ok span ∧
      IsGreatest (weights (dag.graph h) dag.weight) span := by
  obtain ⟨-, order, hsort, horder⟩ :=
    (h.topologicalSort_spec shuffle).resolve_right fun hcycle => hcycle.1 hacyclic
  obtain ⟨dist, hfold, hdist⟩ := @foldlM_extendDist _ h _ horder order [] .empty rfl
    ⟨fun id => iff_of_false Bool.false_ne_true not_mem_nil, fun id d hget => nomatch hget⟩
  have hkeys : dist.keys.Perm dag.tasks.keys := by
    refine ((perm_ext_iff_of_nodup dist.nodup_keys dag.tasks.nodup_keys).mpr fun id => ?_)
    rw [mem_keys, hdist.known, horder.perm.mem_iff]
  unfold criticalPathSpan
  rw [hsort]
  refine ⟨((dist.entries.map Prod.snd).max?).getD 0, ?_, ?_⟩
  · simp only [bind_eq_ok, mapError_eq_ok, pure_eq_ok]
    exact ⟨order, rfl, dist, hfold, rfl⟩
  · refine isGreatest_weights (fun id hid => ?_) fun entry hentry => ?_
    · obtain ⟨entry, hentry, rfl⟩ := mem_map.mp (hkeys.mem_iff.mpr hid)
      exact ⟨entry.2, hentry⟩
    · exact hdist.heaviest entry.1 entry.2 (get?_eq_some.mpr hentry)

/-! ### One round -/

/-- The tasks that are run, with the times at which they end. -/
def runningOf (slots : List Slot) : List (String × ℕ) := slots.filterMap id

/-- **The tasks that are handed out**: the first ones, until there are no more or no free slot. -/
theorem assign_spec {currentTime : ℕ} :
    ∀ {slots : List Slot} {ready : List String}, (∀ id ∈ ready, id ∈ dag.tasks.keys) →
      ∃ slots' taken ready', dag.assign currentTime slots ready = .ok (slots', ready') ∧
        ready = taken ++ ready' ∧ slots'.length = slots.length ∧
        (runningOf slots').Perm
          (runningOf slots ++ taken.map fun id => (id, currentTime + dag.weight id)) ∧
        (ready' = [] ∨ none ∉ slots')
  | [], ready, _ => ⟨[], [], ready, rfl, rfl, rfl, .refl _, Or.inr not_mem_nil⟩
  | some running :: slots, ready, hready => by
    obtain ⟨slots', taken, ready', hassign, hsplit, hlength, hperm, hfull⟩ :=
      @assign_spec currentTime slots ready hready
    refine ⟨some running :: slots', taken, ready', ?_, hsplit, congrArg Nat.succ hlength,
      hperm.cons running, hfull.imp_right fun hfull hmem => ?_⟩
    · rw [assign, hassign]
      rfl
    · exact hfull (mem_of_ne_of_mem (Option.some_ne_none running).symm hmem)
  | none :: slots, [], _ => ⟨none :: slots, [], [], rfl, rfl, rfl, by simp, Or.inl rfl⟩
  | none :: slots, taskId :: ready, hready => by
    rw [forall_mem_cons] at hready
    obtain ⟨task, htask⟩ := Option.isSome_iff_exists.mp (mem_keys.mp hready.1)
    obtain ⟨slots', taken, ready', hassign, hsplit, hlength, hperm, hfull⟩ :=
      @assign_spec currentTime slots ready hready.2
    refine ⟨some (taskId, currentTime + task.weight) :: slots', taskId :: taken, ready', ?_,
      congrArg (taskId :: ·) hsplit, congrArg Nat.succ hlength, ?_,
      hfull.imp_right fun hfull hmem => ?_⟩
    · rw [assign, htask, hassign]
      rfl
    · rw [map_cons, weight_of_get? htask]
      exact (hperm.cons _).trans perm_middle.symm
    · exact hfull (mem_of_ne_of_mem (Option.some_ne_none _).symm hmem)

/-- The guard of the source does not matter where the edges were counted. -/
theorem foldl_release {cs : List String} {state : List String × (String → Option ℕ)}
    (h : ∀ c ∈ cs, ∃ deps, state.2 c = some deps ∧ cs.count c ≤ deps) :
    cs.foldl release state = cs.foldl settle state := by
  induction cs generalizing state with
  | nil => rfl
  | cons c cs ih =>
    obtain ⟨deps, hdeps, hcount⟩ := h c mem_cons_self
    rw [count_cons_self] at hcount
    have hsame : release state c = settle state c := by
      unfold release settle
      rw [hdeps]
      exact if_pos (by omega)
    rw [foldl_cons, foldl_cons, hsame]
    refine ih fun other hother => ?_
    have hsettle : (settle state c).2 = Function.update state.2 c (some (deps - 1)) := by
      unfold settle
      rw [hdeps]
    rw [hsettle]
    by_cases hc : other = c
    · subst hc
      exact ⟨deps - 1, Function.update_self .., by omega⟩
    · obtain ⟨deps', hdeps', hcount'⟩ := h other (mem_cons_of_mem _ hother)
      rw [count_cons_of_ne (Ne.symm hc)] at hcount'
      exact ⟨deps', by rw [Function.update_of_ne hc, hdeps'], hcount'⟩

theorem foldl_settle_append {front ready : List String} {degrees : String → Option ℕ}
    {cs : List String} : cs.foldl settle (front ++ ready, degrees) =
      (front ++ (cs.foldl settle (ready, degrees)).1, (cs.foldl settle (ready, degrees)).2) := by
  induction cs generalizing ready degrees with
  | nil => rfl
  | cons c cs ih =>
    have hstep : settle (front ++ ready, degrees) c =
        (front ++ (settle (ready, degrees) c).1, (settle (ready, degrees) c).2) := by
      unfold settle
      dsimp only
      rcases degrees c with _ | deps
      · rfl
      · dsimp only
        split_ifs
        · rw [append_assoc]
        · rfl
    rw [foldl_cons, foldl_cons, hstep, ih]

/-- **The tasks that are completed**: those that end now, in the order of the slots. -/
theorem complete_spec {h : dag.Formed} {currentTime : ℕ} :
    ∀ {slots : List Slot} {front ready completed : List String} {deps : String → Option ℕ},
      Progress (dag.graph h) (front ++ ((runningOf slots).map Prod.fst ++ ready)) deps completed →
      ∃ slots' ready' deps' completed', dag.complete currentTime slots (ready, deps) completed =
          (slots', (ready', deps'), completed') ∧
        Progress (dag.graph h) (front ++ ((runningOf slots').map Prod.fst ++ ready')) deps'
          completed' ∧
        slots'.length = slots.length ∧
        runningOf slots' = (runningOf slots).filter (fun running => running.2 ≠ currentTime) ∧
        completed' = completed ++
          ((runningOf slots).filter fun running => running.2 = currentTime).map Prod.fst
  | [], front, ready, completed, deps, hprogress =>
    ⟨[], ready, deps, completed, rfl, hprogress, rfl, rfl, (append_nil _).symm⟩
  | none :: slots, front, ready, completed, deps, hprogress => by
    obtain ⟨slots', ready', deps', completed', hcomplete, hnext, hlength, hrunning, hcompleted⟩ :=
      @complete_spec h currentTime slots _ _ _ _ hprogress
    refine ⟨none :: slots', ready', deps', completed', ?_, hnext, congrArg Nat.succ hlength,
      hrunning, hcompleted⟩
    rw [complete, hcomplete]
  | some (taskId, finish) :: slots, front, ready, completed, deps, hprogress => by
    by_cases hfinish : finish = currentTime
    · subst hfinish
      have hfirst : Progress (dag.graph h)
          (taskId :: (front ++ ((runningOf slots).map Prod.fst ++ ready))) deps completed :=
        hprogress.perm perm_middle
      obtain ⟨new, deps', hfold, hnext⟩ := hfirst.take
      have hrelease : (dag.succs taskId).foldl release (ready, deps) = (ready ++ new, deps') := by
        have hsettle := @foldl_settle_append (front ++ (runningOf slots).map Prod.fst) ready deps
          (dag.succs taskId)
        change (dag.succs taskId).foldl settle _ = _ at hfold
        rw [append_assoc, hfold, Prod.mk.injEq, append_assoc, append_assoc,
          append_assoc, append_cancel_left_eq, append_cancel_left_eq] at hsettle
        rw [foldl_release hfirst.counts]
        exact Prod.ext hsettle.1.symm hsettle.2.symm
      rw [append_assoc, append_assoc] at hnext
      obtain ⟨slots', ready', deps', completed', hcomplete, hlast, hlength, hrunning, hcompleted⟩ :=
        @complete_spec h finish slots _ _ _ _ hnext
      refine ⟨none :: slots', ready', deps', completed', ?_, hlast, congrArg Nat.succ hlength, ?_,
        ?_⟩
      · rw [complete, if_pos rfl, hrelease, hcomplete]
      · show runningOf slots' = List.filter _ ((taskId, finish) :: runningOf slots)
        rw [filter_cons_of_neg (by simp), hrunning]
      · show completed' = completed ++ (List.filter _ ((taskId, finish) :: runningOf slots)).map _
        rw [filter_cons_of_pos (by simp), hcompleted, append_assoc]
        rfl
    · -- the task stays, and moves to the front
      have hmove : Progress (dag.graph h)
          ((front ++ [taskId]) ++ ((runningOf slots).map Prod.fst ++ ready)) deps completed := by
        rw [append_assoc]
        exact hprogress
      obtain ⟨slots', ready', deps', completed', hcomplete, hnext, hlength, hrunning, hcompleted⟩ :=
        @complete_spec h currentTime slots _ _ _ _ hmove
      rw [append_assoc] at hnext
      refine ⟨some (taskId, finish) :: slots', ready', deps', completed', ?_, hnext,
        congrArg Nat.succ hlength, ?_, ?_⟩
      · rw [complete, if_neg hfinish, hcomplete]
      · show (taskId, finish) :: runningOf slots' =
          List.filter _ ((taskId, finish) :: runningOf slots)
        rw [filter_cons_of_pos (by simpa using hfinish), hrunning]
      · show completed' = completed ++ (List.filter _ ((taskId, finish) :: runningOf slots)).map _
        rw [filter_cons_of_neg (by simpa using hfinish), hcompleted]

/-- The state between two rounds; `rest` is what is left to do of each task. -/
structure Ongoing (h : dag.Formed) (workers : ℕ) (s : Simulation) (rest : String → ℕ) : Prop where
  progress : Progress (dag.graph h)
    ((runningOf s.workerAssignment).map Prod.fst ++ s.readyQueue) s.remainingDeps s.completedTasks
  slots : s.workerAssignment.length = workers
  pace : ∃ idle, Pace (dag.graph h) dag.weight workers s.currentTime idle rest
  completed : ∀ id ∈ s.completedTasks, rest id = 0
  running : ∀ running ∈ runningOf s.workerAssignment, running.2 = s.currentTime + rest running.1
  waiting : ∀ id, id ∉ s.completedTasks → id ∉ (runningOf s.workerAssignment).map Prod.fst →
    rest id = dag.weight id

variable {h : dag.Formed} {workers : ℕ} {s : Simulation} {rest : String → ℕ}

theorem Ongoing.assign (hs : Ongoing h workers s rest) :
    ∃ slots ready, dag.assign s.currentTime s.workerAssignment s.readyQueue = .ok (slots, ready) ∧
      Ongoing h workers { s with workerAssignment := slots, readyQueue := ready } rest ∧
      (ready = [] ∨ none ∉ slots) := by
  obtain ⟨slots, taken, ready, hassign, hsplit, hlength, hperm, hfull⟩ :=
    @assign_spec dag s.currentTime s.workerAssignment s.readyQueue fun id hid =>
      hs.progress.sub id (mem_append_right _ (mem_append_right _ hid))
  have hids := hperm.map Prod.fst
  rw [map_append, map_map] at hids
  have htaken : (Prod.fst ∘ fun id => (id, s.currentTime + dag.weight id)) = id := rfl
  rw [htaken, map_id] at hids
  refine ⟨slots, ready, hassign, ⟨hs.progress.perm ?_, hlength.trans hs.slots, hs.pace,
    hs.completed, fun running hrunning => ?_, fun id hid hnot => hs.waiting id hid fun hold => ?_⟩,
    hfull⟩
  · rw [hsplit, ← append_assoc]
    exact (hids.symm).append_right ready
  · rcases mem_append.mp (hperm.mem_iff.mp hrunning) with hold | hnew
    · exact hs.running running hold
    · obtain ⟨id, hid, rfl⟩ := mem_map.mp hnew
      have hready : id ∈ s.readyQueue := hsplit ▸ mem_append_left _ hid
      obtain ⟨-, hqueue, hdisjoint⟩ := nodup_append.mp hs.progress.nodup
      dsimp only
      rw [hs.waiting id]
      · exact fun hdone => hdisjoint id hdone id (mem_append_right _ hready) rfl
      · exact fun hrun => (nodup_append.mp hqueue).2.2 id hrun id hready rfl
  · exact hnot (hids.mem_iff.mpr (mem_append_left _ hold))

/-- While there are tasks to complete, and all that can run do, some task runs. -/
theorem Ongoing.busy (hs : Ongoing h workers s rest) (hacyclic : Acyclic dag.Edge)
    (hworkers : 1 ≤ workers) (hleft : s.completedTasks.length < dag.tasks.keys.length)
    (hfull : s.readyQueue = [] ∨ none ∉ s.workerAssignment) :
    runningOf s.workerAssignment ≠ [] := by
  intro hidle
  have hnone : none ∈ s.workerAssignment := by
    obtain ⟨slot, hslot⟩ := exists_mem_of_length_pos (hs.slots.symm ▸ hworkers)
    have hslotNone := filterMap_eq_nil_iff.mp hidle slot hslot
    rw [id] at hslotNone
    exact hslotNone ▸ hslot
  have hready := hfull.resolve_right (not_not.mpr hnone)
  have hprogress := hs.progress
  rw [hidle, hready, map_nil, append_nil] at hprogress
  rw [← edge_graph h] at hacyclic
  exact absurd (hprogress.complete_iff.mpr hacyclic) (ne_of_lt hleft)

theorem nextEvent_eq (slots : List Slot) :
    nextEvent slots = ((runningOf slots).map Prod.snd).min? := by
  unfold nextEvent runningOf
  rw [map_filterMap]
  rfl

theorem nextEvent_spec {slots : List Slot} (hbusy : runningOf slots ≠ []) :
    ∃ nextTime, nextEvent slots = some nextTime ∧
      (∃ running ∈ runningOf slots, running.2 = nextTime) ∧
      ∀ running ∈ runningOf slots, nextTime ≤ running.2 := by
  rw [nextEvent_eq]
  rcases hmin : ((runningOf slots).map Prod.snd).min? with _ | nextTime
  · rw [List.min?_eq_none_iff, map_eq_nil_iff] at hmin
    exact absurd hmin hbusy
  · obtain ⟨running, hrunning, hnext⟩ := mem_map.mp (List.min?_mem hmin)
    refine ⟨nextTime, rfl, ⟨running, hrunning, hnext⟩, fun other hother => ?_⟩
    exact (le_min?_iff hmin).mp le_rfl _ (mem_map_of_mem hother)

/-- **One round** keeps the state in order, and completes a task. -/
theorem Ongoing.round (hs : Ongoing h workers s rest) (hacyclic : Acyclic dag.Edge)
    (hworkers : 1 ≤ workers) (hleft : s.completedTasks.length < dag.tasks.keys.length) :
    ∃ s' rest', dag.round s = .ok (some s') ∧ Ongoing h workers s' rest' ∧
      s.completedTasks.length < s'.completedTasks.length := by
  obtain ⟨slots, ready, hassign, hmid, hfull⟩ := hs.assign
  have hbusy : runningOf slots ≠ [] := hmid.busy hacyclic hworkers hleft hfull
  obtain ⟨nextTime, hnext, ⟨first, hfirst, hends⟩, hleast⟩ := nextEvent_spec hbusy
  have hfirstEnds := hmid.running first hfirst
  dsimp only at hfirstEnds
  obtain ⟨delta, rfl⟩ : ∃ delta, nextTime = s.currentTime + delta :=
    ⟨rest first.1, hends.symm.trans hfirstEnds⟩
  -- no task ends before
  have hdelta : ∀ id ∈ (runningOf slots).map Prod.fst, delta ≤ rest id := by
    intro id hid
    obtain ⟨running, hrunning, rfl⟩ := mem_map.mp hid
    have hends := hmid.running running hrunning
    have hlater := hleast running hrunning
    dsimp only at hends
    omega
  obtain ⟨slots', ready', deps', completed', hcomplete, hprogress, hlength, hrunning, hcompleted⟩ :=
    @complete_spec dag h (s.currentTime + delta) slots [] ready s.completedTasks s.remainingDeps
      hmid.progress
  obtain ⟨idle, hpace⟩ := hmid.pace
  have hpass := hpace.pass hmid.progress (edge_graph h ▸ hacyclic) hmid.completed hdelta
    (mt map_eq_nil_iff.mp hbusy) ?_ ?_
  · refine ⟨⟨slots', ready', deps', completed', s.currentTime + delta⟩,
      work rest ((runningOf slots).map Prod.fst) delta, ?_, ⟨hprogress,
      hlength.trans hmid.slots, hpass, fun id hid => ?_, fun running hrun => ?_,
      fun id hid hnot => ?_⟩, ?_⟩
    · unfold TaskDag.round
      rw [hassign, ok_bind]
      dsimp only
      rw [hnext]
      dsimp only
      rw [hcomplete]
      rfl
    · dsimp only at hid
      rw [hcompleted] at hid
      rcases mem_append.mp hid with hold | hnew
      · exact Nat.le_zero.mp ((work_le id).trans (le_of_eq (hmid.completed id hold)))
      · obtain ⟨running, hrun, rfl⟩ := mem_map.mp hnew
        obtain ⟨hmem, hends⟩ := mem_filter.mp hrun
        have hrest := hmid.running running hmem
        rw [decide_eq_true_eq] at hends
        dsimp only at hrest
        rw [work, if_pos (mem_map_of_mem hmem)]
        omega
    · dsimp only at hrun ⊢
      rw [hrunning] at hrun
      have hmem := (mem_filter.mp hrun).1
      have hrest := hmid.running running hmem
      have hlater := hdelta _ (mem_map_of_mem hmem)
      dsimp only at hrest
      rw [work, if_pos (mem_map_of_mem hmem)]
      omega
    · dsimp only at hid hnot
      rw [hcompleted, mem_append, not_or] at hid
      have hidle : id ∉ (runningOf slots).map Prod.fst := by
        intro hmem
        obtain ⟨running, hrun, rfl⟩ := mem_map.mp hmem
        by_cases hends : running.2 = s.currentTime + delta
        · exact hid.2 (mem_map_of_mem (mem_filter.mpr ⟨hrun, decide_eq_true hends⟩))
        · rw [hrunning] at hnot
          exact hnot (mem_map_of_mem (mem_filter.mpr ⟨hrun, decide_eq_true hends⟩))
      rw [work, if_neg hidle]
      exact hmid.waiting id hid.1 hidle
    · have hended : first ∈ (runningOf slots).filter fun r => r.2 = s.currentTime + delta :=
        mem_filter.mpr ⟨hfirst, decide_eq_true hends⟩
      have hpos := length_pos_of_mem (mem_map_of_mem (f := Prod.fst) hended)
      dsimp only
      rw [hcompleted, length_append]
      omega
  · rw [length_map, ← hmid.slots]
    exact length_filterMap_le _ _
  · refine hfull.imp_right fun hnone => ?_
    rw [length_map, ← hmid.slots]
    refine filterMap_length_eq_length.mpr fun slot hslot => ?_
    exact Option.isSome_iff_ne_none.mpr fun hslotNone => hnone (hslotNone ▸ hslot)

theorem length_dag (dag : TaskDag) : dag.tasks.entries.length = dag.tasks.keys.length :=
  (length_map _).symm

/-- **The loop** completes all tasks. -/
theorem Ongoing.rounds (hacyclic : Acyclic dag.Edge) (hworkers : 1 ≤ workers) :
    ∀ {fuel : ℕ} {s : Simulation} {rest : String → ℕ}, Ongoing h workers s rest →
      dag.tasks.keys.length ≤ s.completedTasks.length + fuel →
      ∃ s' rest', dag.rounds fuel s = .ok s' ∧ Ongoing h workers s' rest' ∧
        dag.tasks.keys.length ≤ s'.completedTasks.length
  | 0, s, rest, hs, hfuel => ⟨s, rest, rfl, hs, hfuel⟩
  | fuel + 1, s, rest, hs, hfuel => by
    unfold TaskDag.rounds
    rw [length_dag]
    by_cases hleft : s.completedTasks.length < dag.tasks.keys.length
    · obtain ⟨s', rest', hround, hnext, hmore⟩ := hs.round hacyclic hworkers hleft
      have hfewer : dag.tasks.keys.length ≤ s'.completedTasks.length + fuel := by omega
      obtain ⟨last, restLast, hrounds, hlast⟩ := Ongoing.rounds hacyclic hworkers hnext hfewer
      refine ⟨last, restLast, ?_, hlast⟩
      rw [if_pos hleft, hround]
      exact hrounds
    · exact ⟨s, rest, if_neg hleft, hs, Nat.le_of_not_lt hleft⟩

/-! ### From the start to the end -/

theorem sum_count {us : List String} (hnodup : us.Nodup) {vs : List String} (hsub : vs ⊆ us) :
    (us.map fun u => vs.count u).sum = vs.length := by
  induction vs with
  | nil => simp
  | cons v vs ih =>
    rw [cons_subset] at hsub
    have hstep : (us.map fun u => (v :: vs).count u).sum =
        (us.map fun u => vs.count u).sum + us.count v := by
      clear ih hsub hnodup
      induction us with
      | nil => rfl
      | cons u us ih =>
        rw [map_cons, sum_cons, ih, map_cons, sum_cons, count_cons,
          count_cons]
        simp only [beq_iff_eq, @eq_comm _ u v]
        omega
    rw [hstep, ih hsub.2, count_eq_one_of_mem hnodup hsub.1, length_cons]

theorem Formed.length_preds (h : dag.Formed) (id : String) :
    (dag.preds id).length = edgesFrom dag.succs dag.tasks.keys id := by
  rw [← sum_count dag.tasks.nodup_keys fun pred hpred =>
    mem_keys.mpr (h.pred_known (h.mem_preds.mp hpred))]
  unfold edgesFrom
  congr 1
  exact map_congr_left fun pred _ => (h.mirrored pred id).symm

theorem Formed.ongoing_start (h : dag.Formed) (shuffle : Shuffle) (workers : ℕ) :
    Ongoing h (max workers 1) (dag.simulationStart shuffle workers) dag.weight := by
  have hidle : runningOf (dag.simulationStart shuffle workers).workerAssignment = [] :=
    filterMap_eq_nil_iff.mpr fun slot hslot => eq_of_mem_replicate hslot
  have hdeps {id : String} (hid : id ∈ dag.tasks.keys) :
      (dag.reverseAdjacency.get? id).map List.length =
        some (edgesFrom dag.succs dag.tasks.keys id) := by
    obtain ⟨preds, hpreds⟩ := Option.isSome_iff_exists.mp ((h.reversed id).mpr (mem_keys.mp hid))
    rw [← h.length_preds, TaskDag.preds, hpreds]
    rfl
  refine ⟨?_, length_replicate, ⟨0, Pace.start _ _ _⟩, forall_mem_nil _, ?_,
    fun _ _ _ => rfl⟩
  · rw [hidle, map_nil, nil_append]
    unfold simulationStart
    refine Progress.start ?_ (fun id hid => hdeps hid) fun id => ?_
    · rw [(shuffle.perm _).nodup_iff]
      exact dag.reverseAdjacency.nodup_keys.sublist (filter_sublist.map _)
    · rw [(shuffle.perm _).mem_iff, mem_map]
      constructor
      · rintro ⟨⟨id, preds⟩, hentry, rfl⟩
        obtain ⟨hmem, hzero⟩ := mem_filter.mp hentry
        have hget := get?_eq_some.mpr hmem
        have hid : id ∈ dag.tasks.keys :=
          mem_keys.mpr ((h.reversed id).mp (hget ▸ rfl))
        refine ⟨hid, ?_⟩
        have hcount := hdeps hid
        rw [hget, Option.map_some, Option.some.injEq] at hcount
        exact hcount.symm.trans (of_decide_eq_true hzero)
      · rintro ⟨hid, hzero⟩
        obtain ⟨preds, hget⟩ := Option.isSome_iff_exists.mp ((h.reversed id).mpr (mem_keys.mp hid))
        have hcount := hdeps hid
        rw [hget, Option.map_some, Option.some.injEq] at hcount
        refine ⟨(id, preds), mem_filter.mpr ⟨get?_eq_some.mp hget, ?_⟩, rfl⟩
        exact decide_eq_true (hcount.trans hzero)
  · rw [hidle]
    exact forall_mem_nil _

theorem formed_run (calls : List Call) : (machine.run new calls).Formed :=
  machine.run_invariant (P := Formed) (fun _ call hdag => hdag.exec call) calls formed_new

/-- A path along the dependencies. -/
def IsTaskPath (dag : TaskDag) (path : List String) : Prop :=
  (∀ id ∈ path, id ∈ dag.tasks.keys) ∧ path.IsChain dag.Edge

/-- **Greedy scheduling.** -/
theorem greedy_bound (calls : List Call) (workers : ℕ) (measured sorted queued : Shuffle) :
    let dag := machine.run new calls
    Acyclic dag.Edge → 1 ≤ workers →
    ∃ span last, dag.criticalPathSpan measured = .ok span ∧
      IsGreatest {n | ∃ path, dag.IsTaskPath path ∧ (path.map dag.weight).sum = n} span ∧
      dag.simulate sorted queued workers = .ok last ∧
      dag.simulateWorkStealing sorted queued workers = .ok last.currentTime ∧
      last.completedTasks.Perm dag.tasks.keys ∧ runningOf last.workerAssignment = [] ∧
      span ≤ last.currentTime ∧ dag.totalWork ≤ workers * last.currentTime ∧
      workers * last.currentTime ≤ dag.totalWork + (workers - 1) * span := by
  intro dag hacyclic hworkers
  have h : dag.Formed := formed_run calls
  obtain ⟨span, hspan, hgreatest⟩ := h.criticalPathSpan_spec hacyclic measured
  obtain ⟨-, order, hsort, -⟩ :=
    (h.topologicalSort_spec sorted).resolve_right fun hcycle => hcycle.1 hacyclic
  have hstart := h.ongoing_start queued workers
  rw [max_eq_left hworkers] at hstart
  obtain ⟨last, rest, hrounds, hlast, hall⟩ := @Ongoing.rounds _ h _ hacyclic hworkers
    dag.tasks.keys.length _ _ hstart (Nat.le_add_left _ _)
  have hsimulate : dag.simulate sorted queued workers = .ok last := by
    unfold simulate
    rw [hsort, length_dag]
    exact hrounds
  obtain ⟨hdone, hqueue, hdisjoint⟩ := nodup_append.mp hlast.progress.nodup
  have hsub : last.completedTasks ⊆ dag.tasks.keys := fun id hid =>
    hlast.progress.sub id (mem_append_left _ hid)
  have hperm : last.completedTasks.Perm dag.tasks.keys :=
    (hdone.subperm hsub).perm_of_length_le hall
  obtain ⟨idle, hpace⟩ := hlast.pace
  obtain ⟨hbehind, hleast, heavy, hheavy, hmost⟩ := hpace.finish fun id hid =>
    hlast.completed id (hperm.mem_iff.mpr hid)
  have hpaths (path : List String) : IsPath (dag.graph h) path ↔ dag.IsTaskPath path := by
    rw [IsTaskPath, ← edge_graph h]
    exact ⟨fun hpath => ⟨hpath.vertices, hpath.edges⟩, fun hpath => ⟨hpath.1, hpath.2⟩⟩
  have hweights : weights (dag.graph h) dag.weight =
      {n | ∃ path, dag.IsTaskPath path ∧ (path.map dag.weight).sum = n} := by
    ext n
    exact exists_congr fun path => and_congr_left fun _ => hpaths path
  rw [totalWork_eq]
  refine ⟨span, last, hspan, hweights ▸ hgreatest, hsimulate, ?_, hperm, ?_, ?_, hleast, ?_⟩
  · rw [simulateWorkStealing, hsimulate]
    rfl
  · rw [eq_nil_iff_forall_not_mem]
    intro running hrunning
    have hqueued := mem_append_left last.readyQueue
      (mem_map_of_mem (f := Prod.fst) hrunning)
    have hid := hlast.progress.sub _ (mem_append_right _ hqueued)
    exact hdisjoint _ (hperm.mem_iff.mpr hid) _ hqueued rfl
  · obtain ⟨path, hpath, rfl⟩ := hgreatest.1
    exact hbehind path hpath
  · refine hmost.trans (Nat.add_le_add_left (Nat.mul_le_mul_left _ ?_) _)
    exact hgreatest.2 ⟨heavy, hheavy, rfl⟩

/-- Two tasks wait for the first; one of the dependencies is there twice. -/
def sampleCalls : List Call :=
  [.addTask "plan" 2, .addTask "build" 3, .addTask "review" 1,
    .addDependency inOrder "plan" "build", .addDependency inOrder "plan" "build",
    .addDependency inOrder "plan" "review"]

theorem greedy_bound_sample : ∃ span last,
    (machine.run new sampleCalls).criticalPathSpan inOrder = .ok span ∧
    (machine.run new sampleCalls).simulate inOrder inOrder 2 = .ok last ∧
    2 * last.currentTime ≤ (machine.run new sampleCalls).totalWork + (2 - 1) * span := by
  have hsorts : (machine.run new sampleCalls).topologicalSort inOrder =
      .ok ["plan", "build", "review"] := by decide +kernel
  have hacyclic : Acyclic (machine.run new sampleCalls).Edge := by
    rcases (formed_run sampleCalls).topologicalSort_spec inOrder with ⟨hacyclic, -⟩ | ⟨-, hcycle⟩
    · exact hacyclic
    · rw [hsorts] at hcycle
      cases hcycle
  obtain ⟨span, last, hspan, -, hsimulate, -, -, -, -, -, hbound⟩ :=
    greedy_bound sampleCalls 2 inOrder inOrder inOrder hacyclic (by decide)
  exact ⟨span, last, hspan, hsimulate, hbound⟩

end TaskDag

end Pandora.Swarm.Tasks
