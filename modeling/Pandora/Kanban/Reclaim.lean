import Pandora.Kanban.Engine

/-! # What a reclaim overwrites

`reclaim_zombies` decides on what it has read and writes by the identifier of the task alone, so a
write of another worker that comes between the two is lost. Where no such write takes a task out
of being a zombie, every status that a reclaim changes is that of a zombie
(`reclaims_zombies_only`). -/

namespace Pandora.Kanban.Reclaim

open Lib.Checked Lib.Tables Kanban.Engine List Function

variable {board : Board} {event : Event} {tasks : Tasks} {row task : KanbanTask}

/-! ### What a step writes -/

/-- The task that the next statement of a worker writes. -/
def Phase.target : Phase → Option String
  | .updating task _ _ [] => some task.id
  | .beating task _ => some task.id
  | .reclaiming _ _ (task :: _) _ => some task.id
  | _ => none

/-- The task that an event writes. -/
def target (board : Board) : Event → Option String
  | .createTask task => some task.id
  | .deleteTask taskId => some taskId
  | .call .. => none
  | .next worker _ => Phase.target (board.phase worker)

theorem target_next (board : Board) (worker now : ℕ) :
    target board (.next worker now) = Phase.target (board.phase worker) := rfl

/-- The worker whose statement an event runs. -/
def actor : Event → Option ℕ
  | .call worker .. => some worker
  | .next worker _ => some worker
  | _ => none

def Frame (tasks tasks' : Tasks) (target : Option String) : Prop :=
  ∀ row : KanbanTask, target ≠ some row.id → (row ∈ tasks' ↔ row ∈ tasks)

theorem frame_refl (tasks : Tasks) (target : Option String) : Frame tasks tasks target :=
  fun _ _ => Iff.rfl

theorem frame_update {f : KanbanTask → KanbanTask} {taskId : String}
    (hf : ∀ row, decide (row.id = taskId) = true → (f row).id = row.id) :
    Frame tasks (tasks.update (·.id = taskId) f hf) (some taskId) := by
  intro row hne
  rw [Table.mem_update]
  constructor
  · rintro ⟨old, hold, hrow⟩
    by_cases hid : old.id = taskId
    · rw [if_pos (decide_eq_true hid)] at hrow
      have hkept := hf old (decide_eq_true hid)
      rw [← hrow] at hkept
      exact absurd (congrArg some (hkept.trans hid).symm) hne
    · rw [if_neg (by rwa [decide_eq_true_eq])] at hrow
      rwa [hrow]
  · intro hmem
    have hid : row.id ≠ taskId := fun hid => hne (congrArg some hid.symm)
    exact ⟨row, hmem, by rw [if_neg (by rwa [decide_eq_true_eq])]⟩

theorem frame_proceed (tasks : Tasks) (now : ℕ) (phase : Phase) :
    Frame tasks (proceed tasks now phase).1 (Phase.target phase) := by
  unfold proceed
  split
  case h_3 | h_4 | h_5 =>
    dsimp only
    split_ifs
    · refine frame_update ?_
      exact fun _ _ => rfl
    · exact frame_refl _ _
  · exact frame_refl _ _
  · split
    · exact frame_refl _ _
    · split_ifs
      all_goals exact frame_refl _ _
  · exact frame_refl _ _

theorem createTask_eq_ok {created : Tasks} (h : createTask tasks task = .ok created) :
    tasks.insert? task = some created := by
  unfold createTask at h
  obtain ⟨⟨⟩, -, h₁⟩ := bind_eq_ok.mp h
  obtain ⟨⟨⟩, -, h₂⟩ := bind_eq_ok.mp h₁
  obtain ⟨⟨⟩, -, h₃⟩ := bind_eq_ok.mp h₂
  rwa [orError_eq_ok] at h₃

theorem step_createTask (board : Board) (task : KanbanTask) :
    (board.step (.createTask task)).1 = board ∨ ∃ created, board.tasks.insert? task = some created ∧
        (board.step (.createTask task)).1 = { board with tasks := created } := by
  rcases hcreated : createTask board.tasks task with e | created
  · exact Or.inl (by simp only [Board.step, hcreated])
  · exact Or.inr ⟨created, createTask_eq_ok hcreated, by simp only [Board.step, hcreated]⟩

/-- A call starts only if the worker is idle, and writes nothing. -/
theorem step_call (board : Board) (worker now : ℕ) (call : Call) :
    (board.step (.call worker now call)).1 = board ∨
      (board.step (.call worker now call)).1 = { board with
        phase := Function.update board.phase worker (begin board.tasks now call).1 } := by
  rcases hphase : board.phase worker
  · exact Or.inr (by simp only [Board.step, hphase])
  · exact Or.inl (by simp only [Board.step, hphase])
  · exact Or.inl (by simp only [Board.step, hphase])
  · exact Or.inl (by simp only [Board.step, hphase])

theorem frame_step (board : Board) (event : Event) :
    Frame board.tasks (board.step event).1.tasks (target board event) := by
  cases event with
  | createTask task =>
    rcases step_createTask board task with hsame | ⟨created, hinserted, hstep⟩
    · rw [hsame]
      exact frame_refl _ _
    · rw [hstep]
      intro row hne
      change row ∈ created ↔ row ∈ board.tasks
      rw [Table.mem_insert? hinserted]
      constructor
      · rintro (hrow | rfl)
        · exact hrow
        · exact absurd rfl hne
      · exact Or.inl
  | deleteTask taskId =>
    intro row hne
    have hid : row.id ≠ taskId := fun hid => hne (congrArg some hid.symm)
    change row ∈ board.tasks.delete _ ↔ row ∈ board.tasks
    rw [Table.mem_delete, decide_eq_false_iff_not]
    exact and_iff_left hid
  | call worker now call =>
    rcases step_call board worker now call with hsame | hstep
    · rw [hsame]
      exact frame_refl _ _
    · rw [hstep]
      exact frame_refl _ _
  | next worker now => exact frame_proceed board.tasks now (board.phase worker)

/-! ### Zombies that a reclaim is about to write -/

/-- The row is a zombie still, or has the status that the reclaim is going to write. -/
def Settled (now timeoutSecs : ℕ) (task row : KanbanTask) : Prop :=
  row.isZombie now timeoutSecs = true ∨ row.status = (task.reclaimed now).status

/-- What the workers that reclaim have read is true of the rows still. -/
def Current (board : Board) : Prop :=
  ∀ worker now timeoutSecs zombies report,
    board.phase worker = .reclaiming now timeoutSecs zombies report →
    (zombies.map KanbanTask.id).Nodup ∧
      ∀ task ∈ zombies, ∀ row ∈ board.tasks, row.id = task.id → Settled now timeoutSecs task row

/-- A write that comes between the read and the write of a reclaim leaves the task a zombie for the
reclaim, or with the status that the reclaim is going to write. -/
def Undisturbed (board : Board) (event : Event) : Prop :=
  ∀ taskId, target board event = some taskId → ∀ worker, actor event ≠ some worker →
    ∀ now timeoutSecs zombies report,
      board.phase worker = .reclaiming now timeoutSecs zombies report →
      ∀ task ∈ zombies, task.id = taskId → ∀ row ∈ (board.step event).1.tasks, row.id = taskId →
        Settled now timeoutSecs task row

/-- A reclaim changes the status of a task only if the row is a zombie when it is written. -/
def ReclaimsZombiesOnly (board : Board) : Event → Prop
  | .next worker clock => ∀ now timeoutSecs zombies report,
    board.phase worker = .reclaiming now timeoutSecs zombies report →
    ∀ row ∈ board.tasks, ∀ row' ∈ (board.step (.next worker clock)).1.tasks, row'.id = row.id →
      row'.status ≠ row.status → row.isZombie now timeoutSecs = true
  | _ => True

theorem nodup_zombies (tasks : Tasks) (boardId : String) (now timeoutSecs : ℕ) :
    (((listTasks tasks boardId .inProgress).filter (·.isZombie now timeoutSecs)).map
      KanbanTask.id).Nodup := by
  have hrows : ((tasks.rows.filter fun task => task.boardId = boardId &&
      task.status = .inProgress).map KanbanTask.id).Nodup :=
    tasks.nodup.sublist (List.filter_sublist.map _)
  have hlisted : ((listTasks tasks boardId .inProgress).map KanbanTask.id).Nodup :=
    ((perm_insertionSort _ _).map _).nodup_iff.mpr hrows
  exact hlisted.sublist (List.filter_sublist.map _)

theorem mem_listTasks {boardId : String} {status : KanbanStatus}
    (h : task ∈ listTasks tasks boardId status) : task ∈ tasks := by
  unfold listTasks at h
  rw [mem_insertionSort, mem_filter] at h
  exact h.1

/-- A call that starts to reclaim has read its zombies as they are. -/
theorem begin_reclaiming {call : Call} {clock now timeoutSecs : ℕ} {zombies : List KanbanTask}
    {report : KanbanReclaimReport}
    (h : (begin tasks clock call).1 = .reclaiming now timeoutSecs zombies report) :
    (zombies.map KanbanTask.id).Nodup ∧
      ∀ task ∈ zombies, task ∈ tasks ∧ task.isZombie now timeoutSecs = true := by
  cases call with
  | updateStatus taskId newStatus worker =>
    rcases hread : tasks.get? taskId with _ | read <;> simp only [begin, hread] at h <;> cases h
  | heartbeat taskId worker =>
    rcases hread : tasks.get? taskId with _ | read
    · simp only [begin, hread] at h
      cases h
    · simp only [begin, hread] at h
      split_ifs at h
  | reclaimZombies boardId timeout =>
    simp only [begin, Phase.reclaiming.injEq] at h
    obtain ⟨rfl, rfl, rfl, -⟩ := h
    refine ⟨nodup_zombies _ _ _ _, fun task htask => ?_⟩
    obtain ⟨hlisted, hzombie⟩ := List.mem_filter.mp htask
    exact ⟨mem_listTasks hlisted, hzombie⟩

/-- A worker that goes on reclaiming has one zombie less to write. -/
theorem proceed_reclaiming {phase : Phase} {clock now timeoutSecs : ℕ}
    {zombies : List KanbanTask} {report : KanbanReclaimReport}
    (h : (proceed tasks clock phase).2.1 = .reclaiming now timeoutSecs zombies report) :
    ∃ task report', phase = .reclaiming now timeoutSecs (task :: zombies) report' := by
  unfold proceed at h
  split at h
  · cases h
  · split at h
    · cases h
    · split_ifs at h
  · dsimp only at h
    split_ifs at h
  · dsimp only at h
    split_ifs at h
  · dsimp only at h
    split_ifs at h
    rw [Phase.reclaiming.injEq] at h
    obtain ⟨rfl, rfl, rfl, -⟩ := h
    exact ⟨_, _, rfl⟩
  · cases h

theorem phase_step {worker : ℕ} (h : actor event ≠ some worker) :
    (board.step event).1.phase worker = board.phase worker := by
  cases event with
  | createTask task =>
    rcases step_createTask board task with hsame | ⟨created, -, hstep⟩
    · rw [hsame]
    · rw [hstep]
  | deleteTask taskId => rfl
  | call other now call =>
    have hne : worker ≠ other := fun heq => h (congrArg some heq.symm)
    rcases step_call board other now call with hsame | hstep
    · rw [hsame]
    · rw [hstep]
      exact update_of_ne hne _ _
  | next other now =>
    have hne : worker ≠ other := fun heq => h (congrArg some heq.symm)
    exact update_of_ne hne _ _

/-- The step lemma. Of a worker that does not act, only the row that is written can have changed;
the worker that acts has read its zombies in this step, or writes another of them. -/
theorem current_step (hcurrent : Current board) (hundisturbed : Undisturbed board event) :
    Current (board.step event).1 := by
  intro worker now timeoutSecs zombies report hphase
  by_cases hactor : actor event = some worker
  · cases event with
    | createTask | deleteTask => cases hactor
    | call other clock call =>
      cases hactor
      rcases step_call board worker clock call with hsame | hstep
      · rw [hsame] at hphase ⊢
        exact hcurrent worker now timeoutSecs zombies report hphase
      · rw [hstep] at hphase ⊢
        dsimp only at hphase
        rw [update_self] at hphase
        obtain ⟨hnodup, hread⟩ := begin_reclaiming hphase
        refine ⟨hnodup, fun task htask row hrow hid => ?_⟩
        obtain ⟨hmem, hzombie⟩ := hread task htask
        rw [Table.eq_of_key hrow hmem hid]
        exact Or.inl hzombie
    | next other clock =>
      cases hactor
      have hproceeded : (proceed board.tasks clock (board.phase worker)).2.1 =
          .reclaiming now timeoutSecs zombies report := by
        rw [← hphase]
        exact (update_self worker _ board.phase).symm
      obtain ⟨first, report', hbefore⟩ := proceed_reclaiming hproceeded
      obtain ⟨hnodup, hsettled⟩ := hcurrent worker now timeoutSecs _ report' hbefore
      rw [map_cons, nodup_cons] at hnodup
      refine ⟨hnodup.2, fun task htask row hrow hid => ?_⟩
      have hother : target board (.next worker clock) ≠ some row.id := by
        rw [target_next, hbefore]
        intro hfirst
        have hsame : first.id = task.id := (Option.some.inj hfirst).trans hid
        exact hnodup.1 (hsame ▸ mem_map_of_mem htask)
      have hkept := (frame_step board (.next worker clock) row hother).mp hrow
      exact hsettled task (mem_cons_of_mem _ htask) row hkept hid
  · rw [phase_step hactor] at hphase
    obtain ⟨hnodup, hsettled⟩ := hcurrent worker now timeoutSecs zombies report hphase
    refine ⟨hnodup, fun task htask row hrow hid => ?_⟩
    by_cases htarget : target board event = some row.id
    · exact hundisturbed row.id htarget worker hactor now timeoutSecs zombies report hphase task
        htask hid.symm row hrow rfl
    · have hkept := (frame_step board event row htarget).mp hrow
      exact hsettled task htask row hkept hid

/-- The row that a reclaim writes has the status of the reclaimed task afterwards. -/
theorem status_writeReclaim {written : KanbanTask} (hrow : row ∈ writeReclaim tasks written)
    (hid : row.id = written.id) : row.status = written.status := by
  unfold writeReclaim at hrow
  rw [Table.mem_update] at hrow
  obtain ⟨old, -, hold⟩ := hrow
  by_cases hold' : old.id = written.id
  · rw [if_pos (decide_eq_true hold')] at hold
    rw [hold]
  · rw [if_neg (by rwa [decide_eq_true_eq])] at hold
    exact absurd (hold ▸ hid) hold'

theorem reclaimsZombiesOnly_of_current (hcurrent : Current board) :
    ReclaimsZombiesOnly board event := by
  cases event with
  | createTask | deleteTask | call => trivial
  | next worker clock =>
    intro now timeoutSecs zombies report hphase row hrow row' hrow' hid hchanged
    obtain ⟨-, hsettled⟩ := hcurrent worker now timeoutSecs zombies report hphase
    by_cases htarget : target board (.next worker clock) = some row.id
    · cases zombies with
      | nil =>
        rw [target_next, hphase] at htarget
        cases htarget
      | cons task zombies =>
        have htask : task.id = row.id := by
          rw [target_next, hphase] at htarget
          exact Option.some.inj htarget
        rcases hsettled task mem_cons_self row hrow htask.symm with hzombie | hstatus
        · exact hzombie
        · -- the status that is written is the one the row has
          have hafter : (board.step (.next worker clock)).1.tasks =
              (proceed board.tasks clock (.reclaiming now timeoutSecs (task :: zombies)
                report)).1 := by
            rw [← hphase]
            rfl
          rw [hafter] at hrow'
          unfold proceed at hrow'
          dsimp only at hrow'
          split_ifs at hrow'
          · have hwritten := status_writeReclaim hrow' (hid.trans htask.symm)
            exact absurd (hwritten.trans hstatus.symm) hchanged
          · exact absurd (congrArg KanbanTask.status (Table.eq_of_key hrow' hrow hid)) hchanged
    · have hkept := (frame_step board (.next worker clock) row' (by rwa [hid])).mp hrow'
      exact absurd (congrArg KanbanTask.status (Table.eq_of_key hkept hrow hid)) hchanged

theorem current_empty : Current .empty := by
  intro worker now timeoutSecs zombies report hphase
  cases hphase

/-- **Only zombies are reclaimed**: in a run in which no write between the read and the write of a
reclaim takes a task out of being a zombie for it, every reclaim changes tasks only that are in
progress, with a heartbeat older than the timeout. -/
theorem reclaims_zombies_only {events : List Event} (h : machine.Along Undisturbed .empty events) :
    machine.Along ReclaimsZombiesOnly .empty events := by
  have hstep : ∀ board event, Undisturbed board event → Current board →
      Current (machine.step board event).1 :=
    fun _ _ hundisturbed hcurrent => current_step hcurrent hundisturbed
  have hzombies : ∀ board event, Undisturbed board event → Current board →
      ReclaimsZombiesOnly board event :=
    fun _ _ _ hcurrent => reclaimsZombiesOnly_of_current hcurrent
  exact machine.along_of_invariant hstep hzombies events h current_empty

/-! ### A task that is done while it is reclaimed -/

def sampleTask : KanbanTask where
  id := "task-1"
  boardId := "dev"
  title := "Implement patch"
  description := ""
  status := .inProgress
  priority := 1
  assignee := some "worker-alpha"
  dependencies := []
  retryCount := 0
  maxRetries := 3
  lastHeartbeatEpochSecs := some 1000
  createdAt := 900
  updatedAt := 1000
  labels := []

theorem reclaimed_alone : machine.Along ReclaimsZombiesOnly .empty
    [.createTask sampleTask, .call 1 1300 (.reclaimZombies "dev" 300), .next 1 1300] := by
  refine reclaims_zombies_only ⟨?_, ?_, ?_, trivial⟩
  · intro _ _ worker _ _ _ _ _ hphase
    cases hphase
  · intro _ htarget
    cases htarget
  · intro _ _ worker hactor _ _ _ _ hphase
    -- the other workers are idle
    have hcalled : actor (.call 1 1300 (.reclaimZombies "dev" 300)) ≠ some worker := hactor
    have hidle := (phase_step hcalled).symm.trans hphase
    cases hidle

/-- The reclaim reads the task, the worker writes that it is done, and the reclaim moves it back. -/
theorem done_reclaimed :
    (machine.run .empty [.createTask sampleTask, .call 1 1300 (.reclaimZombies "dev" 300),
      .call 0 1300 (.updateStatus "task-1" .done none), .next 0 1300]).tasks.rows.map
        KanbanTask.status = [.done] ∧
    (machine.run .empty [.createTask sampleTask, .call 1 1300 (.reclaimZombies "dev" 300),
      .call 0 1300 (.updateStatus "task-1" .done none), .next 0 1300, .next 1 1300]).tasks.rows.map
        KanbanTask.status = [.todo] ∧
    ¬ machine.Along ReclaimsZombiesOnly .empty [.createTask sampleTask,
      .call 1 1300 (.reclaimZombies "dev" 300), .call 0 1300 (.updateStatus "task-1" .done none),
      .next 0 1300, .next 1 1300] := by
  refine ⟨by decide +kernel, by decide +kernel, ?_⟩
  rintro ⟨-, -, -, -, hlast, -⟩
  have hzombie := hlast 1300 300 [sampleTask] ⟨[], []⟩ (by decide +kernel)
    { sampleTask with status := .done, updatedAt := 1300 } (Table.mem_rows.mp (by decide +kernel))
    (sampleTask.reclaimed 1300) (Table.mem_rows.mp (by decide +kernel)) rfl (by decide)
  exact absurd hzombie (by decide)

end Pandora.Kanban.Reclaim
