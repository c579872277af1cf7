import Pandora.Lib.Checked
import Pandora.Lib.Runs
import Pandora.Lib.Tables
import Pandora.Text

/-! # The Kanban engine

`kanban_engine.rs`. Every method opens connections of its own and runs its SQL statements one by
one, without a transaction, so that the calls of several workers interleave between any two of them.
A worker is therefore in a `Phase`: what the call it is in has read so far. `call` starts a call and
runs its first statement, `next` runs the next one.

The status is kept as the value its text stands for. -/

namespace Pandora.Kanban.Engine

open Text Lib.Checked Lib.Runs Lib.Tables

inductive KanbanStatus
  | backlog | todo | inProgress | blocked | review | done
deriving DecidableEq

/-- The name of the variant, as `{:?}` writes it. -/
def KanbanStatus.debug : KanbanStatus → String
  | .backlog => "Backlog"
  | .todo => "Todo"
  | .inProgress => "InProgress"
  | .blocked => "Blocked"
  | .review => "Review"
  | .done => "Done"

structure KanbanTask where
  (id boardId title description : String)
  status : KanbanStatus
  priority : UInt8
  assignee : Option String
  dependencies : List String
  (retryCount maxRetries : ℕ)
  lastHeartbeatEpochSecs : Option ℕ
  (createdAt updatedAt : ℕ)
  labels : List String
deriving DecidableEq

def KanbanTask.isZombie (task : KanbanTask) (nowEpochSecs timeoutSecs : ℕ) : Bool :=
  if task.status ≠ .inProgress then false
  else match task.lastHeartbeatEpochSecs with
    | some last => timeoutSecs ≤ nowEpochSecs - last
    | none => timeoutSecs ≤ nowEpochSecs - task.updatedAt

/-- The errors; of one of the database, what was attempted. -/
inductive KanbanError
  | database (context : String)
  | taskNotFound (id : String)
  | invalidDependency (message : String)
  | validation (message : String)

structure KanbanReclaimReport where
  (reclaimedTaskIds blockedExhaustedIds : List String)
deriving DecidableEq

abbrev Tasks := Table KanbanTask.id

/-! ## Statements -/

/-- The unsigned values of a row fit their signed columns. -/
def KanbanTask.fits (task : KanbanTask) : Bool :=
  task.retryCount < 2 ^ 63 && task.maxRetries < 2 ^ 63 && task.createdAt < 2 ^ 63 &&
    task.updatedAt < 2 ^ 63 && task.lastHeartbeatEpochSecs.all (· < 2 ^ 63)

def createTask (tasks : Tasks) (task : KanbanTask) : Except KanbanError Tasks := do
  ensure (¬ (trim task.id).isEmpty) (.validation "task id cannot be empty")
  ensure (¬ (trim task.title).isEmpty) (.validation "task title cannot be empty")
  ensure (task.fits = true) (.database "failed to insert task")
  orError (tasks.insert? task) (.database "failed to insert task")

def deleteTask (tasks : Tasks) (taskId : String) : Tasks := tasks.delete (·.id = taskId)

/-- `list_tasks` of a board, those with the given status. -/
def listTasks (tasks : Tasks) (boardId : String) (status : KanbanStatus) : List KanbanTask :=
  (tasks.rows.filter fun task => task.boardId = boardId && task.status = status).insertionSort
    fun a b => a.priority < b.priority ∨ (a.priority = b.priority ∧ a.createdAt ≤ b.createdAt)

/-- `UPDATE … SET status, assignee, last_heartbeat_epoch_secs, updated_at`. -/
def writeStatus (tasks : Tasks) (task : KanbanTask) : Tasks :=
  tasks.update (·.id = task.id) (fun row => { row with
    status := task.status
    assignee := task.assignee
    lastHeartbeatEpochSecs := task.lastHeartbeatEpochSecs
    updatedAt := task.updatedAt }) fun _ _ => rfl

/-- `UPDATE … SET last_heartbeat_epoch_secs, updated_at, assignee`. -/
def writeHeartbeat (tasks : Tasks) (task : KanbanTask) : Tasks :=
  tasks.update (·.id = task.id) (fun row => { row with
    lastHeartbeatEpochSecs := task.lastHeartbeatEpochSecs
    updatedAt := task.updatedAt
    assignee := task.assignee }) fun _ _ => rfl

/-- `UPDATE … SET status, retry_count, last_heartbeat_epoch_secs = NULL, updated_at,
labels_json`. -/
def writeReclaim (tasks : Tasks) (task : KanbanTask) : Tasks :=
  tasks.update (·.id = task.id) (fun row => { row with
    status := task.status
    retryCount := task.retryCount
    lastHeartbeatEpochSecs := none
    updatedAt := task.updatedAt
    labels := task.labels }) fun _ _ => rfl

/-! ## Calls -/

/-- The task as `update_status` writes it. -/
def KanbanTask.withStatus (task : KanbanTask) (newStatus : KanbanStatus) (worker : Option String)
    (now : ℕ) : KanbanTask :=
  { task with
    status := newStatus
    updatedAt := now
    assignee := worker.or task.assignee
    lastHeartbeatEpochSecs :=
      if newStatus = .inProgress then some now else task.lastHeartbeatEpochSecs }

/-- The task as `heartbeat` writes it. -/
def KanbanTask.withHeartbeat (task : KanbanTask) (worker : String) (now : ℕ) : KanbanTask :=
  { task with lastHeartbeatEpochSecs := some now, updatedAt := now, assignee := some worker }

/-- The retries of the task are used up. -/
def KanbanTask.exhausted (task : KanbanTask) : Bool := task.maxRetries ≤ task.retryCount + 1

/-- The task as `reclaim_zombies` writes it. -/
def KanbanTask.reclaimed (task : KanbanTask) (now : ℕ) : KanbanTask :=
  { task with
    retryCount := task.retryCount + 1
    updatedAt := now
    lastHeartbeatEpochSecs := none
    status := if task.exhausted then .blocked else .todo
    labels := if task.exhausted && !task.labels.contains "zombie_exhausted" then
        task.labels ++ ["zombie_exhausted"]
      else task.labels }

def KanbanReclaimReport.add (report : KanbanReclaimReport) (task : KanbanTask) :
    KanbanReclaimReport :=
  if task.exhausted then
    { report with blockedExhaustedIds := report.blockedExhaustedIds ++ [task.id] }
  else { report with reclaimedTaskIds := report.reclaimedTaskIds ++ [task.id] }

inductive Call
  | updateStatus (taskId : String) (newStatus : KanbanStatus) (worker : Option String)
  | heartbeat (taskId : String) (worker : String)
  | reclaimZombies (boardId : String) (timeoutSecs : ℕ)

/-- What a worker is about to do: nothing, read the next dependency or write the status of the task
it has read, write a heartbeat, or reclaim the zombies among the tasks it has read. -/
inductive Phase
  | idle
  | updating (task : KanbanTask) (newStatus : KanbanStatus) (worker : Option String)
    (dependencies : List String)
  | beating (task : KanbanTask) (worker : String)
  | reclaiming (now timeoutSecs : ℕ) (zombies : List KanbanTask) (report : KanbanReclaimReport)
deriving DecidableEq

/-- The answer of a call: none yet, a task, a report, whether a task was deleted, or an error. -/
inductive Answer
  | pending
  | task (task : KanbanTask)
  | report (report : KanbanReclaimReport)
  | deleted (existed : Bool)
  | error (e : KanbanError)

/-- The first statement of a call, with the clock as it is read after it. -/
def begin (tasks : Tasks) (now : ℕ) : Call → Phase × Answer
  | .updateStatus taskId newStatus worker =>
    match tasks.get? taskId with
    | none => (.idle, .error (.taskNotFound taskId))
    | some task =>
      -- the dependencies are checked when the task is started
      let dependencies := if newStatus = .inProgress then task.dependencies else []
      (.updating task newStatus worker dependencies, .pending)
  | .heartbeat taskId worker =>
    match tasks.get? taskId with
    | none => (.idle, .error (.taskNotFound taskId))
    | some task =>
      if task.status ≠ .inProgress then
        (.idle, .error (.validation ("cannot heartbeat task '" ++ taskId ++ "' with status '" ++
          task.status.debug ++ "' (must be in_progress)")))
      else (.beating task worker, .pending)
  | .reclaimZombies boardId timeoutSecs =>
    let zombies := (listTasks tasks boardId .inProgress).filter (·.isZombie now timeoutSecs)
    (.reclaiming now timeoutSecs zombies ⟨[], []⟩, .pending)

/-- The next statement of a call. A call whose last statement was run is answered. -/
def proceed (tasks : Tasks) (now : ℕ) : Phase → Tasks × Phase × Answer
  | .idle => (tasks, .idle, .pending)
  | .updating task newStatus worker (dep :: deps) =>
    match tasks.get? dep with
    | none => (tasks, .idle, .error (.invalidDependency
        ("dependency task '" ++ dep ++ "' does not exist")))
    | some d =>
      if d.status = .done then (tasks, .updating task newStatus worker deps, .pending)
      else (tasks, .idle, .error (.invalidDependency
        ("dependency task '" ++ dep ++ "' is not completed yet")))
  | .updating task newStatus worker [] =>
    let updated := task.withStatus newStatus worker now
    if updated.fits then (writeStatus tasks updated, .idle, .task updated)
    else (tasks, .idle, .error (.database "update failed"))
  | .beating task worker =>
    let beaten := task.withHeartbeat worker now
    if beaten.fits then (writeHeartbeat tasks beaten, .idle, .task beaten)
    else (tasks, .idle, .error (.database "heartbeat update failed"))
  | .reclaiming readAt timeoutSecs (task :: zombies) report =>
    let reclaimed := task.reclaimed readAt
    if reclaimed.fits then
      (writeReclaim tasks reclaimed, .reclaiming readAt timeoutSecs zombies (report.add task),
        .pending)
    else (tasks, .idle, .error (.database "reclaim update failed"))
  | .reclaiming _ _ [] report => (tasks, .idle, .report report)

/-! ## Workers -/

/-- The tasks, and how far each call got. -/
structure Board where
  tasks : Tasks
  phase : ℕ → Phase

def Board.empty : Board := ⟨.empty, fun _ => .idle⟩

inductive Event
  | createTask (task : KanbanTask)
  | deleteTask (taskId : String)
  | call (worker : ℕ) (now : ℕ) (call : Call)
  | next (worker : ℕ) (now : ℕ)

def Board.step (board : Board) : Event → Board × Answer
  | .createTask task =>
    match createTask board.tasks task with
    | .ok tasks => ({ board with tasks := tasks }, .task task)
    | .error e => (board, .error e)
  | .deleteTask taskId => ({ board with tasks := deleteTask board.tasks taskId },
      .deleted (board.tasks.get? taskId).isSome)
  | .call worker now call =>
    match board.phase worker with
    | .idle =>
      let begun := begin board.tasks now call
      ({ board with phase := Function.update board.phase worker begun.1 }, begun.2)
    | _ => (board, .pending)
  | .next worker now =>
    let proceeded := proceed board.tasks now (board.phase worker)
    (⟨proceeded.1, Function.update board.phase worker proceeded.2.1⟩, proceeded.2.2)

def machine : Machine Board Event Answer := ⟨Board.step⟩

end Pandora.Kanban.Engine
