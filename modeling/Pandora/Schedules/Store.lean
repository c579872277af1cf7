import Pandora.Lib.Runs
import Pandora.Lib.Tables
import Pandora.Memory.Records

/-! # Schedules and their runs

The stores of `memory_schedule.rs` and `evaluation_schedule.rs`. They differ in what a schedule is
about and in what a run copies from it (`ScheduleKind`), and in that an evaluation schedule with a
proposal is used once. `claim_due_for` is one transaction: it takes back leases that have ended,
makes the runs that are due, moves the schedules on and claims pending runs. -/

namespace Pandora.Schedules

open Context.Fragments (ContextClassification)
open Ids Lib.Checked Lib.Runs Lib.Tables Text
open Memory.Records (MemoryKind)

abbrev RunLoopId := Id .runLoop

def maxMemorySynthesisSchedules : ℕ := 128
def maxClaimBatch : ℕ := 16
def maxScheduleNameBytes : ℕ := 128
def maxProviderBytes : ℕ := 256
def maxMemorySynthesisSummaryBytes : ℕ := 8 * 1024
def maxEvaluationSuiteBytes : ℕ := 256
def scheduleLeaseSeconds : ℕ := 300

/-- The errors of both stores. -/
inductive ScheduleError
  | invalidName
  | invalidProvider
  | invalidKind
  | invalidSummary
  | invalidClassification
  | invalidSuite
  | invalidInterval
  | invalidLimit
  | invalidWorker
  | corruptRecord
  | scheduleAlreadyExists
  | scheduleNotFound
deriving DecidableEq

structure Scope where
  principalId : PrincipalId
  tenantId : TenantId
  workspaceId : WorkspaceId
deriving DecidableEq

/-- What a schedule is about, and what its runs have of that. -/
structure ScheduleKind where
  (Subject RunSubject : Type)
  /-- What a run copies. -/
  runSubject : Subject → RunSubject
  /-- The schedule is disabled by its first run. -/
  oneShot : Subject → Bool

variable (kind : ScheduleKind)

/-- A row. Its numbers are those of the columns, which are not negative. -/
structure Schedule where
  id : RunLoopId
  scope : Scope
  subject : kind.Subject
  (intervalSeconds nextRunAt : ℕ)
  enabled : Bool
  createdAt : ℕ
  lastClaimedAt : Option ℕ
  runCount : ℕ

inductive RunStatus
  | pending
  | claimed (workerId : JobWorkerId) (claimedAt leaseUntil : ℕ)
  | finished (success : Bool)
deriving DecidableEq

structure ScheduleRun where
  scope : Scope
  scheduleId : RunLoopId
  scheduledFor : ℕ
  subject : kind.RunSubject
  status : RunStatus

variable {kind}

def Schedule.key (schedule : Schedule kind) : Scope × RunLoopId := (schedule.scope, schedule.id)

def ScheduleRun.key (run : ScheduleRun kind) : Scope × RunLoopId × ℕ :=
  (run.scope, run.scheduleId, run.scheduledFor)

/-- The tables of schedules and runs. -/
structure Store (kind : ScheduleKind) where
  schedules : Table (@Schedule.key kind)
  runs : Table (@ScheduleRun.key kind)

namespace Store

def empty : Store kind := ⟨.empty, .empty⟩

variable (store : Store kind)

/-- The row of a new schedule is inserted, if its interval and its time fit their columns. -/
def insertSchedule (id : RunLoopId) (scope : Scope) (subject : kind.Subject)
    (intervalSeconds now : ℕ) : Except ScheduleError (Store kind) := do
  let schedules ← orError (store.schedules.insert?
    { id := id
      scope := scope
      subject := subject
      intervalSeconds := intervalSeconds
      nextRunAt := now
      enabled := true
      createdAt := now
      lastClaimedAt := none
      runCount := 0 }) .scheduleAlreadyExists
  pure { store with schedules := schedules }

/-- The schedule makes no more runs. -/
def disable (id : RunLoopId) (scope : Scope) : Except ScheduleError (Store kind) := do
  ensure ((store.schedules.get? (scope, id)).isSome) .scheduleNotFound
  pure { store with
    schedules := store.schedules.update (fun row => row.key = (scope, id))
      (fun row => { row with enabled := false }) fun _ _ => rfl }

/-! ### Claims -/

/-- The lease of the run has ended. -/
def leaseEnded (scope : Scope) (now : ℕ) (run : ScheduleRun kind) : Bool :=
  decide (run.scope = scope) &&
    match run.status with
    | .claimed _ _ leaseUntil => leaseUntil ≤ now
    | _ => false

def takeBack (scope : Scope) (now : ℕ) : Store kind :=
  { store with
    runs := store.runs.update (leaseEnded scope now) (fun run => { run with status := .pending })
      fun _ _ => rfl }

def isDue (scope : Scope) (now : ℕ) (schedule : Schedule kind) : Bool :=
  decide (schedule.scope = scope) && schedule.enabled && decide (schedule.nextRunAt ≤ now)

/-- `?5 IS NULL OR id = ?5`. -/
def selects (scheduleId : Option RunLoopId) (id : RunLoopId) : Bool :=
  match scheduleId with
  | none => true
  | some wanted => id = wanted

/-- The order of the schedules, and with the time of a run that of the runs. -/
def timeBefore (left right : ℕ × RunLoopId) : Prop :=
  left.1 < right.1 ∨ left.1 = right.1 ∧ left.2 ≤ right.2

instance : DecidableRel timeBefore := fun _ _ => instDecidableOr

def dueSchedules (scope : Scope) (scheduleId : Option RunLoopId) (now : ℕ) :
    List (Schedule kind) :=
  ((store.schedules.rows.filter fun row => isDue scope now row && selects scheduleId row.id)
    |>.insertionSort fun a b => timeBefore (a.nextRunAt, a.id) (b.nextRunAt, b.id))
    |>.take maxClaimBatch

/-- `INSERT OR IGNORE`. -/
def insertRun (run : ScheduleRun kind) : Store kind :=
  { store with runs := (store.runs.insert? run).getD store.runs }

/-- The schedule after a run has been made. -/
def moveOn (now next : ℕ) (schedule row : Schedule kind) : Schedule kind :=
  if kind.oneShot schedule.subject then
    { row with enabled := false, lastClaimedAt := some now, runCount := row.runCount + 1 }
  else
    { row with nextRunAt := next, lastClaimedAt := some now, runCount := row.runCount + 1 }

theorem key_moveOn (now next : ℕ) (schedule row : Schedule kind) :
    (moveOn now next schedule row).key = row.key := by
  unfold moveOn
  split_ifs <;> rfl

def isRow (schedule row : Schedule kind) : Bool :=
  decide (row.key = schedule.key) && decide (row.nextRunAt = schedule.nextRunAt)

/-- A run is made of a schedule that is due. -/
def materialise (now : ℕ) (store : Store kind) (schedule : Schedule kind) :
    Except ScheduleError (Store kind) := do
  ensure (0 < schedule.intervalSeconds) .corruptRecord
  let next ← orError (fitsI64 (schedule.nextRunAt + schedule.intervalSeconds)) .corruptRecord
  let store := store.insertRun
    { scope := schedule.scope
      scheduleId := schedule.id
      scheduledFor := schedule.nextRunAt
      subject := kind.runSubject schedule.subject
      status := .pending }
  pure { store with
    schedules := store.schedules.update (isRow schedule) (moveOn now next schedule)
      fun row _ => key_moveOn now next schedule row }

def isPending (scope : Scope) (run : ScheduleRun kind) : Bool :=
  decide (run.scope = scope) && decide (run.status = .pending)

def pendingRuns (scope : Scope) (scheduleId : Option RunLoopId) (limit : ℕ) :
    List (ScheduleRun kind) :=
  ((store.runs.rows.filter fun run => isPending scope run && selects scheduleId run.scheduleId)
    |>.insertionSort fun a b =>
      timeBefore (a.scheduledFor, a.scheduleId) (b.scheduledFor, b.scheduleId))
    |>.take limit

/-- The run with its new status is put down, and handed out. -/
def claimRun (workerId : JobWorkerId) (now leaseUntil : ℕ)
    (state : Store kind × List (ScheduleRun kind)) (run : ScheduleRun kind) :
    Except ScheduleError (Store kind × List (ScheduleRun kind)) := do
  let leaseUntil ← orError (fitsI64 leaseUntil) .corruptRecord
  let status := RunStatus.claimed workerId now leaseUntil
  pure ({ state.1 with
    runs := state.1.runs.update
      (fun row => decide (row.key = run.key) && decide (row.status = .pending))
      (fun row => { row with status := status }) fun _ _ => rfl },
    state.2 ++ [{ run with status := status }])

def claimDueFor (scope : Scope) (scheduleId : Option RunLoopId) (workerId : JobWorkerId)
    (now limit : ℕ) : Except ScheduleError (Store kind × List (ScheduleRun kind)) := do
  ensure (limit ≠ 0 ∧ limit ≤ maxClaimBatch) .invalidLimit
  ensure (¬ (trim workerId.text).isEmpty) .invalidWorker
  let now ← orError (fitsI64 now) .corruptRecord
  let leaseUntil := min (now + scheduleLeaseSeconds) (2 ^ 64 - 1)
  let store := store.takeBack scope now
  let store ← (store.dueSchedules scope scheduleId now).foldlM (materialise now) store
  (store.pendingRuns scope scheduleId limit).foldlM (claimRun workerId now leaseUntil) (store, [])

def claimDue (scope : Scope) (workerId : JobWorkerId) (now limit : ℕ) :
    Except ScheduleError (Store kind × List (ScheduleRun kind)) :=
  store.claimDueFor scope none workerId now limit

end Store

/-! ## Schedules of memory synthesis -/

structure SynthesisSubject where
  sessionId : SessionId
  (name provider : String)
  memoryId : MemoryId
  kind : MemoryKind
  summary : String
  classification : ContextClassification

def synthesis : ScheduleKind where
  Subject := SynthesisSubject
  RunSubject := Unit
  runSubject _ := ()
  oneShot _ := false

def validateText (value : String) (maxBytes : ℕ) (error : ScheduleError) :
    Except ScheduleError String :=
  let value := trim value
  if value.isEmpty ∨ maxBytes < value.utf8ByteSize ∨ value.toList.any isControl then .error error
  else .ok value

/-- The kinds of memory that may be synthesised. -/
def synthesisKinds : List MemoryKind :=
  [.executionEvidence, .decision, .failure, .benchmark, .lesson, .lineage]

/-- `create` of the store of `memory_schedule.rs`. -/
def createSynthesis (store : Store synthesis) (id : RunLoopId) (scope : Scope)
    (subject : SynthesisSubject) (intervalSeconds now : ℕ) :
    Except ScheduleError (Store synthesis) := do
  let name ← validateText subject.name maxScheduleNameBytes .invalidName
  let provider ← validateText subject.provider maxProviderBytes .invalidProvider
  let summary ← validateText subject.summary maxMemorySynthesisSummaryBytes .invalidSummary
  ensure (subject.kind ∈ synthesisKinds) .invalidKind
  ensure (subject.classification = .«public» ∨ subject.classification = .internal)
    .invalidClassification
  ensure (intervalSeconds ≠ 0 ∧ intervalSeconds < 2 ^ 63) .invalidInterval
  let now ← orError (fitsI64 now) .corruptRecord
  ensure (store.schedules.rows.countP (fun row => row.scope = scope) <
    maxMemorySynthesisSchedules) .invalidLimit
  store.insertSchedule id scope
    { subject with name := name, provider := provider, summary := summary } intervalSeconds now

/-! ## Schedules of evaluations -/

structure EvaluationSubject where
  (name suiteId : String)
  proposalId : Option ProposalId

def evaluation : ScheduleKind where
  Subject := EvaluationSubject
  RunSubject := String × Option ProposalId
  runSubject subject := (subject.suiteId, subject.proposalId)
  oneShot subject := subject.proposalId.isSome

/-- `create_inner` of the store of `evaluation_schedule.rs`: `create` without a proposal,
`create_canary` with one. -/
def createEvaluation (store : Store evaluation) (id : RunLoopId) (scope : Scope)
    (subject : EvaluationSubject) (intervalSeconds now : ℕ) :
    Except ScheduleError (Store evaluation) := do
  let name ← validateText subject.name maxScheduleNameBytes .invalidName
  let suiteId ← validateText subject.suiteId maxEvaluationSuiteBytes .invalidSuite
  ensure (intervalSeconds ≠ 0 ∧ intervalSeconds < 2 ^ 63) .invalidInterval
  let now ← orError (fitsI64 now) .corruptRecord
  store.insertSchedule id scope { subject with name := name, suiteId := suiteId }
    intervalSeconds now

/-! ## Calls -/

/-- The creation of a schedule, in one of the stores. -/
abbrev Creator (kind : ScheduleKind) := Store kind → RunLoopId → Scope → kind.Subject → ℕ → ℕ →
  Except ScheduleError (Store kind)

inductive Call (kind : ScheduleKind)
  | create (id : RunLoopId) (scope : Scope) (subject : kind.Subject) (intervalSeconds now : ℕ)
  | disable (id : RunLoopId) (scope : Scope)
  | claimDue (scope : Scope) (workerId : JobWorkerId) (now limit : ℕ)

/-- A call that fails leaves the store as it was. -/
def machine (create : Creator kind) :
    Machine (Store kind) (Call kind) (Except ScheduleError (List (ScheduleRun kind))) where
  step store
    | .create id scope subject intervalSeconds now =>
      commit store
        ((create store id scope subject intervalSeconds now).map fun store => (store, []))
    | .disable id scope => commit store ((store.disable id scope).map fun store => (store, []))
    | .claimDue scope workerId now limit => commit store (store.claimDue scope workerId now limit)

end Pandora.Schedules
