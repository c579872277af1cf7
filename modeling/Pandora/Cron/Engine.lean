import Pandora.Cron.Schedule
import Pandora.Lib.Runs

/-! # The job database

The database is the list of jobs the storage file holds. A call loads it, works on the copy and
writes the copy back at its end, so a call that ends with an error, a panic or not at all leaves the
jobs as they were.

`run_due` reads the schedule of every due job again at the current time and gives up at the first
one it cannot continue. The text of a stored schedule is always readable (`Readable`), so what can
fail is only the search for the next time (`HasNext`). -/

namespace Pandora.Cron

open Text Lib.Checked Lib.MachineInts Lib.Runs CronSchedule List

inductive CronJobStatus
  | active | paused | completed
deriving DecidableEq

structure CronJob where
  (id name scheduleExpr command : String)
  workdir : Option String
  deliver : String
  nextRunAt : ℤ
  lastRunAt : Option ℤ
  status : CronJobStatus
  runsCount : ℕ
  enabled : Bool
deriving DecidableEq

structure CronExecutionResult where
  (jobId name command : String)
  executedAt : ℤ
  success : Bool
  output : String
deriving DecidableEq

/-- `hash_artifact`. -/
def hashArtifact (sha : Sha256) (artifact : List UInt8) : String :=
  "sha256:" ++ hex (sha artifact).bytes

/-- `str::eq_ignore_ascii_case`. -/
def eqIgnoreAsciiCase (a b : String) : Bool := toAsciiLowercase a = toAsciiLowercase b

/-- The job is the one meant by `idOrName`. -/
def CronJob.named (idOrName : String) (job : CronJob) : Bool :=
  job.id = idOrName ∨ eqIgnoreAsciiCase job.name idOrName

/-- The first job meant by `idOrName`, replaced by what `f` makes of it. -/
def modifyNamed (idOrName : String) (f : CronJob → Outcome CronJob) :
    List CronJob → Outcome (List CronJob × CronJob)
  | [] => .error (.error (.jobNotFound idOrName))
  | job :: jobs =>
    if job.named idOrName then do
      let updated ← f job
      pure (updated :: jobs, updated)
    else do
      let (jobs, updated) ← modifyNamed idOrName f jobs
      pure (job :: jobs, updated)

section

variable (env : CronEnv)

def jobId (name scheduleExpr command : String) (now : ℤ) : String :=
  let artifact := name ++ ":" ++ scheduleExpr ++ ":" ++ command ++ ":" ++ toString now
  "cron-" ++ .ofList ((hashArtifact env.sha256 (asBytes artifact)).toList.take 12)

def addJob (name scheduleExpr command : String) (workdir deliver : Option String) (now : ℤ)
    (jobs : List CronJob) : Outcome (List CronJob × CronJob) := do
  let name := trim name
  lift (ensure (¬ name.isEmpty) (.invalidSchedule "job name cannot be empty"))
  lift (ensure (∀ job ∈ jobs, ¬ eqIgnoreAsciiCase job.name name) (.duplicateJobName name))
  let (_, nextRunAt, _) ← parse env scheduleExpr now
  let job : CronJob :=
    { id := jobId env name scheduleExpr command now, name, scheduleExpr, command, workdir,
      deliver := deliver.getD "local", nextRunAt, lastRunAt := none, status := .active,
      runsCount := 0, enabled := true }
  pure (jobs ++ [job], job)

def removeJob (idOrName : String) (jobs : List CronJob) : List CronJob :=
  jobs.filter fun job => ¬ job.named idOrName

def pauseJob (idOrName : String) (jobs : List CronJob) : Outcome (List CronJob × CronJob) :=
  modifyNamed idOrName (fun job => pure { job with status := .paused, enabled := false }) jobs

def resumeJob (idOrName : String) (now : ℤ) (jobs : List CronJob) :
    Outcome (List CronJob × CronJob) :=
  modifyNamed idOrName (fun job => do
    let (_, nextRun, _) ← parse env job.scheduleExpr now
    pure { job with status := .active, enabled := true, nextRunAt := nextRun }) jobs

def updateJob (idOrName : String) (newSchedule newCommand : Option String) (now : ℤ)
    (jobs : List CronJob) : Outcome (List CronJob × CronJob) :=
  modifyNamed idOrName (fun job => do
    let job := { job with command := newCommand.getD job.command }
    match newSchedule with
    | some sched =>
      let (_, nextRun, _) ← parse env sched now
      pure { job with scheduleExpr := sched, nextRunAt := nextRun }
    | none => pure job) jobs

/-- One execution of a job: what `run_job` and `run_due` do with it. -/
def execute (now : ℤ) (job : CronJob) : Outcome CronJob := do
  let (sched, _, isOneShot) ← parse env job.scheduleExpr now
  let job := { job with lastRunAt := some now, runsCount := min (job.runsCount + 1) (2 ^ 64 - 1) }
  if isOneShot then pure { job with status := .completed, enabled := false }
  else match sched.computeNextRun env now with
    | .ok (some next) => pure { job with nextRunAt := next }
    | .ok none => pure job
    | .error (.error _) => pure job
    | .error fault => .error fault

def executionResult (now : ℤ) (job : CronJob) : CronExecutionResult :=
  { jobId := job.id, name := job.name, command := job.command, executedAt := now, success := true,
    output := "Executed scheduled command: " ++ job.command }

def runJob (idOrName : String) (now : ℤ) (jobs : List CronJob) :
    Outcome (List CronJob × CronJob × CronExecutionResult) := do
  let (jobs, updated) ← modifyNamed idOrName (execute env now) jobs
  pure (jobs, updated, executionResult now updated)

def CronJob.due (now : ℤ) (job : CronJob) : Bool :=
  job.status = .active ∧ job.enabled ∧ job.nextRunAt ≤ now

/-- The loop of `run_due`: the jobs after it, and what was executed. -/
def runDue (now : ℤ) : List CronJob →
    Outcome (List CronJob × List (CronJob × CronExecutionResult))
  | [] => .ok ([], [])
  | job :: jobs =>
    if job.due now then do
      let ran ← execute env now job
      let (jobs, executed) ← runDue now jobs
      pure (ran :: jobs, (ran, executionResult now ran) :: executed)
    else do
      let (jobs, executed) ← runDue now jobs
      pure (job :: jobs, executed)

/-! ### Sequences of calls -/

inductive CronCall
  | addJob (name scheduleExpr command : String) (workdir deliver : Option String) (now : ℤ)
  | removeJob (idOrName : String)
  | pauseJob (idOrName : String)
  | resumeJob (idOrName : String) (now : ℤ)
  | updateJob (idOrName : String) (newSchedule newCommand : Option String) (now : ℤ)
  | runJob (idOrName : String) (now : ℤ)
  | runDue (now : ℤ)

/-- The database that a call writes, if it ends without a fault. -/
def exec (jobs : List CronJob) : CronCall → Outcome (List CronJob)
  | .addJob name scheduleExpr command workdir deliver now =>
    Prod.fst <$> addJob env name scheduleExpr command workdir deliver now jobs
  | .removeJob idOrName => .ok (removeJob idOrName jobs)
  | .pauseJob idOrName => Prod.fst <$> pauseJob idOrName jobs
  | .resumeJob idOrName now => Prod.fst <$> resumeJob env idOrName now jobs
  | .updateJob idOrName newSchedule newCommand now =>
    Prod.fst <$> updateJob env idOrName newSchedule newCommand now jobs
  | .runJob idOrName now => Prod.fst <$> runJob env idOrName now jobs
  | .runDue now => Prod.fst <$> runDue env now jobs

def engine : Machine (List CronJob) CronCall Unit where
  step jobs call :=
    match exec env jobs call with
    | .ok jobs => (jobs, ())
    | .error _ => (jobs, ())

/-- The jobs after a sequence of calls. -/
def jobsAfter (calls : List CronCall) : List CronJob := (engine env).run [] calls

/-! ### Stored schedules are readable -/

variable {env}

variable {now : ℤ}

theorem CronSchedule.parse_eq_ok {expr : String} {next : ℤ} {schedule : CronSchedule}
    {oneShot : Bool} : parse env expr now = .ok (schedule, next, oneShot) ↔
      readSchedule env expr = .ok schedule ∧ schedule.firstRun env now = .ok next ∧
        schedule.isOneShot = oneShot := by
  simp only [parse, bind_eq_ok, lift_eq_ok, pure_eq_ok, Prod.mk.injEq]
  constructor
  · rintro ⟨s, hs, t, ht, rfl, rfl, rfl⟩
    exact ⟨hs, ht, rfl⟩
  · rintro ⟨hs, ht, ho⟩
    exact ⟨schedule, hs, next, ht, rfl, rfl, ho⟩

/-- The text of the schedule can be read. -/
def CronJob.Readable (env : CronEnv) (job : CronJob) : Prop :=
  ∃ schedule, readSchedule env job.scheduleExpr = .ok schedule

/-- What an execution does to a job, apart from its next time. -/
structure Ran (now : ℤ) (job ran : CronJob) : Prop where
  id : ran.id = job.id
  name : ran.name = job.name
  scheduleExpr : ran.scheduleExpr = job.scheduleExpr
  command : ran.command = job.command
  workdir : ran.workdir = job.workdir
  deliver : ran.deliver = job.deliver
  lastRunAt : ran.lastRunAt = some now
  runsCount : ran.runsCount = min (job.runsCount + 1) (2 ^ 64 - 1)

variable {job : CronJob}

/-- A job is executed if its schedule can be read and has a next time. -/
theorem execute_eq_ok : (∃ ran, execute env now job = .ok ran) ↔
    ∃ schedule next, readSchedule env job.scheduleExpr = .ok schedule ∧
      schedule.firstRun env now = .ok next := by
  constructor
  · rintro ⟨ran, h⟩
    simp only [execute, bind_eq_ok] at h
    obtain ⟨⟨schedule, next, oneShot⟩, hparse, -⟩ := h
    obtain ⟨hread, hnext, -⟩ := parse_eq_ok.mp hparse
    exact ⟨schedule, next, hread, hnext⟩
  · rintro ⟨schedule, next, hread, hnext⟩
    have hparse := parse_eq_ok.mpr ⟨hread, hnext, rfl⟩
    rw [execute, hparse, ok_bind]
    cases schedule with
    | delay secs =>
      simp only [isOneShot, if_true]
      exact ⟨_, rfl⟩
    | interval | daily | cronExpr =>
      simp only [computeNextRun, hnext, isOneShot]
      exact ⟨_, rfl⟩

theorem execute_ran {ran : CronJob} (h : execute env now job = .ok ran) :
    Ran now job ran := by
  simp only [execute, bind_eq_ok] at h
  obtain ⟨⟨schedule, next, oneShot⟩, -, h⟩ := h
  split_ifs at h
  · obtain rfl := pure_eq_ok.mp h
    exact ⟨rfl, rfl, rfl, rfl, rfl, rfl, rfl, rfl⟩
  · split at h
    case h_4 => cases h
    all_goals
      obtain rfl := pure_eq_ok.mp h
      exact ⟨rfl, rfl, rfl, rfl, rfl, rfl, rfl, rfl⟩

/-- What no call but a removal changes in a job. -/
structure Keeps (env : CronEnv) (job job' : CronJob) : Prop where
  id : job'.id = job.id
  name : job'.name = job.name
  readable : job.Readable env → job'.Readable env

theorem Keeps.refl (job : CronJob) : Keeps env job job := ⟨rfl, rfl, fun h => h⟩

theorem execute_keeps {ran : CronJob} (h : execute env now job = .ok ran) :
    Keeps env job ran := by
  have hran := execute_ran h
  refine ⟨hran.id, hran.name, fun hjob => ?_⟩
  rw [CronJob.Readable, hran.scheduleExpr]
  exact hjob

/-- A change of one job by a function that keeps what has to be kept. -/
theorem modifyNamed_keeps {idOrName : String} {f : CronJob → Outcome CronJob}
    (hf : ∀ job job', f job = .ok job' → Keeps env job job') :
    ∀ {jobs jobs' : List CronJob} {updated : CronJob},
      modifyNamed idOrName f jobs = .ok (jobs', updated) → List.Forall₂ (Keeps env) jobs jobs'
  | [], _, _, h => by simp [modifyNamed] at h
  | job :: jobs, jobs', updated, h => by
    rw [modifyNamed] at h
    split_ifs at h with hnamed
    · simp only [bind_eq_ok, pure_eq_ok, Prod.mk.injEq] at h
      obtain ⟨job', hjob', rfl, -⟩ := h
      exact .cons (hf job _ hjob') (List.forall₂_same.mpr fun j _ => .refl j)
    · simp only [bind_eq_ok, pure_eq_ok, Prod.mk.injEq] at h
      obtain ⟨⟨rest, u⟩, hrest, rfl, -⟩ := h
      exact .cons (.refl job) (modifyNamed_keeps hf hrest)

theorem runDue_keeps : ∀ {jobs jobs' : List CronJob}
    {executed : List (CronJob × CronExecutionResult)},
    runDue env now jobs = .ok (jobs', executed) → List.Forall₂ (Keeps env) jobs jobs'
  | [], _, _, h => by
    obtain ⟨rfl, -⟩ := Prod.mk.inj (Except.ok.inj h)
    exact .nil
  | job :: jobs, jobs', executed, h => by
    rw [runDue] at h
    split_ifs at h with hdue
    · simp only [bind_eq_ok, pure_eq_ok, Prod.mk.injEq] at h
      obtain ⟨ran, hran, ⟨rest, es⟩, hruns, rfl, -⟩ := h
      exact .cons (execute_keeps hran) (runDue_keeps hruns)
    · simp only [bind_eq_ok, pure_eq_ok, Prod.mk.injEq] at h
      obtain ⟨⟨rest, es⟩, hruns, rfl, -⟩ := h
      exact .cons (.refl job) (runDue_keeps hruns)

theorem readable_of_parse {expr : String} {result : CronSchedule × ℤ × Bool}
    (h : parse env expr now = .ok result) :
    ∃ schedule, readSchedule env expr = .ok schedule :=
  ⟨result.1, (parse_eq_ok.mp h).1⟩

theorem exec_cases {jobs jobs' : List CronJob} {call : CronCall}
    (h : exec env jobs call = .ok jobs') :
    List.Forall₂ (Keeps env) jobs jobs' ∨ jobs'.Sublist jobs ∨
      ∃ name scheduleExpr command workdir deliver now job,
        call = .addJob name scheduleExpr command workdir deliver now ∧ jobs' = jobs ++ [job] ∧
        job.Readable env ∧ job.id = jobId env (trim name) scheduleExpr command now ∧
        job.name = trim name ∧ ∀ other ∈ jobs, ¬ eqIgnoreAsciiCase other.name (trim name) := by
  cases call with
  | addJob name scheduleExpr command workdir deliver now =>
    simp only [exec, map_eq_ok, addJob, bind_eq_ok, pure_eq_ok, lift_eq_ok, ensure_eq_ok] at h
    obtain ⟨_, ⟨⟨⟩, -, ⟨⟩, hfresh, parsed, hparse, rfl⟩, rfl⟩ := h
    exact Or.inr (Or.inr ⟨name, scheduleExpr, command, workdir, deliver, now, _, rfl, rfl,
      readable_of_parse hparse, rfl, rfl, hfresh⟩)
  | removeJob idOrName =>
    obtain rfl := Except.ok.inj h
    exact Or.inr (Or.inl filter_sublist)
  | pauseJob idOrName =>
    simp only [exec, map_eq_ok, pauseJob] at h
    obtain ⟨_, h, rfl⟩ := h
    refine Or.inl (modifyNamed_keeps (fun job job' hf => ?_) h)
    obtain rfl := pure_eq_ok.mp hf
    exact ⟨rfl, rfl, fun hjob => hjob⟩
  | resumeJob idOrName now =>
    simp only [exec, map_eq_ok, resumeJob] at h
    obtain ⟨_, h, rfl⟩ := h
    refine Or.inl (modifyNamed_keeps (fun job job' hf => ?_) h)
    simp only [bind_eq_ok, pure_eq_ok] at hf
    obtain ⟨_, -, rfl⟩ := hf
    exact ⟨rfl, rfl, fun hjob => hjob⟩
  | updateJob idOrName newSchedule newCommand now =>
    simp only [exec, map_eq_ok, updateJob] at h
    obtain ⟨_, h, rfl⟩ := h
    refine Or.inl (modifyNamed_keeps (fun job job' hf => ?_) h)
    cases newSchedule with
    | none =>
      obtain rfl := pure_eq_ok.mp hf
      exact ⟨rfl, rfl, fun hjob => hjob⟩
    | some sched =>
      simp only [bind_eq_ok, pure_eq_ok] at hf
      obtain ⟨_, hparse, rfl⟩ := hf
      exact ⟨rfl, rfl, fun _ => readable_of_parse hparse⟩
  | runJob idOrName now =>
    simp only [exec, map_eq_ok, runJob, bind_eq_ok, pure_eq_ok] at h
    obtain ⟨_, ⟨_, h, rfl⟩, rfl⟩ := h
    exact Or.inl (modifyNamed_keeps (fun job job' hf => execute_keeps hf) h)
  | runDue now =>
    simp only [exec, map_eq_ok] at h
    obtain ⟨_, h, rfl⟩ := h
    exact Or.inl (runDue_keeps h)

theorem readable_exec {jobs jobs' : List CronJob} (hjobs : ∀ job ∈ jobs, job.Readable env)
    {call : CronCall} (h : exec env jobs call = .ok jobs') : ∀ job ∈ jobs', job.Readable env := by
  rcases exec_cases h with hkeeps | hsub | ⟨_, _, _, _, _, _, job, -, rfl, hreadable, -⟩
  · clear h
    induction hkeeps with
    | nil => exact hjobs
    | cons hfirst _ ih =>
      obtain ⟨hjob, hrest⟩ := List.forall_mem_cons.mp hjobs
      exact List.forall_mem_cons.mpr ⟨hfirst.readable hjob, ih hrest⟩
  · exact fun job hjob => hjobs job (hsub.subset hjob)
  · intro other hother
    rcases List.mem_append.mp hother with hother | hother
    · exact hjobs other hother
    · rw [List.mem_singleton.mp hother]
      exact hreadable

theorem readable_jobsAfter (env : CronEnv) (calls : List CronCall) :
    ∀ job ∈ jobsAfter env calls, job.Readable env := by
  refine (engine env).run_invariant (P := fun jobs => ∀ job ∈ jobs, job.Readable env) ?_ calls
    fun _ hjob => absurd hjob not_mem_nil
  intro jobs call hjobs
  simp only [engine]
  split
  · rename_i jobs' h
    exact readable_exec hjobs h
  · exact hjobs

/-! ### A pass over the due jobs -/

/-- The pass ends well: the due jobs are executed, each once and in their order, and the other jobs
are left as they are. -/
def Passes (env : CronEnv) (now : ℤ) (jobs : List CronJob) : Prop :=
  ∃ jobs' executed, runDue env now jobs = .ok (jobs', executed) ∧
    List.Forall₂ (fun job job' => if job.due now then Ran now job job' else job' = job) jobs jobs' ∧
    executed = ((jobs.zip jobs').filter fun pair => pair.1.due now).map fun pair =>
      (pair.2, executionResult now pair.2)

theorem executes_of_runDue : ∀ {jobs : List CronJob}
    {result : List CronJob × List (CronJob × CronExecutionResult)},
    runDue env now jobs = .ok result →
      ∀ job ∈ jobs, job.due now → ∃ ran, execute env now job = .ok ran
  | [], _, _ => fun _ hjob => absurd hjob not_mem_nil
  | job :: jobs, result, h => by
    rw [runDue] at h
    intro j hj hdue
    split_ifs at h with hfirst
    · simp only [bind_eq_ok] at h
      obtain ⟨ran, hran, rest, hrest, -⟩ := h
      rcases List.mem_cons.mp hj with rfl | hj
      · exact ⟨ran, hran⟩
      · exact executes_of_runDue hrest j hj hdue
    · simp only [bind_eq_ok] at h
      obtain ⟨rest, hrest, -⟩ := h
      rcases List.mem_cons.mp hj with rfl | hj
      · exact absurd hdue hfirst
      · exact executes_of_runDue hrest j hj hdue

theorem passes_of_executes : ∀ {jobs : List CronJob},
    (∀ job ∈ jobs, job.due now → ∃ ran, execute env now job = .ok ran) → Passes env now jobs
  | [], _ => ⟨[], [], rfl, .nil, rfl⟩
  | job :: jobs, hall => by
    obtain ⟨jobs', executed, hruns, htreated, hexecuted⟩ :=
      passes_of_executes fun j hj => hall j (mem_cons_of_mem _ hj)
    by_cases hdue : job.due now
    · obtain ⟨ran, hran⟩ := hall job mem_cons_self hdue
      refine ⟨ran :: jobs', (ran, executionResult now ran) :: executed, ?_, ?_, ?_⟩
      · rw [runDue, if_pos hdue, hran, ok_bind, hruns, ok_bind]
        rfl
      · refine .cons ?_ htreated
        rw [if_pos hdue]
        exact execute_ran hran
      · rw [zip_cons_cons, filter_cons, if_pos hdue, map_cons, hexecuted]
    · refine ⟨job :: jobs', executed, ?_, ?_, ?_⟩
      · rw [runDue, if_neg hdue, hruns, ok_bind]
        rfl
      · refine .cons ?_ htreated
        rw [if_neg hdue]
      · rw [zip_cons_cons, filter_cons, if_neg hdue, hexecuted]

/-- The schedule of the job has a next time: a daily or a five-field one must be searched for it,
the others always have one. -/
structure HasNext (env : CronEnv) (now : ℤ) (job : CronJob) : Prop where
  daily : ∀ hour minute, readSchedule env job.scheduleExpr = .ok (.daily hour minute) →
    ∃ next, nextDailyOccurrence env.overflowChecks now hour minute = .ok next
  cronExpr : ∀ matcher, readSchedule env job.scheduleExpr = .ok (.cronExpr matcher) →
    ∃ next, matcher.nextRunAfter env.overflowChecks now = .ok next

theorem execute_iff_hasNext (hjob : job.Readable env) :
    (∃ ran, execute env now job = .ok ran) ↔ HasNext env now job := by
  obtain ⟨schedule, hread⟩ := hjob
  have hexecute : (∃ ran, execute env now job = .ok ran) ↔
      ∃ next, schedule.firstRun env now = .ok next := by
    rw [execute_eq_ok]
    constructor
    · rintro ⟨s, next, hs, hnext⟩
      rw [hread] at hs
      obtain rfl := Except.ok.inj hs
      exact ⟨next, hnext⟩
    · rintro ⟨next, hnext⟩
      exact ⟨schedule, next, hread, hnext⟩
  rw [hexecute]
  constructor
  · rintro ⟨next, hnext⟩
    refine ⟨fun hour minute hs => ⟨next, ?_⟩, fun matcher hs => ⟨next, ?_⟩⟩
    · obtain rfl : schedule = .daily hour minute := Except.ok.inj (hread.symm.trans hs)
      exact hnext
    · obtain rfl : schedule = .cronExpr matcher := Except.ok.inj (hread.symm.trans hs)
      exact hnext
  · intro h
    cases schedule with
    | delay | interval => exact ⟨_, rfl⟩
    | daily hour minute => exact h.daily hour minute hread
    | cronExpr matcher => exact h.cronExpr matcher hread

/-- **When one job blocks the others.** After every sequence of calls, a pass at any time executes
the due jobs and leaves the others as they are, exactly if every due job with a daily or a
five-field schedule still has a next time. -/
theorem runDue_passes_iff (env : CronEnv) (calls : List CronCall) (now : ℤ) :
    Passes env now (jobsAfter env calls) ↔
      ∀ job ∈ jobsAfter env calls, job.due now → HasNext env now job := by
  have hreadable := readable_jobsAfter env calls
  constructor
  · rintro ⟨jobs', executed, hruns, -, -⟩ job hjob hdue
    have hran := executes_of_runDue hruns job hjob hdue
    rwa [execute_iff_hasNext (hreadable job hjob)] at hran
  · intro hall
    refine passes_of_executes fun job hjob hdue => ?_
    rw [execute_iff_hasNext (hreadable job hjob)]
    exact hall job hjob hdue

end

/-- A build with overflow checks; the two hashes are the ones of the jobs below. -/
def sampleEnv : CronEnv where
  overflowChecks := true
  toLowercase := toAsciiLowercase
  sha256 message :=
    if message = asBytes "new-year:0 0 1 1 0:greet:1654041600" then
      ⟨[23, 34, 31, 114, 48, 113, 75, 114, 16, 255, 216, 147, 173, 218, 180, 115, 110, 95, 179, 214,
        113, 43, 16, 156, 133, 9, 58, 218, 158, 102, 81, 191], rfl⟩
    else
      ⟨[41, 241, 27, 69, 79, 80, 180, 197, 44, 115, 77, 154, 72, 82, 47, 218, 171, 116, 28, 55, 200,
        134, 140, 207, 20, 108, 167, 251, 246, 81, 158, 167], rfl⟩

/-- A job for the first of January if it is a Sunday, added in June 2022, and a daily backup, added
at the end of December. -/
def sampleCalls : List CronCall :=
  [.addJob "new-year" "0 0 1 1 0" "greet" none none 1654041600,
    .addJob "backup" "every 1d" "save" none none 1672444800]

/-- On 1 January 2023, a Sunday, both jobs are due, and neither is executed: the next Sunday that is
a first of January is more than 366 days away. -/
theorem runDue_blocked :
    (∀ job ∈ jobsAfter sampleEnv sampleCalls, job.due 1672531200) ∧
    runDue sampleEnv 1672531200 (jobsAfter sampleEnv sampleCalls) =
      .error (.error (.invalidSchedule "no matching cron time found within 366 days")) ∧
    ¬ Passes sampleEnv 1672531200 (jobsAfter sampleEnv sampleCalls) := by
  have hblocked : runDue sampleEnv 1672531200 (jobsAfter sampleEnv sampleCalls) =
      .error (.error (.invalidSchedule "no matching cron time found within 366 days")) := by
    decide +kernel
  refine ⟨by decide +kernel, hblocked, ?_⟩
  rintro ⟨jobs', executed, hruns, -, -⟩
  rw [hblocked] at hruns
  cases hruns

end Pandora.Cron
