import Pandora.Jobs.Steps
import Pandora.Subagents.Store

/-! # Calls on the subagents and the jobs

The calls of the subagent store and of the job store on one database, in any order. A call on a
subagent moves its row alone (`Alone`) or together with its job (`Paired`); `queue` gives it a job;
a call of the job store leaves the subagents. -/

namespace Pandora.Subagents.Steps

open Ids Lib.Checked Lib.Tables Lib.Runs Option
open Jobs.Store (JobRow JobDb JobStoreError Value)
open Subagents.Store Table

/-! ### The database as a machine -/

inductive Call
  | prepare (input : SubagentPreparation)
  | queue (id : SubagentId) (scope : SubagentScope) (receipt : EffectReceipt) (now : ℕ)
  | failPreparing (id : SubagentId) (scope : SubagentScope) (receipt : EffectReceipt)
    (preserveDestination : Bool) (now : ℕ)
  | interruptPreparing (id : SubagentId) (scope : SubagentScope) (preserveDestination : Bool)
    (reason : String) (now : ℕ)
  | claimCleanup (id : SubagentId) (scope : SubagentScope) (now : ℕ)
  | recordCleanup (id : SubagentId) (scope : SubagentScope) (receipt : EffectReceipt)
  | claimNext (scope : SubagentScope) (worker : JobWorkerId) (now : ℕ)
  | requestCancel (id : SubagentId) (scope : SubagentScope) (now : ℕ)
  | finish (id : SubagentId) (worker : JobWorkerId) (status : SubagentStatus) (result : Value)
    (now : ℕ)
  | markInterrupted (id : SubagentId) (scope : SubagentScope) (reason : String) (now : ℕ)
  | job (call : Jobs.Steps.Call)

inductive Reply
  | subagent (record : SubagentRecord)
  | claimed (record : Option SubagentRecord)
  | job (reply : Jobs.Steps.Reply)

inductive CallError
  | subagent (e : SubagentStoreError)
  | job (e : JobStoreError)

/-- Run a transaction and wrap its answer. -/
def transact {α : Type} (db : SubagentDb) (reply : α → Reply)
    (result : Except SubagentStoreError (SubagentDb × α)) : SubagentDb × Except CallError Reply :=
  ((commit db result).1, ((commit db result).2.map reply).mapError .subagent)

section

variable (json : SubagentJson)

/-- A call of the job store, on its table. -/
def execJob (db : SubagentDb) (call : Jobs.Steps.Call) : SubagentDb × Except CallError Reply :=
  ({ db with jobs := (Jobs.Steps.exec json.jobs db.jobs call).1 },
    ((Jobs.Steps.exec json.jobs db.jobs call).2.map .job).mapError .job)

def exec (db : SubagentDb) : Call → SubagentDb × Except CallError Reply
  | .prepare input => transact db .subagent (prepare json db input)
  | .queue id scope receipt now => transact db .subagent (queue json db id scope receipt now)
  | .failPreparing id scope receipt preserveDestination now =>
    transact db .subagent (failPreparing json db id scope receipt preserveDestination now)
  | .interruptPreparing id scope preserveDestination reason now =>
    transact db .subagent (interruptPreparing json db id scope preserveDestination reason now)
  | .claimCleanup id scope now => transact db .subagent (claimCleanup json db id scope now)
  | .recordCleanup id scope receipt =>
    transact db .subagent (recordCleanup json db id scope receipt)
  | .claimNext scope worker now => transact db .claimed (claimNext json db scope worker now)
  | .requestCancel id scope now => transact db .subagent (requestCancel json db id scope now)
  | .finish id worker status result now =>
    transact db .subagent (finish json db id worker status result now)
  | .markInterrupted id scope reason now =>
    transact db .subagent (markInterrupted json db id scope reason now)
  | .job call => execJob json db call

def store : Machine SubagentDb Call (Except CallError Reply) := ⟨exec json⟩

/-- The database after a list of calls. -/
def dbAfter (calls : List Call) : SubagentDb := (store json).run .empty calls

end

/-! ### Reading and writing rows -/

section

variable {json : SubagentJson} {db db' : SubagentDb} {id : SubagentId} {scope : SubagentScope}

/-- What is known of a row that could be read: the record has its columns, and those that a status
asks for are set. -/
structure Read (row : SubagentRow) (record : SubagentRecord) : Prop where
  id : record.id = row.id
  jobId : record.jobId = row.jobId
  scope : record.scope = row.scope
  status : record.status = row.status
  workerId : record.workerId = row.workerId
  cancelRequestedAt : record.cancelRequestedAt = row.cancelRequestedAt
  preparing : row.status = .preparing →
    row.workerId = none ∧ row.startedAt = none ∧ row.finishedAt = none
  running : row.status = .running → row.startedAt ≠ none

variable {record : SubagentRecord}

theorem read_of_decode {row : SubagentRow}
    (h : decodeSubagent json row = .ok record) : Read row record := by
  simp only [decodeSubagent, validateSubagentRecord, bind_eq_ok, ensure_eq_ok, exists_const,
    pure_eq_ok] at h
  obtain ⟨request, -, -, createReceipt, -, removeReceipt, -, result, -, hvalid, -, -, rfl⟩ := h
  refine ⟨rfl, rfl, rfl, rfl, rfl, rfl, fun hstatus => ?_, fun hstatus => ?_⟩
  · simp only [hstatus, lifecycleValid, Bool.and_eq_true, isNone_iff_eq_none] at hvalid
    obtain ⟨⟨⟨⟨⟨-, hworker⟩, -⟩, hstarted⟩, hfinished⟩, -⟩ := hvalid
    exact ⟨hworker, hstarted, hfinished⟩
  · simp only [hstatus, lifecycleValid, Bool.and_eq_true] at hvalid
    obtain ⟨⟨⟨⟨⟨-, -⟩, -⟩, hstarted⟩, -⟩, -⟩ := hvalid
    exact Option.isSome_iff_ne_none.mp hstarted

theorem loadSubagent_eq_some {row : Option SubagentRow}
    (h : loadSubagent json row = .ok (some record)) : ∃ r, row = some r ∧ Read r record := by
  rcases row with _ | r
  · cases h
  · rw [loadSubagent, mapM_some, map_eq_ok] at h
    obtain ⟨record', hdecode, hsome⟩ := h
    obtain rfl := Option.some.inj hsome
    exact ⟨r, rfl, read_of_decode (mapError_eq_ok.mp hdecode)⟩

theorem loadScopedSubagent_eq_some (h : loadScopedSubagent json db id scope = .ok (some record)) :
    ∃ row, db.subagents.get? id = some row ∧ row.scope = scope ∧ Read row record := by
  obtain ⟨row, hfilter, hread⟩ := loadSubagent_eq_some h
  obtain ⟨hget, hscope⟩ := Option.filter_eq_some_iff.mp hfilter
  exact ⟨row, hget, of_decide_eq_true hscope, hread⟩

theorem updateSubagent_eq_ok {subagents subagents' : Table SubagentRow.id} {p : SubagentRow → Bool}
    {f : SubagentRow → SubagentRow} {hf : ∀ row, (f row).id = row.id} {e : SubagentStoreError}
    {row : SubagentRow} (hok : updateSubagent subagents id p f hf e = .ok subagents')
    (hrow : subagents.get? id = some row) :
    p row = true ∧ Table.Writes subagents subagents' id (f row) := by
  have honly : ∀ s : SubagentRow, decide (s.id = id ∧ p s) = true → s.id = id :=
    fun s hs => (of_decide_eq_true hs).1
  simp only [updateSubagent, bind_eq_ok, ensure_eq_ok, exists_const, pure_eq_ok] at hok
  obtain ⟨hcount, rfl⟩ := hok
  have hselected := of_countP_eq_one honly hrow hcount
  exact ⟨(of_decide_eq_true hselected).2, writes_update honly hrow hselected⟩

theorem updateSubagentJob_eq_ok {jobs jobs' : JobDb} {jobId : JobId} {p : JobRow → Bool}
    {f : JobRow → JobRow} {hf : ∀ row, (f row).id = row.id}
    (hok : updateSubagentJob jobs jobId p f hf = .ok jobs') :
    ∃ job, jobs.get? jobId.text = some job ∧ p job = true ∧ job.jobKind = "subagent" ∧
      Table.Writes jobs jobs' jobId.text (f job) := by
  have honly : ∀ s : JobRow, decide (s.id = jobId.text ∧ p s ∧ s.jobKind = "subagent") = true →
      s.id = jobId.text := fun s hs => (of_decide_eq_true hs).1
  simp only [updateSubagentJob, bind_eq_ok, ensure_eq_ok, exists_const, pure_eq_ok] at hok
  obtain ⟨hcount, rfl⟩ := hok
  have hpos : 0 < jobs.rows.countP
      (fun row => row.id = jobId.text ∧ p row ∧ row.jobKind = "subagent") := by
    omega
  obtain ⟨job, hmem, hselected⟩ := List.countP_pos_iff.mp hpos
  obtain ⟨hid, hp, hkind⟩ := of_decide_eq_true hselected
  have hget : jobs.get? jobId.text = some job := get?_eq_some.mpr ⟨hmem, hid⟩
  exact ⟨job, hget, hp, hkind, writes_update honly hget hselected⟩

end

/-! ### The job store and the jobs of subagents -/

section

variable {json : Jobs.Store.JobJson} {jobs jobs' : JobDb}

/-- Jobs that are not runs stay as they are, and none comes up. -/
def KeepsOthers (jobs jobs' : JobDb) : Prop :=
  ∀ key job, job.jobKind ≠ "run" → (jobs'.get? key = some job ↔ jobs.get? key = some job)

theorem updateJob_keepsOthers {id : JobId} {scope : Jobs.Store.JobScope} {p : JobRow → Bool}
    {f : JobRow → JobRow} {hf : ∀ row, (f row).id = row.id}
    (hkind : ∀ row, (f row).jobKind = row.jobKind) :
    KeepsOthers jobs (Jobs.Store.updateJob jobs id scope p f hf) := by
  intro key job hjob
  unfold Jobs.Store.updateJob
  rw [get?_update]
  rcases hget : jobs.get? key with _ | old
  · rfl
  · rw [map_some, Option.some.injEq, Option.some.injEq]
    split_ifs with hselected
    · -- the row selected is a run, before and after
      obtain ⟨-, hscope, -⟩ := of_decide_eq_true hselected
      have hrun : old.jobKind = "run" := (of_decide_eq_true hscope).2.2.2
      constructor
      · rintro rfl
        rw [hkind] at hjob
        exact absurd hrun hjob
      · rintro rfl
        exact absurd hrun hjob
    · rfl

theorem insert_keepsOthers {row : JobRow} (hrun : row.jobKind = "run")
    (hinsert : jobs.insert? row = some jobs') : KeepsOthers jobs jobs' := by
  intro key job hjob
  rw [get?_insert? hinsert]
  split_ifs with hkey
  · subst hkey
    rw [get?_eq_none.mpr (insert?_eq_some hinsert).1]
    constructor
    · rintro ⟨⟩
      exact absurd hrun hjob
    · rintro ⟨⟩
  · rfl

theorem transact_keepsOthers {α : Type} {reply : α → Jobs.Steps.Reply}
    {result : Except JobStoreError (JobDb × α)}
    (h : ∀ jobs' a, result = .ok (jobs', a) → KeepsOthers jobs jobs') :
    KeepsOthers jobs (Jobs.Steps.transact jobs reply result).1 := by
  rcases result with e | ⟨jobs', a⟩
  · exact fun _ _ _ => Iff.rfl
  · exact h jobs' a rfl

theorem claimNext_keepsOthers {scope : Jobs.Store.JobScope} {worker : JobWorkerId} {now : ℕ}
    {record : Option Jobs.Store.JobRecord}
    (hok : Jobs.Store.claimNext json jobs scope worker now = .ok (jobs', record)) :
    KeepsOthers jobs jobs' := by
  unfold Jobs.Store.claimNext at hok
  rcases hnext : Jobs.Store.nextQueued jobs scope with _ | row
  · rw [hnext] at hok
    cases hok
    exact fun _ _ _ => Iff.rfl
  · rw [hnext] at hok
    simp only [Jobs.Store.claimRow, bind_eq_ok, pure_eq_ok, Prod.exists, Prod.mk.injEq] at hok
    obtain ⟨_, _, ⟨_, -, _, -, _, -, _, -, _, -, rfl, -⟩, rfl, -⟩ := hok
    exact updateJob_keepsOthers fun _ => rfl

/-- **A call of the job store leaves the jobs of subagents.** -/
theorem job_keepsOthers (json : Jobs.Store.JobJson) (jobs : JobDb) (call : Jobs.Steps.Call) :
    KeepsOthers jobs (Jobs.Steps.exec json jobs call).1 := by
  cases call with
  | submit id scope request createdAt =>
    refine transact_keepsOthers fun jobs' record hok => ?_
    simp only [Jobs.Store.submit, bind_eq_ok, orError_eq_ok, ensure_eq_ok, exists_const, pure_eq_ok,
      Prod.mk.injEq] at hok
    obtain ⟨requestJson, -, sequence, -, created, -, -, jobs'', hinsert, rfl, -⟩ := hok
    exact insert_keepsOthers rfl hinsert
  | claimNext scope worker now =>
    exact transact_keepsOthers fun jobs' record hok => claimNext_keepsOthers hok
  | finish id scope worker status result now =>
    refine transact_keepsOthers fun jobs' record hok => ?_
    simp only [Jobs.Store.finish, bind_eq_ok, pure_eq_ok, Prod.mk.injEq] at hok
    obtain ⟨_, -, _, -, _, -, _, -, _, -, _, -, _, -, rfl, -⟩ := hok
    exact updateJob_keepsOthers fun _ => rfl
  | markInterrupted id scope reason now =>
    refine transact_keepsOthers fun jobs' record hok => ?_
    simp only [Jobs.Store.markInterrupted, bind_eq_ok, pure_eq_ok, Prod.mk.injEq] at hok
    obtain ⟨_, -, _, -, _, -, _, -, _, -, rfl, -⟩ := hok
    exact updateJob_keepsOthers fun _ => rfl
  | cancel id scope now =>
    refine transact_keepsOthers fun jobs' record hok => ?_
    simp only [Jobs.Store.cancel, bind_eq_ok, pure_eq_ok, Prod.mk.injEq] at hok
    obtain ⟨_, -, _, -, _, -, _, -, rfl, -⟩ := hok
    exact updateJob_keepsOthers fun _ => rfl

end

/-! ### What a call does -/

/-- The subagent stored under its identifier. -/
def Stored (db : SubagentDb) (row : SubagentRow) : Prop := db.subagents.get? row.id = some row

/-- A call that moves a subagent and leaves the jobs. -/
inductive Alone (row : SubagentRow) : Call → SubagentRow → Prop
  | failed {receipt : EffectReceipt} {preserve : Bool} {now : ℕ} {worktree : SubagentWorktreeState}
    {receiptJson resultJson : String} (hstatus : row.status = .preparing)
    (hstarted : row.startedAt = none) :
    Alone row (.failPreparing row.id row.scope receipt preserve now) { row with
      status := .failed, worktreeState := worktree, createReceiptJson := some receiptJson
      finishedAt := some now, resultJson := some resultJson }
  | unprepared {preserve : Bool} {reason : String} {now : ℕ} {worktree : SubagentWorktreeState}
    {resultJson : String} (hstatus : row.status = .preparing) (hstarted : row.startedAt = none) :
    Alone row (.interruptPreparing row.id row.scope preserve reason now) { row with
      status := .interrupted, worktreeState := worktree, finishedAt := some now
      resultJson := some resultJson }
  | cleanupClaimed {now : ℕ} (hterminal : isTerminalStatus row.status = true)
    (hfirst : row.cleanupClaimedAt = none) :
    Alone row (.claimCleanup row.id row.scope now) { row with cleanupClaimedAt := some now }
  | cleanupRecorded {receipt : EffectReceipt} {worktree : SubagentWorktreeState}
    {receiptJson : String} (hterminal : isTerminalStatus row.status = true)
    (hclaimed : row.cleanupClaimedAt ≠ none) (hfirst : row.removeReceiptJson = none) :
    Alone row (.recordCleanup row.id row.scope receipt) { row with
      worktreeState := worktree, removeReceiptJson := some receiptJson }
  | cancelRequested {now : ℕ} (hstatus : row.status = .running) :
    Alone row (.requestCancel row.id row.scope now) { row with cancelRequestedAt := some now }

/-- A call that moves a subagent and its job. -/
inductive Paired (row : SubagentRow) (job : JobRow) : Call → SubagentRow → JobRow → Prop
  | claimed {worker : JobWorkerId} {now : ℕ} (hstatus : row.status = .queued) :
    Paired row job (.claimNext row.scope worker now) { row with
      status := .running, startedAt := some now, workerId := some worker } (job.start worker now)
  | cancelled {now : ℕ} (hstatus : row.status = .queued) :
    Paired row job (.requestCancel row.id row.scope now) { row with
      status := .cancelled, cancelRequestedAt := some now, finishedAt := some now } (job.cancel now)
  | finished {worker : JobWorkerId} {status outcome : SubagentStatus} {result : Value} {now : ℕ}
    {resultJson : String} (hstatus : row.status = .running) (hstarted : row.startedAt ≠ none)
    (houtcome : isOutcome outcome = true)
    (hcancel : row.cancelRequestedAt ≠ none → outcome = .cancelled) :
    Paired row job (.finish row.id worker status result now) { row with
      status := outcome, finishedAt := some now, resultJson := some resultJson } { job with
      status := jobStatusText outcome, finishedAt := some (now : ℤ), resultJson := some resultJson }
  | interrupted {reason : String} {now : ℕ} {resultJson : String} (hstatus : row.status = .running)
    (hstarted : row.startedAt ≠ none) :
    Paired row job (.markInterrupted row.id row.scope reason now) { row with
      status := .interrupted, finishedAt := some now, resultJson := some resultJson } { job with
      status := "interrupted", finishedAt := some (now : ℤ), resultJson := some resultJson }

/-- The two writes of a call that moves a subagent and its job. -/
structure Moved (db db' : SubagentDb) (call : Call) (row row' : SubagentRow) (job job' : JobRow) :
    Prop where
  stored : Stored db row
  owned : db.jobs.get? row.jobId.text = some job
  kind : job.jobKind = "subagent"
  paired : Paired row job call row' job'
  jobs : Table.Writes db.jobs db'.jobs row.jobId.text job'
  subagents : Table.Writes db.subagents db'.subagents row.id row'

/-- One call, seen through the lookups. -/
inductive Step (db : SubagentDb) : Call → SubagentDb → Except CallError Reply → Prop
  | refused {call : Call} (e : CallError) : Step db call db (.error e)
  | idle {scope : SubagentScope} {worker : JobWorkerId} {now : ℕ} :
    Step db (.claimNext scope worker now) db (.ok (.claimed none))
  | prepared {db' : SubagentDb} {input : SubagentPreparation}
    {repositoryPath worktreePath requestJson : String} {createdAt : ℕ} {row : SubagentRow}
    {record : SubagentRecord}
    (hrow : row = preparedRow input repositoryPath worktreePath requestJson createdAt)
    (hfree : db.subagents.get? row.id = none)
    (hunique : ∀ other, Stored db other → other.jobId ≠ row.jobId) (hjobs : db'.jobs = db.jobs)
    (hwrite : Table.Writes db.subagents db'.subagents row.id row) :
    Step db (.prepare input) db' (.ok (.subagent record))
  | queued {db' : SubagentDb} {row : SubagentRow} {sequence : ℤ} {requestJson receiptJson : String}
    {receipt : EffectReceipt} {now : ℕ} {record : SubagentRecord} (hstored : Stored db row)
    (hstatus : row.status = .preparing)
    (hunset : row.workerId = none ∧ row.startedAt = none ∧ row.finishedAt = none)
    (hfree : db.jobs.get? row.jobId.text = none)
    (hlast : ∀ key job, db.jobs.get? key = some job → job.submissionSequence < sequence)
    (hjobs : Table.Writes db.jobs db'.jobs row.jobId.text
      (subagentJobRow row.jobId sequence row.scope requestJson now))
    (hwrite : Table.Writes db.subagents db'.subagents row.id { row with
      status := .queued, worktreeState := .ready, createReceiptJson := some receiptJson }) :
    Step db (.queue row.id row.scope receipt now) db' (.ok (.subagent record))
  | alone {db' : SubagentDb} {call : Call} {row row' : SubagentRow} {record : SubagentRecord}
    (hstored : Stored db row) (hmove : Alone row call row') (hjobs : db'.jobs = db.jobs)
    (hwrite : Table.Writes db.subagents db'.subagents row.id row') :
    Step db call db' (.ok (.subagent record))
  | paired {db' : SubagentDb} {call : Call} {row row' : SubagentRow} {job job' : JobRow}
    {record : SubagentRecord} (hmove : Moved db db' call row row' job job')
    (hrecord : record.status = row'.status) : Step db call db' (.ok (.subagent record))
  | claimed {db' : SubagentDb} {call : Call} {row row' : SubagentRow} {job job' : JobRow}
    {record : SubagentRecord} (hmove : Moved db db' call row row' job job')
    (hrecord : record.id = row.id)
    (hfirst : ∀ other other', Stored db other → other.scope = row.scope →
      queuedJob db other = some other' → job.submissionSequence ≤ other'.submissionSequence) :
    Step db call db' (.ok (.claimed (some record)))
  | job {db' : SubagentDb} {call : Jobs.Steps.Call} {answer : Except CallError Reply}
    (hsubagents : db'.subagents = db.subagents) (hjobs : KeepsOthers db.jobs db'.jobs) :
    Step db (.job call) db' answer

section

variable {json : SubagentJson} {db db' : SubagentDb} {id : SubagentId} {scope : SubagentScope}
  {now : ℕ} {record : SubagentRecord}

theorem stored_of_get {row : SubagentRow} (h : db.subagents.get? id = some row) :
    row.id = id ∧ Stored db row := by
  have hid := (get?_eq_some.mp h).2
  subst hid
  exact ⟨rfl, h⟩

theorem prepare_step {input : SubagentPreparation}
    (hok : prepare json db input = .ok (db', record)) :
    Step db (.prepare input) db' (.ok (.subagent record)) := by
  simp only [prepare, bind_eq_ok, orError_eq_ok, ensure_eq_ok, exists_const, pure_eq_ok,
    Prod.mk.injEq] at hok
  obtain ⟨repositoryPath, -, worktreePath, -, requestJson, -, createdAt, -, hunique, subagents,
    hinsert, rfl, -⟩ := hok
  have hfree := get?_eq_none.mpr (insert?_eq_some hinsert).1
  refine .prepared rfl hfree (fun other hother => ?_) rfl (get?_insert? hinsert)
  exact (hunique other (get?_eq_some.mp hother).1).1

theorem lt_of_nextSubmissionSequence {sequence : ℤ}
    (h : nextSubmissionSequence db = .ok sequence) {key : String} {job : JobRow}
    (hjob : db.jobs.get? key = some job) : job.submissionSequence < sequence := by
  unfold nextSubmissionSequence Jobs.Store.checkedSucc at h
  rw [orError_eq_ok] at h
  split_ifs at h with hfits
  rw [Option.some.injEq] at h
  have hmem : job.submissionSequence ∈ db.jobs.rows.map JobRow.submissionSequence :=
    List.mem_map.mpr ⟨job, (get?_eq_some.mp hjob).1, rfl⟩
  rcases hmax : Jobs.Store.latestSequence db.jobs with _ | latest
  · unfold Jobs.Store.latestSequence at hmax
    rw [List.max?_eq_none_iff] at hmax
    rw [hmax] at hmem
    cases hmem
  · have hle := (List.max?_eq_some_iff.mp hmax).2 _ hmem
    rw [hmax, getD_some] at h
    omega

variable {receipt : EffectReceipt}

theorem queue_step (hok : queue json db id scope receipt now = .ok (db', record)) :
    Step db (.queue id scope receipt now) db' (.ok (.subagent record)) := by
  simp only [queue, toI64, bind_eq_ok, orError_eq_ok, ensure_eq_ok, exists_const, fitsI64_eq_some,
    pure_eq_ok, Prod.mk.injEq] at hok
  obtain ⟨-, receiptJson, -, _, hload, current, rfl, ⟨hstatus, -⟩, jobRequest, -, requestJson, -,
    sequence, hsequence, _, ⟨-, rfl⟩, -, jobs, hinsert, subagents, hupdate, rfl, -⟩ := hok
  obtain ⟨row, hget, rfl, hread⟩ := loadScopedSubagent_eq_some hload
  obtain ⟨rfl, hstored⟩ := stored_of_get hget
  obtain ⟨-, hwrite⟩ := updateSubagent_eq_ok hupdate hget
  rw [hread.status] at hstatus
  rw [hread.jobId, hread.scope] at hinsert
  have hfree := get?_eq_none.mpr (insert?_eq_some hinsert).1
  exact .queued hstored hstatus (hread.preparing hstatus) hfree
    (fun key job hjob => lt_of_nextSubmissionSequence hsequence hjob) (get?_insert? hinsert)
    hwrite

theorem failPreparing_step {preserve : Bool}
    (hok : failPreparing json db id scope receipt preserve now = .ok (db', record)) :
    Step db (.failPreparing id scope receipt preserve now) db' (.ok (.subagent record)) := by
  simp only [failPreparing, toI64, bind_eq_ok, orError_eq_ok, ensure_eq_ok, exists_const,
    fitsI64_eq_some, pure_eq_ok, Prod.mk.injEq] at hok
  obtain ⟨-, receiptJson, -, resultJson, -, _, hload, current, rfl, ⟨hstatus, -⟩, _, ⟨-, rfl⟩,
    subagents, hupdate, rfl, -⟩ := hok
  obtain ⟨row, hget, rfl, hread⟩ := loadScopedSubagent_eq_some hload
  obtain ⟨rfl, hstored⟩ := stored_of_get hget
  obtain ⟨-, hwrite⟩ := updateSubagent_eq_ok hupdate hget
  rw [hread.status] at hstatus
  exact .alone hstored (.failed hstatus (hread.preparing hstatus).2.1) rfl hwrite

theorem interruptPreparing_step {preserve : Bool} {reason : String}
    (hok : interruptPreparing json db id scope preserve reason now = .ok (db', record)) :
    Step db (.interruptPreparing id scope preserve reason now) db' (.ok (.subagent record)) := by
  simp only [interruptPreparing, toI64, bind_eq_ok, orError_eq_ok, ensure_eq_ok, exists_const,
    fitsI64_eq_some, pure_eq_ok, Prod.mk.injEq] at hok
  obtain ⟨resultJson, -, _, hload, current, rfl, ⟨hstatus, -⟩, _, ⟨-, rfl⟩, subagents, hupdate,
    rfl, -⟩ := hok
  obtain ⟨row, hget, rfl, hread⟩ := loadScopedSubagent_eq_some hload
  obtain ⟨rfl, hstored⟩ := stored_of_get hget
  obtain ⟨-, hwrite⟩ := updateSubagent_eq_ok hupdate hget
  rw [hread.status] at hstatus
  exact .alone hstored (.unprepared hstatus (hread.preparing hstatus).2.1) rfl hwrite

theorem isCleanable_eq_true {row : SubagentRow} {claimed : Bool}
    (h : row.isCleanable scope claimed = true) :
    isTerminalStatus row.status = true ∧ row.cleanupClaimedAt.isSome = claimed ∧
      row.removeReceiptJson = none := by
  unfold SubagentRow.isCleanable at h
  obtain ⟨-, hterminal, -, hclaimed, hreceipt⟩ := of_decide_eq_true h
  exact ⟨hterminal, hclaimed, hreceipt⟩

theorem claimCleanup_step (hok : claimCleanup json db id scope now = .ok (db', record)) :
    Step db (.claimCleanup id scope now) db' (.ok (.subagent record)) := by
  simp only [claimCleanup, toI64, bind_eq_ok, orError_eq_ok, ensure_eq_ok, exists_const,
    fitsI64_eq_some, pure_eq_ok, Prod.mk.injEq] at hok
  obtain ⟨_, hload, current, rfl, -, _, ⟨-, rfl⟩, subagents, hupdate, rfl, -⟩ := hok
  obtain ⟨row, hget, rfl, hread⟩ := loadScopedSubagent_eq_some hload
  obtain ⟨rfl, hstored⟩ := stored_of_get hget
  obtain ⟨hcleanable, hwrite⟩ := updateSubagent_eq_ok hupdate hget
  obtain ⟨hterminal, hunclaimed, -⟩ := isCleanable_eq_true hcleanable
  have hfirst : row.cleanupClaimedAt = none := by simpa using hunclaimed
  exact .alone hstored (.cleanupClaimed hterminal hfirst) rfl hwrite

theorem recordCleanup_step (hok : recordCleanup json db id scope receipt = .ok (db', record)) :
    Step db (.recordCleanup id scope receipt) db' (.ok (.subagent record)) := by
  simp only [recordCleanup, bind_eq_ok, orError_eq_ok, ensure_eq_ok, exists_const, pure_eq_ok,
    Prod.mk.injEq] at hok
  obtain ⟨receiptJson, -, _, hload, current, rfl, -, subagents, hupdate, rfl, -⟩ := hok
  obtain ⟨row, hget, rfl, hread⟩ := loadScopedSubagent_eq_some hload
  obtain ⟨rfl, hstored⟩ := stored_of_get hget
  obtain ⟨hcleanable, hwrite⟩ := updateSubagent_eq_ok hupdate hget
  obtain ⟨hterminal, hclaimed, hfirst⟩ := isCleanable_eq_true hcleanable
  have hset : row.cleanupClaimedAt ≠ none := Option.isSome_iff_ne_none.mp hclaimed
  exact .alone hstored (.cleanupRecorded hterminal hset hfirst) rfl hwrite

/-- The subagent selected has a queued job, and no queued subagent of the scope a lower one. -/
theorem nextQueued_eq_some {row : SubagentRow} (h : nextQueued db scope = some row) :
    Stored db row ∧ row.scope = scope ∧ ∃ job, queuedJob db row = some job ∧
      ∀ other other', Stored db other → other.scope = scope → queuedJob db other = some other' →
        job.submissionSequence ≤ other'.submissionSequence := by
  unfold nextQueued at h
  obtain ⟨⟨_, job⟩, hfirst, rfl⟩ := Option.map_eq_some_iff.mp h
  obtain ⟨hmem, hleast⟩ := firstBy_eq_some hfirst
  simp only [List.mem_filterMap, List.mem_filter, decide_eq_true_eq, map_eq_some_iff,
    Prod.mk.injEq] at hmem
  obtain ⟨row, ⟨hrow, hscope⟩, _, hjob, rfl, rfl⟩ := hmem
  refine ⟨get?_eq_some.mpr ⟨hrow, rfl⟩, hscope, _, hjob, fun other other' ho hs hq => ?_⟩
  refine hleast (other, other') ?_
  rw [List.mem_filterMap]
  refine ⟨other, List.mem_filter.mpr ⟨(get?_eq_some.mp ho).1, decide_eq_true hs⟩, ?_⟩
  rw [hq, map_some]

theorem queuedJob_eq_some {row : SubagentRow} {job : JobRow} :
    queuedJob db row = some job ↔ db.jobs.get? row.jobId.text = some job ∧ row.status = .queued ∧
      job.status = "queued" ∧ job.jobKind = "subagent" := by
  unfold queuedJob
  rw [filter_eq_some_iff, decide_eq_true_eq]

theorem claimNext_step {worker : JobWorkerId} {claimed : Option SubagentRecord}
    (hok : claimNext json db scope worker now = .ok (db', claimed)) :
    Step db (.claimNext scope worker now) db' (.ok (.claimed claimed)) := by
  unfold claimNext at hok
  rcases hnext : nextQueued db scope with _ | row
  · rw [hnext] at hok
    cases hok
    exact .idle
  · rw [hnext] at hok
    simp only [toI64, bind_eq_ok, orError_eq_ok, fitsI64_eq_some, pure_eq_ok, Prod.mk.injEq] at hok
    obtain ⟨_, hload, current, rfl, _, ⟨-, rfl⟩, jobs, hjobs, subagents, hupdate, rfl, rfl⟩ := hok
    obtain ⟨hstored, rfl, job, hqueued, hfirst⟩ := nextQueued_eq_some hnext
    obtain ⟨hjob, hstatus, -, hkind⟩ := queuedJob_eq_some.mp hqueued
    obtain ⟨row', hget, -, hread⟩ := loadScopedSubagent_eq_some hload
    obtain rfl := Option.some.inj (hstored.symm.trans hget)
    obtain ⟨job', hjob', -, -, hwriteJob⟩ := updateSubagentJob_eq_ok hjobs
    rw [hread.jobId] at hjob' hwriteJob
    obtain rfl := Option.some.inj (hjob.symm.trans hjob')
    obtain ⟨-, hwrite⟩ := updateSubagent_eq_ok hupdate hget
    exact .claimed ⟨hstored, hjob, hkind, .claimed hstatus, hwriteJob, hwrite⟩ hread.id hfirst

theorem requestCancel_step (hok : requestCancel json db id scope now = .ok (db', record)) :
    Step db (.requestCancel id scope now) db' (.ok (.subagent record)) := by
  simp only [requestCancel, bind_eq_ok, orError_eq_ok] at hok
  obtain ⟨_, hload, current, rfl, hok⟩ := hok
  obtain ⟨row, hget, rfl, hread⟩ := loadScopedSubagent_eq_some hload
  obtain ⟨rfl, hstored⟩ := stored_of_get hget
  rw [hread.status] at hok
  split at hok
  · rename_i hstatus
    simp only [cancelQueued, toI64, bind_eq_ok, orError_eq_ok, fitsI64_eq_some, pure_eq_ok,
      Prod.mk.injEq] at hok
    obtain ⟨_, ⟨-, rfl⟩, jobs, hjobs, subagents, hupdate, rfl, rfl⟩ := hok
    obtain ⟨job, hjob, -, hkind, hwriteJob⟩ := updateSubagentJob_eq_ok hjobs
    rw [hread.jobId] at hjob hwriteJob
    rw [hread.id] at hupdate
    obtain ⟨-, hwrite⟩ := updateSubagent_eq_ok hupdate hget
    exact .paired ⟨hstored, hjob, hkind, .cancelled hstatus, hwriteJob, hwrite⟩ rfl
  · rename_i hstatus
    simp only [cancelRunning, toI64, bind_eq_ok, orError_eq_ok, fitsI64_eq_some, pure_eq_ok,
      Prod.mk.injEq] at hok
    obtain ⟨_, ⟨-, rfl⟩, subagents, hupdate, rfl, -⟩ := hok
    rw [hread.id] at hupdate
    obtain ⟨-, hwrite⟩ := updateSubagent_eq_ok hupdate hget
    exact .alone hstored (.cancelRequested hstatus) rfl hwrite
  · cases hok

variable {result : Value} {status : SubagentStatus}

theorem terminalOutcome_cancelled {current : SubagentRecord}
    (h : current.cancelRequestedAt ≠ none) :
    (terminalOutcome current status result).1 = .cancelled := by
  unfold terminalOutcome
  rw [if_pos (Option.isSome_iff_ne_none.mpr h)]

theorem isOutcome_terminalOutcome {current : SubagentRecord} (h : isOutcome status = true) :
    isOutcome (terminalOutcome current status result).1 = true := by
  unfold terminalOutcome
  split_ifs
  · rfl
  · exact h

theorem isTerminal_of_isOutcome (h : isOutcome status = true) :
    isTerminalStatus status = true := by
  cases status <;> first | rfl | cases h

theorem finish_step {worker : JobWorkerId}
    (hok : finish json db id worker status result now = .ok (db', record)) :
    Step db (.finish id worker status result now) db' (.ok (.subagent record)) := by
  simp only [finish, toI64, bind_eq_ok, orError_eq_ok, ensure_eq_ok, exists_const, fitsI64_eq_some,
    pure_eq_ok, Prod.mk.injEq] at hok
  obtain ⟨houtcome, _, hload, current, rfl, hrunning, -, resultJson, -, _, ⟨-, rfl⟩, jobs, hjobs,
    subagents, hupdate, rfl, rfl⟩ := hok
  obtain ⟨row, hget, hread⟩ := loadSubagent_eq_some hload
  obtain ⟨rfl, hstored⟩ := stored_of_get hget
  obtain ⟨job, hjob, -, hkind, hwriteJob⟩ := updateSubagentJob_eq_ok hjobs
  rw [hread.jobId] at hjob hwriteJob
  obtain ⟨-, hwrite⟩ := updateSubagent_eq_ok hupdate hget
  rw [hread.status] at hrunning
  have hcancel : row.cancelRequestedAt ≠ none →
      (terminalOutcome current status result).1 = .cancelled := by
    intro hasked
    rw [← hread.cancelRequestedAt] at hasked
    exact terminalOutcome_cancelled hasked
  exact .paired ⟨hstored, hjob, hkind, .finished hrunning (hread.running hrunning)
    (isOutcome_terminalOutcome houtcome) hcancel, hwriteJob, hwrite⟩ rfl

theorem markInterrupted_step {reason : String}
    (hok : markInterrupted json db id scope reason now = .ok (db', record)) :
    Step db (.markInterrupted id scope reason now) db' (.ok (.subagent record)) := by
  simp only [markInterrupted, toI64, bind_eq_ok, orError_eq_ok, ensure_eq_ok, exists_const,
    fitsI64_eq_some, pure_eq_ok, Prod.mk.injEq] at hok
  obtain ⟨_, hload, current, rfl, hrunning, resultJson, -, _, ⟨-, rfl⟩, jobs, hjobs, subagents,
    hupdate, rfl, rfl⟩ := hok
  obtain ⟨row, hget, rfl, hread⟩ := loadScopedSubagent_eq_some hload
  obtain ⟨rfl, hstored⟩ := stored_of_get hget
  obtain ⟨job, hjob, -, hkind, hwriteJob⟩ := updateSubagentJob_eq_ok hjobs
  rw [hread.jobId] at hjob hwriteJob
  obtain ⟨-, hwrite⟩ := updateSubagent_eq_ok hupdate hget
  rw [hread.status] at hrunning
  exact .paired ⟨hstored, hjob, hkind, .interrupted hrunning (hread.running hrunning), hwriteJob,
    hwrite⟩ rfl

/-- A transaction that fails leaves the database, one that succeeds leaves its own. -/
theorem transact_step {α : Type} {call : Call} {reply : α → Reply}
    {result : Except SubagentStoreError (SubagentDb × α)}
    (h : ∀ db' a, result = .ok (db', a) → Step db call db' (.ok (reply a))) :
    Step db call (transact db reply result).1 (transact db reply result).2 := by
  rcases result with e | ⟨db', a⟩
  · exact .refused (.subagent e)
  · exact h db' a rfl

/-- **What a call does.** -/
theorem exec_step (json : SubagentJson) (db : SubagentDb) (call : Call) :
    Step db call (exec json db call).1 (exec json db call).2 := by
  cases call with
  | prepare input => exact transact_step fun _ _ => prepare_step
  | queue id scope receipt now => exact transact_step fun _ _ => queue_step
  | failPreparing id scope receipt preserve now => exact transact_step fun _ _ => failPreparing_step
  | interruptPreparing id scope preserve reason now =>
    exact transact_step fun _ _ => interruptPreparing_step
  | claimCleanup id scope now => exact transact_step fun _ _ => claimCleanup_step
  | recordCleanup id scope receipt => exact transact_step fun _ _ => recordCleanup_step
  | claimNext scope worker now => exact transact_step fun _ _ => claimNext_step
  | requestCancel id scope now => exact transact_step fun _ _ => requestCancel_step
  | finish id worker status result now => exact transact_step fun _ _ => finish_step
  | markInterrupted id scope reason now => exact transact_step fun _ _ => markInterrupted_step
  | job call => exact .job rfl (job_keepsOthers json.jobs db.jobs call)

end

end Pandora.Subagents.Steps
