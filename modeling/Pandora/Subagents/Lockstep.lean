import Pandora.Subagents.Steps

/-! # Subagents and their jobs in lock step

A subagent that was queued has one job, and both move together (`InStep`). What a call can do to
a subagent is said once (`Evolves`): its status goes forward, a requested cancellation, a claimed
cleanup and a recorded receipt stay. From this follows what can happen to it only once. -/

namespace Pandora.Subagents.Lockstep

open Ids Lib.Tables Lib.Runs
open Jobs.Store (JobRow JobDb Value)
open Subagents.Store Subagents.Steps

/-! ### The life of a subagent -/

/-- How far a subagent has come. -/
def phase : SubagentStatus → ℕ
  | .preparing => 0
  | .queued => 1
  | .running => 2
  | .approvalRequired | .completed | .failed | .interrupted | .cancelled => 3

/-- The subagent was queued: it is no longer prepared, and its preparation did not end it. -/
def Launched (row : SubagentRow) : Prop :=
  row.status ≠ .preparing ∧
    (row.startedAt = none → row.status ≠ .failed ∧ row.status ≠ .interrupted)

/-- A cancellation was requested, and the outcome is open or follows it. -/
def Cancelling (row : SubagentRow) : Prop :=
  row.cancelRequestedAt ≠ none ∧
    (row.status = .running ∨ row.status = .cancelled ∨ row.status = .interrupted)

/-- What calls can do to a subagent. -/
structure Evolves (row row' : SubagentRow) : Prop where
  id : row'.id = row.id
  jobId : row'.jobId = row.jobId
  scope : row'.scope = row.scope
  phase : phase row.status ≤ phase row'.status
  launched : Launched row → Launched row'
  cancelling : Cancelling row → Cancelling row'
  cleanup : row.cleanupClaimedAt ≠ none → row'.cleanupClaimedAt ≠ none
  receipt : row.removeReceiptJson ≠ none → row'.removeReceiptJson ≠ none

theorem Evolves.refl (row : SubagentRow) : Evolves row row :=
  ⟨rfl, rfl, rfl, le_rfl, fun h => h, fun h => h, fun h => h, fun h => h⟩

theorem phase_of_terminal {status : SubagentStatus} (h : isTerminalStatus status = true) :
    phase status = 3 := by
  cases status <;> first | rfl | cases h

variable {row : SubagentRow}

theorem not_cancelling_of_queued (h : row.status = .queued) :
    ¬ Cancelling row := by
  rintro ⟨-, hstatus⟩
  rw [h] at hstatus
  rcases hstatus with hstatus | hstatus | hstatus <;> cases hstatus

theorem not_cancelling_of_preparing (h : row.status = .preparing) :
    ¬ Cancelling row := by
  rintro ⟨-, hstatus⟩
  rw [h] at hstatus
  rcases hstatus with hstatus | hstatus | hstatus <;> cases hstatus

variable {row' : SubagentRow} {call : Call}

theorem alone_evolves (h : Alone row call row') :
    Evolves row row' := by
  cases h with
  | failed hstatus | unprepared hstatus =>
    refine ⟨rfl, rfl, rfl, ?_, fun hl => absurd hstatus hl.1,
      fun hc => absurd hc (not_cancelling_of_preparing hstatus), fun h => h, fun h => h⟩
    rw [hstatus]
    exact Nat.zero_le _
  | cleanupClaimed hterminal hfirst =>
    exact ⟨rfl, rfl, rfl, le_rfl, fun h => h, fun h => h, fun _ => nofun, fun h => h⟩
  | cleanupRecorded hterminal hclaimed hfirst =>
    exact ⟨rfl, rfl, rfl, le_rfl, fun h => h, fun h => h, fun h => h, fun _ => nofun⟩
  | cancelRequested hstatus =>
    exact ⟨rfl, rfl, rfl, le_rfl, fun h => h, fun hc => ⟨nofun, hc.2⟩, fun h => h, fun h => h⟩

variable {job job' : JobRow}

theorem paired_evolves (h : Paired row job call row' job') : Evolves row row' := by
  cases h with
  | claimed hstatus =>
    refine ⟨rfl, rfl, rfl, ?_, fun _ => ⟨nofun, nofun⟩,
      fun hc => absurd hc (not_cancelling_of_queued hstatus), fun h => h, fun h => h⟩
    rw [hstatus]
    exact (by decide : phase .queued ≤ phase .running)
  | cancelled hstatus =>
    refine ⟨rfl, rfl, rfl, ?_, fun _ => ⟨nofun, fun _ => ⟨nofun, nofun⟩⟩,
      fun hc => absurd hc (not_cancelling_of_queued hstatus), fun h => h, fun h => h⟩
    rw [hstatus]
    exact (by decide : phase .queued ≤ phase .cancelled)
  | @finished _ _ outcome _ _ _ hstatus hstarted houtcome hcancel =>
    refine ⟨rfl, rfl, rfl, ?_, fun _ => ⟨fun hpreparing => ?_, fun h => absurd h hstarted⟩,
      fun hc => ⟨hc.1, Or.inr (Or.inl (hcancel hc.1))⟩, fun h => h, fun h => h⟩
    · change phase row.status ≤ phase outcome
      rw [hstatus, phase_of_terminal (isTerminal_of_isOutcome houtcome)]
      exact (by decide : phase .running ≤ 3)
    · obtain rfl : outcome = .preparing := hpreparing
      cases houtcome
  | interrupted hstatus hstarted =>
    refine ⟨rfl, rfl, rfl, ?_, fun _ => ⟨nofun, fun h => absurd h hstarted⟩,
      fun hc => ⟨hc.1, Or.inr (Or.inr rfl)⟩, fun h => h, fun h => h⟩
    rw [hstatus]
    exact (by decide : phase .running ≤ phase .interrupted)

section

variable {db db' : SubagentDb} {call : Call} {answer : Except CallError Reply}

theorem ne_of_free (h : Stored db row) {id : SubagentId}
    (hfree : db.subagents.get? id = none) : row.id ≠ id := by
  rintro rfl
  unfold Stored at h
  rw [hfree] at h
  cases h

theorem writes_evolves {other : SubagentRow} (hstored : Stored db row)
    (hevolves : Evolves row row') (hwrite : Table.Writes db.subagents db'.subagents row.id row')
    (hother : Stored db other) : ∃ other', Stored db' other' ∧ Evolves other other' := by
  by_cases hid : other.id = row.id
  · have hsame : other = row := by
      unfold Stored at hother hstored
      rw [hid, hstored, Option.some.injEq] at hother
      exact hother.symm
    subst hsame
    refine ⟨row', ?_, hevolves⟩
    unfold Stored
    rw [hevolves.id]
    exact hwrite.same
  · exact ⟨other, (hwrite.other hid).trans hother, .refl other⟩

theorem queued_evolves (hstatus : row.status = .preparing)
    (receiptJson : String) : Evolves row { row with
      status := .queued, worktreeState := .ready, createReceiptJson := some receiptJson } := by
  refine ⟨rfl, rfl, rfl, ?_, fun _ => ⟨nofun, fun _ => ⟨nofun, nofun⟩⟩,
    fun hc => absurd hc (not_cancelling_of_preparing hstatus), fun h => h, fun h => h⟩
  rw [hstatus]
  exact Nat.zero_le _

/-- **What a call can do to a subagent.** -/
theorem step_evolves (h : Step db call db' answer) (hrow : Stored db row) :
    ∃ row', Stored db' row' ∧ Evolves row row' := by
  cases h with
  | refused | idle => exact ⟨row, hrow, .refl row⟩
  | prepared hnew hfree hunique hjobs hwrite =>
    exact ⟨row, (hwrite.other (ne_of_free hrow hfree)).trans hrow, .refl row⟩
  | queued hstored hstatus hunset hfree hlast hjobs hwrite =>
    exact writes_evolves hstored (queued_evolves hstatus _) hwrite hrow
  | alone hstored hmove hjobs hwrite =>
    exact writes_evolves hstored (alone_evolves hmove) hwrite hrow
  | paired hmove | claimed hmove =>
    exact writes_evolves hmove.stored (paired_evolves hmove.paired) hmove.subagents hrow
  | job hsubagents hjobs =>
    refine ⟨row, ?_, .refl row⟩
    unfold Stored
    rw [hsubagents]
    exact hrow

end

/-! ### Lock step -/

/-- A job in the state of its subagent. -/
structure Mirrors (row : SubagentRow) (job : JobRow) : Prop where
  kind : job.jobKind = "subagent"
  status : job.status = statusText row.status
  worker : job.workerId = row.workerId.map (·.text)
  started : job.startedAt = row.startedAt.map fun t : ℕ => (t : ℤ)
  finished : job.finishedAt = row.finishedAt.map fun t : ℕ => (t : ℤ)

/-- Subagents that were queued have a job in their state, and no two have the same one. -/
structure InStep (db : SubagentDb) : Prop where
  mirrored : ∀ row, Stored db row → Launched row →
    ∃ job, db.jobs.get? row.jobId.text = some job ∧ Mirrors row job
  distinct : ∀ row row', Stored db row → Stored db row' → row.jobId = row'.jobId → row.id = row'.id

section

variable {db db' : SubagentDb} {call : Call} {answer : Except CallError Reply}

theorem stored_writes {other : SubagentRow}
    (hwrite : Table.Writes db.subagents db'.subagents row.id row') (hother : Stored db' other) :
    other = row' ∨ (other.id ≠ row.id ∧ Stored db other) := by
  by_cases hsame : other.id = row.id
  · left
    unfold Stored at hother
    rw [hsame, hwrite.same, Option.some.injEq] at hother
    exact hother.symm
  · right
    refine ⟨hsame, ?_⟩
    unfold Stored at hother ⊢
    rwa [hwrite.other hsame] at hother

theorem InStep.writes (h : InStep db) (hstored : Stored db row)
    (hid : row'.id = row.id) (hjobId : row'.jobId = row.jobId)
    (hwrite : Table.Writes db.subagents db'.subagents row.id row')
    (hothers : ∀ key, key ≠ row.jobId.text → db'.jobs.get? key = db.jobs.get? key)
    (hmirror : Launched row' → ∃ job, db'.jobs.get? row.jobId.text = some job ∧ Mirrors row' job) :
    InStep db' := by
  refine ⟨fun other hother hlaunched => ?_, fun other other' hother hother' hjob => ?_⟩
  · rcases stored_writes hwrite hother with rfl | ⟨hne, hother⟩
    · rw [hjobId]
      exact hmirror hlaunched
    · -- the job of another subagent is another job
      have hkey : other.jobId.text ≠ row.jobId.text := by
        intro htext
        exact hne (h.distinct other row hother hstored (Id.ext_text htext))
      rw [hothers _ hkey]
      exact h.mirrored other hother hlaunched
  · rcases stored_writes hwrite hother with rfl | ⟨-, hother⟩
    · rcases stored_writes hwrite hother' with rfl | ⟨-, hother'⟩
      · rfl
      · rw [hid]
        exact h.distinct row other' hstored hother' (hjobId ▸ hjob)
    · rcases stored_writes hwrite hother' with rfl | ⟨-, hother'⟩
      · rw [hid]
        exact h.distinct other row hother hstored (hjobId ▸ hjob)
      · exact h.distinct other other' hother hother' hjob

/-- A call that moves a subagent alone: one that is launched after it was so before, in the same
state. -/
theorem alone_mirrors (hmove : Alone row call row')
    (hlaunched : Launched row') : Launched row ∧ ∀ job, Mirrors row job → Mirrors row' job := by
  cases hmove with
  | failed hstatus hstarted => exact absurd rfl (hlaunched.2 hstarted).1
  | unprepared hstatus hstarted => exact absurd rfl (hlaunched.2 hstarted).2
  | cleanupClaimed | cleanupRecorded | cancelRequested =>
    exact ⟨hlaunched, fun _ h => ⟨h.1, h.2, h.3, h.4, h.5⟩⟩

theorem launched_of_running (h : row.status = .queued ∨ row.status = .running) :
    Launched row := by
  unfold Launched
  rcases h with h | h
  all_goals
    rw [h]
    exact ⟨nofun, fun _ => ⟨nofun, nofun⟩⟩

theorem jobStatusText_eq {status : SubagentStatus} : jobStatusText status = statusText status := by
  cases status <;> rfl

/-- A call that moves a subagent and its job keeps them together. -/
theorem paired_mirrors (hmove : Paired row job call row' job') :
    Launched row ∧ (Mirrors row job → Mirrors row' job') := by
  cases hmove with
  | claimed hstatus =>
    exact ⟨launched_of_running (Or.inl hstatus), fun h => ⟨h.kind, rfl, rfl, rfl, h.finished⟩⟩
  | cancelled hstatus =>
    exact ⟨launched_of_running (Or.inl hstatus), fun h => ⟨h.kind, rfl, h.worker, h.started, rfl⟩⟩
  | finished hstatus hstarted houtcome hcancel =>
    exact ⟨launched_of_running (Or.inr hstatus),
      fun h => ⟨h.kind, jobStatusText_eq, h.worker, h.started, rfl⟩⟩
  | interrupted hstatus hstarted =>
    exact ⟨launched_of_running (Or.inr hstatus), fun h => ⟨h.kind, rfl, h.worker, h.started, rfl⟩⟩

theorem InStep.moved (h : InStep db)
    (hmove : Moved db db' call row row' job job') : InStep db' := by
  have hevolves := paired_evolves hmove.paired
  obtain ⟨hlaunched, hmirrors⟩ := paired_mirrors hmove.paired
  refine h.writes hmove.stored hevolves.id hevolves.jobId hmove.subagents
    (fun key hkey => hmove.jobs.other hkey) fun _ => ⟨job', hmove.jobs.same, hmirrors ?_⟩
  obtain ⟨mirror, hget, hmirror⟩ := h.mirrored row hmove.stored hlaunched
  rw [hmove.owned, Option.some.injEq] at hget
  subst hget
  exact hmirror

/-- **Every call keeps the lock step.** -/
theorem step_lockstep (hstep : Step db call db' answer) (h : InStep db) : InStep db' := by
  cases hstep with
  | refused e => exact h
  | idle => exact h
  | @prepared _ input _ _ _ _ row _ hrow hfree hunique hjobs hwrite =>
    have hof : ∀ other, Stored db' other → other = row ∨ Stored db other := fun other hother =>
      (stored_writes hwrite hother).imp_right And.right
    refine ⟨fun other hother hlaunched => ?_, fun other other' hother hother' hjob => ?_⟩
    · rcases hof other hother with rfl | hother
      · rw [hrow] at hlaunched
        exact absurd rfl hlaunched.1
      · rw [hjobs]
        exact h.mirrored other hother hlaunched
    · rcases hof other hother with rfl | hother
      · rcases hof other' hother' with rfl | hother'
        · rfl
        · exact absurd hjob.symm (hunique other' hother')
      · rcases hof other' hother' with rfl | hother'
        · exact absurd hjob (hunique other hother)
        · exact h.distinct other other' hother hother' hjob
  | @queued _ _ _ _ receiptJson _ _ _ hstored hstatus hunset hfree hlast hjobs hwrite =>
    obtain ⟨hworker, hstarted, hfinished⟩ := hunset
    have hevolves := queued_evolves hstatus receiptJson
    refine h.writes hstored hevolves.id hevolves.jobId hwrite (fun key hkey => hjobs.other hkey)
      fun _ => ⟨_, hjobs.same, rfl, rfl, ?_, ?_, ?_⟩
    · rw [hworker]; rfl
    · rw [hstarted]; rfl
    · rw [hfinished]; rfl
  | alone hstored hmove hjobs hwrite =>
    have hevolves := alone_evolves hmove
    refine h.writes hstored hevolves.id hevolves.jobId hwrite (fun key hkey => by rw [hjobs])
      fun hlaunched => ?_
    obtain ⟨hbefore, hmirrors⟩ := alone_mirrors hmove hlaunched
    obtain ⟨job, hget, hmirror⟩ := h.mirrored _ hstored hbefore
    rw [hjobs]
    exact ⟨job, hget, hmirrors job hmirror⟩
  | paired hmove | claimed hmove => exact h.moved hmove
  | job hsubagents hjobs =>
    have hof : ∀ other, Stored db' other → Stored db other := by
      intro other hother
      unfold Stored at hother ⊢
      rwa [hsubagents] at hother
    refine ⟨fun other hother hlaunched => ?_, fun other other' hother hother' hjob => ?_⟩
    · obtain ⟨job, hget, hmirror⟩ := h.mirrored other (hof other hother) hlaunched
      have hkind : job.jobKind ≠ "run" := by
        rw [hmirror.kind]
        decide
      exact ⟨job, (hjobs _ job hkind).mpr hget, hmirror⟩
    · exact h.distinct other other' (hof other hother) (hof other' hother') hjob

theorem dbAfter_lockstep (json : SubagentJson) (calls : List Call) :
    InStep (dbAfter json calls) := by
  refine (store json).run_invariant (fun db call h => step_lockstep (exec_step json db call) h)
    calls ⟨?_, ?_⟩
  · rintro row hrow
    cases hrow
  · rintro row row' hrow
    cases hrow

end

/-! ### Positions of a run -/

section

variable (json : SubagentJson)

/-- The call at position `k` queued the subagent. -/
def QueuedAt (calls : List Call) (k : ℕ) (id : SubagentId) (scope : SubagentScope) : Prop :=
  ∃ receipt now record, (store json).Answers .empty calls k (.queue id scope receipt now)
    (.ok (.subagent record))

/-- The call at position `k` returned the subagent to a worker. -/
def ClaimedAt (calls : List Call) (k : ℕ) (id : SubagentId) (scope : SubagentScope)
    (worker : JobWorkerId) : Prop :=
  ∃ now record, record.id = id ∧ (store json).Answers .empty calls k
    (.claimNext scope worker now) (.ok (.claimed (some record)))

/-- The call at position `k` recorded the request to cancel the subagent, which was running. -/
def CancelRequestedAt (calls : List Call) (k : ℕ) (id : SubagentId) : Prop :=
  ∃ scope now record, record.status = .running ∧ (store json).Answers .empty calls k
    (.requestCancel id scope now) (.ok (.subagent record))

/-- The call at position `k` claimed the cleanup of the subagent. -/
def CleanupClaimedAt (calls : List Call) (k : ℕ) (id : SubagentId) : Prop :=
  ∃ scope now record, (store json).Answers .empty calls k (.claimCleanup id scope now)
    (.ok (.subagent record))

/-- The call at position `k` recorded the receipt of the cleanup. -/
def CleanupRecordedAt (calls : List Call) (k : ℕ) (id : SubagentId) : Prop :=
  ∃ scope receipt record, (store json).Answers .empty calls k (.recordCleanup id scope receipt)
    (.ok (.subagent record))

end

/-- The subagent is stored, and `Q` holds of it. -/
def Has (Q : SubagentRow → Prop) (id : SubagentId) (db : SubagentDb) : Prop :=
  ∃ row, db.subagents.get? id = some row ∧ Q row

section

variable {json : SubagentJson} {calls : List Call} {k l : ℕ} {id : SubagentId}
  {scope scope' : SubagentScope}

variable {o : Except CallError Reply}

theorem answers_step (h : (store json).Answers .empty calls k call o) :
    Step (dbAfter json (calls.take k)) call (exec json (dbAfter json (calls.take k)) call).1 o := by
  have hstep := exec_step json (dbAfter json (calls.take k)) call
  have hanswer : (exec json (dbAfter json (calls.take k)) call).2 = o := h.2
  rwa [hanswer] at hstep

theorem answers_keep
    (h : (store json).Answers .empty calls k call o) (hkl : k < l) {P : SubagentDb → Prop}
    (hkeep : ∀ db call, P db → P (exec json db call).1)
    (hP : P (exec json (dbAfter json (calls.take k)) call).1) :
    P (dbAfter json (calls.take l)) := by
  obtain ⟨between, hrun⟩ := h.run_take hkl
  unfold dbAfter
  rw [hrun]
  exact (store json).run_invariant hkeep between hP

theorem has_keep {Q : SubagentRow → Prop} (hQ : ∀ row row', Evolves row row' → Q row → Q row')
    (db : SubagentDb) (call : Call) (h : Has Q id db) : Has Q id (exec json db call).1 := by
  obtain ⟨row, hget, hrow⟩ := h
  obtain ⟨rfl, hstored⟩ := stored_of_get hget
  obtain ⟨row', hstored', hevolves⟩ := step_evolves (exec_step json db call) hstored
  refine ⟨row', ?_, hQ row row' hevolves hrow⟩
  rw [← hevolves.id]
  exact hstored'

theorem not_later {Q : SubagentRow → Prop} (hQ : ∀ row row', Evolves row row' → Q row → Q row')
    (hk : (store json).Answers .empty calls k call o)
    (hafter : Has Q id (exec json (dbAfter json (calls.take k)) call).1)
    (hbefore : Has (fun row => ¬ Q row) id (dbAfter json (calls.take l))) : ¬ k < l := by
  intro hkl
  obtain ⟨row, hget, hrow⟩ := answers_keep hk hkl (P := Has Q id) (has_keep hQ) hafter
  obtain ⟨row', hget', hrow'⟩ := hbefore
  rw [hget, Option.some.injEq] at hget'
  subst hget'
  exact hrow' hrow

/-! ### Sequences -/

/-- The job of the subagent has this sequence. -/
def Sequenced (id : SubagentId) (sequence : ℤ) (db : SubagentDb) : Prop :=
  ∃ row job, db.subagents.get? id = some row ∧ db.jobs.get? row.jobId.text = some job ∧
    job.jobKind = "subagent" ∧ job.submissionSequence = sequence

theorem paired_job (h : Paired row job call row' job') :
    job'.jobKind = job.jobKind ∧ job'.submissionSequence = job.submissionSequence := by
  cases h <;> exact ⟨rfl, rfl⟩

variable {db db' : SubagentDb} {call : Call} {answer : Except CallError Reply}

theorem moved_jobs (hmove : Moved db db' call row row' job job') {key : String} {other : JobRow}
    (hget : db.jobs.get? key = some other) : ∃ other', db'.jobs.get? key = some other' ∧
      other'.jobKind = other.jobKind ∧ other'.submissionSequence = other.submissionSequence := by
  by_cases hkey : key = row.jobId.text
  · subst hkey
    have howned := hmove.owned
    rw [hget, Option.some.injEq] at howned
    subst howned
    exact ⟨job', hmove.jobs.same, paired_job hmove.paired⟩
  · exact ⟨other, (hmove.jobs.other hkey).trans hget, rfl, rfl⟩

theorem step_jobs (h : Step db call db' answer) {key : String}
    (hget : db.jobs.get? key = some job) (hkind : job.jobKind = "subagent") :
    ∃ job', db'.jobs.get? key = some job' ∧ job'.jobKind = job.jobKind ∧
      job'.submissionSequence = job.submissionSequence := by
  cases h with
  | refused | idle => exact ⟨job, hget, rfl, rfl⟩
  | prepared hrow hfree hunique hjobs | alone hstored hmove hjobs =>
    rw [hjobs]
    exact ⟨job, hget, rfl, rfl⟩
  | queued hstored hstatus hunset hfree hlast hjobs hwrite =>
    refine ⟨job, (hjobs.other ?_).trans hget, rfl, rfl⟩
    rintro rfl
    rw [hfree] at hget
    cases hget
  | paired hmove | claimed hmove => exact moved_jobs hmove hget
  | job hsubagents hjobs =>
    have hother : job.jobKind ≠ "run" := by
      rw [hkind]
      decide
    exact ⟨job, (hjobs key job hother).mpr hget, rfl, rfl⟩

theorem sequenced_keep {sequence : ℤ} (db : SubagentDb) (call : Call)
    (h : Sequenced id sequence db) : Sequenced id sequence (exec json db call).1 := by
  obtain ⟨row, job, hget, hjob, hkind, hsequence⟩ := h
  obtain ⟨rfl, hstored⟩ := stored_of_get hget
  have hstep := exec_step json db call
  obtain ⟨row', hstored', hevolves⟩ := step_evolves hstep hstored
  obtain ⟨job', hjob', hkind', hsequence'⟩ := step_jobs hstep hjob hkind
  refine ⟨row', job', ?_, ?_, hkind'.trans hkind, hsequence'.trans hsequence⟩
  · rw [← hevolves.id]
    exact hstored'
  · rw [hevolves.jobId]
    exact hjob'

theorem Sequenced.unique {s t : ℤ} (hs : Sequenced id s db) (ht : Sequenced id t db) : s = t := by
  obtain ⟨row, job, hget, hjob, -, rfl⟩ := hs
  obtain ⟨row', job', hget', hjob', -, rfl⟩ := ht
  rw [hget, Option.some.injEq] at hget'
  subst hget'
  rw [hjob, Option.some.injEq] at hjob'
  subst hjob'
  rfl

/-! ### The positions of one kind -/

variable {now : ℕ} {record : SubagentRecord}

theorem queued_cases {receipt : EffectReceipt}
    (h : (store json).Answers .empty calls k (.queue id scope receipt now)
      (.ok (.subagent record))) :
    Has (fun row => ¬ 1 ≤ phase row.status) id (dbAfter json (calls.take k)) ∧
      Has (fun row => 1 ≤ phase row.status ∧ Launched row ∧ row.scope = scope) id
        (exec json (dbAfter json (calls.take k)) (.queue id scope receipt now)).1 ∧
      ∃ sequence, Sequenced id sequence
          (exec json (dbAfter json (calls.take k)) (.queue id scope receipt now)).1 ∧
        ∀ other s, Sequenced other s (dbAfter json (calls.take k)) → s < sequence := by
  have hstep := answers_step h
  generalize (exec json (dbAfter json (calls.take k)) (.queue id scope receipt now)).1 = db' at *
  cases hstep with
  | @queued _ row sequence _ _ _ _ _ hstored hstatus hunset hfree hlast hjobs hwrite =>
    refine ⟨⟨row, hstored, ?_⟩, ⟨_, hwrite.same, le_rfl, ⟨nofun, fun _ => ⟨nofun, nofun⟩⟩, rfl⟩,
      sequence, ⟨_, _, hwrite.same, hjobs.same, rfl, rfl⟩, ?_⟩
    · change ¬ 1 ≤ phase row.status
      rw [hstatus]
      decide
    · rintro other s ⟨row', job, -, hjob, -, rfl⟩
      exact hlast _ job hjob
  | alone hstored hmove hjobs hwrite => cases hmove
  | paired hmove hrecord => cases hmove.paired

variable {worker : JobWorkerId}

theorem claimed_cases (h : (store json).Answers .empty calls k (.claimNext scope worker now)
      (.ok (.claimed (some record)))) :
    (∃ row job, Stored (dbAfter json (calls.take k)) row ∧ row.id = record.id ∧ row.scope = scope ∧
      row.status = .queued ∧
      (dbAfter json (calls.take k)).jobs.get? row.jobId.text = some job ∧
      job.jobKind = "subagent" ∧
      ∀ other other', Stored (dbAfter json (calls.take k)) other → other.scope = scope →
        queuedJob (dbAfter json (calls.take k)) other = some other' →
        job.submissionSequence ≤ other'.submissionSequence) ∧
    Has (fun row => 2 ≤ phase row.status) record.id
      (exec json (dbAfter json (calls.take k)) (.claimNext scope worker now)).1 := by
  have hstep := answers_step h
  generalize (exec json (dbAfter json (calls.take k)) (.claimNext scope worker now)).1 = db' at *
  cases hstep with
  | @claimed _ _ row row' job job' _ hmove hrecord hfirst =>
    obtain ⟨hstored, howned, hkind, hpaired, hjobs, hwrite⟩ := hmove
    cases hpaired with
    | claimed hstatus =>
      refine ⟨⟨row, job, hstored, hrecord.symm, rfl, hstatus, howned, hkind, hfirst⟩, ?_⟩
      rw [hrecord]
      exact ⟨_, hwrite.same, le_rfl⟩

theorem cancelRequested_cases (hrecord : record.status = .running)
    (h : (store json).Answers .empty calls k (.requestCancel id scope now)
      (.ok (.subagent record))) :
    Has Cancelling id
      (exec json (dbAfter json (calls.take k)) (.requestCancel id scope now)).1 := by
  have hstep := answers_step h
  generalize (exec json (dbAfter json (calls.take k)) (.requestCancel id scope now)).1 = db' at *
  cases hstep with
  | alone hstored hmove hjobs hwrite =>
    cases hmove with
    | cancelRequested hstatus => exact ⟨_, hwrite.same, nofun, Or.inl hstatus⟩
  | paired hmove hstatus =>
    obtain ⟨-, -, -, hpaired, -, -⟩ := hmove
    cases hpaired with
    | cancelled hqueued =>
      rw [hrecord] at hstatus
      cases hstatus

theorem cleanupClaimed_cases (h : (store json).Answers .empty calls k (.claimCleanup id scope now)
      (.ok (.subagent record))) :
    Has (fun row => isTerminalStatus row.status = true ∧ row.cleanupClaimedAt = none) id
        (dbAfter json (calls.take k)) ∧
      Has (fun row => row.cleanupClaimedAt ≠ none) id
        (exec json (dbAfter json (calls.take k)) (.claimCleanup id scope now)).1 := by
  have hstep := answers_step h
  generalize (exec json (dbAfter json (calls.take k)) (.claimCleanup id scope now)).1 = db' at *
  cases hstep with
  | alone hstored hmove hjobs hwrite =>
    cases hmove with
    | cleanupClaimed hterminal hfirst =>
      exact ⟨⟨_, hstored, hterminal, hfirst⟩, _, hwrite.same, nofun⟩
  | paired hmove hstatus => cases hmove.paired

theorem cleanupRecorded_cases {receipt : EffectReceipt}
    (h : (store json).Answers .empty calls k (.recordCleanup id scope receipt)
      (.ok (.subagent record))) :
    Has (fun row => isTerminalStatus row.status = true ∧ row.removeReceiptJson = none) id
        (dbAfter json (calls.take k)) ∧
      Has (fun row => row.removeReceiptJson ≠ none) id
        (exec json (dbAfter json (calls.take k)) (.recordCleanup id scope receipt)).1 := by
  have hstep := answers_step h
  generalize (exec json (dbAfter json (calls.take k)) (.recordCleanup id scope receipt)).1 =
    db' at *
  cases hstep with
  | alone hstored hmove hjobs hwrite =>
    cases hmove with
    | cleanupRecorded hterminal hclaimed hfirst =>
      exact ⟨⟨_, hstored, hterminal, hfirst⟩, _, hwrite.same, nofun⟩
  | paired hmove hstatus => cases hmove.paired

/-! ### What happened to a subagent -/

theorem moved_launched {other : SubagentRow}
    (hmove : Moved db db' call row row' job job') (hstored : Stored db' other)
    (hlaunched : Launched other) :
    ∃ before, Stored db before ∧ before.id = other.id ∧ before.scope = other.scope ∧
      Launched before := by
  rcases stored_writes hmove.subagents hstored with rfl | ⟨-, hbefore⟩
  · have hevolves := paired_evolves hmove.paired
    exact ⟨row, hmove.stored, hevolves.id.symm, hevolves.scope.symm,
      (paired_mirrors hmove.paired).1⟩
  · exact ⟨other, hbefore, rfl, rfl, hlaunched⟩

/-- A subagent that is launched after a call was so before, or the call queued it. -/
theorem step_launched (h : Step db call db' answer) (hstored : Stored db' row')
    (hlaunched : Launched row') :
    (∃ row, Stored db row ∧ row.id = row'.id ∧ row.scope = row'.scope ∧ Launched row) ∨
    ∃ receipt now record, call = .queue row'.id row'.scope receipt now ∧
      answer = .ok (.subagent record) := by
  cases h with
  | refused | idle => exact Or.inl ⟨row', hstored, rfl, rfl, hlaunched⟩
  | prepared hrow hfree hunique hjobs hwrite =>
    rcases stored_writes hwrite hstored with rfl | ⟨-, hbefore⟩
    · rw [hrow] at hlaunched
      exact absurd rfl hlaunched.1
    · exact Or.inl ⟨row', hbefore, rfl, rfl, hlaunched⟩
  | queued hbefore hstatus hunset hfree hlast hjobs hwrite =>
    rcases stored_writes hwrite hstored with rfl | ⟨-, hbefore⟩
    · exact Or.inr ⟨_, _, _, rfl, rfl⟩
    · exact Or.inl ⟨row', hbefore, rfl, rfl, hlaunched⟩
  | alone hbefore hmove hjobs hwrite =>
    rcases stored_writes hwrite hstored with rfl | ⟨-, hbefore⟩
    · have hevolves := alone_evolves hmove
      exact Or.inl ⟨_, hbefore, hevolves.id.symm, hevolves.scope.symm,
        (alone_mirrors hmove hlaunched).1⟩
    · exact Or.inl ⟨row', hbefore, rfl, rfl, hlaunched⟩
  | paired hmove | claimed hmove => exact Or.inl (moved_launched hmove hstored hlaunched)
  | job hsubagents hjobs =>
    unfold Stored at hstored
    rw [hsubagents] at hstored
    exact Or.inl ⟨row', hstored, rfl, rfl, hlaunched⟩

theorem launched_queued (json : SubagentJson) (calls : List Call) :
    ∀ row, Stored (dbAfter json calls) row → Launched row →
      ∃ k, QueuedAt json calls k row.id row.scope := by
  refine (store json).run_history (P := fun calls db => ∀ row, Stored db row → Launched row →
    ∃ k, QueuedAt json calls k row.id row.scope) ?_ ?_ calls
  · rintro row hrow
    cases hrow
  · intro calls call ih row' hstored hlaunched
    have hstep := exec_step json (dbAfter json calls) call
    rcases step_launched hstep hstored hlaunched with ⟨row, hrow, hid, hscope, hbefore⟩ |
      ⟨receipt, now, record, hcall, hanswer⟩
    · obtain ⟨k, receipt, now, record, hans⟩ := ih row hrow hbefore
      rw [hid, hscope] at hans
      exact ⟨k, receipt, now, record, hans.append [call]⟩
    · refine ⟨calls.length, receipt, now, record, ?_⟩
      rw [← hcall]
      exact Machine.answers_last hanswer

/-- A subagent that was queued is stored with its job from then on. -/
theorem queued_launched (h : QueuedAt json calls k id scope) (hkl : k < l) :
    Has (fun row => Launched row ∧ row.scope = scope) id (dbAfter json (calls.take l)) := by
  obtain ⟨receipt, now, record, hans⟩ := h
  obtain ⟨-, ⟨row, hget, -, hlaunched, hscope⟩, -⟩ := queued_cases hans
  refine answers_keep hans hkl (P := Has (fun row => Launched row ∧ row.scope = scope) id)
    (has_keep fun row row' hevolves hrow => ?_) ⟨row, hget, hlaunched, hscope⟩
  exact ⟨hevolves.launched hrow.1, hevolves.scope.trans hrow.2⟩

theorem queued_in_order {id' : SubagentId} (hk : QueuedAt json calls k id scope)
    (hl : QueuedAt json calls l id' scope') (hkl : k < l) {n : ℕ} (hln : l < n) :
    ∃ s t, s < t ∧ Sequenced id s (dbAfter json (calls.take n)) ∧
      Sequenced id' t (dbAfter json (calls.take n)) := by
  obtain ⟨receipt, now, record, hans⟩ := hk
  obtain ⟨receipt', now', record', hans'⟩ := hl
  obtain ⟨-, -, s, hs, -⟩ := queued_cases hans
  obtain ⟨-, -, t, ht, hlast⟩ := queued_cases hans'
  have hsl := answers_keep hans hkl (P := Sequenced id s) sequenced_keep hs
  have hsn := answers_keep hans (hkl.trans hln) (P := Sequenced id s) sequenced_keep hs
  have htn := answers_keep hans' hln (P := Sequenced id' t) sequenced_keep ht
  exact ⟨s, t, hlast id s hsl, hsn, htn⟩

/-- The subagent waits to be claimed. -/
def Queued (db : SubagentDb) (id : SubagentId) : Prop :=
  ∃ row, db.subagents.get? id = some row ∧ row.status = .queued

/-- The claim of a subagent follows its queueing in the same scope, and nothing queued there before
it is still queued. -/
theorem claimed_in_order (h : ClaimedAt json calls k id scope worker) :
    ∃ j, j < k ∧ QueuedAt json calls j id scope ∧ ∀ i id', i < j → QueuedAt json calls i id' scope →
        ¬ Queued (dbAfter json (calls.take k)) id' := by
  obtain ⟨now, record, rfl, hans⟩ := h
  obtain ⟨⟨row, job, hstored, hid, rfl, hstatus, hjob, hkind, hfirst⟩, -⟩ := claimed_cases hans
  rw [← hid]
  obtain ⟨j, receipt, now', record', hqueued⟩ :=
    launched_queued json (calls.take k) row hstored (launched_of_running (Or.inl hstatus))
  have hjk := hqueued.lt
  rw [List.length_take] at hjk
  have hj : QueuedAt json calls j row.id row.scope := ⟨receipt, now', record', hqueued.of_take⟩
  refine ⟨j, by omega, hj, fun i id' hij hi hwaiting => ?_⟩
  obtain ⟨s, t, hst, hs, ht⟩ := queued_in_order hi hj hij (n := k) (by omega)
  obtain ⟨other, hother, hotherStatus⟩ := hwaiting
  obtain ⟨rfl, hotherStored⟩ := stored_of_get hother
  -- the earlier subagent is queued, so its job is, and it would have been selected
  obtain ⟨job', hjob', hmirror⟩ :=
    (dbAfter_lockstep json (calls.take k)).mirrored other hotherStored
    (launched_of_running (Or.inl hotherStatus))
  have hjobStatus : job'.status = "queued" := by
    rw [hmirror.status, hotherStatus]
    rfl
  obtain ⟨other', hother', -, hscope⟩ := queued_launched hi (l := k) (by omega)
  rw [hother, Option.some.injEq] at hother'
  subst hother'
  have hle := hfirst other job' hotherStored hscope
    (queuedJob_eq_some.mpr ⟨hjob', hotherStatus, hjobStatus, hmirror.kind⟩)
  have hs' := hs.unique ⟨other, job', hotherStored, hjob', hmirror.kind, rfl⟩
  have ht' := ht.unique ⟨row, job, hstored, hjob, hkind, rfl⟩
  omega

/-! ### Once -/

theorem queued_not_later (hk : QueuedAt json calls k id scope)
    (hl : QueuedAt json calls l id scope') : ¬ k < l := by
  obtain ⟨receipt, now, record, hans⟩ := hk
  obtain ⟨receipt', now', record', hans'⟩ := hl
  obtain ⟨-, ⟨row, hget, hphase, -⟩, -⟩ := queued_cases hans
  exact not_later (fun row row' hevolves hrow => le_trans hrow hevolves.phase) hans
    ⟨row, hget, hphase⟩ (queued_cases hans').1

theorem claimed_not_later {worker' : JobWorkerId}
    (hk : ClaimedAt json calls k id scope worker) (hl : ClaimedAt json calls l id scope' worker') :
    ¬ k < l := by
  obtain ⟨now, record, rfl, hans⟩ := hk
  obtain ⟨now', record', hid, hans'⟩ := hl
  obtain ⟨⟨row, job, hstored, hrow, -, hstatus, -⟩, -⟩ := claimed_cases hans'
  refine not_later (Q := fun row => 2 ≤ phase row.status)
    (fun row row' hevolves hrow => le_trans hrow hevolves.phase) hans (claimed_cases hans).2
    ⟨row, ?_, ?_⟩
  · rw [← hid, ← hrow]
    exact hstored
  · change ¬ 2 ≤ phase row.status
    rw [hstatus]
    decide

theorem cleanupClaimed_not_later (hk : CleanupClaimedAt json calls k id)
    (hl : CleanupClaimedAt json calls l id) : ¬ k < l := by
  obtain ⟨scope, now, record, hans⟩ := hk
  obtain ⟨scope', now', record', hans'⟩ := hl
  obtain ⟨⟨row, hget, -, hnone⟩, -⟩ := cleanupClaimed_cases hans'
  exact not_later (fun row row' hevolves => hevolves.cleanup) hans (cleanupClaimed_cases hans).2
    ⟨row, hget, fun h => h hnone⟩

theorem cleanupRecorded_not_later (hk : CleanupRecordedAt json calls k id)
    (hl : CleanupRecordedAt json calls l id) : ¬ k < l := by
  obtain ⟨scope, receipt, record, hans⟩ := hk
  obtain ⟨scope', receipt', record', hans'⟩ := hl
  obtain ⟨⟨row, hget, -, hnone⟩, -⟩ := cleanupRecorded_cases hans'
  exact not_later (fun row row' hevolves => hevolves.receipt) hans (cleanupRecorded_cases hans).2
    ⟨row, hget, fun h => h hnone⟩

/-- **Subagents and their jobs move in lock step.** In every run of calls of the two stores, a
queued subagent has one job of its own, in its status, of its worker and with its times; it is
queued once and claimed once, in its scope and first come first served; once its cancellation was
requested it is running, cancelled or interrupted; its cleanup is claimed and recorded once, in a
terminal status; and a call of the job store leaves these jobs as they are. -/
theorem subagents_in_lock_step (json : SubagentJson) (calls : List Call) :
    (∀ k id scope, QueuedAt json calls k id scope → ∃ row job,
      (dbAfter json calls).subagents.get? id = some row ∧
      (dbAfter json calls).jobs.get? row.jobId.text = some job ∧ Mirrors row job ∧
      (dbAfter json calls).jobs.rows.countP
        (fun job => job.id = row.jobId.text ∧ job.jobKind = "subagent") = 1) ∧
    (∀ id id' row row', (dbAfter json calls).subagents.get? id = some row →
      (dbAfter json calls).subagents.get? id' = some row' → row.jobId = row'.jobId → id = id') ∧
    (∀ k l id scope scope', QueuedAt json calls k id scope → QueuedAt json calls l id scope' →
      k = l) ∧
    (∀ k l id scope scope' worker worker', ClaimedAt json calls k id scope worker →
      ClaimedAt json calls l id scope' worker' → k = l) ∧
    (∀ k id scope worker, ClaimedAt json calls k id scope worker →
      ∃ j, j < k ∧ QueuedAt json calls j id scope ∧
        ∀ i id', i < j → QueuedAt json calls i id' scope →
          ¬ Queued (dbAfter json (calls.take k)) id') ∧
    (∀ k id, CancelRequestedAt json calls k id → ∃ row,
      (dbAfter json calls).subagents.get? id = some row ∧
      (row.status = .running ∨ row.status = .cancelled ∨ row.status = .interrupted)) ∧
    (∀ k l id, CleanupClaimedAt json calls k id → CleanupClaimedAt json calls l id → k = l) ∧
    (∀ k l id, CleanupRecordedAt json calls k id → CleanupRecordedAt json calls l id → k = l) ∧
    (∀ k id, CleanupClaimedAt json calls k id ∨ CleanupRecordedAt json calls k id → ∃ row,
      (dbAfter json (calls.take k)).subagents.get? id = some row ∧
      isTerminalStatus row.status = true) ∧
    (∀ call key job, job.jobKind = "subagent" →
      ((dbAfter json (calls ++ [.job call])).jobs.get? key = some job ↔
        (dbAfter json calls).jobs.get? key = some job)) := by
  have hall : calls.take calls.length = calls := List.take_length
  refine ⟨fun k id scope hk => ?_, fun id id' row row' hget hget' hjob => ?_,
    fun k l id scope scope' hk hl => ?_, fun k l id scope scope' worker worker' hk hl => ?_,
    fun k id scope worker hk => claimed_in_order hk, fun k id hk => ?_, fun k l id hk hl => ?_,
    fun k l id hk hl => ?_, fun k id hk => ?_, fun call key job hkind => ?_⟩
  · have hlen : k < calls.length := by
      obtain ⟨receipt, now, record, hans⟩ := hk
      exact hans.lt
    have hlaunched := queued_launched hk hlen
    rw [hall] at hlaunched
    obtain ⟨row, hget, hlaunched, -⟩ := hlaunched
    obtain ⟨job, hjob, hmirror⟩ := (dbAfter_lockstep json calls).mirrored row
      (stored_of_get hget).2 hlaunched
    refine ⟨row, job, hget, hjob, hmirror, Table.countP_eq_one
      (fun other hother => (of_decide_eq_true hother).1) hjob ?_⟩
    exact decide_eq_true ⟨(Table.get?_eq_some.mp hjob).2, hmirror.kind⟩
  · obtain ⟨rfl, hstored⟩ := stored_of_get hget
    obtain ⟨rfl, hstored'⟩ := stored_of_get hget'
    exact (dbAfter_lockstep json calls).distinct row row' hstored hstored' hjob
  · have h1 := queued_not_later hk hl
    have h2 := queued_not_later hl hk
    omega
  · have h1 := claimed_not_later hk hl
    have h2 := claimed_not_later hl hk
    omega
  · obtain ⟨scope, now, record, hrecord, hans⟩ := hk
    obtain ⟨row, hget, -, hstatus⟩ := answers_keep hans hans.lt (P := Has Cancelling id)
      (has_keep fun row row' hevolves => hevolves.cancelling) (cancelRequested_cases hrecord hans)
    rw [hall] at hget
    exact ⟨row, hget, hstatus⟩
  · have h1 := cleanupClaimed_not_later hk hl
    have h2 := cleanupClaimed_not_later hl hk
    omega
  · have h1 := cleanupRecorded_not_later hk hl
    have h2 := cleanupRecorded_not_later hl hk
    omega
  · rcases hk with ⟨scope, now, record, hans⟩ | ⟨scope, receipt, record, hans⟩
    · obtain ⟨row, hget, hterminal, -⟩ := (cleanupClaimed_cases hans).1
      exact ⟨row, hget, hterminal⟩
    · obtain ⟨row, hget, hterminal, -⟩ := (cleanupRecorded_cases hans).1
      exact ⟨row, hget, hterminal⟩
  · have hother : job.jobKind ≠ "run" := by
      rw [hkind]
      decide
    have hdb : dbAfter json (calls ++ [.job call]) =
        (exec json (dbAfter json calls) (.job call)).1 :=
      (store json).run_snoc .empty calls (.job call)
    rw [hdb]
    exact job_keepsOthers json.jobs (dbAfter json calls).jobs call key job hother

end

end Pandora.Subagents.Lockstep
