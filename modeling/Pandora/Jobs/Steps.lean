import Pandora.Jobs.Store
import Pandora.Lib.Runs

/-! # Calls on the job store

Workers of any number of processes share one table; each call is a transaction, so a run is a list
of calls.

A row that a call wrote is the row of a `JobData`: typed columns of which the right ones are set.
So the reads never find a corrupt record, and what a call does (`Step`) can be said in terms of
jobs. -/

namespace Pandora.Jobs.Steps

open Lib.Checked Lib.Tables Lib.Runs Ids Jobs.Store Option

/-! ## The store as a machine -/

inductive Call
  | submit (id : JobId) (scope : JobScope) (request : JobRequest) (createdAt : ℕ)
  | claimNext (scope : JobScope) (workerId : JobWorkerId) (startedAt : ℕ)
  | finish (id : JobId) (scope : JobScope) (workerId : JobWorkerId) (status : JobStatus)
    (result : Value) (finishedAt : ℕ)
  | markInterrupted (id : JobId) (scope : JobScope) (reason : String) (finishedAt : ℕ)
  | cancel (id : JobId) (scope : JobScope) (finishedAt : ℕ)

inductive Reply
  | job (job : JobRecord)
  | claimed (job : Option JobRecord)

/-- Run a transaction and wrap its answer. -/
def transact {α : Type} (db : JobDb) (reply : α → Reply)
    (result : Except JobStoreError (JobDb × α)) :
    JobDb × Except JobStoreError Reply :=
  ((commit db result).1, (commit db result).2.map reply)

section

variable (json : JobJson)

def exec (db : JobDb) : Call → JobDb × Except JobStoreError Reply
  | .submit id scope request createdAt =>
    transact db .job (submit json db id scope request createdAt)
  | .claimNext scope workerId startedAt =>
    transact db .claimed (claimNext json db scope workerId startedAt)
  | .finish id scope workerId status result finishedAt =>
    transact db .job (finish json db id scope workerId status result finishedAt)
  | .markInterrupted id scope reason finishedAt =>
    transact db .job (markInterrupted json db id scope reason finishedAt)
  | .cancel id scope finishedAt => transact db .job (cancel json db id scope finishedAt)

def store : Machine JobDb Call (Except JobStoreError Reply) := ⟨exec json⟩

/-- The table after a run from the empty one. -/
def dbAfter (calls : List Call) : JobDb := (store json).run Table.empty calls

end

/-! ## Jobs and their rows -/

/-- A job as its row keeps it, with the columns its status asks for. -/
structure JobData where
  id : JobId
  sequence : ℤ
  scope : JobScope
  requestJson : String
  status : JobStatus
  createdAt : ℕ
  (startedAt finishedAt : Option ℕ)
  workerId : Option JobWorkerId
  resultJson : Option String
  valid : validateRecord status startedAt finishedAt resultJson = .ok ()

namespace JobData

def row (d : JobData) : JobRow where
  id := d.id.text
  submissionSequence := d.sequence
  principalId := d.scope.principalId.text
  tenantId := d.scope.tenantId.text
  workspaceId := d.scope.workspaceId.text
  requestJson := d.requestJson
  status := d.status.asStr
  createdAt := d.createdAt
  startedAt := d.startedAt.map fun t : ℕ => (t : ℤ)
  finishedAt := d.finishedAt.map fun t : ℕ => (t : ℤ)
  workerId := d.workerId.map (·.text)
  resultJson := d.resultJson
  jobKind := "run"

/-- A queued job is claimed. -/
def start (d : JobData) (h : d.status = .queued) (workerId : JobWorkerId) (startedAt : ℕ) :
    JobData :=
  { d with
    status := .running
    startedAt := some startedAt
    workerId := some workerId
    valid := by
      have hvalid := d.valid
      rw [h] at hvalid
      simp only [validateRecord, ensure_eq_ok, Bool.and_eq_true] at hvalid ⊢
      exact ⟨⟨rfl, hvalid.1.2⟩, hvalid.2⟩ }

/-- A running job gets its outcome. -/
def settle (d : JobData) (h : d.status = .running) (status : JobStatus)
    (houtcome : status.isOutcome = true) (finishedAt : ℕ) (resultJson : String) : JobData :=
  { d with
    status
    finishedAt := some finishedAt
    resultJson := some resultJson
    valid := by
      have hvalid := d.valid
      rw [h] at hvalid
      simp only [validateRecord, ensure_eq_ok, Bool.and_eq_true] at hvalid
      cases status <;> simp_all [JobStatus.isOutcome, validateRecord] }

/-- A queued job is cancelled. -/
def cancel (d : JobData) (h : d.status = .queued) (finishedAt : ℕ) : JobData :=
  { d with
    status := .cancelled
    finishedAt := some finishedAt
    valid := by
      have hvalid := d.valid
      rw [h] at hvalid
      simp only [validateRecord, ensure_eq_ok, Bool.and_eq_true] at hvalid ⊢
      exact ⟨⟨hvalid.1.1, rfl⟩, hvalid.2⟩ }

theorem start_row (d : JobData) (h : d.status = .queued) (workerId : JobWorkerId) (startedAt : ℕ) :
    (d.start h workerId startedAt).row = d.row.start workerId startedAt := rfl

theorem settle_row (d : JobData) (h : d.status = .running) (status : JobStatus)
    (houtcome : status.isOutcome = true) (finishedAt : ℕ) (resultJson : String) :
    (d.settle h status houtcome finishedAt resultJson).row = d.row.settle status finishedAt
      resultJson := rfl

theorem cancel_row (d : JobData) (h : d.status = .queued) (finishedAt : ℕ) :
    (d.cancel h finishedAt).row = d.row.cancel finishedAt := rfl

end JobData

theorem decodeStatus_asStr (status : JobStatus) : decodeStatus status.asStr = .ok status := by
  cases status <;> rfl

theorem status_asStr_inj {a b : JobStatus} (h : a.asStr = b.asStr) : a = b := by
  have hdecode := decodeStatus_asStr a
  rw [h, decodeStatus_asStr, Except.ok.injEq] at hdecode
  exact hdecode.symm

theorem decodeId_text {kind : IdKind} (id : Id kind) : decodeId id.text = .ok id := by
  unfold decodeId
  rw [Id.new_text]
  rfl

/-! ## Reads -/

section

variable {json : JobJson} {db db' : JobDb}

theorem decodeTimestamp_natCast (t : ℕ) : decodeTimestamp t = .ok t := by
  unfold decodeTimestamp
  rw [fitsU64_natCast]
  rfl

theorem decodeTimestamps (t : Option ℕ) :
    (t.map fun t : ℕ => (t : ℤ)).mapM decodeTimestamp = Except.ok t := by
  cases t with
  | none => rfl
  | some t => simp [decodeTimestamp_natCast, Functor.map, Except.map]

theorem decodeIds {kind : IdKind} (id : Option (Id kind)) :
    (id.map fun i => i.text).mapM decodeId = Except.ok id := by
  cases id with
  | none => rfl
  | some i => simp [decodeId_text, Functor.map, Except.map]

/-- Reading the row of a job: what can fail is what `serde_json` reads. -/
theorem decodeJob_row (d : JobData) : decodeJob json d.row = (do
    let request ← orError (json.readRequest d.requestJson) .serialization
    let result ← d.resultJson.mapM fun text => orError (json.readValue text) .serialization
    pure ⟨d.id, d.scope, request, d.status, d.createdAt, d.startedAt, d.finishedAt,
      d.workerId, result⟩) := by
  unfold decodeJob JobData.row
  simp only [decodeId_text, ok_bind, decodeStatus_asStr, decodeTimestamp_natCast, decodeTimestamps,
    decodeIds]
  have hvalid := d.valid
  rcases json.readRequest d.requestJson with _ | request
  · rfl
  · rcases hresult : d.resultJson with _ | text
    · rw [hresult] at hvalid
      have hrecord : validateRecord d.status d.startedAt d.finishedAt (none : Option Value) =
          .ok () := hvalid
      simp [orError, hrecord, ok_bind, pure, Except.pure]
    · rw [hresult] at hvalid
      rcases hread : json.readValue text with _ | value
      · simp [orError, hread, Functor.map, Except.map, bind, Except.bind]
      · have hrecord : validateRecord d.status d.startedAt d.finishedAt (some value) = .ok () :=
          hvalid
        simp [orError, hread, Functor.map, Except.map, bind, Except.bind, hrecord]

theorem decodeJob_row_ne (d : JobData) : decodeJob json d.row ≠ .error .corruptRecord := by
  rw [decodeJob_row]
  rcases json.readRequest d.requestJson with _ | request
  · intro h
    cases h
  · rcases d.resultJson with _ | text
    · intro h
      cases h
    · rcases hread : json.readValue text with _ | value
      · simp [orError, hread, Functor.map, Except.map, bind, Except.bind]
      · simp [orError, hread, Functor.map, Except.map, bind, Except.bind, pure, Except.pure]

variable {d : JobData} {job : JobRecord}

theorem decodeJob_row_eq_ok (h : decodeJob json d.row = .ok job) :
    job.id = d.id ∧ job.scope = d.scope ∧ job.status = d.status ∧ job.workerId = d.workerId := by
  rw [decodeJob_row] at h
  simp only [bind_eq_ok, pure_eq_ok] at h
  obtain ⟨request, -, result, -, rfl⟩ := h
  exact ⟨rfl, rfl, rfl, rfl⟩

theorem row_inj {e : JobData} (h : d.row = e.row) : d = e := by
  obtain ⟨id, sequence, scope, requestJson, status, createdAt, startedAt, finishedAt,
    workerId, resultJson, hvalid⟩ := d
  obtain ⟨id', sequence', scope', requestJson', status', createdAt', startedAt',
    finishedAt', workerId', resultJson', hvalid'⟩ := e
  simp only [JobData.row, JobRow.mk.injEq, and_true] at h
  obtain ⟨hid, rfl, hprincipal, htenant, hworkspace, rfl, hstatus, hcreated, hstarted,
    hfinished, hworker, rfl⟩ := h
  obtain rfl := Id.ext_text hid
  obtain rfl := JobScope.ext (Id.ext_text hprincipal) (Id.ext_text htenant) (Id.ext_text hworkspace)
  obtain rfl := status_asStr_inj hstatus
  obtain rfl := Int.ofNat_inj.mp hcreated
  obtain rfl := map_injective (fun _ _ => Int.ofNat_inj.mp) hstarted
  obtain rfl := map_injective (fun _ _ => Int.ofNat_inj.mp) hfinished
  obtain rfl := map_injective (fun _ _ => Id.ext_text) hworker
  rfl

/-- The job stored under an identifier. -/
def Stored (db : JobDb) (d : JobData) : Prop := db.get? d.id.text = some d.row

theorem Stored.unique {e : JobData} (hd : Stored db d) (he : Stored db e) (hid : d.id = e.id) :
    d = e := by
  unfold Stored at hd he
  rw [hid, he, Option.some.injEq] at hd
  exact (row_inj hd).symm

variable {id : JobId}

theorem Stored.ne_of_free (hd : Stored db d) (hfree : db.get? id.text = none) :
    d.id ≠ id := by
  rintro rfl
  unfold Stored at hd
  rw [hfree] at hd
  cases hd

/-- Every row is the row of a job. -/
def Typed (db : JobDb) : Prop := ∀ key row, db.get? key = some row → ∃ d :
    JobData, row = d.row ∧ Stored db d

variable {scope : JobScope}

theorem inScope_row (h : d.row.inScope scope = true) :
    d.scope = scope := by
  unfold JobRow.inScope at h
  rw [decide_eq_true_eq] at h
  obtain ⟨hprincipal, htenant, hworkspace, -⟩ := h
  exact JobScope.ext (Id.ext_text hprincipal) (Id.ext_text htenant) (Id.ext_text hworkspace)

theorem row_inScope (d : JobData) : d.row.inScope d.scope = true := by
  simp [JobRow.inScope, JobData.row]

theorem loadScopedJob_eq_some (htyped : Typed db)
    (h : loadScopedJob json db id scope = .ok (some job)) :
    ∃ d, Stored db d ∧ d.id = id ∧ d.scope = scope ∧ job.id = d.id ∧ job.scope = d.scope ∧
      job.status = d.status ∧ job.workerId = d.workerId := by
  unfold loadScopedJob at h
  rcases hfilter : (db.get? id.text).filter (·.inScope scope) with _ | row
  · rw [hfilter] at h
    cases h
  · rw [hfilter] at h
    obtain ⟨hget, hscope⟩ := Option.filter_eq_some_iff.mp hfilter
    obtain ⟨d, rfl, hstored⟩ := htyped _ _ hget
    have hid : d.id = id := Id.ext_text (Table.get?_eq_some.mp hget).2
    rcases hdecode : decodeJob json d.row with e | job'
    · simp [hdecode, Functor.map, Except.map] at h
    · simp only [mapM_some, hdecode, Functor.map, Except.map, Except.ok.injEq,
        Option.some.injEq] at h
      subst h
      exact ⟨d, hstored, hid, inScope_row hscope, decodeJob_row_eq_ok hdecode⟩

/-! ## What a call does -/

/-- One call, seen through the lookups. -/
inductive Step (db : JobDb) : Call → JobDb → Except JobStoreError Reply → Prop
  | refused {call : Call} (e : JobStoreError) : Step db call db (.error e)
  | idle {scope : JobScope} {workerId : JobWorkerId} {startedAt : ℕ} :
    Step db (.claimNext scope workerId startedAt) db (.ok (.claimed none))
  | submitted {db' : JobDb} {d : JobData} {request : JobRequest} {createdAt : ℕ} {job : JobRecord}
    (hfree : db.get? d.id.text = none) (hstatus : d.status = .queued)
    (hlast : ∀ e, Stored db e → e.sequence < d.sequence)
    (hwrite : Table.Writes db db' d.id.text d.row) :
    Step db (.submit d.id d.scope request createdAt) db' (.ok (.job job))
  | claimed {db' : JobDb} {d : JobData} {workerId : JobWorkerId} {startedAt : ℕ} {job : JobRecord}
    (hstored : Stored db d) (hstatus : d.status = .queued)
    (hfirst : ∀ e, Stored db e → e.scope = d.scope → e.status = .queued → d.sequence ≤ e.sequence)
    (hid : job.id = d.id) (hscope : job.scope = d.scope)
    (hwrite : Table.Writes db db' d.id.text (d.start hstatus workerId startedAt).row) :
    Step db (.claimNext d.scope workerId startedAt) db' (.ok (.claimed (some job)))
  | finished {db' : JobDb} {d : JobData} {workerId : JobWorkerId} {status : JobStatus}
    {result : Value} {finishedAt : ℕ} {resultJson : String} {job : JobRecord}
    (hstored : Stored db d) (hstatus : d.status = .running) (hworker : d.workerId = some workerId)
    (houtcome : status.isOutcome = true)
    (hwrite : Table.Writes db db' d.id.text
      (d.settle hstatus status houtcome finishedAt resultJson).row) :
    Step db (.finish d.id d.scope workerId status result finishedAt) db' (.ok (.job job))
  | interrupted {db' : JobDb} {d : JobData} {reason : String} {finishedAt : ℕ} {resultJson : String}
    {job : JobRecord} (hstored : Stored db d) (hstatus : d.status = .running)
    (hwrite : Table.Writes db db' d.id.text
      (d.settle hstatus .interrupted rfl finishedAt resultJson).row) :
    Step db (.markInterrupted d.id d.scope reason finishedAt) db' (.ok (.job job))
  | cancelled {db' : JobDb} {d : JobData} {finishedAt : ℕ} {job : JobRecord} (hstored : Stored db d)
    (hstatus : d.status = .queued)
    (hwrite : Table.Writes db db' d.id.text (d.cancel hstatus finishedAt).row) :
    Step db (.cancel d.id d.scope finishedAt) db' (.ok (.job job))

/-- An `UPDATE` on the row of a job that it selects. -/
theorem updateJob_writes {p : JobRow → Bool} {f : JobRow → JobRow}
    {hf : ∀ row, (f row).id = row.id} (hstored : Stored db d) (hp : p d.row = true) :
    Table.Writes db (updateJob db d.id d.scope p f hf) d.id.text (f d.row) := by
  refine Table.writes_update (fun row h => (of_decide_eq_true h).1) hstored ?_
  exact decide_eq_true ⟨rfl, row_inScope d, hp⟩

/-- A transaction that fails leaves the table, one that succeeds leaves its own. -/
theorem transact_step {α : Type} {call : Call} {reply : α → Reply}
    {result : Except JobStoreError (JobDb × α)}
    (h : ∀ db' a, result = .ok (db', a) → Step db call db' (.ok (reply a))) :
    Step db call (transact db reply result).1 (transact db reply result).2 := by
  rcases result with e | ⟨db', a⟩
  · exact .refused e
  · exact h db' a rfl

theorem row_status {status : JobStatus} :
    d.row.status = status.asStr ↔ d.status = status := by
  constructor
  · intro h
    exact status_asStr_inj h
  · rintro rfl
    rfl

theorem Stored.mem (h : Stored db d) : d.row ∈ db := (Table.get?_eq_some.mp h).1

theorem lt_of_checkedSucc {sequence : ℤ}
    (h : checkedSucc ((latestSequence db).getD 0) = some sequence)
    (hd : Stored db d) : d.sequence < sequence := by
  unfold checkedSucc at h
  split_ifs at h with hfits
  rw [Option.some.injEq] at h
  have hmem : d.sequence ∈ db.rows.map JobRow.submissionSequence :=
    List.mem_map.mpr ⟨d.row, hd.mem, rfl⟩
  rcases hmax : latestSequence db with _ | latest
  · unfold latestSequence at hmax
    rw [List.max?_eq_none_iff] at hmax
    rw [hmax] at hmem
    cases hmem
  · have hle := (List.max?_eq_some_iff.mp hmax).2 d.sequence hmem
    rw [hmax, getD_some] at h
    omega

theorem submit_step {request : JobRequest} {createdAt : ℕ}
    (h : submit json db id scope request createdAt = .ok (db', job)) :
    Step db (.submit id scope request createdAt) db' (.ok (.job job)) := by
  unfold submit toI64 at h
  simp only [bind_eq_ok, orError_eq_ok, ensure_eq_ok, fitsI64_eq_some, pure_eq_ok] at h
  obtain ⟨requestJson, -, sequence, hsequence, _, ⟨-, rfl⟩, ⟨⟩, -, db'', hinsert, heq⟩ := h
  cases heq
  let d : JobData :=
    ⟨id, sequence, scope, requestJson, .queued, createdAt, none, none, none, none, rfl⟩
  have hfree : db.get? d.id.text = none := Table.get?_eq_none.mpr (Table.insert?_eq_some hinsert).1
  have hwrite : Table.Writes db db' d.id.text d.row := Table.get?_insert? hinsert
  exact .submitted hfree rfl (fun e he => lt_of_checkedSucc hsequence he) hwrite

theorem nextQueued_eq_some (htyped : Typed db) {row : JobRow} (h : nextQueued db scope = some row) :
    ∃ d, row = d.row ∧ Stored db d ∧ d.scope = scope ∧ d.status = .queued ∧
      ∀ e, Stored db e → e.scope = scope → e.status = .queued → d.sequence ≤ e.sequence := by
  obtain ⟨hmem, hleast⟩ := Table.firstBy_eq_some h
  rw [List.mem_filter, decide_eq_true_eq] at hmem
  obtain ⟨hrow, hscope, hqueued⟩ := hmem
  obtain ⟨d, rfl, hstored⟩ := htyped row.id row (Table.get?_eq_some.mpr ⟨hrow, rfl⟩)
  refine ⟨d, rfl, hstored, inScope_row hscope, row_status.mp hqueued, fun e he hes heq => ?_⟩
  have hrow' : e.row ∈ db.rows.filter fun row => row.inScope scope ∧ row.status = "queued" := by
    rw [List.mem_filter, decide_eq_true_eq]
    refine ⟨he.mem, ?_, ?_⟩
    · rw [← hes]; exact row_inScope e
    · exact row_status.mpr heq
  exact hleast e.row hrow'

theorem Typed.writes (h : Typed db) (hwrite : Table.Writes db db' d.id.text d.row) :
    Typed db' := by
  intro key row hget
  by_cases hkey : key = d.id.text
  · subst hkey
    rw [hwrite.same, Option.some.injEq] at hget
    exact ⟨d, hget.symm, hwrite.same⟩
  · rw [hwrite.other hkey] at hget
    obtain ⟨e, rfl, he⟩ := h key row hget
    have hid : e.id.text = key := (Table.get?_eq_some.mp hget).2
    refine ⟨e, rfl, ?_⟩
    unfold Stored
    rw [hid, hwrite.other hkey]
    exact hget

theorem claimNext_step (htyped : Typed db) {workerId : JobWorkerId}
    {startedAt : ℕ} {job : Option JobRecord}
    (h : claimNext json db scope workerId startedAt = .ok (db', job)) :
    Step db (.claimNext scope workerId startedAt) db' (.ok (.claimed job)) := by
  unfold claimNext at h
  rcases hnext : nextQueued db scope with _ | row
  · rw [hnext] at h
    cases h
    exact .idle
  · rw [hnext] at h
    obtain ⟨d, rfl, hstored, rfl, hstatus, hfirst⟩ := nextQueued_eq_some htyped hnext
    have hid : decodeId d.row.id = .ok d.id := decodeId_text d.id
    unfold claimRow toI64 at h
    simp only [hid, ok_bind, bind_eq_ok, orError_eq_ok, ensure_eq_ok, fitsI64_eq_some,
      pure_eq_ok] at h
    obtain ⟨⟨db'', job'⟩, ⟨_, ⟨-, rfl⟩, ⟨⟩, -, _, hload, _, rfl, heq⟩, heq'⟩ := h
    cases heq
    cases heq'
    have hqueued : d.row.status = "queued" := row_status.mpr hstatus
    have hwrite : Table.Writes db (updateJob db d.id d.scope (fun row => row.status = "queued")
        (.start workerId startedAt) fun _ => rfl) d.id.text
          (d.start hstatus workerId startedAt).row := by
      rw [d.start_row]
      exact updateJob_writes hstored (decide_eq_true hqueued)
    have htyped' := htyped.writes (d := d.start hstatus workerId startedAt) hwrite
    obtain ⟨e, -, hid', hscope, hjob, hjobScope, -⟩ := loadScopedJob_eq_some htyped' hload
    exact .claimed hstored hstatus hfirst (hjob.trans hid') (hjobScope.trans hscope) hwrite

variable {finishedAt : ℕ}

theorem finish_step (htyped : Typed db) {workerId : JobWorkerId}
    {status : JobStatus} {result : Value}
    (h : finish json db id scope workerId status result finishedAt = .ok (db', job)) :
    Step db (.finish id scope workerId status result finishedAt) db' (.ok (.job job)) := by
  unfold finish toI64 at h
  simp only [bind_eq_ok, orError_eq_ok, ensure_eq_ok, fitsI64_eq_some, pure_eq_ok] at h
  obtain ⟨⟨⟩, houtcome, resultJson, -, _, hload, current, rfl, ⟨⟩, hrunning, ⟨⟩, hworker, _,
    ⟨-, rfl⟩, heq⟩ := h
  cases heq
  obtain ⟨d, hstored, rfl, rfl, -, -, hstatus, hcurrent⟩ := loadScopedJob_eq_some htyped hload
  rw [hrunning] at hstatus
  rw [hworker] at hcurrent
  have hselected : d.row.workerId = some workerId.text ∧ d.row.status = "running" := by
    refine ⟨?_, row_status.mpr hstatus.symm⟩
    rw [show d.row.workerId = d.workerId.map (·.text) from rfl, ← hcurrent]
    rfl
  have hwrite : Table.Writes db (updateJob db d.id d.scope
      (fun row => row.workerId = some workerId.text ∧ row.status = "running")
      (.settle status finishedAt resultJson) fun _ => rfl) d.id.text
      (d.row.settle status finishedAt resultJson) :=
        updateJob_writes hstored (decide_eq_true hselected)
  rw [← d.settle_row hstatus.symm status houtcome] at hwrite
  exact .finished hstored hstatus.symm hcurrent.symm houtcome hwrite

theorem markInterrupted_step (htyped : Typed db) {reason : String}
    (h : markInterrupted json db id scope reason finishedAt = .ok (db', job)) :
    Step db (.markInterrupted id scope reason finishedAt) db' (.ok (.job job)) := by
  unfold markInterrupted toI64 at h
  simp only [bind_eq_ok, orError_eq_ok, ensure_eq_ok, fitsI64_eq_some, pure_eq_ok] at h
  obtain ⟨_, hload, current, rfl, ⟨⟩, hrunning, resultJson, -, _, ⟨-, rfl⟩, heq⟩ := h
  cases heq
  obtain ⟨d, hstored, rfl, rfl, -, -, hstatus, -⟩ := loadScopedJob_eq_some htyped hload
  rw [hrunning] at hstatus
  have hselected : d.row.status = "running" := row_status.mpr hstatus.symm
  have hwrite : Table.Writes db (updateJob db d.id d.scope (fun row => row.status = "running")
      (.settle .interrupted finishedAt resultJson) fun _ => rfl) d.id.text
      (d.row.settle .interrupted finishedAt resultJson) :=
    updateJob_writes hstored (decide_eq_true hselected)
  rw [← d.settle_row hstatus.symm .interrupted rfl] at hwrite
  exact .interrupted hstored hstatus.symm hwrite

theorem cancel_step (htyped : Typed db) (h : cancel json db id scope finishedAt = .ok (db', job)) :
    Step db (.cancel id scope finishedAt) db' (.ok (.job job)) := by
  unfold cancel toI64 at h
  simp only [bind_eq_ok, orError_eq_ok, ensure_eq_ok, fitsI64_eq_some, pure_eq_ok] at h
  obtain ⟨_, hload, current, rfl, ⟨⟩, hqueued, _, ⟨-, rfl⟩, heq⟩ := h
  cases heq
  obtain ⟨d, hstored, rfl, rfl, -, -, hstatus, -⟩ := loadScopedJob_eq_some htyped hload
  rw [hqueued] at hstatus
  have hselected : d.row.status = "queued" := row_status.mpr hstatus.symm
  refine .cancelled hstored hstatus.symm ?_
  rw [d.cancel_row]
  exact updateJob_writes hstored (decide_eq_true hselected)

/-- **What a call does.** -/
theorem exec_step (json : JobJson) (htyped : Typed db) (call : Call) :
    Step db call (exec json db call).1 (exec json db call).2 := by
  cases call with
  | submit id scope request createdAt => exact transact_step fun db' job h => submit_step h
  | claimNext scope workerId startedAt =>
    exact transact_step fun db' job h => claimNext_step htyped h
  | finish id scope workerId status result finishedAt =>
    exact transact_step fun db' job h => finish_step htyped h
  | markInterrupted id scope reason finishedAt =>
    exact transact_step fun db' job h => markInterrupted_step htyped h
  | cancel id scope finishedAt => exact transact_step fun db' job h => cancel_step htyped h

end

end Pandora.Jobs.Steps
