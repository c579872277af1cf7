import Pandora.Subagents.Steps

/-! # Rows that can be read back

A row is written with any receipt, and read with checks on the text and the time of the receipt, and
on the columns that the status asks for. A row that passes them (`Kept`) is decoded, and stays such
a row under every call, if the receipts pass the checks they are read with, the results are not
nested deeper than the reader goes, and the worktree of a subagent that was never started is not
recorded as removed. -/

namespace Pandora.Subagents.ReadBack

open Ids Lib.Checked Lib.Tables Option
open Jobs.Store (Value interruptedResult)
open Subagents.Store Subagents.Steps

/-! ### What `serde_json` does -/

mutual

/-- How deep arrays and objects are nested in a value. -/
def depth : Value → ℕ
  | .array values => depthAll values + 1
  | .object fields => depthFields fields + 1
  | _ => 0

def depthAll : List Value → ℕ
  | [] => 0
  | value :: values => max (depth value) (depthAll values)

def depthFields : List (String × Value) → ℕ
  | [] => 0
  | (_, value) :: fields => max (depth value) (depthFields fields)

end

/-- The nesting at which `serde_json` gives up reading. -/
def recursionLimit : ℕ := 128

def outcomeText : EffectOutcome → String
  | .succeeded => ""
  | .failed code => code
  | .denied reason => reason

/-- What is relied on of `serde_json`: it reads what it has written, values up to its recursion
limit, and takes at most six bytes for a byte of a text. -/
structure Faithful (json : SubagentJson) : Prop where
  request : ∀ request text, json.writeRequest request = some text →
    json.readRequest text = some request
  receipt : ∀ wire text, wire.completedAt < 2 ^ 64 → json.writeReceipt wire = some text →
    json.readReceipt text = some wire
  receiptBytes : ∀ wire text, wire.completedAt < 2 ^ 64 → json.writeReceipt wire = some text →
    text.utf8ByteSize ≤ 256 + 6 * (wire.receiptId.utf8ByteSize + wire.permitId.utf8ByteSize +
      wire.requestDigest.utf8ByteSize + (outcomeText wire.outcome).utf8ByteSize)
  value : ∀ value bytes text, depth value < recursionLimit →
    json.jobs.writeValue value = some bytes → String.fromUTF8? bytes = some text →
    (json.jobs.readValue text).isSome

variable {json : SubagentJson} {db db' : SubagentDb} {id : SubagentId} {scope : SubagentScope}
  {now : ℕ} {record : SubagentRecord} {receipt : EffectReceipt} {row : SubagentRow}

/-! ### Receipts -/

/-- The receipt passes the checks it is read with. -/
def Storable (receipt : EffectReceipt) : Prop :=
  receipt.completedAt < 2 ^ 63 ∧ (receipt.outcome ≠ .succeeded →
    validateEffectOutcomeText (outcomeText receipt.outcome) = .ok ())

instance (receipt : EffectReceipt) : Decidable (Storable receipt) :=
  inferInstanceAs (Decidable (_ ∧ (_ → _)))

theorem Storable.textBytes (h : Storable receipt) :
    (outcomeText receipt.outcome).utf8ByteSize ≤ maxEffectOutcomeTextBytes := by
  by_cases houtcome : receipt.outcome = .succeeded
  · rw [houtcome]
    exact Nat.zero_le _
  · have htext := h.2 houtcome
    unfold validateEffectOutcomeText at htext
    rw [ensure_eq_ok] at htext
    exact htext.2.1

/-- **A receipt that passes the checks is read as it was written.** -/
theorem decodeReceipt_encodeReceipt {text : String} (hjson : Faithful json)
    (hstorable : Storable receipt) (h : encodeReceipt json receipt = .ok text) :
    decodeReceipt json text = .ok receipt := by
  unfold encodeReceipt at h
  rw [orError_eq_ok] at h
  have htime : receipt.completedAt < 2 ^ 64 := lt_trans hstorable.1 (by decide)
  have hread := hjson.receipt _ _ htime h
  have hbytes := hjson.receiptBytes _ _ htime h
  have htext := hstorable.textBytes
  have hreceiptId := receipt.receiptId.short
  have hpermitId := receipt.permitId.short
  have hdigest := receipt.requestDigest.short
  unfold maxEffectOutcomeTextBytes at htext
  dsimp only at hbytes
  have hsize : text.utf8ByteSize ≤ maxEffectReceiptBytes := by
    unfold maxEffectReceiptBytes
    omega
  have hids : ∀ {kind : IdKind} (id : Id kind),
      (Id.new id.text).mapError SubagentStoreError.invalidIdentifier = .ok id := by
    intro kind id
    rw [mapError_eq_ok]
    exact Id.new_text id
  unfold decodeReceipt
  rw [bind_eq_ok]
  refine ⟨(), ensure_eq_ok.mpr hsize, ?_⟩
  rw [bind_eq_ok]
  refine ⟨_, orError_eq_ok.mpr hread, ?_⟩
  -- the text of the outcome, the time and the identifiers pass
  obtain ⟨receiptId, permitId, requestDigest, completedAt, outcome⟩ := receipt
  have hfits : completedAt < 2 ^ 63 := hstorable.1
  cases outcome with
  | succeeded =>
    simp only [bind_eq_ok, ensure_eq_ok, exists_const, pure_eq_ok, Except.ok.injEq, hids, hfits,
      exists_eq_left', true_and]
  | failed code =>
    have hcode : validateEffectOutcomeText code = .ok () := hstorable.2 (by rintro ⟨⟩)
    simp only [bind_eq_ok, ensure_eq_ok, exists_const, pure_eq_ok, Except.ok.injEq, hids, hfits,
      exists_eq_left', true_and, hcode]
  | denied reason =>
    have hreason : validateEffectOutcomeText reason = .ok () := hstorable.2 (by rintro ⟨⟩)
    simp only [bind_eq_ok, ensure_eq_ok, exists_const, pure_eq_ok, Except.ok.injEq, hids, hfits,
      exists_eq_left', true_and, hreason]

/-- A column with a receipt: it is the text of the receipt, and is read as the receipt. -/
def ReadsBack (json : SubagentJson) : Option String → Option EffectReceipt → Prop
  | none, none => True
  | some text, some receipt =>
    encodeReceipt json receipt = .ok text ∧ decodeReceipt json text = .ok receipt
  | _, _ => False

theorem ReadsBack.mapM {column : Option String} {receipt : Option EffectReceipt}
    (h : ReadsBack json column receipt) :
    column.mapM (decodeReceipt json) = .ok receipt := by
  rcases column with _ | text <;> rcases receipt with _ | receipt
  · rfl
  · cases h
  · cases h
  · rw [mapM_some, map_eq_ok]
    exact ⟨receipt, h.2, rfl⟩

theorem ReadsBack.eq_none {receipt : Option EffectReceipt} (h : ReadsBack json none receipt) :
    receipt = none := by
  cases receipt with
  | none => rfl
  | some receipt => cases h

theorem readsBack_some {text : String} (hjson : Faithful json) (hstorable : Storable receipt)
    (h : encodeReceipt json receipt = .ok text) : ReadsBack json (some text) (some receipt) :=
  ⟨h, decodeReceipt_encodeReceipt hjson hstorable h⟩

theorem readValue_bounded {result : Value} {text : String} (hjson : Faithful json)
    (hdepth : depth result < recursionLimit) (h : boundedResultJson json result = .ok text) :
    ∃ value, (some text).mapM (fun text => orError (json.jobs.readValue text)
      SubagentStoreError.serialization) = .ok (some value) := by
  simp only [boundedResultJson, bind_eq_ok, orError_eq_ok, ensure_eq_ok, exists_const] at h
  obtain ⟨bytes, hbytes, -, htext⟩ := h
  obtain ⟨value, hvalue⟩ := Option.isSome_iff_exists.mp (hjson.value result bytes text hdepth hbytes
    htext)
  refine ⟨value, ?_⟩
  rw [mapM_some, map_eq_ok]
  exact ⟨value, orError_eq_ok.mpr hvalue, rfl⟩

/-! ### Rows -/

/-- What the columns of a row are read as. -/
structure Fields (json : SubagentJson) (row : SubagentRow) (request : SubagentRequest)
    (createReceipt removeReceipt : Option EffectReceipt) (result : Option Value) : Prop where
  readsRequest : json.readRequest row.requestJson = some request
  parents : request.parentSessionId = row.parentSessionId ∧
    request.parentExecutionId = row.parentExecutionId ∧ request.exactCommit = row.exactCommit
  readsCreate : ReadsBack json row.createReceiptJson createReceipt
  readsRemove : ReadsBack json row.removeReceiptJson removeReceipt
  readsResult : row.resultJson.mapM (fun text => orError (json.jobs.readValue text)
    SubagentStoreError.serialization) = .ok result
  lifecycle : lifecycleValid row.status row.worktreeState row.workerId createReceipt row.startedAt
    row.finishedAt result = true
  cleanup : validateCleanupRecord row.status row.worktreeState row.cleanupClaimedAt removeReceipt =
    .ok ()

/-- The row passes all checks, and its receipts are read as they were written. -/
def Kept (json : SubagentJson) (row : SubagentRow) : Prop :=
  ∃ request createReceipt removeReceipt result,
    Fields json row request createReceipt removeReceipt result

theorem Kept.decode (h : Kept json row) : ∃ record, decodeSubagent json row = .ok record := by
  obtain ⟨request, createReceipt, removeReceipt, result, hfields⟩ := h
  unfold decodeSubagent validateSubagentRecord
  simp only [bind_eq_ok, ensure_eq_ok, exists_const, orError_eq_ok, pure_eq_ok]
  exact ⟨_, request, hfields.readsRequest, hfields.parents, createReceipt,
    hfields.readsCreate.mapM, removeReceipt, hfields.readsRemove.mapM, result, hfields.readsResult,
    hfields.lifecycle, (), hfields.cleanup, rfl⟩

/-! ### What the checks say -/

section

variable {worktree : SubagentWorktreeState} {worker : Option JobWorkerId}
  {createReceipt removeReceipt : Option EffectReceipt} {startedAt finishedAt claimedAt : Option ℕ}
  {result : Option Value} {status : SubagentStatus}

theorem lifecycle_preparing (h : lifecycleValid .preparing worktree worker createReceipt startedAt
    finishedAt result = true) :
    worker = none ∧ createReceipt = none ∧ startedAt = none ∧ finishedAt = none ∧
      result = none := by
  simp only [lifecycleValid, Bool.and_eq_true, isNone_iff_eq_none] at h
  obtain ⟨⟨⟨⟨⟨-, hworker⟩, hcreate⟩, hstarted⟩, hfinished⟩, hresult⟩ := h
  exact ⟨hworker, hcreate, hstarted, hfinished, hresult⟩

theorem lifecycle_queued (h : lifecycleValid .queued worktree worker createReceipt startedAt
    finishedAt result = true) :
    worktree = .ready ∧ worker = none ∧ createReceipt.isSome ∧ startedAt = none ∧
      finishedAt = none ∧ result = none := by
  simp only [lifecycleValid, Bool.and_eq_true, isNone_iff_eq_none, decide_eq_true_eq] at h
  obtain ⟨⟨⟨⟨⟨hready, hworker⟩, hcreate⟩, hstarted⟩, hfinished⟩, hresult⟩ := h
  exact ⟨hready, hworker, hcreate, hstarted, hfinished, hresult⟩

theorem lifecycle_running (h : lifecycleValid .running worktree worker createReceipt startedAt
    finishedAt result = true) :
    worktree = .ready ∧ worker.isSome ∧ createReceipt.isSome ∧ startedAt.isSome := by
  simp only [lifecycleValid, Bool.and_eq_true, decide_eq_true_eq] at h
  obtain ⟨⟨⟨⟨⟨hready, hworker⟩, hcreate⟩, hstarted⟩, -⟩, -⟩ := h
  exact ⟨hready, hworker, hcreate, hstarted⟩

theorem lifecycle_settled (hterminal : isTerminalStatus status = true) (hworker : worker.isSome)
    (hcreate : createReceipt.isSome) (hstarted : startedAt.isSome) (hfinished : finishedAt.isSome)
    (hresult : result.isSome) : lifecycleValid status worktree worker createReceipt startedAt
      finishedAt result = true := by
  have hsome : startedAt.isNone = false := by
    rw [← not_isSome, hstarted]
    rfl
  cases status with
  | preparing | queued | running => cases hterminal
  | approvalRequired | completed =>
    simp [lifecycleValid, hworker, hcreate, hstarted, hfinished, hresult]
  | failed | interrupted | cancelled =>
    simp [lifecycleValid, hsome, hworker, hcreate, hstarted, hfinished, hresult]

/-- The worktree may be removed: the subagent was started, or cancelled before. -/
def Removable (startedAt : Option ℕ) (status : SubagentStatus) : Prop :=
  startedAt ≠ none ∨ status = .cancelled

instance (startedAt : Option ℕ) (status : SubagentStatus) :
    Decidable (Removable startedAt status) :=
  inferInstanceAs (Decidable (_ ∨ _))

theorem not_removable (h : status ≠ .cancelled) : ¬ Removable none status :=
  fun hremovable => hremovable.elim (fun hstarted => hstarted rfl) h

theorem lifecycle_worktree {worktree' : SubagentWorktreeState}
    (hterminal : isTerminalStatus status = true)
    (hworktree : worktree' = .preserved ∨ Removable startedAt status)
    (h : lifecycleValid status worktree worker createReceipt startedAt finishedAt result = true) :
    lifecycleValid status worktree' worker createReceipt startedAt finishedAt result = true := by
  cases status with
  | preparing | queued | running => cases hterminal
  | approvalRequired | completed | cancelled => exact h
  | failed | interrupted =>
    rcases startedAt with _ | started
    · obtain rfl := hworktree.resolve_right (not_removable (by rintro ⟨⟩))
      simp only [lifecycleValid, isNone_none, if_true, Bool.and_eq_true] at h ⊢
      obtain ⟨⟨⟨⟨-, hworker⟩, hcreate⟩, hfinished⟩, hresult⟩ := h
      exact ⟨⟨⟨⟨rfl, hworker⟩, hcreate⟩, hfinished⟩, hresult⟩
    · exact h

theorem cleanup_active (hactive : isTerminalStatus status = false)
    (h : validateCleanupRecord status worktree claimedAt removeReceipt = .ok ()) :
    claimedAt = none ∧ removeReceipt = none := by
  unfold validateCleanupRecord at h
  rw [ensure_eq_ok] at h
  rcases claimedAt with _ | claimed <;> rcases removeReceipt with _ | receipt
  · exact ⟨rfl, rfl⟩
  · cases h
  · simp [hactive] at h
  · simp [hactive] at h

theorem cleanup_unclaimed (hclaimed : claimedAt = none) (hworktree : worktree ≠ .removed) :
    validateCleanupRecord status worktree claimedAt none = .ok () := by
  unfold validateCleanupRecord
  rw [ensure_eq_ok, hclaimed]
  exact decide_eq_true hworktree

end

/-! ### Calls -/

def AllKept (json : SubagentJson) (db : SubagentDb) : Prop := ∀ row, Stored db row → Kept json row

/-- What a call has to be given: if it moves the row of its subagent, the receipt passes the checks
it is read with, the worktree of a subagent that was never started is not recorded as removed, and
the result can be read. -/
def InBounds (db : SubagentDb) : Call → Prop
  | .queue id scope receipt _ => ∀ row, db.subagents.get? id = some row →
    row.isPreparing scope = true → receipt.outcome = .succeeded → Storable receipt
  | .failPreparing id scope receipt _ _ => ∀ row, db.subagents.get? id = some row →
    row.isPreparing scope = true → receipt.outcome ≠ .succeeded → Storable receipt
  | .recordCleanup id scope receipt => ∀ row, db.subagents.get? id = some row →
    row.isCleanable scope true = true →
    Storable receipt ∧ (receipt.outcome = .succeeded → Removable row.startedAt row.status)
  | .finish id worker _ result _ => ∀ row, db.subagents.get? id = some row →
    row.status = .running → row.workerId = some worker → row.cancelRequestedAt = none →
    depth result < recursionLimit
  | _ => True

theorem kept_writes {row' : SubagentRow} (h : AllKept json db)
    (hwrite : Table.Writes db.subagents db'.subagents row.id row') (hkept : Kept json row') :
    AllKept json db' := by
  intro other hother
  unfold Stored at hother
  by_cases hid : other.id = row.id
  · rw [hid, hwrite.same, Option.some.injEq] at hother
    rwa [← hother]
  · rw [hwrite.other hid] at hother
    exact h other hother

theorem isPreparing_eq_true (h : row.isPreparing scope = true) : row.status = .preparing := by
  unfold SubagentRow.isPreparing at h
  exact (of_decide_eq_true h).2.1

theorem kept_prepare {input : SubagentPreparation} (hjson : Faithful json) (h : AllKept json db)
    (hok : prepare json db input = .ok (db', record)) : AllKept json db' := by
  simp only [prepare, bind_eq_ok, orError_eq_ok, ensure_eq_ok, exists_const, pure_eq_ok,
    Prod.mk.injEq] at hok
  obtain ⟨repositoryPath, -, worktreePath, -, requestJson, hwritten, createdAt, -, -, subagents,
    hinsert, rfl, -⟩ := hok
  refine kept_writes h (Table.get?_insert? hinsert) ⟨input.request, none, none, none, ?_⟩
  exact {
    readsRequest := hjson.request _ _ hwritten
    parents := ⟨rfl, rfl, rfl⟩
    readsCreate := trivial
    readsRemove := trivial
    readsResult := rfl
    lifecycle := rfl
    cleanup := rfl }

theorem preparing_fields (h : Kept json row) (hpreparing : row.isPreparing scope = true) :
    ∃ request, Fields json row request none none none ∧ row.workerId = none ∧
      row.startedAt = none ∧ row.finishedAt = none ∧ row.cleanupClaimedAt = none := by
  obtain ⟨request, createReceipt, removeReceipt, result, hfields⟩ := h
  have hlifecycle := hfields.lifecycle
  have hcleanup := hfields.cleanup
  rw [isPreparing_eq_true hpreparing] at hlifecycle hcleanup
  obtain ⟨hworker, rfl, hstarted, hfinished, rfl⟩ := lifecycle_preparing hlifecycle
  obtain ⟨hclaimed, rfl⟩ := cleanup_active rfl hcleanup
  exact ⟨request, hfields, hworker, hstarted, hfinished, hclaimed⟩

theorem queued_fields (h : Kept json row) (hqueued : row.status = .queued) :
    ∃ request receipt, Fields json row request (some receipt) none none ∧
      row.worktreeState = .ready ∧ row.workerId = none ∧ row.startedAt = none ∧
      row.finishedAt = none ∧ row.cleanupClaimedAt = none := by
  obtain ⟨request, createReceipt, removeReceipt, result, hfields⟩ := h
  have hlifecycle := hfields.lifecycle
  have hcleanup := hfields.cleanup
  rw [hqueued] at hlifecycle hcleanup
  obtain ⟨hready, hworker, hcreate, hstarted, hfinished, rfl⟩ := lifecycle_queued hlifecycle
  obtain ⟨hclaimed, rfl⟩ := cleanup_active rfl hcleanup
  obtain ⟨receipt, rfl⟩ := Option.isSome_iff_exists.mp hcreate
  exact ⟨request, receipt, hfields, hready, hworker, hstarted, hfinished, hclaimed⟩

theorem running_fields (h : Kept json row) (hrunning : row.status = .running) :
    ∃ request receipt result, Fields json row request (some receipt) none result ∧
      row.worktreeState = .ready ∧ row.workerId.isSome ∧ row.startedAt.isSome ∧
      row.cleanupClaimedAt = none := by
  obtain ⟨request, createReceipt, removeReceipt, result, hfields⟩ := h
  have hlifecycle := hfields.lifecycle
  have hcleanup := hfields.cleanup
  rw [hrunning] at hlifecycle hcleanup
  obtain ⟨hready, hworker, hcreate, hstarted⟩ := lifecycle_running hlifecycle
  obtain ⟨hclaimed, rfl⟩ := cleanup_active rfl hcleanup
  obtain ⟨receipt, rfl⟩ := Option.isSome_iff_exists.mp hcreate
  exact ⟨request, receipt, result, hfields, hready, hworker, hstarted, hclaimed⟩

theorem kept_queue (hjson : Faithful json) (h : AllKept json db)
    (hbounds : InBounds db (.queue id scope receipt now))
    (hok : queue json db id scope receipt now = .ok (db', record)) : AllKept json db' := by
  simp only [queue, toI64, bind_eq_ok, orError_eq_ok, ensure_eq_ok, exists_const, fitsI64_eq_some,
    pure_eq_ok, Prod.mk.injEq] at hok
  obtain ⟨hsucceeded, receiptJson, hreceipt, _, hload, current, rfl, -, jobRequest, -, requestJson,
    -, sequence, -, _, ⟨-, rfl⟩, -, jobs, -, subagents, hupdate, rfl, -⟩ := hok
  obtain ⟨row, hget, -, -⟩ := loadScopedSubagent_eq_some hload
  obtain ⟨rfl, hstored⟩ := stored_of_get hget
  obtain ⟨hpreparing, hwrite⟩ := updateSubagent_eq_ok hupdate hget
  have hstorable := hbounds row hget hpreparing hsucceeded
  obtain ⟨request, hfields, hworker, hstarted, hfinished, hclaimed⟩ :=
    preparing_fields (h row hstored) hpreparing
  refine kept_writes h hwrite ⟨request, some receipt, none, none, ?_⟩
  exact { hfields with
    readsCreate := readsBack_some hjson hstorable hreceipt
    lifecycle := by
      dsimp only
      rw [hworker, hstarted, hfinished]
      rfl
    cleanup := cleanup_unclaimed hclaimed (by rintro ⟨⟩) }

theorem leftWorktree_cases (preserve : Bool) :
    leftWorktree preserve = .preserved ∨ leftWorktree preserve = .pending := by
  cases preserve
  · exact Or.inr rfl
  · exact Or.inl rfl

theorem leftWorktree_ne_removed (preserve : Bool) : leftWorktree preserve ≠ .removed := by
  rcases leftWorktree_cases preserve with hleft | hleft
  all_goals
    rw [hleft]
    nofun

theorem kept_failPreparing {preserve : Bool} (hjson : Faithful json) (h : AllKept json db)
    (hbounds : InBounds db (.failPreparing id scope receipt preserve now))
    (hok : failPreparing json db id scope receipt preserve now = .ok (db', record)) :
    AllKept json db' := by
  simp only [failPreparing, toI64, bind_eq_ok, orError_eq_ok, ensure_eq_ok, exists_const,
    fitsI64_eq_some, pure_eq_ok, Prod.mk.injEq] at hok
  obtain ⟨hfailed, receiptJson, hreceipt, resultJson, hresult, _, hload, current, rfl, -, _,
    ⟨-, rfl⟩, subagents, hupdate, rfl, -⟩ := hok
  obtain ⟨row, hget, -, -⟩ := loadScopedSubagent_eq_some hload
  obtain ⟨rfl, hstored⟩ := stored_of_get hget
  obtain ⟨hpreparing, hwrite⟩ := updateSubagent_eq_ok hupdate hget
  have hstorable := hbounds row hget hpreparing hfailed
  obtain ⟨request, hfields, hworker, hstarted, -, hclaimed⟩ :=
    preparing_fields (h row hstored) hpreparing
  obtain ⟨value, hvalue⟩ := readValue_bounded hjson (by decide) hresult
  refine kept_writes h hwrite ⟨request, some receipt, none, some value, ?_⟩
  exact { hfields with
    readsCreate := readsBack_some hjson hstorable hreceipt
    readsResult := hvalue
    lifecycle := by
      dsimp only
      rw [hworker, hstarted]
      rcases leftWorktree_cases preserve with hleft | hleft
      all_goals simp [lifecycleValid, hleft, hfailed]
    cleanup := cleanup_unclaimed hclaimed (leftWorktree_ne_removed preserve) }

theorem kept_interruptPreparing {preserve : Bool} {reason : String} (hjson : Faithful json)
    (h : AllKept json db)
    (hok : interruptPreparing json db id scope preserve reason now = .ok (db', record)) :
    AllKept json db' := by
  simp only [interruptPreparing, toI64, bind_eq_ok, orError_eq_ok, ensure_eq_ok, exists_const,
    fitsI64_eq_some, pure_eq_ok, Prod.mk.injEq] at hok
  obtain ⟨resultJson, hresult, _, hload, current, rfl, -, _, ⟨-, rfl⟩, subagents, hupdate, rfl,
    -⟩ := hok
  obtain ⟨row, hget, -, -⟩ := loadScopedSubagent_eq_some hload
  obtain ⟨rfl, hstored⟩ := stored_of_get hget
  obtain ⟨hpreparing, hwrite⟩ := updateSubagent_eq_ok hupdate hget
  obtain ⟨request, hfields, hworker, hstarted, -, hclaimed⟩ :=
    preparing_fields (h row hstored) hpreparing
  have hshallow : depth (.object [("code", .string "worktree_create_interrupted"),
      ("outcome_known", .bool false), ("reason", .string reason)]) < recursionLimit := by
    simp [depth, depthFields, recursionLimit]
  obtain ⟨value, hvalue⟩ := readValue_bounded hjson hshallow hresult
  refine kept_writes h hwrite ⟨request, none, none, some value, ?_⟩
  exact { hfields with
    readsResult := hvalue
    lifecycle := by
      dsimp only
      rw [hworker, hstarted]
      rcases leftWorktree_cases preserve with hleft | hleft
      all_goals simp [lifecycleValid, hleft]
    cleanup := cleanup_unclaimed hclaimed (leftWorktree_ne_removed preserve) }

theorem isCleanable_worktree {claimed : Bool} (h : row.isCleanable scope claimed = true) :
    row.worktreeState = .ready ∨ row.worktreeState = .preserved := by
  unfold SubagentRow.isCleanable at h
  exact (of_decide_eq_true h).2.2.1

theorem kept_claimCleanup (h : AllKept json db)
    (hok : claimCleanup json db id scope now = .ok (db', record)) : AllKept json db' := by
  simp only [claimCleanup, toI64, bind_eq_ok, orError_eq_ok, ensure_eq_ok, exists_const,
    fitsI64_eq_some, pure_eq_ok, Prod.mk.injEq] at hok
  obtain ⟨_, hload, current, rfl, -, _, ⟨-, rfl⟩, subagents, hupdate, rfl, -⟩ := hok
  obtain ⟨row, hget, -, -⟩ := loadScopedSubagent_eq_some hload
  obtain ⟨rfl, hstored⟩ := stored_of_get hget
  obtain ⟨hcleanable, hwrite⟩ := updateSubagent_eq_ok hupdate hget
  obtain ⟨hterminal, -, hfirst⟩ := isCleanable_eq_true hcleanable
  have hworktree := isCleanable_worktree hcleanable
  obtain ⟨request, createReceipt, removeReceipt, result, hfields⟩ := h row hstored
  have hremove := hfields.readsRemove
  rw [hfirst] at hremove
  obtain rfl := hremove.eq_none
  refine kept_writes h hwrite ⟨request, createReceipt, none, result, ?_⟩
  exact { hfields with
    cleanup := by
      unfold validateCleanupRecord
      rw [ensure_eq_ok]
      rcases hworktree with hready | hpreserved
      · simp [hterminal, hready]
      · simp [hterminal, hpreserved] }

theorem kept_recordCleanup (hjson : Faithful json) (h : AllKept json db)
    (hbounds : InBounds db (.recordCleanup id scope receipt))
    (hok : recordCleanup json db id scope receipt = .ok (db', record)) : AllKept json db' := by
  simp only [recordCleanup, bind_eq_ok, orError_eq_ok, ensure_eq_ok, exists_const, pure_eq_ok,
    Prod.mk.injEq] at hok
  obtain ⟨receiptJson, hreceipt, _, hload, current, rfl, -, subagents, hupdate, rfl, -⟩ := hok
  obtain ⟨row, hget, -, -⟩ := loadScopedSubagent_eq_some hload
  obtain ⟨rfl, hstored⟩ := stored_of_get hget
  obtain ⟨hcleanable, hwrite⟩ := updateSubagent_eq_ok hupdate hget
  obtain ⟨hterminal, hclaimed, -⟩ := isCleanable_eq_true hcleanable
  obtain ⟨claimed, hclaimed⟩ := Option.isSome_iff_exists.mp hclaimed
  obtain ⟨hstorable, hremovable⟩ := hbounds row hget hcleanable
  obtain ⟨request, createReceipt, removeReceipt, result, hfields⟩ := h row hstored
  refine kept_writes h hwrite ⟨request, createReceipt, some receipt, result, ?_⟩
  exact { hfields with
    readsRemove := readsBack_some hjson hstorable hreceipt
    lifecycle := by
      refine lifecycle_worktree hterminal ?_ hfields.lifecycle
      by_cases hsucceeded : receipt.outcome = .succeeded
      · exact Or.inr (hremovable hsucceeded)
      · exact Or.inl (if_neg hsucceeded)
    cleanup := by
      unfold validateCleanupRecord
      rw [ensure_eq_ok]
      by_cases hsucceeded : receipt.outcome = .succeeded
      · simp [hclaimed, hterminal, hsucceeded]
      · simp [hclaimed, hterminal, hsucceeded] }

theorem kept_claimNext {worker : JobWorkerId} {claimed : Option SubagentRecord}
    (h : AllKept json db) (hok : claimNext json db scope worker now = .ok (db', claimed)) :
    AllKept json db' := by
  unfold claimNext at hok
  rcases hnext : nextQueued db scope with _ | row
  · rw [hnext] at hok
    cases hok
    exact h
  · rw [hnext] at hok
    simp only [toI64, bind_eq_ok, orError_eq_ok, fitsI64_eq_some, pure_eq_ok, Prod.mk.injEq] at hok
    obtain ⟨_, -, current, rfl, _, ⟨-, rfl⟩, jobs, -, subagents, hupdate, rfl, rfl⟩ := hok
    obtain ⟨hstored, -, -⟩ := nextQueued_eq_some hnext
    obtain ⟨hqueued, hwrite⟩ := updateSubagent_eq_ok hupdate hstored
    obtain ⟨request, receipt, hfields, hready, -, -, hfinished, hclaimed⟩ :=
      queued_fields (h row hstored) (of_decide_eq_true hqueued)
    refine kept_writes h hwrite ⟨request, some receipt, none, none, ?_⟩
    exact { hfields with
      lifecycle := by
        dsimp only
        rw [hready, hfinished]
        rfl
      cleanup := cleanup_unclaimed hclaimed (by rw [hready]; rintro ⟨⟩) }

theorem kept_requestCancel (h : AllKept json db)
    (hok : requestCancel json db id scope now = .ok (db', record)) : AllKept json db' := by
  simp only [requestCancel, bind_eq_ok, orError_eq_ok] at hok
  obtain ⟨_, hload, current, rfl, hok⟩ := hok
  obtain ⟨row, hget, -, hread⟩ := loadScopedSubagent_eq_some hload
  obtain ⟨rfl, hstored⟩ := stored_of_get hget
  rw [hread.status] at hok
  split at hok
  · rename_i hstatus
    simp only [cancelQueued, toI64, bind_eq_ok, orError_eq_ok, fitsI64_eq_some, pure_eq_ok,
      Prod.mk.injEq] at hok
    obtain ⟨_, ⟨-, rfl⟩, jobs, -, subagents, hupdate, rfl, -⟩ := hok
    rw [hread.id] at hupdate
    obtain ⟨-, hwrite⟩ := updateSubagent_eq_ok hupdate hget
    obtain ⟨request, receipt, hfields, hready, hworker, hstarted, -, hclaimed⟩ :=
      queued_fields (h row hstored) hstatus
    refine kept_writes h hwrite ⟨request, some receipt, none, none, ?_⟩
    exact { hfields with
      lifecycle := by
        dsimp only
        rw [hworker, hstarted]
        rfl
      cleanup := cleanup_unclaimed hclaimed (by rw [hready]; rintro ⟨⟩) }
  · simp only [cancelRunning, toI64, bind_eq_ok, orError_eq_ok, fitsI64_eq_some, pure_eq_ok,
      Prod.mk.injEq] at hok
    obtain ⟨_, ⟨-, rfl⟩, subagents, hupdate, rfl, -⟩ := hok
    rw [hread.id] at hupdate
    obtain ⟨-, hwrite⟩ := updateSubagent_eq_ok hupdate hget
    obtain ⟨request, createReceipt, removeReceipt, result, hfields⟩ := h row hstored
    exact kept_writes h hwrite ⟨request, createReceipt, removeReceipt, result, { hfields with }⟩
  · cases hok

/-- A running subagent that ends, with a result that can be read. -/
theorem kept_ended {status : SubagentStatus} {resultJson : String} {value : Value}
    (h : Kept json row) (hrunning : row.status = .running)
    (hterminal : isTerminalStatus status = true)
    (hvalue : (some resultJson).mapM (fun text => orError (json.jobs.readValue text)
      SubagentStoreError.serialization) = .ok (some value)) :
    Kept json { row with
      status := status, finishedAt := some now, resultJson := some resultJson } := by
  obtain ⟨request, receipt, old, hfields, hready, hworker, hstarted, hclaimed⟩ :=
    running_fields h hrunning
  refine ⟨request, some receipt, none, some value, ?_⟩
  exact { hfields with
    readsResult := hvalue
    lifecycle := lifecycle_settled hterminal hworker rfl hstarted rfl rfl
    cleanup := cleanup_unclaimed hclaimed (by rw [hready]; rintro ⟨⟩) }

theorem kept_finish {worker : JobWorkerId} {status : SubagentStatus} {result : Value}
    (hjson : Faithful json) (h : AllKept json db)
    (hbounds : InBounds db (.finish id worker status result now))
    (hok : finish json db id worker status result now = .ok (db', record)) : AllKept json db' := by
  simp only [finish, toI64, bind_eq_ok, orError_eq_ok, ensure_eq_ok, exists_const, fitsI64_eq_some,
    pure_eq_ok, Prod.mk.injEq] at hok
  obtain ⟨houtcome, _, hload, current, rfl, -, -, resultJson, hresult, _, ⟨-, rfl⟩, jobs, -,
    subagents, hupdate, rfl, -⟩ := hok
  obtain ⟨row, hget, hread⟩ := loadSubagent_eq_some hload
  obtain ⟨rfl, hstored⟩ := stored_of_get hget
  obtain ⟨hselected, hwrite⟩ := updateSubagent_eq_ok hupdate hget
  obtain ⟨hrunning, hworker⟩ := of_decide_eq_true hselected
  have hdepth : depth (terminalOutcome current status result).2 < recursionLimit := by
    unfold terminalOutcome
    split_ifs with hcancel
    · decide
    · rw [hread.cancelRequestedAt, not_isSome_iff_eq_none] at hcancel
      exact hbounds row hget hrunning hworker hcancel
  obtain ⟨value, hvalue⟩ := readValue_bounded hjson hdepth hresult
  have hterminal : isTerminalStatus (terminalOutcome current status result).1 = true :=
    isTerminal_of_isOutcome (isOutcome_terminalOutcome houtcome)
  exact kept_writes h hwrite (kept_ended (h row hstored) hrunning hterminal hvalue)

theorem kept_markInterrupted {reason : String} (hjson : Faithful json) (h : AllKept json db)
    (hok : markInterrupted json db id scope reason now = .ok (db', record)) :
    AllKept json db' := by
  simp only [markInterrupted, toI64, bind_eq_ok, orError_eq_ok, ensure_eq_ok, exists_const,
    fitsI64_eq_some, pure_eq_ok, Prod.mk.injEq] at hok
  obtain ⟨_, hload, current, rfl, -, resultJson, hresult, _, ⟨-, rfl⟩, jobs, -, subagents, hupdate,
    rfl, -⟩ := hok
  obtain ⟨row, hget, -, -⟩ := loadScopedSubagent_eq_some hload
  obtain ⟨rfl, hstored⟩ := stored_of_get hget
  obtain ⟨hselected, hwrite⟩ := updateSubagent_eq_ok hupdate hget
  have hshallow : depth (interruptedResult reason current.workerId) < recursionLimit := by
    unfold interruptedResult
    rcases current.workerId with _ | worker
    all_goals simp [depth, depthFields, recursionLimit]
  obtain ⟨value, hvalue⟩ := readValue_bounded hjson hshallow hresult
  exact kept_writes h hwrite (kept_ended (h row hstored) (of_decide_eq_true hselected) rfl hvalue)

/-! ### Runs -/

theorem kept_transact {α : Type} {reply : α → Reply}
    {result : Except SubagentStoreError (SubagentDb × α)} (h : AllKept json db)
    (hok : ∀ db' a, result = .ok (db', a) → AllKept json db') :
    AllKept json (transact db reply result).1 := by
  rcases result with e | ⟨db', a⟩
  · exact h
  · exact hok db' a rfl

theorem kept_exec {call : Call} (hjson : Faithful json) (hbounds : InBounds db call)
    (h : AllKept json db) : AllKept json (exec json db call).1 := by
  cases call with
  | prepare input => exact kept_transact h fun _ _ => kept_prepare hjson h
  | queue id scope receipt now => exact kept_transact h fun _ _ => kept_queue hjson h hbounds
  | failPreparing id scope receipt preserve now =>
    exact kept_transact h fun _ _ => kept_failPreparing hjson h hbounds
  | interruptPreparing id scope preserve reason now =>
    exact kept_transact h fun _ _ => kept_interruptPreparing hjson h
  | claimCleanup id scope now => exact kept_transact h fun _ _ => kept_claimCleanup h
  | recordCleanup id scope receipt =>
    exact kept_transact h fun _ _ => kept_recordCleanup hjson h hbounds
  | claimNext scope worker now => exact kept_transact h fun _ _ => kept_claimNext h
  | requestCancel id scope now => exact kept_transact h fun _ _ => kept_requestCancel h
  | finish id worker status result now =>
    exact kept_transact h fun _ _ => kept_finish hjson h hbounds
  | markInterrupted id scope reason now =>
    exact kept_transact h fun _ _ => kept_markInterrupted hjson h
  | job call => exact h

theorem kept_empty : AllKept json .empty := by
  intro row hstored
  cases hstored

/-- The columns with receipts hold texts of receipts, which are read as these receipts. -/
def ReceiptsReadBack (json : SubagentJson) (row : SubagentRow) : Prop :=
  ∀ text, row.createReceiptJson = some text ∨ row.removeReceiptJson = some text →
    ∃ receipt, encodeReceipt json receipt = .ok text ∧ decodeReceipt json text = .ok receipt

theorem ReadsBack.of_some {text : String} {receipt : Option EffectReceipt}
    (h : ReadsBack json (some text) receipt) :
    ∃ receipt, encodeReceipt json receipt = .ok text ∧ decodeReceipt json text = .ok receipt := by
  cases receipt with
  | none => cases h
  | some receipt => exact ⟨receipt, h⟩

theorem Kept.receipts (h : Kept json row) : ReceiptsReadBack json row := by
  obtain ⟨request, createReceipt, removeReceipt, result, hfields⟩ := h
  rintro text (hcreate | hremove)
  · exact (hcreate ▸ hfields.readsCreate).of_some
  · exact (hremove ▸ hfields.readsRemove).of_some

theorem loads_of_kept {selected : Option SubagentRow}
    (h : ∀ row, selected = some row → Kept json row) :
    ∃ loaded, loadSubagent json selected = .ok loaded := by
  cases selected with
  | none => exact ⟨none, rfl⟩
  | some row =>
    obtain ⟨record, hrecord⟩ := (h row rfl).decode
    refine ⟨some record, ?_⟩
    unfold loadSubagent
    rw [mapM_some, map_eq_ok]
    exact ⟨record, mapError_eq_ok.mpr hrecord, rfl⟩

def sampleRequest : SubagentRequest :=
  ⟨.ofLiteral "session-1", .ofLiteral "execution-1", 1, "0123456789abcdef0123456789abcdef01234567",
    "task", ⟨8, 8, 4096, 60, 1, 1024⟩, none, none⟩

def sampleReceipt (completedAt : ℕ) (outcome : EffectOutcome) : EffectReceipt :=
  ⟨.ofLiteral "receipt-1", .ofLiteral "permit-1", .ofLiteral "digest-1", completedAt, outcome⟩

def sampleScope : SubagentScope :=
  ⟨.ofLiteral "principal-1", .ofLiteral "tenant-1", .ofLiteral "workspace-1"⟩

def sampleInput : SubagentPreparation :=
  ⟨.ofLiteral "subagent-1", .ofLiteral "job-1", sampleScope, .ofLiteral "child-session",
    .ofLiteral "child-execution", sampleRequest, ⟨"/repository".toUTF8⟩, ⟨"/worktree".toUTF8⟩, none,
    none, 1⟩

/-- A receipt as `serde_json` writes it, if its text needs no escapes. -/
def receiptText (wire : EffectReceiptWire) : String :=
  "\x7b\"receipt_id\":\"" ++ wire.receiptId ++ "\",\"permit_id\":\"" ++ wire.permitId ++
    "\",\"request_digest\":\"" ++ wire.requestDigest ++ "\",\"completed_at\":" ++
    toString wire.completedAt ++ ",\"outcome\":" ++ (match wire.outcome with
      | .succeeded => "\x7b\"status\":\"succeeded\"\x7d"
      | .failed code => "\x7b\"status\":\"failed\",\"code\":\"" ++ code ++ "\"\x7d"
      | .denied reason => "\x7b\"status\":\"denied\",\"reason\":\"" ++ reason ++ "\"\x7d") ++ "\x7d"

/-- The receipts of the samples. -/
def sampleWires : List EffectReceiptWire :=
  [⟨"receipt-1", "permit-1", "digest-1", 2, .succeeded⟩,
    ⟨"receipt-1", "permit-1", "digest-1", 2, .failed "no_space"⟩,
    ⟨"receipt-1", "permit-1", "digest-1", 2, .failed ""⟩,
    ⟨"receipt-1", "permit-1", "digest-1", 2 ^ 63, .failed "no_space"⟩]

/-- The results of the samples, with their texts. -/
def sampleValues : List (Value × String) :=
  [(.null, "null"),
    (.object [("code", .string "worktree_create_failed"), ("outcome_known", .bool true)],
      "\x7b\"code\":\"worktree_create_failed\",\"outcome_known\":true\x7d")]

def requestText : String :=
  "\x7b\"parent_session_id\":\"session-1\",\"parent_execution_id\":\"execution-1\"," ++
  "\"delegation_depth\":1,\"exact_commit\":\"0123456789abcdef0123456789abcdef01234567\"," ++
  "\"task\":\"task\",\"budgets\":\x7b\"max_turns\":8,\"max_tool_calls\":8,\"max_tokens\":4096," ++
  "\"max_duration_seconds\":60,\"max_delegation_depth\":1,\"max_result_bytes\":1024\x7d\x7d"

def jobRequestText : String := "\x7b\"command\":\"run\",\"arguments\":[\"task\"]\x7d"

/-- What `serde_json` writes and reads of the samples. -/
def sampleCodec : SubagentJson where
  jobs := {
    writeRequest := fun request =>
      if request.arguments = ["task"] then some jobRequestText else none
    readRequest := fun text =>
      if text = jobRequestText then (Jobs.Store.JobRequest.new .run ["task"]).toOption else none
    writeValue := fun value => (sampleValues.find? (·.1 = value)).map (·.2.toUTF8)
    readValue := fun text => (sampleValues.find? (·.2 = text)).map (·.1) }
  writeRequest request := if request = sampleRequest then some requestText else none
  readRequest text := if text = requestText then some sampleRequest else none
  writeReceipt wire := if wire ∈ sampleWires then some (receiptText wire) else none
  readReceipt text := sampleWires.find? (receiptText · = text)

theorem readRequest_sampleCodec (text : String) :
    sampleCodec.readRequest text = if text = requestText then some sampleRequest else none := rfl

theorem readValue_sampleCodec (text : String) :
    sampleCodec.jobs.readValue text = (sampleValues.find? (·.2 = text)).map (·.1) := rfl

theorem readReceipt_sampleCodec (text : String) :
    sampleCodec.readReceipt text = sampleWires.find? (receiptText · = text) := rfl

theorem writeReceipt_sampleCodec {wire : EffectReceiptWire} {text : String}
    (h : sampleCodec.writeReceipt wire = some text) :
    wire ∈ sampleWires ∧ receiptText wire = text := by
  change (if wire ∈ sampleWires then some (receiptText wire) else none) = some text at h
  split_ifs at h with hsample
  exact ⟨hsample, Option.some.inj h⟩

theorem sampleWires_read : ∀ wire ∈ sampleWires,
    sampleWires.find? (receiptText · = receiptText wire) = some wire := by decide +kernel

theorem sampleWires_bytes : ∀ wire ∈ sampleWires, (receiptText wire).utf8ByteSize ≤ 256 +
    6 * (wire.receiptId.utf8ByteSize + wire.permitId.utf8ByteSize +
      wire.requestDigest.utf8ByteSize + (outcomeText wire.outcome).utf8ByteSize) := by
  decide +kernel

theorem sampleValues_read : ∀ sample ∈ sampleValues,
    (String.fromUTF8? sample.2.toUTF8).all (fun text =>
      ((sampleValues.find? (·.2 = text)).map (·.1)).isSome) = true := by decide +kernel

theorem sampleCodec_faithful : Faithful sampleCodec where
  request := by
    intro request text h
    change (if request = sampleRequest then some requestText else none) = some text at h
    split_ifs at h with hsample
    rw [readRequest_sampleCodec, if_pos (Option.some.inj h).symm, hsample]
  receipt := by
    intro wire text _ h
    obtain ⟨hsample, rfl⟩ := writeReceipt_sampleCodec h
    rw [readReceipt_sampleCodec]
    exact sampleWires_read wire hsample
  receiptBytes := by
    intro wire text _ h
    obtain ⟨hsample, rfl⟩ := writeReceipt_sampleCodec h
    exact sampleWires_bytes wire hsample
  value := by
    intro value bytes text _ h htext
    obtain ⟨sample, hfind, rfl⟩ := Option.map_eq_some_iff.mp h
    have hread := sampleValues_read sample (List.mem_of_find?_eq_some hfind)
    rw [htext, all_some] at hread
    rwa [readValue_sampleCodec]

instance (db : SubagentDb) : (call : Call) → Decidable (InBounds db call)
  | .prepare _ => isTrue trivial
  | .queue id scope receipt _ => inferInstanceAs (Decidable (∀ row ∈ db.subagents.get? id,
    row.isPreparing scope = true → receipt.outcome = .succeeded → Storable receipt))
  | .failPreparing id scope receipt _ _ => inferInstanceAs (Decidable (∀ row ∈ db.subagents.get? id,
    row.isPreparing scope = true → receipt.outcome ≠ .succeeded → Storable receipt))
  | .interruptPreparing .. => isTrue trivial
  | .claimCleanup .. => isTrue trivial
  | .recordCleanup id scope receipt => inferInstanceAs (Decidable (∀ row ∈ db.subagents.get? id,
    row.isCleanable scope true = true →
    Storable receipt ∧ (receipt.outcome = .succeeded → Removable row.startedAt row.status)))
  | .claimNext .. => isTrue trivial
  | .requestCancel .. => isTrue trivial
  | .finish id worker _ result _ => inferInstanceAs (Decidable (∀ row ∈ db.subagents.get? id,
    row.status = .running → row.workerId = some worker → row.cancelRequestedAt = none →
    depth result < recursionLimit))
  | .markInterrupted .. => isTrue trivial
  | .job _ => isTrue trivial

/-- A subagent that is queued, claimed, finished and cleaned up, the removal of its worktree
failing. -/
def finishedCalls : List Call :=
  [.prepare sampleInput, .queue sampleInput.id sampleScope (sampleReceipt 2 .succeeded) 2,
    .claimNext sampleScope (.ofLiteral "worker-1") 3,
    .finish sampleInput.id (.ofLiteral "worker-1") .completed .null 4,
    .claimCleanup sampleInput.id sampleScope 5,
    .recordCleanup sampleInput.id sampleScope (sampleReceipt 2 (.failed "no_space"))]

/-- A preparation that fails with the given receipt. -/
def failedCalls (receipt : EffectReceipt) : List Call :=
  [.prepare sampleInput, .failPreparing sampleInput.id sampleScope receipt true 3]

/-- A preparation that fails, and whose worktree is preserved and then removed. -/
def removedCalls : List Call :=
  failedCalls (sampleReceipt 2 (.failed "no_space")) ++ [.claimCleanup sampleInput.id sampleScope 4,
    .recordCleanup sampleInput.id sampleScope (sampleReceipt 2 .succeeded)]

/-- All calls are accepted. -/
def accepted (calls : List Call) : Bool :=
  (List.range calls.length).all fun k => calls[k]?.all fun call =>
    ((store sampleCodec).answer (dbAfter sampleCodec (calls.take k)) call).isOk

/-- No subagent can be read. -/
def unreadable (calls : List Call) : Bool :=
  (dbAfter sampleCodec calls).subagents.rows.all
    (fun row => !(decodeSubagent sampleCodec row).isOk) &&
    !(loadSubagentById sampleCodec (dbAfter sampleCodec calls) sampleInput.id).isOk

end Pandora.Subagents.ReadBack
