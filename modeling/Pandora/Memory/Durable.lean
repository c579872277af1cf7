import Pandora.Memory.Store

/-! # Durable memory

Any calls in any order, with arbitrary times. `Step` says what one call does to the tables and which
record it stores or which identifier it revokes. From it, by induction over the run, the tables are
those of the records that were stored and the identifiers that were revoked (`Kept`). -/

namespace Pandora.Memory.Durable

open Ids Lib.Checked Lib.Tables Lib.Runs List Bool
open Context.Fragments (ContextClassification)
open Memory.Sop (MemoryIntent)
open Memory.Records Memory.Store
open Sessions.Journal (Session)
open MemoryTier MemoryRecord

variable (ext : Externals)

/-! ## The store as a machine -/

inductive Call
  | recordMemory (principalId : PrincipalId) (record : MemoryRecord)
  | recordL1Evidence (principalId : PrincipalId) (record : MemoryRecord)
  | recordEvaluationFeedback (session : Session) (principalId : PrincipalId) (provider : String)
      (evaluation : EvaluationReceipt)
  | promoteMemory (principalId : PrincipalId) (scope : MemoryScope) (memoryId : MemoryId)
      (approval : MemoryApproval) (promotedAt : ℕ)
  | revokeMemory (principalId : PrincipalId) (scope : MemoryScope) (memoryId : MemoryId)
      (revokedAt : ℕ)
  | compactRevokedMemory (principalId : PrincipalId) (scope : MemoryScope) (revokedBeforeOrAt : ℕ)

/-- What a call has done: the record it stored, the identifier it revoked, the rows it deleted. -/
inductive Reply
  | stored (record : Option MemoryRecord)
  | revoked (identity : IdentityKey)
  | compacted (deleted : ℕ)

def perform (db : MemoryDb) : Call → Except SessionError (MemoryDb × Reply)
  | .recordMemory principalId record => do
    pure (← recordMemory ext db principalId record, .stored (some record))
  | .recordL1Evidence principalId record => do
    pure (← recordL1Evidence ext db principalId record, .stored (some record))
  | .recordEvaluationFeedback session principalId provider evaluation => do
    let (db, record) ← recordEvaluationFeedback ext db session principalId provider evaluation
    pure (db, .stored record)
  | .promoteMemory principalId scope memoryId approval promotedAt => do
    let (db, promoted) ← promoteMemory ext db principalId scope memoryId approval promotedAt
    pure (db, .stored (some promoted))
  | .revokeMemory principalId scope memoryId revokedAt => do
    pure (← revokeMemory ext db principalId scope memoryId revokedAt,
      .revoked (scopeIdentity scope memoryId))
  | .compactRevokedMemory principalId scope revokedBeforeOrAt => do
    let (db, deleted) ← compactRevokedMemory db principalId scope revokedBeforeOrAt
    pure (db, .compacted deleted)

/-- A refused call leaves the tables. -/
def exec (db : MemoryDb) (call : Call) : MemoryDb × Except SessionError Reply :=
  match perform ext db call with
  | .ok (db, reply) => (db, .ok reply)
  | .error error => (db, .error error)

def store : Machine MemoryDb Call (Except SessionError Reply) := ⟨exec ext⟩

/-- The answers of a run, in their order. -/
def answers : MemoryDb → List Call → List (Except SessionError Reply)
  | _, [] => []
  | db, call :: calls => (exec ext db call).2 :: answers (exec ext db call).1 calls

def storedBy : Except SessionError Reply → Option MemoryRecord
  | .ok (.stored record) => record
  | _ => none

def revokedBy : Except SessionError Reply → Option IdentityKey
  | .ok (.revoked identity) => some identity
  | _ => none

section

variable (sessions : Table Session.id)

/-- The tables after a run. -/
def dbAfter (calls : List Call) : MemoryDb := (store ext).run (.new sessions) calls

/-- The records that were recorded or promoted, in their order. -/
def everStored (calls : List Call) : List MemoryRecord :=
  (answers ext (.new sessions) calls).filterMap storedBy

def everRevoked (calls : List Call) : List IdentityKey :=
  (answers ext (.new sessions) calls).filterMap revokedBy

theorem answers_snoc (calls : List Call) (call : Call) (db : MemoryDb) :
    answers ext db (calls ++ [call]) =
      answers ext db calls ++ [(exec ext ((store ext).run db calls) call).2] := by
  induction calls generalizing db with
  | nil => rfl
  | cons first rest ih =>
    rw [cons_append, answers, ih, answers, cons_append]
    rfl

theorem everStored_snoc (calls : List Call) (call : Call) :
    everStored ext sessions (calls ++ [call]) = everStored ext sessions calls ++
      (storedBy (exec ext (dbAfter ext sessions calls) call).2).toList := by
  unfold everStored dbAfter
  rw [answers_snoc, filterMap_append]
  congr 1

theorem everRevoked_snoc (calls : List Call) (call : Call) :
    everRevoked ext sessions (calls ++ [call]) = everRevoked ext sessions calls ++
      (revokedBy (exec ext (dbAfter ext sessions calls) call).2).toList := by
  unfold everRevoked dbAfter
  rw [answers_snoc, filterMap_append]
  congr 1

end

/-! ## Reading back a row -/

def identityOf (record : MemoryRecord) : IdentityKey := scopeIdentity record.scope record.id

def stored (record : MemoryRecord) : MemoryRow := rowOf ext record record.createdAt

@[simp] theorem stored_identity (record : MemoryRecord) :
    (stored ext record).identity = identityOf record := rfl

@[simp] theorem stored_tier (record : MemoryRecord) :
    (stored ext record).tier = record.tier.asStr := rfl

/-- The record as it is read back: its intent is set. -/
def readBack (record : MemoryRecord) : MemoryRecord :=
  record.withIntent record.effectiveIntent

variable {ext}

variable {record : MemoryRecord}

theorem approval_none (htier : record.tier ≠ .l2) :
    record.approval = none := by
  have happroved := record.wellFormed.approved
  rcases happroval : record.approval with _ | approval
  · rfl
  · rw [happroval] at happroved
    exact absurd (happroved.mp rfl) htier

theorem approval_columns (htier : record.tier ≠ .l2) :
    plainRow (stored ext record) = .ok () := by
  have hnone := approval_none htier
  refine ensure_eq_ok.mpr ⟨?_, ?_⟩
  all_goals
    show record.approval.map _ = none
    rw [hnone]
    rfl

theorem newL1WithOrigin_self (hkind : record.kind.canBeL1 = true) :
    ∃ made, newL1WithOrigin record.id.text record.kind record.scope record.summary
        record.classification record.createdAt record.provenance record.origin record.evidenceIds =
      .ok made ∧ record.Matches .l1 made :=
  @newWithOrigin_self record .l1 hkind ⟨by rintro ⟨⟩, fun _ => rfl, fun _ => rfl⟩

theorem explicit_of_tier (h1 : record.tier ≠ .l1) (h2 : record.tier ≠ .l2) :
    record.origin = .explicit ∧ record.evidenceIds = [] := by
  have horigin : record.origin = .explicit := by
    rcases horigin : record.origin with _ | _
    · rfl
    · rcases record.wellFormed.derived horigin with h | h
      · exact absurd h h1
      · exact absurd h h2
  refine ⟨horigin, ?_⟩
  by_contra hevidence
  rw [record.wellFormed.origin.mpr hevidence] at horigin
  cases horigin

theorem newL3Sop_self (htier : record.tier = .l3) :
    ∃ made, newL3Sop record.id.text record.scope record.summary record.classification
      record.createdAt record.provenance = .ok made ∧ record.Matches .l3 made := by
  have hfits := record.wellFormed.kind
  rw [htier] at hfits
  have hkind : record.kind = .sop := of_decide_eq_true hfits
  obtain ⟨horigin, hevidence⟩ := @explicit_of_tier record (by rw [htier]; decide)
    (by rw [htier]; decide)
  have hplain : record.origin = .synthesized → l3 = l1 := by
    intro hsynthesized
    rw [horigin] at hsynthesized
    cases hsynthesized
  obtain ⟨made, hmade, hmatches⟩ :=
    record.newWithOrigin_self hfits ⟨by rintro ⟨⟩, hplain, fun _ => rfl⟩
  refine ⟨made, ?_, hmatches⟩
  rw [← hmade]
  unfold newL3Sop
  simp only [hkind, horigin, hevidence]

theorem newL4Archive_self (htier : record.tier = .l4) :
    ∃ made, newL4Archive record.id.text record.scope record.summary
      record.classification record.createdAt record.provenance = .ok made ∧
        record.Matches .l4 made := by
  have hfits := record.wellFormed.kind
  rw [htier] at hfits
  have hkind : record.kind = .sessionArchive := of_decide_eq_true hfits
  obtain ⟨horigin, hevidence⟩ := @explicit_of_tier record (by rw [htier]; decide)
    (by rw [htier]; decide)
  have hplain : record.origin = .synthesized → l4 = l1 := by
    intro hsynthesized
    rw [horigin] at hsynthesized
    cases hsynthesized
  obtain ⟨made, hmade, hmatches⟩ :=
    record.newWithOrigin_self hfits ⟨by rintro ⟨⟩, hplain, fun _ => rfl⟩
  refine ⟨made, ?_, hmatches⟩
  rw [← hmade]
  unfold newL4Archive
  simp only [hkind, horigin, hevidence]

theorem approval_self (approval : MemoryApproval) :
    MemoryApproval.new approval.approvalId approval.approver = .ok approval := by
  have hid := approval.canonical.1.validText "approval ID"
  have happrover := approval.canonical.2.validText "approver"
  unfold MemoryApproval.new
  split
  · rename_i error herror
    rw [hid] at herror
    cases herror
  · rename_i approvalId hok
    rw [hid] at hok
    obtain rfl := Except.ok.inj hok
    split
    · rename_i error herror
      rw [happrover] at herror
      cases herror
    · rename_i approver hok'
      rw [happrover] at hok'
      obtain rfl := Except.ok.inj hok'
      rfl

variable {tier : MemoryTier}

theorem matches_self {made : MemoryRecord} (htier : record.tier = tier)
    (happroval : record.approval = none) (hlasting : record.expiresAt = none)
    (h : record.Matches tier made) :
    made.toRecordData = { record.toRecordData with intent := none } := by
  rw [h.data, ← htier, ← happroval, ← hlasting]

theorem decodeTier_stored (htier : record.tier ≠ .l0) :
    ∃ made, decodeTier record.scope (stored ext record) record.tier record.kind
        record.classification record.createdAt record.origin record.evidenceIds = .ok made ∧
      made.toRecordData = { record.toRecordData with intent := none } := by
  have hlasting := record.wellFormed.lasting htier
  have hfits := record.wellFormed.kind
  rcases hrecord : record.tier with _ | _ | _ | _ | _
  · exact absurd hrecord htier
  · have hplain : record.tier ≠ .l2 := by rw [hrecord]; decide
    rw [hrecord] at hfits
    obtain ⟨made, hmade, hmatches⟩ := newL1WithOrigin_self hfits
    refine ⟨made, ?_, matches_self hrecord (approval_none hplain) hlasting hmatches⟩
    exact bind_eq_ok.mpr ⟨(), approval_columns hplain, mapError_eq_ok.mpr hmade⟩
  · rw [hrecord] at hfits
    obtain ⟨made, hmade, hmatches⟩ :=
      newL1WithOrigin_self (MemoryKind.canBeL1_of_canBeL2 hfits)
    obtain ⟨approval, happroval⟩ : ∃ approval, record.approval = some approval :=
      Option.isSome_iff_exists.mp (record.wellFormed.approved.mpr hrecord)
    have hpromoted : ∃ promoted, made.promoteL2 approval record.createdAt = .ok promoted ∧
        promoted.toRecordData = { record.toRecordData with intent := none } := by
      have hdata := hmatches.data
      have hcandidate : made.tier = .l1 ∧ made.kind.canBeL2 = true := by
        rw [hdata]
        exact ⟨rfl, hfits⟩
      unfold promoteL2
      rw [dif_pos hcandidate]
      refine ⟨_, rfl, ?_⟩
      show ({ made.toRecordData with
        tier := .l2
        createdAt := record.createdAt
        expiresAt := none
        approval := some approval } : RecordData) = _
      rw [hdata, ← hrecord, ← happroval, ← hlasting]
    obtain ⟨promoted, hpromote, hsame⟩ := hpromoted
    refine ⟨promoted, ?_, hsame⟩
    have hid : (stored ext record).approvalId = some approval.approvalId := by
      show record.approval.map _ = _
      rw [happroval]
      rfl
    have happrover : (stored ext record).approver = some approval.approver := by
      show record.approval.map _ = _
      rw [happroval]
      rfl
    refine bind_eq_ok.mpr ⟨_, orError_eq_ok.mpr hid, ?_⟩
    refine bind_eq_ok.mpr ⟨_, orError_eq_ok.mpr happrover, ?_⟩
    refine bind_eq_ok.mpr ⟨_, mapError_eq_ok.mpr (approval_self approval), ?_⟩
    refine bind_eq_ok.mpr ⟨_, mapError_eq_ok.mpr hmade, ?_⟩
    exact mapError_eq_ok.mpr hpromote
  · have hplain : record.tier ≠ .l2 := by rw [hrecord]; decide
    obtain ⟨made, hmade, hmatches⟩ := newL3Sop_self hrecord
    refine ⟨made, ?_, matches_self hrecord (approval_none hplain) hlasting hmatches⟩
    exact bind_eq_ok.mpr ⟨(), approval_columns hplain, mapError_eq_ok.mpr hmade⟩
  · have hplain : record.tier ≠ .l2 := by rw [hrecord]; decide
    obtain ⟨made, hmade, hmatches⟩ := newL4Archive_self hrecord
    refine ⟨made, ?_, matches_self hrecord (approval_none hplain) hlasting hmatches⟩
    exact bind_eq_ok.mpr ⟨(), approval_columns hplain, mapError_eq_ok.mpr hmade⟩

theorem decode_stored (htier : record.tier ≠ .l0) :
    decodeMemoryRecord ext record.scope (stored ext record) = .ok (readBack record) := by
  obtain ⟨made, hmade, hdata⟩ := @decodeTier_stored ext record htier
  unfold decodeMemoryRecord
  refine bind_eq_ok.mpr ⟨_, parseMemoryTier_asStr record.tier, ?_⟩
  refine bind_eq_ok.mpr ⟨_, parseMemoryKind_asStr record.kind, ?_⟩
  refine bind_eq_ok.mpr ⟨_, parseContextClassification_asStr record.wellFormed.open', ?_⟩
  refine bind_eq_ok.mpr ⟨_, orError_eq_ok.mpr (fitsU64_natCast record.createdAt), ?_⟩
  refine bind_eq_ok.mpr ⟨_, parseMemoryOrigin_asStr record.origin, ?_⟩
  refine bind_eq_ok.mpr ⟨_, orError_eq_ok.mpr (ext.parse_text record.evidenceIds), ?_⟩
  refine bind_eq_ok.mpr ⟨_, hmade, ?_⟩
  refine bind_eq_ok.mpr ⟨_, parseMemoryIntent_text record.effectiveIntent, ?_⟩
  refine congrArg Except.ok (ext_data ?_)
  show { made.toRecordData with intent := some record.effectiveIntent } = _
  rw [hdata]
  rfl

/-! ## What a call does -/

/-- The entry of a record that is stored. -/
def entryOf (record : MemoryRecord) : AuditRow where
  identity := identityOf record
  tier := record.tier.asStr
  action := if record.tier = .l2 then .promoted else .added
  recordedAt := record.createdAt
  approvalId := record.approval.map (·.approvalId)

/-- The session of a scope has its tenant and its workspace. -/
def Scoped (sessions : Table Session.id) (scope : MemoryScope) : Prop :=
  ∃ session, sessions.get? scope.sessionId = some session ∧ session.tenantId = scope.tenantId ∧
    session.workspaceId = scope.workspaceId

/-- A row of the first tier with the identity. -/
def HasL1 (db : MemoryDb) (identity : IdentityKey) : Prop :=
  ∃ row ∈ db.records, row.identity = identity ∧ row.tier = l1.asStr

/-- There is room for a record: it is below a record of the first tier, or its tier is not full. -/
def Room (db : MemoryDb) (record : MemoryRecord) : Prop :=
  (record.tier = .l2 ∧ HasL1 db (identityOf record)) ∨ (record.tier ≠ .l2 ∧ record.tier ≠ .l0 ∧
      tierCount db record.scope record.tier < maxMemoryRecordsPerScopeAndTier)

/-- One call: what it leaves, the record it stores and the identity it revokes. -/
inductive Step (ext : Externals) (db : MemoryDb) :
    MemoryDb → Option MemoryRecord → Option IdentityKey → Prop
  | same : Step ext db db none none
  | added {records : Table MemoryRow.key} {record : MemoryRecord}
      (hscope : Scoped db.sessions record.scope)
      (hlive : isRevoked db (identityOf record) = false) (hroom : Room db record)
      (hinsert : db.records.insert? (stored ext record) = some records) :
      Step ext db { db with records, audit := db.audit ++ [entryOf record] } (some record) none
  | revoked {revocations : Table RevocationRow.identity} {identity : IdentityKey} {column : ℤ}
      {entries : List AuditRow} (hentries : ∀ entry ∈ entries, entry.action = .revoked)
      (hinsert : db.revocations.insert? ⟨identity, column⟩ = some revocations) :
      Step ext db { db with revocations, audit := db.audit ++ entries } none (some identity)
  | compacted {p : MemoryRow → Bool} (hrevoked : ∀ row, p row = true → isRevoked db row.identity)
      (hidentity : ∀ row row' : MemoryRow, row.identity = row'.identity → p row = p row') :
      Step ext db { db with records := db.records.delete p } none none

section

variable {db db' : MemoryDb} {record : MemoryRecord} {principalId : PrincipalId}

theorem scoped_of_load {scope : MemoryScope} (h : loadScope db principalId scope = .ok ()) :
    Scoped db.sessions scope := by
  unfold loadScope loadScoped at h
  simp only [bind_eq_ok, orError_eq_ok, ensure_eq_ok] at h
  obtain ⟨session, hsession, -, htenant, hworkspace⟩ := h
  exact ⟨session, hsession, htenant, hworkspace⟩

theorem insertMemoryRecord_eq_ok (h : insertMemoryRecord ext db record = .ok db') :
    ∃ records, db.records.insert? (stored ext record) = some records ∧
      db' = { db with records } := by
  unfold insertMemoryRecord timestampI64 at h
  simp only [bind_eq_ok, orError_eq_ok, fitsI64_eq_some, ensure_eq_ok, pure_eq_ok] at h
  obtain ⟨_, ⟨-, rfl⟩, ⟨⟩, -, records, hinsert, rfl⟩ := h
  exact ⟨records, hinsert, rfl⟩

theorem insertMemoryAudit_eq_ok {action : MemoryAuditAction} {recordedAt : ℕ}
    {approvalId : Option String}
    (h : insertMemoryAudit db record action recordedAt approvalId = .ok db') :
    db' = { db with audit := db.audit ++
      [⟨identityOf record, record.tier.asStr, action, recordedAt, approvalId⟩] } := by
  unfold insertMemoryAudit timestampI64 at h
  simp only [bind_eq_ok, orError_eq_ok, fitsI64_eq_some, pure_eq_ok] at h
  obtain ⟨_, ⟨-, rfl⟩, rfl⟩ := h
  rfl

theorem recordMemoryWithLimit_step {limit : ℕ} {capacityKind : Option MemoryKind}
    (htier : record.tier ≠ .l0 ∧ record.tier ≠ .l2)
    (h : recordMemoryWithLimit ext db principalId record limit capacityKind = .ok db') :
    Step ext db db' (some record) none := by
  unfold recordMemoryWithLimit at h
  simp only [bind_eq_ok, ensure_eq_ok, mapError_eq_ok] at h
  obtain ⟨⟨⟩, hload, ⟨⟩, hlive, ⟨⟩, -, ⟨⟩, hcount, ⟨⟩, -, db₁, hinsert, haudit⟩ := h
  obtain ⟨records, hfree, rfl⟩ := insertMemoryRecord_eq_ok hinsert
  have hentry : entryOf record =
      ⟨identityOf record, record.tier.asStr, .added, record.createdAt, none⟩ := by
    unfold entryOf
    rw [if_neg htier.2, approval_none htier.2]
    rfl
  rw [insertMemoryAudit_eq_ok haudit, ← hentry]
  exact .added (scoped_of_load hload) hlive (Or.inr ⟨htier.2, htier.1, hcount⟩) hfree

theorem recordMemory_step (h : recordMemory ext db principalId record = .ok db') :
    Step ext db db' (some record) none := by
  unfold recordMemory at h
  rw [bind_eq_ok] at h
  obtain ⟨⟨⟩, htier, h⟩ := h
  rw [ensure_eq_ok] at htier
  refine recordMemoryWithLimit_step ?_ h
  rcases htier.1 with h1 | h3 | h4
  · rw [h1]; decide
  · rw [h3]; decide
  · rw [h4]; decide

theorem recordL1Evidence_step (h : recordL1Evidence ext db principalId record = .ok db') :
    Step ext db db' (some record) none := by
  unfold recordL1Evidence at h
  rw [bind_eq_ok] at h
  obtain ⟨⟨⟩, htier, h⟩ := h
  rw [ensure_eq_ok] at htier
  refine recordMemoryWithLimit_step ?_ h
  rw [htier.1]
  decide

theorem recordEvaluationFeedback_step {session : Session} {provider : String}
    {evaluation : EvaluationReceipt} {o : Option MemoryRecord}
    (h : recordEvaluationFeedback ext db session principalId provider evaluation = .ok (db', o)) :
    Step ext db db' o none := by
  unfold recordEvaluationFeedback at h
  rw [bind_eq_ok] at h
  obtain ⟨⟨⟩, -, h⟩ := h
  split_ifs at h with hnone
  · rw [pure_eq_ok] at h
    cases h
    exact .same
  · rw [bind_eq_ok] at h
    obtain ⟨record, -, h⟩ := h
    split at h
    · rename_i db'' hrecord
      cases h
      exact recordMemory_step hrecord
    · cases h
      exact .same
    · cases h

variable {memoryId : MemoryId}

theorem mem_of_loadMemoryRecord {scope : MemoryScope}
    (h : loadMemoryRecord ext db scope memoryId tier = .ok (some record)) :
    ∃ row ∈ db.records, row.identity = scopeIdentity scope memoryId ∧ row.tier = tier.asStr ∧
      decodeMemoryRecord ext scope row = .ok record := by
  unfold loadMemoryRecord at h
  rcases hrow : db.records.get? (scopeIdentity scope memoryId, tier.asStr) with _ | row
  · rw [hrow] at h
    cases h
  · rw [hrow] at h
    obtain ⟨hmem, hkey⟩ := Table.get?_eq_some.mp hrow
    refine ⟨row, hmem, (Prod.ext_iff.mp hkey).1, (Prod.ext_iff.mp hkey).2, ?_⟩
    rcases hdecode : decodeMemoryRecord ext scope row with error | made
    · rw [Option.mapM_some, hdecode] at h
      cases h
    · rw [Option.mapM_some, hdecode] at h
      cases h
      rfl

theorem newWithOrigin_identity {id : String} {kind : MemoryKind}
    {scope : MemoryScope} {summary provenance : String} {classification : ContextClassification}
    {createdAt : ℕ} {expiresAt : Option ℕ} {origin : MemoryOrigin} {evidenceIds : List MemoryId}
    {hplain : tier ≠ .l2 ∧ (origin = .synthesized → tier = .l1) ∧ (tier ≠ .l0 → expiresAt = none)}
    (h : newWithOrigin id tier kind scope summary classification createdAt expiresAt
      provenance origin evidenceIds hplain = .ok record) :
    record.scope = scope ∧ record.id.text = id := by
  unfold newWithOrigin at h
  split at h
  · cases h
  · rename_i checked hchecked
    unfold check at hchecked
    simp only [bind_eq_ok, mapError_eq_ok, pure_eq_ok] at hchecked
    obtain ⟨id', hid, _, -, _, -, _, -, _, -, _, -, _, -, _, -, _, -, rfl⟩ := hchecked
    cases h
    exact ⟨rfl, Id.new_eq_ok hid⟩

theorem decodeTier_identity {scope : MemoryScope} {row : MemoryRow}
    {kind : MemoryKind} {classification : ContextClassification} {createdAt : ℕ}
    {origin : MemoryOrigin} {evidenceIds : List MemoryId}
    (h : decodeTier scope row tier kind classification createdAt origin evidenceIds = .ok record) :
    record.scope = scope ∧ record.id.text = row.memoryId := by
  unfold decodeTier fromColumns at h
  split at h
  case h_1 => cases h
  case h_2 | h_4 | h_5 =>
    simp only [bind_eq_ok, mapError_eq_ok] at h
    obtain ⟨⟨⟩, -, hmade⟩ := h
    exact newWithOrigin_identity hmade
  · simp only [bind_eq_ok, mapError_eq_ok] at h
    obtain ⟨_, -, _, -, approval, -, candidate, hmade, hpromoted⟩ := h
    unfold promoteL2 at hpromoted
    split_ifs at hpromoted with htier
    cases hpromoted
    have hcandidate : candidate.scope = scope ∧ candidate.id.text = row.memoryId :=
      newWithOrigin_identity hmade
    exact hcandidate

theorem decode_identity {scope : MemoryScope} {row : MemoryRow}
    (h : decodeMemoryRecord ext scope row = .ok record) :
    record.scope = scope ∧ record.id.text = row.memoryId := by
  unfold decodeMemoryRecord at h
  simp only [bind_eq_ok, pure_eq_ok] at h
  obtain ⟨_, -, _, -, _, -, _, -, _, -, _, -, made, hmade, _, -, rfl⟩ := h
  have hidentity : made.scope = scope ∧ made.id.text = row.memoryId := decodeTier_identity hmade
  exact hidentity

theorem promoteMemory_step {scope : MemoryScope} {approval : MemoryApproval} {promotedAt : ℕ}
    (h : promoteMemory ext db principalId scope memoryId approval promotedAt = .ok (db', record)) :
    Step ext db db' (some record) none := by
  unfold promoteMemory at h
  simp only [bind_eq_ok, ensure_eq_ok, orError_eq_ok, mapError_eq_ok, pure_eq_ok] at h
  obtain ⟨⟨⟩, hload, ⟨⟩, hlive, _, hcandidate, candidate, rfl, existing, -, ⟨⟩, -, promoted,
    hpromoted, db₁, hinsert, db₂, haudit, heq⟩ := h
  cases heq
  obtain ⟨row, hrow, hidentity, htier, hdecode⟩ := mem_of_loadMemoryRecord hcandidate
  obtain ⟨hscope, hid⟩ := decode_identity hdecode
  have hmemory : candidate.id = memoryId := by
    refine Id.ext_text (hid.trans ?_)
    exact (Prod.ext_iff.mp (Prod.ext_iff.mp hidentity).2).2
  have hsame : identityOf record = scopeIdentity scope memoryId ∧ record.tier = .l2 ∧
      record.createdAt = promotedAt ∧ record.scope = scope := by
    unfold promoteL2 at hpromoted
    split_ifs at hpromoted with hl1
    cases hpromoted
    refine ⟨?_, rfl, rfl, hscope⟩
    show scopeIdentity candidate.scope candidate.id = _
    rw [hscope, hmemory]
  obtain ⟨hrecord, hl2, hcreated, hpromotedScope⟩ := hsame
  obtain ⟨records, hfree, rfl⟩ := insertMemoryRecord_eq_ok hinsert
  have hentry : entryOf record = ⟨identityOf record, record.tier.asStr, .promoted, promotedAt,
      record.approval.map (·.approvalId)⟩ := by
    unfold entryOf
    rw [if_pos hl2, hcreated]
  rw [insertMemoryAudit_eq_ok haudit, ← hentry]
  refine .added ?_ ?_ (Or.inl ⟨hl2, row, hrow, hidentity.trans hrecord.symm, htier⟩) hfree
  · rw [hpromotedScope]
    exact scoped_of_load hload
  · rw [hrecord]
    exact hlive

theorem foldlM_insertMemoryAudit {recordedAt : ℕ} : ∀ {records : List MemoryRecord} {db : MemoryDb},
    records.foldlM (fun db record => insertMemoryAudit db record .revoked recordedAt none) db =
      .ok db' → ∃ entries : List AuditRow, (∀ entry ∈ entries, entry.action = .revoked) ∧
        db' = { db with audit := db.audit ++ entries }
  | [], db, h => by
    rw [foldlM_nil, pure_eq_ok] at h
    subst h
    refine ⟨[], fun _ hentry => absurd hentry not_mem_nil, ?_⟩
    rw [append_nil]
  | record :: records, db, h => by
    rw [foldlM_cons, bind_eq_ok] at h
    obtain ⟨db₁, hfirst, hrest⟩ := h
    obtain ⟨entries, hentries, rfl⟩ := foldlM_insertMemoryAudit hrest
    rw [insertMemoryAudit_eq_ok hfirst]
    refine ⟨⟨identityOf record, record.tier.asStr, .revoked, recordedAt, none⟩ :: entries, ?_, ?_⟩
    · intro entry hentry
      rcases mem_cons.mp hentry with rfl | hentry
      · rfl
      · exact hentries entry hentry
    · rw [append_assoc]
      rfl

theorem revokeMemory_step {scope : MemoryScope} {revokedAt : ℕ}
    (h : revokeMemory ext db principalId scope memoryId revokedAt = .ok db') :
    Step ext db db' none (some (scopeIdentity scope memoryId)) := by
  unfold revokeMemory timestampI64 at h
  simp only [bind_eq_ok, ensure_eq_ok, orError_eq_ok] at h
  obtain ⟨⟨⟩, -, ⟨⟩, -, records, -, ⟨⟩, -, column, -, revocations, hinsert, haudit⟩ := h
  obtain ⟨entries, hentries, rfl⟩ := foldlM_insertMemoryAudit haudit
  exact .revoked hentries hinsert

theorem compactRevokedMemory_step {scope : MemoryScope} {revokedBeforeOrAt deleted : ℕ}
    (h : compactRevokedMemory db principalId scope revokedBeforeOrAt = .ok (db', deleted)) :
    Step ext db db' none none := by
  unfold compactRevokedMemory at h
  simp only [bind_eq_ok, pure_eq_ok] at h
  obtain ⟨⟨⟩, -, column, -, heq⟩ := h
  cases heq
  refine .compacted (fun row hrow => ?_) fun row row' hidentity => ?_
  · unfold compactable at hrow
    rw [and_eq_true] at hrow
    unfold isRevoked
    rcases hrevocation : db.revocations.get? row.identity with _ | revocation
    · rw [hrevocation] at hrow
      cases hrow.2
    · rfl
  · unfold compactable
    rw [hidentity]

/-- **What a call does.** -/
theorem exec_step (db : MemoryDb) (call : Call) :
    Step ext db (exec ext db call).1 (storedBy (exec ext db call).2)
      (revokedBy (exec ext db call).2) := by
  unfold exec
  rcases hperform : perform ext db call with error | ⟨db', reply⟩
  · exact .same
  · dsimp only
    unfold perform at hperform
    cases call with
    | recordMemory principalId record =>
      simp only [bind_eq_ok, pure_eq_ok] at hperform
      obtain ⟨_, h, heq⟩ := hperform
      cases heq
      exact recordMemory_step h
    | recordL1Evidence principalId record =>
      simp only [bind_eq_ok, pure_eq_ok] at hperform
      obtain ⟨_, h, heq⟩ := hperform
      cases heq
      exact recordL1Evidence_step h
    | recordEvaluationFeedback session principalId provider evaluation =>
      simp only [bind_eq_ok, pure_eq_ok] at hperform
      obtain ⟨_, h, heq⟩ := hperform
      cases heq
      exact recordEvaluationFeedback_step h
    | promoteMemory principalId scope memoryId approval promotedAt =>
      simp only [bind_eq_ok, pure_eq_ok] at hperform
      obtain ⟨_, h, heq⟩ := hperform
      cases heq
      exact promoteMemory_step h
    | revokeMemory principalId scope memoryId revokedAt =>
      simp only [bind_eq_ok, pure_eq_ok] at hperform
      obtain ⟨_, h, heq⟩ := hperform
      cases heq
      exact revokeMemory_step h
    | compactRevokedMemory principalId scope revokedBeforeOrAt =>
      simp only [bind_eq_ok, pure_eq_ok] at hperform
      obtain ⟨_, h, heq⟩ := hperform
      cases heq
      exact compactRevokedMemory_step h

end

/-! ## What a run keeps -/

/-- The rows of a scope, by its session and provider, and of a tier. -/
def rowsOf (db : MemoryDb) (sessionId provider tier : String) : List MemoryRow :=
  db.records.rows.filter fun row =>
    row.sessionId = sessionId && row.provider = provider && row.tier = tier

/-- The tables are those of the records that were stored and the identities that were revoked. -/
structure Kept (ext : Externals) (sessions : Table Session.id) (all : List MemoryRecord)
    (revoked : List IdentityKey) (db : MemoryDb) : Prop where
  sameSessions : db.sessions = sessions
  inSession : ∀ record ∈ all, Scoped sessions record.scope ∧ record.tier ≠ .l0
  rows : db.records.rows.Sublist (all.map (stored ext))
  live : ∀ record ∈ all, identityOf record ∉ revoked → stored ext record ∈ db.records
  distinct : (all.map fun record => (stored ext record).key).Nodup
  revocations : ∀ identity, isRevoked db identity = true ↔ identity ∈ revoked
  lower : ∀ row ∈ db.records, row.tier = l2.asStr → HasL1 db row.identity
  room : ∀ sessionId provider tier, tier ≠ l2.asStr →
    (rowsOf db sessionId provider tier).length ≤ maxMemoryRecordsPerScopeAndTier
  audit : db.audit.filter (·.action ≠ .revoked) = all.map entryOf

section

variable {sessions : Table Session.id} {all : List MemoryRecord} {revoked : List IdentityKey}
  {db db' : MemoryDb}

theorem kept_start : Kept ext sessions [] [] (.new sessions) where
  sameSessions := rfl
  inSession _ h := absurd h not_mem_nil
  rows := List.Sublist.refl _
  live _ h := absurd h not_mem_nil
  distinct := nodup_nil
  revocations identity := by simp [isRevoked, MemoryDb.new]
  lower row h := absurd h (Table.not_mem_empty row)
  room _ _ _ _ := Nat.zero_le _
  audit := rfl

theorem rowsOf_eq_tierCount (db : MemoryDb) (scope : MemoryScope) (tier : MemoryTier) :
    (rowsOf db scope.sessionId.text scope.provider tier.asStr).length =
      tierCount db scope tier := by
  unfold rowsOf tierCount inScope
  rw [countP_eq_length_filter]
  rfl

theorem Kept.adds {records : Table MemoryRow.key}
    (h : Kept ext sessions all revoked db) (hscope : Scoped db.sessions record.scope)
    (hlive : isRevoked db (identityOf record) = false) (hroom : Room db record)
    (hinsert : db.records.insert? (stored ext record) = some records) :
    Kept ext sessions (all ++ [record]) revoked
      { db with records, audit := db.audit ++ [entryOf record] } := by
  obtain ⟨hfree, hrows⟩ := Table.insert?_eq_some hinsert
  have hnot : identityOf record ∉ revoked := by
    intro hmem
    rw [(h.revocations _).mpr hmem] at hlive
    cases hlive
  constructor
  · exact h.sameSessions
  · intro other hother
    rcases mem_append.mp hother with hother | hother
    · exact h.inSession other hother
    · rw [mem_singleton.mp hother, ← h.sameSessions]
      refine ⟨hscope, ?_⟩
      rcases hroom with ⟨htier, -⟩ | ⟨-, htier, -⟩
      · rw [htier]
        decide
      · exact htier
  · rw [map_append, map_singleton]
    show records.rows.Sublist _
    rw [hrows]
    exact h.rows.append (List.Sublist.refl _)
  · intro other hother hunrevoked
    refine (Table.mem_insert? hinsert).mpr ?_
    rcases mem_append.mp hother with hother | hother
    · exact Or.inl (h.live other hother hunrevoked)
    · rw [mem_singleton.mp hother]
      exact Or.inr rfl
  · rw [map_append, map_singleton, nodup_append]
    refine ⟨h.distinct, nodup_singleton _, ?_⟩
    rintro key hkey key' hkey' rfl
    obtain ⟨other, hother, hsame⟩ := mem_map.mp hkey
    rw [mem_singleton.mp hkey'] at hsame
    have hidentity : identityOf other = identityOf record := (Prod.ext_iff.mp hsame).1
    refine hfree _ (h.live other hother ?_) hsame
    rw [hidentity]
    exact hnot
  · exact h.revocations
  · intro row hrow htier
    rcases (Table.mem_insert? hinsert).mp hrow with hrow | rfl
    · obtain ⟨lower, hlower, hl1⟩ := h.lower row hrow htier
      exact ⟨lower, (Table.mem_insert? hinsert).mpr (Or.inl hlower), hl1⟩
    · have hl2 : record.tier = .l2 := tier_asStr_inj htier
      rcases hroom with ⟨-, lower, hlower, hl1⟩ | ⟨hother, -⟩
      · exact ⟨lower, (Table.mem_insert? hinsert).mpr (Or.inl hlower), hl1⟩
      · exact absurd hl2 hother
  · intro sessionId provider tier htier
    have hbefore := h.room sessionId provider tier htier
    unfold rowsOf at hbefore ⊢
    dsimp only
    rw [hrows, filter_append, length_append, filter_singleton, cond_eq_ite]
    split_ifs with hrow
    · -- the record is one of this scope and tier, and there was room
      simp only [and_eq_true, decide_eq_true_eq] at hrow
      obtain ⟨⟨rfl, rfl⟩, rfl⟩ := hrow
      rcases hroom with ⟨hl2, -⟩ | ⟨-, -, hcount⟩
      · rw [stored_tier, hl2] at htier
        exact absurd rfl htier
      · rw [← rowsOf_eq_tierCount] at hcount
        exact hcount
    · exact hbefore
  · show (db.audit ++ [entryOf record]).filter _ = _
    have hentry : (entryOf record).action ≠ .revoked := by
      unfold entryOf
      dsimp only
      split_ifs
      · decide
      · decide
    rw [filter_append, h.audit, map_append, filter_singleton,
      cond_eq_ite, if_pos (decide_eq_true hentry)]
    rfl

theorem Kept.revokes {revocations : Table RevocationRow.identity} {identity : IdentityKey}
    {column : ℤ} {entries : List AuditRow} (h : Kept ext sessions all revoked db)
    (hentries : ∀ entry ∈ entries, entry.action = .revoked)
    (hinsert : db.revocations.insert? ⟨identity, column⟩ = some revocations) :
    Kept ext sessions all (revoked ++ [identity])
      { db with revocations, audit := db.audit ++ entries } := { h with
  live record hrecord hunrevoked := h.live record hrecord fun hmem =>
    hunrevoked (mem_append_left _ hmem)
  revocations other := by
    have hlookup : revocations.get? other = if other = identity then some ⟨identity, column⟩ else
        db.revocations.get? other := Table.get?_insert? hinsert other
    have hbefore := h.revocations other
    unfold isRevoked at hbefore ⊢
    dsimp only
    rw [hlookup, mem_append, mem_singleton, ← hbefore]
    by_cases hother : other = identity
    · rw [if_pos hother]
      exact iff_of_true rfl (Or.inr hother)
    · rw [if_neg hother]
      exact ⟨Or.inl, fun h => h.resolve_right hother⟩
  audit := by
    show (db.audit ++ entries).filter _ = _
    have hnone : entries.filter (·.action ≠ .revoked) = [] := by
      refine filter_eq_nil_iff.mpr fun entry hentry => ?_
      rw [hentries entry hentry]
      decide
    rw [filter_append, hnone, append_nil, h.audit] }

theorem Kept.compacts {p : MemoryRow → Bool} (h : Kept ext sessions all revoked db)
    (hrevoked : ∀ row, p row = true → isRevoked db row.identity)
    (hidentity : ∀ row row' : MemoryRow, row.identity = row'.identity → p row = p row') :
    Kept ext sessions all revoked { db with records := db.records.delete p } := { h with
  rows := filter_sublist.trans h.rows
  live record hrecord hunrevoked := by
    refine Table.mem_delete.mpr ⟨h.live record hrecord hunrevoked, ?_⟩
    by_contra hselected
    have hgone := hrevoked (stored ext record) (by simpa using hselected)
    exact hunrevoked ((h.revocations _).mp hgone)
  lower row hrow htier := by
    obtain ⟨hmem, hkeep⟩ := Table.mem_delete.mp hrow
    obtain ⟨lower, hlower, hsame, hl1⟩ := h.lower row hmem htier
    refine ⟨lower, Table.mem_delete.mpr ⟨hlower, ?_⟩, hsame, hl1⟩
    rw [hidentity lower row hsame]
    exact hkeep
  room sessionId provider tier htier := by
    refine le_trans (List.Sublist.length_le ?_) (h.room sessionId provider tier htier)
    exact filter_sublist.filter _ }

theorem Kept.step {o : Option MemoryRecord} {i : Option IdentityKey}
    (h : Kept ext sessions all revoked db) (hstep : Step ext db db' o i) :
    Kept ext sessions (all ++ o.toList) (revoked ++ i.toList) db' := by
  cases hstep with
  | same =>
    show Kept ext sessions (all ++ []) (revoked ++ []) db
    rw [append_nil, append_nil]
    exact h
  | added hscope hlive hroom hinsert =>
    show Kept ext sessions _ (revoked ++ []) _
    rw [append_nil]
    exact h.adds hscope hlive hroom hinsert
  | revoked hentries hinsert =>
    show Kept ext sessions (all ++ []) _ _
    rw [append_nil]
    exact h.revokes hentries hinsert
  | compacted hrevoked hidentity =>
    show Kept ext sessions (all ++ []) (revoked ++ []) _
    rw [append_nil, append_nil]
    exact h.compacts hrevoked hidentity

variable (ext sessions) in
theorem kept_run (calls : List Call) :
    Kept ext sessions (everStored ext sessions calls) (everRevoked ext sessions calls)
      (dbAfter ext sessions calls) := by
  induction calls using List.reverseRecOn with
  | nil => exact kept_start
  | append_singleton calls call ih =>
    have hafter : dbAfter ext sessions (calls ++ [call]) =
        (exec ext (dbAfter ext sessions calls) call).1 := Machine.run_snoc _ _ _ _
    rw [everStored_snoc, everRevoked_snoc, hafter]
    exact ih.step (exec_step _ _)

end

/-! ## Recalling -/

instance : Std.Total recallBefore where
  total a b := by
    unfold recallBefore
    rcases lt_trichotomy a.createdAt b.createdAt with hlt | heq | hgt
    · exact Or.inr (Or.inl hlt)
    · rcases le_total b.memoryId a.memoryId with hle | hle
      · exact Or.inl (Or.inr ⟨heq, hle⟩)
      · exact Or.inr (Or.inr ⟨heq.symm, hle⟩)
    · exact Or.inl (Or.inl hgt)

instance : IsTrans MemoryRow recallBefore where
  trans a b c hab hbc := by
    unfold recallBefore at *
    rcases hab with hab | ⟨hab, hab'⟩
    · rcases hbc with hbc | ⟨hbc, -⟩
      all_goals exact Or.inl (by omega)
    · rcases hbc with hbc | ⟨hbc, hbc'⟩
      · exact Or.inl (by omega)
      · exact Or.inr ⟨by omega, hbc'.trans hab'⟩

/-- Newest first; of one time, the greater identifier first. -/
def NewestFirst (a b : MemoryRecord) : Prop :=
  b.createdAt < a.createdAt ∨ (a.createdAt = b.createdAt ∧ b.id ≤ a.id)

section

variable {sessions : Table Session.id} {all : List MemoryRecord} {revoked : List IdentityKey}
  {db : MemoryDb}

theorem Kept.length_rowsOf (h : Kept ext sessions all revoked db)
    (sessionId provider tier : String) :
    (rowsOf db sessionId provider tier).length ≤ maxMemoryRecordsPerScopeAndTier := by
  by_cases htier : tier = l2.asStr
  · subst htier
    refine le_trans ?_ (h.room sessionId provider l1.asStr (by decide))
    -- every row of the second tier has one of the first below it
    have hnodup : ((rowsOf db sessionId provider l2.asStr).map (·.identity)).Nodup := by
      have hkeys : ((rowsOf db sessionId provider l2.asStr).map MemoryRow.key).Nodup :=
        db.records.nodup.sublist (filter_sublist.map _)
      refine List.Nodup.map_on (fun row hrow row' hrow' hsame => ?_) hkeys.of_map
      refine inj_on_of_nodup_map hkeys hrow hrow' (Prod.ext hsame ?_)
      have htier := (mem_filter.mp hrow).2
      have htier' := (mem_filter.mp hrow').2
      simp only [and_eq_true, decide_eq_true_eq] at htier htier'
      exact htier.2.trans htier'.2.symm
    have hsubset : (rowsOf db sessionId provider l2.asStr).map (·.identity) ⊆
        (rowsOf db sessionId provider l1.asStr).map (·.identity) := by
      intro identity hidentity
      obtain ⟨row, hrow, rfl⟩ := mem_map.mp hidentity
      obtain ⟨hmem, hselected⟩ := mem_filter.mp hrow
      simp only [and_eq_true, decide_eq_true_eq] at hselected
      obtain ⟨⟨hsession, hprovider⟩, hl2⟩ := hselected
      obtain ⟨lower, hlower, hsame, hl1⟩ := h.lower row hmem hl2
      refine mem_map.mpr ⟨lower, mem_filter.mpr ⟨hlower, ?_⟩, hsame⟩
      have hcolumns := Prod.ext_iff.mp hsame
      have hsession' : lower.sessionId = sessionId := hcolumns.1.trans hsession
      have hprovider' : lower.provider = provider := (Prod.ext_iff.mp hcolumns.2).1.trans hprovider
      rw [hsession', hprovider', hl1]
      simp
    have hlength := (hnodup.subperm hsubset).length_le
    rwa [length_map, length_map] at hlength
  · exact h.room sessionId provider tier htier

/-- The records of a scope and a tier that were not revoked. -/
def visible (all : List MemoryRecord) (revoked : List IdentityKey) (scope : MemoryScope)
    (tier : MemoryTier) : List MemoryRecord :=
  all.filter fun record =>
    record.scope = scope ∧ record.tier = tier ∧ identityOf record ∉ revoked

theorem scope_eq {scope scope' : MemoryScope} (hscope : Scoped sessions scope)
    (hscope' : Scoped sessions scope') (hsession : scope.sessionId.text = scope'.sessionId.text)
    (hprovider : scope.provider = scope'.provider) : scope = scope' := by
  have hid : scope.sessionId = scope'.sessionId := Id.ext_text hsession
  obtain ⟨session, hfound, htenant, hworkspace⟩ := hscope
  obtain ⟨session', hfound', htenant', hworkspace'⟩ := hscope'
  rw [hid, hfound'] at hfound
  obtain rfl := Option.some.inj hfound
  cases scope
  cases scope'
  simp only [MemoryScope.mk.injEq]
  exact ⟨htenant.symm.trans htenant', hworkspace.symm.trans hworkspace', hid, hprovider⟩

/-- The rows that can be recalled are those of the visible records. -/
theorem Kept.recallable_perm {scope : MemoryScope} (h : Kept ext sessions all revoked db)
    (hscope : Scoped sessions scope) (tier : MemoryTier) :
    ∃ records : List MemoryRecord, recallable db scope tier = records.map (stored ext) ∧
      records.Perm (visible all revoked scope tier) := by
  obtain ⟨kept, hsublist, hrows⟩ := sublist_map_iff.mp h.rows
  have hselected : ∀ record ∈ all, (inScope scope (stored ext record).identity &&
      (stored ext record).tier = tier.asStr && !isRevoked db (stored ext record).identity) = true ↔
      record.scope = scope ∧ record.tier = tier ∧ identityOf record ∉ revoked := by
    intro record hrecord
    have hgone := h.revocations (identityOf record)
    rw [and_eq_true, and_eq_true, inScope, and_eq_true, not_eq_true']
    constructor
    · rintro ⟨⟨⟨hsession, hprovider⟩, htier⟩, hlive⟩
      refine ⟨scope_eq (h.inSession record hrecord).1 hscope (of_decide_eq_true hsession)
        (of_decide_eq_true hprovider), tier_asStr_inj (of_decide_eq_true htier), fun hmem => ?_⟩
      rw [stored_identity, hgone.mpr hmem] at hlive
      cases hlive
    · rintro ⟨rfl, rfl, hlive⟩
      refine ⟨⟨⟨decide_eq_true rfl, decide_eq_true rfl⟩, decide_eq_true rfl⟩, ?_⟩
      by_contra hrevoked
      exact hlive (hgone.mp (by simpa using hrevoked))
  have hnodup : all.Nodup := h.distinct.of_map
  refine ⟨kept.filter fun record => inScope scope (stored ext record).identity &&
      (stored ext record).tier = tier.asStr && !isRevoked db (stored ext record).identity, ?_, ?_⟩
  · unfold recallable
    rw [hrows, filter_map]
    rfl
  · unfold visible
    refine (perm_ext_iff_of_nodup ((hnodup.sublist hsublist).filter _)
      (hnodup.filter _)).mpr fun record => ?_
    rw [mem_filter, mem_filter, decide_eq_true_eq]
    constructor
    · rintro ⟨hmem, hrecall⟩
      exact ⟨hsublist.subset hmem, (hselected record (hsublist.subset hmem)).mp hrecall⟩
    · rintro ⟨hmem, hvisible⟩
      refine ⟨?_, (hselected record hmem).mpr hvisible⟩
      have hrow : stored ext record ∈ db.records.rows := h.live record hmem hvisible.2.2
      rw [hrows] at hrow
      obtain ⟨other, hother, hsame⟩ := mem_map.mp hrow
      have hkey : (stored ext other).key = (stored ext record).key := by rw [hsame]
      rw [← inj_on_of_nodup_map h.distinct (hsublist.subset hother) hmem hkey]
      exact hother

theorem Kept.recall {sessionId : SessionId} {principalId : PrincipalId} {tenantId : TenantId}
    {workspaceId : WorkspaceId} {provider : String} {scope : MemoryScope}
    (h : Kept ext sessions all revoked db) (htier : tier ≠ .l0)
    (hscope : MemoryScope.new tenantId workspaceId sessionId provider = .ok scope)
    (hload : loadScoped db sessionId principalId tenantId workspaceId = .ok ()) :
    ∃ records, recallMemory ext db sessionId principalId tenantId workspaceId provider tier
        maxMemoryRecallRecords = .ok records ∧
      records.Perm ((visible all revoked scope tier).map readBack) ∧
      records.Pairwise NewestFirst := by
  have hparts : scope.sessionId = sessionId ∧ scope.tenantId = tenantId ∧
      scope.workspaceId = workspaceId := by
    unfold MemoryScope.new at hscope
    split at hscope
    · cases hscope
    · cases hscope
      exact ⟨rfl, rfl, rfl⟩
  have hscoped : Scoped sessions scope := by
    obtain ⟨rfl, rfl, rfl⟩ := hparts
    rw [← h.sameSessions]
    exact scoped_of_load hload
  obtain ⟨found, hfound, hperm⟩ := h.recallable_perm hscoped tier
  set before : MemoryRecord → MemoryRecord → Prop :=
    fun a b => recallBefore (stored ext a) (stored ext b) with hbefore
  set ordered := found.insertionSort before with hordered
  have hsorted : (recallable db scope tier).insertionSort recallBefore =
      ordered.map (stored ext) := by
    rw [hfound, hordered]
    exact (map_insertionSort before recallBefore (stored ext) found
      fun _ _ _ _ => Iff.rfl).symm
  have hmem : ∀ record ∈ ordered, record ∈ all ∧ record.scope = scope := by
    intro record hrecord
    have hvisible := hperm.subset ((mem_insertionSort before).mp hrecord)
    obtain ⟨hall, hselected⟩ := mem_filter.mp hvisible
    exact ⟨hall, (of_decide_eq_true hselected).1⟩
  have hshort : (ordered.map (stored ext)).length ≤ maxMemoryRecallRecords := by
    rw [← hsorted, length_insertionSort]
    refine le_trans (List.Sublist.length_le ?_)
      (h.length_rowsOf scope.sessionId.text scope.provider tier.asStr)
    exact monotone_filter_right _ fun row hrow => by
      simp only [inScope, and_eq_true] at hrow ⊢
      exact ⟨hrow.1.1, hrow.1.2⟩
  have hdecode : (ordered.map (stored ext)).mapM (decodeMemoryRecord ext scope) =
      .ok (ordered.map readBack) := by
    rw [mapM_map]
    refine mapM_of_forall fun record hrecord => ?_
    obtain ⟨hall, rfl⟩ := hmem record hrecord
    exact decode_stored (h.inSession record hall).2
  refine ⟨ordered.map readBack, ?_, ?_, ?_⟩
  · unfold recallMemory
    refine bind_eq_ok.mpr ⟨(), ensure_eq_ok.mpr ⟨by decide, le_refl _⟩, ?_⟩
    refine bind_eq_ok.mpr ⟨(), ensure_eq_ok.mpr htier, ?_⟩
    refine bind_eq_ok.mpr ⟨scope, mapError_eq_ok.mpr hscope, ?_⟩
    refine bind_eq_ok.mpr ⟨(), hload, ?_⟩
    unfold loadMemoryRecords
    rw [hsorted, take_of_length_le hshort, hdecode]
  · exact ((perm_insertionSort before found).trans hperm).map readBack
  · refine pairwise_map.mpr ?_
    have hpairs : ordered.Pairwise before := by
      have hrows : ((recallable db scope tier).insertionSort recallBefore).Pairwise recallBefore :=
        pairwise_insertionSort _ _
      rw [hsorted] at hrows
      exact pairwise_map.mp hrows
    refine hpairs.imp fun {a b} hab => ?_
    rcases hab with hlt | ⟨heq, hle⟩
    · exact Or.inl (Int.ofNat_lt.mp hlt)
    · exact Or.inr ⟨Int.ofNat_inj.mp heq, hle⟩

theorem recalled_live {sessionId : SessionId} {principalId : PrincipalId} {tenantId : TenantId}
    {workspaceId : WorkspaceId} {provider : String} {limit : ℕ}
    {records : List MemoryRecord}
    (h : recallMemory ext db sessionId principalId tenantId workspaceId provider tier limit =
      .ok records) : ∀ record ∈ records, isRevoked db (identityOf record) = false := by
  intro record hrecord
  unfold recallMemory at h
  simp only [bind_eq_ok] at h
  obtain ⟨_, -, _, -, scope, -, _, -, h⟩ := h
  unfold loadMemoryRecords at h
  obtain ⟨row, hrow, hdecode⟩ := (mem_mapM h).mp hrecord
  have hselected : row ∈ recallable db scope tier :=
    (mem_insertionSort recallBefore).mp (mem_of_mem_take hrow)
  obtain ⟨-, hselected⟩ := mem_filter.mp hselected
  simp only [inScope, and_eq_true, not_eq_true'] at hselected
  obtain ⟨⟨⟨hsession, hprovider⟩, -⟩, hlive⟩ := hselected
  obtain ⟨hscope, hid⟩ := decode_identity hdecode
  have hidentity : identityOf record = row.identity := by
    unfold identityOf scopeIdentity
    rw [hscope, hid, ← of_decide_eq_true hsession, ← of_decide_eq_true hprovider]
    rfl
  rw [hidentity]
  exact hlive

end

/-! ## The word that is kept -/

theorem mem_everRevoked_append (sessions : Table Session.id) {calls later : List Call}
    {identity : IdentityKey} (h : identity ∈ everRevoked ext sessions calls) :
    identity ∈ everRevoked ext sessions (calls ++ later) := by
  induction later using List.reverseRecOn with
  | nil =>
    rw [append_nil]
    exact h
  | append_singleton later call ih =>
    rw [← append_assoc, everRevoked_snoc]
    exact mem_append_left _ ih

theorem Step.audit {db db' : MemoryDb} {o : Option MemoryRecord} {i : Option IdentityKey}
    (h : Step ext db db' o i) : db.audit <+: db'.audit := by
  cases h with
  | same | compacted => exact prefix_rfl
  | added | revoked => exact prefix_append _ _

/-- What durable memory promises, after a run. -/
structure KeepsWord (ext : Externals) (sessions : Table Session.id) (calls : List Call) : Prop where
  /-- A revoked identity is not stored again, whatever comes later. -/
  notStored : ∀ identity ∈ everRevoked ext sessions calls, ∀ later call record,
    storedBy (exec ext (dbAfter ext sessions (calls ++ later)) call).2 = some record →
      identityOf record ≠ identity
  /-- Nor is it recalled. -/
  notRecalled : ∀ identity ∈ everRevoked ext sessions calls, ∀ later sessionId principalId tenantId
    workspaceId provider tier limit records,
    recallMemory ext (dbAfter ext sessions (calls ++ later)) sessionId principalId tenantId
      workspaceId provider tier limit = .ok records → ∀ record ∈ records,
        identityOf record ≠ identity
  lower : ∀ row ∈ (dbAfter ext sessions calls).records, row.tier = l2.asStr →
    HasL1 (dbAfter ext sessions calls) row.identity
  /-- Each record is stored once. -/
  distinct :
    ((everStored ext sessions calls).map fun record => (identityOf record, record.tier)).Nodup
  recalled : ∀ sessionId principalId tenantId workspaceId provider scope tier, tier ≠ .l0 →
    MemoryScope.new tenantId workspaceId sessionId provider = .ok scope →
    loadScoped (dbAfter ext sessions calls) sessionId principalId tenantId workspaceId = .ok () →
    ∃ records, recallMemory ext (dbAfter ext sessions calls) sessionId principalId tenantId
        workspaceId provider tier maxMemoryRecallRecords = .ok records ∧
      records.Perm ((visible (everStored ext sessions calls) (everRevoked ext sessions calls) scope
        tier).map readBack) ∧
      (records.map (·.id)).Nodup ∧ records.Pairwise NewestFirst
  auditGrows : ∀ later, (dbAfter ext sessions calls).audit <+:
    (dbAfter ext sessions (calls ++ later)).audit
  /-- But for the revocations, the log has one entry for each record that was stored. -/
  audit : (dbAfter ext sessions calls).audit.filter (·.action ≠ .revoked) =
    (everStored ext sessions calls).map entryOf

/-- **Durable memory keeps its word**, for all calls in any order and at any times. -/
theorem memory_keeps_its_word (ext : Externals) (sessions : Table Session.id)
    (calls : List Call) : KeepsWord ext sessions calls := by
  have hkept := kept_run ext sessions calls
  have hdistinct : ((everStored ext sessions calls).map fun record =>
      (identityOf record, record.tier)).Nodup := by
    refine List.Nodup.map_on (fun a ha b hb hsame => ?_) hkept.distinct.of_map
    refine inj_on_of_nodup_map hkept.distinct ha hb (Prod.ext (Prod.ext_iff.mp hsame).1 ?_)
    exact congrArg asStr (Prod.ext_iff.mp hsame).2
  constructor
  · intro identity hidentity later call record hrecord hsame
    have hafter := kept_run ext sessions (calls ++ later)
    have hgone := (hafter.revocations identity).mpr (mem_everRevoked_append sessions hidentity)
    have hstep := @exec_step ext (dbAfter ext sessions (calls ++ later)) call
    rw [hrecord] at hstep
    generalize (exec ext (dbAfter ext sessions (calls ++ later)) call).1 = db' at hstep
    generalize revokedBy (exec ext (dbAfter ext sessions (calls ++ later)) call).2 = i at hstep
    cases hstep with
    | added hscope hlive =>
      rw [hsame, hgone] at hlive
      cases hlive
  · intro identity hidentity later sessionId principalId tenantId workspaceId provider tier limit
      records hrecall record hrecord hsame
    have hafter := kept_run ext sessions (calls ++ later)
    have hgone := (hafter.revocations identity).mpr (mem_everRevoked_append sessions hidentity)
    have hlive := recalled_live hrecall record hrecord
    rw [hsame, hgone] at hlive
    cases hlive
  · exact hkept.lower
  · exact hdistinct
  · intro sessionId principalId tenantId workspaceId provider scope tier htier hscope hload
    obtain ⟨records, hrecords, hperm, hsorted⟩ := hkept.recall htier hscope hload
    refine ⟨records, hrecords, hperm, ?_, hsorted⟩
    have hids := hperm.map (·.id)
    rw [map_map] at hids
    refine hids.nodup_iff.mpr ?_
    -- two visible records of one scope and tier differ in their identifiers
    have hall := hkept.distinct.of_map
    refine List.Nodup.map_on (fun a ha b hb hsame => ?_) (hall.filter _)
    obtain ⟨hmem, hvisible⟩ := mem_filter.mp ha
    obtain ⟨hmem', hvisible'⟩ := mem_filter.mp hb
    obtain ⟨hscopeA, htierA, -⟩ := of_decide_eq_true hvisible
    obtain ⟨hscopeB, htierB, -⟩ := of_decide_eq_true hvisible'
    refine inj_on_of_nodup_map hdistinct hmem hmem' (Prod.ext ?_ (htierA.trans htierB.symm))
    have hid : a.id = b.id := hsame
    show scopeIdentity a.scope a.id = scopeIdentity b.scope b.id
    rw [hscopeA, hscopeB, hid]
  · intro later
    have happend : dbAfter ext sessions (calls ++ later) =
        (store ext).run (dbAfter ext sessions calls) later := Machine.run_append _ _ _ _
    rw [happend]
    exact (store ext).run_relates (R := fun db db' => db.audit <+: db'.audit)
      (fun _ => prefix_rfl) (fun _ _ _ => List.IsPrefix.trans)
      (fun db call => (exec_step db call).audit) _ later
  · exact hkept.audit

end Pandora.Memory.Durable
