import Pandora.Cron.Engine
import Pandora.Lib.DebugText
import Pandora.Memory.Store

/-! # The memory engine

The engine of `memory_engine.rs` keeps its records itself, or in the tables of a session store if it
was opened on one. A synthesis is proposed from a snapshot of the records of a scope, of which the
proposal keeps the identifiers and a digest, and is committed if both are those of a new one. -/

namespace Pandora.Memory.Engine

open Context.Fragments (ContextClassification)
open Cron (hashArtifact)
open Ids Text Lib.Checked Lib.DebugText Lib.Runs Memory.Records Memory.Store
open Memory.Sop (MemoryIntent)

inductive MemoryError
  | notFound
  | approvalRequired
  | alreadyPromoted
  | invalidRecord
  | secretContent
  | alreadyExists
  | capacityExceeded
  | revoked
  | scopeViolation
  | synthesisNoEvidence
  | synthesisStale
  | contract (error : MemoryContractError)
  | storeUnavailable
deriving DecidableEq

def ofContract : MemoryContractError → MemoryError
  | .secretContent => .secretContent
  | error => .contract error

def memoryStoreError : SessionError → MemoryError
  | .memoryNotFound => .notFound
  | .memoryAlreadyExists => .alreadyExists
  | .memoryAlreadyPromoted => .alreadyPromoted
  | .memoryCapacityExceeded | .l1EvidenceCapacityExceeded => .capacityExceeded
  | .memoryRevoked => .revoked
  | .scopeViolation => .scopeViolation
  | .invalidMemory | .invalidMemoryLimit => .invalidRecord
  | _ => .storeUnavailable

/-- The records the engine keeps itself, without the audit log. -/
structure MemoryStore where
  (l0 l1 l2 l3 l4 : List MemoryRecord)
  revoked : List (MemoryScope × MemoryId)

def MemoryStore.tier (store : MemoryStore) : MemoryTier → List MemoryRecord
  | .l0 => store.l0
  | .l1 => store.l1
  | .l2 => store.l2
  | .l3 => store.l3
  | .l4 => store.l4

/-- The store and, if there is one, the database. -/
structure MemoryEngine where
  maxL0Entries : ℕ
  store : MemoryStore
  durable : Option (MemoryDb × PrincipalId)

def isExpired (now : ℕ) (record : MemoryRecord) : Bool := record.expiresAt.any (· ≤ now)

/-- The record is the one of the scope with the identifier. -/
def isOf (scope : MemoryScope) (id : MemoryId) (record : MemoryRecord) : Bool :=
  record.scope = scope && record.id = id

/-- `find_tier`. -/
def MemoryStore.holds (store : MemoryStore) (scope : MemoryScope) (id : MemoryId) : Bool :=
  [MemoryTier.l0, .l1, .l2, .l3, .l4].any fun tier => (store.tier tier).any (isOf scope id)

/-- The records taken as evidence, with their digest. -/
structure MemorySynthesisSnapshot where
  scope : MemoryScope
  records : List MemoryRecord
  digest : String
  capturedAt : ℕ
deriving DecidableEq

structure MemorySynthesisProposal where
  snapshotDigest : String
  candidate : MemoryRecord
  evidenceIds : List MemoryId
deriving DecidableEq

def MemorySynthesisProposal.withCandidateIntent (proposal : MemorySynthesisProposal)
    (intent : MemoryIntent) : MemorySynthesisProposal :=
  { proposal with candidate := proposal.candidate.withIntent intent }

/-! ## The digest -/

/-- What the digest has of a record. -/
structure Source where
  id : MemoryId
  tier : MemoryTier
  kind : MemoryKind
  classification : ContextClassification
  summary : String
  createdAt : ℕ
  provenance : String
  origin : MemoryOrigin
  evidenceIds : List MemoryId

def source (record : MemoryRecord) : Source where
  id := record.id
  tier := record.tier
  kind := record.kind
  classification := record.classification
  summary := record.summary
  createdAt := record.createdAt
  provenance := record.provenance
  origin := record.origin
  evidenceIds := record.evidenceIds

variable (hidden : Char → Bool)

/-- `{:?}` of an identifier. -/
def debugId (id : MemoryId) : List Char :=
  "MemoryId(".toList ++ (debugStr hidden id.text.toList ++ [')'])

/-- What stands before the value of a field. -/
def label (name : String) : List Char := ';' :: (name.toList ++ ['='])

def sourceText (source : Source) : List Char :=
  ['i', 'd', '='] ++ source.id.text.toList ++ label "tier" ++ source.tier.asStr.toList ++
    label "kind" ++ source.kind.asStr.toList ++ label "classification" ++
    source.classification.asStr.toList ++ label "summary" ++ source.summary.toList ++
    label "created" ++ (toString source.createdAt).toList ++ label "provenance" ++
    source.provenance.toList ++ label "origin" ++ source.origin.asStr.toList ++
    label "evidence" ++ debugList (debugId hidden) source.evidenceIds ++ [';']

def scopeText (scope : MemoryScope) : List Char :=
  "tenant=".toList ++ scope.tenantId.text.toList ++ label "workspace" ++
    scope.workspaceId.text.toList ++ label "session" ++ scope.sessionId.text.toList ++
    label "provider" ++ scope.provider.toList ++ [';']

/-- The material of `synthesis_digest`. -/
def synthesisText (scope : MemoryScope) (records : List MemoryRecord) : String :=
  .ofList (scopeText scope ++ (records.map source).flatMap (sourceText hidden))

variable (ext : Externals)

def synthesisDigest (scope : MemoryScope) (records : List MemoryRecord) : String :=
  hashArtifact ext.sha (asBytes (synthesisText hidden scope records))

namespace MemoryEngine

def new (maxL0Entries : ℕ) : MemoryEngine := ⟨maxL0Entries, ⟨[], [], [], [], [], []⟩, none⟩

variable (engine : MemoryEngine)

/-! ## Recall and snapshots -/

/-- What a recall returns. An expired record of L0 is dropped besides. -/
def tryRecall (scope : MemoryScope) (tier : MemoryTier) (now : ℕ) :
    Except MemoryError (List MemoryRecord) :=
  match tier, engine.durable with
  | .l0, _ | _, none => .ok <| (engine.store.tier tier).filter fun record =>
    record.scope = scope && !(engine.store.revoked.contains (record.scope, record.id)) &&
      !isExpired now record
  | tier, some (db, principalId) =>
    (recallMemory ext db scope.sessionId principalId scope.tenantId scope.workspaceId
      scope.provider tier maxMemoryRecallRecords).mapError memoryStoreError

/-- The order of the evidence. -/
def sourceBefore (a b : MemoryRecord) : Prop :=
  a.id < b.id ∨ a.id = b.id ∧
    (a.createdAt < b.createdAt ∨ a.createdAt = b.createdAt ∧ a.provenance ≤ b.provenance)

instance : DecidableRel sourceBefore := fun _ _ => inferInstanceAs (Decidable (_ ∨ _ ∧ (_ ∨ _ ∧ _)))

/-- The records of L1 that may be evidence, in the order of their identifiers. -/
def candidates (scope : MemoryScope) (now : ℕ) : Except MemoryError (List MemoryRecord) := do
  let records ← engine.tryRecall ext scope .l1 now
  pure ((records.filter (·.classification ≠ .sensitive)).insertionSort sourceBefore)

/-- `synthesis_snapshot_unlocked`. -/
def synthesisSnapshot (scope : MemoryScope) (now : ℕ) :
    Except MemoryError MemorySynthesisSnapshot := do
  let candidates ← engine.candidates ext scope now
  let records := (candidates.destutter (·.id ≠ ·.id)).take maxMemorySynthesisEvidence
  pure ⟨scope, records, synthesisDigest hidden ext scope records, now⟩

def verifySynthesis (proposal : MemorySynthesisProposal) (now : ℕ) : Except MemoryError Unit := do
  ensure (proposal.candidate.origin = .synthesized ∧
    proposal.evidenceIds = proposal.candidate.evidenceIds) .invalidRecord
  let snapshot ← engine.synthesisSnapshot hidden ext proposal.candidate.scope now
  ensure (snapshot.digest = proposal.snapshotDigest ∧ snapshot.records ≠ []) .synthesisStale
  ensure (snapshot.records.map (·.id) = proposal.evidenceIds) .synthesisStale

/-! ## Writing -/

/-- What a caller says of a record of any tier. -/
structure Draft where
  scope : MemoryScope
  (id summary : String)
  classification : ContextClassification
  createdAt : ℕ
  provenance : String

/-- A record is made and put down, in the tables or in a list of the engine. -/
def addRecord (made : Except MemoryContractError MemoryRecord)
    (push : MemoryStore → MemoryRecord → MemoryStore) :
    Except MemoryError (MemoryEngine × Option MemoryRecord) := do
  let record ← made.mapError ofContract
  match engine.durable with
  | some (db, principalId) => do
    let db ← (recordMemory ext db principalId record).mapError memoryStoreError
    pure ({ engine with durable := some (db, principalId) }, some record)
  | none => pure ({ engine with store := push engine.store record }, some record)

/-- `distill_l1`, and `distill_l1_with_intent`. -/
def distillL1 (draft : Draft) (kind : MemoryKind) (intent : Option MemoryIntent) :
    Except MemoryError (MemoryEngine × Option MemoryRecord) :=
  engine.addRecord ext
    ((MemoryRecord.newL1 draft.id kind draft.scope draft.summary draft.classification
      draft.createdAt draft.provenance).map fun record => intent.elim record record.withIntent)
    fun store record => { store with l1 := store.l1 ++ [record] }

def rememberL3Sop (draft : Draft) : Except MemoryError (MemoryEngine × Option MemoryRecord) :=
  engine.addRecord ext
    (MemoryRecord.newL3Sop draft.id draft.scope draft.summary draft.classification draft.createdAt
      draft.provenance)
    fun store record => { store with l3 := store.l3 ++ [record] }

def rememberL4Archive (draft : Draft) : Except MemoryError (MemoryEngine × Option MemoryRecord) :=
  engine.addRecord ext
    (MemoryRecord.newL4Archive draft.id draft.scope draft.summary draft.classification
      draft.createdAt draft.provenance)
    fun store record => { store with l4 := store.l4 ++ [record] }

def rememberL0 (draft : Draft) (expiresAt : Option ℕ) :
    Except MemoryError (MemoryEngine × Option MemoryRecord) := do
  let record ← (MemoryRecord.newL0 draft.id draft.scope draft.summary draft.classification
    draft.createdAt expiresAt draft.provenance).mapError ofContract
  let l0 := (engine.store.l0.filter fun record => !isExpired draft.createdAt record) ++ [record]
  let l0 := l0.drop (l0.length - engine.maxL0Entries)
  pure ({ engine with store := { engine.store with l0 := l0 } }, some record)

def promoteL2 (scope : MemoryScope) (id : MemoryId) (approval : Option MemoryApproval)
    (promotedAt : ℕ) : Except MemoryError (MemoryEngine × Option MemoryRecord) := do
  let approval ← orError approval .approvalRequired
  match engine.durable with
  | some (db, principalId) => do
    let (db, record) ←
      (promoteMemory ext db principalId scope id approval promotedAt).mapError memoryStoreError
    pure ({ engine with durable := some (db, principalId) }, some record)
  | none => do
    let store := engine.store
    ensure (¬ store.l2.any (isOf scope id)) .alreadyPromoted
    let candidate ← orError (store.l1.find? fun record =>
      isOf scope id record && !store.revoked.contains (record.scope, record.id)) .notFound
    let record ← (candidate.promoteL2 approval promotedAt).mapError ofContract
    pure ({ engine with store := { store with l2 := store.l2 ++ [record] } }, some record)

/-- The record is revoked in the lists of the engine, and gone from L0. -/
def revoke (scope : MemoryScope) (id : MemoryId) : MemoryEngine :=
  { engine with store := { engine.store with
    revoked := (scope, id) :: engine.store.revoked
    l0 := engine.store.l0.filter fun record => !isOf scope id record } }

/-- What the tables of the store say to a revocation. -/
def revokeDurable (scope : MemoryScope) (id : MemoryId) (now : ℕ) :
    Except MemoryError (MemoryEngine × Option Bool) :=
  match engine.durable with
  | none => .ok (engine, none)
  | some (db, principalId) =>
    match revokeMemory ext db principalId scope id now with
    | .ok db => .ok ({ engine with durable := some (db, principalId) }, some true)
    | .error .memoryNotFound => .ok (engine, none)
    | .error .memoryRevoked => .ok (engine, some false)
    | .error error => .error (memoryStoreError error)

/-- `forget`: a record that was revoked before in the tables is revoked in the engine as well. -/
def forget (scope : MemoryScope) (id : MemoryId) (now : ℕ) :
    MemoryEngine × Except MemoryError Unit :=
  match engine.revokeDurable ext scope id now with
  | .error error => (engine, .error error)
  | .ok (engine, revokedDurable) =>
    let removed := engine.store.l0.any (isOf scope id)
    if revokedDurable = some true ∨ removed then (engine.revoke scope id, .ok ())
    else if revokedDurable = some false then (engine.revoke scope id, .error .revoked)
    else if engine.durable.isSome ∨ ¬ engine.store.holds scope id then (engine, .error .notFound)
    else (engine.revoke scope id, .ok ())

def compactRevoked (scope : MemoryScope) (revokedBeforeOrAt : ℕ) :
    Except MemoryError (MemoryEngine × Option MemoryRecord) :=
  match engine.durable with
  | none => .ok (engine, none)
  | some (db, principalId) => do
    let (db, _) ←
      (compactRevokedMemory db principalId scope revokedBeforeOrAt).mapError memoryStoreError
    pure ({ engine with durable := some (db, principalId) }, none)

/-- `record_l1_unlocked`. -/
def recordL1 (record : MemoryRecord) : Except MemoryError (MemoryEngine × Option MemoryRecord) := do
  ensure (record.tier = .l1 ∧ record.origin = .synthesized) .invalidRecord
  if engine.durable.isNone then do
    ensure (¬ engine.store.l1.any (isOf record.scope record.id)) .alreadyExists
    ensure (engine.store.l1.countP (fun existing => existing.scope = record.scope) <
      maxMemoryRecordsPerScopeAndTier) .capacityExceeded
  engine.addRecord ext (.ok record) fun store record => { store with l1 := store.l1 ++ [record] }

def commitSynthesis (proposal : MemorySynthesisProposal) (now : ℕ) :
    Except MemoryError (MemoryEngine × Option MemoryRecord) := do
  engine.verifySynthesis hidden ext proposal now
  engine.recordL1 ext proposal.candidate

end MemoryEngine

/-- `propose_synthesis`. -/
def proposeSynthesis (snapshot : MemorySynthesisSnapshot) (id : String) (kind : MemoryKind)
    (summary : String) (classification : ContextClassification) (createdAt : ℕ) :
    Except MemoryError MemorySynthesisProposal := do
  ensure (snapshot.records ≠ []) .synthesisNoEvidence
  let evidenceIds := snapshot.records.map (·.id)
  let candidate ← (MemoryRecord.newSynthesizedL1 id kind snapshot.scope summary classification
    createdAt ("synthesis:" ++ snapshot.digest) evidenceIds).mapError ofContract
  pure ⟨snapshot.digest, candidate, evidenceIds⟩

/-! ## Calls -/

inductive Call
  | rememberL0 (draft : MemoryEngine.Draft) (expiresAt : Option ℕ)
  | distillL1 (draft : MemoryEngine.Draft) (kind : MemoryKind) (intent : Option MemoryIntent)
  | promoteL2 (scope : MemoryScope) (id : MemoryId) (approval : Option MemoryApproval)
      (promotedAt : ℕ)
  | rememberL3Sop (draft : MemoryEngine.Draft)
  | rememberL4Archive (draft : MemoryEngine.Draft)
  | forget (scope : MemoryScope) (id : MemoryId) (now : ℕ)
  | compactRevoked (scope : MemoryScope) (revokedBeforeOrAt : ℕ)
  | commitSynthesis (proposal : MemorySynthesisProposal) (now : ℕ)

def step (engine : MemoryEngine) :
    Call → MemoryEngine × Except MemoryError (Option MemoryRecord)
  | .rememberL0 draft expiresAt => commit engine (engine.rememberL0 draft expiresAt)
  | .distillL1 draft kind intent => commit engine (engine.distillL1 ext draft kind intent)
  | .promoteL2 scope id approval promotedAt =>
    commit engine (engine.promoteL2 ext scope id approval promotedAt)
  | .rememberL3Sop draft => commit engine (engine.rememberL3Sop ext draft)
  | .rememberL4Archive draft => commit engine (engine.rememberL4Archive ext draft)
  | .forget scope id now =>
    ((engine.forget ext scope id now).1, (engine.forget ext scope id now).2.map fun _ => none)
  | .compactRevoked scope revokedBeforeOrAt =>
    commit engine (engine.compactRevoked scope revokedBeforeOrAt)
  | .commitSynthesis proposal now =>
    commit engine (engine.commitSynthesis hidden ext proposal now)

def machine : Machine MemoryEngine Call (Except MemoryError (Option MemoryRecord)) :=
  ⟨step hidden ext⟩

end Pandora.Memory.Engine
