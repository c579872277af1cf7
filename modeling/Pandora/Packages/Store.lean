import Pandora.Packages.Registry
import Pandora.Lib.Runs

/-! # The package store

`package_store.rs`: the installed packages with their artifacts, the versions that are enabled, the
trust roots of publishers and a ledger of events, in one database. An operation is a transaction: if
it fails nothing is changed, except that a denied admission is entered into the ledger.

Rows are in the order in which they were inserted, which is the order of their row identifiers; the
registry is loaded in this order. -/

namespace Pandora.Packages.Store

open Text Lib.Checked Lib.Tables Lib.Runs Lib.Codes Packages.Manifest Packages.Registry

def maxStoredArtifactBytes : ℕ := 16 * 1024 * 1024
def maxPublisherTrustRoots : ℕ := 64
def maxPackageTransparencyEvents : ℕ := 8192
def maxPackageTransparencyList : ℕ := 256

/-! ## Rows -/

/-- An installed version with its manifest. -/
structure PackageRow where
  (id version manifestJson : String)
  artifact : List UInt8
  state : String

def PackageRow.key (row : PackageRow) : String × String := (row.id, row.version)

/-- The version that is enabled, and the one before it. -/
structure PackageBinding where
  id : String
  (activeVersion previousVersion : Option String)
  generation : ℕ

def PackageBinding.enables (binding : PackageBinding) (version : String) : Bool :=
  binding.activeVersion = some version

structure PublisherTrustRootRecord where
  root : PublisherTrustRoot
  addedAt : ℕ
  revokedAt : Option ℕ

def PublisherTrustRootRecord.key (record : PublisherTrustRootRecord) : String × String :=
  (record.root.publisher, record.root.keyId)

def PublisherTrustRootRecord.active (record : PublisherTrustRootRecord) : Bool :=
  record.revokedAt.isNone

inductive PackageTransparencyEventKind
  | trustRootAdded | trustRootRevoked | admissionDecision
deriving DecidableEq

def PackageTransparencyEventKind.asStr : PackageTransparencyEventKind → String
  | .trustRootAdded => "trust_root_added"
  | .trustRootRevoked => "trust_root_revoked"
  | .admissionDecision => "admission_decision"

inductive PackageTransparencyOutcome
  | allowed | denied
deriving DecidableEq

def PackageTransparencyOutcome.asStr : PackageTransparencyOutcome → String
  | .allowed => "allowed"
  | .denied => "denied"

/-- What an event is made of, but for its place in the ledger. -/
structure PackageTransparencyEventDraft where
  eventKind : PackageTransparencyEventKind
  outcome : PackageTransparencyOutcome
  occurredAt : ℕ
  publisher : String
  (keyId packageId packageVersion : Option String)
  subjectDigest : String
  artifactDigest : Option String
  reasonCode : String

/-- One entry of the transparency ledger. -/
structure PackageTransparencyEvent extends PackageTransparencyEventDraft where
  sequence : ℕ
  previousEventDigest : Option String
  eventDigest : String

inductive PackageStoreError
  | database
  | serialization
  | corruptRecord
  | artifactTooLarge
  | invalidGeneArtifact
  | hasDependents (id version : String) (dependents : List String)
  | packageNotFound (id version : String)
  | missingEnabledDependency (id version : String)
  | missingEnabledDomain (id : String)
  | hasEnabledDependents (id version : String) (dependents : List String)
  | packageNotEnabled (id version : String)
  | noRollbackBinding (id : String)
  | packageBound (id version role : String)
  | trustRootAlreadyExists
  | trustRootNotFound
  | invalidTransparencyLimit
  | transparencyCapacityReached
  | admission (error : HarnessRegistryError)
deriving DecidableEq

/-- The tables of the packages. -/
structure PackageStore where
  records : Table PackageRow.key
  bindings : Table PackageBinding.id
  trustRoots : Table PublisherTrustRootRecord.key
  events : List PackageTransparencyEvent

def PackageStore.empty : PackageStore := ⟨.empty, .empty, .empty, []⟩

variable (env : PackageEnv)

/-! ## The ledger -/

/-- `append_digest_field`. -/
def digestField (field : String × Option String) : List UInt8 :=
  littleEndian 8 field.1.utf8ByteSize ++ asBytes field.1 ++
    tagged (fun value => littleEndian 8 value.utf8ByteSize ++ asBytes value) field.2

/-- The fields that are hashed. -/
def digestFields (draft : PackageTransparencyEventDraft) (sequence : ℕ)
    (previousEventDigest : Option String) : List (String × Option String) :=
  [("format", some "pandora.package.transparency.v1"), ("sequence", some (toString sequence)),
    ("event_kind", some draft.eventKind.asStr), ("outcome", some draft.outcome.asStr),
    ("occurred_at", some (toString draft.occurredAt)), ("publisher", some draft.publisher),
    ("key_id", draft.keyId), ("package_id", draft.packageId),
    ("package_version", draft.packageVersion), ("subject_digest", some draft.subjectDigest),
    ("artifact_digest", draft.artifactDigest), ("reason_code", some draft.reasonCode),
    ("previous_event_digest", previousEventDigest)]

def transparencyEventMessage (draft : PackageTransparencyEventDraft) (sequence : ℕ)
    (previousEventDigest : Option String) : List UInt8 :=
  (digestFields draft sequence previousEventDigest).flatMap digestField

def transparencyEventDigest (draft : PackageTransparencyEventDraft) (sequence : ℕ)
    (previousEventDigest : Option String) : String :=
  hashArtifact env (transparencyEventMessage draft sequence previousEventDigest)

def isBoundedTransparencyText (value : String) (limit : ℕ) : Bool :=
  !(trim value).isEmpty && value.utf8ByteSize ≤ limit && !value.toList.any isControl

def isSha256Digest (value : String) : Bool :=
  value.utf8ByteSize = 71 && (strip "sha256:" value).any fun hex => isLowerHex (asBytes hex)

/-- The reasons of a denied admission. -/
def denialReasons : List String :=
  ["artifact_too_large", "invalid_gene_artifact", "manifest_mismatch", "hash_mismatch",
    "incompatible_runtime", "unverified_trust_claim", "signature_required",
    "invalid_signature_encoding", "invalid_signature", "official_trust_unsupported",
    "wrong_admission_boundary", "missing_dependency", "domain_dependency_not_gene",
    "domain_requires_gene", "meta_domain_missing", "meta_member_not_domain",
    "ambiguous_meta_domain", "reserved_harness_id", "replacement_signature_required",
    "duplicate_identity", "invalid_publisher_trust_root", "duplicate_publisher_trust_root"]

def transparencyReasonIsValid (reasonCode : String) :
    PackageTransparencyEventKind → PackageTransparencyOutcome → Bool
  | .trustRootAdded, .allowed => reasonCode = "trust_root_added"
  | .trustRootRevoked, .allowed => reasonCode = "trust_root_revoked"
  | .admissionDecision, .allowed => reasonCode = "admitted"
  | .admissionDecision, .denied => reasonCode ∈ denialReasons
  | _, _ => false

/-- Which fields are present. -/
def fieldMatrixValid (draft : PackageTransparencyEventDraft) : Bool :=
  match draft.eventKind with
  | .trustRootAdded | .trustRootRevoked =>
    draft.outcome = .allowed && draft.keyId.isSome && draft.packageId.isNone &&
      draft.packageVersion.isNone && draft.artifactDigest.isNone
  | .admissionDecision =>
    draft.keyId.isNone && draft.packageId.isSome && draft.packageVersion.isSome &&
      (draft.artifactDigest.isSome || draft.reasonCode = "artifact_too_large")

def reasonCharacters (reasonCode : String) : Bool :=
  !reasonCode.isEmpty && reasonCode.utf8ByteSize ≤ 64 && (asBytes reasonCode).all fun byte =>
    (0x61 ≤ byte && byte ≤ 0x7a) || (0x30 ≤ byte && byte ≤ 0x39) || byte = 0x5f

def transparencyTextValid (draft : PackageTransparencyEventDraft) : Bool :=
  isBoundedTransparencyText draft.publisher 256 &&
    draft.keyId.all (isBoundedTransparencyText · 256) &&
    draft.packageId.all (isBoundedTransparencyText · 256) &&
    draft.packageVersion.all (isBoundedTransparencyText · 256) &&
    reasonCharacters draft.reasonCode &&
    transparencyReasonIsValid draft.reasonCode draft.eventKind draft.outcome

def transparencyDigestsValid (event : PackageTransparencyEvent) : Bool :=
  isSha256Digest event.subjectDigest && event.artifactDigest.all isSha256Digest &&
    event.previousEventDigest.all isSha256Digest && isSha256Digest event.eventDigest

def validateTransparencyEvent (event : PackageTransparencyEvent) : Except PackageStoreError Unit :=
  ensure (fieldMatrixValid event.toPackageTransparencyEventDraft ∧ transparencyDigestsValid event ∧
    transparencyTextValid event.toPackageTransparencyEventDraft ∧
    transparencyEventDigest env event.toPackageTransparencyEventDraft event.sequence
      event.previousEventDigest = event.eventDigest) .corruptRecord

/-- The loop of `validate_transparency_chain`: the number of the next event, and the digest of the
one before it. -/
def validateTransparencyEvents : ℕ → Option String → List PackageTransparencyEvent →
    Except PackageStoreError Unit
  | _, _, [] => pure ()
  | expected, previous, event :: rest => do
    validateTransparencyEvent env event
    ensure (expected ≤ maxPackageTransparencyEvents ∧ event.sequence = expected ∧
      event.previousEventDigest = previous) .corruptRecord
    validateTransparencyEvents (expected + 1) (some event.eventDigest) rest

def validateTransparencyChain (events : List PackageTransparencyEvent) :
    Except PackageStoreError Unit := validateTransparencyEvents env 1 none events

/-- `COALESCE(MAX(sequence), 0) + 1`. -/
def nextSequence (events : List PackageTransparencyEvent) : ℕ :=
  (events.map (·.sequence)).foldl max 0 + 1

/-- The event that is written for a draft. -/
def eventOf (events : List PackageTransparencyEvent) (draft : PackageTransparencyEventDraft) :
    PackageTransparencyEvent where
  toPackageTransparencyEventDraft := draft
  sequence := nextSequence events
  previousEventDigest := events.getLast?.map (·.eventDigest)
  eventDigest := transparencyEventDigest env draft (nextSequence events)
    (events.getLast?.map (·.eventDigest))

/-- `append_transparency_event`. The column of the digests is unique. -/
def appendTransparencyEvent (store : PackageStore) (draft : PackageTransparencyEventDraft) :
    Except PackageStoreError PackageStore := do
  validateTransparencyChain env store.events
  ensure (store.events.length < maxPackageTransparencyEvents) .transparencyCapacityReached
  let event := eventOf env store.events draft
  ensure (draft.occurredAt < 2 ^ 63) .corruptRecord
  ensure (event.eventDigest ∉ store.events.map (·.eventDigest)) .database
  pure { store with events := store.events ++ [event] }

def appendAdmissionEvent (store : PackageStore) (manifest : PackageManifest)
    (subjectDigest : String) (artifactDigest : Option String)
    (outcome : PackageTransparencyOutcome) (reasonCode : String) (occurredAt : ℕ) :
    Except PackageStoreError PackageStore :=
  appendTransparencyEvent env store {
    eventKind := .admissionDecision
    outcome := outcome
    occurredAt := occurredAt
    publisher := manifest.publisher
    keyId := none
    packageId := some manifest.id
    packageVersion := some manifest.version
    subjectDigest := subjectDigest
    artifactDigest := artifactDigest
    reasonCode := reasonCode }

/-- `load_transparency_events`: the last events of the kind and the outcome, if these are given. -/
def loadTransparencyEvents (events : List PackageTransparencyEvent)
    (eventKind : Option PackageTransparencyEventKind)
    (outcome : Option PackageTransparencyOutcome) (limit : ℕ) :
    Except PackageStoreError (List PackageTransparencyEvent) :=
  let selected := events.filter fun event =>
    eventKind.all (· = event.eventKind) && outcome.all (· = event.outcome)
  let newest := selected.insertionSort fun a b => b.sequence ≤ a.sequence
  (newest.take limit).mapM fun event => do
    validateTransparencyEvent env event
    pure event

def listTransparencyEvents (store : PackageStore)
    (eventKind : Option PackageTransparencyEventKind)
    (outcome : Option PackageTransparencyOutcome) (limit : ℕ) :
    Except PackageStoreError (List PackageTransparencyEvent) := do
  ensure (¬ (limit = 0 ∨ maxPackageTransparencyList < limit)) .invalidTransparencyLimit
  validateTransparencyChain env store.events
  loadTransparencyEvents env store.events eventKind outcome limit

def admissionReasonCode : HarnessRegistryError → String
  | .manifestMismatch => "manifest_mismatch"
  | .hashMismatch _ _ => "hash_mismatch"
  | .incompatibleRuntime _ _ => "incompatible_runtime"
  | .unverifiedTrustClaim => "unverified_trust_claim"
  | .signatureRequired => "signature_required"
  | .invalidSignatureEncoding => "invalid_signature_encoding"
  | .invalidSignature => "invalid_signature"
  | .officialTrustUnsupported => "official_trust_unsupported"
  | .wrongAdmissionBoundary _ _ => "wrong_admission_boundary"
  | .missingDependency _ _ => "missing_dependency"
  | .domainDependencyNotGene _ _ _ => "domain_dependency_not_gene"
  | .domainHarnessRequiresGene => "domain_requires_gene"
  | .metaDomainMissing _ => "meta_domain_missing"
  | .metaDomainNotDomain _ _ => "meta_member_not_domain"
  | .ambiguousMetaDomain _ => "ambiguous_meta_domain"
  | .reservedHarnessId _ => "reserved_harness_id"
  | .builtInReplacementRequiresVerifiedSignature _ => "replacement_signature_required"
  | .duplicateIdentity => "duplicate_identity"
  | .invalidPublisherTrustRoot => "invalid_publisher_trust_root"
  | .duplicatePublisherTrustRoot => "duplicate_publisher_trust_root"

/-! ## Loading -/

/-- `decode_trust_root`. -/
def decodeTrustRoot (record : PublisherTrustRootRecord) :
    Except PackageStoreError PublisherTrustRootRecord := do
  let root ← (PublisherTrustRoot.new env record.root.publisher record.root.keyId
    record.root.publicKey).mapError fun _ => .database
  pure { record with root := root }

def loadPublisherTrustRootRecords (store : PackageStore) :
    Except PackageStoreError (List PublisherTrustRootRecord) :=
  (store.trustRoots.rows.insertionSort fun a b => a.root.publisher < b.root.publisher ∨
    (a.root.publisher = b.root.publisher ∧ a.root.keyId ≤ b.root.keyId)).mapM (decodeTrustRoot env)

def loadPublisherTrustRoots (store : PackageStore) :
    Except PackageStoreError PublisherTrustRoots := do
  let records ← loadPublisherTrustRootRecords env store
  (records.filter (·.active)).foldlM (fun (roots : PublisherTrustRoots) record =>
    (roots.insert record.root).mapError fun _ => .corruptRecord) []

/-- A row that is installed, or put off because something it needs is not installed yet. -/
def loadRow (roots : PublisherTrustRoots) (registry : HarnessRegistry) (row : PackageRow) :
    Except PackageStoreError (Option HarnessRegistry) := do
  ensure (row.artifact.length ≤ maxStoredArtifactBytes) .corruptRecord
  let manifest ← orError (env.read row.manifestJson) .serialization
  match registry.install env manifest manifest row.artifact roots with
  | .ok (registry, record) => do
    ensure (record.state.asStr = row.state) .corruptRecord
    pure (some registry)
  | .error (.missingDependency _ _) | .error (.metaDomainMissing _) => pure none
  | .error _ => throw .corruptRecord

/-- One pass over the rows: the rows that are put off, and whether one was installed. -/
def loadPass (roots : PublisherTrustRoots) : HarnessRegistry → List PackageRow →
    Except PackageStoreError (HarnessRegistry × List PackageRow × Bool)
  | registry, [] => pure (registry, [], false)
  | registry, row :: rest => do
    match ← loadRow env roots registry row with
    | some registry => do
      let (registry, next, _) ← loadPass roots registry rest
      pure (registry, next, true)
    | none => do
      let (registry, next, progress) ← loadPass roots registry rest
      pure (registry, row :: next, progress)

/-- The passes. Each but the last leaves fewer rows, so there are at most as many as rows. -/
def loadPasses (roots : PublisherTrustRoots) : ℕ → HarnessRegistry → List PackageRow →
    Except PackageStoreError HarnessRegistry
  | _, registry, [] => pure registry
  | 0, _, _ :: _ => throw .corruptRecord
  | fuel + 1, registry, pending => do
    let (registry, next, progress) ← loadPass env roots registry pending
    ensure (progress = true) .corruptRecord
    loadPasses roots fuel registry next

def loadRegistry (store : PackageStore) : Except PackageStoreError HarnessRegistry := do
  let roots ← loadPublisherTrustRoots env store
  loadPasses env roots store.records.rows.length .new store.records.rows

/-! ## Bindings -/

/-- `active_bindings`: the version that is enabled. -/
def PackageStore.activeVersion (store : PackageStore) (id : String) : Option String :=
  (store.bindings.get? id).bind (·.activeVersion)

/-- `persist_binding`: the generation must fit a signed column. -/
def persistBinding (store : PackageStore) (binding : PackageBinding) :
    Except PackageStoreError PackageStore := do
  ensure (binding.generation < 2 ^ 63) .corruptRecord
  pure { store with bindings := store.bindings.upsert binding }

/-- `u64::saturating_add`. -/
def nextGeneration (generation : ℕ) : ℕ := min (generation + 1) (2 ^ 64 - 1)

/-- `PackageId::new` accepts the text. -/
def isPackageId (text : String) : Bool := !(trim text).isEmpty && text.utf8ByteSize ≤ 256

def checkEnabledDependency (active : String → Option String) (manifest : PackageManifest)
    (dependency : PackageDependency) : Except PackageStoreError Unit :=
  ensure (dependency.optional ∨ (builtinDependency manifest dependency).isSome ∨
    active dependency.id = some dependency.version)
    (.missingEnabledDependency dependency.id dependency.version)

def checkEnabledDomain (registry : HarnessRegistry) (active : String → Option String)
    (domain : String) : Except PackageStoreError Unit :=
  if builtinDomain domain then pure ()
  else do
    let version ← orError (active domain) (.missingEnabledDomain domain)
    ensure (isPackageId domain) .corruptRecord
    ensure ((registry.get domain version).any fun candidate =>
      candidate.manifest.kind = .domainHarness) (.missingEnabledDomain domain)

def ensureEnableable (registry : HarnessRegistry) (active : String → Option String)
    (record : PackageRecord) : Except PackageStoreError Unit := do
  record.manifest.dependencies.forM (checkEnabledDependency active record.manifest)
  if record.manifest.kind = .metaHarness then
    (allowedDomains record.manifest).forM (checkEnabledDomain registry active)
  else pure ()

/-- The package binds the given version of the given package. -/
def dependsOn (manifest : PackageManifest) (id version : String) : Bool :=
  manifest.dependencies.any fun dependency =>
    !dependency.optional && dependency.id = id && dependency.version = version

def nameOf (manifest : PackageManifest) : String := manifest.id ++ "@" ++ manifest.version

/-- A set of texts in order. -/
def asSet (texts : List String) : List String := texts.dedup.insertionSort (· ≤ ·)

def enabledDependents (registry : HarnessRegistry) (active : String → Option String)
    (id version : String) : List String :=
  asSet ((registry.list.filter fun candidate =>
    active candidate.manifest.id = some candidate.manifest.version &&
      !(candidate.manifest.id = id && candidate.manifest.version = version) &&
      (dependsOn candidate.manifest id version ||
        (candidate.manifest.kind = .metaHarness && composes candidate.manifest id))).map
    fun candidate => nameOf candidate.manifest)

def rejectEnabledDependents (registry : HarnessRegistry) (active : String → Option String)
    (id version : String) : Except PackageStoreError Unit :=
  let dependents := enabledDependents registry active id version
  ensure (dependents = []) (.hasEnabledDependents id version dependents)

/-- The dependents of the version that a binding enables, if it enables one. -/
def rejectCurrentDependents (registry : HarnessRegistry) (active : String → Option String)
    (id : String) (binding : PackageBinding) : Except PackageStoreError Unit :=
  match binding.activeVersion with
  | some current => rejectEnabledDependents registry active id current
  | none => pure ()

/-! ## Operations -/

/-- What an operation returns. -/
inductive PackageAnswer
  | record (record : PackageRecord)
  | removed (record : Option PackageRecord)
  | binding (binding : PackageBinding)
  | trustRoot (record : PublisherTrustRootRecord)

/-- A transaction that is committed: the store afterwards, and the result. -/
abbrev Committed := PackageStore × Except PackageStoreError PackageAnswer

/-- An admission that is denied is entered into the ledger. -/
def deny (store : PackageStore) (declared : PackageManifest) (subjectDigest : String)
    (artifactDigest : Option String) (reasonCode : String) (occurredAt : ℕ)
    (error : PackageStoreError) : Except PackageStoreError Committed := do
  let store ← appendAdmissionEvent env store declared subjectDigest artifactDigest .denied
    reasonCode occurredAt
  pure (store, .error error)

def rowOf (record : PackageRecord) (manifestJson : String) (artifact : List UInt8) :
    PackageRow where
  id := record.manifest.id
  version := record.manifest.version
  manifestJson := manifestJson
  artifact := artifact
  state := record.state.asStr

def admitAt (store : PackageStore) (declared embedded : PackageManifest) (artifact : List UInt8)
    (occurredAt : ℕ) : Except PackageStoreError Committed := do
  let declaredJson ← orError (env.write declared) .serialization
  let subjectDigest := hashArtifact env (asBytes declaredJson)
  if maxStoredArtifactBytes < artifact.length then
    deny env store declared subjectDigest none "artifact_too_large" occurredAt .artifactTooLarge
  else
    let artifactDigest := hashArtifact env artifact
    if declared = embedded ∧ embedded.kind = .gene ∧ embedded.geneContract.isSome ∧
      env.validArtifact embedded artifact = false then
      deny env store declared subjectDigest (some artifactDigest) "invalid_gene_artifact"
        occurredAt .invalidGeneArtifact
    else do
      let registry ← loadRegistry env store
      let roots ← loadPublisherTrustRoots env store
      match registry.install env declared embedded artifact roots with
      | .error error =>
        deny env store declared subjectDigest (some artifactDigest) (admissionReasonCode error)
          occurredAt (.admission error)
      | .ok (_, record) => do
        let manifestJson ← orError (env.write record.manifest) .serialization
        let records ← orError (store.records.insert? (rowOf record manifestJson artifact)) .database
        let store ← appendAdmissionEvent env { store with records := records } declared
          subjectDigest (some artifactDigest) .allowed "admitted" occurredAt
        pure (store, .ok (.record record))

def addPublisherTrustRoot (store : PackageStore) (publisher keyId publicKey : String)
    (addedAt : ℕ) : Except PackageStoreError Committed := do
  let root ← (PublisherTrustRoot.new env publisher keyId publicKey).mapError .admission
  ensure (addedAt < 2 ^ 63) .corruptRecord
  ensure (store.trustRoots.rows.length < maxPublisherTrustRoots) .corruptRecord
  let record : PublisherTrustRootRecord := ⟨root, addedAt, none⟩
  let trustRoots ← orError (store.trustRoots.insert? record) .trustRootAlreadyExists
  let store ← appendTransparencyEvent env { store with trustRoots := trustRoots } {
    eventKind := .trustRootAdded
    outcome := .allowed
    occurredAt := addedAt
    publisher := root.publisher
    keyId := some root.keyId
    packageId := none
    packageVersion := none
    subjectDigest := hashArtifact env (asBytes root.publicKey)
    artifactDigest := none
    reasonCode := "trust_root_added" }
  pure (store, .ok (.trustRoot record))

/-- The packages that rely on the key. -/
def affectedIds (store : PackageStore) (publisher publicKey : String) :
    Except PackageStoreError (List String) := do
  let manifests ← store.records.rows.mapM fun row =>
    orError (env.read row.manifestJson) PackageStoreError.corruptRecord
  pure ((manifests.filter fun manifest => manifest.publisher = publisher &&
    manifest.trust.publicKey = some publicKey).map (·.id))

def revokePublisherTrustRoot (store : PackageStore) (publisher keyId : String)
    (revokedAt : ℕ) : Except PackageStoreError Committed := do
  ensure (revokedAt < 2 ^ 63) .corruptRecord
  let row ← orError (store.trustRoots.get? (publisher, keyId)) .trustRootNotFound
  let record ← decodeTrustRoot env row
  if record.revokedAt.isSome then pure (store, .ok (.trustRoot record))
  else do
    let revoked : PublisherTrustRootRecord := { record with revokedAt := some revokedAt }
    let ids ← affectedIds env store publisher record.root.publicKey
    let store := { store with
      trustRoots := store.trustRoots.upsert revoked
      bindings := store.bindings.delete fun binding => ids.contains binding.id }
    let store ← appendTransparencyEvent env store {
      eventKind := .trustRootRevoked
      outcome := .allowed
      occurredAt := revokedAt
      publisher := record.root.publisher
      keyId := some record.root.keyId
      packageId := none
      packageVersion := none
      subjectDigest := hashArtifact env (asBytes record.root.publicKey)
      artifactDigest := none
      reasonCode := "trust_root_revoked" }
    pure (store, .ok (.trustRoot revoked))

/-- The version that was enabled before, to return to. -/
def previousVersion (existing : Option PackageBinding) (version : String) : Option String :=
  existing.bind fun binding =>
    (binding.activeVersion.or binding.previousVersion).filter (· ≠ version)

def enable (store : PackageStore) (id version : String) :
    Except PackageStoreError Committed := do
  let registry ← loadRegistry env store
  let record ← orError (registry.get id version) (.packageNotFound id version)
  let existing := store.bindings.get? id
  match existing with
  | some binding =>
    if binding.enables version then pure (store, .ok (.binding binding))
    else do
      rejectCurrentDependents registry store.activeVersion id binding
      ensureEnableable registry store.activeVersion record
      let binding := ⟨id, some version, previousVersion existing version,
        nextGeneration binding.generation⟩
      let store ← persistBinding store binding
      pure (store, .ok (.binding binding))
  | none => do
    ensureEnableable registry store.activeVersion record
    let binding := ⟨id, some version, none, 1⟩
    let store ← persistBinding store binding
    pure (store, .ok (.binding binding))

def disable (store : PackageStore) (id version : String) :
    Except PackageStoreError Committed := do
  let registry ← loadRegistry env store
  let _ ← orError (registry.get id version) (.packageNotFound id version)
  let existing ← orError (store.bindings.get? id) (.packageNotEnabled id version)
  ensure (existing.enables version) (.packageNotEnabled id version)
  rejectEnabledDependents registry store.activeVersion id version
  let binding := ⟨id, none, some version, nextGeneration existing.generation⟩
  let store ← persistBinding store binding
  pure (store, .ok (.binding binding))

def rollback (store : PackageStore) (id : String) : Except PackageStoreError Committed := do
  let registry ← loadRegistry env store
  let existing ← orError (store.bindings.get? id) (.noRollbackBinding id)
  let target ← orError existing.previousVersion (.noRollbackBinding id)
  let record ← orError (registry.get id target) (.packageNotFound id target)
  rejectCurrentDependents registry store.activeVersion id existing
  -- the version to return to counts as enabled, and the present one does not
  ensureEnableable registry (Function.update store.activeVersion id (some target)) record
  let binding := ⟨id, some target, existing.activeVersion, nextGeneration existing.generation⟩
  let store ← persistBinding store binding
  pure (store, .ok (.binding binding))

/-- The binding, without the package as a version to return to. -/
def releaseBinding (store : PackageStore) (id version : String) :
    Except PackageStoreError PackageStore :=
  match store.bindings.get? id with
  | none => pure store
  | some binding => do
    ensure (binding.activeVersion ≠ some version) (.packageBound id version "active")
    if binding.previousVersion = some version then do
      ensure (binding.activeVersion = none) (.packageBound id version "rollback")
      pure { store with bindings := store.bindings.delete fun other => other.id = id }
    else pure store

/-- The installed packages that need the package. -/
def installedDependents (registry : HarnessRegistry) (record : PackageRecord)
    (id version : String) : List String :=
  (registry.list.filter fun candidate =>
    !(candidate.manifest.id = id && candidate.manifest.version = version) &&
      (dependsOn candidate.manifest id version ||
        (record.manifest.kind = .domainHarness && composes candidate.manifest id))).map
    fun candidate => nameOf candidate.manifest

def remove (store : PackageStore) (id version : String) :
    Except PackageStoreError Committed := do
  let registry ← loadRegistry env store
  match registry.get id version with
  | none => pure (store, .ok (.removed none))
  | some record => do
    let store ← releaseBinding store id version
    let dependents := installedDependents registry record id version
    ensure (dependents = []) (.hasDependents id version dependents)
    ensure ((store.records.get? (id, version)).isSome) .corruptRecord
    pure ({ store with records := store.records.delete fun row => row.key = (id, version) },
      .ok (.removed (some record)))

/-! ## Sequences of operations -/

inductive PackageRequest
  | admitAt (declared embedded : PackageManifest) (artifact : List UInt8) (occurredAt : ℕ)
  | enable (id version : String)
  | disable (id version : String)
  | rollback (id : String)
  | remove (id version : String)
  | addPublisherTrustRoot (publisher keyId publicKey : String) (addedAt : ℕ)
  | revokePublisherTrustRoot (publisher keyId : String) (revokedAt : ℕ)

def perform (store : PackageStore) : PackageRequest → Except PackageStoreError Committed
  | .admitAt declared embedded artifact occurredAt =>
    admitAt env store declared embedded artifact occurredAt
  | .enable id version => enable env store id version
  | .disable id version => disable env store id version
  | .rollback id => rollback env store id
  | .remove id version => remove env store id version
  | .addPublisherTrustRoot publisher keyId publicKey addedAt =>
    addPublisherTrustRoot env store publisher keyId publicKey addedAt
  | .revokePublisherTrustRoot publisher keyId revokedAt =>
    revokePublisherTrustRoot env store publisher keyId revokedAt

/-- A request that fails changes nothing. -/
def exec (store : PackageStore) (request : PackageRequest) : Committed :=
  match perform env store request with
  | .ok committed => committed
  | .error error => (store, .error error)

def machine : Machine PackageStore PackageRequest (Except PackageStoreError PackageAnswer) where
  step := exec env

end Pandora.Packages.Store
