import Pandora.Packages.Store

/-! # The distribution store

`package_distribution.rs`: packages that were downloaded and verified, the version of each package
that was admitted, and a log of events. It shares the database of the package store, where the trust
roots of the publishers are. An operation is a transaction: if it fails nothing is changed.

A version is admitted in two steps, `prepareAdmission` and `recordAdmission`, between which the
package is brought into its place. What became active for a package, and which keys were revoked
here, is recorded beside the store (`Observed`). -/

namespace Pandora.Packages.Distribution

open Text Lib.Checked Lib.Tables Lib.Runs Packages.Manifest Packages.Registry Packages.Store

def maxDistributionRecords : ℕ := 1024
def maxDistributionEvents : ℕ := 8192
def maxSourceTextBytes : ℕ := 2048

/-- `Version::parse` of `semver`, with the order of its versions. -/
structure DistributionEnv (V : Type) extends PackageEnv where
  parseVersion : String → Option V
  version_eq : ∀ text, semver.version text = (parseVersion text).isSome

/-! ## Rows -/

inductive DistributionSourceKind
  | registry | gitHub
deriving DecidableEq

def DistributionSourceKind.asStr : DistributionSourceKind → String
  | .registry => "registry"
  | .gitHub => "github"

structure DistributionSource where
  kind : DistributionSourceKind
  (locator revision : String)
deriving DecidableEq

inductive DistributionState
  | cached | admitted | revoked
deriving DecidableEq

/-- A package that was cached from a source. -/
structure DistributionRecord where
  manifest : PackageManifest
  artifact : List UInt8
  source : DistributionSource
  publisherKeyId : String
  cachedAt : ℕ
  admittedAt : Option ℕ
  state : DistributionState

/-- A row of `package_distribution_cache`. -/
structure CacheRow where
  (id version manifestJson : String)
  artifact : List UInt8
  source : DistributionSource
  publisherKeyId : String
  cachedAt : ℕ
  admittedAt : Option ℕ
  state : DistributionState

def CacheRow.key (row : CacheRow) : String × String := (row.id, row.version)

structure DistributionBinding where
  (id activeVersion : String)
  previousVersion : Option String
  generation : ℕ

/-- The binding names the version, as the active or as the previous one. -/
def DistributionBinding.names (binding : DistributionBinding) (version : String) : Bool :=
  binding.activeVersion = version || binding.previousVersion = some version

inductive DistributionEventKind
  | downloadVerified | offlineVerified | admitted | revoked

def DistributionEventKind.asStr : DistributionEventKind → String
  | .downloadVerified => "download_verified"
  | .offlineVerified => "offline_verified"
  | .admitted => "admitted"
  | .revoked => "revoked"

structure DistributionEvent where
  sequence : ℕ
  eventKind : DistributionEventKind
  occurredAt : ℕ
  (packageId packageVersion : String)
  packageKind : PackageKind
  (publisher publisherKeyId manifestDigest artifactDigest : String)
  source : DistributionSource
  previousEventDigest : Option String
  eventDigest : String

inductive PackageDistributionError
  | database
  | serialization
  | corruptStore
  | capacityReached
  | artifactTooLarge
  | invalidSource
  | invalidManifest
  | unsupportedKind (kind : PackageKind)
  | hashMismatch
  | incompatibleRuntime
  | untrustedPublisher
  | revokedPublisher
  | invalidSignature
  | identityConflict
  | notFound
  | revoked
  | missingDependency (id version : String)
  | downgradeDenied (active requested : String)

/-- The database: the tables of the package store, and those of the distribution store. -/
structure DistributionStore where
  packages : PackageStore
  cache : Table CacheRow.key
  bindings : Table DistributionBinding.id
  events : List DistributionEvent

def DistributionStore.empty : DistributionStore := ⟨.empty, .empty, .empty, []⟩

variable {V : Type} (env : DistributionEnv V)

/-! ## Checks of a package -/

def DistributionSource.validate (source : DistributionSource) :
    Except PackageDistributionError Unit := do
  ensure (¬ [source.locator, source.revision].any fun value =>
    value.isEmpty || decide (maxSourceTextBytes < value.utf8ByteSize) || value.toList.any isControl)
    .invalidSource
  match source.kind with
  | .registry => ensure ((env.parseVersion source.revision).isSome) .invalidSource
  | .gitHub =>
    ensure (source.revision.utf8ByteSize = 40 ∧ isLowerHex (asBytes source.revision)) .invalidSource

def distributable (kind : PackageKind) : Bool :=
  kind ∈ [.gene, .domainHarness, .metaHarness, .provider, .skill]

/-- `ORDER BY key_id ASC LIMIT 1`, among the roots that are not revoked. -/
def activeKey (store : DistributionStore) (publisher publicKey : String) : Option String :=
  ((store.packages.trustRoots.rows.filter fun record => record.root.publisher = publisher &&
    record.root.publicKey = publicKey && record.active).map (·.root.keyId)).insertionSort
      (· ≤ ·) |>.head?

/-- There is a root with the key, and it is revoked. -/
def revokedKey (store : DistributionStore) (publisher publicKey : String) : Bool :=
  store.packages.trustRoots.rows.any fun record => record.root.publisher = publisher &&
    record.root.publicKey = publicKey && !record.active

/-- The identifier of the key that the package is signed with. -/
def verifyCandidate (store : DistributionStore) (manifest : PackageManifest)
    (artifact : List UInt8) : Except PackageDistributionError String := do
  (manifest.validate env.semver).mapError fun _ => .invalidManifest
  ensure (distributable manifest.kind) (.unsupportedKind manifest.kind)
  ensure (artifact.length ≤ maxStoredArtifactBytes) .artifactTooLarge
  ensure (hashArtifact env.toPackageEnv artifact = manifest.contentHash) .hashMismatch
  let compatible ← (matchesRuntime env.semver manifest.runtime env.runtimeVersion).mapError
    fun _ => .invalidManifest
  ensure (compatible = true) .incompatibleRuntime
  ensure (manifest.trust.level = .official) .untrustedPublisher
  let publicKey ← orError manifest.trust.publicKey .untrustedPublisher
  let keyId ← orError (activeKey store manifest.publisher publicKey)
    (if revokedKey store manifest.publisher publicKey then .revokedPublisher
      else .untrustedPublisher)
  (verifyPackageSignatureWithKey env.toPackageEnv manifest publicKey).mapError
    fun _ => .invalidSignature
  pure keyId

/-- The version is admitted here, or installed in the package store. -/
def admittedPackage (store : DistributionStore) (id version : String) : Bool :=
  ((store.cache.get? (id, version)).any fun row => row.state = .admitted) ||
    (store.packages.records.get? (id, version)).isSome

def verifyDependencies (store : DistributionStore) (manifest : PackageManifest) :
    Except PackageDistributionError Unit :=
  (manifest.dependencies.filter fun dependency => !dependency.optional).forM fun dependency =>
    ensure (admittedPackage store dependency.id dependency.version)
      (.missingDependency dependency.id dependency.version)

/-! ## Reading -/

/-- `decode_record`. -/
def decodeRecord (row : CacheRow) : Except PackageDistributionError DistributionRecord := do
  let manifest ← orError (env.read row.manifestJson) .database
  (row.source.validate env).mapError fun _ => .database
  pure ⟨manifest, row.artifact, row.source, row.publisherKeyId, row.cachedAt, row.admittedAt,
    row.state⟩

def loadRecord (store : DistributionStore) (id version : String) :
    Except PackageDistributionError (Option DistributionRecord) :=
  match store.cache.get? (id, version) with
  | none => pure none
  | some row => do pure (some (← decodeRecord env row))

/-- The record of a version that must be there. -/
def requireRecord (store : DistributionStore) (id version : String) :
    Except PackageDistributionError DistributionRecord := do
  let record ← loadRecord env store id version
  orError record .notFound

def loadBinding (store : DistributionStore) (id : String) : Option DistributionBinding :=
  store.bindings.get? id

def loadRecordsForKey (store : DistributionStore) (publisher keyId : String) :
    Except PackageDistributionError (List DistributionRecord) := do
  let rows := (store.cache.rows.filter fun row => row.publisherKeyId = keyId).insertionSort
    fun a b => a.id < b.id ∨ (a.id = b.id ∧ a.version ≤ b.version)
  let records ← (rows.mapM (decodeRecord env)).mapError fun _ => .corruptStore
  pure (records.filter fun record => record.manifest.publisher = publisher)

/-! ## The log -/

/-- `append_digest_field`. -/
def digestField (field : String × String) : String :=
  toString field.1.utf8ByteSize ++ ":" ++ field.1 ++ ":" ++ toString field.2.utf8ByteSize ++ ":" ++
    field.2 ++ "\n"

/-- The fields that are hashed. -/
def digestFields (event : DistributionEvent) : List (String × String) :=
  [("sequence", toString event.sequence), ("event_kind", event.eventKind.asStr),
    ("occurred_at", toString event.occurredAt), ("package_id", event.packageId),
    ("package_version", event.packageVersion), ("package_kind", event.packageKind.asStr),
    ("publisher", event.publisher), ("publisher_key_id", event.publisherKeyId),
    ("manifest_digest", event.manifestDigest), ("artifact_digest", event.artifactDigest),
    ("source_kind", event.source.kind.asStr), ("source_locator", event.source.locator),
    ("source_revision", event.source.revision),
    ("previous", event.previousEventDigest.getD "")]

/-- `event_digest`. -/
def eventDigest (event : DistributionEvent) : String :=
  hashArtifact env.toPackageEnv ((digestFields event).flatMap fun field =>
    asBytes (digestField field))

/-- The event after the given ones. -/
def eventOf (events : List DistributionEvent) (eventKind : DistributionEventKind)
    (occurredAt : ℕ) (record : DistributionRecord) (manifestJson : String) : DistributionEvent :=
  let event : DistributionEvent := {
    sequence := events.length + 1
    eventKind := eventKind
    occurredAt := occurredAt
    packageId := record.manifest.id
    packageVersion := record.manifest.version
    packageKind := record.manifest.kind
    publisher := record.manifest.publisher
    publisherKeyId := record.publisherKeyId
    manifestDigest := hashArtifact env.toPackageEnv (asBytes manifestJson)
    artifactDigest := hashArtifact env.toPackageEnv record.artifact
    source := record.source
    previousEventDigest := events.getLast?.map (·.eventDigest)
    eventDigest := "" }
  { event with eventDigest := eventDigest env event }

/-- `append_event`. The column of the digests is unique. -/
def appendEvent (store : DistributionStore) (eventKind : DistributionEventKind)
    (occurredAt : ℕ) (record : DistributionRecord) :
    Except PackageDistributionError DistributionStore := do
  ensure (store.events.length < maxDistributionEvents) .capacityReached
  let manifestJson ← orError (env.write record.manifest) .serialization
  let event := eventOf env store.events eventKind occurredAt record manifestJson
  ensure (occurredAt < 2 ^ 63) .corruptStore
  ensure (event.eventDigest ∉ store.events.map (·.eventDigest)) .database
  pure { store with events := store.events ++ [event] }

/-! ## Operations -/

/-- What an operation returns. -/
inductive DistributionAnswer
  | mutation (record : DistributionRecord) (changed : Bool)
  | record (record : DistributionRecord)
  | records (records : List DistributionRecord)
  | packages (result : Except PackageStoreError PackageAnswer)

/-- A transaction that is committed: the store afterwards, and the result. -/
abbrev Committed := DistributionStore × DistributionAnswer

def rowOf (record : DistributionRecord) (manifestJson : String) : CacheRow where
  id := record.manifest.id
  version := record.manifest.version
  manifestJson := manifestJson
  artifact := record.artifact
  source := record.source
  publisherKeyId := record.publisherKeyId
  cachedAt := record.cachedAt
  admittedAt := record.admittedAt
  state := record.state

/-- A package that is not in the cache yet is entered. -/
def cacheRecord (store : DistributionStore) (record : DistributionRecord) (manifestJson : String)
    (occurredAt : ℕ) : Except PackageDistributionError Committed := do
  ensure (store.cache.rows.length < maxDistributionRecords) .capacityReached
  ensure (occurredAt < 2 ^ 63) .corruptStore
  let cache ← orError (store.cache.insert? (rowOf record manifestJson)) .database
  let store ← appendEvent env { store with cache := cache } .downloadVerified occurredAt record
  pure (store, .mutation record true)

def cacheVerified (store : DistributionStore) (manifest : PackageManifest)
    (artifact : List UInt8) (source : DistributionSource) (occurredAt : ℕ) :
    Except PackageDistributionError Committed := do
  source.validate env
  let keyId ← verifyCandidate env store manifest artifact
  let manifestJson ← orError (env.write manifest) .serialization
  let existing ← loadRecord env store manifest.id manifest.version
  match existing with
  | some existing => do
    ensure (existing.manifest = manifest ∧ existing.artifact = artifact ∧
      existing.source = source ∧ existing.publisherKeyId = keyId) .identityConflict
    pure (store, .mutation existing false)
  | none =>
    cacheRecord env store ⟨manifest, artifact, source, keyId, occurredAt, none, .cached⟩
      manifestJson occurredAt

/-- The record is not revoked, and still verified by the key it was verified by. -/
def verifyRecord (store : DistributionStore) (id version : String) :
    Except PackageDistributionError DistributionRecord := do
  let record ← requireRecord env store id version
  ensure (record.state ≠ .revoked) .revoked
  let keyId ← verifyCandidate env store record.manifest record.artifact
  ensure (keyId = record.publisherKeyId) .identityConflict
  pure record

def verifyOffline (store : DistributionStore) (id version : String) (occurredAt : ℕ) :
    Except PackageDistributionError Committed := do
  let record ← verifyRecord env store id version
  let store ← appendEvent env store .offlineVerified occurredAt record
  pure (store, .record record)

def verifyCurrent (store : DistributionStore) (id version : String) :
    Except PackageDistributionError Committed := do
  let record ← verifyRecord env store id version
  pure (store, .record record)

section Admission
variable [LinearOrder V]

/-- A version that is to become active is above the one that is. -/
def checkUpgrade (binding : DistributionBinding) (version : String) :
    Except PackageDistributionError Unit := do
  let active ← orError (env.parseVersion binding.activeVersion) .corruptStore
  let requested ← orError (env.parseVersion version) .invalidManifest
  ensure (active < requested) (.downgradeDenied binding.activeVersion version)

def prepareAdmission (store : DistributionStore) (id version : String) :
    Except PackageDistributionError Committed := do
  let record ← verifyRecord env store id version
  verifyDependencies store record.manifest
  match loadBinding store id with
  | none => pure (store, .record record)
  | some binding =>
    if binding.activeVersion = version then pure (store, .record record)
    else do
      checkUpgrade env binding version
      pure (store, .record record)

/-- The binding that makes the version active. -/
def nextBinding (existing : Option DistributionBinding) (id version : String) :
    DistributionBinding where
  id := id
  activeVersion := version
  previousVersion := existing.map (·.activeVersion)
  generation := existing.elim 1 fun binding => nextGeneration binding.generation

/-- `UPDATE … SET state = …, admitted_at = …` of one version. -/
def setAdmitted (cache : Table CacheRow.key) (id version : String) (occurredAt : ℕ) :
    Table CacheRow.key :=
  cache.update (fun row => row.key = (id, version))
    (fun row => { row with state := .admitted, admittedAt := some occurredAt })
    fun _ _ => rfl

/-- The version becomes active. -/
def bindVersion (store : DistributionStore) (existing : Option DistributionBinding)
    (id version : String) (occurredAt : ℕ) (record : DistributionRecord) :
    Except PackageDistributionError Committed := do
  let binding := nextBinding existing id version
  ensure (binding.generation < 2 ^ 63) .corruptStore
  ensure (occurredAt < 2 ^ 63) .corruptStore
  let store := { store with
    bindings := store.bindings.upsert binding
    cache := setAdmitted store.cache id version occurredAt }
  let record := { record with state := .admitted, admittedAt := some occurredAt }
  let store ← appendEvent env store .admitted occurredAt record
  pure (store, .mutation record true)

/-- `record_admission` does not look whether the record is revoked. -/
def recordAdmission (store : DistributionStore) (id version artifactDigest : String)
    (occurredAt : ℕ) : Except PackageDistributionError Committed := do
  let record ← requireRecord env store id version
  ensure (hashArtifact env.toPackageEnv record.artifact = artifactDigest) .identityConflict
  let keyId ← verifyCandidate env store record.manifest record.artifact
  ensure (keyId = record.publisherKeyId) .identityConflict
  verifyDependencies store record.manifest
  match loadBinding store id with
  | none => bindVersion env store none id version occurredAt record
  | some binding =>
    if binding.activeVersion = version ∧ record.state = .admitted then
      pure (store, .mutation record false)
    else do
      checkUpgrade env binding version
      bindVersion env store (some binding) id version occurredAt record

end Admission

/-- `UPDATE … SET state = 'revoked'` of one version. -/
def setRevoked (cache : Table CacheRow.key) (id version : String) : Table CacheRow.key :=
  cache.update (fun row => row.key = (id, version)) (fun row => { row with state := .revoked })
    fun _ _ => rfl

/-- A record that is revoked already is passed over. -/
def revokeRecord (store : DistributionStore) (occurredAt : ℕ) (record : DistributionRecord) :
    Except PackageDistributionError (DistributionStore × DistributionRecord) :=
  if record.state = .revoked then pure (store, record)
  else do
    let record := { record with state := .revoked }
    let store := { store with
      cache := setRevoked store.cache record.manifest.id record.manifest.version
      bindings := store.bindings.delete fun binding =>
        binding.id = record.manifest.id && binding.names record.manifest.version }
    let store ← appendEvent env store .revoked occurredAt record
    pure (store, record)

/-- The loop of `revoke_publisher_key`. -/
def revokeRecords (occurredAt : ℕ) : DistributionStore → List DistributionRecord →
    Except PackageDistributionError (DistributionStore × List DistributionRecord)
  | store, [] => pure (store, [])
  | store, record :: rest => do
    let (store, record) ← revokeRecord env store occurredAt record
    let (store, rest) ← revokeRecords occurredAt store rest
    pure (store, record :: rest)

def revokePublisherKey (store : DistributionStore) (publisher keyId : String) (occurredAt : ℕ) :
    Except PackageDistributionError Committed := do
  let records ← loadRecordsForKey env store publisher keyId
  let (store, records) ← revokeRecords env occurredAt store records
  pure (store, .records records)

/-! ## Sequences of operations -/

inductive DistributionRequest
  | cacheVerified (manifest : PackageManifest) (artifact : List UInt8)
      (source : DistributionSource) (occurredAt : ℕ)
  | verifyOffline (id version : String) (occurredAt : ℕ)
  | verifyCurrent (id version : String)
  | prepareAdmission (id version : String)
  | recordAdmission (id version artifactDigest : String) (occurredAt : ℕ)
  | revokePublisherKey (publisher keyId : String) (occurredAt : ℕ)
  /-- An operation of the package store on the same database. -/
  | packages (request : PackageRequest)

variable [LinearOrder V]

def perform (store : DistributionStore) :
    DistributionRequest → Except PackageDistributionError Committed
  | .cacheVerified manifest artifact source occurredAt =>
    cacheVerified env store manifest artifact source occurredAt
  | .verifyOffline id version occurredAt => verifyOffline env store id version occurredAt
  | .verifyCurrent id version => verifyCurrent env store id version
  | .prepareAdmission id version => prepareAdmission env store id version
  | .recordAdmission id version artifactDigest occurredAt =>
    recordAdmission env store id version artifactDigest occurredAt
  | .revokePublisherKey publisher keyId occurredAt =>
    revokePublisherKey env store publisher keyId occurredAt
  | .packages request =>
    let (packages, result) := exec env.toPackageEnv store.packages request
    .ok ({ store with packages := packages }, .packages result)

/-- The version that is active for the package. -/
def DistributionStore.activeVersion (store : DistributionStore) (id : String) : Option String :=
  (loadBinding store id).map (·.activeVersion)

/-- The store, the versions that became active, by package and in order, and the keys that were
revoked. -/
structure Observed where
  store : DistributionStore
  (bound revokedKeys : List (String × String))

def Observed.empty : Observed := ⟨.empty, [], []⟩

/-- The versions that are active afterwards and were not before. -/
def newlyBound (store store' : DistributionStore) : List (String × String) :=
  (store'.bindings.rows.filter fun binding =>
    store.activeVersion binding.id ≠ some binding.activeVersion).map
      fun binding => (binding.id, binding.activeVersion)

/-- The key that the request revokes. -/
def DistributionRequest.revokes : DistributionRequest → List (String × String)
  | .revokePublisherKey publisher keyId _ => [(publisher, keyId)]
  | _ => []

/-- The state after an operation that succeeds. -/
def Observed.next (s : Observed) (store : DistributionStore) (request : DistributionRequest) :
    Observed :=
  ⟨store, s.bound ++ newlyBound s.store store, s.revokedKeys ++ request.revokes⟩

/-- A request that fails changes nothing. -/
def Observed.step (s : Observed) (request : DistributionRequest) :
    Observed × Except PackageDistributionError DistributionAnswer :=
  match perform env s.store request with
  | .error error => (s, .error error)
  | .ok (store, answer) => (s.next store request, .ok answer)

def machine : Machine Observed DistributionRequest
    (Except PackageDistributionError DistributionAnswer) where
  step := Observed.step env

end Pandora.Packages.Distribution
