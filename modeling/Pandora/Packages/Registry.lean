import Pandora.Packages.Manifest
import Pandora.Lib.Tables

/-! # The harness registry

`install_with_trust_roots` of `harness_registry.rs`: a package is checked on its own (its manifest,
its artifact, the runtime, its signature, the reserved identifiers) and then against the packages
that are installed, its dependencies and the domains of its composition.

The built-in genes and harnesses are those of `pandora-harnesses`. The signature scheme, base 64 and
`serde_json` are parameters. -/

namespace Pandora.Packages.Registry

open Text Lib.Checked Lib.Tables Packages.Manifest
open Context.Fragments (sha256Digest)

/-- Code outside the repository, and the version of the runtime. -/
structure PackageEnv where
  semver : SemVer
  sha : Sha256
  runtimeVersion : String
  /-- `VerifyingKey::from_bytes` accepts the key. -/
  validKey : List UInt8 → Bool
  /-- The key, the message and the signature. -/
  verifies : List UInt8 → List UInt8 → List UInt8 → Bool
  decodeBase64 : String → Option (List UInt8)
  write : PackageManifest → Option String
  read : String → Option PackageManifest
  /-- `WasmExecutor::validate_artifact`. -/
  validArtifact : PackageManifest → List UInt8 → Bool

def hashArtifact (env : PackageEnv) (artifact : List UInt8) : String :=
  sha256Digest env.sha artifact

/-! ## The built-in genes and harnesses -/

inductive HarnessKind
  | source | «meta» | domain
deriving DecidableEq

/-- `PackageKind::from`. -/
def PackageKind.ofHarness : HarnessKind → PackageKind
  | .source => .sourceHarness
  | .«meta» => .metaHarness
  | .domain => .domainHarness

structure BuiltinHarness where
  (id version : String)
  kind : HarnessKind

def builtinHarnesses : List BuiltinHarness :=
  [⟨"core-source", "0.1.0", .source⟩, ⟨"coding-domain", "0.1.0", .domain⟩,
    ⟨"research-domain", "0.1.0", .domain⟩, ⟨"design-domain", "0.1.0", .domain⟩,
    ⟨"operations-domain", "0.1.0", .domain⟩, ⟨"security-domain", "0.1.0", .domain⟩,
    ⟨"debugging-domain", "0.1.0", .domain⟩, ⟨"data-domain", "0.1.0", .domain⟩,
    ⟨"architecture-domain", "0.1.0", .domain⟩, ⟨"verification-domain", "0.1.0", .domain⟩,
    ⟨"coordination-meta", "0.4.0", .«meta»⟩, ⟨"evolution-meta", "0.1.0", .«meta»⟩,
    ⟨"swarm-meta", "0.1.0", .«meta»⟩]

/-- The identifiers of the built-in genes, all of them in version 0.1.0. -/
def builtinGeneIds : List String :=
  ["workspace.read", "workspace.search", "patch.apply", "verification.run", "tests.run",
    "format.check", "lint.check", "build.check", "workspace.status", "workspace.diff",
    "workspace.log", "workspace.refs", "change.review", "daedalus.audit", "argus.review",
    "ariadne.debt", "hephaestus.measure", "athena.guide", "evidence.inventory", "evidence.search",
    "source.read", "source.compare", "browser.fetch", "citation.inventory", "research.guide",
    "design.inventory", "design.tokens", "design.inspect", "design.compare",
    "accessibility.evidence", "design.guide", "operations.inventory", "operations.search",
    "config.inspect", "config.compare", "deployment.evidence", "operations.guide",
    "security.assess", "security.audit", "security.scan", "security.deep-scan",
    "security.diff-scan", "security.dependencies", "security.threat-model", "security.discovery",
    "security.triage", "security.attack-path", "security.validation", "security.fix",
    "security.verify-fix", "security.writeup", "security.track", "security.hardening",
    "security.policy", "security.guide", "debugging.inventory", "debugging.failures",
    "debugging.tests", "debugging.regressions", "debugging.diagnostics", "debugging.guide",
    "data.inventory", "data.schema", "data.quality", "data.lineage", "data.analysis", "data.guide",
    "architecture.inventory", "architecture.boundaries", "architecture.invariants",
    "architecture.guide", "verification.contract", "verification.golden", "verification.property",
    "verification.guide", "verification.visual"]

def builtinGeneAvailable (id version : String) : Bool :=
  builtinGeneIds.contains id && version = "0.1.0"

def replaceableBuiltinHarnessKind (id : String) : Option HarnessKind :=
  if id ∈ ["coding-domain", "research-domain", "design-domain", "operations-domain",
    "security-domain", "debugging-domain", "data-domain", "architecture-domain",
    "verification-domain"] then some .domain
  else if id ∈ ["coordination-meta", "evolution-meta", "swarm-meta"] then some .«meta»
  else none

/-! ## Records and errors -/

inductive PackageState
  | installed | admitted
deriving DecidableEq

def PackageState.asStr : PackageState → String
  | .installed => "installed"
  | .admitted => "admitted"

structure PackageRecord where
  manifest : PackageManifest
  state : PackageState
deriving DecidableEq

def PackageRecord.key (record : PackageRecord) : String × String :=
  (record.manifest.id, record.manifest.version)

inductive PackageAdmissionBoundary
  | harnessRegistry | constitutionalSource | dataOnly | providerConfiguration | skillEngine
deriving DecidableEq

/-- The boundary of `PackageAdmission::rule_for`. -/
def admissionBoundary : PackageKind → PackageAdmissionBoundary
  | .gene | .domainHarness | .metaHarness => .harnessRegistry
  | .sourceHarness => .constitutionalSource
  | .package => .dataOnly
  | .provider => .providerConfiguration
  | .skill => .skillEngine

inductive HarnessRegistryError
  | manifestMismatch
  | hashMismatch (expected actual : String)
  | incompatibleRuntime (required actual : String)
  | unverifiedTrustClaim
  | signatureRequired
  | invalidSignatureEncoding
  | invalidSignature
  | officialTrustUnsupported
  | wrongAdmissionBoundary (kind : PackageKind) (required : PackageAdmissionBoundary)
  | missingDependency (id version : String)
  | domainDependencyNotGene (id version : String) (kind : PackageKind)
  | domainHarnessRequiresGene
  | metaDomainMissing (id : String)
  | metaDomainNotDomain (id : String) (kind : PackageKind)
  | ambiguousMetaDomain (id : String)
  | reservedHarnessId (id : String)
  | builtInReplacementRequiresVerifiedSignature (id : String)
  | duplicateIdentity
  | invalidPublisherTrustRoot
  | duplicatePublisherTrustRoot
deriving DecidableEq

variable (env : PackageEnv)

/-! ## Signatures and trust roots -/

/-- The value of a hexadecimal digit in either case. -/
def hexDigitValue (byte : UInt8) : UInt8 :=
  if byte ≤ 0x39 then byte - 0x30 else if byte ≤ 0x46 then byte - 0x41 + 10 else byte - 0x61 + 10

def decodeHexBytes : List UInt8 → List UInt8
  | high :: low :: rest =>
    (hexDigitValue high <<< 4 ||| hexDigitValue low) :: decodeHexBytes rest
  | _ => []

/-- `decode_signature_bytes`, for the given number of bytes. -/
def decodeSignatureBytes (n : ℕ) (value : String) : Except HarnessRegistryError (List UInt8) :=
  if value.utf8ByteSize = n * 2 ∧ (asBytes value).all isAsciiHexdigit then
    .ok (decodeHexBytes (asBytes value))
  else do
    let encoded := (strip "base64:" value).getD value
    let decoded ← orError (env.decodeBase64 encoded) .invalidSignatureEncoding
    ensure (decoded.length = n) .invalidSignatureEncoding
    pure decoded

def verifyPackageSignatureWithKey (manifest : PackageManifest) (publicKey : String) :
    Except HarnessRegistryError Unit := do
  let signature ← orError manifest.trust.signature .signatureRequired
  let publicKey ← decodeSignatureBytes env 32 publicKey
  let signature ← decodeSignatureBytes env 64 signature
  ensure (env.validKey publicKey) .invalidSignatureEncoding
  ensure (env.verifies publicKey (asBytes manifest.signingMessage) signature) .invalidSignature

def verifyPackageSignature (manifest : PackageManifest) : Except HarnessRegistryError Unit := do
  let publicKey ← orError manifest.trust.publicKey .signatureRequired
  verifyPackageSignatureWithKey env manifest publicKey

structure PublisherTrustRoot where
  (publisher keyId publicKey : String)

def PublisherTrustRoot.new (publisher keyId publicKey : String) :
    Except HarnessRegistryError PublisherTrustRoot := do
  ensure (¬ ((trim publisher).isEmpty ∨ (trim keyId).isEmpty)) .invalidPublisherTrustRoot
  let _ ← decodeSignatureBytes env 32 publicKey
  pure ⟨publisher, keyId, publicKey⟩

/-- The roots, by publisher and key. -/
abbrev PublisherTrustRoots := List PublisherTrustRoot

def PublisherTrustRoots.insert (roots : PublisherTrustRoots) (root : PublisherTrustRoot) :
    Except HarnessRegistryError PublisherTrustRoots := do
  ensure (¬ roots.any fun other => other.publisher = root.publisher && other.keyId = root.keyId)
    .duplicatePublisherTrustRoot
  pure (roots ++ [root])

/-- The key of the root that is found is the key of the manifest. -/
def PublisherTrustRoots.verify (roots : PublisherTrustRoots) (manifest : PackageManifest) :
    Except HarnessRegistryError Unit := do
  ensure (roots ≠ []) .officialTrustUnsupported
  let publicKey ← orError manifest.trust.publicKey .signatureRequired
  let root ← orError (roots.find? fun root =>
    root.publisher = manifest.publisher && root.publicKey = publicKey) .officialTrustUnsupported
  verifyPackageSignatureWithKey env manifest root.publicKey

/-! ## Checks of a package on its own -/

def verifyTrust (roots : PublisherTrustRoots) (manifest : PackageManifest) :
    Except HarnessRegistryError Unit :=
  match manifest.trust.level with
  | .unverified => pure ()
  | .verified => verifyPackageSignature env manifest
  | .official => roots.verify env manifest

/-- A package may take the identifier of a built-in harness only to replace it. -/
def checkReserved (manifest : PackageManifest) : Except HarnessRegistryError Unit :=
  match builtinHarnesses.find? fun harness => harness.id = manifest.id with
  | none => pure ()
  | some builtIn => do
    let replacement := replaceableBuiltinHarnessKind manifest.id
    ensure (replacement = some builtIn.kind ∧
      replacement.map PackageKind.ofHarness = some manifest.kind) (.reservedHarnessId manifest.id)
    ensure (manifest.trust.level = .verified)
      (.builtInReplacementRequiresVerifiedSignature manifest.id)

/-- The checks that do not look at the packages that are installed. -/
def admissible (roots : PublisherTrustRoots) (manifest : PackageManifest)
    (artifact : List UInt8) : Except HarnessRegistryError Unit := do
  ensure (hashArtifact env artifact = manifest.contentHash)
    (.hashMismatch manifest.contentHash (hashArtifact env artifact))
  let compatible ← (matchesRuntime env.semver manifest.runtime env.runtimeVersion).mapError
    fun _ => .manifestMismatch
  ensure (compatible = true) (.incompatibleRuntime manifest.runtime env.runtimeVersion)
  verifyTrust env roots manifest
  checkReserved manifest
  ensure (admissionBoundary manifest.kind = .harnessRegistry)
    (.wrongAdmissionBoundary manifest.kind (admissionBoundary manifest.kind))

/-! ## Checks against the registry -/

structure HarnessRegistry where
  packages : Table PackageRecord.key

def HarnessRegistry.new : HarnessRegistry := ⟨.empty⟩

def HarnessRegistry.get (registry : HarnessRegistry) (id version : String) :
    Option PackageRecord := registry.packages.get? (id, version)

/-- The records in the order of their keys. -/
def HarnessRegistry.list (registry : HarnessRegistry) : List PackageRecord :=
  registry.packages.rows.insertionSort fun a b => a.manifest.id < b.manifest.id ∨
    (a.manifest.id = b.manifest.id ∧ a.manifest.version ≤ b.manifest.version)

theorem HarnessRegistry.mem_list {registry : HarnessRegistry} {record : PackageRecord} :
    record ∈ registry.list ↔ record ∈ registry.packages := List.mem_insertionSort _

/-- The composition of the package has the domain. -/
def composes (manifest : PackageManifest) (id : String) : Bool :=
  manifest.metaComposition.any fun composition => composition.allowedDomains.any (· = id)

/-- The kind of a dependency that is built in. -/
def builtinDependency (manifest : PackageManifest) (dependency : PackageDependency) :
    Option PackageKind :=
  if builtinGeneAvailable dependency.id dependency.version then some .gene
  else if manifest.kind = .metaHarness ∧ composes manifest dependency.id ∧
    builtinHarnesses.any (fun harness => harness.id = dependency.id &&
      harness.version = dependency.version && harness.kind = .domain) then some .domainHarness
  else none

def dependencyKind (registry : HarnessRegistry) (manifest : PackageManifest)
    (dependency : PackageDependency) : Option PackageKind :=
  ((registry.get dependency.id dependency.version).map (·.manifest.kind)).or
    (builtinDependency manifest dependency)

/-- The loop over the dependencies: whether one of them is a required gene of a domain harness. -/
def checkDependencies (registry : HarnessRegistry) (manifest : PackageManifest) :
    Bool → List PackageDependency → Except HarnessRegistryError Bool
  | hasRequiredGene, [] => pure hasRequiredGene
  | hasRequiredGene, dependency :: rest =>
    match dependencyKind registry manifest dependency with
    | some kind => do
      ensure (¬ (manifest.kind = .domainHarness ∧ kind ≠ .gene))
        (.domainDependencyNotGene dependency.id dependency.version kind)
      checkDependencies registry manifest
        (hasRequiredGene || (manifest.kind = .domainHarness && !dependency.optional)) rest
    | none =>
      if dependency.optional then checkDependencies registry manifest hasRequiredGene rest
      else .error (.missingDependency dependency.id dependency.version)

/-- A built-in harness of this identifier is a domain. -/
def builtinDomain (id : String) : Bool :=
  (builtinHarnesses.find? fun harness => harness.id = id).any fun harness =>
    harness.kind = .domain

def requireDomain (registry : HarnessRegistry) (domain : String) :
    Except HarnessRegistryError Unit :=
  let installed := registry.list.filter fun record => record.manifest.id = domain
  if builtinDomain domain then pure ()
  else do
    ensure (installed ≠ []) (.metaDomainMissing domain)
    match installed.find? fun record => record.manifest.kind ≠ .domainHarness with
    | some record => throw (.metaDomainNotDomain domain record.manifest.kind)
    | none => pure ()

/-- The domains of a composition. A Meta Harness that is validated has one. -/
def allowedDomains (manifest : PackageManifest) : List String :=
  (manifest.metaComposition.map (·.allowedDomains)).getD []

def checkDomains (registry : HarnessRegistry) (manifest : PackageManifest) :
    Except HarnessRegistryError Unit :=
  if manifest.kind = .metaHarness then (allowedDomains manifest).forM (requireDomain registry)
  else pure ()

/-- The record of an admitted package. -/
def recordOf (manifest : PackageManifest) : PackageRecord where
  manifest := manifest
  state := match manifest.kind with
    | .metaHarness | .domainHarness => .admitted
    | _ => .installed

/-- `install_with_trust_roots`. -/
def HarnessRegistry.install (registry : HarnessRegistry) (declared embedded : PackageManifest)
    (artifact : List UInt8) (roots : PublisherTrustRoots) :
    Except HarnessRegistryError (HarnessRegistry × PackageRecord) := do
  ensure (declared.validate env.semver = .ok () ∧ embedded.validate env.semver = .ok () ∧
    declared = embedded) .manifestMismatch
  admissible env roots embedded artifact
  ensure (registry.get embedded.id embedded.version = none) .duplicateIdentity
  let hasRequiredGene ← checkDependencies registry embedded false embedded.dependencies
  ensure (¬ (embedded.kind = .domainHarness ∧ ¬ hasRequiredGene)) .domainHarnessRequiresGene
  checkDomains registry embedded
  let packages ← orError (registry.packages.insert? (recordOf embedded)) .duplicateIdentity
  pure (⟨packages⟩, recordOf embedded)

end Pandora.Packages.Registry
