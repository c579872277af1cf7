import Pandora.Effect.Request
import Pandora.Context.Fragments

/-! # Package manifests

The manifest of `package.rs`, as it is read from JSON: nothing is checked until `validate`, which
looks at every field. The identifiers are therefore plain texts here.

`signing_message` is the text that is signed, a sequence of labelled fields (`pushSigningField`).
The parser of `semver` is a parameter. -/

namespace Pandora.Packages.Manifest

open Text Ids Lib.Checked
open Effect.Request (Capability)
open Cron (splitAt)

def maxPackageTextBytes : ℕ := 4096
def maxDomainRouteHints : ℕ := 32
def maxDomainRouteHintBytes : ℕ := 64
def maxGeneCapabilities : ℕ := 8
def maxMetaDomains : ℕ := 32
def maxMetaHandoffs : ℕ := 64

/-- What `semver` accepts as a version and as a requirement, and which versions match. -/
structure SemVer where
  (version requirement : String → Bool)
  accepts : String → String → Bool

/-! ## The data -/

inductive PackageKind
  | gene | domainHarness | metaHarness | sourceHarness | package | provider | skill
deriving DecidableEq

def PackageKind.asStr : PackageKind → String
  | .gene => "gene"
  | .domainHarness => "domain_harness"
  | .metaHarness => "meta_harness"
  | .sourceHarness => "source_harness"
  | .package => "package"
  | .provider => "provider"
  | .skill => "skill"

inductive PackageManifestError
  | invalidId (error : IdError)
  | emptyField (field : String)
  | fieldTooLong (field : String)
  | invalidVersion
  | invalidRuntimeCompatibility
  | invalidPackageId
  | invalidHash
  | controlCharacter (field : String)
  | missingMetaComposition
  | unexpectedMetaComposition
  | invalidMetaComposition
  | invalidDomainRouting
  | unexpectedDomainRouting
  | invalidGeneContract
  | unexpectedGeneContract
  | duplicateDependency (id : String)
deriving DecidableEq

structure PackageDependency where
  (id version : String)
  optional : Bool
deriving DecidableEq

inductive TrustLevel
  | unverified | verified | official
deriving DecidableEq

structure TrustEvidence where
  level : TrustLevel
  (signature publicKey : Option String)
deriving DecidableEq

structure MetaComposition where
  allowedDomains : List String
  maxHandoffs : UInt32
deriving DecidableEq

inductive GeneExecutionMode
  | staticGuidance | boundedRead | effectRequest
deriving DecidableEq

def GeneExecutionMode.asStr : GeneExecutionMode → String
  | .staticGuidance => "static_guidance"
  | .boundedRead => "bounded_read"
  | .effectRequest => "effect_request"

structure GenePackageContract where
  execution : GeneExecutionMode
  capabilities : List Capability
  approvalRequired : Bool
deriving DecidableEq

/-- The field `compatibility` has a single text and `domain_routing` a single list. -/
structure PackageManifest where
  (id version : String)
  kind : PackageKind
  (publisher contentHash : String)
  dependencies : List PackageDependency
  (runtime license : String)
  trust : TrustEvidence
  metaComposition : Option MetaComposition
  domainRouting : Option (List String)
  geneContract : Option GenePackageContract
deriving DecidableEq

/-! ## Validation -/

section Validation
variable (semver : SemVer)

def packageId (value : String) : Except PackageManifestError Unit := do
  ensure (¬ (trim value).isEmpty) (.invalidId .empty)
  ensure (value.utf8ByteSize ≤ 256) (.invalidId .tooLong)
  ensure (¬ (splitAt '/' value).any fun part =>
    part.isEmpty || part = "." || part = ".." || part.toList.contains '\\' ||
      part.toList.any isControl) .invalidPackageId

def validateText (field value : String) : Except PackageManifestError String := do
  let trimmed := trim value
  ensure (¬ trimmed.isEmpty) (.emptyField field)
  ensure (value.utf8ByteSize ≤ maxPackageTextBytes) (.fieldTooLong field)
  ensure (¬ value.toList.any isControl) (.controlCharacter field)
  pure trimmed

def validateVersion (value : String) : Except PackageManifestError String := do
  let value ← validateText "version" value
  ensure (semver.version value) .invalidVersion
  pure value

/-- `u8::is_ascii_hexdigit`. -/
def isAsciiHexdigit (byte : UInt8) : Bool :=
  (0x30 ≤ byte && byte ≤ 0x39) || (0x61 ≤ byte && byte ≤ 0x66) || (0x41 ≤ byte && byte ≤ 0x46)

def validateHash (value : String) : Except PackageManifestError Unit := do
  let hex ← orError (strip "sha256:" value) .invalidHash
  ensure (hex.utf8ByteSize = 64 ∧ (asBytes hex).all isAsciiHexdigit) .invalidHash

/-- The requirement on the runtime that the text states. -/
def runtimeRequirement (value : String) : Except PackageManifestError String := do
  let requirement ← orError (strip "pandora" value) .invalidRuntimeCompatibility
  let requirement := trim requirement
  ensure (¬ (requirement.isEmpty ∨ requirement = "*")) .invalidRuntimeCompatibility
  ensure (semver.requirement requirement) .invalidRuntimeCompatibility
  pure requirement

def PackageDependency.validate (dependency : PackageDependency) :
    Except PackageManifestError Unit := do
  packageId dependency.id
  let version ← validateVersion semver dependency.version
  ensure (version = dependency.version) .invalidVersion

/-- The loop over the dependencies, with the identifiers that have occurred. -/
def validateDependencies (seen : List String) :
    List PackageDependency → Except PackageManifestError Unit
  | [] => pure ()
  | dependency :: rest => do
    dependency.validate semver
    ensure (dependency.id ∉ seen) (.duplicateDependency dependency.id)
    validateDependencies (dependency.id :: seen) rest

/-- `PackageCompatibility::validate`. -/
def validateCompatibility (text : String) : Except PackageManifestError Unit := do
  let runtime ← validateText "runtime compatibility" text
  ensure (runtime = text) .invalidRuntimeCompatibility
  let _ ← runtimeRequirement semver runtime

/-- `PackageCompatibility::matches_runtime`. -/
def matchesRuntime (text runtimeVersion : String) : Except PackageManifestError Bool := do
  ensure (semver.version runtimeVersion) .invalidVersion
  let requirement ← runtimeRequirement semver text
  pure (semver.accepts requirement runtimeVersion)

def TrustEvidence.validate (trust : TrustEvidence) : Except PackageManifestError Unit := do
  ensure (¬ trust.signature.any fun value => value.toList.any isControl)
    (.controlCharacter "signature")
  ensure (¬ trust.publicKey.any fun value => value.toList.any isControl)
    (.controlCharacter "public_key")

/-- `MetaComposition::validate` succeeds. -/
def MetaComposition.valid (composition : MetaComposition) : Bool :=
  composition.allowedDomains ≠ [] && composition.allowedDomains.length ≤ maxMetaDomains &&
    composition.maxHandoffs ≠ 0 && composition.maxHandoffs.toNat ≤ maxMetaHandoffs &&
    decide composition.allowedDomains.Nodup

/-- The characters that neither begin nor end a hint. -/
def hintPunctuation : List Char := ['-', '_', '.', '+', '/']

/-- `str::contains` of a text. -/
def containsText (part text : String) : Bool := text.toList.tails.any part.toList.isPrefixOf

def validHint (hint : String) : Bool :=
  let length := hint.utf8ByteSize
  let validLength := 3 ≤ length && length ≤ maxDomainRouteHintBytes
  let validCharacters := (asBytes hint).all fun byte =>
    (0x61 ≤ byte && byte ≤ 0x7a) || (0x30 ≤ byte && byte ≤ 0x39) ||
      (asBytes " -_.+/:").contains byte
  let canonicalSpacing := trim hint = hint && !containsText "  " hint &&
    !hint.toList.head?.any hintPunctuation.contains &&
    !hint.toList.getLast?.any hintPunctuation.contains
  validLength && validCharacters && canonicalSpacing

/-- The loop over the hints, after the previous one. -/
def validateHints (previous : Option String) :
    List String → Except PackageManifestError Unit
  | [] => pure ()
  | hint :: rest => do
    ensure (validHint hint) .invalidDomainRouting
    ensure (¬ previous.any (hint ≤ ·)) .invalidDomainRouting
    validateHints (some hint) rest

/-- `DomainRoutingProfile::validate`. -/
def validateRouting (hints : List String) : Except PackageManifestError Unit := do
  ensure (¬ (hints = [] ∨ maxDomainRouteHints < hints.length)) .invalidDomainRouting
  validateHints none hints

/-- The order in which the capabilities are declared. -/
def capabilityRank : Capability → ℕ
  | .filesystemRead => 0
  | .filesystemWrite => 1
  | .processExecute => 2
  | .networkConnect => 3
  | .providerInvoke => 4
  | .mcpInvoke => 5
  | .wasmExecute => 6
  | .packageInstall => 7

/-- Each of two neighbours is below the next. -/
def increasing : List Capability → Bool
  | a :: b :: rest => capabilityRank a < capabilityRank b && increasing (b :: rest)
  | _ => true

def GenePackageContract.validate (contract : GenePackageContract) :
    Except PackageManifestError Unit := do
  ensure (contract.capabilities.length ≤ maxGeneCapabilities ∧ increasing contract.capabilities ∧
    .wasmExecute ∉ contract.capabilities ∧ .packageInstall ∉ contract.capabilities)
    .invalidGeneContract
  let valid := match contract.execution with
    | .staticGuidance => contract.capabilities.isEmpty && !contract.approvalRequired
    | .boundedRead =>
      contract.capabilities = [.filesystemRead] && !contract.approvalRequired
    | .effectRequest => !contract.capabilities.isEmpty && contract.approvalRequired
  ensure (valid = true) .invalidGeneContract

/-- Exactly the Meta Harness packages have a composition. -/
def validateComposition : PackageKind → Option MetaComposition → Except PackageManifestError Unit
  | .metaHarness, none => throw .missingMetaComposition
  | .metaHarness, some composition => ensure composition.valid .invalidMetaComposition
  | _, some _ => throw .unexpectedMetaComposition
  | _, none => pure ()

/-- Only Domain Harness packages have routing hints. -/
def validateDomainRouting : PackageKind → Option (List String) → Except PackageManifestError Unit
  | .domainHarness, some hints => validateRouting hints
  | .domainHarness, none => pure ()
  | _, some _ => throw .unexpectedDomainRouting
  | _, none => pure ()

/-- Only Gene packages have a contract. -/
def validateGeneContract :
    PackageKind → Option GenePackageContract → Except PackageManifestError Unit
  | .gene, some contract => contract.validate
  | .gene, none => pure ()
  | _, some _ => throw .unexpectedGeneContract
  | _, none => pure ()

def PackageManifest.validate (manifest : PackageManifest) : Except PackageManifestError Unit := do
  packageId manifest.id
  let version ← validateVersion semver manifest.version
  ensure (version = manifest.version) .invalidVersion
  let _ ← validateText "publisher" manifest.publisher
  validateHash manifest.contentHash
  validateDependencies semver [] manifest.dependencies
  validateCompatibility semver manifest.runtime
  let _ ← validateText "license" manifest.license
  manifest.trust.validate
  validateComposition manifest.kind manifest.metaComposition
  validateDomainRouting manifest.kind manifest.domainRouting
  validateGeneContract manifest.kind manifest.geneContract

/-- What a manifest that passes has been checked for. -/
structure PackageManifest.Valid (manifest : PackageManifest) : Prop where
  id : packageId manifest.id = .ok ()
  version : validateVersion semver manifest.version = .ok manifest.version
  publisher : ∃ text, validateText "publisher" manifest.publisher = .ok text
  contentHash : validateHash manifest.contentHash = .ok ()
  dependencies : validateDependencies semver [] manifest.dependencies = .ok ()
  composition : validateComposition manifest.kind manifest.metaComposition = .ok ()
  routing : validateDomainRouting manifest.kind manifest.domainRouting = .ok ()
  contract : validateGeneContract manifest.kind manifest.geneContract = .ok ()

theorem valid_of_validate {manifest : PackageManifest} (h : manifest.validate semver = .ok ()) :
    manifest.Valid semver := by
  unfold PackageManifest.validate at h
  simp only [bind_eq_ok, ensure_eq_ok, exists_const] at h
  obtain ⟨_, hid, version, hversion, hsame, publisher, hpublisher, _, hhash, _, hdependencies, _, -,
    _, -, _, -, _, hcomposition, _, hrouting, hcontract⟩ := h
  rw [hsame] at hversion
  exact {
    id := hid
    version := hversion
    publisher := ⟨publisher, hpublisher⟩
    contentHash := hhash
    dependencies := hdependencies
    composition := hcomposition
    routing := hrouting
    contract := hcontract }

end Validation

/-! ## The signed text -/

/-- A label and its value. -/
abbrev SigningField := String × String

/-- `push_signing_field`: what is added to the message. -/
def pushSigningField (field : SigningField) : String :=
  "\n" ++ toString field.2.utf8ByteSize ++ ":" ++ field.1 ++ ":" ++ field.2

def boolText (value : Bool) : String := if value then "true" else "false"

/-- The order in which dependencies are signed. -/
def DependencyLe (left right : PackageDependency) : Prop :=
  left.id < right.id ∨ (left.id = right.id ∧ (left.version < right.version ∨
    (left.version = right.version ∧ (left.optional → right.optional))))

instance (left right : PackageDependency) : Decidable (DependencyLe left right) :=
  inferInstanceAs (Decidable (_ ∨ (_ ∧ (_ ∨ (_ ∧ _)))))

def sortedDependencies (manifest : PackageManifest) : List PackageDependency :=
  manifest.dependencies.insertionSort DependencyLe

def dependencyFields (dependency : PackageDependency) : List SigningField :=
  [("dependency_id", dependency.id), ("dependency_version", dependency.version),
    ("dependency_optional", boolText dependency.optional)]

def compositionFields (composition : MetaComposition) : List SigningField :=
  ("meta_max_handoffs", toString composition.maxHandoffs.toNat) ::
    composition.allowedDomains.map fun domain => ("meta_domain", domain)

def contractFields (contract : GenePackageContract) : List SigningField :=
  ("gene_execution", contract.execution.asStr) ::
    ("gene_approval_required", boolText contract.approvalRequired) ::
    contract.capabilities.map fun capability => ("gene_capability", capability.asStr)

/-- The fields of the message, in order. -/
def signingFields (manifest : PackageManifest) : List SigningField :=
  [("id", manifest.id), ("version", manifest.version), ("kind", manifest.kind.asStr),
    ("publisher", manifest.publisher), ("content_hash", manifest.contentHash),
    ("runtime_compatibility", manifest.runtime), ("license", manifest.license)] ++
  (sortedDependencies manifest).flatMap dependencyFields ++
  (manifest.metaComposition.map compositionFields).getD [] ++
  (manifest.domainRouting.getD []).map (fun hint => ("route_hint", hint)) ++
  (manifest.geneContract.map contractFields).getD []

def PackageManifest.signingMessage (manifest : PackageManifest) : String :=
  (signingFields manifest).foldl (fun message field => message ++ pushSigningField field)
    "pandora-package-signature-v2"

end Pandora.Packages.Manifest
