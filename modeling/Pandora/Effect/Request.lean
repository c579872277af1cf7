import Pandora.Effect.Profile

/-! # Operation requests

The request of `effect.rs`: who asks, on which profile, for which operation on which target. Its
digest is the hash of its canonical form, a flat structure written as JSON: the seven targets share
four fields, the four scopes share two. The JSON writer is a parameter, as the hash is.

A request carries its digest with the proof that it is the digest of its fields. That `new` and
`with_payload_digest` refuse blank texts is left out. -/

namespace Pandora.Effect.Request

open Lib.Checked Text Ids Effect.Profile

/-! ## Capabilities and operations -/

inductive Capability
  | filesystemRead | filesystemWrite | processExecute | networkConnect | providerInvoke | mcpInvoke
  | wasmExecute | packageInstall
deriving DecidableEq

def Capability.asStr : Capability → String
  | .filesystemRead => "filesystem.read"
  | .filesystemWrite => "filesystem.write"
  | .processExecute => "process.execute"
  | .networkConnect => "network.connect"
  | .providerInvoke => "provider.invoke"
  | .mcpInvoke => "mcp.invoke"
  | .wasmExecute => "wasm.execute"
  | .packageInstall => "package.install"

inductive Operation
  | read | write | execute | connect | invoke | install
deriving DecidableEq

def Operation.asStr : Operation → String
  | .read => "read"
  | .write => "write"
  | .execute => "execute"
  | .connect => "connect"
  | .invoke => "invoke"
  | .install => "install"

/-! ## Targets and scopes -/

inductive EffectTarget
  | path (path : String)
  | process (program : String)
  | network (host : String) (port : UInt16)
  | provider (provider credential : String)
  | mcp (server tool : String)
  | wasm (packageId version : String)
  | package (packageId version : String)
deriving DecidableEq

/-- How far an operation reaches. -/
inductive ResourceScope
  | none
  | workspace (workspaceId : String)
  | path (root : String)
  | host (host : String)
deriving DecidableEq

/-! ## The canonical form -/

def requestProtocolVersion : ℕ := 2

structure CanonicalTarget where
  (kind value : String)
  port : Option UInt16
  secondary : Option String

structure CanonicalScope where
  kind : String
  value : Option String

structure CanonicalOperationRequest where
  protocolVersion : ℕ
  (executionId sessionId principalId executionProfileDigest geneId : String)
  artifactId : Option String
  (capability operation : String)
  target : CanonicalTarget
  resourceScope : CanonicalScope
  payloadDigest : Option String

def CanonicalTarget.ofTarget : EffectTarget → CanonicalTarget
  | .path path => ⟨"path", path, none, none⟩
  | .process program => ⟨"process", program, none, none⟩
  | .network host port => ⟨"network", host, some port, none⟩
  | .provider provider credential => ⟨"provider", provider, none, some credential⟩
  | .mcp server tool => ⟨"mcp", server, none, some tool⟩
  | .wasm packageId version => ⟨"wasm", packageId, none, some version⟩
  | .package packageId version => ⟨"package", packageId, none, some version⟩

def CanonicalScope.ofScope : ResourceScope → CanonicalScope
  | .none => ⟨"none", none⟩
  | .workspace workspaceId => ⟨"workspace", some workspaceId⟩
  | .path root => ⟨"path", some root⟩
  | .host host => ⟨"host", some host⟩

/-! ## Requests -/

/-- `serde_json::to_string` on the canonical form. -/
abbrev JsonWriter := CanonicalOperationRequest → String

variable (sha : Sha256) (json : JsonWriter)

/-- The fields of a request but its digest. -/
structure RequestData where
  executionId : ExecutionId
  sessionId : SessionId
  principalId : PrincipalId
  executionProfile : ExecutionProfile sha
  geneId : GeneId
  artifactId : Option ArtifactId
  capability : Capability
  operation : Operation
  target : EffectTarget
  resourceScope : ResourceScope
  payloadDigest : Option RequestDigest
deriving DecidableEq

variable {sha} in
/-- The structure `canonical_json` writes. -/
def RequestData.canonical (data : RequestData sha) : CanonicalOperationRequest where
  protocolVersion := requestProtocolVersion
  executionId := data.executionId.text
  sessionId := data.sessionId.text
  principalId := data.principalId.text
  executionProfileDigest := data.executionProfile.digest
  geneId := data.geneId.text
  artifactId := data.artifactId.map (·.text)
  capability := data.capability.asStr
  operation := data.operation.asStr
  target := .ofTarget data.target
  resourceScope := .ofScope data.resourceScope
  payloadDigest := data.payloadDigest.map (·.text)

/-- `calculate_digest`. -/
def calculateDigest (data : RequestData sha) : Except IdError RequestDigest :=
  Id.new ("pandora-request-v2:sha256:" ++ hex (sha (asBytes (json data.canonical))).bytes)

/-- A request whose digest is that of its data. -/
structure OperationRequest extends RequestData sha where
  requestDigest : RequestDigest
  digest_eq : calculateDigest sha json toRequestData = .ok requestDigest
deriving DecidableEq

variable {sha json}

/-! ## The digest determines the request -/

theorem ofTarget_inj : ∀ {a b : EffectTarget}, CanonicalTarget.ofTarget a = .ofTarget b →
    a = b := by
  intro a b h
  cases a <;> cases b <;> simp_all [CanonicalTarget.ofTarget]

theorem ofScope_inj : ∀ {a b : ResourceScope}, CanonicalScope.ofScope a = .ofScope b → a = b := by
  intro a b h
  cases a <;> cases b <;> simp_all [CanonicalScope.ofScope]

theorem capability_asStr_inj : ∀ {a b : Capability}, a.asStr = b.asStr → a = b := by
  intro a b
  cases a <;> cases b <;> decide

theorem operation_asStr_inj : ∀ {a b : Operation}, a.asStr = b.asStr → a = b := by
  intro a b
  cases a <;> cases b <;> decide

theorem map_text_inj {kind : IdKind} {a b : Option (Id kind)}
    (h : a.map (·.text) = b.map (·.text)) : a = b :=
  Option.map_injective (fun _ _ => Id.ext_text) h

/-- The messages hashed for a request: its profile and its canonical form. -/
def messages (request : OperationRequest sha json) : Set (List UInt8) :=
  {profileMessage request.executionProfile.toProfileData, asBytes (json request.canonical)}

/-- The canonical form determines the fields, up to the profile's digest. -/
theorem canonical_inj {a b : RequestData sha} (h : a.canonical = b.canonical)
    (hprofile : a.executionProfile.digest = b.executionProfile.digest →
      a.executionProfile = b.executionProfile) : a = b := by
  simp only [RequestData.canonical, CanonicalOperationRequest.mk.injEq, true_and] at h
  obtain ⟨hexecution, hsession, hprincipal, hdigest, hgene, hartifact, hcapability,
    hoperation, htarget, hscope, hpayload⟩ := h
  have hexecution := Id.ext_text hexecution
  have hsession := Id.ext_text hsession
  have hprincipal := Id.ext_text hprincipal
  have hprofile := hprofile hdigest
  have hgene := Id.ext_text hgene
  have hartifact := map_text_inj hartifact
  have hcapability := capability_asStr_inj hcapability
  have hoperation := operation_asStr_inj hoperation
  have htarget := ofTarget_inj htarget
  have hscope := ofScope_inj hscope
  have hpayload := map_text_inj hpayload
  cases a; cases b
  simp only [RequestData.mk.injEq]
  exact ⟨hexecution, hsession, hprincipal, hprofile, hgene, hartifact, hcapability, hoperation,
    htarget, hscope, hpayload⟩

theorem OperationRequest.ext_data {a b : OperationRequest sha json}
    (h : a.toRequestData = b.toRequestData) : a = b := by
  rcases a with ⟨a, da, ha⟩
  rcases b with ⟨b, db, hb⟩
  obtain rfl : a = b := h
  obtain rfl : da = db := by
    rw [ha, Except.ok.injEq] at hb
    exact hb
  rfl

/-- **The digest determines the request**, when the writer is injective on the two canonical forms
and the hash does not collide on the messages of the two requests. -/
theorem request_eq_of_digest {a b : OperationRequest sha json}
    (hjson : Set.InjOn json {a.canonical, b.canonical})
    (hsha : Set.InjOn sha (messages a ∪ messages b)) (h : a.requestDigest = b.requestDigest) :
    a = b := by
  have ha := Id.new_eq_ok a.digest_eq
  have hb := Id.new_eq_ok b.digest_eq
  rw [h, hb] at ha
  have hbytes : asBytes (json b.canonical) = asBytes (json a.canonical) :=
    hsha (by simp [messages]) (by simp [messages]) (hashText_inj ha)
  have hcanonical : b.canonical = a.canonical := hjson (by simp) (by simp) (asBytes_inj hbytes)
  refine OperationRequest.ext_data (canonical_inj hcanonical.symm fun hdigest => ?_)
  exact profile_eq_of_digest sha (fun he => hsha (by simp [messages]) (by simp [messages]) he)
    hdigest

end Pandora.Effect.Request
