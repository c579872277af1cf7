import Pandora.Governance.Permits

/-! # The digest binds the request

A permit names its request by the digest only. That is enough where the JSON writer and the hash are
injective on what they are given: then the request a permit is consumed with is the one that was
authorised.

No hash is injective on all messages, so the assumption is about a set of requests, which stands for
those that ever occur. -/

namespace Pandora.Governance.RequestBinding

open Text Ids Effect.Profile Effect.Request Governance.Policy Governance.Monitor Governance.Permits

variable {sha : Sha256} {json : JsonWriter}

/-- The request an input presents. -/
def Input.request? : Input sha json → Option (OperationRequest sha json)
  | .start authorization => some authorization.request
  | .consume _ request _ => some request
  | .finish _ | .updatePolicy _ => none

section

variable {requests : Set (OperationRequest sha json)}
  (hjson : Set.InjOn json ((fun r => r.canonical) '' requests))
  (hsha : Set.InjOn sha (⋃ r ∈ requests, messages r))

include hjson hsha

theorem eq_of_digest {a b : OperationRequest sha json} (ha : a ∈ requests) (hb : b ∈ requests)
    (h : a.requestDigest = b.requestDigest) : a = b := by
  have hcanonical : ({a.canonical, b.canonical} : Set CanonicalOperationRequest) ⊆
      (fun r => r.canonical) '' requests := by
    rintro c (rfl | rfl)
    · exact ⟨a, ha, rfl⟩
    · exact ⟨b, hb, rfl⟩
  have hmessages : messages a ∪ messages b ⊆ ⋃ r ∈ requests, messages r := by
    rintro m (hm | hm)
    · exact Set.mem_biUnion ha hm
    · exact Set.mem_biUnion hb hm
  exact request_eq_of_digest (hjson.mono hcanonical) (hsha.mono hmessages) h

end

theorem IssuedAt.request_mem {policy : PolicyContext} {permitTtlSeconds k : ℕ}
    {inputs : List (Input sha json)} {permit : EffectPermit}
    {authorization : Authorization sha json}
    (h : IssuedAt policy permitTtlSeconds inputs k permit authorization) :
    .start authorization ∈ inputs := by
  obtain ⟨i, j, -, -, hstarted⟩ := h
  exact List.mem_of_getElem? hstarted.1.1

/-- **The digest binds the request.** Where neither the writer nor the hash collides, the digest
determines every field of the request and of its execution profile; so a permit is consumed with the
very request it was issued for. -/
theorem digest_binds_request (requests : Set (OperationRequest sha json))
    (hjson : Set.InjOn json ((fun r => r.canonical) '' requests))
    (hsha : Set.InjOn sha (⋃ r ∈ requests, messages r)) :
    (∀ a ∈ requests, ∀ b ∈ requests, a.requestDigest = b.requestDigest → a = b) ∧
    (∀ policy permitTtlSeconds (inputs : List (Input sha json)),
      (∀ input ∈ inputs, ∀ r, Input.request? input = some r → r ∈ requests) →
      ∀ k permit request now reply,
        AnswersAt policy permitTtlSeconds inputs k (.consume permit request now) (.ok reply) →
        ∃ j authorization, j < k ∧ IssuedAt policy permitTtlSeconds inputs j permit authorization ∧
          authorization.request = request) := by
  refine ⟨fun a ha b hb h => eq_of_digest hjson hsha ha hb h, ?_⟩
  intro policy permitTtlSeconds inputs hinputs k permit request now reply hconsumed
  obtain ⟨j, authorization, hlt, hissued, hdigest⟩ := consumed_issued hconsumed
  refine ⟨j, authorization, hlt, hissued, eq_of_digest hjson hsha ?_ ?_ hdigest⟩
  · exact hinputs _ (IssuedAt.request_mem hissued) _ rfl
  · exact hinputs _ (List.mem_of_getElem? hconsumed.1) _ rfl

/-! ### Two requests and a run

The profile and the first request are those of the tests of the monitor. On the three messages that
occur the hash below is SHA-256, told apart by their lengths, and on texts that need no escape the
writer is that of `serde_json`. -/

def profileHash : Bytes32 :=
  ⟨[57, 96, 78, 101, 240, 136, 106, 172, 79, 72, 219, 18, 65, 7, 63, 251, 46, 81, 77, 174, 202, 94,
    102, 35, 156, 73, 98, 36, 229, 63, 82, 119],
    rfl⟩

def libHash : Bytes32 :=
  ⟨[167, 223, 19, 63, 112, 190, 176, 45, 148, 222, 237, 65, 16, 216, 222, 152, 152, 42, 227, 179,
    157, 164, 178, 17, 184, 238, 154, 121, 243, 35, 174, 151],
    rfl⟩

def mainHash : Bytes32 :=
  ⟨[180, 181, 8, 68, 15, 162, 238, 232, 197, 177, 241, 86, 166, 223, 34, 65, 60, 86, 216, 131, 205,
    243, 158, 235, 192, 20, 159, 41, 119, 64, 140, 24],
    rfl⟩

def sampleSha : Sha256 := fun message =>
  if message.length = 383 then profileHash else if message.length = 488 then libHash else mainHash

theorem sampleSha_eq_lib {message : List UInt8} (h : message.length = 488) :
    sampleSha message = libHash := by
  unfold sampleSha
  rw [h]
  rfl

theorem sampleSha_eq_main {message : List UInt8} (h : message.length = 489) :
    sampleSha message = mainHash := by
  unfold sampleSha
  rw [h]
  rfl

def quoted (text : String) : String := "\"" ++ text ++ "\""

def nullable (text : Option String) : String := text.elim "null" quoted

def objectText (fields : List (String × String)) : String :=
  "\x7b" ++ ",".intercalate (fields.map fun field => quoted field.1 ++ ":" ++ field.2) ++ "\x7d"

def sampleJson : JsonWriter := fun c =>
  objectText [("protocol_version", toString c.protocolVersion),
    ("execution_id", quoted c.executionId), ("session_id", quoted c.sessionId),
    ("principal_id", quoted c.principalId),
    ("execution_profile_digest", quoted c.executionProfileDigest), ("gene_id", quoted c.geneId),
    ("artifact_id", nullable c.artifactId), ("capability", quoted c.capability),
    ("operation", quoted c.operation),
    ("target", objectText [("kind", quoted c.target.kind), ("value", quoted c.target.value),
      ("port", c.target.port.elim "null" toString), ("secondary", nullable c.target.secondary)]),
    ("resource_scope", objectText [("kind", quoted c.resourceScope.kind),
      ("value", nullable c.resourceScope.value)]),
    ("payload_digest", nullable c.payloadDigest)]

def sampleProfile : ProfileData where
  runtimeVersion := ⟨"2.0.0-alpha.6", by decide +kernel⟩
  platformOs := ⟨"windows", by decide +kernel⟩
  platformArchitecture := ⟨"x86_64", by decide +kernel⟩
  policyVersion := 1
  workspaceDigest :=
    ⟨"sha256:e4f6764254948b59c2e0914583eaf376f2224298ddf2879adb35628a7a0c24e8", by decide +kernel⟩
  containmentDigest :=
    ⟨"sha256:47acb2c42ed161a98688c0aec2e6e7c564673697c9f0eafbc0092a1ee0003fa0", by decide +kernel⟩
  bindings := [{
    kind := .executor
    id := ⟨"filesystem", by decide +kernel⟩
    version := some ⟨"2.0.0-alpha.6", by decide +kernel⟩
    digest :=
      ⟨"sha256:cbf61858f3260072d96d9b1d2e037fc35824944b9c94d0087b1a53385eccaead", by decide +kernel⟩
        }]

theorem sampleSha_profile : sampleSha (profileMessage sampleProfile) = profileHash :=
  if_pos (by decide +kernel)

def sampleExecutionProfile : ExecutionProfile sampleSha where
  toProfileData := sampleProfile
  digest :=
    "pandora-execution-profile-v1:sha256:39604e65f0886aac4f48db1241073ffb2e514daeca5e66239c496224e53f5277"
  distinct := rfl
  executor := rfl
  digest_eq := by
    unfold profileDigest
    rw [sampleSha_profile]
    decide +kernel

/-- A request to read a file of the workspace. -/
def sampleData (path : String) : RequestData sampleSha where
  executionId := .ofLiteral "execution-1"
  sessionId := .ofLiteral "session-1"
  principalId := .ofLiteral "principal-1"
  executionProfile := sampleExecutionProfile
  geneId := .ofLiteral "workspace.read"
  artifactId := none
  capability := .filesystemRead
  operation := .read
  target := .path path
  resourceScope := .workspace "workspace-1"
  payloadDigest := none

theorem length_lib : (asBytes (sampleJson (sampleData "src/lib.rs").canonical)).length = 488 := by
  decide +kernel

theorem length_main : (asBytes (sampleJson (sampleData "src/main.rs").canonical)).length = 489 := by
  decide +kernel

def libDigest : RequestDigest :=
  .ofLiteral "pandora-request-v2:sha256:a7df133f70beb02d94deed4110d8de98982ae3b39da4b211b8ee9a79f323ae97"

def mainDigest : RequestDigest :=
  .ofLiteral "pandora-request-v2:sha256:b4b508440fa2eee8c5b1f156a6df22413c56d883cdf39eebc0149f2977408c18"

theorem calculateDigest_lib :
    calculateDigest sampleSha sampleJson (sampleData "src/lib.rs") = .ok libDigest := by
  have htext : "pandora-request-v2:sha256:" ++ hex libHash.bytes = libDigest.text := by
    decide +kernel
  unfold calculateDigest
  rw [sampleSha_eq_lib length_lib, htext]
  exact Id.new_text libDigest

theorem calculateDigest_main :
    calculateDigest sampleSha sampleJson (sampleData "src/main.rs") = .ok mainDigest := by
  have htext : "pandora-request-v2:sha256:" ++ hex mainHash.bytes = mainDigest.text := by
    decide +kernel
  unfold calculateDigest
  rw [sampleSha_eq_main length_main, htext]
  exact Id.new_text mainDigest

def sampleLib : OperationRequest sampleSha sampleJson :=
  ⟨sampleData "src/lib.rs", libDigest, calculateDigest_lib⟩

def sampleMain : OperationRequest sampleSha sampleJson :=
  ⟨sampleData "src/main.rs", mainDigest, calculateDigest_main⟩

def samplePolicy : PolicyContext :=
  ⟨1, {.filesystemRead, .providerInvoke}, {.write, .execute, .connect, .install}⟩

def samplePermit : EffectPermit := .issue (.ofLiteral "permit-1") sampleLib 1 1 10 70

/-- The first request is authorised, and its permit consumed. -/
def sampleInputs : List (Input sampleSha sampleJson) :=
  [.start (.plain sampleLib ((Parliament.mk 1).decide sampleLib samplePolicy) 10), .finish 0,
    .consume samplePermit sampleLib 20]

theorem sampleJson_injOn :
    Set.InjOn sampleJson ((fun r => r.canonical) '' ({sampleLib, sampleMain} : Set _)) := by
  have hne : sampleJson sampleLib.canonical ≠ sampleJson sampleMain.canonical := by
    intro h
    have hlength := congrArg (fun text => (asBytes text).length) h
    have hlib : (asBytes (sampleJson sampleLib.canonical)).length = 488 := length_lib
    have hmain : (asBytes (sampleJson sampleMain.canonical)).length = 489 := length_main
    omega
  rintro _ ⟨a, rfl | rfl, rfl⟩ _ ⟨b, rfl | rfl, rfl⟩ h
  · rfl
  · exact absurd h hne
  · exact absurd h.symm hne
  · rfl

theorem sampleSha_injOn :
    Set.InjOn sampleSha
      (⋃ r ∈ ({sampleLib, sampleMain} : Set (OperationRequest sampleSha sampleJson)),
        messages r) := by
  have hmessages : (⋃ r ∈ ({sampleLib, sampleMain} : Set (OperationRequest sampleSha sampleJson)),
      messages r) ⊆ {profileMessage sampleProfile, asBytes (sampleJson sampleLib.canonical),
        asBytes (sampleJson sampleMain.canonical)} := by
    intro m hm
    simp only [Set.mem_iUnion] at hm
    obtain ⟨r, rfl | rfl, rfl | rfl⟩ := hm
    · exact Or.inl rfl
    · exact Or.inr (Or.inl rfl)
    · exact Or.inl rfl
    · exact Or.inr (Or.inr rfl)
  refine Set.InjOn.mono hmessages ?_
  have hlib : sampleSha (asBytes (sampleJson sampleLib.canonical)) = libHash :=
    sampleSha_eq_lib length_lib
  have hmain : sampleSha (asBytes (sampleJson sampleMain.canonical)) = mainHash :=
    sampleSha_eq_main length_main
  have h01 : profileHash ≠ libHash := by decide
  have h02 : profileHash ≠ mainHash := by decide
  have h12 : libHash ≠ mainHash := by decide
  rintro _ (rfl | rfl | rfl) _ (rfl | rfl | rfl) h
  · rfl
  · rw [sampleSha_profile, hlib] at h; exact absurd h h01
  · rw [sampleSha_profile, hmain] at h; exact absurd h h02
  · rw [sampleSha_profile, hlib] at h; exact absurd h.symm h01
  · rfl
  · rw [hlib, hmain] at h; exact absurd h h12
  · rw [sampleSha_profile, hmain] at h; exact absurd h.symm h02
  · rw [hlib, hmain] at h; exact absurd h.symm h12
  · rfl

theorem digest_binds_request_sample :
    (sampleLib.requestDigest = sampleMain.requestDigest → sampleLib = sampleMain) ∧
    AnswersAt samplePolicy 60 sampleInputs 2 (.consume samplePermit sampleLib 20)
      (.ok (.consumed ⟨samplePermit, sampleLib, 20⟩)) ∧
    ∃ j authorization, j < 2 ∧ IssuedAt samplePolicy 60 sampleInputs j samplePermit authorization ∧
      authorization.request = sampleLib := by
  obtain ⟨hdigest, hruns⟩ :=
    digest_binds_request {sampleLib, sampleMain} sampleJson_injOn sampleSha_injOn
  have hconsumed : AnswersAt samplePolicy 60 sampleInputs 2 (.consume samplePermit sampleLib 20)
      (.ok (.consumed ⟨samplePermit, sampleLib, 20⟩)) := ⟨rfl, by decide +kernel⟩
  refine ⟨hdigest _ (Or.inl rfl) _ (Or.inr rfl), hconsumed, ?_⟩
  refine hruns samplePolicy 60 sampleInputs (fun input hinput r hr => ?_) 2 samplePermit sampleLib
    20 _
    hconsumed
  rcases List.mem_cons.mp hinput with rfl | hinput
  · cases hr; exact Or.inl rfl
  rcases List.mem_cons.mp hinput with rfl | hinput
  · cases hr
  rw [List.mem_singleton] at hinput
  subst hinput
  cases hr
  exact Or.inl rfl

end Pandora.Governance.RequestBinding
