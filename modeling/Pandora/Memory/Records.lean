import Pandora.Context.Fragments
import Pandora.Memory.Sop

/-! # Memory records

The records of `memory.rs`. A record belongs to a tier and to a scope; what its constructors check
is kept as fields, so that a record that is read back from its columns is made again from the same
parts (`MemoryRecord.newL1WithOrigin_self` and its siblings). -/

namespace Pandora.Memory.Records

open Text Ids Lib.Checked
open Context.Fragments (ContextClassification)
open Memory.Sop (MemoryIntent validateWith validateText)

/-! ## Tiers, kinds and origins -/

inductive MemoryTier
  | l0 | l1 | l2 | l3 | l4
deriving DecidableEq

def MemoryTier.asStr : MemoryTier → String
  | .l0 => "l0"
  | .l1 => "l1"
  | .l2 => "l2"
  | .l3 => "l3"
  | .l4 => "l4"

inductive MemoryOrigin
  | explicit | synthesized
deriving DecidableEq

def MemoryOrigin.asStr : MemoryOrigin → String
  | .explicit => "explicit"
  | .synthesized => "synthesized"

/-- `MemoryIntent::as_str`. -/
def intentText : MemoryIntent → String
  | .repo => "repo"
  | .procedure => "procedure"
  | .coding => "coding"
  | .user => "user"

inductive MemoryKind
  | trace | executionEvidence | decision | failure | benchmark | lesson | lineage | policyDecision
  | replacement | sop | sessionArchive
deriving DecidableEq

namespace MemoryKind

def asStr : MemoryKind → String
  | trace => "trace"
  | executionEvidence => "execution_evidence"
  | decision => "decision"
  | failure => "failure"
  | benchmark => "benchmark"
  | lesson => "lesson"
  | lineage => "lineage"
  | policyDecision => "policy_decision"
  | replacement => "replacement"
  | sop => "sop"
  | sessionArchive => "session_archive"

def canBeL1 (kind : MemoryKind) : Bool :=
  match kind with
  | trace | sop | sessionArchive => false
  | _ => true

def canBeL2 (kind : MemoryKind) : Bool :=
  match kind with
  | lesson | lineage | policyDecision | replacement => true
  | _ => false

/-- The kinds of a tier: the checks of `new_with_origin`. -/
def fits (kind : MemoryKind) : MemoryTier → Bool
  | .l0 => kind = trace
  | .l1 => kind.canBeL1
  | .l2 => kind.canBeL2
  | .l3 => kind = sop
  | .l4 => kind = sessionArchive

def defaultIntent : MemoryKind → MemoryIntent
  | trace => .procedure
  | executionEvidence | decision | failure | replacement => .coding
  | benchmark | lesson | sop => .procedure
  | lineage | sessionArchive => .repo
  | policyDecision => .user

theorem canBeL1_of_canBeL2 {kind : MemoryKind} (h : kind.canBeL2 = true) : kind.canBeL1 = true := by
  cases kind <;> first | rfl | cases h

end MemoryKind

def maxMemorySynthesisEvidence : ℕ := 16

/-- The errors of `MemoryContractError` that a record can be refused with; `text` is one of those
of `validate_text`. -/
inductive MemoryContractError
  | text (error : Sop.MemoryContractError)
  | invalidId (error : IdError)
  | secretContent
  | missingEvidence
  | tooManyEvidenceItems
  | duplicateEvidence
  | invalidTier (kind : MemoryKind) (tier : MemoryTier)
deriving DecidableEq

/-! ## Texts -/

/-- A text as `validate_text` returns it. -/
def Canonical (value : String) : Prop :=
  ¬ (trim value).isEmpty ∧ value.utf8ByteSize ≤ 16384 ∧ value.toList.any isControl = false ∧
    trim value = value

instance (value : String) : Decidable (Canonical value) :=
  inferInstanceAs (Decidable (_ ∧ _ ∧ _ ∧ _))

/-- `validate_text`. -/
def validText (field value : String) : Except MemoryContractError String :=
  (validateText field value).mapError .text

theorem validText_eq_ok {field value text : String} (h : validText field value = .ok text) :
    Canonical text ∧ text = trim value := by
  have hvalid := mapError_eq_ok.mp h
  unfold validateText validateWith at hvalid
  split_ifs at hvalid with hblank hlong hrefused
  obtain rfl := Except.ok.inj hvalid
  refine ⟨⟨trim_trim_nonblank hblank, ?_, ?_, trim_trim value⟩, rfl⟩
  · exact (utf8ByteSize_trim_le value).trans (Nat.le_of_not_lt hlong)
  · refine List.any_eq_false.mpr fun c hc => ?_
    exact List.any_eq_false.mp (by simpa using hrefused) c (mem_of_mem_trim hc)

theorem Canonical.validText {value : String} (h : Canonical value) (field : String) :
    validText field value = .ok value := by
  obtain ⟨hblank, hlong, hrefused, htrim⟩ := h
  refine mapError_eq_ok.mpr ?_
  unfold validateText validateWith
  rw [if_neg hblank, if_neg (Nat.not_lt.mpr hlong), if_neg (by simp [hrefused]), htrim]

/-! ## Scopes and approvals -/

structure MemoryScope where
  tenantId : TenantId
  workspaceId : WorkspaceId
  sessionId : SessionId
  provider : String
  canonical : Canonical provider
deriving DecidableEq

def MemoryScope.new (tenantId : TenantId) (workspaceId : WorkspaceId) (sessionId : SessionId)
    (provider : String) : Except MemoryContractError MemoryScope :=
  match h : validText "provider" provider with
  | .error error => .error error
  | .ok provider => .ok ⟨tenantId, workspaceId, sessionId, provider, (validText_eq_ok h).1⟩

structure MemoryApproval where
  (approvalId approver : String)
  canonical : Canonical approvalId ∧ Canonical approver
deriving DecidableEq

def MemoryApproval.new (approvalId approver : String) :
    Except MemoryContractError MemoryApproval :=
  match h : validText "approval ID" approvalId with
  | .error error => .error error
  | .ok approvalId =>
    match h' : validText "approver" approver with
    | .error error => .error error
    | .ok approver => .ok ⟨approvalId, approver, (validText_eq_ok h).1, (validText_eq_ok h').1⟩

/-! ## Records -/

/-- The fields of a record. -/
structure RecordData where
  id : MemoryId
  tier : MemoryTier
  kind : MemoryKind
  intent : Option MemoryIntent
  scope : MemoryScope
  summary : String
  classification : ContextClassification
  createdAt : ℕ
  expiresAt : Option ℕ
  provenance : String
  approval : Option MemoryApproval
  origin : MemoryOrigin
  evidenceIds : List MemoryId
deriving DecidableEq

/-- What the constructors see to. -/
structure RecordData.WellFormed (data : RecordData) : Prop where
  summary : Canonical data.summary
  open' : data.classification ≠ .secret
  provenance : Canonical data.provenance
  kind : data.kind.fits data.tier = true
  evidence : data.evidenceIds.length ≤ maxMemorySynthesisEvidence ∧ data.evidenceIds.Nodup
  origin : data.origin = .synthesized ↔ data.evidenceIds ≠ []
  derived : data.origin = .synthesized → data.tier = .l1 ∨ data.tier = .l2
  approved : data.approval.isSome = true ↔ data.tier = .l2
  lasting : data.tier ≠ .l0 → data.expiresAt = none

structure MemoryRecord extends RecordData where
  wellFormed : toRecordData.WellFormed

namespace MemoryRecord

@[ext] theorem ext_data {a b : MemoryRecord} (h : a.toRecordData = b.toRecordData) : a = b := by
  cases a
  cases b
  cases h
  rfl

instance : DecidableEq MemoryRecord := fun a b =>
  decidable_of_iff (a.toRecordData = b.toRecordData) ⟨ext_data, fun h => by rw [h]⟩

/-- `intent`: the one that was set, or that of the kind. -/
def effectiveIntent (record : MemoryRecord) : MemoryIntent :=
  record.intent.getD record.kind.defaultIntent

def withIntent (record : MemoryRecord) (intent : MemoryIntent) : MemoryRecord where
  toRecordData := { record.toRecordData with intent := some intent }
  wellFormed :=
    have h := record.wellFormed
    ⟨h.summary, h.open', h.provenance, h.kind, h.evidence, h.origin, h.derived, h.approved,
      h.lasting⟩

/-- The checks of `new_with_origin`, in their order, for a record without an approval. -/
def check (id : String) (tier : MemoryTier) (kind : MemoryKind) (summary : String)
    (classification : ContextClassification) (provenance : String) (origin : MemoryOrigin)
    (evidenceIds : List MemoryId) : Except MemoryContractError (MemoryId × String × String) := do
  let id ← (Id.new id).mapError .invalidId
  ensure (classification ≠ .secret) .secretContent
  let summary ← validText "summary" summary
  let provenance ← validText "provenance" provenance
  ensure (kind.fits tier = true) (.invalidTier kind tier)
  ensure (evidenceIds.length ≤ maxMemorySynthesisEvidence) .tooManyEvidenceItems
  ensure evidenceIds.Nodup .duplicateEvidence
  ensure (origin = .synthesized → evidenceIds ≠ []) .missingEvidence
  ensure (origin = .explicit → evidenceIds = []) (.invalidTier kind tier)
  pure (id, summary, provenance)

theorem check_eq_ok {id : String} {tier : MemoryTier} {kind : MemoryKind} {summary : String}
    {classification : ContextClassification} {provenance : String} {origin : MemoryOrigin}
    {evidenceIds : List MemoryId} {checked : MemoryId × String × String}
    (h : check id tier kind summary classification provenance origin evidenceIds = .ok checked) :
    Canonical checked.2.1 ∧ classification ≠ .secret ∧ Canonical checked.2.2 ∧
      kind.fits tier = true ∧
      (evidenceIds.length ≤ maxMemorySynthesisEvidence ∧ evidenceIds.Nodup) ∧
      (origin = .synthesized ↔ evidenceIds ≠ []) := by
  unfold check at h
  simp only [bind_eq_ok, ensure_eq_ok, pure_eq_ok] at h
  obtain ⟨_, -, ⟨⟩, hopen, summary', hsummary, provenance', hprovenance, ⟨⟩, hkind, ⟨⟩, hcount, ⟨⟩,
    hnodup, ⟨⟩, hsome, ⟨⟩, hnone, rfl⟩ := h
  refine ⟨(validText_eq_ok hsummary).1, hopen, (validText_eq_ok hprovenance).1, hkind,
    ⟨hcount, hnodup⟩, hsome, fun hevidence => ?_⟩
  rcases origin with _ | _
  · exact absurd (hnone rfl) hevidence
  · rfl

/-- `new_with_origin`, for a record without an approval. -/
def newWithOrigin (id : String) (tier : MemoryTier) (kind : MemoryKind) (scope : MemoryScope)
    (summary : String) (classification : ContextClassification) (createdAt : ℕ)
    (expiresAt : Option ℕ) (provenance : String) (origin : MemoryOrigin)
    (evidenceIds : List MemoryId) (hplain : tier ≠ .l2 ∧ (origin = .synthesized → tier = .l1) ∧
      (tier ≠ .l0 → expiresAt = none)) : Except MemoryContractError MemoryRecord :=
  match h : check id tier kind summary classification provenance origin evidenceIds with
  | .error error => .error error
  | .ok checked => .ok {
      id := checked.1, tier, kind, intent := none, scope, summary := checked.2.1, classification
      createdAt, expiresAt, provenance := checked.2.2, approval := none, origin, evidenceIds
      wellFormed := by
        obtain ⟨hsummary, hopen, hprovenance, hkind, hevidence, horigin⟩ := check_eq_ok h
        refine ⟨hsummary, hopen, hprovenance, hkind, hevidence, horigin, ?_, ?_, hplain.2.2⟩
        · exact fun hsynthesized => Or.inl (hplain.2.1 hsynthesized)
        · exact ⟨fun h => (nomatch h), fun h => absurd h hplain.1⟩ }

def newL0 (id : String) (scope : MemoryScope) (summary : String)
    (classification : ContextClassification) (createdAt : ℕ) (expiresAt : Option ℕ)
    (provenance : String) : Except MemoryContractError MemoryRecord :=
  newWithOrigin id .l0 .trace scope summary classification createdAt expiresAt provenance .explicit
    [] ⟨nofun, nofun, fun h => absurd rfl h⟩

def newL1WithOrigin (id : String) (kind : MemoryKind) (scope : MemoryScope) (summary : String)
    (classification : ContextClassification) (createdAt : ℕ) (provenance : String)
    (origin : MemoryOrigin) (evidenceIds : List MemoryId) :
    Except MemoryContractError MemoryRecord :=
  newWithOrigin id .l1 kind scope summary classification createdAt none provenance origin
    evidenceIds ⟨nofun, fun _ => rfl, fun _ => rfl⟩

def newL1 (id : String) (kind : MemoryKind) (scope : MemoryScope) (summary : String)
    (classification : ContextClassification) (createdAt : ℕ) (provenance : String) :
    Except MemoryContractError MemoryRecord :=
  newL1WithOrigin id kind scope summary classification createdAt provenance .explicit []

def newSynthesizedL1 (id : String) (kind : MemoryKind) (scope : MemoryScope) (summary : String)
    (classification : ContextClassification) (createdAt : ℕ) (provenance : String)
    (evidenceIds : List MemoryId) : Except MemoryContractError MemoryRecord :=
  newL1WithOrigin id kind scope summary classification createdAt provenance .synthesized evidenceIds

def newL3Sop (id : String) (scope : MemoryScope) (summary : String)
    (classification : ContextClassification) (createdAt : ℕ) (provenance : String) :
    Except MemoryContractError MemoryRecord :=
  newWithOrigin id .l3 .sop scope summary classification createdAt none provenance .explicit []
    ⟨nofun, nofun, fun _ => rfl⟩

def newL4Archive (id : String) (scope : MemoryScope) (summary : String)
    (classification : ContextClassification) (createdAt : ℕ) (provenance : String) :
    Except MemoryContractError MemoryRecord :=
  newWithOrigin id .l4 .sessionArchive scope summary classification createdAt none provenance
    .explicit [] ⟨nofun, nofun, fun _ => rfl⟩

/-- `promote_l2`. -/
def promoteL2 (candidate : MemoryRecord) (approval : MemoryApproval) (promotedAt : ℕ) :
    Except MemoryContractError MemoryRecord :=
  if h : candidate.tier = .l1 ∧ candidate.kind.canBeL2 = true then
    .ok { candidate.toRecordData with
      tier := .l2
      createdAt := promotedAt
      expiresAt := none
      approval := some approval
      wellFormed :=
        have hw := candidate.wellFormed
        ⟨hw.summary, hw.open', hw.provenance, h.2, hw.evidence, hw.origin, fun _ => Or.inr rfl,
          ⟨fun _ => rfl, fun _ => rfl⟩, fun _ => rfl⟩ }
  else .error (.invalidTier candidate.kind .l2)

/-! ### Making a record again -/

variable (record : MemoryRecord)

theorem check_self {tier : MemoryTier} (htier : record.kind.fits tier = true) :
    check record.id.text tier record.kind record.summary record.classification record.provenance
      record.origin record.evidenceIds = .ok (record.id, record.summary, record.provenance) := by
  have h := record.wellFormed
  have hid : (Id.new record.id.text).mapError MemoryContractError.invalidId = .ok record.id := by
    rw [Id.new_text]
    rfl
  unfold check
  refine bind_eq_ok.mpr ⟨_, hid, ?_⟩
  refine bind_eq_ok.mpr ⟨(), ensure_eq_ok.mpr h.open', ?_⟩
  refine bind_eq_ok.mpr ⟨_, h.summary.validText _, ?_⟩
  refine bind_eq_ok.mpr ⟨_, h.provenance.validText _, ?_⟩
  refine bind_eq_ok.mpr ⟨(), ensure_eq_ok.mpr htier, ?_⟩
  refine bind_eq_ok.mpr ⟨(), ensure_eq_ok.mpr h.evidence.1, ?_⟩
  refine bind_eq_ok.mpr ⟨(), ensure_eq_ok.mpr h.evidence.2, ?_⟩
  refine bind_eq_ok.mpr ⟨(), ensure_eq_ok.mpr h.origin.mp, ?_⟩
  refine bind_eq_ok.mpr ⟨(), ensure_eq_ok.mpr fun hexplicit => ?_, rfl⟩
  by_contra hevidence
  rw [h.origin.mpr hevidence] at hexplicit
  cases hexplicit

/-- The record without its intent and its approval, in another tier. -/
structure Matches (tier : MemoryTier) (made : MemoryRecord) : Prop where
  data : made.toRecordData =
    { record.toRecordData with tier, intent := none, approval := none, expiresAt := none }

theorem newWithOrigin_self {tier : MemoryTier} (htier : record.kind.fits tier = true)
    (hplain : tier ≠ .l2 ∧ (record.origin = .synthesized → tier = .l1) ∧
      (tier ≠ .l0 → (none : Option ℕ) = none)) :
    ∃ made, newWithOrigin record.id.text tier record.kind record.scope record.summary
        record.classification record.createdAt none record.provenance record.origin
        record.evidenceIds hplain = .ok made ∧ record.Matches tier made := by
  have hcheck := record.check_self htier
  unfold newWithOrigin
  split
  · rename_i error herror
    rw [hcheck] at herror
    cases herror
  · rename_i checked hchecked
    rw [hcheck] at hchecked
    obtain rfl := Except.ok.inj hchecked
    exact ⟨_, rfl, ⟨rfl⟩⟩

end MemoryRecord

end Pandora.Memory.Records
