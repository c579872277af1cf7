import Pandora.Text
import Pandora.Lib.Checked

/-! # Identifiers

The identifier types of `define_id!`: a text that is not blank and has at most 256 bytes. One
definition serves for all of them; the kind keeps them apart. An identifier carries the proof of
both checks, so the text of one read back from a column is accepted again (`Id.new_text`). -/

namespace Pandora.Ids

open Text

inductive IdKind
  | execution | session | principal | gene | artifact | permit | requestDigest | tenant | workspace
  | job | jobWorker | harness | plan | role | receipt | repository | orchestrationRun | subagent
  | event | memory | proposal | package | population | runLoop | failure

inductive IdError
  | empty | tooLong
deriving DecidableEq

structure Id (kind : IdKind) where
  text : String
  nonblank : ¬ (trim text).isEmpty
  short : text.utf8ByteSize ≤ 256
deriving DecidableEq

abbrev ExecutionId := Id .execution
abbrev SessionId := Id .session
abbrev PrincipalId := Id .principal
abbrev GeneId := Id .gene
abbrev ArtifactId := Id .artifact
abbrev PermitId := Id .permit
abbrev RequestDigest := Id .requestDigest
abbrev TenantId := Id .tenant
abbrev WorkspaceId := Id .workspace
abbrev JobId := Id .job
abbrev JobWorkerId := Id .jobWorker
abbrev HarnessId := Id .harness
abbrev PlanId := Id .plan
abbrev RoleId := Id .role
abbrev ReceiptId := Id .receipt
abbrev RepositoryId := Id .repository
abbrev OrchestrationRunId := Id .orchestrationRun
abbrev SubagentId := Id .subagent
abbrev EventId := Id .event
abbrev MemoryId := Id .memory
abbrev ProposalId := Id .proposal

variable {kind : IdKind}

/-- `new` of every identifier type. -/
def Id.new (value : String) : Except IdError (Id kind) :=
  if hblank : (trim value).isEmpty then .error .empty
  else if hlong : 256 < value.utf8ByteSize then .error .tooLong
  else .ok ⟨value, hblank, Nat.le_of_not_lt hlong⟩

/-- An identifier from a literal. -/
def Id.ofLiteral (text : String)
    (h : decide (¬ (trim text).isEmpty ∧ text.utf8ByteSize ≤ 256) = true := by
      exact Eq.refl true) : Id kind :=
  ⟨text, (of_decide_eq_true h).1, (of_decide_eq_true h).2⟩

theorem Id.ext_text {a b : Id kind} (h : a.text = b.text) : a = b := by
  cases a; cases b; cases h; rfl

/-- Identifiers are ordered by their texts. -/
instance : LinearOrder (Id kind) :=
  { PartialOrder.lift Id.text (fun _ _ => Id.ext_text) with
    le_total := fun a b => le_total a.text b.text
    toDecidableLE := fun a b => inferInstanceAs (Decidable (a.text ≤ b.text))
    toDecidableLT := fun a b => inferInstanceAs (Decidable (a.text < b.text))
    toDecidableEq := inferInstance }

instance : LawfulBEq (Id kind) := inferInstance

theorem Id.new_text (id : Id kind) : Id.new id.text = .ok id := by
  unfold Id.new
  rw [dif_neg id.nonblank, dif_neg (Nat.not_lt.mpr id.short)]

theorem Id.new_eq_ok {value : String} {id : Id kind} (h : Id.new value = .ok id) :
    id.text = value := by
  unfold Id.new at h
  split_ifs at h
  cases h
  rfl

end Pandora.Ids
