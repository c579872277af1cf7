import Pandora.Lib.Checked
import Pandora.Text

/-! # Operating procedures and capsules

`SopDefinition` and `MemoryCapsule` of `memory.rs`: the checks of a procedure, the order of its
steps and the digest of the capsule it is exchanged in. Maps are functions to options. The JSON text
of a procedure is a parameter: the code that writes it is not part of the repository. -/

namespace Pandora.Memory.Sop

open Lib.Checked Text

inductive MemoryIntent
  | repo | procedure | coding | user
deriving DecidableEq

inductive MemoryContractError
  | emptyField (field : String)
  | fieldTooLong (field : String)
  | controlCharacter (field : String)
  | duplicateStep (step : String)
  | unknownDependency (dep : String)
  | selfDependency (step : String)
  | dependencyCycle
deriving DecidableEq

def MemoryContractError.display : MemoryContractError → String
  | .emptyField field => field ++ " cannot be empty"
  | .fieldTooLong field => field ++ " is too long"
  | .controlCharacter field => field ++ " contains a control character"
  | .duplicateStep step => "duplicate SOP step '" ++ step ++ "'"
  | .unknownDependency dep => "unknown SOP step dependency '" ++ dep ++ "'"
  | .selfDependency step => "SOP step '" ++ step ++ "' cannot depend on itself"
  | .dependencyCycle => "SOP steps contain a dependency cycle"

/-- `validate_text` and `validate_multiline_text`, with the limit and the characters refused. -/
def validateWith (limit : ℕ) (refused : Char → Bool) (field value : String) :
    Except MemoryContractError String :=
  if (trim value).isEmpty then .error (.emptyField field)
  else if limit < value.utf8ByteSize then .error (.fieldTooLong field)
  else if value.toList.any refused then .error (.controlCharacter field)
  else .ok (trim value)

def validateText (field value : String) : Except MemoryContractError String :=
  validateWith 16384 isControl field value

def validateMultilineText (field value : String) : Except MemoryContractError String :=
  validateWith 65536 (fun c => isControl c && !(c = '\n' || c = '\r' || c = '\t')) field value

structure SopStep where
  (id name command : String)
  dependsOn : List String
deriving DecidableEq

/-- Steps with the steps they depend on. -/
structure SopDefinition where
  (id name : String)
  triggerIntent : MemoryIntent
  steps : List SopStep
  verificationCommand : Option String
deriving DecidableEq

namespace SopDefinition

/-! ### The order of the steps -/

/-- The number of dependencies of each step. -/
def inDegrees (steps : List SopStep) : String → Option ℕ :=
  steps.foldl (fun degrees step =>
    step.dependsOn.foldl
      (fun degrees _ => Function.update degrees step.id (some ((degrees step.id).getD 0 + 1)))
      (Function.update degrees step.id (some ((degrees step.id).getD 0)))) fun _ => none

/-- The steps that depend on each step. -/
def dependents (steps : List SopStep) : String → Option (List String) :=
  steps.foldl (fun map step =>
    step.dependsOn.foldl
      (fun map dep => Function.update map dep (some ((map dep).getD [] ++ [step.id]))) map)
    fun _ => none

def stepMap (steps : List SopStep) : String → Option SopStep :=
  steps.foldl (fun map step => Function.update map step.id (some step)) fun _ => none

/-- One dependency of a step is in the order now. -/
def settle (state : List String × (String → Option ℕ)) (child : String) :
    List String × (String → Option ℕ) :=
  match state.2 child with
  | none => state
  | some deg =>
    (if deg - 1 = 0 then state.1 ++ [child] else state.1,
      Function.update state.2 child (some (deg - 1)))

/-- The loop over the queue, for at most `fuel` of its elements. -/
def drain (steps : List SopStep) : ℕ → List String → (String → Option ℕ) → List SopStep →
    List SopStep
  | 0, _, _, order => order
  | _ + 1, [], _, order => order
  | fuel + 1, node :: queue, degrees, order =>
    let order := order ++ (stepMap steps node).toList
    let (queue, degrees) := ((dependents steps node).getD []).foldl settle (queue, degrees)
    drain steps fuel queue degrees order

/-- Every step enters the queue at the start or with one of its dependencies. -/
def executionOrder (sop : SopDefinition) : List SopStep :=
  let degrees := inDegrees sop.steps
  let queue := (sop.steps.filter fun step => degrees step.id = some 0).map SopStep.id
  drain sop.steps (sop.steps.length + (sop.steps.map fun step => step.dependsOn.length).sum) queue
    degrees []

/-! ### The checks -/

/-- The checks of one step, given the identifiers before it. -/
def checkStep (stepIds : List String) (step : SopStep) :
    Except MemoryContractError (List String) := do
  let _ ← validateText "step id" step.id
  let _ ← validateText "step name" step.name
  let _ ← validateMultilineText "step command" step.command
  ensure (step.id ∉ stepIds) (.duplicateStep step.id)
  pure (step.id :: stepIds)

/-- The checks of one dependency, given those before it. -/
def checkDependency (stepIds : List String) (step : SopStep) (seen : List String)
    (dep : String) : Except MemoryContractError (List String) := do
  let _ ← validateText "step dependency" dep
  ensure (dep ∉ seen) (.duplicateStep dep)
  ensure (dep ≠ step.id) (.selfDependency step.id)
  ensure (dep ∈ stepIds) (.unknownDependency dep)
  pure (dep :: seen)

def validate (sop : SopDefinition) : Except MemoryContractError Unit := do
  let _ ← validateText "SOP id" sop.id
  let _ ← validateText "SOP name" sop.name
  match sop.verificationCommand with
  | some cmd =>
    let _ ← validateMultilineText "verification command" cmd
  | none => pure ()
  ensure (sop.steps ≠ []) (.emptyField "steps")
  let stepIds ← sop.steps.foldlM checkStep []
  sop.steps.forM fun step => do
    let _ ← step.dependsOn.foldlM (checkDependency stepIds step) []
  ensure (sop.executionOrder.length = sop.steps.length) .dependencyCycle

end SopDefinition

/-! ### Capsules -/

structure MemoryCapsule where
  capsuleId : String
  sop : SopDefinition
  (sha256Digest author : String)
  createdAt : ℕ
deriving DecidableEq

/-- `serde_json::to_string` of a procedure. -/
abbrev SopJson := SopDefinition → String

namespace MemoryCapsule

variable (sha : Sha256) (json : SopJson)

/-- What the digest is computed from. -/
def message (capsuleId : String) (sop : SopDefinition) (author : String) (createdAt : ℕ) :
    String :=
  "pandora-memory-capsule:v1\n" ++ capsuleId ++ "\n" ++ json sop ++ "\n" ++ author ++ "\n" ++
    toString createdAt

def computeDigest (capsuleId : String) (sop : SopDefinition) (author : String) (createdAt : ℕ) :
    String :=
  "sha256:" ++ hex (sha (asBytes (message json capsuleId sop author createdAt))).bytes

def new (capsuleId : String) (sop : SopDefinition) (author : String) (createdAt : ℕ) :
    Except MemoryContractError MemoryCapsule := do
  let capsuleId ← validateText "capsule id" capsuleId
  let author ← validateText "capsule author" author
  sop.validate
  pure ⟨capsuleId, sop, computeDigest sha json capsuleId sop author createdAt, author, createdAt⟩

def verifyDigest (capsule : MemoryCapsule) : Bool :=
  capsule.sha256Digest =
    computeDigest sha json capsule.capsuleId capsule.sop capsule.author capsule.createdAt

end MemoryCapsule

end Pandora.Memory.Sop
