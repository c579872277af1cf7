import Pandora.Cron.Schedule

/-! # Tool calls as task intents

`tool_engine.rs` turns the call of a tool into a text, the intent of a task: an action and the
arguments of the call, joined by colons and bars. `execution_controller.rs` splits the text again
when the task is run (`coding_input`, `research_input`, `design_input`) and hands what it finds to
the constructor of a request.

The tools are those of the coding, the research and the design Harness. -/

namespace Pandora.Tools.Invocation

open Text Lib.Checked
open Cron (splitOnce toAsciiLowercase)

/-! ## Arguments -/

/-- A JSON value; an object has its fields in the order of their names. -/
inductive Value
  | null
  | bool (value : Bool)
  | integer (value : ℤ)
  | float (bits : UInt64)
  | string (text : String)
  | array (values : List Value)
  | object (fields : List (String × Value))

def Value.get? : Value → String → Option Value
  | .object fields, name => (fields.find? (·.1 = name)).map (·.2)
  | _, _ => none

def Value.asStr : Value → Option String
  | .string text => some text
  | _ => none

inductive JsonType
  | array | boolean | integer | null | number | object | string

def JsonType.asStr : JsonType → String
  | .array => "array"
  | .boolean => "boolean"
  | .integer => "integer"
  | .null => "null"
  | .number => "number"
  | .object => "object"
  | .string => "string"

def matchesType : Value → JsonType → Bool
  | .array _, .array => true
  | .bool _, .boolean => true
  | .integer _, .integer => true
  | .null, .null => true
  | .integer _, .number => true
  | .float _, .number => true
  | .object _, .object => true
  | .string _, .string => true
  | _, _ => false

/-- The schema of a tool; no other properties are allowed. -/
structure Schema where
  required : List String
  properties : List (String × JsonType)

inductive ToolError
  | invalidArguments (message : String)
deriving DecidableEq

def validateArgument (schema : Schema) (field : String × Value) : Except ToolError Unit :=
  match schema.properties.find? (·.1 = field.1) with
  | none => .error (.invalidArguments ("unknown argument '" ++ field.1 ++ "'"))
  | some property => ensure (matchesType field.2 property.2)
      (.invalidArguments ("argument '" ++ field.1 ++ "' must be " ++ property.2.asStr))

def validateArguments (schema : Schema) : Value → Except ToolError Unit
  | .object fields => do
    forM schema.required fun name => ensure (fields.any (·.1 = name))
      (.invalidArguments ("missing required argument '" ++ name ++ "'"))
    forM fields (validateArgument schema)
  | _ => .error (.invalidArguments "tool arguments must be an object")

/-! ## Tools -/

inductive Tool
  | workspaceRead | workspaceSearch | workspacePatch | workspaceReplace | workspaceVerify
  | workspaceTest | workspaceFormat | workspaceLint | workspaceBuild | workspaceStatus
  | workspaceDiff | workspaceLog | workspaceRefs
  | daedalusAudit | argusReview | ariadneDebt | hephaestusMeasure
  | evidenceInventory | evidenceSearch | sourceRead | sourceCompare | browserFetch
  | citationInventory
  | designInventory | designTokens | designInspect | designCompare | accessibilityEvidence
deriving DecidableEq

/-- The Genes that the three Harnesses run. -/
inductive Gene
  | workspaceRead | workspaceSearch | changeReview | daedalusAudit | argusReview | ariadneDebt
  | hephaestusMeasure | athenaGuide | patchApply | verificationRun | testsRun | formatCheck
  | lintCheck | buildCheck | workspaceStatus | workspaceDiff | workspaceLog | workspaceRefs
  | evidenceInventory | evidenceSearch | sourceRead | sourceCompare | browserFetch
  | citationInventory | researchGuide
  | designInventory | designTokens | designInspect | designCompare | accessibilityEvidence
  | designGuide
deriving DecidableEq

inductive Harness
  | coding | research | design
deriving DecidableEq

def Schema.noArguments : Schema := ⟨[], []⟩

/-- Texts that have to be there. -/
def Schema.texts (names : List String) : Schema := ⟨names, names.map (·, .string)⟩

def Schema.compiler : Schema := ⟨[], [("compiler", .string), ("incremental", .boolean)]⟩

def Tool.inputSchema : Tool → Schema
  | .workspaceRead => .texts ["path"]
  | .workspaceSearch => .texts ["query"]
  | .workspacePatch => ⟨["path"],
      [("path", .string), ("content", .string), ("target", .string), ("replacement", .string)]⟩
  | .workspaceReplace => .texts ["path", "target", "replacement"]
  | .workspaceVerify => .compiler
  | .workspaceTest => .noArguments
  | .workspaceFormat => .noArguments
  | .workspaceLint => .noArguments
  | .workspaceBuild => .compiler
  | .workspaceStatus => .noArguments
  | .workspaceDiff => .noArguments
  | .workspaceLog => .noArguments
  | .workspaceRefs => .noArguments
  | .daedalusAudit => .noArguments
  | .argusReview => .texts ["path"]
  | .ariadneDebt => .noArguments
  | .hephaestusMeasure => .noArguments
  | .evidenceInventory => .noArguments
  | .evidenceSearch => .texts ["query"]
  | .sourceRead => .texts ["path"]
  | .sourceCompare => .texts ["left", "right"]
  | .browserFetch => .texts ["url"]
  | .citationInventory => .noArguments
  | .designInventory => .noArguments
  | .designTokens => .noArguments
  | .designInspect => .texts ["path"]
  | .designCompare => .texts ["left", "right"]
  | .accessibilityEvidence => .noArguments

def geneIdForTool : Tool → Gene
  | .workspaceRead => .workspaceRead
  | .workspaceSearch => .workspaceSearch
  | .workspacePatch => .patchApply
  | .workspaceReplace => .patchApply
  | .workspaceVerify => .verificationRun
  | .workspaceTest => .testsRun
  | .workspaceFormat => .formatCheck
  | .workspaceLint => .lintCheck
  | .workspaceBuild => .buildCheck
  | .workspaceStatus => .workspaceStatus
  | .workspaceDiff => .workspaceDiff
  | .workspaceLog => .workspaceLog
  | .workspaceRefs => .workspaceRefs
  | .daedalusAudit => .daedalusAudit
  | .argusReview => .argusReview
  | .ariadneDebt => .ariadneDebt
  | .hephaestusMeasure => .hephaestusMeasure
  | .evidenceInventory => .evidenceInventory
  | .evidenceSearch => .evidenceSearch
  | .sourceRead => .sourceRead
  | .sourceCompare => .sourceCompare
  | .browserFetch => .browserFetch
  | .citationInventory => .citationInventory
  | .designInventory => .designInventory
  | .designTokens => .designTokens
  | .designInspect => .designInspect
  | .designCompare => .designCompare
  | .accessibilityEvidence => .accessibilityEvidence

def isResearchTool : Tool → Bool
  | .evidenceInventory | .evidenceSearch | .sourceRead | .browserFetch | .sourceCompare
  | .citationInventory => true
  | _ => false

def isDesignTool : Tool → Bool
  | .designInventory | .designTokens | .designInspect | .designCompare
  | .accessibilityEvidence => true
  | _ => false

/-! ## The intent of a call -/

def requiredTextArgument (arguments : Value) (name : String) : Except ToolError String := do
  let value ← orError ((arguments.get? name).bind Value.asStr)
    (.invalidArguments ("argument '" ++ name ++ "' must be a string"))
  ensure (¬ (trim value).isEmpty ∧ ¬ value.toList.any isControl)
    (.invalidArguments ("argument '" ++ name ++ "' is invalid"))
  pure value

/-- `TaskIntent::new`. -/
def taskIntent (summary : String) : Except ToolError String := do
  ensure (¬ (trim summary).isEmpty) (.invalidArguments "task summary cannot be empty")
  pure summary

def taskFromArgument (arguments : Value) (action name : String) : Except ToolError String := do
  let value ← requiredTextArgument arguments name
  taskIntent (action ++ ":" ++ value)

/-- The first of two arguments that is there, if it is a text. -/
def contentArgument (arguments : Value) (name other : String) : String :=
  (((arguments.get? name).or (arguments.get? other)).bind Value.asStr).getD ""

/-- A patch of `workspace.patch` or `workspace.replace`. -/
def patchTask (arguments : Value) (name other : String) : Except ToolError String := do
  let path ← requiredTextArgument arguments "path"
  taskIntent ("patch:" ++ path ++ ":" ++ contentArgument arguments name other)

/-- A task that may be run by the other compiler. -/
def compilerTask (arguments : Value) (action : String) : Except ToolError String :=
  taskIntent (if (arguments.get? "compiler").bind Value.asStr = some "blaze" then action ++ ":blaze"
    else action)

def compareTask (arguments : Value) (action : String) : Except ToolError String := do
  let left ← requiredTextArgument arguments "left"
  let right ← requiredTextArgument arguments "right"
  taskIntent (action ++ ":" ++ left ++ "|" ++ right)

def Tool.task (arguments : Value) : Tool → Except ToolError String
  | .workspaceRead => taskFromArgument arguments "read" "path"
  | .workspaceSearch => taskFromArgument arguments "search" "query"
  | .workspacePatch => patchTask arguments "content" "replacement"
  | .workspaceReplace => patchTask arguments "replacement" "content"
  | .workspaceVerify => compilerTask arguments "verify"
  | .workspaceTest => taskIntent "test"
  | .workspaceFormat => taskIntent "format"
  | .workspaceLint => taskIntent "lint"
  | .workspaceBuild => compilerTask arguments "build"
  | .workspaceStatus => taskIntent "status"
  | .workspaceDiff => taskIntent "diff"
  | .workspaceLog => taskIntent "log"
  | .workspaceRefs => taskIntent "refs"
  | .daedalusAudit => taskIntent "audit"
  | .argusReview => taskFromArgument arguments "deep-review" "path"
  | .ariadneDebt => taskIntent "debt"
  | .hephaestusMeasure => taskIntent "measure"
  | .evidenceInventory => taskIntent "evidence-inventory"
  | .evidenceSearch => taskFromArgument arguments "evidence-search" "query"
  | .sourceRead => taskFromArgument arguments "source-read" "path"
  | .browserFetch => taskFromArgument arguments "fetch" "url"
  | .sourceCompare => compareTask arguments "source-compare"
  | .citationInventory => taskIntent "citation-inventory"
  | .designInventory => taskIntent "design-inventory"
  | .designTokens => taskIntent "design-tokens"
  | .designInspect => taskFromArgument arguments "design-inspect" "path"
  | .designCompare => compareTask arguments "design-compare"
  | .accessibilityEvidence => taskIntent "accessibility-evidence"

structure ToolInvocation where
  tool : Tool
  summary : String
  harness : Harness
  gene : Gene
deriving DecidableEq

def prepareInvocation (tool : Tool) (arguments : Value) : Except ToolError ToolInvocation := do
  let harness := if isResearchTool tool then .research else if isDesignTool tool then .design
    else .coding
  validateArguments tool.inputSchema arguments
  let summary ← tool.task arguments
  pure { tool, summary, harness, gene := geneIdForTool tool }

/-! ## The input of a Gene -/

inductive CodingRequest
  | read (path : String)
  | search (query : String)
  | review (path : String)
  | audit
  | argusReview (path : String)
  | debt
  | measure
  | guide
  | patch (path content : String)
  | verify
  | test
  | format
  | lint
  | build
  | status
  | diff
  | log
  | refs
deriving DecidableEq

inductive ResearchRequest
  | inventory
  | search (query : String)
  | read (path : String)
  | compare (left right : String)
  | fetch (url : String)
  | citationInventory
  | guide
deriving DecidableEq

inductive DesignRequest
  | inventory
  | tokens
  | inspect (path : String)
  | compare (left right : String)
  | accessibilityEvidence
  | guide
deriving DecidableEq

inductive Request
  | coding (request : CodingRequest)
  | research (request : ResearchRequest)
  | design (request : DesignRequest)
deriving DecidableEq

/-- `RuntimeError::InvalidIntent`. -/
structure InvalidIntent where
  message : String
deriving DecidableEq

variable {α : Type}

/-- A branch of the match on the Gene, with its guard. -/
def guarded (guard : Prop) [Decidable guard] (request : α) : Except InvalidIntent α :=
  if guard then .ok request else .error ⟨"intent does not match the selected Gene"⟩

/-- A branch whose argument is split in two. -/
def splitArgument (guard : Prop) [Decidable guard] (separator : Char) (remainder error : String)
    (request : String → String → α) : Except InvalidIntent α := do
  guarded guard ()
  let (left, right) ← orError (splitOnce separator remainder) ⟨error⟩
  pure (request left right)

/-- The action and what follows the first colon. -/
def actionOf (summary : String) : String × String :=
  let parts := (splitOnce ':' summary).getD (summary, "")
  (toAsciiLowercase parts.1, parts.2)

def codingRequest (action remainder : String) : Gene → Except InvalidIntent CodingRequest
  | .workspaceRead => guarded (action = "read") (.read remainder)
  | .workspaceSearch => guarded (action = "search") (.search remainder)
  | .changeReview => guarded (action = "review") (.review remainder)
  | .daedalusAudit => guarded (action = "audit" ∧ remainder = "") .audit
  | .argusReview => guarded (action = "deep-review") (.argusReview remainder)
  | .ariadneDebt => guarded (action = "debt" ∧ remainder = "") .debt
  | .hephaestusMeasure => guarded (action = "measure" ∧ remainder = "") .measure
  | .athenaGuide => guarded (action = "guide" ∧ remainder = "") .guide
  | .patchApply => splitArgument (action = "patch") ':' remainder "patch requires path and content"
      .patch
  | .verificationRun => guarded (action = "verify" ∧ remainder = "") .verify
  | .testsRun => guarded (action = "test" ∧ remainder = "") .test
  | .formatCheck => guarded (action = "format" ∧ remainder = "") .format
  | .lintCheck => guarded (action = "lint" ∧ remainder = "") .lint
  | .buildCheck => guarded (action = "build" ∧ remainder = "") .build
  | .workspaceStatus => guarded (action = "status" ∧ remainder = "") .status
  | .workspaceDiff => guarded (action = "diff" ∧ remainder = "") .diff
  | .workspaceLog => guarded (action = "log" ∧ remainder = "") .log
  | .workspaceRefs => guarded (action = "refs" ∧ remainder = "") .refs
  | _ => .error ⟨"intent does not match the selected Gene"⟩

/-- The request, and the payload of a patch. -/
def codingInput (summary : String) (gene : Gene) :
    Except InvalidIntent (Request × Option (List UInt8)) := do
  let (action, remainder) := actionOf summary
  let payload := if gene = .patchApply then (splitOnce ':' remainder).map (asBytes ·.2) else none
  let request ← codingRequest action remainder gene
  pure (.coding request, payload)

def researchRequest (action remainder : String) : Gene → Except InvalidIntent ResearchRequest
  | .evidenceInventory => guarded (action = "evidence-inventory" ∧ remainder = "") .inventory
  | .evidenceSearch => guarded (action = "evidence-search") (.search remainder)
  | .sourceRead => guarded (action = "source-read") (.read remainder)
  | .sourceCompare => splitArgument (action = "source-compare") '|' remainder
      "source comparison requires two paths" .compare
  | .browserFetch => guarded (action = "fetch") (.fetch remainder)
  | .citationInventory =>
      guarded (action = "citation-inventory" ∧ remainder = "") .citationInventory
  | .researchGuide => guarded (action = "research-guide" ∧ remainder = "") .guide
  | _ => .error ⟨"intent does not match the selected Gene"⟩

/-- The request, and the URL as a payload. -/
def researchInput (summary : String) (gene : Gene) :
    Except InvalidIntent (Request × Option (List UInt8)) := do
  let (action, remainder) := actionOf summary
  let request ← researchRequest action remainder gene
  let payload := if gene = .browserFetch then some (asBytes remainder) else none
  pure (.research request, payload)

def designRequest (action remainder : String) : Gene → Except InvalidIntent DesignRequest
  | .designInventory => guarded (action = "design-inventory" ∧ remainder = "") .inventory
  | .designTokens => guarded (action = "design-tokens" ∧ remainder = "") .tokens
  | .designInspect => guarded (action = "design-inspect") (.inspect remainder)
  | .designCompare => splitArgument (action = "design-compare") '|' remainder
      "design comparison requires two paths" .compare
  | .accessibilityEvidence =>
      guarded (action = "accessibility-evidence" ∧ remainder = "") .accessibilityEvidence
  | .designGuide => guarded (action = "design-guide" ∧ remainder = "") .guide
  | _ => .error ⟨"intent does not match the selected Gene"⟩

def designInput (summary : String) (gene : Gene) :
    Except InvalidIntent (Request × Option (List UInt8)) := do
  let (action, remainder) := actionOf summary
  let request ← designRequest action remainder gene
  pure (.design request, none)

def isResearchGene : Gene → Bool
  | .evidenceInventory | .evidenceSearch | .sourceRead | .sourceCompare | .browserFetch
  | .citationInventory | .researchGuide => true
  | _ => false

def isDesignGene : Gene → Bool
  | .designInventory | .designTokens | .designInspect | .designCompare | .accessibilityEvidence
  | .designGuide => true
  | _ => false

/-- What `run_internal` does with an invocation, up to the request that it is handed:
`into_gene_input` comes after that, and what it refuses fails as planning. -/
def geneInput (invocation : ToolInvocation) :
    Except InvalidIntent (Request × Option (List UInt8)) :=
  if isResearchGene invocation.gene then researchInput invocation.summary invocation.gene
  else if isDesignGene invocation.gene then designInput invocation.summary invocation.gene
  else codingInput invocation.summary invocation.gene

end Pandora.Tools.Invocation
