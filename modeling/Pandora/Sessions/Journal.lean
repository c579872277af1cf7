import Pandora.Jobs.Store
import Pandora.Lib.MachineInts

/-! # The session journal

`session_journal.rs` and the part of the session store it writes to. A step of a session is captured
with a digest of its fields and of the digest before it, and is stored under the session and its
index. A session can be rewound to a step, and forked at one: the steps up to it are copied under
the identifier of a new session. A session without a stored step gets the steps of its transcript.

The row of a step keeps the step itself, not the JSON text it is written as. What the operations do
to the working tree (`git checkout`, the directory of a fork) is left out. -/

namespace Pandora.Sessions.Journal

open Text Ids Lib.Checked Lib.MachineInts Lib.Tables
open Jobs.Store (Value)

def maxAgentMessages : ℕ := 256
def maxAgentMessageBytes : ℕ := 1048576
def maxAgentTranscriptBytes : ℕ := 8 * 1048576
def maxToolCallIdBytes : ℕ := 256

inductive SessionError
  | corruptRecord
  | agentMessageTooLarge
  | agentTranscriptTooLarge
  | scopeViolation
  | sessionAlreadyExists
  | sessionNotFound
  | invalidStep (message : String)

/-! ## Steps and their digests -/

/-- `HashMap<String, String>`, as its entries in the order of the keys: `keys.sort()` is the order
they are hashed in. -/
structure EnvironmentState where
  entries : List (String × String)
  sorted : entries.Pairwise fun a b => a.1 < b.1
deriving DecidableEq

/-- A captured step with its digest. -/
structure JournalStep where
  stepIndex : UInt64
  sessionId : SessionId
  (toolName toolCallId : Option String)
  arguments : Option Value
  result : Option String
  workspaceDiff : String
  environmentState : EnvironmentState
  sha256Digest : String
  timestamp : UInt64
deriving DecidableEq

structure ChatToolCall where
  (id name arguments : String)

structure ChatMessage where
  content : String
  toolCalls : List ChatToolCall

/-- The code outside the repository: the hash, the writer and the reader of JSON values, and the
length of the JSON text of a message. -/
structure Externals where
  sha : Sha256
  valueText : Value → String
  parseValue : String → Option Value
  messageBytes : ChatMessage → ℕ

variable (ext : Externals)

/-- One entry, as it is fed to the hash. -/
def entryChars (entry : String × String) : List Char :=
  entry.1.toList ++ ['='] ++ (entry.2.toList ++ [';'])

def EnvironmentState.text (environment : EnvironmentState) : String :=
  .ofList (environment.entries.flatMap entryChars)

/-- What is fed to the hash for a step. -/
def stepMessage (valueText : Value → String) (stepIndex : UInt64) (sessionId : SessionId)
    (toolName : Option String) (arguments : Option Value) (workspaceDiff : String)
    (environmentState : EnvironmentState) (prevDigest : Option String) : String :=
  "pandora-step-digest:v1\n" ++ toString stepIndex.toNat ++ "\n" ++ sessionId.text ++ "\n" ++
    toolName.getD "" ++ "\n" ++ (arguments.map valueText).getD "" ++ "\n" ++ workspaceDiff ++
      "\n" ++
    environmentState.text ++ "\n" ++ prevDigest.getD ""

def computeStepDigest (stepIndex : UInt64) (sessionId : SessionId) (toolName : Option String)
    (arguments : Option Value) (workspaceDiff : String) (environmentState : EnvironmentState)
    (prevDigest : Option String) : String :=
  "sha256:" ++ hex (ext.sha (asBytes (stepMessage ext.valueText stepIndex sessionId toolName
    arguments workspaceDiff environmentState prevDigest))).bytes

/-- The arguments of `capture_turn_step`. -/
structure Turn where
  sessionId : SessionId
  stepIndex : UInt64
  (toolName toolCallId : Option String)
  arguments : Option Value
  result : Option String
  workspaceDiff : String
  environmentState : EnvironmentState
  prevDigest : Option String
  timestamp : UInt64

def captureTurnStep (turn : Turn) : JournalStep where
  stepIndex := turn.stepIndex
  sessionId := turn.sessionId
  toolName := turn.toolName
  toolCallId := turn.toolCallId
  arguments := turn.arguments
  result := turn.result
  workspaceDiff := turn.workspaceDiff
  environmentState := turn.environmentState
  sha256Digest := computeStepDigest ext turn.stepIndex turn.sessionId turn.toolName turn.arguments
    turn.workspaceDiff turn.environmentState turn.prevDigest
  timestamp := turn.timestamp

/-! ## The store -/

structure Session where
  id : SessionId
  principalId : PrincipalId
  tenantId : TenantId
  workspaceId : WorkspaceId
  createdAt : UInt64
deriving DecidableEq

/-- `step_index as i64`. -/
def stepColumn (step : JournalStep) : ℤ := IntType.i64.wrap step.stepIndex.toNat

/-- `PRIMARY KEY (session_id, step_index)`. -/
def stepKey (step : JournalStep) : SessionId × ℤ := (step.sessionId, stepColumn step)

/-- The messages of a session, of which no more than the limit are ever saved. -/
structure Transcript where
  messages : List ChatMessage
  short : messages.length ≤ maxAgentMessages

def Transcript.empty : Transcript := ⟨[], Nat.zero_le _⟩

/-- The sessions, their messages and journals. -/
structure SessionStore where
  sessions : Table Session.id
  agentMessages : SessionId → Transcript
  journal : Table stepKey

def SessionStore.empty : SessionStore := ⟨.empty, fun _ => .empty, .empty⟩

namespace SessionStore

variable (store : SessionStore)

def create (session : Session) : Except SessionError SessionStore := do
  let _ ← orError (fitsI64 session.createdAt.toNat) .corruptRecord
  let sessions ← orError (store.sessions.insert? session) .sessionAlreadyExists
  pure { store with sessions := sessions }

/-- `ensure_scope`. -/
def ensureScope (session : Session) (principalId : PrincipalId) (tenantId : TenantId)
    (workspaceId : WorkspaceId) : Except SessionError Unit :=
  ensure (session.principalId = principalId ∧ session.tenantId = tenantId ∧
    session.workspaceId = workspaceId) .scopeViolation

/-- The messages of `resume`; the other tables it reads are left out. -/
def resume (sessionId : SessionId) (principalId : PrincipalId) (tenantId : TenantId)
    (workspaceId : WorkspaceId) : Except SessionError Transcript := do
  let session ← orError (store.sessions.get? sessionId) .sessionNotFound
  ensureScope session principalId tenantId workspaceId
  pure (store.agentMessages sessionId)

def saveAgentTranscript (sessionId : SessionId) (principalId : PrincipalId) (tenantId : TenantId)
    (workspaceId : WorkspaceId) (messages : List ChatMessage) : Except SessionError SessionStore :=
  if hshort : messages.length ≤ maxAgentMessages then do
    ensure (∀ message ∈ messages, ext.messageBytes message ≤ maxAgentMessageBytes)
      .agentMessageTooLarge
    ensure ((messages.map ext.messageBytes).sum ≤ maxAgentTranscriptBytes) .agentTranscriptTooLarge
    let session ← orError (store.sessions.get? sessionId) .sessionNotFound
    ensureScope session principalId tenantId workspaceId
    pure { store with
      agentMessages := Function.update store.agentMessages sessionId ⟨messages, hshort⟩ }
  else .error .agentTranscriptTooLarge

/-- `DELETE FROM sessions`, which takes the transcript along but not the journal. -/
def deleteSession (sessionId : SessionId) : SessionStore :=
  { store with
    sessions := store.sessions.delete (·.id = sessionId)
    agentMessages := Function.update store.agentMessages sessionId .empty }

def storeJournalStep (step : JournalStep) : Except SessionError SessionStore := do
  let _ ← orError (fitsI64 step.timestamp.toNat) .corruptRecord
  pure { store with journal := store.journal.upsert step }

/-- `SELECT … WHERE session_id = ? ORDER BY step_index ASC`. -/
def loadJournalSteps (sessionId : SessionId) : List JournalStep :=
  store.journal.selectBy (·.sessionId = sessionId) stepColumn

/-- `DELETE … WHERE session_id = ? AND step_index > ?`. -/
def truncateJournalAfter (sessionId : SessionId) (stepIndex : UInt64) : SessionStore :=
  { store with
    journal := store.journal.delete fun step =>
      step.sessionId = sessionId && IntType.i64.wrap stepIndex.toNat < stepColumn step }

end SessionStore

/-! ## The steps of a transcript -/

/-- `ToolCall::new`. -/
def validToolCall (call : ChatToolCall) (arguments : Value) : Bool :=
  call.id.utf8ByteSize ≤ maxToolCallIdBytes && !(trim call.id).isEmpty &&
    !call.id.toList.any isControl && !(trim call.name).isEmpty && !call.name.toList.any isControl &&
    match arguments with
    | .object _ => true
    | _ => false

/-- `tool_calls`: the calls, if all of them are valid. -/
def ChatMessage.validToolCalls (message : ChatMessage) : Option (List ChatToolCall) :=
  if message.toolCalls.all fun call => (ext.parseValue call.arguments).any (validToolCall call) then
    some message.toolCalls
  else none

/-- The name of the first call. -/
def ChatMessage.firstToolName (message : ChatMessage) : Option String := do
  let calls ← message.validToolCalls ext
  let call ← calls.head?
  pure call.name

/-- The turn of a message of a transcript. -/
def messageTurn (sessionId : SessionId) (idx : ℕ) (prev : Option String) (message : ChatMessage) :
    Turn where
  sessionId := sessionId
  stepIndex := .ofNat idx
  toolName := message.firstToolName ext
  toolCallId := none
  arguments := none
  result := some message.content
  workspaceDiff := ""
  environmentState := ⟨[], .nil⟩
  prevDigest := prev
  timestamp := .ofNat (100 + idx)

/-- The steps of the messages from the one with number `idx` on. -/
def synthesizeSteps (sessionId : SessionId) : ℕ → Option String → List ChatMessage →
    List JournalStep
  | _, _, [] => []
  | idx, prev, message :: messages =>
    let step := captureTurnStep ext (messageTurn ext sessionId idx prev message)
    step :: synthesizeSteps sessionId (idx + 1) (some step.sha256Digest) messages

/-- `let _ = store_journal_step(…)` for each of the steps. -/
def storeAll (store : SessionStore) (steps : List JournalStep) : SessionStore :=
  steps.foldl (fun store step => (store.storeJournalStep step).toOption.getD store) store

def defaultPrincipal : PrincipalId := .ofLiteral "principal-default"
def defaultTenant : TenantId := .ofLiteral "tenant-default"
def defaultWorkspace : WorkspaceId := .ofLiteral "workspace-default"

/-- The steps of the transcript of the session, if the default scope may read it. -/
def transcriptSteps (store : SessionStore) (sessionId : SessionId) : List JournalStep :=
  match store.resume sessionId defaultPrincipal defaultTenant defaultWorkspace with
  | .ok transcript => synthesizeSteps ext sessionId 0 none transcript.messages
  | .error _ => []

/-- `load_or_synthesize_steps`. It stores the steps it makes, whatever becomes of the call. -/
def loadOrSynthesizeSteps (store : SessionStore) (sessionId : SessionId) :
    SessionStore × Except SessionError (List JournalStep) :=
  match store.loadJournalSteps sessionId with
  | step :: steps => (store, .ok (step :: steps))
  | [] =>
    match transcriptSteps ext store sessionId with
    | [] => (store, .error .sessionNotFound)
    | step :: steps => (storeAll store (step :: steps), .ok (step :: steps))

/-! ## Rewind, fork and diff -/

structure RewindResult where
  sessionId : SessionId
  (rolledBackFromStep rolledBackToStep : UInt64)
  targetDigest : String
  restoredEnvironment : EnvironmentState
  workspaceRestored : Bool

structure ForkResult where
  (parentSessionId forkedSessionId : SessionId)
  atStep : UInt64
  (worktreePath gitBranch prompt : String)
  createdAt : UInt64

def findStep (steps : List JournalStep) (index : UInt64) : Option JournalStep :=
  steps.find? (·.stepIndex = index)

/-- `iter().map(|s| s.step_index).max().unwrap_or(0)`. -/
def maxStep (steps : List JournalStep) : UInt64 :=
  steps.foldl (fun top step => if top ≤ step.stepIndex then step.stepIndex else top) 0

def rewind (store : SessionStore) (sessionId : SessionId) (targetStep : UInt64)
    (workspace : Option String) : SessionStore × Except SessionError RewindResult :=
  match loadOrSynthesizeSteps ext store sessionId with
  | (store, .error e) => (store, .error e)
  | (store, .ok steps) =>
    match findStep steps targetStep with
    | none => (store, .error (.invalidStep
        ("target step " ++ toString targetStep.toNat ++ " not found in recorded steps")))
    | some record => (store.truncateJournalAfter sessionId targetStep, .ok
        { sessionId := sessionId
          rolledBackFromStep := maxStep steps
          rolledBackToStep := targetStep
          targetDigest := record.sha256Digest
          restoredEnvironment := record.environmentState
          workspaceRestored := workspace.isSome })

/-- The letters, digits and dashes of the parent's identifier, at most 16 of them. -/
def cleanParent (parent : SessionId) : String :=
  .ofList ((parent.text.toList.filter fun c => c.isAlphanum || c == '-').take 16)

def forkedText (parent : SessionId) (stepK timestamp : UInt64) : String :=
  "fork-" ++ cleanParent parent ++ "-s" ++ toString stepK.toNat ++ "-" ++ toString timestamp.toNat

/-- `Path::join` of a relative path. -/
def joinPath (path child : String) : String :=
  if path.isEmpty || path.toList.getLast? == some '/' then path ++ child else path ++ "/" ++ child

/-- The copies, up to the first that cannot be stored. -/
def copySteps (forked : SessionId) : SessionStore → List JournalStep →
    SessionStore × Except SessionError Unit
  | store, [] => (store, .ok ())
  | store, step :: steps =>
    match store.storeJournalStep { step with sessionId := forked } with
    | .error e => (store, .error e)
    | .ok store => copySteps forked store steps

/-- Who forks, where and when. -/
structure ForkRequest where
  parent : SessionId
  stepK : UInt64
  (prompt workspace : String)
  principalId : PrincipalId
  tenantId : TenantId
  workspaceId : WorkspaceId
  timestamp : UInt64

/-- The session that a fork makes, in a store that has the steps of its parent. -/
def createFork (store : SessionStore) (request : ForkRequest) :
    Except SessionError (SessionStore × SessionId) := do
  let forked ← (Id.new (forkedText request.parent request.stepK request.timestamp)).mapError
    fun _ => SessionError.corruptRecord
  let store ← store.create ⟨forked, request.principalId, request.tenantId, request.workspaceId,
    request.timestamp⟩
  pure (store, forked)

def fork (store : SessionStore) (request : ForkRequest) :
    SessionStore × Except SessionError ForkResult :=
  match loadOrSynthesizeSteps ext store request.parent with
  | (store, .error e) => (store, .error e)
  | (store, .ok steps) =>
    if steps.any (·.stepIndex = request.stepK) then
      match createFork store request with
      | .error e => (store, .error e)
      | .ok (store, forked) =>
        match copySteps forked store (steps.filter (·.stepIndex ≤ request.stepK)) with
        | (store, .error e) => (store, .error e)
        | (store, .ok ()) => (store, .ok
            { parentSessionId := request.parent
              forkedSessionId := forked
              atStep := request.stepK
              worktreePath := joinPath (joinPath (joinPath request.workspace ".pandora") "forks")
                forked.text
              gitBranch := "pandora-fork/" ++ cleanParent request.parent ++ "/s" ++
                toString request.stepK.toNat
              prompt := request.prompt
              createdAt := request.timestamp })
    else (store, .error (.invalidStep
      ("step " ++ toString request.stepK.toNat ++ " not found in recorded steps")))

/-- The two steps that `diff` compares; the texts it makes of them are left out. -/
def diff (store : SessionStore) (sessionId : SessionId) (stepA stepB : UInt64) :
    SessionStore × Except SessionError (JournalStep × JournalStep) :=
  match loadOrSynthesizeSteps ext store sessionId with
  | (store, .error e) => (store, .error e)
  | (store, .ok steps) => (store, do
      let a ← orError (findStep steps stepA)
        (.invalidStep ("step " ++ toString stepA.toNat ++ " not found"))
      let b ← orError (findStep steps stepB)
        (.invalidStep ("step " ++ toString stepB.toNat ++ " not found"))
      pure (a, b))

end Pandora.Sessions.Journal
