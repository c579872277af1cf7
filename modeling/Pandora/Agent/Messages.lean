import Pandora.Tools.Invocation

/-! # The messages of an agent

The messages of `client.rs`, of which a request to a provider is made, and the compaction of a long
history in `agent_loop.rs`. A message keeps the calls of tools that an assistant asks for, with
their arguments as JSON text; the writer and the reader of JSON are parameters. -/

namespace Pandora.Agent.Messages

open Text Lib.Checked
open Tools.Invocation (Value)

def maxMessages : ℕ := 128
def maxMessageBytes : ℕ := 1048576
def maxTools : ℕ := 128
def maxToolCallIdBytes : ℕ := 256

/-- The errors of a provider; one of its manifest does not occur here. -/
inductive ProviderError
  | credentialUnavailable
  | invalidRequest (reason : String)
  | unsupportedEndpoint
  | transport
  | httpStatus (status : UInt16)
  | responseTooLarge
  | invalidResponse
  | invalidToolArguments (callId : String)
  | duplicateToolCallId (callId : String)
deriving DecidableEq

/-- `to_string`. -/
def ProviderError.text : ProviderError → String
  | .credentialUnavailable => "provider credential unavailable"
  | .invalidRequest reason => "invalid provider request: " ++ reason
  | .unsupportedEndpoint => "provider endpoint is not allowed"
  | .transport => "provider transport failed"
  | .httpStatus status => "provider returned HTTP status " ++ toString status.toNat
  | .responseTooLarge => "provider response exceeds the size limit"
  | .invalidResponse => "provider returned an invalid response"
  | .invalidToolArguments _ => "provider returned invalid tool arguments"
  | .duplicateToolCallId _ => "provider returned duplicate tool-call identifiers"

/-- `serde_json::to_string` and `serde_json::from_str`, on values. -/
structure JsonText where
  write : Value → Option String
  parse : String → Option Value

/-! ## Tool calls -/

structure ToolCall where
  (id name : String)
  arguments : Value

def validateToolCallId (value : String) : Except ProviderError Unit :=
  ensure (value.utf8ByteSize ≤ maxToolCallIdBytes ∧ ¬ (trim value).isEmpty ∧
    ¬ value.toList.any isControl) (.invalidRequest "tool call ID is invalid")

def Value.isObject : Value → Bool
  | .object _ => true
  | _ => false

def ToolCall.new (id name : String) (arguments : Value) : Except ProviderError ToolCall := do
  validateToolCallId id
  ensure (¬ (trim name).isEmpty ∧ ¬ name.toList.any isControl)
    (.invalidRequest "tool name is invalid")
  ensure (Value.isObject arguments) (.invalidToolArguments id)
  pure ⟨id, name, arguments⟩

/-! ## Messages -/

inductive MessageRole
  | system | user | assistant | tool
deriving DecidableEq

structure ChatToolCall where
  (id name arguments : String)
deriving DecidableEq

structure ChatMessage where
  role : MessageRole
  content : String
  toolCalls : List ChatToolCall
  toolCallId : Option String
deriving DecidableEq

namespace ChatMessage

def new (role : MessageRole) (content : String) : Except ProviderError ChatMessage := do
  ensure (¬ content.isEmpty) (.invalidRequest "message content cannot be empty")
  ensure (content.utf8ByteSize ≤ maxMessageBytes)
    (.invalidRequest "message content exceeds the size limit")
  pure ⟨role, content, [], none⟩

def system (content : String) : Except ProviderError ChatMessage := new .system content

def user (content : String) : Except ProviderError ChatMessage := new .user content

def assistant (content : String) : Except ProviderError ChatMessage := new .assistant content

def assistantToolCalls (json : JsonText) (calls : List ToolCall) :
    Except ProviderError ChatMessage := do
  ensure (calls ≠ []) (.invalidRequest "assistant tool-call message cannot be empty")
  let toolCalls ← calls.mapM fun call => do
    let arguments ← orError (json.write call.arguments)
      (.invalidRequest "tool arguments could not be encoded")
    pure ⟨call.id, call.name, arguments⟩
  pure ⟨.assistant, "", toolCalls, none⟩

def toolResult (callId content : String) : Except ProviderError ChatMessage := do
  validateToolCallId callId
  let message ← new .tool (if content.isEmpty then "[empty tool result]" else content)
  pure { message with toolCallId := some callId }

/-- `tool_calls`. -/
def calls (json : JsonText) (message : ChatMessage) : Except ProviderError (List ToolCall) :=
  message.toolCalls.mapM fun call => do
    let arguments ← orError (json.parse call.arguments) (.invalidToolArguments call.id)
    ToolCall.new call.id call.name arguments

end ChatMessage

/-! ## Requests -/

structure ToolSchema where
  (name description : String)
  inputSchema : Value

structure ModelRequest where
  modelId : String
  messages : List ChatMessage
  tools : List ToolSchema
  sessionId : String
  promptCache : Bool

/-- `validate`: what is the same in every request of an agent, the number of output tokens and the
time limit, is in its range. -/
def ModelRequest.validate (request : ModelRequest) : Except ProviderError Unit := do
  ensure (request.messages ≠ [] ∧ request.messages.length ≤ maxMessages)
    (.invalidRequest "message count is outside the allowed range")
  ensure ((request.messages.map (·.content.utf8ByteSize)).sum ≤ maxMessageBytes)
    (.invalidRequest "total message content exceeds the size limit")
  ensure (request.tools.length ≤ maxTools) (.invalidRequest "tool count exceeds the size limit")
  ensure (request.tools.map (·.name)).Nodup (.invalidRequest "duplicate tool name")

structure TokenUsage where
  (promptTokens completionTokens cachedPromptTokens cacheWritePromptTokens : ℕ)

/-- `u32::saturating_add`. -/
def saturatingAdd (a b : ℕ) : ℕ := min (a + b) (2 ^ 32 - 1)

def addUsage (total next : TokenUsage) : TokenUsage where
  promptTokens := saturatingAdd total.promptTokens next.promptTokens
  completionTokens := saturatingAdd total.completionTokens next.completionTokens
  cachedPromptTokens := saturatingAdd total.cachedPromptTokens next.cachedPromptTokens
  cacheWritePromptTokens := saturatingAdd total.cacheWritePromptTokens next.cacheWritePromptTokens

structure ModelResponse where
  text : String
  toolCalls : List ToolCall
  usage : TokenUsage

/-! ## Compaction -/

def defaultHistoryWindowTurns : ℕ := 12

/-- Where the loop over the history, from its end, finds the last message of `turns` turns. It is
given the messages in reverse, so an index counts from the front as the number of those left. -/
def findTurn : ℕ → List ChatMessage → Option ℕ
  | _, [] => none
  | turns, message :: rest =>
    if message.role = .user then
      if turns ≤ 1 then some rest.length else findTurn (turns - 1) rest
    else findTurn turns rest

/-- The first cutoff: the index of the turn, or as many messages as two a turn. -/
def firstCutoff (history : List ChatMessage) (windowTurns : ℕ) : ℕ :=
  let found := (findTurn windowTurns history.reverse).getD 0
  if found = 0 ∨ history.length ≤ found then history.length - windowTurns * 2 else found

/-- The results of tools that stand at the cutoff are passed over. -/
def cutoffIndex (history : List ChatMessage) (windowTurns : ℕ) : ℕ :=
  let first := firstCutoff history windowTurns
  first + ((history.drop first).takeWhile (·.role = .tool)).length

/-- `&text[..n]`; nothing, a panic, where a character is cut. -/
def takeBytes : ℕ → List Char → Option (List Char)
  | 0, _ => some []
  | _ + 1, [] => none
  | n + 1, c :: rest =>
    if c.utf8Size ≤ n + 1 then (takeBytes (n + 1 - c.utf8Size) rest).map (c :: ·) else none

/-- The first of `lines()`. -/
def firstLine (text : String) : List Char :=
  let line := text.toList.takeWhile (· ≠ '\n')
  if line.length < text.toList.length ∧ line.getLast? = some '\r' then line.dropLast else line

def snippet (text : String) : Option String :=
  let line := firstLine text
  if 120 < (String.ofList line).utf8ByteSize then (takeBytes 120 line).map .ofList
  else some (.ofList line)

def startsWith (front text : String) : Bool := front.toList.isPrefixOf text.toList

/-- What the summary takes from a message: nothing, or a snippet. -/
def summarized (role : MessageRole) (skipped : String) (message : ChatMessage) :
    Option (Option String) :=
  let trimmed := trim message.content
  if message.role = role ∧ ¬ trimmed.isEmpty ∧ ¬ startsWith skipped trimmed then
    (snippet trimmed).map some
  else some none

/-- The names of a `BTreeSet`. -/
def toolsUsed (json : JsonText) (older : List ChatMessage) : List String :=
  let named := older.flatMap fun message =>
    match message.role, message.calls json with
    | .assistant, .ok calls => calls.map (·.name)
    | _, _ => []
  named.dedup.insertionSort (· ≤ ·)

def bulleted (lines : List String) : String := "\n".intercalate (lines.map ("- " ++ ·))

def summaryText (cutoff : ℕ) (userRequests tools assistantSummaries : List String) : String :=
  "[Historical Context Summary - Compressed " ++ toString cutoff ++
    " preceding messages]\nPrimary Objectives:\n" ++ bulleted (userRequests.take 5) ++
    "\nTools Executed: " ++ (if tools = [] then "none" else ", ".intercalate tools) ++
    "\nKey Progress:\n" ++ bulleted (assistantSummaries.take 5)

def ackText (cutoff : ℕ) : String :=
  "Acknowledged historical session state (" ++ toString cutoff ++
    " messages compressed). Preserving context window invariants for active turns."

/-- How the compaction fails: by an error, or by a panic. -/
inductive CompactionFailure
  | context (error : ProviderError)
  | panicked
deriving DecidableEq

def compactSessionHistory (json : JsonText) (history : List ChatMessage) (windowTurns : ℕ) :
    Except CompactionFailure (List ChatMessage) :=
  if history.length ≤ windowTurns * 2 then .ok history
  else
    let cutoff := cutoffIndex history windowTurns
    if history.length ≤ cutoff ∨ cutoff = 0 then .ok history
    else do
      let older := history.take cutoff
      let userRequests ← orError (older.mapM (summarized .user "[Historical Context Summary"))
        .panicked
      let assistantSummaries ← orError
        (older.mapM (summarized .assistant "Acknowledged historical"))
        .panicked
      let summary ← (ChatMessage.user (summaryText cutoff userRequests.reduceOption
        (toolsUsed json older) assistantSummaries.reduceOption)).mapError .context
      let ack ← (ChatMessage.assistant (ackText cutoff)).mapError .context
      pure (summary :: ack :: history.drop cutoff)

end Pandora.Agent.Messages
