import Pandora.Agent.Messages

/-! # Requests to Gemini

Gemini gives its calls no ids: `parse_gemini_response` numbers the parts of an answer, and
`GeminiRequest::from_request` looks for the name that belongs to a result by the id of its call,
from the end of the conversation. The numbers begin anew in every answer, like those of the calls
that are found in a text (`extract_fallback_tool_calls`). So every result goes to the call it
answers if and only if no id belongs to calls of different tools (`attributed_iff`). -/

namespace Pandora.Agent.Gemini

open Lib.Checked Agent.Messages
open Tools.Invocation (Value)

def maxResponseBytes : ℕ := 8 * 1024 * 1024
def maxResponseTextBytes : ℕ := 4 * 1024 * 1024

/-! ## Answers -/

structure GeminiFunctionCall where
  name : String
  args : Value

inductive GeminiResponsePart
  | text (block : String) (thought : Bool)
  | functionCall (functionCall : GeminiFunctionCall)
  | other (value : Value)

/-- An answer as it is parsed; a candidate may have no content, and the numbers of tokens are those
of the request, of the answer and of the cached part. -/
structure GeminiResponse where
  candidates : List (Option (List GeminiResponsePart))
  usage : Option TokenUsage

/-- What the loop over the parts has collected. -/
structure Collected where
  (text thoughts : String)
  toolCalls : List ToolCall

def callError : ProviderError → ProviderError
  | .invalidToolArguments callId => .invalidToolArguments callId
  | _ => .invalidResponse

def collectPart (found : Collected) : GeminiResponsePart × ℕ → Except ProviderError Collected
  | (.text block true, _) =>
    if found.thoughts.utf8ByteSize + block.utf8ByteSize ≤ maxResponseTextBytes then
      .ok { found with thoughts := found.thoughts ++ block }
    else .ok found
  | (.text block false, _) => do
    ensure (found.text.utf8ByteSize + block.utf8ByteSize ≤ maxResponseTextBytes) .responseTooLarge
    pure { found with text := found.text ++ block }
  | (.functionCall functionCall, index) => do
    let call ← (ToolCall.new ("gemini-call-" ++ toString index) functionCall.name
      functionCall.args).mapError callError
    pure { found with toolCalls := found.toolCalls ++ [call] }
  | (.other _, _) => .ok found

/-- `parse_gemini_response`; `parse` reads JSON. -/
def parseGeminiResponse (parse : List UInt8 → Option GeminiResponse) (bytes : List UInt8) :
    Except ProviderError ModelResponse := do
  ensure (bytes.length ≤ maxResponseBytes) .responseTooLarge
  let response ← orError (parse bytes) .invalidResponse
  let parts ← orError response.candidates.head?.join .invalidResponse
  let found ← parts.zipIdx.foldlM collectPart ⟨"", "", []⟩
  let text := if found.text.isEmpty ∧ found.toolCalls.isEmpty ∧ ¬ found.thoughts.isEmpty
    then found.thoughts else found.text
  pure ⟨text, found.toolCalls, response.usage.getD ⟨0, 0, 0, 0⟩⟩

def fallbackId (name : String) (n : ℕ) : String :=
  "call_" ++ .ofList (name.toList.map fun c => if c = '.' then '_' else c) ++ "_" ++ toString n

def fallbackCall (toolCalls : List ToolCall) (item : Value) : List ToolCall :=
  match (item.get? "name").bind Value.asStr with
  | some name =>
    match ToolCall.new (fallbackId name (toolCalls.length + 1)) name
        ((item.get? "arguments").getD (.object [])) with
    | .ok call => toolCalls ++ [call]
    | .error _ => toolCalls
  | none => toolCalls

/-- The calls among the JSON values that are found in a text. -/
def extractFallbackToolCalls (items : List Value) : List ToolCall :=
  items.foldl (fun toolCalls item =>
    match item with
    | .array subItems => subItems.foldl fallbackCall toolCalls
    | item => fallbackCall toolCalls item) []

/-! ## Requests -/

inductive GeminiRole
  | user | model

inductive GeminiPart
  | text (text : String)
  | functionCall (functionCall : GeminiFunctionCall)
  | functionResponse (name : String) (response : Value)

structure GeminiContent where
  role : Option GeminiRole
  parts : List GeminiPart

/-- The name of the call that a result is taken to answer. -/
def resultName (messages : List ChatMessage) (toolCallId : String) : Option String :=
  messages.reverse.findSome? fun candidate =>
    (candidate.toolCalls.find? (·.id = toolCallId)).map (·.name)

def responseContent (name content : String) : GeminiContent :=
  ⟨some .user, [.functionResponse name (.object [("content", .string content)])]⟩

/-- What a message that is not of the system becomes. -/
def contentOf (json : JsonText) (messages : List ChatMessage) (message : ChatMessage) :
    Except ProviderError GeminiContent :=
  match message.role with
  | .system | .user => .ok ⟨some .user, [.text message.content]⟩
  | .assistant => do
    let calls ← message.calls json
    let text : List GeminiPart :=
      if message.content.isEmpty then [] else [.text message.content]
    let parts := text ++ calls.map fun call =>
      GeminiPart.functionCall ⟨call.name, call.arguments⟩
    ensure (¬ parts.isEmpty) (.invalidRequest "assistant messages must contain text or a tool call")
    pure ⟨some .model, parts⟩
  | .tool => do
    let toolCallId ← orError message.toolCallId
      (.invalidRequest "Gemini tool results require a tool call ID")
    let name ← orError (resultName messages toolCallId)
      (.invalidRequest "Gemini tool result has no matching tool call")
    pure (responseContent name message.content)

/-! ## Conversations -/

/-- The calls that an answer asks for. -/
inductive Answers : List ToolCall → Prop
  | gemini {parse : List UInt8 → Option GeminiResponse} {bytes : List UInt8}
      {response : ModelResponse} (h : parseGeminiResponse parse bytes = .ok response) :
      Answers response.toolCalls
  | fallback (items : List Value) : Answers (extractFallbackToolCalls items)

/-- What is said, or the calls of an answer, each with its result. -/
inductive Turn
  | system (content : String)
  | user (content : String)
  | assistant (content : String)
  | answer (calls : List (ToolCall × String)) (h : Answers (calls.map Prod.fst))

def Turn.calls : Turn → List (ToolCall × String)
  | .answer calls _ => calls
  | _ => []

/-- The messages of a call: each call has a message of its own, and its result follows. -/
def callMessages (json : JsonText) (call : ToolCall × String) :
    Except ProviderError (List ChatMessage) := do
  let asked ← ChatMessage.assistantToolCalls json [call.1]
  let result ← ChatMessage.toolResult call.1.id call.2
  pure [asked, result]

def Turn.messages (json : JsonText) : Turn → Except ProviderError (List ChatMessage)
  | .system content => do pure [← ChatMessage.system content]
  | .user content => do pure [← ChatMessage.user content]
  | .assistant content => do pure [← ChatMessage.assistant content]
  | .answer calls _ => do pure (← calls.mapM (callMessages json)).flatten

def conversation (json : JsonText) (turns : List Turn) : Except ProviderError (List ChatMessage) :=
  do pure (← turns.mapM (Turn.messages json)).flatten

/-- A call of the conversation, with its result. -/
def Called (turns : List Turn) (call : ToolCall) (output : String) : Prop :=
  ∃ turn ∈ turns, (call, output) ∈ turn.calls

variable {json : JsonText} {turns : List Turn} {messages : List ChatMessage}

/-- Some message asks for a call of the tool `name`, with the id `id`. -/
def Asks (messages : List ChatMessage) (id name : String) : Prop :=
  ∃ message ∈ messages, ∃ call ∈ message.toolCalls, call.id = id ∧ call.name = name

/-! ### The calls of a conversation -/

theorem asks_flatten {id name : String} {lists : List (List ChatMessage)} :
    Asks lists.flatten id name ↔ ∃ messages ∈ lists, Asks messages id name := by
  unfold Asks
  constructor
  · rintro ⟨message, hmem, hcall⟩
    obtain ⟨messages, hmessages, hmem⟩ := List.mem_flatten.mp hmem
    exact ⟨messages, hmessages, message, hmem, hcall⟩
  · rintro ⟨messages, hmessages, message, hmem, hcall⟩
    exact ⟨message, List.mem_flatten.mpr ⟨messages, hmessages, hmem⟩, hcall⟩

/-- The calls that the messages of a list ask for are those of its elements. -/
theorem asks_mapM {α : Type} {f : α → Except ProviderError (List ChatMessage)} {l : List α}
    {lists : List (List ChatMessage)} {id name : String} {P : α → Prop}
    (h : l.mapM f = .ok lists)
    (hf : ∀ a ∈ l, ∀ messages, f a = .ok messages → (Asks messages id name ↔ P a)) :
    Asks lists.flatten id name ↔ ∃ a ∈ l, P a := by
  rw [asks_flatten]
  constructor
  · rintro ⟨messages, hmem, hasks⟩
    obtain ⟨a, ha, hfa⟩ := (mem_mapM h).mp hmem
    exact ⟨a, ha, (hf a ha messages hfa).mp hasks⟩
  · rintro ⟨a, ha, hP⟩
    obtain ⟨messages, hfa⟩ := exists_of_mapM h a ha
    exact ⟨messages, (mem_mapM h).mpr ⟨a, ha, hfa⟩, (hf a ha messages hfa).mpr hP⟩

theorem toolCalls_new {role : MessageRole} {content : String} {message : ChatMessage}
    (h : ChatMessage.new role content = .ok message) : message.toolCalls = [] := by
  simp only [ChatMessage.new, bind_eq_ok, ensure_eq_ok, exists_const, pure_eq_ok] at h
  obtain ⟨-, -, rfl⟩ := h
  rfl

theorem toolResult_eq_ok {callId content : String} {message : ChatMessage}
    (h : ChatMessage.toolResult callId content = .ok message) :
    message.role = .tool ∧ message.toolCalls = [] ∧ message.toolCallId = some callId := by
  simp only [ChatMessage.toolResult, ChatMessage.new, bind_eq_ok, ensure_eq_ok, exists_const,
    pure_eq_ok] at h
  obtain ⟨-, -, _, ⟨-, -, rfl⟩, rfl⟩ := h
  exact ⟨rfl, rfl, rfl⟩

theorem asks_callMessages {call : ToolCall × String} {id name : String}
    (h : callMessages json call = .ok messages) :
    Asks messages id name ↔ call.1.id = id ∧ call.1.name = name := by
  simp only [callMessages, ChatMessage.assistantToolCalls, List.mapM_cons, List.mapM_nil,
    bind_eq_ok, ensure_eq_ok, exists_const, pure_eq_ok] at h
  obtain ⟨_, ⟨-, _, ⟨_, ⟨_, -, rfl⟩, _, rfl, rfl⟩, rfl⟩, result, hresult, rfl⟩ := h
  simp [Asks, (toolResult_eq_ok hresult).2.1]

theorem asks_turn {turn : Turn} {id name : String} (h : turn.messages json = .ok messages) :
    Asks messages id name ↔ ∃ p ∈ turn.calls, p.1.id = id ∧ p.1.name = name := by
  cases turn with
  | answer calls _ =>
    simp only [Turn.messages, bind_eq_ok, pure_eq_ok] at h
    obtain ⟨lists, hlists, rfl⟩ := h
    exact asks_mapM hlists fun _ _ _ hcall => asks_callMessages hcall
  | _ =>
    simp only [Turn.messages, bind_eq_ok, pure_eq_ok] at h
    obtain ⟨message, hmessage, rfl⟩ := h
    simp [Asks, Turn.calls, toolCalls_new hmessage]

theorem asks_conversation {id name : String} (h : conversation json turns = .ok messages) :
    Asks messages id name ↔
      ∃ call output, Called turns call output ∧ call.id = id ∧ call.name = name := by
  simp only [conversation, bind_eq_ok, pure_eq_ok] at h
  obtain ⟨lists, hlists, rfl⟩ := h
  rw [asks_mapM hlists fun _ _ _ hturn => asks_turn hturn]
  constructor
  · rintro ⟨turn, hturn, ⟨call, output⟩, hcall, hnamed⟩
    exact ⟨call, output, ⟨turn, hturn, hcall⟩, hnamed⟩
  · rintro ⟨call, output, ⟨turn, hturn, hcall⟩, hnamed⟩
    exact ⟨turn, hturn, (call, output), hcall, hnamed⟩

theorem exists_toolResult {call : ToolCall} {output : String}
    (h : conversation json turns = .ok messages) (hcall : Called turns call output) :
    ∃ result, ChatMessage.toolResult call.id output = .ok result := by
  simp only [conversation, bind_eq_ok, pure_eq_ok] at h
  obtain ⟨lists, hlists, -⟩ := h
  obtain ⟨turn, hturn, hcall⟩ := hcall
  obtain ⟨said, hsaid⟩ := exists_of_mapM hlists turn hturn
  cases turn with
  | answer calls _ =>
    simp only [Turn.messages, bind_eq_ok, pure_eq_ok] at hsaid
    obtain ⟨lists, hlists, -⟩ := hsaid
    obtain ⟨pair, hpair⟩ := exists_of_mapM hlists _ hcall
    simp only [callMessages, bind_eq_ok, pure_eq_ok] at hpair
    obtain ⟨-, -, result, hresult, -⟩ := hpair
    exact ⟨result, hresult⟩
  | _ => cases hcall

/-! ### The names of the results -/

theorem asks_of_resultName {id name : String} (h : resultName messages id = some name) :
    Asks messages id name := by
  obtain ⟨message, hmem, hname⟩ := List.exists_of_findSome?_eq_some h
  obtain ⟨call, hcall, rfl⟩ := Option.map_eq_some_iff.mp hname
  exact ⟨message, List.mem_reverse.mp hmem, call, List.mem_of_find?_eq_some hcall,
    by simpa using List.find?_some hcall, rfl⟩

theorem exists_resultName {id name : String} (h : Asks messages id name) :
    ∃ name', resultName messages id = some name' := by
  obtain ⟨message, hmem, call, hcall, hid, -⟩ := h
  refine Option.isSome_iff_exists.mp (List.findSome?_isSome_iff.mpr ?_)
  refine ⟨message, List.mem_reverse.mpr hmem, ?_⟩
  rw [Option.isSome_map, List.find?_isSome]
  exact ⟨call, hcall, decide_eq_true hid⟩

theorem contentOf_result {callId output name : String} {result : ChatMessage}
    (h : ChatMessage.toolResult callId output = .ok result) :
    contentOf json messages result = .ok (responseContent name result.content) ↔
      resultName messages callId = some name := by
  obtain ⟨hrole, -, hid⟩ := toolResult_eq_ok h
  unfold contentOf
  rw [hrole, hid]
  dsimp only
  simp only [orError, ok_bind]
  rcases resultName messages callId with _ | name'
  · exact iff_of_false (by rintro ⟨⟩) (by rintro ⟨⟩)
  · simp [responseContent, eq_comm]

/-- Every result of a conversation goes to the call it answers if and only if calls with the same id
are of the same tool. -/
theorem attributed_iff (h : conversation json turns = .ok messages) :
    (∀ call output result, Called turns call output →
        ChatMessage.toolResult call.id output = .ok result →
        contentOf json messages result = .ok (responseContent call.name result.content)) ↔
      ∀ call call' output output', Called turns call output → Called turns call' output' →
        call.id = call'.id → call.name = call'.name := by
  constructor
  · intro hattributed call call' output output' hcall hcall' hid
    obtain ⟨result, hresult⟩ := exists_toolResult h hcall
    obtain ⟨result', hresult'⟩ := exists_toolResult h hcall'
    have hname := (contentOf_result hresult).mp (hattributed _ _ _ hcall hresult)
    have hname' := (contentOf_result hresult').mp (hattributed _ _ _ hcall' hresult')
    rw [← hid, hname] at hname'
    exact Option.some.inj hname'
  · intro hsame call output result hcall hresult
    rw [contentOf_result hresult]
    have hasks := (asks_conversation h).mpr ⟨call, output, hcall, rfl, rfl⟩
    obtain ⟨name, hname⟩ := exists_resultName hasks
    obtain ⟨call', output', hcall', hid, rfl⟩ := (asks_conversation h).mp (asks_of_resultName hname)
    rw [hname, hsame call' call output' output hcall' hcall hid]

/-! ### Two turns -/

def plainJson : JsonText := ⟨fun _ => some "\x7b\x7d", fun _ => some (.object [])⟩

def firstCall (name : String) : ToolCall := ⟨"gemini-call-0", name, .object []⟩

def oneCall (name : String) : GeminiResponse := ⟨[some [.functionCall ⟨name, .object []⟩]], none⟩

theorem answers_read : Answers [firstCall "workspace.read"] :=
  @Answers.gemini (fun _ => some (oneCall "workspace.read")) [] ⟨"", _, ⟨0, 0, 0, 0⟩⟩ rfl

theorem answers_patch : Answers [firstCall "workspace.patch"] :=
  @Answers.gemini (fun _ => some (oneCall "workspace.patch")) [] ⟨"", _, ⟨0, 0, 0, 0⟩⟩ rfl

def readTurn : Turn := .answer [(firstCall "workspace.read", "text")] answers_read

def patchTurn : Turn := .answer [(firstCall "workspace.patch", "done")] answers_patch

def secondCall : ToolCall := ⟨"gemini-call-1", "workspace.patch", .object []⟩

/-- An answer with two calls, of which each gets its own identifier. -/
def twoCalls : GeminiResponse :=
  ⟨[some [.functionCall ⟨"workspace.read", .object []⟩,
    .functionCall ⟨"workspace.patch", .object []⟩]], none⟩

theorem answers_both : Answers [firstCall "workspace.read", secondCall] :=
  @Answers.gemini (fun _ => some twoCalls) [] ⟨"", _, ⟨0, 0, 0, 0⟩⟩ rfl

def bothTurn : Turn :=
  .answer [(firstCall "workspace.read", "text"), (secondCall, "done")] answers_both

theorem called_both {call : ToolCall} {output : String} (h : Called [bothTurn] call output) :
    call = firstCall "workspace.read" ∨ call = secondCall := by
  obtain ⟨turn, hturn, hcall⟩ := h
  obtain rfl := List.mem_singleton.mp hturn
  rcases List.mem_cons.mp hcall with hfirst | hsecond
  · exact Or.inl (Prod.mk.inj hfirst).1
  · exact Or.inr (Prod.mk.inj (List.mem_singleton.mp hsecond)).1

theorem attributed_read : ∃ messages result, conversation plainJson [bothTurn] = .ok messages ∧
    ChatMessage.toolResult "gemini-call-0" "text" = .ok result ∧
      contentOf plainJson messages result =
        .ok (responseContent "workspace.read" result.content) := by
  obtain ⟨messages, h⟩ : ∃ messages, conversation plainJson [bothTurn] = .ok messages := ⟨_, rfl⟩
  obtain ⟨result, hresult⟩ : ∃ result,
    ChatMessage.toolResult "gemini-call-0" "text" = .ok result := ⟨_, rfl⟩
  refine ⟨messages, result, h, hresult, (attributed_iff h).mpr ?_ (firstCall "workspace.read")
    "text" result ⟨bothTurn, List.mem_cons_self, List.mem_cons_self⟩ hresult⟩
  intro call call' output output' hcall hcall' hid
  rcases called_both hcall with rfl | rfl <;> rcases called_both hcall' with rfl | rfl
  · rfl
  · exact absurd hid (by decide)
  · exact absurd hid (by decide)
  · rfl

/-- The result of the first call goes to the tool of the second. -/
theorem results_misattributed : ∃ messages result,
    conversation plainJson [readTurn, patchTurn] = .ok messages ∧
      Called [readTurn, patchTurn] (firstCall "workspace.read") "text" ∧
      ChatMessage.toolResult "gemini-call-0" "text" = .ok result ∧
      contentOf plainJson messages result =
        .ok (responseContent "workspace.patch" result.content) :=
  ⟨_, _, rfl, ⟨readTurn, List.mem_cons_self, List.mem_cons_self⟩, rfl, rfl⟩

end Pandora.Agent.Gemini
