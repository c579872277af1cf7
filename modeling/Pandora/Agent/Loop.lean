import Pandora.Agent.Messages
import Pandora.Execution.Requests
import Pandora.Lib.Triples

/-! # The agent loop

`run_with_context` of `agent_loop.rs`: the history is compacted and checked, a pending call that was
approved is executed, and then the provider is asked, turn after turn, until it answers without
calling a tool. Tools are executed from three places: for the pending call, for the calls of an
answer, and by the gate that verifies the workspace before the task of a goal ends.

The control, the provider, the tools (`execute_tool`) and what assembles the context are given; they
may remember what was done (`ω`). The calls the loop makes, with the length of each request, are
kept in a list beside the state (`Act`); the program does not have it. -/

namespace Pandora.Agent.Loop

open Text Lib.Checked Lib.Triples Agent.Messages
open Tools.Invocation (Value)
open Execution.Requests (RuntimeError RunSummary)
open Subagents.Store (EffectReceipt)
open ChatMessage

def maxAgentTurns : ℕ := 64
def maxAgentToolCalls : ℕ := 128
def maxHistoryMessages : ℕ := 120

/-- The budget of an `AgentLoop`, which `new` checks. -/
structure AgentLoop where
  (maxTurns maxToolCalls : ℕ)
  turns_pos : 0 < maxTurns
  toolCalls_pos : 0 < maxToolCalls
  turns_le : maxTurns ≤ maxAgentTurns
  toolCalls_le : maxToolCalls ≤ maxAgentToolCalls

inductive AgentControlStop
  | cancelled | cancellationStateUnavailable | fenceLost | tokenBudgetExceeded
  | durationBudgetExceeded

inductive AgentCheckpointKind
  | beforeTurn | beforeProvider | afterProvider | beforeEffectAuthorization | afterEffect
deriving DecidableEq

/-- What is saved between two steps. -/
structure AgentCheckpoint where
  kind : AgentCheckpointKind
  (turns toolCalls : ℕ)
  usage : TokenUsage

variable {ω μ κ : Type}

/-- `μ` has the metrics of provider calls, `κ` the receipts of contexts. -/
structure AgentRunSummary (μ κ : Type) where
  finalText : String
  (turns toolCalls : ℕ)
  usage : TokenUsage
  runs : List RunSummary
  providerReceipts : List EffectReceipt
  providerMetrics : List μ
  contextReceipt : κ
  messages : List ChatMessage

inductive AgentLoopError (μ κ : Type)
  | invalidTask
  | invalidSkillContext
  | invalidL1Evidence
  | context (error : String)
  | provider (error : ProviderError)
  | providerExecution (error : ProviderError) (receipts : List EffectReceipt)
  | emptyResponse
  | toolBudgetExceeded
  | turnBudgetExceeded
  | approvalRequired (reason : String) (summary : AgentRunSummary μ κ)
  | controlledStop (reason : AgentControlStop) (summary : AgentRunSummary μ κ)
  | convergenceThrashed
  | execution (error : RuntimeError)
  /-- Not an error of the program: a panic. -/
  | panicked

/-- The errors of `execute_tool`. -/
inductive ToolFailure
  | convergenceThrashed
  | execution (error : RuntimeError)

def ToolFailure.error : ToolFailure → AgentLoopError μ κ
  | .convergenceThrashed => .convergenceThrashed
  | .execution error => .execution error

/-- The errors of what assembles the context. -/
inductive PreparationFailure
  | invalidSkillContext
  | invalidL1Evidence
  | context (error : String)
  | provider (error : ProviderError)
  | execution (error : RuntimeError)

def PreparationFailure.error : PreparationFailure → AgentLoopError μ κ
  | .invalidSkillContext => .invalidSkillContext
  | .invalidL1Evidence => .invalidL1Evidence
  | .context error => .context error
  | .provider error => .provider error
  | .execution error => .execution error

inductive ToolExecution
  | output (result : String)
  | approval (reason : String) (summary : RunSummary)

/-- What `invoke_provider` returns. -/
structure Invocation (μ : Type) where
  receipts : List EffectReceipt
  metrics : List μ
  result : Except ProviderError ModelResponse

/-- What is made of the context and the tools before the loop. -/
structure Prepared (κ : Type) where
  contextText : String
  contextReceipt : κ
  cacheable : Bool
  persistentContext : Option ChatMessage
  schemas : List ToolSchema

/-- What a run is given. -/
structure Environment (ω μ κ : Type) where
  json : JsonText
  control : Option (ω → AgentCheckpoint → ω × Except AgentControlStop Unit)
  invokeProvider : ω → ModelRequest → ω × Except RuntimeError (Invocation μ)
  /-- `execute_tool`; the flag says that the approval is used. -/
  executeTool : ω → ToolCall → Bool → ω × List RunSummary × Except ToolFailure ToolExecution
  renderPayload : Option String → String → Option String
  normalizePayload : String → Option (Option String)
  prepare : List ChatMessage → Except PreparationFailure (Prepared κ)
  (modelId sessionId task : String)
  approved : Bool

/-! ## The state -/

/-- The calls of the loop. -/
inductive Act
  | check (kind : AgentCheckpointKind) (passed : Bool)
  | request (messages : ℕ)
  | provider
  | tool (call : ToolCall) (yielded : Bool)

/-- The messages and what the run has used. -/
structure AgentState (ω μ : Type) where
  world : ω
  messages : List ChatMessage
  usage : TokenUsage
  runs : List RunSummary
  providerReceipts : List EffectReceipt
  providerMetrics : List μ
  (turns toolCalls : ℕ)
  (filesModified verifiedAfterModification : Bool)
  acts : List Act

def AgentState.act (s : AgentState ω μ) (act : Act) : AgentState ω μ :=
  { s with acts := s.acts ++ [act] }

/-- What does not change during a run. -/
structure Fixed (ω μ κ : Type) extends Environment ω μ κ, Prepared κ where
  loop : AgentLoop
  contextInsertIndex : ℕ

abbrev AgentM (ω μ κ : Type) := EStateM (AgentLoopError μ κ) (AgentState ω μ)

section

variable (fixed : Fixed ω μ κ)

/-- `persisted_messages`: all but the first, with the context among them. -/
def persistedMessages (messages : List ChatMessage) : List ChatMessage :=
  let persisted := messages.drop 1
  match fixed.persistentContext with
  | none => persisted
  | some context => persisted.insertIdx (min fixed.contextInsertIndex persisted.length) context

def providerMessages (messages : List ChatMessage) : List ChatMessage :=
  match fixed.persistentContext with
  | none => messages
  | some context => messages.insertIdx (min (fixed.contextInsertIndex + 1) messages.length) context

def summaryOf (s : AgentState ω μ) (finalText : String) : AgentRunSummary μ κ where
  finalText := finalText
  turns := s.turns
  toolCalls := s.toolCalls
  usage := s.usage
  runs := s.runs
  providerReceipts := s.providerReceipts
  providerMetrics := s.providerMetrics
  contextReceipt := fixed.contextReceipt
  messages := persistedMessages fixed s.messages

/-! ## Checks, messages and tools -/

/-- The answer of the control, if there is one. -/
def askControl (s : AgentState ω μ) (kind : AgentCheckpointKind) :
    ω × Except AgentControlStop Unit :=
  match fixed.control with
  | none => (s.world, .ok ())
  | some control => control s.world ⟨kind, s.turns, s.toolCalls, s.usage⟩

def checkControl (kind : AgentCheckpointKind) : AgentM ω μ κ Unit := do
  let s : AgentState ω μ ← get
  let (world, answer) := askControl fixed s kind
  set ({ s with world }.act (.check kind answer.isOk))
  match answer with
  | .ok () => pure ()
  | .error reason => throw (.controlledStop reason (summaryOf fixed s ""))

/-- An early return with the error, unless the condition holds. -/
def ensureThat (condition : Prop) [Decidable condition] (error : AgentLoopError μ κ) :
    AgentM ω μ κ Unit :=
  if condition then pure () else throw error

theorem ensureThat_triple {condition : Prop} [Decidable condition] {error : AgentLoopError μ κ}
    {P : AgentState ω μ → Prop} {Q : Unit → AgentState ω μ → Prop}
    {E : AgentLoopError μ κ → AgentState ω μ → Prop} (hholds : condition → ∀ s, P s → Q () s)
    (hfails : ∀ s, P s → E error s) : Triple P (ensureThat condition error) Q E := by
  unfold ensureThat
  split_ifs with h
  · exact .pure (hholds h)
  · exact .throw hfails

/-- `messages.push(…?)`. -/
def pushMessage (message : Except (AgentLoopError μ κ) ChatMessage) : AgentM ω μ κ Unit := do
  let message ← MonadExcept.ofExcept message
  modify fun s => { s with messages := s.messages ++ [message] }

def untrustedToolResult (callId : String) (toolName : Option String) (output : String) :
    Except (AgentLoopError μ κ) ChatMessage := do
  let output ← orError (fixed.renderPayload toolName output)
    (.execution (.invalidIntent "tool output could not be framed"))
  (toolResult callId output).mapError .provider

def contains (text part : String) : Bool := decide (part.toList <:+: text.toList)

/-- The texts by which the output of a tool is taken for a failure. -/
def failed (result : String) : Bool :=
  contains result "error:" || contains result "FAILED" || contains result "tool execution failed" ||
    contains result "failed (" || contains result "tool denied"

/-- What an output says about modifications and their verification. -/
def noteResult (call : ToolCall) (result : String) (s : AgentState ω μ) : AgentState ω μ :=
  if (call.name = "workspace.patch" ∨ call.name = "workspace.replace") ∧ ¬ failed result then
    { s with filesModified := true, verifiedAfterModification := false }
  else if (call.name = "workspace.verify" ∨ call.name = "workspace.test") ∧ ¬ failed result then
    { s with verifiedAfterModification := true }
  else s

def countToolCall : AgentM ω μ κ Unit :=
  modify fun s => { s with toolCalls := saturatingAdd s.toolCalls 1 }

/-- `execute_tool`, with the runs it appends. -/
def executeTool (call : ToolCall) (approved : Bool) : AgentM ω μ κ ToolExecution := do
  let s : AgentState ω μ ← get
  let (world, runs, answer) := fixed.executeTool s.world call approved
  let yielded := match answer with
    | .ok (.output _) => true
    | _ => false
  set ({ s with world, runs := s.runs ++ runs }.act (.tool call yielded))
  MonadExcept.ofExcept (answer.mapError ToolFailure.error)

/-- A tool needs an approval that is not there. -/
def requireApproval {α : Type} (reason : String) (summary : RunSummary) : AgentM ω μ κ α := do
  modify fun s => { s with runs := s.runs ++ [summary] }
  let s : AgentState ω μ ← get
  throw (.approvalRequired reason (summaryOf fixed s ""))

/-- A call of a tool between its two checks. -/
def useTool (call : ToolCall) (approved : Bool) : AgentM ω μ κ Unit := do
  countToolCall
  checkControl fixed .beforeEffectAuthorization
  match ← executeTool fixed call approved with
  | .output result =>
    modify (noteResult call result)
    pushMessage (untrustedToolResult fixed call.id (some call.name) result)
    checkControl fixed .afterEffect
  | .approval reason summary => requireApproval fixed reason summary

/-- A call that the provider asks for. -/
def runCall (call : ToolCall) : AgentM ω μ κ PUnit := do
  pushMessage ((assistantToolCalls fixed.json [call]).mapError .provider)
  useTool fixed call false

/-! ## Turns -/

def buildRequest : AgentM ω μ κ ModelRequest := do
  let s : AgentState ω μ ← get
  let messages := providerMessages fixed s.messages
  set (s.act (.request messages.length))
  let request : ModelRequest :=
    { modelId := fixed.modelId, messages, tools := fixed.schemas, sessionId := fixed.sessionId
      promptCache := fixed.cacheable }
  MonadExcept.ofExcept (request.validate.mapError .provider)
  pure request

def invokeProvider (request : ModelRequest) (turn : ℕ) : AgentM ω μ κ ModelResponse := do
  let s : AgentState ω μ ← get
  let (world, answer) := fixed.invokeProvider s.world request
  set ({ s with world }.act .provider)
  let invocation ← MonadExcept.ofExcept (answer.mapError .execution)
  modify fun s => { s with
    providerReceipts := s.providerReceipts ++ invocation.receipts
    providerMetrics := s.providerMetrics ++ invocation.metrics }
  let s : AgentState ω μ ← get
  let response ← MonadExcept.ofExcept
    (invocation.result.mapError fun error => .providerExecution error s.providerReceipts)
  modify fun s => { s with usage := addUsage s.usage response.usage, turns := turn }
  pure response

/-- The first part of a turn: the provider answers. -/
def askProvider (turn : ℕ) : AgentM ω μ κ ModelResponse := do
  checkControl fixed .beforeTurn
  let request ← buildRequest fixed
  checkControl fixed .beforeProvider
  let response ← invokeProvider fixed request turn
  checkControl fixed .afterProvider
  pure response

def isGoalTask : Bool := contains fixed.task "[LONG-HORIZON AUTONOMOUS GOAL]"

/-- The workspace is verified before the task may end. -/
def gateOpens (turn : ℕ) (s : AgentState ω μ) : Bool :=
  isGoalTask fixed && s.filesModified && !s.verifiedAfterModification &&
    turn < fixed.loop.maxTurns && s.toolCalls < fixed.loop.maxToolCalls

def verifyCall (turn : ℕ) : Except ProviderError ToolCall :=
  ToolCall.new ("auto-verify-turn-" ++ toString turn) "workspace.verify" (.object [])

def gateText (result : String) : String :=
  "[AUTONOMOUS VERIFICATION GATE]: File modifications were detected, but workspace verification " ++
    "failed before task completion:\n\n" ++ result ++
    "\n\nDiagnose the root cause, apply targeted fixes, and verify again before concluding."

/-- The gate: whether the task may end. -/
def verifyWorkspace (call : ToolCall) (text : String) : AgentM ω μ κ Bool := do
  countToolCall
  match ← executeTool fixed call false with
  | .output result =>
    if failed result then do
      pushMessage ((assistant text).mapError .provider)
      pushMessage ((user (gateText result)).mapError .provider)
      pure false
    else pure true
  | .approval reason summary => requireApproval fixed reason summary

def passGate (turn : ℕ) (text : String) : AgentM ω μ κ Bool := do
  let s : AgentState ω μ ← get
  match gateOpens fixed turn s, verifyCall turn with
  | true, .ok call => verifyWorkspace fixed call text
  | _, _ => pure true

/-- An answer without calls of tools: the summary, if the task ends. -/
def conclude (turn : ℕ) (text : String) : AgentM ω μ κ (Option (AgentRunSummary μ κ)) := do
  ensureThat (¬ (trim text).isEmpty) .emptyResponse
  let ends ← passGate fixed turn text
  if ends then do
    pushMessage ((assistant text).mapError .provider)
    let s ← get
    pure (some (summaryOf fixed s text))
  else pure none

/-- The calls of an answer, if the budget allows them; their number is cast to `u32`. -/
def runCalls (calls : List ToolCall) : AgentM ω μ κ Unit := do
  let s : AgentState ω μ ← get
  ensureThat (saturatingAdd s.toolCalls (calls.length % 2 ^ 32) ≤ fixed.loop.maxToolCalls)
    .toolBudgetExceeded
  calls.forM (runCall fixed)

/-- The second part of a turn: what the answer asks for. -/
def answerTurn (turn : ℕ) (response : ModelResponse) :
    AgentM ω μ κ (Option (AgentRunSummary μ κ)) :=
  if response.toolCalls.isEmpty then conclude fixed turn response.text
  else do
    runCalls fixed response.toolCalls
    pure none

/-- The turns from `turn` on, of which `left` are left. -/
def runTurns : ℕ → ℕ → AgentM ω μ κ (AgentRunSummary μ κ)
  | _, 0 => throw .turnBudgetExceeded
  | turn, left + 1 => do
    let response ← askProvider fixed turn
    match ← answerTurn fixed turn response with
    | some summary => pure summary
    | none => runTurns (turn + 1) left

/-- The pending call, if it was approved. -/
def runPending (pending : List ToolCall) : AgentM ω μ κ PUnit :=
  if fixed.approved then pending.forM fun call => useTool fixed call true else pure ⟨⟩

def runAgent (pending : List ToolCall) : AgentM ω μ κ (AgentRunSummary μ κ) := do
  runPending fixed pending
  runTurns fixed 1 fixed.loop.maxTurns

/-- In every turn that the run gets to, the answer meets `C` in the state in which it is given. -/
def TurnsMeet (C : ℕ → ModelResponse → AgentState ω μ → Prop) :
    ℕ → ℕ → AgentState ω μ → Prop
  | _, 0, _ => True
  | turn, left + 1, s =>
    match askProvider fixed turn s with
    | .error _ _ => True
    | .ok response s => C turn response s ∧
      match answerTurn fixed turn response s with
      | .ok none s => TurnsMeet C (turn + 1) left s
      | _ => True

/-- The rule for the turns: `I` before a turn, `J` between the answer and what is done for it. -/
theorem runTurns_rule {C : ℕ → ModelResponse → AgentState ω μ → Prop}
    {I : ℕ → AgentState ω μ → Prop} {J : ℕ → ModelResponse → AgentState ω μ → Prop}
    {Q : AgentRunSummary μ κ → AgentState ω μ → Prop}
    {E : AgentLoopError μ κ → AgentState ω μ → Prop}
    (hask : ∀ turn ≤ fixed.loop.maxTurns,
      Triple (I turn) (askProvider fixed turn) (fun response s => J turn response s) E)
    (hanswer : ∀ turn response,
      Triple (fun s => J turn response s ∧ C turn response s) (answerTurn fixed turn response)
        (fun result s => match result with
          | some summary => Q summary s
          | none => I (turn + 1) s) E)
    (hend : ∀ turn s, I turn s → E .turnBudgetExceeded s) :
    ∀ left turn, turn + left = fixed.loop.maxTurns + 1 →
      Triple (fun s => I turn s ∧ TurnsMeet fixed C turn left s) (runTurns fixed turn left)
        Q E := by
  intro left
  induction left with
  | zero =>
    intro turn _
    exact .throw fun s h => hend turn s h.1
  | succ left ih =>
    intro turn hturn
    refine ⟨fun s ⟨hI, hmeet⟩ => ?_⟩
    have hturn' : turn ≤ fixed.loop.maxTurns := by omega
    unfold TurnsMeet at hmeet
    rw [runTurns.eq_2]
    rcases hasked : askProvider fixed turn s with ⟨response, s₁⟩ | ⟨e, s₁⟩
    · rw [hasked] at hmeet
      obtain ⟨hC, hmeet⟩ := hmeet
      have hJ : J turn response s₁ := (hask turn hturn').ok hI hasked
      rw [bind_of_ok hasked]
      rcases hanswered : answerTurn fixed turn response s₁ with ⟨result, s₂⟩ | ⟨e, s₂⟩
      · have hdone := (hanswer turn response).ok ⟨hJ, hC⟩ hanswered
        rw [hanswered] at hmeet
        rw [bind_of_ok hanswered]
        rcases result with _ | summary
        · exact (ih (turn + 1) (by omega)).run s₂ ⟨hdone, hmeet⟩
        · exact hdone
      · rw [bind_of_error hanswered]
        exact (hanswer turn response).error ⟨hJ, hC⟩ hanswered
    · rw [bind_of_error hasked]
      exact (hask turn hturn').error hI hasked

theorem askProvider_answers {turn : ℕ} {P : ModelResponse → Prop}
    (hanswers : ∀ world request world' invocation response,
      fixed.invokeProvider world request = (world', .ok invocation) →
      invocation.result = .ok response → P response) :
    Triple (fun _ => True) (askProvider fixed turn) (fun response _ => P response)
      fun _ _ => True := by
  have htrue : ∀ {α : Type} (m : AgentM ω μ κ α),
      Triple (fun _ => True) m (fun _ _ => True) fun _ _ => True :=
    fun m => .intro (fun _ _ _ _ _ => trivial) fun _ _ _ _ _ => trivial
  unfold askProvider
  refine (htrue _).bind fun _ => (htrue _).bind fun request => (htrue _).bind fun _ => ?_
  refine .bind (Q := fun response _ => P response) ?_ fun response => ?_
  · unfold invokeProvider
    refine .get fun s _ => ?_
    rcases hinvoke : fixed.invokeProvider s.world request with ⟨world, answer⟩
    refine .bind (Q := fun _ _ => True) (.set fun _ _ => trivial) fun _ => ?_
    refine .bind (Q := fun invocation _ => answer = .ok invocation)
      (.ofExcept (fun _ h _ _ => mapError_eq_ok.mp h) fun _ _ _ _ => trivial) fun invocation => ?_
    refine .bind (Q := fun _ _ => answer = .ok invocation) (.modify fun _ h => h) fun _ => ?_
    refine .get fun s' hanswer => ?_
    refine .bind (Q := fun response _ => P response)
      (.ofExcept (fun response h _ _ => ?_) fun _ _ _ _ => trivial) fun response => ?_
    · rw [hanswer] at hinvoke
      exact hanswers _ _ _ _ _ hinvoke (mapError_eq_ok.mp h)
    · exact .bind (.modify fun _ h => h) fun _ => .pure fun _ h => h
  · refine .each fun s hresponse => ?_
    exact (htrue _).pre (fun _ _ => trivial) |>.bind fun _ => .pure fun _ _ => hresponse

theorem turnsMeet_of_answers {C : ℕ → ModelResponse → AgentState ω μ → Prop}
    {P : ModelResponse → Prop}
    (hanswers : ∀ world request world' invocation response,
      fixed.invokeProvider world request = (world', .ok invocation) →
      invocation.result = .ok response → P response)
    (hC : ∀ turn response s, P response → C turn response s) :
    ∀ left turn s, TurnsMeet fixed C turn left s := by
  intro left
  induction left with
  | zero =>
    intro turn s
    trivial
  | succ left ih =>
    intro turn s
    unfold TurnsMeet
    rcases hasked : askProvider fixed turn s with ⟨response, s₁⟩ | ⟨error, s₁⟩
    · have hresponse := (askProvider_answers fixed hanswers).ok trivial hasked
      refine ⟨hC turn response s₁ hresponse, ?_⟩
      rcases answerTurn fixed turn response s₁ with ⟨_ | summary, s₂⟩ | ⟨error, s₂⟩
      · exact ih (turn + 1) s₂
      · trivial
      · trivial
    · trivial

end

/-! ## What comes before the loop -/

section

variable (env : Environment ω μ κ)

def normalizeMessage (message : ChatMessage) : Except (AgentLoopError μ κ) ChatMessage :=
  if message.role ≠ .tool then .ok message
  else do
    let callId ← orError message.toolCallId
      (.execution (.invalidIntent "agent history contains an unbound tool result"))
    match ← orError (env.normalizePayload message.content)
        (.context "tool history could not be normalized") with
    | some normalized => (toolResult callId normalized).mapError .provider
    | none => do
      let output ← orError (env.renderPayload none message.content)
        (.execution (.invalidIntent "tool output could not be framed"))
      (toolResult callId output).mapError .provider

def compactionError : CompactionFailure → AgentLoopError μ κ
  | .context error => .context error.text
  | .panicked => .panicked

/-- The history at the start of a run, compacted if it is long. -/
def openHistory (history : List ChatMessage) : Except (AgentLoopError μ κ) (List ChatMessage) :=
  if defaultHistoryWindowTurns * 2 < history.length then
    (compactSessionHistory env.json history defaultHistoryWindowTurns).mapError compactionError
  else .ok history

/-- The calls of the last message that have no result. -/
def pendingToolCalls (history : List ChatMessage) : Except ProviderError (List ToolCall) :=
  match history.getLast? with
  | some message => if message.role = .assistant then message.calls env.json else .ok []
  | none => .ok []

/-- The history and the pending calls, if the run is not refused. -/
def acceptHistory (loop : AgentLoop) (history : List ChatMessage) :
    Except (AgentLoopError μ κ) (List ChatMessage × List ToolCall) := do
  ensure (¬ (trim env.task).isEmpty) .invalidTask
  let history ← openHistory env history
  ensure (history.length ≤ maxHistoryMessages ∧ ∀ message ∈ history, message.role ≠ .system)
    (.execution (.invalidIntent "agent history is invalid or too large"))
  let history ← history.mapM (normalizeMessage env)
  let pending ← (pendingToolCalls env history).mapError .provider
  ensure (pending.length ≤ loop.maxToolCalls) .toolBudgetExceeded
  ensure (pending.length ≤ 1)
    (.execution (.invalidIntent "agent session contains an ambiguous pending tool batch"))
  ensure (¬ (pending = [] ∧ env.approved))
    (.execution (.invalidIntent "agent approval has no pending tool call"))
  pure (history, pending)

/-- The messages of a run without an approval: the pending call is cancelled, and the task
follows. -/
def cancelAndAsk (pending : List ToolCall) : Except (AgentLoopError μ κ) (List ChatMessage) := do
  let cancelled ← pending.mapM fun call => do
    let output ← orError (env.renderPayload (some call.name)
        "tool execution cancelled: superseded by user message")
      (.execution (.invalidIntent "tool output could not be framed"))
    (toolResult call.id output).mapError .provider
  let task ← (user env.task).mapError .provider
  pure (cancelled ++ [task])

/-- What is added to the history before the loop. -/
def openTask (pending : List ToolCall) : Except (AgentLoopError μ κ) (List ChatMessage) :=
  if env.approved then .ok [] else cancelAndAsk env pending

/-- The start of the loop: what does not change, the first state and the pending calls. -/
def openRun (loop : AgentLoop) (world : ω) (history : List ChatMessage) :
    Except (AgentLoopError μ κ) (Fixed ω μ κ × AgentState ω μ × List ToolCall) := do
  let (history, pending) ← acceptHistory env loop history
  let prepared ← (env.prepare history).mapError PreparationFailure.error
  let system ← (system prepared.contextText).mapError .provider
  let opening ← openTask env pending
  let state : AgentState ω μ :=
    { world, messages := system :: (history ++ opening), usage := ⟨0, 0, 0, 0⟩, runs := []
      providerReceipts := [], providerMetrics := [], turns := 0, toolCalls := 0
      filesModified := false, verifiedAfterModification := false, acts := [] }
  pure (⟨env, prepared, loop, history.length⟩, state, pending)

theorem openRun_eq_ok {loop : AgentLoop} {world : ω} {history : List ChatMessage}
    {fixed : Fixed ω μ κ} {state : AgentState ω μ} {pending : List ToolCall}
    (h : openRun env loop world history = .ok (fixed, state, pending)) :
    fixed.toEnvironment = env ∧ fixed.loop = loop ∧ pending.length ≤ loop.maxToolCalls ∧
      state.acts = [] ∧ state.toolCalls = 0 := by
  unfold openRun at h
  simp only [bind_eq_ok, Prod.exists] at h
  obtain ⟨accepted, calls, haccept, prepared, -, system, -, opening, -, heq⟩ := h
  obtain ⟨rfl, rfl, rfl⟩ := heq
  unfold acceptHistory at haccept
  simp only [bind_eq_ok, ensure_eq_ok] at haccept
  obtain ⟨⟨⟩, -, history', -, ⟨⟩, -, normalized, -, calls', -, ⟨⟩, hbudget, ⟨⟩, -, ⟨⟩, -, heq⟩ :=
    haccept
  obtain ⟨rfl, rfl⟩ := heq
  exact ⟨rfl, rfl, hbudget, rfl, rfl⟩

/-- `run_with_context`: the calls that were made, and the result. -/
def runWithContext (loop : AgentLoop) (world : ω) (history : List ChatMessage) :
    List Act × Except (AgentLoopError μ κ) (AgentRunSummary μ κ) :=
  match openRun env loop world history with
  | .error error => ([], .error error)
  | .ok (fixed, state, pending) =>
    match runAgent fixed pending state with
    | .ok summary s => (s.acts, .ok summary)
    | .error error s => (s.acts, .error error)

end

end Pandora.Agent.Loop
