import Pandora.Agent.Loop

/-! # The length of a session

Three limits count messages: a request to the provider has at most 128, a transcript that is saved
at most 256, and a run is refused if its history, after the compaction, has more than 120. The
compaction keeps twelve turns of the user, however many messages they have, and a run adds two
messages for every call of a tool. -/

namespace Pandora.Agent.Transcripts

open Lib.Checked Lib.Triples Lib.Runs Agent.Messages Agent.Loop List
open Sessions.Journal (maxAgentMessages)
open Execution.Requests (RuntimeError RunSummary)
open Subagents.Store (EffectReceipt)
open FailsOnly

variable {ω μ κ : Type} {fixed : Fixed ω μ κ}

/-! ### The compaction -/

theorem findTurn_spec {turns i : ℕ} {reversed : List ChatMessage}
    (h : findTurn turns reversed = some i) :
    ∃ message, reversed.reverse[i]? = some message ∧ message.role = .user := by
  induction reversed generalizing turns with
  | nil => cases h
  | cons message rest ih =>
    rw [reverse_cons]
    have hrest : ∀ {turns : ℕ}, findTurn turns rest = some i →
        ∃ message', (rest.reverse ++ [message])[i]? = some message' ∧ message'.role = .user := by
      intro turns hfound
      obtain ⟨message', hget, huser⟩ := ih hfound
      obtain ⟨hlt, -⟩ := List.getElem?_eq_some_iff.mp hget
      exact ⟨message', by rw [List.getElem?_append_left hlt, hget], huser⟩
    unfold findTurn at h
    split_ifs at h with huser hlast
    · obtain rfl := Option.some.inj h
      refine ⟨message, ?_, huser⟩
      rw [List.getElem?_append_right (by rw [length_reverse]), length_reverse,
        Nat.sub_self]
      rfl
    · exact hrest h
    · exact hrest h

/-- The history fits after the compaction: it is short; or the last twelve turns of the user, if
there are more messages before them, are at most 118 messages; or else there are not only results of
tools at the end, or not too many messages. -/
def WindowFits (history : List ChatMessage) : Prop :=
  history.length ≤ 24 ∨
    match findTurn 12 history.reverse with
    | some (before + 1) => history.length - (before + 1) ≤ 118
    | _ => (∃ message ∈ history.drop (history.length - 24), message.role ≠ .tool) ∨
        history.length ≤ 120

theorem takeWhile_length_lt {messages : List ChatMessage}
    (h : ∃ message ∈ messages, message.role ≠ .tool) :
    (messages.takeWhile (·.role = .tool)).length < messages.length := by
  obtain ⟨message, hmem, hrole⟩ := h
  have hle := (List.takeWhile_prefix (fun m : ChatMessage => decide (m.role = .tool))
    (l := messages)).length_le
  rcases Nat.lt_or_eq_of_le hle with hlt | heq
  · exact hlt
  · have hall : messages.takeWhile (·.role = .tool) = messages :=
      (List.takeWhile_prefix _).eq_of_length heq
    have htool := mem_takeWhile_imp (hall.symm ▸ hmem)
    exact absurd (by simpa using htool) hrole

variable {history : List ChatMessage}

theorem cutoffIndex_of_found {before : ℕ} (h : findTurn 12 history.reverse = some (before + 1)) :
    cutoffIndex history 12 = before + 1 ∧ before + 1 < history.length := by
  obtain ⟨message, hget, huser⟩ := findTurn_spec h
  rw [reverse_reverse] at hget
  obtain ⟨hlt, hmessage⟩ := List.getElem?_eq_some_iff.mp hget
  have hfirst : firstCutoff history 12 = before + 1 := by
    unfold firstCutoff
    rw [h]
    exact if_neg fun hbad => by
      rcases hbad with hzero | hpast
      · exact absurd hzero (Nat.succ_ne_zero before)
      · exact absurd hlt (Nat.not_lt.mpr hpast)
  refine ⟨?_, hlt⟩
  unfold cutoffIndex
  rw [hfirst]
  dsimp only
  rw [drop_eq_getElem_cons hlt, takeWhile_cons_of_neg]
  · rfl
  · rw [hmessage, huser]
    decide

theorem cutoffIndex_of_not_found (h : ∀ before, findTurn 12 history.reverse ≠ some (before + 1)) :
    cutoffIndex history 12 = history.length - 24 +
      ((history.drop (history.length - 24)).takeWhile (·.role = .tool)).length := by
  have hfirst : firstCutoff history 12 = history.length - 24 := by
    unfold firstCutoff
    refine if_pos (Or.inl ?_)
    rcases hfound : findTurn 12 history.reverse with _ | _ | before
    · rfl
    · rfl
    · exact absurd hfound (h before)
  unfold cutoffIndex
  rw [hfirst]

theorem length_of_cut {json : JsonText} {compacted : List ChatMessage}
    (h : compactSessionHistory json history 12 = .ok compacted) (hlong : 24 < history.length)
    (hcut : cutoffIndex history 12 < history.length) (hpos : 0 < cutoffIndex history 12) :
    compacted.length = history.length - cutoffIndex history 12 + 2 := by
  unfold compactSessionHistory at h
  rw [if_neg (by omega), if_neg (by omega)] at h
  simp only [bind_eq_ok, pure_eq_ok] at h
  obtain ⟨userRequests, -, summaries, -, summary, -, ack, -, rfl⟩ := h
  rw [length_cons, length_cons, length_drop]

/-- **The window.** What the compaction leaves has at most 120 messages exactly where the history
fits. -/
theorem length_compacted_iff {json : JsonText} {compacted : List ChatMessage}
    (h : compactSessionHistory json history 12 = .ok compacted) :
    compacted.length ≤ 120 ↔ WindowFits history := by
  unfold WindowFits
  by_cases hshort : history.length ≤ 24
  · have hsame : compacted = history := by
      unfold compactSessionHistory at h
      rw [if_pos hshort] at h
      exact (Except.ok.inj h).symm
    rw [hsame]
    exact iff_of_true (by omega) (Or.inl hshort)
  have hlong : 24 < history.length := by omega
  rw [or_iff_right hshort]
  split
  · rename_i before hfound
    obtain ⟨hcutoff, hlt⟩ := cutoffIndex_of_found hfound
    rw [length_of_cut h hlong (by omega) (by omega), hcutoff]
    omega
  · rename_i hfound
    have hcutoff := cutoffIndex_of_not_found fun before hbefore => hfound before hbefore
    have hdrop : (history.drop (history.length - 24)).length = 24 := by
      rw [length_drop]
      omega
    by_cases hkept : ∃ message ∈ history.drop (history.length - 24), message.role ≠ .tool
    · have hless := takeWhile_length_lt hkept
      rw [length_of_cut h hlong (by omega) (by omega)]
      exact iff_of_true (by omega) (Or.inl hkept)
    · -- only results of tools: nothing is left to keep, and the history stays as it is
      have hall : (history.drop (history.length - 24)).takeWhile (·.role = .tool) =
          history.drop (history.length - 24) := by
        rw [takeWhile_eq_self_iff]
        intro message hmem
        by_contra hrole
        exact hkept ⟨message, hmem, by simpa using hrole⟩
      have hsame : compacted = history := by
        unfold compactSessionHistory at h
        rw [hcutoff, hall, hdrop, if_neg (by omega), if_pos (Or.inl (by omega))] at h
        exact (Except.ok.inj h).symm
      rw [hsame, or_iff_right hkept]

/-! ### The messages of a run -/

/-- The messages a run returns, with its summary. -/
def returnedMessages : Except (AgentLoopError μ κ) (AgentRunSummary μ κ) → Option (List ChatMessage)
  | .ok summary => some summary.messages
  | .error (.approvalRequired _ summary) => some summary.messages
  | .error (.controlledStop _ summary) => some summary.messages
  | .error _ => none

/-- An error without a summary. -/
def Silent (error : AgentLoopError μ κ) : Prop := returnedMessages (.error error) = none

theorem silent_provider (error : ProviderError) : Silent (.provider error : AgentLoopError μ κ) :=
  rfl

theorem silent_execution (error : RuntimeError) : Silent (.execution error : AgentLoopError μ κ) :=
  rfl

theorem silent_providerExecution (receipts : List EffectReceipt) (error : ProviderError) :
    Silent (.providerExecution error receipts : AgentLoopError μ κ) := rfl

/-- The message with the context, if there is one. -/
def contextSize (fixed : Fixed ω μ κ) : ℕ := if fixed.persistentContext.isSome then 1 else 0

theorem contextSize_le (fixed : Fixed ω μ κ) : contextSize fixed ≤ 1 := by
  unfold contextSize
  split_ifs
  · exact Nat.le_refl 1
  · exact Nat.zero_le 1

theorem length_insertContext (context : Option ChatMessage) (messages : List ChatMessage)
    (index : ℕ) :
    (match context with
      | none => messages
      | some message => messages.insertIdx (min index messages.length) message).length =
    messages.length + if context.isSome then 1 else 0 := by
  rcases context with _ | message
  · rfl
  · exact length_insertIdx_of_le_length (Nat.min_le_right _ _) _

theorem length_providerMessages (messages : List ChatMessage) :
    (providerMessages fixed messages).length = messages.length + contextSize fixed :=
  length_insertContext _ _ _

theorem length_persistedMessages (messages : List ChatMessage) :
    (persistedMessages fixed messages).length = messages.length - 1 + contextSize fixed := by
  have hdrop : (messages.drop 1).length = messages.length - 1 := length_drop
  rw [← hdrop]
  exact length_insertContext _ _ _

/-- Every request that was built has a length the provider admits. -/
def RequestsFit (acts : List Act) : Prop := ∀ n, .request n ∈ acts → n ≤ maxMessages

/-- The messages, with the context, are at most so many. -/
structure Sized (fixed : Fixed ω μ κ) (bound : ℕ) (s : AgentState ω μ) : Prop where
  size : s.messages.length + contextSize fixed ≤ bound
  requests : RequestsFit s.acts

/-- An error after which the transcript can be saved. -/
def Saveable (error : AgentLoopError μ κ) (s : AgentState ω μ) : Prop :=
  RequestsFit s.acts ∧ ∀ messages, returnedMessages (.error error) = some messages →
    messages.length ≤ maxAgentMessages

section

variable {bound : ℕ} {s : AgentState ω μ}

theorem Sized.mono {bound' : ℕ} (h : Sized fixed bound s) (hle : bound ≤ bound') :
    Sized fixed bound' s := ⟨Nat.le_trans h.size hle, h.requests⟩

theorem Sized.same {s' : AgentState ω μ} (h : Sized fixed bound s)
    (hmessages : s'.messages = s.messages) (hacts : s'.acts = s.acts) : Sized fixed bound s' :=
  ⟨by rw [hmessages]; exact h.size, by rw [hacts]; exact h.requests⟩

theorem Sized.act {act : Act} (h : Sized fixed bound s)
    (hact : ∀ n, act = .request n → n ≤ maxMessages) : Sized fixed bound (s.act act) := by
  refine ⟨h.size, fun n hn => ?_⟩
  rcases List.mem_append.mp hn with hn | hn
  · exact h.requests n hn
  · exact hact n (List.mem_singleton.mp hn).symm

theorem Sized.silent {error : AgentLoopError μ κ} (h : Sized fixed bound s)
    (herror : Silent error) : Saveable error s := by
  refine ⟨h.requests, fun messages hmessages => ?_⟩
  rw [herror] at hmessages
  cases hmessages

theorem Sized.persisted (h : Sized fixed bound s) (hbound : bound ≤ maxAgentMessages + 1) :
    (persistedMessages fixed s.messages).length ≤ maxAgentMessages := by
  have hsize := h.size
  have hcontext := contextSize_le fixed
  have hlimit : 1 ≤ maxAgentMessages := by decide
  rw [length_persistedMessages]
  omega

/-- The rule for a computation that neither adds a message nor builds a request. -/
theorem checkControl_sized {kind : AgentCheckpointKind} (hbound : bound ≤ maxAgentMessages + 1) :
    Triple (Sized fixed bound) (checkControl fixed kind) (fun _ => Sized fixed bound) Saveable := by
  unfold checkControl
  refine .get fun s hs => ?_
  obtain ⟨world, answer⟩ := askControl fixed s kind
  have hsame : Sized fixed bound { s with world } := hs.same rfl rfl
  have hact : Sized fixed bound ({ s with world }.act (.check kind answer.isOk)) :=
    hsame.act fun n h => nomatch h
  rcases answer with reason | ⟨⟨⟩⟩
  · refine .bind (Q := fun _ => Sized fixed bound) (.set fun _ _ => hact) fun _ => ?_
    refine .throw fun s' hs' => ⟨hs'.requests, fun messages hmessages => ?_⟩
    obtain rfl := Option.some.inj hmessages
    exact hs.persisted hbound
  · exact .bind (Q := fun _ => Sized fixed bound) (.set fun _ _ => hact) fun _ => .pure fun _ h => h

theorem pushMessage_sized {message : Except (AgentLoopError μ κ) ChatMessage}
    (hmessage : FailsOnly Silent message) :
    Triple (Sized fixed bound) (pushMessage message : AgentM ω μ κ Unit)
      (fun _ => Sized fixed (bound + 1)) Saveable := by
  unfold pushMessage
  refine .bind (Q := fun _ => Sized fixed bound)
    (.ofExcept (fun _ _ _ h => h) fun error herror s hs => hs.silent (hmessage.error error herror))
    fun message => ?_
  refine .modify fun s hs => ⟨?_, hs.requests⟩
  have hsize := hs.size
  rw [length_append, length_singleton]
  omega

theorem silent_untrustedToolResult {callId output : String} {toolName : Option String} :
    FailsOnly Silent (untrustedToolResult fixed callId toolName output) := by
  unfold untrustedToolResult
  exact (orError (silent_execution _)).bind fun _ => .mapError silent_provider

/-! ### Tools -/

theorem executeTool_sized {call : ToolCall} {approved : Bool} :
    Triple (Sized fixed bound) (executeTool fixed call approved) (fun _ => Sized fixed bound)
      Saveable := by
  unfold executeTool
  refine .get fun s hs => ?_
  obtain ⟨world, runs, answer⟩ := fixed.executeTool s.world call approved
  have hsame : Sized fixed bound { s with world, runs := s.runs ++ runs } := hs.same rfl rfl
  refine .bind (Q := fun _ => Sized fixed bound)
    (.set fun _ _ => hsame.act fun n h => nomatch h) fun _ => ?_
  refine .ofExcept (fun _ _ _ h => h) fun error herror s hs => hs.silent ?_
  rcases answer with failure | execution
  · cases herror
    rcases failure with _ | error
    · rfl
    · rfl
  · cases herror

theorem requireApproval_sized {α : Type} {reason : String} {summary : RunSummary}
    {Q : α → AgentState ω μ → Prop} (hbound : bound ≤ maxAgentMessages + 1) :
    Triple (Sized fixed bound) (requireApproval fixed reason summary) Q Saveable := by
  unfold requireApproval
  refine .bind (Q := fun _ => Sized fixed bound) (.modify fun s hs => hs.same rfl rfl) fun _ => ?_
  refine .get fun s hs => .throw fun s' hs' => ?_
  rw [hs']
  refine ⟨hs.requests, fun messages hmessages => ?_⟩
  obtain rfl := Option.some.inj hmessages
  exact hs.persisted hbound

theorem useTool_sized {call : ToolCall} {approved : Bool}
    (hbound : bound + 1 ≤ maxAgentMessages + 1) :
    Triple (Sized fixed bound) (useTool fixed call approved) (fun _ => Sized fixed (bound + 1))
      Saveable := by
  have hless : bound ≤ maxAgentMessages + 1 := by omega
  unfold useTool countToolCall
  refine .bind (Q := fun _ => Sized fixed bound) (.modify fun s hs => hs.same rfl rfl) fun _ => ?_
  refine (checkControl_sized hless).bind fun _ => ?_
  refine executeTool_sized.bind fun execution => ?_
  rcases execution with result | ⟨reason, summary⟩
  · refine .bind (Q := fun _ => Sized fixed bound) (.modify fun s hs => ?_) fun _ => ?_
    · unfold noteResult
      split_ifs
      · exact hs.same rfl rfl
      · exact hs.same rfl rfl
      · exact hs
    · refine (pushMessage_sized silent_untrustedToolResult).bind fun _ => ?_
      exact checkControl_sized hbound
  · exact requireApproval_sized hless

/-- The invariant of a loop over calls, of which each adds so many messages. -/
def CallsFit (fixed : Fixed ω μ κ) (each limit : ℕ) (calls : List ToolCall) (s : AgentState ω μ) :
    Prop :=
  ∃ bound, bound + each * calls.length ≤ limit ∧ Sized fixed bound s

theorem runCall_sized {call : ToolCall} {rest : List ToolCall} {limit : ℕ}
    (hlimit : limit ≤ maxAgentMessages + 1) :
    Triple (CallsFit fixed 2 limit (call :: rest)) (runCall fixed call)
      (fun _ => CallsFit fixed 2 limit rest) Saveable := by
  refine .each fun s ⟨bound, hroom, hs⟩ => ?_
  rw [length_cons] at hroom
  refine Triple.conseq (P := Sized fixed bound) (Q := fun _ => Sized fixed (bound + 1 + 1)) ?_
    (fun s' hs' => ?_) (fun _ s' hs' => ?_) fun _ _ h => h
  · unfold runCall
    refine (pushMessage_sized (.mapError silent_provider)).bind fun _ => ?_
    exact useTool_sized (by omega)
  · rw [hs']
    exact hs
  · exact ⟨bound + 1 + 1, by omega, hs'⟩

theorem usePending_sized {call : ToolCall} {rest : List ToolCall} {limit : ℕ}
    (hlimit : limit ≤ maxAgentMessages + 1) :
    Triple (CallsFit fixed 1 limit (call :: rest)) (useTool fixed call true)
      (fun _ => CallsFit fixed 1 limit rest) Saveable := by
  refine .each fun s ⟨bound, hroom, hs⟩ => ?_
  rw [length_cons] at hroom
  refine Triple.conseq (P := Sized fixed bound) (useTool_sized (by omega)) (fun s' hs' => ?_)
    (fun _ s' hs' => ?_) fun _ _ h => h
  · rw [hs']
    exact hs
  · exact ⟨bound + 1, by omega, hs'⟩

end

/-! ### The turns -/

/-- The most that the messages may be before a turn, or after the last. -/
def turnLimit (loop : AgentLoop) (turn : ℕ) : ℕ :=
  if turn ≤ loop.maxTurns then maxMessages else maxAgentMessages + 1

theorem turnLimit_le (loop : AgentLoop) (turn : ℕ) :
    turnLimit loop turn ≤ maxAgentMessages + 1 := by
  unfold turnLimit
  split_ifs
  · decide
  · exact Nat.le_refl _

/-- The answer leaves room for its calls, of which each adds two messages, or for the two messages
of the gate. -/
def RoomForAnswer (fixed : Fixed ω μ κ) (turn : ℕ) (response : ModelResponse)
    (s : AgentState ω μ) : Prop :=
  (response.toolCalls ≠ [] → s.messages.length + contextSize fixed +
      2 * response.toolCalls.length ≤ turnLimit fixed.loop (turn + 1)) ∧
    (response.toolCalls = [] → gateOpens fixed turn s = true →
      s.messages.length + contextSize fixed + 2 ≤ maxMessages)

variable {turn : ℕ}

theorem askProvider_sized :
    Triple (Sized fixed maxMessages) (askProvider fixed turn) (fun _ => Sized fixed maxMessages)
      Saveable := by
  have hlimit : maxMessages ≤ maxAgentMessages + 1 := by decide
  unfold askProvider
  refine (checkControl_sized hlimit).bind fun _ => ?_
  refine .bind (Q := fun _ => Sized fixed maxMessages) ?_ fun request => ?_
  · unfold buildRequest
    refine .get fun s hs => ?_
    have hact : Sized fixed maxMessages
        (s.act (.request (providerMessages fixed s.messages).length)) := by
      refine hs.act fun n h => ?_
      cases h
      rw [length_providerMessages]
      exact hs.size
    refine .bind (Q := fun _ => Sized fixed maxMessages) (.set fun _ _ => hact) fun _ => ?_
    refine .bind (Q := fun _ => Sized fixed maxMessages) (.ofExcept (fun _ _ _ h => h)
      fun error herror s hs => hs.silent ?_) fun _ => .pure fun _ h => h
    exact (mapError silent_provider).error error herror
  refine (checkControl_sized hlimit).bind fun _ => ?_
  refine .bind (Q := fun _ => Sized fixed maxMessages) ?_ fun response => ?_
  · unfold invokeProvider
    refine .get fun s hs => ?_
    obtain ⟨world, answer⟩ := fixed.invokeProvider s.world request
    have hsame : Sized fixed maxMessages { s with world } := hs.same rfl rfl
    refine .bind (Q := fun _ => Sized fixed maxMessages)
      (.set fun _ _ => hsame.act fun n h => nomatch h) fun _ => ?_
    refine .bind (Q := fun _ => Sized fixed maxMessages) (.ofExcept (fun _ _ _ h => h)
      fun error herror s hs => hs.silent ?_) fun invocation => ?_
    · exact (mapError silent_execution).error error herror
    refine .bind (Q := fun _ => Sized fixed maxMessages) (.modify fun s hs => hs.same rfl rfl)
      fun _ => ?_
    refine .get fun s hs => ?_
    refine .bind (Q := fun _ => Sized fixed maxMessages) (.ofExcept (fun _ _ s' hs' => ?_)
      fun error herror s' hs' => ?_) fun response => ?_
    · rw [hs']
      exact hs
    · rw [hs']
      exact hs.silent ((mapError (silent_providerExecution _)).error error herror)
    · exact .bind (Q := fun _ => Sized fixed maxMessages) (.modify fun s hs => hs.same rfl rfl)
        fun _ => .pure fun _ h => h
  exact (checkControl_sized hlimit).bind fun _ => .pure fun _ h => h

theorem verifyWorkspace_sized {call : ToolCall} {text : String} {bound : ℕ}
    (hbound : bound ≤ maxMessages) :
    Triple (Sized fixed bound) (verifyWorkspace fixed call text)
      (fun ends => Sized fixed (if ends then bound else bound + 1 + 1)) Saveable := by
  have hlimit : bound ≤ maxAgentMessages + 1 := Nat.le_trans hbound (by decide)
  unfold verifyWorkspace countToolCall
  refine .bind (Q := fun _ => Sized fixed bound) (.modify fun s hs => hs.same rfl rfl) fun _ => ?_
  refine executeTool_sized.bind fun execution => ?_
  rcases execution with result | ⟨reason, summary⟩
  · dsimp only
    split_ifs with hfailed
    · refine (pushMessage_sized (.mapError silent_provider)).bind fun _ => ?_
      refine (pushMessage_sized (.mapError silent_provider)).bind fun _ => ?_
      exact .pure fun _ h => h
    · exact .pure fun _ h => h
  · exact requireApproval_sized hlimit

/-- An answer without calls: the run ends, or the gate has added its messages. -/
theorem conclude_sized {text : String} :
    Triple (fun s => Sized fixed maxMessages s ∧ (gateOpens fixed turn s = true →
        s.messages.length + contextSize fixed + 2 ≤ maxMessages))
      (conclude fixed turn text)
      (fun result s => match result with
        | some summary => RequestsFit s.acts ∧ summary.messages.length ≤ maxAgentMessages
        | none => Sized fixed maxMessages s) Saveable := by
  refine .each fun s ⟨hs, hgate⟩ => ?_
  unfold conclude
  refine .bind (Q := fun _ => (· = s)) (ensureThat_triple (fun _ _ h => h) fun s' hs' => ?_)
    fun _ => ?_
  · rw [hs']
    exact hs.silent rfl
  refine .bind (Q := fun _ => Sized fixed maxMessages) ?_ fun ends => ?_
  · unfold passGate
    refine .get fun s' hs' => ?_
    rw [hs']
    -- the gate adds to the messages as they are
    have hexact : Sized fixed (s.messages.length + contextSize fixed) s :=
      ⟨Nat.le_refl _, hs.requests⟩
    split
    · rename_i call hopen hcall
      have hroom := hgate hopen
      refine (verifyWorkspace_sized hs.size).conseq (fun s' hs' => ?_) (fun ends s' hs' => ?_)
        fun _ _ h => h
      · rw [hs']
        exact hexact
      · rcases ends with _ | _
        · exact hs'.mono hroom
        · exact hs'.mono hs.size
    · exact .pure fun s' hs' => by rw [hs']; exact hs
  · split_ifs
    · refine (pushMessage_sized (.mapError silent_provider)).bind fun _ => ?_
      refine .get fun s hs => .pure fun s' hs' => ?_
      rw [hs']
      exact ⟨hs.requests, hs.persisted (by decide)⟩
    · exact .pure fun _ h => h

theorem answerTurn_sized {response : ModelResponse} :
    Triple (fun s => Sized fixed maxMessages s ∧ RoomForAnswer fixed turn response s)
      (answerTurn fixed turn response)
      (fun result s => match result with
        | some summary => RequestsFit s.acts ∧ summary.messages.length ≤ maxAgentMessages
        | none => Sized fixed (turnLimit fixed.loop (turn + 1)) s) Saveable := by
  unfold answerTurn
  split_ifs with hempty
  · have hnone : response.toolCalls = [] := by simpa using hempty
    refine conclude_sized.conseq (fun s h => ⟨h.1, h.2.2 hnone⟩) (fun result s h => ?_)
      fun _ _ h => h
    rcases result with _ | summary
    · refine h.mono ?_
      unfold turnLimit
      split_ifs
      · exact Nat.le_refl _
      · decide
    · exact h
  · have hsome : response.toolCalls ≠ [] := by simpa using hempty
    refine .each fun s ⟨hs, hroom, _⟩ => ?_
    refine .bind (Q := fun _ => Sized fixed (turnLimit fixed.loop (turn + 1))) ?_
      fun _ => .pure fun _ h => h
    unfold runCalls
    refine .get fun s' hs' => ?_
    refine .bind (Q := fun _ => CallsFit fixed 2 (turnLimit fixed.loop (turn + 1))
      response.toolCalls) (ensureThat_triple (fun _ s'' hs'' => ?_) fun s'' hs'' => ?_) fun _ => ?_
    · rw [hs'] at hs''
      rw [hs'']
      exact ⟨s.messages.length + contextSize fixed, hroom hsome, Nat.le_refl _, hs.requests⟩
    · rw [hs'] at hs''
      rw [hs'']
      exact hs.silent rfl
    · refine (Triple.forM (CallsFit fixed 2 (turnLimit fixed.loop (turn + 1)))
        fun call rest => runCall_sized (turnLimit_le _ _)).conseq (fun _ h => h)
        (fun _ s' hleft => ?_) fun _ _ h => h
      obtain ⟨bound, hbound, hs'⟩ := hleft
      exact hs'.mono hbound

/-! ### Whole runs -/

variable {env : Environment ω μ κ} {loop : AgentLoop}

theorem silent_acceptHistory : FailsOnly Silent (acceptHistory env loop history) := by
  have hopen : FailsOnly Silent (openHistory env history) := by
    unfold openHistory
    split_ifs
    · exact .mapError fun failure => by rcases failure with _ | _ <;> rfl
    · exact .ok
  have hnormalize : ∀ message, FailsOnly Silent (normalizeMessage env message) := by
    intro message
    unfold normalizeMessage
    split_ifs
    · exact .ok
    · refine (orError (silent_execution _)).bind fun _ => ?_
      refine .bind (.orError rfl) fun normalized => ?_
      rcases normalized with _ | _
      · exact (orError (silent_execution _)).bind fun _ => .mapError silent_provider
      · exact .mapError silent_provider
  unfold acceptHistory
  refine .bind (.ensure rfl) fun _ => ?_
  refine hopen.bind fun _ => ?_
  refine .bind (.ensure rfl) fun _ => (mapM hnormalize _).bind fun _ => ?_
  refine .bind (.mapError silent_provider) fun _ => ?_
  refine .bind (.ensure rfl) fun _ => .bind (.ensure rfl) fun _ => ?_
  exact .bind (.ensure rfl) fun _ => .ok

theorem silent_openRun {world : ω} : FailsOnly Silent (openRun env loop world history) := by
  have hprepare : ∀ failure : PreparationFailure, Silent (failure.error : AgentLoopError μ κ) := by
    intro failure
    cases failure with
    | invalidSkillContext | invalidL1Evidence | context | provider | execution => rfl
  have hopen : ∀ pending, FailsOnly Silent (openTask env pending) := by
    intro pending
    unfold openTask cancelAndAsk
    split_ifs
    · exact .ok
    · refine .bind (.mapM (fun call => ?_) _) fun _ => ?_
      · exact (orError (silent_execution _)).bind fun _ => .mapError silent_provider
      · exact .bind (.mapError silent_provider) fun _ => .ok
  unfold openRun
  refine silent_acceptHistory.bind fun ⟨history', pending⟩ => ?_
  refine .bind (.mapError hprepare) fun _ => ?_
  exact .bind (.mapError silent_provider) fun _ => (hopen pending).bind fun _ => .ok

/-- The messages at the start of the loop, and those the pending call may add. -/
theorem openRun_sized {world : ω} {state : AgentState ω μ} {pending : List ToolCall}
    (h : openRun env loop world history = .ok (fixed, state, pending)) :
    CallsFit fixed 1 maxMessages pending state := by
  unfold openRun at h
  simp only [bind_eq_ok, Prod.exists] at h
  obtain ⟨accepted, calls, haccept, prepared, -, system, -, opening, hopening, heq⟩ := h
  obtain ⟨rfl, rfl, rfl⟩ := heq
  unfold acceptHistory at haccept
  simp only [bind_eq_ok, ensure_eq_ok] at haccept
  obtain ⟨⟨⟩, -, history', -, ⟨⟩, ⟨hlength, -⟩, normalized, hnormalized, calls', -, ⟨⟩, -, ⟨⟩, hone,
    ⟨⟩, -, heq⟩ := haccept
  obtain ⟨rfl, rfl⟩ := heq
  have hsame := length_of_mapM hnormalized
  have hopen : opening.length ≤ 2 := by
    unfold openTask at hopening
    split_ifs at hopening
    · rw [← Except.ok.inj hopening]
      decide
    · unfold cancelAndAsk at hopening
      simp only [bind_eq_ok] at hopening
      obtain ⟨cancelled, hcancelled, task, -, heq⟩ := hopening
      obtain rfl := Except.ok.inj heq
      have hcount := length_of_mapM hcancelled
      rw [length_append, length_singleton]
      omega
  unfold maxHistoryMessages at hlength
  refine ⟨124, ?_, ?_, by rintro _ ⟨⟩⟩
  · unfold maxMessages
    omega
  · have hcontext : contextSize (⟨env, prepared, loop, accepted.length⟩ : Fixed ω μ κ) ≤ 1 :=
      contextSize_le _
    rw [length_cons, length_append]
    omega

/-- Everything a run is given, but its history. -/
structure AgentRun (ω μ κ : Type) where
  env : Environment ω μ κ
  loop : AgentLoop
  world : ω

/-- `run_with_context` on a history. -/
def AgentRun.result (run : AgentRun ω μ κ) (history : List ChatMessage) :
    List Act × Except (AgentLoopError μ κ) (AgentRunSummary μ κ) :=
  runWithContext run.env run.loop run.world history

/-- A session: each run is started with the messages of the one before it. -/
def session : Machine (List ChatMessage) (AgentRun ω μ κ)
    (List Act × Except (AgentLoopError μ κ) (AgentRunSummary μ κ)) where
  step history run :=
    ((returnedMessages (run.result history).2).getD history, run.result history)

/-- No limit is exceeded by a run: not by its history after the compaction, not by a request and not
by the messages it returns. -/
structure WithinLimits (history : List ChatMessage) (run : AgentRun ω μ κ) : Prop where
  resumed : ∀ compacted, openHistory run.env history = .ok compacted →
    compacted.length ≤ maxHistoryMessages
  requests : RequestsFit (run.result history).1
  saved : ∀ messages, returnedMessages (run.result history).2 = some messages →
    messages.length ≤ maxAgentMessages

/-- The history fits, and in every turn the run gets to, the answer leaves room. -/
def RoomToRun (history : List ChatMessage) (run : AgentRun ω μ κ) : Prop :=
  WindowFits history ∧
    ∀ fixed state pending,
      openRun run.env run.loop run.world history = .ok (fixed, state, pending) →
      ∀ start, runPending fixed pending state = .ok ⟨⟩ start →
        TurnsMeet fixed (RoomForAnswer fixed) 1 fixed.loop.maxTurns start

theorem runAgent_sized {pending : List ToolCall} {state : AgentState ω μ}
    (hstart : CallsFit fixed 1 maxMessages pending state)
    (hroom : ∀ start, runPending fixed pending state = .ok ⟨⟩ start →
      TurnsMeet fixed (RoomForAnswer fixed) 1 fixed.loop.maxTurns start) :
    Triple (· = state) (runAgent fixed pending)
      (fun summary s => RequestsFit s.acts ∧ summary.messages.length ≤ maxAgentMessages)
      Saveable := by
  have hpending : Triple (CallsFit fixed 1 maxMessages pending) (runPending fixed pending)
      (fun _ => Sized fixed maxMessages) Saveable := by
    unfold runPending
    split_ifs
    · refine (Triple.forM (CallsFit fixed 1 maxMessages)
        fun call rest => usePending_sized (by decide)).conseq (fun _ h => h)
        (fun _ s hleft => ?_) fun _ _ h => h
      obtain ⟨bound, hbound, hs⟩ := hleft
      exact hs.mono hbound
    · refine .pure fun s hs => ?_
      obtain ⟨bound, hbound, hs⟩ := hs
      exact hs.mono (Nat.le_trans (Nat.le_add_right _ _) hbound)
  unfold runAgent
  refine .bind (Q := fun _ s => Sized fixed (turnLimit fixed.loop 1) s ∧
    TurnsMeet fixed (RoomForAnswer fixed) 1 fixed.loop.maxTurns s) ?_ fun _ => ?_
  · refine .intro (fun s result s' hs hrun => ?_) fun s error s' hs hrun => ?_
    · rw [hs] at hrun
      refine ⟨?_, hroom s' hrun⟩
      unfold turnLimit
      rw [if_pos (Nat.succ_le_of_lt fixed.loop.turns_pos)]
      exact hpending.ok hstart hrun
    · rw [hs] at hrun
      exact hpending.error hstart hrun
  · refine runTurns_rule fixed (I := fun turn => Sized fixed (turnLimit fixed.loop turn))
      (J := fun _ _ => Sized fixed maxMessages) (fun turn hturn => ?_)
      (fun turn response => ?_) (fun turn s hs => hs.silent rfl) _ _ (Nat.add_comm _ _)
    · refine askProvider_sized.pre fun s hs => ?_
      unfold turnLimit at hs
      rw [if_pos hturn] at hs
      exact hs
    · exact answerTurn_sized

theorem withinLimits_of_room {run : AgentRun ω μ κ}
    (h : RoomToRun history run) : WithinLimits history run := by
  obtain ⟨hwindow, hturns⟩ := h
  have hrun : RequestsFit (run.result history).1 ∧
      ∀ messages, returnedMessages (run.result history).2 = some messages →
        messages.length ≤ maxAgentMessages := by
    unfold AgentRun.result runWithContext
    rcases hopen : openRun run.env run.loop run.world history with error | ⟨fixed, state, pending⟩
    · refine ⟨(fun n hn => nomatch hn), fun messages hmessages => ?_⟩
      have hsilent : Silent error := silent_openRun.error error hopen
      rw [hsilent] at hmessages
      cases hmessages
    · have htriple := runAgent_sized (openRun_sized hopen) (hturns fixed state pending hopen)
      dsimp only
      rcases hresult : runAgent fixed pending state with ⟨summary, s⟩ | ⟨error, s⟩
      · obtain ⟨hrequests, hlength⟩ := htriple.ok rfl hresult
        refine ⟨hrequests, fun messages hmessages => ?_⟩
        obtain rfl := Option.some.inj hmessages
        exact hlength
      · exact htriple.error rfl hresult
  refine ⟨fun compacted hcompacted => ?_, hrun.1, hrun.2⟩
  unfold openHistory at hcompacted
  split_ifs at hcompacted with hlong
  · exact (length_compacted_iff (mapError_eq_ok.mp hcompacted)).mpr hwindow
  · rw [← Except.ok.inj hcompacted]
    have hshort : history.length ≤ 24 := Nat.le_of_not_lt hlong
    unfold maxHistoryMessages
    omega

/-- **The length of a session.** If each run of a chain finds a history that fits and each answer
leaves room for its calls, no compacted history has more than 120 messages, no request more than the
provider admits, and no run more than can be saved. -/
theorem session_within_limits (history : List ChatMessage) (runs : List (AgentRun ω μ κ))
    (h : session.Along RoomToRun history runs) : session.Along WithinLimits history runs :=
  session.along_of_invariant (P := fun _ => True) (fun _ _ _ _ => trivial)
    (fun _ _ hroom _ => withinLimits_of_room hroom) runs h trivial

/-! ### Two sessions -/

/-- The calls of a first answer. -/
def readCalls (calls : ℕ) : List ToolCall :=
  (List.range calls).map fun i => ⟨"call-" ++ toString i, "workspace.read", .object []⟩

/-- A run in which the provider asks for so many calls, and then answers. -/
def working (calls : ℕ) : AgentRun ℕ Unit Unit where
  env :=
    { json := ⟨fun _ => some "\x7b\x7d", fun _ => some (.object [])⟩
      control := none
      invokeProvider := fun asked _ => (asked + 1, .ok ⟨[], [], .ok ⟨"Done.",
        if asked = 0 then readCalls calls else [], ⟨10, 5, 0, 0⟩⟩⟩)
      executeTool := fun asked _ _ => (asked, [], .ok (.output "text"))
      renderPayload := fun _ output => some output
      normalizePayload := fun _ => some none
      prepare := fun _ => .ok ⟨"You are Pandora.", (), false, none, []⟩
      modelId := "model-1"
      sessionId := "session-1"
      task := "Go on."
      approved := false }
  loop := ⟨2, 64, by decide, by decide, by decide, by decide⟩
  world := 0

theorem roomToRun_talk (h : WindowFits history) :
    RoomToRun history (working 0) := by
  refine ⟨h, fun fixed state pending hopen start _ => ?_⟩
  obtain ⟨henv, -⟩ := openRun_eq_ok _ hopen
  have hgoal : isGoalTask fixed = false := by
    unfold isGoalTask
    rw [henv]
    decide +kernel
  refine turnsMeet_of_answers fixed (P := fun response => response.toolCalls = [])
    (fun asked request asked' invocation response hinvoke hresult => ?_)
    (fun turn response s hnone => ⟨fun hsome => absurd hnone hsome, fun _ hopens => ?_⟩) _ _ _
  · rw [henv] at hinvoke
    cases hinvoke
    cases hresult
    show (if asked = 0 then readCalls 0 else []) = []
    split_ifs
    · rfl
    · rfl
  · unfold gateOpens at hopens
    rw [hgoal] at hopens
    cases hopens

theorem session_within_limits_talk : session.Along WithinLimits [] [working 0, working 0] :=
  session_within_limits _ _
    ⟨roomToRun_talk (Or.inl (Nat.zero_le _)), roomToRun_talk (Or.inl (by decide +kernel)), trivial⟩

/-- Twelve short runs, one with 51 calls, and another: the last twelve turns of the user have 126
messages, so that the last run is refused, and every run after it. -/
theorem session_not_resumed :
    ¬ session.Along WithinLimits []
      (List.replicate 12 (working 0) ++ [working 51] ++ [working 0]) := by
  intro h
  rw [Machine.along_append] at h
  obtain ⟨-, hlast, -⟩ := h
  have hlength : (openHistory (working 0).env (session.run []
      (List.replicate 12 (working 0) ++ [working 51]))).toOption.map List.length = some 128 := by
    decide +kernel
  rcases hopen : openHistory (working 0).env (session.run []
      (List.replicate 12 (working 0) ++ [working 51])) with error | compacted
  · rw [hopen] at hlength
    cases hlength
  · rw [hopen] at hlength
    have hfits := hlast.resumed compacted hopen
    rw [Option.some.inj hlength] at hfits
    exact absurd hfits (by decide)

end Pandora.Agent.Transcripts
