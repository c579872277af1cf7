import Pandora.Agent.Loop

/-! # Every effect of an agent passes a checkpoint

The calls of a run are read by an automaton (`Phase`): a tool comes right after the check before an
effect, after its output comes the check after an effect, and nothing follows a check that fails.
`Discipline` says the same about the list of calls, by splitting it.

The pending call and the calls of an answer keep the discipline. The gate that verifies the
workspace of a goal does not check the control: a run in which it never opens is disciplined
(`effects_checkpointed`), and one in which it opens is not (`gate_unchecked`). -/

namespace Pandora.Agent.Checkpoints

open Text Lib.Triples Agent.Messages Agent.Loop List

variable {ω μ κ : Type} {fixed : Fixed ω μ κ}

/-! ### The automaton -/

inductive Phase
  | ready | authorized | owing | stopped

def Phase.next : Phase → Act → Option Phase
  | .ready, .check kind true =>
    some (if kind = .beforeEffectAuthorization then .authorized else .ready)
  | .ready, .check _ false => some .stopped
  | .ready, .request _ => some .ready
  | .ready, .provider => some .ready
  | .authorized, .tool _ yielded => some (if yielded then .owing else .stopped)
  | .owing, .check .afterEffect passed => some (if passed then .ready else .stopped)
  | _, _ => none

/-- The phase after a list of calls. -/
def replay (acts : List Act) : Option Phase := acts.foldlM Phase.next .ready

theorem replay_append (acts later : List Act) :
    replay (acts ++ later) = (replay acts).bind fun phase => later.foldlM Phase.next phase :=
  foldlM_append

theorem replay_snoc {acts : List Act} {act : Act} {phase phase' : Phase}
    (h : replay acts = some phase) (hnext : phase.next act = some phase') :
    replay (acts ++ [act]) = some phase' := by
  rw [replay_append, h]
  show (phase.next act).bind some = some phase'
  rw [hnext]
  rfl

theorem replay_split {before after : List Act} {act : Act} {last : Phase}
    (h : replay (before ++ act :: after) = some last) :
    ∃ phase phase', replay before = some phase ∧ phase.next act = some phase' ∧
      after.foldlM Phase.next phase' = some last := by
  rw [replay_append, Option.bind_eq_some_iff] at h
  obtain ⟨phase, hbefore, hrest⟩ := h
  rw [foldlM_cons] at hrest
  obtain ⟨phase', hnext, hafter⟩ := Option.bind_eq_some_iff.mp hrest
  exact ⟨phase, phase', hbefore, hnext, hafter⟩

theorem next_eq_authorized {phase : Phase} {act : Act}
    (h : phase.next act = some .authorized) : act = .check .beforeEffectAuthorization true := by
  unfold Phase.next at h
  split at h
  · split_ifs at h with hkind
    · rw [hkind]
    · cases h
  · cases h
  · cases h
  · cases h
  · split_ifs at h
    · cases h
    · cases h
  · split_ifs at h
    · cases h
    · cases h
  · cases h

theorem getLast?_of_authorized {acts : List Act} (h : replay acts = some .authorized) :
    acts.getLast? = some (.check .beforeEffectAuthorization true) := by
  rcases eq_nil_or_concat' acts with rfl | ⟨front, act, rfl⟩
  · cases h
  · obtain ⟨phase, phase', -, hnext, hlast⟩ := replay_split h
    obtain rfl : phase' = .authorized := Option.some.inj hlast
    rw [List.getLast?_concat, next_eq_authorized hnext]

theorem owing_next {act : Act} {phase : Phase} (h : Phase.owing.next act = some phase) :
    ∃ passed, act = .check .afterEffect passed := by
  rcases act with ⟨kind, passed⟩ | _ | _ | _
  · cases kind with
    | afterEffect => exact ⟨passed, rfl⟩
    | beforeTurn | beforeProvider | afterProvider | beforeEffectAuthorization => cases h
  · cases h
  · cases h
  · cases h

theorem nil_of_stopped {after : List Act} {last : Phase}
    (h : after.foldlM Phase.next .stopped = some last) : after = [] := by
  rcases after with _ | ⟨act, after⟩
  · rfl
  · rw [foldlM_cons] at h
    obtain ⟨phase, hnext, -⟩ := Option.bind_eq_some_iff.mp h
    cases hnext

/-! ### The discipline -/

def isTool : Act → Bool
  | .tool _ _ => true
  | _ => false

theorem isTool_eq_true {act : Act} (h : isTool act = true) :
    ∃ call yielded, act = .tool call yielded := by
  cases act with
  | tool call yielded => exact ⟨call, yielded, rfl⟩
  | check | request | provider => cases h

/-- A check before an effect, which passed. -/
def isEffectCheck : Act → Bool
  | .check .beforeEffectAuthorization passed => passed
  | _ => false

def isProvider : Act → Bool
  | .provider => true
  | _ => false

/-- Before and after every tool there is a check; nothing follows one that fails; and the budget is
kept. -/
structure Discipline (loop : AgentLoop) (acts : List Act) (returned : Bool) : Prop where
  authorized : ∀ before call yielded after, acts = before ++ .tool call yielded :: after →
    before.getLast? = some (.check .beforeEffectAuthorization true)
  followed : ∀ before call after, acts = before ++ .tool call true :: after →
    (∃ passed rest, after = .check .afterEffect passed :: rest) ∨ (after = [] ∧ returned = false)
  stopped : ∀ before kind after, acts = before ++ .check kind false :: after → after = []
  tools : acts.countP isTool ≤ loop.maxToolCalls
  providers : acts.countP isProvider ≤ loop.maxTurns

theorem Discipline.of_replay {loop : AgentLoop} {acts : List Act} {returned : Bool} {last : Phase}
    (h : replay acts = some last) (hreturned : returned = true → last = .ready)
    (htools : acts.countP isTool ≤ loop.maxToolCalls)
    (hproviders : acts.countP isProvider ≤ loop.maxTurns) : Discipline loop acts returned where
  authorized := by
    rintro before call yielded after rfl
    obtain ⟨phase, phase', hbefore, hnext, -⟩ := replay_split h
    cases phase with
    | authorized => exact getLast?_of_authorized hbefore
    | ready | owing | stopped => cases hnext
  followed := by
    rintro before call after rfl
    obtain ⟨phase, phase', -, hnext, hafter⟩ := replay_split h
    have howing : phase' = .owing := by
      cases phase with
      | authorized => exact (Option.some.inj hnext).symm
      | ready | owing | stopped => cases hnext
    subst howing
    rcases after with _ | ⟨act, after⟩
    · obtain rfl : Phase.owing = last := Option.some.inj hafter
      refine Or.inr ⟨rfl, ?_⟩
      rcases returned with _ | _
      · rfl
      · cases hreturned rfl
    · rw [foldlM_cons] at hafter
      obtain ⟨phase', hnext', -⟩ := Option.bind_eq_some_iff.mp hafter
      obtain ⟨passed, rfl⟩ := owing_next hnext'
      exact Or.inl ⟨passed, after, rfl⟩
  stopped := by
    rintro before kind after rfl
    obtain ⟨phase, phase', -, hnext, hafter⟩ := replay_split h
    have hstopped : phase' = .stopped := by
      cases phase with
      | ready => exact (Option.some.inj hnext).symm
      | authorized | stopped => cases hnext
      | owing =>
        obtain ⟨passed, hact⟩ := owing_next hnext
        cases hact
        exact (Option.some.inj hnext).symm
    subst hstopped
    exact nil_of_stopped hafter
  tools := htools
  providers := hproviders

/-! ### The parts of a run -/

/-- The phase, the number of tools and of provider calls, and the counter of the program. -/
structure Progress (phase : Phase) (tools counted providers : ℕ) (s : AgentState ω μ) : Prop where
  phase : replay s.acts = some phase
  tools : s.acts.countP isTool = tools
  counted : s.toolCalls = counted
  providers : s.acts.countP isProvider = providers

/-- How a run may end with an error: in any phase. -/
def Ended (fixed : Fixed ω μ κ) (_ : AgentLoopError μ κ) (s : AgentState ω μ) : Prop :=
  (∃ phase, replay s.acts = some phase) ∧ s.acts.countP isTool ≤ fixed.loop.maxToolCalls ∧
    s.acts.countP isProvider ≤ fixed.loop.maxTurns

section

variable {phase phase' : Phase} {tools counted providers : ℕ} {s : AgentState ω μ}

theorem Progress.ended {error : AgentLoopError μ κ} (h : Progress phase tools counted providers s)
    (htools : tools ≤ fixed.loop.maxToolCalls) (hproviders : providers ≤ fixed.loop.maxTurns) :
    Ended fixed error s := by
  refine ⟨⟨phase, h.phase⟩, ?_, ?_⟩
  · rw [h.tools]
    exact htools
  · rw [h.providers]
    exact hproviders

theorem Progress.same {s' : AgentState ω μ} (h : Progress phase tools counted providers s)
    (hacts : s'.acts = s.acts) (hcounted : s'.toolCalls = s.toolCalls) :
    Progress phase tools counted providers s' :=
  ⟨by rw [hacts, h.phase], by rw [hacts, h.tools], by rw [hcounted, h.counted],
    by rw [hacts, h.providers]⟩

theorem Progress.act {act : Act} {tools' providers' : ℕ}
    (h : Progress phase tools counted providers s) (hnext : phase.next act = some phase')
    (htools : tools + [act].countP isTool = tools')
    (hproviders : providers + [act].countP isProvider = providers') :
    Progress phase' tools' counted providers' (s.act act) where
  phase := replay_snoc h.phase hnext
  tools := by
    show (s.acts ++ [act]).countP isTool = _
    rw [countP_append, h.tools, htools]
  counted := h.counted
  providers := by
    show (s.acts ++ [act]).countP isProvider = _
    rw [countP_append, h.providers, hproviders]

variable (htools : tools ≤ fixed.loop.maxToolCalls) (hproviders : providers ≤ fixed.loop.maxTurns)

include htools hproviders

theorem checkControl_triple {kind : AgentCheckpointKind} {passed : Phase}
    (hpassed : phase.next (.check kind true) = some passed)
    (hfailed : phase.next (.check kind false) = some .stopped) :
    Triple (Progress phase tools counted providers) (checkControl fixed kind)
      (fun _ => Progress passed tools counted providers) (Ended fixed) := by
  unfold checkControl
  refine .get fun s hs => ?_
  obtain ⟨world, answer⟩ := askControl fixed s kind
  have hsame : Progress phase tools counted providers { s with world } := hs.same rfl rfl
  rcases answer with reason | ⟨⟨⟩⟩
  · refine .bind (Q := fun _ => Progress .stopped tools counted providers) (.set fun _ _ => ?_)
      fun _ => .throw fun s hs => hs.ended htools hproviders
    exact hsame.act hfailed rfl rfl
  · refine .bind (Q := fun _ => Progress passed tools counted providers) (.set fun _ _ => ?_)
      fun _ => .pure fun s hs => hs
    exact hsame.act hpassed rfl rfl

theorem pushMessage_triple {message : Except (AgentLoopError μ κ) ChatMessage} :
    Triple (Progress phase tools counted providers) (pushMessage message : AgentM ω μ κ Unit)
      (fun _ => Progress phase tools counted providers) (Ended fixed) := by
  unfold pushMessage
  refine .bind (Q := fun _ => Progress phase tools counted providers)
    (.ofExcept (fun _ _ _ hs => hs) fun _ _ _ hs => hs.ended htools hproviders) fun message => ?_
  exact .modify fun s hs => hs.same rfl rfl

end

section

variable {tools providers : ℕ} (hproviders : providers ≤ fixed.loop.maxTurns)

include hproviders

/-- A tool that was authorised: its output is owed a check, or the run ends. -/
theorem executeTool_triple {call : ToolCall} {approved : Bool} {counted : ℕ}
    (htools : tools + 1 ≤ fixed.loop.maxToolCalls) :
    Triple (Progress .authorized tools counted providers) (executeTool fixed call approved)
      (fun execution => match execution with
        | .output _ => Progress .owing (tools + 1) counted providers
        | .approval _ _ => Progress .stopped (tools + 1) counted providers) (Ended fixed) := by
  unfold executeTool
  refine .get fun s hs => ?_
  obtain ⟨world, runs, answer⟩ := fixed.executeTool s.world call approved
  have hsame : Progress .authorized tools counted providers
      { s with world, runs := s.runs ++ runs } := hs.same rfl rfl
  rcases answer with error | ⟨result⟩ | ⟨reason, summary⟩
  · refine .bind (Q := fun _ => Progress .stopped (tools + 1) counted providers)
      (.set fun _ _ => hsame.act rfl rfl rfl) fun _ => ?_
    exact .ofExcept (fun _ h => nomatch h) fun _ _ s hs => hs.ended htools hproviders
  · refine .bind (Q := fun _ => Progress .owing (tools + 1) counted providers)
      (.set fun _ _ => hsame.act rfl rfl rfl) fun _ => ?_
    refine .ofExcept (fun execution h s hs => ?_) fun _ h => nomatch h
    cases h
    exact hs
  · refine .bind (Q := fun _ => Progress .stopped (tools + 1) counted providers)
      (.set fun _ _ => hsame.act rfl rfl rfl) fun _ => ?_
    refine .ofExcept (fun execution h s hs => ?_) fun _ h => nomatch h
    cases h
    exact hs

theorem requireApproval_triple {α : Type} {phase : Phase} {counted : ℕ} {reason : String}
    {summary : Pandora.Execution.Requests.RunSummary} {Q : α → AgentState ω μ → Prop}
    (htools : tools ≤ fixed.loop.maxToolCalls) :
    Triple (Progress phase tools counted providers) (requireApproval fixed reason summary) Q
      (Ended fixed) := by
  unfold requireApproval
  refine .bind (Q := fun _ => Progress phase tools counted providers)
    (.modify fun s hs => hs.same rfl rfl) fun _ => ?_
  exact .get fun s hs => .throw fun s' hs' => by rw [hs']; exact hs.ended htools hproviders

omit hproviders in
theorem countToolCall_triple {phase : Phase} (htools : tools + 1 ≤ fixed.loop.maxToolCalls) :
    Triple (Progress phase tools tools providers) (countToolCall : AgentM ω μ κ Unit)
      (fun _ => Progress phase tools (tools + 1) providers) (Ended fixed) := by
  unfold countToolCall
  refine .modify fun s hs => ⟨hs.phase, hs.tools, ?_, hs.providers⟩
  have hbound := fixed.loop.toolCalls_le
  show saturatingAdd s.toolCalls 1 = tools + 1
  rw [hs.counted]
  unfold saturatingAdd
  unfold maxAgentToolCalls at hbound
  omega

theorem useTool_triple {call : ToolCall} {approved : Bool}
    (htools : tools + 1 ≤ fixed.loop.maxToolCalls) :
    Triple (Progress .ready tools tools providers) (useTool fixed call approved)
      (fun _ => Progress .ready (tools + 1) (tools + 1) providers) (Ended fixed) := by
  have hless : tools ≤ fixed.loop.maxToolCalls := by omega
  unfold useTool
  refine (countToolCall_triple htools).bind fun _ => ?_
  refine (checkControl_triple hless hproviders rfl rfl).bind fun _ => ?_
  refine (executeTool_triple hproviders htools).bind fun execution => ?_
  rcases execution with result | ⟨reason, summary⟩
  · refine .bind (Q := fun _ => Progress .owing (tools + 1) (tools + 1) providers)
      (.modify fun s hs => ?_) fun _ => ?_
    · refine hs.same ?_ ?_
      all_goals
        unfold noteResult
        split_ifs
        all_goals rfl
    · refine (pushMessage_triple htools hproviders).bind fun _ => ?_
      exact checkControl_triple htools hproviders rfl rfl
  · exact requireApproval_triple hproviders htools

/-- The invariant of a loop over calls: the budget has room for those that are left. -/
def CallsLeft (fixed : Fixed ω μ κ) (providers : ℕ) (calls : List ToolCall) (s : AgentState ω μ) :
    Prop :=
  ∃ tools, tools + calls.length ≤ fixed.loop.maxToolCalls ∧ Progress .ready tools tools providers s

theorem useTool_callsLeft {call : ToolCall} {rest : List ToolCall} {approved : Bool} :
    Triple (CallsLeft fixed providers (call :: rest)) (useTool fixed call approved)
      (fun _ => CallsLeft fixed providers rest) (Ended fixed) := by
  refine .each fun s ⟨tools, hroom, hs⟩ => ?_
  rw [length_cons] at hroom
  have hless : tools + 1 ≤ fixed.loop.maxToolCalls := by omega
  refine (useTool_triple hproviders hless).conseq (fun s' hs' => ?_) (fun _ s' hs' => ?_)
    fun _ _ h => h
  · rw [hs']
    exact hs
  · exact ⟨tools + 1, by omega, hs'⟩

theorem runCall_callsLeft {call : ToolCall} {rest : List ToolCall} :
    Triple (CallsLeft fixed providers (call :: rest)) (runCall fixed call)
      (fun _ => CallsLeft fixed providers rest) (Ended fixed) := by
  unfold runCall
  refine .bind (Q := fun _ => CallsLeft fixed providers (call :: rest)) ?_
    fun _ => useTool_callsLeft hproviders
  refine .each fun s ⟨tools, hroom, hs⟩ => ?_
  have hless : tools ≤ fixed.loop.maxToolCalls := by omega
  refine Triple.conseq (P := Progress .ready tools tools providers)
    (pushMessage_triple hless hproviders) (fun s' hs' => ?_) (fun _ s' hs' => ?_) fun _ _ h => h
  · rw [hs']
    exact hs
  · exact ⟨tools, hroom, hs'⟩

end

/-! ### The turns -/

/-- The answer to a turn does not open the gate, and the number of its calls is not changed by the
cast to `u32` so that more of them pass than the budget allows. -/
def QuietAnswer (fixed : Fixed ω μ κ) (turn : ℕ) (response : ModelResponse)
    (s : AgentState ω μ) : Prop :=
  (response.toolCalls = [] → ¬ (trim response.text).isEmpty → gateOpens fixed turn s = false) ∧
    (saturatingAdd s.toolCalls (response.toolCalls.length % 2 ^ 32) ≤ fixed.loop.maxToolCalls →
      s.toolCalls + response.toolCalls.length ≤ fixed.loop.maxToolCalls)

/-- Before a turn: there were as many provider calls as turns, and no more tools than allowed. -/
def BeforeTurn (fixed : Fixed ω μ κ) (turn : ℕ) (s : AgentState ω μ) : Prop :=
  ∃ tools, tools ≤ fixed.loop.maxToolCalls ∧ 0 < turn ∧ turn - 1 ≤ fixed.loop.maxTurns ∧
    Progress .ready tools tools (turn - 1) s

def Answered (fixed : Fixed ω μ κ) (turn : ℕ) (s : AgentState ω μ) : Prop :=
  ∃ tools, tools ≤ fixed.loop.maxToolCalls ∧ turn ≤ fixed.loop.maxTurns ∧
    Progress .ready tools tools turn s

theorem askProvider_triple {turn : ℕ} (hturn : turn ≤ fixed.loop.maxTurns) :
    Triple (BeforeTurn fixed turn) (askProvider fixed turn)
      (fun _ => Answered fixed turn) (Ended fixed) := by
  refine .each fun s ⟨tools, htools, hpos, hless, hs⟩ => ?_
  refine Triple.conseq (P := Progress .ready tools tools (turn - 1))
    (Q := fun _ => Progress .ready tools tools turn) ?_ (fun s' hs' => by rw [hs']; exact hs)
    (fun _ s' hs' => ⟨tools, htools, hturn, hs'⟩) fun _ _ h => h
  unfold askProvider
  refine (checkControl_triple htools hless rfl rfl).bind fun _ => ?_
  refine .bind (Q := fun _ => Progress .ready tools tools (turn - 1)) ?_ fun request => ?_
  · unfold buildRequest
    refine .get fun s hs => ?_
    have hact : Progress .ready tools tools (turn - 1)
        (s.act (.request (providerMessages fixed s.messages).length)) := hs.act rfl rfl rfl
    refine .bind (Q := fun _ => Progress .ready tools tools (turn - 1)) (.set fun _ _ => hact)
      fun _ => ?_
    refine .bind (Q := fun _ => Progress .ready tools tools (turn - 1))
      (.ofExcept (fun _ _ _ hs => hs) fun _ _ _ hs => hs.ended htools hless) fun _ => ?_
    exact .pure fun _ hs => hs
  refine (checkControl_triple htools hless rfl rfl).bind fun _ => ?_
  refine .bind (Q := fun _ => Progress .ready tools tools turn) ?_ fun response => ?_
  · unfold invokeProvider
    refine .get fun s hs => ?_
    obtain ⟨world, answer⟩ := fixed.invokeProvider s.world request
    have hsame : Progress .ready tools tools (turn - 1) { s with world } := hs.same rfl rfl
    have hact : Progress .ready tools tools turn ({ s with world }.act .provider) :=
      hsame.act rfl rfl (Nat.sub_add_cancel hpos)
    refine .bind (Q := fun _ => Progress .ready tools tools turn) (.set fun _ _ => hact) fun _ => ?_
    refine .bind (Q := fun _ => Progress .ready tools tools turn)
      (.ofExcept (fun _ _ _ hs => hs) fun _ _ _ hs => hs.ended htools hturn) fun invocation => ?_
    refine .bind (Q := fun _ => Progress .ready tools tools turn)
      (.modify fun s hs => hs.same rfl rfl) fun _ => ?_
    refine .get fun s hs => ?_
    refine .bind (Q := fun _ => Progress .ready tools tools turn)
      (.ofExcept (fun _ _ s' hs' => by rw [hs']; exact hs)
        fun _ _ s' hs' => by rw [hs']; exact hs.ended htools hturn) fun response => ?_
    refine .bind (Q := fun _ => Progress .ready tools tools turn)
      (.modify fun s hs => hs.same rfl rfl) fun _ => ?_
    exact .pure fun _ hs => hs
  refine (checkControl_triple htools hturn rfl rfl).bind fun _ => ?_
  exact .pure fun _ hs => hs

theorem conclude_triple {turn : ℕ} {text : String} :
    Triple (fun s => Answered fixed turn s ∧
        (¬ (trim text).isEmpty → gateOpens fixed turn s = false))
      (conclude fixed turn text)
      (fun result s => result.isSome = true ∧ Answered fixed turn s) (Ended fixed) := by
  refine .each fun s ⟨⟨tools, htools, hturn, hs⟩, hgate⟩ => ?_
  unfold conclude
  refine .bind (Q := fun _ s' => s' = s ∧ gateOpens fixed turn s = false)
    (ensureThat_triple (fun hblank _ h => ⟨h, hgate hblank⟩) fun s' hs' => ?_) fun _ => ?_
  · rw [hs']
    exact hs.ended htools hturn
  refine .bind (Q := fun ends s' => ends = true ∧ Progress .ready tools tools turn s') ?_
    fun ends => ?_
  · unfold passGate
    refine .get fun s' ⟨hs', hshut⟩ => ?_
    rw [hs', hshut]
    exact .pure fun _ h => ⟨rfl, by rw [h]; exact hs⟩
  refine .each fun s' ⟨hends, hs'⟩ => ?_
  rw [if_pos hends]
  refine .bind (Q := fun _ => Progress .ready tools tools turn)
    ((pushMessage_triple htools hturn).pre fun _ h => by rw [h]; exact hs') fun _ => ?_
  exact .get fun s hs => .pure fun s' hs' => ⟨rfl, tools, htools, hturn, by rw [hs']; exact hs⟩

theorem runCalls_triple {turn : ℕ} {calls : List ToolCall} :
    Triple (fun s => Answered fixed turn s ∧
        (saturatingAdd s.toolCalls (calls.length % 2 ^ 32) ≤ fixed.loop.maxToolCalls →
          s.toolCalls + calls.length ≤ fixed.loop.maxToolCalls))
      (runCalls fixed calls) (fun _ => BeforeTurn fixed (turn + 1)) (Ended fixed) := by
  refine .each fun s ⟨⟨tools, htools, hturn, hs⟩, hbudget⟩ => ?_
  unfold runCalls
  refine .get fun s' hs' => ?_
  rw [hs']
  refine .bind (Q := fun _ => CallsLeft fixed turn calls)
    (ensureThat_triple (fun hfits s' hs' => ?_) fun s' hs' => ?_) fun _ => ?_
  · rw [hs']
    refine ⟨tools, ?_, hs⟩
    rw [← hs.counted]
    exact hbudget hfits
  · rw [hs']
    exact hs.ended htools hturn
  · refine (Triple.forM (CallsLeft fixed turn) fun call rest => runCall_callsLeft hturn).conseq
      (fun _ h => h) (fun _ s' hleft => ?_) fun _ _ h => h
    obtain ⟨tools', hroom, hs'⟩ := hleft
    exact ⟨tools', hroom, Nat.succ_pos _, hturn, hs'⟩

theorem answerTurn_triple {turn : ℕ} {response : ModelResponse} :
    Triple (fun s => Answered fixed turn s ∧ QuietAnswer fixed turn response s)
      (answerTurn fixed turn response)
      (fun result s => match result with
        | some _ => Answered fixed turn s
        | none => BeforeTurn fixed (turn + 1) s) (Ended fixed) := by
  unfold answerTurn
  split_ifs with hempty
  · refine conclude_triple.conseq (fun s h => ⟨h.1, h.2.1 (by simpa using hempty)⟩)
      (fun result s h => ?_) fun _ _ h => h
    rcases result with _ | summary
    · cases h.1
    · exact h.2
  · refine .bind (runCalls_triple.pre fun s h => ⟨h.1, h.2.2⟩) fun _ => ?_
    exact .pure fun _ h => h

theorem runPending_triple {pending : List ToolCall}
    (hpending : pending.length ≤ fixed.loop.maxToolCalls) :
    Triple (Progress .ready 0 0 0) (runPending fixed pending) (fun _ => BeforeTurn fixed 1)
      (Ended fixed) := by
  unfold runPending
  split_ifs with happroved
  · refine (Triple.forM (CallsLeft fixed 0)
      fun call rest => useTool_callsLeft (Nat.zero_le _)).conseq (fun s hs => ?_)
      (fun _ s hleft => ?_) fun _ _ h => h
    · exact ⟨0, by omega, hs⟩
    · obtain ⟨tools, hroom, hs⟩ := hleft
      exact ⟨tools, hroom, Nat.one_pos, Nat.zero_le _, hs⟩
  · exact .pure fun s hs => ⟨0, Nat.zero_le _, Nat.one_pos, Nat.zero_le _, hs⟩

/-! ### Whole runs -/

/-- In every turn the run gets to, the answer is quiet. -/
def QuietRun (env : Environment ω μ κ) (loop : AgentLoop) (world : ω)
    (history : List ChatMessage) : Prop :=
  ∀ fixed state pending, openRun env loop world history = .ok (fixed, state, pending) →
    ∀ start, runPending fixed pending state = .ok ⟨⟩ start →
      TurnsMeet fixed (QuietAnswer fixed) 1 fixed.loop.maxTurns start

theorem runAgent_triple {pending : List ToolCall} {state : AgentState ω μ}
    (hpending : pending.length ≤ fixed.loop.maxToolCalls) (hacts : state.acts = [])
    (hcounted : state.toolCalls = 0)
    (hquiet : ∀ start, runPending fixed pending state = .ok ⟨⟩ start →
      TurnsMeet fixed (QuietAnswer fixed) 1 fixed.loop.maxTurns start) :
    Triple (· = state) (runAgent fixed pending)
      (fun _ s => ∃ turn, Answered fixed turn s) (Ended fixed) := by
  have hstart : Progress .ready 0 0 0 state := by
    constructor
    · rw [hacts]
      rfl
    · rw [hacts]
      rfl
    · exact hcounted
    · rw [hacts]
      rfl
  unfold runAgent
  refine .bind (Q := fun _ s => BeforeTurn fixed 1 s ∧
    TurnsMeet fixed (QuietAnswer fixed) 1 fixed.loop.maxTurns s) ?_ fun _ => ?_
  · refine .intro (fun s result s' hs hrun => ?_) fun s error s' hs hrun => ?_
    · rw [hs] at hrun
      exact ⟨(runPending_triple hpending).ok hstart hrun, hquiet s' hrun⟩
    · rw [hs] at hrun
      exact (runPending_triple hpending).error hstart hrun
  · refine runTurns_rule fixed (I := BeforeTurn fixed) (J := fun turn _ => Answered fixed turn)
      (fun turn hturn => askProvider_triple hturn) (fun turn response => ?_) (fun turn s hs => ?_)
      _ _ (Nat.add_comm _ _)
    · refine answerTurn_triple.conseq (fun _ h => h) (fun result s h => ?_) fun _ _ h => h
      rcases result with _ | summary
      · exact h
      · exact ⟨turn, h⟩
    · obtain ⟨tools, htools, -, hturn, hs⟩ := hs
      exact hs.ended htools hturn

/-- **Every effect passes a checkpoint**, if in no turn the answer opens the gate (or has so many
calls that their number is cut by the cast): each tool comes right after a check that passed and
before the next, nothing follows a check that fails, and the numbers of tools and of provider calls
are within the budget. -/
theorem effects_checkpointed (env : Environment ω μ κ) (loop : AgentLoop) (world : ω)
    (history : List ChatMessage) (hquiet : QuietRun env loop world history) :
    Discipline loop (runWithContext env loop world history).1
      (runWithContext env loop world history).2.isOk := by
  unfold runWithContext
  rcases hopen : openRun env loop world history with error | ⟨fixed, state, pending⟩
  · exact .of_replay rfl (fun _ => rfl) (Nat.zero_le _) (Nat.zero_le _)
  · obtain ⟨-, hloop, hpending, hacts, hcounted⟩ := openRun_eq_ok _ hopen
    rw [← hloop] at hpending ⊢
    have htriple := runAgent_triple hpending hacts hcounted (hquiet fixed state pending hopen)
    dsimp only
    rcases hrun : runAgent fixed pending state with ⟨summary, s⟩ | ⟨error, s⟩
    · obtain ⟨turn, tools, htools, hturn, hs⟩ := htriple.ok rfl hrun
      refine .of_replay hs.phase (fun _ => rfl) ?_ ?_
      · rw [hs.tools]
        exact htools
      · rw [hs.providers]
        exact hturn
    · obtain ⟨⟨phase, hphase⟩, htools, hproviders⟩ := htriple.error rfl hrun
      exact .of_replay hphase (fun h => nomatch h) htools hproviders

/-! ### Tasks that are not goals -/

/-- A run for a task that is not a goal is quiet, if the answers have fewer than `2 ^ 32` calls. -/
theorem quietRun_of_not_goal {env : Environment ω μ κ} {loop : AgentLoop} {world : ω}
    {history : List ChatMessage}
    (hgoal : contains env.task "[LONG-HORIZON AUTONOMOUS GOAL]" = false)
    (hshort : ∀ world request world' invocation response,
      env.invokeProvider world request = (world', .ok invocation) →
      invocation.result = .ok response → response.toolCalls.length < 2 ^ 32) :
    QuietRun env loop world history := by
  intro fixed state pending hopen start hstart
  obtain ⟨rfl, hloop, -⟩ := openRun_eq_ok _ hopen
  have hanswer : ∀ turn response (s : AgentState ω μ), response.toolCalls.length < 2 ^ 32 →
      QuietAnswer fixed turn response s := by
    intro turn response s hlength
    constructor
    · intro _ _
      unfold gateOpens isGoalTask
      rw [hgoal]
      rfl
    · intro hfits
      have hbound := fixed.loop.toolCalls_le
      rw [Nat.mod_eq_of_lt hlength] at hfits
      unfold saturatingAdd at hfits
      unfold maxAgentToolCalls at hbound
      omega
  exact turnsMeet_of_answers fixed hshort hanswer _ _ _

/-! ### Two runs -/

def patchCall : ToolCall := ⟨"call-1", "workspace.patch", .object []⟩

/-- First a patch, and then the answer. -/
def patchAnswer (asked : ℕ) : ModelResponse :=
  if asked = 0 then ⟨"", [patchCall], ⟨10, 5, 0, 0⟩⟩
  else ⟨"The file is patched.", [], ⟨20, 5, 0, 0⟩⟩

/-- The world counts the calls of the provider; every tool says that it is done, and nothing is
stopped. -/
def patching (task : String) : Environment ℕ Unit Unit where
  json := ⟨fun _ => some "\x7b\x7d", fun _ => some (.object [])⟩
  control := some fun asked _ => (asked, .ok ())
  invokeProvider asked _ := (asked + 1, .ok ⟨[], [], .ok (patchAnswer asked)⟩)
  executeTool asked _ _ := (asked, [], .ok (.output "done"))
  renderPayload _ output := some output
  normalizePayload _ := some none
  prepare _ := .ok ⟨"You are Pandora.", (), false, none, []⟩
  modelId := "model-1"
  sessionId := "session-1"
  task := task
  approved := false

def smallLoop : AgentLoop where
  maxTurns := 3
  maxToolCalls := 4
  turns_pos := by decide
  toolCalls_pos := by decide
  turns_le := by decide
  toolCalls_le := by decide

theorem effects_checkpointed_patch :
    (runWithContext (patching "patch the file") smallLoop 0 []).2.isOk = true ∧
    Discipline smallLoop (runWithContext (patching "patch the file") smallLoop 0 []).1
      (runWithContext (patching "patch the file") smallLoop 0 []).2.isOk := by
  refine ⟨by decide +kernel, effects_checkpointed _ _ _ _ (quietRun_of_not_goal ?_ ?_)⟩
  · decide +kernel
  · intro asked request asked' invocation response hinvoke hresult
    cases hinvoke
    cases hresult
    unfold patchAnswer
    split_ifs
    · decide
    · decide

/-- The same run for the task of a goal: the gate verifies the workspace without a check before it,
and the run returns without a check after it. -/
theorem gate_unchecked :
    ¬ Discipline smallLoop
      (runWithContext (patching "[LONG-HORIZON AUTONOMOUS GOAL] patch") smallLoop 0 []).1
      (runWithContext (patching "[LONG-HORIZON AUTONOMOUS GOAL] patch") smallLoop 0 []).2.isOk := by
  intro h
  have htool : ((runWithContext (patching "[LONG-HORIZON AUTONOMOUS GOAL] patch") smallLoop
      0 []).1.getLast?.map isTool) = some true := by decide +kernel
  have hcheck : ((runWithContext (patching "[LONG-HORIZON AUTONOMOUS GOAL] patch") smallLoop
      0 []).1.dropLast.getLast?.map isEffectCheck) = some false := by decide +kernel
  generalize (runWithContext (patching "[LONG-HORIZON AUTONOMOUS GOAL] patch") smallLoop
    0 []).1 = acts at h htool hcheck
  obtain ⟨last, hlast, hlastTool⟩ := Option.map_eq_some_iff.mp htool
  obtain ⟨call, yielded, rfl⟩ := isTool_eq_true hlastTool
  have hsplit : acts = acts.dropLast ++ [.tool call yielded] :=
    (List.dropLast_append_getLast? _ hlast).symm
  rw [h.authorized _ _ _ _ hsplit] at hcheck
  cases hcheck

end Pandora.Agent.Checkpoints
