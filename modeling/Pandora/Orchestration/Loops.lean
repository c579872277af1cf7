import Pandora.Ids
import Pandora.Lib.Runs

/-! # Run loops

A run loop counts its iterations, its retries and what they have used, and stops when a limit of its
configuration is reached. The counters saturate at the bounds of their types.

The usage of an iteration is added before it is compared with the limits, so a run loop that is
exhausted may have used more than its limits; its snapshot is then not accepted
(`restorable_iff`). -/

namespace Pandora.Orchestration.Loops

open Text Ids Lib.Checked Lib.Runs

abbrev RunLoopId := Id .runLoop

inductive LoopTermination
  | goalReached | noProgress | explicitStop
deriving DecidableEq

inductive RunLoopState
  | ready | running | paused | completed | cancelled | exhausted
deriving DecidableEq

inductive LoopDecision
  | continue' | retry | completed | exhausted | cancelled
deriving DecidableEq

structure Usage where
  (tokens tools durationSeconds costMicros : ℕ)

structure IterationOutcome where
  usage : Usage
  (progress goalReached failed retryable : Bool)

inductive RunLoopError
  | invalidLimit (field : String)
  | invalidTransition (state : RunLoopState) (action : String)
  | invalidSnapshot
deriving DecidableEq

/-- The limits of a run loop: `u32` and `u64` values that `new` has checked. -/
structure RunLoopConfig where
  (maxIterations maxTokens maxTools maxDurationSeconds maxCostMicros maxRetries : ℕ)
  termination : LoopTermination
  positive : 0 < maxIterations ∧ 0 < maxTokens ∧ 0 < maxTools ∧ 0 < maxDurationSeconds ∧
    0 < maxCostMicros
  fits : maxIterations < 2 ^ 32 ∧ maxTokens < 2 ^ 64 ∧ maxTools < 2 ^ 32 ∧
    maxDurationSeconds < 2 ^ 64 ∧ maxCostMicros < 2 ^ 64 ∧ maxRetries < 2 ^ 32
deriving DecidableEq

/-- `u32::saturating_add` and `u64::saturating_add`. -/
def saturatingAdd (bits a b : ℕ) : ℕ := min (a + b) (2 ^ bits - 1)

/-- The loop: its limits, what is used, its state. -/
structure RunLoop where
  id : RunLoopId
  planId : PlanId
  config : RunLoopConfig
  state : RunLoopState
  (iterations retries usedTokens usedTools usedDurationSeconds usedCostMicros : ℕ)
deriving DecidableEq

structure RunLoopSnapshot where
  id : RunLoopId
  planId : PlanId
  config : RunLoopConfig
  state : RunLoopState
  (iterations retries usedTokens usedTools usedDurationSeconds usedCostMicros : ℕ)

namespace RunLoop

def new (id : RunLoopId) (planId : PlanId) (config : RunLoopConfig) :
    Except RunLoopError RunLoop := do
  ensure (¬ (trim id.text).isEmpty ∧ ¬ (trim planId.text).isEmpty) .invalidSnapshot
  pure {
    id, planId, config
    state := .ready, iterations := 0, retries := 0, usedTokens := 0, usedTools := 0
    usedDurationSeconds := 0, usedCostMicros := 0 }

variable (run : RunLoop)

def transition (expected next : RunLoopState) (action : String) : Except RunLoopError RunLoop := do
  ensure (run.state = expected) (.invalidTransition run.state action)
  pure { run with state := next }

def start : Except RunLoopError RunLoop := run.transition .ready .running "start"

def pause : Except RunLoopError RunLoop := run.transition .running .paused "pause"

def resume : Except RunLoopError RunLoop := run.transition .paused .running "resume"

def cancel : Except RunLoopError RunLoop :=
  match run.state with
  | .ready | .running | .paused => .ok { run with state := .cancelled }
  | state => .error (.invalidTransition state "cancel")

def budgetExhausted : Bool :=
  run.config.maxTokens < run.usedTokens ∨ run.config.maxTools < run.usedTools ∨
    run.config.maxDurationSeconds < run.usedDurationSeconds ∨
    run.config.maxCostMicros < run.usedCostMicros

/-- What an iteration has used is counted. -/
def charge (usage : Usage) : RunLoop :=
  { run with
    iterations := saturatingAdd 32 run.iterations 1
    usedTokens := saturatingAdd 64 run.usedTokens usage.tokens
    usedTools := saturatingAdd 32 run.usedTools usage.tools
    usedDurationSeconds := saturatingAdd 64 run.usedDurationSeconds usage.durationSeconds
    usedCostMicros := saturatingAdd 64 run.usedCostMicros usage.costMicros }

/-- The decision, once the iteration is counted. -/
def conclude (outcome : IterationOutcome) : RunLoop × LoopDecision :=
  if run.budgetExhausted then ({ run with state := .exhausted }, .exhausted)
  else if outcome.goalReached then ({ run with state := .completed }, .completed)
  else if outcome.failed then
    if outcome.retryable ∧ run.retries < run.config.maxRetries ∧
        run.iterations < run.config.maxIterations then
      ({ run with retries := run.retries + 1 }, .retry)
    else ({ run with state := .exhausted }, .exhausted)
  else if ¬ outcome.progress ∧ run.config.termination = .noProgress then
    ({ run with state := .completed }, .completed)
  else if run.config.maxIterations ≤ run.iterations then
    ({ run with state := .exhausted }, .exhausted)
  else (run, .continue')

def recordIteration (outcome : IterationOutcome) :
    Except RunLoopError (RunLoop × LoopDecision) := do
  ensure (run.state = .running) (.invalidTransition run.state "record iteration")
  pure ((run.charge outcome.usage).conclude outcome)

def snapshot : RunLoopSnapshot where
  id := run.id
  planId := run.planId
  config := run.config
  state := run.state
  iterations := run.iterations
  retries := run.retries
  usedTokens := run.usedTokens
  usedTools := run.usedTools
  usedDurationSeconds := run.usedDurationSeconds
  usedCostMicros := run.usedCostMicros

def fromSnapshot (snapshot : RunLoopSnapshot) : Except RunLoopError RunLoop := do
  ensure (¬ (trim snapshot.id.text).isEmpty ∧ ¬ (trim snapshot.planId.text).isEmpty)
    .invalidSnapshot
  ensure (¬ (snapshot.config.maxIterations < snapshot.iterations ∨
    snapshot.config.maxTokens < snapshot.usedTokens ∨
    snapshot.config.maxTools < snapshot.usedTools ∨
    snapshot.config.maxDurationSeconds < snapshot.usedDurationSeconds ∨
    snapshot.config.maxCostMicros < snapshot.usedCostMicros ∨
    snapshot.config.maxRetries < snapshot.retries)) .invalidSnapshot
  pure {
    id := snapshot.id
    planId := snapshot.planId
    config := snapshot.config
    state := snapshot.state
    iterations := snapshot.iterations
    retries := snapshot.retries
    usedTokens := snapshot.usedTokens
    usedTools := snapshot.usedTools
    usedDurationSeconds := snapshot.usedDurationSeconds
    usedCostMicros := snapshot.usedCostMicros }

end RunLoop

/-! ### Sequences of calls -/

inductive RunLoopCall
  | start | pause | resume | cancel
  | recordIteration (outcome : IterationOutcome)

def perform (run : RunLoop) : RunLoopCall → Except RunLoopError (RunLoop × Option LoopDecision)
  | .start => (·, none) <$> run.start
  | .pause => (·, none) <$> run.pause
  | .resume => (·, none) <$> run.resume
  | .cancel => (·, none) <$> run.cancel
  | .recordIteration outcome => (fun r => (r.1, some r.2)) <$> run.recordIteration outcome

/-- A refused call leaves the run loop. -/
def loop : Machine RunLoop RunLoopCall (Except RunLoopError (Option LoopDecision)) where
  step run call := commit run (perform run call)

/-- The decisions of the iterations that were recorded. -/
def decisions : RunLoop → List RunLoopCall → List LoopDecision
  | _, [] => []
  | run, call :: calls =>
    (match loop.answer run call with
      | .ok (some decision) => [decision]
      | _ => []) ++ decisions (loop.step run call).1 calls

/-! ### What a call does -/

/-- A run loop that has not ended. -/
def Open (run : RunLoop) : Prop :=
  run.state = .ready ∨ run.state = .running ∨ run.state = .paused

/-- What is used is within the limits. -/
def Within (run : RunLoop) : Prop :=
  run.usedTokens ≤ run.config.maxTokens ∧ run.usedTools ≤ run.config.maxTools ∧
    run.usedDurationSeconds ≤ run.config.maxDurationSeconds ∧
    run.usedCostMicros ≤ run.config.maxCostMicros

instance (run : RunLoop) : Decidable (Within run) := inferInstanceAs (Decidable (_ ∧ _ ∧ _ ∧ _))

variable {run : RunLoop}

theorem within_iff : Within run ↔ run.budgetExhausted = false := by
  unfold Within RunLoop.budgetExhausted
  rw [decide_eq_false_iff_not]
  omega

/-- What a call may do to a run loop. -/
inductive Step (run : RunLoop) : RunLoopCall → RunLoop → Option LoopDecision → Prop
  | moved {call : RunLoopCall} {state : RunLoopState}
    (hcall : ∀ outcome, call ≠ .recordIteration outcome)
      (hopen : Open run) : Step run call { run with state } none
  | recorded {outcome : IterationOutcome} (hrunning : run.state = .running) :
      Step run (.recordIteration outcome) ((run.charge outcome.usage).conclude outcome).1
        (some ((run.charge outcome.usage).conclude outcome).2)

theorem transition_eq_ok {run' : RunLoop} {expected next : RunLoopState} {action : String}
    (h : run.transition expected next action = .ok run') :
    run.state = expected ∧ run' = { run with state := next } := by
  simp only [RunLoop.transition, bind_eq_ok, ensure_eq_ok, pure_eq_ok] at h
  obtain ⟨⟨⟩, hstate, rfl⟩ := h
  exact ⟨hstate, rfl⟩

theorem perform_step {run' : RunLoop} {call : RunLoopCall} {decision : Option LoopDecision}
    (h : perform run call = .ok (run', decision)) : Step run call run' decision := by
  cases call with
  | start =>
    simp only [perform, map_eq_ok, Prod.mk.injEq] at h
    obtain ⟨_, h, rfl, rfl⟩ := h
    obtain ⟨hstate, rfl⟩ := transition_eq_ok h
    exact .moved (by rintro _ ⟨⟩) (Or.inl hstate)
  | pause =>
    simp only [perform, map_eq_ok, Prod.mk.injEq] at h
    obtain ⟨_, h, rfl, rfl⟩ := h
    obtain ⟨hstate, rfl⟩ := transition_eq_ok h
    exact .moved (by rintro _ ⟨⟩) (Or.inr (Or.inl hstate))
  | resume =>
    simp only [perform, map_eq_ok, Prod.mk.injEq] at h
    obtain ⟨_, h, rfl, rfl⟩ := h
    obtain ⟨hstate, rfl⟩ := transition_eq_ok h
    exact .moved (by rintro _ ⟨⟩) (Or.inr (Or.inr hstate))
  | cancel =>
    simp only [perform, map_eq_ok, Prod.mk.injEq] at h
    obtain ⟨_, h, rfl, rfl⟩ := h
    unfold RunLoop.cancel at h
    split at h
    · rename_i hstate
      obtain rfl := Except.ok.inj h
      exact .moved (by rintro _ ⟨⟩) (Or.inl hstate)
    · rename_i hstate
      obtain rfl := Except.ok.inj h
      exact .moved (by rintro _ ⟨⟩) (Or.inr (Or.inl hstate))
    · rename_i hstate
      obtain rfl := Except.ok.inj h
      exact .moved (by rintro _ ⟨⟩) (Or.inr (Or.inr hstate))
    · cases h
  | recordIteration outcome =>
    simp only [perform, RunLoop.recordIteration, map_eq_ok, bind_eq_ok, ensure_eq_ok, pure_eq_ok,
      Prod.mk.injEq] at h
    obtain ⟨_, ⟨⟨⟩, hrunning, rfl⟩, rfl, rfl⟩ := h
    exact .recorded hrunning

/-- A call is refused and leaves the run loop, or it takes a step. -/
theorem step_cases (run : RunLoop) (call : RunLoopCall) :
    ((loop.step run call).1 = run ∧ ∃ error, loop.answer run call = .error error) ∨
      ∃ decision, loop.answer run call = .ok decision ∧
        Step run call (loop.step run call).1 decision := by
  rcases h : perform run call with error | ⟨run', decision⟩
  · refine Or.inl ⟨?_, error, ?_⟩
    · simp only [loop, commit, h]
    · simp only [Machine.answer, loop, commit, h]
  · refine Or.inr ⟨decision, ?_, ?_⟩
    · simp only [Machine.answer, loop, commit, h]
    · simp only [loop, commit, h]
      exact perform_step h

theorem refused_of_ended (hended : ¬ Open run) (call : RunLoopCall) :
    (loop.step run call).1 = run ∧ ∃ error, loop.answer run call = .error error := by
  rcases step_cases run call with hrefused | ⟨decision, -, hstep⟩
  · exact hrefused
  · generalize (loop.step run call).1 = run' at hstep
    cases hstep with
    | moved _ hopen => exact absurd hopen hended
    | recorded hrunning => exact absurd (Or.inr (Or.inl hrunning)) hended

theorem conclude_cases (run : RunLoop) (outcome : IterationOutcome) :
    (∃ state decision, run.conclude outcome = ({ run with state }, decision) ∧
      decision ≠ .continue' ∧ decision ≠ .retry ∧ (state = .completed ∨ state = .exhausted)) ∨
    (Within run ∧ run.iterations < run.config.maxIterations ∧
      (run.conclude outcome = (run, .continue') ∨
        run.retries < run.config.maxRetries ∧
          run.conclude outcome = ({ run with retries := run.retries + 1 }, .retry))) := by
  unfold RunLoop.conclude
  split_ifs with hbudget hgoal hfailed hretry hprogress hlast
  · exact Or.inl ⟨_, _, rfl, by decide, by decide, Or.inr rfl⟩
  · exact Or.inl ⟨_, _, rfl, by decide, by decide, Or.inl rfl⟩
  · have hwithin : Within run := within_iff.mpr (Bool.not_eq_true _ ▸ hbudget)
    exact Or.inr ⟨hwithin, hretry.2.2, Or.inr ⟨hretry.2.1, rfl⟩⟩
  · exact Or.inl ⟨_, _, rfl, by decide, by decide, Or.inr rfl⟩
  · exact Or.inl ⟨_, _, rfl, by decide, by decide, Or.inl rfl⟩
  · exact Or.inl ⟨_, _, rfl, by decide, by decide, Or.inr rfl⟩
  · have hwithin : Within run := within_iff.mpr (Bool.not_eq_true _ ▸ hbudget)
    exact Or.inr ⟨hwithin, Nat.lt_of_not_le hlast, Or.inl rfl⟩

theorem within_conclude {outcome : IterationOutcome} :
    Within (run.conclude outcome).1 ↔ Within run := by
  rcases conclude_cases run outcome with ⟨state, decision, heq, -⟩ | ⟨-, -, heq | ⟨-, heq⟩⟩
  · rw [heq]
    exact Iff.rfl
  · rw [heq]
  · rw [heq]
    exact Iff.rfl

/-! ### The counters -/

/-- The counters against the limits: a run loop that can go on has an iteration left. -/
structure Bounded (run : RunLoop) : Prop where
  iterations : run.iterations ≤ run.config.maxIterations
  left : Open run → run.iterations < run.config.maxIterations
  retries : run.retries ≤ run.config.maxRetries
  counters : run.usedTokens < 2 ^ 64 ∧ run.usedTools < 2 ^ 32 ∧ run.usedDurationSeconds < 2 ^ 64 ∧
    run.usedCostMicros < 2 ^ 64

theorem saturatingAdd_lt {bits : ℕ} (a b : ℕ) : saturatingAdd bits a b < 2 ^ bits := by
  have hpos := Nat.two_pow_pos bits
  unfold saturatingAdd
  omega

theorem iterations_charge (h : run.iterations < run.config.maxIterations)
    (usage : Usage) : (run.charge usage).iterations = run.iterations + 1 := by
  have hfits := run.config.fits.1
  show min (run.iterations + 1) (2 ^ 32 - 1) = run.iterations + 1
  omega

theorem Bounded.step (h : Bounded run) (call : RunLoopCall) :
    Bounded (loop.step run call).1 := by
  rcases step_cases run call with ⟨heq, -⟩ | ⟨decision, -, hstep⟩
  · rw [heq]
    exact h
  · generalize (loop.step run call).1 = run' at hstep
    cases hstep with
    | moved hcall hopen => exact ⟨h.iterations, fun _ => h.left hopen, h.retries, h.counters⟩
    | @recorded outcome hrunning =>
      have hleft := h.left (Or.inr (Or.inl hrunning))
      have hcount := iterations_charge hleft outcome.usage
      have hnext : (run.charge outcome.usage).iterations ≤ run.config.maxIterations := by
        rw [hcount]
        exact hleft
      have hcounters : (run.charge outcome.usage).usedTokens < 2 ^ 64 ∧
          (run.charge outcome.usage).usedTools < 2 ^ 32 ∧
          (run.charge outcome.usage).usedDurationSeconds < 2 ^ 64 ∧
          (run.charge outcome.usage).usedCostMicros < 2 ^ 64 :=
        ⟨saturatingAdd_lt _ _, saturatingAdd_lt _ _, saturatingAdd_lt _ _, saturatingAdd_lt _ _⟩
      rcases conclude_cases (run.charge outcome.usage) outcome with
        ⟨state, decision, heq, -, -, hstate⟩ | ⟨-, hmore, heq | ⟨hretries, heq⟩⟩
      · rw [heq]
        refine ⟨hnext, fun hopen => ?_, h.retries, hcounters⟩
        have hended : state = .ready ∨ state = .running ∨ state = .paused := hopen
        rcases hstate with rfl | rfl
        all_goals simp at hended
      · rw [heq]
        exact ⟨hnext, fun _ => hmore, h.retries, hcounters⟩
      · rw [heq]
        exact ⟨hnext, fun _ => hmore, hretries, hcounters⟩

theorem bounded_new {id : RunLoopId} {planId : PlanId} {config : RunLoopConfig}
    (h : RunLoop.new id planId config = .ok run) : Bounded run := by
  simp only [RunLoop.new, bind_eq_ok, ensure_eq_ok, pure_eq_ok] at h
  obtain ⟨⟨⟩, -, rfl⟩ := h
  refine ⟨Nat.zero_le _, fun _ => config.positive.1, Nat.zero_le _, ?_⟩
  exact ⟨Nat.two_pow_pos 64, Nat.two_pow_pos 32, Nat.two_pow_pos 64, Nat.two_pow_pos 64⟩

theorem bounded_run (h : Bounded run) (calls : List RunLoopCall) :
    Bounded (loop.run run calls) :=
  loop.run_invariant (P := Bounded) (fun _ call h => h.step call) calls h

/-! ### Restoring a snapshot -/

/-- The snapshot of the run loop is accepted and makes a run loop with the same snapshot. -/
def Restorable (run : RunLoop) : Prop :=
  ∃ restored, RunLoop.fromSnapshot run.snapshot = .ok restored ∧ restored.snapshot = run.snapshot

theorem restorable_iff_within (h : Bounded run) : Restorable run ↔ Within run := by
  unfold Restorable RunLoop.fromSnapshot
  simp only [bind_eq_ok, ensure_eq_ok, pure_eq_ok]
  constructor
  · rintro ⟨restored, ⟨⟨⟩, -, ⟨⟩, hlimits, -⟩, -⟩
    have hused : ¬ (run.config.maxIterations < run.iterations ∨
        run.config.maxTokens < run.usedTokens ∨ run.config.maxTools < run.usedTools ∨
        run.config.maxDurationSeconds < run.usedDurationSeconds ∨
        run.config.maxCostMicros < run.usedCostMicros ∨
        run.config.maxRetries < run.retries) := hlimits
    unfold Within
    omega
  · intro hwithin
    have hiterations := h.iterations
    have hretries := h.retries
    unfold Within at hwithin
    refine ⟨run, ⟨(), ⟨run.id.nonblank, run.planId.nonblank⟩, (), ?_, rfl⟩, rfl⟩
    show ¬ (run.config.maxIterations < run.iterations ∨
      run.config.maxTokens < run.usedTokens ∨ run.config.maxTools < run.usedTools ∨
      run.config.maxDurationSeconds < run.usedDurationSeconds ∨
      run.config.maxCostMicros < run.usedCostMicros ∨ run.config.maxRetries < run.retries)
    omega

/-- The usage of an iteration that is recorded fits into what is left of the limits. -/
def Fits (run : RunLoop) : RunLoopCall → Prop
  | .recordIteration outcome => run.state = .running → Within (run.charge outcome.usage)
  | _ => True

instance (run : RunLoop) : ∀ call, Decidable (Fits run call)
  | .recordIteration _ => inferInstanceAs (Decidable (_ → _))
  | .start | .pause | .resume | .cancel => isTrue trivial

theorem within_of_charge {usage : Usage} (hbounded : Bounded run)
    (h : Within (run.charge usage)) : Within run := by
  have hcounters := hbounded.counters
  unfold Within RunLoop.charge saturatingAdd at h
  unfold Within
  dsimp only at h
  omega

theorem within_step (hbounded : Bounded run) (call : RunLoopCall) :
    Within (loop.step run call).1 ↔ Within run ∧ Fits run call := by
  rcases step_cases run call with ⟨heq, error, herror⟩ | ⟨decision, -, hstep⟩
  · rw [heq]
    refine ⟨fun hwithin => ⟨hwithin, ?_⟩, And.left⟩
    cases call with
    | recordIteration outcome =>
      intro hrunning
      exfalso
      have hrecord : perform run (.recordIteration outcome) =
          .ok (((run.charge outcome.usage).conclude outcome).1,
            some ((run.charge outcome.usage).conclude outcome).2) := by
        simp only [perform, RunLoop.recordIteration, map_eq_ok, bind_eq_ok, ensure_eq_ok,
          pure_eq_ok]
        exact ⟨_, ⟨(), hrunning, rfl⟩, rfl⟩
      simp only [Machine.answer, loop, commit, hrecord] at herror
      cases herror
    | start | pause | resume | cancel => trivial
  · generalize (loop.step run call).1 = run' at hstep
    cases hstep with
    | moved hcall hopen =>
      have hfits : Fits run call := by
        cases call with
        | recordIteration outcome => exact absurd rfl (hcall outcome)
        | start | pause | resume | cancel => trivial
      exact ⟨fun hwithin => ⟨hwithin, hfits⟩, And.left⟩
    | recorded hrunning =>
      rw [within_conclude]
      exact ⟨fun hcharged => ⟨within_of_charge hbounded hcharged, fun _ => hcharged⟩,
        fun h => h.2 hrunning⟩

theorem within_run : ∀ (calls : List RunLoopCall) {run : RunLoop}, Bounded run →
    (Within (loop.run run calls) ↔ Within run ∧ loop.Along Fits run calls)
  | [], run, _ => by
    rw [Machine.run_nil]
    exact ⟨fun h => ⟨h, trivial⟩, And.left⟩
  | call :: calls, run, h => by
    rw [Machine.run_cons, within_run calls (h.step call), within_step h, Machine.Along, and_assoc]

/-- **When a snapshot can be restored.** After any calls, the snapshot is accepted and gives the
same run loop exactly if every recorded iteration fitted into what was left of the limits. -/
theorem restorable_iff {id : RunLoopId} {planId : PlanId} {config : RunLoopConfig} {run : RunLoop}
    (hnew : RunLoop.new id planId config = .ok run) (calls : List RunLoopCall) :
    Restorable (loop.run run calls) ↔ loop.Along Fits run calls := by
  have hbounded := bounded_run (bounded_new hnew) calls
  have hstart : Within run := by
    have hfresh := hnew
    simp only [RunLoop.new, bind_eq_ok, ensure_eq_ok, pure_eq_ok] at hfresh
    obtain ⟨⟨⟩, -, rfl⟩ := hfresh
    exact ⟨Nat.zero_le _, Nat.zero_le _, Nat.zero_le _, Nat.zero_le _⟩
  rw [restorable_iff_within hbounded, within_run calls (bounded_new hnew), and_iff_right hstart]

def sampleConfig : RunLoopConfig where
  maxIterations := 3
  maxTokens := 100
  maxTools := 4
  maxDurationSeconds := 30
  maxCostMicros := 1000
  maxRetries := 1
  termination := .goalReached
  positive := by decide
  fits := by decide

def sampleRun : RunLoop where
  id := .ofLiteral "loop-1"
  planId := .ofLiteral "coding"
  config := sampleConfig
  state := .ready
  iterations := 0
  retries := 0
  usedTokens := 0
  usedTools := 0
  usedDurationSeconds := 0
  usedCostMicros := 0

/-- An iteration that makes progress. -/
def sampleIteration (tokens : ℕ) : RunLoopCall :=
  .recordIteration ⟨⟨tokens, 1, 1, 10⟩, true, false, false, false⟩

theorem restorable_iff_sample : Restorable (loop.run sampleRun [.start, sampleIteration 90]) ↔
    loop.Along Fits sampleRun [.start, sampleIteration 90] :=
  @restorable_iff (.ofLiteral "loop-1") (.ofLiteral "coding") sampleConfig _ (by decide +kernel) _

/-- The second iteration uses more tokens than are left: the run loop is exhausted, and its snapshot
is refused. -/
theorem exhausted_not_restorable :
    RunLoop.new (.ofLiteral "loop-1") (.ofLiteral "coding") sampleConfig = .ok sampleRun ∧
    (loop.run sampleRun [.start, sampleIteration 90, sampleIteration 20]).state = .exhausted ∧
    RunLoop.fromSnapshot
      (loop.run sampleRun [.start, sampleIteration 90, sampleIteration 20]).snapshot =
        .error .invalidSnapshot ∧
    ¬ Restorable (loop.run sampleRun [.start, sampleIteration 90, sampleIteration 20]) := by
  have hrefused : RunLoop.fromSnapshot
      (loop.run sampleRun [.start, sampleIteration 90, sampleIteration 20]).snapshot =
        .error .invalidSnapshot := by
    decide +kernel
  refine ⟨by decide +kernel, by decide +kernel, hrefused, ?_⟩
  rintro ⟨restored, hrestored, -⟩
  rw [hrefused] at hrestored
  cases hrestored

/-! ### Run loops are bounded -/

theorem counts_step (h : Bounded run) (call : RunLoopCall) :
    (loop.step run call).1.config = run.config ∧
    (loop.step run call).1.iterations = run.iterations + (decisions run [call]).length ∧
    (loop.step run call).1.retries = run.retries + (decisions run [call]).count .retry := by
  unfold decisions decisions
  rw [List.append_nil]
  rcases step_cases run call with ⟨heq, error, herror⟩ | ⟨decision, hanswer, hstep⟩
  · rw [heq, herror]
    exact ⟨rfl, rfl, rfl⟩
  · rw [hanswer]
    generalize (loop.step run call).1 = run' at hstep
    cases hstep with
    | moved hcall hopen => exact ⟨rfl, rfl, rfl⟩
    | @recorded outcome hrunning =>
      have hcount := iterations_charge (h.left (Or.inr (Or.inl hrunning))) outcome.usage
      rcases conclude_cases (run.charge outcome.usage) outcome with
        ⟨state, decision, heq, -, hretry, -⟩ | ⟨-, -, heq | ⟨-, heq⟩⟩
      · rw [heq]
        refine ⟨rfl, hcount, ?_⟩
        have hnone : [decision].count .retry = 0 :=
          List.count_eq_zero.mpr (by simpa using hretry.symm)
        rw [hnone]
        rfl
      · rw [heq]
        exact ⟨rfl, hcount, rfl⟩
      · rw [heq]
        exact ⟨rfl, hcount, rfl⟩

theorem decisions_cons (run : RunLoop) (call : RunLoopCall) (calls : List RunLoopCall) :
    decisions run (call :: calls) =
      decisions run [call] ++ decisions (loop.step run call).1 calls := by
  simp only [decisions, List.append_nil]

theorem counts_run : ∀ (calls : List RunLoopCall) {run : RunLoop}, Bounded run →
    (loop.run run calls).config = run.config ∧
    (loop.run run calls).iterations = run.iterations + (decisions run calls).length ∧
    (loop.run run calls).retries = run.retries + (decisions run calls).count .retry
  | [], _, _ => ⟨rfl, rfl, rfl⟩
  | call :: calls, run, h => by
    obtain ⟨hconfig, hiterations, hretries⟩ := counts_step h call
    obtain ⟨hconfig', hiterations', hretries'⟩ := counts_run calls (h.step call)
    rw [Machine.run_cons, decisions_cons, List.length_append, List.count_append, hconfig',
      hiterations', hretries', hconfig, hiterations, hretries, Nat.add_assoc, Nat.add_assoc]
    exact ⟨rfl, rfl, rfl⟩

/-- The bounds that hold after a run, and for the next call. -/
structure RunsBounded (config : RunLoopConfig) (start : RunLoop) (calls : List RunLoopCall) :
    Prop where
  iterations : (decisions start calls).length ≤ config.maxIterations
  retries : (decisions start calls).count .retry ≤ config.maxRetries
  /-- A run loop that goes on is within its limits and has an iteration left. -/
  goesOn : ∀ outcome run decision,
    (loop.run start calls).recordIteration outcome = .ok (run, decision) →
    decision = .continue' ∨ decision = .retry →
      Within run ∧ run.iterations < config.maxIterations ∧ run.config = config
  /-- A run loop that has ended refuses every call. -/
  ended : (loop.run start calls).state ∈ [.completed, .cancelled, .exhausted] → ∀ call,
    (∃ error, loop.answer (loop.run start calls) call = .error error) ∧
      loop.run start (calls ++ [call]) = loop.run start calls

/-- **Run loops are bounded**, whatever the calls. -/
theorem run_loop_bounded {id : RunLoopId} {planId : PlanId} {config : RunLoopConfig} {run : RunLoop}
    (hnew : RunLoop.new id planId config = .ok run) (calls : List RunLoopCall) :
    RunsBounded config run calls := by
  have hstart := bounded_new hnew
  have hbounded := bounded_run hstart calls
  obtain ⟨hconfig, hiterations, hretries⟩ := counts_run calls hstart
  have hfresh : run.config = config ∧ run.iterations = 0 ∧ run.retries = 0 := by
    simp only [RunLoop.new, bind_eq_ok, ensure_eq_ok, pure_eq_ok] at hnew
    obtain ⟨⟨⟩, -, rfl⟩ := hnew
    exact ⟨rfl, rfl, rfl⟩
  obtain ⟨rfl, hzero, hzero'⟩ := hfresh
  constructor
  · have hle := hbounded.iterations
    rw [hiterations, hconfig] at hle
    omega
  · have hle := hbounded.retries
    rw [hretries, hconfig] at hle
    omega
  · intro outcome run' decision hrecord hdecision
    simp only [RunLoop.recordIteration, bind_eq_ok, ensure_eq_ok, pure_eq_ok] at hrecord
    obtain ⟨⟨⟩, -, heq⟩ := hrecord
    rcases conclude_cases ((loop.run run calls).charge outcome.usage) outcome with
      ⟨state, decision', hend, hcontinue, hretry, -⟩ | ⟨hwithin, hleft, hend | ⟨-, hend⟩⟩
    · rw [hend] at heq
      cases heq
      rcases hdecision with rfl | rfl
      · exact absurd rfl hcontinue
      · exact absurd rfl hretry
    · rw [hend] at heq
      cases heq
      rw [← hconfig]
      exact ⟨hwithin, hleft, rfl⟩
    · rw [hend] at heq
      cases heq
      rw [← hconfig]
      exact ⟨hwithin, hleft, rfl⟩
  · intro hended call
    have hclosed : ¬ Open (loop.run run calls) := by
      intro hopen
      rcases hopen with h | h | h
      all_goals
        rw [h] at hended
        simp at hended
    obtain ⟨hsame, herror⟩ := refused_of_ended hclosed call
    rw [Machine.run_snoc]
    exact ⟨herror, hsame⟩

theorem run_loop_bounded_sample :
    RunsBounded sampleConfig sampleRun [.start, sampleIteration 90, sampleIteration 20] :=
  @run_loop_bounded (.ofLiteral "loop-1") (.ofLiteral "coding") _ _ (by decide +kernel) _

end Pandora.Orchestration.Loops
