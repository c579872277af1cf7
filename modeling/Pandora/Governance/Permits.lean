import Pandora.Governance.Monitor
import Pandora.Lib.Objects

/-! # One-shot permits

The monitor shared by many threads. An authorization is not one atomic action: it checks the
request, draws a nonce and makes the permit (`start`), and later takes the lock of the store to
register it (`finish`). In between, other calls run; the permit under way is named by the index of
its start. That the two together are the call of the monitor is `start_finish`. A consumption takes
the lock once. Any permit and any request may be presented, whoever made them. -/

namespace Pandora.Governance.Permits

open Lib.Tables Lib.Runs Lib.Objects Text Ids Effect.Request Governance.Policy Governance.Approvals
  Governance.Monitor

variable {sha : Sha256} {json : JsonWriter}

/-! ## Calls -/

variable (sha json) in
/-- A call of `authorize` or of `authorize_after_approval_with_grant`. -/
inductive Authorization
  | plain (request : OperationRequest sha json) (decision : ParliamentDecision) (now : ℕ)
  | withGrant (request : OperationRequest sha json) (decision : ParliamentDecision)
      (grant : ApprovalGrant) (now : ℕ)

namespace Authorization

def request : Authorization sha json → OperationRequest sha json
  | plain request _ _ | withGrant request _ _ _ => request

def now : Authorization sha json → ℕ
  | plain _ _ now | withGrant _ _ _ now => now

def grant : Authorization sha json → Option ApprovalGrant
  | plain _ _ _ => none
  | withGrant _ _ grant _ => some grant

/-- What is checked before a nonce is drawn. -/
def check (monitor : ReferenceMonitor) : Authorization sha json → Except AuthorizationError Unit
  | plain request decision _ => monitor.checkAllowed request decision
  | withGrant request decision grant _ => monitor.checkApproved request decision grant

/-- The call, as one action. -/
def call (monitor : ReferenceMonitor) :
    Authorization sha json → ReferenceMonitor × Except AuthorizationError EffectPermit
  | plain request decision now => monitor.authorize request decision now
  | withGrant request decision grant now =>
    monitor.authorizeAfterApprovalWithGrant request decision grant now

end Authorization

variable (sha json) in
inductive Input
  | start (authorization : Authorization sha json)
  | finish (i : ℕ)
  | consume (permit : EffectPermit) (request : OperationRequest sha json) (now : ℕ)
  | updatePolicy (policy : PolicyContext)

variable (sha json) in
inductive Reply
  | started (i : ℕ)
  | issued (permit : EffectPermit)
  | consumed (consumed : ConsumedPermit sha json)
  | done
deriving DecidableEq

inductive Failure
  | authorization (error : AuthorizationError)
  | permit (error : PermitError)
deriving DecidableEq

/-- The monitor, and the permits that are made and not yet registered. -/
structure World where
  monitor : ReferenceMonitor
  underway : List (Option EffectPermit)

def World.fresh (policy : PolicyContext) (permitTtlSeconds : ℕ) : World :=
  ⟨.newWithPolicy policy permitTtlSeconds, []⟩

def World.start (w : World) (authorization : Authorization sha json) :
    World × Except Failure (Reply sha json) :=
  match authorization.check w.monitor with
  | .error e => (w, .error (.authorization e))
  | .ok () =>
    match w.monitor.preparePermit authorization.request authorization.now with
    | (monitor, .error e) => (⟨monitor, w.underway⟩, .error (.authorization e))
    | (monitor, .ok permit) =>
      (⟨monitor, w.underway ++ [some permit]⟩, .ok (.started w.underway.length))

variable (sha json) in
def World.finish (w : World) (i : ℕ) : World × Except Failure (Reply sha json) :=
  match w.underway[i]?.join with
  | none => (w, .ok .done)
  | some permit =>
    match w.monitor.registerPermit permit with
    | (monitor, .error e) => (⟨monitor, w.underway.set i none⟩, .error (.authorization e))
    | (monitor, .ok permit) => (⟨monitor, w.underway.set i none⟩, .ok (.issued permit))

def World.consume (w : World) (permit : EffectPermit) (request : OperationRequest sha json)
    (now : ℕ) :
    World × Except Failure (Reply sha json) :=
  match Monitor.consume w.monitor.store permit request now with
  | .error e => (w, .error (.permit e))
  | .ok (store, consumed) => (⟨{ w.monitor with store }, w.underway⟩, .ok (.consumed consumed))

def World.step (w : World) : Input sha json → World × Except Failure (Reply sha json)
  | .start authorization => w.start authorization
  | .finish i => w.finish sha json i
  | .consume permit request now => w.consume permit request now
  | .updatePolicy policy => (⟨w.monitor.updatePolicy policy, w.underway⟩, .ok .done)

variable (sha json) in
def world : Machine World (Input sha json) (Except Failure (Reply sha json)) := ⟨World.step⟩

theorem start_finish (w : World) (authorization : Authorization sha json) :
    (∃ e, (w.start authorization).2 = .error (.authorization e) ∧
      authorization.call w.monitor = ((w.start authorization).1.monitor, .error e)) ∨
    ((w.start authorization).2 = .ok (.started w.underway.length) ∧
      ((w.start authorization).1.finish sha json w.underway.length).1.monitor =
        (authorization.call w.monitor).1 ∧
      ((w.start authorization).1.finish sha json w.underway.length).2 =
        match (authorization.call w.monitor).2 with
        | .error e => .error (.authorization e)
        | .ok permit => .ok (.issued permit)) := by
  have hcall : authorization.call w.monitor = match authorization.check w.monitor with
      | .error e => (w.monitor, .error e)
      | .ok () => w.monitor.issuePermit authorization.request authorization.now := by
    cases authorization <;> rfl
  unfold World.start
  rw [hcall]
  rcases authorization.check w.monitor with e | ⟨⟩
  · exact Or.inl ⟨e, rfl, rfl⟩
  · simp only [ReferenceMonitor.issuePermit]
    rcases w.monitor.preparePermit authorization.request authorization.now with
      ⟨monitor, e | permit⟩
    · exact Or.inl ⟨e, rfl, rfl⟩
    · refine Or.inr ⟨rfl, ?_⟩
      simp only [World.finish, List.getElem?_concat_length, Option.join_some]
      rcases monitor.registerPermit permit with ⟨monitor', e | permit'⟩
      all_goals exact ⟨rfl, rfl⟩

/-! ## What a step does -/

/-- The policy allows the capability of the request, and its operation needs no approval or a grant
was presented that matches the request and the policy. -/
def Authorised (policy : PolicyContext) (authorization : Authorization sha json) : Prop :=
  policy.allows authorization.request.capability = true ∧
  (policy.requiresApproval authorization.request.operation = false ∨
    ∃ grant, authorization.grant = some grant ∧
      grant.approval.sessionId = authorization.request.sessionId ∧
      grant.approval.executionId = authorization.request.executionId ∧
      grant.approval.principalId = authorization.request.principalId ∧
      grant.approval.geneId = authorization.request.geneId ∧
      grant.approval.requestDigest = authorization.request.requestDigest ∧
      grant.approval.policyVersion = policy.policyVersion)

variable {authorization : Authorization sha json}

theorem authorised_of_check {monitor : ReferenceMonitor}
    {u : Unit} (h : authorization.check monitor = .ok u) :
    Authorised monitor.policy authorization := by
  cases authorization with
  | plain request decision now =>
    obtain ⟨hallows, hoperation⟩ := ReferenceMonitor.checkAllowed_eq_ok h
    exact ⟨hallows, Or.inl hoperation⟩
  | withGrant request decision grant now =>
    obtain ⟨hallows, hmatches⟩ := ReferenceMonitor.checkApproved_eq_ok h
    unfold ApprovalGrant.matchesRequest at hmatches
    rw [decide_eq_true_eq] at hmatches
    exact ⟨hallows, Or.inr ⟨grant, rfl, hmatches⟩⟩

/-- One step, seen through the store and the permits under way. -/
inductive Step (w : World) : Input sha json → World → Except Failure (Reply sha json) → Prop
  | refused {input : Input sha json} {w' : World} (e : Failure)
    (hstore : w'.monitor.store = w.monitor.store)
    (hunderway : ∀ i permit, Live w'.underway i permit → Live w.underway i permit) :
    Step w input w' (.error e)
  | idle {input : Input sha json} {w' : World} (hstore : w'.monitor.store = w.monitor.store)
    (hunderway : w'.underway = w.underway) : Step w input w' (.ok .done)
  | started {authorization : Authorization sha json} {w' : World} {permit : EffectPermit}
    (hauthorised : Authorised w.monitor.policy authorization)
    (hdigest : permit.requestDigest = authorization.request.requestDigest)
    (hissued : permit.issuedAt = authorization.now) (hstore : w'.monitor.store = w.monitor.store)
    (hunderway : w'.underway = w.underway ++ [some permit]) :
    Step w (.start authorization) w' (.ok (.started w.underway.length))
  | issued {i : ℕ} {w' : World} {permit : EffectPermit} (hlive : Live w.underway i permit)
    (hstore : w.monitor.store.insert? ⟨permit, .active⟩ = some w'.monitor.store)
    (hunderway : w'.underway = w.underway.set i none) : Step w (.finish i) w' (.ok (.issued permit))
  | consumed {permit : EffectPermit} {request : OperationRequest sha json} {now : ℕ} {w' : World}
    (hactive : w.monitor.store.get? permit.permitId = some ⟨permit, .active⟩)
    (hissued : permit.issuedAt ≤ now) (hexpires : now < permit.expiresAt)
    (hdigest : request.requestDigest = permit.requestDigest)
    (hstore : w'.monitor.store = markConsumed w.monitor.store permit.permitId)
    (hunderway : w'.underway = w.underway) :
    Step w (.consume permit request now) w' (.ok (.consumed ⟨permit, request, now⟩))

theorem start_step (w : World) (authorization : Authorization sha json) :
    Step w (.start authorization) (w.start authorization).1 (w.start authorization).2 := by
  unfold World.start
  rcases hcheck : authorization.check w.monitor with e | ⟨⟩
  · exact .refused _ rfl fun _ _ h => h
  · have hstore : (w.monitor.preparePermit authorization.request authorization.now).1.store =
        w.monitor.store := ReferenceMonitor.preparePermit_store _ _
    rcases hprepare : w.monitor.preparePermit authorization.request authorization.now with
      ⟨monitor, e | permit⟩
    · rw [hprepare] at hstore
      exact .refused _ hstore fun _ _ h => h
    · rw [hprepare] at hstore
      obtain ⟨hdigest, hissued⟩ := ReferenceMonitor.preparePermit_eq_ok (by rw [hprepare])
      exact .started (authorised_of_check hcheck) hdigest hissued hstore rfl

theorem finish_step (w : World) (i : ℕ) :
    Step w (.finish i : Input sha json) (w.finish sha json i).1 (w.finish sha json i).2 := by
  unfold World.finish
  rcases hget : w.underway[i]?.join with _ | permit
  · exact .idle rfl rfl
  · have hlive := join_eq_some.mp hget
    simp only [ReferenceMonitor.registerPermit, register]
    rcases hinsert : w.monitor.store.insert? ⟨permit, .active⟩ with _ | store
    · refine .refused _ rfl fun j q hj => ?_
      rcases live_set hj with ⟨-, hj⟩ | ⟨-, hq⟩
      · exact hj
      · cases hq
    · exact .issued hlive hinsert rfl

theorem consume_step (w : World) (permit : EffectPermit) (request : OperationRequest sha json)
    (now : ℕ) :
    Step w (.consume permit request now) (w.consume permit request now).1
      (w.consume permit request now).2 := by
  unfold World.consume
  rcases hconsume : Monitor.consume w.monitor.store permit request now with e | ⟨store, consumed⟩
  · exact .refused _ rfl fun _ _ h => h
  · obtain ⟨hactive, hissued, hexpires, hdigest, rfl, rfl⟩ := consume_eq_ok hconsume
    exact .consumed hactive hissued hexpires hdigest rfl rfl

/-- **What a step does.** -/
theorem step_spec (w : World) (input : Input sha json) :
    Step w input (w.step input).1 (w.step input).2 := by
  cases input with
  | start authorization => exact start_step w authorization
  | finish i => exact finish_step w i
  | consume permit request now => exact consume_step w permit request now
  | updatePolicy policy => exact .idle rfl rfl

/-! ## Histories -/

section

variable (policy : PolicyContext) (permitTtlSeconds : ℕ)

/-- The world after a run from a new monitor. -/
def worldAfter (inputs : List (Input sha json)) : World :=
  (world sha json).run (.fresh policy permitTtlSeconds) inputs

/-- The input at position `k` of a run and its answer. -/
def AnswersAt (inputs : List (Input sha json)) (k : ℕ) (input : Input sha json)
    (answer : Except Failure (Reply sha json)) : Prop :=
  (world sha json).Answers (.fresh policy permitTtlSeconds) inputs k input answer

/-- The authorization started at position `k`, as number `i`, for a permit with these two fields;
the policy active there allowed it. -/
def StartedAt (inputs : List (Input sha json)) (k i : ℕ) (permit : EffectPermit)
    (authorization : Authorization sha json) : Prop :=
  AnswersAt policy permitTtlSeconds inputs k (.start authorization) (.ok (.started i)) ∧
    permit.requestDigest = authorization.request.requestDigest ∧
      permit.issuedAt = authorization.now ∧
    Authorised (worldAfter policy permitTtlSeconds (inputs.take k)).monitor.policy authorization

/-- The authorization that finished at position `k` issued this permit. -/
def IssuedAt (inputs : List (Input sha json)) (k : ℕ) (permit : EffectPermit)
    (authorization : Authorization sha json) : Prop :=
  ∃ i j, j < k ∧ AnswersAt policy permitTtlSeconds inputs k (.finish i) (.ok (.issued permit)) ∧
    StartedAt policy permitTtlSeconds inputs j i permit authorization

/-- The history accounts for every permit under way by its start, and for every stored one by its
issue. -/
structure Accounted (inputs : List (Input sha json)) (w : World) : Prop where
  underway : ∀ i permit, Live w.underway i permit →
    ∃ k authorization, StartedAt policy permitTtlSeconds inputs k i permit authorization
  stored : ∀ permitId stored, w.monitor.store.get? permitId = some stored →
    ∃ k authorization, IssuedAt policy permitTtlSeconds inputs k stored.permit authorization

variable {policy permitTtlSeconds} {inputs : List (Input sha json)}

variable {k : ℕ} {permit : EffectPermit}

theorem StartedAt.append {i : ℕ}
    (h : StartedAt policy permitTtlSeconds inputs k i permit authorization)
    (more : List (Input sha json)) :
    StartedAt policy permitTtlSeconds (inputs ++ more) k i permit authorization := by
  obtain ⟨hans, hdigest, hissued, hauthorised⟩ := h
  refine ⟨hans.append more, hdigest, hissued, ?_⟩
  rw [List.take_append_of_le_length (Nat.le_of_lt hans.lt)]
  exact hauthorised

theorem IssuedAt.append (h : IssuedAt policy permitTtlSeconds inputs k permit authorization)
    (more : List (Input sha json)) :
    IssuedAt policy permitTtlSeconds (inputs ++ more) k permit authorization := by
  obtain ⟨i, j, hlt, hans, hstarted⟩ := h
  exact ⟨i, j, hlt, hans.append more, hstarted.append more⟩

theorem IssuedAt.lt
    (h : IssuedAt policy permitTtlSeconds inputs k permit authorization) : k < inputs.length := by
  obtain ⟨i, j, -, hans, -⟩ := h
  exact hans.lt

theorem IssuedAt.of_take {n : ℕ}
    (h : IssuedAt policy permitTtlSeconds (inputs.take n) k permit authorization) :
    k < n ∧ IssuedAt policy permitTtlSeconds inputs k permit authorization := by
  have hlt := h.lt
  rw [List.length_take] at hlt
  have happend := h.append (inputs.drop n)
  rw [List.take_append_drop] at happend
  exact ⟨by omega, happend⟩

variable {w : World}

/-- Where the store and the permits under way only lose, the history goes on accounting. -/
theorem Accounted.mono {w' : World} (h : Accounted policy permitTtlSeconds inputs w)
    (input : Input sha json) (hunderway : ∀ i permit, Live w'.underway i permit →
      Live w.underway i permit)
    (hstored : ∀ permitId stored, w'.monitor.store.get? permitId = some stored →
      ∃ stored', w.monitor.store.get? permitId = some stored' ∧ stored'.permit = stored.permit) :
    Accounted policy permitTtlSeconds (inputs ++ [input]) w' := by
  refine ⟨fun i permit hlive => ?_, fun permitId stored hget => ?_⟩
  · obtain ⟨k, authorization, hstarted⟩ := h.underway i permit (hunderway i permit hlive)
    exact ⟨k, authorization, hstarted.append [input]⟩
  · obtain ⟨stored', hget', hsame⟩ := hstored permitId stored hget
    obtain ⟨k, authorization, hissued⟩ := h.stored permitId stored' hget'
    rw [hsame] at hissued
    exact ⟨k, authorization, hissued.append [input]⟩

theorem get?_markConsumed {store : PermitStore} {permitId id : PermitId} {stored : StoredPermit}
    (h : (markConsumed store permitId).get? id = some stored) :
    ∃ stored', store.get? id = some stored' ∧ stored'.permit = stored.permit ∧
      (stored'.state = .consumed → stored = stored') := by
  unfold markConsumed at h
  rw [Table.get?_update, Option.map_eq_some_iff] at h
  obtain ⟨stored', hget, heq⟩ := h
  split_ifs at heq with hid
  · subst heq
    refine ⟨stored', hget, rfl, fun hstate => ?_⟩
    obtain ⟨p, state⟩ := stored'
    obtain rfl : state = .consumed := hstate
    rfl
  · exact ⟨stored', hget, by rw [heq], fun _ => heq.symm⟩

theorem step_accounted (inputs : List (Input sha json)) (input : Input sha json)
    (h : Accounted policy permitTtlSeconds inputs (worldAfter policy permitTtlSeconds inputs)) :
    Accounted policy permitTtlSeconds (inputs ++ [input])
      ((worldAfter policy permitTtlSeconds inputs).step input).1 := by
  have hspec := step_spec (worldAfter policy permitTtlSeconds inputs) input
  have hlast : AnswersAt policy permitTtlSeconds (inputs ++ [input]) inputs.length input
      ((worldAfter policy permitTtlSeconds inputs).step input).2 := Machine.answers_last rfl
  generalize (worldAfter policy permitTtlSeconds inputs).step input = result at hspec hlast
  obtain ⟨w', answer⟩ := result
  cases hspec with
  | refused e hstore hunderway =>
    refine h.mono input hunderway fun permitId stored hget => ⟨stored, ?_, rfl⟩
    rw [← hstore]; exact hget
  | idle hstore hunderway =>
    refine h.mono input (fun i permit hlive => ?_) fun permitId stored hget => ⟨stored, ?_, rfl⟩
    · rw [← hunderway]; exact hlive
    · rw [← hstore]; exact hget
  | @started authorization _ permit hauthorised hdigest hissued hstore hunderway =>
    refine ⟨fun i p hlive => ?_, fun permitId stored hget => ?_⟩
    · rw [hunderway] at hlive
      rcases live_append.mp hlive with hlive | ⟨rfl, hp⟩
      · obtain ⟨k, authorization', hstarted⟩ := h.underway i p hlive
        exact ⟨k, authorization', hstarted.append [_]⟩
      · cases hp
        refine ⟨inputs.length, authorization, hlast, hdigest, hissued, ?_⟩
        rw [List.take_left]
        exact hauthorised
    · rw [hstore] at hget
      obtain ⟨k, authorization', hissued'⟩ := h.stored permitId stored hget
      exact ⟨k, authorization', hissued'.append [_]⟩
  | @issued i _ permit hlive hstore hunderway =>
    have hkept : ∀ j p, Live w'.underway j p →
        Live (worldAfter policy permitTtlSeconds inputs).underway j p := by
      intro j p hj
      rw [hunderway] at hj
      rcases live_set hj with ⟨-, hj⟩ | ⟨-, hp⟩
      · exact hj
      · cases hp
    refine ⟨fun j p hj => ?_, fun permitId stored hget => ?_⟩
    · obtain ⟨k, authorization, hstarted⟩ := h.underway j p (hkept j p hj)
      exact ⟨k, authorization, hstarted.append [_]⟩
    · rw [Table.get?_insert? hstore] at hget
      split_ifs at hget with hid
      · cases hget
        obtain ⟨k, authorization, hstarted⟩ := h.underway i permit hlive
        exact ⟨inputs.length, authorization, i, k, hstarted.1.lt, hlast, hstarted.append [_]⟩
      · obtain ⟨k, authorization, hissued⟩ := h.stored permitId stored hget
        exact ⟨k, authorization, hissued.append [_]⟩
  | consumed hactive hissued hexpires hdigest hstore hunderway =>
    refine h.mono _ (fun i permit hlive => ?_) fun permitId stored hget => ?_
    · rw [← hunderway]; exact hlive
    · rw [hstore] at hget
      obtain ⟨stored', hget', hsame, -⟩ := get?_markConsumed hget
      exact ⟨stored', hget', hsame⟩

theorem worldAfter_accounted (inputs : List (Input sha json)) :
    Accounted policy permitTtlSeconds inputs (worldAfter policy permitTtlSeconds inputs) := by
  refine (world sha json).run_history (P := Accounted policy permitTtlSeconds)
    (s := .fresh policy permitTtlSeconds) ⟨fun i permit hlive => ?_, fun permitId stored hget => ?_⟩
    step_accounted inputs
  · exact absurd hlive.lt (Nat.not_lt_zero i)
  · cases hget

/-! ## Consumptions -/

theorem step_consumed {w' : World} {input : Input sha json}
    {answer : Except Failure (Reply sha json)} (h : Step w input w' answer)
    (hget : w.monitor.store.get? permit.permitId = some ⟨permit, .consumed⟩) :
    w'.monitor.store.get? permit.permitId = some ⟨permit, .consumed⟩ := by
  cases h with
  | refused e hstore | idle hstore | started hauthorised hdigest hissued hstore =>
    rw [hstore]; exact hget
  | @issued i _ issued hlive hstore hunderway =>
    have hne : permit.permitId ≠ issued.permitId := by
      have hfree := (Table.insert?_eq_some hstore).1 _ (Table.get?_eq_some.mp hget).1
      exact hfree
    rw [Table.get?_insert? hstore, if_neg hne]
    exact hget
  | @consumed p request now _ hactive hissued hexpires hdigest hstore hunderway =>
    have hne : permit.permitId ≠ p.permitId := by
      intro heq
      rw [heq, hactive] at hget
      cases hget
    rw [hstore, markConsumed, Table.get?_update, hget, Option.map_some, if_neg (by simpa using hne)]

theorem run_consumed (hget : w.monitor.store.get? permit.permitId = some ⟨permit, .consumed⟩)
    (inputs : List (Input sha json)) :
    ((world sha json).run w inputs).monitor.store.get? permit.permitId = some ⟨permit, .consumed⟩ :=
  (world sha json).run_invariant (P := fun w => w.monitor.store.get? permit.permitId =
    some ⟨permit, .consumed⟩) (fun w input h => step_consumed (step_spec w input) h) inputs hget

variable {request : OperationRequest sha json} {now : ℕ} {reply : Reply sha json}

theorem consumed_cases (h : (w.step (.consume permit request now)).2 = .ok reply) :
    w.monitor.store.get? permit.permitId = some ⟨permit, .active⟩ ∧ permit.issuedAt ≤ now ∧
      now < permit.expiresAt ∧ request.requestDigest = permit.requestDigest ∧
      (w.step (.consume permit request now)).1.monitor.store.get? permit.permitId =
        some ⟨permit, .consumed⟩ := by
  rcases hconsume : Monitor.consume w.monitor.store permit request now with e | ⟨store, consumed⟩
  · simp only [World.step, World.consume, hconsume] at h
    cases h
  · obtain ⟨hactive, hissued, hexpires, hdigest, -, rfl⟩ := consume_eq_ok hconsume
    refine ⟨hactive, hissued, hexpires, hdigest, ?_⟩
    simp only [World.step, World.consume, hconsume]
    rw [markConsumed, Table.get?_update, hactive]
    simp

/-- The consumption at a position goes back to the issue of the permit, for a request with the
digest presented. -/
theorem consumed_issued
    (h : AnswersAt policy permitTtlSeconds inputs k (.consume permit request now) (.ok reply)) :
    ∃ j authorization, j < k ∧ IssuedAt policy permitTtlSeconds inputs j permit authorization ∧
      authorization.request.requestDigest = request.requestDigest := by
  obtain ⟨hactive, -, -, hdigest, -⟩ := consumed_cases h.2
  obtain ⟨j, authorization, hissued⟩ :=
    (worldAfter_accounted (inputs.take k)).stored permit.permitId _ hactive
  obtain ⟨hlt, hissued⟩ := hissued.of_take
  refine ⟨j, authorization, hlt, hissued, ?_⟩
  obtain ⟨i, l, -, -, -, hsame, -⟩ := hissued
  rw [← hsame, hdigest]

theorem consumed_not_later {l : ℕ}
    {request' : OperationRequest sha json} {now' : ℕ} {reply' : Reply sha json}
    (hk : AnswersAt policy permitTtlSeconds inputs k (.consume permit request now) (.ok reply))
    (hl : AnswersAt policy permitTtlSeconds inputs l (.consume permit request' now') (.ok reply')) :
    ¬ k < l := by
  intro hlt
  obtain ⟨-, -, -, -, hconsumed⟩ := consumed_cases hk.2
  obtain ⟨hactive, -⟩ := consumed_cases hl.2
  obtain ⟨between, hrun⟩ := hk.run_take hlt
  have hafter := run_consumed hconsumed between
  rw [hrun] at hactive
  have hboth := hactive.symm.trans hafter
  cases hboth

theorem consumed_once {l : ℕ}
    {request' : OperationRequest sha json} {now' : ℕ} {reply' : Reply sha json}
    (hk : AnswersAt policy permitTtlSeconds inputs k (.consume permit request now) (.ok reply))
    (hl : AnswersAt policy permitTtlSeconds inputs l (.consume permit request' now') (.ok reply')) :
    k = l := by
  have h1 := consumed_not_later hk hl
  have h2 := consumed_not_later hl hk
  omega

theorem step_error {w' : World} {input : Input sha json} {e : Failure}
    (h : Step w input w' (.error e)) :
    w'.monitor.store = w.monitor.store := by
  cases h with
  | refused e hstore hunderway => exact hstore

end

/-- **One-shot permits.** In every run each consumption has an earlier authorization of its own that
issued this very permit, for a request with the digest presented, which the policy active there
allowed; its time is in the window of the permit; and a call that fails leaves the store as it is.
-/
theorem one_shot_permits (policy : PolicyContext) (permitTtlSeconds : ℕ)
    (inputs : List (Input sha json)) :
    (∃ issue : ℕ → ℕ, (∀ k permit request now reply,
        AnswersAt policy permitTtlSeconds inputs k (.consume permit request now) (.ok reply) →
        issue k < k ∧ permit.issuedAt ≤ now ∧ now < permit.expiresAt ∧
        ∃ authorization, IssuedAt policy permitTtlSeconds inputs (issue k) permit authorization ∧
          authorization.request.requestDigest = request.requestDigest) ∧
      ∀ k l permit permit' request request' now now' reply reply',
        AnswersAt policy permitTtlSeconds inputs k (.consume permit request now) (.ok reply) →
        AnswersAt policy permitTtlSeconds inputs l (.consume permit' request' now') (.ok reply') →
        issue k = issue l → k = l) ∧
    (∀ k l permit request request' now now' reply reply',
      AnswersAt policy permitTtlSeconds inputs k (.consume permit request now) (.ok reply) →
      AnswersAt policy permitTtlSeconds inputs l (.consume permit request' now') (.ok reply') →
        k = l) ∧
    (∀ input e, (world sha json).answer (worldAfter policy permitTtlSeconds inputs) input =
      .error e →
      (worldAfter policy permitTtlSeconds (inputs ++ [input])).monitor.store =
        (worldAfter policy permitTtlSeconds inputs).monitor.store) := by
  -- A consumption determines its permit and request, so a choice for each position is enough.
  have hissue : ∀ k, ∃ j, ∀ permit request now reply,
      AnswersAt policy permitTtlSeconds inputs k (.consume permit request now) (.ok reply) →
      j < k ∧ ∃ authorization, IssuedAt policy permitTtlSeconds inputs j permit authorization ∧
        authorization.request.requestDigest = request.requestDigest := by
    intro k
    by_cases hk : ∃ permit request now reply,
        AnswersAt policy permitTtlSeconds inputs k (.consume permit request now) (.ok reply)
    · obtain ⟨permit, request, now, reply, hk⟩ := hk
      obtain ⟨j, authorization, hlt, hissued, hdigest⟩ := consumed_issued hk
      refine ⟨j, fun permit' request' now' reply' hk' => ?_⟩
      obtain ⟨hinput, -⟩ := hk.unique hk'
      cases hinput
      exact ⟨hlt, authorization, hissued, hdigest⟩
    · exact ⟨0, fun permit request now reply h => absurd ⟨permit, request, now, reply, h⟩ hk⟩
  choose issue hissue using hissue
  refine ⟨⟨issue, fun k permit request now reply hk => ?_, ?_⟩,
    fun k l permit request request' now now' reply reply' hk hl => consumed_once hk hl,
    fun input e he => ?_⟩
  · obtain ⟨hlt, hauthorization⟩ := hissue k permit request now reply hk
    obtain ⟨-, hissued, hexpires, -⟩ := consumed_cases hk.2
    exact ⟨hlt, hissued, hexpires, hauthorization⟩
  · intro k l permit permit' request request' now now' reply reply' hk hl hsame
    obtain ⟨-, a, ⟨i, j, -, hans, -⟩, -⟩ := hissue k permit request now reply hk
    obtain ⟨-, a', ⟨i', j', -, hans', -⟩, -⟩ := hissue l permit' request' now' reply' hl
    rw [← hsame] at hans'
    obtain ⟨-, hreply⟩ := hans.unique hans'
    cases hreply
    exact consumed_once hk hl
  · have hspec := step_spec (worldAfter policy permitTtlSeconds inputs) input
    have hanswer : ((worldAfter policy permitTtlSeconds inputs).step input).2 = .error e := he
    rw [hanswer] at hspec
    have hrun := (world sha json).run_snoc (.fresh policy permitTtlSeconds) inputs input
    unfold worldAfter
    rw [hrun]
    exact step_error hspec

end Pandora.Governance.Permits
