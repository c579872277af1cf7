import Pandora.Service.Rpc

/-! # Mutating requests run at most once

The row of a request is there before the request is dispatched and never goes away, so no second
request of the same caller and idempotency key is reserved. `Reserved` ties the requests in flight
to the rows of the ledger; `Spent` says that a pair has been dispatched, and no step takes that
back. -/

namespace Pandora.Service.Idempotency

open Text Lib.Checked Lib.Objects
open Jobs.Store (Value)
open Service.Identity Service.Ledger Service.Rpc

variable {Req Res : Type} {env : RpcEnv Req Res} {s s' : ServiceState Req Res} {e : Event Res}
  {effect : Effect Req Res}

/-- A new ledger, and no request in flight. -/
def start : ServiceState Req Res := ⟨some .empty, []⟩

/-! ### Keys -/

theorem validateKeyField_hex (name : String) (bytes : Bytes32) :
    validateKeyField name (hex bytes.bytes) = .ok () := by
  have hsize : (hex bytes.bytes).utf8ByteSize = 64 := by
    rw [← length_asBytes, length_hex, bytes.length_eq]
  have hne : hex bytes.bytes ≠ "" := by
    intro hempty
    rw [hempty] at hsize
    exact absurd hsize (by decide)
  simp only [validateKeyField, bind_eq_ok, ensure_eq_ok, exists_const]
  refine ⟨⟨hne, by rw [hsize]; decide⟩, ?_⟩
  rw [hex_no_control]
  exact Bool.false_ne_true

theorem validateKeyField_method {method : String} (h : isMutatingMethod method) :
    validateKeyField "method" method = .ok () := by
  have hall : ∀ method ∈ mutatingMethods, validateKeyField "method" method = .ok () := by
    decide +kernel
  exact hall method (of_decide_eq_true h)

variable {rpc : JsonRpcRequest}

/-- A mutating request with a key that has been accepted before has a valid key. -/
theorem new_lookupKey {scope : RuntimeServiceScope} {idempotencyKey : String}
    (hkey : validateKeyField "request_id" idempotencyKey = .ok ())
    (hmethod : isMutatingMethod rpc.method) :
    RpcRequestKey.new (scopeKey env scope) idempotencyKey rpc.method
      (digestRequest env rpc.method rpc.params) = .ok (lookupKey env scope rpc idempotencyKey) := by
  simp only [RpcRequestKey.new, RpcRequestKey.validate, bind_eq_ok, ensure_eq_ok, pure_eq_ok,
    exists_const]
  refine ⟨⟨(), validateKeyField_hex _ _, (), hkey, (), validateKeyField_method hmethod, ?_⟩, rfl⟩
  unfold digestRequest
  exact ⟨by rw [length_hex, Bytes32.length_eq], isLowerHex_hex _⟩

variable {key : RpcRequestKey}

theorem requestId_of_validate (h : key.validate = .ok ()) :
    validateKeyField "request_id" key.requestId = .ok () := by
  simp only [RpcRequestKey.validate, bind_eq_ok] at h
  obtain ⟨_, -, ⟨⟩, hkey, -⟩ := h
  exact hkey

/-! ### The ledger along a run -/

/-- The ledger stays, with all its rows. -/
def Grows (s s' : ServiceState Req Res) : Prop :=
  ∀ table, s.ledger = some table → ∃ table', s'.ledger = some table' ∧ Keeps table table'

variable {table : LedgerTable}

theorem completeMutating_keeps (r : InFlight Req Res) (response : JsonRpcResponse Res) :
    ∃ table', (completeMutating env (some table) r response).1 = some table' ∧
      Keeps table table' := by
  rcases completeMutating_cases env (some table) r response with
    h | ⟨_, table', text, htable, -, hcomplete, h⟩
  · rw [h]
    exact ⟨table, rfl, Keeps.refl _⟩
  · rw [h]
    obtain rfl := Option.some.inj htable
    exact ⟨table', rfl, (completeRequest_cases hcomplete).1⟩

variable {arrival : Arrival Res} {table' : LedgerTable} {r : InFlight Req Res}

theorem keeps_reserved (h : Reserves env arrival table table' r) : Keeps table table' := by
  intro pair row hrow
  refine ⟨row, ?_, RowKept.refl row⟩
  have hne : pair ≠ r.key.pair := by
    rintro rfl
    rw [h.fresh] at hrow
    cases hrow
  rw [get?_reserved h.inserted, if_neg hne, hrow]

theorem step_grows (h : Stepped env s e s' effect) : Grows s s' := by
  intro table htable
  cases h with
  | answered | dispatched | crashed | nothing => exact ⟨table, htable, Keeps.refl _⟩
  | reserved arrival table₀ table' r hledger hr =>
    obtain rfl := Option.some.inj (htable.symm.trans hledger)
    exact ⟨table', rfl, keeps_reserved hr⟩
  | completed i r response =>
    rw [htable]
    exact completeMutating_keeps r response

theorem run_grows (env : RpcEnv Req Res) (s : ServiceState Req Res) (is : List (Event Res)) :
    Grows s ((service env).run s is) := by
  refine (service env).run_relates (R := Grows) (fun s table h => ⟨table, h, Keeps.refl _⟩) ?_
    (fun s e => step_grows (step_stepped s e)) s is
  intro a b c hab hbc table htable
  obtain ⟨table', htable', hkeeps⟩ := hab table htable
  obtain ⟨table'', htable'', hkeeps'⟩ := hbc table' htable'
  exact ⟨table'', htable'', hkeeps.trans hkeeps'⟩

variable {pair : String × String}

/-- A row stays for good, with its method and its digest, and as it is when it is completed. -/
theorem row_kept (env : RpcEnv Req Res)
    {row : LedgerRow} (htable : s.ledger = some table) (hrow : table.get? pair = some row)
    (is : List (Event Res)) :
    ∃ table' row', ((service env).run s is).ledger = some table' ∧ table'.get? pair = some row' ∧
      RowKept row row' := by
  obtain ⟨table', htable', hkeeps⟩ := run_grows env s is table htable
  obtain ⟨row', hrow', hkept⟩ := hkeeps pair row hrow
  exact ⟨table', row', htable', hrow', hkept⟩

/-! ### The requests in flight -/

def Rowed (s : ServiceState Req Res) (pair : String × String) : Prop :=
  ∃ table row, s.ledger = some table ∧ table.get? pair = some row

theorem Rowed.grows (h : Rowed s pair) (hgrows : Grows s s') :
    Rowed s' pair := by
  obtain ⟨table, row, htable, hrow⟩ := h
  obtain ⟨table', htable', hkeeps⟩ := hgrows table htable
  obtain ⟨row', hrow', -⟩ := hkeeps pair row hrow
  exact ⟨table', row', htable', hrow'⟩

theorem not_rowed_of_reserves (hledger : s.ledger = some table)
    (hr : Reserves env arrival table table' r) : ¬ Rowed s r.key.pair := by
  rintro ⟨table₀, row, htable, hrow⟩
  obtain rfl := Option.some.inj (htable.symm.trans hledger)
  rw [hr.fresh] at hrow
  cases hrow

/-- The requests in flight: each has its row and was keyed from what it asks for, no two have one
pair, and a response is what the runtime answered. -/
structure Reserved (env : RpcEnv Req Res) (s : ServiceState Req Res) : Prop where
  rowed : ∀ i r, Live s.inFlight i r → Rowed s r.key.pair
  apart : ∀ i j r r', Live s.inFlight i r → Live s.inFlight j r' → r.key.pair = r'.key.pair → i = j
  keyed : ∀ i r, Live s.inFlight i r → r.key = lookupKey env r.scope r.rpc r.key.requestId
  answered : ∀ i r response, Live s.inFlight i r → r.response = some response →
    ∃ outcome, response = dispatchResponse r.rpc.id outcome

theorem reserved_start (ledger : Option LedgerTable) :
    Reserved env (⟨ledger, []⟩ : ServiceState Req Res) := by
  have hnone : ∀ i r, ¬ Live ([] : List (Option (InFlight Req Res))) i r := by
    intro i r hr
    exact absurd hr.lt (Nat.not_lt_zero i)
  exact {
    rowed := fun i r hr => absurd hr (hnone i r)
    apart := fun i _ r _ hr => absurd hr (hnone i r)
    keyed := fun i r hr => absurd hr (hnone i r)
    answered := fun i r _ hr => absurd hr (hnone i r) }

variable {i : ℕ}

theorem Reserved.drop (h : Reserved env s) (hgrows : Grows s s')
    (hin : s'.inFlight = s.inFlight.set i none) : Reserved env s' := by
  have hlive : ∀ j r, Live s'.inFlight j r → Live s.inFlight j r := by
    intro j r hj
    rw [hin] at hj
    rcases live_set hj with ⟨-, hj⟩ | ⟨-, hnone⟩
    · exact hj
    · cases hnone
  exact {
    rowed := fun j r hj => (h.rowed j r (hlive j r hj)).grows hgrows
    apart := fun j k r r' hj hk => h.apart j k r r' (hlive j r hj) (hlive k r' hk)
    keyed := fun j r hj => h.keyed j r (hlive j r hj)
    answered := fun j r response hj => h.answered j r response (hlive j r hj) }

theorem Reserved.reserve (h : Reserved env s) (hledger : s.ledger = some table)
    (hr : Reserves env arrival table table' r) :
    Reserved env ⟨some table', s.inFlight ++ [some r]⟩ := by
  have hgrows : Grows s ⟨some table', s.inFlight ++ [some r]⟩ :=
    step_grows (Stepped.reserved arrival table table' r hledger hr)
  have hfresh := not_rowed_of_reserves hledger hr
  refine ⟨?_, ?_, ?_, ?_⟩
  · intro i a ha
    rcases live_append.mp ha with ha | ⟨-, heq⟩
    · exact (h.rowed i a ha).grows hgrows
    · obtain rfl := Option.some.inj heq
      refine ⟨table', reservation r.key r.now, rfl, ?_⟩
      rw [get?_reserved hr.inserted, if_pos rfl]
  · -- the pair of the new request had no row, so no earlier request has it
    intro i j a b ha hb hpair
    rcases live_append.mp ha with ha | ⟨hi, heq⟩
    · rcases live_append.mp hb with hb | ⟨-, heq⟩
      · exact h.apart i j a b ha hb hpair
      · obtain rfl := Option.some.inj heq
        exact absurd (hpair ▸ h.rowed i a ha) hfresh
    · obtain rfl := Option.some.inj heq
      rcases live_append.mp hb with hb | ⟨hj, -⟩
      · exact absurd (hpair ▸ h.rowed j b hb) hfresh
      · rw [hi, hj]
  · intro i a ha
    rcases live_append.mp ha with ha | ⟨-, heq⟩
    · exact h.keyed i a ha
    · obtain rfl := Option.some.inj heq
      exact hr.key
  · intro i a response ha hresponse
    rcases live_append.mp ha with ha | ⟨-, heq⟩
    · exact h.answered i a response ha hresponse
    · obtain rfl := Option.some.inj heq
      rw [hr.waiting] at hresponse
      cases hresponse

theorem Reserved.dispatch (h : Reserved env s)
    (hr : Live s.inFlight i r) (outcome : RuntimeOutcome Res) :
    Reserved env ⟨s.ledger, s.inFlight.set i
      (some { r with response := some (dispatchResponse r.rpc.id outcome) })⟩ := by
  -- every request was there before, up to its response
  have hlive : ∀ j a, Live (s.inFlight.set i
      (some { r with response := some (dispatchResponse r.rpc.id outcome) })) j a →
      ∃ b, Live s.inFlight j b ∧ a.scope = b.scope ∧ a.rpc = b.rpc ∧ a.key = b.key ∧
        (a = b ∨ a.response = some (dispatchResponse a.rpc.id outcome)) := by
    intro j a ha
    rcases live_set ha with ⟨-, ha⟩ | ⟨rfl, heq⟩
    · exact ⟨a, ha, rfl, rfl, rfl, Or.inl rfl⟩
    · obtain rfl := Option.some.inj heq
      exact ⟨r, hr, rfl, rfl, rfl, Or.inr rfl⟩
  refine ⟨?_, ?_, ?_, ?_⟩
  · intro j a ha
    obtain ⟨b, hb, -, -, hkey, -⟩ := hlive j a ha
    rw [hkey]
    exact h.rowed j b hb
  · intro j k a a' ha ha' hpair
    obtain ⟨b, hb, -, -, hkey, -⟩ := hlive j a ha
    obtain ⟨b', hb', -, -, hkey', -⟩ := hlive k a' ha'
    rw [hkey, hkey'] at hpair
    exact h.apart j k b b' hb hb' hpair
  · intro j a ha
    obtain ⟨b, hb, hscope, hrpc, hkey, -⟩ := hlive j a ha
    rw [hscope, hrpc, hkey]
    exact h.keyed j b hb
  · intro j a response ha hresponse
    obtain ⟨b, hb, -, -, -, rfl | hsent⟩ := hlive j a ha
    · exact h.answered j a response hb hresponse
    · rw [hsent, Option.some.injEq] at hresponse
      exact ⟨outcome, hresponse.symm⟩

theorem Reserved.step (hstep : Stepped env s e s' effect) (h : Reserved env s) :
    Reserved env s' := by
  have hgrows := step_grows hstep
  cases hstep with
  | answered | nothing => exact h
  | reserved arrival table table' r hledger hr => exact h.reserve hledger hr
  | dispatched i outcome r hr => exact h.dispatch hr outcome
  | completed | crashed => exact h.drop hgrows rfl

theorem reserved_run (ledger : Option LedgerTable) (is : List (Event Res)) :
    Reserved env ((service env).run ⟨ledger, []⟩ is) :=
  (service env).run_invariant (P := Reserved env) (fun s e h => h.step (step_stepped s e)) is
    (reserved_start ledger)

/-! ### Dispatches -/

/-- The pair has been dispatched: it has a row, and no request of it waits for its dispatch. -/
structure Spent (pair : String × String) (s : ServiceState Req Res) : Prop where
  rowed : Rowed s pair
  sent : ∀ i r, Live s.inFlight i r → r.key.pair = pair → r.response ≠ none

theorem spent_of_dispatched {outcome : RuntimeOutcome Res}
    (h : Reserved env s) (hr : Live s.inFlight i r) :
    Spent r.key.pair (⟨s.ledger, s.inFlight.set i
      (some { r with response := some (dispatchResponse r.rpc.id outcome) })⟩ :
        ServiceState Req Res) := by
  refine ⟨h.rowed i r hr, fun j a ha hpair => ?_⟩
  rcases live_set ha with ⟨hji, ha⟩ | ⟨-, heq⟩
  · exact absurd (h.apart j i a r ha hr hpair) hji
  · obtain rfl := Option.some.inj heq
    exact Option.some_ne_none _

theorem Spent.step (hstep : Stepped env s e s' effect) (h : Spent pair s) :
    Spent pair s' := by
  have hrowed := h.rowed.grows (step_grows hstep)
  cases hstep with
  | answered | nothing => exact h
  | reserved arrival table table' r hledger hr =>
    refine ⟨hrowed, fun i a ha hpair => ?_⟩
    rcases live_append.mp ha with ha | ⟨-, heq⟩
    · exact h.sent i a ha hpair
    · obtain rfl := Option.some.inj heq
      exact absurd (hpair ▸ h.rowed) (not_rowed_of_reserves hledger hr)
  | dispatched i outcome r hr =>
    refine ⟨hrowed, fun j a ha hpair => ?_⟩
    rcases live_set ha with ⟨-, ha⟩ | ⟨-, heq⟩
    · exact h.sent j a ha hpair
    · obtain rfl := Option.some.inj heq
      exact Option.some_ne_none _
  | completed i | crashed i =>
    refine ⟨hrowed, fun j a ha hpair => ?_⟩
    rcases live_set ha with ⟨-, ha⟩ | ⟨-, heq⟩
    · exact h.sent j a ha hpair
    · cases heq

theorem Spent.run (h : Spent pair s) (is : List (Event Res)) :
    Spent pair ((service env).run s is) :=
  (service env).run_invariant (P := Spent pair) (fun s e h => h.step (step_stepped s e)) is h

/-- A dispatch is of a request in flight that waits for it, and leaves its pair spent. -/
theorem dispatched_cases (h : Stepped env s e s' (.dispatched r)) :
    ∃ i, Live s.inFlight i r ∧ r.response = none ∧ (Reserved env s → Spent r.key.pair s') := by
  cases h with
  | dispatched i outcome _ hr hwaiting =>
    exact ⟨i, hr, hwaiting, fun hreserved => spent_of_dispatched hreserved hr⟩

variable {is : List (Event Res)}

theorem stepped_of_answers {k : ℕ} {i : Event Res} {o : Effect Req Res}
    (h : (service env).Answers s is k i o) :
    Stepped env ((service env).run s (is.take k)) i
      (step env ((service env).run s (is.take k)) i).1 o := by
  have hans : (step env ((service env).run s (is.take k)) i).2 = o := h.2
  rw [← hans]
  exact step_stepped _ i

theorem not_dispatched_twice {k l : ℕ} {i j : Event Res}
    {r' : InFlight Req Res} (h : (service env).Answers start is k i (.dispatched r))
    (h' : (service env).Answers start is l j (.dispatched r')) (hkl : k < l) :
    r.key.pair ≠ r'.key.pair := by
  intro hpair
  obtain ⟨-, -, -, hspent⟩ := dispatched_cases (stepped_of_answers h)
  obtain ⟨m, hlive, hwaiting, -⟩ := dispatched_cases (stepped_of_answers h')
  obtain ⟨js, hrun⟩ := h.run_take hkl
  have hlater : Spent r.key.pair ((service env).run _ js) := (hspent (reserved_run _ _)).run js
  rw [hrun] at hlive
  exact hlater.sent m r' hlive hpair.symm hwaiting

/-! ### Repeated requests -/

/-- A request of the caller of `r` with the idempotency key of `r`. -/
structure Repeats (env : RpcEnv Req Res) (r : InFlight Req Res) (arrival : Arrival Res)
    (rpc : JsonRpcRequest) : Prop where
  scope : arrival.scope = r.scope
  mutating : Mutating env arrival rpc r.key.requestId

theorem new_of_validate (h : key.validate = .ok ()) :
    RpcRequestKey.new key.scope key.requestId key.method key.requestDigest = .ok key := by
  simp only [RpcRequestKey.new, bind_eq_ok, pure_eq_ok, and_true]
  exact ⟨(), h⟩

theorem answer_of_begin (h : Mutating env arrival rpc key.requestId)
    (hkey : key = lookupKey env arrival.scope rpc key.requestId) (hvalid : key.validate = .ok ())
    (hledger : s.ledger = some table) {outcome : RpcBegin} {response : JsonRpcResponse Res}
    (hbegin : beginRequest table key arrival.now = .ok (table, outcome))
    (houtcome : (outcome = .conflict ∧ response = .idempotencyError rpc.id "idempotency_conflict") ∨
      ∃ text, outcome = .replay text ∧ env.readResponse text = some response) :
    (step env s (.arrive arrival)).2 = .answered (some rpc.id) response := by
  obtain ⟨request, hbeginRpc⟩ := beginRpc_mutating h s.ledger
  have hid := requestId_mutating h
  have hnew : RpcRequestKey.new (scopeKey env arrival.scope) key.requestId rpc.method
      (digestRequest env rpc.method rpc.params) = .ok key := by
    have hnew := new_of_validate hvalid
    rw [hkey] at hnew ⊢
    exact hnew
  have hanswered : beginMutating env s.ledger arrival.scope rpc request arrival.now =
      (some table, .answered response) := by
    unfold beginMutating
    rw [hledger]
    dsimp only
    rw [h.keyed]
    dsimp only
    rw [hnew]
    dsimp only
    rw [hbegin]
    rcases houtcome with ⟨rfl, rfl⟩ | ⟨text, rfl, hread⟩
    · rfl
    · dsimp only
      rw [hread]
      rfl
  simp only [step, hbeginRpc, hanswered, hid]

/-- What a request of the run is read as. -/
def Asked (env : RpcEnv Req Res) (is : List (Event Res)) (rpc : JsonRpcRequest) : Prop :=
  ∃ arrival, .arrive arrival ∈ is ∧ env.readRequest arrival.body = some rpc

/-- SHA-256 has no collision among the requests of the run, and `serde_json` does not write
different parameters alike. -/
structure CollisionFree (env : RpcEnv Req Res) (is : List (Event Res)) : Prop where
  digest : ∀ {a b}, Asked env is a → Asked env is b →
    env.sha256 (requestMessage env a.method a.params) =
      env.sha256 (requestMessage env b.method b.params) →
    requestMessage env a.method a.params = requestMessage env b.method b.params
  params : ∀ {a b}, Asked env is a → Asked env is b →
    env.writeParams a.params = env.writeParams b.params → a.params = b.params

theorem CollisionFree.eq_of_digest (h : CollisionFree env is)
    {a b : JsonRpcRequest} (ha : Asked env is a) (hb : Asked env is b)
    (hmethod : a.method = b.method)
    (hdigest : digestRequest env a.method a.params = digestRequest env b.method b.params) :
    a.params = b.params := by
  have hsha := Bytes32.ext_bytes (hex_inj hdigest)
  have hmessage := h.digest ha hb hsha
  unfold requestMessage at hmessage
  rw [hmethod, List.append_cancel_left_eq] at hmessage
  exact h.params ha hb hmessage

theorem asked_of_answers {l : ℕ} {o : Effect Req Res}
    (h : (service env).Answers s is l (.arrive arrival) o)
    (hread : env.readRequest arrival.body = some rpc) : Asked env is rpc :=
  ⟨arrival, List.mem_of_getElem? h.1, hread⟩

theorem reserved_cases (h : Stepped env s e s' (.reserved r)) :
    ∃ arrival table, e = .arrive arrival ∧ Mutating env arrival r.rpc r.key.requestId ∧
      r.key = lookupKey env r.scope r.rpc r.key.requestId ∧ r.key.validate = .ok () ∧
      s'.ledger = some table ∧ table.get? r.key.pair = some (reservation r.key r.now) := by
  cases h with
  | reserved arrival table table' _ hledger hr =>
    refine ⟨arrival, table', rfl, hr.mutating, hr.key, hr.valid, rfl, ?_⟩
    rw [get?_reserved hr.inserted, if_pos rfl]

/-- A request that is answered with what the runtime answered leaves it in its row. -/
theorem completed_cases {response : JsonRpcResponse Res}
    (hreserved : Reserved env s) (h : Stepped env s e s' (.completed r response))
    (hdispatched : r.response = some response) :
    ∃ i table row text, Live s.inFlight i r ∧ s'.ledger = some table ∧
      table.get? r.key.pair = some row ∧ row.sameRequest r.key ∧ row.state = .completed ∧
      row.response = some text ∧ env.writeResponse response = some text ∧
      r.key.validate = .ok () := by
  generalize heffect : Effect.completed r response = effect at h
  cases h with
  | answered | reserved | dispatched | crashed | nothing => cases heffect
  | completed i r₀ response₀ hlive hresponse =>
    obtain ⟨rfl, hanswer⟩ := Effect.completed.inj heffect
    obtain rfl := Option.some.inj (hresponse.symm.trans hdispatched)
    obtain ⟨outcome, hout⟩ := hreserved.answered i r _ hlive hresponse
    have hne : response₀ ≠ .idempotencyError r.rpc.id "idempotency_completion_failed" := by
      rw [hout]
      rcases outcome with code | result
      · intro heq
        have hcode : (-32603 : ℤ) = -32001 :=
          Option.some.inj (congrArg (fun x => x.error.map JsonRpcError.code) heq)
        exact absurd hcode (by decide)
      · intro heq
        cases heq
    rcases completeMutating_cases env s.ledger r response₀ with
      hfailed | ⟨_, table', text, htable', hwrite, hcomplete, hdone⟩
    · rw [hfailed] at hanswer
      exact absurd hanswer hne
    rw [hdone]
    obtain ⟨-, -, row, hrow, hsame, hstate, htext⟩ := completeRequest_cases hcomplete
    exact ⟨i, table', row, text, hlive, rfl, hrow, hsame, hstate, htext, hwrite,
      validate_of_complete hcomplete⟩

/-- **Mutating requests run at most once**, in every run on one ledger, with crashes anywhere: a
caller's idempotency key is dispatched at most once, is in conflict with another method or other
parameters, and once it has been answered, every request with it gets that answer. -/
theorem mutating_runs_once (env : RpcEnv Req Res) (is : List (Event Res))
    (hfree : CollisionFree env is) :
    (∀ k l i j r r', (service env).Answers start is k i (.dispatched r) →
      (service env).Answers start is l j (.dispatched r') → r.scope = r'.scope →
      r.key.requestId = r'.key.requestId → k = l) ∧
    (∀ k l i r arrival rpc o, k < l → (service env).Answers start is k i (.reserved r) →
      (service env).Answers start is l (.arrive arrival) o → Repeats env r arrival rpc →
      (rpc.method ≠ r.rpc.method ∨ rpc.params ≠ r.rpc.params) →
      o = .answered (some rpc.id) (.idempotencyError rpc.id "idempotency_conflict")) ∧
    (∀ k l i r response arrival rpc o, k < l →
      (service env).Answers start is k i (.completed r response) → r.response = some response →
      (∀ text, env.writeResponse response = some text → env.readResponse text = some response) →
      (service env).Answers start is l (.arrive arrival) o → Repeats env r arrival rpc →
      rpc.method = r.rpc.method → rpc.params = r.rpc.params →
      o = .answered (some rpc.id) response) := by
  refine ⟨?_, ?_, ?_⟩
  · intro k l i j r r' h h' hscope hkey
    have hpair : r.key.pair = r'.key.pair := by
      obtain ⟨m, hlive, -⟩ := dispatched_cases (stepped_of_answers h)
      obtain ⟨m', hlive', -⟩ := dispatched_cases (stepped_of_answers h')
      rw [(reserved_run _ _).keyed m r hlive, (reserved_run _ _).keyed m' r' hlive', hscope, hkey]
      rfl
    rcases Nat.lt_trichotomy k l with hkl | hkl | hkl
    · exact absurd hpair (not_dispatched_twice h h' hkl)
    · exact hkl
    · exact absurd hpair.symm (not_dispatched_twice h' h hkl)
  · intro k l i r arrival rpc o hkl h h' hrepeats hother
    obtain ⟨first, table, rfl, hmutating, hkey, hvalid, htable, hrow⟩ :=
      reserved_cases (stepped_of_answers h)
    obtain ⟨js, hrun⟩ := h.run_take hkl
    obtain ⟨table', row, htable', hrow', hkept⟩ := row_kept env htable hrow js
    have hpair : (lookupKey env arrival.scope rpc r.key.requestId).pair = r.key.pair := by
      rw [hrepeats.scope, hkey]
      rfl
    have hnot : ¬ row.sameRequest (lookupKey env arrival.scope rpc r.key.requestId) := by
      rintro ⟨hmethod, hdigest⟩
      rw [hkept.method] at hmethod
      rw [hkept.requestDigest] at hdigest
      have hsame : r.rpc.method = rpc.method := by
        rw [hkey] at hmethod
        exact hmethod
      rw [hkey] at hdigest
      have hparams := hfree.eq_of_digest (asked_of_answers h hmutating.read)
        (asked_of_answers h' hrepeats.mutating.read) hsame hdigest
      rcases hother with hne | hne
      · exact hne hsame.symm
      · exact hne hparams.symm
    have hagain : (lookupKey env arrival.scope rpc r.key.requestId).validate = .ok () :=
      (validate_of_new (new_lookupKey (requestId_of_validate hvalid) hrepeats.mutating.mutating)).1
    have hbegin := beginRequest_conflict hagain arrival.now_lt (hpair ▸ hrow') hnot
    have hmutating' : Mutating env arrival rpc
        (lookupKey env arrival.scope rpc r.key.requestId).requestId := hrepeats.mutating
    have hans := answer_of_begin hmutating' rfl hagain htable' hbegin (Or.inl ⟨rfl, rfl⟩)
    rw [← h'.2, hrun]
    exact hans
  · intro k l i r response arrival rpc o hkl h hdispatched hread h' hrepeats hmethod hparams
    obtain ⟨m, table, row, text, hlive, htable, hrow, hsame, hstate, htext, hwrite, hvalid⟩ :=
      completed_cases (reserved_run _ _) (stepped_of_answers h) hdispatched
    have hkey := (reserved_run _ _).keyed m r hlive
    obtain ⟨js, hrun⟩ := h.run_take hkl
    obtain ⟨table', row', htable', hrow', hkept⟩ := row_kept env htable hrow js
    obtain rfl := hkept.completed hstate
    have hagain : r.key = lookupKey env arrival.scope rpc r.key.requestId := by
      unfold lookupKey
      rw [hrepeats.scope, hmethod, hparams]
      exact hkey
    have hbegin := beginRequest_replay hvalid arrival.now_lt hrow' hsame hstate htext
    have hans := answer_of_begin hrepeats.mutating hagain hvalid htable' hbegin
      (Or.inr ⟨text, rfl, hread text hwrite⟩)
    rw [← h'.2, hrun]
    exact hans

/-! ### A request that is sent again -/

def sampleRequest (id task : String) : JsonRpcRequest :=
  ⟨"2.0", .number id, "run.execute", .object [("task", .string task)], some (.string "operation-a")⟩

def sampleBody (id task : String) : List UInt8 :=
  asBytes ("\x7b\"jsonrpc\":\"2.0\",\"id\":" ++ id ++
    ",\"idempotency_key\":\"operation-a\",\"method\":\"run.execute\",\"params\":\x7b\"task\":\"" ++
    task ++ "\"\x7d\x7d")

def sampleResponse (id : String) : JsonRpcResponse Unit :=
  .runtimeError (.number id) "runtime_execution_failed"

def sampleText (id : String) : String :=
  "\x7b\"jsonrpc\":\"2.0\",\"id\":" ++ id ++ ",\"error\":\x7b\"code\":-32603,\"message\":" ++
    "\"runtime error\",\"data\":\x7b\"code\":\"runtime_execution_failed\"\x7d\x7d\x7d"

/-- SHA-256 on the scope and on the two requests that occur below. -/
def sampleSha : Sha256 := fun message =>
  if message.length = 51 then
    ⟨[177, 38, 89, 221, 76, 209, 128, 52, 192, 216, 118, 62, 173, 14, 140, 81, 137, 46, 222, 48,
      185, 103, 28, 96, 119, 83, 223, 105, 154, 36, 130, 70], rfl⟩
  else if message.length = 28 then
    ⟨[9, 137, 74, 135, 180, 167, 55, 231, 129, 55, 119, 48, 211, 144, 234, 206, 149, 238, 4, 34,
      233, 40, 24, 133, 26, 235, 243, 130, 160, 38, 98, 212], rfl⟩
  else
    ⟨[29, 13, 238, 164, 114, 249, 70, 130, 160, 173, 225, 160, 117, 163, 120, 109, 158, 150, 49, 30,
      79, 14, 139, 7, 235, 117, 125, 175, 245, 114, 159, 58], rfl⟩

/-- The ids and the tasks of the requests that occur below. -/
def sampleIds : List (String × String) := [("1", "guide"), ("2", "guide"), ("3", "review")]

/-- The service, on the requests and the responses that occur below. -/
def sampleEnv : RpcEnv String Unit where
  sha256 := sampleSha
  readRequest body := (sampleIds.find? fun p => sampleBody p.1 p.2 = body).map fun p =>
    sampleRequest p.1 p.2
  plainRequest := id
  decodeParams _ params := match params with
    | .object [("task", .string task)] => some task
    | _ => none
  writeScope scope := asBytes ("[\"" ++ scope.1 ++ "\",\"" ++ scope.2.1 ++ "\",\"" ++ scope.2.2.1 ++
    "\",\"" ++ scope.2.2.2 ++ "\"]")
  writeParams params := match params with
    | .object [("task", .string task)] => asBytes ("\x7b\"task\":\"" ++ task ++ "\"\x7d")
    | _ => asBytes "null"
  writeResponse response := match response.id with
    | .number id => some (sampleText id)
    | _ => none
  readResponse text := (sampleIds.find? fun p => sampleText p.1 = text).map fun p =>
    sampleResponse p.1
  isJson _ := true

def sampleScope : RuntimeServiceScope :=
  ⟨.ofLiteral "principal-1", .ofLiteral "tenant-1", .ofLiteral "workspace-1", .operator⟩

def sampleArrival (id task : String) : Arrival Unit :=
  ⟨sampleScope, sampleBody id task, 1000, by decide, .ok ()⟩

/-- A request that is answered, the same operation again under another id, and another operation
with the same key. -/
def retried : List (Event Unit) :=
  [.arrive (sampleArrival "1" "guide"), .dispatch 0 (.error "runtime_execution_failed"),
    .complete 0, .arrive (sampleArrival "2" "guide"), .arrive (sampleArrival "3" "review")]

def sampleKey : RpcRequestKey :=
  ⟨"b12659dd4cd18034c0d8763ead0e8c51892ede30b9671c607753df699a248246", "operation-a", "run.execute",
    "09894a87b4a737e781377730d390eace95ee0422e92818851aebf382a02662d4"⟩

/-- The first request, before it is dispatched. -/
def sampleInFlight : InFlight String Unit :=
  ⟨sampleScope, sampleRequest "1" "guide", sampleKey, "guide", 1000, none⟩

theorem sample_collisionFree : CollisionFree sampleEnv retried := by
  have hread : ∀ a, Asked sampleEnv retried a → a ∈ sampleIds.map fun p =>
    sampleRequest p.1 p.2 := by
    rintro a ⟨arrival, -, hread⟩
    obtain ⟨p, hp, rfl⟩ := Option.map_eq_some_iff.mp hread
    exact List.mem_map_of_mem (List.mem_of_find?_eq_some hp)
  have hdigest : ∀ a ∈ sampleIds.map fun p => sampleRequest p.1 p.2,
      ∀ b ∈ sampleIds.map fun p => sampleRequest p.1 p.2,
      sampleEnv.sha256 (requestMessage sampleEnv a.method a.params) =
        sampleEnv.sha256 (requestMessage sampleEnv b.method b.params) →
      requestMessage sampleEnv a.method a.params = requestMessage sampleEnv b.method b.params := by
    decide +kernel
  have hparams : ∀ a ∈ sampleIds.map fun p => sampleRequest p.1 p.2,
      ∀ b ∈ sampleIds.map fun p => sampleRequest p.1 p.2,
      sampleEnv.writeParams a.params = sampleEnv.writeParams b.params → a.params = b.params := by
    decide +kernel
  exact ⟨fun ha hb => hdigest _ (hread _ ha) _ (hread _ hb),
    fun ha hb => hparams _ (hread _ ha) _ (hread _ hb)⟩

/-- The operation that is sent again gets the first answer, the other one a conflict. -/
theorem retried_replayed :
    (service sampleEnv).Answers start retried 3 (.arrive (sampleArrival "2" "guide"))
      (.answered (some (.number "2")) (sampleResponse "1")) ∧
    (service sampleEnv).Answers start retried 4 (.arrive (sampleArrival "3" "review"))
      (.answered (some (.number "3"))
        (.idempotencyError (.number "3") "idempotency_conflict")) := by
  obtain ⟨-, hconflict, hreplay⟩ := mutating_runs_once sampleEnv retried sample_collisionFree
  have hreserved : (service sampleEnv).Answers start retried 0
      (.arrive (sampleArrival "1" "guide")) (.reserved sampleInFlight) := ⟨rfl, by decide +kernel⟩
  have hcompleted : (service sampleEnv).Answers start retried 2 (.complete 0)
      (.completed { sampleInFlight with response := some (sampleResponse "1") }
        (sampleResponse "1")) := ⟨rfl, by decide +kernel⟩
  have hagain : Mutating sampleEnv (sampleArrival "2" "guide") (sampleRequest "2" "guide")
      "operation-a" := ⟨by decide +kernel, by decide +kernel, ⟨"guide", rfl⟩, by decide, rfl⟩
  have hother : Mutating sampleEnv (sampleArrival "3" "review") (sampleRequest "3" "review")
      "operation-a" := ⟨by decide +kernel, by decide +kernel, ⟨"review", rfl⟩, by decide, rfl⟩
  have hread : ∀ text, sampleEnv.writeResponse (sampleResponse "1") = some text →
      sampleEnv.readResponse text = some (sampleResponse "1") := by
    intro text htext
    obtain rfl : sampleText "1" = text := Option.some.inj htext
    decide +kernel
  refine ⟨⟨rfl, ?_⟩, ⟨rfl, ?_⟩⟩
  · exact hreplay 2 3 _ _ _ (sampleArrival "2" "guide") (sampleRequest "2" "guide") _ (by omega)
      hcompleted rfl hread ⟨rfl, rfl⟩ ⟨rfl, hagain⟩ rfl rfl
  · exact hconflict 0 4 _ _ (sampleArrival "3" "review") (sampleRequest "3" "review") _ (by omega)
      hreserved ⟨rfl, rfl⟩ ⟨rfl, hother⟩ (Or.inr (by decide))

end Pandora.Service.Idempotency
