import Pandora.Service.Idempotency

/-! # Responses and the ids of their requests

Every response is built from the request it answers, except for one: a replay returns the stored
response of the request that was executed, with the id that one had. A client that sends an
operation again under another id gets a response it cannot tell apart from one to another request.
So the responses of a run are correlated exactly when no completed operation is asked for again
under another id (`Renumbered`). -/

namespace Pandora.Service.Correlation

open Lib.Runs Service.Ledger Service.Rpc Service.Idempotency
open Jobs.Store (Value)

variable {Req Res : Type} {env : RpcEnv Req Res} {s s' : ServiceState Req Res} {e : Event Res}
  {is : List (Event Res)}

/-- The service at its start, with a ledger or without one. -/
def opened (durable : Bool) : ServiceState Req Res := ⟨if durable then some .empty else none, []⟩

/-- Every response carries the id of its request. -/
structure Correlated (env : RpcEnv Req Res) (s : ServiceState Req Res) (is : List (Event Res)) :
    Prop where
  answered : ∀ k i id response,
    (service env).Answers s is k i (.answered (some id) response) → response.id = id
  completed : ∀ k i r response,
    (service env).Answers s is k i (.completed r response) → response.id = r.rpc.id

/-- The arrival at position `l` asks under another id for an operation that has been executed and
answered before: same caller, idempotency key, method and parameters, as the ledger sees them. -/
def Renumbered (env : RpcEnv Req Res) (s : ServiceState Req Res) (is : List (Event Res)) (l : ℕ)
    (arrival : Arrival Res) : Prop :=
  ∃ k i r response rpc, k < l ∧ (service env).Answers s is k i (.completed r response) ∧
    r.response = some response ∧ Mutating env arrival rpc r.key.requestId ∧
    r.key = lookupKey env arrival.scope rpc r.key.requestId ∧ rpc.id ≠ r.rpc.id

/-- What the run stores reads back with the id it was written with. -/
def ReadsBack (env : RpcEnv Req Res) (s : ServiceState Req Res) (is : List (Event Res)) : Prop :=
  ∀ k i r response text, (service env).Answers s is k i (.completed r response) →
    r.response = some response → env.writeResponse response = some text →
    ∃ stored, env.readResponse text = some stored ∧ stored.id = response.id

theorem dispatchResponse_id (id : Value) (outcome : RuntimeOutcome Res) :
    (dispatchResponse id outcome).id = id := by
  rcases outcome with code | result
  · rfl
  · rfl

/-! ### Arrivals -/

/-- The response is the stored one of a completed row. -/
structure Replayed (env : RpcEnv Req Res) (table : LedgerTable) (arrival : Arrival Res)
    (rpc : JsonRpcRequest) (key : RpcRequestKey) (row : LedgerRow) (text : String) : Prop where
  mutating : Mutating env arrival rpc key.requestId
  lookup : key = lookupKey env arrival.scope rpc key.requestId
  found : table.get? key.pair = some row
  same : row.sameRequest key
  state : row.state = .completed
  text : row.response = some text

variable {ledger ledger' : Option LedgerTable} {response : JsonRpcResponse Res}

theorem answered_inj {response' : JsonRpcResponse Res}
    (h : ((ledger, .answered response) : Option LedgerTable × Begun Req Res) =
      (ledger', .answered response')) : response' = response :=
  (Begun.answered.inj (Prod.mk.inj h).2).symm

theorem beginMutating_id {arrival : Arrival Res} {rpc : JsonRpcRequest} {request : Req}
    (hread : env.readRequest arrival.body = some rpc) (hvalid : rpc.isValid)
    (hdecoded : serviceRequest env rpc = .ok (some request))
    (hmutating : isMutatingMethod rpc.method)
    (h : beginMutating env ledger arrival.scope rpc request arrival.now =
      (ledger', .answered response)) :
    response.id = rpc.id ∨ ∃ table key row text, ledger = some table ∧
      Replayed env table arrival rpc key row text ∧ env.readResponse text = some response := by
  unfold beginMutating at h
  rcases ledger with _ | table
  · obtain rfl := answered_inj h
    exact Or.inl rfl
  dsimp only at h
  split at h
  · obtain rfl := answered_inj h
    exact Or.inl rfl
  · rename_i idempotencyKey hkeyed
    rcases hnew : RpcRequestKey.new (scopeKey env arrival.scope) idempotencyKey rpc.method
        (digestRequest env rpc.method rpc.params) with error | key
    · rw [hnew] at h
      obtain rfl := answered_inj h
      exact Or.inl rfl
    obtain ⟨-, rfl⟩ := validate_of_new hnew
    rw [hnew] at h
    dsimp only at h
    rcases hbegin : beginRequest table _ arrival.now with error | ⟨table', outcome⟩
    · rw [hbegin] at h
      obtain rfl := answered_inj h
      exact Or.inl rfl
    rw [hbegin] at h
    rcases beginRequest_cases hbegin with ⟨rfl, -⟩ | ⟨rfl, row, hrow, hcases⟩
    · simp at h
    rcases hcases with ⟨rfl, -⟩ | ⟨-, rfl, -⟩ | ⟨hsame, text, rfl, hstate, htext⟩
    · obtain rfl := answered_inj h
      exact Or.inl rfl
    · obtain rfl := answered_inj h
      exact Or.inl rfl
    · dsimp only at h
      rcases hstored : env.readResponse text with _ | stored
      · rw [hstored] at h
        obtain rfl := answered_inj h
        exact Or.inl rfl
      · rw [hstored] at h
        obtain rfl := answered_inj h
        refine Or.inr ⟨table', _, row, text, rfl, ⟨?_, rfl, hrow, hsame, hstate, htext⟩, hstored⟩
        exact ⟨hread, hvalid, ⟨request, hdecoded⟩, hmutating, hkeyed⟩
  · obtain rfl := answered_inj h
    exact Or.inl rfl

/-- An arrival is answered with its own id, or with a stored response. -/
theorem beginRpc_id {arrival : Arrival Res} {id : Value}
    (h : beginRpc env ledger arrival = (ledger', .answered response))
    (hid : requestId env arrival.body = some id) :
    response.id = id ∨ ∃ table rpc key row text, ledger = some table ∧ rpc.id = id ∧
      Replayed env table arrival rpc key row text ∧ env.readResponse text = some response := by
  unfold beginRpc at h
  unfold requestId at hid
  rcases hread : env.readRequest arrival.body with _ | rpc
  · rw [hread] at hid
    cases hid
  rw [hread] at h hid
  dsimp only at h hid
  by_cases hvalid : rpc.isValid
  · rw [if_pos hvalid, Option.some.injEq] at hid
    subst hid
    rw [if_neg (not_not.mpr hvalid)] at h
    rcases hdecoded : serviceRequest env rpc with ⟨⟨⟩⟩ | _ | request
    · rw [hdecoded] at h
      obtain rfl := answered_inj h
      exact Or.inl rfl
    · rw [hdecoded] at h
      obtain rfl := answered_inj h
      exact Or.inl rfl
    · rw [hdecoded] at h
      dsimp only at h
      by_cases hmutating : isMutatingMethod rpc.method
      · rw [if_pos hmutating] at h
        rcases beginMutating_id hread hvalid hdecoded hmutating h with
          hown | ⟨table, key, row, text, hledger, hreplayed, hstored⟩
        · exact Or.inl hown
        · exact Or.inr ⟨table, rpc, key, row, text, hledger, rfl, hreplayed, hstored⟩
      · rw [if_neg hmutating] at h
        obtain rfl := answered_inj h
        exact Or.inl (dispatchResponse_id _ _)
  · rw [if_neg hvalid] at hid
    cases hid

theorem key_of_row {row : LedgerRow} {key key' : RpcRequestKey} (hpair : key.pair = key'.pair)
    (h : row.sameRequest key) (h' : row.sameRequest key') : key = key' := by
  obtain ⟨hscope, hrequestId⟩ := Prod.mk.inj hpair
  obtain ⟨hmethod, hdigest⟩ := h
  rw [h'.1] at hmethod
  rw [h'.2] at hdigest
  cases key
  cases key'
  simp_all

/-! ### Completed rows -/

/-- Every completed row was written by an earlier request of its key. -/
def Stored (env : RpcEnv Req Res) (s₀ : ServiceState Req Res) (is : List (Event Res))
    (s : ServiceState Req Res) : Prop :=
  ∀ table pair row, s.ledger = some table → table.get? pair = some row → row.state = .completed →
    ∃ k i r response text, (service env).Answers s₀ is k i (.completed r response) ∧
      r.response = some response ∧ r.key.pair = pair ∧ row.sameRequest r.key ∧
      row.response = some text ∧ env.writeResponse response = some text

theorem Stored.append {s₀ : ServiceState Req Res} (h : Stored env s₀ is s) (e : Event Res)
    {table table' : LedgerTable} {pair : String × String} {row : LedgerRow}
    (hledger : s.ledger = some table) (heq : table'.get? pair = table.get? pair)
    (hrow : table'.get? pair = some row) (hstate : row.state = .completed) :
    ∃ k i r response text, (service env).Answers s₀ (is ++ [e]) k i (.completed r response) ∧
      r.response = some response ∧ r.key.pair = pair ∧ row.sameRequest r.key ∧
      row.response = some text ∧ env.writeResponse response = some text := by
  obtain ⟨k, i, r, response, text, hans, hrest⟩ := h table pair row hledger (heq ▸ hrow) hstate
  exact ⟨k, i, r, response, text, hans.append [e], hrest⟩

theorem Stored.step {s₀ : ServiceState Req Res} {effect : Effect Req Res}
    (h : Stored env s₀ is s) (hstep : Stepped env s e s' effect)
    (hans : (service env).Answers s₀ (is ++ [e]) is.length e effect) :
    Stored env s₀ (is ++ [e]) s' := by
  intro table pair row hledger hrow hstate
  cases hstep with
  | answered | dispatched | crashed | nothing => exact h.append _ hledger rfl hrow hstate
  | reserved arrival table₀ table' r hledger₀ hr =>
    obtain rfl := Option.some.inj hledger
    have hget := get?_reserved hr.inserted pair
    by_cases hpair : pair = r.key.pair
    · -- the new row is pending
      rw [if_pos hpair, hrow, Option.some.injEq] at hget
      rw [hget] at hstate
      cases hstate
    · rw [if_neg hpair] at hget
      exact h.append _ hledger₀ hget hrow hstate
  | completed i r response hlive hresponse =>
    rcases completeMutating_cases env s.ledger r response with
      hfailed | ⟨table₀, table', text, hledger₀, hwrite, hcomplete, hdone⟩
    · rw [hfailed] at hledger
      exact h.append _ hledger rfl hrow hstate
    · rw [hdone] at hledger hans
      obtain rfl := Option.some.inj hledger
      obtain ⟨-, hother, row', hrow', hsame, -, htext⟩ := completeRequest_cases hcomplete
      by_cases hpair : pair = r.key.pair
      · subst hpair
        obtain rfl := Option.some.inj (hrow.symm.trans hrow')
        exact ⟨_, _, r, response, text, hans, hresponse, rfl, hsame, htext, hwrite⟩
      · exact h.append _ hledger₀ (hother pair hpair) hrow hstate

theorem stored_run (env : RpcEnv Req Res) (durable : Bool) (is : List (Event Res)) :
    Stored env (opened durable) is ((service env).run (opened durable) is) := by
  refine (service env).run_history (P := Stored env (opened durable)) ?_ ?_ is
  · intro table pair row hledger hrow
    unfold opened at hledger
    cases durable with
    | false => cases hledger
    | true =>
      obtain rfl := Option.some.inj hledger
      cases hrow
  · intro is e h
    exact h.step (step_stepped _ e) (Machine.answers_last rfl)

/-! ### Runs -/

variable {r : InFlight Req Res}

theorem stepped_completed
    (hreserved : Reserved env s) (h : Stepped env s e s' (.completed r response)) :
    response.id = r.rpc.id := by
  generalize heffect : Effect.completed r response = effect at h
  cases h with
  | answered | reserved | dispatched | crashed | nothing => cases heffect
  | completed i r₀ response₀ hlive hresponse =>
    obtain ⟨rfl, hanswer⟩ := Effect.completed.inj heffect
    rcases completeMutating_cases env s.ledger r response₀ with
      hfailed | ⟨_, _, _, -, -, -, hdone⟩
    · rw [hfailed] at hanswer
      rw [hanswer]
      rfl
    · rw [hdone] at hanswer
      obtain ⟨outcome, hout⟩ := hreserved.answered i r response₀ hlive hresponse
      rw [hanswer, hout, dispatchResponse_id]

theorem stepped_answered {id : Option Value} (h : Stepped env s e s' (.answered id response)) :
    ∃ arrival, e = .arrive arrival ∧ id = requestId env arrival.body ∧
      beginRpc env s.ledger arrival = (s.ledger, .answered response) := by
  cases h with
  | answered arrival _ hbegin => exact ⟨arrival, rfl, rfl, hbegin⟩

theorem complete_of_completed
    (h : Stepped env s e s' (.completed r response)) : ∃ i, e = .complete i := by
  generalize heffect : Effect.completed r response = effect at h
  cases h with
  | answered | reserved | dispatched | crashed | nothing => cases heffect
  | completed i => exact ⟨i, rfl⟩

section

variable {durable : Bool}

theorem completed_id {k : ℕ} {i : Event Res}
    (h : (service env).Answers (opened durable) is k i (.completed r response)) :
    response.id = r.rpc.id :=
  stepped_completed (reserved_run _ _) (stepped_of_answers h)

/-- An arrival that is answered under a foreign id is renumbered. -/
theorem answered_id (hread : ReadsBack env (opened durable) is) {l : ℕ} {i : Event Res} {id : Value}
    (h : (service env).Answers (opened durable) is l i (.answered (some id) response)) :
    response.id = id ∨
      ∃ arrival, i = .arrive arrival ∧ Renumbered env (opened durable) is l arrival := by
  have hstored := stored_run env durable (is.take l)
  obtain ⟨arrival, rfl, hid, hbegin⟩ := stepped_answered (stepped_of_answers h)
  rcases beginRpc_id hbegin hid.symm with
    hown | ⟨table, rpc, key, row, text, hledger, rfl, hreplayed, hback⟩
  · exact Or.inl hown
  -- the row was written by an earlier request of the same key
  obtain ⟨k, j, r, first, text', hans, hdispatched, hpair, hsame, htext, hwrite⟩ :=
    hstored table _ row hledger hreplayed.found hreplayed.state
  obtain rfl := Option.some.inj (hreplayed.text.symm.trans htext)
  obtain ⟨stored, hstored', hstoredId⟩ := hread k j r first text hans.of_take hdispatched hwrite
  obtain rfl := Option.some.inj (hback.symm.trans hstored')
  have hkl : k < l := by
    have hlt := hans.lt
    rw [List.length_take] at hlt
    omega
  have hkey : key = r.key := key_of_row hpair.symm hreplayed.same hsame
  by_cases hids : rpc.id = r.rpc.id
  · left
    rw [hstoredId, completed_id hans, hids]
  · right
    subst hkey
    exact ⟨arrival, rfl, k, j, r, first, rpc, hkl, hans.of_take, hdispatched, hreplayed.mutating,
      hreplayed.lookup, hids⟩

end

/-- A request that is answered, and the same request again. -/
def repeated : List (Event Unit) :=
  [.arrive (sampleArrival "1" "guide"), .dispatch 0 (.error "runtime_execution_failed"),
    .complete 0, .arrive (sampleArrival "1" "guide")]

theorem repeated_completed {k : ℕ} {i : Event Unit} {r : InFlight String Unit}
    {response : JsonRpcResponse Unit}
    (h : (service sampleEnv).Answers (opened true) repeated k i (.completed r response)) :
    r.rpc.id = .number "1" ∧ response = sampleResponse "1" := by
  obtain ⟨m, rfl⟩ := complete_of_completed (stepped_of_answers h)
  have hat : ∀ n e, repeated[n]? = some e → e = .complete m → n = 2 ∧ m = 0 := by
    intro n e hget he
    subst he
    rcases n with _ | _ | _ | _ | n
    · cases hget
    · cases hget
    · exact ⟨rfl, (Event.complete.inj (Option.some.inj hget)).symm⟩
    · cases hget
    · cases hget
  obtain ⟨rfl, rfl⟩ := hat k _ h.1 rfl
  have hcompleted : (service sampleEnv).Answers (opened true) repeated 2 (.complete 0)
      (.completed { sampleInFlight with response := some (sampleResponse "1") }
        (sampleResponse "1")) := ⟨rfl, by decide +kernel⟩
  obtain ⟨rfl, rfl⟩ := Effect.completed.inj (h.unique hcompleted).2
  exact ⟨rfl, rfl⟩

end Pandora.Service.Correlation
