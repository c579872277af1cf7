import Pandora.Jobs.Store
import Pandora.Lib.Objects
import Pandora.Lib.Runs
import Pandora.Service.Identity
import Pandora.Service.Ledger

/-! # JSON-RPC requests

`handle_rpc` decodes a request and dispatches it to the runtime; a mutating request is first
reserved in the ledger and its response is stored there before it is returned. The reservation, the
dispatch and the completion are three steps of a machine, so that requests of other connections come
in between, and each step may be the last one of a request (`crash`): it is then lost without an
answer, while the ledger stays.

What `serde_json` reads and writes and the decoders of the parameters are fields of `RpcEnv`; what
the runtime answers comes with each dispatch. -/

namespace Pandora.Service.Rpc

open Text Lib.Objects Lib.Runs
open Jobs.Store (Value)
open Service.Identity Service.Ledger

structure JsonRpcRequest where
  jsonrpc : String
  id : Value
  method : String
  params : Value
  idempotencyKey : Option Value
deriving DecidableEq

/-- `null`, a number or a text. -/
def isCorrelationId : Value → Bool
  | .null | .number _ | .string _ => true
  | _ => false

def JsonRpcRequest.isValid (request : JsonRpcRequest) : Bool :=
  request.jsonrpc = "2.0" ∧ isCorrelationId request.id ∧ ¬ (trim request.method).isEmpty

structure JsonRpcError where
  code : ℤ
  message : String
  data : Option String
deriving DecidableEq

/-- `Res` is the type of the results of the runtime, `ServiceResponse`. -/
structure JsonRpcResponse (Res : Type) where
  jsonrpc : String
  id : Value
  result : Option Res
  error : Option JsonRpcError
deriving DecidableEq

namespace JsonRpcResponse

variable {Res : Type}

def success (id : Value) (result : Res) : JsonRpcResponse Res := ⟨"2.0", id, some result, none⟩

/-- The constructor `error` of the source. -/
def failure (id : Value) (code : ℤ) (message : String) (runtimeCode : Option String) :
    JsonRpcResponse Res :=
  ⟨"2.0", id, none, some ⟨code, message, runtimeCode⟩⟩

def invalidRequest : JsonRpcResponse Res := failure .null (-32600) "invalid request" none
def methodNotFound (id : Value) : JsonRpcResponse Res :=
  failure id (-32601) "method not found" none
def invalidParams (id : Value) : JsonRpcResponse Res := failure id (-32602) "invalid params" none
def runtimeError (id : Value) (code : String) : JsonRpcResponse Res :=
  failure id (-32603) "runtime error" (some code)
def idempotencyError (id : Value) (code : String) : JsonRpcResponse Res :=
  failure id (-32001) "idempotency error" (some code)

end JsonRpcResponse

/-- What the service takes from outside; `Req` is the type of the requests of the runtime,
`ServiceRequest`. -/
structure RpcEnv (Req Res : Type) where
  sha256 : Sha256
  /-- `serde_json::from_slice` of a request. -/
  readRequest : List UInt8 → Option JsonRpcRequest
  /-- The request of a method without parameters. -/
  plainRequest : String → Req
  /-- `deserialize_params` and the constructor of the request of a method. -/
  decodeParams : String → Value → Option Req
  /-- `serde_json::to_vec` of the texts of a scope. -/
  writeScope : String × String × String × String → List UInt8
  /-- `serde_json::to_vec` of the parameters. -/
  writeParams : Value → List UInt8
  /-- `serde_json::to_string` of a response. -/
  writeResponse : JsonRpcResponse Res → Option String
  /-- `serde_json::from_str` of a response. -/
  readResponse : String → Option (JsonRpcResponse Res)
  /-- Whether a text is a JSON value. -/
  isJson : String → Bool

section

variable {Req Res : Type} (env : RpcEnv Req Res)

def mutatingMethods : List String :=
  ["orchestration.cancel", "orchestration.resume", "approval.resolve", "evolution.activate",
    "evolution.rollback", "evolution.rollout.transition", "run.execute", "run.resume",
    "agent.execute", "agent.resume"]

def isMutatingMethod (method : String) : Bool := method ∈ mutatingMethods

/-- The methods without parameters. -/
def plainMethods : List String :=
  ["runtime.health", "runtime.capabilities", "runtime.providers", "runtime.engines",
    "runtime.tools"]

/-- The methods that only read and have parameters. -/
def readingMethods : List String :=
  ["orchestration.list", "orchestration.inspect", "session.list", "session.inspect",
    "session.events", "session.memory", "approval.list", "approval.inspect", "evolution.list",
    "evolution.inspect", "evolution.activations"]

/-- The request for the runtime: `none` for an unknown method, an error for wrong parameters. -/
def serviceRequest (request : JsonRpcRequest) : Except Unit (Option Req) :=
  if request.method ∈ plainMethods then
    match request.params with
    | .null => .ok (some (env.plainRequest request.method))
    | .object [] => .ok (some (env.plainRequest request.method))
    | _ => .error ()
  else if request.method ∈ readingMethods ∨ isMutatingMethod request.method then
    match env.decodeParams request.method request.params with
    | some serviceRequest => .ok (some serviceRequest)
    | none => .error ()
  else .ok none

/-- What the runtime answers: a result, or the code of an error. -/
abbrev RuntimeOutcome (Res : Type) := Except String Res

/-- The response to a dispatched request. -/
def dispatchResponse (id : Value) : RuntimeOutcome Res → JsonRpcResponse Res
  | .ok result => .success id result
  | .error code => .runtimeError id code

/-- A request that reaches the service: the caller, the body, the clock (a signed 64-bit number of
seconds) and what the runtime answers if the request is only read. -/
structure Arrival (Res : Type) where
  scope : RuntimeServiceScope
  body : List UInt8
  now : ℕ
  now_lt : now < 2 ^ 63
  outcome : RuntimeOutcome Res

/-- A mutating request between its reservation and its answer. The response is there once it has
been dispatched. -/
structure InFlight (Req Res : Type) where
  scope : RuntimeServiceScope
  rpc : JsonRpcRequest
  key : RpcRequestKey
  request : Req
  now : ℕ
  response : Option (JsonRpcResponse Res)
deriving DecidableEq

def scopeKey (scope : RuntimeServiceScope) : String :=
  digestBytes env.sha256 (env.writeScope (scope.principalId.text, scope.tenantId.text,
    scope.workspaceId.text, scope.role.asStr))

/-- The bytes of `digest_request`. -/
def requestMessage (method : String) (params : Value) : List UInt8 :=
  asBytes method ++ [0] ++ env.writeParams params

def digestRequest (method : String) (params : Value) : String :=
  hex (env.sha256 (requestMessage env method params)).bytes

/-- What the beginning of `handle_mutating_rpc` leads to: a response, or a reservation to go on
with. -/
inductive Begun (Req Res : Type)
  | answered (response : JsonRpcResponse Res)
  | reserved (request : InFlight Req Res)

/-- `handle_mutating_rpc` up to the answer of the ledger. The ledger may be missing. -/
def beginMutating (ledger : Option LedgerTable) (scope : RuntimeServiceScope) (rpc : JsonRpcRequest)
    (request : Req) (now : ℕ) : Option LedgerTable × Begun Req Res :=
  match ledger with
  | none => (none, .answered (.idempotencyError rpc.id "idempotency_unavailable"))
  | some table =>
    match rpc.idempotencyKey with
    | none => (ledger, .answered (.idempotencyError rpc.id "idempotency_key_required"))
    | some (.string idempotencyKey) =>
      match RpcRequestKey.new (scopeKey env scope) idempotencyKey rpc.method
          (digestRequest env rpc.method rpc.params) with
      | .error _ => (ledger, .answered (.idempotencyError rpc.id "idempotency_key_invalid"))
      | .ok key =>
        match beginRequest table key now with
        | .error _ => (ledger, .answered (.idempotencyError rpc.id "idempotency_unavailable"))
        | .ok (table, .execute) => (some table, .reserved ⟨scope, rpc, key, request, now, none⟩)
        | .ok (table, .replay text) => (some table, .answered ((env.readResponse text).getD
            (.idempotencyError rpc.id "idempotency_replay_invalid")))
        | .ok (table, .inProgress) =>
          (some table, .answered (.idempotencyError rpc.id "idempotency_in_progress"))
        | .ok (table, .conflict) =>
          (some table, .answered (.idempotencyError rpc.id "idempotency_conflict"))
    | some _ => (ledger, .answered (.idempotencyError rpc.id "idempotency_key_invalid"))

/-- `handle_rpc` up to the point where a mutating request is reserved. -/
def beginRpc (ledger : Option LedgerTable) (arrival : Arrival Res) :
    Option LedgerTable × Begun Req Res :=
  match env.readRequest arrival.body with
  | none => (ledger, .answered .invalidRequest)
  | some rpc =>
    if ¬ rpc.isValid then (ledger, .answered .invalidRequest)
    else match serviceRequest env rpc with
      | .ok (some request) =>
        if isMutatingMethod rpc.method then
          beginMutating env ledger arrival.scope rpc request arrival.now
        else (ledger, .answered (dispatchResponse rpc.id arrival.outcome))
      | .ok none => (ledger, .answered (.methodNotFound rpc.id))
      | .error () => (ledger, .answered (.invalidParams rpc.id))

/-- The end of `handle_mutating_rpc`, with the response of the runtime. -/
def completeMutating (ledger : Option LedgerTable) (request : InFlight Req Res)
    (response : JsonRpcResponse Res) : Option LedgerTable × JsonRpcResponse Res :=
  match ledger, env.writeResponse response with
  | some table, some serialized =>
    match completeRequest env.isJson table request.key serialized request.now with
    | .ok table => (some table, response)
    | .error _ => (ledger, .idempotencyError request.rpc.id "idempotency_completion_failed")
  | _, _ => (ledger, .idempotencyError request.rpc.id "idempotency_completion_failed")

/-! ### The machine -/

/-- The ledger and the mutating requests that have been reserved, by the order of their
reservations. -/
structure ServiceState (Req Res : Type) where
  ledger : Option LedgerTable
  inFlight : List (Option (InFlight Req Res))

inductive Event (Res : Type)
  | arrive (arrival : Arrival Res)
  | dispatch (i : ℕ) (outcome : RuntimeOutcome Res)
  | complete (i : ℕ)
  | crash (i : ℕ)

/-- What a step does outside: an answer to the client of a request, a dispatch to the runtime, or
nothing. -/
inductive Effect (Req Res : Type)
  | answered (id : Option Value) (response : JsonRpcResponse Res)
  | reserved (request : InFlight Req Res)
  | dispatched (request : InFlight Req Res)
  | completed (request : InFlight Req Res) (response : JsonRpcResponse Res)
  | nothing
deriving DecidableEq

/-- The id of a body that is a valid request. -/
def requestId (body : List UInt8) : Option Value :=
  match env.readRequest body with
  | some rpc => if rpc.isValid then some rpc.id else none
  | none => none

def step (s : ServiceState Req Res) : Event Res → ServiceState Req Res × Effect Req Res
  | .arrive arrival =>
    let (ledger, begun) := beginRpc env s.ledger arrival
    match begun with
    | .answered response => ({ s with ledger }, .answered (requestId env arrival.body) response)
    | .reserved request => (⟨ledger, s.inFlight ++ [some request]⟩, .reserved request)
  | .dispatch i outcome =>
    match s.inFlight[i]?.join with
    | some request =>
      if request.response.isNone then
        let sent := { request with response := some (dispatchResponse request.rpc.id outcome) }
        ({ s with inFlight := s.inFlight.set i (some sent) }, .dispatched request)
      else (s, .nothing)
    | none => (s, .nothing)
  | .complete i =>
    match s.inFlight[i]?.join with
    | some request =>
      match request.response with
      | some response =>
        let (ledger, response) := completeMutating env s.ledger request response
        (⟨ledger, s.inFlight.set i none⟩, .completed request response)
      | none => (s, .nothing)
    | none => (s, .nothing)
  | .crash i => ({ s with inFlight := s.inFlight.set i none }, .nothing)

def service : Machine (ServiceState Req Res) (Event Res) (Effect Req Res) := ⟨step env⟩

/-! ### What a step does -/

/-- The arrival is a mutating request with the given idempotency key. -/
structure Mutating (arrival : Arrival Res) (rpc : JsonRpcRequest) (idempotencyKey : String) :
    Prop where
  read : env.readRequest arrival.body = some rpc
  valid : rpc.isValid
  decoded : ∃ request, serviceRequest env rpc = .ok (some request)
  mutating : isMutatingMethod rpc.method
  keyed : rpc.idempotencyKey = some (.string idempotencyKey)

/-- The key a request of a caller is looked up with. -/
def lookupKey (scope : RuntimeServiceScope) (rpc : JsonRpcRequest) (idempotencyKey : String) :
    RpcRequestKey :=
  ⟨scopeKey env scope, idempotencyKey, rpc.method, digestRequest env rpc.method rpc.params⟩

/-- A reservation: the pair had no row, and the request is a mutating one. -/
structure Reserves (arrival : Arrival Res) (table table' : LedgerTable) (r : InFlight Req Res) :
    Prop where
  scope : r.scope = arrival.scope
  key : r.key = lookupKey env r.scope r.rpc r.key.requestId
  mutating : Mutating env arrival r.rpc r.key.requestId
  valid : r.key.validate = .ok ()
  fresh : table.get? r.key.pair = none
  inserted : table.insert? (reservation r.key r.now) = some table'
  waiting : r.response = none

variable {env} {s : ServiceState Req Res}

variable {arrival : Arrival Res} {rpc : JsonRpcRequest}

theorem beginMutating_cases {ledger : Option LedgerTable} {request : Req}
    (hread : env.readRequest arrival.body = some rpc)
    (hvalid : rpc.isValid) (hdecoded : serviceRequest env rpc = .ok (some request))
    (hmutating : isMutatingMethod rpc.method) :
    (∃ response, beginMutating env ledger arrival.scope rpc request arrival.now =
      (ledger, .answered response)) ∨
    (∃ table table' r, ledger = some table ∧ Reserves env arrival table table' r ∧
      beginMutating env ledger arrival.scope rpc request arrival.now =
        (some table', .reserved r)) := by
  unfold beginMutating
  rcases ledger with _ | table
  · exact Or.inl ⟨_, rfl⟩
  dsimp only
  split
  · exact Or.inl ⟨_, rfl⟩
  · rename_i idempotencyKey hkeyed
    rcases hnew : RpcRequestKey.new (scopeKey env arrival.scope) idempotencyKey rpc.method
        (digestRequest env rpc.method rpc.params) with e | key
    · exact Or.inl ⟨_, rfl⟩
    obtain ⟨hkeyValid, rfl⟩ := validate_of_new hnew
    dsimp only
    rcases hbegin : beginRequest table _ arrival.now with e | ⟨table', outcome⟩
    · exact Or.inl ⟨_, rfl⟩
    rcases beginRequest_cases hbegin with ⟨rfl, hfresh, hinsert⟩ | ⟨rfl, row, hrow, h⟩
    · refine Or.inr ⟨table, table', _, rfl, ?_, rfl⟩
      exact ⟨rfl, rfl, ⟨hread, hvalid, ⟨request, hdecoded⟩, hmutating, hkeyed⟩, hkeyValid, hfresh,
        hinsert, rfl⟩
    · refine Or.inl ?_
      rcases h with ⟨rfl, -⟩ | ⟨-, rfl, -⟩ | ⟨-, _, rfl, -⟩
      all_goals exact ⟨_, rfl⟩
  · exact Or.inl ⟨_, rfl⟩

/-- An arrival is answered and leaves the ledger, or reserves a row. -/
theorem beginRpc_cases (env : RpcEnv Req Res) (ledger : Option LedgerTable)
    (arrival : Arrival Res) :
    (∃ response, beginRpc env ledger arrival = (ledger, .answered response)) ∨
    (∃ table table' r, ledger = some table ∧ Reserves env arrival table table' r ∧
      beginRpc env ledger arrival = (some table', .reserved r)) := by
  unfold beginRpc
  rcases hread : env.readRequest arrival.body with _ | rpc
  · exact Or.inl ⟨_, rfl⟩
  dsimp only
  by_cases hvalid : rpc.isValid
  · rw [if_neg (not_not.mpr hvalid)]
    rcases hdecoded : serviceRequest env rpc with ⟨⟨⟩⟩ | _ | request
    · exact Or.inl ⟨_, rfl⟩
    · exact Or.inl ⟨_, rfl⟩
    · dsimp only
      by_cases hmutating : isMutatingMethod rpc.method
      · rw [if_pos hmutating]
        exact beginMutating_cases hread hvalid hdecoded hmutating
      · rw [if_neg hmutating]
        exact Or.inl ⟨_, rfl⟩
  · rw [if_pos hvalid]
    exact Or.inl ⟨_, rfl⟩

theorem beginRpc_mutating {idempotencyKey : String}
    (h : Mutating env arrival rpc idempotencyKey) (ledger : Option LedgerTable) :
    ∃ request, beginRpc env ledger arrival =
      beginMutating env ledger arrival.scope rpc request arrival.now := by
  obtain ⟨request, hdecoded⟩ := h.decoded
  refine ⟨request, ?_⟩
  unfold beginRpc
  rw [h.read]
  dsimp only
  rw [if_neg (not_not.mpr h.valid), hdecoded]
  exact if_pos h.mutating

theorem requestId_mutating {idempotencyKey : String} (h : Mutating env arrival rpc idempotencyKey) :
    requestId env arrival.body = some rpc.id := by
  unfold requestId
  rw [h.read]
  exact if_pos h.valid

/-- A request is completed in the ledger, or its client is told that it could not be. -/
theorem completeMutating_cases (env : RpcEnv Req Res) (ledger : Option LedgerTable)
    (r : InFlight Req Res) (response : JsonRpcResponse Res) :
    (completeMutating env ledger r response =
      (ledger, .idempotencyError r.rpc.id "idempotency_completion_failed")) ∨
    (∃ table table' text, ledger = some table ∧ env.writeResponse response = some text ∧
      completeRequest env.isJson table r.key text r.now = .ok table' ∧
      completeMutating env ledger r response = (some table', response)) := by
  unfold completeMutating
  rcases ledger with _ | table
  · exact Or.inl rfl
  rcases hwrite : env.writeResponse response with _ | text
  · exact Or.inl rfl
  dsimp only
  rcases hcomplete : completeRequest env.isJson table r.key text r.now with error | table'
  · exact Or.inl rfl
  · exact Or.inr ⟨table, table', text, rfl, rfl, hcomplete, rfl⟩

/-- What an event can do in a state. -/
inductive Stepped (env : RpcEnv Req Res) (s : ServiceState Req Res) :
    Event Res → ServiceState Req Res → Effect Req Res → Prop
  | answered (arrival : Arrival Res) (response : JsonRpcResponse Res) :
      beginRpc env s.ledger arrival = (s.ledger, .answered response) →
      Stepped env s (.arrive arrival) s (.answered (requestId env arrival.body) response)
  | reserved (arrival : Arrival Res) (table table' : LedgerTable) (r : InFlight Req Res) :
      s.ledger = some table → Reserves env arrival table table' r →
      Stepped env s (.arrive arrival) ⟨some table', s.inFlight ++ [some r]⟩ (.reserved r)
  | dispatched (i : ℕ) (outcome : RuntimeOutcome Res) (r : InFlight Req Res) :
      Live s.inFlight i r → r.response = none →
      Stepped env s (.dispatch i outcome) ⟨s.ledger, s.inFlight.set i
          (some { r with response := some (dispatchResponse r.rpc.id outcome) })⟩
        (.dispatched r)
  | completed (i : ℕ) (r : InFlight Req Res) (response : JsonRpcResponse Res) :
      Live s.inFlight i r → r.response = some response →
      Stepped env s (.complete i)
        ⟨(completeMutating env s.ledger r response).1, s.inFlight.set i none⟩
        (.completed r (completeMutating env s.ledger r response).2)
  | crashed (i : ℕ) : Stepped env s (.crash i) ⟨s.ledger, s.inFlight.set i none⟩ .nothing
  | nothing (e : Event Res) : Stepped env s e s .nothing

theorem step_stepped (s : ServiceState Req Res) (e : Event Res) :
    Stepped env s e (step env s e).1 (step env s e).2 := by
  rcases e with arrival | ⟨i, outcome⟩ | i | i
  · rcases beginRpc_cases env s.ledger arrival with
      ⟨response, h⟩ | ⟨table, table', r, hledger, hr, h⟩
    · simp only [step, h]
      exact .answered arrival response h
    · simp only [step, h]
      exact .reserved arrival table table' r hledger hr
  · rcases hlive : s.inFlight[i]?.join with _ | r
    · simp only [step, hlive]
      exact .nothing _
    · simp only [step, hlive]
      by_cases hresponse : r.response = none
      · rw [if_pos (by rw [hresponse]; rfl)]
        exact .dispatched i outcome r (join_eq_some.mp hlive) hresponse
      · rw [if_neg (by rwa [Option.isNone_iff_eq_none])]
        exact .nothing _
  · rcases hlive : s.inFlight[i]?.join with _ | r
    · simp only [step, hlive]
      exact .nothing _
    · rcases hresponse : r.response with _ | response
      · simp only [step, hlive, hresponse]
        exact .nothing _
      · simp only [step, hlive, hresponse]
        exact .completed i r response (join_eq_some.mp hlive) hresponse
  · exact .crashed i

end

end Pandora.Service.Rpc
