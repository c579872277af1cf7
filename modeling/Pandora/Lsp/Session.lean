import Pandora.Lib.Runs
import Pandora.Lib.SortedMaps

/-! # A language-server session

A session over the pipes of a subprocess: any number of threads call `request`, one thread reads
what the server sends. The threads share the flag `running`, the counter of the ids and the map of
the requests that wait for an answer; a request waits at a channel of its own, whose sender is in
the map. An `Event` is one action of one thread between two others on what they share; the server
sends what it likes, a write may fail and a request may give up at any time.

`answers` is what was put into the channels, and why: no function reads it. -/

namespace Pandora.Lsp

open Lib.Runs Lib.SortedMaps

/-- A JSON value; a number that is not an integer is kept as its text. -/
inductive Json
  | null
  | bool (value : Bool)
  | int (value : ℤ)
  | float (text : String)
  | string (value : String)
  | array (items : List Json)
  | object (fields : List (String × Json))

namespace Json

def get? (key : String) : Json → Option Json
  | object fields => (fields.find? (·.1 = key)).map (·.2)
  | _ => none

def asU64 : Json → Option ℕ
  | int value => if 0 ≤ value ∧ value < 2 ^ 64 then some value.toNat else none
  | _ => none

def id? (message : Json) : Option ℕ := (message.get? "id").bind asU64

end Json

inductive LspError
  | sessionClosed
  | io (text : String)
  | jsonRpc (text : String)
  | serialization (text : String)
  | timeout (text : String)

/-- What `request` gives. -/
abbrev Result := Except LspError Json

/-- Why a value was put into a channel. -/
inductive Cause
  | response (message : Json)
  | sessionEnd

/-- The result that a message from the server carries; `text` writes JSON. -/
def messageResult (text : Json → String) (message : Json) : Result :=
  match message.get? "error" with
  | some error => .error (.jsonRpc (text error))
  | none => .ok ((message.get? "result").getD .null)

def Cause.result (text : Json → String) : Cause → Result
  | response message => messageResult text message
  | sessionEnd => .error .sessionClosed

/-- What a call of `request` is given, the time-out as it is printed. -/
structure Arguments where
  (method timeout : String)

/-- How a call of `request` returned. -/
inductive Outcome
  | refused
  | writeFailed (error : LspError)
  | received (result : Result)
  | timedOut

def Outcome.result (arguments : Arguments) : Outcome → Result
  | refused => .error .sessionClosed
  | writeFailed error => .error error
  | received result => result
  | timedOut => .error (.timeout
      ("request '" ++ arguments.method ++ "' timed out after " ++ arguments.timeout))

/-- Where a call of `request` stands. -/
inductive Phase
  | checked
  | numbered (id : ℕ)
  | registered (id : ℕ)
  | waiting (id : ℕ)
  | returned (id : Option ℕ) (outcome : Outcome)

/-- The id that the call has drawn. -/
def Phase.id? : Phase → Option ℕ
  | checked => none
  | numbered id => some id
  | registered id => some id
  | waiting id => some id
  | returned id _ => id

/-- Where the reader stands: before the test of the flag, in a read, before the map is drained. -/
inductive Reader
  | head | blocked | closing | done

/-- A session. The calls of `request` are told apart by a number, which is not their id. -/
structure Session where
  running : Bool
  nextId : ℕ
  pending : SortedMap ℕ ℕ
  channel : ℕ → List Result
  calls : ℕ → Option (Arguments × Phase)
  reader : Reader
  answers : List (ℕ × Cause)

/-- What the write of a request meets: it fails to be formatted, to be written, or finds the pipe
closed. -/
inductive WriteResult
  | written
  | failed (error : LspError)

inductive Event
  | call (r : ℕ) (arguments : Arguments)
  | number (r : ℕ)
  | register (r : ℕ)
  | write (r : ℕ) (result : WriteResult)
  | receive (r : ℕ)
  | timeOut (r : ℕ)
  | readerHead
  | message (message : Json)
  | streamEnd
  | drain
  | stop

/-- A session with a running reader and no calls. -/
def Session.start : Session where
  running := true
  nextId := 1
  pending := .empty
  channel _ := []
  calls _ := none
  reader := .head
  answers := []

namespace Session

variable (text : Json → String) (s : Session)

def setPhase (r : ℕ) (arguments : Arguments) (phase : Phase) : Session :=
  { s with calls := Function.update s.calls r (some (arguments, phase)) }

/-- `Sender::send`, to the channel of a call. -/
def send (r : ℕ) (cause : Cause) : Session :=
  { s with
    channel := Function.update s.channel r (s.channel r ++ [cause.result text])
    answers := s.answers ++ [(r, cause)] }

/-- The part of the reader that answers a request: the entry with the id of the message is removed
and its sender used. -/
def dispatch (message : Json) : Session :=
  match message.id? with
  | none => s
  | some id =>
    match s.pending.get? id with
    | none => s
    | some r => send text { s with pending := s.pending.erase id } r (.response message)

/-- The end of the reader: every sender in the map is used. -/
def drain : Session :=
  s.pending.entries.foldl (fun s entry => s.send text entry.2 .sessionEnd)
    { s with pending := .empty }

/-- One action. A thread that is not where the action begins does nothing. -/
def step : Event → Session
  | .call r arguments =>
    match s.calls r with
    | some _ => s
    | none =>
      if s.running then s.setPhase r arguments .checked
      else s.setPhase r arguments (.returned none .refused)
  | .number r =>
    match s.calls r with
    | some (arguments, .checked) =>
      { s.setPhase r arguments (.numbered s.nextId) with nextId := (s.nextId + 1) % 2 ^ 64 }
    | _ => s
  | .register r =>
    match s.calls r with
    | some (arguments, .numbered id) =>
      { s.setPhase r arguments (.registered id) with pending := s.pending.insert id r }
    | _ => s
  | .write r result =>
    match s.calls r, result with
    | some (arguments, .registered id), .written => s.setPhase r arguments (.waiting id)
    | some (arguments, .registered id), .failed error =>
      s.setPhase r arguments (.returned (some id) (.writeFailed error))
    | _, _ => s
  | .receive r =>
    match s.calls r, s.channel r with
    | some (arguments, .waiting id), result :: rest =>
      { s.setPhase r arguments (.returned (some id) (.received result)) with
        channel := Function.update s.channel r rest }
    | _, _ => s
  | .timeOut r =>
    match s.calls r with
    | some (arguments, .waiting id) =>
      { s.setPhase r arguments (.returned (some id) .timedOut) with
        pending := s.pending.erase id }
    | _ => s
  | .readerHead =>
    match s.reader with
    | .head => { s with reader := if s.running then .blocked else .closing }
    | _ => s
  | .message message =>
    match s.reader with
    | .blocked => { s.dispatch text message with reader := .head }
    | _ => s
  | .streamEnd =>
    match s.reader with
    | .blocked => { s with running := false, reader := .closing }
    | _ => s
  | .drain =>
    match s.reader with
    | .closing => { s.drain text with reader := .done }
    | _ => s
  | .stop => { s with running := false }

/-- The session takes one action after another. -/
def machine : Machine Session Event Unit where
  step s event := (s.step text event, ())

end Session

end Pandora.Lsp
