import Pandora.Lib.Runs
import Pandora.Rollout.Reducer
import Pandora.Sessions.Journal

/-! # The events of the sessions

The part of `sessions.rs` that appends the events of a session and reads them, all at once with
`resume` or in pages with `event_page`. One table keeps the events of all sessions under growing
sequence numbers. The columns keep the JSON text of an event; writing and reading that text is left
to the format. -/

namespace Pandora.Sessions.Events

open Ids Lib.Checked Lib.Runs Lib.Tables Text
open Rollout.Reducer (EventContext Rollout)
open Sessions.Journal (Session)

def maxEventBytes : ℕ := 1048576

inductive SessionError
  | database
  | serialization
  | corruptRecord
  | eventTooLarge
  | scopeViolation
  | sessionNotFound
  | invalidEvaluation
  | invalidEventPage
deriving DecidableEq

/-- The events, and the code outside the repository that writes and reads them. -/
structure EventFormat (ε : Type) where
  context : ε → EventContext
  toVec : ε → Option String
  fromStr : String → Option ε

/-! ## The table -/

structure EventRow where
  sequence : ℤ
  sessionId : SessionId
  eventJson : String
  recordedAt : Option ℕ

/-- `session_events`, and the largest number given so far: `AUTOINCREMENT` never gives one again. -/
structure EventTable where
  rows : List EventRow
  last : ℤ
  increasing : rows.Pairwise fun a b => a.sequence < b.sequence
  range : ∀ row ∈ rows, 0 < row.sequence ∧ row.sequence ≤ last
  last_nonneg : 0 ≤ last
  last_lt : last < 2 ^ 63

namespace EventTable

def empty : EventTable := ⟨[], 0, .nil, by simp, by decide, by decide⟩

variable (table : EventTable)

/-- `INSERT INTO session_events`, which fails when no number is left. -/
def insert (sessionId : SessionId) (eventJson : String) (recordedAt : Option ℕ) :
    Except SessionError EventTable :=
  if hlast : table.last + 1 < 2 ^ 63 then .ok
    { rows := table.rows ++ [⟨table.last + 1, sessionId, eventJson, recordedAt⟩]
      last := table.last + 1
      increasing := by
        refine List.pairwise_append.mpr ⟨table.increasing, List.pairwise_singleton _ _, ?_⟩
        intro a ha b hb
        obtain rfl := List.mem_singleton.mp hb
        have hrange := table.range a ha
        dsimp only
        omega
      range := by
        intro row hrow
        have hnonneg := table.last_nonneg
        rcases List.mem_append.mp hrow with hrow | hrow
        · have hrange := table.range row hrow
          omega
        · obtain rfl := List.mem_singleton.mp hrow
          dsimp only
          omega
      last_nonneg := by
        have hnonneg := table.last_nonneg
        omega
      last_lt := hlast }
  else .error .database

/-- `SELECT … WHERE p ORDER BY sequence ASC`. -/
def select (p : EventRow → Bool) : List EventRow :=
  (table.rows.filter p).insertionSort fun a b => a.sequence ≤ b.sequence

end EventTable

structure SessionStore where
  sessions : Table Session.id
  events : EventTable

/-! ## Operations -/

/-- What a caller names: the session and who may see it. -/
structure Scope where
  sessionId : SessionId
  principalId : PrincipalId
  tenantId : TenantId
  workspaceId : WorkspaceId

structure EventMetadata where
  sequence : ℕ
  recordedAt : Option ℕ

/-- The snapshot, with what it has besides the events in one part. -/
structure SessionSnapshot (ε ρ : Type) where
  session : Session
  events : List ε
  eventMetadata : List EventMetadata
  rest : ρ

structure SessionEventPage (ε : Type) where
  events : List ε
  nextSequence : Option ℕ

/-- What `append_execution` reads of a receipt. -/
structure EvaluationReceipt where
  sessionId : SessionId
  executionId : ExecutionId
  evaluatedAt : ℕ

variable {ε ρ : Type} (format : EventFormat ε)

namespace SessionStore

variable (store : SessionStore)

/-- `load_session` and `ensure_scope`. -/
def sessionIn (scope : Scope) : Except SessionError Session := do
  let session ← orError (store.sessions.get? scope.sessionId) .sessionNotFound
  ensure (session.principalId = scope.principalId ∧ session.tenantId = scope.tenantId ∧
    session.workspaceId = scope.workspaceId) .scopeViolation
  pure session

def decodeRow (row : EventRow) : Except SessionError (ε × EventMetadata) := do
  let event ← orError (format.fromStr row.eventJson) .serialization
  let sequence ← orError (fitsU64 row.sequence) .corruptRecord
  pure (event, ⟨sequence, row.recordedAt⟩)

/-- The events of `resume`; what else it loads is given. -/
def resume (scope : Scope) (rest : Except SessionError ρ) :
    Except SessionError (SessionSnapshot ε ρ) := do
  let session ← store.sessionIn scope
  let rows := store.events.select (·.sessionId = scope.sessionId)
  let decoded ← rows.mapM (decodeRow format)
  let rest ← rest
  pure ⟨session, decoded.map Prod.fst, decoded.map Prod.snd, rest⟩

def decodePageRow (row : EventRow) : Except SessionError (ℕ × ε) := do
  let sequence ← orError (fitsU64 row.sequence) .corruptRecord
  let event ← orError (format.fromStr row.eventJson) .serialization
  pure (sequence, event)

/-- The cursor as a column. -/
def afterColumn : Option ℕ → Except SessionError ℕ
  | none => pure 0
  | some sequence => orError (fitsI64 sequence) .corruptRecord

def eventPage (scope : Scope) (afterSequence : Option ℕ) (limit : UInt16) :
    Except SessionError (SessionEventPage ε) := do
  ensure (limit ≠ 0) .invalidEventPage
  let afterSequence ← afterColumn afterSequence
  let _ ← store.sessionIn scope
  let rows := (store.events.select fun row =>
    row.sessionId = scope.sessionId && (afterSequence : ℤ) < row.sequence).take (limit.toNat + 1)
  let events ← rows.mapM (decodePageRow format)
  if limit.toNat < events.length then
    let events := events.dropLast
    pure ⟨events.map Prod.snd, events.getLast?.map Prod.fst⟩
  else pure ⟨events.map Prod.snd, none⟩

/-- The texts of the events. -/
def serialize (events : List ε) : Except SessionError (List String) :=
  events.mapM fun event => do
    let serialized ← orError (format.toVec event) .serialization
    ensure (serialized.utf8ByteSize ≤ maxEventBytes) .eventTooLarge
    pure serialized

/-- One transaction that inserts the texts in turn. -/
def insertAll (scope : Scope) (recordedAt : Option ℕ) (texts : List String) :
    Except SessionError SessionStore := do
  let events ← texts.foldlM
    (fun events text => events.insert scope.sessionId text recordedAt) store.events
  pure { store with events := events }

/-- `append_event_recorded_at`. -/
def appendEventRecordedAt (scope : Scope) (event : ε) (recordedAt : Option ℕ) :
    Except SessionError SessionStore := do
  let texts ← serialize format [event]
  let _ ← store.sessionIn scope
  let recordedAt ← recordedAt.mapM fun value => orError (fitsI64 value) .corruptRecord
  store.insertAll scope recordedAt texts

def appendEventsAt (scope : Scope) (events : List ε) (recordedAt : ℕ) :
    Except SessionError SessionStore :=
  if events = [] then .ok store
  else do
    let texts ← serialize format events
    let recordedAt ← orError (fitsI64 recordedAt) .corruptRecord
    let _ ← store.sessionIn scope
    store.insertAll scope (some recordedAt) texts

/-- The checks of a rollout. -/
def checkRollout (sha : Sha256) (scope : Scope) (evaluation : EvaluationReceipt) :
    Option Rollout → Except SessionError Unit
  | none => pure ()
  | some rollout => do
    ensure (rollout.verify sha = .ok ()) .invalidEvaluation
    ensure (rollout.scope.sessionId = scope.sessionId ∧ rollout.scope.tenantId = scope.tenantId ∧
      rollout.scope.workspaceId = scope.workspaceId ∧
      rollout.scope.executionId = evaluation.executionId) .invalidEvaluation

/-- The events of `append_execution_with_rollout`; whether the rows of the evaluation and of the
rollout can be written is given, and the transaction commits only if they can. -/
def appendExecutionWithRollout (sha : Sha256) (scope : Scope) (events : List ε)
    (evaluation : EvaluationReceipt) (rollout : Option Rollout) (recordedAt : ℕ)
    (others : Except SessionError Unit) : Except SessionError SessionStore := do
  ensure (events ≠ [] ∧ evaluation.sessionId = scope.sessionId ∧ ∀ event ∈ events,
    (format.context event).sessionId = some scope.sessionId ∧
    (format.context event).executionId = some evaluation.executionId ∧
    (format.context event).tenantId = scope.tenantId ∧
    (format.context event).workspaceId = scope.workspaceId) .invalidEvaluation
  checkRollout sha scope evaluation rollout
  let texts ← serialize format events
  let recordedAt ← orError (fitsI64 recordedAt) .corruptRecord
  let _ ← orError (fitsI64 evaluation.evaluatedAt) .corruptRecord
  let _ ← store.sessionIn scope
  let store ← store.insertAll scope (some recordedAt) texts
  others
  pure store

end SessionStore

/-- A call that appends events, to any session. -/
inductive AppendCall (ε : Type)
  | appendEvent (scope : Scope) (event : ε) (recordedAt : Option ℕ)
  | appendEvents (scope : Scope) (events : List ε) (recordedAt : ℕ)
  | appendExecution (scope : Scope) (events : List ε) (evaluation : EvaluationReceipt)
    (rollout : Option Rollout) (recordedAt : ℕ) (others : Except SessionError Unit)

/-- The store after the call, if it succeeds. -/
def AppendCall.result (sha : Sha256) (store : SessionStore) :
    AppendCall ε → Except SessionError SessionStore
  | .appendEvent scope event recordedAt => store.appendEventRecordedAt format scope event recordedAt
  | .appendEvents scope events recordedAt => store.appendEventsAt format scope events recordedAt
  | .appendExecution scope events evaluation rollout recordedAt others =>
    store.appendExecutionWithRollout format sha scope events evaluation rollout recordedAt others

def appender (sha : Sha256) : Machine SessionStore (AppendCall ε) (Except SessionError Unit) where
  step store call :=
    match call.result format sha store with
    | .ok store => (store, .ok ())
    | .error error => (store, .error error)

/-- A reader asks for page after page, each time with the cursor of the page before, and events are
appended before each request. It gets the events once there is no cursor, unless the list ends
before. -/
def follow (sha : Sha256) (scope : Scope) (limit : UInt16) : List (List (AppendCall ε)) →
    SessionStore → Option ℕ → Except SessionError (Option (List ε × SessionStore))
  | [], _, _ => pure none
  | appends :: schedule, store, cursor => do
    let store := (appender format sha).run store appends
    let page ← store.eventPage format scope cursor limit
    match page.nextSequence with
    | none => pure (some (page.events, store))
    | some next =>
      let rest ← follow sha scope limit schedule store (some next)
      pure (rest.map fun read => (page.events ++ read.1, read.2))

end Pandora.Sessions.Events
