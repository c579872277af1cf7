import Pandora.Text
import Pandora.Lib.Checked
import Pandora.Lib.Tables

/-! # The durable ledger of mutating requests

A row reserves a request of a caller before it is dispatched, and keeps the text of its response
after it is completed. `begin` and `complete` are one immediate transaction each; a call that fails
rolls back. A row is never deleted, its method and its digest never change, and a completed row
stays as it is (`RowKept`). -/

namespace Pandora.Service.Ledger

open Text Lib.Checked Lib.Tables

def maxResponseBytes : ℕ := 1048576
def maxKeyFieldBytes : ℕ := 256
def maxLedgerRows : ℕ := 100000

inductive RpcLedgerError
  | invalidKey (message : String)
  | responseTooLarge
  | invalidResponse
  | ledgerFull
  | conflict
  | notPending
deriving DecidableEq

/-- What makes two requests the same. -/
structure RpcRequestKey where
  (scope requestId method requestDigest : String)
deriving DecidableEq

/-- The checks on one of the texts of a key. -/
def validateKeyField (name value : String) : Except RpcLedgerError Unit := do
  ensure (value ≠ "" ∧ value.utf8ByteSize ≤ maxKeyFieldBytes)
    (.invalidKey (name ++ " must be between 1 and 256 bytes"))
  ensure (¬ value.toList.any isControl) (.invalidKey (name ++ " contains a control character"))

namespace RpcRequestKey

def validate (key : RpcRequestKey) : Except RpcLedgerError Unit := do
  validateKeyField "scope" key.scope
  validateKeyField "request_id" key.requestId
  validateKeyField "method" key.method
  ensure ((asBytes key.requestDigest).length = 64 ∧ isLowerHex (asBytes key.requestDigest))
    (.invalidKey "request_digest must be lowercase SHA-256 hex")

def new (scope requestId method requestDigest : String) : Except RpcLedgerError RpcRequestKey := do
  let key : RpcRequestKey := ⟨scope, requestId, method, requestDigest⟩
  key.validate
  pure key

/-- What a row is found by. -/
def pair (key : RpcRequestKey) : String × String := (key.scope, key.requestId)

end RpcRequestKey

/-- `digest_bytes`. -/
def digestBytes (sha : Sha256) (bytes : List UInt8) : String := hex (sha bytes).bytes

inductive RowState
  | pending | completed
deriving DecidableEq

/-- One mutating request and how far it got. -/
structure LedgerRow where
  (scope requestId method requestDigest : String)
  state : RowState
  response : Option String
  createdAt : ℕ
  completedAt : Option ℕ

def LedgerRow.pair (row : LedgerRow) : String × String := (row.scope, row.requestId)

/-- The row belongs to the request of the key. -/
def LedgerRow.sameRequest (row : LedgerRow) (key : RpcRequestKey) : Prop :=
  row.method = key.method ∧ row.requestDigest = key.requestDigest

instance (row : LedgerRow) (key : RpcRequestKey) : Decidable (row.sameRequest key) :=
  inferInstanceAs (Decidable (_ ∧ _))

abbrev LedgerTable := Table LedgerRow.pair

/-- Whether a request runs, is replayed or is refused. -/
inductive RpcBegin
  | execute
  | replay (response : String)
  | inProgress
  | conflict

def toI64 (value : ℕ) : Except RpcLedgerError ℕ :=
  orError (fitsI64 value) (.invalidKey "timestamp is too large")

/-- The row of a reservation. -/
def reservation (key : RpcRequestKey) (now : ℕ) : LedgerRow :=
  { scope := key.scope, requestId := key.requestId, method := key.method,
    requestDigest := key.requestDigest, state := .pending, response := none, createdAt := now,
    completedAt := none }

/-- `begin` is a word of Lean. -/
def beginRequest (ledger : LedgerTable) (key : RpcRequestKey) (now : ℕ) :
    Except RpcLedgerError (LedgerTable × RpcBegin) := do
  key.validate
  let now ← toI64 now
  match ledger.get? key.pair with
  | none =>
    ensure (ledger.rows.length < maxLedgerRows) .ledgerFull
    -- the pair has no row, so the insertion succeeds
    let ledger ← orError (ledger.insert? (reservation key now)) .conflict
    pure (ledger, .execute)
  | some row =>
    if ¬ row.sameRequest key then pure (ledger, .conflict)
    else match row.state with
      | .completed => do
        let response ← orError row.response .notPending
        pure (ledger, .replay response)
      | .pending => pure (ledger, .inProgress)

/-- The row with its response. -/
def LedgerRow.complete (response : String) (completedAt : ℕ) (row : LedgerRow) : LedgerRow :=
  { row with state := .completed, response := some response, completedAt := some completedAt }

/-- `complete`, where `isJson` says whether a text is a JSON value. -/
def completeRequest (isJson : String → Bool) (ledger : LedgerTable) (key : RpcRequestKey)
    (response : String) (completedAt : ℕ) : Except RpcLedgerError LedgerTable := do
  key.validate
  let completedAt ← toI64 completedAt
  ensure (response.utf8ByteSize ≤ maxResponseBytes) .responseTooLarge
  ensure (isJson response) .invalidResponse
  let row ← orError (ledger.get? key.pair) .notPending
  ensure (row.sameRequest key) .conflict
  match row.state, row.response with
  | .pending, _ =>
    pure (ledger.update (fun row => row.pair = key.pair ∧ row.state = .pending)
      (·.complete response completedAt) (fun _ _ => rfl))
  | .completed, some stored => do
    ensure (stored = response) .conflict
    pure ledger
  | .completed, none => throw .conflict

/-! ### What a transaction does to the rows -/

/-- A row as it was and as it is later: the request stays, and so does a completed row. -/
structure RowKept (row row' : LedgerRow) : Prop where
  method : row'.method = row.method
  requestDigest : row'.requestDigest = row.requestDigest
  completed : row.state = .completed → row' = row

theorem RowKept.refl (row : LedgerRow) : RowKept row row := ⟨rfl, rfl, fun _ => rfl⟩

theorem RowKept.trans {a b c : LedgerRow} (hab : RowKept a b) (hbc : RowKept b c) :
    RowKept a c := by
  refine ⟨hbc.method.trans hab.method, hbc.requestDigest.trans hab.requestDigest, fun ha => ?_⟩
  have hb := hab.completed ha
  subst hb
  exact hbc.completed ha

def Keeps (ledger ledger' : LedgerTable) : Prop :=
  ∀ pair row, ledger.get? pair = some row → ∃ row', ledger'.get? pair = some row' ∧ RowKept row row'

theorem Keeps.refl (ledger : LedgerTable) : Keeps ledger ledger :=
  fun _ row h => ⟨row, h, RowKept.refl row⟩

theorem Keeps.trans {a b c : LedgerTable} (hab : Keeps a b) (hbc : Keeps b c) : Keeps a c := by
  intro pair row h
  obtain ⟨row', h', hkept⟩ := hab pair row h
  obtain ⟨row'', h'', hkept'⟩ := hbc pair row' h'
  exact ⟨row'', h'', hkept.trans hkept'⟩

variable {ledger ledger' : LedgerTable} {key : RpcRequestKey} {now : ℕ}

/-- A reservation adds a row for a pair that had none; every other answer changes nothing. -/
theorem beginRequest_cases {outcome : RpcBegin}
    (h : beginRequest ledger key now = .ok (ledger', outcome)) :
    (outcome = .execute ∧ ledger.get? key.pair = none ∧
      ledger.insert? (reservation key now) = some ledger') ∨
    (ledger' = ledger ∧ ∃ row, ledger.get? key.pair = some row ∧
      ((outcome = .conflict ∧ ¬ row.sameRequest key) ∨
        (row.sameRequest key ∧ outcome = .inProgress ∧ row.state = .pending) ∨
        (row.sameRequest key ∧ ∃ response, outcome = .replay response ∧ row.state = .completed ∧
          row.response = some response))) := by
  simp only [beginRequest, bind_eq_ok, toI64, orError_eq_ok, fitsI64_eq_some] at h
  obtain ⟨-, -, _, ⟨-, rfl⟩, h⟩ := h
  rcases hget : ledger.get? key.pair with _ | row
  · rw [hget] at h
    simp only [bind_eq_ok, ensure_eq_ok, orError_eq_ok, pure_eq_ok, Prod.mk.injEq] at h
    obtain ⟨-, -, _, hinsert, rfl, rfl⟩ := h
    exact Or.inl ⟨rfl, rfl, hinsert⟩
  · rw [hget] at h
    dsimp only at h
    refine Or.inr ?_
    by_cases hsame : row.sameRequest key
    · rw [if_neg (not_not.mpr hsame)] at h
      rcases hstate : row.state with _ | _
      · rw [hstate] at h
        obtain ⟨rfl, rfl⟩ := Prod.mk.inj (pure_eq_ok.mp h)
        exact ⟨rfl, row, rfl, Or.inr (Or.inl ⟨hsame, rfl, hstate⟩)⟩
      · rw [hstate] at h
        simp only [bind_eq_ok, orError_eq_ok, pure_eq_ok, Prod.mk.injEq] at h
        obtain ⟨response, hresponse, rfl, rfl⟩ := h
        exact ⟨rfl, row, rfl, Or.inr (Or.inr ⟨hsame, response, rfl, hstate, hresponse⟩)⟩
    · rw [if_pos hsame] at h
      obtain ⟨rfl, rfl⟩ := Prod.mk.inj (pure_eq_ok.mp h)
      exact ⟨rfl, row, rfl, Or.inl ⟨rfl, hsame⟩⟩

/-- The pair of a reservation had no row, and has the reserved one afterwards. -/
theorem get?_reserved (h : ledger.insert? (reservation key now) = some ledger')
    (pair : String × String) :
    ledger'.get? pair = if pair = key.pair then some (reservation key now) else ledger.get? pair :=
  Table.get?_insert? h pair

theorem beginRequest_row {row : LedgerRow} (hvalid : key.validate = .ok ()) (hnow : now < 2 ^ 63)
    (hrow : ledger.get? key.pair = some row) :
    beginRequest ledger key now =
      if ¬ row.sameRequest key then pure (ledger, .conflict)
      else match row.state with
        | .completed => do
          let response ← orError row.response .notPending
          pure (ledger, .replay response)
        | .pending => pure (ledger, .inProgress) := by
  unfold beginRequest toI64
  rw [hvalid, ok_bind, fitsI64_eq_some.mpr ⟨hnow, rfl⟩, hrow]
  rfl

theorem beginRequest_conflict {row : LedgerRow} (hvalid : key.validate = .ok ())
    (hnow : now < 2 ^ 63) (hrow : ledger.get? key.pair = some row)
    (hother : ¬ row.sameRequest key) :
    beginRequest ledger key now = .ok (ledger, .conflict) := by
  rw [beginRequest_row hvalid hnow hrow, if_pos hother]
  rfl

theorem beginRequest_replay {row : LedgerRow} {response : String} (hvalid : key.validate = .ok ())
    (hnow : now < 2 ^ 63) (hrow : ledger.get? key.pair = some row) (hsame : row.sameRequest key)
    (hstate : row.state = .completed) (hresponse : row.response = some response) :
    beginRequest ledger key now = .ok (ledger, .replay response) := by
  rw [beginRequest_row hvalid hnow hrow, if_neg (not_not.mpr hsame), hstate, hresponse]
  rfl

theorem completeRequest_cases {isJson : String → Bool} {response : String}
    (h : completeRequest isJson ledger key response now = .ok ledger') :
    Keeps ledger ledger' ∧ (∀ pair, pair ≠ key.pair → ledger'.get? pair = ledger.get? pair) ∧
      ∃ row, ledger'.get? key.pair = some row ∧ row.sameRequest key ∧ row.state = .completed ∧
        row.response = some response := by
  simp only [completeRequest, bind_eq_ok, toI64, orError_eq_ok, fitsI64_eq_some, ensure_eq_ok,
    exists_const] at h
  obtain ⟨-, -, _, ⟨-, rfl⟩, -, -, row, hrow, hsame, h⟩ := h
  rcases hstate : row.state with _ | _
  · -- the pending row is written
    rw [hstate] at h
    dsimp only at h
    obtain rfl := pure_eq_ok.mp h
    have hwrites : Table.Writes ledger (ledger.update
        (fun row => row.pair = key.pair ∧ row.state = .pending) (·.complete response now)
        (fun _ _ => rfl)) key.pair (row.complete response now) :=
      Table.writes_update (fun s hs => (of_decide_eq_true hs).1) hrow
        (by simp [hstate, (Table.get?_eq_some.mp hrow).2])
    refine ⟨?_, fun pair hne => hwrites.other hne, _, hwrites.same, hsame, rfl, rfl⟩
    intro pair r hr
    by_cases hpair : pair = key.pair
    · subst hpair
      obtain rfl := Option.some.inj (hrow.symm.trans hr)
      exact ⟨_, hwrites.same, rfl, rfl, fun hdone => by rw [hstate] at hdone; cases hdone⟩
    · exact ⟨r, (hwrites.other hpair).trans hr, RowKept.refl r⟩
  · rw [hstate] at h
    rcases hresponse : row.response with _ | stored
    · rw [hresponse] at h
      exact absurd h throw_ne_ok
    · rw [hresponse] at h
      simp only [bind_eq_ok, ensure_eq_ok, exists_const, pure_eq_ok] at h
      obtain ⟨rfl, rfl⟩ := h
      exact ⟨Keeps.refl _, fun _ _ => rfl, row, hrow, hsame, hstate, hresponse⟩

theorem validate_of_complete {isJson : String → Bool} {response : String}
    (h : completeRequest isJson ledger key response now = .ok ledger') : key.validate = .ok () := by
  simp only [completeRequest, bind_eq_ok] at h
  obtain ⟨⟨⟩, hvalid, -⟩ := h
  exact hvalid

theorem validate_of_new {scope requestId method digest : String}
    (h : RpcRequestKey.new scope requestId method digest = .ok key) :
    key.validate = .ok () ∧ key = ⟨scope, requestId, method, digest⟩ := by
  simp only [RpcRequestKey.new, bind_eq_ok, pure_eq_ok] at h
  obtain ⟨_, hvalid, rfl⟩ := h
  exact ⟨hvalid, rfl⟩

end Pandora.Service.Ledger
