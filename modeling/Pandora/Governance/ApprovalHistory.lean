import Pandora.Governance.Approvals

/-! # The life cycle of an approval

Calls of any number of threads and processes meet in one table. Each call holds the connection, in
an immediate transaction, from the read of the row to its commit, so a run is a list of calls. The
times they are given are arbitrary.

`Step` says what one call does, seen through the lookups: nothing, one row marked as expired, or one
of the three writes with all the checks it has passed. What follows is read off `Step`. -/

namespace Pandora.Governance.ApprovalHistory

open Lib.Checked Lib.Tables Lib.Runs Ids Governance.Approvals Table

/-! ## The store as a machine -/

inductive Call
  | create (request : ApprovalRequest)
  | resolve (id : String) (principalId approverId : PrincipalId) (allow : Bool)
  | consumeGrant (id : String) (principalId : PrincipalId) (sessionId : SessionId)
      (executionId : ExecutionId) (geneId : GeneId) (requestDigest : RequestDigest)

/-- A call and its time: the argument `now`, or for `create` the reading of the wall clock. -/
structure Request where
  now : ℕ
  call : Call

inductive Reply
  | approval (approval : PendingApproval)
  | grant (grant : ApprovalGrant)

def exec (db : ApprovalDb) (req : Request) : ApprovalDb × Except ApprovalError Reply :=
  match req.call with
  | .create request =>
    let (db, result) := create db request req.now
    (db, result.map .approval)
  | .resolve id principalId approverId allow =>
    let (db, result) := resolve db id principalId approverId allow req.now
    (db, result.map .approval)
  | .consumeGrant id principalId sessionId executionId geneId requestDigest =>
    let (db, result) :=
      consumeGrant db id principalId sessionId executionId geneId requestDigest req.now
    (db, result.map .grant)

def store : Machine ApprovalDb Request (Except ApprovalError Reply) := ⟨exec⟩

/-- The table after a run from the empty one. -/
def dbAfter (reqs : List Request) : ApprovalDb := store.run empty reqs

/-- The approval stored under an identifier. -/
def Stored (db : ApprovalDb) (id : String) (a : PendingApproval) : Prop :=
  ∃ row, db.get? id = some row ∧ decodeRaw row = .ok a

variable {id : String} {a b : PendingApproval}

theorem Stored.unique {db : ApprovalDb} (ha : Stored db id a) (hb : Stored db id b) : a = b := by
  obtain ⟨row, hrow, hdecode⟩ := ha
  obtain ⟨row', hrow', hdecode'⟩ := hb
  rw [hrow, Option.some.injEq] at hrow'
  subst hrow'
  rw [hdecode, Except.ok.injEq] at hdecode'
  exact hdecode'

/-! ## Reads -/

variable {db db' : ApprovalDb}

theorem loadApproval_eq_some :
    loadApproval db id = .ok (some a) ↔ Stored db id a := by
  unfold loadApproval Stored
  rcases hget : db.get? id with _ | row
  · simp [pure, Except.pure]
  · rcases hdecode : decodeRaw row with e | b
    all_goals simp [hdecode, Functor.map, Except.map]

theorem inspectUnscoped_eq_ok :
    inspectUnscoped db id = .ok a ↔ Stored db id a := by
  unfold inspectUnscoped
  rw [bind_eq_ok, ← loadApproval_eq_some]
  constructor
  · rintro ⟨o, ho, ha⟩
    rw [orError_eq_ok] at ha
    rw [ho, ha]
  · intro h
    exact ⟨some a, h, rfl⟩

variable {principalId : PrincipalId}

theorem inspect_eq_ok :
    inspect db id principalId = .ok a ↔ Stored db id a ∧ a.principalId = principalId := by
  unfold inspect
  simp only [bind_eq_ok, inspectUnscoped_eq_ok, ensure_eq_ok, pure_eq_ok]
  constructor
  · rintro ⟨b, hb, ⟨⟩, hprincipal, rfl⟩
    exact ⟨hb, hprincipal⟩
  · rintro ⟨ha, hprincipal⟩
    exact ⟨a, ha, ⟨⟩, hprincipal, rfl⟩

/-! ## Writes -/

variable {row : ApprovalRow}

theorem decodeRaw_withStatus (h : decodeRaw row = .ok a) (status : ApprovalStatus) :
    decodeRaw (row.withStatus status.asStr) = .ok { a with status } := by
  rw [decodeRaw_eq_ok] at h ⊢
  obtain ⟨h0, h1, h2, h3, h4, h5, h6, h7, h8, -, h10, h11⟩ := h
  exact ⟨h0, h1, h2, h3, h4, h5, h6, h7, h8, status.parse_asStr, h10, h11⟩

/-- The status a resolution writes. -/
def decision (allow : Bool) : ApprovalStatus := if allow then .approved else .denied

theorem decodeRaw_resolved (h : decodeRaw row = .ok a)
    (allow : Bool) (approverId : PrincipalId) (resolvedAt : ℕ) :
    decodeRaw (row.withResolution allow approverId resolvedAt) =
      .ok { a with status := decision allow, approverId := some approverId } := by
  rw [decodeRaw_eq_ok] at h ⊢
  obtain ⟨h0, h1, h2, h3, h4, h5, h6, h7, h8, -, -, h11⟩ := h
  have happrover : (some approverId.text).mapM decodeId =
      Except.ok (ε := ApprovalError) (some approverId) := by
    have hdecode : decodeId approverId.text = .ok approverId := decodeId_eq_ok.mpr rfl
    simp [hdecode, Functor.map, Except.map]
  have hstatus : ApprovalStatus.parse (if allow then "approved" else "denied") =
      .ok (decision allow) := by
    cases allow <;> rfl
  exact ⟨h0, h1, h2, h3, h4, h5, h6, h7, h8, hstatus, happrover, h11⟩

/-- The approval that `create` stores. -/
def created (request : ApprovalRequest) (createdAt : ℕ) : PendingApproval where
  id := request.id
  sessionId := request.sessionId
  executionId := request.executionId
  principalId := request.principalId
  geneId := request.geneId
  requestDigest := request.requestDigest
  requestSummary := request.requestSummary
  policyVersion := request.policyVersion
  expiresAt := request.expiresAt
  status := .pending
  approverId := none
  createdAt := createdAt

theorem decodeRaw_newRow (request : ApprovalRequest) (createdAt : ℕ) :
    decodeRaw (newRow request request.expiresAt createdAt) = .ok (created request createdAt) := by
  rw [decodeRaw_eq_ok]
  exact ⟨rfl, rfl, rfl, rfl, rfl, rfl, rfl, fitsU32_toNat _, fitsU64_natCast _, rfl, rfl,
    fitsU64_natCast _⟩

variable {k : String}

theorem stored_writes (h : Table.Writes db db' id row) (hrow : decodeRaw row = .ok a) :
    Stored db' k b ↔ (k = id ∧ b = a) ∨ (k ≠ id ∧ Stored db k b) := by
  unfold Stored
  rw [h k]
  by_cases hk : k = id
  · simp [hk, hrow, eq_comm]
  · simp [hk]

variable {p : ApprovalRow → Bool}

/-- What an `UPDATE` of one row selects. -/
theorem selected_id (row : ApprovalRow)
    (h : decide (row.id = id ∧ p row = true) = true) : row.id = id := (of_decide_eq_true h).1

theorem updateRow_writes {f : ApprovalRow → ApprovalRow}
    {hf : ∀ row, (f row).id = row.id} (hrow : db.get? id = some row)
    (hp : p row = true) : Table.Writes db (updateRow db id p f hf) id (f row) := by
  have hid := (get?_eq_some.mp hrow).2
  exact writes_update selected_id hrow (decide_eq_true ⟨hid, hp⟩)

theorem get?_updateRow_of_not {f : ApprovalRow → ApprovalRow}
    {hf : ∀ row, (f row).id = row.id} (hrow : db.get? id = some row)
    (hp : p row = false) (k : String) : (updateRow db id p f hf).get? k = db.get? k := by
  refine get?_update_of_not selected_id hrow ?_ k
  simp [hp]

theorem changed_eq_one (hrow : db.get? id = some row) (h : changed db id p = 1) : p row = true := by
  have hselected := of_countP_eq_one selected_id hrow h
  exact (of_decide_eq_true hselected).2

/-! ## What a call does -/

/-- One call, seen through the lookups. -/
inductive Step (db : ApprovalDb) (req : Request) : ApprovalDb → Except ApprovalError Reply → Prop
  | refused {db' : ApprovalDb} (e : ApprovalError) (hsame : ∀ k, db'.get? k = db.get? k) :
    Step db req db' (.error e)
  | lapsed {db' : ApprovalDb} {id : String} {row : ApprovalRow} {a : PendingApproval}
    (hrow : db.get? id = some row) (hdecode : decodeRaw row = .ok a)
    (hstatus : a.status = .pending ∨ a.status = .approved) (hexpired : a.expiresAt ≤ req.now)
    (hwrite : Table.Writes db db' id (row.withStatus "expired")) : Step db req db' (.error .expired)
  | created {db' : ApprovalDb} {request : ApprovalRequest} (hcall : req.call = .create request)
    (hfree : db.get? request.id = none)
    (hwrite : Table.Writes db db' request.id (newRow request request.expiresAt req.now)) :
    Step db req db' (.ok (.approval (created request req.now)))
  | resolved {db' : ApprovalDb} {id : String} {principalId approverId : PrincipalId} {allow : Bool}
    {row : ApprovalRow} {a : PendingApproval}
    (hcall : req.call = .resolve id principalId approverId allow) (hrow : db.get? id = some row)
    (hdecode : decodeRaw row = .ok a) (hprincipal : a.principalId = principalId)
    (hstatus : a.status = .pending) (hlive : req.now < a.expiresAt)
    (hwrite : Table.Writes db db' id (row.withResolution allow approverId req.now)) :
    Step db req db'
      (.ok (.approval { a with status := decision allow, approverId := some approverId }))
  | consumed {db' : ApprovalDb} {id : String} {row : ApprovalRow} {a : PendingApproval}
    (hcall : req.call = .consumeGrant id a.principalId a.sessionId a.executionId
      a.geneId a.requestDigest)
    (hrow : db.get? id = some row) (hdecode : decodeRaw row = .ok a)
    (hstatus : a.status = .approved) (hlive : req.now < a.expiresAt)
    (hwrite : Table.Writes db db' id (row.withStatus "consumed")) :
    Step db req db' (.ok (.grant ⟨{ a with status := .consumed }⟩))

theorem parse_eq_ok {value : String} {status : ApprovalStatus}
    (h : ApprovalStatus.parse value = .ok status) :
    value = status.asStr := by
  unfold ApprovalStatus.parse at h
  split_ifs at h with h1 h2 h3 h4 h5 <;> cases h <;> assumption

theorem decodeRaw_status (h : decodeRaw row = .ok a) :
    row.status = a.status.asStr :=
  parse_eq_ok (decodeRaw_eq_ok.mp h).2.2.2.2.2.2.2.2.2.1

variable {now : ℕ}

theorem statusAt_expired (h : a.statusAt now = .expired) :
    ((a.status = .pending ∨ a.status = .approved) ∧ a.expiresAt ≤ now) ∨ a.status = .expired := by
  unfold PendingApproval.statusAt at h
  split_ifs at h with hc
  · exact Or.inl hc
  · exact Or.inr h

/-- An approval that may still move and is not shown as expired has time left. -/
theorem lt_of_statusAt_ne (h : a.statusAt now ≠ .expired)
    (hstatus : a.status = .pending ∨ a.status = .approved) : now < a.expiresAt := by
  unfold PendingApproval.statusAt at h
  by_contra hle
  exact h (if_pos ⟨hstatus, Nat.le_of_not_lt hle⟩)

variable {req : Request} {request : ApprovalRequest}

theorem create_step (hcall : req.call = .create request) :
    Step db req (create db request req.now).1 ((create db request req.now).2.map .approval) := by
  unfold create
  rcases hsection : insertApproval db request req.now with e | ⟨db', r⟩
  · exact .refused e fun _ => rfl
  · unfold insertApproval toI64 at hsection
    simp only [bind_eq_ok, orError_eq_ok, fitsI64_eq_some, ensure_eq_ok, pure_eq_ok] at hsection
    obtain ⟨_, ⟨-, rfl⟩, _, ⟨-, rfl⟩, ⟨⟩, -, db', hinsert, heq⟩ := hsection
    cases heq
    have hwrite : Table.Writes db db' request.id (newRow request request.expiresAt req.now) :=
      get?_insert? hinsert
    have hfree : db.get? request.id = none :=
      get?_eq_none.mpr (insert?_eq_some hinsert).1
    have hread : inspectUnscoped db' request.id = .ok (created request req.now) :=
      inspectUnscoped_eq_ok.mpr ((stored_writes hwrite (decodeRaw_newRow request req.now)).mpr
        (Or.inl ⟨rfl, rfl⟩))
    simp only [Section.thenRead, hread, Except.map]
    exact .created hcall hfree hwrite

/-- An approval found expired: the mark is written where the `UPDATE` selects the row, and the call
fails. -/
theorem lapse_step (hrow : db.get? id = some row) (hdecode : decodeRaw row = .ok a)
    (hexpired : a.statusAt req.now = .expired)
    (hp : p row = true → a.status = .pending ∨ a.status = .approved) :
    Step db req (updateRow db id p (.withStatus "expired") fun _ => rfl) (.error .expired) := by
  rcases hselected : p row with _ | _
  · exact .refused .expired (get?_updateRow_of_not hrow hselected)
  · have hstatus := hp hselected
    rcases statusAt_expired hexpired with ⟨-, hle⟩ | hstored
    · exact .lapsed hrow hdecode hstatus hle (updateRow_writes hrow hselected)
    · rw [hstored] at hstatus
      rcases hstatus with h | h <;> cases h

theorem resolve_step {approverId : PrincipalId}
    {allow : Bool} (hcall : req.call = .resolve id principalId approverId allow) :
    Step db req (resolve db id principalId approverId allow req.now).1
      ((resolve db id principalId approverId allow req.now).2.map .approval) := by
  unfold resolve
  rcases hsection : resolveApproval db id principalId approverId allow req.now with e | ⟨db', r⟩
  · exact .refused e fun _ => rfl
  · unfold resolveApproval ensurePrincipal toI64 at hsection
    simp only [bind_eq_ok, orError_eq_ok, ensure_eq_ok] at hsection
    obtain ⟨_, hload, a, rfl, ⟨⟩, hprincipal, hsection⟩ := hsection
    obtain ⟨row, hrow, hdecode⟩ := loadApproval_eq_some.mp hload
    have htext := decodeRaw_status hdecode
    split_ifs at hsection with hexpired
    · rw [pure_eq_ok] at hsection
      cases hsection
      refine lapse_step hrow hdecode hexpired fun hp => ?_
      simp only [decide_eq_true_eq, htext] at hp
      rcases hp with hp | hp
      · exact Or.inl (ApprovalStatus.asStr_inj hp)
      · exact Or.inr (ApprovalStatus.asStr_inj hp)
    · simp only [bind_eq_ok, orError_eq_ok, ensure_eq_ok, fitsI64_eq_some, pure_eq_ok] at hsection
      obtain ⟨⟨⟩, hstatus, _, ⟨-, rfl⟩, ⟨⟩, hchanged, heq⟩ := hsection
      cases heq
      have hlive := lt_of_statusAt_ne hexpired (Or.inl hstatus)
      have hwrite : Table.Writes db
          (updateRow db id _ (.withResolution allow approverId req.now) fun _ => rfl)
          id (row.withResolution allow approverId req.now) :=
        updateRow_writes hrow (changed_eq_one hrow hchanged)
      have hdecode' := decodeRaw_resolved hdecode allow approverId req.now
      have hstored := (stored_writes hwrite hdecode').mpr (Or.inl ⟨rfl, rfl⟩)
      have hread := inspect_eq_ok.mpr ⟨hstored, hprincipal⟩
      simp only [Section.thenRead, hread, Except.map]
      exact .resolved hcall hrow hdecode hprincipal hstatus hlive hwrite

theorem consumeGrant_step {sessionId : SessionId} {executionId : ExecutionId} {geneId : GeneId}
    {requestDigest : RequestDigest}
    (hcall : req.call = .consumeGrant id principalId sessionId executionId geneId requestDigest) :
    Step db req
      (consumeGrant db id principalId sessionId executionId geneId requestDigest req.now).1
      ((consumeGrant db id principalId sessionId executionId geneId requestDigest req.now).2.map
        .grant) := by
  unfold consumeGrant
  rcases hsection :
    consumeApproval db id principalId sessionId executionId geneId requestDigest req.now
    with e | ⟨db', r⟩
  · exact .refused e fun _ => rfl
  · unfold consumeApproval ensurePrincipal toI64 at hsection
    simp only [bind_eq_ok, orError_eq_ok, ensure_eq_ok] at hsection
    obtain ⟨_, hload, a, rfl, ⟨⟩, hprincipal, hsection⟩ := hsection
    obtain ⟨row, hrow, hdecode⟩ := loadApproval_eq_some.mp hload
    have htext := decodeRaw_status hdecode
    split_ifs at hsection with hexpired
    · rw [pure_eq_ok] at hsection
      cases hsection
      refine lapse_step hrow hdecode hexpired fun hp => ?_
      simp only [decide_eq_true_eq, htext] at hp
      exact Or.inr (ApprovalStatus.asStr_inj hp)
    · simp only [bind_eq_ok, orError_eq_ok, ensure_eq_ok, fitsI64_eq_some, pure_eq_ok] at hsection
      obtain ⟨⟨⟩, hstatus, ⟨⟩, ⟨rfl, rfl, rfl⟩, ⟨⟩, rfl, _, ⟨-, rfl⟩, ⟨⟩, hchanged, heq⟩ := hsection
      cases heq
      subst hprincipal
      have hlive := lt_of_statusAt_ne hexpired (Or.inr hstatus)
      have hwrite : Table.Writes db (updateRow db id _ (.withStatus "consumed") fun _ => rfl) id
          (row.withStatus "consumed") := updateRow_writes hrow (changed_eq_one hrow hchanged)
      have hdecode' := decodeRaw_withStatus hdecode .consumed
      have hstored := (stored_writes hwrite hdecode').mpr (Or.inl ⟨rfl, rfl⟩)
      have hread := inspect_eq_ok.mpr ⟨hstored, rfl⟩
      simp only [Section.thenRead, hread, bind, Except.bind, pure, Except.pure, Except.map]
      exact .consumed hcall hrow hdecode hstatus hlive hwrite

/-- **What a call does.** -/
theorem exec_step (db : ApprovalDb) (req : Request) :
    Step db req (exec db req).1 (exec db req).2 := by
  unfold exec
  rcases hcall : req.call with request | ⟨id, principalId, approverId, allow⟩ |
    ⟨id, principalId, sessionId, executionId, geneId, requestDigest⟩
  · exact create_step hcall
  · exact resolve_step hcall
  · exact consumeGrant_step hcall

/-! ## One step of the life cycle -/

/-- The edges of the life cycle. -/
inductive Move : ApprovalStatus → ApprovalStatus → Prop
  | approve : Move .pending .approved
  | deny : Move .pending .denied
  | lapsePending : Move .pending .expired
  | consume : Move .approved .consumed
  | lapseApproved : Move .approved .expired

/-- What an approval was requested for. -/
def SameRequest (a b : PendingApproval) : Prop :=
  b.id = a.id ∧ b.sessionId = a.sessionId ∧ b.executionId = a.executionId ∧
    b.principalId = a.principalId ∧ b.geneId = a.geneId ∧ b.requestDigest = a.requestDigest ∧
    b.requestSummary = a.requestSummary ∧ b.policyVersion = a.policyVersion ∧
    b.expiresAt = a.expiresAt ∧ b.createdAt = a.createdAt

/-- An approval after a call: the same, or one edge further. -/
def Advances (a b : PendingApproval) : Prop := b = a ∨ (SameRequest a b ∧ Move a.status b.status)

theorem Advances.sameRequest (h : Advances a b) : SameRequest a b := by
  rcases h with rfl | ⟨h, -⟩
  · exact ⟨rfl, rfl, rfl, rfl, rfl, rfl, rfl, rfl, rfl, rfl⟩
  · exact h

theorem decision_move (allow : Bool) : Move .pending (decision allow) := by
  cases allow
  · exact .deny
  · exact .approve

variable {row' : ApprovalRow} {a' : PendingApproval}

/-- A write of one row advances every approval if it advances that one. -/
theorem writes_advances (h : Table.Writes db db' id row') (hrow : db.get? id = some row)
    (hdecode : decodeRaw row = .ok a) (hdecode' : decodeRaw row' = .ok a') (hmove : Advances a a')
    (hb : Stored db k b) :
    ∃ b', Stored db' k b' ∧ Advances b b' := by
  by_cases hk : k = id
  · subst hk
    obtain rfl : b = a := hb.unique ⟨row, hrow, hdecode⟩
    exact ⟨a', (stored_writes h hdecode').mpr (Or.inl ⟨rfl, rfl⟩), hmove⟩
  · exact ⟨b, (stored_writes h hdecode').mpr (Or.inr ⟨hk, hb⟩), Or.inl rfl⟩

variable {o : Except ApprovalError Reply}

theorem step_advances (h : Step db req db' o) (hb : Stored db k b) :
    ∃ b', Stored db' k b' ∧ Advances b b' := by
  cases h with
  | refused e hsame =>
    obtain ⟨row, hrow, hdecode⟩ := hb
    exact ⟨b, ⟨row, by rw [hsame, hrow], hdecode⟩, Or.inl rfl⟩
  | @lapsed id row a hrow hdecode hstatus hexpired hwrite =>
    have hmove : Move a.status .expired := by
      rcases hstatus with h | h
      · rw [h]; exact .lapsePending
      · rw [h]; exact .lapseApproved
    exact writes_advances hwrite hrow hdecode (decodeRaw_withStatus hdecode .expired)
      (Or.inr ⟨⟨rfl, rfl, rfl, rfl, rfl, rfl, rfl, rfl, rfl, rfl⟩, hmove⟩) hb
  | @created request hcall hfree hwrite =>
    have hk : k ≠ request.id := by
      rintro rfl
      obtain ⟨row, hrow, -⟩ := hb
      rw [hfree] at hrow
      cases hrow
    exact ⟨b, (stored_writes hwrite (decodeRaw_newRow request req.now)).mpr (Or.inr ⟨hk, hb⟩),
      Or.inl rfl⟩
  | @resolved id _ approverId allow row a hcall hrow hdecode hprincipal hstatus hlive hwrite =>
    have hmove : Move a.status (decision allow) := by
      rw [hstatus]; exact decision_move allow
    exact writes_advances hwrite hrow hdecode (decodeRaw_resolved hdecode allow approverId req.now)
      (Or.inr ⟨⟨rfl, rfl, rfl, rfl, rfl, rfl, rfl, rfl, rfl, rfl⟩, hmove⟩) hb
  | @consumed id row a hcall hrow hdecode hstatus hlive hwrite =>
    have hmove : Move a.status .consumed := by
      rw [hstatus]; exact .consume
    exact writes_advances hwrite hrow hdecode (decodeRaw_withStatus hdecode .consumed)
      (Or.inr ⟨⟨rfl, rfl, rfl, rfl, rfl, rfl, rfl, rfl, rfl, rfl⟩, hmove⟩) hb

theorem step_new (h : Step db req db' o) (ha : Stored db' id a) (hnone : db.get? id = none) :
    a.status = .pending := by
  -- Every other write is on a row that is there.
  have hold : ∀ {k : String} {row row' : ApprovalRow} {b : PendingApproval}, db.get? k = some row →
      Table.Writes db db' k row' → decodeRaw row' = .ok b → a.status = .pending := by
    intro k row row' b hrow hwrite hdecode
    rcases (stored_writes hwrite hdecode).mp ha with ⟨rfl, -⟩ | ⟨-, r, hr, -⟩
    · rw [hnone] at hrow; cases hrow
    · rw [hnone] at hr; cases hr
  cases h with
  | refused e hsame =>
    obtain ⟨row, hrow, -⟩ := ha
    rw [hsame, hnone] at hrow
    cases hrow
  | lapsed hrow hdecode hstatus hexpired hwrite =>
    exact hold hrow hwrite (decodeRaw_withStatus hdecode .expired)
  | @created request hcall hfree hwrite =>
    rcases (stored_writes hwrite (decodeRaw_newRow request req.now)).mp ha with ⟨-, rfl⟩ |
      ⟨-, r, hr, -⟩
    · rfl
    · rw [hnone] at hr; cases hr
  | resolved hcall hrow hdecode hprincipal hstatus hlive hwrite =>
    exact hold hrow hwrite (decodeRaw_resolved hdecode _ _ _)
  | consumed hcall hrow hdecode hstatus hlive hwrite =>
    exact hold hrow hwrite (decodeRaw_withStatus hdecode .consumed)

/-- A call that fails marks an approval as expired, or changes no row. -/
theorem step_error (h : Step db req db' o) {e : ApprovalError} (he : o = .error e) (id : String) :
    db'.get? id = db.get? id ∨ ∃ row a, db.get? id = some row ∧ decodeRaw row = .ok a ∧
      (a.status = .pending ∨ a.status = .approved) ∧ a.expiresAt ≤ req.now ∧
      db'.get? id = some (row.withStatus "expired") := by
  cases h with
  | refused e' hsame => exact Or.inl (hsame id)
  | @lapsed k row a hrow hdecode hstatus hexpired hwrite =>
    by_cases hk : id = k
    · subst hk
      exact Or.inr ⟨row, a, hrow, hdecode, hstatus, hexpired, by rw [hwrite id, if_pos rfl]⟩
    · exact Or.inl (by rw [hwrite id, if_neg hk])
  | created | resolved | consumed => cases he

theorem Advances.of_consumed (h : Advances a b) (ha : a.status = .consumed) :
    b = a := by
  rcases h with rfl | ⟨-, hmove⟩
  · rfl
  · rw [ha] at hmove
    cases hmove

/-- Through any calls an approval is kept for its principal, and a used one as it is. -/
theorem run_kept (h : Stored db id a) (reqs : List Request) :
    ∃ b, Stored (store.run db reqs) id b ∧ b.principalId = a.principalId ∧
      (a.status = .consumed → b = a) := by
  refine store.run_invariant (P := fun db => ∃ b, Stored db id b ∧ b.principalId = a.principalId ∧
    (a.status = .consumed → b = a)) (fun db req hdb => ?_) reqs ⟨a, h, rfl, fun _ => rfl⟩
  obtain ⟨b, hb, hprincipal, hused⟩ := hdb
  obtain ⟨c, hc, hadvance⟩ := step_advances (exec_step db req) hb
  obtain ⟨-, -, -, hsame, -⟩ := hadvance.sameRequest
  refine ⟨c, hc, hsame.trans hprincipal, fun ha => ?_⟩
  obtain rfl := hused ha
  exact hadvance.of_consumed ha

/-! ## Histories -/

/-- The approval answers to the request it was created for. -/
def AsRequested (request : ApprovalRequest) (a : PendingApproval) : Prop :=
  a.sessionId = request.sessionId ∧ a.executionId = request.executionId ∧
    a.principalId = request.principalId ∧ a.geneId = request.geneId ∧
    a.requestDigest = request.requestDigest ∧ a.expiresAt = request.expiresAt

/-- The call at position `j` created the approval `id` for `request`. -/
def CreatedAt (reqs : List Request) (j : ℕ) (id : String) (request : ApprovalRequest) : Prop :=
  request.id = id ∧ ∃ now reply, store.Answers empty reqs j ⟨now, .create request⟩ (.ok reply)

/-- The call at position `j` allowed the approval `id`, before `expiresAt`. -/
def AllowedAt (reqs : List Request) (j : ℕ) (id : String) (expiresAt : ℕ) : Prop :=
  ∃ now principalId approverId reply, now < expiresAt ∧
    store.Answers empty reqs j ⟨now, .resolve id principalId approverId true⟩ (.ok reply)

/-- The history accounts for the table: every approval has its creation, and one that is approved or
used has, after that, a resolution that allowed it. -/
def Accounted (reqs : List Request) (db : ApprovalDb) : Prop :=
  ∀ id a, Stored db id a → ∃ j request, CreatedAt reqs j id request ∧ AsRequested request a ∧
    (a.status = .approved ∨ a.status = .consumed → ∃ l, j < l ∧ AllowedAt reqs l id a.expiresAt)

variable {reqs : List Request} {j : ℕ}

theorem CreatedAt.append (h : CreatedAt reqs j id request) (more : List Request) :
    CreatedAt (reqs ++ more) j id request := by
  obtain ⟨hid, now, reply, hans⟩ := h
  exact ⟨hid, now, reply, hans.append more⟩

theorem CreatedAt.lt (h : CreatedAt reqs j id request) : j < reqs.length := by
  obtain ⟨-, now, reply, hans⟩ := h
  exact hans.lt

theorem AllowedAt.append {expiresAt : ℕ} (h : AllowedAt reqs j id expiresAt) (more : List Request) :
    AllowedAt (reqs ++ more) j id expiresAt := by
  obtain ⟨now, principalId, approverId, reply, hlt, hans⟩ := h
  exact ⟨now, principalId, approverId, reply, hlt, hans.append more⟩

theorem CreatedAt.of_take {n : ℕ}
    (h : CreatedAt (reqs.take n) j id request) : CreatedAt reqs j id request := by
  have happend := h.append (reqs.drop n)
  rwa [List.take_append_drop] at happend

theorem AllowedAt.of_take {n : ℕ} {expiresAt : ℕ}
    (h : AllowedAt (reqs.take n) j id expiresAt) : j < n ∧ AllowedAt reqs j id expiresAt := by
  have happend := h.append (reqs.drop n)
  rw [List.take_append_drop] at happend
  obtain ⟨now, principalId, approverId, reply, -, hans⟩ := h
  have hlt := hans.lt
  rw [List.length_take] at hlt
  exact ⟨by omega, happend⟩

theorem Accounted.weaken (h : Accounted reqs db) (req : Request) (ha : Stored db id a) :
    ∃ j request, CreatedAt (reqs ++ [req]) j id request ∧ AsRequested request a ∧
      (a.status = .approved ∨ a.status = .consumed →
        ∃ l, j < l ∧ AllowedAt (reqs ++ [req]) l id a.expiresAt) := by
  obtain ⟨j, request, hcreated, hrequested, hallowed⟩ := h id a ha
  refine ⟨j, request, hcreated.append [req], hrequested, fun hstatus => ?_⟩
  obtain ⟨l, hjl, hl⟩ := hallowed hstatus
  exact ⟨l, hjl, hl.append [req]⟩

/-- Where the approval `id` is written, it is enough to account for that one. -/
theorem Accounted.writes (h : Accounted reqs db) (hwrite : Table.Writes db db' id row')
    (hdecode' : decodeRaw row' = .ok a')
    (hnew : ∃ j request, CreatedAt (reqs ++ [req]) j id request ∧ AsRequested request a' ∧
      (a'.status = .approved ∨ a'.status = .consumed →
        ∃ l, j < l ∧ AllowedAt (reqs ++ [req]) l id a'.expiresAt)) :
    Accounted (reqs ++ [req]) db' := by
  intro k b hb
  rcases (stored_writes hwrite hdecode').mp hb with ⟨rfl, rfl⟩ | ⟨-, hb⟩
  · exact hnew
  · exact h.weaken req hb

theorem step_accounted (reqs : List Request) (req : Request) (h : Accounted reqs (dbAfter reqs)) :
    Accounted (reqs ++ [req]) (exec (dbAfter reqs) req).1 := by
  have hstep := exec_step (dbAfter reqs) req
  generalize hres : exec (dbAfter reqs) req = res at hstep
  obtain ⟨db', o⟩ := res
  have hlast : store.Answers empty (reqs ++ [req]) reqs.length req o :=
    Machine.answers_last (by show (exec (dbAfter reqs) req).2 = o; rw [hres])
  cases hstep with
  | refused e hsame =>
    rintro k b ⟨row, hrow, hdecode⟩
    rw [hsame] at hrow
    exact h.weaken req ⟨row, hrow, hdecode⟩
  | @lapsed id row a hrow hdecode hstatus hexpired hwrite =>
    obtain ⟨j, request, hcreated, hrequested, -⟩ := h.weaken req ⟨row, hrow, hdecode⟩
    refine h.writes hwrite (decodeRaw_withStatus hdecode .expired)
      ⟨j, request, hcreated, hrequested, fun hs => ?_⟩
    rcases hs with hs | hs <;> cases hs
  | @created request hcall hfree hwrite =>
    have hcreated : CreatedAt (reqs ++ [req]) reqs.length request.id request :=
      ⟨rfl, req.now, _, by rw [← hcall]; exact hlast⟩
    refine h.writes hwrite (decodeRaw_newRow request req.now)
      ⟨reqs.length, request, hcreated, ⟨rfl, rfl, rfl, rfl, rfl, rfl⟩, fun hs => ?_⟩
    rcases hs with hs | hs <;> cases hs
  | @resolved id principalId approverId allow row a hcall hrow hdecode hprincipal hstatus hlive
    hwrite =>
    obtain ⟨j, request, hcreated, hrequested, -⟩ := h id a ⟨row, hrow, hdecode⟩
    refine h.writes hwrite (decodeRaw_resolved hdecode allow approverId req.now)
      ⟨j, request, hcreated.append [req], hrequested, fun hs => ⟨reqs.length, hcreated.lt, ?_⟩⟩
    rcases allow with _ | _
    · rcases hs with hs | hs <;> cases hs
    · exact ⟨req.now, principalId, approverId, _, hlive, by rw [← hcall]; exact hlast⟩
  | @consumed id row a hcall hrow hdecode hstatus hlive hwrite =>
    obtain ⟨j, request, hcreated, hrequested, hallowed⟩ := h.weaken req ⟨row, hrow, hdecode⟩
    exact h.writes hwrite (decodeRaw_withStatus hdecode .consumed)
      ⟨j, request, hcreated, hrequested, fun _ => hallowed (Or.inl hstatus)⟩

theorem dbAfter_accounted (reqs : List Request) : Accounted reqs (dbAfter reqs) := by
  refine store.run_history (P := Accounted) (s := empty) ?_ step_accounted reqs
  rintro id a ⟨row, hrow, -⟩
  rw [get?_empty] at hrow
  cases hrow

def Readable (db : ApprovalDb) : Prop :=
  ∀ id row, db.get? id = some row → ∃ a, decodeRaw row = .ok a

theorem Readable.writes (h : Readable db)
    (hwrite : Table.Writes db db' id row') (hdecode' : decodeRaw row' = .ok a') : Readable db' := by
  intro k row hrow
  rw [hwrite k] at hrow
  split_ifs at hrow with hk
  · cases hrow
    exact ⟨a', hdecode'⟩
  · exact h k row hrow

theorem step_readable (hstep : Step db req db' o) (h : Readable db) : Readable db' := by
  cases hstep with
  | refused e hsame =>
    intro k row hrow
    rw [hsame] at hrow
    exact h k row hrow
  | lapsed hrow hdecode hstatus hexpired hwrite =>
    exact h.writes hwrite (decodeRaw_withStatus hdecode .expired)
  | created hcall hfree hwrite => exact h.writes hwrite (decodeRaw_newRow _ _)
  | resolved hcall hrow hdecode hprincipal hstatus hlive hwrite =>
    exact h.writes hwrite (decodeRaw_resolved hdecode _ _ _)
  | consumed hcall hrow hdecode hstatus hlive hwrite =>
    exact h.writes hwrite (decodeRaw_withStatus hdecode .consumed)

theorem dbAfter_readable (reqs : List Request) : Readable (dbAfter reqs) := by
  refine store.run_invariant (P := Readable) (fun db req h => step_readable (exec_step db req) h)
    reqs ?_
  intro id row hrow
  rw [get?_empty] at hrow
  cases hrow

theorem dbAfter_snoc (reqs : List Request) (req : Request) :
    dbAfter (reqs ++ [req]) = (exec (dbAfter reqs) req).1 := store.run_snoc empty reqs req

/-! ## Grants -/

/-- A call that hands out a grant: what it found, and what it leaves. -/
theorem granted_cases {sessionId : SessionId}
    {executionId : ExecutionId} {geneId : GeneId} {requestDigest : RequestDigest} {reply : Reply}
    (h : (exec db
      ⟨now, .consumeGrant id principalId sessionId executionId geneId requestDigest⟩).2 =
      .ok reply) :
    ∃ a, Stored db id a ∧ a.status = .approved ∧ now < a.expiresAt ∧ a.principalId = principalId ∧
      a.sessionId = sessionId ∧ a.executionId = executionId ∧ a.geneId = geneId ∧
      a.requestDigest = requestDigest ∧
      Stored (exec db
        ⟨now, .consumeGrant id principalId sessionId executionId geneId requestDigest⟩).1 id
        { a with status := .consumed } := by
  have hstep :=
    exec_step db ⟨now, .consumeGrant id principalId sessionId executionId geneId requestDigest⟩
  rw [h] at hstep
  cases hstep with
  | created hcall | resolved hcall => cases hcall
  | @consumed _ row a hcall hrow hdecode hstatus hlive hwrite =>
    cases hcall
    exact ⟨a, ⟨row, hrow, hdecode⟩, hstatus, hlive, rfl, rfl, rfl, rfl, rfl,
      (stored_writes hwrite (decodeRaw_withStatus hdecode .consumed)).mpr (Or.inl ⟨rfl, rfl⟩)⟩

/-- The call at position `k` handed out a grant for the approval `id`. -/
def GrantedAt (reqs : List Request) (k : ℕ) (id : String) : Prop :=
  ∃ now principalId sessionId executionId geneId requestDigest reply, store.Answers empty reqs k
      ⟨now, .consumeGrant id principalId sessionId executionId geneId requestDigest⟩ (.ok reply)

theorem granted_not_later {k l : ℕ} (hk : GrantedAt reqs k id)
    (hl : GrantedAt reqs l id) : ¬ k < l := by
  intro hlt
  obtain ⟨now, principalId, sessionId, executionId, geneId, requestDigest, reply, hget, hans⟩ := hk
  obtain ⟨now', principalId', sessionId', executionId', geneId', requestDigest', reply', hget',
    hans'⟩ := hl
  obtain ⟨a, -, -, -, -, -, -, -, -, hconsumed⟩ := granted_cases hans
  obtain ⟨b, hb, hstatus, -⟩ := granted_cases hans'
  obtain ⟨between, hrun⟩ := Machine.Answers.run_take ⟨hget, hans⟩ hlt
  obtain ⟨c, hc, -, hused⟩ := run_kept hconsumed between
  rw [hrun] at hb
  rw [hb.unique hc, hused rfl] at hstatus
  cases hstatus

/-- **The life cycle of approvals.** In every run, a call moves a status along an edge at most; an
approval is granted at most once, after a creation with what is presented and a resolution before
the expiry, and before the expiry itself; and a call that fails leaves the rows as they are, but for
the mark on one that has expired. -/
theorem approval_life_cycle (reqs : List Request) :
    (∀ req id a, Stored (dbAfter reqs) id a → ∃ a', Stored (dbAfter (reqs ++ [req])) id a' ∧
      SameRequest a a' ∧ (a'.status = a.status ∨ Move a.status a'.status)) ∧
    (∀ req id a', Stored (dbAfter (reqs ++ [req])) id a' → (dbAfter reqs).get? id = none →
      a'.status = .pending) ∧
    (∀ id row, (dbAfter reqs).get? id = some row → ∃ a, decodeRaw row = .ok a) ∧
    (∀ k l id, GrantedAt reqs k id → GrantedAt reqs l id → k = l) ∧
    (∀ k now id principalId sessionId executionId geneId requestDigest reply,
      store.Answers Table.empty reqs k
        ⟨now, .consumeGrant id principalId sessionId executionId geneId requestDigest⟩ (.ok reply) →
      ∃ i j request, i < j ∧ j < k ∧ CreatedAt reqs i id request ∧
        AllowedAt reqs j id request.expiresAt ∧ now < request.expiresAt ∧
        request.principalId = principalId ∧ request.sessionId = sessionId ∧
        request.executionId = executionId ∧ request.geneId = geneId ∧
        request.requestDigest = requestDigest) ∧
    (∀ req e, store.answer (dbAfter reqs) req = .error e → ∀ id,
      (dbAfter (reqs ++ [req])).get? id = (dbAfter reqs).get? id ∨
      ∃ row a, (dbAfter reqs).get? id = some row ∧ decodeRaw row = .ok a ∧
        (a.status = .pending ∨ a.status = .approved) ∧ a.expiresAt ≤ req.now ∧
        (dbAfter (reqs ++ [req])).get? id = some (row.withStatus "expired")) := by
  refine ⟨fun req id a ha => ?_, fun req id a' ha' hnone => ?_, dbAfter_readable reqs,
    fun k l id hk hl => ?_,
    fun k now id principalId sessionId executionId geneId requestDigest reply h => ?_,
    fun req e he id => ?_⟩
  · obtain ⟨a', ha', hadvance⟩ := step_advances (exec_step (dbAfter reqs) req) ha
    rw [← dbAfter_snoc] at ha'
    refine ⟨a', ha', hadvance.sameRequest, ?_⟩
    rcases hadvance with rfl | ⟨-, hmove⟩
    · exact Or.inl rfl
    · exact Or.inr hmove
  · rw [dbAfter_snoc] at ha'
    exact step_new (exec_step (dbAfter reqs) req) ha' hnone
  · have h1 := granted_not_later hk hl
    have h2 := granted_not_later hl hk
    omega
  · obtain ⟨a, ha, hstatus, hlive, rfl, rfl, rfl, rfl, rfl, -⟩ := granted_cases h.2
    obtain ⟨i, request, hcreated, hrequested, hallowed⟩ := dbAfter_accounted (reqs.take k) id a ha
    obtain ⟨j, hij, hj⟩ := hallowed (Or.inl hstatus)
    obtain ⟨hsession, hexecution, hprincipal, hgene, hdigest, hexpires⟩ := hrequested
    rw [hexpires] at hlive hj
    exact ⟨i, j, request, hij, hj.of_take.1, hcreated.of_take, hj.of_take.2, hlive, hprincipal.symm,
      hsession.symm, hexecution.symm, hgene.symm, hdigest.symm⟩
  · rw [dbAfter_snoc]
    exact step_error (exec_step (dbAfter reqs) req) he id

end Pandora.Governance.ApprovalHistory
