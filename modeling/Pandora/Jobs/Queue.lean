import Pandora.Jobs.Steps

/-! # The job queue

Histories of calls on the job store. The history accounts for every job in the table (`Accounted`):
by its submission, in the order of the sequences, and for a running job by its worker's claim. -/

namespace Pandora.Jobs.Queue

open Lib.Checked Lib.Tables Lib.Runs Ids Jobs.Store Jobs.Steps

/-! ## One step -/

variable {json : JobJson} {db db' : JobDb}

/-- A job after a call: what was submitted stays, it is not queued again, and when it is done it
stays as it is. -/
structure Advances (d d' : JobData) : Prop where
  id : d'.id = d.id
  scope : d'.scope = d.scope
  sequence : d'.sequence = d.sequence
  started : d.status ≠ .queued → d'.status ≠ .queued
  settled : d.status.isTerminal = true → d' = d

theorem Advances.refl (d : JobData) : Advances d d := ⟨rfl, rfl, rfl, fun h => h, fun _ => rfl⟩

theorem start_advances (d : JobData) (h : d.status = .queued) (workerId : JobWorkerId)
    (startedAt : ℕ) :
    Advances d (d.start h workerId startedAt) := by
  refine ⟨rfl, rfl, rfl, fun hne => absurd h hne, fun hterminal => ?_⟩
  rw [h] at hterminal
  cases hterminal

theorem settle_advances (d : JobData) (h : d.status = .running) (status : JobStatus)
    (houtcome : status.isOutcome = true) (finishedAt : ℕ) (resultJson : String) :
    Advances d (d.settle h status houtcome finishedAt resultJson) := by
  refine ⟨rfl, rfl, rfl, fun _ hqueued => ?_, fun hterminal => ?_⟩
  · obtain rfl : status = .queued := hqueued
    cases houtcome
  · rw [h] at hterminal
    cases hterminal

theorem cancel_advances (d : JobData) (h : d.status = .queued) (finishedAt : ℕ) :
    Advances d (d.cancel h finishedAt) := by
  refine ⟨rfl, rfl, rfl, fun hne => absurd h hne, fun hterminal => ?_⟩
  rw [h] at hterminal
  cases hterminal

variable {e d : JobData}

theorem stored_writes {e' : JobData} (hid : e'.id = e.id)
    (hwrite : Table.Writes db db' e.id.text e'.row) :
    Stored db' d ↔ d = e' ∨ (d.id ≠ e.id ∧ Stored db d) := by
  unfold Stored
  by_cases hd : d.id = e.id
  · rw [hd, hwrite.same, Option.some.injEq]
    constructor
    · intro h
      exact Or.inl (row_inj h).symm
    · rintro (rfl | ⟨hne, -⟩)
      · rfl
      · exact absurd rfl hne
  · have htext : d.id.text ≠ e.id.text := fun h => hd (Id.ext_text h)
    rw [hwrite.other htext]
    constructor
    · intro h
      exact Or.inr ⟨hd, h⟩
    · rintro (rfl | ⟨-, h⟩)
      · exact absurd hid hd
      · exact h

theorem writes_advances {e' : JobData} (he : Stored db e) (hadvance : Advances e e')
    (hwrite : Table.Writes db db' e.id.text e'.row) (hd : Stored db d) :
    ∃ d', Stored db' d' ∧ Advances d d' := by
  by_cases hid : d.id = e.id
  · obtain rfl := Stored.unique hd he hid
    exact ⟨e', (stored_writes hadvance.id hwrite).mpr (Or.inl rfl), hadvance⟩
  · exact ⟨d, (stored_writes hadvance.id hwrite).mpr (Or.inr ⟨hid, hd⟩), .refl d⟩

theorem stored_new (hwrite : Table.Writes db db' e.id.text e.row) :
    Stored db' d ↔ d = e ∨ (d.id ≠ e.id ∧ Stored db d) := stored_writes rfl hwrite

theorem step_advances {call : Call} {o : Except JobStoreError Reply} (h : Step db call db' o)
    (hd : Stored db d) : ∃ d', Stored db' d' ∧ Advances d d' := by
  cases h with
  | refused | idle => exact ⟨d, hd, .refl d⟩
  | submitted hfree hstatus hlast hwrite =>
    exact ⟨d, (stored_new hwrite).mpr (Or.inr ⟨hd.ne_of_free hfree, hd⟩), .refl d⟩
  | claimed hstored hstatus hfirst hid hscope hwrite =>
    exact writes_advances hstored (start_advances _ _ _ _) hwrite hd
  | finished hstored hstatus hworker houtcome hwrite | interrupted hstored hstatus hwrite =>
    exact writes_advances hstored (settle_advances _ _ _ _ _ _) hwrite hd
  | cancelled hstored hstatus hwrite =>
    exact writes_advances hstored (cancel_advances _ _ _) hwrite hd

theorem step_typed {call : Call} {o : Except JobStoreError Reply} (h : Step db call db' o)
    (htyped : Typed db) :
    Typed db' := by
  cases h with
  | refused | idle => exact htyped
  | submitted hfree hstatus hlast hwrite => exact htyped.writes hwrite
  | @claimed _ d workerId startedAt _ hstored hstatus hfirst hid hscope hwrite =>
    exact htyped.writes (d := d.start hstatus workerId startedAt) hwrite
  | @finished _ d _ status _ finishedAt resultJson _ hstored hstatus hworker houtcome hwrite =>
    exact htyped.writes (d := d.settle hstatus status houtcome finishedAt resultJson) hwrite
  | @interrupted _ d _ finishedAt resultJson _ hstored hstatus hwrite =>
    exact htyped.writes (d := d.settle hstatus .interrupted rfl finishedAt resultJson) hwrite
  | @cancelled _ d finishedAt _ hstored hstatus hwrite =>
    exact htyped.writes (d := d.cancel hstatus finishedAt) hwrite

theorem dbAfter_typed (json : JobJson) (calls : List Call) : Typed (dbAfter json calls) := by
  refine (store json).run_invariant (P := Typed)
    (fun db call h => step_typed (exec_step json h call) h) calls ?_
  intro key row hget
  rw [Table.get?_empty] at hget
  cases hget

theorem dbAfter_snoc (json : JobJson) (calls : List Call) (call : Call) :
    dbAfter json (calls ++ [call]) = (exec json (dbAfter json calls) call).1 :=
  (store json).run_snoc Table.empty calls call

theorem dbAfter_step (json : JobJson) (calls : List Call) (call : Call) :
    Step (dbAfter json calls) call (dbAfter json (calls ++ [call]))
      ((store json).answer (dbAfter json calls) call) := by
  rw [dbAfter_snoc]
  exact exec_step json (dbAfter_typed json calls) call

/-! ## Histories -/

section

variable (json)

/-- The call at position `k` submitted the job. -/
def SubmittedAt (calls : List Call) (k : ℕ) (id : JobId) (scope : JobScope) : Prop :=
  ∃ request createdAt reply,
    (store json).Answers Table.empty calls k (.submit id scope request createdAt) (.ok reply)

/-- The call at position `k` returned the job to a worker. -/
def ClaimedAt (calls : List Call) (k : ℕ) (id : JobId) (scope : JobScope) (workerId : JobWorkerId) :
    Prop :=
  ∃ startedAt job, job.id = id ∧
    (store json).Answers Table.empty calls k (.claimNext scope workerId startedAt)
      (.ok (.claimed (some job)))

/-- The history accounts for the jobs stored. -/
structure Accounted (calls : List Call) (db : JobDb) : Prop where
  kept : ∀ k id scope, SubmittedAt json calls k id scope → ∃ d, Stored db d ∧ d.id = id ∧
    d.scope = scope
  ordered : ∀ k l d e, k < l → SubmittedAt json calls k d.id d.scope →
    SubmittedAt json calls l e.id e.scope → Stored db d → Stored db e → d.sequence < e.sequence
  submitted : ∀ d, Stored db d → ∃ k, SubmittedAt json calls k d.id d.scope
  claimed : ∀ d, Stored db d → d.status = .running →
    ∃ k workerId, d.workerId = some workerId ∧ ClaimedAt json calls k d.id d.scope workerId

end

variable {calls : List Call} {call : Call}

variable {k : ℕ} {id : JobId} {scope : JobScope}

theorem SubmittedAt.append (h : SubmittedAt json calls k id scope) (more : List Call) :
    SubmittedAt json (calls ++ more) k id scope := by
  obtain ⟨request, createdAt, reply, hans⟩ := h
  exact ⟨request, createdAt, reply, hans.append more⟩

theorem SubmittedAt.lt (h : SubmittedAt json calls k id scope) :
    k < calls.length := by
  obtain ⟨request, createdAt, reply, hans⟩ := h
  exact hans.lt

theorem SubmittedAt.take {n : ℕ} (h : SubmittedAt json calls k id scope) (hkn : k < n) :
    SubmittedAt json (calls.take n) k id scope := by
  obtain ⟨request, createdAt, reply, hans⟩ := h
  exact ⟨request, createdAt, reply, hans.take hkn⟩

theorem SubmittedAt.of_take {n : ℕ} (h : SubmittedAt json (calls.take n) k id scope) :
    k < n ∧ SubmittedAt json calls k id scope := by
  have hlt := h.lt
  rw [List.length_take] at hlt
  obtain ⟨request, createdAt, reply, hans⟩ := h
  exact ⟨by omega, request, createdAt, reply, hans.of_take⟩

variable {workerId : JobWorkerId}

theorem ClaimedAt.append (h : ClaimedAt json calls k id scope workerId) (more : List Call) :
    ClaimedAt json (calls ++ more) k id scope workerId := by
  obtain ⟨startedAt, job, hid, hans⟩ := h
  exact ⟨startedAt, job, hid, hans.append more⟩

/-- A submission in a longer history is an earlier one, or the last call. -/
theorem SubmittedAt.of_snoc (h : SubmittedAt json (calls ++ [call]) k id scope) :
    SubmittedAt json calls k id scope ∨ (k = calls.length ∧ ∃ request createdAt reply,
      call = .submit id scope request createdAt ∧
      (store json).answer (dbAfter json calls) call = .ok reply) := by
  obtain ⟨request, createdAt, reply, hans⟩ := h
  rcases hans.of_snoc with hans | ⟨rfl, rfl, hans⟩
  · exact Or.inl ⟨request, createdAt, reply, hans⟩
  · exact Or.inr ⟨rfl, request, createdAt, reply, rfl, hans⟩

def isSubmit : Call → Bool
  | .submit _ _ _ _ => true
  | _ => false

/-- After a call that submits nothing the submissions are the earlier ones. -/
theorem SubmittedAt.of_snoc_ne {answer : Except JobStoreError Reply}
    (hanswer : (store json).answer (dbAfter json calls) call = answer)
    (hne : isSubmit call = false ∨ ∃ e, answer = .error e) (k : ℕ) (id : JobId) (scope : JobScope)
    (h : SubmittedAt json (calls ++ [call]) k id scope) : SubmittedAt json calls k id scope := by
  rcases h.of_snoc with h | ⟨-, request, createdAt, reply, rfl, hok⟩
  · exact h
  · rcases hne with hne | ⟨e, rfl⟩
    · cases hne
    · rw [hanswer] at hok
      cases hok

/-- Where the last call submits nothing and writes a job over itself, the history goes on accounting
if it accounts for the worker of that job. -/
theorem Accounted.writes (h : Accounted json calls db)
    (hsub : ∀ k id scope, SubmittedAt json (calls ++ [call]) k id scope →
      SubmittedAt json calls k id scope)
    {e' : JobData} (he : Stored db e) (hadvance : Advances e e')
    (hwrite : Table.Writes db db' e.id.text e'.row)
    (hworker : e'.status = .running → ∃ k workerId, e'.workerId = some workerId ∧
      ClaimedAt json (calls ++ [call]) k e.id e.scope workerId) :
    Accounted json (calls ++ [call]) db' := by
  -- Every job stored now has one stored before, with the same identifier, scope and sequence.
  have hback : ∀ d, Stored db' d → ∃ d₀, Stored db d₀ ∧ d₀.id = d.id ∧ d₀.scope = d.scope ∧
      d₀.sequence = d.sequence := by
    intro d hd
    rcases (stored_writes hadvance.id hwrite).mp hd with rfl | ⟨-, hd⟩
    · exact ⟨e, he, hadvance.id.symm, hadvance.scope.symm, hadvance.sequence.symm⟩
    · exact ⟨d, hd, rfl, rfl, rfl⟩
  refine ⟨fun k id scope hk => ?_, fun k l d d' hkl hk hl hd hd' => ?_, fun d hd => ?_,
    fun d hd hrunning => ?_⟩
  · obtain ⟨d, hd, rfl, rfl⟩ := h.kept k id scope (hsub k id scope hk)
    obtain ⟨d', hd', hadvance'⟩ := writes_advances he hadvance hwrite hd
    exact ⟨d', hd', hadvance'.id, hadvance'.scope⟩
  · obtain ⟨d₀, hd₀, hid, hscope, hsequence⟩ := hback d hd
    obtain ⟨e₀, he₀, hid', hscope', hsequence'⟩ := hback d' hd'
    have hk₀ := hsub _ _ _ hk
    have hl₀ := hsub _ _ _ hl
    rw [← hid, ← hscope] at hk₀
    rw [← hid', ← hscope'] at hl₀
    have hlt := h.ordered k l d₀ e₀ hkl hk₀ hl₀ hd₀ he₀
    omega
  · obtain ⟨d₀, hd₀, hid, hscope, -⟩ := hback d hd
    obtain ⟨k, hk⟩ := h.submitted d₀ hd₀
    rw [hid, hscope] at hk
    exact ⟨k, hk.append [call]⟩
  · rcases (stored_writes hadvance.id hwrite).mp hd with rfl | ⟨-, hd⟩
    · rw [hadvance.id, hadvance.scope]
      exact hworker hrunning
    · obtain ⟨k, workerId, hw, hclaimed⟩ := h.claimed d hd hrunning
      exact ⟨k, workerId, hw, hclaimed.append [call]⟩

theorem Accounted.weaken (h : Accounted json calls db)
    (hsub : ∀ k id scope, SubmittedAt json (calls ++ [call]) k id scope →
      SubmittedAt json calls k id scope) : Accounted json (calls ++ [call]) db := by
  refine ⟨fun k id scope hk => h.kept k id scope (hsub k id scope hk),
    fun k l d e hkl hk hl hd he => h.ordered k l d e hkl (hsub _ _ _ hk) (hsub _ _ _ hl) hd he,
    fun d hd => ?_, fun d hd hrunning => ?_⟩
  · obtain ⟨k, hk⟩ := h.submitted d hd
    exact ⟨k, hk.append [call]⟩
  · obtain ⟨k, workerId, hw, hclaimed⟩ := h.claimed d hd hrunning
    exact ⟨k, workerId, hw, hclaimed.append [call]⟩

theorem Accounted.submits (h : Accounted json calls db) {request : JobRequest}
    {createdAt : ℕ} (hcall : call = .submit e.id e.scope request createdAt)
    (hlast : SubmittedAt json (calls ++ [call]) calls.length e.id e.scope)
    (hfree : db.get? e.id.text = none) (hstatus : e.status = .queued)
    (habove : ∀ d, Stored db d → d.sequence < e.sequence)
    (hwrite : Table.Writes db db' e.id.text e.row) : Accounted json (calls ++ [call]) db' := by
  have hof : ∀ {k id scope}, SubmittedAt json (calls ++ [call]) k id scope →
      SubmittedAt json calls k id scope ∨ (k = calls.length ∧ id = e.id ∧ scope = e.scope) := by
    intro k id scope hk
    rcases hk.of_snoc with hk | ⟨rfl, request', createdAt', reply, heq, -⟩
    · exact Or.inl hk
    · rw [hcall] at heq
      cases heq
      exact Or.inr ⟨rfl, rfl, rfl⟩
  -- A job submitted earlier is not the new one.
  have hold : ∀ {k d}, SubmittedAt json calls k d.id d.scope → Stored db' d → Stored db d := by
    intro k d hk hd
    obtain ⟨d₀, hd₀, hid, -⟩ := h.kept k d.id d.scope hk
    rcases (stored_new hwrite).mp hd with rfl | ⟨-, hd⟩
    · exact absurd hid (hd₀.ne_of_free hfree)
    · exact hd
  refine ⟨fun k id scope hk => ?_, fun k l d d' hkl hk hl hd hd' => ?_, fun d hd => ?_,
    fun d hd hrunning => ?_⟩
  · rcases hof hk with hk | ⟨-, rfl, rfl⟩
    · obtain ⟨d, hd, rfl, rfl⟩ := h.kept k id scope hk
      exact ⟨d, (stored_new hwrite).mpr (Or.inr ⟨hd.ne_of_free hfree, hd⟩), rfl, rfl⟩
    · exact ⟨e, (stored_new hwrite).mpr (Or.inl rfl), rfl, rfl⟩
  · rcases hof hk with hk | ⟨rfl, -, -⟩
    · have hd₀ := hold hk hd
      rcases hof hl with hl | ⟨-, hid, -⟩
      · exact h.ordered k l d d' hkl hk hl hd₀ (hold hl hd')
      · have hnew : Stored db' e := (stored_new hwrite).mpr (Or.inl rfl)
        rw [hd'.unique hnew hid]
        exact habove d hd₀
    · have hlen := hl.lt
      rw [List.length_append, List.length_singleton] at hlen
      omega
  · rcases (stored_new hwrite).mp hd with rfl | ⟨-, hd⟩
    · exact ⟨calls.length, hlast⟩
    · obtain ⟨k, hk⟩ := h.submitted d hd
      exact ⟨k, hk.append [call]⟩
  · rcases (stored_new hwrite).mp hd with rfl | ⟨-, hd⟩
    · rw [hstatus] at hrunning
      cases hrunning
    · obtain ⟨k, workerId, hw, hclaimed⟩ := h.claimed d hd hrunning
      exact ⟨k, workerId, hw, hclaimed.append [call]⟩

theorem step_accounted (calls : List Call) (call : Call)
    (h : Accounted json calls (dbAfter json calls)) :
    Accounted json (calls ++ [call]) (exec json (dbAfter json calls) call).1 := by
  have hstep := dbAfter_step json calls call
  rw [← dbAfter_snoc]
  generalize hanswer : (store json).answer (dbAfter json calls) call = answer at hstep
  generalize dbAfter json (calls ++ [call]) = db' at hstep
  have hlast : (store json).Answers Table.empty (calls ++ [call]) calls.length call answer :=
    Machine.answers_last hanswer
  cases hstep with
  | refused e => exact h.weaken (SubmittedAt.of_snoc_ne hanswer (Or.inr ⟨e, rfl⟩))
  | idle => exact h.weaken (SubmittedAt.of_snoc_ne hanswer (Or.inl rfl))
  | submitted hfree hstatus habove hwrite =>
    exact h.submits rfl ⟨_, _, _, hlast⟩ hfree hstatus habove hwrite
  | @claimed _ d workerId startedAt job hstored hstatus hfirst hid hscope hwrite =>
    exact h.writes (SubmittedAt.of_snoc_ne hanswer (Or.inl rfl)) hstored
      (start_advances d _ _ _) hwrite
      fun _ => ⟨calls.length, workerId, rfl, startedAt, job, hid, hlast⟩
  | @finished _ d _ status _ _ _ _ hstored hstatus hworker houtcome hwrite =>
    refine h.writes (SubmittedAt.of_snoc_ne hanswer (Or.inl rfl)) hstored
      (settle_advances d hstatus _ houtcome _ _) hwrite fun hrunning => ?_
    obtain rfl : status = .running := hrunning
    cases houtcome
  | @interrupted _ d _ _ _ _ hstored hstatus hwrite =>
    exact h.writes (SubmittedAt.of_snoc_ne hanswer (Or.inl rfl)) hstored
      (settle_advances d hstatus .interrupted rfl _ _) hwrite fun hrunning => by cases hrunning
  | @cancelled _ d _ _ hstored hstatus hwrite =>
    exact h.writes (SubmittedAt.of_snoc_ne hanswer (Or.inl rfl)) hstored
      (cancel_advances d hstatus _) hwrite fun hrunning => by cases hrunning

theorem dbAfter_accounted (json : JobJson) (calls : List Call) :
    Accounted json calls (dbAfter json calls) := by
  refine (store json).run_history (P := Accounted json) (s := Table.empty) ?_ step_accounted calls
  refine ⟨fun k id scope hk => ?_, fun k l d e hkl hk hl hd he => ?_, fun d hd => ?_,
    fun d hd _ => ?_⟩
  · exact absurd hk.lt (Nat.not_lt_zero k)
  · exact absurd hk.lt (Nat.not_lt_zero k)
  · exact absurd hd nofun
  · exact absurd hd nofun

/-! ## Claims -/

theorem run_started (json : JobJson) (htyped : Typed db) (hd : Stored db d)
    (hstatus : d.status ≠ .queued) (calls : List Call) :
    ∃ d', Stored ((store json).run db calls) d' ∧ d'.id = d.id ∧ d'.status ≠ .queued := by
  have hrun := (store json).run_invariant
    (P := fun db => Typed db ∧ ∃ d', Stored db d' ∧ d'.id = d.id ∧ d'.status ≠ .queued)
    (fun db call ⟨htyped, d', hd', hid, hne⟩ => ?_) calls ⟨htyped, d, hd, rfl, hstatus⟩
  · exact hrun.2
  · have hstep := exec_step json htyped call
    obtain ⟨d'', hd'', hadvance⟩ := step_advances hstep hd'
    exact ⟨step_typed hstep htyped, d'', hd'', hadvance.id.trans hid, hadvance.started hne⟩

/-- A call that returns a job to a worker: what it found, and what it leaves. -/
theorem claimed_cases (h : ClaimedAt json calls k id scope workerId) :
    ∃ d, Stored (dbAfter json (calls.take k)) d ∧ d.id = id ∧ d.scope = scope ∧ d.status = .queued ∧
      (∀ e, Stored (dbAfter json (calls.take k)) e → e.scope = scope → e.status = .queued →
        d.sequence ≤ e.sequence) ∧
      ∃ startedAt d', Stored (exec json (dbAfter json (calls.take k))
        (.claimNext scope workerId startedAt)).1 d' ∧ d'.id = id ∧ d'.status = .running ∧
        calls[k]? = some (.claimNext scope workerId startedAt) := by
  obtain ⟨startedAt, job, rfl, hget, hans⟩ := h
  have hstep :=
    exec_step json (dbAfter_typed json (calls.take k)) (.claimNext scope workerId startedAt)
  have hanswer : (exec json (dbAfter json (calls.take k)) (.claimNext scope workerId startedAt)).2 =
      .ok (.claimed (some job)) := hans
  rw [hanswer] at hstep
  generalize hdb :
    (exec json (dbAfter json (calls.take k)) (.claimNext scope workerId startedAt)).1 = db'
    at hstep
  cases hstep with
  | @claimed _ d _ _ _ hstored hstatus hfirst hid hscope hwrite =>
    refine ⟨d, hstored, hid.symm, rfl, hstatus, hfirst, startedAt,
      d.start hstatus workerId startedAt, ?_, hid.symm, rfl, hget⟩
    rw [hdb]
    exact hwrite.same

theorem claimed_not_later {l : ℕ} {scope' : JobScope}
    {workerId' : JobWorkerId} (hk : ClaimedAt json calls k id scope workerId)
    (hl : ClaimedAt json calls l id scope' workerId') : ¬ k < l := by
  intro hlt
  obtain ⟨e, he, rfl, -, hqueued, -⟩ := claimed_cases hl
  obtain ⟨d, -, -, -, -, -, startedAt, d', hd', hid, hrunning, hget⟩ := claimed_cases hk
  obtain ⟨between, hrun⟩ := Machine.Answers.run_take (m := store json) (s := Table.empty)
    (o := (store json).answer (dbAfter json (calls.take k)) (.claimNext scope workerId startedAt))
    ⟨hget, rfl⟩ hlt
  have htyped :
      Typed (exec json (dbAfter json (calls.take k)) (.claimNext scope workerId startedAt)).1 :=
    step_typed (exec_step json (dbAfter_typed json (calls.take k)) _)
      (dbAfter_typed json (calls.take k))
  have hne : d'.status ≠ .queued := by
    rw [hrunning]
    nofun
  obtain ⟨f, hf, hid', hstatus⟩ := run_started json htyped hd' hne between
  have hf' : Stored (dbAfter json (calls.take l)) f := by
    unfold dbAfter
    rw [hrun]
    exact hf
  rw [hf'.unique he (hid'.trans hid)] at hstatus
  exact hstatus hqueued

/-- The claim of a job follows its submission in the same scope, and nothing submitted there before
it is still queued. -/
theorem claimed_in_order (h : ClaimedAt json calls k id scope workerId) :
    ∃ j, j < k ∧ SubmittedAt json calls j id scope ∧
      ∀ i id', i < j → SubmittedAt json calls i id' scope →
      ∀ e, Stored (dbAfter json (calls.take k)) e → e.id = id' → e.status ≠ .queued := by
  have haccounted := dbAfter_accounted json (calls.take k)
  obtain ⟨d, hd, rfl, rfl, hqueued, hfirst, -⟩ := claimed_cases h
  obtain ⟨j, hj⟩ := haccounted.submitted d hd
  obtain ⟨hjk, hj'⟩ := hj.of_take
  refine ⟨j, hjk, hj', fun i id' hij hi e he hid hstatus => ?_⟩
  subst hid
  have hi' := hi.take (n := k) (by omega)
  obtain ⟨e', he', hid, hscope⟩ := haccounted.kept i e.id d.scope hi'
  obtain rfl := he'.unique he hid
  rw [← hscope] at hi'
  have hlt := haccounted.ordered i j e' d hij hi' hj he' hd
  have hle := hfirst e' he' hscope hstatus
  omega

/-! ## Results -/

theorem no_result (h : d.status = .queued ∨ d.status = .running) :
    d.resultJson = none := by
  have hvalid := d.valid
  rcases h with h | h
  all_goals
    rw [h] at hvalid
    simp only [validateRecord, ensure_eq_ok, Bool.and_eq_true, Option.isNone_iff_eq_none] at hvalid
    exact hvalid.2

/-- A result is new only where the job was running, and its worker finished it or it was
interrupted. -/
theorem step_result {answer : Except JobStoreError Reply} (h : Step db call db' answer)
    {d' : JobData} (hd' : Stored db' d') (hresult : d'.resultJson ≠ none) :
    (∃ d, Stored db d ∧ d.id = d'.id ∧ d.resultJson = d'.resultJson) ∨
    ∃ d, Stored db d ∧ d.id = d'.id ∧ d.status = .running ∧
      ((∃ workerId status result finishedAt, d.workerId = some workerId ∧
        call = .finish d.id d.scope workerId status result finishedAt) ∨
      ∃ reason finishedAt, call = .markInterrupted d.id d.scope reason finishedAt) := by
  cases h with
  | refused | idle => exact Or.inl ⟨d', hd', rfl, rfl⟩
  | submitted hfree hstatus hlast hwrite =>
    rcases (stored_new hwrite).mp hd' with rfl | ⟨-, hd'⟩
    · exact absurd (no_result (Or.inl hstatus)) hresult
    · exact Or.inl ⟨d', hd', rfl, rfl⟩
  | @claimed _ d _ _ _ hstored hstatus hfirst hid hscope hwrite =>
    rcases (stored_writes (start_advances d hstatus _ _).id hwrite).mp hd' with rfl | ⟨-, hd'⟩
    · exact Or.inl ⟨d, hstored, rfl, rfl⟩
    · exact Or.inl ⟨d', hd', rfl, rfl⟩
  | @finished _ d workerId status result finishedAt _ _ hstored hstatus hworker houtcome hwrite =>
    rcases (stored_writes (settle_advances d hstatus status houtcome _ _).id hwrite).mp hd' with
      rfl | ⟨-, hd'⟩
    · exact Or.inr
        ⟨d, hstored, rfl, hstatus, Or.inl ⟨workerId, status, result, finishedAt, hworker, rfl⟩⟩
    · exact Or.inl ⟨d', hd', rfl, rfl⟩
  | @interrupted _ d reason finishedAt _ _ hstored hstatus hwrite =>
    rcases (stored_writes (settle_advances d hstatus .interrupted rfl _ _).id hwrite).mp hd' with
      rfl | ⟨-, hd'⟩
    · exact Or.inr ⟨d, hstored, rfl, hstatus, Or.inr ⟨reason, finishedAt, rfl⟩⟩
    · exact Or.inl ⟨d', hd', rfl, rfl⟩
  | @cancelled _ d _ _ hstored hstatus hwrite =>
    rcases (stored_writes (cancel_advances d hstatus _).id hwrite).mp hd' with rfl | ⟨-, hd'⟩
    · exact Or.inl ⟨d, hstored, rfl, rfl⟩
    · exact Or.inl ⟨d', hd', rfl, rfl⟩

/-- The row of a job passes `validateRecord`. -/
theorem validateRecord_row (d : JobData) :
    validateRecord d.status d.row.startedAt d.row.finishedAt d.row.resultJson = .ok () := by
  have hvalid := d.valid
  unfold validateRecord at hvalid ⊢
  simp only [JobData.row, Option.isSome_map, Option.isNone_map]
  exact hvalid

/-- The job waits to be claimed. -/
def Queued (db : JobDb) (id : JobId) : Prop :=
  ∃ row, db.get? id.text = some row ∧ row.status = "queued"

/-- **The job queue.** In every run a job is submitted at most once and claimed at most once, in its
scope and first come first served; a row gets a result only while its job runs, from its worker or
by an interruption; a terminal status stays; and every row can be read. -/
theorem job_queue (json : JobJson) (calls : List Call) :
    (∀ k l id scope scope', SubmittedAt json calls k id scope → SubmittedAt json calls l id scope' →
      k = l) ∧
    (∀ k l id scope scope' workerId workerId', ClaimedAt json calls k id scope workerId →
      ClaimedAt json calls l id scope' workerId' → k = l) ∧
    (∀ k id scope workerId, ClaimedAt json calls k id scope workerId →
      ∃ j, j < k ∧ SubmittedAt json calls j id scope ∧
        ∀ i id', i < j → SubmittedAt json calls i id' scope →
          ¬ Queued (dbAfter json (calls.take k)) id') ∧
    (∀ call key row', (dbAfter json (calls ++ [call])).get? key = some row' →
      row'.resultJson ≠ none →
      (∃ row, (dbAfter json calls).get? key = some row ∧ row.resultJson = row'.resultJson) ∨
      ∃ row id scope, (dbAfter json calls).get? key = some row ∧ row.status = "running" ∧
        row.resultJson = none ∧ id.text = key ∧
        ((∃ workerId status result finishedAt k,
            call = .finish id scope workerId status result finishedAt ∧
            ClaimedAt json calls k id scope workerId) ∨
        ∃ reason finishedAt, call = .markInterrupted id scope reason finishedAt)) ∧
    (∀ call key row status, (dbAfter json calls).get? key = some row →
      decodeStatus row.status = .ok status → status.isTerminal = true →
      (dbAfter json (calls ++ [call])).get? key = some row) ∧
    (∀ key row, (dbAfter json calls).get? key = some row →
      (∃ status, decodeStatus row.status = .ok status ∧
        validateRecord status row.startedAt row.finishedAt row.resultJson = .ok ()) ∧
      decodeJob json row ≠ .error .corruptRecord) := by
  have haccounted := dbAfter_accounted json calls
  have htyped := dbAfter_typed json calls
  refine ⟨fun k l id scope scope' hk hl => ?_,
    fun k l id scope scope' workerId workerId' hk hl => ?_,
    fun k id scope workerId hk => ?_, fun call key row' hget hresult => ?_,
    fun call key row status hget hdecode hterminal => ?_, fun key row hget => ?_⟩
  · -- Two submissions of one identifier would give its job two sequences, one below the other.
    obtain ⟨d, hd, rfl, rfl⟩ := haccounted.kept k id scope hk
    obtain ⟨e, he, hid, rfl⟩ := haccounted.kept l d.id scope' hl
    obtain rfl := he.unique hd hid
    rcases Nat.lt_trichotomy k l with hlt | rfl | hlt
    · exact absurd (haccounted.ordered k l e e hlt hk hl hd hd) (Int.lt_irrefl _)
    · rfl
    · exact absurd (haccounted.ordered l k e e hlt hl hk hd hd) (Int.lt_irrefl _)
  · have h1 := claimed_not_later hk hl
    have h2 := claimed_not_later hl hk
    omega
  · obtain ⟨j, hjk, hj, hfirst⟩ := claimed_in_order hk
    refine ⟨j, hjk, hj, fun i id' hij hi => ?_⟩
    rintro ⟨row, hget, hqueued⟩
    obtain ⟨e, rfl, he⟩ := dbAfter_typed json (calls.take k) _ _ hget
    have hid : e.id = id' := Id.ext_text (Table.get?_eq_some.mp hget).2
    exact hfirst i id' hij hi e he hid (row_status.mp hqueued)
  · obtain ⟨d', rfl, hd'⟩ := dbAfter_typed json (calls ++ [call]) _ _ hget
    have hkey : d'.id.text = key := (Table.get?_eq_some.mp hget).2
    rcases step_result (dbAfter_step json calls call) hd' hresult with ⟨d, hd, hid, hsame⟩ |
      ⟨d, hd, hid, hrunning, hcall⟩
    · refine Or.inl ⟨d.row, ?_, hsame⟩
      rw [← hkey, ← hid]
      exact hd
    · refine Or.inr ⟨d.row, d.id, d.scope, ?_, row_status.mpr hrunning, no_result (Or.inr hrunning),
        ?_, ?_⟩
      · rw [← hkey, ← hid]
        exact hd
      · rw [hid, hkey]
      · rcases hcall with ⟨workerId, status, result, finishedAt, hworker, hcall⟩ | hcall
        · obtain ⟨k, workerId', hworker', hclaimed⟩ := haccounted.claimed d hd hrunning
          rw [hworker, Option.some.injEq] at hworker'
          subst hworker'
          exact Or.inl ⟨workerId, status, result, finishedAt, k, hcall, hclaimed⟩
        · exact Or.inr hcall
  · obtain ⟨d, rfl, hd⟩ := htyped _ _ hget
    have hkey : d.id.text = key := (Table.get?_eq_some.mp hget).2
    obtain rfl : d.status = status := by
      rw [show d.row.status = d.status.asStr from rfl, decodeStatus_asStr,
        Except.ok.injEq] at hdecode
      exact hdecode
    obtain ⟨d', hd', hadvance⟩ := step_advances (dbAfter_step json calls call) hd
    rw [hadvance.settled hterminal] at hd'
    rw [← hkey]
    exact hd'
  · obtain ⟨d, rfl, -⟩ := htyped _ _ hget
    exact ⟨⟨d.status, decodeStatus_asStr d.status, validateRecord_row d⟩, decodeJob_row_ne d⟩

end Pandora.Jobs.Queue
