import Pandora.Lib.HashChain
import Pandora.Lib.Runs
import Pandora.Sessions.StepDigests

/-! # Chains of journal steps

The steps of a session form a chain when the digest of each is the one `compute_step_digest` gives
for its fields and the digest of the step before it (`Verifiable`). A captured turn that goes to the
end of the journal of its session prolongs the chain, a rewind keeps the front of it. A fork copies
digests that were computed for the parent's identifier. -/

namespace Pandora.Sessions.JournalChains

open Ids Lib.Checked Lib.MachineInts Lib.Tables Lib.Runs Lib.HashChain Sessions.Journal List Table
  Sessions.StepDigests

variable {ext : Externals} {store store' : SessionStore} {sessionId : SessionId}

/-! ## Commands -/

/-- The digest of the last stored step of the session. -/
def lastStored (store : SessionStore) (sessionId : SessionId) : Option String :=
  lastDigest JournalStep.sha256Digest none (store.loadJournalSteps sessionId)

/-- A turn is captured after the last stored step of its session, and stored. -/
def capture (ext : Externals) (store : SessionStore) (turn : Turn) :
    Except SessionError SessionStore :=
  store.storeJournalStep
    (captureTurnStep ext { turn with prevDigest := lastStored store turn.sessionId })

inductive Command
  | create (session : Session)
  | saveAgentTranscript (sessionId : SessionId) (principalId : PrincipalId) (tenantId : TenantId)
    (workspaceId : WorkspaceId) (messages : List ChatMessage)
  | deleteSession (sessionId : SessionId)
  | capture (turn : Turn)
  | rewind (sessionId : SessionId) (targetStep : UInt64) (workspace : Option String)
  | fork (request : ForkRequest)
  | diff (sessionId : SessionId) (stepA stepB : UInt64)

/-- The store after a call that writes nothing if it fails. -/
def settle (store : SessionStore) : Except SessionError SessionStore →
    SessionStore × Except SessionError Unit
  | .ok store' => (store', .ok ())
  | .error e => (store, .error e)

def exec (ext : Externals) (store : SessionStore) :
    Command → SessionStore × Except SessionError Unit
  | .create session => settle store (store.create session)
  | .saveAgentTranscript sessionId principalId tenantId workspaceId messages =>
    settle store (store.saveAgentTranscript ext sessionId principalId tenantId workspaceId messages)
  | .deleteSession sessionId => (store.deleteSession sessionId, .ok ())
  | .capture turn => settle store (capture ext store turn)
  | .rewind sessionId targetStep workspace =>
    let answer := rewind ext store sessionId targetStep workspace
    (answer.1, answer.2.map fun _ => ())
  | .fork request =>
    let answer := fork ext store request
    (answer.1, answer.2.map fun _ => ())
  | .diff sessionId stepA stepB =>
    let answer := diff ext store sessionId stepA stepB
    (answer.1, answer.2.map fun _ => ())

def machine (ext : Externals) : Machine SessionStore Command (Except SessionError Unit) :=
  ⟨exec ext⟩

/-! ## The journal of a session -/

theorem column_key {a b : JournalStep} (ha : decide (a.sessionId = sessionId) = true)
    (hb : decide (b.sessionId = sessionId) = true) (h : stepColumn a = stepColumn b) :
    stepKey a = stepKey b := by
  rw [decide_eq_true_eq] at ha hb
  unfold stepKey
  rw [ha, hb, h]

theorem of_stepKey {a b : JournalStep} (h : stepKey a = stepKey b) :
    a.sessionId = b.sessionId ∧ stepColumn a = stepColumn b := by
  unfold stepKey at h
  rwa [Prod.mk.injEq] at h

variable {step : JournalStep}

theorem mem_loadJournalSteps :
    step ∈ store.loadJournalSteps sessionId ↔ step ∈ store.journal ∧
      step.sessionId = sessionId := by
  unfold SessionStore.loadJournalSteps
  rw [mem_selectBy, decide_eq_true_eq]

theorem sorted_loadJournalSteps : (store.loadJournalSteps sessionId).Pairwise
    fun a b => stepColumn a < stepColumn b :=
  sorted_selectBy (fun _ _ => column_key) _

theorem loadJournalSteps_eq {steps : List JournalStep}
    (hsorted : steps.Pairwise fun a b => stepColumn a < stepColumn b)
    (hmem : ∀ step, step ∈ steps ↔ step ∈ store.journal ∧ step.sessionId = sessionId) :
    store.loadJournalSteps sessionId = steps := by
  refine selectBy_eq (fun _ _ => column_key) hsorted fun step => ?_
  rw [hmem step, decide_eq_true_eq]

theorem loadJournalSteps_congr (h : ∀ step : JournalStep, step.sessionId = sessionId →
      (step ∈ store'.journal ↔ step ∈ store.journal)) :
    store'.loadJournalSteps sessionId = store.loadJournalSteps sessionId := by
  refine loadJournalSteps_eq sorted_loadJournalSteps fun step => ?_
  rw [mem_loadJournalSteps]
  constructor
  · rintro ⟨hmem, hsession⟩
    exact ⟨(h step hsession).mpr hmem, hsession⟩
  · rintro ⟨hmem, hsession⟩
    exact ⟨(h step hsession).mp hmem, hsession⟩

theorem storeJournalStep_eq_ok :
    store.storeJournalStep step = .ok store' ↔ step.timestamp.toNat < 2 ^ 63 ∧
      { store with journal := store.journal.upsert step } = store' := by
  unfold SessionStore.storeJournalStep
  simp only [bind_eq_ok, orError_eq_ok, fitsI64_eq_some, pure_eq_ok]
  constructor
  · rintro ⟨_, ⟨htime, -⟩, hstore⟩
    exact ⟨htime, hstore⟩
  · rintro ⟨htime, hstore⟩
    exact ⟨_, ⟨htime, rfl⟩, hstore⟩

theorem loadJournalSteps_store
    (habove : ∀ s ∈ store.loadJournalSteps step.sessionId, stepColumn s < stepColumn step)
    (h : store.storeJournalStep step = .ok store') :
    store'.loadJournalSteps step.sessionId = store.loadJournalSteps step.sessionId ++ [step] := by
  obtain ⟨-, rfl⟩ := storeJournalStep_eq_ok.mp h
  refine loadJournalSteps_eq ?_ fun s => ?_
  · rw [pairwise_append]
    refine ⟨sorted_loadJournalSteps, pairwise_singleton _ _, fun a ha b hb => ?_⟩
    rw [mem_singleton] at hb
    subst hb
    exact habove a ha
  · rw [mem_append, mem_singleton, mem_loadJournalSteps, mem_upsert]
    constructor
    · rintro (⟨hmem, hsession⟩ | rfl)
      · refine ⟨Or.inr ⟨hmem, fun hkey => ?_⟩, hsession⟩
        have hlt := habove s (mem_loadJournalSteps.mpr ⟨hmem, hsession⟩)
        have hcolumn := (of_stepKey hkey).2
        omega
      · exact ⟨Or.inl rfl, rfl⟩
    · rintro ⟨rfl | ⟨hmem, -⟩, hsession⟩
      · exact Or.inr rfl
      · exact Or.inl ⟨hmem, hsession⟩

theorem loadJournalSteps_store_other (hne : sessionId ≠ step.sessionId)
    (h : store.storeJournalStep step = .ok store') :
    store'.loadJournalSteps sessionId = store.loadJournalSteps sessionId := by
  obtain ⟨-, rfl⟩ := storeJournalStep_eq_ok.mp h
  refine loadJournalSteps_congr fun s hs => ?_
  rw [mem_upsert]
  constructor
  · rintro (rfl | ⟨hmem, -⟩)
    · exact absurd hs.symm hne
    · exact hmem
  · intro hmem
    refine Or.inr ⟨hmem, fun hkey => hne ?_⟩
    rw [← hs]
    exact (of_stepKey hkey).1

theorem loadJournalSteps_store_again (hmem : step ∈ store.journal)
    (h : store.storeJournalStep step = .ok store') (sessionId : SessionId) :
    store'.loadJournalSteps sessionId = store.loadJournalSteps sessionId := by
  obtain ⟨-, rfl⟩ := storeJournalStep_eq_ok.mp h
  refine loadJournalSteps_congr fun s _ => ?_
  rw [mem_upsert]
  constructor
  · rintro (rfl | ⟨hs, -⟩)
    · exact hmem
    · exact hs
  · intro hs
    by_cases hkey : stepKey s = stepKey step
    · exact Or.inl (Table.eq_of_key hs hmem hkey)
    · exact Or.inr ⟨hs, hkey⟩

theorem loadJournalSteps_truncate (stepIndex : UInt64) :
    (store.truncateJournalAfter sessionId stepIndex).loadJournalSteps sessionId =
      (store.loadJournalSteps sessionId).filter
        fun step => stepColumn step ≤ IntType.i64.wrap stepIndex.toNat := by
  refine loadJournalSteps_eq (sorted_loadJournalSteps.sublist filter_sublist) fun step => ?_
  unfold SessionStore.truncateJournalAfter
  rw [mem_filter, mem_loadJournalSteps, mem_delete, Bool.and_eq_false_iff,
    decide_eq_false_iff_not, decide_eq_false_iff_not, decide_eq_true_eq]
  constructor
  · rintro ⟨⟨hmem, hsession⟩, hle⟩
    exact ⟨⟨hmem, Or.inr (by omega)⟩, hsession⟩
  · rintro ⟨⟨hmem, hne | hle⟩, hsession⟩
    · exact absurd hsession hne
    · exact ⟨⟨hmem, hsession⟩, by omega⟩

theorem loadJournalSteps_truncate_other {other : SessionId} (hne : sessionId ≠ other)
    (stepIndex : UInt64) :
    (store.truncateJournalAfter other stepIndex).loadJournalSteps sessionId =
      store.loadJournalSteps sessionId := by
  refine loadJournalSteps_congr fun step hstep => ?_
  unfold SessionStore.truncateJournalAfter
  rw [mem_delete, Bool.and_eq_false_iff, decide_eq_false_iff_not]
  constructor
  · exact fun h => h.1
  · intro hmem
    exact ⟨hmem, Or.inl fun hother => hne (hstep.symm.trans hother)⟩

/-! ## Verifiable journals -/

/-- The digest of the step is the one of its own fields, after the given digest. -/
def Verifies (ext : Externals) (prev : Option String) (step : JournalStep) : Prop :=
  step.sha256Digest = computeStepDigest ext step.stepIndex step.sessionId step.toolName
    step.arguments step.workspaceDiff step.environmentState prev

/-- Every stored step of every session verifies after the one before it. -/
def Verifiable (ext : Externals) (store : SessionStore) : Prop :=
  ∀ sessionId, Chained JournalStep.sha256Digest (Verifies ext) none
    (store.loadJournalSteps sessionId)

theorem verifies_capture (ext : Externals) (turn : Turn) :
    Verifies ext turn.prevDigest (captureTurnStep ext turn) := rfl

theorem verifiable_congr (h : Verifiable ext store)
    (hload : ∀ sessionId, store'.loadJournalSteps sessionId = store.loadJournalSteps sessionId) :
    Verifiable ext store' := by
  intro sessionId
  rw [hload sessionId]
  exact h sessionId

theorem verifiable_empty : Verifiable ext .empty := by
  intro sessionId
  have hnil : SessionStore.empty.loadJournalSteps sessionId = [] := rfl
  rw [hnil]
  trivial

theorem Verifiable.append (h : Verifiable ext store)
    (habove : ∀ s ∈ store.loadJournalSteps step.sessionId, stepColumn s < stepColumn step)
    (hverifies : Verifies ext (lastStored store step.sessionId) step)
    (hok : store.storeJournalStep step = .ok store') : Verifiable ext store' := by
  intro sessionId
  by_cases hsession : sessionId = step.sessionId
  · rw [hsession, loadJournalSteps_store habove hok, chained_concat]
    exact ⟨h step.sessionId, hverifies⟩
  · rw [loadJournalSteps_store_other hsession hok]
    exact h sessionId

theorem Verifiable.truncate (h : Verifiable ext store) (sessionId : SessionId)
    (stepIndex : UInt64) : Verifiable ext (store.truncateJournalAfter sessionId stepIndex) := by
  intro other
  by_cases hsession : other = sessionId
  · rw [hsession, loadJournalSteps_truncate]
    exact (h sessionId).front (Table.filter_le_prefix _ sorted_loadJournalSteps)
  · rw [loadJournalSteps_truncate_other hsession]
    exact h other

/-! ### Steps of a transcript -/

theorem loadJournalSteps_storeAll : ∀ {steps : List JournalStep} {store : SessionStore},
    (∀ step ∈ steps, step.sessionId = sessionId ∧ step.timestamp.toNat < 2 ^ 63) →
    ((store.loadJournalSteps sessionId ++ steps).Pairwise fun a b => stepColumn a < stepColumn b) →
    (storeAll store steps).loadJournalSteps sessionId = store.loadJournalSteps sessionId ++ steps ∧
      ∀ other, other ≠ sessionId →
        (storeAll store steps).loadJournalSteps other = store.loadJournalSteps other
  | [], store, _, _ => ⟨(append_nil _).symm, fun _ _ => rfl⟩
  | step :: steps, store, hsteps, hsorted => by
    obtain ⟨hsession, htime⟩ := hsteps step mem_cons_self
    obtain ⟨next, hnext⟩ : ∃ next, store.storeJournalStep step = .ok next :=
      ⟨_, storeJournalStep_eq_ok.mpr ⟨htime, rfl⟩⟩
    have hfirst : storeAll store (step :: steps) = storeAll next steps := by
      unfold storeAll
      rw [foldl_cons, hnext]
      rfl
    have habove : ∀ s ∈ store.loadJournalSteps step.sessionId, stepColumn s < stepColumn step := by
      rw [hsession]
      intro s hs
      exact (pairwise_append.mp hsorted).2.2 s hs step mem_cons_self
    have hload := loadJournalSteps_store habove hnext
    rw [hsession] at hload
    rw [append_cons, ← hload] at hsorted
    obtain ⟨hown, hother⟩ := loadJournalSteps_storeAll
      (fun s hs => hsteps s (mem_cons_of_mem _ hs)) hsorted
    rw [hfirst, hown, hload, ← append_cons]
    refine ⟨rfl, fun other hne => ?_⟩
    rw [hother other hne]
    exact loadJournalSteps_store_other (by rwa [hsession]) hnext

theorem sessions_storeAll (steps : List JournalStep) (store : SessionStore) :
    (storeAll store steps).sessions = store.sessions := by
  unfold storeAll
  induction steps generalizing store with
  | nil => rfl
  | cons step steps ih =>
    rw [foldl_cons, ih]
    rcases hstored : store.storeJournalStep step with e | next
    · rfl
    · obtain ⟨-, rfl⟩ := storeJournalStep_eq_ok.mp hstored
      rfl

theorem stepColumn_message {idx : ℕ} (hidx : idx < maxAgentMessages) (prev : Option String)
    (message : ChatMessage) :
    stepColumn (captureTurnStep ext (messageTurn ext sessionId idx prev message)) = idx := by
  unfold maxAgentMessages at hidx
  unfold stepColumn IntType.wrap captureTurnStep messageTurn
  simp only [UInt64.toNat_ofNat']
  rw [Nat.mod_eq_of_lt (by omega), Int.bmod_eq_of_le (by omega) (by omega)]

/-- The steps of a transcript: they are steps of the session, numbered in order, each after the
digest of the one before it. -/
theorem synthesizeSteps_spec (ext : Externals) (sessionId : SessionId) :
    ∀ (messages : List ChatMessage) (idx : ℕ) (prev : Option String), idx + messages.length ≤
      maxAgentMessages →
    (∀ step ∈ synthesizeSteps ext sessionId idx prev messages,
      (step.sessionId = sessionId ∧ step.timestamp.toNat < 2 ^ 63) ∧ idx ≤ stepColumn step) ∧
    ((synthesizeSteps ext sessionId idx prev messages).Pairwise
      fun a b => stepColumn a < stepColumn b) ∧
    Chained JournalStep.sha256Digest (Verifies ext) prev
      (synthesizeSteps ext sessionId idx prev messages)
  | [], _, _, _ => ⟨fun _ h => absurd h not_mem_nil, .nil, trivial⟩
  | message :: messages, idx, prev, hlength => by
    rw [length_cons] at hlength
    have hcolumn : stepColumn (captureTurnStep ext (messageTurn ext sessionId idx prev message)) =
      idx := stepColumn_message (by omega) prev message
    obtain ⟨hall, hsorted, hchained⟩ := synthesizeSteps_spec ext sessionId messages (idx + 1)
      (some (captureTurnStep ext (messageTurn ext sessionId idx prev message)).sha256Digest)
      (by omega)
    unfold synthesizeSteps
    refine ⟨?_, pairwise_cons.mpr ⟨fun step hstep => ?_, hsorted⟩, rfl, hchained⟩
    · intro step hstep
      rcases mem_cons.mp hstep with rfl | hstep
      · refine ⟨⟨rfl, ?_⟩, le_of_eq hcolumn.symm⟩
        unfold maxAgentMessages at hlength
        change (UInt64.ofNat (100 + idx)).toNat < 2 ^ 63
        rw [UInt64.toNat_ofNat', Nat.mod_eq_of_lt (by omega)]
        omega
      · obtain ⟨hstep, hle⟩ := hall step hstep
        exact ⟨hstep, by omega⟩
    · have hle := (hall step hstep).2
      omega

/-- The steps that `load_or_synthesize_steps` returns. -/
def recordedSteps (ext : Externals) (store : SessionStore) (sessionId : SessionId) :
    List JournalStep :=
  match store.loadJournalSteps sessionId with
  | [] => transcriptSteps ext store sessionId
  | steps => steps

theorem transcriptSteps_spec (ext : Externals) (store : SessionStore) (sessionId : SessionId) :
    (∀ step ∈ transcriptSteps ext store sessionId,
      step.sessionId = sessionId ∧ step.timestamp.toNat < 2 ^ 63) ∧
    ((transcriptSteps ext store sessionId).Pairwise fun a b => stepColumn a < stepColumn b) ∧
    Chained JournalStep.sha256Digest (Verifies ext) none (transcriptSteps ext store sessionId) := by
  unfold transcriptSteps
  rcases store.resume sessionId defaultPrincipal defaultTenant defaultWorkspace with e | transcript
  · exact ⟨fun _ h => absurd h not_mem_nil, .nil, trivial⟩
  · have hlength : 0 + transcript.messages.length ≤ maxAgentMessages := by
      rw [Nat.zero_add]
      exact transcript.short
    obtain ⟨hall, hsorted, hchained⟩ := synthesizeSteps_spec ext sessionId transcript.messages 0
      none hlength
    exact ⟨fun step hstep => (hall step hstep).1, hsorted, hchained⟩

/-- `load_or_synthesize_steps` leaves verifiable journals, the recorded steps among them. -/
theorem loadOrSynthesizeSteps_spec {answer : Except SessionError (List JournalStep)}
    (hverifiable : Verifiable ext store)
    (h : loadOrSynthesizeSteps ext store sessionId = (store', answer)) :
    Verifiable ext store' ∧ store'.sessions = store.sessions ∧
      ∀ steps, answer = .ok steps → store'.loadJournalSteps sessionId = steps ∧
        steps = recordedSteps ext store sessionId := by
  unfold loadOrSynthesizeSteps at h
  unfold recordedSteps
  rcases hload : store.loadJournalSteps sessionId with _ | ⟨step, steps⟩
  · simp only [hload] at h
    obtain ⟨hall, hsorted, hchained⟩ := transcriptSteps_spec ext store sessionId
    rcases hmade : transcriptSteps ext store sessionId with _ | ⟨step, steps⟩
    · simp only [hmade, Prod.mk.injEq] at h
      obtain ⟨rfl, rfl⟩ := h
      exact ⟨hverifiable, rfl, fun _ h => by cases h⟩
    · simp only [hmade, Prod.mk.injEq] at h
      obtain ⟨rfl, rfl⟩ := h
      rw [hmade] at hall hsorted hchained
      obtain ⟨hown, hother⟩ := loadJournalSteps_storeAll hall (by rwa [hload, nil_append])
      rw [hload, nil_append] at hown
      refine ⟨fun other => ?_, sessions_storeAll _ _, ?_⟩
      · by_cases hne : other = sessionId
        · rw [hne, hown]
          exact hchained
        · rw [hother other hne]
          exact hverifiable other
      · rintro _ ⟨⟩
        exact ⟨hown, rfl⟩
  · simp only [hload, Prod.mk.injEq] at h
    obtain ⟨rfl, rfl⟩ := h
    refine ⟨hverifiable, rfl, ?_⟩
    rintro _ ⟨⟩
    exact ⟨hload, rfl⟩

/-! ## Runs -/

/-- The fork makes no session: the step is not recorded, the identifier is taken, or the time does
not fit its column. -/
def Refused (ext : Externals) (store : SessionStore) (request : ForkRequest) : Prop :=
  (∀ step ∈ recordedSteps ext store request.parent, step.stepIndex ≠ request.stepK) ∨
    (∃ session ∈ store.sessions.rows,
      session.id.text = forkedText request.parent request.stepK request.timestamp) ∨
    2 ^ 63 ≤ request.timestamp.toNat

/-- A turn goes to the end of the journal of its session, and a fork makes no session. (An
identifier made of the parent's that is the parent's again does no harm either.) -/
def InOrder (ext : Externals) (store : SessionStore) : Command → Prop
  | .capture turn => turn.timestamp.toNat < 2 ^ 63 → ∀ step ∈ store.loadJournalSteps turn.sessionId,
      stepColumn step < IntType.i64.wrap turn.stepIndex.toNat
  | .fork request => Refused ext store request ∨
    forkedText request.parent request.stepK request.timestamp = request.parent.text
  | _ => True

theorem create_eq_ok {session : Session} (h : store.create session = .ok store') :
    session.createdAt.toNat < 2 ^ 63 ∧ (∀ s ∈ store.sessions.rows, s.id ≠ session.id) ∧
      store'.journal = store.journal := by
  unfold SessionStore.create at h
  obtain ⟨time, htime, h₁⟩ := bind_eq_ok.mp h
  obtain ⟨sessions, hsessions, h₂⟩ := bind_eq_ok.mp h₁
  rw [pure_eq_ok] at h₂
  subst h₂
  rw [orError_eq_ok] at htime hsessions
  unfold fitsI64 at htime
  split_ifs at htime with hfits
  exact ⟨hfits, (Table.insert?_eq_some hsessions).1, rfl⟩

variable {request : ForkRequest}

theorem createFork_eq_ok {forked : SessionId}
    (h : createFork store request = .ok (store', forked)) :
    forked.text = forkedText request.parent request.stepK request.timestamp ∧
      request.timestamp.toNat < 2 ^ 63 ∧ (∀ s ∈ store.sessions.rows, s.id ≠ forked) ∧
      store'.journal = store.journal := by
  unfold createFork at h
  obtain ⟨id, hid, h₁⟩ := bind_eq_ok.mp h
  obtain ⟨created, hcreated, h₂⟩ := bind_eq_ok.mp h₁
  rw [pure_eq_ok, Prod.mk.injEq] at h₂
  obtain ⟨rfl, rfl⟩ := h₂
  rw [mapError_eq_ok] at hid
  obtain ⟨htime, hfree, hjournal⟩ := create_eq_ok hcreated
  exact ⟨Id.new_eq_ok hid, htime, hfree, hjournal⟩

theorem loadJournalSteps_of_journal (h : store'.journal = store.journal) (sessionId : SessionId) :
    store'.loadJournalSteps sessionId = store.loadJournalSteps sessionId := by
  unfold SessionStore.loadJournalSteps
  rw [h]

theorem loadJournalSteps_copySteps : ∀ {steps : List JournalStep} {store : SessionStore},
    (∀ step ∈ steps, step ∈ store.loadJournalSteps sessionId) → ∀ other,
      (copySteps sessionId store steps).1.loadJournalSteps other = store.loadJournalSteps other
  | [], _, _, _ => rfl
  | step :: steps, store, hsteps, other => by
    have hin := hsteps step mem_cons_self
    obtain ⟨hmem, hsession⟩ := mem_loadJournalSteps.mp hin
    have hcopy : { step with sessionId := sessionId } = step := by rw [← hsession]
    unfold copySteps
    rw [hcopy]
    rcases hstored : store.storeJournalStep step with e | next
    · rfl
    · have hsame := loadJournalSteps_store_again hmem hstored
      rw [← hsame other]
      exact loadJournalSteps_copySteps
        (fun s hs => by rw [hsame]; exact hsteps s (mem_cons_of_mem _ hs)) other

/-- The store after a fork: the one with the steps of the parent, and the copies if a session was
created for them. -/
theorem fork_cases {loaded : SessionStore} {answer : Except SessionError (List JournalStep)}
    (hloaded : loadOrSynthesizeSteps ext store request.parent = (loaded, answer)) :
    (fork ext store request).1 = loaded ∨ ∃ steps created forked, answer = .ok steps ∧
      (∃ step ∈ steps, step.stepIndex = request.stepK) ∧
      createFork loaded request = .ok (created, forked) ∧ (fork ext store request).1 =
        (copySteps forked created (steps.filter (·.stepIndex ≤ request.stepK))).1 := by
  unfold fork
  rcases answer with e | steps
  · rw [hloaded]
    exact Or.inl rfl
  · simp only [hloaded]
    split_ifs with hany
    · obtain ⟨step, hstep, hindex⟩ := any_eq_true.mp hany
      rw [decide_eq_true_eq] at hindex
      rcases hcreated : createFork loaded request with e | ⟨created, forked⟩
      · exact Or.inl rfl
      · refine Or.inr ⟨steps, created, forked, rfl, ⟨step, hstep, hindex⟩, rfl, ?_⟩
        rcases hcopied : copySteps forked created
          (steps.filter (·.stepIndex ≤ request.stepK)) with ⟨copied, e | ⟨⟩⟩
        all_goals simp only [hcopied]
    · exact Or.inl rfl

theorem verifiable_fork (h : Verifiable ext store) (horder : InOrder ext store (.fork request)) :
    Verifiable ext (fork ext store request).1 := by
  rcases hloaded : loadOrSynthesizeSteps ext store request.parent with ⟨loaded, answer⟩
  obtain ⟨hverifiable, hsessions, hanswer⟩ := loadOrSynthesizeSteps_spec h hloaded
  rcases fork_cases hloaded with hsame | ⟨steps, created, forked, rfl, hrecords, hcreated, hcopied⟩
  · rw [hsame]
    exact hverifiable
  · obtain ⟨hload, hrecorded⟩ := hanswer steps rfl
    obtain ⟨htext, htime, hfree, hjournal⟩ := createFork_eq_ok hcreated
    rcases horder with (hunrecorded | ⟨session, hsession, hid⟩ | hlate) | hself
    · -- the step is recorded
      obtain ⟨step, hstep, hindex⟩ := hrecords
      rw [hrecorded] at hstep
      exact absurd hindex (hunrecorded step hstep)
    · -- the identifier was free
      rw [← hsessions] at hsession
      exact absurd (Id.ext_text (hid.trans htext.symm)) (hfree session hsession)
    · omega
    · have hparent : forked = request.parent := Id.ext_text (htext.trans hself)
      subst hparent
      have hcreatedLoad := loadJournalSteps_of_journal hjournal
      have hin : ∀ step ∈ steps.filter (·.stepIndex ≤ request.stepK),
          step ∈ created.loadJournalSteps request.parent := by
        intro step hstep
        rw [hcreatedLoad, hload]
        exact (mem_filter.mp hstep).1
      rw [hcopied]
      refine verifiable_congr hverifiable fun other => ?_
      rw [loadJournalSteps_copySteps hin other, hcreatedLoad other]

theorem verifiable_capture {turn : Turn} (h : Verifiable ext store)
    (horder : InOrder ext store (.capture turn)) (hok : capture ext store turn = .ok store') :
    Verifiable ext store' := by
  unfold capture at hok
  obtain ⟨htime, -⟩ := storeJournalStep_eq_ok.mp hok
  have hverifies := verifies_capture ext { turn with prevDigest := lastStored store turn.sessionId }
  exact h.append (horder htime) hverifies hok

theorem verifiable_rewind {targetStep : UInt64} {workspace : Option String}
    (h : Verifiable ext store) :
    Verifiable ext (rewind ext store sessionId targetStep workspace).1 := by
  unfold rewind
  rcases hloaded : loadOrSynthesizeSteps ext store sessionId with ⟨loaded, answer⟩
  obtain ⟨hverifiable, -, -⟩ := loadOrSynthesizeSteps_spec h hloaded
  rcases answer with e | steps
  · exact hverifiable
  · rcases hfound : findStep steps targetStep with _ | record
    · simp only [hfound]
      exact hverifiable
    · simp only [hfound]
      exact hverifiable.truncate sessionId targetStep

theorem verifiable_diff {stepA stepB : UInt64} (h : Verifiable ext store) :
    Verifiable ext (diff ext store sessionId stepA stepB).1 := by
  unfold diff
  rcases hloaded : loadOrSynthesizeSteps ext store sessionId with ⟨loaded, answer⟩
  obtain ⟨hverifiable, -, -⟩ := loadOrSynthesizeSteps_spec h hloaded
  rcases answer with e | steps
  all_goals exact hverifiable

theorem journal_saveAgentTranscript {principalId : PrincipalId} {tenantId : TenantId}
    {workspaceId : WorkspaceId} {messages : List ChatMessage}
    (h : store.saveAgentTranscript ext sessionId principalId tenantId workspaceId messages =
      .ok store') : store'.journal = store.journal := by
  unfold SessionStore.saveAgentTranscript at h
  split_ifs at h
  obtain ⟨⟨⟩, -, h₁⟩ := bind_eq_ok.mp h
  obtain ⟨⟨⟩, -, h₂⟩ := bind_eq_ok.mp h₁
  obtain ⟨session, -, h₃⟩ := bind_eq_ok.mp h₂
  obtain ⟨⟨⟩, -, h₄⟩ := bind_eq_ok.mp h₃
  rw [pure_eq_ok] at h₄
  subst h₄
  rfl

theorem verifiable_settle {answer : Except SessionError SessionStore} (h : Verifiable ext store)
    (hok : ∀ next, answer = .ok next → Verifiable ext next) :
    Verifiable ext (settle store answer).1 := by
  rcases answer with e | next
  · exact h
  · exact hok next rfl

theorem verifiable_exec {command : Command} (horder : InOrder ext store command)
    (h : Verifiable ext store) : Verifiable ext (exec ext store command).1 := by
  cases command with
  | create session =>
    exact verifiable_settle h fun next hok =>
      verifiable_congr h (loadJournalSteps_of_journal (create_eq_ok hok).2.2)
  | saveAgentTranscript sessionId principalId tenantId workspaceId messages =>
    exact verifiable_settle h fun next hok =>
      verifiable_congr h (loadJournalSteps_of_journal (journal_saveAgentTranscript hok))
  | deleteSession sessionId => exact verifiable_congr h (loadJournalSteps_of_journal rfl)
  | capture turn => exact verifiable_settle h fun next hok => verifiable_capture h horder hok
  | rewind sessionId targetStep workspace => exact verifiable_rewind h
  | fork request => exact verifiable_fork h horder
  | diff sessionId stepA stepB => exact verifiable_diff h

instance (ext : Externals) (store : SessionStore) : (command : Command) →
    Decidable (InOrder ext store command)
  | .create _ => isTrue trivial
  | .saveAgentTranscript .. => isTrue trivial
  | .deleteSession _ => isTrue trivial
  | .capture _ => inferInstanceAs (Decidable (_ → _))
  | .rewind .. => isTrue trivial
  | .fork _ => inferInstanceAs (Decidable ((_ ∨ _ ∨ _) ∨ _))
  | .diff .. => isTrue trivial

def sampleSession : Session where
  id := sampleTurn.sessionId
  principalId := defaultPrincipal
  tenantId := defaultTenant
  workspaceId := defaultWorkspace
  createdAt := 100

def sampleFork : ForkRequest where
  parent := sampleTurn.sessionId
  stepK := 0
  prompt := "another way"
  workspace := "/work"
  principalId := defaultPrincipal
  tenantId := defaultTenant
  workspaceId := defaultWorkspace
  timestamp := 200

def forkedId : SessionId := .ofLiteral "fork-session-1-s0-200"

end Pandora.Sessions.JournalChains
