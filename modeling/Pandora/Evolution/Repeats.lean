import Pandora.Evolution.Replays

/-! # Requests given again

Transitions are never dropped and no two have one identifier, so a request given again finds its own
transition: it is answered `false`, or refused when it is another request. `mark_activated` looks at
the state of the rollout first and is refused by a rollout that was rolled back since. -/

namespace Pandora.Evolution.Repeats

open Text Ids Lib.Checked Lib.Codes List
open Effect.Profile (digestText prefixCode_digestText)
open Evolution.Contracts Evolution.Rollout Evolution.Promotions Evolution.History Evolution.Replays
  EvolutionRollout

variable (sha : Sha256) (json : PayloadWriter)

/-- The rollout is in the state `mark_activated` asks for before it looks for a replay. -/
def Ready (r : EvolutionRollout) (call : Call) : Prop :=
  call.action = .activate → r.activationReady = true

/-- The hash and the writer tell two requests apart. -/
structure ToldApart (call next : Call) : Prop where
  hashes : Set.InjOn sha {requestMessage json call.action call.payload,
    requestMessage json next.action next.payload}
  texts : Set.InjOn json {call.payload, next.payload}

/-- The transition of an accepted request. -/
structure Records (r : EvolutionRollout) (id : RequestDigest) (action : Action)
    (payload : Payload) : Prop where
  event : ∃ event ∈ r.transitions, event.transitionId = id ∧ event.action = action.asStr ∧
    event.requestFingerprint = transitionRequestFingerprint sha json action payload

variable {sha json} {r₀ r : EvolutionRollout} {call next : Call}

/-! ## Transitions stay -/

theorem transitions_exec (r : EvolutionRollout) (call : Call) :
    r.transitions <+: (r.exec sha json call).1.transitions := by
  rcases exec_cases sha json r call with ⟨hsame, -⟩ | ⟨change, -, hpasses, -, hexec⟩ |
    ⟨change, e, -, hpasses, -, hexec⟩
  · rw [hsame]
  · obtain ⟨-, -, -, htransitions⟩ := hpasses.frame
    rw [hexec]
    show r.transitions <+: change.rollout.transitions ++ [change.event]
    rw [htransitions]
    exact prefix_append _ _
  · obtain ⟨-, -, -, htransitions⟩ := hpasses.frame
    rw [hexec]
    show r.transitions <+: change.rollout.transitions
    rw [htransitions]

theorem transitions_run (r : EvolutionRollout) (calls : List Call) :
    r.transitions <+: ((machine sha json).run r calls).transitions :=
  (machine sha json).run_relates (R := fun a b => a.transitions <+: b.transitions)
    (fun _ => prefix_refl _) (fun _ _ _ => List.IsPrefix.trans) transitions_exec r calls

variable {id : RequestDigest} {action : Action} {payload : Payload}

theorem Records.run (h : Records sha json r id action payload) (calls : List Call) :
    Records sha json ((machine sha json).run r calls) id action payload := by
  obtain ⟨event, hevent, hrest⟩ := h.event
  exact ⟨event, (transitions_run r calls).subset hevent, hrest⟩

theorem records_of_replayed {result : Except EvolutionContractError Change} {answer : Bool}
    (h : r.unlessReplayed sha json id action payload result = .ok (.replayed answer)) :
    Records sha json r id action payload := by
  unfold unlessReplayed replay at h
  split at h
  · cases h
  · rename_i given hreplay
    split at hreplay
    · rename_i event hfind
      split_ifs at hreplay with hsame
      have hid := List.find?_some hfind
      rw [decide_eq_true_eq] at hid
      exact ⟨event, mem_of_find?_eq_some hfind, hid, hsame⟩
    · cases hreplay
  · rcases result with _ | _ <;> cases h

theorem records_exec (h : Accepted sha json r call) :
    Records sha json (r.exec sha json call).1 call.transitionId call.action call.payload := by
  obtain ⟨answer, hanswer⟩ := h
  rcases exec_cases sha json r call with ⟨hsame, hnot⟩ | ⟨change, -, hpasses, -, hexec⟩ |
    ⟨change, e, -, -, -, hexec⟩
  · rw [hsame]
    unfold exec settle at hanswer hnot
    rcases hcourse : r.course sha json call with e | (given | change)
    · rw [hcourse] at hanswer
      cases hanswer
    · cases call with
      | markActivated id actor now =>
        simp only [course, markActivated, bind_eq_ok, ensure_eq_ok] at hcourse
        obtain ⟨-, -, hreplayed⟩ := hcourse
        exact records_of_replayed hreplayed
      | _ => exact records_of_replayed hcourse
    · rw [hcourse] at hanswer hnot
      dsimp only at hanswer hnot
      rcases hrecord : change.record with e | recorded
      · rw [hrecord] at hanswer
        cases hanswer
      · rw [hrecord] at hnot
        exact absurd rfl hnot
  · obtain ⟨hid, haction, hfingerprint, -⟩ := hpasses.fields_eq
    rw [hexec]
    exact ⟨change.event, mem_append_right _ mem_cons_self, hid, haction, hfingerprint⟩
  · rw [hexec] at hanswer
    cases hanswer

/-! ## Finding the transition -/

theorem find_transition (hstored : Stored sha json r) {event : EvolutionTransitionEvidence}
    (hevent : event ∈ r.transitions) :
    r.transitions.find? (fun other => other.transitionId = event.transitionId) = some event := by
  rcases hfind : r.transitions.find? (fun other => other.transitionId = event.transitionId) with
    _ | found
  · rw [List.find?_eq_none] at hfind
    exact absurd (by simp) (hfind event hevent)
  · have hid := List.find?_some hfind
    rw [decide_eq_true_eq] at hid
    rw [hfind, inj_on_of_nodup_map hstored.ids (mem_of_find?_eq_some hfind) hevent hid]

theorem unlessReplayed_recorded (hstored : Stored sha json r) {given : Action} {other : Payload}
    (hrecords : Records sha json r id action payload)
    (result : Except EvolutionContractError Change) :
    r.unlessReplayed sha json id given other result =
      if given = action ∧ transitionRequestFingerprint sha json given other =
        transitionRequestFingerprint sha json action payload then .ok (.replayed false)
      else .error .transitionIdReused := by
  obtain ⟨event, hevent, rfl, haction, hfingerprint⟩ := hrecords.event
  unfold unlessReplayed replay
  rw [find_transition hstored hevent]
  dsimp only
  rw [haction, hfingerprint]
  by_cases hsame : given = action ∧ transitionRequestFingerprint sha json given other =
      transitionRequestFingerprint sha json action payload
  · rw [if_pos hsame, if_pos ⟨congrArg Action.asStr hsame.1.symm, hsame.2.symm⟩]
  · rw [if_neg hsame, if_neg]
    rintro ⟨hactions, hfingerprints⟩
    exact hsame ⟨(Action.asStr_inj hactions).symm, hfingerprints.symm⟩

theorem course_recorded (hstored : Stored sha json r)
    (hrecords : Records sha json r call.transitionId action payload) (hready : Ready r call) :
    r.course sha json call =
      if call.action = action ∧ transitionRequestFingerprint sha json call.action call.payload =
        transitionRequestFingerprint sha json action payload then .ok (.replayed false)
      else .error .transitionIdReused := by
  cases call with
  | markActivated id actor now =>
    have hcheck : ensure (r.activationReady = true)
        EvolutionContractError.invalidRolloutTransition = .ok () := ensure_eq_ok.mpr (hready rfl)
    show (ensure (r.activationReady = true) EvolutionContractError.invalidRolloutTransition >>=
      fun _ => _) = _
    rw [hcheck, ok_bind]
    exact unlessReplayed_recorded hstored hrecords _
  | _ => exact unlessReplayed_recorded hstored hrecords _

/-- **A request given again** is answered `false` and changes nothing. -/
theorem exec_repeated (hstored : Stored sha json r)
    (hrecords : Records sha json r call.transitionId call.action call.payload)
    (hready : Ready r call) : r.exec sha json call = (r, .ok false) := by
  unfold exec settle
  rw [course_recorded hstored hrecords hready, if_pos ⟨rfl, rfl⟩]

/-! ## Telling requests apart -/

theorem fingerprint_ne (h : ToldApart sha json call next)
    (hother : next.action ≠ call.action ∨ next.payload ≠ call.payload) :
    ¬ (next.action = call.action ∧ transitionRequestFingerprint sha json next.action next.payload =
      transitionRequestFingerprint sha json call.action call.payload) := by
  rintro ⟨haction, hsame⟩
  have htexts := congrArg Id.text hsame
  have hbytes := hex_inj (String.append_right_inj _ |>.mp htexts)
  have hhash : sha (requestMessage json next.action next.payload) =
      sha (requestMessage json call.action call.payload) := by
    rcases hnext : sha (requestMessage json next.action next.payload) with ⟨bytes, hlength⟩
    rcases hcall : sha (requestMessage json call.action call.payload) with ⟨bytes', hlength'⟩
    rw [hnext, hcall] at hbytes
    obtain rfl : bytes = bytes' := hbytes
    rfl
  have hmessage := h.hashes (Or.inr rfl) (Or.inl rfl) hhash
  unfold requestMessage at hmessage
  rw [haction] at hmessage
  have hwritten := append_cancel_left hmessage
  unfold lengthPrefixed at hwritten
  have hjson := (append_inj hwritten (by rw [length_bigEndian, length_bigEndian])).2
  have hpayload := h.texts (Or.inr rfl) (Or.inl rfl) hjson
  rcases hother with hother | hother
  · exact hother haction
  · exact hother hpayload

/-- **Another request under a recorded identifier** is refused. -/
theorem exec_conflicting (hstored : Stored sha json r)
    (hrecords : Records sha json r call.transitionId call.action call.payload)
    (hid : next.transitionId = call.transitionId)
    (hother : next.action ≠ call.action ∨ next.payload ≠ call.payload)
    (hready : Ready r next) (hapart : ToldApart sha json call next) :
    r.exec sha json next = (r, .error .transitionIdReused) := by
  rw [← hid] at hrecords
  unfold exec settle
  rw [course_recorded hstored hrecords hready, if_neg (fingerprint_ne hapart hother)]

/-! ## The main result -/

/-- What holds of the rollout reached by accepted calls, configured under the identifier. -/
structure HistoryReplays (sha : Sha256) (json : PayloadWriter) (id : RequestDigest)
    (r : EvolutionRollout) (calls : List Call) : Prop where
  valid : r.validate sha json = .ok ()
  repeated : ∀ call ∈ calls, Ready r call → r.exec sha json call = (r, .ok false)
  conflicting : ∀ call ∈ calls, ∀ next : Call, next.transitionId = call.transitionId →
    next.action ≠ call.action ∨ next.payload ≠ call.payload → Ready r next →
      ToldApart sha json call next → r.exec sha json next = (r, .error .transitionIdReused)
  configured : ∀ next : Call, next.transitionId = id → Ready r next →
    r.exec sha json next = (r, .error .transitionIdReused)

theorem records_run : ∀ {calls : List Call} {r : EvolutionRollout},
    (machine sha json).Along (Accepted sha json) r calls → ∀ call ∈ calls,
      Records sha json ((machine sha json).run r calls) call.transitionId call.action call.payload
  | [], _, _, _, hcall => by cases hcall
  | first :: rest, r, halong, call, hcall => by
    rcases List.mem_cons.mp hcall with rfl | hcall
    · exact (records_exec halong.1).run rest
    · exact records_run halong.2 call hcall

theorem records_configure {binding : EvolutionRolloutBinding} {limits : List EvolutionStageLimits}
    {actor : PrincipalId} {now : ℕ}
    (hnew : new sha json binding limits id actor now = .ok r) :
    ∃ payload, Records sha json r id .configure payload := by
  simp only [new, bind_eq_ok, pure_eq_ok] at hnew
  obtain ⟨-, -, -, -, initial, hinitial, rfl⟩ := hnew
  obtain ⟨-, hevent⟩ := EvolutionTransitionEvidence.new_eq_ok.mp hinitial
  refine ⟨.configuration binding (sortLimits limits) actor now, initial,
    mem_singleton_self initial, ?_, ?_, ?_⟩
  · rw [hevent]
  · rw [hevent]
    exact trim_asStr .configure
  · rw [hevent]

theorem action_ne_configure (call : Call) : call.action ≠ .configure := by
  cases call <;> nofun

theorem rollout_history_replays (sha : Sha256) (json : PayloadWriter)
    (binding : EvolutionRolloutBinding) (limits : List EvolutionStageLimits) (id : RequestDigest)
    (actor : PrincipalId) (now : ℕ) (r₀ : EvolutionRollout) (calls : List Call)
    (hnew : EvolutionRollout.new sha json binding limits id actor now = .ok r₀)
    (hcalls : (machine sha json).Along
      (fun r call => Accepted sha json r call ∧ Readable r call) r₀ calls) :
    HistoryReplays sha json id ((machine sha json).run r₀ calls) calls := by
  have hstarts := starts_new hnew
  have haccepted : (machine sha json).Along (Accepted sha json) r₀ calls :=
    (machine sha json).along_of_invariant (P := fun _ => True) (fun _ _ _ _ => trivial)
      (fun _ _ hC _ => hC.1) calls hcalls trivial
  obtain ⟨hstored, hsound, hreplays⟩ := (machine sha json).run_invariant_along
    (P := fun r => Stored sha json r ∧ Sound r₀ r ∧ Replays sha json r)
    (fun _ _ hC => kept_exec hC.1 hC.2) calls hcalls ⟨hstarts.1, sound_new hnew, hstarts.2⟩
  refine ⟨validate_ok hstored hsound hreplays, ?_, ?_, ?_⟩
  · intro call hcall hready
    exact exec_repeated hstored (records_run haccepted call hcall) hready
  · intro call hcall next hid hother hready hapart
    exact exec_conflicting hstored (records_run haccepted call hcall) hid hother hready hapart
  · rintro next rfl hready
    obtain ⟨payload, hconfigure⟩ := records_configure hnew
    unfold exec settle
    rw [course_recorded hstored (hconfigure.run calls) hready, if_neg]
    rintro ⟨haction, -⟩
    exact action_ne_configure next haction

/-! ## A held rollout -/

def paddedHash : Bytes32 :=
  ⟨[171, 217, 98, 7, 195, 153, 34, 50, 225, 162, 99, 18, 122, 202, 0, 87, 188, 235, 23, 36, 6, 242,
    169, 3, 31, 94, 145, 243, 179, 246, 162, 95],
    rfl⟩

def pauseHash : Bytes32 :=
  ⟨[132, 104, 230, 129, 86, 13, 136, 190, 252, 96, 147, 135, 168, 155, 123, 203, 146, 238, 249, 125,
    11, 193, 240, 72, 125, 90, 145, 221, 58, 154, 69, 88],
    rfl⟩

def resumeHash : Bytes32 :=
  ⟨[105, 249, 195, 42, 210, 208, 230, 254, 2, 71, 176, 178, 90, 113, 137, 115, 179, 117, 100, 76,
    159, 71, 85, 45, 1, 49, 49, 252, 13, 149, 102, 62],
    rfl⟩

/-- The digests of the requests below, told apart by the lengths of their messages. -/
def heldSha : Sha256 := fun message =>
  if message.length = 1033 then configureHash else if message.length = 99 then paddedHash
  else if message.length = 98 then pauseHash else resumeHash

def pauseCall (reason : String) : Call := .pause (sampleDigest 20) manager 20 reason

def resumeCall : Call := .resume (sampleDigest 21) manager 30 "hold lifted"

/-- The rollout after the pause. -/
def paused (sha : Sha256) (json : PayloadWriter) (r : EvolutionRollout) (reason : String) :
    EvolutionRollout :=
  (r.simpleChange sha json (sampleDigest 20) .pause .paused manager 20 reason).recorded

theorem pause_recorded (sha : Sha256) (json : PayloadWriter)
    (h : Stands r .canary .running [10] [] 10) (reason : String) (hreason : IsText 1024 reason) :
    r.exec sha json (pauseCall reason) = (paused sha json r reason, .ok true) ∧
      Stands (paused sha json r reason) .canary .paused [20, 10] [] 20 := by
  have hpasses : Passes sha json r (pauseCall reason)
      (r.simpleChange sha json (sampleDigest 20) .pause .paused manager 20 reason) :=
    .pause h.status
  have hid : (pauseCall reason).transitionId = sampleDigest 20 := rfl
  have hreasons : ∀ given ∈ (pauseCall reason).reason?, IsText 1024 given := by
    intro given hgiven
    obtain rfl : reason = given := Option.some.inj hgiven
    exact hreason
  have hrecordable := h.recordable hid hreasons (by decide) (by decide : 10 ≤ 20)
  have hnothing : ∀ m ∈ ([] : List ℕ), m < 65536 := by decide
  have hstands := h.recorded hpasses hid (by decide) hnothing (Nat.zero_le _) h.consumed
  change Stands (paused sha json r reason) r.currentStage .paused _ _ 20 at hstands
  rw [h.stage] at hstands
  exact ⟨exec_recorded (h.fresh (by decide) (by decide)) hpasses hrecordable, hstands⟩

theorem readsBack_of_reason {reason : String} (h : trim reason = reason)
    (hcall : call.reason? = some reason) (haction : call.action = .pause ∨ call.action = .resume) :
    ReadsBack r call := by
  refine ⟨?_, ?_, ?_⟩
  · intro given hgiven
    rw [hcall] at hgiven
    obtain rfl : reason = given := Option.some.inj hgiven
    exact h
  · intro hreject
    rcases haction with haction | haction <;> rw [haction] at hreject <;> cases hreject
  · intro hrollback
    rcases haction with haction | haction <;> rw [haction] at hrollback <;> cases hrollback

theorem held_rollout_replays : ∃ r₀, EvolutionRollout.new heldSha sampleJson sampleBinding
      sampleLimits (sampleDigest 10) manager 10 = .ok r₀ ∧
    HistoryReplays heldSha sampleJson (sampleDigest 10)
      ((machine heldSha sampleJson).run r₀ [pauseCall "operator hold", resumeCall])
      [pauseCall "operator hold", resumeCall] := by
  obtain ⟨r₀, hnew, hstands, -, -⟩ := sample_starts heldSha sampleJson
  obtain ⟨hpaused, hstands'⟩ := pause_recorded heldSha sampleJson hstands "operator hold"
    (by decide +kernel)
  have hreasons : ∀ reason ∈ resumeCall.reason?, IsText 1024 reason := by decide +kernel
  have hid : resumeCall.transitionId = sampleDigest 21 := rfl
  have hrecordable := hstands'.recordable hid hreasons (by decide) (by decide : 20 ≤ 30)
  have hfresh : Fresh (paused heldSha sampleJson r₀ "operator hold") (sampleDigest 21) :=
    hstands'.fresh (by decide) (by decide)
  have hpasses : Passes heldSha sampleJson (paused heldSha sampleJson r₀ "operator hold") resumeCall
      ((paused heldSha sampleJson r₀ "operator hold").simpleChange heldSha sampleJson
        (sampleDigest 21) .resume .running manager 30 "hold lifted") := .resume hstands'.status
  have hresumed := exec_recorded hfresh hpasses hrecordable
  have hpause : Accepted heldSha sampleJson r₀ (pauseCall "operator hold") ∧
      Readable r₀ (pauseCall "operator hold") :=
    ⟨⟨true, congrArg Prod.snd hpaused⟩, fun _ =>
      readsBack_of_reason (by decide +kernel : trim "operator hold" = "operator hold") rfl
        (Or.inl rfl)⟩
  have hresume : Accepted heldSha sampleJson (paused heldSha sampleJson r₀ "operator hold")
      resumeCall ∧ Readable (paused heldSha sampleJson r₀ "operator hold") resumeCall :=
    ⟨⟨true, congrArg Prod.snd hresumed⟩, fun _ =>
      readsBack_of_reason (by decide +kernel : trim "hold lifted" = "hold lifted") rfl
        (Or.inr rfl)⟩
  refine ⟨r₀, hnew, rollout_history_replays heldSha sampleJson sampleBinding sampleLimits
    (sampleDigest 10) manager 10 r₀ _ hnew ⟨hpause, ?_, trivial⟩⟩
  show Accepted heldSha sampleJson (r₀.exec heldSha sampleJson (pauseCall "operator hold")).1
    resumeCall ∧ Readable (r₀.exec heldSha sampleJson (pauseCall "operator hold")).1 resumeCall
  rw [hpaused]
  exact hresume

theorem padded_fingerprint_ne :
    transitionRequestFingerprint heldSha sampleJson .pause (.reason manager "operator hold ") ≠
      transitionRequestFingerprint heldSha sampleJson .pause
        (.reason manager (trim "operator hold ")) := by
  have hpadded :
      (requestMessage sampleJson .pause (.reason manager "operator hold ")).length = 99 := by
    decide +kernel
  have htrimmed : (requestMessage sampleJson .pause
      (.reason manager (trim "operator hold "))).length = 98 := by
    decide +kernel
  intro hsame
  have hbytes := hex_inj (String.append_right_inj _ |>.mp (congrArg Id.text hsame))
  unfold heldSha at hbytes
  rw [hpadded, htrimmed] at hbytes
  revert hbytes
  decide

/-- A reason that ends in a blank is accepted, and the rollout is refused when it is read. -/
theorem padded_reason_refused : ∃ r₀, EvolutionRollout.new heldSha sampleJson sampleBinding
      sampleLimits (sampleDigest 10) manager 10 = .ok r₀ ∧
    (r₀.exec heldSha sampleJson (pauseCall "operator hold ")).2 = .ok true ∧
    (r₀.exec heldSha sampleJson (pauseCall "operator hold ")).1.validate heldSha sampleJson ≠
      .ok () := by
  obtain ⟨r₀, hnew, hstands, -, -⟩ := sample_starts heldSha sampleJson
  obtain ⟨hpaused, -⟩ := pause_recorded heldSha sampleJson hstands "operator hold "
    (by decide +kernel)
  refine ⟨r₀, hnew, by rw [hpaused], ?_⟩
  rw [hpaused]
  intro hvalid
  have hstarted : r₀.transitions ≠ [] := by
    intro hnil
    have hlength := hstands.length
    rw [hnil] at hlength
    cases hlength
  have hpasses : Passes heldSha sampleJson r₀ (pauseCall "operator hold ")
      (r₀.simpleChange heldSha sampleJson (sampleDigest 20) .pause .paused manager 20
        "operator hold ") := .pause hstands.status
  exact padded_fingerprint_ne (fingerprint_of_validate hpasses hvalid hstarted rfl)

end Pandora.Evolution.Repeats
