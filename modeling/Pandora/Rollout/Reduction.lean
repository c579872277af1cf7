import Pandora.Lib.SortedMaps
import Pandora.Rollout.Reducer

/-! # The reduction is exact

One round of either loop succeeds exactly if what it looks at is in order, and then adds one record
(`reduceEvent_eq_ok`, `reduceReceipt_eq_ok`); so do the loops (`foldlM_reduceEvent`,
`foldlM_reduceReceipt`), and the records are a chain that is accepted (`verifyFrom_chain`). -/

namespace Pandora.Rollout.Reducer

open Text Ids Lib.Checked List
open Effect.Profile (digestText)
open Rollout.Records
open Subagents.Store (EffectOutcome)
open EffectReceipt

variable {sha : Sha256} {scope : RolloutScope} {state state' : Reducing} {event : RuntimeEvent}
  {receipt : EffectReceipt}

/-! ### What is in order -/

def IsIdentifier (value : String) : Prop :=
  ¬ (trim value).isEmpty ∧ value.utf8ByteSize ≤ maxLabelBytes

def IsLabel (value : String) : Prop := IsIdentifier value ∧ ¬ value.toList.any isControl

def IsCode (value : String) : Prop := IsIdentifier value ∧ (asBytes value).all codeByte

def IsReason (value : String) : Prop :=
  ¬ (trim value).isEmpty ∧ value.utf8ByteSize ≤ maxReasonBytes

/-- The texts of the payload are within their limits. -/
def PayloadOk : EventPayload → Prop
  | .empty => True
  | .effect capability _ => IsCode capability
  | .policy reason => IsReason reason
  | .failure code => IsCode code
  | .providerCall provider _ => IsLabel provider
  | .mcpEra server era _ => IsLabel server ∧ IsCode era

def OutcomeOk : EffectOutcome → Prop
  | .succeeded => True
  | .failed code => IsCode code
  | .denied reason => IsReason reason

structure InScope (scope : RolloutScope) (context : EventContext) : Prop where
  tenant : context.tenantId = scope.tenantId
  workspace : context.workspaceId = scope.workspaceId
  session : context.sessionId = some scope.sessionId
  execution : context.executionId = some scope.executionId

/-- The receipts are those of the events that complete an effect, and the events are of one
execution. -/
structure Consistent (events : List RuntimeEvent) (receipts : List EffectReceipt) : Prop where
  eventIds : (events.map RuntimeEvent.eventId).Nodup
  scope : ∃ scope, ∀ event ∈ events, InScope scope event.context
  linked : (receipts.map fun receipt => (receipt.receiptId, receipt.requestDigest)).Perm
    (events.filterMap completion)
  receiptIds : (receipts.map receiptId).Nodup

/-- All texts are within their limits, and there are not too many records. -/
structure WithinLimits (contextManifestDigest : String) (events : List RuntimeEvent)
    (receipts : List EffectReceipt) : Prop where
  manifest : isSha256Digest contextManifestDigest = true
  payloads : ∀ event ∈ events, PayloadOk event.payload
  outcomes : ∀ receipt ∈ receipts, OutcomeOk receipt.outcome
  count : 1 + events.length + receipts.length ≤ maxRolloutRecords

/-! ### The evidence -/

theorem exists_unit {p : Unit → Prop} : (∃ a, p a) ↔ p () :=
  ⟨fun ⟨(), h⟩ => h, fun h => ⟨(), h⟩⟩

theorem validateIdentifier_eq_ok {field value : String} :
    validateIdentifier field value = .ok () ↔ IsIdentifier value := by
  unfold validateIdentifier IsIdentifier
  simp only [bind_eq_ok, ensure_eq_ok, exists_const]

theorem validateLabel_eq_ok {field value : String} :
    validateLabel field value = .ok () ↔ IsLabel value := by
  unfold validateLabel IsLabel
  simp only [bind_eq_ok, ensure_eq_ok, exists_unit, validateIdentifier_eq_ok]

theorem validateCode_eq_ok {field value : String} :
    validateCode field value = .ok () ↔ IsCode value := by
  unfold validateCode IsCode
  simp only [bind_eq_ok, ensure_eq_ok, exists_unit, validateIdentifier_eq_ok]

theorem isIdentifier_id {kind : IdKind} (id : Id kind) : IsIdentifier id.text :=
  ⟨id.nonblank, id.short⟩

theorem new_digest (digest : RolloutDigest) : RolloutDigest.new digest.text = .ok digest :=
  dif_pos digest.ok

/-- The digest of a text that is not to be seen. -/
def sensitiveDigest (sha : Sha256) (domain value : String) : RolloutDigest :=
  finishDigest sha (asBytes domain ++ digestText value)

theorem digestSensitive_eq_ok {domain value : String} {digest : RolloutDigest} :
    digestSensitive sha domain value = .ok digest ↔
      IsReason value ∧ digest = sensitiveDigest sha domain value := by
  unfold digestSensitive IsReason sensitiveDigest
  simp only [bind_eq_ok, ensure_eq_ok, exists_const, pure_eq_ok, @eq_comm _ _ digest, and_assoc]

/-- The evidence of a payload whose texts are within their limits. -/
def payloadEvidence (sha : Sha256) : EventPayload → RolloutEventEvidence
  | .empty => .empty
  | .effect capability requestDigest => .effect capability requestDigest
  | .policy reason => .policy (sensitiveDigest sha "pandora-rollout-policy-reason" reason)
  | .failure code => .failure code
  | .providerCall provider requestDigest => .providerCall provider requestDigest
  | .mcpEra server era downgraded => .mcpEra server era downgraded

def outcomeEvidence (sha : Sha256) : EffectOutcome → RolloutEffectOutcome
  | .succeeded => .succeeded
  | .failed code => .failed code
  | .denied reason => .denied (sensitiveDigest sha "pandora-rollout-denial-reason" reason)

def eventEvidence (sha : Sha256) (event : RuntimeEvent) : RolloutEvidence :=
  .runtimeEvent event.eventId event.eventType event.context.harnessId event.context.geneId
    event.context.policyVersion event.context.receiptId (payloadEvidence sha event.payload)

def receiptEvidence (sha : Sha256) (receipt : EffectReceipt) : RolloutEvidence :=
  .effectReceipt receipt.receiptId receipt.permitId receipt.requestDigest receipt.completedAt
    (outcomeEvidence sha receipt.outcome)

theorem projectPayload_eq_ok {payload : EventPayload} {evidence : RolloutEventEvidence} :
    projectPayload sha payload = .ok evidence ↔
      PayloadOk payload ∧ evidence = payloadEvidence sha payload := by
  cases payload with
  | empty => simp only [projectPayload, PayloadOk, payloadEvidence, Except.ok.injEq, true_and,
      @eq_comm _ _ evidence]
  | effect | failure =>
    simp only [projectPayload, PayloadOk, payloadEvidence, bind_eq_ok, exists_unit,
      validateCode_eq_ok, pure_eq_ok, @eq_comm _ _ evidence]
  | policy reason =>
    simp only [projectPayload, PayloadOk, payloadEvidence, bind_eq_ok, digestSensitive_eq_ok,
      pure_eq_ok, and_assoc, exists_and_left, exists_eq_left, @eq_comm _ _ evidence]
  | providerCall provider requestDigest =>
    simp only [projectPayload, PayloadOk, payloadEvidence, bind_eq_ok, exists_unit,
      validateLabel_eq_ok, pure_eq_ok, @eq_comm _ _ evidence]
  | mcpEra server era downgraded =>
    simp only [projectPayload, PayloadOk, payloadEvidence, bind_eq_ok, exists_unit,
      validateLabel_eq_ok, validateCode_eq_ok, pure_eq_ok, and_assoc, @eq_comm _ _ evidence]

theorem projectEvent_eq_ok {evidence : RolloutEvidence} :
    projectEvent sha event = .ok evidence ↔
      PayloadOk event.payload ∧ evidence = eventEvidence sha event := by
  unfold projectEvent eventEvidence
  simp only [bind_eq_ok, projectPayload_eq_ok, pure_eq_ok, @eq_comm _ _ evidence]
  constructor
  · rintro ⟨_, ⟨hok, rfl⟩, h⟩
    exact ⟨hok, h⟩
  · rintro ⟨hok, h⟩
    exact ⟨_, ⟨hok, rfl⟩, h⟩

theorem fromEffectOutcome_eq_ok {outcome : EffectOutcome} {evidence : RolloutEffectOutcome} :
    fromEffectOutcome sha outcome = .ok evidence ↔
      OutcomeOk outcome ∧ evidence = outcomeEvidence sha outcome := by
  cases outcome with
  | succeeded => simp only [fromEffectOutcome, OutcomeOk, outcomeEvidence, Except.ok.injEq,
      true_and, @eq_comm _ _ evidence]
  | failed code =>
    simp only [fromEffectOutcome, OutcomeOk, outcomeEvidence, bind_eq_ok, exists_unit,
      validateCode_eq_ok, pure_eq_ok, @eq_comm _ _ evidence]
  | denied reason =>
    simp only [fromEffectOutcome, OutcomeOk, outcomeEvidence, bind_eq_ok, digestSensitive_eq_ok,
      pure_eq_ok, and_assoc, exists_and_left, exists_eq_left, @eq_comm _ _ evidence]

theorem eventEvidence_valid (h : PayloadOk event.payload) :
    (eventEvidence sha event).validate = .ok () := by
  have hoptional : ∀ {kind : IdKind} (field : String) (id : Option (Id kind)),
      validateOptionalIdentifier field (id.map (·.text)) = .ok () := by
    intro kind field id
    cases id with
    | none => rfl
    | some id => exact validateIdentifier_eq_ok.mpr (isIdentifier_id id)
  have hpayload : (payloadEvidence sha event.payload).validate = .ok () := by
    revert h
    cases event.payload with
    | empty => exact fun _ => rfl
    | effect capability requestDigest =>
      intro h
      simp only [payloadEvidence, RolloutEventEvidence.validate, bind_eq_ok, exists_unit,
        validateCode_eq_ok, validateIdentifier_eq_ok]
      exact ⟨h, isIdentifier_id requestDigest⟩
    | policy reason =>
      intro _
      simp only [payloadEvidence, RolloutEventEvidence.validate, new_digest]
      rfl
    | failure code => exact validateCode_eq_ok.mpr
    | providerCall provider requestDigest =>
      intro h
      simp only [payloadEvidence, RolloutEventEvidence.validate, bind_eq_ok, exists_unit,
        validateLabel_eq_ok, validateIdentifier_eq_ok]
      exact ⟨h, isIdentifier_id requestDigest⟩
    | mcpEra server era downgraded =>
      intro h
      simp only [payloadEvidence, RolloutEventEvidence.validate, bind_eq_ok, exists_unit,
        validateLabel_eq_ok, validateCode_eq_ok]
      exact h
  simp only [eventEvidence, RolloutEvidence.validate, bind_eq_ok, exists_unit,
    validateIdentifier_eq_ok, hoptional]
  exact ⟨isIdentifier_id _, trivial, trivial, trivial, hpayload⟩

theorem receiptEvidence_valid (h : OutcomeOk receipt.outcome) :
    (receiptEvidence sha receipt).validate = .ok () := by
  have houtcome : (outcomeEvidence sha receipt.outcome).validate = .ok () := by
    revert h
    cases receipt.outcome with
    | succeeded => exact fun _ => rfl
    | failed code => exact validateCode_eq_ok.mpr
    | denied reason =>
      intro _
      simp only [outcomeEvidence, RolloutEffectOutcome.validate, new_digest]
      rfl
  simp only [receiptEvidence, RolloutEvidence.validate, bind_eq_ok, exists_unit,
    validateIdentifier_eq_ok]
  exact ⟨isIdentifier_id _, isIdentifier_id _, isIdentifier_id _, houtcome⟩

/-! ### The chain of the records -/

/-- The record of the evidence after the given ones. -/
def nextRecord (sha : Sha256) (scope : RolloutScope) (records : List RolloutRecord)
    (evidence : RolloutEvidence) : RolloutRecord where
  sequence := .ofNat records.length
  scopeDigest := scope.digest sha
  previousDigest := records.getLast?.map (·.digest)
  evidence := evidence
  digest := digestRecord sha (.ofNat records.length) (scope.digest sha)
    (records.getLast?.map (·.digest)) evidence

/-- The records, and those of the evidence after them. -/
def chain (sha : Sha256) (scope : RolloutScope) (records : List RolloutRecord)
    (evidence : List RolloutEvidence) : List RolloutRecord :=
  evidence.foldl (fun records evidence => records ++ [nextRecord sha scope records evidence])
    records

theorem fitsU32_natCast {n : ℕ} (h : n < 2 ^ 32) : fitsU32 n = some (.ofNat n) := by
  unfold fitsU32
  rw [if_pos ⟨by omega, by omega⟩, Int.toNat_natCast]

theorem pushRecord_eq_ok {records out : List RolloutRecord} {evidence : RolloutEvidence}
    (hlength : records.length < 2 ^ 32) (hvalid : evidence.validate = .ok ()) :
    pushRecord sha scope records evidence = .ok out ↔ out = chain sha scope records [evidence] := by
  unfold pushRecord RolloutRecord.link
  rw [fitsU32_natCast hlength]
  simp only [hvalid, bind_eq_ok, orError_eq_ok, mapError_eq_ok, pure_eq_ok, Option.some.injEq,
    exists_eq_left', exists_unit, true_and]
  exact eq_comm

theorem map_evidence_chain (records : List RolloutRecord) (evidence : List RolloutEvidence) :
    (chain sha scope records evidence).map (·.evidence) = records.map (·.evidence) ++ evidence := by
  unfold chain
  induction evidence generalizing records with
  | nil => rw [foldl_nil, append_nil]
  | cons e evidence ih =>
    rw [foldl_cons, ih, map_append, append_assoc]
    rfl

theorem chain_append (records : List RolloutRecord) (first second : List RolloutEvidence) :
    chain sha scope (chain sha scope records first) second =
      chain sha scope records (first ++ second) := (foldl_append ..).symm

theorem verifyFrom_snoc {scopeDigest : RolloutDigest} {index : ℕ}
    {previous last : Option RolloutDigest} {records : List RolloutRecord} {record : RolloutRecord}
    (h : verifyFrom sha scopeDigest index previous records = .ok last)
    (hrecord : verifyFrom sha scopeDigest (index + records.length) last [record] =
      .ok (some record.digest)) :
    verifyFrom sha scopeDigest index previous (records ++ [record]) = .ok (some record.digest) := by
  induction records generalizing index previous with
  | nil =>
    rw [verifyFrom, Except.ok.injEq] at h
    subst h
    exact hrecord
  | cons r records ih =>
    rw [cons_append]
    simp only [verifyFrom, bind_eq_ok, orError_eq_ok, ensure_eq_ok, exists_unit] at h ⊢
    obtain ⟨expected, hfits, hsequence, hscope, hprevious, hverify, hrest⟩ := h
    refine ⟨expected, hfits, hsequence, hscope, hprevious, hverify, ih hrest ?_⟩
    have hindex : index + (r :: records).length = index + 1 + records.length := by
      rw [length_cons]
      omega
    rw [← hindex]
    exact hrecord

/-- **The chain is accepted.** -/
theorem verifyFrom_chain {evidence : List RolloutEvidence}
    (hvalid : ∀ e ∈ evidence, e.validate = .ok ()) (hlength : evidence.length ≤ 2 ^ 32) :
    verifyFrom sha (scope.digest sha) 0 none (chain sha scope [] evidence) =
      .ok ((chain sha scope [] evidence).getLast?.map (·.digest)) := by
  induction evidence using List.reverseRecOn with
  | nil => rfl
  | append_singleton evidence e ih =>
    rw [length_append, length_singleton] at hlength
    have hinit := ih (fun x hx => hvalid x (mem_append_left _ hx)) (by omega)
    have hsnoc : chain sha scope [] (evidence ++ [e]) = chain sha scope [] evidence ++
        [nextRecord sha scope (chain sha scope [] evidence) e] := (chain_append _ _ _).symm
    have hcount : (chain sha scope [] evidence).length = evidence.length := by
      have hmap := congrArg List.length (@map_evidence_chain sha scope [] evidence)
      simpa using hmap
    rw [hsnoc, List.getLast?_concat]
    refine verifyFrom_snoc hinit ?_
    rw [Nat.zero_add, hcount]
    simp only [verifyFrom, RolloutRecord.verify, bind_eq_ok, orError_eq_ok, ensure_eq_ok,
      exists_unit]
    refine ⟨_, fitsU32_natCast (by omega), ?_, rfl, rfl, ⟨?_, rfl⟩, trivial⟩
    · show UInt32.ofNat _ = _
      rw [hcount]
    · exact hvalid e (mem_append_right _ (mem_singleton_self e))

/-! ### One round of either loop -/

theorem validateScope_eq_ok {context : EventContext} :
    validateScope scope context = .ok () ↔ InScope scope context := by
  unfold validateScope
  simp only [bind_eq_ok, orError_eq_ok, ensure_eq_ok, not_or, ne_eq, not_not]
  constructor
  · rintro ⟨session, hsession, execution, hexecution, htenant, hworkspace, rfl, rfl⟩
    exact ⟨htenant, hworkspace, hsession, hexecution⟩
  · intro h
    exact ⟨_, h.session, _, h.execution, h.tenant, h.workspace, rfl, rfl⟩

/-- The state after the event. -/
def afterEvent (sha : Sha256) (scope : RolloutScope) (state : Reducing) (event : RuntimeEvent) :
    Reducing where
  records := chain sha scope state.records [eventEvidence sha event]
  eventIds := insert event.eventId state.eventIds
  receiptLinks := state.receiptLinks ++ (completion event).toList
  receiptIds := state.receiptIds

/-- **One event.** -/
theorem reduceEvent_eq_ok (hlength : state.records.length < 2 ^ 32) :
    reduceEvent sha scope state event = .ok state' ↔
      (InScope scope event.context ∧ PayloadOk event.payload) ∧
      event.eventId ∉ state.eventIds ∧
      (∀ link ∈ completion event, link.1 ∉ state.receiptLinks.map Prod.fst) ∧
      state' = afterEvent sha scope state event := by
  unfold reduceEvent
  simp only [bind_eq_ok, exists_unit, validateScope_eq_ok, ensure_eq_ok, mapError_eq_ok,
    projectEvent_eq_ok, pure_eq_ok]
  constructor
  · rintro ⟨hscope, hfresh, hlinks, _, ⟨hpayload, rfl⟩, records, hpush, rfl⟩
    rw [pushRecord_eq_ok hlength (eventEvidence_valid hpayload)] at hpush
    subst hpush
    exact ⟨⟨hscope, hpayload⟩, hfresh, hlinks, rfl⟩
  · rintro ⟨⟨hscope, hpayload⟩, hfresh, hlinks, rfl⟩
    refine ⟨hscope, hfresh, hlinks, _, ⟨hpayload, rfl⟩, _, ?_, rfl⟩
    exact (pushRecord_eq_ok hlength (eventEvidence_valid hpayload)).mpr rfl

/-- The state after the receipt. -/
def afterReceipt (sha : Sha256) (scope : RolloutScope) (state : Reducing)
    (receipt : EffectReceipt) : Reducing where
  records := chain sha scope state.records [receiptEvidence sha receipt]
  eventIds := state.eventIds
  receiptLinks := state.receiptLinks.filter fun link => link.1 ≠ receipt.receiptId
  receiptIds := insert receipt.receiptId state.receiptIds

/-- Where every receipt is named once, the event that is found is the one there is. -/
theorem find?_link {links : List (ReceiptId × RequestDigest)}
    (hnodup : (links.map Prod.fst).Nodup) {receiptId : ReceiptId} {digest : RequestDigest} :
    (links.find? fun link => link.1 = receiptId).map Prod.snd = some digest ↔
      (receiptId, digest) ∈ links := by
  constructor
  · intro h
    obtain ⟨link, hfind, rfl⟩ := Option.map_eq_some_iff.mp h
    have hid : link.1 = receiptId := by simpa using List.find?_some hfind
    rw [← hid]
    exact mem_of_find?_eq_some hfind
  · intro hmem
    have hfind := Lib.SortedMaps.find?_of_nodup hnodup hmem
    exact congrArg (Option.map Prod.snd) hfind

/-- **One receipt.** -/
theorem reduceReceipt_eq_ok (hlength : state.records.length < 2 ^ 32)
    (hnodup : (state.receiptLinks.map Prod.fst).Nodup) :
    reduceReceipt sha scope state receipt = .ok state' ↔
      OutcomeOk receipt.outcome ∧ receipt.receiptId ∉ state.receiptIds ∧
      (receipt.receiptId, receipt.requestDigest) ∈ state.receiptLinks ∧
      state' = afterReceipt sha scope state receipt := by
  unfold reduceReceipt
  simp only [bind_eq_ok, exists_unit, ensure_eq_ok, orError_eq_ok, find?_link hnodup,
    mapError_eq_ok, fromEffectOutcome_eq_ok, pure_eq_ok]
  constructor
  · rintro ⟨hfresh, _, hlinked, rfl, _, ⟨houtcome, rfl⟩, records, hpush, rfl⟩
    have hpush' := (pushRecord_eq_ok hlength (receiptEvidence_valid houtcome)).mp hpush
    subst hpush'
    exact ⟨houtcome, hfresh, hlinked, rfl⟩
  · rintro ⟨houtcome, hfresh, hlinked, rfl⟩
    refine ⟨hfresh, _, hlinked, rfl, _, ⟨houtcome, rfl⟩, _, ?_, rfl⟩
    exact (pushRecord_eq_ok hlength (receiptEvidence_valid houtcome)).mpr rfl

/-! ### The loops -/

/-- The state after the events. -/
def afterEvents (sha : Sha256) (scope : RolloutScope) (state : Reducing)
    (events : List RuntimeEvent) : Reducing where
  records := chain sha scope state.records (events.map (eventEvidence sha))
  eventIds := state.eventIds ∪ (events.map RuntimeEvent.eventId).toFinset
  receiptLinks := state.receiptLinks ++ events.filterMap completion
  receiptIds := state.receiptIds

theorem length_chain (records : List RolloutRecord) (evidence : List RolloutEvidence) :
    (chain sha scope records evidence).length = records.length + evidence.length := by
  have hmap := congrArg List.length (@map_evidence_chain sha scope records evidence)
  simpa using hmap

theorem links_cons (links : List (ReceiptId × RequestDigest)) (event : RuntimeEvent)
    (events : List RuntimeEvent) :
    links ++ (completion event).toList ++ events.filterMap completion =
      links ++ (event :: events).filterMap completion := by
  rw [append_assoc, filterMap_cons]
  cases completion event <;> rfl

/-- No receipt is named twice if the event does not name one again. -/
theorem nodup_links {links : List (ReceiptId × RequestDigest)}
    (hnodup : (links.map Prod.fst).Nodup) :
    ((links ++ (completion event).toList).map Prod.fst).Nodup ↔
      ∀ link ∈ completion event, link.1 ∉ links.map Prod.fst := by
  rw [map_append, nodup_append]
  cases completion event with
  | none => simp [hnodup]
  | some link =>
    simp only [Option.toList_some, map_singleton, mem_singleton, forall_eq,
      Option.mem_some_iff, forall_eq']
    constructor
    · rintro ⟨-, -, hdisjoint⟩ hmem
      exact hdisjoint _ hmem rfl
    · intro hfresh
      refine ⟨hnodup, nodup_singleton _, fun a ha hab => ?_⟩
      exact hfresh (hab ▸ ha)

theorem afterEvents_cons (events : List RuntimeEvent) :
    afterEvents sha scope (afterEvent sha scope state event) events =
      afterEvents sha scope state (event :: events) := by
  have hids : insert event.eventId state.eventIds ∪ (events.map RuntimeEvent.eventId).toFinset =
      state.eventIds ∪ ((event :: events).map RuntimeEvent.eventId).toFinset := by
    rw [map_cons, toFinset_cons, Finset.insert_union, Finset.union_insert]
  unfold afterEvents afterEvent
  dsimp only
  rw [chain_append, links_cons, hids]
  rfl

/-- New and different identifiers, taken one after the other. -/
theorem fresh_cons {α β : Type} [DecidableEq β]
    {f : α → β} {a : α} {l : List α} {known : Finset β} :
    ((a :: l).map f).Nodup ∧ (∀ b ∈ a :: l, f b ∉ known) ↔
      f a ∉ known ∧ (l.map f).Nodup ∧ ∀ b ∈ l, f b ∉ insert (f a) known := by
  rw [map_cons, nodup_cons, forall_mem_cons]
  constructor
  · rintro ⟨⟨hnot, hunique⟩, hfresh, hfreshAll⟩
    refine ⟨hfresh, hunique, fun b hb hmem => ?_⟩
    rcases Finset.mem_insert.mp hmem with hid | hmem
    · exact hnot (hid ▸ mem_map_of_mem hb)
    · exact hfreshAll b hb hmem
  · rintro ⟨hfresh, hunique, hfreshAll⟩
    refine ⟨⟨fun hmem => ?_, hunique⟩, hfresh, fun b hb hmem => ?_⟩
    · obtain ⟨b, hb, hid⟩ := mem_map.mp hmem
      exact hfreshAll b hb (hid ▸ Finset.mem_insert_self _ _)
    · exact hfreshAll b hb (Finset.mem_insert_of_mem hmem)

/-- **The loop over the events.** -/
theorem foldlM_reduceEvent (events : List RuntimeEvent)
    (hlength : state.records.length + events.length < 2 ^ 32)
    (hnodup : (state.receiptLinks.map Prod.fst).Nodup) :
    events.foldlM (reduceEvent sha scope) state = .ok state' ↔
      (∀ event ∈ events, InScope scope event.context ∧ PayloadOk event.payload) ∧
      ((events.map RuntimeEvent.eventId).Nodup ∧ ∀ event ∈ events, event.eventId ∉ state.eventIds) ∧
      ((state.receiptLinks ++ events.filterMap completion).map Prod.fst).Nodup ∧
      state' = afterEvents sha scope state events := by
  induction events generalizing state with
  | nil =>
    rw [foldlM_nil, pure_eq_ok]
    have hsame : afterEvents sha scope state [] = state := by simp [afterEvents, chain]
    rw [hsame]
    simp [hnodup, eq_comm]
  | cons event events ih =>
    rw [length_cons] at hlength
    rw [foldlM_cons, bind_eq_ok]
    simp only [reduceEvent_eq_ok (show state.records.length < 2 ^ 32 by omega)]
    have hnext : (afterEvent sha scope state event).records.length + events.length < 2 ^ 32 := by
      show (chain sha scope state.records [eventEvidence sha event]).length + _ < _
      rw [length_chain, length_singleton]
      omega
    have hlinks := links_cons state.receiptLinks event events
    rw [fresh_cons, forall_mem_cons]
    constructor
    · rintro ⟨_, ⟨hok, hfresh, hlink, rfl⟩, hrest⟩
      obtain ⟨hall, hunique, hlinkAll, rfl⟩ :=
        (ih hnext ((nodup_links hnodup).mpr hlink)).mp hrest
      exact ⟨⟨hok, hall⟩, ⟨hfresh, hunique⟩, by rwa [← hlinks], afterEvents_cons events⟩
    · rintro ⟨⟨hok, hall⟩, ⟨hfresh, hunique⟩, hlinkAll, rfl⟩
      rw [← hlinks] at hlinkAll
      have hlink : ((state.receiptLinks ++ (completion event).toList).map Prod.fst).Nodup := by
        rw [map_append] at hlinkAll
        exact (nodup_append.mp hlinkAll).1
      exact ⟨_, ⟨hok, hfresh, (nodup_links hnodup).mp hlink, rfl⟩,
        (ih hnext hlink).mpr ⟨hall, hunique, hlinkAll, (afterEvents_cons events).symm⟩⟩

/-- The state after the receipts. -/
def afterReceipts (sha : Sha256) (scope : RolloutScope) (state : Reducing)
    (receipts : List EffectReceipt) : Reducing where
  records := chain sha scope state.records (receipts.map (receiptEvidence sha))
  eventIds := state.eventIds
  receiptLinks := state.receiptLinks.filter fun link =>
    link.1 ∉ receipts.map receiptId
  receiptIds := state.receiptIds ∪ (receipts.map receiptId).toFinset

theorem afterReceipts_cons (receipts : List EffectReceipt) :
    afterReceipts sha scope (afterReceipt sha scope state receipt) receipts =
      afterReceipts sha scope state (receipt :: receipts) := by
  have hids : insert receipt.receiptId state.receiptIds ∪ (receipts.map receiptId).toFinset =
      state.receiptIds ∪ ((receipt :: receipts).map receiptId).toFinset := by
    rw [map_cons, toFinset_cons, Finset.insert_union, Finset.union_insert]
  unfold afterReceipts afterReceipt
  dsimp only
  rw [chain_append, hids, filter_filter]
  congr 1
  refine filter_congr fun link _ => ?_
  rw [Bool.eq_iff_iff, Bool.and_eq_true, decide_eq_true_eq, decide_eq_true_eq, decide_eq_true_eq,
    map_cons, mem_cons, not_or, and_comm]

/-- **The loop over the receipts.** -/
theorem foldlM_reduceReceipt (receipts : List EffectReceipt)
    (hlength : state.records.length + receipts.length < 2 ^ 32)
    (hnodup : (state.receiptLinks.map Prod.fst).Nodup) :
    receipts.foldlM (reduceReceipt sha scope) state = .ok state' ↔
      (∀ receipt ∈ receipts, OutcomeOk receipt.outcome) ∧
      ((receipts.map receiptId).Nodup ∧
        ∀ receipt ∈ receipts, receipt.receiptId ∉ state.receiptIds) ∧
      (∀ receipt ∈ receipts, (receipt.receiptId, receipt.requestDigest) ∈ state.receiptLinks) ∧
      state' = afterReceipts sha scope state receipts := by
  induction receipts generalizing state with
  | nil =>
    rw [foldlM_nil, pure_eq_ok]
    have hsame : afterReceipts sha scope state [] = state := by simp [afterReceipts, chain]
    rw [hsame]
    simp [eq_comm]
  | cons receipt receipts ih =>
    rw [length_cons] at hlength
    rw [foldlM_cons, bind_eq_ok]
    simp only [reduceReceipt_eq_ok (show state.records.length < 2 ^ 32 by omega) hnodup]
    have hnext : (afterReceipt sha scope state receipt).records.length + receipts.length <
        2 ^ 32 := by
      show (chain sha scope state.records [receiptEvidence sha receipt]).length + _ < _
      rw [length_chain, length_singleton]
      omega
    have hkeys : ((afterReceipt sha scope state receipt).receiptLinks.map Prod.fst).Nodup :=
      hnodup.sublist (filter_sublist.map _)
    rw [fresh_cons]
    simp only [forall_mem_cons]
    constructor
    · rintro ⟨_, ⟨hok, hfresh, hlinked, rfl⟩, hrest⟩
      obtain ⟨hall, hunique, hlinkedAll, rfl⟩ := (ih hnext hkeys).mp hrest
      exact ⟨⟨hok, hall⟩, ⟨hfresh, hunique⟩,
        ⟨hlinked, fun other hother => (mem_filter.mp (hlinkedAll other hother)).1⟩,
        afterReceipts_cons receipts⟩
    · rintro ⟨⟨hok, hall⟩, ⟨hfresh, hunique⟩, ⟨hlinked, hlinkedAll⟩, rfl⟩
      refine ⟨_, ⟨hok, hfresh, hlinked, rfl⟩, (ih hnext hkeys).mpr
        ⟨hall, hunique, fun other hmem => ?_, (afterReceipts_cons receipts).symm⟩⟩
      refine mem_filter.mpr ⟨hlinkedAll other hmem, decide_eq_true fun hid => ?_⟩
      exact hunique.2 other hmem (hid ▸ Finset.mem_insert_self _ _)

/-! ### The reduction -/

theorem scopeFromContext_eq_ok {context : EventContext} :
    scopeFromContext context = .ok scope ↔ InScope scope context := by
  unfold scopeFromContext
  simp only [bind_eq_ok, orError_eq_ok, pure_eq_ok]
  constructor
  · rintro ⟨session, hsession, execution, hexecution, rfl⟩
    exact ⟨rfl, rfl, hsession, hexecution⟩
  · intro h
    refine ⟨_, h.session, _, h.execution, ?_⟩
    rw [h.tenant, h.workspace]

theorem new_rollout_eq_ok {records : List RolloutRecord} {rollout : Rollout}
    (h : Rollout.new sha scope records = .ok rollout) :
    rollout.records = records ∧ rollout.scope = scope ∧ rollout.verify sha = .ok () := by
  unfold Rollout.new at h
  simp only [bind_eq_ok, exists_unit, orError_eq_ok, pure_eq_ok] at h
  obtain ⟨finalDigest, -, hverify, rfl⟩ := h
  refine ⟨rfl, rfl, ?_⟩
  unfold Rollout.verify
  simp only [bind_eq_ok, exists_unit, ensure_eq_ok]
  exact ⟨trivial, hverify⟩

theorem new_chain {evidence : List RolloutEvidence} (hne : evidence ≠ [])
    (hvalid : ∀ e ∈ evidence, e.validate = .ok ()) (hlength : evidence.length ≤ maxRolloutRecords) :
    ∃ rollout, Rollout.new sha scope (chain sha scope [] evidence) = .ok rollout := by
  have hcount := @length_chain sha scope [] evidence
  rw [length_nil, Nat.zero_add] at hcount
  have hrecords : chain sha scope [] evidence ≠ [] := by
    intro hnil
    rw [hnil, length_nil] at hcount
    exact hne (length_eq_zero_iff.mp hcount.symm)
  obtain ⟨last, hlast⟩ := Option.ne_none_iff_exists'.mp (mt List.getLast?_eq_none_iff.mp hrecords)
  have hloop := @verifyFrom_chain sha scope evidence hvalid (hlength.trans (by decide))
  rw [hlast] at hloop
  unfold Rollout.new verifyRecords
  simp only [bind_eq_ok, exists_unit, orError_eq_ok, ensure_eq_ok, pure_eq_ok, hlast]
  exact ⟨_, _, rfl, ⟨hrecords, hcount.symm ▸ hlength, _, hloop, rfl⟩, rfl⟩

def receiptLink (receipt : EffectReceipt) : ReceiptId × RequestDigest :=
  (receipt.receiptId, receipt.requestDigest)

/-- Every receipt takes its event out, and none is left: they correspond. -/
theorem linked_iff {links : List (ReceiptId × RequestDigest)} {receipts : List EffectReceipt} :
    ((links.map Prod.fst).Nodup ∧ (receipts.map receiptId).Nodup ∧
      (∀ receipt ∈ receipts, (receipt.receiptId, receipt.requestDigest) ∈ links) ∧
      (links.filter fun link => link.1 ∉ receipts.map receiptId) = []) ↔
    (receipts.map receiptLink).Perm links ∧ (receipts.map receiptId).Nodup := by
  have hids : (receipts.map receiptLink).map Prod.fst = receipts.map receiptId := by
    rw [map_map]
    rfl
  constructor
  · rintro ⟨hkeys, hunique, hlinked, hleft⟩
    refine ⟨?_, hunique⟩
    have hreceipts : (receipts.map receiptLink).Nodup := by
      rw [← hids] at hunique
      exact hunique.of_map _
    rw [perm_ext_iff_of_nodup hreceipts (hkeys.of_map _)]
    intro link
    constructor
    · intro hmem
      obtain ⟨receipt, hreceipt, rfl⟩ := mem_map.mp hmem
      exact hlinked receipt hreceipt
    · intro hmem
      by_contra hout
      have htaken : link.1 ∈ receipts.map receiptId := by
        by_contra hopen
        have hin : link ∈ links.filter fun link =>
            link.1 ∉ receipts.map receiptId :=
          mem_filter.mpr ⟨hmem, decide_eq_true hopen⟩
        rw [hleft] at hin
        exact not_mem_nil hin
      obtain ⟨receipt, hreceipt, hid⟩ := mem_map.mp htaken
      have hsame : receiptLink receipt = link :=
        inj_on_of_nodup_map hkeys (hlinked receipt hreceipt) hmem hid
      exact hout (hsame ▸ mem_map_of_mem hreceipt)
  · rintro ⟨hperm, hunique⟩
    have hkeys : (links.map Prod.fst).Perm (receipts.map receiptId) := by
      rw [← hids]
      exact (hperm.map Prod.fst).symm
    refine ⟨hkeys.nodup_iff.mpr hunique, hunique, fun receipt hreceipt => ?_, ?_⟩
    · exact hperm.mem_iff.mp (mem_map_of_mem hreceipt)
    · rw [filter_eq_nil_iff]
      intro link hlink
      rw [decide_eq_true_eq, not_not]
      exact hkeys.mem_iff.mp (mem_map_of_mem hlink)

/-- The evidence of a rollout, in its order. -/
def allEvidence (sha : Sha256) (manifestDigest : RolloutDigest) (events : List RuntimeEvent)
    (receipts : List EffectReceipt) : List RolloutEvidence :=
  .contextManifest manifestDigest :: (events.map (eventEvidence sha) ++
    receipts.map (receiptEvidence sha))

theorem manifest_valid (manifestDigest : RolloutDigest) :
    (RolloutEvidence.contextManifest manifestDigest).validate = .ok () := by
  simp only [RolloutEvidence.validate, new_digest]
  rfl

theorem allEvidence_valid {manifestDigest : RolloutDigest} {events : List RuntimeEvent}
    {receipts : List EffectReceipt} (hevents : ∀ event ∈ events, PayloadOk event.payload)
    (hreceipts : ∀ receipt ∈ receipts, OutcomeOk receipt.outcome) :
    ∀ e ∈ allEvidence sha manifestDigest events receipts, e.validate = .ok () := by
  unfold allEvidence
  refine forall_mem_cons.mpr ⟨manifest_valid manifestDigest, fun e he => ?_⟩
  rcases mem_append.mp he with he | he
  · obtain ⟨event, hevent, rfl⟩ := mem_map.mp he
    exact eventEvidence_valid (hevents event hevent)
  · obtain ⟨receipt, hreceipt, rfl⟩ := mem_map.mp he
    exact receiptEvidence_valid (hreceipts receipt hreceipt)

/-- The records after both loops are the chain of all the evidence. -/
theorem afterReceipts_afterEvents {manifestDigest : RolloutDigest} (events : List RuntimeEvent)
    (receipts : List EffectReceipt) :
    afterReceipts sha scope (afterEvents sha scope
      ⟨chain sha scope [] [.contextManifest manifestDigest], ∅, [], ∅⟩ events) receipts =
    { records := chain sha scope [] (allEvidence sha manifestDigest events receipts)
      eventIds := ∅ ∪ (events.map RuntimeEvent.eventId).toFinset
      receiptLinks := (events.filterMap completion).filter fun link =>
        link.1 ∉ receipts.map receiptId
      receiptIds := ∅ ∪ (receipts.map receiptId).toFinset } := by
  unfold afterReceipts afterEvents allEvidence
  dsimp only
  rw [chain_append, chain_append, nil_append, singleton_append]

theorem manifest_eq_ok {manifest : String} {manifestDigest : RolloutDigest} :
    RolloutDigest.new manifest = .ok manifestDigest ↔ manifestDigest.text = manifest := by
  constructor
  · intro h
    unfold RolloutDigest.new at h
    split at h
    · rw [Except.ok.injEq] at h
      exact h ▸ rfl
    · nomatch h
  · rintro rfl
    exact new_digest manifestDigest

/-- **Both loops**, from the record of the manifest on. -/
theorem loops_eq_ok {manifestDigest : RolloutDigest} {events : List RuntimeEvent}
    {receipts : List EffectReceipt} {p : Reducing → Prop}
    (hcount : events.length + receipts.length + 1 ≤ maxRolloutRecords) :
    (∃ state, events.foldlM (reduceEvent sha scope)
        ⟨chain sha scope [] [.contextManifest manifestDigest], ∅, [], ∅⟩ = .ok state ∧
      ∃ after, receipts.foldlM (reduceReceipt sha scope) state = .ok after ∧
        after.receiptLinks = [] ∧ p after) ↔
      (∀ event ∈ events, InScope scope event.context ∧ PayloadOk event.payload) ∧
      (∀ receipt ∈ receipts, OutcomeOk receipt.outcome) ∧
      (events.map RuntimeEvent.eventId).Nodup ∧
      ((receipts.map receiptLink).Perm (events.filterMap completion) ∧
        (receipts.map receiptId).Nodup) ∧
      p (afterReceipts sha scope (afterEvents sha scope
        ⟨chain sha scope [] [.contextManifest manifestDigest], ∅, [], ∅⟩ events) receipts) := by
  have hfits : maxRolloutRecords < 2 ^ 32 := by decide
  have hfirst := @foldlM_reduceEvent sha scope
    ⟨chain sha scope [] [.contextManifest manifestDigest], ∅, [], ∅⟩
  have hlength (n : ℕ) (h : n + 1 ≤ maxRolloutRecords) :
      (chain sha scope [] [.contextManifest manifestDigest]).length + n < 2 ^ 32 := by
    rw [length_chain, length_nil, length_singleton]
    omega
  have hsecond (hkeys : ((events.filterMap completion).map Prod.fst).Nodup) {after : Reducing} :=
    @foldlM_reduceReceipt sha scope (afterEvents sha scope
      ⟨chain sha scope [] [.contextManifest manifestDigest], ∅, [], ∅⟩ events) after receipts
      (by
        show (chain sha scope _ _).length + _ < _
        rw [length_chain, length_map, add_assoc]
        exact hlength _ hcount) hkeys
  rw [← linked_iff]
  constructor
  · rintro ⟨state, hevents, after, hreceipts, hempty, hp⟩
    obtain ⟨hall, ⟨hunique, -⟩, hkeys, rfl⟩ :=
      (hfirst events (hlength _ (by omega)) nodup_nil).mp hevents
    obtain ⟨houtcomes, ⟨hids, -⟩, hlinked, rfl⟩ := (hsecond hkeys).mp hreceipts
    exact ⟨hall, houtcomes, hunique, ⟨hkeys, hids, hlinked, hempty⟩, hp⟩
  · rintro ⟨hall, houtcomes, hunique, ⟨hkeys, hids, hlinked, hempty⟩, hp⟩
    refine ⟨_, (hfirst events (hlength _ (by omega)) nodup_nil).mpr
      ⟨hall, ⟨hunique, fun _ _ => Finset.notMem_empty _⟩, hkeys, rfl⟩, _,
      (hsecond hkeys).mpr ⟨houtcomes, ⟨hids, fun _ _ => Finset.notMem_empty _⟩, hlinked, rfl⟩,
      hempty, hp⟩

/-- **What is reduced**, up to the check of the rollout. -/
theorem reduce_eq_ok {manifest : String} {events : List RuntimeEvent}
    {receipts : List EffectReceipt} {rollout : Rollout} :
    reduce sha manifest events receipts = .ok rollout ↔
      events ≠ [] ∧ WithinLimits manifest events receipts ∧ Consistent events receipts ∧
      ∃ scope manifestDigest, manifestDigest.text = manifest ∧
        (∀ event ∈ events, InScope scope event.context) ∧
        Rollout.new sha scope (chain sha scope []
          (allEvidence sha manifestDigest events receipts)) = .ok rollout := by
  have hfirst {scope : RolloutScope} {manifestDigest : RolloutDigest}
      {records : List RolloutRecord} :
      pushRecord sha scope [] (.contextManifest manifestDigest) = .ok records ↔
        records = chain sha scope [] [.contextManifest manifestDigest] :=
    pushRecord_eq_ok (by decide) (manifest_valid manifestDigest)
  unfold reduce requiredRecordCount
  simp only [bind_eq_ok, exists_unit, orError_eq_ok, ensure_eq_ok, mapError_eq_ok, pure_eq_ok,
    scopeFromContext_eq_ok, hfirst, manifest_eq_ok]
  constructor
  · rintro ⟨first, hhead, scope, -, _, ⟨hcount, -⟩, manifestDigest, hmanifest, _, rfl, hloops⟩
    obtain ⟨hall, houtcomes, hunique, ⟨hlinked, hids⟩, hnew⟩ := (loops_eq_ok hcount).mp hloops
    rw [afterReceipts_afterEvents] at hnew
    have hscope : ∀ event ∈ events, InScope scope event.context := fun event h => (hall event h).1
    refine ⟨fun hnil => ?_, ⟨hmanifest ▸ manifestDigest.ok, fun event h => (hall event h).2,
      houtcomes, by omega⟩, ⟨hunique, ⟨scope, hscope⟩, hlinked, hids⟩, scope, manifestDigest,
      hmanifest, hscope, hnew⟩
    rw [hnil] at hhead
    cases hhead
  · rintro ⟨hne, hlimits, hconsistent, scope, manifestDigest, hmanifest, hscope, hnew⟩
    have hcount : events.length + receipts.length + 1 ≤ maxRolloutRecords := by
      have := hlimits.count
      omega
    refine ⟨events.head hne, List.head?_eq_some_head hne, scope,
      hscope _ (head_mem hne), _, ⟨hcount, rfl⟩, manifestDigest, hmanifest, _, rfl,
      (loops_eq_ok hcount).mpr ⟨fun event h => ⟨hscope event h, hlimits.payloads event h⟩,
        hlimits.outcomes, hconsistent.eventIds, ⟨hconsistent.linked, hconsistent.receiptIds⟩, ?_⟩⟩
    rw [afterReceipts_afterEvents]
    exact hnew

/-- **Rollout reduction is exact.** What is reduced is in order, and is the manifest with the
events and the receipts after it; of at least one event, all that is in order is reduced. -/
theorem reduction_exact (sha : Sha256) (manifest : String) (events : List RuntimeEvent)
    (receipts : List EffectReceipt) :
    (∀ rollout, reduce sha manifest events receipts = .ok rollout →
      Consistent events receipts ∧ (∀ event ∈ events, InScope rollout.scope event.context) ∧
      (∃ manifestDigest, manifestDigest.text = manifest ∧
        rollout.records.map (·.evidence) = allEvidence sha manifestDigest events receipts) ∧
      rollout.verify sha = .ok ()) ∧
    (events ≠ [] → Consistent events receipts → WithinLimits manifest events receipts →
      ∃ rollout, reduce sha manifest events receipts = .ok rollout) := by
  constructor
  · intro rollout h
    obtain ⟨-, -, hconsistent, scope, manifestDigest, hmanifest, hscope, hnew⟩ := reduce_eq_ok.mp h
    obtain ⟨hrecords, rfl, hverify⟩ := new_rollout_eq_ok hnew
    refine ⟨hconsistent, hscope, ⟨manifestDigest, hmanifest, ?_⟩, hverify⟩
    rw [hrecords, map_evidence_chain, map_nil, nil_append]
  · intro hne hconsistent hlimits
    obtain ⟨scope, hscope⟩ := hconsistent.scope
    have hvalid := @allEvidence_valid sha ⟨manifest, hlimits.manifest⟩ _ _ hlimits.payloads
      hlimits.outcomes
    have hlength : (allEvidence sha ⟨manifest, hlimits.manifest⟩ events receipts).length ≤
        maxRolloutRecords := by
      have hcount := hlimits.count
      rw [allEvidence, length_cons, length_append, length_map, length_map]
      omega
    obtain ⟨rollout, hnew⟩ := @new_chain sha scope _ (cons_ne_nil _ _) hvalid hlength
    exact ⟨rollout, reduce_eq_ok.mpr ⟨hne, hlimits, hconsistent, scope, _, rfl, hscope, hnew⟩⟩

/-! ### An effect and its receipt

On the four messages that occur the hash below is SHA-256, told apart by their lengths. -/

def scopeHash : Bytes32 :=
  ⟨[187, 235, 245, 99, 164, 48, 80, 127, 71, 38, 14, 34, 181, 4, 114, 83, 44, 146, 74, 248, 229,
    158, 92, 239, 134, 145, 55, 207, 20, 162, 125, 152],
    Eq.refl (nat_lit 32)⟩

def manifestHash : Bytes32 :=
  ⟨[121, 136, 203, 234, 20, 61, 165, 168, 21, 56, 154, 46, 64, 237, 99, 87, 11, 82, 248, 76, 124,
    144, 43, 59, 144, 62, 129, 130, 7, 237, 196, 92],
    rfl⟩

def eventHash : Bytes32 :=
  ⟨[80, 159, 205, 255, 102, 156, 69, 153, 63, 95, 200, 114, 10, 41, 213, 236, 202, 44, 216, 195, 57,
    23, 29, 222, 204, 211, 20, 216, 136, 205, 206, 235],
    rfl⟩

def receiptHash : Bytes32 :=
  ⟨[214, 118, 252, 243, 201, 132, 15, 251, 204, 51, 157, 251, 149, 7, 234, 134, 107, 142, 35, 25,
    90, 54, 0, 153, 136, 18, 46, 52, 175, 60, 42, 157],
    rfl⟩

def sampleSha : Sha256 := fun message =>
  if message.length = 92 then scopeHash
  else if message.length = 211 then manifestHash
  else if message.length = 322 then eventHash
  else receiptHash

def sampleScope : RolloutScope :=
  ⟨.ofLiteral "tenant-a", .ofLiteral "workspace-a", .ofLiteral "session-a",
    .ofLiteral "execution-a"⟩

def sampleManifest : String :=
  "sha256:aaaaaaaaaaaaaaaaaaaaaaaaaaaaaaaaaaaaaaaaaaaaaaaaaaaaaaaaaaaaaaaa"

def sampleEvent : RuntimeEvent where
  eventId := .ofLiteral "event-a"
  eventType := .effectCompleted
  context := ⟨sampleScope.tenantId, sampleScope.workspaceId, some sampleScope.sessionId,
    some sampleScope.executionId, none, none, none, some (.ofLiteral "receipt-a")⟩
  payload := .effect "filesystem:read" (.ofLiteral "request-a")

def sampleReceipt : EffectReceipt where
  receiptId := .ofLiteral "receipt-a"
  permitId := .ofLiteral "permit-a"
  requestDigest := .ofLiteral "request-a"
  completedAt := 7
  outcome := .succeeded

theorem sample_consistent : Consistent [sampleEvent] [sampleReceipt] where
  eventIds := nodup_singleton _
  scope := ⟨sampleScope, forall_mem_singleton.mpr ⟨rfl, rfl, rfl, rfl⟩⟩
  linked := List.Perm.refl _
  receiptIds := nodup_singleton _

theorem sample_withinLimits : WithinLimits sampleManifest [sampleEvent] [sampleReceipt] where
  manifest := by decide +kernel
  payloads := by
    refine forall_mem_singleton.mpr ?_
    show IsCode "filesystem:read"
    unfold IsCode IsIdentifier
    decide +kernel
  outcomes := forall_mem_singleton.mpr trivial
  count := by decide

theorem reduction_exact_sample : ∃ rollout,
    reduce sampleSha sampleManifest [sampleEvent] [sampleReceipt] = .ok rollout ∧
    rollout.verify sampleSha = .ok () := by
  obtain ⟨honly, hreduced⟩ :=
    reduction_exact sampleSha sampleManifest [sampleEvent] [sampleReceipt]
  obtain ⟨rollout, h⟩ := hreduced (cons_ne_nil _ _) sample_consistent sample_withinLimits
  exact ⟨rollout, h, (honly rollout h).2.2.2⟩

/-- An execution without events meets the conditions, and is not reduced. -/
theorem no_events_refused : Consistent [] [] ∧ WithinLimits sampleManifest [] [] ∧
    reduce sampleSha sampleManifest [] [] = .error .emptyEvents := by
  refine ⟨⟨nodup_nil, ⟨sampleScope, forall_mem_nil _⟩, List.Perm.refl _,
    nodup_nil⟩, ⟨by decide +kernel, forall_mem_nil _, forall_mem_nil _,
    by decide⟩, rfl⟩

end Pandora.Rollout.Reducer
