import Pandora.Packages.Loading
import Pandora.Lib.HashChain

/-! # The ledger stays readable

Every append first checks the whole ledger, so an event that does not pass the checks stops all that
follow. The events that the store writes are numbered from one and each names the digest of the one
before it (`chain_eq_ok`, `appended_chain`). Their texts come from manifests and trust roots, which
may be longer than the checks of the ledger allow; the theorem is about the sequences in which they
are not (`Recordable`).

The digest of an event is the hash of its fields, which can be read off from the message
(`message_inj`). So the last digest of a ledger determines the ledger. -/

namespace Pandora.Packages.Ledger

open Text Lib.Checked Lib.Tables Lib.Runs Lib.Codes Lib.HashChain Packages.Manifest List
  Packages.Registry Packages.Store Packages.Steps Packages.Loading
open Context.Fragments (sha256Digest sha256Digest_inj sha256Digest_size)

variable {env : PackageEnv} {store store' : PackageStore}
  {event event' : PackageTransparencyEvent} {events events' : List PackageTransparencyEvent}
  {draft draft' : PackageTransparencyEventDraft} {time : ℕ}
  {result : Except PackageStoreError PackageAnswer}

/-! ### Chains -/

/-- What the loop over the events checks. -/
structure ValidChain (env : PackageEnv) (expected : ℕ) (previous : Option String)
    (events : List PackageTransparencyEvent) : Prop where
  valid : ∀ event ∈ events, validateTransparencyEvent env event = .ok ()
  room : events ≠ [] → expected + events.length ≤ maxPackageTransparencyEvents + 1
  sequences : events.map (·.sequence) = List.range' expected events.length
  linked : Linked (·.eventDigest) (·.previousEventDigest) previous events

theorem validateTransparencyEvents_eq_ok : ∀ {expected : ℕ} {previous : Option String}
    {events : List PackageTransparencyEvent},
    validateTransparencyEvents env expected previous events = .ok () ↔
      ValidChain env expected previous events
  | expected, previous, [] => by
    constructor
    · intro _
      exact ⟨fun _ h => absurd h not_mem_nil, fun h => absurd rfl h, rfl, trivial⟩
    · intro _
      rfl
  | expected, previous, event :: rest => by
    simp only [validateTransparencyEvents, bind_eq_ok, ensure_eq_ok, exists_const,
      validateTransparencyEvents_eq_ok]
    have hrange : List.range' expected (rest.length + 1) =
        expected :: List.range' (expected + 1) rest.length := List.range'_succ
    constructor
    · rintro ⟨⟨⟩, hevent, ⟨hroom, hsequence, hprevious⟩, ih⟩
      refine ⟨forall_mem_cons.mpr ⟨hevent, ih.valid⟩, fun _ => ?_, ?_, hprevious, ih.linked⟩
      · rw [length_cons]
        rcases eq_nil_or_concat rest with rfl | ⟨front, last, hrest⟩
        · rw [length_nil]
          omega
        · have hroom' := ih.room (by rw [hrest]; simp)
          omega
      · rw [map_cons, length_cons, hrange, hsequence, ih.sequences]
    · intro h
      have hroom := h.room (cons_ne_nil _ _)
      have hsequences := h.sequences
      rw [length_cons] at hroom
      rw [map_cons, length_cons, hrange, List.cons.injEq] at hsequences
      exact ⟨(), h.valid event mem_cons_self, ⟨by omega, hsequences.1, h.linked.1⟩,
        fun e he => h.valid e (mem_cons_of_mem _ he), fun _ => by omega, hsequences.2,
        h.linked.2⟩

theorem chain_eq_ok :
    validateTransparencyChain env events = .ok () ↔ ValidChain env 1 none events :=
  validateTransparencyEvents_eq_ok

theorem foldl_max_range (n : ℕ) : (List.range' 1 n).foldl max 0 = n := by
  induction n with
  | zero => rfl
  | succ n ih =>
    rw [List.range'_concat, foldl_append, ih]
    show max n (1 + 1 * n) = n + 1
    omega

theorem nextSequence_eq (h : ValidChain env 1 none events) :
    nextSequence events = events.length + 1 := by
  unfold nextSequence
  rw [h.sequences, foldl_max_range]

theorem ValidChain.append (h : ValidChain env 1 none events)
    (hroom : events.length < maxPackageTransparencyEvents)
    (hevent : validateTransparencyEvent env (eventOf env events draft) = .ok ()) :
    ValidChain env 1 none (events ++ [eventOf env events draft]) := by
  have hsequence : (eventOf env events draft).sequence = events.length + 1 := nextSequence_eq h
  refine ⟨?_, fun _ => ?_, ?_, linked_concat.mpr ⟨h.linked, ?_⟩⟩
  · intro event he
    rcases mem_append.mp he with he | he
    · exact h.valid event he
    · rw [mem_singleton.mp he]
      exact hevent
  · rw [length_append, length_singleton]
    omega
  · rw [map_append, h.sequences, length_append, length_singleton, List.range'_concat]
    have hnext : events.length + 1 = 1 + 1 * events.length := by omega
    rw [map_singleton, hsequence, hnext]
  · unfold lastDigest
    rw [Option.or_none]
    rfl

theorem ValidChain.sequence_lt (h : ValidChain env 1 none events) (hevent : event ∈ events) :
    event.sequence < 2 ^ 64 := by
  have hmem : event.sequence ∈ List.range' 1 events.length := by
    rw [← h.sequences]
    exact mem_map_of_mem hevent
  have hroom := h.room (ne_nil_of_mem hevent)
  have hmax : maxPackageTransparencyEvents = 8192 := rfl
  rw [mem_range'_1] at hmem
  omega

/-! ### Drafts -/

/-- A draft that passes the checks of an event. -/
structure Sealable (draft : PackageTransparencyEventDraft) : Prop where
  fields : fieldMatrixValid draft = true
  subject : isSha256Digest draft.subjectDigest = true
  artifact : draft.artifactDigest.all isSha256Digest = true
  text : transparencyTextValid draft = true

theorem isSha256Digest_hashArtifact (env : PackageEnv) (message : List UInt8) :
    isSha256Digest (hashArtifact env message) = true := by
  unfold isSha256Digest hashArtifact
  rw [sha256Digest_size]
  unfold sha256Digest
  rw [strip_append, Option.any_some, isLowerHex_hex]
  rfl

theorem valid_eventOf (hchain : ValidChain env 1 none events) (h : Sealable draft) :
    validateTransparencyEvent env (eventOf env events draft) = .ok () := by
  have hprevious : (events.getLast?.map (·.eventDigest)).all isSha256Digest = true := by
    rcases hlast : events.getLast? with _ | last
    · rfl
    · have hvalid := hchain.valid last (mem_of_getLast? hlast)
      have hdigests := (ensure_eq_ok.mp hvalid).2.1
      unfold transparencyDigestsValid at hdigests
      rw [Option.map_some, Option.all_some]
      exact (Bool.and_eq_true_iff.mp hdigests).2
  refine ensure_eq_ok.mpr ⟨h.fields, ?_, h.text, rfl⟩
  simp only [transparencyDigestsValid, eventOf, transparencyEventDigest, h.subject, h.artifact,
    hprevious, isSha256Digest_hashArtifact, Bool.and_self]

theorem appended_chain (h : Appended env store draft store') (hdraft : Sealable draft) :
    validateTransparencyChain env store'.events = .ok () := by
  have hchain := chain_eq_ok.mp h.chain
  rw [h.eq]
  exact chain_eq_ok.mpr (hchain.append h.room (valid_eventOf hchain hdraft))

theorem admissionReasonCode_mem (error : HarnessRegistryError) :
    admissionReasonCode error ∈ denialReasons := by
  cases error <;> simp [admissionReasonCode, denialReasons]

theorem denialReasons_characters : ∀ reason ∈ denialReasons, reasonCharacters reason = true := by
  decide +kernel

/-- The texts that an admission enters are short. -/
structure ManifestRecordable (manifest : PackageManifest) : Prop where
  publisher : isBoundedTransparencyText manifest.publisher 256 = true
  id : isBoundedTransparencyText manifest.id 256 = true
  version : isBoundedTransparencyText manifest.version 256 = true

theorem sealable_admission {declared : PackageManifest} {declaredJson reasonCode : String}
    {artifactDigest : Option String} {outcome : PackageTransparencyOutcome}
    (hshort : ManifestRecordable declared)
    (hartifact : artifactDigest.all isSha256Digest = true)
    (hpresent : artifactDigest.isSome = true ∨ reasonCode = "artifact_too_large")
    (hcharacters : reasonCharacters reasonCode = true)
    (hreason : transparencyReasonIsValid reasonCode .admissionDecision outcome = true) :
    Sealable (admissionDraft env declared declaredJson artifactDigest outcome reasonCode time) := by
  refine ⟨?_, isSha256Digest_hashArtifact env _, hartifact, ?_⟩
  · show (true && true && true && (artifactDigest.isSome ||
      decide (reasonCode = "artifact_too_large"))) = true
    rw [Bool.true_and, Bool.true_and, Bool.true_and, Bool.or_eq_true, decide_eq_true_eq]
    exact hpresent
  · simp only [transparencyTextValid, admissionDraft, Option.all_none, Option.all_some,
      hshort.publisher, hshort.id, hshort.version, hcharacters, hreason, Bool.and_self]

theorem sealable_trustRoot {publisher keyId publicKey reasonCode : String}
    {kind : PackageTransparencyEventKind}
    (hpublisher : isBoundedTransparencyText publisher 256 = true)
    (hkey : isBoundedTransparencyText keyId 256 = true)
    (hkind : kind = .trustRootAdded ∧ reasonCode = "trust_root_added" ∨
      kind = .trustRootRevoked ∧ reasonCode = "trust_root_revoked") :
    Sealable {
      eventKind := kind
      outcome := .allowed
      occurredAt := time
      publisher := publisher
      keyId := some keyId
      packageId := none
      packageVersion := none
      subjectDigest := hashArtifact env (asBytes publicKey)
      artifactDigest := none
      reasonCode := reasonCode } := by
  refine ⟨?_, isSha256Digest_hashArtifact env _, rfl, ?_⟩
  · rcases hkind with ⟨rfl, -⟩ | ⟨rfl, -⟩
    · rfl
    · rfl
  · have hreason : reasonCharacters reasonCode = true ∧
        transparencyReasonIsValid reasonCode kind .allowed = true := by
      rcases hkind with ⟨rfl, rfl⟩ | ⟨rfl, rfl⟩
      · decide +kernel
      · decide +kernel
    simp only [transparencyTextValid, Option.all_none, Option.all_some, hpublisher, hkey,
      hreason.1, hreason.2, Bool.and_self]

/-! ### Digests -/

/-- The lengths of a field fit eight bytes. -/
def ShortField (field : String × Option String) : Prop :=
  field.1.utf8ByteSize < 256 ^ 8 ∧ ∀ value, field.2 = some value → value.utf8ByteSize < 256 ^ 8

theorem prefixCode_text : PrefixCode (fun text : String => text.utf8ByteSize < 256 ^ 8)
    fun text => littleEndian 8 text.utf8ByteSize ++ asBytes text := by
  have hbytes : PrefixCode (fun text : String => text.utf8ByteSize < 256 ^ 8)
      fun text => littleEndian 8 (asBytes text).length ++ asBytes text :=
    (prefixCode_littleEndian 8).comp (fun text h => by rw [length_asBytes]; exact h)
      fun _ _ h => asBytes_inj h
  simpa only [length_asBytes] using hbytes

theorem prefixCode_digestField : PrefixCode ShortField digestField := by
  rintro ⟨label, value⟩ ⟨label', value'⟩ h h' s t he
  simp only [digestField] at he
  rw [append_assoc (_ ++ asBytes label), append_assoc (_ ++ asBytes label')] at he
  obtain ⟨rfl, hvalue⟩ := prefixCode_text h.1 h'.1 he
  obtain ⟨rfl, hrest⟩ := prefixCode_text.tagged h.2 h'.2 hvalue
  exact ⟨rfl, hrest⟩

theorem digestField_ne_nil (field : String × Option String) : digestField field ≠ [] := by
  intro h
  have hlength := congrArg List.length h
  unfold digestField at hlength
  rw [length_append, length_append, length_littleEndian, length_nil] at hlength
  omega

theorem eventKind_inj {a b : PackageTransparencyEventKind} (h : a.asStr = b.asStr) : a = b := by
  revert a b
  rintro ⟨⟩ ⟨⟩ <;> decide +kernel

theorem outcome_inj {a b : PackageTransparencyOutcome} (h : a.asStr = b.asStr) : a = b := by
  revert a b
  rintro ⟨⟩ ⟨⟩ <;> decide +kernel

theorem message_inj {sequence sequence' : ℕ} {previous previous' : Option String}
    (h : ∀ field ∈ digestFields draft sequence previous, ShortField field)
    (h' : ∀ field ∈ digestFields draft' sequence' previous', ShortField field)
    (he : transparencyEventMessage draft sequence previous =
      transparencyEventMessage draft' sequence' previous') :
    draft = draft' ∧ sequence = sequence' ∧ previous = previous' := by
  have hfields := prefixCode_digestField.flatMap_inj digestField_ne_nil h h' he
  unfold digestFields at hfields
  simp only [List.cons.injEq, Prod.mk.injEq, Option.some.injEq, true_and, and_true] at hfields
  obtain ⟨hsequence, hkind, houtcome, htime, hpublisher, hkey, hid, hversion, hsubject, hartifact,
    hreason, hprevious⟩ := hfields
  refine ⟨?_, toString_inj hsequence, hprevious⟩
  cases draft
  cases draft'
  rw [PackageTransparencyEventDraft.mk.injEq]
  exact ⟨eventKind_inj hkind, outcome_inj houtcome, toString_inj htime, hpublisher, hkey, hid,
    hversion, hsubject, hartifact, hreason⟩

/-- The message of an event. -/
def messageOf (event : PackageTransparencyEvent) : List UInt8 :=
  transparencyEventMessage event.toPackageTransparencyEventDraft event.sequence
    event.previousEventDigest

theorem short_of_valid (h : validateTransparencyEvent env event = .ok ())
    (hsequence : event.sequence < 2 ^ 64) (htime : event.occurredAt < 2 ^ 64) :
    ∀ field ∈ digestFields event.toPackageTransparencyEventDraft event.sequence
      event.previousEventDigest, ShortField field := by
  obtain ⟨-, hdigests, htext, -⟩ := ensure_eq_ok.mp h
  simp only [transparencyDigestsValid, Bool.and_eq_true] at hdigests
  simp only [transparencyTextValid, Bool.and_eq_true] at htext
  obtain ⟨⟨⟨hsubject, hartifact⟩, hprevious⟩, -⟩ := hdigests
  obtain ⟨⟨⟨⟨⟨hpublisher, hkey⟩, hid⟩, hversion⟩, hreason⟩, -⟩ := htext
  have hbounded : ∀ text, isBoundedTransparencyText text 256 = true →
      text.utf8ByteSize < 256 ^ 8 := by
    intro text hbounded
    simp only [isBoundedTransparencyText, Bool.and_eq_true, decide_eq_true_eq] at hbounded
    exact Nat.lt_of_le_of_lt hbounded.1.2 (by decide)
  have hdigest : ∀ text, isSha256Digest text = true → text.utf8ByteSize < 256 ^ 8 := by
    intro text hdigest
    simp only [isSha256Digest, Bool.and_eq_true, decide_eq_true_eq] at hdigest
    rw [hdigest.1]
    decide
  have hnumber : ∀ n, n < 2 ^ 64 → (toString n).utf8ByteSize < 256 ^ 8 := fun n hn =>
    Nat.lt_of_le_of_lt (size_toString hn) (by decide)
  have hkind : event.eventKind.asStr.utf8ByteSize < 256 ^ 8 := by
    rcases event.eventKind with _ | _ | _ <;> decide
  have houtcome : event.outcome.asStr.utf8ByteSize < 256 ^ 8 := by
    rcases event.outcome with _ | _ <;> decide
  have hcode : event.reasonCode.utf8ByteSize < 256 ^ 8 := by
    simp only [reasonCharacters, Bool.and_eq_true, decide_eq_true_eq] at hreason
    exact Nat.lt_of_le_of_lt hreason.1.2 (by decide)
  have hsome : ∀ (label text : String), label.utf8ByteSize < 256 ^ 8 →
      text.utf8ByteSize < 256 ^ 8 → ShortField (label, some text) := by
    rintro label text hlabel htext
    exact ⟨hlabel, fun value hvalue => Option.some.inj hvalue ▸ htext⟩
  have hoption : ∀ (label : String) (value : Option String) (p : String → Bool),
      (∀ text, p text = true → text.utf8ByteSize < 256 ^ 8) → label.utf8ByteSize < 256 ^ 8 →
      value.all p = true → ShortField (label, value) := by
    rintro label value p hp hlabel hall
    refine ⟨hlabel, fun text htext => hp text ?_⟩
    rw [show value = some text from htext, Option.all_some] at hall
    exact hall
  intro field hfield
  simp only [digestFields, mem_cons, not_mem_nil, or_false] at hfield
  rcases hfield with rfl | rfl | rfl | rfl | rfl | rfl | rfl | rfl | rfl | rfl | rfl | rfl | rfl
  · exact hsome _ _ (by decide) (by decide)
  · exact hsome _ _ (by decide) (hnumber _ hsequence)
  · exact hsome _ _ (by decide) hkind
  · exact hsome _ _ (by decide) houtcome
  · exact hsome _ _ (by decide) (hnumber _ htime)
  · exact hsome _ _ (by decide) (hbounded _ hpublisher)
  · exact hoption _ _ _ hbounded (by decide) hkey
  · exact hoption _ _ _ hbounded (by decide) hid
  · exact hoption _ _ _ hbounded (by decide) hversion
  · exact hsome _ _ (by decide) (hdigest _ hsubject)
  · exact hoption _ _ _ hdigest (by decide) hartifact
  · exact hsome _ _ (by decide) hcode
  · exact hoption _ _ _ hdigest (by decide) hprevious

/-- Events that pass the checks and have the same digest are the same. -/
theorem event_eq_of_digest (h : validateTransparencyEvent env event = .ok ())
    (h' : validateTransparencyEvent env event' = .ok ())
    (hsequence : event.sequence < 2 ^ 64) (hsequence' : event'.sequence < 2 ^ 64)
    (htime : event.occurredAt < 2 ^ 64) (htime' : event'.occurredAt < 2 ^ 64)
    (hsha : ∀ message message' : List UInt8,
      message = messageOf event → message' = messageOf event' →
        env.sha message = env.sha message' → message = message')
    (he : event.eventDigest = event'.eventDigest) : event = event' := by
  have hdigest := (ensure_eq_ok.mp h).2.2.2
  have hdigest' := (ensure_eq_ok.mp h').2.2.2
  have hhash : hashArtifact env (messageOf event) = hashArtifact env (messageOf event') :=
    hdigest.trans (he.trans hdigest'.symm)
  have hmessage := hsha _ _ rfl rfl (sha256Digest_inj hhash)
  obtain ⟨hdraft, hnumber, hprevious⟩ := message_inj (short_of_valid h hsequence htime)
    (short_of_valid h' hsequence' htime') hmessage
  cases event
  cases event'
  rw [PackageTransparencyEvent.mk.injEq]
  exact ⟨hdraft, hnumber, hprevious, he⟩

/-! ### Runs -/

/-- The texts that the request enters are short and have no control characters. -/
def Recordable : PackageRequest → Prop
  | .admitAt declared _ _ _ => ManifestRecordable declared
  | .addPublisherTrustRoot publisher keyId _ _ =>
    isBoundedTransparencyText publisher 256 = true ∧ isBoundedTransparencyText keyId 256 = true
  | _ => True

/-- The ledger passes the checks, and revoking a trust root of the store keeps it so. -/
structure Sound (env : PackageEnv) (store : PackageStore) : Prop where
  chain : validateTransparencyChain env store.events = .ok ()
  publishers : ∀ record ∈ store.trustRoots,
    isBoundedTransparencyText record.root.publisher 256 = true ∧
      isBoundedTransparencyText record.root.keyId 256 = true

theorem sound_admitAt {declared embedded : PackageManifest} {artifact : List UInt8}
    (hsound : Sound env store) (hshort : ManifestRecordable declared)
    (h : admitAt env store declared embedded artifact time = .ok (store', result)) :
    Sound env store' := by
  obtain ⟨declaredJson, -, ⟨artifactDigest, reasonCode, _, -, hreason, happended⟩ |
    ⟨_, _, _, _, -, -, -, -, -, -, happended⟩⟩ := admit_cases h
  · refine ⟨appended_chain happended ?_, ?_⟩
    · rcases hreason with ⟨rfl, rfl⟩ | ⟨rfl, hreason⟩
      · exact sealable_admission hshort rfl (Or.inr rfl) (by decide +kernel) (by decide +kernel)
      · have hknown : reasonCode ∈ denialReasons := by
          rcases hreason with rfl | ⟨error, rfl⟩
          · decide +kernel
          · exact admissionReasonCode_mem error
        refine sealable_admission hshort ?_ (Or.inl rfl) (denialReasons_characters _ hknown) ?_
        · rw [Option.all_some]
          exact isSha256Digest_hashArtifact env _
        · exact decide_eq_true hknown
    · rw [happended.eq]
      exact hsound.publishers
  · refine ⟨appended_chain happended ?_, ?_⟩
    · refine sealable_admission hshort ?_ (Or.inl rfl) (by decide +kernel) (by decide +kernel)
      rw [Option.all_some]
      exact isSha256Digest_hashArtifact env _
    · rw [happended.eq]
      exact hsound.publishers

theorem sound_addTrustRoot {publisher keyId publicKey : String} (hsound : Sound env store)
    (hshort : isBoundedTransparencyText publisher 256 = true ∧
      isBoundedTransparencyText keyId 256 = true)
    (h : addPublisherTrustRoot env store publisher keyId publicKey time = .ok (store', result)) :
    Sound env store' := by
  obtain ⟨trustRoots, -, hinsert, happended⟩ := addTrustRoot_cases h
  refine ⟨appended_chain happended (sealable_trustRoot hshort.1 hshort.2 (Or.inl ⟨rfl, rfl⟩)), ?_⟩
  rw [happended.eq]
  intro record hrecord
  rcases (Table.mem_insert? hinsert).mp hrecord with hrecord | rfl
  · exact hsound.publishers record hrecord
  · exact hshort

theorem sound_revoke {publisher keyId : String} (hsound : Sound env store)
    (h : revokePublisherTrustRoot env store publisher keyId time = .ok (store', result)) :
    Sound env store' := by
  obtain ⟨record, hrecord, ⟨-, rfl⟩ | ⟨-, _, -, happended⟩⟩ := revokeTrustRoot_cases h
  · exact hsound
  · have hshort := hsound.publishers record (Table.get?_eq_some.mp hrecord).1
    refine ⟨appended_chain happended (sealable_trustRoot hshort.1 hshort.2 (Or.inr ⟨rfl, rfl⟩)), ?_⟩
    rw [happended.eq]
    intro other hother
    rcases Table.mem_upsert.mp hother with rfl | ⟨hother, -⟩
    · exact hshort
    · exact hsound.publishers other hother

theorem sound_perform {request : PackageRequest} (hsound : Sound env store)
    (hrecordable : Recordable request)
    (h : perform env store request = .ok (store', result)) : Sound env store' := by
  cases request with
  | admitAt declared embedded artifact time => exact sound_admitAt hsound hrecordable h
  | addPublisherTrustRoot publisher keyId publicKey time =>
    exact sound_addTrustRoot hsound hrecordable h
  | revokePublisherTrustRoot publisher keyId time => exact sound_revoke hsound h
  | enable id version =>
    obtain ⟨_, _, -, -, ⟨-, rfl⟩ | ⟨_, -, -, -, -, -, -, rfl⟩⟩ := enable_cases h
    · exact hsound
    · exact ⟨hsound.chain, hsound.publishers⟩
  | disable id version =>
    obtain ⟨_, _, -, -, -, rfl⟩ := disable_cases h
    exact ⟨hsound.chain, hsound.publishers⟩
  | rollback id =>
    obtain ⟨_, _, _, _, _, -, -, -, -, -, -, rfl⟩ := rollback_cases h
    exact ⟨hsound.chain, hsound.publishers⟩
  | remove id version =>
    obtain ⟨_, -, ⟨-, rfl, -⟩ | ⟨_, _, -, -, -, -, -, -, rfl⟩⟩ := remove_cases h
    · exact hsound
    · exact ⟨hsound.chain, hsound.publishers⟩

theorem sound_run (requests : List PackageRequest) (h : ∀ request ∈ requests, Recordable request) :
    Sound env ((machine env).run .empty requests) := by
  induction requests using List.reverseRecOn with
  | nil => exact ⟨rfl, fun record hrecord => absurd hrecord (Table.not_mem_empty record)⟩
  | append_singleton requests request ih =>
    have hsound := ih fun r hr => h r (mem_append_left _ hr)
    have hrecordable := h request (by simp)
    rw [Machine.run_snoc]
    show Sound env (exec env _ request).1
    unfold exec
    rcases hperform : perform env ((machine env).run .empty requests) request with
      error | ⟨store', result⟩
    · exact hsound
    · exact sound_perform hsound hrecordable hperform

/-! ### The ledger can be read and extended -/

/-- No reader of the ledger finds a corrupt record. -/
structure Readable (env : PackageEnv) (store : PackageStore) : Prop where
  chain : validateTransparencyChain env store.events = .ok ()
  lists : ∀ eventKind outcome limit, 0 < limit → limit ≤ maxPackageTransparencyList →
    ∃ events, listTransparencyEvents env store eventKind outcome limit = .ok events
  appends : ∀ draft, draft.occurredAt < 2 ^ 63 →
    appendTransparencyEvent env store draft ≠ .error .corruptRecord

theorem Sound.readable (h : Sound env store) : Readable env store := by
  have hchain := chain_eq_ok.mp h.chain
  refine ⟨h.chain, fun eventKind outcome limit hpos hlimit => ?_, fun draft htime => ?_⟩
  · unfold listTransparencyEvents
    simp only [bind_eq_ok, ensure_eq_ok, exists_const]
    have hcheck : ∀ a b : PackageTransparencyEvent,
        (do validateTransparencyEvent env a; pure a : Except PackageStoreError _) = .ok b ↔
          validateTransparencyEvent env a = .ok () ∧ b = a := by
      intro a b
      simp only [bind_eq_ok, pure_eq_ok]
      constructor
      · rintro ⟨⟨⟩, hvalid, rfl⟩
        exact ⟨hvalid, rfl⟩
      · rintro ⟨hvalid, rfl⟩
        exact ⟨(), hvalid, rfl⟩
    refine ⟨_, by omega, (), h.chain, (mapM_check_eq_ok hcheck).mpr ⟨fun event hevent => ?_, rfl⟩⟩
    have hmem := (mem_insertionSort _).mp (mem_of_mem_take hevent)
    exact hchain.valid event (mem_filter.mp hmem).1
  · unfold appendTransparencyEvent
    rw [h.chain, ok_bind]
    intro herror
    simp only [bind_eq_error, ensure_eq_error, ensure_eq_ok, exists_const] at herror
    rcases herror with ⟨-, hcapacity⟩ | ⟨-, ⟨hlate, -⟩ | ⟨-, ⟨-, hunique⟩ | ⟨-, hpure⟩⟩⟩
    · cases hcapacity
    · exact hlate htime
    · cases hunique
    · cases hpure

/-- **The ledger stays readable**, in every state reached by requests whose texts are short and
without control characters, and its last digest determines it. -/
theorem ledger_never_bricks (env : PackageEnv) :
    (∀ requests : List PackageRequest, (∀ request ∈ requests, Recordable request) →
      Readable env ((machine env).run .empty requests)) ∧
    ∀ events events' : List PackageTransparencyEvent,
      (∀ event ∈ events ++ events', event.occurredAt < 2 ^ 64) →
      Set.InjOn env.sha { message | ∃ event ∈ events ++ events', message = messageOf event } →
      validateTransparencyChain env events = .ok () →
      validateTransparencyChain env events' = .ok () →
      events.getLast?.map (·.eventDigest) = events'.getLast?.map (·.eventDigest) →
      events = events' := by
  refine ⟨fun requests h => (sound_run requests h).readable, ?_⟩
  intro events events' htimes hsha hvalid hvalid' hlast
  have hchain := chain_eq_ok.mp hvalid
  have hchain' := chain_eq_ok.mp hvalid'
  refine Linked.eq_of_lastDigest ?_ hchain.linked hchain'.linked ?_
  · intro event hevent event' hevent' hdigest
    have hmem : event ∈ events ++ events' := mem_append_left _ hevent
    have hmem' : event' ∈ events ++ events' := mem_append_right _ hevent'
    refine event_eq_of_digest (hchain.valid event hevent) (hchain'.valid event' hevent')
      (hchain.sequence_lt hevent) (hchain'.sequence_lt hevent') (htimes _ hmem) (htimes _ hmem')
      ?_ hdigest
    rintro message message' rfl rfl hhash
    exact hsha ⟨event, hmem, rfl⟩ ⟨event', hmem', rfl⟩ hhash
  · unfold lastDigest
    rw [Option.or_none, Option.or_none]
    exact hlast

/-- The text of a public key. -/
def sampleKey : String := hex (List.replicate 32 0xab)

def sampleRecorded : List PackageRequest :=
  [.addPublisherTrustRoot "publisher" "key-1" sampleKey 12]

def sampleEvents : List PackageTransparencyEvent :=
  ((machine samplePackages).run .empty sampleRecorded).events

theorem sampleEvents_apart : Set.InjOn samplePackages.sha
    { message | ∃ event ∈ sampleEvents ++ sampleEvents, message = messageOf event } := by
  have hmessages : (sampleEvents.map fun event => samplePackages.sha (messageOf event)).Nodup := by
    decide +kernel
  rintro _ ⟨event, hevent, rfl⟩ _ ⟨event', hevent', rfl⟩ hsha
  rw [mem_append, or_self] at hevent hevent'
  rw [inj_on_of_nodup_map hmessages hevent hevent' hsha]

theorem ledger_never_bricks_sample : sampleEvents.length = 1 ∧
    Readable samplePackages ((machine samplePackages).run .empty sampleRecorded) ∧
    (sampleEvents.getLast?.map (·.eventDigest) = sampleEvents.getLast?.map (·.eventDigest) →
      sampleEvents = sampleEvents) := by
  have hrecordable : ∀ request ∈ sampleRecorded, Recordable request := by
    intro request hrequest
    simp only [sampleRecorded, mem_cons, not_mem_nil, or_false] at hrequest
    subst hrequest
    exact ⟨by decide +kernel, by decide +kernel⟩
  have hreadable := (ledger_never_bricks samplePackages).1 sampleRecorded hrecordable
  have htimes : ∀ event ∈ sampleEvents ++ sampleEvents, event.occurredAt < 2 ^ 64 := by
    decide +kernel
  exact ⟨by decide +kernel, hreadable, (ledger_never_bricks samplePackages).2 sampleEvents
    sampleEvents htimes sampleEvents_apart hreadable.chain hreadable.chain⟩

/-- A trust root whose publisher has a control character is accepted, and the ledger can then be
neither read nor extended. -/
theorem ledger_never_bricks_control :
    (exec samplePackages .empty (.addPublisherTrustRoot "example\npublisher" "key-1" sampleKey
      10)).2.isOk = true ∧
    ¬ Readable samplePackages ((machine samplePackages).run .empty
      [.addPublisherTrustRoot "example\npublisher" "key-1" sampleKey 10]) := by
  refine ⟨by decide +kernel, fun hreadable => ?_⟩
  have hchain := hreadable.chain
  revert hchain
  decide +kernel

end Pandora.Packages.Ledger
