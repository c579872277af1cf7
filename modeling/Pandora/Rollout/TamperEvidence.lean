import Pandora.Lib.HashChain
import Pandora.Rollout.Records

/-! # Rollouts are tamper evident

A record's message determines the record, and every record names the digest before it: without a
collision of the hash, the final digest of a list that `verifyRecords` accepts determines the list
and its scope. -/

namespace Pandora.Rollout.TamperEvidence

open Text Ids Lib.Checked Lib.Codes Lib.HashChain List
open Effect.Profile (digestText prefixCode_digestText hashText_inj)
open Rollout.Records

/-! ### Codes -/

theorem prefixCode_id {kind : IdKind} :
    PrefixCode (fun _ : Id kind => True) fun id => digestText id.text :=
  prefixCode_digestText.comp (fun id _ => Nat.lt_of_le_of_lt id.short (by decide))
    fun _ _ => Id.ext_text

theorem prefixCode_rolloutDigest :
    PrefixCode (fun _ : RolloutDigest => True) fun digest => digestText digest.text :=
  prefixCode_digestText.comp (fun digest _ => digest.size) fun _ _ => RolloutDigest.ext_text

theorem prefixCode_optional {α : Type} {text : α → String}
    (h : PrefixCode (fun _ : α => True) fun a => digestText (text a)) :
    PrefixCode (fun _ : Option α => True) fun o => digestOptionalText (o.map text) := by
  intro o o' _ _ s t he
  have hmap : ∀ o : Option α, digestOptionalText (o.map text) =
      tagged (fun a => digestText (text a)) o := by
    intro o
    cases o <;> rfl
  simp only [hmap] at he
  exact h.tagged (fun _ _ => trivial) (fun _ _ => trivial) he

theorem prefixCode_u32 :
    PrefixCode (fun _ : UInt32 => True) fun value => bigEndian 4 value.toNat := by
  refine PrefixCode.of_length (n := 4) (fun value _ => length_bigEndian 4 _) fun a b _ _ he => ?_
  exact UInt32.toNat_inj.mp (bigEndian_inj a.toNat_lt b.toNat_lt he)

theorem prefixCode_u64 :
    PrefixCode (fun _ : UInt64 => True) fun value => bigEndian 8 value.toNat := by
  refine PrefixCode.of_length (n := 8) (fun value _ => length_bigEndian 8 _) fun a b _ _ he => ?_
  exact UInt64.toNat_inj.mp (bigEndian_inj a.toNat_lt b.toNat_lt he)

theorem prefixCode_bool : PrefixCode (fun _ : Bool => True) fun value => [value.toUInt8] := by
  refine PrefixCode.of_length (n := 1) (fun _ _ => rfl) fun a b _ _ he => ?_
  revert a b
  decide

theorem prefixCode_eventType :
    PrefixCode (fun _ : EventType => True) fun value => digestText (eventTypeCode value) := by
  refine prefixCode_digestText.comp (fun value _ => ?_) fun a b => ?_
  · cases value <;> decide
  · cases a <;> cases b <;> decide

/-! ### Texts that passed a check -/

theorem digestText_cancel {a b : String} (ha : a.utf8ByteSize < 256 ^ 8)
    (hb : b.utf8ByteSize < 256 ^ 8) {s t : List UInt8}
    (he : digestText a ++ s = digestText b ++ t) : a = b ∧ s = t := prefixCode_digestText ha hb he

theorem validateIdentifier_size {field value : String}
    (h : validateIdentifier field value = .ok ()) :
    value.utf8ByteSize < 256 ^ 8 := by
  simp only [validateIdentifier, bind_eq_ok, ensure_eq_ok, exists_const] at h
  exact Nat.lt_of_le_of_lt h.2 (by decide)

theorem validateCode_size {field value : String} (h : validateCode field value = .ok ()) :
    value.utf8ByteSize < 256 ^ 8 := by
  simp only [validateCode, bind_eq_ok] at h
  obtain ⟨⟨⟩, hidentifier, -⟩ := h
  exact validateIdentifier_size hidentifier

theorem validateLabel_size {field value : String} (h : validateLabel field value = .ok ()) :
    value.utf8ByteSize < 256 ^ 8 := by
  simp only [validateLabel, bind_eq_ok] at h
  obtain ⟨⟨⟩, hidentifier, -⟩ := h
  exact validateIdentifier_size hidentifier

/-! ### Evidence -/

/-- The variants of the evidence of an event. -/
inductive PayloadName
  | empty | effect | policy | failure | providerCall | mcpEra
deriving DecidableEq

def PayloadName.asStr : PayloadName → String
  | .empty => "empty"
  | .effect => "effect"
  | .policy => "policy"
  | .failure => "failure"
  | .providerCall => "provider_call"
  | .mcpEra => "mcp_era"

theorem prefixCode_payloadName :
    PrefixCode (fun _ : PayloadName => True) fun name => digestText name.asStr := by
  refine prefixCode_digestText.comp (fun name _ => ?_) fun a b => ?_
  · cases name <;> decide
  · cases a <;> cases b <;> decide

def payloadName : RolloutEventEvidence → PayloadName
  | .empty => .empty
  | .effect .. => .effect
  | .policy _ => .policy
  | .failure _ => .failure
  | .providerCall .. => .providerCall
  | .mcpEra .. => .mcpEra

/-- What follows the name of the variant. -/
def payloadBody : RolloutEventEvidence → List UInt8
  | .empty => []
  | .effect capability requestDigest => digestText capability ++ digestText requestDigest.text
  | .policy reasonDigest => digestText reasonDigest.text
  | .failure code => digestText code
  | .providerCall provider requestDigest => digestText provider ++ digestText requestDigest.text
  | .mcpEra server era downgraded =>
    digestText server ++ (digestText era ++ [downgraded.toUInt8])

theorem payload_digestInto (payload : RolloutEventEvidence) :
    payload.digestInto = digestText (payloadName payload).asStr ++ payloadBody payload := by
  cases payload with
  | empty => exact (append_nil _).symm
  | effect | policy | failure | providerCall | mcpEra => rfl

theorem payloadBody_inj {a b : RolloutEventEvidence} (ha : a.validate = .ok ())
    (hb : b.validate = .ok ()) (hname : payloadName a = payloadName b) {s t : List UInt8}
    (he : payloadBody a ++ s = payloadBody b ++ t) : a = b ∧ s = t := by
  cases a with
  | empty =>
    cases b with
    | empty => exact ⟨rfl, he⟩
    | _ => cases hname
  | effect capability requestDigest =>
    cases b with
    | effect capability' requestDigest' =>
      simp only [RolloutEventEvidence.validate, bind_eq_ok] at ha hb
      obtain ⟨⟨⟩, ha, -⟩ := ha
      obtain ⟨⟨⟩, hb, -⟩ := hb
      simp only [payloadBody, append_assoc] at he
      obtain ⟨rfl, he₁⟩ := digestText_cancel (validateCode_size ha) (validateCode_size hb) he
      obtain ⟨rfl, he₂⟩ := prefixCode_id trivial trivial he₁
      exact ⟨rfl, he₂⟩
    | _ => cases hname
  | policy reasonDigest =>
    cases b with
    | policy reasonDigest' =>
      obtain ⟨rfl, he₁⟩ := prefixCode_rolloutDigest trivial trivial he
      exact ⟨rfl, he₁⟩
    | _ => cases hname
  | failure code =>
    cases b with
    | failure code' =>
      simp only [payloadBody] at he
      obtain ⟨rfl, he₁⟩ := digestText_cancel (validateCode_size ha) (validateCode_size hb) he
      exact ⟨rfl, he₁⟩
    | _ => cases hname
  | providerCall provider requestDigest =>
    cases b with
    | providerCall provider' requestDigest' =>
      simp only [RolloutEventEvidence.validate, bind_eq_ok] at ha hb
      obtain ⟨⟨⟩, ha, -⟩ := ha
      obtain ⟨⟨⟩, hb, -⟩ := hb
      simp only [payloadBody, append_assoc] at he
      obtain ⟨rfl, he₁⟩ := digestText_cancel (validateLabel_size ha) (validateLabel_size hb) he
      obtain ⟨rfl, he₂⟩ := prefixCode_id trivial trivial he₁
      exact ⟨rfl, he₂⟩
    | _ => cases hname
  | mcpEra server era downgraded =>
    cases b with
    | mcpEra server' era' downgraded' =>
      simp only [RolloutEventEvidence.validate, bind_eq_ok] at ha hb
      obtain ⟨⟨⟩, ha, hera⟩ := ha
      obtain ⟨⟨⟩, hb, hera'⟩ := hb
      simp only [payloadBody, append_assoc] at he
      obtain ⟨rfl, he₁⟩ := digestText_cancel (validateLabel_size ha) (validateLabel_size hb) he
      obtain ⟨rfl, he₂⟩ := digestText_cancel (validateCode_size hera) (validateCode_size hera') he₁
      obtain ⟨rfl, he₃⟩ := prefixCode_bool trivial trivial he₂
      exact ⟨rfl, he₃⟩
    | _ => cases hname

/-- The evidence of an event: the name of the variant comes first, so two words that agree are of
one variant. -/
theorem prefixCode_payload : PrefixCode (fun payload : RolloutEventEvidence =>
    payload.validate = .ok ()) RolloutEventEvidence.digestInto := by
  intro a b ha hb s t he
  rw [payload_digestInto, payload_digestInto, append_assoc, append_assoc] at he
  obtain ⟨hname, he⟩ := prefixCode_payloadName trivial trivial he
  exact payloadBody_inj ha hb hname he

/-- The variants of the outcome of an effect. -/
inductive OutcomeName
  | succeeded | failed | denied
deriving DecidableEq

def OutcomeName.asStr : OutcomeName → String
  | .succeeded => "succeeded"
  | .failed => "failed"
  | .denied => "denied"

theorem prefixCode_outcomeName :
    PrefixCode (fun _ : OutcomeName => True) fun name => digestText name.asStr := by
  refine prefixCode_digestText.comp (fun name _ => ?_) fun a b => ?_
  · cases name <;> decide
  · cases a <;> cases b <;> decide

def outcomeName : RolloutEffectOutcome → OutcomeName
  | .succeeded => .succeeded
  | .failed _ => .failed
  | .denied _ => .denied

def outcomeBody : RolloutEffectOutcome → List UInt8
  | .succeeded => []
  | .failed code => digestText code
  | .denied reasonDigest => digestText reasonDigest.text

theorem outcome_digestInto (outcome : RolloutEffectOutcome) :
    outcome.digestInto = digestText (outcomeName outcome).asStr ++ outcomeBody outcome := by
  cases outcome with
  | succeeded => exact (append_nil _).symm
  | failed | denied => rfl

theorem prefixCode_outcome : PrefixCode (fun outcome : RolloutEffectOutcome =>
    outcome.validate = .ok ()) RolloutEffectOutcome.digestInto := by
  intro a b ha hb s t he
  rw [outcome_digestInto, outcome_digestInto, append_assoc, append_assoc] at he
  obtain ⟨hname, he⟩ := prefixCode_outcomeName trivial trivial he
  cases a with
  | succeeded =>
    cases b with
    | succeeded => exact ⟨rfl, he⟩
    | _ => cases hname
  | failed code =>
    cases b with
    | failed code' =>
      simp only [outcomeBody] at he
      obtain ⟨rfl, he₁⟩ := digestText_cancel (validateCode_size ha) (validateCode_size hb) he
      exact ⟨rfl, he₁⟩
    | _ => cases hname
  | denied reasonDigest =>
    cases b with
    | denied reasonDigest' =>
      obtain ⟨rfl, he₁⟩ := prefixCode_rolloutDigest trivial trivial he
      exact ⟨rfl, he₁⟩
    | _ => cases hname

theorem prefixCode_kind :
    PrefixCode (fun _ : RolloutRecordKind => True) fun kind => digestText kind.asStr := by
  refine prefixCode_digestText.comp (fun kind _ => ?_) fun a b => ?_
  · cases kind <;> decide
  · cases a <;> cases b <;> decide

/-- **The evidence of a record is determined by what is fed to the hash for it.** -/
theorem evidence_inj {a b : RolloutEvidence} (ha : a.validate = .ok ()) (hb : b.validate = .ok ())
    (he : a.digestInto = b.digestInto) : a = b := by
  obtain ⟨hkind, he⟩ := prefixCode_kind trivial trivial he
  cases a with
  | contextManifest manifestDigest =>
    cases b with
    | contextManifest manifestDigest' =>
      have he₁ := congrArg (· ++ []) he
      obtain ⟨rfl, -⟩ := prefixCode_rolloutDigest trivial trivial he₁
      rfl
    | _ => cases hkind
  | runtimeEvent eventId eventType harnessId geneId policyVersion receiptId payload =>
    cases b with
    | runtimeEvent eventId' eventType' harnessId' geneId' policyVersion' receiptId' payload' =>
      simp only [RolloutEvidence.validate, bind_eq_ok] at ha hb
      obtain ⟨_, -, _, -, _, -, _, -, ha⟩ := ha
      obtain ⟨_, -, _, -, _, -, _, -, hb⟩ := hb
      obtain ⟨rfl, he₁⟩ := prefixCode_id trivial trivial he
      obtain ⟨rfl, he₂⟩ := prefixCode_eventType trivial trivial he₁
      obtain ⟨rfl, he₃⟩ := prefixCode_optional prefixCode_id trivial trivial he₂
      obtain ⟨rfl, he₄⟩ := prefixCode_optional prefixCode_id trivial trivial he₃
      obtain ⟨rfl, he₅⟩ := prefixCode_u32.tagged (fun _ _ => trivial) (fun _ _ => trivial) he₄
      obtain ⟨rfl, he₆⟩ := prefixCode_optional prefixCode_id trivial trivial he₅
      have he₇ := congrArg (· ++ []) he₆
      obtain ⟨rfl, -⟩ := prefixCode_payload ha hb he₇
      rfl
    | _ => cases hkind
  | effectReceipt receiptId permitId requestDigest completedAt outcome =>
    cases b with
    | effectReceipt receiptId' permitId' requestDigest' completedAt' outcome' =>
      simp only [RolloutEvidence.validate, bind_eq_ok] at ha hb
      obtain ⟨_, -, _, -, _, -, ha⟩ := ha
      obtain ⟨_, -, _, -, _, -, hb⟩ := hb
      obtain ⟨rfl, he₁⟩ := prefixCode_id trivial trivial he
      obtain ⟨rfl, he₂⟩ := prefixCode_id trivial trivial he₁
      obtain ⟨rfl, he₃⟩ := prefixCode_id trivial trivial he₂
      obtain ⟨rfl, he₄⟩ := prefixCode_u64 trivial trivial he₃
      have he₅ := congrArg (· ++ []) he₄
      obtain ⟨rfl, -⟩ := prefixCode_outcome ha hb he₅
      rfl
    | _ => cases hkind

/-! ### Records -/

theorem scopeMessage_inj {a b : RolloutScope} (h : scopeMessage a = scopeMessage b) : a = b := by
  simp only [scopeMessage, append_assoc] at h
  have h₁ := append_cancel_left h
  obtain ⟨htenant, h₂⟩ := prefixCode_id trivial trivial h₁
  obtain ⟨hworkspace, h₃⟩ := prefixCode_id trivial trivial h₂
  obtain ⟨hsession, h₄⟩ := prefixCode_id trivial trivial h₃
  have h₅ := congrArg (· ++ []) h₄
  obtain ⟨hexecution, -⟩ := prefixCode_id trivial trivial h₅
  cases a; cases b
  cases htenant; cases hworkspace; cases hsession; cases hexecution
  rfl

/-- What is fed to the hash for a record, from its own fields. -/
def RolloutRecord.message (record : RolloutRecord) : List UInt8 :=
  recordMessage record.sequence record.scopeDigest record.previousDigest record.evidence

theorem message_inj {a b : RolloutRecord} (ha : a.evidence.validate = .ok ())
    (hb : b.evidence.validate = .ok ())
    (h : RolloutRecord.message a = RolloutRecord.message b) :
    a.sequence = b.sequence ∧ a.scopeDigest = b.scopeDigest ∧
      a.previousDigest = b.previousDigest ∧ a.evidence = b.evidence := by
  simp only [RolloutRecord.message, recordMessage, append_assoc] at h
  have h₁ := append_cancel_left (append_cancel_left h)
  obtain ⟨hsequence, h₂⟩ := prefixCode_u32 trivial trivial h₁
  obtain ⟨hscope, h₃⟩ := prefixCode_rolloutDigest trivial trivial h₂
  obtain ⟨hprevious, h₄⟩ := prefixCode_optional prefixCode_rolloutDigest trivial trivial h₃
  exact ⟨hsequence, hscope, hprevious, evidence_inj ha hb h₄⟩

section

variable {sha : Sha256}

/-- A record that passed its check. -/
structure Verified (sha : Sha256) (scopeDigest : RolloutDigest) (record : RolloutRecord) :
    Prop where
  scope : record.scopeDigest = scopeDigest
  valid : record.evidence.validate = .ok ()
  digest : finishDigest sha (RolloutRecord.message record) = record.digest

theorem verifyFrom_eq_ok {scopeDigest : RolloutDigest} {records : List RolloutRecord} {index : ℕ}
    {previous last : Option RolloutDigest}
    (h : verifyFrom sha scopeDigest index previous records = .ok last) :
    (∀ record ∈ records, Verified sha scopeDigest record) ∧
      Linked RolloutRecord.digest RolloutRecord.previousDigest previous records ∧
      last = lastDigest RolloutRecord.digest previous records := by
  induction records generalizing index previous with
  | nil =>
    rw [verifyFrom, Except.ok.injEq] at h
    subst h
    exact ⟨fun record hrecord => absurd hrecord not_mem_nil, trivial, rfl⟩
  | cons record records ih =>
    simp only [verifyFrom, RolloutRecord.verify, bind_eq_ok, orError_eq_ok, ensure_eq_ok,
      exists_const] at h
    obtain ⟨expected, -, -, hscope, hprevious, ⟨⟨⟩, hvalid, hdigest⟩, hrest⟩ := h
    obtain ⟨hall, hlinked, rfl⟩ := ih hrest
    refine ⟨fun other hother => ?_, ⟨hprevious, hlinked⟩, (lastDigest_cons _ _ _).symm⟩
    rcases List.mem_cons.mp hother with rfl | hother
    · exact ⟨hscope, hvalid, hdigest⟩
    · exact hall other hother

theorem verifyRecords_eq_ok {scope : RolloutScope} {records : List RolloutRecord}
    {finalDigest : RolloutDigest} (h : verifyRecords sha scope records finalDigest = .ok ()) :
    records ≠ [] ∧ (∀ record ∈ records, Verified sha (scope.digest sha) record) ∧
      Linked RolloutRecord.digest RolloutRecord.previousDigest none records ∧
      lastDigest RolloutRecord.digest none records = some finalDigest := by
  simp only [verifyRecords, bind_eq_ok, ensure_eq_ok, exists_const] at h
  obtain ⟨hne, -, last, hloop, hlast⟩ := h
  obtain ⟨hall, hlinked, rfl⟩ := verifyFrom_eq_ok hloop
  exact ⟨hne, hall, hlinked, hlast⟩

/-- The messages that are hashed for a list of records. -/
def messages (scope : RolloutScope) (records : List RolloutRecord) : Set (List UInt8) :=
  {message | message = scopeMessage scope ∨ ∃ record ∈ records,
    message = RolloutRecord.message record}

theorem finishDigest_inj {a b : List UInt8} (h : finishDigest sha a = finishDigest sha b) :
    sha a = sha b := hashText_inj (congrArg RolloutDigest.text h)

end

/-- **Rollouts are tamper evident.** Without a collision of the hash on the messages of two lists of
records: if both are accepted with the same final digest, they are the same, in the same scope. -/
theorem rollout_tamper_evident (sha : Sha256) (scope scope' : RolloutScope)
    (records records' : List RolloutRecord) (finalDigest : RolloutDigest)
    (hsha : Set.InjOn sha (messages scope records ∪ messages scope' records'))
    (h : verifyRecords sha scope records finalDigest = .ok ())
    (h' : verifyRecords sha scope' records' finalDigest = .ok ()) :
    scope = scope' ∧ records = records' := by
  obtain ⟨hne, hall, hlinked, hlast⟩ := verifyRecords_eq_ok h
  obtain ⟨-, hall', hlinked', hlast'⟩ := verifyRecords_eq_ok h'
  have hinj : ∀ r ∈ records, ∀ r' ∈ records', r.digest = r'.digest → r = r' := by
    intro r hr r' hr' hdigest
    have hverified := hall r hr
    have hverified' := hall' r' hr'
    have hhash : finishDigest sha (RolloutRecord.message r) =
        finishDigest sha (RolloutRecord.message r') := by
      rw [hverified.digest, hverified'.digest, hdigest]
    have hmessage := hsha (Or.inl (Or.inr ⟨r, hr, rfl⟩)) (Or.inr (Or.inr ⟨r', hr', rfl⟩))
      (finishDigest_inj hhash)
    obtain ⟨hsequence, hscope, hprevious, hevidence⟩ :=
      message_inj hverified.valid hverified'.valid hmessage
    cases r; cases r'
    cases hsequence; cases hscope; cases hprevious; cases hevidence; cases hdigest
    rfl
  obtain rfl : records = records' :=
    Linked.eq_of_lastDigest hinj hlinked hlinked' (hlast.trans hlast'.symm)
  refine ⟨?_, rfl⟩
  -- any record names the digests of both scopes
  obtain ⟨r, hr⟩ := List.exists_mem_of_ne_nil records hne
  have hscope : finishDigest sha (scopeMessage scope) = finishDigest sha (scopeMessage scope') :=
    (hall r hr).scope.symm.trans (hall' r hr).scope
  exact scopeMessage_inj (hsha (Or.inl (Or.inl rfl)) (Or.inr (Or.inl rfl))
    (finishDigest_inj hscope))

/-! ### Two records

On the three messages that occur the hash below is SHA-256, told apart by their lengths. -/

def scopeHash : Bytes32 :=
  ⟨[187, 235, 245, 99, 164, 48, 80, 127, 71, 38, 14, 34, 181, 4, 114, 83, 44, 146, 74, 248, 229,
    158, 92, 239, 134, 145, 55, 207, 20, 162, 125, 152],
    rfl⟩

def firstHash : Bytes32 :=
  ⟨[220, 94, 47, 66, 33, 104, 47, 21, 117, 98, 219, 47, 3, 143, 106, 148, 82, 197, 81, 105, 144, 89,
    165, 225, 50, 146, 45, 40, 94, 21, 78, 53],
    rfl⟩

def secondHash : Bytes32 :=
  ⟨[176, 43, 73, 185, 234, 70, 159, 127, 140, 21, 76, 187, 21, 114, 191, 102, 113, 240, 152, 7, 111,
    100, 175, 198, 139, 247, 1, 154, 41, 119, 153, 97],
    rfl⟩

def sampleSha : Sha256 := fun message =>
  if message.length = 92 then scopeHash else if message.length = 211 then firstHash else secondHash

def sampleScope : RolloutScope :=
  ⟨.ofLiteral "tenant-a", .ofLiteral "workspace-a", .ofLiteral "session-a",
    .ofLiteral "execution-a"⟩

def digestOf (hash : Bytes32) : RolloutDigest :=
  ⟨"sha256:" ++ hex hash.bytes, isSha256Digest_hex hash⟩

def sampleFirst : RolloutRecord where
  sequence := 0
  scopeDigest := digestOf scopeHash
  previousDigest := none
  evidence := .contextManifest
    ⟨"sha256:ea7792a26f405e2ae9c6f49ca93bbe6076ceac0a1fc53d83426c7d7f2d9377e4", by decide +kernel⟩
  digest := digestOf firstHash

def sampleSecond : RolloutRecord where
  sequence := 1
  scopeDigest := digestOf scopeHash
  previousDigest := some (digestOf firstHash)
  evidence := .runtimeEvent (.ofLiteral "event-a") .executionFailed none none (some 3) none
    (.failure "timeout")
  digest := digestOf secondHash

theorem sample_verified :
    verifyRecords sampleSha sampleScope [sampleFirst, sampleSecond] (digestOf secondHash) =
      .ok () := by
  decide +kernel

/-- The messages of the sample. -/
def sampleMessages : List (List UInt8) :=
  [scopeMessage sampleScope, RolloutRecord.message sampleFirst, RolloutRecord.message sampleSecond]

theorem sampleSha_injOn : Set.InjOn sampleSha (messages sampleScope [sampleFirst, sampleSecond] ∪
    messages sampleScope [sampleSecond]) := by
  have hmem : ∀ message ∈ messages sampleScope [sampleFirst, sampleSecond] ∪
      messages sampleScope [sampleSecond], message ∈ sampleMessages := by
    rintro message ((rfl | ⟨record, hrecord, rfl⟩) | (rfl | ⟨record, hrecord, rfl⟩))
    · exact mem_cons_self
    · rcases List.mem_pair.mp hrecord with rfl | rfl <;> simp [sampleMessages]
    · exact mem_cons_self
    · rw [mem_singleton] at hrecord
      simp [sampleMessages, hrecord]
  have hnodup : (sampleMessages.map sampleSha).Nodup := by decide +kernel
  intro a ha b hb h
  exact inj_on_of_nodup_map hnodup (hmem a ha) (hmem b hb) h

/-- The list without its first record is not accepted with the final digest of the whole. -/
theorem sample_truncated_refused :
    verifyRecords sampleSha sampleScope [sampleFirst, sampleSecond] (digestOf secondHash) = .ok () ∧
    verifyRecords sampleSha sampleScope [sampleSecond] (digestOf secondHash) ≠ .ok () := by
  refine ⟨sample_verified, fun h => ?_⟩
  obtain ⟨-, hrecords⟩ := rollout_tamper_evident sampleSha sampleScope sampleScope _ _ _
    sampleSha_injOn sample_verified h
  cases hrecords

end Pandora.Rollout.TamperEvidence
