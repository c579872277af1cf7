import Pandora.Effect.Profile
import Pandora.Cron.Schedule

/-! # Context fragments

The contract of `context.rs`: a fragment is a piece of text with its source, its trust and its
classification; its identifier is checked and it carries the digest of its content. The manifest of
a list of fragments has a digest over everything but the contents, which go in by their own digests.

What is fed to the hash for a fragment is a prefix code of its manifest, up to the kind of the
origin, which is not fed to it (`fragmentMessage_cancel`). -/

namespace Pandora.Context.Fragments

open Text Lib.Codes List
open Effect.Profile (digestText prefixCode_digestText)

def contextProjectionVersion : UInt32 := 2

/-! ## Classifications, sources and origins -/

inductive ContextClassification
  | «public» | internal | sensitive | secret
deriving DecidableEq

def ContextClassification.asStr : ContextClassification → String
  | .«public» => "public"
  | .internal => "internal"
  | .sensitive => "sensitive"
  | .secret => "secret"

/-- The order in which the variants are declared. -/
def ContextClassification.rank : ContextClassification → ℕ
  | .«public» => 0
  | .internal => 1
  | .sensitive => 2
  | .secret => 3

def ContextClassification.cacheable : ContextClassification → Bool
  | .«public» | .internal => true
  | .sensitive | .secret => false

inductive ContextSource
  | constitutional | activePlan | l1Evidence | retrieved | conversation
deriving DecidableEq

def ContextSource.asStr : ContextSource → String
  | .constitutional => "constitutional"
  | .activePlan => "active_plan"
  | .l1Evidence => "l1_evidence"
  | .retrieved => "retrieved"
  | .conversation => "conversation"

inductive ContextTrust
  | constitutional | verified | admitted | unverified
deriving DecidableEq

def ContextTrust.asStr : ContextTrust → String
  | .constitutional => "constitutional"
  | .verified => "verified"
  | .admitted => "admitted"
  | .unverified => "unverified"

inductive ContextOriginKind
  | runtime | memory | skill | userSelection | tool | mcp | package | repository | document | issue
  | design | agentHandoff | external

/-- `str::starts_with` of a text. -/
def startsWith (front text : String) : Bool := front.toList.isPrefixOf text.toList

inductive ContextContractError
  | emptyField (field : String)
  | fieldTooLong (field : String)
  | controlCharacter (field : String)
  | invalidUri (message : String)

/-- The texts of an origin are short. -/
structure ContextOrigin where
  (producer reference : Option String)
  kind : ContextOriginKind
  producerShort : ∀ text ∈ producer, text.utf8ByteSize ≤ 512
  referenceShort : ∀ text ∈ reference, text.utf8ByteSize ≤ 512

def ContextOrigin.incomplete : ContextOrigin where
  producer := none
  reference := none
  kind := .external
  producerShort := nofun
  referenceShort := nofun

def ContextOrigin.isComplete (origin : ContextOrigin) : Bool :=
  origin.producer.isSome && origin.reference.isSome

/-! ## Fragments -/

variable (sha : Sha256)

/-- `sha256_digest`. -/
def sha256Digest (value : List UInt8) : String := "sha256:" ++ hex (sha value).bytes

/-- A fragment with a checked identifier and the digest of its content. -/
structure ContextFragment where
  id : String
  source : ContextSource
  trust : ContextTrust
  classification : ContextClassification
  priority : UInt8
  (content contentDigest : String)
  tokenCost : UInt32
  expiresAt : Option UInt64
  origin : ContextOrigin
  idShort : id.utf8ByteSize ≤ 4096
  contentDigest_eq : contentDigest = sha256Digest sha (asBytes content)

variable {sha}

def ContextFragment.isExpired (fragment : ContextFragment sha) (now : UInt64) : Bool :=
  fragment.expiresAt.any (· ≤ now)

/-! ## Manifests -/

/-- What is known of a fragment besides its text. -/
structure ContextFragmentManifest where
  id : String
  source : ContextSource
  trust : ContextTrust
  classification : ContextClassification
  priority : UInt8
  contentDigest : String
  tokenCost : UInt32
  expiresAt : Option UInt64
  origin : ContextOrigin

/-- `ContextFragmentManifest::from`. -/
def ContextFragmentManifest.ofFragment (fragment : ContextFragment sha) :
    ContextFragmentManifest where
  id := fragment.id
  source := fragment.source
  trust := fragment.trust
  classification := fragment.classification
  priority := fragment.priority
  contentDigest := fragment.contentDigest
  tokenCost := fragment.tokenCost
  expiresAt := fragment.expiresAt
  origin := fragment.origin

/-- What is fed to the hash for a fragment. -/
def fragmentMessage (fragment : ContextFragmentManifest) : List UInt8 :=
  digestText fragment.id ++ (digestText fragment.source.asStr ++ (digestText fragment.trust.asStr ++
    (digestText fragment.classification.asStr ++ ([fragment.priority] ++
    (digestText fragment.contentDigest ++ (bigEndian 4 fragment.tokenCost.toNat ++
    (tagged (fun time : UInt64 => bigEndian 8 time.toNat) fragment.expiresAt ++
    (tagged digestText fragment.origin.producer ++
    tagged digestText fragment.origin.reference))))))))

/-- What is fed to the hash for a manifest. -/
def manifestMessage (fragments : List ContextFragmentManifest) : List UInt8 :=
  asBytes "pandora-context-manifest" ++ bigEndian 4 contextProjectionVersion.toNat ++
    bigEndian 8 fragments.length ++ fragments.flatMap fragmentMessage

variable (sha) in
def digestManifest (fragments : List ContextFragmentManifest) : String :=
  sha256Digest sha (manifestMessage fragments)

structure ContextManifest where
  fragments : List ContextFragmentManifest
  digest : String
  provenanceComplete : Bool

def ContextManifest.fromFragments (fragments : List (ContextFragment sha)) : ContextManifest :=
  let fragments := fragments.map ContextFragmentManifest.ofFragment
  { fragments := fragments
    digest := digestManifest sha fragments
    provenanceComplete := fragments.all (·.origin.isComplete) }

/-! ### What a manifest determines -/

theorem sha256Digest_inj {a b : List UInt8} (h : sha256Digest sha a = sha256Digest sha b) :
    sha a = sha b := Pandora.Effect.Profile.hashText_inj h

theorem sha256Digest_size (value : List UInt8) : (sha256Digest sha value).utf8ByteSize = 71 := by
  have hlabel : ("sha256:" : String).utf8ByteSize = 7 := by decide
  unfold sha256Digest
  rw [String.utf8ByteSize_append, hlabel, ← length_asBytes, length_hex, (sha value).length_eq]

theorem prefixCode_enum {α : Type} {name : α → String} (hsize : ∀ a, (name a).utf8ByteSize ≤ 512)
    (hname : ∀ a b, name a = name b → a = b) :
    PrefixCode (fun _ : α => True) fun a => digestText (name a) :=
  prefixCode_digestText.comp (fun a _ => Nat.lt_of_le_of_lt (hsize a) (by decide)) hname

theorem prefixCode_source :
    PrefixCode (fun _ : ContextSource => True) fun source => digestText source.asStr :=
  prefixCode_enum (fun a => by cases a <;> decide) fun a b => by cases a <;> cases b <;> decide

theorem prefixCode_trust :
    PrefixCode (fun _ : ContextTrust => True) fun trust => digestText trust.asStr :=
  prefixCode_enum (fun a => by cases a <;> decide) fun a b => by cases a <;> cases b <;> decide

theorem prefixCode_classification : PrefixCode (fun _ : ContextClassification => True)
    fun classification => digestText classification.asStr :=
  prefixCode_enum (fun a => by cases a <;> decide) fun a b => by cases a <;> cases b <;> decide

theorem prefixCode_expiry : PrefixCode (fun _ : Option UInt64 => True)
    (tagged fun time : UInt64 => bigEndian 8 time.toNat) := by
  have htime : PrefixCode (fun _ : UInt64 => True) fun time => bigEndian 8 time.toNat := by
    refine PrefixCode.of_length (n := 8) (fun time _ => length_bigEndian 8 _) fun a b _ _ he => ?_
    exact UInt64.toNat_inj.mp (bigEndian_inj a.toNat_lt b.toNat_lt he)
  intro a b _ _ s t he
  exact htime.tagged (fun _ _ => trivial) (fun _ _ => trivial) he

/-- The texts of the manifest have lengths that fit. -/
structure ContextFragmentManifest.Short (fragment : ContextFragmentManifest) : Prop where
  id : fragment.id.utf8ByteSize ≤ 4096
  contentDigest : fragment.contentDigest.utf8ByteSize = 71

theorem short_ofFragment (fragment : ContextFragment sha) :
    (ContextFragmentManifest.ofFragment fragment).Short where
  id := fragment.idShort
  contentDigest := by
    change fragment.contentDigest.utf8ByteSize = 71
    rw [fragment.contentDigest_eq]
    exact sha256Digest_size _

/-- Two manifests that differ at most in the kinds of their origins. -/
structure SameButKind (a b : ContextFragmentManifest) : Prop where
  id : a.id = b.id
  source : a.source = b.source
  trust : a.trust = b.trust
  classification : a.classification = b.classification
  priority : a.priority = b.priority
  contentDigest : a.contentDigest = b.contentDigest
  tokenCost : a.tokenCost = b.tokenCost
  expiresAt : a.expiresAt = b.expiresAt
  producer : a.origin.producer = b.origin.producer
  reference : a.origin.reference = b.origin.reference

theorem SameButKind.isComplete {a b : ContextFragmentManifest} (h : SameButKind a b) :
    a.origin.isComplete = b.origin.isComplete := by
  unfold ContextOrigin.isComplete
  rw [h.producer, h.reference]

theorem provenanceComplete_congr {l l' : List (ContextFragment sha)}
    (h : List.Forall₂ (fun f g => SameButKind (.ofFragment f) (.ofFragment g)) l l') :
    (ContextManifest.fromFragments l).provenanceComplete =
      (ContextManifest.fromFragments l').provenanceComplete := by
  unfold ContextManifest.fromFragments
  dsimp only
  induction h with
  | nil => rfl
  | cons hfg _ ih =>
    rw [map_cons, map_cons, all_cons, all_cons, hfg.isComplete, ih]

/-- The message of a fragment tells where it ends, and determines the fragment but for the kind of
its origin. -/
theorem fragmentMessage_cancel {a b : ContextFragmentManifest} (ha : a.Short) (hb : b.Short)
    {s t : List UInt8} (h : fragmentMessage a ++ s = fragmentMessage b ++ t) :
    SameButKind a b ∧ s = t := by
  have hfits : ∀ {n m : ℕ}, n ≤ m → m < 256 ^ 8 → n < 256 ^ 8 := Nat.lt_of_le_of_lt
  have horigin : ∀ {o : Option String}, (∀ text ∈ o, text.utf8ByteSize ≤ 512) →
      ∀ text, o = some text → text.utf8ByteSize < 256 ^ 8 :=
    fun hshort text htext => hfits (hshort text htext) (by decide)
  unfold fragmentMessage at h
  simp only [append_assoc] at h
  obtain ⟨hid, h⟩ := prefixCode_digestText (hfits ha.id (by decide)) (hfits hb.id (by decide)) h
  obtain ⟨hsource, h⟩ := prefixCode_source trivial trivial h
  obtain ⟨htrust, h⟩ := prefixCode_trust trivial trivial h
  obtain ⟨hclassification, h⟩ := prefixCode_classification trivial trivial h
  obtain ⟨hpriority, h⟩ := List.cons.inj h
  obtain ⟨hdigest, h⟩ := prefixCode_digestText (hfits ha.contentDigest.le (by decide))
    (hfits hb.contentDigest.le (by decide)) h
  obtain ⟨hcost, h⟩ := append_inj h (by rw [length_bigEndian, length_bigEndian])
  obtain ⟨hexpires, h⟩ := prefixCode_expiry trivial trivial h
  obtain ⟨hproducer, h⟩ := prefixCode_digestText.tagged (horigin a.origin.producerShort)
    (horigin b.origin.producerShort) h
  obtain ⟨hreference, h⟩ := prefixCode_digestText.tagged (horigin a.origin.referenceShort)
    (horigin b.origin.referenceShort) h
  exact ⟨⟨hid, hsource, htrust, hclassification, hpriority, hdigest,
    UInt32.toNat_inj.mp (bigEndian_inj a.tokenCost.toNat_lt b.tokenCost.toNat_lt hcost),
    hexpires, hproducer, hreference⟩, h⟩

theorem fragmentMessage_ne_nil (fragment : ContextFragmentManifest) :
    fragmentMessage fragment ≠ [] := by
  unfold fragmentMessage
  intro h
  have hpriority := (List.append_eq_nil_iff.mp h).2
  simp at hpriority

/-- **The digest determines the manifest**, but for the kinds of the origins. -/
theorem manifestMessage_cancel {fragments fragments' : List ContextFragmentManifest}
    (hshort : ∀ a ∈ fragments, a.Short) (hshort' : ∀ a ∈ fragments', a.Short)
    (h : manifestMessage fragments = manifestMessage fragments') :
    List.Forall₂ SameButKind fragments fragments' := by
  unfold manifestMessage at h
  simp only [append_assoc, append_cancel_left_eq] at h
  obtain ⟨-, h⟩ := append_inj h (by rw [length_bigEndian, length_bigEndian])
  exact forall₂_of_flatMap (fun a b ha hb s t => fragmentMessage_cancel ha hb)
    fragmentMessage_ne_nil hshort hshort' h

end Pandora.Context.Fragments
