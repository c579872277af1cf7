import Pandora.Ids

/-! # Execution profiles

The contract of `execution_profile.rs`: what an operation runs on, as texts and digests that are
checked when a profile is built, and one digest over all of them. The digest is taken over a
concatenation of length-prefixed texts; the list of bindings has no count, and a binding's version
may be absent.

A profile carries the checks and the digest of `from_digests` as fields. -/

namespace Pandora.Effect.Profile

open Lib.Codes Text

def maxIdBytes : ℕ := 256
def maxVersionBytes : ℕ := 128

inductive ExecutionProfileBindingKind
  | executor | harness | gene | provider | model | toolCatalog | artifact | configuration
deriving DecidableEq

def ExecutionProfileBindingKind.asStr : ExecutionProfileBindingKind → String
  | .executor => "executor"
  | .harness => "harness"
  | .gene => "gene"
  | .provider => "provider"
  | .model => "model"
  | .toolCatalog => "tool_catalog"
  | .artifact => "artifact"
  | .configuration => "configuration"

/-! ## Checked texts -/

/-- What `validate_text` asks. -/
def IsText (maxBytes : ℕ) (value : String) : Prop :=
  ¬ ((trim value).isEmpty ∨ '\x00' ∈ value.toList) ∧ value.utf8ByteSize ≤ maxBytes

/-- The bytes of an identifier. -/
def identifierByte (byte : UInt8) : Bool :=
  let n := byte.toNat
  (0x30 ≤ n && n ≤ 0x39) || (0x41 ≤ n && n ≤ 0x5A) || (0x61 ≤ n && n ≤ 0x7A) ||
    n == 0x5F || n == 0x2D || n == 0x2E || n == 0x2F || n == 0x3A || n == 0x2B

/-- What `validate_identifier` asks. -/
def IsIdentifier (maxBytes : ℕ) (value : String) : Prop :=
  IsText maxBytes value ∧ (asBytes value).all identifierByte

/-- The bytes of a hexadecimal digest. -/
def digestByte (byte : UInt8) : Bool :=
  let n := byte.toNat
  (0x30 ≤ n && n ≤ 0x39) || (0x61 ≤ n && n ≤ 0x66)

/-- What `validate_digest` asks. -/
def IsDigest (value : String) : Prop :=
  value.utf8ByteSize = 71 ∧ (asBytes value).take 7 = asBytes "sha256:" ∧
    ((asBytes value).drop 7).all digestByte

structure Identifier (maxBytes : ℕ) where
  text : String
  ok : IsIdentifier maxBytes text
deriving DecidableEq

structure DigestText where
  text : String
  ok : IsDigest text
deriving DecidableEq

instance (maxBytes : ℕ) (value : String) : Decidable (IsText maxBytes value) :=
  inferInstanceAs (Decidable (_ ∧ _))

instance (maxBytes : ℕ) (value : String) : Decidable (IsIdentifier maxBytes value) :=
  inferInstanceAs (Decidable (_ ∧ _))

instance (value : String) : Decidable (IsDigest value) := inferInstanceAs (Decidable (_ ∧ _))

theorem Identifier.ext_text {maxBytes : ℕ} {a b : Identifier maxBytes} (h : a.text = b.text) :
    a = b := by
  cases a; cases b; cases h; rfl

theorem DigestText.ext_text {a b : DigestText} (h : a.text = b.text) : a = b := by
  cases a; cases b; cases h; rfl

/-! ## Bindings and profiles -/

structure ExecutionProfileBinding where
  kind : ExecutionProfileBindingKind
  id : Identifier maxIdBytes
  version : Option (Identifier maxVersionBytes)
  digest : DigestText
deriving DecidableEq

/-- The first two neighbours with one kind and identifier. -/
def duplicateBinding (bindings : List ExecutionProfileBinding) : Option ExecutionProfileBinding :=
  ((bindings.zip bindings.tail).find? fun pair =>
    pair.1.kind = pair.2.kind ∧ pair.1.id.text = pair.2.id.text).map (·.1)

def executorCount (bindings : List ExecutionProfileBinding) : ℕ :=
  bindings.countP fun binding => binding.kind = .executor

/-- The fields of a profile the digest is taken over. -/
structure ProfileData where
  runtimeVersion : Identifier maxVersionBytes
  (platformOs platformArchitecture : Identifier maxIdBytes)
  policyVersion : UInt32
  (workspaceDigest containmentDigest : DigestText)
  bindings : List ExecutionProfileBinding
deriving DecidableEq

/-- `digest_text`: what is fed to the hash for a text. -/
def digestText (value : String) : List UInt8 := lengthPrefixed 8 (asBytes value)

/-- What is fed to the hash for a binding. -/
def bindingMessage (binding : ExecutionProfileBinding) : List UInt8 :=
  digestText binding.kind.asStr ++ digestText binding.id.text ++
    tagged (fun version : Identifier maxVersionBytes => digestText version.text) binding.version ++
    digestText binding.digest.text

/-- What is fed to the hash for a profile. -/
def profileMessage (data : ProfileData) : List UInt8 :=
  digestText "pandora-execution-profile-v1" ++ digestText data.runtimeVersion.text ++
    digestText data.platformOs.text ++ digestText data.platformArchitecture.text ++
    bigEndian 4 data.policyVersion.toNat ++ digestText data.workspaceDigest.text ++
    digestText data.containmentDigest.text ++ data.bindings.flatMap bindingMessage

variable (sha : Sha256)

/-- `profile_digest`. -/
def profileDigest (data : ProfileData) : String :=
  "pandora-execution-profile-v1:sha256:" ++ hex (sha (profileMessage data)).bytes

/-- The bindings of an execution, with their digest. -/
structure ExecutionProfile extends ProfileData where
  digest : String
  distinct : duplicateBinding bindings = none
  executor : executorCount bindings = 1
  digest_eq : digest = profileDigest sha toProfileData
deriving DecidableEq

/-! ## The digest determines the profile -/

theorem prefixCode_digestText :
    PrefixCode (fun value : String => value.utf8ByteSize < 256 ^ 8) digestText :=
  (prefixCode_lengthPrefixed 8).comp (fun value h => by rw [length_asBytes]; exact h)
    fun _ _ => asBytes_inj

theorem prefixCode_identifier {maxBytes : ℕ} (hmax : maxBytes < 256 ^ 8) :
    PrefixCode (fun _ : Identifier maxBytes => True) fun identifier => digestText identifier.text :=
  prefixCode_digestText.comp (fun identifier _ => Nat.lt_of_le_of_lt identifier.ok.1.2 hmax)
    fun _ _ => Identifier.ext_text

theorem prefixCode_digest :
    PrefixCode (fun _ : DigestText => True) fun digest => digestText digest.text :=
  prefixCode_digestText.comp (fun digest _ => by rw [digest.ok.1]; decide)
    fun _ _ => DigestText.ext_text

theorem asStr_inj : ∀ a b : ExecutionProfileBindingKind, a.asStr = b.asStr → a = b := by
  intro a b
  cases a <;> cases b <;> decide

theorem prefixCode_kind :
    PrefixCode (fun _ : ExecutionProfileBindingKind => True) fun kind => digestText kind.asStr :=
  prefixCode_digestText.comp (fun kind _ => by cases kind <;> decide) asStr_inj

/-- The words of the bindings are a prefix code: the tag tells whether a version follows. -/
theorem prefixCode_bindingMessage :
    PrefixCode (fun _ : ExecutionProfileBinding => True) bindingMessage := by
  intro a b _ _ s t he
  simp only [bindingMessage, List.append_assoc] at he
  obtain ⟨hkind, he⟩ := prefixCode_kind trivial trivial he
  obtain ⟨hid, he⟩ := prefixCode_identifier (by decide) trivial trivial he
  obtain ⟨hversion, he⟩ := (prefixCode_identifier (by decide)).tagged
    (fun _ _ => trivial) (fun _ _ => trivial) he
  obtain ⟨hdigest, he⟩ := prefixCode_digest trivial trivial he
  refine ⟨?_, he⟩
  cases a; cases b
  cases hkind; cases hid; cases hversion; cases hdigest
  rfl

theorem bindingMessage_ne_nil (binding : ExecutionProfileBinding) :
    bindingMessage binding ≠ [] := by
  intro h
  have hlen := congrArg List.length h
  simp [bindingMessage, digestText, lengthPrefixed, length_bigEndian] at hlen

theorem profileMessage_inj {a b : ProfileData} (h : profileMessage a = profileMessage b) :
    a = b := by
  simp only [profileMessage, List.append_assoc] at h
  have h := List.append_cancel_left h
  obtain ⟨hruntime, h⟩ := prefixCode_identifier (by decide) trivial trivial h
  obtain ⟨hos, h⟩ := prefixCode_identifier (by decide) trivial trivial h
  obtain ⟨harch, h⟩ := prefixCode_identifier (by decide) trivial trivial h
  obtain ⟨hpolicy, h⟩ := List.append_inj h (by rw [length_bigEndian, length_bigEndian])
  have hpolicy : a.policyVersion = b.policyVersion :=
    UInt32.toNat_inj.mp (bigEndian_inj a.policyVersion.toNat_lt b.policyVersion.toNat_lt hpolicy)
  obtain ⟨hworkspace, h⟩ := prefixCode_digest trivial trivial h
  obtain ⟨hcontainment, h⟩ := prefixCode_digest trivial trivial h
  have hbindings := prefixCode_bindingMessage.flatMap_inj bindingMessage_ne_nil
    (fun _ _ => trivial) (fun _ _ => trivial) h
  cases a; cases b
  cases hruntime; cases hos; cases harch; cases hpolicy; cases hworkspace; cases hcontainment
  cases hbindings
  rfl

/-- A text with a fixed beginning and a hash in hexadecimal determines the hash. -/
theorem hashText_inj {label : String} {x y : Bytes32}
    (h : label ++ hex x.bytes = label ++ hex y.bytes) :
    x = y := Bytes32.ext_bytes (hex_inj (String.append_right_inj label |>.mp h))

theorem ExecutionProfile.ext_data {a b : ExecutionProfile sha}
    (h : a.toProfileData = b.toProfileData) :
    a = b := by
  rcases a with ⟨a, da, ha₁, ha₂, rfl⟩
  rcases b with ⟨b, db, hb₁, hb₂, rfl⟩
  obtain rfl : a = b := h
  rfl

/-- **The digest determines the profile**, when the hash does not collide on the two messages. -/
theorem profile_eq_of_digest {a b : ExecutionProfile sha}
    (hsha : sha (profileMessage a.toProfileData) = sha (profileMessage b.toProfileData) →
      profileMessage a.toProfileData = profileMessage b.toProfileData)
    (h : a.digest = b.digest) : a = b := by
  rw [a.digest_eq, b.digest_eq] at h
  exact ExecutionProfile.ext_data sha (profileMessage_inj (hsha (hashText_inj h)))

end Pandora.Effect.Profile
