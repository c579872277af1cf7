import Pandora.Service.Identity
import Pandora.Lib.Tables
import Pandora.Lib.Runs

/-! # Device proofs and remembered nonces

In identity mode every request carries a proof: a signature over its timestamp, nonce, method, path,
token and body. `require_bearer` accepts it if the timestamp is at most 60 seconds away from the
server clock, the token belongs to an identity, the signature is right and the nonce is new. Nonces
are remembered with the signed timestamp and forgotten when that leaves the window. The signature
check of Ed25519 and SHA-256 are parameters, and nothing is assumed of them.

`record_nonce` writes the timestamp of a rejected duplicate over the one it remembers. A duplicate
with an earlier timestamp (`lowers`) makes the service forget the nonce too soon; without one, an
accepted proof stays remembered until it leaves the window (`Remembered`). -/

namespace Pandora.Service.DeviceProofs

open Text Lib.Checked Lib.Tables Lib.Runs Service.Identity

def maxRpcBodyBytes : ℕ := 1048576
def deviceProofWindowSeconds : ℕ := 60
def maxReplayEntries : ℕ := 4096
def nonceHexBytes : ℕ := 32
def signatureBytes : ℕ := 64

/-- `VerifyingKey::from_bytes` and `verify`: the key, the message and the signature. -/
abbrev Ed25519 := Bytes32 → List UInt8 → List UInt8 → Bool

/-- What the service takes from outside. -/
structure Crypto where
  sha256 : Sha256
  verify : Ed25519

/-- The headers of a request that `require_bearer` reads (those with a text), and the rest of what
is signed. -/
structure HttpRequest where
  (authorization deviceId timestamp nonce signature : Option String)
  (method path : String)
  body : List UInt8

inductive StatusCode
  | unauthorized
  | payloadTooLarge
deriving DecidableEq

/-- What the proof of a device is about. -/
structure DeviceProofRequest where
  token : String
  timestamp : ℕ
  (nonce method path : String)
  body : List UInt8
deriving DecidableEq

/-- `u64::abs_diff`. -/
def absDiff (a b : ℕ) : ℕ := max a b - min a b

/-- The timestamp is inside the proof window. -/
def inWindow (now timestamp : ℕ) : Bool := absDiff now timestamp ≤ deviceProofWindowSeconds

/-! ### The proof -/

def deviceProofMessage (sha : Sha256) (request : DeviceProofRequest) : Option (List UInt8) :=
  if (asBytes request.token).length = tokenHexBytes ∧
      (asBytes request.nonce).length = nonceHexBytes ∧
      isLowerHex (asBytes request.token) ∧ isLowerHex (asBytes request.nonce) ∧
      request.method ≠ "" ∧ request.method.utf8ByteSize ≤ 16 ∧
      (asBytes request.method).all (fun b => 0x41 ≤ b && b ≤ 0x5A) ∧
      request.path ≠ "" ∧ request.path.utf8ByteSize ≤ 256 ∧ request.path.toList.head? = some '/' ∧
      ¬ (asBytes request.path).any (fun b => b ≤ 0x1F || b == 0x7F) then
    some (asBytes "pandora-device-proof-v2\x00" ++ asBytes (toString request.timestamp) ++ [0] ++
      asBytes request.nonce ++ [0] ++ asBytes request.method ++ [0] ++ asBytes request.path ++
        [0] ++
      (sha (asBytes request.token)).bytes ++ (sha request.body).bytes)
  else none

def verifyDeviceProof (crypto : Crypto) (publicKey : Bytes32) (request : DeviceProofRequest)
    (signature : String) : Bool :=
  match deviceProofMessage crypto.sha256 request, decodeFixed signatureBytes signature with
  | some message, some signature => crypto.verify publicKey message signature
  | _, _ => false

/-! ### Remembered nonces -/

/-- An entry of the map: `identity:nonce`, and the signed timestamp. -/
structure NonceEntry where
  key : String
  recorded : ℕ

abbrev Nonces := Table NonceEntry.key

def nonceKey (identityId nonce : String) : String := identityId ++ ":" ++ nonce

/-- The entries that are not forgotten. -/
def retain (now : ℕ) (seen : Nonces) : Nonces :=
  seen.delete fun entry => !inWindow now entry.recorded

/-- Whether the nonce is new, and the map afterwards. -/
def recordNonce (identityId nonce : String) (timestamp now : ℕ) (seen : Nonces) : Nonces × Bool :=
  let seen := retain now seen
  if maxReplayEntries ≤ seen.rows.length then (seen, false)
  else (seen.upsert ⟨nonceKey identityId nonce, timestamp⟩,
    (seen.get? (nonceKey identityId nonce)).isNone)

/-! ### `require_bearer` -/

/-- A request, the clock when its body has been read, and the identities enrolled at that time. -/
structure Arrival where
  request : HttpRequest
  now : ℕ
  identities : List IdentityRow

def bearerToken (request : HttpRequest) : Option String := do
  let header ← request.authorization
  let candidate ← strip "Bearer " header
  if candidate = "" then none else some candidate

/-- `proof_header`: a header that is not empty. -/
def proofHeader (header : Option String) : Option String := header.filter (· ≠ "")

/-- The identity the store knows; one it cannot read is no identity. -/
def knownIdentity (sha : Sha256) (identities : List IdentityRow) (token deviceId : String) :
    Option ServiceIdentity :=
  match authenticate sha identities token deviceId with
  | .ok identity => identity
  | .error _ => none

/-- The identity and the proof of a request whose signature is right, or the status it is refused
with. -/
def verifiedProof (crypto : Crypto) (arrival : Arrival) :
    Except StatusCode (ServiceIdentity × DeviceProofRequest) := do
  let request := arrival.request
  let candidate ← orError (bearerToken request) .unauthorized
  let deviceId ← orError request.deviceId .unauthorized
  let timestamp ← orError ((proofHeader request.timestamp).bind (parseUnsigned 64)) .unauthorized
  let nonce ← orError (proofHeader request.nonce) .unauthorized
  let signature ← orError (proofHeader request.signature) .unauthorized
  ensure (request.body.length ≤ maxRpcBodyBytes) .payloadTooLarge
  ensure (inWindow arrival.now timestamp) .unauthorized
  let identity ← orError (knownIdentity crypto.sha256 arrival.identities candidate deviceId)
    .unauthorized
  let proof := ⟨candidate, timestamp, nonce, request.method, request.path, request.body⟩
  ensure (verifyDeviceProof crypto identity.devicePublicKey proof signature) .unauthorized
  pure (identity, proof)

/-- The remembered nonces after a request, and the identity and the proof that were accepted. The
request then runs in the scope of the identity. -/
def requireBearer (crypto : Crypto) (seen : Nonces) (arrival : Arrival) :
    Nonces × Except StatusCode (ServiceIdentity × DeviceProofRequest) :=
  match verifiedProof crypto arrival with
  | .error status => (seen, .error status)
  | .ok (identity, proof) =>
    let recorded := recordNonce identity.id proof.nonce proof.timestamp arrival.now seen
    (recorded.1, if recorded.2 then .ok (identity, proof) else .error .unauthorized)

def guardMachine (crypto : Crypto) :
    Machine Nonces Arrival (Except StatusCode (ServiceIdentity × DeviceProofRequest)) where
  step := requireBearer crypto

/-- Arrival `k` of a process is accepted with the given identity and proof. -/
def AcceptedAt (crypto : Crypto) (arrivals : List Arrival) (k : ℕ) (arrival : Arrival)
    (identity : ServiceIdentity) (proof : DeviceProofRequest) : Prop :=
  (guardMachine crypto).Answers .empty arrivals k arrival (.ok (identity, proof))

/-- The clock of the process never goes back. -/
def ClockRuns (arrivals : List Arrival) : Prop :=
  arrivals.Pairwise fun earlier later => earlier.now ≤ later.now

instance (arrivals : List Arrival) : Decidable (ClockRuns arrivals) :=
  inferInstanceAs (Decidable (arrivals.Pairwise _))

/-- The request is a duplicate of a remembered nonce with an earlier timestamp, which
`record_nonce` writes over the remembered one. -/
def lowers (crypto : Crypto) (seen : Nonces) (arrival : Arrival) : Bool :=
  match verifiedProof crypto arrival with
  | .error _ => false
  | .ok (identity, proof) =>
    let seen := retain arrival.now seen
    seen.rows.length < maxReplayEntries ∧
      (seen.get? (nonceKey identity.id proof.nonce)).any fun entry =>
        proof.timestamp < entry.recorded

/-- What is signed, with the identity in the place of its token. -/
structure SignedProof where
  identityId : String
  timestamp : ℕ
  (nonce method path : String)
  body : List UInt8

def signedProof (identity : ServiceIdentity) (proof : DeviceProofRequest) : SignedProof :=
  ⟨identity.id, proof.timestamp, proof.nonce, proof.method, proof.path, proof.body⟩

theorem inWindow_iff {now timestamp : ℕ} : inWindow now timestamp ↔
    now ≤ timestamp + deviceProofWindowSeconds ∧ timestamp ≤ now + deviceProofWindowSeconds := by
  unfold inWindow absDiff
  rw [decide_eq_true_eq]
  rcases le_total now timestamp with hle | hle
  · rw [max_eq_right hle, min_eq_left hle]
    omega
  · rw [max_eq_left hle, min_eq_right hle]
    omega

variable {identity : ServiceIdentity} {proof : DeviceProofRequest}

theorem verifiedProof_inWindow {crypto : Crypto} {arrival : Arrival}
    (h : verifiedProof crypto arrival = .ok (identity, proof)) :
    inWindow arrival.now proof.timestamp := by
  simp only [verifiedProof, bind_eq_ok, orError_eq_ok, ensure_eq_ok, exists_const, pure_eq_ok,
    Prod.mk.injEq] at h
  obtain ⟨_, -, _, -, timestamp, -, _, -, _, -, -, hwindow, _, -, -, -, rfl⟩ := h
  exact hwindow

theorem recordNonce_new {identityId nonce : String} {timestamp now : ℕ} {seen : Nonces}
    (h : (recordNonce identityId nonce timestamp now seen).2 = true) :
    (retain now seen).get? (nonceKey identityId nonce) = none ∧
      (recordNonce identityId nonce timestamp now seen).1 =
        (retain now seen).upsert ⟨nonceKey identityId nonce, timestamp⟩ := by
  unfold recordNonce at h ⊢
  by_cases hfull : maxReplayEntries ≤ (retain now seen).rows.length
  · rw [if_pos hfull] at h
    cases h
  · rw [if_neg hfull] at h ⊢
    exact ⟨Option.isNone_iff_eq_none.mp h, rfl⟩

/-! ### What stays remembered -/

section

variable {crypto : Crypto} {seen : Nonces} {arrival : Arrival} {key : String} {timestamp now : ℕ}

/-- A nonce is remembered with a timestamp that is not before `timestamp`, or `timestamp` has left
the window. The upper bound says that what is remembered was inside the window when it came. -/
def Remembered (key : String) (timestamp now : ℕ) (seen : Nonces) : Prop :=
  (∃ entry, seen.get? key = some entry ∧ timestamp ≤ entry.recorded ∧
    entry.recorded ≤ now + deviceProofWindowSeconds) ∨
  timestamp + deviceProofWindowSeconds < now

theorem Remembered.mono {later : ℕ} (hle : now ≤ later) (h : Remembered key timestamp now seen) :
    Remembered key timestamp later seen := by
  rcases h with ⟨entry, hget, hlow, hhigh⟩ | hpast
  · exact Or.inl ⟨entry, hget, hlow, by omega⟩
  · exact Or.inr (by omega)

theorem Remembered.retain (h : Remembered key timestamp now seen) :
    Remembered key timestamp now (retain now seen) := by
  by_cases hpast : timestamp + deviceProofWindowSeconds < now
  · exact Or.inr hpast
  · obtain ⟨entry, hget, hlow, hhigh⟩ := h.resolve_right hpast
    have hkeep : inWindow now entry.recorded := inWindow_iff.mpr ⟨by omega, hhigh⟩
    refine Or.inl ⟨entry, Table.get?_delete_eq_some.mpr ⟨hget, ?_⟩, hlow, hhigh⟩
    rw [hkeep]
    rfl

/-- A request that does not lower a remembered timestamp keeps what is remembered. -/
theorem Remembered.step (h : Remembered key timestamp arrival.now seen)
    (hlowers : lowers crypto seen arrival = false) :
    Remembered key timestamp arrival.now (requireBearer crypto seen arrival).1 := by
  unfold requireBearer
  split
  · exact h
  · rename_i identity proof hverified
    have hretained := h.retain
    unfold recordNonce
    dsimp only
    by_cases hfull : maxReplayEntries ≤ (DeviceProofs.retain arrival.now seen).rows.length
    · rw [if_pos hfull]
      exact hretained
    · rw [if_neg hfull]
      rcases hretained with ⟨entry, hget, hlow, hhigh⟩ | hpast
      · by_cases hkey : key = nonceKey identity.id proof.nonce
        · -- the entry is written over, by a timestamp that is not earlier
          have hle : entry.recorded ≤ proof.timestamp := by
            by_contra hlt
            rw [hkey] at hget
            simp only [lowers, hverified, hget, Option.any_some, decide_eq_false_iff_not,
              decide_eq_true_eq, not_and] at hlowers
            exact hlowers (by omega) (by omega)
          have hwindow := inWindow_iff.mp (verifiedProof_inWindow hverified)
          refine Or.inl ⟨⟨nonceKey identity.id proof.nonce, proof.timestamp⟩, ?_,
            le_trans hlow hle, hwindow.2⟩
          rw [Table.get?_upsert, if_pos hkey]
        · refine Or.inl ⟨entry, ?_, hlow, hhigh⟩
          rw [Table.get?_upsert, if_neg hkey]
          exact hget
      · exact Or.inr hpast

/-- An accepted request was verified, its nonce was not remembered, and now is. -/
theorem accepted_new (h : (requireBearer crypto seen arrival).2 = .ok (identity, proof)) :
    verifiedProof crypto arrival = .ok (identity, proof) ∧
      (retain arrival.now seen).get? (nonceKey identity.id proof.nonce) = none ∧
      (requireBearer crypto seen arrival).1 =
        (retain arrival.now seen).upsert ⟨nonceKey identity.id proof.nonce, proof.timestamp⟩ := by
  rcases hverified : verifiedProof crypto arrival with status | ⟨identity', proof'⟩
  · simp [requireBearer, hverified] at h
  · simp only [requireBearer, hverified] at h ⊢
    split_ifs at h with hnew
    obtain ⟨rfl, rfl⟩ := Prod.mk.inj (Except.ok.inj h)
    exact ⟨rfl, recordNonce_new hnew⟩

theorem remembered_accepted (h : (requireBearer crypto seen arrival).2 = .ok (identity, proof)) :
    Remembered (nonceKey identity.id proof.nonce) proof.timestamp arrival.now
      (requireBearer crypto seen arrival).1 := by
  obtain ⟨hverified, -, hseen⟩ := accepted_new h
  have hwindow := inWindow_iff.mp (verifiedProof_inWindow hverified)
  refine Or.inl ⟨⟨nonceKey identity.id proof.nonce, proof.timestamp⟩, ?_, le_rfl, hwindow.2⟩
  rw [hseen, Table.get?_upsert, if_pos rfl]

/-- A request with a remembered nonce is not accepted while the timestamp remembered for it is
inside the window. -/
theorem Remembered.refused
    (h : Remembered (nonceKey identity.id proof.nonce) timestamp arrival.now seen)
    (haccepted : (requireBearer crypto seen arrival).2 = .ok (identity, proof)) :
    inWindow arrival.now timestamp = false := by
  obtain ⟨-, hnew, -⟩ := accepted_new haccepted
  rcases h.retain with ⟨entry, hget, -, -⟩ | hpast
  · rw [hnew] at hget
    cases hget
  · rw [Bool.eq_false_iff]
    intro hwindow
    have hle := (inWindow_iff.mp hwindow).1
    omega

/-! ### Runs -/

/-- Two accepted requests of one identity and one nonce: when the second one came, the first one
had left the window. -/
theorem accepted_apart {arrivals : List Arrival} (hclock : ClockRuns arrivals)
    (hkept : (guardMachine crypto).Along (fun seen arrival => lowers crypto seen arrival = false)
      .empty arrivals)
    {i j : ℕ} {first second : Arrival} {identity' : ServiceIdentity}
    {proof' : DeviceProofRequest} (hij : i < j)
    (hfirst : AcceptedAt crypto arrivals i first identity proof)
    (hsecond : AcceptedAt crypto arrivals j second identity' proof')
    (hid : identity.id = identity'.id) (hnonce : proof.nonce = proof'.nonce) :
    inWindow second.now proof.timestamp = false := by
  obtain ⟨before, between, after, rfl, hacc, hacc'⟩ := Machine.Answers.split hfirst hsecond hij
  -- the clock and the condition between the two requests
  have hordered := (List.pairwise_append.mp hclock).2.1
  obtain ⟨hfrom, hrest⟩ := List.pairwise_cons.mp hordered
  obtain ⟨hmiddle, -, huntil⟩ := List.pairwise_append.mp hrest
  have hclocked : Machine.Clocked (fun arrival : Arrival => some arrival.now) first.now between
      second.now := by
    refine Machine.clocked_of_pairwise hmiddle (fun arrival hmem => ⟨?_, ?_⟩) ?_
    · exact hfrom arrival (List.mem_append_left _ hmem)
    · exact huntil arrival hmem second List.mem_cons_self
    · exact hfrom second (List.mem_append_right _ List.mem_cons_self)
  have halong := ((guardMachine crypto).along_append before).mp hkept
  have hmid := ((guardMachine crypto).along_append between).mp halong.2.2
  have hstart := remembered_accepted hacc
  have hend := (guardMachine crypto).run_invariant_clocked
    (P := fun now seen => Remembered (nonceKey identity.id proof.nonce) proof.timestamp now seen)
    (fun hle h => h.mono hle) (fun _ hC h => Remembered.step h hC) between hclocked hmid.1 hstart
  rw [hid, hnonce] at hend
  exact hend.refused hacc'

/-- **A proof is accepted once.** In every run with a clock that does not go back and no request
that lowers a remembered timestamp, no signed proof is accepted twice, and two accepted requests of
one identity whose timestamps are both inside the window when the second one is accepted have
different nonces. -/
theorem proofs_accepted_once (crypto : Crypto) (arrivals : List Arrival)
    (hclock : ClockRuns arrivals)
    (hkept : (guardMachine crypto).Along (fun seen arrival => lowers crypto seen arrival = false)
      .empty arrivals) :
    (∀ i j first second identity identity' proof proof',
      AcceptedAt crypto arrivals i first identity proof →
      AcceptedAt crypto arrivals j second identity' proof' →
      signedProof identity proof = signedProof identity' proof' → i = j) ∧
    (∀ i j first second identity identity' proof proof', i < j →
      AcceptedAt crypto arrivals i first identity proof →
      AcceptedAt crypto arrivals j second identity' proof' → identity.id = identity'.id →
      inWindow second.now proof.timestamp → inWindow second.now proof'.timestamp →
      proof.nonce ≠ proof'.nonce) := by
  -- one proof, accepted at two places, would be inside the window at the later one
  have honce : ∀ {i j first second identity identity' proof proof'}, i < j →
      AcceptedAt crypto arrivals i first identity proof →
      AcceptedAt crypto arrivals j second identity' proof' →
      signedProof identity proof ≠ signedProof identity' proof' := by
    intro i j first second identity identity' proof proof' hij hfirst hsecond hsame
    simp only [signedProof, SignedProof.mk.injEq] at hsame
    obtain ⟨hid, htimestamp, hnonce, -⟩ := hsame
    have hleft := accepted_apart hclock hkept hij hfirst hsecond hid hnonce
    have hin := verifiedProof_inWindow (accepted_new hsecond.2).1
    rw [htimestamp, hin] at hleft
    cases hleft
  refine ⟨?_, ?_⟩
  · intro i j first second identity identity' proof proof' hfirst hsecond hsame
    rcases Nat.lt_trichotomy i j with hij | hij | hij
    · exact absurd hsame (honce hij hfirst hsecond)
    · exact hij
    · exact absurd hsame.symm (honce hij hsecond hfirst)
  · intro i j first second identity identity' proof proof' hij hfirst hsecond hid hin _ hnonce
    have hleft := accepted_apart hclock hkept hij hfirst hsecond hid hnonce
    rw [hin] at hleft
    cases hleft

end

/-! ### A duplicate that makes the service forget -/

def sampleToken : String := "0123456789abcdef0123456789abcdef0123456789abcdef0123456789abcdef"

/-- The public key of the device. -/
def sampleKey : Bytes32 :=
  ⟨[3, 161, 7, 191, 243, 206, 16, 190, 29, 112, 221, 24, 231, 75, 192, 153, 103, 228, 214, 48, 155,
    165, 13, 95, 29, 220, 134, 100, 18, 85, 49, 184],
      rfl⟩

/-- SHA-256 on the digest of the token in the store, on the token and on the body. -/
def sampleSha : Sha256 := fun message =>
  if message.length = 98 then
    ⟨[213, 59, 241, 79, 166, 47, 167, 177, 127, 10, 227, 38, 160, 121, 148, 10, 247, 15, 125, 27,
      130, 110, 217, 189, 19, 119, 192, 246, 80, 130, 34, 4], rfl⟩
  else if message.length = 64 then
    ⟨[168, 174, 110, 110, 233, 41, 171, 234, 58, 252, 252, 82, 88, 200, 204, 214, 248, 82, 115, 224,
      212, 98, 109, 38, 199, 39, 159, 50, 80, 247, 124, 142], rfl⟩
  else
    ⟨[68, 19, 111, 163, 85, 179, 103, 138, 17, 70, 173, 22, 247, 232, 100, 158, 148, 251, 79, 194,
      31, 231, 126, 131, 16, 192, 96, 246, 28, 170, 255, 138], rfl⟩

def proofSignature : String :=
  "fc35ae2fbd7854bbc47481dc0c133a0966a2f379341a6681064b3b74dd6f7708" ++
    "ead4589557b8406d9fcb39d4281360cb6c48e7e7b2d4305816f7de1584574203"

def earlierSignature : String :=
  "ecc1ee0cef44d04708f2cc3caf084e27934e1aa000fc8fcceb5265ba36bbc571" ++
    "0f457602bbc38ae6f0d989fe3761050b140c6b7d64af46bb3669cc5467d2da0d"

def sampleNonce : String := "00112233445566778899aabbccddeeff"

/-- A request of the device at the given timestamp, both with one nonce. -/
def sampleProof (timestamp : ℕ) : DeviceProofRequest :=
  ⟨sampleToken, timestamp, sampleNonce, "POST", "/v1/rpc", [0x7b, 0x7d]⟩

/-- The signatures of the device that occur below. -/
def sampleCrypto : Crypto where
  sha256 := sampleSha
  verify key message signature := key = sampleKey ∧
    ((some message = deviceProofMessage sampleSha (sampleProof 1060) ∧
        some signature = decodeFixed signatureBytes proofSignature) ∨
      (some message = deviceProofMessage sampleSha (sampleProof 940) ∧
        some signature = decodeFixed signatureBytes earlierSignature))

def sampleIdentity : ServiceIdentity :=
  ⟨"identity-1", .ofLiteral "principal-1", .ofLiteral "tenant-1", .ofLiteral "workspace-1",
    .operator, "device-1", sampleKey, 500, none⟩

def sampleRow : IdentityRow :=
  ⟨"identity-1", "principal-1", "tenant-1", "workspace-1", "operator", "device-1", sampleKey.bytes,
    sampleSha (asBytes "pandora-service-identity-token-v1\x00" ++ asBytes sampleToken), 500, none⟩

def sampleArrival (timestamp signature : String) (now : ℕ) : Arrival :=
  ⟨⟨some ("Bearer " ++ sampleToken), some "device-1", some timestamp, some sampleNonce,
    some signature, "POST", "/v1/rpc", [0x7b, 0x7d]⟩, now, [sampleRow]⟩

/-- A proof that is accepted, and the same proof again. -/
def replayed : List Arrival :=
  [sampleArrival "1060" proofSignature 1000, sampleArrival "1060" proofSignature 1001]

theorem replayed_refused :
    AcceptedAt sampleCrypto replayed 0 (sampleArrival "1060" proofSignature 1000) sampleIdentity
      (sampleProof 1060) ∧
    ∀ arrival, ¬ AcceptedAt sampleCrypto replayed 1 arrival sampleIdentity (sampleProof 1060) := by
  have hfirst : AcceptedAt sampleCrypto replayed 0 (sampleArrival "1060" proofSignature 1000)
      sampleIdentity (sampleProof 1060) := ⟨rfl, by decide +kernel⟩
  refine ⟨hfirst, fun arrival hsecond => ?_⟩
  have hsame := (proofs_accepted_once sampleCrypto replayed (by decide +kernel)
    ⟨by decide +kernel, by decide +kernel, trivial⟩).1 0 1 _ _ _ _ _ _ hfirst hsecond rfl
  omega

/-- A proof that is accepted, a request with the same nonce and an earlier timestamp, and the proof
again. -/
def forgotten : List Arrival :=
  [sampleArrival "1060" proofSignature 1000, sampleArrival "940" earlierSignature 1000,
    sampleArrival "1060" proofSignature 1001]

/-- The earlier timestamp is refused but remembered, and gone a second later: the proof is accepted
a second time. -/
theorem forgotten_accepted_twice :
    ClockRuns forgotten ∧
    AcceptedAt sampleCrypto forgotten 0 (sampleArrival "1060" proofSignature 1000) sampleIdentity
      (sampleProof 1060) ∧
    AcceptedAt sampleCrypto forgotten 2 (sampleArrival "1060" proofSignature 1001) sampleIdentity
      (sampleProof 1060) :=
  ⟨by decide +kernel, ⟨rfl, by decide +kernel⟩, ⟨rfl, by decide +kernel⟩⟩

end Pandora.Service.DeviceProofs
