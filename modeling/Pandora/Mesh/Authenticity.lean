import Pandora.Mesh.Lineage

/-! # What the signature of a package covers

The signature is over the digest of the capsule, and the digest over its identifier, procedure,
author and time, each on a line of its own: the lines of a capsule that was broadcast determine it
(`message_inj`). The parents of the package are not in the digest. -/

namespace Pandora.Mesh.Authenticity

open Lib.Checked Text Memory.Sop Mesh.Sync Mesh.Lineage List

variable {crypto : Crypto} {seed : Bytes32} {package broadcast : SignedCapsulePackage}

/-! ### The lines of the message -/

/-- The lines determine the fields, when those of one of the two messages are lines. -/
theorem message_inj {json : SopJson} {capsuleId capsuleId' : String} {sop sop' : SopDefinition}
    {author author' : String} {createdAt createdAt' : ℕ}
    (h : MemoryCapsule.message json capsuleId' sop' author' createdAt' =
      MemoryCapsule.message json capsuleId sop author createdAt)
    (hid : OneLine capsuleId) (hauthor : OneLine author) (hjson : OneLine (json sop))
    (hjson' : OneLine (json sop')) :
    capsuleId' = capsuleId ∧ json sop' = json sop ∧ author' = author ∧ createdAt' = createdAt := by
  have hchars := congrArg String.toList h
  unfold MemoryCapsule.message at hchars
  simp only [String.toList_append] at hchars
  have hline : "\n".toList = ['\n'] := rfl
  rw [hline] at hchars
  -- there are as many line ends on both sides
  have hcount := congrArg (List.count '\n') hchars
  simp only [count_append, count_singleton_self] at hcount
  have hjsonCount := count_oneLine.mpr hjson
  have hjsonCount' := count_oneLine.mpr hjson'
  have hidCount := count_oneLine.mpr hid
  have hauthorCount := count_oneLine.mpr hauthor
  have htime := count_oneLine.mpr (oneLine_toString createdAt)
  have htime' := count_oneLine.mpr (oneLine_toString createdAt')
  have hid' : OneLine capsuleId' := count_oneLine.mp (by omega)
  have hauthor' : OneLine author' := count_oneLine.mp (by omega)
  simp only [append_assoc, append_cancel_left_eq, cons_append, nil_append]
    at hchars
  obtain ⟨hidEq, hchars₁⟩ := line_inj hid' hid hchars
  obtain ⟨hjsonEq, hchars₂⟩ := line_inj hjson' hjson hchars₁
  obtain ⟨hauthorEq, hchars₃⟩ := line_inj hauthor' hauthor hchars₂
  exact ⟨hidEq, hjsonEq, hauthorEq, toString_inj (String.toList_inj.mp hchars₃)⟩

/-! ### Broadcast packages -/

/-- The identifier of the peer with the key. -/
def peerIdOf (key : Bytes32) : String :=
  "peer-" ++ String.ofList ((hex key.bytes).toList.take 16)

theorem validateWith_eq_ok {limit : ℕ} {refused : Char → Bool} {field value text : String}
    (h : validateWith limit refused field value = .ok text) :
    text = trim value ∧ ∀ c ∈ text.toList, refused c = false := by
  unfold validateWith at h
  split_ifs at h with hblank hlong hrefused
  rw [Except.ok.injEq] at h
  subst h
  refine ⟨rfl, fun c hc => ?_⟩
  rw [Bool.not_eq_true, any_eq_false] at hrefused
  exact Bool.eq_false_iff.mpr (hrefused c (mem_of_mem_trim hc))

theorem validateText_eq_ok {field value text : String} (h : validateText field value = .ok text) :
    text = trim value ∧ OneLine text := by
  unfold validateText at h
  obtain ⟨htext, hcontrol⟩ := validateWith_eq_ok h
  exact ⟨htext, fun hmem => absurd (hcontrol '\n' hmem) (by decide)⟩

theorem trim_peerIdOf (key : Bytes32) : trim (peerIdOf key) = peerIdOf key := by
  have hdigits : ∀ n < 16, isWhitespace (hexDigit n) = false := by decide
  refine trim_eq_self fun c hc => ?_
  unfold peerIdOf at hc
  rw [String.toList_append, mem_append] at hc
  rcases hc with hc | hc
  · have hpeer : ∀ c ∈ "peer-".toList, isWhitespace c = false :=
      List.all_iff_forall_prop.mp (by decide)
    exact hpeer c hc
  · rw [String.toList_ofList] at hc
    have hhex : c ∈ (hex key.bytes).toList := (take_sublist 16 _).subset hc
    unfold hex at hhex
    rw [String.toList_ofList] at hhex
    obtain ⟨n, hn, rfl⟩ := mem_hexChars hhex
    exact hdigits n hn

theorem broadcastPackage_capsule {sopId : String} {sop : SopDefinition} {timestamp : ℕ}
    (h : broadcastPackage crypto (.ofSeed crypto seed) sopId sop timestamp = .ok broadcast) :
    OneLine broadcast.capsule.capsuleId ∧ OneLine broadcast.capsule.author ∧
      broadcast.capsule.author = peerIdOf (crypto.ed25519.publicKey seed) ∧
      broadcast.capsule.verifyDigest crypto.sha crypto.json = true := by
  obtain ⟨capsule, hcapsule, h⟩ := bind_eq_ok.mp h
  rw [pure_eq_ok] at h
  subst h
  rw [mapError_eq_ok] at hcapsule
  obtain ⟨capsuleId, hid, h₁⟩ := bind_eq_ok.mp hcapsule
  obtain ⟨author, hauthor, h₂⟩ := bind_eq_ok.mp h₁
  obtain ⟨⟨⟩, -, h₃⟩ := bind_eq_ok.mp h₂
  rw [pure_eq_ok] at h₃
  subst h₃
  obtain ⟨-, hidLine⟩ := validateText_eq_ok hid
  obtain ⟨htext, hauthorLine⟩ := validateText_eq_ok hauthor
  have hpeer : (PeerIdentity.ofSeed crypto seed).peerId =
      peerIdOf (crypto.ed25519.publicKey seed) := rfl
  rw [hpeer, trim_peerIdOf] at htext
  exact ⟨hidLine, hauthorLine, htext, decide_eq_true rfl⟩

/-! ### Accepted packages -/

/-- The packages that the owner of the key has broadcast. -/
def Broadcast (crypto : Crypto) (seed : Bytes32) (broadcasts : Set SignedCapsulePackage) : Prop :=
  ∀ broadcast ∈ broadcasts, ∃ sopId sop timestamp,
    broadcastPackage crypto (.ofSeed crypto seed) sopId sop timestamp = .ok broadcast

/-- Only the digests of those packages carry a signature that verifies under the key. -/
def Unforgeable (crypto : Crypto) (seed : Bytes32) (broadcasts : Set SignedCapsulePackage) :
    Prop :=
  ∀ message signature,
    crypto.ed25519.verifyStrict (crypto.ed25519.publicKey seed) message signature = .ok () →
    ∃ broadcast ∈ broadcasts, message = asBytes broadcast.capsule.sha256Digest

/-- The message of a capsule. -/
def capsuleMessage (crypto : Crypto) (package : SignedCapsulePackage) : List UInt8 :=
  asBytes (MemoryCapsule.message crypto.json package.capsule.capsuleId package.capsule.sop
    package.capsule.author package.capsule.createdAt)

/-- The JSON text of each of the procedures is one line and determines the procedure. -/
def Readable (json : SopJson) (sops : Set SopDefinition) : Prop :=
  Set.InjOn json sops ∧ ∀ sop ∈ sops, OneLine (json sop)

theorem capsule_eq {broadcasts : Set SignedCapsulePackage}
    (hsha : Set.InjOn crypto.sha (capsuleMessage crypto '' insert package broadcasts))
    (hjson : Readable crypto.json
      ((fun package => package.capsule.sop) '' insert package broadcasts))
    (hbroadcast : broadcast ∈ broadcasts) (hid : OneLine broadcast.capsule.capsuleId)
    (hauthor : OneLine broadcast.capsule.author)
    (hverify : broadcast.capsule.verifyDigest crypto.sha crypto.json = true)
    (hverify' : package.capsule.verifyDigest crypto.sha crypto.json = true)
    (hdigest : package.capsule.sha256Digest = broadcast.capsule.sha256Digest) :
    package.capsule = broadcast.capsule := by
  have hin : package ∈ insert package broadcasts := Set.mem_insert _ _
  have hin' : broadcast ∈ insert package broadcasts := Set.mem_insert_of_mem _ hbroadcast
  have hcomputed := of_decide_eq_true hverify
  have hcomputed' := of_decide_eq_true hverify'
  have hhex : crypto.sha (capsuleMessage crypto package) =
      crypto.sha (capsuleMessage crypto broadcast) := by
    rw [hdigest, hcomputed] at hcomputed'
    unfold MemoryCapsule.computeDigest at hcomputed'
    have hchars := congrArg String.toList hcomputed'
    rw [String.toList_append, String.toList_append, append_cancel_left_eq] at hchars
    exact (Bytes32.ext_bytes (hex_inj (String.toList_inj.mp hchars))).symm
  have hmessage := hsha (Set.mem_image_of_mem _ hin) (Set.mem_image_of_mem _ hin') hhex
  obtain ⟨hidEq, hjsonEq, hauthorEq, htime⟩ := message_inj (asBytes_inj hmessage) hid hauthor
    (hjson.2 _ (Set.mem_image_of_mem _ hin')) (hjson.2 _ (Set.mem_image_of_mem _ hin))
  have hsop := hjson.1 (Set.mem_image_of_mem _ hin) (Set.mem_image_of_mem _ hin') hjsonEq
  rcases hcapsule : package.capsule with ⟨id, sop, digest, author, time⟩
  rcases hcapsule' : broadcast.capsule with ⟨id', sop', digest', author', time'⟩
  simp only [hcapsule, hcapsule'] at hidEq hsop hdigest hauthorEq htime
  rw [hidEq, hsop, hdigest, hauthorEq, htime]

/-- **What a signature vouches for**: the capsule of an accepted package is one that the owner of
the key has broadcast, under the name of the peer. Nothing vouches for the parents: they are
those of a broadcast package exactly when there are none. -/
theorem accepted_authentic {broadcasts : Set SignedCapsulePackage} {known : Ancestors}
    {verdict : CapsuleValidationVerdict} (hbroadcasts : Broadcast crypto seed broadcasts)
    (hforge : Unforgeable crypto seed broadcasts)
    (hsha : Set.InjOn crypto.sha (capsuleMessage crypto '' insert package broadcasts))
    (hjson : Readable crypto.json
      ((fun package => package.capsule.sop) '' insert package broadcasts))
    (haccepted : validateCapsulePackage crypto package known = .ok verdict)
    (hkey : decodeHex32 package.authorPublicKey = some (crypto.ed25519.publicKey seed)) :
    (∃ broadcast ∈ broadcasts, package.capsule = broadcast.capsule) ∧
      package.capsule.author = peerIdOf (crypto.ed25519.publicKey seed) ∧
      ((∃ broadcast ∈ broadcasts, package.capsule = broadcast.capsule ∧
        package.parentCapsuleIds = broadcast.parentCapsuleIds) ↔
          package.parentCapsuleIds = []) := by
  obtain ⟨⟨hverify, hsigned, -⟩, -, -⟩ := validate_ok_iff.mp haccepted
  -- the signature that was checked
  unfold verifyAuthor at hsigned
  obtain ⟨key, hkeyOk, h₁⟩ := bind_eq_ok.mp hsigned
  obtain ⟨⟨⟩, -, h₂⟩ := bind_eq_ok.mp h₁
  obtain ⟨signature, -, h₃⟩ := bind_eq_ok.mp h₂
  rw [orError_eq_ok, hkey, Option.some.injEq] at hkeyOk
  subst hkeyOk
  rw [mapError_eq_ok] at h₃
  obtain ⟨broadcast, hbroadcast, hdigest⟩ := hforge _ _ h₃
  obtain ⟨sopId, sop, timestamp, hbuilt⟩ := hbroadcasts broadcast hbroadcast
  obtain ⟨hid, hline, hauthor, hverify'⟩ := broadcastPackage_capsule hbuilt
  have hcapsule := capsule_eq hsha hjson hbroadcast hid hline hverify' hverify (asBytes_inj hdigest)
  refine ⟨⟨broadcast, hbroadcast, hcapsule⟩, ?_, ?_, ?_⟩
  · rw [hcapsule]
    exact hauthor
  · rintro ⟨other, hother, -, hparents⟩
    obtain ⟨sopId', sop', timestamp', hbuilt'⟩ := hbroadcasts other hother
    rw [hparents]
    exact broadcastPackage_parents hbuilt'
  · intro hparents
    exact ⟨broadcast, hbroadcast, hcapsule, hparents.trans (broadcastPackage_parents hbuilt).symm⟩

/-! ### A package and a copy with a parent -/

theorem sample_broadcast : Broadcast sampleCrypto sampleSeed {samplePackage} := by
  rintro broadcast rfl
  exact ⟨"release", sampleSop, 100, by decide +kernel⟩

theorem sample_unforgeable : Unforgeable sampleCrypto sampleSeed {samplePackage} := by
  intro message signature hverify
  refine ⟨samplePackage, rfl, ?_⟩
  change (if _ ∧ _ ∧ _ then _ else _) = _ at hverify
  split_ifs at hverify with hsigned
  exact hsigned.2.1

/-- The sample with other parents. -/
def withParents (parents : List String) : SignedCapsulePackage :=
  { samplePackage with parentCapsuleIds := parents }

theorem sample_injOn {β : Type} (f : List UInt8 → β) (parents : List String) :
    Set.InjOn f (capsuleMessage sampleCrypto '' insert (withParents parents) {samplePackage}) := by
  refine Set.Subsingleton.injOn ?_ f
  rintro _ ⟨p, hp, rfl⟩ _ ⟨q, hq, rfl⟩
  rcases hp with rfl | rfl <;> rcases hq with rfl | rfl <;> rfl

theorem sample_readable (parents : List String) :
    Readable sampleCrypto.json
      ((fun package => package.capsule.sop) '' insert (withParents parents) {samplePackage}) := by
  refine ⟨Set.Subsingleton.injOn ?_ _, fun sop _ => ?_⟩
  · rintro _ ⟨p, hp, rfl⟩ _ ⟨q, hq, rfl⟩
    rcases hp with rfl | rfl <;> rcases hq with rfl | rfl <;> rfl
  · change '\n' ∉ sampleText.toList
    decide +kernel

theorem sample_key : decodeHex32 (hex sampleKey.bytes) = some sampleKey := by decide +kernel

theorem sample_authentic :
    samplePackage.capsule.author = peerIdOf (sampleCrypto.ed25519.publicKey sampleSeed) ∧
      ∃ broadcast ∈ ({samplePackage} : Set SignedCapsulePackage),
        samplePackage.capsule = broadcast.capsule ∧
          samplePackage.parentCapsuleIds = broadcast.parentCapsuleIds := by
  have hunrelated : Unrelated (withParents []) .empty := unrelated_empty List.not_mem_nil
  have haccepted := validate_ok_iff.mpr ⟨sample_genuine [], hunrelated, rfl⟩
  have hall := accepted_authentic sample_broadcast sample_unforgeable (sample_injOn _ [])
    (sample_readable []) haccepted sample_key
  exact ⟨hall.2.1, hall.2.2.mpr rfl⟩

/-- A copy of the package to which somebody else has added a parent is accepted. -/
theorem added_parent_accepted : Broadcast sampleCrypto sampleSeed {samplePackage} ∧
    Unforgeable sampleCrypto sampleSeed {samplePackage} ∧
    Set.InjOn sampleCrypto.sha (capsuleMessage sampleCrypto ''
      insert (withParents ["capsule-base"]) {samplePackage}) ∧
    Readable sampleCrypto.json ((fun package => package.capsule.sop) ''
      insert (withParents ["capsule-base"]) {samplePackage}) ∧
    (∃ verdict, validateCapsulePackage sampleCrypto (withParents ["capsule-base"]) .empty =
      .ok verdict) ∧
    decodeHex32 (withParents ["capsule-base"]).authorPublicKey =
      some (sampleCrypto.ed25519.publicKey sampleSeed) ∧
    ¬ ∃ broadcast ∈ ({samplePackage} : Set SignedCapsulePackage),
      (withParents ["capsule-base"]).capsule = broadcast.capsule ∧
        (withParents ["capsule-base"]).parentCapsuleIds = broadcast.parentCapsuleIds := by
  refine ⟨sample_broadcast, sample_unforgeable, sample_injOn _ _, sample_readable _, ?_,
    sample_key, ?_⟩
  · exact ⟨_, validate_ok_iff.mpr ⟨sample_genuine _, unrelated_empty (by decide), rfl⟩⟩
  · rintro ⟨_, rfl, -, hparents⟩
    exact absurd hparents (by decide)

end Pandora.Mesh.Authenticity
