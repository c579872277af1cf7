import Pandora.Lib.MachineInts
import Pandora.Lib.Runs
import Pandora.Lib.Tables
import Pandora.Memory.Sop

/-! # Capsule synchronisation

`MeshSyncEngine` of `mesh_sync.rs`: the checks of a signed package, the search for a cycle in the
ancestry of its capsule, and the passes that admit packages to the table `mesh_capsules`. Ed25519 is
a parameter, as is the result of storing a procedure. Sets are finite sets; the recursion of the
search has an explicit bound, beyond which the model hangs. -/

namespace Pandora.Mesh.Sync

open Lib.MachineInts Lib.Tables Lib.Runs Lib.Checked Text Memory.Sop

inductive MeshError
  | digestMismatch
  | invalidSignature (msg : String)
  | invalidPublicKey (msg : String)
  | dagCycle (msg : String)
  | peerNotFound (msg : String)
  | serialization (msg : String)
deriving DecidableEq

def MeshError.display : MeshError → String
  | .digestMismatch => "capsule SHA-256 digest verification failed"
  | .invalidSignature msg => "author Ed25519 signature invalid: " ++ msg
  | .invalidPublicKey msg => "invalid Ed25519 public key: " ++ msg
  | .dagCycle msg => "capsule DAG acyclicity check failed: " ++ msg
  | .peerNotFound id => "peer '" ++ id ++ "' not found"
  | .serialization msg => "serialization error: " ++ msg

/-- The functions of Ed25519: a public key from its bytes, `verify_strict`, the public key of a seed
and signing. Errors are their texts. -/
structure Ed25519 where
  fromBytes : Bytes32 → Except String Unit
  verifyStrict : Bytes32 → List UInt8 → List UInt8 → Except String Unit
  publicKey : Bytes32 → Bytes32
  sign : Bytes32 → List UInt8 → List UInt8

/-- What the engine uses of other crates. -/
structure Crypto where
  sha : Sha256
  json : SopJson
  ed25519 : Ed25519

structure SignedCapsulePackage where
  capsule : MemoryCapsule
  (authorPublicKey authorSignature : String)
  parentCapsuleIds : List String
  gossipHops : UInt32
deriving DecidableEq

/-- The key of the table of packages. -/
def SignedCapsulePackage.capsuleId (package : SignedCapsulePackage) : String :=
  package.capsule.capsuleId

structure CapsuleValidationVerdict where
  (valid sha256Verified signatureVerified dagAcyclic : Bool)
  (capsuleId author : String)

/-! ### Keys and signatures in hexadecimal -/

def decodeHexNibble (byte : UInt8) : Option UInt8 :=
  if 0x30 ≤ byte ∧ byte ≤ 0x39 then some (byte - 0x30)
  else if 0x61 ≤ byte ∧ byte ≤ 0x66 then some (byte - 0x61 + 10)
  else if 0x41 ≤ byte ∧ byte ≤ 0x46 then some (byte - 0x41 + 10)
  else none

def decodeNibbles : List UInt8 → Option (List UInt8)
  | high :: low :: rest => do
    let high ← decodeHexNibble high
    let low ← decodeHexNibble low
    return (high <<< 4 ||| low) :: (← decodeNibbles rest)
  | _ => some []

/-- `decode_hex_32` and `decode_hex_64`. -/
def decodeHexFixed (n : ℕ) (s : String) : Option (List UInt8) :=
  if (asBytes s).length ≠ 2 * n then none else decodeNibbles (asBytes s)

def decodeHex32 (s : String) : Option Bytes32 :=
  (decodeHexFixed 32 s).bind fun bytes => if h : bytes.length = 32 then some ⟨bytes, h⟩ else none

def decodeHex64 (s : String) : Option (List UInt8) := decodeHexFixed 64 s

/-! ### The ancestry of a capsule -/

/-- The parents of a known capsule. -/
structure Lineage where
  capsuleId : String
  parents : List String

/-- The map from the known capsules to their parents. -/
abbrev Ancestors := Table Lineage.capsuleId

def parentsOf (knownAncestors : Ancestors) (capsuleId : String) : List String :=
  ((knownAncestors.get? capsuleId).map Lineage.parents).getD []

/-- The sets `visited` and `in_stack`. -/
structure Marks where
  (visited inStack : Finset String)

/-- The search from one capsule, to the given depth. -/
def checkAncestryCycle (targetCapsule : String) (knownAncestors : Ancestors) :
    ℕ → String → Marks → Except (Fault MeshError) Marks
  | 0, _, _ => .error .hang
  | depth + 1, current, marks =>
    if current = targetCapsule then
      .error (.error (.dagCycle ("cycle detected in capsule lineage reaching " ++ targetCapsule)))
    else if current ∈ marks.inStack then
      .error (.error (.dagCycle ("cycle detected in capsule ancestry lineage at node " ++ current)))
    else if current ∈ marks.visited then .ok marks
    else do
      let marks : Marks := ⟨insert current marks.visited, insert current marks.inStack⟩
      let marks ← (parentsOf knownAncestors current).foldlM
        (fun marks parent => checkAncestryCycle targetCapsule knownAncestors depth parent marks)
        marks
      pure { marks with inStack := marks.inStack.erase current }

/-- The search from all parents. No path through different known capsules is longer than their
number. -/
def checkParents (capsuleId : String) (knownAncestors : Ancestors) (parents : List String) :
    Except (Fault MeshError) Marks :=
  parents.foldlM (fun marks parent =>
    checkAncestryCycle capsuleId knownAncestors (knownAncestors.rows.length + 1) parent marks)
    ⟨∅, ∅⟩

variable (crypto : Crypto)

/-- The signature of the author over the digest of the capsule. -/
def verifyAuthor (package : SignedCapsulePackage) : Except MeshError Unit := do
  let key ← orError (decodeHex32 package.authorPublicKey)
    (.invalidPublicKey "invalid author public key hex")
  (crypto.ed25519.fromBytes key).mapError .invalidPublicKey
  let signature ← orError (decodeHex64 package.authorSignature)
    (.invalidSignature "invalid author signature hex")
  (crypto.ed25519.verifyStrict key (asBytes package.capsule.sha256Digest) signature).mapError
    .invalidSignature

/-- Validates an incoming signed capsule package: SHA-256 digest integrity check, author Ed25519
signature check, DAG acyclicity check. -/
def validateCapsulePackage (package : SignedCapsulePackage) (knownAncestors : Ancestors) :
    Except (Fault MeshError) CapsuleValidationVerdict := do
  let capsuleId := package.capsule.capsuleId
  ensure (package.capsule.verifyDigest crypto.sha crypto.json) (.error .digestMismatch)
  lift (verifyAuthor crypto package)
  lift (package.capsule.sop.validate.mapError fun e => .dagCycle e.display)
  ensure (capsuleId ∉ package.parentCapsuleIds) (.error (.dagCycle
    ("self-referential parent cycle in capsule " ++ capsuleId)))
  let _ ← checkParents capsuleId knownAncestors package.parentCapsuleIds
  pure ⟨true, true, true, true, capsuleId, package.capsule.author⟩

/-! ### Broadcasting -/

structure PeerIdentity where
  (signingKey verifyingKey : Bytes32)
  peerId : String

/-- The identity of a seed. -/
def PeerIdentity.ofSeed (seed : Bytes32) : PeerIdentity :=
  let verifyingKey := crypto.ed25519.publicKey seed
  ⟨seed, verifyingKey, "peer-" ++ String.ofList ((hex verifyingKey.bytes).toList.take 16)⟩

def PeerIdentity.publicKeyHex (identity : PeerIdentity) : String := hex identity.verifyingKey.bytes

def PeerIdentity.signDigest (identity : PeerIdentity) (digest : String) : String :=
  hex (crypto.ed25519.sign identity.signingKey (asBytes digest))

/-- The package that `broadcast_sop` builds from a stored procedure. -/
def broadcastPackage (identity : PeerIdentity) (sopId : String) (sop : SopDefinition)
    (timestamp : ℕ) : Except MeshError SignedCapsulePackage := do
  let capsule ← (MemoryCapsule.new crypto.sha crypto.json ("capsule-" ++ sopId) sop identity.peerId
    timestamp).mapError fun e => .serialization e.display
  pure ⟨capsule, identity.publicKeyHex, identity.signDigest crypto capsule.sha256Digest, [], 0⟩

/-- The table `mesh_capsules`. -/
abbrev CapsuleStore := Table SignedCapsulePackage.capsuleId

def storeMeshCapsule (store : CapsuleStore) (package : SignedCapsulePackage) : CapsuleStore :=
  store.upsert package

/-- Broadcasts an SOP as a signed package. The staging file it is also written to is left out. -/
def broadcastSop (store : CapsuleStore) (identity : PeerIdentity) (sopId : String)
    (stored : Option SopDefinition) (timestamp : ℕ) :
    CapsuleStore × Except MeshError SignedCapsulePackage :=
  match stored with
  | none => (store, .error (.peerNotFound ("SOP '" ++ sopId ++ "' not found in store")))
  | some sop =>
    match broadcastPackage crypto identity sopId sop timestamp with
    | .error e => (store, .error e)
    | .ok package => (storeMeshCapsule store package, .ok package)

/-! ### Synchronisation -/

/-- A file of the staging directory, read and parsed. -/
inductive Candidate
  | package (package : SignedCapsulePackage)
  | invalid (filename error : String)

/-- Which capsules were admitted, rejected and promoted. -/
structure MeshSyncResult where
  admitted : List String
  rejected : List (String × String)
  promoted : List String

/-- The variables of the loop over the files. -/
structure Pass where
  store : CapsuleStore
  knownAncestors : Ancestors
  result : MeshSyncResult

/-- The parents of the stored capsules. -/
def storedAncestors (store : CapsuleStore) : Ancestors :=
  store.rows.foldl (fun known package => known.upsert ⟨package.capsuleId, package.parentCapsuleIds⟩)
    .empty

/-- A package that passed the checks. `promote` is the identifier under which its procedure was
promoted, if it was. -/
def Pass.accept (pass : Pass) (package : SignedCapsulePackage) (verdict : CapsuleValidationVerdict)
    (promote : SopDefinition → Option String) : Pass where
  store := storeMeshCapsule pass.store package
  knownAncestors := pass.knownAncestors.upsert ⟨verdict.capsuleId, package.parentCapsuleIds⟩
  result := { pass.result with
    admitted := pass.result.admitted ++ [verdict.capsuleId]
    promoted := pass.result.promoted ++ (promote package.capsule.sop).toList }

def Pass.reject (pass : Pass) (name error : String) : Pass :=
  { pass with result := { pass.result with rejected := pass.result.rejected ++ [(name, error)] } }

def Pass.process (promote : SopDefinition → Option String) (pass : Pass) :
    Candidate → Except (Fault MeshError) Pass
  | .invalid filename error => .ok (pass.reject filename ("invalid capsule JSON: " ++ error))
  | .package package =>
    match validateCapsulePackage crypto package pass.knownAncestors with
    | .ok verdict => .ok (pass.accept package verdict promote)
    | .error (.error e) => .ok (pass.reject package.capsuleId e.display)
    | .error fault => .error fault

/-- `promote` gives nothing when `auto_promote` is not set. The number of peers, which the source
returns as well, is left out. -/
def syncCapsules (store : CapsuleStore) (candidates : List Candidate)
    (promote : SopDefinition → Option String) :
    Except (Fault MeshError) (CapsuleStore × MeshSyncResult) := do
  let pass ← candidates.foldlM (Pass.process crypto promote)
    ⟨store, storedAncestors store, ⟨[], [], []⟩⟩
  pure (pass.store, pass.result)

/-! ### Runs -/

inductive Call
  | sync (candidates : List Candidate) (promote : SopDefinition → Option String)
  | broadcast (identity : PeerIdentity) (sopId : String) (stored : Option SopDefinition)
    (timestamp : ℕ)

inductive Reply
  | synced (result : Except (Fault MeshError) MeshSyncResult)
  | broadcast (result : Except MeshError SignedCapsulePackage)

def exec (store : CapsuleStore) : Call → CapsuleStore × Reply
  | .sync candidates promote =>
    match syncCapsules crypto store candidates promote with
    | .ok (store, result) => (store, .synced (.ok result))
    | .error fault => (store, .synced (.error fault))
  | .broadcast identity sopId stored timestamp =>
    let (store, result) := broadcastSop crypto store identity sopId stored timestamp
    (store, .broadcast result)

def engine : Machine CapsuleStore Call Reply := ⟨exec crypto⟩

/-! ### A package -/

def sampleSop : SopDefinition where
  id := "release"
  name := "Release"
  triggerIntent := .procedure
  steps := [⟨"build", "Build", "cargo build", []⟩]
  verificationCommand := none

/-- The seed of the author, its public key and its signature of the digest. -/
def sampleSeed : Bytes32 :=
  ⟨[157, 97, 177, 157, 239, 253, 90, 96, 186, 132, 74, 244, 146, 236, 44, 196, 68, 73, 197, 105,
    123, 50, 105, 25, 112, 59, 172, 3, 28, 174, 127, 96], rfl⟩

def sampleKey : Bytes32 :=
  ⟨[215, 90, 152, 1, 130, 177, 10, 183, 213, 75, 254, 211, 201, 100, 7, 58, 14, 225, 114, 243,
    218, 166, 35, 37, 175, 2, 26, 104, 247, 7, 81, 26], rfl⟩

def sampleSignature : List UInt8 :=
  [84, 113, 57, 27, 140, 75, 88, 145, 187, 165, 249, 2, 156, 209, 151, 61, 35, 68, 182, 223, 40,
    177, 16, 81, 253, 62, 227, 74, 107, 90, 134, 186, 248, 223, 226, 238, 234, 166, 27, 249, 108,
    198, 85, 96, 112, 109, 41, 148, 241, 82, 47, 143, 40, 20, 9, 20, 254, 134, 230, 172, 217, 60,
    113, 12]

/-- SHA-256 of the message of the capsule. -/
def sampleDigest : Bytes32 :=
  ⟨[186, 112, 136, 165, 182, 161, 244, 7, 82, 107, 51, 243, 116, 240, 192, 252, 160, 212, 42, 15,
    92, 107, 120, 118, 157, 33, 192, 180, 214, 5, 100, 82], rfl⟩

def sampleText : String :=
  "\x7b\"id\":\"release\",\"name\":\"Release\",\"trigger_intent\":\"procedure\",\"steps" ++
    "\":[\x7b\"id\":\"build\",\"name\":\"Build\",\"command\":\"cargo build\",\"depends_on" ++
    "\":[]\x7d],\"verification_command\":null\x7d"

/-- What the crates compute for the package. -/
def sampleCrypto : Crypto where
  sha _ := sampleDigest
  json _ := sampleText
  ed25519 :=
    { fromBytes := fun _ => .ok ()
      verifyStrict := fun key message signature =>
        if key = sampleKey ∧ message = asBytes ("sha256:" ++ hex sampleDigest.bytes) ∧
            signature = sampleSignature then .ok ()
        else .error "signature error"
      publicKey := fun _ => sampleKey
      sign := fun _ _ => sampleSignature }

def samplePackage : SignedCapsulePackage where
  capsule := ⟨"capsule-release", sampleSop, "sha256:" ++ hex sampleDigest.bytes,
    "peer-d75a980182b10ab7", 100⟩
  authorPublicKey := hex sampleKey.bytes
  authorSignature := hex sampleSignature
  parentCapsuleIds := []
  gossipHops := 0

end Pandora.Mesh.Sync
