import Pandora.Ids

/-! # Joining a diamond

`execute_diamond` gathers the artifacts of its workers, checks each of them and hashes the summary
of the input with the identifiers and the digests of the artifacts, one after the other. Nothing
marks where a part ends: a character may move from the summary to the first identifier and the
hashed bytes stay the same (`diamond_digest_binds_iff`).

The threads are joined in the order of the workers, so what they return is a list in that order. A
path is the text of a Unix path. -/

namespace Pandora.Orchestration.Diamond

open Text Ids Lib.Checked List

structure ArtifactRef where
  artifactId : ArtifactId
  path : String
  sha256 : Bytes32
  mimeType : String
  sizeBytes : ℕ

inductive EdgeVerificationError
  | sizeExceeded (actual max : ℕ)
  | mimeTypeNotAllowed (actual : String) (allowed : List String)
  | policyViolation (message : String)

inductive OrchestrationError
  | emptyWorkers
  | workerPanic (worker : String)
  | workerFailed (worker error : String)
  | duplicateArtifact (artifactId : ArtifactId)
  | duplicateArtifactPath (path : String)
  | edgeVerificationFailed (worker : String) (error : EdgeVerificationError)

/-- `Path::components`: repeated separators and inner dots are left out. -/
def components (path : String) : List String :=
  let parts := (path.toList.splitOn '/').map String.ofList
  (if path.toList.head? = some '/' then ["/"]
    else if parts.head? = some "." then ["."] else []) ++
    parts.filter fun part => part ≠ "" ∧ part ≠ "."

structure EdgeVerifierPolicy where
  maxSizeBytes : Option ℕ
  allowedMimeTypes : List String

def EdgeVerifierPolicy.verify (policy : EdgeVerifierPolicy) (artifact : ArtifactRef) :
    Except EdgeVerificationError Unit := do
  ensure (¬ (trim artifact.path).isEmpty) (.policyViolation "artifact path cannot be empty")
  ensure (artifact.path.toList.head? ≠ some '/' ∧ artifact.path.toList.head? ≠ some '\\')
    (.policyViolation "artifact path must be relative to workspace")
  ensure (':' ∉ artifact.path.toList)
    (.policyViolation "artifact path cannot contain ':' or stream specifiers")
  ensure (".." ∉ components artifact.path)
    (.policyViolation "artifact path traversal ('..') is prohibited")
  ensure (∀ max ∈ policy.maxSizeBytes, artifact.sizeBytes ≤ max)
    (.sizeExceeded artifact.sizeBytes (policy.maxSizeBytes.getD 0))
  ensure (policy.allowedMimeTypes = [] ∨ artifact.mimeType ∈ policy.allowedMimeTypes)
    (.mimeTypeNotAllowed artifact.mimeType policy.allowedMimeTypes)

/-- How a worker ends. -/
inductive WorkerResult
  | panicked
  | failed (error : String)
  | returned (artifact : ArtifactRef)

/-- The workers are joined: the first that panicked ends the call. If a later worker panics too,
`std::thread::scope`, which joins the rest, panics instead. -/
def gather : List (String × WorkerResult) →
    Except OrchestrationError (List (String × Except String ArtifactRef))
  | [] => .ok []
  | (name, .panicked) :: _ => .error (.workerPanic name)
  | (name, .failed error) :: workers => do
    let rest ← gather workers
    pure ((name, .error error) :: rest)
  | (name, .returned artifact) :: workers => do
    let rest ← gather workers
    pure ((name, .ok artifact) :: rest)

/-- The loop over the results, with the identifiers and the paths seen so far. -/
def verifyAll (policy : EdgeVerifierPolicy) : List (String × Except String ArtifactRef) →
    List ArtifactId → List (List String) → Except OrchestrationError (List ArtifactRef)
  | [], _, _ => .ok []
  | (name, result) :: results, seenIds, seenPaths => do
    let artifact ← result.mapError (.workerFailed name)
    ensure (artifact.artifactId ∉ seenIds) (.duplicateArtifact artifact.artifactId)
    ensure (components artifact.path ∉ seenPaths) (.duplicateArtifactPath artifact.path)
    (policy.verify artifact).mapError (.edgeVerificationFailed name)
    let rest ← verifyAll policy results (artifact.artifactId :: seenIds)
      (components artifact.path :: seenPaths)
    pure (artifact :: rest)

/-- The artifacts that passed and the digest of all. -/
structure DiamondReceipt where
  inputSummary : String
  verifiedArtifacts : List ArtifactRef
  aggregateDigest : String

/-- What one artifact adds to the hash. -/
def artifactBytes (artifact : ArtifactRef) : List UInt8 :=
  asBytes artifact.artifactId.text ++ artifact.sha256.bytes

/-- The bytes that are hashed. -/
def joinBytes (inputSummary : String) (artifacts : List ArtifactRef) : List UInt8 :=
  asBytes inputSummary ++ artifacts.flatMap artifactBytes

def executeDiamond (sha : Sha256) (inputSummary : String) (workers : List (String × WorkerResult))
    (verifier : EdgeVerifierPolicy) : Except OrchestrationError DiamondReceipt := do
  ensure (workers ≠ []) .emptyWorkers
  let results ← gather workers
  let artifacts ← verifyAll verifier results [] []
  let verifiedArtifacts := artifacts.insertionSort fun a b => a.artifactId ≤ b.artifactId
  pure {
    inputSummary
    verifiedArtifacts
    aggregateDigest := hex (sha (joinBytes inputSummary verifiedArtifacts)).bytes }

/-! ### What the digest binds -/

namespace DiamondReceipt

variable (receipt : DiamondReceipt)

/-- The bytes that the digest of a receipt is made of. -/
def joined : List UInt8 := joinBytes receipt.inputSummary receipt.verifiedArtifacts

/-- The identifiers and the digests of the artifacts. -/
def pairs : List (ArtifactId × Bytes32) :=
  receipt.verifiedArtifacts.map fun artifact => (artifact.artifactId, artifact.sha256)

/-- Where the bytes are cut: the length of the summary, and those of the identifiers. -/
def cuts : ℕ × List ℕ :=
  (receipt.inputSummary.utf8ByteSize,
    receipt.verifiedArtifacts.map fun artifact => artifact.artifactId.text.utf8ByteSize)

end DiamondReceipt

theorem executeDiamond_digest {sha : Sha256} {inputSummary : String}
    {workers : List (String × WorkerResult)} {verifier : EdgeVerifierPolicy}
    {receipt : DiamondReceipt}
    (h : executeDiamond sha inputSummary workers verifier = .ok receipt) :
    receipt.inputSummary = inputSummary ∧
      receipt.aggregateDigest = hex (sha receipt.joined).bytes := by
  simp only [executeDiamond, bind_eq_ok, ensure_eq_ok, pure_eq_ok] at h
  obtain ⟨⟨⟩, -, results, -, artifacts, -, rfl⟩ := h
  exact ⟨rfl, rfl⟩

/-- Cut at the same places, the bytes of the artifacts determine their pairs. -/
theorem pairs_of_bytes : ∀ {artifacts artifacts' : List ArtifactRef},
    artifacts.map (fun artifact => artifact.artifactId.text.utf8ByteSize) =
      artifacts'.map (fun artifact => artifact.artifactId.text.utf8ByteSize) →
    artifacts.flatMap artifactBytes = artifacts'.flatMap artifactBytes →
    artifacts.map (fun artifact => (artifact.artifactId, artifact.sha256)) =
      artifacts'.map fun artifact => (artifact.artifactId, artifact.sha256)
  | [], [], _, _ => rfl
  | [], _ :: _, hcuts, _ => by cases hcuts
  | _ :: _, [], hcuts, _ => by cases hcuts
  | a :: as, b :: bs, hcuts, hbytes => by
    rw [map_cons, map_cons] at hcuts
    obtain ⟨hcut, hcuts⟩ := List.cons.inj hcuts
    have hid : (asBytes a.artifactId.text).length = (asBytes b.artifactId.text).length := by
      rw [length_asBytes, length_asBytes, hcut]
    have hlength : (artifactBytes a).length = (artifactBytes b).length := by
      unfold artifactBytes
      rw [length_append, length_append, a.sha256.length_eq, b.sha256.length_eq, hid]
    rw [flatMap_cons, flatMap_cons] at hbytes
    obtain ⟨hfirst, hrest⟩ := append_inj hbytes hlength
    obtain ⟨htext, hsha⟩ := append_inj hfirst hid
    have hid' : a.artifactId = b.artifactId := Id.ext_text (asBytes_inj htext)
    have hsha' : a.sha256 = b.sha256 := Bytes32.ext_bytes hsha
    rw [map_cons, map_cons, pairs_of_bytes hcuts hrest, hid', hsha']

/-- Cut at the same places, the hashed bytes determine the summary and the pairs. -/
theorem parts_of_joined {receipt receipt' : DiamondReceipt} (hcuts : receipt.cuts = receipt'.cuts)
    (hjoined : receipt.joined = receipt'.joined) :
    receipt.inputSummary = receipt'.inputSummary ∧ receipt.pairs = receipt'.pairs := by
  obtain ⟨hsummary, hids⟩ := Prod.ext_iff.mp hcuts
  have hlength : (asBytes receipt.inputSummary).length =
    (asBytes receipt'.inputSummary).length := by
    rw [length_asBytes, length_asBytes]
    exact hsummary
  obtain ⟨hfirst, hrest⟩ := append_inj hjoined hlength
  exact ⟨asBytes_inj hfirst, pairs_of_bytes hids hrest⟩

theorem cuts_of_parts {receipt receipt' : DiamondReceipt}
    (hsummary : receipt.inputSummary = receipt'.inputSummary)
    (hpairs : receipt.pairs = receipt'.pairs) : receipt.cuts = receipt'.cuts := by
  have hids :=
    congrArg (List.map fun pair : ArtifactId × Bytes32 => pair.1.text.utf8ByteSize) hpairs
  unfold DiamondReceipt.pairs at hids
  rw [map_map, map_map] at hids
  exact Prod.ext (congrArg String.utf8ByteSize hsummary) hids

/-- **When the digest binds its inputs.** If the hash does not collide, equal digests mean equal
summaries and equal artifacts exactly if the bytes of the two, when they are the same, are cut at
the same places. -/
theorem diamond_digest_binds_iff {sha : Sha256} {inputSummary inputSummary' : String}
    {workers workers' : List (String × WorkerResult)} {verifier verifier' : EdgeVerifierPolicy}
    {receipt receipt' : DiamondReceipt}
    (h : executeDiamond sha inputSummary workers verifier = .ok receipt)
    (h' : executeDiamond sha inputSummary' workers' verifier' = .ok receipt')
    (hsha : sha receipt.joined = sha receipt'.joined → receipt.joined = receipt'.joined) :
    (receipt.aggregateDigest = receipt'.aggregateDigest →
      receipt.inputSummary = receipt'.inputSummary ∧ receipt.pairs = receipt'.pairs) ↔
    (receipt.joined = receipt'.joined → receipt.cuts = receipt'.cuts) := by
  have hdigest : receipt.aggregateDigest = receipt'.aggregateDigest ↔
      receipt.joined = receipt'.joined := by
    rw [(executeDiamond_digest h).2, (executeDiamond_digest h').2]
    constructor
    · intro heq
      exact hsha (Bytes32.ext_bytes (hex_inj heq))
    · intro heq
      rw [heq]
  rw [hdigest]
  constructor
  · intro hbinds hjoined
    obtain ⟨hsummary, hpairs⟩ := hbinds hjoined
    exact cuts_of_parts hsummary hpairs
  · intro hcut hjoined
    exact parts_of_joined (hcut hjoined) hjoined

/-- SHA-256 of the one artifact of the samples. -/
def sampleDigest : Bytes32 :=
  ⟨[186, 120, 22, 191, 143, 1, 207, 234, 65, 65, 64, 222, 93, 174, 34, 35, 176, 3, 97, 163, 150, 23,
    122, 156, 180, 16, 255, 97, 242, 0, 21, 173],
    rfl⟩

/-- A worker that returns the artifact. -/
def sampleWorkers (artifactId : ArtifactId) : List (String × WorkerResult) :=
  [("maker", .returned ⟨artifactId, "out/report.md", sampleDigest, "text/markdown", 3⟩)]

def samplePolicy : EdgeVerifierPolicy := ⟨none, []⟩

def sampleReceipt (sha : Sha256) (inputSummary : String) (artifactId : ArtifactId) :
    DiamondReceipt where
  inputSummary := inputSummary
  verifiedArtifacts := [⟨artifactId, "out/report.md", sampleDigest, "text/markdown", 3⟩]
  aggregateDigest := hex (sha (asBytes inputSummary ++
    ((asBytes artifactId.text ++ sampleDigest.bytes) ++ []))).bytes

theorem executeDiamond_sample (sha : Sha256) (inputSummary : String) (artifactId : ArtifactId) :
    executeDiamond sha inputSummary (sampleWorkers artifactId) samplePolicy =
      .ok (sampleReceipt sha inputSummary artifactId) := by
  have hverify : samplePolicy.verify
      ⟨artifactId, "out/report.md", sampleDigest, "text/markdown", 3⟩ = .ok () := by
    unfold EdgeVerifierPolicy.verify
    refine bind_eq_ok.mpr ⟨(), ensure_eq_ok.mpr ?_, ?_⟩
    · show ¬ (trim "out/report.md").isEmpty
      decide +kernel
    refine bind_eq_ok.mpr ⟨(), ensure_eq_ok.mpr ?_, ?_⟩
    · show "out/report.md".toList.head? ≠ some '/' ∧ "out/report.md".toList.head? ≠ some '\\'
      decide +kernel
    refine bind_eq_ok.mpr ⟨(), ensure_eq_ok.mpr ?_, ?_⟩
    · show ':' ∉ "out/report.md".toList
      decide +kernel
    refine bind_eq_ok.mpr ⟨(), ensure_eq_ok.mpr ?_, ?_⟩
    · show ".." ∉ components "out/report.md"
      decide +kernel
    refine bind_eq_ok.mpr ⟨(), ensure_eq_ok.mpr ?_, ensure_eq_ok.mpr (Or.inl rfl)⟩
    intro max hmax
    cases hmax
  unfold executeDiamond
  refine bind_eq_ok.mpr ⟨(), ensure_eq_ok.mpr (cons_ne_nil _ _), ?_⟩
  refine bind_eq_ok.mpr ⟨_, rfl, ?_⟩
  refine bind_eq_ok.mpr ⟨[⟨artifactId, "out/report.md", sampleDigest, "text/markdown", 3⟩], ?_, ?_⟩
  · unfold verifyAll
    refine bind_eq_ok.mpr ⟨_, rfl, ?_⟩
    refine bind_eq_ok.mpr ⟨(), ensure_eq_ok.mpr not_mem_nil, ?_⟩
    refine bind_eq_ok.mpr ⟨(), ensure_eq_ok.mpr not_mem_nil, ?_⟩
    refine bind_eq_ok.mpr ⟨(), mapError_eq_ok.mpr hverify, ?_⟩
    rfl
  · rfl

/-- SHA-256 on the bytes of the two calls below. -/
def sampleSha : Sha256 := fun message =>
  if message.getD 2 0 = 0x63 then
    ⟨[122, 173, 128, 86, 159, 252, 216, 169, 78, 102, 102, 167, 174, 198, 108, 82, 252, 188, 110,
      151, 34, 157, 49, 158, 87, 136, 29, 214, 133, 81, 249, 134], rfl⟩
  else
    ⟨[159, 233, 41, 102, 83, 157, 102, 152, 198, 59, 141, 100, 146, 127, 8, 177, 81, 44, 179, 170,
      107, 156, 227, 80, 43, 37, 55, 126, 113, 20, 166, 22], rfl⟩

theorem diamond_digest_binds_sample :
    ((sampleReceipt sampleSha "ab" (.ofLiteral "c")).aggregateDigest =
        (sampleReceipt sampleSha "ab" (.ofLiteral "d")).aggregateDigest →
      (sampleReceipt sampleSha "ab" (.ofLiteral "c")).inputSummary =
          (sampleReceipt sampleSha "ab" (.ofLiteral "d")).inputSummary ∧
        (sampleReceipt sampleSha "ab" (.ofLiteral "c")).pairs =
          (sampleReceipt sampleSha "ab" (.ofLiteral "d")).pairs) ↔
    ((sampleReceipt sampleSha "ab" (.ofLiteral "c")).joined =
        (sampleReceipt sampleSha "ab" (.ofLiteral "d")).joined →
      (sampleReceipt sampleSha "ab" (.ofLiteral "c")).cuts =
        (sampleReceipt sampleSha "ab" (.ofLiteral "d")).cuts) := by
  have hne : sampleSha (sampleReceipt sampleSha "ab" (.ofLiteral "c")).joined ≠
      sampleSha (sampleReceipt sampleSha "ab" (.ofLiteral "d")).joined := by
    decide +kernel
  exact diamond_digest_binds_iff (executeDiamond_sample sampleSha "ab" (.ofLiteral "c"))
    (executeDiamond_sample sampleSha "ab" (.ofLiteral "d")) fun heq => absurd heq hne

/-- A character moves from the summary to the identifier, and the digest is the same. -/
theorem moved_character_digest (sha : Sha256) :
    ∃ receipt receipt' : DiamondReceipt,
      executeDiamond sha "ab" (sampleWorkers (.ofLiteral "c")) samplePolicy = .ok receipt ∧
      executeDiamond sha "a" (sampleWorkers (.ofLiteral "bc")) samplePolicy = .ok receipt' ∧
      receipt.aggregateDigest = receipt'.aggregateDigest ∧ receipt.joined = receipt'.joined ∧
      receipt.inputSummary ≠ receipt'.inputSummary ∧ receipt.pairs ≠ receipt'.pairs := by
  have hbytes : asBytes "ab" ++ ((asBytes "c" ++ sampleDigest.bytes) ++ []) =
      asBytes "a" ++ ((asBytes "bc" ++ sampleDigest.bytes) ++ []) := by
    decide +kernel
  refine ⟨_, _, executeDiamond_sample sha "ab" (.ofLiteral "c"),
    executeDiamond_sample sha "a" (.ofLiteral "bc"), ?_, hbytes, ?_, ?_⟩
  · show hex (sha (asBytes "ab" ++ ((asBytes "c" ++ sampleDigest.bytes) ++ []))).bytes =
      hex (sha (asBytes "a" ++ ((asBytes "bc" ++ sampleDigest.bytes) ++ []))).bytes
    rw [hbytes]
  · show "ab" ≠ "a"
    decide
  · intro hpairs
    have htext := congrArg (List.map fun pair : ArtifactId × Bytes32 => pair.1.text) hpairs
    have hne : ["c"] ≠ ["bc"] := by decide
    exact hne htext

theorem diamond_digest_collides :
    ∃ receipt receipt' : DiamondReceipt,
      executeDiamond sampleSha "ab" (sampleWorkers (.ofLiteral "c")) samplePolicy = .ok receipt ∧
      executeDiamond sampleSha "a" (sampleWorkers (.ofLiteral "bc")) samplePolicy = .ok receipt' ∧
      receipt.aggregateDigest = receipt'.aggregateDigest ∧ receipt.joined = receipt'.joined ∧
      receipt.inputSummary ≠ receipt'.inputSummary ∧ receipt.pairs ≠ receipt'.pairs :=
  moved_character_digest sampleSha

end Pandora.Orchestration.Diamond
