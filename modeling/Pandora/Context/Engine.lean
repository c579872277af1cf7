import Pandora.Context.Fragments
import Pandora.Lib.Runs

/-! # The context engine

`assemble` of `context_engine.rs`: the fragments are sorted, those that are expired, not trusted,
above the classification boundary or repeated are dropped, and the others are taken as long as the
token budget lasts, the last of them shortened. An assembly of fragments that may be cached is kept
in memory and, if the engine was opened on a path, in a file.

What `serde_json` writes and reads is a parameter, as are the sizes that `size_of` gives. Whether
the file system reads and writes the file comes with each call. -/

namespace Pandora.Context.Engine

open Text Ids Lib.Checked Lib.Runs Context.Fragments ContextManifest

def compressionCharsPerToken : ℕ := 4
def maxContextCacheEntries : ℕ := 64
def maxContextCacheEntryBytes : ℕ := 64 * 1024
def maxContextCacheFileBytes : ℕ := 4 * 1024 * 1024
def contextCacheFileVersion : UInt32 := 1

inductive ContextError
  | tokenBudgetOverflow | cacheUnavailable
deriving DecidableEq

/-! ## Requests and assemblies -/

structure ContextCacheKey where
  tenantId : TenantId
  workspaceId : WorkspaceId
  sessionId : SessionId
  (provider model : String)
  (policyVersion projectionVersion tokenBudget : UInt32)
  classificationBoundary : ContextClassification
deriving DecidableEq

/-- What a context is assembled for, and its budget. -/
structure ContextRequest where
  tenantId : TenantId
  workspaceId : WorkspaceId
  sessionId : SessionId
  (provider model : String)
  (policyVersion tokenBudget : UInt32)
  now : UInt64
  classificationBoundary : ContextClassification

def ContextRequest.cacheKey (request : ContextRequest) : ContextCacheKey where
  tenantId := request.tenantId
  workspaceId := request.workspaceId
  sessionId := request.sessionId
  provider := request.provider
  model := request.model
  policyVersion := request.policyVersion
  projectionVersion := contextProjectionVersion
  tokenBudget := request.tokenBudget
  classificationBoundary := request.classificationBoundary

structure ContextEntry where
  id : String
  source : ContextSource
  trust : ContextTrust
  classification : ContextClassification
  content : String
  tokenCost : UInt32
  compressed : Bool

inductive ContextCacheDisposition
  | hit | miss | bypass
deriving DecidableEq

structure ContextReceipt where
  (includedIds droppedIds : List String)
  tokenCost : UInt32
  cacheable : Bool
  manifestDigest : Option String
  projectionVersion : UInt32
  provenanceComplete : Bool
  cacheDisposition : ContextCacheDisposition

structure ContextAssembly where
  entries : List ContextEntry
  text : String
  receipt : ContextReceipt
  cacheKey : ContextCacheKey

/-- The assembly with another cache disposition in its receipt. -/
def ContextAssembly.withCacheDisposition (assembly : ContextAssembly)
    (disposition : ContextCacheDisposition) : ContextAssembly :=
  { assembly with receipt := { assembly.receipt with cacheDisposition := disposition } }

/-! ## Assembling -/

variable {sha : Sha256}

def sourceRank : ContextSource → ℕ
  | .constitutional => 0
  | .activePlan => 1
  | .l1Evidence => 2
  | .retrieved => 3
  | .conversation => 4

/-- The order in which fragments are taken. -/
def Precedes (left right : ContextFragment sha) : Prop :=
  sourceRank left.source < sourceRank right.source ∨
    (sourceRank left.source = sourceRank right.source ∧ (right.priority < left.priority ∨
      (left.priority = right.priority ∧ left.id ≤ right.id)))

instance (left right : ContextFragment sha) : Decidable (Precedes left right) :=
  inferInstanceAs (Decidable (_ ∨ (_ ∧ (_ ∨ (_ ∧ _)))))

def sorted (fragments : List (ContextFragment sha)) : List (ContextFragment sha) :=
  fragments.insertionSort Precedes

def redact (fragment : ContextFragment sha) : String :=
  if fragment.classification = .secret then "[redacted]" else fragment.content

def compress (fragment : ContextFragment sha) (remaining : UInt32) : String × UInt32 :=
  if remaining = 0 then ("", 0)
  else
    let maxChars := remaining.toNat * compressionCharsPerToken
    let content := redact fragment
    let taken := String.ofList (content.toList.take maxChars)
    let shortened := if taken.utf8ByteSize < content.utf8ByteSize then taken.push '…' else taken
    if shortened.isEmpty then (shortened, 0) else (shortened, remaining)

/-- `u32::checked_sub`. -/
def checkedSubU32 (a b : UInt32) : Option UInt32 := if b ≤ a then some (a - b) else none

/-- `u32::checked_add`. -/
def checkedAddU32 (a b : UInt32) : Option UInt32 :=
  if a.toNat + b.toNat < 2 ^ 32 then some (a + b) else none

/-- The state of the loop over the candidates. -/
structure Assembling where
  seen : Finset String
  droppedIds : List String
  entries : List ContextEntry
  tokenCost : UInt32
  cacheable : Bool

def Assembling.drop (acc : Assembling) (id : String) : Assembling :=
  { acc with droppedIds := acc.droppedIds ++ [id] }

def Assembling.push (acc : Assembling) (fragment : ContextFragment sha) (content : String)
    (cost : UInt32) (compressed : Bool) : Except ContextError Assembling := do
  let tokenCost ← orError (checkedAddU32 acc.tokenCost cost) .tokenBudgetOverflow
  pure { acc with
    tokenCost := tokenCost
    cacheable := acc.cacheable && fragment.classification.cacheable
    entries := acc.entries ++ [⟨fragment.id, fragment.source, fragment.trust,
      fragment.classification, content, cost, compressed⟩] }

def place (request : ContextRequest) (acc : Assembling) (fragment : ContextFragment sha) :
    Except ContextError Assembling :=
  if fragment.isExpired request.now ∨ fragment.trust = .unverified ∨
    request.classificationBoundary.rank < fragment.classification.rank then
    .ok (acc.drop fragment.id)
  else if fragment.id ∈ acc.seen then .ok (acc.drop fragment.id)
  else do
    let acc := { acc with seen := insert fragment.id acc.seen }
    let remaining ← orError (checkedSubU32 request.tokenBudget acc.tokenCost) .tokenBudgetOverflow
    if remaining = 0 then pure (acc.drop fragment.id)
    else if fragment.tokenCost ≤ remaining then
      acc.push fragment (redact fragment) fragment.tokenCost false
    else
      let (content, cost) := compress fragment remaining
      if cost = 0 then pure (acc.drop fragment.id) else acc.push fragment content cost true

/-- The sources that may be cached. -/
def cacheableSource : ContextSource → Bool
  | .constitutional | .activePlan => true
  | _ => false

def cacheCandidate (candidates : List (ContextFragment sha)) : Bool :=
  candidates.all (fun fragment =>
    fragment.classification.cacheable && cacheableSource fragment.source) &&
      (fromFragments candidates).provenanceComplete

/-- The first expiry after the time of the request. -/
def validUntil (now : UInt64) (candidates : List (ContextFragment sha)) : Option UInt64 :=
  ((candidates.filterMap ContextFragment.expiresAt).filter (now < ·)).min?

/-- An assembly without the cache. -/
def build (request : ContextRequest) (candidates : List (ContextFragment sha)) :
    Except ContextError ContextAssembly := do
  let candidate := cacheCandidate candidates
  let acc ← candidates.foldlM (place request) ⟨∅, [], [], 0, candidate⟩
  let manifest := fromFragments candidates
  pure {
    entries := acc.entries
    text := "\n".intercalate (acc.entries.map ContextEntry.content)
    receipt := {
      includedIds := acc.entries.map ContextEntry.id
      droppedIds := acc.droppedIds
      tokenCost := acc.tokenCost
      cacheable := acc.cacheable
      manifestDigest := some manifest.digest
      projectionVersion := contextProjectionVersion
      provenanceComplete := manifest.provenanceComplete
      cacheDisposition := if candidate then .miss else .bypass }
    cacheKey := request.cacheKey }

/-! ### Fragments that are treated alike -/

/-- At the two times, the one fragment is treated as the other is. -/
structure AlikeAt (now now' : UInt64) (f g : ContextFragment sha) : Prop where
  id : f.id = g.id
  source : f.source = g.source
  trust : f.trust = g.trust
  classification : f.classification = g.classification
  tokenCost : f.tokenCost = g.tokenCost
  expired : f.isExpired now = g.isExpired now'
  text : redact f = redact g

variable {request request' : ContextRequest}

theorem place_alike {f g : ContextFragment sha}
    (hbudget : request.tokenBudget = request'.tokenBudget)
    (hboundary : request.classificationBoundary = request'.classificationBoundary)
    (h : AlikeAt request.now request'.now f g) (acc : Assembling) :
    place request acc f = place request' acc g := by
  have hcompress : ∀ remaining, compress f remaining = compress g remaining := by
    intro remaining
    unfold compress
    rw [h.text]
  have hpush : ∀ acc content cost compressed, Assembling.push acc f content cost compressed =
      Assembling.push acc g content cost compressed := by
    intro acc content cost compressed
    unfold Assembling.push
    rw [h.id, h.source, h.trust, h.classification]
  unfold place
  simp only [h.id, h.trust, h.classification, h.tokenCost, h.expired, h.text, hbudget, hboundary,
    hcompress, hpush]

variable {l l' : List (ContextFragment sha)}

theorem foldlM_alike (hbudget : request.tokenBudget = request'.tokenBudget)
    (hboundary : request.classificationBoundary = request'.classificationBoundary)
    (h : List.Forall₂ (AlikeAt request.now request'.now) l l') (acc : Assembling) :
    l.foldlM (place request) acc = l'.foldlM (place request') acc := by
  induction h generalizing acc with
  | nil => rfl
  | cons hfg _ ih =>
    rw [List.foldlM_cons, List.foldlM_cons, place_alike hbudget hboundary hfg]
    exact bind_congr ih

theorem cacheCandidate_alike {now now' : UInt64} (h : List.Forall₂ (AlikeAt now now') l l')
    (hcomplete : (fromFragments l).provenanceComplete = (fromFragments l').provenanceComplete) :
    cacheCandidate l = cacheCandidate l' := by
  have hall : l.all (fun f => f.classification.cacheable && cacheableSource f.source) =
      l'.all (fun f => f.classification.cacheable && cacheableSource f.source) := by
    clear hcomplete
    induction h with
    | nil => rfl
    | cons hfg _ ih => rw [List.all_cons, List.all_cons, hfg.classification, hfg.source, ih]
  unfold cacheCandidate
  rw [hcomplete, hall]

/-- Requests with one key, for lists of alike fragments with one manifest. -/
theorem build_alike (hkey : request.cacheKey = request'.cacheKey)
    (halike : List.Forall₂ (AlikeAt request.now request'.now) l l')
    (hdigest : (fromFragments l).digest = (fromFragments l').digest)
    (hcomplete : (fromFragments l).provenanceComplete = (fromFragments l').provenanceComplete) :
    build request l = build request' l' := by
  have hbudget : request.tokenBudget = request'.tokenBudget :=
    congrArg ContextCacheKey.tokenBudget hkey
  have hboundary : request.classificationBoundary = request'.classificationBoundary :=
    congrArg ContextCacheKey.classificationBoundary hkey
  unfold build
  dsimp only
  rw [cacheCandidate_alike halike hcomplete, foldlM_alike hbudget hboundary halike, hdigest,
    hcomplete, hkey]

/-! ## The caches -/

structure ContextCacheEntry where
  key : ContextCacheKey
  manifestDigest : String
  assembledAt : UInt64
  validUntil : Option UInt64
  assembly : ContextAssembly

structure PersistentContextCacheFile where
  version : UInt32
  entries : List ContextCacheEntry

/-- The entries, and how often one was hit. -/
structure ContextCache where
  entries : List ContextCacheEntry
  (hits misses : ℕ)

/-- The engine: its cache in memory and, if it has a path, the bytes of the file there. -/
structure ContextEngine where
  cache : ContextCache
  persistent : Option (Option (List UInt8))

def ContextEngine.new : ContextEngine := ⟨⟨[], 0, 0⟩, none⟩

/-- An engine on a path at which nothing has been written. -/
def ContextEngine.open : ContextEngine := ⟨⟨[], 0, 0⟩, some none⟩

/-- What `serde_json` writes and reads, and what `size_of` gives. -/
structure ContextEnv where
  write : PersistentContextCacheFile → Option (List UInt8)
  read : List UInt8 → Option PersistentContextCacheFile
  (sizeOfAssembly sizeOfCacheEntry sizeOfEntry sizeOfString : ℕ)

/-- Whether the file can be read for a lookup, and read and written to store an entry. -/
structure FileAccess where
  (getReads putReads putWrites : Bool)

variable (env : ContextEnv)

/-- `usize::saturating_add`. -/
@[irreducible] def saturatingAdd (a b : ℕ) : ℕ := min (a + b) (2 ^ 64 - 1)

/-- `usize::saturating_mul`. -/
@[irreducible] def saturatingMul (a b : ℕ) : ℕ := min (a * b) (2 ^ 64 - 1)

def cachedAssemblyBytes (assembly : ContextAssembly) : ℕ :=
  let bytes := saturatingAdd (saturatingAdd env.sizeOfAssembly env.sizeOfCacheEntry)
    assembly.text.utf8ByteSize
  let bytes := assembly.entries.foldl (fun bytes entry => saturatingAdd (saturatingAdd
    (saturatingAdd bytes env.sizeOfEntry) entry.id.utf8ByteSize) entry.content.utf8ByteSize) bytes
  let bytes := (assembly.receipt.includedIds ++ assembly.receipt.droppedIds).foldl
    (fun bytes id => saturatingAdd (saturatingAdd bytes env.sizeOfString) id.utf8ByteSize) bytes
  let bytes := match assembly.receipt.manifestDigest with
    | some digest => saturatingAdd bytes (saturatingMul digest.utf8ByteSize 2)
    | none => bytes
  let key := assembly.cacheKey
  let keyBytes := saturatingAdd (saturatingAdd (saturatingAdd (saturatingAdd
    key.tenantId.text.utf8ByteSize key.workspaceId.text.utf8ByteSize)
    key.sessionId.text.utf8ByteSize) key.provider.utf8ByteSize) key.model.utf8ByteSize
  saturatingAdd bytes (saturatingMul keyBytes 2)

def cacheSafe (assembly : ContextAssembly) : Bool :=
  assembly.receipt.cacheable && assembly.receipt.provenanceComplete &&
    assembly.entries.all fun entry =>
      entry.classification.cacheable && cacheableSource entry.source

/-- The entry may be used at the given time. -/
def ContextCacheEntry.valid (entry : ContextCacheEntry) (now : UInt64) : Bool :=
  entry.assembledAt ≤ now && entry.validUntil.all (now < ·)

def ContextCacheEntry.isFor (key : ContextCacheKey) (manifestDigest : String)
    (entry : ContextCacheEntry) : Bool :=
  entry.key = key && entry.manifestDigest = manifestDigest

/-- `PersistentContextCache::load`. -/
def load (bytes : Option (List UInt8)) : Option PersistentContextCacheFile := do
  let bytes ← bytes
  if maxContextCacheFileBytes < bytes.length then none
  else
    let file ← env.read bytes
    if file.version ≠ contextCacheFileVersion ∨ maxContextCacheEntries < file.entries.length then
      none
    else some file

/-- `PersistentContextCache::get`. -/
def get (bytes : Option (List UInt8)) (key : ContextCacheKey) (manifestDigest : String)
    (now : UInt64) : Option ContextAssembly := do
  let file ← load env bytes
  let entry ← file.entries.find? fun entry => entry.isFor key manifestDigest && entry.valid now
  if entry.assembly.cacheKey ≠ key ∨ ¬ cacheSafe entry.assembly then none
  else some (entry.assembly.withCacheDisposition .hit)

/-- The entries of the file after `entry` is added. -/
def addEntry (entries : List ContextCacheEntry) (entry : ContextCacheEntry) :
    List ContextCacheEntry :=
  let entries := entries.filter (fun candidate => candidate.key ≠ entry.key) ++ [entry]
  if maxContextCacheEntries < entries.length then entries.drop 1 else entries

/-- `PersistentContextCache::put`: the bytes of the file afterwards. -/
def put (access : FileAccess) (bytes : Option (List UInt8)) (entry : ContextCacheEntry) :
    Option (List UInt8) :=
  if ¬ cacheSafe entry.assembly ∨
    maxContextCacheEntryBytes < cachedAssemblyBytes env entry.assembly then bytes
  else
    let loaded := load env (if access.putReads then bytes else none)
    let entries := addEntry ((loaded.map (·.entries)).getD []) entry
    match env.write ⟨contextCacheFileVersion, entries⟩ with
    | none => bytes
    | some written =>
      if maxContextCacheFileBytes < written.length ∨ ¬ access.putWrites then bytes
      else some written

/-- The lookup in memory: an entry that is not valid any more is removed. -/
def ContextCache.lookup (cache : ContextCache) (key : ContextCacheKey) (manifestDigest : String)
    (now : UInt64) : ContextCache × Option ContextAssembly :=
  match cache.entries.find? (·.isFor key manifestDigest) with
  | none => (cache, none)
  | some entry =>
    if entry.valid now then
      ({ cache with hits := saturatingAdd cache.hits 1 },
        some (entry.assembly.withCacheDisposition .hit))
    else ({ cache with entries := cache.entries.eraseP (·.isFor key manifestDigest) }, none)

/-- A hit in the file is counted and kept in memory. -/
def ContextCache.promote (cache : ContextCache) (entry : ContextCacheEntry) : ContextCache :=
  let entries := cache.entries ++ [entry]
  { cache with
    hits := saturatingAdd cache.hits 1
    entries := if maxContextCacheEntries < entries.length then entries.drop 1 else entries }

def ContextCache.push (cache : ContextCache) (entry : ContextCacheEntry) : ContextCache :=
  let entries := if maxContextCacheEntries ≤ cache.entries.length then cache.entries.drop 1
    else cache.entries
  { cache with entries := entries ++ [entry] }

/-- The entry of an assembly. -/
def entryOf (request : ContextRequest) (candidates : List (ContextFragment sha))
    (assembly : ContextAssembly) : ContextCacheEntry where
  key := request.cacheKey
  manifestDigest := (fromFragments candidates).digest
  assembledAt := request.now
  validUntil := validUntil request.now candidates
  assembly := assembly

/-- The lookup in both caches. -/
def ContextEngine.recall (engine : ContextEngine) (access : FileAccess) (request : ContextRequest)
    (candidates : List (ContextFragment sha)) : ContextEngine × Option ContextAssembly :=
  let digest := (fromFragments candidates).digest
  match engine.cache.lookup request.cacheKey digest request.now with
  | (cache, some assembly) => ({ engine with cache := cache }, some assembly)
  | (cache, none) =>
    match engine.persistent.bind fun bytes =>
      get env (if access.getReads then bytes else none) request.cacheKey digest request.now with
    | some assembly =>
      ({ engine with cache := cache.promote (entryOf request candidates assembly) }, some assembly)
    | none => ({ engine with cache := { cache with misses := saturatingAdd cache.misses 1 } }, none)

/-- The new assembly is kept, if it may be. -/
def ContextEngine.remember (engine : ContextEngine) (access : FileAccess)
    (request : ContextRequest) (candidates : List (ContextFragment sha))
    (assembly : ContextAssembly) : ContextEngine :=
  if cacheCandidate candidates ∧ cacheSafe assembly ∧
    cachedAssemblyBytes env assembly ≤ maxContextCacheEntryBytes then
    let entry := entryOf request candidates assembly
    { cache := engine.cache.push entry
      persistent := engine.persistent.map fun bytes => put env access bytes entry }
  else engine

def assemble (engine : ContextEngine) (access : FileAccess) (request : ContextRequest)
    (fragments : List (ContextFragment sha)) :
    ContextEngine × Except ContextError ContextAssembly :=
  let candidates := sorted fragments
  let (engine, recalled) :=
    if cacheCandidate candidates then engine.recall env access request candidates
    else (engine, none)
  match recalled with
  | some assembly => (engine, .ok assembly)
  | none =>
    match build request candidates with
    | .error e => (engine, .error e)
    | .ok assembly => (engine.remember env access request candidates assembly, .ok assembly)

/-! ## Sequences of calls -/

/-- A call, or a new engine that is opened on the same file. -/
inductive Event (sha : Sha256)
  | assemble (access : FileAccess) (request : ContextRequest)
    (fragments : List (ContextFragment sha))
  | reopen

def exec (engine : ContextEngine) :
    Event sha → ContextEngine × Option (Except ContextError ContextAssembly)
  | .assemble access request fragments =>
    let (engine, result) := assemble env engine access request fragments
    (engine, some result)
  | .reopen => (⟨⟨[], 0, 0⟩, engine.persistent⟩, none)

theorem exec_assemble (engine : ContextEngine) (access : FileAccess) (request : ContextRequest)
    (fragments : List (ContextFragment sha)) :
    exec env engine (.assemble access request fragments) =
      ((assemble env engine access request fragments).1,
        some (assemble env engine access request fragments).2) := by
  rcases hcall : assemble env engine access request fragments with ⟨engine', result⟩
  simp only [exec, hcall]

def machine (sha : Sha256) :
    Machine ContextEngine (Event sha) (Option (Except ContextError ContextAssembly)) where
  step := exec env

end Pandora.Context.Engine
