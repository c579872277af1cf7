import Pandora.Evolution.Rollout
import Pandora.Lib.OrderedSets
import Pandora.Lib.SortedMaps

/-! # Failures, corpora and mutation batches

The part of `population.rs` of the types that selects the failures a mutation works on. A corpus has
the failures of both partitions in one list, sorted by identifier, and a digest of those held out. A
batch groups the eligible training failures by category, and takes from the largest group. -/

namespace Pandora.Population

open Ids Lib.Checked Lib.OrderedSets Lib.SortedMaps Text
open Evolution.Rollout (hashText_ok)

abbrev FailureId := Id .failure
abbrev PopulationId := Id .population

def maxFailures : ℕ := 256

inductive FailurePartition
  | training | holdout
deriving DecidableEq

inductive PopulationContractError
  | emptyField (field : String)
  | fieldTooLong (field : String)
  | controlCharacter (field : String)
  | tooManyFailures
  | duplicateFailure (id : FailureId)

/-- What `validate_text` returns. -/
structure PlainText where
  text : String
  plain : text.toList.any isControl = false
deriving DecidableEq

structure FailureEvidence where
  id : FailureId
  partition : FailurePartition
  (category redactedSummary : PlainText)
  evidenceDigest : RequestDigest
  observedAt : ℕ
deriving DecidableEq

namespace FailureEvidence

def contextBytes (failure : FailureEvidence) : ℕ :=
  failure.id.text.utf8ByteSize + failure.category.text.utf8ByteSize +
    failure.redactedSummary.text.utf8ByteSize + failure.evidenceDigest.text.utf8ByteSize + 4

end FailureEvidence

/-! ## Digests -/

/-- The character whose byte is `partition as u8`. -/
def FailurePartition.mark : FailurePartition → Char
  | .training => '\x00'
  | .holdout => '\x01'

/-- A text and the character after it. -/
def ended (text : String) (mark : Char) : List Char := text.toList ++ [mark]

def failureText (failure : FailureEvidence) : List Char :=
  ended failure.id.text '\x00' ++ (ended failure.category.text '\x00' ++
    (ended failure.redactedSummary.text '\x00' ++
      ended failure.evidenceDigest.text failure.partition.mark))

/-- The text whose bytes are hashed; its first two characters are the version. -/
def failuresText (failures : List FailureEvidence) : String :=
  .ofList ('\x00' :: '\x01' :: failures.flatMap failureText)

variable (sha : Sha256)

/-- `sha256_request_digest`. -/
def sha256Digest (bytes : List UInt8) : RequestDigest :=
  ⟨"sha256:" ++ hex (sha bytes).bytes, (hashText_ok _).1, (hashText_ok _).2⟩

def digestFailures (failures : List FailureEvidence) : RequestDigest :=
  sha256Digest sha (asBytes (failuresText failures))

/-! ## Corpora -/

def isTraining (failure : FailureEvidence) : Bool := failure.partition = .training

def isHoldout (failure : FailureEvidence) : Bool := failure.partition = .holdout

structure FailureCorpus where
  failures : List FailureEvidence
  holdoutDigest : RequestDigest
  holdoutCount : ℕ
  sorted : failures.Pairwise fun a b => a.id < b.id
  digest_eq : holdoutDigest = digestFailures sha (failures.filter isHoldout)
  count_eq : holdoutCount = (failures.filter isHoldout).length

/-- The first failure with the identifier of the next one. -/
def firstDuplicate : List FailureEvidence → Option FailureId
  | a :: b :: failures => if a.id = b.id then some a.id else firstDuplicate (b :: failures)
  | _ => none

theorem sorted_of_firstDuplicate : ∀ {failures : List FailureEvidence},
    (failures.Pairwise fun a b => a.id ≤ b.id) → firstDuplicate failures = none →
      failures.Pairwise fun a b => a.id < b.id
  | [], _, _ => .nil
  | [_], _, _ => List.pairwise_singleton _ _
  | a :: b :: failures, hle, hnone => by
    unfold firstDuplicate at hnone
    split_ifs at hnone with hne
    obtain ⟨ha, hle⟩ := List.pairwise_cons.mp hle
    have hrest := sorted_of_firstDuplicate hle hnone
    refine List.pairwise_cons.mpr ⟨fun c hc => ?_, hrest⟩
    have hab : a.id < b.id := lt_of_le_of_ne (ha b List.mem_cons_self) hne
    rcases List.mem_cons.mp hc with rfl | hc
    · exact hab
    · exact hab.trans ((List.pairwise_cons.mp hrest).1 c hc)

instance : Std.Total fun a b : FailureEvidence => a.id ≤ b.id := ⟨fun a b => le_total a.id b.id⟩

instance : IsTrans FailureEvidence fun a b => a.id ≤ b.id := ⟨fun _ _ _ => le_trans⟩

def FailureCorpus.new (failures : List FailureEvidence) :
    Except PopulationContractError (FailureCorpus sha) :=
  if maxFailures < failures.length then .error .tooManyFailures
  else
    let failures := failures.insertionSort fun a b => a.id ≤ b.id
    match hduplicate : firstDuplicate failures with
    | some id => .error (.duplicateFailure id)
    | none => .ok
      { failures := failures
        holdoutDigest := digestFailures sha (failures.filter isHoldout)
        holdoutCount := (failures.filter isHoldout).length
        sorted := sorted_of_firstDuplicate (List.pairwise_insertionSort _ _) hduplicate
        digest_eq := rfl
        count_eq := rfl }

/-! ## Batches -/

structure MutationBatch where
  category : String
  failures : List FailureEvidence
  contextBytes : ℕ
  digest : RequestDigest

abbrev Groups := SortedMap String (List FailureEvidence)

/-- `groups.entry(category).or_default().push(failure)`. -/
def pushFailure (groups : Groups) (failure : FailureEvidence) : Groups :=
  groups.alter failure.category.text fun group => group.getD [] ++ [failure]

/-- `max_by` of two groups: the second, unless the first is larger, or as large and its name comes
first. -/
def larger (left right : String × List FailureEvidence) : String × List FailureEvidence :=
  if right.2.length < left.2.length ∨ left.2.length = right.2.length ∧ left.1 < right.1 then left
  else right

def selectedCategory (groups : Groups) : String :=
  match groups.entries with
  | [] => ""
  | group :: rest => (rest.foldl larger group).1

/-- The failures of the group that fit, and their bytes. -/
def takeBatch (maxFailures maxBytes : ℕ) : ℕ → ℕ → List FailureEvidence →
    List FailureEvidence × ℕ
  | _, bytes, [] => ([], bytes)
  | taken, bytes, failure :: group =>
    if maxFailures ≤ taken then ([], bytes)
    else
      match checkedAdd bytes failure.contextBytes with
      | none => ([], bytes)
      | some next =>
        if maxBytes < next then ([], bytes)
        else
          let rest := takeBatch maxFailures maxBytes (taken + 1) next group
          (failure :: rest.1, rest.2)

def FailureCorpus.groups {sha : Sha256} (corpus : FailureCorpus sha) (eligible : List FailureId) :
    Groups :=
  (corpus.failures.filter fun failure =>
    isTraining failure && decide (failure.id ∈ OrderedSet.ofList eligible)).foldl
      pushFailure SortedMap.empty

def FailureCorpus.mutationBatch {sha : Sha256} (corpus : FailureCorpus sha)
    (eligible : List FailureId) (maxFailures maxBytes : ℕ) : MutationBatch :=
  let groups := corpus.groups eligible
  let category := selectedCategory groups
  let (failures, contextBytes) := match groups.get? category with
    | some group => takeBatch maxFailures maxBytes 0 0 group
    | none => ([], 0)
  { category := category
    failures := failures
    contextBytes := contextBytes
    digest := digestFailures sha failures }

end Pandora.Population
