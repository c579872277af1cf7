import Pandora.Lib.Separators
import Pandora.Population.Failures

/-! # Plans of mutations

`plan` of `strategies/population.rs`, and what the failures of a corpus have to do with it. The
training failures alone decide on parents, scores, batches and quotas (`plan_congr`), and a batch
has failures of the largest group, within both limits (`BatchSpec`). The digest of a batch, or of
the failures held out, joins identifiers and digests that may have the separators inside. -/

namespace Pandora.Population

open List
open Effect.Profile (digestText)
open Ids Lib.Checked Lib.Codes Lib.OrderedSets
open Lib.Separators Lib.SortedMaps Text

inductive StrategyProfile
  | production | research
deriving DecidableEq

inductive PopulationStrategyError
  | disabledInProduction
  | emptyPopulation
  | candidateLimitExceeded
  | generationLimitExceeded
  | candidateGenerationAhead (artifactId : ArtifactId)
  | parentLimitExceeded (artifactId : ArtifactId)
  | noViableCandidates

structure MutationLimits where
  (maxFailuresPerBatch maxBatchBytes maxMutationsPerParent : ℕ)
  failures_pos : 0 < maxFailuresPerBatch
  bytes_pos : 0 < maxBatchBytes
  mutations_pos : 0 < maxMutationsPerParent

/-- What a plan reads of the policy. -/
structure PopulationPolicy where
  (maxCandidates maxParents : ℕ)
  maxGenerations : UInt32
  maxEvaluations : ℕ
  mutation : MutationLimits
  noveltyWeightBasisPoints : UInt32
  candidates_pos : 0 < maxCandidates
  parents_pos : 0 < maxParents
  parents_le : maxParents ≤ maxCandidates
  generations_pos : 0 < maxGenerations
  evaluations_pos : 0 < maxEvaluations
  novelty_pos : 0 < noveltyWeightBasisPoints
  novelty_le : noveltyWeightBasisPoints ≤ 10000

structure PopulationCandidate where
  artifactId : ArtifactId
  parents : List ArtifactId
  generation : UInt32
  score : UInt8
  viable : Bool
  childCount : UInt32
  evaluationDigest : RequestDigest
  trainingFailures : List FailureId

structure PopulationScope where
  populationId : PopulationId
  tenantId : TenantId
  workspaceId : WorkspaceId
  sessionId : SessionId

structure CandidatePopulation where
  scope : PopulationScope
  generation : UInt32
  candidates : List PopulationCandidate

structure PopulationParentPlan where
  artifactId : ArtifactId
  (selectionScore noveltyScore : ℕ)
  mutationBatch : MutationBatch
  plannedMutations : ℕ

structure PopulationPlan where
  populationId : PopulationId
  (startingGeneration nextGeneration : UInt32)
  (populationDigest holdoutDigest : RequestDigest)
  holdoutCount : ℕ
  parents : List PopulationParentPlan
  plannedCandidates : ℕ
  planDigest : RequestDigest

variable {sha : Sha256}

/-! ## The plan -/

def validatePopulation (profile : StrategyProfile) (policy : PopulationPolicy)
    (population : CandidatePopulation) : Except PopulationStrategyError Unit := do
  ensure (profile ≠ .production) .disabledInProduction
  ensure (¬ population.candidates.isEmpty) .emptyPopulation
  ensure (population.candidates.length ≤ policy.maxCandidates) .candidateLimitExceeded
  ensure (population.generation < policy.maxGenerations) .generationLimitExceeded
  population.candidates.forM fun candidate => do
    ensure (candidate.generation ≤ population.generation)
      (.candidateGenerationAhead candidate.artifactId)
    ensure (candidate.parents.length ≤ policy.maxParents)
      (.parentLimitExceeded candidate.artifactId)

/-- A candidate with its scores. -/
structure Ranked where
  candidate : PopulationCandidate
  (selectionScore noveltyScore : ℕ)

def rank (policy : PopulationPolicy) (candidate : PopulationCandidate) : Ranked :=
  let noveltyScore := policy.noveltyWeightBasisPoints.toNat / (candidate.childCount.toNat + 1)
  ⟨candidate, candidate.score.toNat * 10000 + noveltyScore, noveltyScore⟩

/-- The order of the ranking. -/
def rankedBefore (left right : Ranked) : Prop :=
  right.selectionScore < left.selectionScore ∨ right.selectionScore = left.selectionScore ∧
    left.candidate.artifactId ≤ right.candidate.artifactId

instance : DecidableRel rankedBefore := fun _ _ => instDecidableOr

def ranking (policy : PopulationPolicy) (population : CandidatePopulation) : List Ranked :=
  (((population.candidates.filter (·.viable)).map (rank policy)).insertionSort rankedBefore).take
    policy.maxParents

/-- The loop over the parents, with the number of candidates that remain. -/
def planParents (corpus : FailureCorpus sha) (mutation : MutationLimits) :
    ℕ → List Ranked → List PopulationParentPlan
  | _, [] => []
  | remaining, ranked :: rest =>
    let batch := corpus.mutationBatch ranked.candidate.trainingFailures
      mutation.maxFailuresPerBatch mutation.maxBatchBytes
    let planned := min (min batch.failures.length mutation.maxMutationsPerParent) remaining
    { artifactId := ranked.candidate.artifactId
      selectionScore := ranked.selectionScore
      noveltyScore := ranked.noveltyScore
      mutationBatch := batch
      plannedMutations := planned } :: planParents corpus mutation (remaining - planned) rest

def digestPopulation (sha : Sha256) (population : CandidatePopulation) : RequestDigest :=
  sha256Digest sha (bigEndian 2 1 ++ digestText population.scope.populationId.text ++
    digestText population.scope.tenantId.text ++ digestText population.scope.workspaceId.text ++
    digestText population.scope.sessionId.text ++ bigEndian 4 population.generation.toNat ++
    bigEndian 8 population.candidates.length ++ population.candidates.flatMap fun candidate =>
      digestText candidate.artifactId.text ++ bigEndian 4 candidate.generation.toNat ++
      [candidate.score, if candidate.viable then 1 else 0] ++
      bigEndian 4 candidate.childCount.toNat ++ digestText candidate.evaluationDigest.text ++
      bigEndian 8 candidate.parents.length ++
      (candidate.parents.flatMap fun parent => digestText parent.text) ++
      bigEndian 8 candidate.trainingFailures.length ++
      candidate.trainingFailures.flatMap fun failure => digestText failure.text)

def digestPlan (sha : Sha256) (populationId : PopulationId)
    (populationDigest holdoutDigest : RequestDigest) (holdoutCount : ℕ) (nextGeneration : UInt32)
    (plannedCandidates : ℕ) (parents : List PopulationParentPlan) : RequestDigest :=
  sha256Digest sha (bigEndian 2 1 ++ digestText populationId.text ++
    digestText populationDigest.text ++ digestText holdoutDigest.text ++
    bigEndian 8 holdoutCount ++ bigEndian 4 nextGeneration.toNat ++
    bigEndian 8 plannedCandidates ++ bigEndian 8 parents.length ++ parents.flatMap fun parent =>
      digestText parent.artifactId.text ++ bigEndian 8 parent.selectionScore ++
      bigEndian 8 parent.noveltyScore ++ digestText parent.mutationBatch.digest.text ++
      bigEndian 8 parent.plannedMutations)

def plan (profile : StrategyProfile) (policy : PopulationPolicy)
    (population : CandidatePopulation) (corpus : FailureCorpus sha) :
    Except PopulationStrategyError PopulationPlan := do
  validatePopulation profile policy population
  let ranked := ranking policy population
  ensure (population.candidates.any (·.viable)) .noViableCandidates
  let populationDigest := digestPopulation sha population
  let remaining := min (policy.maxCandidates - ranked.length) policy.maxEvaluations
  let parents := planParents corpus policy.mutation remaining ranked
  let plannedCandidates := (parents.map (·.plannedMutations)).sum
  let nextGeneration := population.generation + 1
  pure
    { populationId := population.scope.populationId
      startingGeneration := population.generation
      nextGeneration := nextGeneration
      populationDigest := populationDigest
      holdoutDigest := corpus.holdoutDigest
      holdoutCount := corpus.holdoutCount
      parents := parents
      plannedCandidates := plannedCandidates
      planDigest := digestPlan sha population.scope.populationId populationDigest
        corpus.holdoutDigest corpus.holdoutCount nextGeneration plannedCandidates parents }

/-! ## Holdout failures do not matter -/

/-- The training failures are the same. -/
def SameTraining (corpus corpus' : FailureCorpus sha) : Prop :=
  ∀ failure : FailureEvidence, failure.partition = .training →
    (failure ∈ corpus.failures ↔ failure ∈ corpus'.failures)

theorem eq_of_sorted {l l' : List FailureEvidence} (hl : l.Pairwise fun a b => a.id < b.id)
    (hl' : l'.Pairwise fun a b => a.id < b.id) (h : ∀ failure, failure ∈ l ↔ failure ∈ l') :
    l = l' := by
  have hnodup : ∀ {l : List FailureEvidence}, (l.Pairwise fun a b => a.id < b.id) → l.Nodup :=
    fun h => h.imp fun hlt heq => absurd hlt (by rw [heq]; exact lt_irrefl _)
  exact ((perm_ext_iff_of_nodup (hnodup hl) (hnodup hl')).mpr h).eq_of_pairwise
    (fun _ _ _ _ hab hba => absurd hab hba.asymm) hl hl'

variable {corpus corpus' : FailureCorpus sha}

theorem training_eq (h : SameTraining corpus corpus') :
    corpus.failures.filter isTraining = corpus'.failures.filter isTraining := by
  refine eq_of_sorted (corpus.sorted.filter _) (corpus'.sorted.filter _) fun failure => ?_
  simp only [mem_filter, isTraining, decide_eq_true_eq]
  exact and_congr_left fun htraining => h failure htraining

/-- The eligible training failures. -/
def eligibleFailures (corpus : FailureCorpus sha) (eligible : List FailureId) :
    List FailureEvidence :=
  corpus.failures.filter fun failure =>
    isTraining failure && decide (failure.id ∈ OrderedSet.ofList eligible)

theorem eligible_congr (h : SameTraining corpus corpus')
    (eligible : List FailureId) :
    eligibleFailures corpus eligible = eligibleFailures corpus' eligible := by
  have hfilter : ∀ corpus : FailureCorpus sha, eligibleFailures corpus eligible =
      (corpus.failures.filter isTraining).filter
        fun failure => decide (failure.id ∈ OrderedSet.ofList eligible) := by
    intro corpus
    unfold eligibleFailures
    rw [filter_filter]
    exact filter_congr fun failure _ => Bool.and_comm _ _
  rw [hfilter, hfilter, training_eq h]

theorem mutationBatch_congr (h : SameTraining corpus corpus')
    (eligible : List FailureId) (maxFailures maxBytes : ℕ) :
    corpus.mutationBatch eligible maxFailures maxBytes =
      corpus'.mutationBatch eligible maxFailures maxBytes := by
  have hgroups : corpus.groups eligible = corpus'.groups eligible :=
    congrArg (List.foldl pushFailure SortedMap.empty) (eligible_congr h eligible)
  unfold FailureCorpus.mutationBatch
  rw [hgroups]

theorem planParents_congr (h : SameTraining corpus corpus')
    (mutation : MutationLimits) : ∀ (ranked : List Ranked) (remaining : ℕ),
    planParents corpus mutation remaining ranked = planParents corpus' mutation remaining ranked
  | [], _ => rfl
  | ranked :: rest, remaining => by
    unfold planParents
    simp only [mutationBatch_congr h, planParents_congr h mutation rest]

/-- What a plan says besides the digests that bind the failures held out. -/
def PopulationPlan.steering (p : PopulationPlan) : List PopulationParentPlan × ℕ × UInt32 :=
  (p.parents, p.plannedCandidates, p.nextGeneration)

/-- **Failures held out do not steer a plan.** -/
theorem plan_congr (profile : StrategyProfile) (policy : PopulationPolicy)
    (population : CandidatePopulation)
    (h : SameTraining corpus corpus') :
    (plan profile policy population corpus).map PopulationPlan.steering =
      (plan profile policy population corpus').map PopulationPlan.steering := by
  unfold plan
  simp only [planParents_congr h]
  rcases validatePopulation profile policy population with error | ⟨⟩
  · rfl
  · rw [ok_bind, ok_bind]
    rcases ensure (population.candidates.any (·.viable))
      PopulationStrategyError.noViableCandidates with error | ⟨⟩
    · rfl
    · rfl

/-! ## What is in a batch -/

theorem getD_pushFailure (groups : Groups) (failure : FailureEvidence) (category : String) :
    ((pushFailure groups failure).get? category).getD [] =
      (groups.get? category).getD [] ++
        [failure].filter fun failure => failure.category.text = category := by
  unfold pushFailure
  rw [SortedMap.get?_alter]
  by_cases hcategory : category = failure.category.text
  · subst hcategory
    simp
  · simp [if_neg hcategory, Ne.symm hcategory]

theorem getD_foldl_push (category : String) : ∀ (failures : List FailureEvidence)
    (groups : Groups), ((failures.foldl pushFailure groups).get? category).getD [] =
      (groups.get? category).getD [] ++
        failures.filter fun failure => failure.category.text = category
  | [], _ => by simp
  | failure :: failures, groups => by
    rw [foldl_cons, getD_foldl_push category failures, getD_pushFailure, append_assoc,
      ← filter_append, singleton_append]

/-- The eligible training failures of the category. -/
def inCategory (corpus : FailureCorpus sha) (eligible : List FailureId) (category : String) :
    List FailureEvidence :=
  (eligibleFailures corpus eligible).filter fun failure => failure.category.text = category

theorem getD_groups (corpus : FailureCorpus sha) (eligible : List FailureId) (category : String) :
    ((corpus.groups eligible).get? category).getD [] = inCategory corpus eligible category :=
  getD_foldl_push category _ SortedMap.empty

theorem foldl_larger : ∀ (rest : List (String × List FailureEvidence))
    (first : String × List FailureEvidence), rest.foldl larger first ∈ first :: rest ∧
      ∀ group ∈ first :: rest, group.2.length ≤ (rest.foldl larger first).2.length
  | [], first => ⟨mem_cons_self, by simp⟩
  | second :: rest, first => by
    obtain ⟨hmem, hle⟩ := foldl_larger rest (larger first second)
    have hlarger : (larger first second = first ∨ larger first second = second) ∧
        first.2.length ≤ (larger first second).2.length ∧
        second.2.length ≤ (larger first second).2.length := by
      unfold larger
      split_ifs with hcase
      · exact ⟨Or.inl rfl, le_rfl, by omega⟩
      · refine ⟨Or.inr rfl, ?_, le_rfl⟩
        rw [not_or] at hcase
        omega
    rw [foldl_cons]
    refine ⟨?_, fun group hgroup => ?_⟩
    · rcases mem_cons.mp hmem with hmem | hmem
      · rw [hmem]
        rcases hlarger.1 with h | h
        · rw [h]
          exact mem_cons_self
        · rw [h]
          exact mem_cons_of_mem _ mem_cons_self
      · exact mem_cons_of_mem _ (mem_cons_of_mem _ hmem)
    · have hbest := hle (larger first second) mem_cons_self
      rcases mem_cons.mp hgroup with rfl | hgroup
      · exact hlarger.2.1.trans hbest
      · rcases mem_cons.mp hgroup with rfl | hgroup
        · exact hlarger.2.2.trans hbest
        · exact hle group (mem_cons_of_mem _ hgroup)

theorem length_le_selected (groups : Groups) (category : String) :
    ((groups.get? category).getD []).length ≤
      ((groups.get? (selectedCategory groups)).getD []).length := by
  rcases hget : groups.get? category with _ | group
  · exact Nat.zero_le _
  · have hmem := SortedMap.get?_eq_some.mp hget
    unfold selectedCategory
    rcases hentries : groups.entries with _ | ⟨first, rest⟩
    · rw [hentries] at hmem
      cases hmem
    · obtain ⟨hbest, hle⟩ := foldl_larger rest first
      rw [← hentries] at hbest hle
      dsimp only
      rw [SortedMap.get?_eq_some.mpr hbest]
      exact hle (category, group) hmem

theorem takeBatch_spec (maxFailures maxBytes : ℕ) : ∀ (group : List FailureEvidence)
    (taken bytes : ℕ), taken ≤ maxFailures → bytes ≤ maxBytes →
    (takeBatch maxFailures maxBytes taken bytes group).1 <+: group ∧
      taken + (takeBatch maxFailures maxBytes taken bytes group).1.length ≤ maxFailures ∧
      (takeBatch maxFailures maxBytes taken bytes group).2 = bytes +
        ((takeBatch maxFailures maxBytes taken bytes group).1.map
          FailureEvidence.contextBytes).sum ∧
      (takeBatch maxFailures maxBytes taken bytes group).2 ≤ maxBytes
  | [], taken, bytes, htaken, hbytes => ⟨List.nil_prefix, htaken, rfl, hbytes⟩
  | failure :: group, taken, bytes, htaken, hbytes => by
    have hstop : ([], bytes).1 <+: failure :: group ∧
        taken + ([] : List FailureEvidence).length ≤ maxFailures ∧
        bytes = bytes + (([] : List FailureEvidence).map FailureEvidence.contextBytes).sum ∧
        bytes ≤ maxBytes := ⟨List.nil_prefix, htaken, rfl, hbytes⟩
    unfold takeBatch
    split_ifs with hfull
    · exact hstop
    · rcases hnext : checkedAdd bytes failure.contextBytes with _ | next
      · exact hstop
      · dsimp only
        split_ifs with hlong
        · exact hstop
        · obtain ⟨hfront, hlength, hsum, hle⟩ :=
            takeBatch_spec maxFailures maxBytes group (taken + 1) next (by omega) (by omega)
          have hadd := (checkedAdd_eq_some.mp hnext).2
          refine ⟨cons_prefix_cons.mpr ⟨rfl, hfront⟩, ?_, ?_, hle⟩
          · rw [length_cons]
            omega
          · rw [map_cons, sum_cons]
            omega

/-- What a batch may have. -/
structure BatchSpec (corpus : FailureCorpus sha) (eligible : List FailureId)
    (maxFailures maxBytes : ℕ) (batch : MutationBatch) : Prop where
  once : batch.failures.Sublist corpus.failures
  members : ∀ failure ∈ batch.failures, failure.partition = .training ∧ failure.id ∈ eligible ∧
    failure.category.text = batch.category
  largest : ∀ category, (inCategory corpus eligible category).length ≤
    (inCategory corpus eligible batch.category).length
  count : batch.failures.length ≤ maxFailures
  bytes : batch.contextBytes = (batch.failures.map FailureEvidence.contextBytes).sum ∧
    batch.contextBytes ≤ maxBytes
  digest : batch.digest = digestFailures sha batch.failures

theorem mutationBatch_spec (corpus : FailureCorpus sha) (eligible : List FailureId)
    (maxFailures maxBytes : ℕ) : BatchSpec corpus eligible maxFailures maxBytes
      (corpus.mutationBatch eligible maxFailures maxBytes) := by
  set category := selectedCategory (corpus.groups eligible) with hcategory
  have hbatch : corpus.mutationBatch eligible maxFailures maxBytes =
      let taken := takeBatch maxFailures maxBytes 0 0 (inCategory corpus eligible category)
      ⟨category, taken.1, taken.2, digestFailures sha taken.1⟩ := by
    unfold FailureCorpus.mutationBatch
    dsimp only
    rw [← getD_groups, ← hcategory]
    rcases (corpus.groups eligible).get? category with _ | group
    · rfl
    · rfl
  obtain ⟨hfront, hlength, hsum, hle⟩ := takeBatch_spec maxFailures maxBytes
    (inCategory corpus eligible category) 0 0 (Nat.zero_le _) (Nat.zero_le _)
  rw [hbatch]
  refine ⟨hfront.sublist.trans (filter_sublist.trans filter_sublist),
    fun failure hfailure => ?_, fun other => ?_, by rwa [Nat.zero_add] at hlength,
    ⟨by rwa [Nat.zero_add] at hsum, hle⟩, rfl⟩
  · obtain ⟨hmem, hkind⟩ := mem_filter.mp (hfront.subset hfailure)
    have hkept := (mem_filter.mp hmem).2
    rw [Bool.and_eq_true, decide_eq_true_eq, OrderedSet.mem_ofList] at hkept
    exact ⟨of_decide_eq_true hkept.1, hkept.2, of_decide_eq_true hkind⟩
  · rw [← getD_groups, ← getD_groups]
    exact length_le_selected (corpus.groups eligible) other

theorem mem_planParents {mutation : MutationLimits}
    {parent : PopulationParentPlan} : ∀ {ranked : List Ranked} {remaining : ℕ},
    parent ∈ planParents corpus mutation remaining ranked →
      ∃ r ∈ ranked, parent.artifactId = r.candidate.artifactId ∧
        parent.mutationBatch = corpus.mutationBatch r.candidate.trainingFailures
          mutation.maxFailuresPerBatch mutation.maxBatchBytes
  | [], _, h => absurd h not_mem_nil
  | ranked :: rest, remaining, h => by
    unfold planParents at h
    rcases mem_cons.mp h with rfl | h
    · exact ⟨ranked, mem_cons_self, rfl, rfl⟩
    · obtain ⟨r, hr, hparent⟩ := mem_planParents h
      exact ⟨r, mem_cons_of_mem _ hr, hparent⟩

theorem mem_ranking {policy : PopulationPolicy} {population : CandidatePopulation} {r : Ranked}
    (h : r ∈ ranking policy population) : r.candidate ∈ population.candidates := by
  have hmem := (mem_insertionSort rankedBefore).mp (mem_of_mem_take h)
  obtain ⟨candidate, hcandidate, rfl⟩ := mem_map.mp hmem
  exact (mem_filter.mp hcandidate).1

theorem plan_batches {profile : StrategyProfile} {policy : PopulationPolicy}
    {population : CandidatePopulation} {p : PopulationPlan}
    (h : plan profile policy population corpus = .ok p) : ∀ parent ∈ p.parents,
    ∃ candidate ∈ population.candidates, parent.artifactId = candidate.artifactId ∧
      BatchSpec corpus candidate.trainingFailures policy.mutation.maxFailuresPerBatch
        policy.mutation.maxBatchBytes parent.mutationBatch := by
  unfold plan at h
  simp only [bind_eq_ok, pure_eq_ok] at h
  obtain ⟨_, -, _, -, rfl⟩ := h
  intro parent hparent
  obtain ⟨r, hr, hartifact, hbatch⟩ := mem_planParents hparent
  refine ⟨r.candidate, mem_ranking hr, hartifact, ?_⟩
  rw [hbatch]
  exact mutationBatch_spec _ _ _ _

/-! ## What the digests bind -/

/-- The fields that are hashed. -/
def bound (failure : FailureEvidence) :
    FailureId × String × String × RequestDigest × FailurePartition :=
  (failure.id, failure.category.text, failure.redactedSummary.text, failure.evidenceDigest,
    failure.partition)

/-- The partition, and the numbers of separators in the identifier and in the digest. -/
def separators (failure : FailureEvidence) : FailurePartition × ℕ × ℕ :=
  (failure.partition, failure.id.text.toList.count '\x00',
    failure.evidenceDigest.text.toList.count failure.partition.mark)

theorem count_plain (text : PlainText) : text.text.toList.count '\x00' = 0 := by
  rw [count_eq_zero]
  intro hmem
  have hplain := any_eq_false.mp text.plain _ hmem
  exact hplain (by decide)

theorem ended_inj {a b : String} {mark : Char} {s t : List Char}
    (hcount : a.toList.count mark = b.toList.count mark)
    (h : ended a mark ++ s = ended b mark ++ t) : a = b ∧ s = t := by
  unfold ended at h
  rw [append_assoc, append_assoc] at h
  obtain ⟨hab, hst⟩ := counted_inj hcount h
  exact ⟨String.toList_inj.mp hab, hst⟩

theorem failureText_inj {a b : FailureEvidence} {s t : List Char}
    (hseparators : separators a = separators b) (h : failureText a ++ s = failureText b ++ t) :
    bound a = bound b ∧ s = t := by
  obtain ⟨hpartition, hid, hdigest⟩ : a.partition = b.partition ∧
      a.id.text.toList.count '\x00' = b.id.text.toList.count '\x00' ∧
      a.evidenceDigest.text.toList.count a.partition.mark =
        b.evidenceDigest.text.toList.count b.partition.mark := by
    unfold separators at hseparators
    simpa only [Prod.mk.injEq] using hseparators
  have hplain : ∀ text text' : PlainText, text.text.toList.count '\x00' =
      text'.text.toList.count '\x00' := fun text text' => by rw [count_plain, count_plain]
  unfold failureText at h
  simp only [append_assoc] at h
  obtain ⟨hidText, h⟩ := ended_inj hid h
  obtain ⟨hcategory, h⟩ := ended_inj (hplain _ _) h
  obtain ⟨hsummary, h⟩ := ended_inj (hplain _ _) h
  rw [hpartition] at hdigest h
  obtain ⟨hdigestText, hst⟩ := ended_inj hdigest h
  refine ⟨?_, hst⟩
  unfold bound
  rw [Id.ext_text hidText, hcategory, hsummary, Id.ext_text hdigestText, hpartition]

theorem map_bound_inj : ∀ {l l' : List FailureEvidence}, l.map separators = l'.map separators →
    l.flatMap failureText = l'.flatMap failureText → l.map bound = l'.map bound
  | [], [], _, _ => rfl
  | [], _ :: _, hseparators, _ => by cases hseparators
  | _ :: _, [], hseparators, _ => by cases hseparators
  | a :: l, b :: l', hseparators, h => by
    rw [map_cons, map_cons, List.cons.injEq] at hseparators
    rw [flatMap_cons, flatMap_cons] at h
    obtain ⟨hab, hrest⟩ := failureText_inj hseparators.1 h
    rw [map_cons, map_cons, hab, map_bound_inj hseparators.2 hrest]

theorem flatMap_of_failuresText {l l' : List FailureEvidence}
    (h : failuresText l = failuresText l') : l.flatMap failureText = l'.flatMap failureText := by
  have hlist := String.ofList_injective h
  rw [List.cons.injEq, List.cons.injEq] at hlist
  exact hlist.2.2

/-- No separator in the identifier and in the digest. -/
def Unambiguous (p : FailurePartition) (failure : FailureEvidence) : Prop :=
  separators failure = (p, 0, 0)

/-- Failures of one partition without separators are determined by the text. -/
theorem bound_of_unambiguous {p : FailurePartition} {l l' : List FailureEvidence}
    (hl : ∀ failure ∈ l, Unambiguous p failure) (hl' : ∀ failure ∈ l', Unambiguous p failure)
    (h : failuresText l = failuresText l') : l.map bound = l'.map bound := by
  have hequal := forall₂_of_flatMap (R := fun a b => bound a = bound b)
    (fun a b ha hb s t hab => failureText_inj (ha.trans hb.symm) hab)
    (fun failure => by unfold failureText ended; simp) hl hl' (flatMap_of_failuresText h)
  rw [← forall₂_eq_eq_eq, forall₂_map_left_iff, forall₂_map_right_iff]
  exact hequal

theorem map_separators_of_bound : ∀ {l l' : List FailureEvidence}, l.map bound = l'.map bound →
    l.map separators = l'.map separators
  | [], [], _ => rfl
  | [], _ :: _, h => by cases h
  | _ :: _, [], h => by cases h
  | a :: l, b :: l', h => by
    rw [map_cons, map_cons, List.cons.injEq] at h
    have hfirst : separators a = separators b := by
      have hbound := h.1
      unfold bound at hbound
      simp only [Prod.mk.injEq] at hbound
      unfold separators
      rw [hbound.1, hbound.2.2.2.1, hbound.2.2.2.2]
    rw [map_cons, map_cons, hfirst, map_separators_of_bound h.2]

theorem sha256Digest_inj {a b : List UInt8} :
    sha256Digest sha a = sha256Digest sha b ↔ sha a = sha b := by
  constructor
  · intro h
    have htext := congrArg Id.text h
    unfold sha256Digest at htext
    exact Bytes32.ext_bytes (hex_inj ((String.append_right_inj _).mp htext))
  · intro h
    refine Id.ext_text ?_
    exact congrArg (fun hash : Bytes32 => "sha256:" ++ hex hash.bytes) h

/-- **Holdout evidence and mutation.** Failures held out do not steer a plan; a batch has failures
of the largest group, within its limits; and without a collision of the hash, equal digests mean
equal failures exactly if the separators in identifiers and digests are as many, one by one, where
the texts are the same. -/
theorem holdout_iff (sha : Sha256) :
    (∀ profile policy population, ∀ corpus corpus' : FailureCorpus sha,
      SameTraining corpus corpus' → (plan profile policy population corpus).map
        PopulationPlan.steering = (plan profile policy population corpus').map
          PopulationPlan.steering) ∧
    (∀ profile policy population, ∀ corpus : FailureCorpus sha, ∀ p,
      plan profile policy population corpus = .ok p → ∀ parent ∈ p.parents,
        ∃ candidate ∈ population.candidates, parent.artifactId = candidate.artifactId ∧
          BatchSpec corpus candidate.trainingFailures policy.mutation.maxFailuresPerBatch
            policy.mutation.maxBatchBytes parent.mutationBatch) ∧
    (∀ corpus : FailureCorpus sha,
      corpus.holdoutDigest = digestFailures sha (corpus.failures.filter isHoldout)) ∧
    ∀ l l' : List FailureEvidence,
      (sha (asBytes (failuresText l)) = sha (asBytes (failuresText l')) →
        failuresText l = failuresText l') →
      ((digestFailures sha l = digestFailures sha l' → l.map bound = l'.map bound) ↔
        (failuresText l = failuresText l' → l.map separators = l'.map separators)) ∧
      ∀ p, (∀ failure ∈ l ++ l', Unambiguous p failure) →
        digestFailures sha l = digestFailures sha l' → l.map bound = l'.map bound := by
  refine ⟨fun profile policy population _ _ h => plan_congr profile policy population h,
    fun _ _ _ _ _ h => plan_batches h, fun corpus => corpus.digest_eq, fun l l' hsha => ?_⟩
  have hdigest : digestFailures sha l = digestFailures sha l' ↔
      failuresText l = failuresText l' :=
    sha256Digest_inj.trans ⟨hsha, fun h => by rw [h]⟩
  rw [hdigest]
  refine ⟨⟨fun hbinds htext => map_separators_of_bound (hbinds htext), fun hseparators htext =>
    map_bound_inj (hseparators htext) (flatMap_of_failuresText htext)⟩, fun p hplain htext => ?_⟩
  rw [forall_mem_append] at hplain
  exact bound_of_unambiguous hplain.1 hplain.2 htext

/-! ### One text of two batches -/

/-- SHA-256 of the three texts below, by their lengths. -/
def sampleSha : Sha256 := fun message =>
  if message.length = 18 then
    ⟨[26, 135, 81, 96, 93, 29, 106, 42, 7, 118, 216, 97, 103, 64, 157, 161, 26, 68, 218, 165, 103,
      88, 138, 228, 93, 122, 207, 243, 221, 214, 204, 1], rfl⟩
  else if message.length = 10 then
    ⟨[14, 191, 77, 207, 149, 128, 173, 90, 110, 104, 1, 147, 101, 195, 211, 126, 111, 212, 153, 236,
      67, 163, 21, 43, 121, 142, 163, 244, 169, 120, 49, 110], rfl⟩
  else
    ⟨[180, 19, 244, 125, 19, 238, 47, 230, 200, 69, 178, 238, 20, 26, 248, 29, 232, 88, 223, 78,
      197, 73, 165, 139, 121, 112, 187, 150, 100, 91, 200, 210], rfl⟩

def sampleFailure (id digest : String)
    (hid : ¬ (trim id).isEmpty ∧ id.utf8ByteSize ≤ 256)
    (hdigest : ¬ (trim digest).isEmpty ∧ digest.utf8ByteSize ≤ 256) : FailureEvidence where
  id := ⟨id, hid.1, hid.2⟩
  partition := .training
  category := ⟨"c", by decide⟩
  redactedSummary := ⟨"s", by decide⟩
  evidenceDigest := ⟨digest, hdigest.1, hdigest.2⟩
  observedAt := 100

def failureA : FailureEvidence := sampleFailure "a" "d" (by decide) (by decide)

def failureB : FailureEvidence := sampleFailure "b" "e" (by decide) (by decide)

/-- The second failure is in the digest of the first. -/
def failureAB : FailureEvidence :=
  sampleFailure "a" "d\x00b\x00c\x00s\x00e" (by decide) (by decide)

def corpusOf (failures : List FailureEvidence) (h : failures.Pairwise fun a b => a.id < b.id) :
    FailureCorpus sampleSha where
  failures := failures
  holdoutDigest := digestFailures sampleSha (failures.filter isHoldout)
  holdoutCount := (failures.filter isHoldout).length
  sorted := h
  digest_eq := rfl
  count_eq := rfl

def twoFailures : FailureCorpus sampleSha := corpusOf [failureA, failureB] (by decide)

def oneFailure : FailureCorpus sampleSha := corpusOf [failureAB] (by decide)

/-- The first failure as it is seen later. -/
def failureLater : FailureEvidence := { failureA with observedAt := 200 }

theorem holdout_sample :
    failureLater ≠ failureA ∧
      digestFailures sampleSha [failureLater] = digestFailures sampleSha [failureA] ∧
      [failureLater].map bound = [failureA].map bound := by
  have hbinds := (holdout_iff sampleSha).2.2.2 [failureLater] [failureA] fun _ => rfl
  refine ⟨by decide, rfl, hbinds.2 .training (fun failure hfailure => ?_) rfl⟩
  have hplain : ∀ failure ∈ [failureLater] ++ [failureA],
      separators failure = (.training, 0, 0) := by decide +kernel
  exact hplain failure hfailure

theorem batches_collide :
    FailureCorpus.new sampleSha [failureA, failureB] = .ok twoFailures ∧
      FailureCorpus.new sampleSha [failureAB] = .ok oneFailure ∧
      (twoFailures.mutationBatch [failureA.id, failureB.id] 8 1024).failures =
        [failureA, failureB] ∧
      (oneFailure.mutationBatch [failureAB.id] 8 1024).failures = [failureAB] ∧
      (twoFailures.mutationBatch [failureA.id, failureB.id] 8 1024).digest =
        (oneFailure.mutationBatch [failureAB.id] 8 1024).digest ∧
      [failureA, failureB].map bound ≠ [failureAB].map bound := by
  have htwo : (twoFailures.mutationBatch [failureA.id, failureB.id] 8 1024).failures =
      [failureA, failureB] := by decide +kernel
  have hone : (oneFailure.mutationBatch [failureAB.id] 8 1024).failures = [failureAB] := by
    decide +kernel
  have htext : failuresText [failureA, failureB] = failuresText [failureAB] := by decide +kernel
  refine ⟨rfl, rfl, htwo, hone, ?_, by decide +kernel⟩
  rw [(mutationBatch_spec _ _ _ _).digest, (mutationBatch_spec _ _ _ _).digest, htwo, hone]
  unfold digestFailures
  rw [htext]

end Pandora.Population
