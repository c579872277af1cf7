import Pandora.Ids
import Pandora.Lib.Graphs
import Pandora.Lib.Runs
import Pandora.Lib.SortedMaps

/-! # The artifact catalog

`ArtifactCatalog` of `artifact_catalog.rs`: one row for each activated proposal, and the walk from
an artifact along its replacements, which ends after `maxReplacementDepth` queries. The rows hold
accepted identifiers, so the checks made when they are read do not fail. -/

namespace Pandora.Evolution.Catalog

open Ids Lib.Checked Lib.Graphs Lib.Runs Lib.SortedMaps Relation List

def maxReplacementDepth : ℕ := 64

inductive ArtifactCatalogError
  | corruptRecord | baseAlreadyReplaced | proposalAlreadyActive | proposalNotActive
  | receiptMismatch | replacementHasDependents | replacementCycle
deriving DecidableEq

/-- A row of `artifact_activations`, and a `ReplacementReceipt`. -/
structure ArtifactActivation where
  proposalId : ProposalId
  (baseArtifact candidateArtifact : ArtifactId)
  activatedAt : ℕ
deriving DecidableEq

structure RollbackReceipt where
  proposalId : ProposalId
  restoredArtifact : ArtifactId

abbrev Rows := List ArtifactActivation

variable {rows rows' : Rows} {receipt row : ArtifactActivation} {a b z : ArtifactId} {k : ℕ}

/-- The row of a base artifact, of which there is one at most. -/
def replacement (rows : Rows) (artifact : ArtifactId) : Option ArtifactId :=
  (rows.find? (·.baseArtifact = artifact)).map (·.candidateArtifact)

/-- The loop of `resolve_with_connection`. -/
def resolveFrom (rows : Rows) :
    ℕ → List ArtifactId → ArtifactId → Except ArtifactCatalogError ArtifactId
  | 0, _, _ => .error .replacementCycle
  | n + 1, visited, current =>
    if current ∈ visited then .error .replacementCycle
    else match replacement rows current with
      | none => .ok current
      | some next => resolveFrom rows n (current :: visited) next

def resolve (rows : Rows) (artifact : ArtifactId) : Except ArtifactCatalogError ArtifactId :=
  resolveFrom rows maxReplacementDepth [] artifact

def ensureNoCycle (rows : Rows) (base candidate : ArtifactId) :
    Except ArtifactCatalogError Unit := do
  let resolved ← resolve rows candidate
  ensure (resolved ≠ base) .replacementCycle

def activate (receipt : ArtifactActivation) (rows : Rows) : Except ArtifactCatalogError Rows := do
  ensure (∀ row ∈ rows, row.proposalId ≠ receipt.proposalId) .proposalAlreadyActive
  ensure (∀ row ∈ rows, row.baseArtifact ≠ receipt.baseArtifact) .baseAlreadyReplaced
  ensureNoCycle rows receipt.baseArtifact receipt.candidateArtifact
  ensure (receipt.activatedAt < 2 ^ 63) .corruptRecord
  pure (rows ++ [receipt])

def rollback (receipt : RollbackReceipt) (rows : Rows) : Except ArtifactCatalogError Rows := do
  let activation ← orError (rows.find? (·.proposalId = receipt.proposalId)) .proposalNotActive
  ensure (activation.baseArtifact = receipt.restoredArtifact) .receiptMismatch
  ensure (∀ row ∈ rows, row.baseArtifact ≠ activation.candidateArtifact) .replacementHasDependents
  ensure (rows.countP (·.proposalId = receipt.proposalId) = 1) .corruptRecord
  pure (rows.filter (·.proposalId ≠ receipt.proposalId))

inductive Call
  | activate (receipt : ArtifactActivation)
  | rollback (receipt : RollbackReceipt)

/-- A call that fails leaves its transaction uncommitted. -/
def machine : Machine Rows Call (Except ArtifactCatalogError Unit) where
  step rows call :=
    let written := match call with
      | .activate receipt => Catalog.activate receipt rows
      | .rollback receipt => Catalog.rollback receipt rows
    (written.toOption.getD rows, written.map fun _ => ())

/-! ### Replacements -/

/-- `a` is replaced by `b`. -/
abbrev Replaces (rows : Rows) (a b : ArtifactId) : Prop := replacement rows a = some b

/-- One row for each proposal and each base, and the replacements of every artifact end. -/
structure Exact (rows : Rows) : Prop where
  proposals : (rows.map (·.proposalId)).Nodup
  bases : (rows.map (·.baseArtifact)).Nodup
  ends : ∀ a, ∃ k z, Chain (replacement rows) k a z

theorem replacement_eq_none :
    replacement rows a = none ↔ ∀ row ∈ rows, row.baseArtifact ≠ a := by
  simp [replacement]

theorem replacement_append (hfree : ∀ row ∈ rows, row.baseArtifact ≠ receipt.baseArtifact)
    (a : ArtifactId) : replacement (rows ++ [receipt]) a =
      if a = receipt.baseArtifact then some receipt.candidateArtifact else replacement rows a := by
  unfold replacement
  rw [List.find?_append]
  by_cases ha : a = receipt.baseArtifact
  · have hnone : rows.find? (·.baseArtifact = a) = none := by simpa [ha] using hfree
    rw [hnone, if_pos ha]
    simp [ha]
  · rw [if_neg ha]
    simp [Ne.symm ha]

theorem replacement_filter (hbases : (rows.map (·.baseArtifact)).Nodup)
    (hids : (rows.map (·.proposalId)).Nodup) (hrow : row ∈ rows) (a : ArtifactId) :
    replacement (rows.filter (·.proposalId ≠ row.proposalId)) a =
      if a = row.baseArtifact then none else replacement rows a := by
  have hsame : ∀ other ∈ rows, other.proposalId = row.proposalId ↔
      other.baseArtifact = row.baseArtifact := fun other hother =>
    ⟨fun h => by rw [inj_on_of_nodup_map hids hother hrow h],
      fun h => by rw [inj_on_of_nodup_map hbases hother hrow h]⟩
  rw [filter_congr (q := fun other => other.baseArtifact ≠ row.baseArtifact)
    fun other hother => by simp [hsame other hother], replacement, List.find?_filter]
  split_ifs with ha
  · rw [Option.map_eq_none_iff, List.find?_eq_none]
    intro other _
    simp [ha]
  · unfold replacement
    congr 2
    funext other
    by_cases h : other.baseArtifact = a
    · simp [h, ha]
    · simp [h]

/-! ### Resolution -/

theorem resolveFrom_eq (h : Chain (replacement rows) k a z) : ∀ (n : ℕ) {visited : List ArtifactId},
    (∀ v ∈ visited, ¬ ReflTransGen (Replaces rows) a v) →
      resolveFrom rows n visited a = if k < n then .ok z else .error .replacementCycle := by
  induction h with
  | @tip a hnone =>
    rintro (_ | n) visited hvisited
    · rfl
    · rw [resolveFrom, if_neg fun hmem => hvisited a hmem .refl, hnone, if_pos n.succ_pos]
  | @link k a b z hsome rest ih =>
    rintro (_ | n) visited hvisited
    · rfl
    · rw [resolveFrom, if_neg fun hmem => hvisited a hmem .refl, hsome]
      simp only [Nat.add_lt_add_iff_right]
      refine ih n fun v hv hpath => ?_
      rcases List.mem_cons.mp hv with rfl | hv
      · -- the walk would come back to a node of a chain that ends
        exact (Chain.link hsome rest).no_cycle (.head' hsome hpath)
      · exact hvisited v hv (hpath.head hsome)

theorem resolve_eq (h : Chain (replacement rows) k a z) : resolve rows a =
    if k < maxReplacementDepth then .ok z else .error .replacementCycle :=
  resolveFrom_eq h maxReplacementDepth fun _ hv => absurd hv not_mem_nil

theorem ensureNoCycle_eq_error (h : Chain (replacement rows) k b z)
    (hfree : replacement rows a = none) {e : ArtifactCatalogError} :
    ensureNoCycle rows a b = .error e ↔ (ReflTransGen (Replaces rows) b a ∨
      maxReplacementDepth ≤ k) ∧ .replacementCycle = e := by
  have hpath : z = a ↔ ReflTransGen (Replaces rows) b a := h.last_iff hfree
  rw [ensureNoCycle, bind_eq_error, resolve_eq h, ← hpath]
  split_ifs with hk
  · simp [ensure_eq_error, Nat.not_le.mpr hk]
  · simp [Nat.le_of_not_lt hk]

/-! ### Every run -/

theorem activate_spec (h : Exact rows) (hok : activate receipt rows = .ok rows') :
    rows' = rows ++ [receipt] ∧ Exact rows' ∧
      receipt.baseArtifact ≠ receipt.candidateArtifact ∧
      ∀ row ∈ rows, row.proposalId ≠ receipt.proposalId := by
  simp only [activate, bind_eq_ok, ensure_eq_ok, pure_eq_ok, exists_const] at hok
  obtain ⟨hnew, hfree, _, hcycle, -, rfl⟩ := hok
  obtain ⟨k, z, hchain⟩ := h.ends receipt.candidateArtifact
  have hnone := replacement_eq_none.mpr hfree
  have hz : z ≠ receipt.baseArtifact := by
    intro hz
    have herror := (ensureNoCycle_eq_error hchain hnone).mpr
      ⟨Or.inl ((hchain.last_iff hnone).mp hz), rfl⟩
    cases hcycle.symm.trans herror
  have hsame : ∀ c, c ≠ receipt.baseArtifact →
      replacement (rows ++ [receipt]) c = replacement rows c := fun c hc => by
    rw [replacement_append hfree, if_neg hc]
  refine ⟨rfl, ⟨?_, ?_, fun a => ?_⟩, fun heq => ?_, hnew⟩
  · rw [map_append, map_singleton, nodup_append_comm]
    exact List.nodup_cons.mpr ⟨by simpa using hnew, h.proposals⟩
  · rw [map_append, map_singleton, nodup_append_comm]
    exact List.nodup_cons.mpr ⟨by simpa using hfree, h.bases⟩
  · obtain ⟨_, _, ha⟩ := h.ends a
    -- from the base the chain goes on with the candidate's, which does not meet the base
    refine ha.update ⟨k + 1, z, .link ?_ (hchain.congr hnone hz hsame)⟩ hsame
    rw [replacement_append hfree, if_pos rfl]
  · exact hz ((hchain.last_iff hnone).mpr (heq ▸ .refl))

theorem rollback_spec {receipt : RollbackReceipt} (h : Exact rows)
    (hok : rollback receipt rows = .ok rows') : Exact rows' := by
  simp only [rollback, bind_eq_ok, ensure_eq_ok, orError_eq_ok, pure_eq_ok, exists_const] at hok
  obtain ⟨row, hfind, -, -, -, rfl⟩ := hok
  have hid : row.proposalId = receipt.proposalId := by simpa using List.find?_some hfind
  have hreplaced := replacement_filter h.bases h.proposals (mem_of_find?_eq_some hfind)
  rw [← hid]
  refine ⟨h.proposals.sublist (List.filter_sublist.map _),
    h.bases.sublist (List.filter_sublist.map _), fun a => ?_⟩
  obtain ⟨_, _, ha⟩ := h.ends a
  refine ha.update ⟨0, row.baseArtifact, .tip ?_⟩ fun c hc => ?_
  · rw [hreplaced, if_pos rfl]
  · rw [hreplaced, if_neg hc]

theorem exact_run (calls : List Call) : Exact (machine.run [] calls) := by
  refine machine.run_invariant (fun rows call h => ?_) calls
    ⟨.nil, .nil, fun a => ⟨0, a, .tip rfl⟩⟩
  have hkeeps : ∀ {written : Except ArtifactCatalogError Rows},
      (∀ rows', written = .ok rows' → Exact rows') → Exact (written.toOption.getD rows) := by
    rintro (_ | rows') hwritten
    · exact h
    · exact hwritten rows' rfl
  cases call with
  | activate receipt => exact hkeeps fun rows' hok => (activate_spec h hok).2.1
  | rollback receipt => exact hkeeps fun rows' hok => rollback_spec h hok

/-- A rollback right after the activation undoes it, unless the candidate is replaced itself. -/
theorem rollback_activate (h : Exact rows) (hok : activate receipt rows = .ok rows') :
    rollback ⟨receipt.proposalId, receipt.baseArtifact⟩ rows' =
      if replacement rows receipt.candidateArtifact = none then .ok rows
      else .error .replacementHasDependents := by
  obtain ⟨rfl, h', hne, hnew⟩ := activate_spec h hok
  have hfind := find?_of_nodup h'.proposals
    (mem_append_right rows (mem_singleton_self receipt))
  have hcount : (rows ++ [receipt]).countP (·.proposalId = receipt.proposalId) = 1 := by
    rw [countP_append, List.countP_eq_zero.mpr (by simpa using hnew)]
    simp
  have hfilter : (rows ++ [receipt]).filter (·.proposalId ≠ receipt.proposalId) = rows := by
    rw [filter_append, List.filter_eq_self.mpr (by simpa using hnew)]
    simp
  have hdependents : (∀ row ∈ rows ++ [receipt], row.baseArtifact ≠ receipt.candidateArtifact) ↔
      replacement rows receipt.candidateArtifact = none := by
    simp [replacement_eq_none, or_imp, forall_and, hne]
  rw [rollback, hfind, hcount, hfilter]
  simp only [orError, ok_bind, hdependents, ensure, if_true]
  split_ifs <;> rfl

/-- **Resolution and rollback.** -/
theorem catalog_exact (calls : List Call) :
    let rows := machine.run [] calls
    (rows.map (·.baseArtifact)).Nodup ∧ Acyclic (Replaces rows) ∧
    (∀ a, ∃ k z, Chain (replacement rows) k a z ∧ resolve rows a =
      if k < maxReplacementDepth then .ok z else .error .replacementCycle) ∧
    (∀ receipt : ArtifactActivation, ∃ k z,
      Chain (replacement rows) k receipt.candidateArtifact z ∧
      (activate receipt rows = .error .replacementCycle ↔
        (∀ row ∈ rows, row.proposalId ≠ receipt.proposalId) ∧
        (∀ row ∈ rows, row.baseArtifact ≠ receipt.baseArtifact) ∧
        (ReflTransGen (Replaces rows) receipt.candidateArtifact receipt.baseArtifact ∨
          maxReplacementDepth ≤ k))) ∧
    ∀ (receipt : ArtifactActivation) (rows' : Rows), activate receipt rows = .ok rows' →
      rollback ⟨receipt.proposalId, receipt.baseArtifact⟩ rows' =
        if replacement rows receipt.candidateArtifact = none then .ok rows
        else .error .replacementHasDependents := by
  have h := exact_run calls
  refine ⟨h.bases, fun a => ?_, fun a => ?_, fun receipt => ?_, fun _ _ => rollback_activate h⟩
  · obtain ⟨_, _, ha⟩ := h.ends a
    exact ha.no_cycle
  · obtain ⟨k, z, ha⟩ := h.ends a
    exact ⟨k, z, ha, resolve_eq ha⟩
  · obtain ⟨k, z, hchain⟩ := h.ends receipt.candidateArtifact
    refine ⟨k, z, hchain, ?_⟩
    simp only [activate, bind_eq_error, ensure_eq_error, ensure_eq_ok]
    by_cases hfree : ∀ row ∈ machine.run [] calls, row.baseArtifact ≠ receipt.baseArtifact
    · have hcycle := ensureNoCycle_eq_error (e := .replacementCycle) hchain
        (replacement_eq_none.mpr hfree)
      simp [hcycle, pure, Except.pure]
    · simp [hfree]

end Pandora.Evolution.Catalog
