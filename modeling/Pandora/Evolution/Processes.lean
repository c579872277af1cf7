import Pandora.Evolution.Engine
import Pandora.Evolution.Promotions

/-! # Several engines on one database

Every engine decides on its own copy and writes the whole record. As long as the copy of the
proposal it writes is the stored record (`Current`), the stored records of a proposal follow the
life cycle (`decisions_kept`). An engine that was opened before the last write of another one puts
an earlier record back (`stale_submit_overwrites`). -/

namespace Pandora.Evolution.Processes

open Text Ids Lib.Checked Lib.Runs Lib.SortedMaps Lib.Tables Evolution.Rollout List
  Evolution.Proposals Evolution.Engine
open Governance.RequestBinding (quoted nullable objectText)

/-! ## The system -/

/-- The database and what each engine has in memory, from when it is opened. -/
structure World (ι : Type) where
  rows : Rows
  engines : ι → Option Proposals

inductive Input (ι : Type)
  | opens (engine : ι)
  | calls (engine : ι) (available : Bool) (call : Engine.Call)

variable {ι : Type} [DecidableEq ι]
variable (sha : Sha256) (json : PayloadWriter) (text : RecordWriter)
  (policies : ι → EvolutionPolicy)

def exec (w : World ι) : Input ι → World ι × Option (Except EvolutionError Bool)
  | .opens engine =>
    match load sha json text w.rows with
    | .error _ => (w, none)
    | .ok proposals => ({ w with engines := Function.update w.engines engine proposals }, none)
  | .calls engine available call =>
    match w.engines engine with
    | none => (w, none)
    | some proposals =>
      let done := perform sha json text (policies engine) proposals w.rows available call
      ({ rows := done.1.1, engines := Function.update w.engines engine done.1.2 }, some done.2)

/-- The database and its engines. -/
def machine : Machine (World ι) (Input ι) (Option (Except EvolutionError Bool)) where
  step w input := exec sha json text policies w input

/-- The stored record of a proposal. -/
def stored (w : World ι) (proposalId : ProposalId) : Option StoredProposal :=
  (w.rows.get? proposalId.text).map (·.record)

/-- A call that writes is made by an engine whose copy of the proposal is the stored record. -/
def Current (w : World ι) : Input ι → Prop
  | .opens _ => True
  | .calls engine _ call => ∀ proposals record, w.engines engine = some proposals →
      decision sha json (policies engine) proposals call = .ok (some record) →
        proposals.get? call.proposalId = stored w call.proposalId

/-! ## The life cycle -/

/-- The states a proposal may move to. -/
def successors : EvolutionState → List EvolutionState
  | .proposed => [.evaluated]
  | .evaluated => [.approved]
  | .approved => [.staged]
  | .staged => [.canaryPassed, .canaryFailed]
  | .canaryPassed => [.active]
  | .canaryFailed => []
  | .active => [.rolledBack]
  | .rolledBack => []

/-- A rollout is configured, or one of its operations is applied to it. -/
inductive RolloutAdvances : Option EvolutionRollout → Option EvolutionRollout → Prop
  | configured {rollout : EvolutionRollout} {binding limits transitionId actor now}
      (new : EvolutionRollout.new sha json binding limits transitionId actor now = .ok rollout) :
      RolloutAdvances none (some rollout)
  | moved {rollout : EvolutionRollout} {call : Rollout.Call}
      (accepted : (rollout.exec sha json call).2 = .ok true) :
      RolloutAdvances (some rollout) (some (rollout.exec sha json call).1)

/-- One step of the life cycle. -/
inductive Advances : Option StoredProposal → Option StoredProposal → Prop
  | submitted {record : StoredProposal} (state : record.state = .proposed)
      (rollout : record.rollout = none) : Advances none (some record)
  | moved {record next : StoredProposal} (proposal : next.proposal = record.proposal)
      (state : next.state ∈ successors record.state) (rollout : next.rollout = record.rollout) :
      Advances (some record) (some next)
  | rolledOut {record next : StoredProposal} (proposal : next.proposal = record.proposal)
      (passed : record.state = .canaryPassed) (state : next.state = .canaryPassed)
      (rollout : RolloutAdvances sha json record.rollout next.rollout) :
      Advances (some record) (some next)

variable {sha json text policies} {w : World ι} {policy : EvolutionPolicy} {proposals : Proposals}

/-! ## What an engine writes -/

variable {proposalId : ProposalId} {state : EvolutionState} {record : StoredProposal}

theorem findIn_eq_ok :
    findIn proposals proposalId state = .ok record ↔
      proposals.get? proposalId = some record ∧ record.state = state := by
  simp only [findIn, find, bind_eq_ok, orError_eq_ok, ensure_eq_ok, pure_eq_ok, exists_const]
  constructor
  · rintro ⟨found, hget, hstate, rfl⟩
    exact ⟨hget, hstate⟩
  · rintro ⟨hget, hstate⟩
    exact ⟨record, hget, hstate, rfl⟩

/-- The copy has every record under its identifier. -/
def Keyed (proposals : Proposals) : Prop :=
  ∀ proposalId record, proposals.get? proposalId = some record →
    record.proposal.proposalId = proposalId

theorem moved_of_find {found : StoredProposal} (hget : proposals.get? proposalId = some found)
    (hstate : found.state = state) (hproposal : record.proposal = found.proposal)
    (hnext : record.state ∈ successors state) (hrollout : record.rollout = found.rollout) :
    Advances sha json (proposals.get? proposalId) (some record) ∧
      (Keyed proposals → record.proposal.proposalId = proposalId) := by
  subst hstate
  rw [hget]
  refine ⟨.moved hproposal hnext hrollout, fun hkeyed => ?_⟩
  rw [hproposal]
  exact hkeyed proposalId found hget

theorem rolledOut_of_find {found : StoredProposal}
    (hget : proposals.get? proposalId = some found) (hpassed : found.state = .canaryPassed)
    (hproposal : record.proposal = found.proposal) (hstate : record.state = .canaryPassed)
    (hrollout : RolloutAdvances sha json found.rollout record.rollout) :
    Advances sha json (proposals.get? proposalId) (some record) ∧
      (Keyed proposals → record.proposal.proposalId = proposalId) := by
  rw [hget]
  refine ⟨.rolledOut hproposal hpassed hstate hrollout, fun hkeyed => ?_⟩
  rw [hproposal]
  exact hkeyed proposalId found hget

/-- **What a call decides to write** is the next record of its proposal. -/
theorem decision_advances {call : Engine.Call}
    (h : decision sha json policy proposals call = .ok (some record)) :
    Advances sha json (proposals.get? call.proposalId) (some record) ∧
      (Keyed proposals → record.proposal.proposalId = call.proposalId) := by
  cases call with
  | submit proposal =>
    simp only [decision, submit, map_eq_ok, bind_eq_ok, ensure_eq_ok, pure_eq_ok, exists_const] at h
    obtain ⟨_, ⟨hnone, rfl⟩, hrecord⟩ := h
    cases hrecord
    refine ⟨?_, fun _ => rfl⟩
    show Advances sha json (proposals.get? proposal.proposalId) _
    rw [hnone]
    exact .submitted rfl rfl
  | recordEvaluation evaluation =>
    simp only [decision, recordEvaluation, map_eq_ok, bind_eq_ok, findIn_eq_ok, pure_eq_ok] at h
    obtain ⟨_, ⟨found, ⟨hget, hstate⟩, rfl⟩, hrecord⟩ := h
    cases hrecord
    exact moved_of_find hget hstate rfl mem_cons_self rfl
  | approve id approval signature =>
    simp only [decision, Engine.approve, map_eq_ok, bind_eq_ok, findIn_eq_ok, pure_eq_ok,
      ensure_eq_ok, orError_eq_ok, exists_const] at h
    obtain ⟨_, ⟨found, ⟨hget, hstate⟩, -, -, -, -, -, -, -, -, -, rfl⟩, hrecord⟩ := h
    cases hrecord
    exact moved_of_find hget hstate rfl mem_cons_self rfl
  | stage id =>
    simp only [decision, stage, map_eq_ok, bind_eq_ok, findIn_eq_ok, pure_eq_ok] at h
    obtain ⟨_, ⟨found, ⟨hget, hstate⟩, rfl⟩, hrecord⟩ := h
    cases hrecord
    exact moved_of_find hget hstate rfl mem_cons_self rfl
  | recordCanary canary =>
    simp only [decision, recordCanary, find, bind_eq_ok, orError_eq_ok] at h
    obtain ⟨found, hget, h⟩ := h
    by_cases hsame : (found.state = .canaryPassed ∨ found.state = .canaryFailed) ∧
        found.canary = some canary
    · rw [if_pos hsame] at h
      cases h
    · rw [if_neg hsame] at h
      simp only [bind_eq_ok, ensure_eq_ok, pure_eq_ok, exists_const] at h
      obtain ⟨hstate, hrecord⟩ := h
      cases hrecord
      refine moved_of_find hget hstate rfl ?_ rfl
      show (if canary.passed then EvolutionState.canaryPassed else .canaryFailed) ∈ _
      cases canary.passed <;> decide
  | configureRollout id binding limits transition actor now =>
    simp only [decision, configureRollout, bind_eq_ok, findIn_eq_ok] at h
    obtain ⟨found, ⟨hget, hstate⟩, h⟩ := h
    rcases hrollout : found.rollout with _ | rollout
    · rw [hrollout] at h
      simp only [bind_eq_ok, ensure_eq_ok, pure_eq_ok, mapError_eq_ok, exists_const] at h
      obtain ⟨-, rollout, hnew, hrecord⟩ := h
      cases hrecord
      refine rolledOut_of_find hget hstate rfl hstate ?_
      rw [hrollout]
      exact .configured hnew
    · rw [hrollout] at h
      simp only [bind_eq_ok, pure_eq_ok, reduceCtorEq, and_false, exists_false] at h
  | mutateRollout id mutation =>
    simp only [decision, mutateRollout, bind_eq_ok, findIn_eq_ok, orError_eq_ok, mapError_eq_ok,
      pure_eq_ok] at h
    obtain ⟨found, ⟨hget, hstate⟩, rollout, hrollout, changed, haccepted, hrecord⟩ := h
    cases changed with
    | false => cases hrecord
    | true =>
      cases hrecord
      refine rolledOut_of_find hget hstate rfl hstate ?_
      rw [hrollout]
      exact .moved haccepted
  | activate id =>
    simp only [decision, activate, map_eq_ok, bind_eq_ok, findIn_eq_ok, pure_eq_ok, ensure_eq_ok,
      exists_const] at h
    obtain ⟨_, ⟨found, ⟨hget, hstate⟩, -, rfl⟩, hrecord⟩ := h
    cases hrecord
    rw [policy.strict.2.2, if_pos rfl] at hstate
    exact moved_of_find hget hstate rfl mem_cons_self rfl
  | rollback id =>
    simp only [decision, rollback, map_eq_ok, bind_eq_ok, findIn_eq_ok, pure_eq_ok] at h
    obtain ⟨_, ⟨found, ⟨hget, hstate⟩, rfl⟩, hrecord⟩ := h
    cases hrecord
    exact moved_of_find hget hstate rfl mem_cons_self rfl

/-! ## One input -/

theorem Keyed.insert (h : Keyed proposals) (hrecord : record.proposal.proposalId = proposalId) :
    Keyed (proposals.insert proposalId record) := by
  intro other found hget
  rw [SortedMap.get?_insert] at hget
  by_cases hother : other = proposalId
  · rw [if_pos hother] at hget
    cases hget
    rw [hother]
    exact hrecord
  · rw [if_neg hother] at hget
    exact h other found hget

theorem keyed_loadRows : ∀ {rows : List Row} {start loaded : Proposals}, Keyed start →
    rows.foldlM (loadRow sha json text) start = .ok loaded → Keyed loaded
  | [], start, loaded, h, hload => by
    rw [foldlM_nil, pure_eq_ok] at hload
    rw [← hload]
    exact h
  | row :: rows, start, loaded, h, hload => by
    rw [foldlM_cons, bind_eq_ok] at hload
    obtain ⟨next, hrow, hrest⟩ := hload
    simp only [loadRow, bind_eq_ok, mapError_eq_ok, ensure_eq_ok, pure_eq_ok] at hrow
    obtain ⟨proposalId, -, -, -, -, hid, -, -, -, -, rfl⟩ := hrow
    exact keyed_loadRows (h.insert hid) hrest

theorem keyed_load {rows : Rows} {loaded : Proposals} (h : load sha json text rows = .ok loaded) :
    Keyed loaded :=
  keyed_loadRows (fun _ _ hget => by rw [SortedMap.get?_empty] at hget; cases hget) h

theorem perform_cases (sha : Sha256) (json : PayloadWriter) (text : RecordWriter)
    (policy : EvolutionPolicy) (proposals : Proposals) (rows : Rows) (available : Bool)
    (call : Engine.Call) :
    (perform sha json text policy proposals rows available call).1 = (rows, proposals) ∨
    ∃ record, decision sha json policy proposals call = .ok (some record) ∧
      (perform sha json text policy proposals rows available call).1 =
        (rows.upsert ⟨record.proposal.proposalId.text, record⟩,
          proposals.insert record.proposal.proposalId record) := by
  unfold perform
  rcases hdecision : decision sha json policy proposals call with e | (_ | record)
  · exact Or.inl rfl
  · exact Or.inl rfl
  · dsimp only
    rcases hsaved : saveAndReplace sha json text proposals rows available record with e | written
    · exact Or.inl rfl
    · simp only [saveAndReplace, save, bind_eq_ok, mapError_eq_ok, ensure_eq_ok,
        pure_eq_ok] at hsaved
      obtain ⟨_, ⟨-, -, -, -, -, -, rfl⟩, rfl⟩ := hsaved
      exact Or.inr ⟨record, rfl, rfl⟩

/-- Every opened engine has its records under their identifiers. -/
def AllKeyed (w : World ι) : Prop := ∀ engine proposals, w.engines engine = some proposals →
  Keyed proposals

variable {engine : ι}

theorem AllKeyed.update (h : AllKeyed w) {rows : Rows} (hproposals : Keyed proposals) :
    AllKeyed { rows := rows, engines := Function.update w.engines engine proposals } := by
  intro other found hfound
  by_cases hother : other = engine
  · subst hother
    change Function.update w.engines other proposals other = some found at hfound
    rw [Function.update_self] at hfound
    cases hfound
    exact hproposals
  · change Function.update w.engines engine proposals other = some found at hfound
    rw [Function.update_of_ne hother] at hfound
    exact h other found hfound

omit [DecidableEq ι] in
theorem stored_upsert (rows : Rows) (engines : ι → Option Proposals) (record : StoredProposal)
    (proposalId : ProposalId) :
    stored { rows := rows.upsert ⟨record.proposal.proposalId.text, record⟩, engines := engines }
      proposalId = if proposalId = record.proposal.proposalId then some record else
        (rows.get? proposalId.text).map (·.record) := by
  unfold stored
  rw [Table.get?_upsert]
  by_cases hsame : proposalId = record.proposal.proposalId
  · rw [if_pos (congrArg Id.text hsame), if_pos hsame]
    rfl
  · rw [if_neg hsame, if_neg]
    exact fun htext => hsame (Id.ext_text htext)

theorem exec_unopened (h : w.engines engine = none) (available : Bool) (call : Engine.Call) :
    (exec sha json text policies w (.calls engine available call)).1 = w := by
  unfold exec
  dsimp only
  rw [h]

theorem exec_calls (h : w.engines engine = some proposals) (available : Bool) (call : Engine.Call) :
    (exec sha json text policies w (.calls engine available call)).1 =
      { rows := (perform sha json text (policies engine) proposals w.rows available call).1.1
        engines := Function.update w.engines engine
          (perform sha json text (policies engine) proposals w.rows available call).1.2 } := by
  unfold exec
  dsimp only
  rw [h]

/-- **One input** leaves the record of a proposal, or writes its next record. -/
theorem exec_stored {input : Input ι} (hkeyed : AllKeyed w)
    (hcurrent : Current sha json policies w input) :
    AllKeyed (exec sha json text policies w input).1 ∧ ∀ proposalId,
      stored (exec sha json text policies w input).1 proposalId = stored w proposalId ∨
      Advances sha json (stored w proposalId)
        (stored (exec sha json text policies w input).1 proposalId) := by
  cases input with
  | opens engine =>
    unfold exec
    rcases hload : load sha json text w.rows with e | proposals
    · exact ⟨hkeyed, fun _ => Or.inl rfl⟩
    · exact ⟨hkeyed.update (keyed_load hload), fun _ => Or.inl rfl⟩
  | calls engine available call =>
    rcases hengine : w.engines engine with _ | proposals
    · rw [exec_unopened hengine]
      exact ⟨hkeyed, fun _ => Or.inl rfl⟩
    · have hproposals : Keyed proposals := hkeyed engine proposals hengine
      rw [exec_calls hengine]
      rcases perform_cases sha json text (policies engine) proposals w.rows available call with
        hsame | ⟨record, hdecision, hwritten⟩
      · rw [hsame]
        exact ⟨hkeyed.update hproposals, fun _ => Or.inl rfl⟩
      · rw [hwritten]
        obtain ⟨hadvances, hid⟩ := decision_advances hdecision
        refine ⟨hkeyed.update (hproposals.insert rfl), fun proposalId => ?_⟩
        rw [stored_upsert]
        by_cases hthis : proposalId = record.proposal.proposalId
        · right
          rw [if_pos hthis, hthis, hid hproposals, ← hcurrent proposals record hengine hdecision]
          exact hadvances
        · exact Or.inl (if_neg hthis)

/-! ## What the life cycle keeps -/

/-- How far a proposal has come. -/
def rank : EvolutionState → ℕ
  | .proposed => 0
  | .evaluated => 1
  | .approved => 2
  | .staged => 3
  | .canaryPassed | .canaryFailed => 4
  | .active => 5
  | .rolledBack => 6

theorem rank_successors {next : EvolutionState} (h : next ∈ successors state) :
    rank state < rank next := by
  revert h
  cases state <;> cases next <;> decide

/-- What holds between two stored records of a proposal, the later one reached from the other. -/
structure Kept (sha : Sha256) (json : PayloadWriter) (old new : Option StoredProposal) : Prop where
  path : Relation.ReflTransGen (Advances sha json) old new
  present : ∀ record, old = some record → ∃ next, new = some next ∧
    next.proposal = record.proposal ∧ rank record.state ≤ rank next.state
  final : ∀ record, old = some record → record.state = .rolledBack ∨ record.state = .canaryFailed →
    new = some record
  rolledBack : ∀ record rollout, old = some record → record.rollout = some rollout →
    rollout.status = .rolledBack → ∃ next, new = some next ∧ next.rollout = some rollout

theorem rolledBack_refuses {rollout : EvolutionRollout} {call : Rollout.Call}
    (hstatus : rollout.status = .rolledBack) :
    (rollout.exec sha json call).2 ≠ .ok true := by
  intro haccepted
  have hsame : (rollout.exec sha json call).1 = rollout := Promotions.exec_rolledBack hstatus call
  rcases exec_cases sha json rollout call with ⟨-, hnot⟩ | ⟨change, -, hpasses, -, hexec⟩ |
    ⟨change, e, -, -, -, hexec⟩
  · exact hnot haccepted
  · obtain ⟨-, -, -, htransitions⟩ := hpasses.frame
    rw [hexec] at hsame
    have hlength := congrArg (fun r => r.transitions.length) hsame
    change (change.rollout.transitions ++ [change.event]).length = _ at hlength
    rw [htransitions, length_append, length_singleton] at hlength
    omega
  · rw [hexec] at haccepted
    cases haccepted

theorem Kept.refl (old : Option StoredProposal) : Kept sha json old old where
  path := .refl
  present record h := ⟨record, h, rfl, le_refl _⟩
  final _ h _ := h
  rolledBack record _ h hrollout _ := ⟨record, h, hrollout⟩

theorem kept_of_advances {old new : Option StoredProposal} (h : Advances sha json old new) :
    Kept sha json old new := by
  refine ⟨.single h, ?_, ?_, ?_⟩
  · intro record hold
    cases h with
    | submitted => cases hold
    | moved hproposal hstate =>
      cases hold
      exact ⟨_, rfl, hproposal, (rank_successors hstate).le⟩
    | rolledOut hproposal hpassed hstate =>
      cases hold
      refine ⟨_, rfl, hproposal, ?_⟩
      rw [hpassed, hstate]
  · intro record hold hfinal
    cases h with
    | submitted => cases hold
    | moved hproposal hstate =>
      cases hold
      rcases hfinal with hfinal | hfinal <;> rw [hfinal] at hstate <;> cases hstate
    | rolledOut hproposal hpassed hstate =>
      cases hold
      rcases hfinal with hfinal | hfinal <;> rw [hfinal] at hpassed <;> cases hpassed
  · intro record rollout hold hrollout hstatus
    cases h with
    | submitted => cases hold
    | moved _ _ hsame =>
      cases hold
      exact ⟨_, rfl, hsame.trans hrollout⟩
    | rolledOut _ _ _ hadvances =>
      cases hold
      rw [hrollout] at hadvances
      exfalso
      revert hadvances
      generalize hnext : StoredProposal.rollout _ = next
      intro hadvances
      cases hadvances with
      | moved haccepted => exact rolledBack_refuses hstatus haccepted

theorem Kept.trans {a b c : Option StoredProposal} (h : Kept sha json a b)
    (h' : Kept sha json b c) : Kept sha json a c where
  path := h.path.trans h'.path
  present record ha := by
    obtain ⟨middle, hb, hproposal, hrank⟩ := h.present record ha
    obtain ⟨last, hc, hproposal', hrank'⟩ := h'.present middle hb
    exact ⟨last, hc, hproposal'.trans hproposal, hrank.trans hrank'⟩
  final record ha hfinal := h'.final record (h.final record ha hfinal) hfinal
  rolledBack record rollout ha hrollout hstatus := by
    obtain ⟨middle, hb, hmiddle⟩ := h.rolledBack record rollout ha hrollout hstatus
    exact h'.rolledBack middle rollout hb hmiddle hstatus

/-! ## The main result -/

/-- Along the inputs the stored records of every proposal follow the life cycle. -/
structure DecisionsKept (sha : Sha256) (json : PayloadWriter) (text : RecordWriter)
    (policies : ι → EvolutionPolicy) (w : World ι) (inputs : List (Input ι)) : Prop where
  steps : ∀ before input after, inputs = before ++ input :: after → ∀ proposalId,
    let old := stored ((machine sha json text policies).run w before) proposalId
    let new := stored ((machine sha json text policies).run w (before ++ [input])) proposalId
    new = old ∨ Advances sha json old new
  later : ∀ before after, inputs = before ++ after → ∀ proposalId, Kept sha json
    (stored ((machine sha json text policies).run w before) proposalId)
    (stored ((machine sha json text policies).run w inputs) proposalId)

/-- Nothing of the life cycle is lost by a run whose inputs meet the condition. -/
theorem kept_run : ∀ {inputs : List (Input ι)} {w : World ι}, AllKeyed w →
    (machine sha json text policies).Along (Current sha json policies) w inputs →
      AllKeyed ((machine sha json text policies).run w inputs) ∧ ∀ proposalId,
        Kept sha json (stored w proposalId)
          (stored ((machine sha json text policies).run w inputs) proposalId)
  | [], _, hkeyed, _ => ⟨hkeyed, fun _ => Kept.refl _⟩
  | input :: inputs, w, hkeyed, halong => by
    obtain ⟨hkeyed', hstored⟩ := @exec_stored _ _ sha json text policies w input hkeyed halong.1
    obtain ⟨hkeyed'', hrest⟩ := kept_run hkeyed' halong.2
    refine ⟨hkeyed'', fun proposalId => ?_⟩
    rw [Machine.run_cons]
    rcases hstored proposalId with hsame | hadvances
    · rw [← hsame]
      exact hrest proposalId
    · exact (kept_of_advances hadvances).trans (hrest proposalId)

theorem decisions_kept (sha : Sha256) (json : PayloadWriter) (text : RecordWriter)
    (policies : ι → EvolutionPolicy) (rows : Rows) (inputs : List (Input ι))
    (hcurrent : (machine sha json text policies).Along (Current sha json policies)
      ⟨rows, fun _ => none⟩ inputs) :
    DecisionsKept sha json text policies ⟨rows, fun _ => none⟩ inputs := by
  have hkeyed : AllKeyed (⟨rows, fun _ => none⟩ : World ι) := fun _ _ hnone => by cases hnone
  constructor
  · rintro before input after rfl proposalId
    rw [Machine.along_append] at hcurrent
    obtain ⟨hbefore, hinput, -⟩ := hcurrent
    obtain ⟨hkeyed', -⟩ := kept_run hkeyed hbefore
    dsimp only
    rw [Machine.run_snoc]
    exact (exec_stored hkeyed' hinput).2 proposalId
  · rintro before after rfl proposalId
    rw [Machine.along_append] at hcurrent
    obtain ⟨hkeyed', -⟩ := kept_run hkeyed hcurrent.1
    rw [Machine.run_append]
    exact (kept_run hkeyed' hcurrent.2).2 proposalId

/-! ## Two engines -/

instance (w : World ι) : ∀ input : Input ι, Decidable (Current sha json policies w input)
  | .opens _ => isTrue trivial
  | .calls engine _ call =>
    decidable_of_iff (∀ proposals ∈ w.engines engine,
      (decision sha json (policies engine) proposals call).toOption.join.isSome →
        proposals.get? call.proposalId = stored w call.proposalId) <| by
      constructor
      · intro h proposals record hengine hdecision
        exact h proposals hengine (by rw [hdecision]; rfl)
      · intro h proposals hengine hsome
        rcases hdecision : decision sha json (policies engine) proposals call with e | (_ | record)
        · rw [hdecision] at hsome
          cases hsome
        · rw [hdecision] at hsome
          cases hsome
        · exact h proposals record hengine hdecision

def stateText : EvolutionState → String
  | .proposed => quoted "Proposed"
  | .evaluated => quoted "Evaluated"
  | .approved => quoted "Approved"
  | .staged => quoted "Staged"
  | .canaryPassed => quoted "CanaryPassed"
  | .canaryFailed => quoted "CanaryFailed"
  | .active => quoted "Active"
  | .rolledBack => quoted "RolledBack"

def sourceText : EvolutionSource → String
  | .reflexion => quoted "Reflexion"
  | .gepa => quoted "Gepa"
  | .population => quoted "Population"

def proposalText (proposal : MutationProposal) : String :=
  objectText [("proposal_id", quoted proposal.proposalId.text),
    ("source", sourceText proposal.source), ("base_artifact", quoted proposal.baseArtifact.text),
    ("candidate_artifact", quoted proposal.candidateArtifact.text),
    ("evidence_digest", quoted proposal.evidenceDigest.text),
    ("memory_evidence_ids",
      Promotions.arrayText (proposal.memoryEvidenceIds.map fun id => quoted id.text)),
    ("expected_outcome", quoted proposal.expectedOutcome),
    ("created_at", toString proposal.createdAt)]

def evaluationText (evaluation : HoldoutEvaluation) : String :=
  objectText [("proposal_id", quoted evaluation.proposalId.text),
    ("trajectory_score", toString evaluation.trajectoryScore.toNat),
    ("outcome_score", toString evaluation.outcomeScore.toNat),
    ("holdout_passed", toString evaluation.holdoutPassed),
    ("policy_passed", toString evaluation.policyPassed),
    ("regression_passed", toString evaluation.regressionPassed),
    ("evaluated_at", toString evaluation.evaluatedAt),
    ("holdout_digest", nullable (evaluation.holdoutDigest.map (·.text)))]

/-- The JSON text of a record that is not approved yet and needs no escape. -/
def recordText : RecordWriter := fun record =>
  objectText [("proposal", proposalText record.proposal), ("state", stateText record.state),
    ("evaluation", record.evaluation.elim "null" evaluationText), ("approval", "null"),
    ("signature", "null"), ("canary", "null"), ("rollout", "null")]

def sampleProposal (outcome : String) : MutationProposal where
  proposalId := .ofLiteral "proposal-1"
  source := .reflexion
  baseArtifact := .ofLiteral "artifact-a"
  candidateArtifact := .ofLiteral "artifact-b"
  evidenceDigest := .ofLiteral "evidence-1"
  memoryEvidenceIds := []
  expectedOutcome := outcome
  createdAt := 10

def sampleEvaluation : HoldoutEvaluation where
  proposalId := .ofLiteral "proposal-1"
  trajectoryScore := 90
  outcomeScore := 90
  holdoutPassed := true
  policyPassed := true
  regressionPassed := true
  evaluatedAt := 11
  holdoutDigest := none

def sampleMachine : Machine (World Bool) (Input Bool) (Option (Except EvolutionError Bool)) :=
  machine Promotions.sampleSha Promotions.sampleJson recordText fun _ => .production 1

/-- The second engine is opened after the first one has submitted. -/
def inTurn : List (Input Bool) :=
  [.opens false, .calls false true (.submit (sampleProposal "fewer retries")), .opens true,
    .calls true true (.recordEvaluation sampleEvaluation)]

theorem inTurn_kept : DecisionsKept Promotions.sampleSha Promotions.sampleJson recordText
    (fun _ => .production 1) ⟨Table.empty, fun _ => none⟩ inTurn :=
  decisions_kept Promotions.sampleSha Promotions.sampleJson recordText (fun _ => .production 1)
    Table.empty inTurn (by decide +kernel)

/-- Both engines are opened first. -/
def atOnce : List (Input Bool) :=
  [.opens false, .opens true, .calls false true (.submit (sampleProposal "fewer retries")),
    .calls false true (.recordEvaluation sampleEvaluation)]

/-- The other engine's submission takes an evaluated proposal back. -/
def resubmit : Input Bool := .calls true true (.submit (sampleProposal "no retries"))

theorem stale_submit_overwrites : ¬ DecisionsKept Promotions.sampleSha Promotions.sampleJson
    recordText (fun _ => .production 1) ⟨Table.empty, fun _ => none⟩ (atOnce ++ [resubmit]) := by
  have hold : stored (sampleMachine.run ⟨Table.empty, fun _ => none⟩ atOnce)
      (.ofLiteral "proposal-1") = some {
        proposal := sampleProposal "fewer retries", state := .evaluated
        evaluation := some sampleEvaluation, approval := none, signature := none, canary := none
        rollout := none } := by decide +kernel
  have hnew : stored (sampleMachine.run ⟨Table.empty, fun _ => none⟩ (atOnce ++ [resubmit]))
      (.ofLiteral "proposal-1") = some {
        proposal := sampleProposal "no retries", state := .proposed, evaluation := none
        approval := none, signature := none, canary := none, rollout := none } := by
    decide +kernel
  intro hkept
  obtain ⟨next, hnext, -, hrank⟩ := (hkept.later atOnce [resubmit] rfl
    (.ofLiteral "proposal-1")).present _ hold
  change stored (sampleMachine.run _ (atOnce ++ [resubmit])) _ = _ at hnext
  rw [hnew] at hnext
  cases hnext
  revert hrank
  decide

end Pandora.Evolution.Processes



