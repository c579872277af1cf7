import Pandora.Lib.MachineInts
import Pandora.Lib.Runs
import Pandora.Lib.Tables
import Pandora.Text

/-! # Quorum consensus

`BftConsensus` of `swarm_mesh.rs`: proposals, the votes cast on each and the decision they give. The
maps are tables by key. Sizes are `usize` of 64 bits: an operation whose result does not fit panics
in a build with overflow checks and wraps around in one without them (`usize`), and the model has
both builds. -/

namespace Pandora.Swarm.Consensus

open Lib.MachineInts Lib.Tables Lib.Runs Text List

inductive SwarmError
  | invalidBftParameters (n f : UInt64)
  | equivocationDetected (voter proposal : String)
  | proposalNotFound (id : String)
  | proposalAlreadyExists (id : String)
deriving DecidableEq

inductive ConsensusDecision
  | pending | approved | rejected
deriving DecidableEq

structure Proposal where
  (proposalId proposerId : String)
  payloadHash : Bytes32
  createdAt : UInt64

structure Vote where
  voterId : String
  approve : Bool
  signature : List UInt8

/-- An entry of the map of votes. -/
structure Ballot where
  proposalId : String
  votes : Table Vote.voterId

/-- The proposals and votes a replica knows. -/
structure BftConsensus where
  (totalNodes byzantineTolerance quorumThreshold : UInt64)
  proposals : Table Proposal.proposalId
  votes : Table Ballot.proposalId

/-- The result of an operation on `usize` with the exact value `x`. -/
def usize (checks : Bool) (x : ℤ) : Except (Fault SwarmError) UInt64 :=
  if (0 ≤ x ∧ x < 2 ^ 64) ∨ checks = false then .ok (UInt64.ofInt x) else .error .panic

variable (checks : Bool)

def BftConsensus.new (totalNodes byzantineTolerance : UInt64) :
    Except (Fault SwarmError) BftConsensus := do
  let product ← usize checks (3 * byzantineTolerance.toNat)
  let bound ← usize checks (product.toNat + 1)
  if totalNodes < bound then
    .error (.error (.invalidBftParameters totalNodes byzantineTolerance))
  else do
    let product ← usize checks (2 * byzantineTolerance.toNat)
    let quorumThreshold ← usize checks (product.toNat + 1)
    pure ⟨totalNodes, byzantineTolerance, quorumThreshold, .empty, .empty⟩

def BftConsensus.propose (c : BftConsensus) (proposerId proposalId : String)
    (payloadHash : Bytes32) (timestamp : UInt64) :
    BftConsensus × Except (Fault SwarmError) Unit :=
  if (c.proposals.get? proposalId).isSome then
    (c, .error (.error (.proposalAlreadyExists proposalId)))
  else
    ({ c with
      proposals := c.proposals.upsert ⟨proposalId, proposerId, payloadHash, timestamp⟩
      votes := c.votes.upsert ⟨proposalId, .empty⟩ }, .ok ())

def BftConsensus.tally (c : BftConsensus) (proposalId : String) :
    Except (Fault SwarmError) ConsensusDecision :=
  match c.votes.get? proposalId with
  | none => .ok .pending
  | some ballot => do
    let approvals := ballot.votes.rows.countP fun vote => vote.approve
    let rejections := ballot.votes.rows.countP fun vote => !vote.approve
    if c.quorumThreshold.toNat ≤ approvals then
      pure .approved
    else do
      let spare ← usize checks (c.totalNodes.toNat - c.quorumThreshold.toNat)
      if spare.toNat < rejections then pure .rejected else pure .pending

/-- A vote of a voter that has none on the proposal. -/
def BftConsensus.addVote (c : BftConsensus) (ballot : Ballot) (vote : Vote) : BftConsensus :=
  { c with votes := c.votes.upsert { ballot with votes := ballot.votes.upsert vote } }

def BftConsensus.castVote (c : BftConsensus) (voterId proposalId : String) (approve : Bool)
    (signature : List UInt8) : BftConsensus × Except (Fault SwarmError) ConsensusDecision :=
  if (c.proposals.get? proposalId).isNone then
    (c, .error (.error (.proposalNotFound proposalId)))
  else match c.votes.get? proposalId with
    -- `expect("proposal votes map must exist")`
    | none => (c, .error .panic)
    | some ballot => match ballot.votes.get? voterId with
      | some existing =>
        if existing.approve ≠ approve then
          (c, .error (.error (.equivocationDetected voterId proposalId)))
        else (c, c.tally checks proposalId)
      | none =>
        let c' := c.addVote ballot ⟨voterId, approve, signature⟩
        (c', c'.tally checks proposalId)

/-! ### Calls -/

inductive Call
  | propose (proposerId proposalId : String) (payloadHash : Bytes32) (timestamp : UInt64)
  | castVote (voterId proposalId : String) (approve : Bool) (signature : List UInt8)
  | tally (proposalId : String)

inductive Reply
  | proposed
  | decision (proposalId : String) (decision : ConsensusDecision)
deriving DecidableEq

def exec (c : BftConsensus) : Call → BftConsensus × Except (Fault SwarmError) Reply
  | .propose proposerId proposalId payloadHash timestamp =>
    let (c, result) := c.propose proposerId proposalId payloadHash timestamp
    (c, result.map fun _ => .proposed)
  | .castVote voterId proposalId approve signature =>
    let (c, result) := c.castVote checks voterId proposalId approve signature
    (c, result.map (.decision proposalId))
  | .tally proposalId => (c, (c.tally checks proposalId).map (.decision proposalId))

def replica : Machine BftConsensus Call (Except (Fault SwarmError) Reply) := ⟨exec checks⟩

/-! ### What a call does -/

/-- The votes on a proposal. -/
def BftConsensus.votesOn (c : BftConsensus) (proposalId : String) : List Vote :=
  (c.votes.get? proposalId).elim [] fun ballot => ballot.votes.rows

def BftConsensus.approvals (c : BftConsensus) (proposalId : String) : ℕ :=
  (c.votesOn proposalId).countP fun vote => vote.approve

def BftConsensus.rejections (c : BftConsensus) (proposalId : String) : ℕ :=
  (c.votesOn proposalId).countP fun vote => !vote.approve

variable {proposalId : String} {ballot : Ballot}

theorem tally_eq (c : BftConsensus) (hballot : c.votes.get? proposalId = some ballot) :
    c.tally checks proposalId = (do
      if c.quorumThreshold.toNat ≤ c.approvals proposalId then
        pure .approved
      else do
        let spare ← usize checks (c.totalNodes.toNat - c.quorumThreshold.toNat)
        if spare.toNat < c.rejections proposalId then pure .rejected else pure .pending) := by
  unfold BftConsensus.tally BftConsensus.approvals BftConsensus.rejections BftConsensus.votesOn
  rw [hballot]
  rfl

/-- Proposals and votes are entered together. -/
def Paired (c : BftConsensus) : Prop :=
  ∀ proposalId, (c.votes.get? proposalId).isSome = (c.proposals.get? proposalId).isSome

/-- One call: nothing is stored, or a proposal without votes, or one vote of a new voter. -/
inductive Step (c : BftConsensus) : Call → BftConsensus → Prop
  | same {call : Call} : Step c call c
  | proposed {c' : BftConsensus} {proposerId proposalId : String} {payloadHash : Bytes32}
    {timestamp : UInt64} (hnew : c.votes.get? proposalId = none)
    (hnodes : c'.totalNodes = c.totalNodes) (hquorum : c'.quorumThreshold = c.quorumThreshold)
    (hwrite : Table.Writes c.votes c'.votes proposalId ⟨proposalId, .empty⟩) :
    Step c (.propose proposerId proposalId payloadHash timestamp) c'
  | voted {c' : BftConsensus} {proposalId : String} {ballot ballot' : Ballot} {vote : Vote}
    (hballot : c.votes.get? proposalId = some ballot)
    (hnew : ballot.votes.get? vote.voterId = none)
    (hvotes : ballot'.votes.rows = ballot.votes.rows ++ [vote])
    (hnodes : c'.totalNodes = c.totalNodes) (hquorum : c'.quorumThreshold = c.quorumThreshold)
    (hwrite : Table.Writes c.votes c'.votes proposalId ballot') :
    Step c (.castVote vote.voterId proposalId vote.approve vote.signature) c'

section

variable {checks : Bool} {c c' : BftConsensus} {call : Call}

/-- A vote is stored when its voter has none on the proposal; otherwise nothing changes. -/
theorem castVote_state (checks : Bool) (c : BftConsensus) (voterId proposalId : String)
    (approve : Bool) (signature : List UInt8) :
    (c.castVote checks voterId proposalId approve signature).1 = c ∨
      ∃ ballot, c.votes.get? proposalId = some ballot ∧ ballot.votes.get? voterId = none ∧
        (c.castVote checks voterId proposalId approve signature).1 =
          c.addVote ballot ⟨voterId, approve, signature⟩ := by
  unfold BftConsensus.castVote
  split_ifs with hmissing
  · exact Or.inl rfl
  · rcases hballot : c.votes.get? proposalId with _ | ballot
    · exact Or.inl rfl
    · rcases hvote : ballot.votes.get? voterId with _ | existing
      · simp only [hvote]
        exact Or.inr ⟨ballot, rfl, hvote, rfl⟩
      · simp only [hvote]
        split_ifs
        all_goals exact Or.inl rfl

theorem addVote_writes (vote : Vote) (hballot : c.votes.get? proposalId = some ballot) :
    Table.Writes c.votes (c.addVote ballot vote).votes proposalId
      { ballot with votes := ballot.votes.upsert vote } := by
  intro key
  rw [← (Table.get?_eq_some.mp hballot).2]
  exact Table.get?_upsert key

theorem addVote_step (vote : Vote) (hballot : c.votes.get? proposalId = some ballot)
    (hnew : ballot.votes.get? vote.voterId = none) :
    Step c (.castVote vote.voterId proposalId vote.approve vote.signature)
      (c.addVote ballot vote) := by
  have hvotes : (ballot.votes.upsert vote).rows = ballot.votes.rows ++ [vote] :=
    (Table.insert?_eq_some (Table.insert?_eq_upsert hnew)).2
  have hwrite := addVote_writes vote hballot
  exact .voted hballot hnew hvotes rfl rfl hwrite

variable (checks)

/-- **What a call does.** -/
theorem exec_spec (hpaired : Paired c) (call : Call) :
    Step c call (exec checks c call).1 ∧ Paired (exec checks c call).1 := by
  cases call with
  | propose proposerId proposalId payloadHash timestamp =>
    have hexec : (exec checks c (.propose proposerId proposalId payloadHash timestamp)).1 =
        (c.propose proposerId proposalId payloadHash timestamp).1 := rfl
    rw [hexec, BftConsensus.propose]
    split_ifs with hexists
    · exact ⟨.same, hpaired⟩
    · have hnew : c.votes.get? proposalId = none := by
        rw [← Option.not_isSome_iff_eq_none, hpaired]
        exact hexists
      refine ⟨.proposed hnew rfl rfl fun key => Table.get?_upsert key, fun key => ?_⟩
      rw [Table.get?_upsert, Table.get?_upsert]
      split_ifs
      · rfl
      · exact hpaired key
  | castVote voterId proposalId approve signature =>
    have hexec : (exec checks c (.castVote voterId proposalId approve signature)).1 =
        (c.castVote checks voterId proposalId approve signature).1 := rfl
    rw [hexec]
    obtain hsame | ⟨ballot, hballot, hnew, hvoted⟩ :=
      castVote_state checks c voterId proposalId approve signature
    · rw [hsame]
      exact ⟨.same, hpaired⟩
    · rw [hvoted]
      refine ⟨addVote_step ⟨voterId, approve, signature⟩ hballot hnew, fun key => ?_⟩
      rw [addVote_writes _ hballot key]
      split_ifs with hkey
      · rw [hkey, BftConsensus.addVote, ← hpaired proposalId, hballot]
        rfl
      · exact hpaired key
  | tally proposalId => exact ⟨.same, hpaired⟩

variable {checks}

theorem votesOn_of_get?
    (h : c.votes.get? proposalId = some ballot) : c.votesOn proposalId = ballot.votes.rows := by
  unfold BftConsensus.votesOn
  rw [h]
  rfl

theorem votesOn_of_none (h : c.votes.get? proposalId = none) :
    c.votesOn proposalId = [] := by
  unfold BftConsensus.votesOn
  rw [h]
  rfl

theorem votesOn_nodup (c : BftConsensus) (proposalId : String) :
    ((c.votesOn proposalId).map Vote.voterId).Nodup := by
  rcases hballot : c.votes.get? proposalId with _ | ballot
  · rw [votesOn_of_none hballot]
    exact nodup_nil
  · rw [votesOn_of_get? hballot]
    exact ballot.votes.nodup

/-- The votes on a proposal after a call: those before it, and perhaps the vote it casts. -/
theorem Step.votesOn (h : Step c call c') (proposalId : String) :
    c'.votesOn proposalId = c.votesOn proposalId ∨
      ∃ vote : Vote, call = .castVote vote.voterId proposalId vote.approve vote.signature ∧
        c'.votesOn proposalId = c.votesOn proposalId ++ [vote] := by
  cases h with
  | same => exact Or.inl rfl
  | @proposed _ _ proposed _ _ hnew _ _ hwrite =>
    by_cases hkey : proposalId = proposed
    · subst hkey
      left
      rw [votesOn_of_get? hwrite.same, votesOn_of_none hnew]
      rfl
    · left
      unfold BftConsensus.votesOn
      rw [hwrite.other hkey]
  | @voted _ voted ballot ballot' vote hballot _ hvotes _ _ hwrite =>
    by_cases hkey : proposalId = voted
    · subst hkey
      right
      refine ⟨vote, rfl, ?_⟩
      rw [votesOn_of_get? hwrite.same, votesOn_of_get? hballot, hvotes]
    · left
      unfold BftConsensus.votesOn
      rw [hwrite.other hkey]

/-! ### Whole runs -/

/-- The sizes stay, and votes are only added. -/
structure Grows (c c' : BftConsensus) : Prop where
  totalNodes : c'.totalNodes = c.totalNodes
  quorumThreshold : c'.quorumThreshold = c.quorumThreshold
  votesOn : ∀ proposalId, c.votesOn proposalId <+: c'.votesOn proposalId

theorem Grows.refl (c : BftConsensus) : Grows c c := ⟨rfl, rfl, fun _ => prefix_rfl⟩

theorem Grows.trans {c₁ c₂ c₃ : BftConsensus} (h : Grows c₁ c₂) (h' : Grows c₂ c₃) :
    Grows c₁ c₃ where
  totalNodes := h'.totalNodes.trans h.totalNodes
  quorumThreshold := h'.quorumThreshold.trans h.quorumThreshold
  votesOn proposalId := (h.votesOn proposalId).trans (h'.votesOn proposalId)

theorem Step.grows (h : Step c call c') : Grows c c' where
  totalNodes := by
    cases h with
    | same => rfl
    | proposed _ hnodes | voted _ _ _ hnodes => exact hnodes
  quorumThreshold := by
    cases h with
    | same => rfl
    | proposed _ _ hquorum | voted _ _ _ _ hquorum => exact hquorum
  votesOn proposalId := by
    obtain hsame | ⟨vote, -, hvoted⟩ := h.votesOn proposalId
    · rw [hsame]
    · rw [hvoted]
      exact prefix_append _ _

variable (checks)

theorem run_paired (hpaired : Paired c) (calls : List Call) :
    Paired ((replica checks).run c calls) :=
  (replica checks).run_invariant (P := Paired) (fun _ call h => (exec_spec checks h call).2) calls
    hpaired

/-- **Votes are only added along a run.** -/
theorem run_grows (hpaired : Paired c) (calls : List Call) :
    Grows c ((replica checks).run c calls) := by
  have hrun := (replica checks).run_relates (R := fun a b => Paired a → Paired b ∧ Grows a b)
    (fun s hs => ⟨hs, .refl s⟩)
    (fun a b d hab hbd ha => ⟨(hbd (hab ha).1).1, (hab ha).2.trans (hbd (hab ha).1).2⟩)
    (fun s call hs => ⟨(exec_spec checks hs call).2, (exec_spec checks hs call).1.grows⟩) c calls
  exact (hrun hpaired).2

/-- The voters that cast a vote on a proposal along a run. -/
def voters (calls : List Call) (proposalId : String) : Finset String :=
  (calls.filterMap fun
    | .castVote voterId votedId _ _ => if votedId = proposalId then some voterId else none
    | _ => none).toFinset

theorem mem_voters {calls : List Call} {voterId : String} :
    voterId ∈ voters calls proposalId ↔
      ∃ approve signature, .castVote voterId proposalId approve signature ∈ calls := by
  unfold voters
  rw [mem_toFinset, mem_filterMap]
  constructor
  · rintro ⟨call, hcall, hvoter⟩
    cases call with
    | propose | tally => cases hvoter
    | castVote voter voted approve signature =>
      simp only at hvoter
      split_ifs at hvoter with hvoted
      rw [Option.some.injEq] at hvoter
      subst hvoted hvoter
      exact ⟨approve, signature, hcall⟩
  · rintro ⟨approve, signature, hcall⟩
    refine ⟨_, hcall, ?_⟩
    simp only [if_true]

/-- **Every stored vote was cast.** -/
theorem mem_votesOn_run (hpaired : Paired c) (hempty : ∀ proposalId, c.votesOn proposalId = [])
    (calls : List Call) {vote : Vote}
    (hvote : vote ∈ ((replica checks).run c calls).votesOn proposalId) :
    .castVote vote.voterId proposalId vote.approve vote.signature ∈ calls := by
  have hall := (replica checks).run_history (P := fun calls c => ∀ vote ∈ c.votesOn proposalId,
      Call.castVote vote.voterId proposalId vote.approve vote.signature ∈ calls) (s := c)
    (by rw [hempty]; exact fun _ h => absurd h not_mem_nil)
    (fun calls call ih vote hvote => by
      have hstep := (exec_spec checks (run_paired checks hpaired calls) call).1
      obtain hsame | ⟨cast, hcall, hvoted⟩ := hstep.votesOn proposalId
      · change vote ∈ (exec checks _ call).1.votesOn proposalId at hvote
        rw [hsame] at hvote
        exact mem_append_left _ (ih vote hvote)
      · change vote ∈ (exec checks _ call).1.votesOn proposalId at hvote
        rw [hvoted, mem_append, mem_singleton] at hvote
        rcases hvote with hvote | rfl
        · exact mem_append_left _ (ih vote hvote)
        · rw [← hcall]
          exact mem_append_right _ (mem_singleton_self _))
    calls
  exact hall vote hvote

end

end Pandora.Swarm.Consensus
