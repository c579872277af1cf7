import Pandora.Lib.Checked
import Pandora.Swarm.Consensus

/-! # Decisions are final

The number of nodes and the quorum never change and votes are only added, so a decision to approve
stays. A decision to reject counts on no more voters than there are nodes: with at most that many it
stays too, with more of them it does not. -/

namespace Pandora.Swarm.Finality

open Lib.MachineInts Lib.Tables Lib.Runs Lib.Checked Swarm.Consensus BftConsensus List Machine
  UInt64

variable {checks : Bool} {c c' : BftConsensus} {totalNodes byzantineTolerance : UInt64}

/-! ### The sizes of a new replica -/

theorem usize_ok {x : ℤ} {n : UInt64} (h : usize checks x = .ok n) :
    (n.toNat : ℤ) = x % 2 ^ 64 ∧ ((0 ≤ x ∧ x < 2 ^ 64) ∨ checks = false) := by
  unfold usize at h
  split_ifs at h with hfits
  rw [Except.ok.injEq] at h
  refine ⟨?_, hfits⟩
  have hpos : 0 ≤ x % 2 ^ 64 := Int.emod_nonneg _ (by decide)
  have hlt : x % 2 ^ 64 < 2 ^ 64 := Int.emod_lt_of_pos _ (by decide)
  rw [← h, UInt64.ofInt, toNat_ofNat']
  omega

theorem new_ok (h : new checks totalNodes byzantineTolerance = .ok c) :
    c.totalNodes = totalNodes ∧
      c.quorumThreshold.toNat = (2 * byzantineTolerance.toNat + 1) % 2 ^ 64 ∧
      (3 * byzantineTolerance.toNat + 1) % 2 ^ 64 ≤ totalNodes.toNat ∧
      (3 * byzantineTolerance.toNat + 1 < 2 ^ 64 ∨ checks = false) ∧
      c.proposals = .empty ∧ c.votes = .empty ∧ c.byzantineTolerance = byzantineTolerance := by
  unfold new at h
  obtain ⟨triple, htriple, h⟩ := bind_eq_ok.mp h
  obtain ⟨bound, hbound, h⟩ := bind_eq_ok.mp h
  obtain ⟨htripleVal, htripleFits⟩ := usize_ok htriple
  obtain ⟨hboundVal, hboundFits⟩ := usize_ok hbound
  split_ifs at h with hnodes
  obtain ⟨double, hdouble, h⟩ := bind_eq_ok.mp h
  obtain ⟨quorum, hquorum, h⟩ := bind_eq_ok.mp h
  obtain ⟨hdoubleVal, -⟩ := usize_ok hdouble
  obtain ⟨hquorumVal, -⟩ := usize_ok hquorum
  rw [pure_eq_ok] at h
  subst h
  rw [lt_iff_toNat_lt] at hnodes
  refine ⟨rfl, ?_, ?_, ?_, rfl, rfl, rfl⟩
  · change quorum.toNat = _
    omega
  · omega
  · rcases htripleFits with htripleFits | hbuild
    · rcases hboundFits with hboundFits | hbuild
      · left
        omega
      · exact Or.inr hbuild
    · exact Or.inr hbuild

theorem usize_natCast {n : ℕ} (h : n < 2 ^ 64) : usize checks n = .ok (UInt64.ofNat n) := by
  unfold usize
  rw [if_pos (by omega), UInt64.ofInt]
  congr 2
  omega

/-- Without overflow every number of nodes from `3 * f + 1` on is accepted. -/
theorem new_of_fits (hfits : 3 * byzantineTolerance.toNat + 1 < 2 ^ 64)
    (hnodes : 3 * byzantineTolerance.toNat + 1 ≤ totalNodes.toNat) :
    new checks totalNodes byzantineTolerance = .ok
      ⟨totalNodes, byzantineTolerance, UInt64.ofNat (2 * byzantineTolerance.toNat + 1), .empty,
        .empty⟩ := by
  have htimes (k : ℕ) (hk : k ≤ 3) :
      usize checks (k * byzantineTolerance.toNat) =
        .ok (UInt64.ofNat (k * byzantineTolerance.toNat)) := by
    have hle : k * byzantineTolerance.toNat ≤ 3 * byzantineTolerance.toNat :=
      Nat.mul_le_mul_right _ hk
    rw [← Nat.cast_mul]
    exact usize_natCast (by omega)
  have hsucc (k : ℕ) (hk : k ≤ 3) :
      usize checks ((UInt64.ofNat (k * byzantineTolerance.toNat)).toNat + 1) =
        .ok (UInt64.ofNat (k * byzantineTolerance.toNat + 1)) := by
    have hle : k * byzantineTolerance.toNat ≤ 3 * byzantineTolerance.toNat :=
      Nat.mul_le_mul_right _ hk
    rw [toNat_ofNat', Nat.mod_eq_of_lt (by omega), ← Nat.cast_succ]
    exact usize_natCast (by omega)
  have hbound : ¬ totalNodes < UInt64.ofNat (3 * byzantineTolerance.toNat + 1) := by
    rw [lt_iff_toNat_lt, toNat_ofNat', Nat.mod_eq_of_lt hfits]
    omega
  unfold new
  rw [← Nat.cast_ofNat, htimes 3 (by omega), ok_bind, hsucc 3 (by omega), ok_bind, if_neg hbound,
    ← Nat.cast_ofNat, htimes 2 (by omega), ok_bind, hsucc 2 (by omega), ok_bind]
  rfl

/-- The sizes of a replica: a quorum, and the number of nodes that may reject without excluding
one. -/
def Sized (checks : Bool) (c : BftConsensus) (spare : ℕ) : Prop :=
  1 ≤ c.quorumThreshold.toNat ∧ c.totalNodes.toNat ≤ spare + c.quorumThreshold.toNat ∧
    ∃ n, usize checks (c.totalNodes.toNat - c.quorumThreshold.toNat) = .ok n ∧ n.toNat = spare

theorem new_sized (h : new checks totalNodes byzantineTolerance = .ok c) :
    ∃ spare, Sized checks c spare := by
  obtain ⟨hnodes, hquorum, hbound, hbuild, -, -⟩ := new_ok h
  have hnodesLt := c.totalNodes.toNat_lt
  have hquorumLt := c.quorumThreshold.toNat_lt
  have hfits : usize checks (c.totalNodes.toNat - c.quorumThreshold.toNat) =
      .ok (UInt64.ofInt (c.totalNodes.toNat - c.quorumThreshold.toNat)) := by
    unfold usize
    refine if_pos ?_
    rcases hbuild with hbuild | hbuild
    · left
      rw [Nat.mod_eq_of_lt hbuild] at hbound
      rw [Nat.mod_eq_of_lt (by omega)] at hquorum
      rw [hnodes] at hnodesLt ⊢
      omega
    · exact Or.inr hbuild
  obtain ⟨hspare, -⟩ := usize_ok hfits
  refine ⟨_, ?_, ?_, _, hfits, rfl⟩
  · omega
  · omega

theorem new_paired (h : new checks totalNodes byzantineTolerance = .ok c) :
    Paired c := by
  obtain ⟨-, -, -, -, hproposals, hvotes, -⟩ := new_ok h
  intro proposalId
  rw [hproposals, hvotes]
  rfl

theorem new_votesOn (h : new checks totalNodes byzantineTolerance = .ok c)
    (proposalId : String) : c.votesOn proposalId = [] := by
  obtain ⟨-, -, -, -, -, hvotes, -⟩ := new_ok h
  refine votesOn_of_none ?_
  rw [hvotes]
  rfl

variable {spare : ℕ}

theorem Sized.grows (h : Sized checks c spare) (hgrows : Grows c c') :
    Sized checks c' spare := by
  unfold Sized
  rw [hgrows.totalNodes, hgrows.quorumThreshold]
  exact h

/-! ### Decisions from numbers of votes -/

/-- The decision that the numbers of votes give. -/
def decisionOf (quorum spare approvals rejections : ℕ) : ConsensusDecision :=
  if quorum ≤ approvals then .approved
  else if spare < rejections then .rejected else .pending

/-- `tally` never fails. -/
theorem tally_sized (h : Sized checks c spare) (proposalId : String) :
    c.tally checks proposalId = .ok (decisionOf c.quorumThreshold.toNat spare
      (c.approvals proposalId) (c.rejections proposalId)) := by
  obtain ⟨hquorum, -, n, hn, hspare⟩ := h
  rcases hballot : c.votes.get? proposalId with _ | ballot
  · have hnone : c.votesOn proposalId = [] := votesOn_of_none hballot
    have happ : c.approvals proposalId = 0 := by rw [approvals, hnone]; rfl
    have hrej : c.rejections proposalId = 0 := by rw [rejections, hnone]; rfl
    rw [tally, hballot, happ, hrej, decisionOf, if_neg (by omega),
      if_neg (Nat.not_lt_zero spare)]
  · subst hspare
    rw [tally_eq checks c hballot, hn, ok_bind, decisionOf]
    by_cases happroved : c.quorumThreshold.toNat ≤ c.approvals proposalId
    · rw [if_pos happroved, if_pos happroved]
      rfl
    · rw [if_neg happroved, if_neg happroved]
      by_cases hrejected : n.toNat < c.rejections proposalId
      · rw [if_pos hrejected, if_pos hrejected]
        rfl
      · rw [if_neg hrejected, if_neg hrejected]
        rfl

/-- More votes, of no more voters than there are nodes, do not change a decision. -/
theorem decisionOf_mono {quorum a r a' r' : ℕ} (ha : a ≤ a') (hr : r ≤ r')
    (hall : a' + r' ≤ spare + quorum) (hdecided : decisionOf quorum spare a r ≠ .pending) :
    decisionOf quorum spare a' r' = decisionOf quorum spare a r := by
  unfold decisionOf at hdecided ⊢
  by_cases happroved : quorum ≤ a
  · rw [if_pos happroved, if_pos (happroved.trans ha)]
  · rw [if_neg happroved] at hdecided ⊢
    by_cases hrejected : spare < r
    · rw [if_pos hrejected, if_neg (by omega), if_pos (by omega)]
    · rw [if_neg hrejected] at hdecided
      exact absurd rfl hdecided

theorem approvals_add_rejections (c : BftConsensus) (proposalId : String) :
    c.approvals proposalId + c.rejections proposalId = (c.votesOn proposalId).length := by
  unfold approvals rejections
  have hcount := length_eq_countP_add_countP (fun vote : Vote => vote.approve)
    (l := c.votesOn proposalId)
  rw [hcount]
  congr 2
  funext vote
  cases vote.approve <;> rfl

theorem approvals_mono (hgrows : Grows c c') (proposalId : String) :
    c.approvals proposalId ≤ c'.approvals proposalId :=
  (hgrows.votesOn proposalId).sublist.countP_le

theorem rejections_mono (hgrows : Grows c c') (proposalId : String) :
    c.rejections proposalId ≤ c'.rejections proposalId :=
  (hgrows.votesOn proposalId).sublist.countP_le

theorem length_votesOn_le (checks : Bool) (hpaired : Paired c)
    (hempty : ∀ proposalId, c.votesOn proposalId = []) (calls : List Call) (proposalId : String) :
    (((replica checks).run c calls).votesOn proposalId).length ≤
      (voters calls proposalId).card := by
  have hnodup := votesOn_nodup ((replica checks).run c calls) proposalId
  have hcard := toFinset_card_of_nodup hnodup
  rw [length_map] at hcard
  rw [← hcard]
  refine Finset.card_le_card fun voterId hvoter => ?_
  rw [mem_toFinset, mem_map] at hvoter
  obtain ⟨vote, hvote, rfl⟩ := hvoter
  exact mem_voters.mpr ⟨vote.approve, vote.signature,
    mem_votesOn_run checks hpaired hempty calls hvote⟩

/-! ### Finality -/

variable {proposalId : String} {decision : ConsensusDecision}

theorem castVote_decision {voterId : String} {approve : Bool} {signature : List UInt8}
    (h : (c.castVote checks voterId proposalId approve signature).2 = .ok decision) :
    (c.castVote checks voterId proposalId approve signature).1.tally checks proposalId =
      .ok decision := by
  unfold castVote at h ⊢
  split_ifs at h ⊢ with hmissing
  rcases hballot : c.votes.get? proposalId with _ | ballot
  · rw [hballot] at h
    cases h
  · rw [hballot] at h
    rcases hvote : ballot.votes.get? voterId with _ | existing
    · simp only [hvote] at h ⊢
      exact h
    · simp only [hvote] at h ⊢
      split_ifs at h ⊢
      exact h

/-- What a call answers about a proposal is the decision of the state it leads to. -/
theorem exec_decision {call : Call}
    (h : (exec checks c call).2 = .ok (.decision proposalId decision)) :
    (exec checks c call).1.tally checks proposalId = .ok decision := by
  cases call with
  | propose proposerId proposed payloadHash timestamp =>
    obtain ⟨_, -, hreply⟩ := map_eq_ok.mp h
    cases hreply
  | castVote voterId voted approve signature =>
    obtain ⟨_, hcast, hreply⟩ := map_eq_ok.mp h
    obtain ⟨rfl, rfl⟩ := Reply.decision.inj hreply
    exact castVote_decision hcast
  | tally tallied =>
    obtain ⟨_, htally, hreply⟩ := map_eq_ok.mp h
    obtain ⟨rfl, rfl⟩ := Reply.decision.inj hreply
    exact htally

/-- A vote of a voter that has one on the proposal changes nothing. -/
theorem castVote_same {voterId : String} {vote : Vote}
    (hvote : vote ∈ c.votesOn proposalId) (hvoter : vote.voterId = voterId) (approve : Bool)
    (signature : List UInt8) :
    (exec checks c (.castVote voterId proposalId approve signature)).1 = c := by
  obtain hsame | ⟨ballot, hballot, hnew, -⟩ :=
    castVote_state checks c voterId proposalId approve signature
  · exact hsame
  · rw [votesOn_of_get? hballot] at hvote
    exact absurd hvoter (Table.get?_eq_none.mp hnew vote hvote)

/-- After a decision on a proposal every later call on it answers the same. -/
def Final (checks : Bool) (c : BftConsensus) (calls : List Call) (proposalId : String) : Prop :=
  ∀ (k l : ℕ) (call later : Call) (reply : Except (Fault SwarmError) Reply)
    (decision : ConsensusDecision),
    (replica checks).Answers c calls k call (.ok (.decision proposalId decision)) →
    decision ≠ .pending → k < l → (replica checks).Answers c calls l later reply →
    (later = .tally proposalId → reply = .ok (.decision proposalId decision)) ∧
      ∀ voterId approve signature, later = .castVote voterId proposalId approve signature →
        ∀ answer, reply = .ok answer → answer = .decision proposalId decision

/-- A vote of a voter whose vote on the proposal is stored changes no stored vote. -/
def KeepsVotes (checks : Bool) (c : BftConsensus) (calls : List Call) : Prop :=
  ∀ (k : ℕ) (voterId proposalId : String) (approve : Bool) (signature : List UInt8),
    calls[k]? = some (.castVote voterId proposalId approve signature) →
    (∃ vote ∈ ((replica checks).run c (calls.take k)).votesOn proposalId, vote.voterId = voterId) →
    (replica checks).run c (calls.take (k + 1)) = (replica checks).run c (calls.take k)

/-- The decision of a state stays along a run whose voters are no more than the nodes. -/
theorem tally_run (h : new checks totalNodes byzantineTolerance = .ok c) {calls rest : List Call}
    (hvoters : (voters (calls ++ rest) proposalId).card ≤ totalNodes.toNat)
    (htally : ((replica checks).run c calls).tally checks proposalId = .ok decision)
    (hdecided : decision ≠ .pending) :
    ((replica checks).run c (calls ++ rest)).tally checks proposalId = .ok decision := by
  have hpaired := new_paired h
  obtain ⟨spare, hsized⟩ := new_sized h
  have hgrows : Grows ((replica checks).run c calls) ((replica checks).run c (calls ++ rest)) := by
    rw [run_append]
    exact run_grows checks (run_paired checks hpaired calls) rest
  have hsized₁ := hsized.grows (run_grows checks hpaired calls)
  have hsized₂ := hsized₁.grows hgrows
  have hcount : ((replica checks).run c (calls ++ rest)).approvals proposalId +
      ((replica checks).run c (calls ++ rest)).rejections proposalId ≤
        spare + ((replica checks).run c calls).quorumThreshold.toNat := by
    rw [approvals_add_rejections]
    have hlength := length_votesOn_le checks hpaired (new_votesOn h) (calls ++ rest) proposalId
    have hroom := hsized₁.2.1
    rw [(run_grows checks hpaired calls).totalNodes, (new_ok h).1] at hroom
    omega
  rw [tally_sized hsized₁, Except.ok.injEq] at htally
  rw [tally_sized hsized₂, hgrows.quorumThreshold, Except.ok.injEq, ← htally]
  rw [← htally] at hdecided
  exact decisionOf_mono (approvals_mono hgrows proposalId) (rejections_mono hgrows proposalId)
    hcount hdecided

theorem voters_subset {calls rest : List Call} (proposalId : String) :
    voters calls proposalId ⊆ voters (calls ++ rest) proposalId := by
  intro voterId hvoter
  obtain ⟨approve, signature, hcall⟩ := mem_voters.mp hvoter
  exact mem_voters.mpr ⟨approve, signature, mem_append_left rest hcall⟩

theorem final_of_voters (h : new checks totalNodes byzantineTolerance = .ok c) {calls : List Call}
    (hvoters : (voters calls proposalId).card ≤ totalNodes.toNat) :
    Final checks c calls proposalId := by
  intro k l call later reply decision hk hdecided hkl hl
  obtain ⟨before, between, after, hcalls, hcall, hlater⟩ := hk.split hl hkl
  -- the state after the first of the two calls
  have hfirst : ((replica checks).run c (before ++ [call])).tally checks proposalId =
      .ok decision := by
    rw [run_snoc]
    exact exec_decision hcall
  rw [← run_snoc, ← run_append] at hlater
  have hkeeps : ∀ rest, (∃ tail, calls = before ++ [call] ++ rest ++ tail) →
      ((replica checks).run c (before ++ [call] ++ rest)).tally checks proposalId =
        .ok decision := by
    rintro rest ⟨tail, htail⟩
    refine tally_run h (le_trans (Finset.card_le_card ?_) hvoters) hfirst hdecided
    rw [htail]
    exact voters_subset proposalId
  refine ⟨?_, ?_⟩
  · rintro rfl
    have htally := hkeeps between ⟨.tally proposalId :: after, by rw [hcalls]; simp⟩
    rw [← hlater]
    change Except.map _ (tally checks _ proposalId) = _
    rw [htally]
    rfl
  · rintro voterId approve signature rfl answer rfl
    obtain ⟨decision', -, hanswer⟩ := map_eq_ok.mp hlater
    subst hanswer
    have hafter := exec_decision hlater
    have htally := hkeeps (between ++ [.castVote voterId proposalId approve signature])
      ⟨after, by rw [hcalls]; simp⟩
    rw [← append_assoc, run_snoc] at htally
    have hsame := hafter.symm.trans htally
    rw [Except.ok.injEq] at hsame
    rw [hsame]

theorem keepsVotes (c : BftConsensus) (calls : List Call) : KeepsVotes checks c calls := by
  rintro k voterId proposalId approve signature hcall ⟨vote, hvote, hvoter⟩
  have htake : calls.take (k + 1) =
      calls.take k ++ [.castVote voterId proposalId approve signature] := by
    rw [take_add_one, hcall]
    rfl
  rw [htake, run_snoc]
  exact castVote_same hvote hvoter approve signature

/-- **Decisions are final.** Along every run of a new replica, a proposal on which no more voters
vote than there are nodes keeps its decision, and a second vote of a voter changes nothing. -/
theorem decisions_final (h : BftConsensus.new checks totalNodes byzantineTolerance = .ok c)
    (calls : List Call) :
    (∀ proposalId, (voters calls proposalId).card ≤ totalNodes.toNat →
      Final checks c calls proposalId) ∧ KeepsVotes checks c calls :=
  ⟨fun _ hvoters => final_of_voters h hvoters, keepsVotes c calls⟩

/-! ### More voters than nodes -/

/-- A replica of four nodes, one of them faulty. -/
def fourNodes : BftConsensus := ⟨4, 1, 3, .empty, .empty⟩

theorem fourNodes_new : new true 4 1 = .ok fourNodes :=
  new_of_fits (by decide) (by decide)

/-- Two voters reject and two approve. -/
def fourVoters : List Call :=
  [.propose "node-a" "upgrade" ⟨List.replicate 32 0, Text.length_zeroBytes⟩ 7,
    .castVote "node-a" "upgrade" false [], .castVote "node-b" "upgrade" false [],
    .castVote "node-c" "upgrade" true [], .castVote "node-d" "upgrade" true [],
    .tally "upgrade"]

/-- A fifth voter that is none of the four nodes. -/
def fiveVoters : List Call := fourVoters ++ [.castVote "intruder" "upgrade" true []]

theorem fourVoters_final : BftConsensus.new true 4 1 = .ok fourNodes ∧
    (replica true).Answers fourNodes fourVoters 2 (.castVote "node-b" "upgrade" false [])
      (.ok (.decision "upgrade" .rejected)) ∧
    (replica true).Answers fourNodes fourVoters 5 (.tally "upgrade")
      (.ok (.decision "upgrade" .rejected)) ∧
    Final true fourNodes fourVoters "upgrade" := by
  have hnew : new true 4 1 = .ok fourNodes := fourNodes_new
  refine ⟨hnew, ⟨rfl, by decide +kernel⟩, ⟨rfl, by decide +kernel⟩, ?_⟩
  exact (decisions_final hnew fourVoters).1 "upgrade" (by decide +kernel)

theorem rejected_then_approved : BftConsensus.new true 4 1 = .ok fourNodes ∧
    ¬ Final true fourNodes fiveVoters "upgrade" := by
  refine ⟨fourNodes_new, fun hfinal => ?_⟩
  have hrejected : (replica true).Answers fourNodes fiveVoters 2
      (.castVote "node-b" "upgrade" false []) (.ok (.decision "upgrade" .rejected)) :=
    ⟨rfl, by decide +kernel⟩
  have happroved : (replica true).Answers fourNodes fiveVoters 6
      (.castVote "intruder" "upgrade" true []) (.ok (.decision "upgrade" .approved)) :=
    ⟨rfl, by decide +kernel⟩
  have hsame := (hfinal 2 6 _ _ _ _ hrejected (by decide) (by decide) happroved).2 _ _ _ rfl _ rfl
  exact absurd hsame (by decide)

end Pandora.Swarm.Finality
