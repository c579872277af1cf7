import Pandora.Lib.Quorums
import Pandora.Swarm.Finality

/-! # Agreement

Two replicas that approve have each counted a quorum of approvals. Quorums that share more nodes
than may be faulty share one that is not, and it approves one of two conflicting proposals at most.
The quorum is computed from the number of faulty nodes alone, so the replicas agree only when no
more nodes are added to the least number that tolerates them (`Tight`). -/

namespace Pandora.Swarm.Agreement

open Lib.Tables Lib.Runs Lib.Quorums Swarm.Consensus Swarm.Finality List BftConsensus

variable {checks : Bool} {c : BftConsensus} {totalNodes byzantineTolerance : UInt64}

/-! ### What is to hold -/

/-- Two quorums share more nodes than may be faulty. -/
def QuorumsIntersect (c : BftConsensus) : Prop :=
  ∀ nodes A B : Finset String, nodes.card = c.totalNodes.toNat → A ⊆ nodes → B ⊆ nodes →
    c.quorumThreshold.toNat ≤ A.card → c.quorumThreshold.toNat ≤ B.card →
    c.byzantineTolerance.toNat + 1 ≤ (A ∩ B).card

/-- A replica is fed votes of the nodes, and those of a node that is not faulty are the votes it
sends to every replica. -/
def Feeds (nodes faulty : Finset String) (sent : String → String → Bool) (calls : List Call) :
    Prop :=
  ∀ voterId proposalId approve signature, .castVote voterId proposalId approve signature ∈ calls →
    voterId ∈ nodes ∧ (voterId ∉ faulty → approve = sent voterId proposalId)

/-- Some call of the run answers that the proposal is approved. -/
def Approves (checks : Bool) (c : BftConsensus) (calls : List Call) (proposalId : String) : Prop :=
  ∃ k call, (replica checks).Answers c calls k call (.ok (.decision proposalId .approved))

/-- No two replicas approve two proposals of which each node that is not faulty approves one at
most. -/
def Agrees (checks : Bool) (c : BftConsensus) : Prop :=
  ∀ (nodes faulty : Finset String) (sent : String → String → Bool) (p p' : String)
    (calls calls' : List Call), nodes.card = c.totalNodes.toNat → faulty ⊆ nodes →
    faulty.card ≤ c.byzantineTolerance.toNat → Feeds nodes faulty sent calls →
    Feeds nodes faulty sent calls' → p ≠ p' →
    (∀ node ∈ nodes, node ∉ faulty → ¬ (sent node p = true ∧ sent node p' = true)) →
    ¬ (Approves checks c calls p ∧ Approves checks c calls' p')

/-- The nodes are few enough for quorums of `2 * f + 1`. -/
def Tight (totalNodes byzantineTolerance : UInt64) : Prop :=
  totalNodes.toNat < (2 * byzantineTolerance.toNat + 1) % 2 ^ 64 ∨
    totalNodes.toNat + byzantineTolerance.toNat + 1 ≤
      2 * ((2 * byzantineTolerance.toNat + 1) % 2 ^ 64)

instance : Decidable (Tight totalNodes byzantineTolerance) := by
  unfold Tight
  infer_instance

theorem tight_iff (h : new checks totalNodes byzantineTolerance = .ok c)
    (hfits : 3 * byzantineTolerance.toNat + 1 < 2 ^ 64) :
    Tight totalNodes byzantineTolerance ↔ totalNodes.toNat = 3 * byzantineTolerance.toNat + 1 := by
  obtain ⟨-, -, hbound, -⟩ := new_ok h
  rw [Nat.mod_eq_of_lt hfits] at hbound
  unfold Tight
  rw [Nat.mod_eq_of_lt (by omega)]
  omega

/-! ### From quorums to agreement -/

/-- The voters whose approval is stored. -/
def approvers (c : BftConsensus) (proposalId : String) : Finset String :=
  (((c.votesOn proposalId).filter fun vote => vote.approve).map Vote.voterId).toFinset

theorem card_approvers (c : BftConsensus) (proposalId : String) :
    (approvers c proposalId).card = c.approvals proposalId := by
  have hnodup : (((c.votesOn proposalId).filter fun vote => vote.approve).map Vote.voterId).Nodup :=
    (votesOn_nodup c proposalId).sublist (List.filter_sublist.map _)
  unfold approvers approvals
  rw [toFinset_card_of_nodup hnodup, length_map, countP_eq_length_filter]

/-- A proposal is approved by a quorum of voters that cast an approval. -/
theorem exists_quorum (h : new checks totalNodes byzantineTolerance = .ok c)
    {calls : List Call} {proposalId : String} (happroves : Approves checks c calls proposalId) :
    ∃ A : Finset String, c.quorumThreshold.toNat ≤ A.card ∧
      ∀ node ∈ A, ∃ signature, .castVote node proposalId true signature ∈ calls := by
  obtain ⟨k, call, hcall, hanswer⟩ := happroves
  have hpaired := new_paired h
  obtain ⟨spare, hsized⟩ := new_sized h
  -- the state after the call that answers
  have htake : calls.take (k + 1) = calls.take k ++ [call] := by
    rw [take_add_one, hcall]
    rfl
  have htally := exec_decision hanswer
  change ((replica checks).step ((replica checks).run c (calls.take k)) call).1.tally _ _ = _
    at htally
  rw [← Machine.run_snoc, ← htake] at htally
  have hgrows := run_grows checks hpaired (calls.take (k + 1))
  rw [tally_sized (hsized.grows hgrows), hgrows.quorumThreshold, Except.ok.injEq] at htally
  refine ⟨approvers ((replica checks).run c (calls.take (k + 1))) proposalId, ?_, ?_⟩
  · rw [card_approvers]
    by_contra hfew
    unfold decisionOf at htally
    rw [if_neg hfew] at htally
    split_ifs at htally
  · intro node hnode
    unfold approvers at hnode
    rw [mem_toFinset, mem_map] at hnode
    obtain ⟨vote, hvote, rfl⟩ := hnode
    obtain ⟨hstored, happrove⟩ := List.mem_filter.mp hvote
    have hcast := mem_votesOn_run checks hpaired (new_votesOn h) _ hstored
    rw [happrove] at hcast
    exact ⟨vote.signature, mem_of_mem_take hcast⟩

theorem quorumsIntersect_of_tight (h : new checks totalNodes byzantineTolerance = .ok c)
    (htight : Tight totalNodes byzantineTolerance) : QuorumsIntersect c := by
  obtain ⟨hnodes, hquorum, -, -, -, -, htolerance⟩ := new_ok h
  intro nodes A B hcard hA hB hqA hqB
  have hshare := card_inter_ge hA hB hqA hqB
  have hsize := Finset.card_le_card hA
  unfold Tight at htight
  rw [← hquorum, ← hnodes, ← htolerance] at htight
  omega

theorem agrees_of_quorumsIntersect (h : new checks totalNodes byzantineTolerance = .ok c)
    (hintersect : QuorumsIntersect c) : Agrees checks c := by
  rintro nodes faulty sent p p' calls calls' hcard - hfaulty hfeeds hfeeds' - hone ⟨hp, hp'⟩
  obtain ⟨A, hqA, hA⟩ := exists_quorum h hp
  obtain ⟨B, hqB, hB⟩ := exists_quorum h hp'
  have hAnodes : A ⊆ nodes := by
    intro node hnode
    obtain ⟨signature, hcall⟩ := hA node hnode
    exact (hfeeds _ _ _ _ hcall).1
  have hBnodes : B ⊆ nodes := by
    intro node hnode
    obtain ⟨signature, hcall⟩ := hB node hnode
    exact (hfeeds' _ _ _ _ hcall).1
  have hshare := hintersect nodes A B hcard hAnodes hBnodes hqA hqB
  -- one of the nodes in both quorums is not faulty
  have hhonest : ∃ node ∈ A ∩ B, node ∉ faulty := by
    by_contra hall
    have hsub : A ∩ B ⊆ faulty := by
      intro node hnode
      by_contra hnot
      exact hall ⟨node, hnode, hnot⟩
    have hle := Finset.card_le_card hsub
    omega
  obtain ⟨node, hnode, hnot⟩ := hhonest
  obtain ⟨hnodeA, hnodeB⟩ := Finset.mem_inter.mp hnode
  obtain ⟨_, hcall⟩ := hA node hnodeA
  obtain ⟨_, hcall'⟩ := hB node hnodeB
  refine hone node (hAnodes hnodeA) hnot ⟨?_, ?_⟩
  · exact ((hfeeds _ _ _ _ hcall).2 hnot).symm
  · exact ((hfeeds' _ _ _ _ hcall').2 hnot).symm

/-! ### Two replicas that disagree -/

theorem castVote_new (checks : Bool) (hpaired : Paired c) {ballot : Ballot}
    {voterId proposalId : String} (hballot : c.votes.get? proposalId = some ballot)
    (hnew : ballot.votes.get? voterId = none) (approve : Bool) (signature : List UInt8) :
    (exec checks c (.castVote voterId proposalId approve signature)).1 =
      c.addVote ballot ⟨voterId, approve, signature⟩ := by
  have hproposed : ¬ (c.proposals.get? proposalId).isNone = true := by
    have hsome := hpaired proposalId
    rw [hballot] at hsome
    rw [Option.isNone_iff_eq_none, ← Option.not_isSome_iff_eq_none, ← hsome]
    simp
  change (c.castVote checks voterId proposalId approve signature).1 = _
  unfold castVote
  rw [if_neg hproposed, hballot]
  simp only [hnew]

/-- Every one of the voters approves. -/
def approveAll (proposalId : String) (voters : List String) : List Call :=
  voters.map fun voterId => .castVote voterId proposalId true []

theorem votesOn_approveAll (checks : Bool) {proposalId : String} :
    ∀ {voters : List String} {c : BftConsensus}, Paired c →
      (c.votes.get? proposalId).isSome = true → voters.Nodup →
    (∀ vote ∈ c.votesOn proposalId, vote.voterId ∉ voters) →
    ((replica checks).run c (approveAll proposalId voters)).votesOn proposalId =
      c.votesOn proposalId ++ voters.map fun voterId => ⟨voterId, true, []⟩
  | [], c, _, _, _, _ => (append_nil _).symm
  | voterId :: voters, c, hpaired, hsome, hnodup, hfree => by
    obtain ⟨ballot, hballot⟩ := Option.isSome_iff_exists.mp hsome
    obtain ⟨hnot, hnodup⟩ := List.nodup_cons.mp hnodup
    have hrows := votesOn_of_get? hballot
    have hnew : ballot.votes.get? voterId = none := by
      rw [Table.get?_eq_none]
      intro vote hvote hvoter
      rw [← Table.mem_rows, ← hrows] at hvote
      exact hfree vote hvote (hvoter ▸ mem_cons_self)
    have hexec := castVote_new checks hpaired hballot hnew true []
    have hpaired' := (exec_spec checks hpaired (.castVote voterId proposalId true [])).2
    rw [hexec] at hpaired'
    have hget := (addVote_writes ⟨voterId, true, []⟩ hballot).same
    have hvotes : (c.addVote ballot ⟨voterId, true, []⟩).votesOn proposalId =
        c.votesOn proposalId ++ [⟨voterId, true, []⟩] := by
      rw [votesOn_of_get? hget, hrows]
      exact (Table.insert?_eq_some (Table.insert?_eq_upsert hnew)).2
    have hrest := votesOn_approveAll checks hpaired' (by rw [hget]; rfl) hnodup (by
      intro vote hvote
      rw [hvotes, mem_append, mem_singleton] at hvote
      rcases hvote with hvote | rfl
      · exact fun hmem => hfree vote hvote (mem_cons_of_mem _ hmem)
      · exact hnot)
    change ((replica checks).run (exec checks c (.castVote voterId proposalId true [])).1
      (approveAll proposalId voters)).votesOn proposalId = _
    rw [hexec, hrest, hvotes, append_assoc]
    rfl

/-- The calls of a replica that is sent a proposal and the approvals of the voters. -/
def approvedBy (proposalId : String) (voters : List String) : List Call :=
  .propose "proposer" proposalId ⟨List.replicate 32 0, Text.length_zeroBytes⟩ 0 ::
    (approveAll proposalId voters ++ [.tally proposalId])

theorem approves_approvedBy (h : new checks totalNodes byzantineTolerance = .ok c)
    (proposalId : String) {voters : List String} (hnodup : voters.Nodup)
    (hquorum : voters.length = c.quorumThreshold.toNat) :
    Approves checks c (approvedBy proposalId voters) proposalId := by
  have hpaired := new_paired h
  obtain ⟨spare, hsized⟩ := new_sized h
  obtain ⟨-, -, -, -, hproposals, hvotes, -⟩ := new_ok h
  let proposed := (c.propose "proposer" proposalId ⟨List.replicate 32 0, rfl⟩ 0).1
  have hexec : (exec checks c
      (.propose "proposer" proposalId ⟨List.replicate 32 0, rfl⟩ 0)).1 = proposed := rfl
  have hpaired' : Paired proposed := by
    rw [← hexec]
    exact (exec_spec checks hpaired _).2
  have hballot : proposed.votes.get? proposalId = some ⟨proposalId, .empty⟩ := by
    change (c.propose "proposer" proposalId ⟨List.replicate 32 0, rfl⟩ 0).1.votes.get? _ = _
    unfold propose
    rw [hproposals, Table.get?_empty]
    exact (Table.get?_upsert proposalId).trans (if_pos rfl)
  have hnone : proposed.votesOn proposalId = [] := votesOn_of_get? hballot
  have hall := votesOn_approveAll checks hpaired' (by rw [hballot]; rfl) hnodup
    (by rw [hnone]; exact fun _ hvote => absurd hvote not_mem_nil)
  rw [hnone, nil_append] at hall
  -- the approvals are counted
  let calls := Call.propose "proposer" proposalId ⟨List.replicate 32 0, rfl⟩ 0 ::
    approveAll proposalId voters
  have hgrows := run_grows checks hpaired calls
  have happrovals : ((replica checks).run c calls).approvals proposalId = voters.length := by
    unfold approvals
    change (((replica checks).run proposed (approveAll proposalId voters)).votesOn
      proposalId).countP _ = _
    rw [hall, countP_map]
    exact List.countP_eq_length.mpr fun _ _ => rfl
  have htally : ((replica checks).run c calls).tally checks proposalId = .ok .approved := by
    rw [tally_sized (hsized.grows hgrows), happrovals, hgrows.quorumThreshold, hquorum, decisionOf,
      if_pos le_rfl]
  refine ⟨calls.length, .tally proposalId, Machine.answers_last ?_⟩
  change Except.map _ (((replica checks).run c calls).tally checks proposalId) = _
  rw [htally]
  rfl

theorem mem_approvedBy {proposalId : String} {voters : List String} {voterId voted : String}
    {approve : Bool} {signature : List UInt8}
    (h : .castVote voterId voted approve signature ∈ approvedBy proposalId voters) :
    voterId ∈ voters ∧ voted = proposalId ∧ approve = true := by
  unfold approvedBy approveAll at h
  simp only [mem_cons, mem_append, mem_map, not_mem_nil, reduceCtorEq,
    false_or, or_false] at h
  obtain ⟨voter, hvoter, hcall⟩ := h
  obtain ⟨rfl, rfl, rfl, -⟩ := Call.castVote.inj hcall
  exact ⟨hvoter, rfl, rfl⟩

theorem not_agrees (h : new checks totalNodes byzantineTolerance = .ok c)
    (htight : ¬ Tight totalNodes byzantineTolerance) :
    ¬ QuorumsIntersect c ∧ ¬ Agrees checks c := by
  obtain ⟨hnodes, hquorum, -, -, -, -, htolerance⟩ := new_ok h
  unfold Tight at htight
  rw [← hquorum, ← hnodes, ← htolerance] at htight
  obtain ⟨nodes, hcard⟩ := Infinite.exists_subset_card_eq String c.totalNodes.toNat
  obtain ⟨A, B, hA, hB, hcardA, hcardB, hinter⟩ :=
    exists_two_quorums (q := c.quorumThreshold.toNat) (show _ ≤ nodes.card by omega)
  refine ⟨fun hintersect => ?_, fun hagrees => ?_⟩
  · have hshare := hintersect nodes A B hcard hA hB hcardA.ge hcardB.ge
    omega
  · -- the nodes in both quorums approve one proposal here and the other there
    let sent : String → String → Bool := fun node proposalId =>
      if proposalId = "left" then decide (node ∈ A) else decide (node ∈ B)
    have hfeeds : ∀ {Q : Finset String} (proposal : String), Q ⊆ nodes →
        (∀ node ∈ Q, sent node proposal = true) →
        Feeds nodes (A ∩ B) sent (approvedBy proposal Q.toList) := by
      intro Q proposal hQ hsent voterId proposalId approve signature hcall
      obtain ⟨hvoter, rfl, rfl⟩ := mem_approvedBy hcall
      rw [Finset.mem_toList] at hvoter
      exact ⟨hQ hvoter, fun _ => (hsent voterId hvoter).symm⟩
    have hleft := hfeeds "left" hA fun node h => by simp [sent, h]
    have hright := hfeeds "right" hB fun node h => by simp [sent, h]
    refine hagrees nodes (A ∩ B) sent "left" "right" _ _ hcard
      (Finset.inter_subset_left.trans hA) (by omega) hleft hright (by decide) ?_ ⟨?_, ?_⟩
    · rintro node - hnot ⟨hsentA, hsentB⟩
      refine hnot (Finset.mem_inter.mpr ⟨?_, ?_⟩)
      · simpa [sent] using hsentA
      · simpa [sent] using hsentB
    · exact approves_approvedBy h "left" A.nodup_toList (by rw [Finset.length_toList, hcardA])
    · exact approves_approvedBy h "right" B.nodup_toList (by rw [Finset.length_toList, hcardB])

/-- **When quorums intersect and replicas agree.** -/
theorem agrees_iff_tight (h : BftConsensus.new checks totalNodes byzantineTolerance = .ok c) :
    (QuorumsIntersect c ↔ Tight totalNodes byzantineTolerance) ∧
    (Agrees checks c ↔ Tight totalNodes byzantineTolerance) ∧
    (3 * byzantineTolerance.toNat + 1 < 2 ^ 64 → (Tight totalNodes byzantineTolerance ↔
        totalNodes.toNat = 3 * byzantineTolerance.toNat + 1)) := by
  have hintersect := quorumsIntersect_of_tight h
  refine ⟨⟨fun hprop => ?_, hintersect⟩, ⟨fun hprop => ?_, fun htight => ?_⟩, tight_iff h⟩
  · by_contra htight
    exact (not_agrees h htight).1 hprop
  · by_contra htight
    exact (not_agrees h htight).2 hprop
  · exact agrees_of_quorumsIntersect h (hintersect htight)

theorem four_nodes_agree : BftConsensus.new true 4 1 = .ok fourNodes ∧
    QuorumsIntersect fourNodes ∧ Agrees true fourNodes := by
  have htight : Tight 4 1 := by decide
  have hiff := agrees_iff_tight fourNodes_new
  exact ⟨fourNodes_new, hiff.1.mpr htight, hiff.2.1.mpr htight⟩

/-- A fifth node, with the quorum of four. -/
def fiveNodes : BftConsensus := ⟨5, 1, 3, .empty, .empty⟩

/-- Two quorums of three out of five nodes share one node, and that one may be faulty. -/
theorem five_nodes_disagree : BftConsensus.new true 5 1 = .ok fiveNodes ∧
    ¬ QuorumsIntersect fiveNodes ∧ ¬ Agrees true fiveNodes := by
  have hnew : new true 5 1 = .ok fiveNodes := new_of_fits (by decide) (by decide)
  exact ⟨hnew, not_agrees hnew (by decide)⟩

/-- **Approval by nodes that are not faulty.** What is approved has the approvals of more of them
than may be faulty, and they can approve any proposal without the others. -/
theorem approvals_faultless (h : BftConsensus.new checks totalNodes byzantineTolerance = .ok c)
    (hfits : 3 * byzantineTolerance.toNat + 1 < 2 ^ 64) {nodes faulty : Finset String}
    (hcard : nodes.card = c.totalNodes.toNat) (hfaulty : faulty.card ≤ c.byzantineTolerance.toNat)
    (p : String) :
    (∀ sent calls, Feeds nodes faulty sent calls → Approves checks c calls p →
      c.byzantineTolerance.toNat + 1 ≤ {node ∈ nodes \ faulty | sent node p = true}.card) ∧
    ∃ calls, Feeds (nodes \ faulty) ∅ (fun _ _ => true) calls ∧ Approves checks c calls p := by
  obtain ⟨hnodes, hquorum, hbound, -, -, -, htolerance⟩ := new_ok h
  rw [← htolerance] at hquorum hbound hfits
  rw [Nat.mod_eq_of_lt hfits, ← hnodes] at hbound
  rw [Nat.mod_eq_of_lt (by omega)] at hquorum
  constructor
  · intro sent calls hfeeds happroves
    obtain ⟨A, hqA, hA⟩ := exists_quorum h happroves
    have hsub : A \ faulty ⊆ {node ∈ nodes \ faulty | sent node p = true} := by
      intro node hnode
      obtain ⟨hmem, hnot⟩ := Finset.mem_sdiff.mp hnode
      obtain ⟨signature, hcall⟩ := hA node hmem
      obtain ⟨hknown, hsent⟩ := hfeeds _ _ _ _ hcall
      exact Finset.mem_filter.mpr ⟨Finset.mem_sdiff.mpr ⟨hknown, hnot⟩, (hsent hnot).symm⟩
    have hle := Finset.card_le_card hsub
    have hleft := Finset.le_card_sdiff faulty A
    omega
  · have hleft := Finset.le_card_sdiff faulty nodes
    obtain ⟨Q, hQ, hcardQ⟩ := Finset.exists_subset_card_eq
      (show c.quorumThreshold.toNat ≤ (nodes \ faulty).card by omega)
    refine ⟨approvedBy p Q.toList, ?_, approves_approvedBy h p Q.nodup_toList
      (by rw [Finset.length_toList, hcardQ])⟩
    intro voterId proposalId approve signature hcall
    obtain ⟨hvoter, -, rfl⟩ := mem_approvedBy hcall
    exact ⟨hQ (Finset.mem_toList.mp hvoter), fun _ => rfl⟩

theorem approvals_faultless_sample : ∃ calls,
    Feeds ({"a", "b", "c", "d"} \ {"d"}) ∅ (fun _ _ => true) calls ∧
      Approves true fourNodes calls "proposal" :=
  (approvals_faultless fourNodes_new (by decide) (by decide) (by decide) "proposal").2

end Pandora.Swarm.Agreement
