import Pandora.Hnsw.Index
import Pandora.Lib.Outcomes

/-! # Where the searches go

Neither search leaves the nodes that can be reached (`Reach`): from the entry point along the lists
of the highest layer, and from there down, layer by layer. The greedy descent reads the list of each
node it comes to, and so fails where there is none (`greedySearchLevel_outcome`); the beam passes
over such a node (`searchLayer_ok`). Both end, since each pass of the one brings it nearer to the
query and the other has every node as a candidate once. -/

namespace Pandora.Hnsw.HnswIndex

open Lib.Checked Lib.Outcomes List

variable {V D : Type} {env : HnswEnv V D} {g : HnswIndex V} {query : V} {E : Fault → Prop}
  {R : ℕ → Prop} {level i x : ℕ}

/-- What can be reached at a layer. -/
inductive Reach (g : HnswIndex V) : ℕ → ℕ → Prop
  | entry {e : ℕ} (h : g.entryPoint = some e) : Reach g g.maxLevel e
  | down {l i : ℕ} (h : Reach g (l + 1) i) : Reach g l i
  | along {l i x : ℕ} {ids : List ℕ} (h : Reach g l i) (hids : g.adjacency i l = some ids)
      (hx : x ∈ ids) : Reach g l x

theorem reached_of_le {R : ℕ → ℕ → Prop} (hdown : ∀ l i, R (l + 1) i → R l i) {l l' : ℕ}
    (h : R l i) (hle : l' ≤ l) : R l' i := by
  induction l with
  | zero => exact Nat.le_zero.mp hle ▸ h
  | succ l ih =>
    rcases Nat.le_succ_iff.mp hle with hle | rfl
    · exact ih (hdown l i h) hle
    · exact h

theorem Reach.of_le {l l' : ℕ} (h : g.Reach l i) (hle : l' ≤ l) : g.Reach l' i :=
  reached_of_le (fun _ _ => Reach.down) h hle

/-- Links and the entry point are nodes, and there is an entry point if there are nodes. -/
structure Linked (g : HnswIndex V) : Prop where
  present : g.nodes ≠ [] → ∃ e, g.entryPoint = some e
  entry : ∀ e, g.entryPoint = some e → e < g.nodes.length
  links : ∀ i l ids, g.adjacency i l = some ids → ∀ x ∈ ids, x < g.nodes.length

theorem Reach.lt {l : ℕ} (hg : g.Linked) (h : g.Reach l i) : i < g.nodes.length := by
  induction h with
  | entry h => exact hg.entry _ h
  | down _ ih => exact ih
  | along _ hids hx => exact hg.links _ _ _ hids _ hx

/-- The nodes of a search at a layer: what is linked to one of them is one of them. -/
structure Closed (g : HnswIndex V) (level : ℕ) (R : ℕ → Prop) : Prop where
  lt : ∀ i, R i → i < g.nodes.length
  along : ∀ i ids, R i → g.adjacency i level = some ids → ∀ x ∈ ids, R x

theorem closed_reach (hg : g.Linked) (level : ℕ) : g.Closed level (g.Reach level) :=
  ⟨fun _ h => h.lt hg, fun _ _ h hids _ hx => h.along hids hx⟩

theorem distanceToNode_ok (env : HnswEnv V D) (query : V) (h : i < g.nodes.length) :
    ∃ d, g.distanceToNode env query i = .ok d := by
  unfold distanceToNode nodeAt
  rw [List.getElem?_eq_getElem h]
  exact ⟨_, rfl⟩

theorem distanceBetweenNodes_ok {a b : ℕ} (env : HnswEnv V D) (ha : a < g.nodes.length)
    (hb : b < g.nodes.length) : ∃ d, g.distanceBetweenNodes env a b = .ok d := by
  unfold distanceBetweenNodes nodeAt
  rw [List.getElem?_eq_getElem ha, List.getElem?_eq_getElem hb]
  split_ifs
  all_goals exact ⟨_, rfl⟩

/-- A list of different nodes has no more of them than there are. -/
theorem length_le_of_nodup {is : List ℕ} {n : ℕ} (hnodup : is.Nodup) (h : ∀ i ∈ is, i < n) :
    is.length ≤ n := by
  have hsub := hnodup.subperm fun i hi => List.mem_range.mpr (h i hi)
  simpa using hsub.length_le

/-! ### The greedy descent -/

/-- The state in a pass that began at the distance `start`. -/
structure Nearing (env : HnswEnv V D) (g : HnswIndex V) (query : V) (R : ℕ → Prop) (start : D)
    (s : Descent D) : Prop where
  reached : R s.curr
  dist : g.distanceToNode env query s.curr = .ok s.currDist
  nearer : if s.changed then env.lt s.currDist start = true else s.currDist = start

theorem Nearing.closerNeighbor {start : D} {s : Descent D} (h : Nearing env g query R start s)
    (hx : R x) (hlt : x < g.nodes.length) :
    Outcome E (g.closerNeighbor env query s x) (Nearing env g query R start) := by
  obtain ⟨d, hd⟩ := distanceToNode_ok env query hlt
  unfold HnswIndex.closerNeighbor
  rw [hd]
  show Nearing env g query R start (if env.lt d s.currDist then ⟨x, d, true⟩ else s)
  split_ifs with hcloser
  · refine ⟨hx, hd, ?_⟩
    have hnearer := h.nearer
    show env.lt d start = true
    split_ifs at hnearer
    · exact env.lt_trans _ _ _ hcloser hnearer
    · exact hnearer ▸ hcloser
  · exact h

/-- **The passes**: `passed` are the nodes that were left behind, each further away. -/
theorem greedyPasses_outcome (hR : g.Closed level R)
    (hE : ∀ i, R i → g.adjacency i level = none → E .outOfRange) :
    ∀ {fuel curr : ℕ} {currDist : D} {passed : List ℕ}, R curr →
      g.distanceToNode env query curr = .ok currDist → passed.Nodup →
      (∀ p ∈ passed, p < g.nodes.length ∧
        ∃ d, g.distanceToNode env query p = .ok d ∧ env.lt currDist d = true) →
      g.nodes.length < passed.length + fuel →
      Outcome E (g.greedyPasses env query level fuel curr currDist) R
  | 0, curr, currDist, passed, _, _, hnodup, hpassed, hfuel => by
    have hlength := length_le_of_nodup hnodup fun p hp => (hpassed p hp).1
    omega
  | fuel + 1, curr, currDist, passed, hcurr, hdist, hnodup, hpassed, hfuel => by
    rw [greedyPasses, neighborsAt]
    rcases hids : g.adjacency curr level with _ | ids
    · exact hE curr hcurr hids
    · have hpass : Outcome E (ids.foldlM (g.closerNeighbor env query) ⟨curr, currDist, false⟩)
          (Nearing env g query R currDist) := by
        refine Outcome.foldlM _ ⟨hcurr, hdist, rfl⟩ fun s x hx hs => ?_
        have hxR := hR.along curr ids hcurr hids x hx
        exact hs.closerNeighbor hxR (hR.lt x hxR)
      show Outcome E (ids.foldlM (g.closerNeighbor env query) ⟨curr, currDist, false⟩ >>= _) R
      refine hpass.bind fun s hs => ?_
      have hnearer := hs.nearer
      split_ifs at hnearer ⊢ with hchanged
      · -- the node that is left is further away, and was not left before
        have hfresh : curr ∉ passed := by
          intro hmem
          obtain ⟨-, d, hd, hlt⟩ := hpassed curr hmem
          rw [hdist, Except.ok.injEq] at hd
          rw [← hd, env.lt_irrefl] at hlt
          exact Bool.false_ne_true hlt
        refine @greedyPasses_outcome hR hE fuel _ _ (curr :: passed) hs.reached hs.dist
          (List.nodup_cons.mpr ⟨hfresh, hnodup⟩) ?_ (by rw [length_cons]; omega)
        refine List.forall_mem_cons.mpr ⟨⟨hR.lt curr hcurr, currDist, hdist, hnearer⟩, ?_⟩
        intro p hp
        obtain ⟨hlt, d, hd, hfurther⟩ := hpassed p hp
        exact ⟨hlt, d, hd, env.lt_trans _ _ _ hnearer hfurther⟩
      · exact hs.reached

/-- **The greedy descent** at one layer. -/
theorem greedySearchLevel_outcome {curr : ℕ} (hR : g.Closed level R)
    (hE : ∀ i, R i → g.adjacency i level = none → E .outOfRange) (hcurr : R curr) :
    Outcome E (g.greedySearchLevel env query curr level) R := by
  obtain ⟨d, hd⟩ := distanceToNode_ok env query (hR.lt curr hcurr)
  unfold greedySearchLevel
  rw [hd]
  exact greedyPasses_outcome hR hE hcurr hd nodup_nil (forall_mem_nil _) (by simp)

/-- The descent through the layers ends at what can be reached at the one below. -/
theorem descend_outcome (hg : g.Linked)
    (hE : ∀ l i, g.Reach l i → g.adjacency i l = none → E .outOfRange) {lowest : ℕ} :
    ∀ {steps curr : ℕ}, (0 < steps → lowest + steps ≤ g.maxLevel + 1) →
      (∀ l < lowest + steps, l ≤ g.maxLevel → g.Reach l curr) →
      Outcome E (g.descend env query lowest steps curr)
        fun last => ∀ l < lowest, l ≤ g.maxLevel → g.Reach l last
  | 0, curr, _, hcurr => hcurr
  | steps + 1, curr, hfits, hcurr => by
    have htop := hfits (Nat.succ_pos steps)
    rw [descend]
    refine (greedySearchLevel_outcome (closed_reach hg (lowest + steps)) (hE _)
      (hcurr _ (by omega) (by omega))).bind fun next hnext => ?_
    exact descend_outcome hg hE (fun _ => by omega) fun l hl _ => hnext.of_le (by omega)

/-! ### The beam -/

theorem forall_push {heap : Heap D} {h : heap.State} {c : CandidateItem D}
    {p : CandidateItem D → Prop} (hc : p c) (hall : ∀ c ∈ heap.items h, p c) :
    ∀ other ∈ heap.items (heap.push h c), p other := by
  intro other hother
  rcases List.mem_cons.mp ((heap.items_push h c).mem_iff.mp hother) with rfl | hother
  · exact hc
  · exact hall other hother

/-- The candidates and results were visited, and what was visited can be reached. A node that is
visited becomes a candidate once at most. -/
structure Beam.Kept (g : HnswIndex V) (R : ℕ → Prop) (b : Beam env) : Prop where
  nodup : b.visited.Nodup
  visited : ∀ i ∈ b.visited, R i
  candidates : ∀ c ∈ env.minHeap.items b.candidates, R c.nodeId
  results : ∀ c ∈ env.maxHeap.items b.results, R c.nodeId

/-- How many candidates are left, against the nodes that were not visited. -/
def Beam.Within (b : Beam env) (n m : ℕ) : Prop :=
  (env.minHeap.items b.candidates).length + n ≤ b.visited.length + m

theorem Beam.Kept.enter {b : Beam env} (hb : b.Kept g R) (hwithin : b.Within 0 0) (hx : R x) :
    ∃ b', g.enter env query b x = .ok b' ∧ b'.Kept g R ∧ b'.Within 0 0 := by
  unfold HnswIndex.enter
  split_ifs with hfresh
  · obtain ⟨d, hd⟩ := distanceToNode_ok env query hfresh.1
    rw [hd]
    refine ⟨_, rfl, ⟨List.nodup_cons.mpr ⟨hfresh.2, hb.nodup⟩,
      List.forall_mem_cons.mpr ⟨hx, hb.visited⟩, forall_push hx hb.candidates,
      forall_push hx hb.results⟩, ?_⟩
    unfold Beam.Within at hwithin ⊢
    dsimp only
    rw [(env.minHeap.items_push b.candidates ⟨x, d⟩).length_eq, length_cons, length_cons]
    omega
  · exact ⟨b, rfl, hb, hwithin⟩

theorem Beam.Kept.visit {b : Beam env} {ef n m : ℕ} (hb : b.Kept g R) (hwithin : b.Within n m)
    (hx : R x) : ∃ b', g.visit env query ef b x = .ok b' ∧ b'.Kept g R ∧ b'.Within n m := by
  unfold HnswIndex.visit
  split_ifs with hfresh
  · obtain ⟨d, hd⟩ := distanceToNode_ok env query hfresh.1
    rw [hd, ok_bind]
    dsimp only
    have hnodup := List.nodup_cons.mpr ⟨hfresh.2, hb.nodup⟩
    have hvisited : ∀ i ∈ x :: b.visited, R i := List.forall_mem_cons.mpr ⟨hx, hb.visited⟩
    have hcandidates := @forall_push _ _ b.candidates ⟨x, d⟩ (fun c => R c.nodeId) hx hb.candidates
    have hresults := @forall_push _ _ b.results ⟨x, d⟩ (fun c => R c.nodeId) hx hb.results
    have hmore : (env.minHeap.items (env.minHeap.push b.candidates ⟨x, d⟩)).length + n ≤
        (x :: b.visited).length + m := by
      unfold Beam.Within at hwithin
      rw [(env.minHeap.items_push b.candidates ⟨x, d⟩).length_eq, length_cons,
        length_cons]
      omega
    split_ifs with hadd hfull
    · refine ⟨_, rfl, ⟨hnodup, hvisited, hcandidates, fun c hc => hresults c ?_⟩, hmore⟩
      dsimp only at hc
      rcases hpop : env.maxHeap.pop (env.maxHeap.push b.results ⟨x, d⟩) with _ | ⟨top, rest⟩
      · rw [hpop] at hc
        exact hc
      · rw [hpop] at hc
        exact (env.maxHeap.items_pop _ _ _ hpop).mem_iff.mpr (mem_cons_of_mem _ hc)
    · exact ⟨_, rfl, ⟨hnodup, hvisited, hcandidates, hresults⟩, hmore⟩
    · refine ⟨_, rfl, ⟨hnodup, hvisited, hb.candidates, hb.results⟩, ?_⟩
      unfold Beam.Within at hwithin ⊢
      dsimp only
      rw [length_cons]
      omega
  · exact ⟨b, rfl, hb, hwithin⟩

/-- What each step of a loop over reached nodes keeps, the loop keeps. -/
theorem foldlM_ok {β : Type} {f : β → ℕ → Except Fault β} {P : β → Prop}
    (hstep : ∀ b x, P b → R x → ∃ b', f b x = .ok b' ∧ P b') :
    ∀ {xs : List ℕ} {b : β}, P b → (∀ x ∈ xs, R x) → ∃ b', xs.foldlM f b = .ok b' ∧ P b'
  | [], b, hb, _ => ⟨b, rfl, hb⟩
  | x :: xs, b, hb, hxs => by
    rw [forall_mem_cons] at hxs
    obtain ⟨b', hfirst, hb'⟩ := hstep b x hb hxs.1
    rw [foldlM_cons, hfirst]
    exact foldlM_ok hstep hb' hxs.2

theorem explore_ok (hR : g.Closed level R) {ef : ℕ} :
    ∀ {fuel : ℕ} {b : Beam env}, b.Kept g R → b.Within (g.nodes.length + 1) fuel →
      ∃ b', g.explore env query ef level fuel b = .ok b' ∧ b'.Kept g R
  | 0, b, hb, hfuel => by
    have hlength := length_le_of_nodup hb.nodup fun i hi => hR.lt i (hb.visited i hi)
    unfold Beam.Within at hfuel
    omega
  | fuel + 1, b, hb, hfuel => by
    rw [explore]
    rcases hpop : env.minHeap.pop b.candidates with _ | ⟨c, candidates⟩
    · exact ⟨b, rfl, hb⟩
    · have hitems := env.minHeap.items_pop _ _ _ hpop
      have hc : R c.nodeId := hb.candidates c (hitems.mem_iff.mpr mem_cons_self)
      have hfewer := hitems.length_eq
      rw [length_cons] at hfewer
      have hnext : Beam.Kept g R { b with candidates := candidates } :=
        ⟨hb.nodup, hb.visited, fun other hother =>
          hb.candidates other (hitems.mem_iff.mpr (mem_cons_of_mem _ hother)), hb.results⟩
      have hless : Beam.Within { b with candidates := candidates } (g.nodes.length + 1) fuel := by
        unfold Beam.Within at hfuel ⊢
        dsimp only
        omega
      dsimp only
      split_ifs with hsettled
      · exact ⟨_, rfl, hnext⟩
      · rcases hids : g.adjacency c.nodeId level with _ | ids
        · exact explore_ok hR hnext hless
        · obtain ⟨b', hvisits, hb', hwithin⟩ := @foldlM_ok R _ (g.visit env query ef)
            (fun b => b.Kept g R ∧ b.Within (g.nodes.length + 1) fuel)
            (fun b x hb hx => hb.1.visit hb.2 hx) _ _ ⟨hnext, hless⟩
            (hR.along c.nodeId ids hc hids)
          dsimp only
          rw [hvisits]
          exact explore_ok hR hb' hwithin

/-- **The beam** finds nodes that can be reached. -/
theorem searchLayer_ok (env : HnswEnv V D) (query : V) (hR : g.Closed level R) {eps : List ℕ}
    (heps : ∀ e ∈ eps, R e) (ef : ℕ) :
    ∃ found, g.searchLayer env query eps ef level = .ok found ∧ ∀ c ∈ found, R c.nodeId := by
  have hstart : Beam.Kept g R (⟨[], env.minHeap.empty, env.maxHeap.empty⟩ : Beam env) := by
    refine ⟨nodup_nil, forall_mem_nil _, ?_, ?_⟩
    · rw [env.minHeap.items_empty]
      exact forall_mem_nil _
    · rw [env.maxHeap.items_empty]
      exact forall_mem_nil _
  have hnone : Beam.Within (⟨[], env.minHeap.empty, env.maxHeap.empty⟩ : Beam env) 0 0 := by
    unfold Beam.Within
    dsimp only
    rw [env.minHeap.items_empty]
    exact le_refl _
  obtain ⟨b, henter, hb, hwithin⟩ := @foldlM_ok R _ (g.enter env query)
    (fun b => b.Kept g R ∧ b.Within 0 0) (fun b x hb hx => hb.1.enter hb.2 hx) _ _
    ⟨hstart, hnone⟩ heps
  have hfuel : b.Within (g.nodes.length + 1) (g.nodes.length + 1) :=
    Nat.add_le_add_right hwithin _
  obtain ⟨last, hexplore, hlast⟩ := @explore_ok _ _ env g query R level hR ef _ b hb hfuel
  refine ⟨_, ?_, fun c hc => hlast.results c ((env.sort_perm _).mem_iff.mp hc)⟩
  unfold searchLayer
  rw [henter, ok_bind, hexplore]
  rfl

end Pandora.Hnsw.HnswIndex
