import Pandora.Hnsw.Descent

/-! # What an insertion does

An insertion changes lists only, layer by layer, and adds a node (`insert_outcome`). It fails only
where a node that can be reached at a layer has no list there. What it writes are lists of nodes
without duplicates, so where all lists are such lists before they are so afterwards. -/

namespace Pandora.Hnsw.HnswIndex

open Lib.Checked Lib.Outcomes List Option

variable {V D : Type} {env : HnswEnv V D} {g g' g'' : HnswIndex V} {E : Fault → Prop} {i l n : ℕ}
  {strict : Prop}

/-! ### The selected neighbours -/

/-- A choice among the nodes of `P`. -/
structure Choice (P : ℕ → Prop) (baseId : ℕ) (ids : List ℕ) : Prop where
  nodup : ids.Nodup
  mem : ∀ x ∈ ids, P x ∧ x ≠ baseId

variable {P : ℕ → Prop} {baseId : ℕ}

theorem Choice.snoc {ids : List ℕ} {x : ℕ} (h : Choice P baseId ids) (hx : P x)
    (hbase : x ≠ baseId) (hfresh : x ∉ ids) : Choice P baseId (ids ++ [x]) where
  nodup := by
    rw [nodup_append]
    refine ⟨h.nodup, nodup_singleton x, fun a ha b hb hab => hfresh ?_⟩
    rwa [← mem_singleton.mp hb, ← hab]
  mem := by
    intro y hy
    rcases mem_append.mp hy with hy | hy
    · exact h.mem y hy
    · exact mem_singleton.mp hy ▸ ⟨hx, hbase⟩

theorem isDiverse_ok (hP : ∀ x, P x → x < g.nodes.length) {cand : CandidateItem D}
    (hcand : P cand.nodeId) : ∀ {ids : List ℕ}, (∀ x ∈ ids, P x) →
      ∃ diverse, g.isDiverse env cand ids = .ok diverse
  | [], _ => ⟨true, rfl⟩
  | r :: ids, hids => by
    rw [forall_mem_cons] at hids
    obtain ⟨d, hd⟩ := distanceBetweenNodes_ok env (hP _ hcand) (hP r hids.1)
    rw [isDiverse, hd, ok_bind]
    split_ifs
    · exact ⟨false, rfl⟩
    · exact isDiverse_ok hP hcand hids.2

theorem pickDiverse_ok (hP : ∀ x, P x → x < g.nodes.length) {mMax : ℕ} :
    ∀ {cands : List (CandidateItem D)} {selected discarded : List ℕ},
      (∀ c ∈ cands, P c.nodeId) → Choice P baseId selected →
      (∀ x ∈ discarded, P x ∧ x ≠ baseId) →
      ∃ selected' discarded', g.pickDiverse env baseId mMax cands selected discarded =
          .ok (selected', discarded') ∧ Choice P baseId selected' ∧
        ∀ x ∈ discarded', P x ∧ x ≠ baseId
  | [], selected, discarded, _, hselected, hdiscarded =>
    ⟨selected, discarded, rfl, hselected, hdiscarded⟩
  | cand :: rest, selected, discarded, hcands, hselected, hdiscarded => by
    rw [forall_mem_cons] at hcands
    rw [pickDiverse]
    by_cases hskip : cand.nodeId = baseId ∨ cand.nodeId ∈ selected
    · rw [if_pos hskip]
      exact pickDiverse_ok hP hcands.2 hselected hdiscarded
    · rw [if_neg hskip]
      rw [not_or] at hskip
      obtain ⟨diverse, hdiverse⟩ := @isDiverse_ok _ _ env g P hP cand hcands.1 selected
        fun x hx => (hselected.mem x hx).1
      have hmore := hselected.snoc hcands.1 hskip.1 hskip.2
      rw [hdiverse, ok_bind]
      cases diverse with
      | true =>
        by_cases hfull : mMax ≤ (selected ++ [cand.nodeId]).length
        · rw [if_pos rfl, if_pos hfull]
          exact ⟨_, _, rfl, hmore, hdiscarded⟩
        · rw [if_pos rfl, if_neg hfull]
          exact pickDiverse_ok hP hcands.2 hmore hdiscarded
      | false =>
        rw [if_neg Bool.false_ne_true]
        refine pickDiverse_ok hP hcands.2 hselected fun x hx => ?_
        rcases mem_append.mp hx with hx | hx
        · exact hdiscarded x hx
        · exact mem_singleton.mp hx ▸ ⟨hcands.1, hskip.1⟩

theorem refill_choice {mMax : ℕ} : ∀ {discarded selected : List ℕ},
    (∀ x ∈ discarded, P x ∧ x ≠ baseId) → Choice P baseId selected →
      Choice P baseId (refill mMax discarded selected)
  | [], selected, _, hselected => hselected
  | disc :: rest, selected, hdiscarded, hselected => by
    rw [forall_mem_cons] at hdiscarded
    rw [refill]
    split_ifs with hold hfull
    · exact refill_choice hdiscarded.2 hselected
    · exact hselected.snoc hdiscarded.1.1 hdiscarded.1.2 hold
    · exact refill_choice hdiscarded.2 (hselected.snoc hdiscarded.1.1 hdiscarded.1.2 hold)

/-- **The heuristic** chooses among the candidates. -/
theorem selectNeighbors_outcome (hcap : E .capacity) (hP : ∀ x, P x → x < g.nodes.length)
    {cands : List (CandidateItem D)} (hcands : ∀ c ∈ cands, P c.nodeId) (mMax : ℕ)
    (keepPruned : Bool) :
    Outcome E (g.selectNeighborsHeuristic env baseId cands mMax keepPruned) (Choice P baseId) := by
  unfold selectNeighborsHeuristic withCapacity
  rcases hroom : (ensure (8 * mMax < 2 ^ 63) .capacity : Except Fault Unit) with e | ⟨⟩
  · obtain ⟨-, rfl⟩ := ensure_eq_error.mp hroom
    exact hcap
  · obtain ⟨selected, discarded, hpick, hselected, hdiscarded⟩ :=
      @pickDiverse_ok _ _ env g P baseId hP mMax _ _ _
        (fun c hc => hcands c ((env.sort_perm cands).mem_iff.mp hc))
        ⟨nodup_nil, forall_mem_nil _⟩ (forall_mem_nil _)
    rw [ok_bind, hpick, ok_bind]
    dsimp only
    split_ifs
    · exact refill_choice hdiscarded hselected
    · exact hselected

/-! ### What a change of a list leaves -/

/-- What no change of a list changes. -/
structure Shape (V : Type) where
  id : ℕ
  docId : UInt64
  level : ℕ
  vector : V
  layers : ℕ

def shape (node : HnswNode V) : Shape V :=
  ⟨node.id, node.docId, node.level, node.vector, node.neighbors.length⟩

/-- Only lists of layer `l` and above were changed. -/
structure Above (l : ℕ) (g g' : HnswIndex V) : Prop where
  frame : g' = { g with nodes := g'.nodes }
  shapes : g'.nodes.map shape = g.nodes.map shape
  below : ∀ l' < l, ∀ i, g'.adjacency i l' = g.adjacency i l'

theorem Above.refl (l : ℕ) (g : HnswIndex V) : Above l g g := ⟨rfl, rfl, fun _ _ _ => rfl⟩

theorem Above.trans (h : Above l g g') (h' : Above l g' g'') : Above l g g'' where
  frame := by
    rw [h'.frame, h.frame]
  shapes := h'.shapes.trans h.shapes
  below l' hl' i := (h'.below l' hl' i).trans (h.below l' hl' i)

theorem Above.mono {l' : ℕ} (h : Above l g g') (hle : l' ≤ l) : Above l' g g' :=
  ⟨h.frame, h.shapes, fun l'' hl'' => h.below l'' (lt_of_lt_of_le hl'' hle)⟩

theorem Above.length (h : Above l g g') : g'.nodes.length = g.nodes.length := by
  have hlength := congrArg List.length h.shapes
  rwa [length_map, length_map] at hlength

theorem adjacency_isSome :
    (g.adjacency i l).isSome ↔ ∃ s, (g.nodes.map shape)[i]? = some s ∧ l < s.layers := by
  unfold adjacency
  rw [List.getElem?_map]
  rcases g.nodes[i]? with _ | node
  · simp
  · simp [shape]

theorem Above.isSome {l' : ℕ} (h : Above l g g') :
    (g'.adjacency i l').isSome ↔ (g.adjacency i l').isSome := by
  rw [adjacency_isSome, adjacency_isSome, h.shapes]

theorem setNeighbors_ok (h : (g.adjacency i l).isSome) (ids : List ℕ) :
    ∃ g', g.setNeighbors i l ids = .ok g' ∧ Above l g g' ∧
      ∀ i' l' ids', g'.adjacency i' l' = some ids' →
        l' = l ∧ ids' = ids ∨ g.adjacency i' l' = some ids' := by
  unfold adjacency at h
  rcases hnode : g.nodes[i]? with _ | node
  · rw [hnode] at h
    cases h
  · rw [hnode] at h
    have hl : l < node.neighbors.length := by simpa using h
    have hlt : i < g.nodes.length := (List.getElem?_eq_some_iff.mp hnode).1
    have hadjacency (i' l' : ℕ) :
        ({ g with nodes := g.nodes.set i { node with neighbors := node.neighbors.set l ids } } :
          HnswIndex V).adjacency i' l' =
        if i' = i ∧ l' = l then some ids else g.adjacency i' l' := by
      unfold adjacency
      dsimp only
      rw [List.getElem?_set]
      by_cases hi : i' = i
      · subst hi
        rw [if_pos rfl, if_pos hlt, hnode, bind_some, bind_some, List.getElem?_set]
        by_cases hl' : l' = l
        · subst hl'
          rw [if_pos rfl, if_pos hl, if_pos ⟨rfl, rfl⟩]
        · rw [if_neg (Ne.symm hl'), if_neg fun h => hl' h.2]
      · rw [if_neg (Ne.symm hi), if_neg fun h => hi h.1]
    refine ⟨{ g with nodes := g.nodes.set i { node with neighbors := node.neighbors.set l ids } },
      ?_, ⟨rfl, ?_, fun l' hl' i' => ?_⟩, fun i' l' ids' hids => ?_⟩
    · unfold setNeighbors nodeAt
      rw [hnode]
      simp only [bind_eq_ok, orError_eq_ok, ensure_eq_ok, pure_eq_ok]
      exact ⟨node, rfl, (), hl, rfl⟩
    · have hshape : shape { node with neighbors := node.neighbors.set l ids } = shape node := by
        unfold shape
        rw [length_set]
      have hsame : node = g.nodes[i] := by
        rw [List.getElem?_eq_getElem hlt, Option.some.injEq] at hnode
        exact hnode.symm
      rw [map_set, hshape, hsame, ← map_set, set_getElem_self]
    · rw [hadjacency, if_neg fun h => absurd h.2 (ne_of_lt hl')]
    · rw [hadjacency] at hids
      split_ifs at hids with hsame
      · exact Or.inl ⟨hsame.2, (Option.some.inj hids).symm⟩
      · exact Or.inr hids

/-- A node, and in the strict case one with a list of layer `l`. -/
def Fit (strict : Prop) (g : HnswIndex V) (l x : ℕ) : Prop :=
  x < g.nodes.length ∧ (strict → (g.adjacency x l).isSome)

theorem Above.fit {l' x : ℕ} (h : Above l g g') : g'.Fit strict l' x ↔ g.Fit strict l' x := by
  unfold Fit
  rw [h.length, h.isSome]

/-- The lists are of nodes, and in the strict case of nodes of their layer, without duplicates. -/
def Lists (strict : Prop) (g : HnswIndex V) : Prop :=
  ∀ i l ids, g.adjacency i l = some ids → (∀ x ∈ ids, g.Fit strict l x) ∧ (strict → ids.Nodup)

theorem setNeighbors_lists (hlists : g.Lists strict) (h : (g.adjacency i l).isSome) {ids : List ℕ}
    (hids : (∀ x ∈ ids, g.Fit strict l x) ∧ (strict → ids.Nodup)) :
    ∃ g', g.setNeighbors i l ids = .ok g' ∧ Above l g g' ∧ g'.Lists strict := by
  obtain ⟨g', hset, habove, hother⟩ := setNeighbors_ok h ids
  refine ⟨g', hset, habove, fun i' l' ids' hids' => ?_⟩
  simp only [habove.fit]
  rcases hother i' l' ids' hids' with ⟨rfl, rfl⟩ | hold
  · exact hids
  · exact hlists i' l' ids' hold

theorem lt_of_adjacency {ids : List ℕ} (h : g.adjacency i l = some ids) : i < g.nodes.length := by
  unfold adjacency at h
  by_contra hout
  rw [List.getElem?_eq_none (Nat.le_of_not_lt hout)] at h
  cases h

theorem mapM_candidateOf_ok (env : HnswEnv V D) (hn : n < g.nodes.length) :
    ∀ {ids : List ℕ}, (∀ x ∈ ids, x < g.nodes.length) →
      ∃ items, ids.mapM (g.candidateOf env n) = .ok items ∧ ∀ c ∈ items, c.nodeId ∈ ids
  | [], _ => ⟨[], rfl, forall_mem_nil _⟩
  | x :: ids, hids => by
    rw [forall_mem_cons] at hids
    obtain ⟨d, hd⟩ := distanceBetweenNodes_ok env hn hids.1
    obtain ⟨items, hitems, hmem⟩ := mapM_candidateOf_ok env hn hids.2
    refine ⟨⟨x, d⟩ :: items, ?_, forall_mem_cons.mpr
      ⟨mem_cons_self, fun c hc => mem_cons_of_mem _ (hmem c hc)⟩⟩
    unfold candidateOf at hitems ⊢
    rw [mapM_cons, hd, hitems]
    rfl

variable {qId mL : ℕ}

/-- **The link back** from a neighbour. -/
theorem linkBack_outcome (hcap : E .capacity) (hlists : g.Lists strict)
    (hn : g.adjacency n l = none → E .outOfRange) (hq : g.Fit strict l qId) :
    Outcome E (linkBack env qId l mL g n) fun g' => Above l g g' ∧ g'.Lists strict := by
  unfold linkBack neighborsAt
  rcases hids : g.adjacency n l with _ | ids
  · exact hn hids
  · obtain ⟨hlt, hnodup⟩ := hlists n l ids hids
    obtain ⟨ids', hids', hlonger⟩ : ∃ ids', (if qId ∈ ids then ids else ids ++ [qId]) = ids' ∧
        (∀ x ∈ ids', g.Fit strict l x) ∧ (strict → ids'.Nodup) := by
      refine ⟨_, rfl, ?_⟩
      split_ifs with hold
      · exact ⟨hlt, hnodup⟩
      · refine ⟨fun x hx => ?_, fun hstrict => ?_⟩
        · rcases mem_append.mp hx with hx | hx
          · exact hlt x hx
          · exact mem_singleton.mp hx ▸ hq
        · rw [nodup_append]
          refine ⟨hnodup hstrict, nodup_singleton _, fun a ha b hb hab => hold ?_⟩
          rwa [← mem_singleton.mp hb, ← hab]
    have hsome : (g.adjacency n l).isSome := by
      rw [hids]
      rfl
    obtain ⟨g', hset, habove, hlists'⟩ := setNeighbors_lists hlists hsome hlonger
    rw [orError, ok_bind]
    dsimp only
    rw [hids', hset, ok_bind]
    split_ifs with hlong
    · have hn' : n < g'.nodes.length := habove.length ▸ lt_of_adjacency hids
      obtain ⟨items, hitems, hmem⟩ := mapM_candidateOf_ok env hn' fun x hx =>
        habove.length ▸ (hlonger.1 x hx).1
      have hfit : ∀ c ∈ items, g'.Fit strict l c.nodeId := fun c hc =>
        habove.fit.mpr (hlonger.1 _ (hmem c hc))
      rw [hitems, ok_bind]
      refine (selectNeighbors_outcome hcap (fun x hx => hx.1) hfit mL true).bind
        fun kept hkept => ?_
      obtain ⟨g'', hset', habove', hlists''⟩ := setNeighbors_lists hlists'
        (habove.isSome.mpr hsome) ⟨fun x hx => (hkept.mem x hx).1, fun _ => hkept.nodup⟩
      exact Outcome.of_eq hset' ⟨habove.trans habove', hlists''⟩
    · exact ⟨habove, hlists'⟩

/-- What the layers below `k` are to be like for the new node to be linked: `R` is closed there, and
the new node has its lists. -/
structure Layers (E : Fault → Prop) (strict : Prop) (R : ℕ → ℕ → Prop) (qId k : ℕ)
    (g : HnswIndex V) : Prop where
  closed : ∀ l < k, g.Closed l (R l)
  missing : ∀ l < k, ∀ i, R l i → g.adjacency i l = none → E .outOfRange
  fit : ∀ l < k, ∀ i, R l i → strict → (g.adjacency i l).isSome
  own : ∀ l < k, (g.adjacency qId l).isSome

variable {R : ℕ → ℕ → Prop} {query : V} {curr : ℕ}

theorem Layers.above {k : ℕ} (h : Layers E strict R qId k g) (habove : Above k g g') :
    Layers E strict R qId k g' where
  closed l' hl' := by
    obtain ⟨hlt, halong⟩ := h.closed l' hl'
    refine ⟨fun i hi => habove.length ▸ hlt i hi, fun i ids hi hids => halong i ids hi ?_⟩
    rwa [← habove.below l' hl' i]
  missing l' hl' i hi hnone := h.missing l' hl' i hi (habove.below l' hl' i ▸ hnone)
  fit l' hl' i hi hstrict := habove.isSome.mpr (h.fit l' hl' i hi hstrict)
  own l' hl' := habove.isSome.mpr (h.own l' hl')

theorem Layers.mono {k k' : ℕ} (h : Layers E strict R qId k g) (hle : k' ≤ k) :
    Layers E strict R qId k' g :=
  ⟨fun l hl => h.closed l (by omega), fun l hl => h.missing l (by omega),
    fun l hl => h.fit l (by omega), fun l hl => h.own l (by omega)⟩

/-- **The layers are linked** one by one, from above. -/
theorem connect_outcome (hcap : E .capacity) (hdown : ∀ l i, R (l + 1) i → R l i) :
    ∀ {k : ℕ} {g : HnswIndex V} {ep : List ℕ}, Layers E strict R qId k g → g.Lists strict →
      (∀ l < k, ∀ e ∈ ep, R l e) → (∀ l < k, R l curr) → qId < g.nodes.length →
      Outcome E (connect env query qId curr k g ep) fun g' => Above 0 g g' ∧ g'.Lists strict
  | 0, g, ep, _, hlists, _, _, _ => ⟨Above.refl 0 g, hlists⟩
  | l + 1, g, ep, hlayers, hlists, hep, hcurr, hq => by
    have hl : l < l + 1 := Nat.lt_succ_self l
    have hclosed := hlayers.closed l hl
    obtain ⟨found, hfound, hreached⟩ :=
      searchLayer_ok env query hclosed (hep l hl) g.config.efConstruction
    rw [connect, hfound, ok_bind]
    refine (selectNeighbors_outcome hcap hclosed.lt hreached _ true).bind
      fun selected hselected => ?_
    have hfit : ∀ x ∈ selected, g.Fit strict l x := fun x hx =>
      ⟨hclosed.lt x (hselected.mem x hx).1, hlayers.fit l hl x (hselected.mem x hx).1⟩
    obtain ⟨g', hset, habove, hlists'⟩ := setNeighbors_lists hlists (hlayers.own l hl)
      ⟨hfit, fun _ => hselected.nodup⟩
    rw [hset, ok_bind]
    have hlinks : Outcome E (selected.foldlM (linkBack env qId l (g.config.maxDegree l)) g')
        fun g'' => Above l g g'' ∧ g''.Lists strict := by
      refine Outcome.foldlM _ ⟨habove, hlists'⟩ fun g'' x hx hg'' => ?_
      have hmissing : g''.adjacency x l = none → E .outOfRange := by
        intro hnone
        rw [← not_isSome_iff_eq_none, hg''.1.isSome, not_isSome_iff_eq_none] at hnone
        exact hlayers.missing l hl x (hselected.mem x hx).1 hnone
      have hnew : g''.Fit strict l qId := hg''.1.fit.mpr ⟨hq, fun _ => hlayers.own l hl⟩
      exact (linkBack_outcome hcap hg''.2 hmissing hnew).mono fun _ h => ⟨hg''.1.trans h.1, h.2⟩
    refine hlinks.bind fun g'' hg'' => ?_
    have hnext := (hlayers.mono (Nat.le_succ l)).above hg''.1
    refine (connect_outcome hcap hdown hnext hg''.2 (fun l' hl' e he => ?_)
      (fun l' hl' => hcurr l' (by omega)) (hg''.1.length ▸ hq)).mono fun _ h =>
        ⟨(hg''.1.mono (Nat.zero_le l)).trans h.1, h.2⟩
    split_ifs at he
    · exact mem_singleton.mp he ▸ hcurr l' (by omega)
    · obtain ⟨c, hc, rfl⟩ := mem_map.mp he
      exact reached_of_le hdown (hreached c hc) (le_of_lt hl')

/-! ### An insertion -/

variable {q : Insertion V}

theorem adjacency_pushNode (h : i < g.nodes.length) :
    (g.pushNode q).adjacency i l = g.adjacency i l := by
  unfold adjacency pushNode
  rw [List.getElem?_append_left h]

theorem adjacency_newNode :
    (g.pushNode q).adjacency g.nodes.length l = if l ≤ q.level then some [] else none := by
  unfold adjacency pushNode
  rw [List.getElem?_append_right (le_refl _), Nat.sub_self]
  show (List.replicate (q.level + 1) [])[l]? = _
  rw [List.getElem?_replicate]
  by_cases hl : l ≤ q.level
  · rw [if_pos hl, if_pos (Nat.lt_succ_of_le hl)]
  · rw [if_neg hl, if_neg (fun h => hl (Nat.le_of_lt_succ h))]

theorem length_pushNode : (g.pushNode q).nodes.length = g.nodes.length + 1 := by
  unfold pushNode
  rw [length_append, length_singleton]

theorem Lists.pushNode (hlists : g.Lists strict) : (g.pushNode q).Lists strict := by
  intro i l ids hids
  have hlt := lt_of_adjacency hids
  rw [length_pushNode] at hlt
  rcases Nat.lt_succ_iff_lt_or_eq.mp hlt with hold | rfl
  · rw [adjacency_pushNode hold] at hids
    obtain ⟨hfit, hnodup⟩ := hlists i l ids hids
    refine ⟨fun x hx => ⟨?_, fun hstrict => ?_⟩, hnodup⟩
    · rw [length_pushNode]
      exact Nat.lt_succ_of_lt (hfit x hx).1
    · rw [adjacency_pushNode (hfit x hx).1]
      exact (hfit x hx).2 hstrict
  · rw [adjacency_newNode] at hids
    split_ifs at hids
    rw [← Option.some.inj hids]
    exact ⟨forall_mem_nil _, fun _ => nodup_nil⟩

/-- What an insertion leaves: a node more, and other lists. -/
structure Inserted (strict : Prop) (g : HnswIndex V) (q : Insertion V) (g' : HnswIndex V) :
    Prop where
  config : g'.config = g.config
  docIds : g'.docIds = g.docIds ++ [q.docId]
  corpusHash : g'.corpusHash = g.corpusHash
  createdAtUnix : g'.createdAtUnix = g.createdAtUnix
  shapes : g'.nodes.map shape = g.nodes.map shape ++ [shape (g.newNode q)]
  lists : g'.Lists strict
  top : (g'.entryPoint, g'.maxLevel) = if g.nodes = [] ∨ g.maxLevel < q.level then
    (some g.nodes.length, q.level) else (g.entryPoint, g.maxLevel)

/-- **An insertion** succeeds where all that can be reached has its lists. -/
theorem insert_outcome (hcap : E .capacity) (hg : g.Linked) (hlists : g.Lists strict)
    (hE : ∀ l i, g.Reach l i → g.adjacency i l = none → E .outOfRange)
    (hfit : strict → ∀ l i, g.Reach l i → (g.adjacency i l).isSome) (q : Insertion V) :
    Outcome E (g.insert env q) (Inserted strict g q) := by
  have hroom : Outcome E (withCapacity 24 (q.level + 1)) fun _ => True := by
    unfold withCapacity
    rcases hroom : (ensure (24 * (q.level + 1) < 2 ^ 63) .capacity : Except Fault Unit) with e | ⟨⟩
    · obtain ⟨-, rfl⟩ := ensure_eq_error.mp hroom
      exact hcap
    · trivial
  have hshapes : (g.pushNode q).nodes.map shape = g.nodes.map shape ++ [shape (g.newNode q)] :=
    map_append
  unfold insert
  by_cases hempty : g.nodes = []
  · rw [if_pos hempty]
    refine hroom.bind fun _ _ => ?_
    exact ⟨rfl, rfl, rfl, rfl, hshapes, hlists.pushNode, (if_pos (Or.inl hempty)).symm⟩
  · rw [if_neg hempty]
    obtain ⟨entry, hentry⟩ := hg.present hempty
    rw [hentry, orError, ok_bind]
    have htop : g.Reach g.maxLevel entry := Reach.entry hentry
    refine (descend_outcome hg hE (fun _ => by omega)
      fun l _ hl => htop.of_le hl).bind fun curr hcurr => ?_
    refine hroom.bind fun _ _ => ?_
    have hlayers : Layers E strict g.Reach g.nodes.length (min g.maxLevel q.level + 1)
        (g.pushNode q) := by
      refine ⟨fun l _ => ⟨fun i hi => ?_, fun i ids hi hids => ?_⟩, fun l _ i hi hnone => ?_,
        fun l _ i hi hstrict => ?_, fun l hl => ?_⟩
      · rw [length_pushNode]
        exact Nat.lt_succ_of_lt (hi.lt hg)
      · rw [adjacency_pushNode (hi.lt hg)] at hids
        exact fun x hx => hi.along hids hx
      · rw [adjacency_pushNode (hi.lt hg)] at hnone
        exact hE l i hi hnone
      · rw [adjacency_pushNode (hi.lt hg)]
        exact hfit hstrict l i hi
      · rw [adjacency_newNode, if_pos (by omega)]
        rfl
    have hreached : ∀ l < min g.maxLevel q.level + 1, g.Reach l curr := fun l hl =>
      hcurr l (by omega) (by omega)
    refine (connect_outcome hcap (fun _ _ => Reach.down) hlayers hlists.pushNode
      (fun l hl e he => mem_singleton.mp he ▸ hreached l hl) hreached
      (by rw [length_pushNode]; omega)).bind fun g' hg' => ?_
    obtain ⟨habove, hlists'⟩ := hg'
    have hframe := habove.frame
    have hafter : Inserted strict g q (if g.maxLevel < q.level then
          { g' with maxLevel := q.level, entryPoint := some g.nodes.length } else g') := by
      rw [hframe]
      split_ifs with hhigher
      · exact ⟨rfl, rfl, rfl, rfl, habove.shapes.trans hshapes, hframe ▸ hlists',
          (if_pos (Or.inr hhigher)).symm⟩
      · refine ⟨rfl, rfl, rfl, rfl, habove.shapes.trans hshapes, hframe ▸ hlists', ?_⟩
        rw [if_neg (not_or.mpr ⟨hempty, hhigher⟩)]
        rfl
    exact hafter

end Pandora.Hnsw.HnswIndex
