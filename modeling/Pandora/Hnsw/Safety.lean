import Pandora.Hnsw.Loading

/-! # Searching and extending an index that is loaded

A search and an insertion are safe where every node that can be reached at a layer has a list there
(`Searchable`): neither the level of a node nor the highest level is compared with the number of its
lists when an index is loaded. An index that is built is so (`build_outcome`), and what is stored of
it is loaded as it was. -/

namespace Pandora.Hnsw.HnswIndex

open Text Lib.Checked Lib.Outcomes List

variable {V D : Type} {env : HnswEnv V D} {g g' : HnswIndex V} {q : Insertion V} {i l : ℕ}

/-- What can be reached at a layer has a list there. -/
def Searchable (g : HnswIndex V) : Prop := ∀ l i, g.Reach l i → (g.adjacency i l).isSome

theorem Searchable.not_missing (h : g.Searchable) {p : Prop} :
    ∀ l i, g.Reach l i → g.adjacency i l = none → p := by
  intro l i hi hnone
  have hsome := h l i hi
  rw [hnone] at hsome
  cases hsome

/-- **A search** of such an index returns. -/
theorem Searchable.search_ok (h : g.Searchable) (hg : g.Linked) (env : HnswEnv V D) (query : V)
    (topK efSearch : ℕ) : ∃ results, g.search env query topK efSearch = .ok results := by
  unfold search
  split_ifs with htrivial
  · exact ⟨[], rfl⟩
  · rcases hentry : g.entryPoint with _ | entry
    · exact ⟨[], rfl⟩
    · have htop := Reach.entry hentry
      have hdescend := @descend_outcome _ _ env g query (fun _ => False) hg h.not_missing 1
        g.maxLevel entry (fun _ => by omega) fun l _ hl => htop.of_le hl
      obtain ⟨curr, hcurr, hreached⟩ := outcome_total.mp hdescend
      obtain ⟨found, hfound, hfoundReached⟩ := searchLayer_ok env query (closed_reach hg 0)
        (fun e he => List.mem_singleton.mp he ▸ hreached 0 (by decide) (Nat.zero_le _))
        (max efSearch topK)
      have hresults : Outcome (fun _ : Fault => False)
          ((found.take topK).mapM (g.resultOf env)) (List.Forall₂
            (fun (_ : CandidateItem D) (_ : HnswSearchResult D) => True) (found.take topK)) := by
        refine Outcome.mapM fun c hc => ?_
        have hlt := (hfoundReached c (mem_of_mem_take hc)).lt hg
        unfold resultOf nodeAt
        rw [List.getElem?_eq_getElem hlt]
        trivial
      obtain ⟨results, hresults, -⟩ := outcome_total.mp hresults
      refine ⟨results, ?_⟩
      dsimp only
      rw [hcurr, ok_bind, hfound, ok_bind, hresults]

/-- **An insertion** into such an index fails only for its capacity. -/
theorem Searchable.insert_ok (h : g.Searchable) (hg : g.Linked) (hlists : g.Lists False)
    (env : HnswEnv V D) (q : Insertion V) :
    Outcome (fun fault => fault = .capacity) (g.insert env q) (Inserted False g q) :=
  @insert_outcome _ _ env g (fun fault => fault = .capacity) False rfl hg hlists h.not_missing
    False.elim q

/-- The entry point of an index without its list of the highest layer is where every search
fails. -/
theorem search_of_missing (hg : g.Linked) {entry topK : ℕ} (hentry : g.entryPoint = some entry)
    (hmissing : g.adjacency entry g.maxLevel = none) (htop : 0 < g.maxLevel) (htopK : 0 < topK)
    (env : HnswEnv V D) (query : V) (efSearch : ℕ) :
    g.search env query topK efSearch = .error .outOfRange := by
  have hlt := hg.entry entry hentry
  have hnonempty : ¬ (g.nodes = [] ∨ topK = 0) := by
    rintro (hempty | hzero)
    · rw [hempty] at hlt
      exact Nat.not_lt_zero _ hlt
    · omega
  obtain ⟨d, hd⟩ := distanceToNode_ok env query hlt
  obtain ⟨steps, hsteps⟩ := Nat.exists_eq_succ_of_ne_zero (Nat.pos_iff_ne_zero.mp htop)
  have hlevel : 1 + steps = g.maxLevel := by omega
  unfold search
  rw [if_neg hnonempty, hentry]
  dsimp only
  rw [hsteps, descend, hlevel, greedySearchLevel, hd, ok_bind, greedyPasses, neighborsAt, hmissing]
  rfl

/-! ### An index that is built -/

/-- Every node has its number and one list for each of its layers, the lists are of nodes of their
layer, and the entry point is of the highest level, which no node is above. -/
structure Built (g : HnswIndex V) : Prop where
  docIds : g.docIds = (g.nodes.map shape).map Shape.docId
  shapes : ∀ (i : ℕ) (s : Shape V), (g.nodes.map shape)[i]? = some s →
    s.id = i ∧ s.layers = s.level + 1
  levels : ∀ s ∈ g.nodes.map shape, s.level ≤ g.maxLevel
  lists : g.Lists True
  entry : g.nodes = [] ∧ g.entryPoint = none ∧ g.maxLevel = 0 ∨
    ∃ e s, g.entryPoint = some e ∧ (g.nodes.map shape)[e]? = some s ∧ s.level = g.maxLevel

theorem built_new (config : HnswConfig) (createdAtUnix : UInt64) :
    Built (new config createdAtUnix : HnswIndex V) where
  docIds := rfl
  shapes := nofun
  levels := nofun
  lists := nofun
  entry := Or.inl ⟨rfl, rfl, rfl⟩

theorem lt_of_shape {s : Shape V} (h : (g.nodes.map shape)[i]? = some s) : i < g.nodes.length := by
  have hlt := (List.getElem?_eq_some_iff.mp h).1
  rwa [length_map] at hlt

theorem Built.linked (h : g.Built) : g.Linked where
  present hne := by
    rcases h.entry with ⟨hempty, -⟩ | ⟨e, -, he, -⟩
    · exact absurd hempty hne
    · exact ⟨e, he⟩
  entry e he := by
    rcases h.entry with ⟨-, hnone, -⟩ | ⟨e', s, he', hs, -⟩
    · rw [hnone] at he
      cases he
    · rw [he, Option.some.injEq] at he'
      exact he' ▸ lt_of_shape hs
  links i l ids hids x hx := ((h.lists i l ids hids).1 x hx).1

/-- **What is built is searchable.** -/
theorem Built.searchable (h : g.Built) : g.Searchable := by
  intro l i hi
  induction hi with
  | entry he =>
    rcases h.entry with ⟨-, hnone, -⟩ | ⟨e', s, he', hs, hlevel⟩
    · rw [hnone] at he
      cases he
    · rw [he, Option.some.injEq] at he'
      subst he'
      have hlayers := (h.shapes _ s hs).2
      exact adjacency_isSome.mpr ⟨s, hs, by omega⟩
  | down _ ih =>
    obtain ⟨s, hs, hlt⟩ := adjacency_isSome.mp ih
    exact adjacency_isSome.mpr ⟨s, hs, by omega⟩
  | along _ hids hx _ => exact ((h.lists _ _ _ hids).1 _ hx).2 trivial

theorem Built.inserted (h : g.Built) (hg : Inserted True g q g') : g'.Built where
  docIds := by
    rw [hg.docIds, hg.shapes, h.docIds, map_append]
    rfl
  shapes i s hs := by
    rw [hg.shapes] at hs
    rcases Nat.lt_or_ge i (g.nodes.map shape).length with hi | hi
    · rw [List.getElem?_append_left hi] at hs
      exact h.shapes i s hs
    · rw [List.getElem?_append_right hi, length_map] at hs
      obtain ⟨hlast, rfl⟩ := List.getElem?_eq_some_iff.mp hs
      rw [length_map] at hi
      rw [length_singleton] at hlast
      rw [getElem_singleton]
      refine ⟨?_, length_replicate⟩
      show g.nodes.length = i
      omega
  levels s hs := by
    have htop : g'.maxLevel = (if g.nodes = [] ∨ g.maxLevel < q.level then
        (some g.nodes.length, q.level) else (g.entryPoint, g.maxLevel)).2 :=
      congrArg Prod.snd hg.top
    rw [hg.shapes, mem_append, mem_singleton] at hs
    by_cases hhigher : g.nodes = [] ∨ g.maxLevel < q.level
    · rw [if_pos hhigher] at htop
      rw [htop]
      rcases hs with hs | rfl
      · rcases hhigher with hempty | hlt
        · rw [hempty] at hs
          cases hs
        · exact le_trans (h.levels s hs) (le_of_lt hlt)
      · exact le_refl _
    · rw [if_neg hhigher] at htop
      rw [htop]
      rcases hs with hs | rfl
      · exact h.levels s hs
      · exact not_lt.mp fun hlt => hhigher (Or.inr hlt)
  lists := hg.lists
  entry := by
    have htop := hg.top
    have hlength : (g.nodes.map shape).length = g.nodes.length := length_map _
    refine Or.inr ?_
    by_cases hhigher : g.nodes = [] ∨ g.maxLevel < q.level
    · rw [if_pos hhigher, Prod.mk.injEq] at htop
      refine ⟨g.nodes.length, shape (g.newNode q), htop.1, ?_, htop.2.symm⟩
      rw [hg.shapes, List.getElem?_append_right (le_of_eq hlength), hlength, Nat.sub_self]
      rfl
    · rw [if_neg hhigher, Prod.mk.injEq] at htop
      rcases h.entry with ⟨hempty, -⟩ | ⟨e, s, he, hs, hlevel⟩
      · exact absurd (Or.inl hempty) hhigher
      · refine ⟨e, s, htop.1.trans he, ?_, hlevel.trans htop.2.symm⟩
        rw [hg.shapes, List.getElem?_append_left (hlength ▸ lt_of_shape hs), hs]

/-- **A run of insertions** fails only for a capacity. -/
theorem build_outcome (env : HnswEnv V D) (config : HnswConfig) (createdAtUnix : UInt64)
    (insertions : List (Insertion V)) :
    Outcome (fun fault => fault = .capacity) (build env config createdAtUnix insertions) Built := by
  refine Outcome.foldlM Built (built_new config createdAtUnix) fun g q _ hg => ?_
  have hinsert := @insert_outcome _ _ env g (fun fault => fault = .capacity) True rfl hg.linked
    hg.lists hg.searchable.not_missing (fun _ => hg.searchable) q
  exact hinsert.mono fun g' hg' => hg.inserted hg'

/-- What is inserted is there, in its order; every node has a list for each of its layers, of
nodes that have the layer and without duplicates; no node is above the highest level, and an index
that is not empty has an entry point of that level; and a search returns. Of the source this says
what happens where distances are numbers: `HnswEnv` has no sort that panics. -/
theorem build_graph (env : HnswEnv V D) (config : HnswConfig) (createdAtUnix : UInt64)
    (insertions : List (Insertion V)) :
    Outcome (fun fault => fault = .capacity) (build env config createdAtUnix insertions) fun g =>
      g.nodes.map (fun node => (node.docId, node.vector, node.level)) =
        insertions.map (fun q => (q.docId, q.vector, q.level)) ∧
      (∀ node ∈ g.nodes, node.neighbors.length = node.level + 1) ∧
      (∀ i l ids, g.adjacency i l = some ids → ids.Nodup ∧
        ∀ x ∈ ids, ∃ other, g.nodes[x]? = some other ∧ l ≤ other.level) ∧
      (∀ node ∈ g.nodes, node.level ≤ g.maxLevel) ∧
      (∀ e, g.entryPoint = some e → ∃ node, g.nodes[e]? = some node ∧ node.level = g.maxLevel) ∧
      (g.nodes ≠ [] → ∃ e, g.entryPoint = some e) ∧
      ∀ query topK efSearch, ∃ results, g.search env query topK efSearch = .ok results := by
  have hnodes : Outcome (fun fault => fault = .capacity)
      (build env config createdAtUnix insertions) fun g => g.Built ∧
        g.nodes.map (fun node => (node.docId, node.vector, node.level)) =
          insertions.map (fun q => (q.docId, q.vector, q.level)) := by
    induction insertions using List.reverseRecOn with
    | nil => exact ⟨built_new config createdAtUnix, rfl⟩
    | append_singleton insertions q ih =>
      rw [build, foldlM_append]
      refine ih.bind fun g hg => ?_
      have hinsert := @insert_outcome _ _ env g (fun fault => fault = .capacity) True rfl
        hg.1.linked hg.1.lists hg.1.searchable.not_missing (fun _ => hg.1.searchable) q
      rw [foldlM_cons]
      refine hinsert.bind fun g' hg' => ⟨hg.1.inserted hg', ?_⟩
      have hshapes := congrArg (List.map fun s : Shape V => (s.docId, s.vector, s.level)) hg'.shapes
      rw [map_append, List.map_map, List.map_map] at hshapes
      rw [map_append, ← hg.2]
      exact hshapes
  -- a node stands where its shape does
  have hat : ∀ {g : HnswIndex V} {x : ℕ} {s : Shape V}, (g.nodes.map shape)[x]? = some s →
      ∃ node, g.nodes[x]? = some node ∧ shape node = s := fun hs =>
    Option.map_eq_some_iff.mp (getElem?_map .. ▸ hs)
  refine hnodes.mono fun g hg => ⟨hg.2, fun node hnode => ?_, fun i l ids hids => ?_,
    fun node hnode => ?_, fun e he => ?_, hg.1.linked.present, ?_⟩
  · obtain ⟨i, hi⟩ := mem_iff_getElem?.mp hnode
    exact (hg.1.shapes i (shape node) (by rw [getElem?_map, hi, Option.map_some])).2
  · refine ⟨(hg.1.lists i l ids hids).2 trivial, fun x hx => ?_⟩
    obtain ⟨s, hs, hlt⟩ := adjacency_isSome.mp (((hg.1.lists i l ids hids).1 x hx).2 trivial)
    have hlayers := (hg.1.shapes x s hs).2
    obtain ⟨other, hother, rfl⟩ := hat hs
    exact ⟨other, hother, by change l ≤ (shape other).level; omega⟩
  · exact hg.1.levels (shape node) (mem_map_of_mem hnode)
  · rcases hg.1.entry with ⟨-, hnone, -⟩ | ⟨e', s, he', hs, hlevel⟩
    · rw [hnone] at he
      cases he
    · obtain rfl := Option.some.inj (he.symm.trans he')
      obtain ⟨node, hnode, rfl⟩ := hat hs
      exact ⟨node, hnode, hlevel⟩
  · exact fun query topK efSearch => hg.1.searchable.search_ok hg.1.linked env query topK efSearch

/-! ### An index that is built is stored and loaded -/

variable {index : HnswIndex HnswVector}

/-- The nodes and their levels fit the 32 bits they are written in. -/
def Fits32 (index : HnswIndex HnswVector) : Prop :=
  index.nodes.length < 2 ^ 32 ∧ ∀ node ∈ index.nodes, node.level + 1 < 2 ^ 32

theorem Built.storable (h : index.Built) (hfits : index.Fits32) : index.Storable := by
  obtain ⟨hcount, hlevels⟩ := hfits
  have hat : ∀ (i : ℕ) (node : HnswNode HnswVector), index.nodes[i]? = some node →
      node.id = i ∧ node.neighbors.length = node.level + 1 := by
    intro i node hnode
    refine h.shapes i (shape node) ?_
    rw [List.getElem?_map, hnode, Option.map_some]
  refine ⟨hcount, ?_, ?_, ?_, ?_, fun node hnode => ?_, fun node hnode => ⟨?_, fun ids hids => ?_⟩⟩
  · rcases h.entry with ⟨-, -, hzero⟩ | ⟨e, s, -, hs, hlevel⟩
    · rw [hzero]
      decide
    · rw [List.getElem?_map, Option.map_eq_some_iff] at hs
      obtain ⟨node, hnode, rfl⟩ := hs
      have hlt := hlevels node (mem_of_getElem? hnode)
      rw [← hlevel]
      exact Nat.lt_of_succ_lt hlt
  · rcases h.entry with ⟨hempty, hnone, -⟩ | ⟨e, s, he, hs, -⟩
    · rw [hnone, hempty]
      exact rfl
    · have hlt := lt_of_shape hs
      rw [he]
      exact ⟨hlt, by omega⟩
  · rw [h.docIds, map_map]
    rfl
  · refine ext_getElem? fun i => ?_
    rw [List.getElem?_map]
    rcases hnode : index.nodes[i]? with _ | node
    · have hout := List.getElem?_eq_none_iff.mp hnode
      rw [List.getElem?_eq_none (by rw [length_range']; exact hout)]
      rfl
    · have hlt := (List.getElem?_eq_some_iff.mp hnode).1
      rw [List.getElem?_range' hlt, Option.map_some, (hat i node hnode).1, Nat.zero_add,
        Nat.one_mul]
  · exact Nat.lt_of_succ_lt (hlevels node hnode)
  · obtain ⟨i, hi⟩ := List.getElem?_of_mem hnode
    rw [(hat i node hi).2]
    exact hlevels node hnode
  · obtain ⟨i, hi⟩ := List.getElem?_of_mem hnode
    obtain ⟨l, hl⟩ := List.getElem?_of_mem hids
    have hadjacency : index.adjacency i l = some ids := by
      unfold adjacency
      rw [hi, Option.bind_some, hl]
    obtain ⟨hfit, hnodup⟩ := h.lists i l ids hadjacency
    have hlength := length_le_of_nodup (hnodup trivial) fun x hx => (hfit x hx).1
    exact ⟨lt_of_le_of_lt hlength hcount, fun x hx =>
      ⟨lt_trans (hfit x hx).1 hcount, (hfit x hx).1⟩⟩

/-- **An index that is loaded** is safe to search and to extend if every node that can be reached at
a layer has its list there, and no search returns if the entry point has no list of the highest
layer. **An index that is built** is loaded as it was, and is safe. -/
theorem loaded_safe (sha : Sha256) (floats : FloatEnv) (env : HnswEnv HnswVector D) :
    (∀ bytes loaded, fromPvhnBytes sha floats bytes = .ok loaded → (loaded.Searchable →
        (∀ query topK efSearch, ∃ results, loaded.search env query topK efSearch = .ok results) ∧
          ∀ q, Outcome (fun fault => fault = .capacity) (loaded.insert env q)
            (Inserted False loaded q)) ∧
      ∀ entry, loaded.entryPoint = some entry → loaded.adjacency entry loaded.maxLevel = none →
        0 < loaded.maxLevel → ∀ query topK efSearch, 0 < topK →
          loaded.search env query topK efSearch = .error .outOfRange) ∧
    ∀ config createdAtUnix insertions index,
      build env config createdAtUnix insertions = .ok index → index.Fits32 → ∀ hash, ∃ loaded,
        fromPvhnBytes sha floats ((index.setCorpusHash hash).toPvhnBytes sha floats) = .ok loaded ∧
          loaded = { index.setCorpusHash hash with config := reloadedConfig floats index.config } ∧
          loaded.Searchable := by
  refine ⟨fun bytes loaded hloaded => ?_, fun config createdAtUnix insertions index hbuild hfits
    hash => ?_⟩
  · obtain ⟨hlinked, hlists⟩ := loaded_linked hloaded
    refine ⟨fun hsearchable => ⟨hsearchable.search_ok hlinked env,
      hsearchable.insert_ok hlinked hlists env⟩, ?_⟩
    intro entry hentry hmissing htop query topK efSearch htopK
    exact search_of_missing hlinked hentry hmissing htop htopK env query efSearch
  · have hbuilt : index.Built := (build_outcome env config createdAtUnix insertions).value hbuild
    have hstored : (index.setCorpusHash hash).Built :=
      ⟨hbuilt.docIds, hbuilt.shapes, hbuilt.levels, hbuilt.lists, hbuilt.entry⟩
    have hloaded : Built { index.setCorpusHash hash with
        config := reloadedConfig floats index.config } :=
      ⟨hbuilt.docIds, hbuilt.shapes, hbuilt.levels, hbuilt.lists, hbuilt.entry⟩
    exact ⟨_, fromPvhnBytes_toPvhnBytes sha floats (hstored.storable hfits), rfl,
      hloaded.searchable⟩

/-! ### Two indexes -/

/-- A heap that is kept in order. -/
def sortedHeap (le : CandidateItem ℕ → CandidateItem ℕ → Prop) [DecidableRel le] : Heap ℕ where
  State := List (CandidateItem ℕ)
  items h := h
  empty := []
  push h c := h.orderedInsert le c
  pop
    | [] => none
    | c :: rest => some (c, rest)
  peek h := h.head?
  items_empty := rfl
  items_push h c := List.perm_orderedInsert le c h
  items_pop h c rest hpop := by
    cases h with
    | nil => cases hpop
    | cons top tail =>
      cases hpop
      exact List.Perm.refl _

/-- The distances are 0 and 1. -/
def sampleEnv : HnswEnv HnswVector ℕ where
  cosineDistance a b := if a = b then 0 else 1
  zero := 0
  similarity d := 1 - d
  lt a b := a < b
  lt_irrefl d := decide_eq_false (Nat.lt_irrefl d)
  lt_trans _ _ _ hde hef :=
    decide_eq_true (lt_trans (of_decide_eq_true hde) (of_decide_eq_true hef))
  minHeap := sortedHeap fun a b =>
    a.distance < b.distance ∨ a.distance = b.distance ∧ a.nodeId ≤ b.nodeId
  maxHeap := sortedHeap fun a b =>
    b.distance < a.distance ∨ a.distance = b.distance ∧ b.nodeId ≤ a.nodeId
  sortByDistance items := items.insertionSort fun a b => a.distance ≤ b.distance
  sort_perm items := List.perm_insertionSort _ items

/-- `1 / 2.ln()` in single precision and back. -/
def sampleFloats : FloatEnv := ⟨fun _ => 0x3fb8aa3b, fun _ => 0x3ff7154760000000⟩

/-- SHA-256 of the payloads of the two indexes below. -/
def sampleSha : Sha256 := fun payload =>
  if payload.length = 1158 then
    ⟨[108, 220, 183, 63, 12, 199, 150, 124, 166, 245, 172, 52, 14, 250, 242, 115, 238, 70, 209, 6,
      246, 41, 56, 110, 133, 170, 192, 28, 195, 8, 209, 181], rfl⟩
  else
    ⟨[130, 211, 143, 33, 159, 21, 204, 169, 187, 174, 33, 72, 93, 121, 20, 247, 177, 53, 70, 179,
      157, 85, 46, 55, 144, 99, 162, 44, 41, 24, 33, 104], rfl⟩

def unitVector (i : ℕ) : HnswVector :=
  .f32 ⟨(List.replicate denseDimension 0).set i 0x3f800000, by
    rw [List.length_set, List.length_replicate]⟩

/-- `HnswConfig::new(2, 2, 1)`. -/
def sampleConfig : HnswConfig := ⟨2, 4, 2, 1, 0x3ff71547652b82fe⟩

def sampleIndex : HnswIndex HnswVector :=
  { (new sampleConfig 0 : HnswIndex HnswVector) with
    entryPoint := some 0
    maxLevel := 1
    nodes := [⟨0, 7, 1, unitVector 0, [[1], []]⟩, ⟨1, 8, 0, unitVector 1, [[0]]⟩]
    docIds := [7, 8] }

theorem build_sample : build sampleEnv sampleConfig 0
    [⟨7, unitVector 0, 1⟩, ⟨8, unitVector 1, 0⟩] = .ok sampleIndex := by
  rfl

theorem loaded_safe_sample : ∃ loaded,
    fromPvhnBytes sampleSha sampleFloats (sampleIndex.toPvhnBytes sampleSha sampleFloats) =
        .ok loaded ∧
      (∀ query topK efSearch, ∃ results,
        loaded.search sampleEnv query topK efSearch = .ok results) ∧
      ∀ q, Outcome (fun fault => fault = .capacity) (loaded.insert sampleEnv q)
        (Inserted False loaded q) := by
  have hsafe := loaded_safe sampleSha sampleFloats sampleEnv
  have hfits : sampleIndex.Fits32 := by
    refine ⟨by decide, ?_⟩
    show ∀ node ∈ [_, _], _
    simp
  obtain ⟨loaded, hloaded, -, hsearchable⟩ :=
    hsafe.2 _ _ _ _ build_sample hfits sampleIndex.corpusHash
  exact ⟨loaded, hloaded, (hsafe.1 _ loaded hloaded).1 hsearchable⟩

/-- The node of level 1 has one list. -/
def unlisted : HnswIndex HnswVector :=
  { (new sampleConfig 0 : HnswIndex HnswVector) with
    entryPoint := some 0
    maxLevel := 1
    nodes := [⟨0, 7, 1, unitVector 0, [[]]⟩]
    docIds := [7] }

/-- An index with a level without a list is loaded, and no search of it returns. -/
theorem unlisted_loads (sha : Sha256) (floats : FloatEnv) (env : HnswEnv HnswVector D) :
    ∃ loaded, fromPvhnBytes sha floats (unlisted.toPvhnBytes sha floats) = .ok loaded ∧
      ∀ query, loaded.search env query 1 1 = .error .outOfRange := by
  have hstorable : unlisted.Storable := by
    refine ⟨by decide, by decide, ⟨by decide, by decide⟩, rfl, rfl, ?_, ?_⟩
    · show ∀ node ∈ [_], _
      simp
    · show ∀ node ∈ [_], _
      simp [LayersFit, LayerFits]
  have hloaded := fromPvhnBytes_toPvhnBytes sha floats hstorable
  refine ⟨_, hloaded, fun query => ?_⟩
  exact search_of_missing (loaded_linked hloaded).1 rfl rfl Nat.one_pos Nat.one_pos env query 1

theorem loaded_index_panics : ∃ loaded,
    fromPvhnBytes sampleSha sampleFloats (unlisted.toPvhnBytes sampleSha sampleFloats) =
        .ok loaded ∧
      loaded.search sampleEnv (unitVector 0) 1 1 = .error .outOfRange := by
  obtain ⟨loaded, hloaded, hsearch⟩ := unlisted_loads sampleSha sampleFloats sampleEnv
  exact ⟨loaded, hloaded, hsearch _⟩

end Pandora.Hnsw.HnswIndex
