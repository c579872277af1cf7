import Pandora.Ids
import Pandora.Lib.Breadth
import Pandora.Lib.OrderedSets

/-! # The lineage of an artifact

`lineage_nodes` of `strategies/population.rs`: a breadth-first search over the parents of each
candidate, and for a neighbourhood also over its children. The nodes are sorted by distance and
identifier before they are cut. -/

namespace Pandora.Population

open Ids Lib.Breadth Lib.OrderedSets Lib.SortedMaps SortedMap List OrderedSet

inductive LineageDirection
  | ancestors | neighborhood
deriving DecidableEq

/-- What the search reads of a query. -/
structure LineageQuery where
  artifactId : ArtifactId
  direction : LineageDirection
  (maxDepth maxRecords : ℕ)
  depth_pos : 0 < maxDepth
  depth_lt : maxDepth < 2 ^ 32
  records_pos : 0 < maxRecords

structure LineageNode where
  artifactId : ArtifactId
  distance : ℕ

/-- The parents of each candidate. -/
abbrev LineageGraph := SortedMap ArtifactId (List ArtifactId)

/-- The child is put down under its parent. -/
def addChild (child : ArtifactId) (children : SortedMap ArtifactId (OrderedSet ArtifactId))
    (parent : ArtifactId) : SortedMap ArtifactId (OrderedSet ArtifactId) :=
  children.alter parent fun entry => (entry.getD OrderedSet.empty).insert child

def childrenOf (graph : LineageGraph) : SortedMap ArtifactId (OrderedSet ArtifactId) :=
  graph.entries.foldl (fun children entry => entry.2.foldl (addChild entry.1) children) empty

/-- The set `adjacent` of a node. -/
def adjacent (graph : LineageGraph) (direction : LineageDirection)
    (children : SortedMap ArtifactId (OrderedSet ArtifactId)) (artifactId : ArtifactId) :
    OrderedSet ArtifactId :=
  let parents := OrderedSet.ofList ((graph.get? artifactId).getD [])
  if direction = .neighborhood then
    match children.get? artifactId with
    | some candidates => candidates.elems.foldl OrderedSet.insert parents
    | none => parents
  else parents

/-- The order of the answer. -/
def nodeBefore (left right : LineageNode) : Prop :=
  left.distance < right.distance ∨
    left.distance = right.distance ∧ left.artifactId ≤ right.artifactId

instance : DecidableRel nodeBefore := fun _ _ => instDecidableOr

/-- The nodes, unless the fuel runs out. -/
def lineageNodes (fuel : ℕ) (graph : LineageGraph) (query : LineageQuery) :
    Option (List LineageNode) := do
  let children := if query.direction = .neighborhood then childrenOf graph else empty
  let distances ← search
    (fun artifactId => (adjacent graph query.direction children artifactId).elems)
    query.maxDepth fuel (empty.insert query.artifactId 0) [(query.artifactId, 0)]
  let nodes := distances.entries.map fun entry => ⟨entry.1, entry.2⟩
  some ((nodes.insertionSort nodeBefore).take query.maxRecords)

/-! ### Edges -/

/-- From a child to a parent. -/
def parentEdge (graph : LineageGraph) (child parent : ArtifactId) : Prop :=
  ∃ parents, graph.get? child = some parents ∧ parent ∈ parents

/-- The edges that a query follows. -/
def edge (graph : LineageGraph) : LineageDirection → ArtifactId → ArtifactId → Prop
  | .ancestors, a, b => parentEdge graph a b
  | .neighborhood, a, b => parentEdge graph a b ∨ parentEdge graph b a

/-- The child stands under the parent. -/
def HasChild (children : SortedMap ArtifactId (OrderedSet ArtifactId))
    (parent child : ArtifactId) : Prop :=
  ∃ candidates, children.get? parent = some candidates ∧ child ∈ candidates

theorem hasChild_addChild {children : SortedMap ArtifactId (OrderedSet ArtifactId)}
    {parent parent' child child' : ArtifactId} :
    HasChild (addChild child children parent) parent' child' ↔
      child' = child ∧ parent' = parent ∨ HasChild children parent' child' := by
  unfold HasChild addChild
  rw [get?_alter]
  by_cases hparent : parent' = parent
  · subst hparent
    simp only [if_pos, and_true]
    rcases hget : children.get? parent' with _ | candidates
    · simp
    · simp
  · simp [hparent]

theorem hasChild_foldl_addChild {child : ArtifactId} : ∀ (parents : List ArtifactId)
    {children : SortedMap ArtifactId (OrderedSet ArtifactId)} {parent' child' : ArtifactId},
    HasChild (parents.foldl (addChild child) children) parent' child' ↔
      child' = child ∧ parent' ∈ parents ∨ HasChild children parent' child'
  | [], _, _, _ => by simp
  | parent :: parents, children, parent', child' => by
    rw [foldl_cons, hasChild_foldl_addChild parents, hasChild_addChild, mem_cons]
    tauto

theorem hasChild_entries : ∀ (entries : List (ArtifactId × List ArtifactId))
    {children : SortedMap ArtifactId (OrderedSet ArtifactId)} {parent child : ArtifactId},
    HasChild (entries.foldl (fun children entry => entry.2.foldl (addChild entry.1) children)
        children) parent child ↔
      (∃ parents, (child, parents) ∈ entries ∧ parent ∈ parents) ∨ HasChild children parent child
  | [], _, _, _ => by simp
  | entry :: entries, children, parent, child => by
    rw [foldl_cons, hasChild_entries entries, hasChild_foldl_addChild]
    constructor
    · rintro (⟨parents, hmem, hparent⟩ | ⟨rfl, hparent⟩ | hold)
      · exact Or.inl ⟨parents, mem_cons_of_mem _ hmem, hparent⟩
      · exact Or.inl ⟨entry.2, mem_cons_self, hparent⟩
      · exact Or.inr hold
    · rintro (⟨parents, hmem, hparent⟩ | hold)
      · rcases List.mem_cons.mp hmem with rfl | hmem
        · exact Or.inr (Or.inl ⟨rfl, hparent⟩)
        · exact Or.inl ⟨parents, hmem, hparent⟩
      · exact Or.inr (Or.inr hold)

theorem hasChild_childrenOf {graph : LineageGraph} {parent child : ArtifactId} :
    HasChild (childrenOf graph) parent child ↔ parentEdge graph child parent := by
  unfold childrenOf parentEdge
  rw [hasChild_entries]
  have hempty : ¬ HasChild empty parent child := by
    rintro ⟨_, hget, _⟩
    cases hget
  simp only [hempty, or_false, get?_eq_some]

theorem mem_parents {graph : LineageGraph} {a b : ArtifactId} :
    b ∈ OrderedSet.ofList ((graph.get? a).getD []) ↔ parentEdge graph a b := by
  unfold parentEdge
  rw [mem_ofList]
  rcases graph.get? a with _ | parents
  · simp
  · simp

theorem mem_adjacent {graph : LineageGraph} {query : LineageQuery} {a b : ArtifactId} :
    b ∈ adjacent graph query.direction
        (if query.direction = .neighborhood then childrenOf graph else empty) a ↔
      edge graph query.direction a b := by
  cases hdirection : query.direction with
  | ancestors => exact mem_parents
  | neighborhood =>
    have hedge : edge graph .neighborhood a b ↔
        b ∈ OrderedSet.ofList ((graph.get? a).getD []) ∨ HasChild (childrenOf graph) a b := by
      rw [mem_parents, hasChild_childrenOf]
      rfl
    rw [hedge]
    unfold adjacent HasChild
    rw [if_pos rfl, if_pos rfl]
    rcases (childrenOf graph).get? a with _ | candidates
    · simp
    · dsimp only
      rw [mem_foldl_insert, mem_elems]
      simp [or_comm]

/-! ### The answer -/

/-- The artifacts of the graph, and the one asked for. -/
def artifacts (graph : LineageGraph) (query : LineageQuery) : List ArtifactId :=
  query.artifactId :: (graph.keys ++ graph.entries.flatMap Prod.snd)

theorem edge_mem_artifacts {graph : LineageGraph} {query : LineageQuery} {a b : ArtifactId}
    (h : edge graph query.direction a b) : b ∈ artifacts graph query := by
  have hparent : ∀ a b, parentEdge graph a b →
      a ∈ graph.keys ∧ b ∈ graph.entries.flatMap Prod.snd := by
    rintro a b ⟨parents, hget, hb⟩
    refine ⟨mem_keys.mpr (by rw [hget, Option.isSome_some]), ?_⟩
    exact List.mem_flatMap.mpr ⟨(a, parents), get?_eq_some.mp hget, hb⟩
  refine mem_cons_of_mem _ (List.mem_append.mpr ?_)
  cases hdirection : query.direction with
  | ancestors =>
    rw [hdirection] at h
    exact Or.inr (hparent a b h).2
  | neighborhood =>
    rw [hdirection] at h
    rcases h with h | h
    · exact Or.inr (hparent a b h).2
    · exact Or.inl (hparent b a h).1

theorem nodeBefore_total (left right : LineageNode) :
    nodeBefore left right ∨ nodeBefore right left := by
  unfold nodeBefore
  rcases lt_trichotomy left.distance right.distance with h | h | h
  · exact Or.inl (Or.inl h)
  · rcases le_total left.artifactId right.artifactId with hid | hid
    · exact Or.inl (Or.inr ⟨h, hid⟩)
    · exact Or.inr (Or.inr ⟨h.symm, hid⟩)
  · exact Or.inr (Or.inl h)

theorem nodeBefore_trans {a b c : LineageNode} (hab : nodeBefore a b) (hbc : nodeBefore b c) :
    nodeBefore a c := by
  unfold nodeBefore at *
  rcases hab with hab | ⟨hab, hid⟩
  · rcases hbc with hbc | ⟨hbc, -⟩
    · exact Or.inl (hab.trans hbc)
    · exact Or.inl (hbc ▸ hab)
  · rcases hbc with hbc | ⟨hbc, hid'⟩
    · exact Or.inl (hab ▸ hbc)
    · exact Or.inr ⟨hab.trans hbc, hid.trans hid'⟩

instance : Std.Total nodeBefore := ⟨nodeBefore_total⟩

instance : IsTrans LineageNode nodeBefore := ⟨fun _ _ _ => nodeBefore_trans⟩

/-- **The lineage is exact.** With enough fuel the answer is the first `max_records` of the
artifacts within `max_depth`, sorted by distance and identifier, each once and with its distance. -/
theorem lineageNodes_spec (graph : LineageGraph) (query : LineageQuery) :
    ∃ nodes : List LineageNode, (∃ enough : ℕ, ∀ fuel, enough ≤ fuel →
        lineageNodes fuel graph query = some (nodes.take query.maxRecords)) ∧
      nodes.Pairwise nodeBefore ∧ (nodes.map LineageNode.artifactId).Nodup ∧
      ∀ artifactId distance, ⟨artifactId, distance⟩ ∈ nodes ↔ distance ≤ query.maxDepth ∧
          Distance (edge graph query.direction) query.artifactId artifactId distance := by
  have hedges : (fun a b => b ∈ (adjacent graph query.direction
      (if query.direction = .neighborhood then childrenOf graph else empty) a).elems) =
      edge graph query.direction := by
    funext a b
    exact propext mem_adjacent
  have hclosed : ∀ a ∈ artifacts graph query, ∀ b ∈ (adjacent graph query.direction
      (if query.direction = .neighborhood then childrenOf graph else empty) a).elems,
      b ∈ artifacts graph query :=
    fun a _ b hb => edge_mem_artifacts (mem_adjacent.mp hb)
  obtain ⟨distances, -, hget⟩ :=
    search_spec _ query.maxDepth hclosed List.mem_cons_self (le_refl _)
  have hsearch : ∀ fuel, (artifacts graph query).length ≤ fuel → search (fun a =>
      (adjacent graph query.direction (if query.direction = .neighborhood then childrenOf graph
        else empty) a).elems) query.maxDepth fuel
      (empty.insert query.artifactId 0) [(query.artifactId, 0)] = some distances := by
    intro fuel hfuel
    obtain ⟨distances', hsearch, hget'⟩ :=
      search_spec _ query.maxDepth hclosed List.mem_cons_self hfuel
    rw [hsearch]
    refine congrArg some (ext_get? fun artifactId => ?_)
    exact Option.ext fun distance =>
      (hget' artifactId distance).trans (hget artifactId distance).symm
  set nodes : List LineageNode := distances.entries.map fun entry => ⟨entry.1, entry.2⟩ with hnodes
  have hperm := List.perm_insertionSort nodeBefore nodes
  refine ⟨nodes.insertionSort nodeBefore, ⟨(artifacts graph query).length, fun fuel hfuel => ?_⟩,
    List.pairwise_insertionSort _ _, ?_, fun artifactId distance => ?_⟩
  · unfold lineageNodes
    dsimp only
    rw [hsearch fuel hfuel]
    rfl
  · refine (hperm.map _).nodup_iff.mpr ?_
    rw [hnodes, List.map_map]
    exact distances.nodup_keys
  · rw [hperm.mem_iff, ← hedges, ← hget artifactId distance, get?_eq_some, hnodes, List.mem_map]
    constructor
    · rintro ⟨entry, hentry, hsame⟩
      cases hsame
      exact hentry
    · exact fun hentry => ⟨_, hentry, rfl⟩

end Pandora.Population
