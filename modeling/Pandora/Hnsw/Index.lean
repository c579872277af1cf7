import Pandora.Lib.Checked
import Pandora.Text

/-! # The graph index

`HnswIndex` of `hnsw.rs` is the layered graph over the vectors of the virtual file system. `insert`
descends greedily to the level that is drawn for the new node, searches each layer below with a
bounded beam, links the node to the neighbours that the heuristic selects, and prunes their lists;
`search` descends to the lowest layer and searches that.

Distances, their comparison, what the heaps do with them and the levels drawn are parameters
(`HnswEnv`). An access out of range and a vector whose capacity no allocation can have are panics; a
loop that does not end is `unfinished`. That a sort may panic where distances are not numbers is
left out. -/

namespace Pandora.Hnsw

open Lib.Checked Text

/-- How a call ends if it does not return. -/
inductive Fault
  | outOfRange | noEntryPoint | capacity | unfinished

/-- `Vec::with_capacity`, for elements of `size` bytes: it panics above `isize::MAX` bytes. -/
def withCapacity (size count : ℕ) : Except Fault Unit := ensure (size * count < 2 ^ 63) .capacity

/-- The last field is the bits of `ml`. -/
structure HnswConfig where
  (m mMax0 efConstruction efSearch : ℕ)
  ml : UInt64

/-- The most neighbours a list of layer `l` may have. -/
def HnswConfig.maxDegree (config : HnswConfig) (l : ℕ) : ℕ :=
  if l = 0 then config.mMax0 else config.m

structure HnswNode (V : Type) where
  id : ℕ
  docId : UInt64
  level : ℕ
  vector : V
  neighbors : List (List ℕ)

/-- The graph: the nodes, where a search enters, the highest level. -/
structure HnswIndex (V : Type) where
  config : HnswConfig
  entryPoint : Option ℕ
  maxLevel : ℕ
  nodes : List (HnswNode V)
  docIds : List UInt64
  corpusHash : Bytes32
  createdAtUnix : UInt64

structure CandidateItem (D : Type) where
  nodeId : ℕ
  distance : D

structure HnswSearchResult (D : Type) where
  docId : UInt64
  (distance similarity : D)

/-! ### What is taken from outside -/

/-- A `BinaryHeap`. Which of its elements it gives first is not said: the order of its elements need
not be one where a distance is not a number. -/
structure Heap (D : Type) where
  State : Type
  items : State → List (CandidateItem D)
  empty : State
  push : State → CandidateItem D → State
  pop : State → Option (CandidateItem D × State)
  peek : State → Option (CandidateItem D)
  items_empty : items empty = []
  items_push : ∀ h c, (items (push h c)).Perm (c :: items h)
  items_pop : ∀ h c h', pop h = some (c, h') → (items h).Perm (c :: items h')

/-- The distances, their order, the heaps and the sort, which is taken to return. -/
structure HnswEnv (V D : Type) where
  cosineDistance : V → V → D
  zero : D
  similarity : D → D
  lt : D → D → Bool
  lt_irrefl : ∀ d, lt d d = false
  lt_trans : ∀ d e f, lt d e = true → lt e f = true → lt d f = true
  (minHeap maxHeap : Heap D)
  sortByDistance : List (CandidateItem D) → List (CandidateItem D)
  sort_perm : ∀ items, (sortByDistance items).Perm items

variable {V D : Type}

namespace HnswIndex

def new (config : HnswConfig) (createdAtUnix : UInt64) : HnswIndex V where
  config := config
  entryPoint := none
  maxLevel := 0
  nodes := []
  docIds := []
  corpusHash := ⟨List.replicate 32 0, List.length_replicate⟩
  createdAtUnix := createdAtUnix

def setCorpusHash (g : HnswIndex V) (hash : Bytes32) : HnswIndex V := { g with corpusHash := hash }

/-- `nodes[i]`. -/
def nodeAt (g : HnswIndex V) (i : ℕ) : Except Fault (HnswNode V) := orError g.nodes[i]? .outOfRange

/-- The list of layer `l` of node `i`, if there are this node and this layer. -/
def adjacency (g : HnswIndex V) (i l : ℕ) : Option (List ℕ) :=
  g.nodes[i]?.bind fun node => node.neighbors[l]?

/-- `nodes[i].neighbors[l]`. -/
def neighborsAt (g : HnswIndex V) (i l : ℕ) : Except Fault (List ℕ) :=
  orError (g.adjacency i l) .outOfRange

/-- `nodes[i].neighbors[l] = ids`. -/
def setNeighbors (g : HnswIndex V) (i l : ℕ) (ids : List ℕ) : Except Fault (HnswIndex V) := do
  let node ← g.nodeAt i
  ensure (l < node.neighbors.length) .outOfRange
  pure { g with nodes := g.nodes.set i { node with neighbors := node.neighbors.set l ids } }

variable (env : HnswEnv V D) (g : HnswIndex V) (query : V)

def distanceToNode (i : ℕ) : Except Fault D := do
  let node ← g.nodeAt i
  pure (env.cosineDistance query node.vector)

def distanceBetweenNodes (a b : ℕ) : Except Fault D :=
  if a = b then .ok env.zero
  else do
    let nodeA ← g.nodeAt a
    let nodeB ← g.nodeAt b
    pure (env.cosineDistance nodeA.vector nodeB.vector)

/-! ### Greedy descent -/

/-- Where the descent stands: `curr`, `curr_dist`, and whether this pass has changed them. -/
structure Descent (D : Type) where
  curr : ℕ
  currDist : D
  changed : Bool

def closerNeighbor (s : Descent D) (neighbor : ℕ) : Except Fault (Descent D) := do
  let d ← g.distanceToNode env query neighbor
  pure (if env.lt d s.currDist then ⟨neighbor, d, true⟩ else s)

/-- The passes over the neighbours of the current node, at most `fuel` of them. -/
def greedyPasses (level : ℕ) : ℕ → ℕ → D → Except Fault ℕ
  | 0, _, _ => .error .unfinished
  | fuel + 1, curr, currDist => do
    let neighbors ← g.neighborsAt curr level
    let s ← neighbors.foldlM (g.closerNeighbor env query) ⟨curr, currDist, false⟩
    if s.changed then greedyPasses level fuel s.curr s.currDist else pure s.curr

/-- The distance falls in every pass but the last, so there is at most one pass a node and the
last. -/
def greedySearchLevel (curr level : ℕ) : Except Fault ℕ := do
  let currDist ← g.distanceToNode env query curr
  g.greedyPasses env query level (g.nodes.length + 1) curr currDist

/-- `for l in (lowest..lowest + steps).rev()`. -/
def descend (lowest : ℕ) : ℕ → ℕ → Except Fault ℕ
  | 0, curr => .ok curr
  | steps + 1, curr => do
    let next ← g.greedySearchLevel env query curr (lowest + steps)
    descend lowest steps next

/-! ### Beam search -/

/-- The candidates and the results of a search of one layer. -/
structure Beam (env : HnswEnv V D) where
  visited : List ℕ
  candidates : env.minHeap.State
  results : env.maxHeap.State

variable {env} in
def Beam.resultCount (b : Beam env) : ℕ := (env.maxHeap.items b.results).length

def enter (b : Beam env) (ep : ℕ) : Except Fault (Beam env) :=
  if ep < g.nodes.length ∧ ep ∉ b.visited then do
    let d ← g.distanceToNode env query ep
    pure { visited := ep :: b.visited
           candidates := env.minHeap.push b.candidates ⟨ep, d⟩
           results := env.maxHeap.push b.results ⟨ep, d⟩ }
  else .ok b

/-- A neighbour is added while there are fewer than `ef` results, or if it is nearer than one. -/
def shouldAdd (b : Beam env) (ef : ℕ) (d : D) : Bool :=
  if b.resultCount < ef then true
  else match env.maxHeap.peek b.results with
    | some furthest => env.lt d furthest.distance
    | none => false

def visit (ef : ℕ) (b : Beam env) (neighbor : ℕ) : Except Fault (Beam env) :=
  if neighbor < g.nodes.length ∧ neighbor ∉ b.visited then do
    let d ← g.distanceToNode env query neighbor
    let visited := neighbor :: b.visited
    if shouldAdd env b ef d then
      let candidates := env.minHeap.push b.candidates ⟨neighbor, d⟩
      let results := env.maxHeap.push b.results ⟨neighbor, d⟩
      if ef < (env.maxHeap.items results).length then
        pure ⟨visited, candidates, ((env.maxHeap.pop results).map Prod.snd).getD results⟩
      else pure ⟨visited, candidates, results⟩
    else pure { b with visited := visited }
  else .ok b

/-- The nearest candidate is further than every result, and there are enough of them. -/
def settled (b : Beam env) (ef : ℕ) (c : CandidateItem D) : Bool :=
  match env.maxHeap.peek b.results with
  | some furthest => env.lt furthest.distance c.distance && ef ≤ b.resultCount
  | none => false

/-- The candidates that are popped, at most `fuel` of them. -/
def explore (ef level : ℕ) : ℕ → Beam env → Except Fault (Beam env)
  | 0, _ => .error .unfinished
  | fuel + 1, b =>
    match env.minHeap.pop b.candidates with
    | none => .ok b
    | some (c, candidates) =>
      let b := { b with candidates := candidates }
      if settled env b ef c then .ok b
      else match g.adjacency c.nodeId level with
        | none => explore ef level fuel b
        | some neighbors => do
          let b ← neighbors.foldlM (g.visit env query ef) b
          explore ef level fuel b

/-- A node is a candidate at most once, so there are at most that many pops and the last one. -/
def searchLayer (enterPoints : List ℕ) (ef level : ℕ) : Except Fault (List (CandidateItem D)) := do
  let b ← enterPoints.foldlM (g.enter env query) ⟨[], env.minHeap.empty, env.maxHeap.empty⟩
  let b ← g.explore env query ef level (g.nodes.length + 1) b
  pure (env.sortByDistance (env.maxHeap.items b.results))

/-! ### Selection of neighbours -/

/-- No selected neighbour is nearer to the candidate than the base is. -/
def isDiverse (cand : CandidateItem D) : List ℕ → Except Fault Bool
  | [] => .ok true
  | r :: rest => do
    let d ← g.distanceBetweenNodes env cand.nodeId r
    if env.lt d cand.distance then pure false else isDiverse cand rest

def pickDiverse (baseId mMax : ℕ) :
    List (CandidateItem D) → List ℕ → List ℕ → Except Fault (List ℕ × List ℕ)
  | [], selected, discarded => .ok (selected, discarded)
  | cand :: rest, selected, discarded =>
    if cand.nodeId = baseId ∨ cand.nodeId ∈ selected then
      pickDiverse baseId mMax rest selected discarded
    else do
      let diverse ← g.isDiverse env cand selected
      if diverse then
        if mMax ≤ (selected ++ [cand.nodeId]).length then
          pure (selected ++ [cand.nodeId], discarded)
        else pickDiverse baseId mMax rest (selected ++ [cand.nodeId]) discarded
      else pickDiverse baseId mMax rest selected (discarded ++ [cand.nodeId])

/-- `keep_pruned`: the discarded ones fill the places that are left. -/
def refill (mMax : ℕ) : List ℕ → List ℕ → List ℕ
  | [], selected => selected
  | disc :: rest, selected =>
    if disc ∈ selected then refill mMax rest selected
    else if mMax ≤ (selected ++ [disc]).length then selected ++ [disc]
    else refill mMax rest (selected ++ [disc])

def selectNeighborsHeuristic (baseId : ℕ) (candidates : List (CandidateItem D)) (mMax : ℕ)
    (keepPruned : Bool) : Except Fault (List ℕ) := do
  withCapacity 8 mMax
  let (selected, discarded) ←
    g.pickDiverse env baseId mMax (env.sortByDistance candidates) [] []
  pure (if keepPruned ∧ selected.length < mMax then refill mMax discarded selected else selected)

/-! ### Insertion -/

def candidateOf (base : ℕ) (x : ℕ) : Except Fault (CandidateItem D) := do
  let d ← g.distanceBetweenNodes env base x
  pure ⟨x, d⟩

/-- The neighbour `n` takes the new node into its list, and prunes the list if it is too long. -/
def linkBack (qId l mL : ℕ) (g : HnswIndex V) (n : ℕ) : Except Fault (HnswIndex V) := do
  let ids ← g.neighborsAt n l
  let ids' := if qId ∈ ids then ids else ids ++ [qId]
  let g ← g.setNeighbors n l ids'
  if mL < ids'.length then
    let items ← ids'.mapM (g.candidateOf env n)
    let kept ← g.selectNeighborsHeuristic env n items mL true
    g.setNeighbors n l kept
  else pure g

/-- The layers `l - 1` down to 0: `for l in (0..=target_top).rev()`. -/
def connect (qId curr : ℕ) : ℕ → HnswIndex V → List ℕ → Except Fault (HnswIndex V)
  | 0, g, _ => .ok g
  | l + 1, g, ep => do
    let mL := g.config.maxDegree l
    let candidates ← g.searchLayer env query ep g.config.efConstruction l
    let selected ← g.selectNeighborsHeuristic env qId candidates mL true
    let g ← g.setNeighbors qId l selected
    let g ← selected.foldlM (linkBack env qId l mL) g
    let ep := candidates.map CandidateItem.nodeId
    connect qId curr l g (if ep = [] then [curr] else ep)

/-- A call of `insert`, with the level its generator draws. -/
structure Insertion (V : Type) where
  docId : UInt64
  vector : V
  level : ℕ

def newNode (g : HnswIndex V) (q : Insertion V) : HnswNode V where
  id := g.nodes.length
  docId := q.docId
  level := q.level
  vector := q.vector
  neighbors := List.replicate (q.level + 1) []

def pushNode (g : HnswIndex V) (q : Insertion V) : HnswIndex V :=
  { g with nodes := g.nodes ++ [g.newNode q], docIds := g.docIds ++ [q.docId] }

def insert (g : HnswIndex V) (q : Insertion V) : Except Fault (HnswIndex V) := do
  let qId := g.nodes.length
  if g.nodes = [] then
    withCapacity 24 (q.level + 1)
    pure { g.pushNode q with entryPoint := some qId, maxLevel := q.level }
  else
    let entry ← orError g.entryPoint .noEntryPoint
    let maxL := g.maxLevel
    -- the layers above the level of the new node, if there are any
    let curr ← g.descend env q.vector (q.level + 1) (maxL - q.level) entry
    withCapacity 24 (q.level + 1)
    let g ← connect env q.vector qId curr (min maxL q.level + 1) (g.pushNode q) [curr]
    pure (if maxL < q.level then { g with maxLevel := q.level, entryPoint := some qId } else g)

/-- A sequence of inserts into a new index. -/
def build (config : HnswConfig) (createdAtUnix : UInt64) (insertions : List (Insertion V)) :
    Except Fault (HnswIndex V) :=
  insertions.foldlM (insert env) (new config createdAtUnix)

/-! ### Search -/

def resultOf (item : CandidateItem D) : Except Fault (HnswSearchResult D) := do
  let node ← g.nodeAt item.nodeId
  pure ⟨node.docId, item.distance, env.similarity item.distance⟩

def search (topK efSearch : ℕ) : Except Fault (List (HnswSearchResult D)) :=
  if g.nodes = [] ∨ topK = 0 then .ok []
  else match g.entryPoint with
    | none => .ok []
    | some entry => do
      let curr ← g.descend env query 1 g.maxLevel entry
      let candidates ← g.searchLayer env query [curr] (max efSearch topK) 0
      (candidates.take topK).mapM (g.resultOf env)

end HnswIndex

end Pandora.Hnsw
