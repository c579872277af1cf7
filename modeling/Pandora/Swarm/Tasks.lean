import Pandora.Lib.Checked
import Pandora.Lib.Kahn
import Pandora.Lib.Runs
import Pandora.Lib.SortedMaps

/-! # Task graphs

`TaskDag` of `swarm_mesh.rs`: tasks with weights, and for each task those that depend on it and
those it depends on. Hash maps are sorted maps; where the order of an iteration matters, it is a
parameter (`Shuffle`).

A graph that was made by calls is `Formed`: the three maps have the same tasks, and the two lists of
edges agree. Its topological sort has every task after those it depends on, exactly if the edges
have no cycle (`topologicalSort_spec`).

`addDependency` adds the edge before it looks for a cycle and does not take it back: the graph stays
acyclic in the runs in which no call closes a cycle (`dag_stays_acyclic_iff`). -/

namespace Pandora.Swarm.Tasks

open Relation Lib.Kahn Lib.Graphs Lib.SortedMaps Lib.Runs SortedMap
open List hiding keys mem_keys

/-- The errors of `SwarmError` that a task graph gives. -/
inductive TaskDagError
  | dagCycleDetected (message : String)
  | taskNotFound (id : String)
  | taskAlreadyExists (id : String)
  | invalidDependency (pred succ : String)
deriving DecidableEq

structure TaskNode where
  id : String
  weight : ℕ
deriving DecidableEq

structure TaskDag where
  tasks : SortedMap String TaskNode
  (adjacency reverseAdjacency : SortedMap String (List String))
deriving DecidableEq

/-- The order in which a hash map gives its keys. -/
structure Shuffle where
  order : List String → List String
  perm : ∀ ids, (order ids).Perm ids

namespace TaskDag

def new : TaskDag := ⟨.empty, .empty, .empty⟩

def addTask (dag : TaskDag) (id : String) (weight : ℕ) : TaskDag × Except TaskDagError Unit :=
  if (dag.tasks.get? id).isSome then (dag, .error (.taskAlreadyExists id))
  else
    ({ tasks := dag.tasks.insert id ⟨id, max weight 1⟩
       adjacency := dag.adjacency.alter id fun succs => succs.getD []
       reverseAdjacency := dag.reverseAdjacency.alter id fun preds => preds.getD [] }, .ok ())

/-- The successors in the map, or none. -/
def succs (dag : TaskDag) (id : String) : List String := (dag.adjacency.get? id).getD []

def preds (dag : TaskDag) (id : String) : List String := (dag.reverseAdjacency.get? id).getD []

/-- One edge into a task is counted. -/
def countEdge (inDegree : SortedMap String ℕ) (succ : String) : SortedMap String ℕ :=
  inDegree.alter succ fun deg => deg.getD 0 + 1

def inDegree (dag : TaskDag) : SortedMap String ℕ :=
  dag.adjacency.entries.foldl (fun inDegree entry => entry.2.foldl countEdge inDegree)
    (dag.tasks.entries.foldl (fun inDegree entry => inDegree.insert entry.1 0) .empty)

/-- Every task enters the queue once at most. -/
def topologicalSort (dag : TaskDag) (shuffle : Shuffle) : Except TaskDagError (List String) :=
  let inDegree := dag.inDegree
  let queue := shuffle.order ((inDegree.entries.filter fun entry => entry.2 = 0).map Prod.fst)
  let order := drain dag.succs inDegree.entries.length queue inDegree.get? []
  if order.length ≠ dag.tasks.entries.length then
    .error (.dagCycleDetected "Cycle detected in task dependencies")
  else .ok order

def addDependency (dag : TaskDag) (shuffle : Shuffle) (pred succ : String) :
    TaskDag × Except TaskDagError Unit :=
  if (dag.tasks.get? pred).isNone then (dag, .error (.taskNotFound pred))
  else if (dag.tasks.get? succ).isNone then (dag, .error (.taskNotFound succ))
  else if pred = succ then (dag, .error (.invalidDependency pred succ))
  else
    let dag := { dag with
      adjacency := dag.adjacency.alter pred fun succs => succs.getD [] ++ [succ]
      reverseAdjacency := dag.reverseAdjacency.alter succ fun preds => preds.getD [] ++ [pred] }
    (dag, (dag.topologicalSort shuffle).map fun _ => ())

/-! ### Graphs that were made by calls -/

def Edge (dag : TaskDag) (pred succ : String) : Prop := succ ∈ dag.succs pred

/-- What holds in every graph that was made by calls. -/
structure Formed (dag : TaskDag) : Prop where
  listed : ∀ id, (dag.adjacency.get? id).isSome ↔ (dag.tasks.get? id).isSome
  reversed : ∀ id, (dag.reverseAdjacency.get? id).isSome ↔ (dag.tasks.get? id).isSome
  known : ∀ pred succ, dag.Edge pred succ → (dag.tasks.get? succ).isSome
  mirrored : ∀ pred succ, (dag.succs pred).count succ = (dag.preds succ).count pred
  weighted : ∀ id node, dag.tasks.get? id = some node → 1 ≤ node.weight

variable {dag : TaskDag} {id pred succ : String}

theorem Formed.pred_known (h : dag.Formed) (hedge : dag.Edge pred succ) :
    (dag.tasks.get? pred).isSome := by
  rw [← h.listed]
  by_contra hnone
  rw [Option.not_isSome_iff_eq_none] at hnone
  rw [Edge, succs, hnone] at hedge
  exact not_mem_nil hedge

/-- The graph of the tasks. -/
def graph (dag : TaskDag) (h : dag.Formed) : Pandora.Lib.Kahn.Digraph String where
  vertices := dag.tasks.keys
  succs := dag.succs
  nodup := dag.tasks.nodup_keys
  closed _ _ _ hv := mem_keys.mpr (h.known _ _ hv)

theorem edge_graph (h : dag.Formed) : (dag.graph h).Edge = dag.Edge := by
  funext pred succ
  exact propext (and_iff_right_of_imp fun hedge => mem_keys.mpr (h.pred_known hedge))

theorem formed_new : new.Formed where
  listed _ := Iff.rfl
  reversed _ := Iff.rfl
  known _ _ h := absurd h not_mem_nil
  mirrored _ _ := rfl
  weighted _ _ h := by cases h

theorem get?_insert_isSome {m : SortedMap String TaskNode} {id id' : String} {node : TaskNode} :
    ((m.insert id node).get? id').isSome ↔ id' = id ∨ (m.get? id').isSome := by
  rw [get?_insert]
  split_ifs with hid
  all_goals simp [hid]

theorem get?_alter_isSome {m : SortedMap String (List String)} {id id' : String}
    {f : Option (List String) → List String} :
    ((m.alter id f).get? id').isSome ↔ id' = id ∨ (m.get? id').isSome := by
  rw [get?_alter]
  split_ifs with hid
  all_goals simp [hid]

theorem getD_alter_getD (m : SortedMap String (List String)) (id id' : String) :
    ((m.alter id fun ids => ids.getD []).get? id').getD [] = (m.get? id').getD [] := by
  rw [get?_alter]
  split_ifs with hid
  · rw [hid]
    rfl
  · rfl

theorem succs_addTask (dag : TaskDag) (id : String) (weight : ℕ) (pred : String) :
    (dag.addTask id weight).1.succs pred = dag.succs pred := by
  unfold addTask
  split_ifs
  · rfl
  · exact getD_alter_getD dag.adjacency id pred

theorem Formed.addTask (h : dag.Formed) (id : String) (weight : ℕ) :
    (dag.addTask id weight).1.Formed := by
  have hsuccs := succs_addTask dag id weight
  unfold TaskDag.addTask at hsuccs ⊢
  split_ifs at hsuccs ⊢ with hexists
  · exact h
  · refine ⟨fun id' => ?_, fun id' => ?_, fun pred succ hedge => ?_, fun pred succ => ?_,
      fun id' node hget => ?_⟩
    · rw [get?_alter_isSome, get?_insert_isSome, h.listed]
    · rw [get?_alter_isSome, get?_insert_isSome, h.reversed]
    · rw [Edge, hsuccs] at hedge
      exact get?_insert_isSome.mpr (Or.inr (h.known pred succ hedge))
    · rw [hsuccs, h.mirrored]
      exact congrArg (List.count pred) (getD_alter_getD dag.reverseAdjacency id succ).symm
    · dsimp only at hget
      rw [get?_insert] at hget
      split_ifs at hget with hid
      · obtain rfl := Option.some.inj hget
        exact le_max_right _ _
      · exact h.weighted id' node hget

/-- The graph with one more edge. -/
def withEdge (dag : TaskDag) (pred succ : String) : TaskDag :=
  { dag with
    adjacency := dag.adjacency.alter pred fun succs => succs.getD [] ++ [succ]
    reverseAdjacency := dag.reverseAdjacency.alter succ fun preds => preds.getD [] ++ [pred] }

theorem getD_alter_append (m : SortedMap String (List String)) (id new id' : String) :
    ((m.alter id fun ids => ids.getD [] ++ [new]).get? id').getD [] =
      if id' = id then (m.get? id).getD [] ++ [new] else (m.get? id').getD [] := by
  rw [get?_alter]
  split_ifs
  · rfl
  · rfl

theorem edge_withEdge {a b : String} :
    (dag.withEdge pred succ).Edge a b ↔ dag.Edge a b ∨ a = pred ∧ b = succ := by
  have hsuccs := getD_alter_append dag.adjacency pred succ a
  unfold Edge succs withEdge
  dsimp only
  rw [hsuccs]
  split_ifs with ha
  · rw [mem_append, mem_singleton, ha]
    simp
  · simp [ha]

theorem Formed.withEdge (h : dag.Formed) (hpred : (dag.tasks.get? pred).isSome)
    (hsucc : (dag.tasks.get? succ).isSome) : (dag.withEdge pred succ).Formed where
  listed id := by
    unfold TaskDag.withEdge
    rw [get?_alter_isSome, h.listed]
    exact or_iff_right_of_imp fun hid => hid ▸ hpred
  reversed id := by
    unfold TaskDag.withEdge
    rw [get?_alter_isSome, h.reversed]
    exact or_iff_right_of_imp fun hid => hid ▸ hsucc
  known a b hedge := by
    rcases edge_withEdge.mp hedge with hold | ⟨-, rfl⟩
    · exact h.known a b hold
    · exact hsucc
  mirrored a b := by
    have hmirrored := h.mirrored a b
    unfold succs preds at hmirrored ⊢
    unfold TaskDag.withEdge
    dsimp only
    rw [getD_alter_append, getD_alter_append]
    -- the edge is counted in both, or in neither
    by_cases ha : a = pred
    · by_cases hb : b = succ
      · subst ha hb
        rw [if_pos rfl, if_pos rfl, count_append, count_append, hmirrored,
          count_singleton_self, count_singleton_self]
      · subst ha
        rw [if_pos rfl, if_neg hb, count_append, hmirrored,
          count_singleton, if_neg (by simpa using Ne.symm hb), Nat.add_zero]
    · by_cases hb : b = succ
      · subst hb
        rw [if_neg ha, if_pos rfl, count_append, hmirrored,
          count_singleton, if_neg (by simpa using Ne.symm ha), Nat.add_zero]
      · rw [if_neg ha, if_neg hb, hmirrored]
  weighted := h.weighted

/-! ### The topological sort -/

theorem get?_countEdge (m : SortedMap String ℕ) (succ v : String) :
    (countEdge m succ).get? v = if v = succ then some ((m.get? succ).getD 0 + 1) else m.get? v :=
  get?_alter m succ _ v

variable {m : SortedMap String ℕ} {v : String}

theorem get?_foldl_countEdge {n : ℕ} {cs : List String}
    (h : m.get? v = some n) : (cs.foldl countEdge m).get? v = some (n + cs.count v) := by
  induction cs generalizing m n with
  | nil => simpa using h
  | cons c cs ih =>
    rw [foldl_cons]
    by_cases hv : v = c
    · subst hv
      have hstep : (countEdge m v).get? v = some (n + 1) := by
        rw [get?_countEdge, if_pos rfl, h]
        rfl
      rw [ih hstep, count_cons_self, Nat.add_assoc, Nat.add_comm 1]
    · have hstep : (countEdge m c).get? v = some n := by rw [get?_countEdge, if_neg hv, h]
      rw [ih hstep, count_cons_of_ne (Ne.symm hv)]

theorem get?_foldl_countEdge_none {cs : List String}
    (h : m.get? v = none) (hcs : v ∉ cs) : (cs.foldl countEdge m).get? v = none := by
  induction cs generalizing m with
  | nil => exact h
  | cons c cs ih =>
    rw [mem_cons, not_or] at hcs
    exact ih (by rw [get?_countEdge, if_neg hcs.1, h]) hcs.2

theorem get?_foldl_entries {entries : List (String × List String)} {n : ℕ} (h : m.get? v = some n) :
    (entries.foldl (fun inDegree entry => entry.2.foldl countEdge inDegree) m).get? v =
      some (n + (entries.map fun entry => entry.2.count v).sum) := by
  induction entries generalizing m n with
  | nil => simpa using h
  | cons entry entries ih =>
    rw [foldl_cons, ih (get?_foldl_countEdge h), map_cons, sum_cons, Nat.add_assoc]

theorem get?_foldl_entries_none {entries : List (String × List String)} (h : m.get? v = none)
    (hentries : ∀ entry ∈ entries, v ∉ entry.2) :
    (entries.foldl (fun inDegree entry => entry.2.foldl countEdge inDegree) m).get? v = none := by
  induction entries generalizing m with
  | nil => exact h
  | cons entry entries ih =>
    rw [foldl_cons]
    exact ih (get?_foldl_countEdge_none h (hentries entry mem_cons_self))
      fun entry hentry => hentries entry (mem_cons_of_mem _ hentry)

theorem get?_foldl_zeros {entries : List (String × TaskNode)} :
    (entries.foldl (fun inDegree entry => inDegree.insert entry.1 0) m).get? v =
      if v ∈ entries.map Prod.fst then some 0 else m.get? v := by
  induction entries generalizing m with
  | nil => rfl
  | cons entry entries ih =>
    rw [foldl_cons, ih, get?_insert, map_cons]
    by_cases hv : v = entry.1
    · simp [hv]
    · have hiff : v ∈ entry.1 :: entries.map Prod.fst ↔ v ∈ entries.map Prod.fst := by
        rw [mem_cons, or_iff_right hv]
      rw [if_neg hv]
      simp only [hiff]

theorem Formed.adjacency_keys (h : dag.Formed) : dag.adjacency.keys = dag.tasks.keys :=
  keys_eq fun id => by rw [mem_keys, mem_keys, h.listed]

theorem Formed.edgesFrom_tasks (h : dag.Formed) (v : String) :
    edgesFrom dag.succs dag.tasks.keys v =
      (dag.adjacency.entries.map fun entry => entry.2.count v).sum := by
  unfold edgesFrom
  rw [← h.adjacency_keys, keys, List.map_map]
  congr 1
  refine map_congr_left fun entry hentry => ?_
  have hget : dag.adjacency.get? entry.1 = some entry.2 := get?_eq_some.mpr hentry
  rw [Function.comp_apply, succs, hget]
  rfl

theorem Formed.get?_inDegree (h : dag.Formed) (v : String) :
    dag.inDegree.get? v =
      if v ∈ dag.tasks.keys then some (edgesFrom dag.succs dag.tasks.keys v) else none := by
  unfold inDegree
  split_ifs with hv
  · rw [get?_foldl_entries (n := 0), h.edgesFrom_tasks, Nat.zero_add]
    rw [get?_foldl_zeros]
    exact if_pos hv
  · refine get?_foldl_entries_none ?_ fun entry hentry hmem => hv ?_
    · rw [get?_foldl_zeros]
      exact if_neg hv
    · refine mem_keys.mpr (h.known entry.1 v ?_)
      rw [Edge, succs, get?_eq_some.mpr hentry]
      exact hmem

theorem Formed.inDegree_keys (h : dag.Formed) : dag.inDegree.keys = dag.tasks.keys :=
  keys_eq fun id => by
    rw [mem_keys, h.get?_inDegree]
    split_ifs with hid
    · exact iff_of_true rfl hid
    · exact iff_of_false Bool.false_ne_true hid

/-- The tasks in the queue at the start: those that depend on none. -/
theorem Formed.mem_sources (h : dag.Formed) (shuffle : Shuffle) (v : String) :
    v ∈ shuffle.order ((dag.inDegree.entries.filter fun entry => entry.2 = 0).map Prod.fst) ↔
      v ∈ dag.tasks.keys ∧ edgesFrom dag.succs dag.tasks.keys v = 0 := by
  rw [(shuffle.perm _).mem_iff, mem_map]
  have hget := h.get?_inDegree v
  constructor
  · rintro ⟨⟨v', deg⟩, hentry, rfl⟩
    obtain ⟨hmem, hzero⟩ := mem_filter.mp hentry
    rw [decide_eq_true_eq] at hzero
    rw [get?_eq_some.mpr hmem] at hget
    split_ifs at hget with hv
    exact ⟨hv, (Option.some.inj hget).symm.trans hzero⟩
  · rintro ⟨hv, hzero⟩
    rw [if_pos hv, hzero] at hget
    refine ⟨(v, 0), mem_filter.mpr ⟨get?_eq_some.mp hget, ?_⟩, rfl⟩
    exact decide_eq_true rfl

theorem nodup_sources (dag : TaskDag) (shuffle : Shuffle) :
    (shuffle.order
      ((dag.inDegree.entries.filter fun entry => entry.2 = 0).map Prod.fst)).Nodup := by
  rw [(shuffle.perm _).nodup_iff]
  exact dag.inDegree.nodup_keys.sublist (filter_sublist.map _)

/-- Every task, each after those it depends on. -/
structure IsOrder (dag : TaskDag) (order : List String) : Prop where
  perm : order.Perm dag.tasks.keys
  after : ∀ before v after, order = before ++ v :: after → ∀ u, dag.Edge u v → u ∈ before

/-- **The topological sort** finds an order exactly if the edges have no cycle. -/
theorem Formed.topologicalSort_spec (h : dag.Formed) (shuffle : Shuffle) :
    (Acyclic dag.Edge ∧ ∃ order, dag.topologicalSort shuffle = .ok order ∧ dag.IsOrder order) ∨
      ¬ Acyclic dag.Edge ∧ dag.topologicalSort shuffle =
        .error (.dagCycleDetected "Cycle detected in task dependencies") := by
  have hlength : ∀ {α : Type} (m : SortedMap String α), m.entries.length = m.keys.length :=
    fun m => (length_map _).symm
  have hspec := @drain_spec _ _ (dag.graph h) _ _ (dag.nodup_sources shuffle)
    (fun v hv => (h.get?_inDegree v).trans (if_pos hv)) (h.mem_sources shuffle)
    dag.inDegree.entries.length (by rw [hlength, h.inDegree_keys]; exact le_refl _)
  rw [edge_graph] at hspec
  obtain ⟨hnodup, hsub, hordered, hiff⟩ := hspec
  unfold topologicalSort
  dsimp only
  rw [hlength dag.tasks]
  by_cases hacyclic : Acyclic dag.Edge
  · have hcomplete := hiff.mpr hacyclic
    refine Or.inl ⟨hacyclic, _, if_neg (not_not.mpr hcomplete), ?_, ?_⟩
    · exact (dag.graph h).perm_of_length hnodup hsub hcomplete
    · intro before v after hsplit u hedge
      refine hordered before v after hsplit u ?_
      rw [edge_graph]
      exact hedge
  · exact Or.inr ⟨hacyclic, if_pos fun hcomplete => hacyclic (hiff.mp hcomplete)⟩

/-! ### Runs -/

inductive Call
  | addTask (id : String) (weight : ℕ)
  | addDependency (shuffle : Shuffle) (pred succ : String)

def exec (dag : TaskDag) : Call → TaskDag × Except TaskDagError Unit
  | .addTask id weight => dag.addTask id weight
  | .addDependency shuffle pred succ => dag.addDependency shuffle pred succ

def machine : Machine TaskDag Call (Except TaskDagError Unit) := ⟨exec⟩

theorem isSome_of_not_isNone {α : Type} {o : Option α} (h : ¬ o.isNone) : o.isSome := by
  cases o with
  | none => exact absurd rfl h
  | some a => rfl

/-- The ways in which a dependency is added: it is refused, or the edge is there afterwards. -/
theorem addDependency_cases (dag : TaskDag) (shuffle : Shuffle) (pred succ : String) :
    (∃ e, dag.addDependency shuffle pred succ = (dag, .error e) ∧
      ((dag.tasks.get? pred).isNone ∨ (dag.tasks.get? succ).isNone ∨ pred = succ)) ∨
    ((dag.tasks.get? pred).isSome ∧ (dag.tasks.get? succ).isSome ∧ pred ≠ succ ∧
      dag.addDependency shuffle pred succ = (dag.withEdge pred succ,
        ((dag.withEdge pred succ).topologicalSort shuffle).map fun _ => ())) := by
  unfold addDependency
  split_ifs with hpred hsucc heq
  · exact Or.inl ⟨_, rfl, Or.inl hpred⟩
  · exact Or.inl ⟨_, rfl, Or.inr (Or.inl hsucc)⟩
  · exact Or.inl ⟨_, rfl, Or.inr (Or.inr heq)⟩
  · exact Or.inr ⟨isSome_of_not_isNone hpred, isSome_of_not_isNone hsucc, heq, rfl⟩

theorem Formed.exec (h : dag.Formed) (call : Call) : (dag.exec call).1.Formed := by
  cases call with
  | addTask id weight => exact h.addTask id weight
  | addDependency shuffle pred succ =>
    show (dag.addDependency shuffle pred succ).1.Formed
    rcases addDependency_cases dag shuffle pred succ with
      ⟨e, hrefused, -⟩ | ⟨hpred, hsucc, -, hadded⟩
    · rw [hrefused]
      exact h
    · rw [hadded]
      exact h.withEdge hpred hsucc

/-- What a call is to keep: the edges have no cycle afterwards, so that every topological sort
succeeds, and an error changes nothing. -/
structure Kept (dag : TaskDag) (call : Call) : Prop where
  acyclic : Acyclic (dag.exec call).1.Edge
  sorts : ∀ shuffle, ∃ order, (dag.exec call).1.topologicalSort shuffle = .ok order ∧
    (dag.exec call).1.IsOrder order
  atomic : ∀ e, (dag.exec call).2 = .error e → (dag.exec call).1 = dag

/-- The call adds no dependency of a task on one that already comes after it. -/
def ClosesNoCycle (dag : TaskDag) : Call → Prop
  | .addTask _ _ => True
  | .addDependency _ pred succ => (dag.tasks.get? pred).isSome → (dag.tasks.get? succ).isSome →
      pred ≠ succ → ¬ ReflTransGen dag.Edge succ pred

theorem kept_of_closesNoCycle (hformed : dag.Formed) (hacyclic : Acyclic dag.Edge) {call : Call}
    (hcall : dag.ClosesNoCycle call) : dag.Kept call := by
  have hsorts : ∀ {dag : TaskDag}, dag.Formed → Acyclic dag.Edge → ∀ shuffle,
      ∃ order, dag.topologicalSort shuffle = .ok order ∧ dag.IsOrder order := by
    intro dag hformed hacyclic shuffle
    rcases hformed.topologicalSort_spec shuffle with ⟨-, hfound⟩ | ⟨hcycle, -⟩
    · exact hfound
    · exact absurd hacyclic hcycle
  cases call with
  | addTask id weight =>
    have hnext : Acyclic (dag.addTask id weight).1.Edge := by
      have hedges : (dag.addTask id weight).1.Edge = dag.Edge := by
        funext a b
        rw [Edge, Edge, succs_addTask]
      rwa [hedges]
    refine ⟨hnext, hsorts (hformed.addTask id weight) hnext, fun e he => ?_⟩
    change (dag.addTask id weight).2 = .error e at he
    show (dag.addTask id weight).1 = dag
    unfold addTask at he ⊢
    split_ifs at he ⊢
    rfl
  | addDependency shuffle pred succ =>
    rcases addDependency_cases dag shuffle pred succ with
      ⟨e, hrefused, -⟩ | ⟨hpred, hsucc, hne, hadded⟩
    · have hexec : dag.exec (.addDependency shuffle pred succ) = (dag, .error e) := hrefused
      refine ⟨?_, ?_, fun _ _ => ?_⟩
      · rw [hexec]
        exact hacyclic
      · rw [hexec]
        exact hsorts hformed hacyclic
      · rw [hexec]
    · have hexec : dag.exec (.addDependency shuffle pred succ) = _ := hadded
      have hnext : Acyclic (dag.withEdge pred succ).Edge :=
        hacyclic.add_edge (fun _ _ hedge => edge_withEdge.mp hedge) (hcall hpred hsucc hne)
      obtain ⟨order, hfound, -⟩ := hsorts (hformed.withEdge hpred hsucc) hnext shuffle
      refine ⟨?_, ?_, fun e he => ?_⟩
      · rw [hexec]
        exact hnext
      · rw [hexec]
        exact hsorts (hformed.withEdge hpred hsucc) hnext
      · rw [hexec, hfound] at he
        cases he

theorem closesNoCycle_of_kept {call : Call} (h : dag.Kept call) : dag.ClosesNoCycle call := by
  cases call with
  | addTask id weight => trivial
  | addDependency shuffle pred succ =>
    intro hpred hsucc hne hpath
    rcases addDependency_cases dag shuffle pred succ with ⟨e, -, hwhy⟩ | ⟨-, -, -, hadded⟩
    · rcases hwhy with hnone | hnone | heq
      · rw [Option.isNone_iff_eq_none] at hnone
        rw [hnone] at hpred
        cases hpred
      · rw [Option.isNone_iff_eq_none] at hnone
        rw [hnone] at hsucc
        cases hsucc
      · exact hne heq
    · have hacyclic := h.acyclic
      change Acyclic (dag.addDependency shuffle pred succ).1.Edge at hacyclic
      rw [hadded] at hacyclic
      have hback : ReflTransGen (dag.withEdge pred succ).Edge succ pred :=
        ReflTransGen.mono (fun _ _ hedge => edge_withEdge.mpr (Or.inl hedge)) _ _ hpath
      exact hacyclic pred (.head' (edge_withEdge.mpr (Or.inr ⟨rfl, rfl⟩)) hback)

theorem acyclic_new : Acyclic new.Edge := @acyclic_of_rank _ _ (fun _ => 0) fun _ _ h =>
  absurd h not_mem_nil

/-- **The graph stays acyclic**, and errors change nothing, exactly in the runs in which no call
closes a cycle. -/
theorem dag_stays_acyclic_iff (calls : List Call) :
    machine.Along Kept new calls ↔ machine.Along ClosesNoCycle new calls := by
  refine machine.along_iff (P := fun dag => dag.Formed ∧ Acyclic dag.Edge)
    (A := fun _ _ => True) ?_ ?_ calls (machine.along_of_forall (fun _ _ => trivial) calls new)
    ⟨formed_new, acyclic_new⟩
  · intro dag call _ hdag
    exact ⟨closesNoCycle_of_kept, kept_of_closesNoCycle hdag.1 hdag.2⟩
  · intro dag call _ hkept _ hdag
    exact ⟨hdag.1.exec call, hkept.acyclic⟩

def inOrder : Shuffle := ⟨fun ids => ids, fun _ => .refl _⟩

theorem refused_dependency_kept :
    let calls : List Call := [.addTask "a" 1, .addTask "b" 1, .addDependency inOrder "a" "b"]
    let dag := machine.run new calls
    (dag.addDependency inOrder "b" "a").2 =
        .error (.dagCycleDetected "Cycle detected in task dependencies") ∧
      (dag.addDependency inOrder "b" "a").1 ≠ dag ∧
      ¬ Acyclic (dag.addDependency inOrder "b" "a").1.Edge := by
  refine ⟨by decide +kernel, by decide +kernel, fun hacyclic => ?_⟩
  refine hacyclic "a" (.tail (.single (b := "b") ?_) ?_)
  · show "b" ∈ _
    decide +kernel
  · show "a" ∈ _
    decide +kernel

end TaskDag

end Pandora.Swarm.Tasks
