import Pandora.Lib.Graphs

/-! # Kahn's algorithm

A multigraph is a list of vertices and, for each, the list of its successors, in which a successor
stands once for each edge to it. The algorithm counts for every vertex the edges into it, keeps the
vertices without any in a queue, and takes the edges out of a vertex away when it takes the vertex
from the queue.

`Progress` is what holds between two vertices, in whichever order they are taken from the queue
(`Progress.take`). The order that is found is one in which each vertex stands after those with an
edge to it, and it has all of them exactly where there is no cycle (`drain_spec`). -/

namespace Pandora.Lib.Kahn

open Relation Lib.Graphs List Function

variable {α : Type}

structure Digraph (α : Type) where
  vertices : List α
  succs : α → List α
  nodup : vertices.Nodup
  closed : ∀ u ∈ vertices, ∀ v ∈ succs u, v ∈ vertices

def Digraph.Edge (G : Digraph α) (u v : α) : Prop := u ∈ G.vertices ∧ v ∈ G.succs u

/-- Each vertex of the list stands after those with an edge to it. -/
def Digraph.Ordered (G : Digraph α) (order : List α) : Prop :=
  ∀ before v after, order = before ++ v :: after → ∀ u, G.Edge u v → u ∈ before

theorem Digraph.ordered_nil (G : Digraph α) : G.Ordered [] := by
  intro before v after h
  simp at h

theorem Digraph.Ordered.snoc {G : Digraph α} {order : List α} {u : α} (h : G.Ordered order)
    (hu : ∀ w, G.Edge w u → w ∈ order) :
    G.Ordered (order ++ [u]) := by
  intro before v after hsplit w hedge
  rcases eq_nil_or_concat after with rfl | ⟨after, last, rfl⟩
  · obtain ⟨rfl, hlast⟩ := append_inj' hsplit rfl
    obtain rfl : u = v := singleton_inj.mp hlast
    exact hu w hedge
  · have hinit : order = before ++ v :: after := by
      have hconcat : order ++ [u] = (before ++ v :: after) ++ [last] := by
        rw [hsplit, concat_eq_append, append_assoc]
        rfl
      exact (append_inj' hconcat rfl).1
    exact h before v after hinit w hedge

/-- A list of vertices that is as long as all of them has all of them. -/
theorem Digraph.perm_of_length {G : Digraph α} {order : List α} (hnodup : order.Nodup)
    (hsub : order ⊆ G.vertices) (hlength : order.length = G.vertices.length) :
    order.Perm G.vertices :=
  (hnodup.subperm hsub).perm_of_length_le (le_of_eq hlength.symm)

variable [DecidableEq α]

/-- The number of edges from the given vertices. -/
def edgesFrom (succs : α → List α) (us : List α) (v : α) : ℕ :=
  (us.map fun u => (succs u).count v).sum

/-- One edge into `child` is taken away. -/
def settle (state : List α × (α → Option ℕ)) (child : α) : List α × (α → Option ℕ) :=
  match state.2 child with
  | none => state
  | some deg =>
    (if deg - 1 = 0 then state.1 ++ [child] else state.1,
      Function.update state.2 child (some (deg - 1)))

/-- The loop over the queue, for at most `fuel` of its elements. -/
def drain (succs : α → List α) : ℕ → List α → (α → Option ℕ) → List α → List α
  | 0, _, _, order => order
  | _ + 1, [], _, order => order
  | fuel + 1, u :: queue, degrees, order =>
    let (queue, degrees) := (succs u).foldl settle (queue, degrees)
    drain succs fuel queue degrees (order ++ [u])

/-! ### The edges out of one vertex -/

/-- Each child loses its edges, and enters the queue with the last of them. -/
theorem settle_foldl {cs : List α} {queue : List α} {degrees : α → Option ℕ}
    (h : ∀ c ∈ cs, ∃ d, degrees c = some d ∧ cs.count c ≤ d) :
    ∃ new, cs.foldl settle (queue, degrees) =
        (queue ++ new, fun v => (degrees v).map (· - cs.count v)) ∧
      new.Nodup ∧ ∀ v, v ∈ new ↔ v ∈ cs ∧ degrees v = some (cs.count v) := by
  induction cs generalizing queue degrees with
  | nil => exact ⟨[], by simp, nodup_nil, by simp⟩
  | cons c rest ih =>
    obtain ⟨d, hd, hcount⟩ := h c mem_cons_self
    rw [count_cons_self] at hcount
    have hstep : settle (queue, degrees) c =
        (if d - 1 = 0 then queue ++ [c] else queue, Function.update degrees c (some (d - 1))) := by
      unfold settle
      dsimp only
      rw [hd]
    have hrest : ∀ x ∈ rest, ∃ e, Function.update degrees c (some (d - 1)) x = some e ∧
        rest.count x ≤ e := by
      intro x hx
      by_cases hxc : x = c
      · subst hxc
        exact ⟨d - 1, update_self .., by omega⟩
      · obtain ⟨e, he, hle⟩ := h x (mem_cons_of_mem _ hx)
        rw [count_cons_of_ne (Ne.symm hxc)] at hle
        exact ⟨e, by rw [update_of_ne hxc, he], hle⟩
    obtain ⟨new, hfold, hnodup, hmem⟩ := @ih (if d - 1 = 0 then queue ++ [c] else queue) _ hrest
    have hdegrees : (fun v => (Function.update degrees c (some (d - 1)) v).map (· - rest.count v)) =
        fun v => (degrees v).map (· - (c :: rest).count v) := by
      funext v
      by_cases hv : v = c
      · subst hv
        rw [update_self, hd, Option.map_some, Option.map_some, count_cons_self,
          Nat.sub_sub, Nat.add_comm 1]
      · rw [update_of_ne hv, count_cons_of_ne (Ne.symm hv)]
    have hnew : ∀ v, v ≠ c →
        (v ∈ new ↔ v ∈ c :: rest ∧ degrees v = some ((c :: rest).count v)) := by
      intro v hv
      rw [hmem, update_of_ne hv, count_cons_of_ne (Ne.symm hv), mem_cons,
        or_iff_right hv]
    rw [foldl_cons, hstep, hfold, hdegrees]
    by_cases hlast : d - 1 = 0
    · -- the last edge into `c`
      have hzero : rest.count c = 0 := by omega
      have hcrest : c ∉ rest := count_eq_zero.mp hzero
      refine ⟨c :: new, ?_, ?_, fun v => ?_⟩
      · rw [if_pos hlast, append_assoc]
        rfl
      · exact nodup_cons.mpr ⟨fun hc => hcrest ((hmem c).mp hc).1, hnodup⟩
      · by_cases hv : v = c
        · subst hv
          refine iff_of_true mem_cons_self ⟨mem_cons_self, ?_⟩
          rw [hd, count_cons_self, Option.some.injEq]
          omega
        · rw [mem_cons, or_iff_right hv, hnew v hv]
    · refine ⟨new, by rw [if_neg hlast], hnodup, fun v => ?_⟩
      by_cases hv : v = c
      · subst hv
        rw [hmem, update_self, hd, count_cons_self, Option.some.injEq,
          Option.some.injEq]
        constructor
        · rintro ⟨-, heq⟩
          exact ⟨mem_cons_self, by omega⟩
        · rintro ⟨-, heq⟩
          exact ⟨count_pos_iff.mp (by omega), by omega⟩
      · exact hnew v hv

/-! ### What is left -/

/-- The vertices that were not taken yet. -/
def Digraph.left (G : Digraph α) (order : List α) : List α := G.vertices.filter (· ∉ order)

variable {G : Digraph α} {queue order : List α} {degrees : α → Option ℕ} {u v : α}

theorem mem_left : v ∈ G.left order ↔ v ∈ G.vertices ∧ v ∉ order := by
  unfold Digraph.left
  rw [mem_filter, decide_eq_true_eq]

theorem edgesFrom_perm {succs : α → List α} {us us' : List α} (h : us.Perm us') (v : α) :
    edgesFrom succs us v = edgesFrom succs us' v := (h.map _).sum_eq

theorem edgesFrom_cons (succs : α → List α) (u : α) (us : List α) (v : α) :
    edgesFrom succs (u :: us) v = (succs u).count v + edgesFrom succs us v := by
  unfold edgesFrom
  rw [map_cons, sum_cons]

theorem edgesFrom_eq_zero {succs : α → List α} {us : List α} {v : α} :
    edgesFrom succs us v = 0 ↔ ∀ u ∈ us, v ∉ succs u := by
  induction us with
  | nil => simp [edgesFrom]
  | cons u us ih =>
    rw [edgesFrom_cons, Nat.add_eq_zero_iff, ih, count_eq_zero, forall_mem_cons]

theorem left_snoc (hu : u ∈ G.vertices) (hfresh : u ∉ order) :
    (G.left order).Perm (u :: G.left (order ++ [u])) := by
  have hnodup : ∀ order, (G.left order).Nodup := fun _ => G.nodup.filter _
  rw [perm_ext_iff_of_nodup (hnodup order)]
  · intro v
    rw [mem_cons, mem_left, mem_left, mem_append, mem_singleton]
    by_cases hv : v = u
    · subst hv
      simp [hu, hfresh]
    · simp [hv]
  · refine nodup_cons.mpr ⟨fun hmem => (mem_left.mp hmem).2 ?_, hnodup _⟩
    exact mem_append_right _ (mem_singleton_self u)

/-- The state of the algorithm: `order` is taken, `queue` has the vertices all of whose
predecessors are. -/
structure Progress (G : Digraph α) (queue : List α) (degrees : α → Option ℕ) (order : List α) :
    Prop where
  nodup : (order ++ queue).Nodup
  sub : ∀ v ∈ order ++ queue, v ∈ G.vertices
  degree : ∀ v ∈ G.vertices, degrees v = some (edgesFrom G.succs (G.left order) v)
  ready : ∀ v ∈ G.vertices, v ∈ order ++ queue ↔ edgesFrom G.succs (G.left order) v = 0
  ordered : G.Ordered order

theorem Progress.start {sources : List α} (hnodup : sources.Nodup)
    (hdegree : ∀ v ∈ G.vertices, degrees v = some (edgesFrom G.succs G.vertices v))
    (hsources : ∀ v, v ∈ sources ↔ v ∈ G.vertices ∧ edgesFrom G.succs G.vertices v = 0) :
    Progress G sources degrees [] := by
  have hleft : G.left [] = G.vertices := by
    unfold Digraph.left
    rw [filter_eq_self]
    intro v _
    simp
  refine ⟨hnodup, fun v hv => ((hsources v).mp hv).1, ?_, ?_, G.ordered_nil⟩
  · rw [hleft]
    exact hdegree
  · intro v hv
    rw [hleft, nil_append, hsources, and_iff_right hv]

theorem Progress.perm {queue' : List α} (h : Progress G queue degrees order)
    (hperm : queue.Perm queue') : Progress G queue' degrees order where
  nodup := (hperm.append_left order).nodup_iff.mp h.nodup
  sub v hv := h.sub v ((hperm.append_left order).mem_iff.mpr hv)
  degree := h.degree
  ready v hv := by rw [← (hperm.append_left order).mem_iff, h.ready v hv]
  ordered := h.ordered

theorem Progress.pred_mem (h : Progress G queue degrees order) (hv : v ∈ order ++ queue)
    (hedge : G.Edge u v) : u ∈ order := by
  by_contra hu
  have hzero := (h.ready v (h.sub v hv)).mp hv
  exact edgesFrom_eq_zero.mp hzero u (mem_left.mpr ⟨hedge.1, hu⟩) hedge.2

/-- The edges from the first vertex of the queue are among those that are left. -/
theorem Progress.edges (h : Progress G (u :: queue) degrees order) (v : α) :
    edgesFrom G.succs (G.left order) v =
      (G.succs u).count v + edgesFrom G.succs (G.left (order ++ [u])) v := by
  have hu : u ∈ G.vertices := h.sub u (mem_append_right _ mem_cons_self)
  have hfresh : u ∉ order := fun hmem =>
    (nodup_append.mp h.nodup).2.2 u hmem u mem_cons_self rfl
  rw [edgesFrom_perm (left_snoc hu hfresh), edgesFrom_cons]

theorem Progress.counts (h : Progress G (u :: queue) degrees order) :
    ∀ c ∈ G.succs u, ∃ d, degrees c = some d ∧ (G.succs u).count c ≤ d := by
  intro c hc
  have hu : u ∈ G.vertices := h.sub u (mem_append_right _ mem_cons_self)
  refine ⟨_, h.degree c (G.closed u hu c hc), ?_⟩
  rw [h.edges]
  exact Nat.le_add_right _ _

/-- **One vertex is taken from the queue.** -/
theorem Progress.take (h : Progress G (u :: queue) degrees order) :
    ∃ new degrees', (G.succs u).foldl settle (queue, degrees) = (queue ++ new, degrees') ∧
      Progress G (queue ++ new) degrees' (order ++ [u]) := by
  have hu : u ∈ G.vertices := h.sub u (mem_append_right _ mem_cons_self)
  have hedges := h.edges
  obtain ⟨new, hfold, hnew, hmem⟩ := @settle_foldl _ _ _ queue _ h.counts
  have hnewVertex : ∀ v ∈ new, v ∈ G.vertices := fun v hv => G.closed u hu v ((hmem v).mp hv).1
  have hpos : ∀ v ∈ new, edgesFrom G.succs (G.left order) v ≠ 0 := by
    intro v hv hzero
    have hcount := count_pos_iff.mpr ((hmem v).mp hv).1
    rw [hedges] at hzero
    omega
  have hnotReady : ∀ v ∈ new, v ∉ order ++ u :: queue := fun v hv hready =>
    hpos v hv ((h.ready v (hnewVertex v hv)).mp hready)
  have hmove : (order ++ [u]) ++ (queue ++ new) = (order ++ u :: queue) ++ new := by simp
  refine ⟨new, _, hfold, ?_, ?_, ?_, ?_, ?_⟩
  · rw [hmove, nodup_append]
    refine ⟨h.nodup, hnew, fun a ha b hb hab => ?_⟩
    subst hab
    exact hnotReady a hb ha
  · intro v hv
    rw [hmove] at hv
    rcases mem_append.mp hv with hv | hv
    · exact h.sub v hv
    · exact hnewVertex v hv
  · intro v hv
    rw [h.degree v hv, Option.map_some, hedges v, Nat.add_sub_cancel_left]
  · intro v hv
    rw [hmove, mem_append, h.ready v hv, hmem, h.degree v hv, Option.some.injEq, hedges v]
    constructor
    · rintro (hzero | ⟨-, heq⟩)
      all_goals omega
    · intro hzero
      by_cases hchild : v ∈ G.succs u
      · exact Or.inr ⟨hchild, by omega⟩
      · rw [count_eq_zero.mpr hchild]
        exact Or.inl (by omega)
  · exact h.ordered.snoc fun w hedge =>
      h.pred_mem (mem_append_right _ mem_cons_self) hedge

theorem Progress.length_le (h : Progress G queue degrees order) :
    order.length + queue.length ≤ G.vertices.length := by
  rw [← length_append]
  exact (h.nodup.subperm fun v hv => h.sub v hv).length_le

/-! ### The end -/

theorem Digraph.Ordered.acyclic (h : G.Ordered order) (hnodup : order.Nodup)
    (hall : ∀ v ∈ G.vertices, v ∈ order) : Acyclic G.Edge := by
  refine @acyclic_of_rank _ _ order.idxOf fun a b hedge => ?_
  obtain ⟨before, after, hsplit⟩ := append_of_mem (hall b (G.closed a hedge.1 b hedge.2))
  have hbefore := h before b after hsplit a hedge
  rw [hsplit] at hnodup ⊢
  have hfresh : b ∉ before := fun hmem =>
    (nodup_append.mp hnodup).2.2 b hmem b mem_cons_self rfl
  rw [idxOf_append_of_mem hbefore, idxOf_append_of_notMem hfresh]
  exact Nat.lt_add_right _ (idxOf_lt_length_of_mem hbefore)

/-- Where nothing is ready any more and there is no cycle, everything was taken. -/
theorem Progress.all_taken (h : Progress G [] degrees order) (hacyclic : Acyclic G.Edge) :
    ∀ v ∈ G.vertices, v ∈ order := by
  have hnone : G.left order = [] := by
    by_contra hne
    obtain ⟨v, hv, hleast⟩ := hacyclic.exists_minimal hne
    obtain ⟨hvertex, hleft⟩ := mem_left.mp hv
    have hzero : edgesFrom G.succs (G.left order) v = 0 :=
      edgesFrom_eq_zero.mpr fun u hu hedge => hleast u hu ⟨(mem_left.mp hu).1, hedge⟩
    have hready := (h.ready v hvertex).mpr hzero
    rw [append_nil] at hready
    exact hleft hready
  intro v hv
  by_contra hfresh
  have hmem : v ∈ G.left order := mem_left.mpr ⟨hv, hfresh⟩
  rw [hnone] at hmem
  exact not_mem_nil hmem

/-- The order that is found has all vertices exactly if there is no cycle. -/
theorem Progress.complete_iff (h : Progress G [] degrees order) :
    order.length = G.vertices.length ↔ Acyclic G.Edge := by
  have hnodup : order.Nodup := by simpa using h.nodup
  have hsub : order ⊆ G.vertices := fun v hv => h.sub v (mem_append_left _ hv)
  constructor
  · intro hlength
    have hperm := Digraph.perm_of_length hnodup hsub hlength
    exact h.ordered.acyclic hnodup fun v hv => hperm.mem_iff.mpr hv
  · intro hacyclic
    have hperm : order.Perm G.vertices := by
      rw [perm_ext_iff_of_nodup hnodup G.nodup]
      exact fun v => ⟨fun hv => hsub hv, h.all_taken hacyclic v⟩
    exact hperm.length_eq

theorem Progress.drain (h : Progress G queue degrees order) :
    ∀ fuel, G.vertices.length ≤ order.length + fuel →
      ∃ final, Progress G [] final (drain G.succs fuel queue degrees order) := by
  intro fuel hfuel
  induction fuel generalizing queue degrees order with
  | zero =>
    have hlength := h.length_le
    obtain rfl : queue = [] := length_eq_zero_iff.mp (by omega)
    exact ⟨degrees, h⟩
  | succ fuel ih =>
    rcases queue with _ | ⟨u, queue⟩
    · exact ⟨degrees, h⟩
    · obtain ⟨new, degrees', hfold, hnext⟩ := h.take
      rw [Kahn.drain, hfold]
      refine ih hnext ?_
      rw [length_append, length_singleton]
      omega

/-- **The order that is found**, from the vertices without an edge to them. -/
theorem drain_spec {sources : List α} (hnodup : sources.Nodup)
    (hdegree : ∀ v ∈ G.vertices, degrees v = some (edgesFrom G.succs G.vertices v))
    (hsources : ∀ v, v ∈ sources ↔ v ∈ G.vertices ∧ edgesFrom G.succs G.vertices v = 0)
    {fuel : ℕ} (hfuel : G.vertices.length ≤ fuel) :
    let order := drain G.succs fuel sources degrees []
    order.Nodup ∧ order ⊆ G.vertices ∧ G.Ordered order ∧
      (order.length = G.vertices.length ↔ Acyclic G.Edge) := by
  obtain ⟨final, hfinal⟩ :=
    (Progress.start hnodup hdegree hsources).drain fuel (by simpa using hfuel)
  exact ⟨by simpa using hfinal.nodup, fun v hv => hfinal.sub v (mem_append_left _ hv),
    hfinal.ordered, hfinal.complete_iff⟩

end Pandora.Lib.Kahn
