import Pandora.Lib.Kahn

/-! # List scheduling

The vertices of a directed graph are jobs with weights, and an edge goes from a job to one that has
to wait for it. A list scheduler runs at most `workers` jobs at once, and leaves no worker idle
while a job is ready.

`Pace` says how the time compares with the work: `rest` is what is left to do of each job, and
`idle` the time in which a worker had nothing to do. No path is behind the time, some path is as
heavy as the idle time and what is left, and all workers together have done what was done. -/

namespace Pandora.Lib.ListScheduling

open Relation Lib.Graphs Lib.Kahn List

variable {α : Type} {G : Kahn.Digraph α} {weight rest rest' : α → ℕ} {path : List α} {u v : α}

/-! ### Paths -/

structure IsPath (G : Kahn.Digraph α) (path : List α) : Prop where
  vertices : ∀ v ∈ path, v ∈ G.vertices
  edges : path.IsChain G.Edge

def total (weight : α → ℕ) (path : List α) : ℕ := (path.map weight).sum

@[simp] theorem total_nil : total weight [] = 0 := rfl

@[simp] theorem total_cons : total weight (v :: path) = weight v + total weight path :=
  sum_cons

@[simp] theorem total_append {path' : List α} :
    total weight (path ++ path') = total weight path + total weight path' := by
  unfold total
  rw [map_append, sum_append]

theorem total_mono (h : ∀ v ∈ path, rest v ≤ rest' v) : total rest path ≤ total rest' path :=
  sum_le_sum h

theorem total_eq_zero (h : ∀ v ∈ path, rest v = 0) : total rest path = 0 := by
  unfold total
  rw [sum_eq_zero_iff]
  exact forall_mem_map.mpr h

theorem isPath_nil (G : Kahn.Digraph α) : IsPath G [] := ⟨forall_mem_nil _, isChain_nil⟩

theorem isPath_singleton (hv : v ∈ G.vertices) : IsPath G [v] :=
  ⟨forall_mem_singleton.mpr hv, isChain_singleton v⟩

theorem IsPath.join {after : List α} (h : IsPath G (path ++ [v])) (h' : IsPath G (v :: after)) :
    IsPath G (path ++ [v] ++ after) where
  vertices w hw := by
    rcases mem_append.mp hw with hw | hw
    · exact h.vertices w hw
    · exact h'.vertices w (mem_cons_of_mem _ hw)
  edges := h.edges.append_overlap h'.edges (cons_ne_nil _ _)

theorem IsPath.snoc (h : IsPath G (path ++ [u])) (hedge : G.Edge u v) (hv : v ∈ G.vertices) :
    IsPath G (path ++ [u] ++ [v]) :=
  h.join ⟨by simpa using ⟨hedge.1, hv⟩, isChain_pair.mpr hedge⟩

theorem IsPath.right_of_append {path' : List α} (h : IsPath G (path ++ path')) : IsPath G path' :=
  ⟨fun v hv => h.vertices v (mem_append_right _ hv), h.edges.right_of_append⟩

/-- The weights of the paths that end at a vertex. -/
def weightsTo (G : Kahn.Digraph α) (weight : α → ℕ) (v : α) : Set ℕ :=
  {n | ∃ path, IsPath G (path ++ [v]) ∧ total weight (path ++ [v]) = n}

/-- The weights of all paths. -/
def weights (G : Kahn.Digraph α) (weight : α → ℕ) : Set ℕ :=
  {n | ∃ path, IsPath G path ∧ total weight path = n}

theorem le_max?_getD {ns : List ℕ} {n : ℕ} (h : n ∈ ns) : n ≤ ns.max?.getD 0 := by
  rcases hmax : ns.max? with _ | best
  · rw [List.max?_eq_none_iff] at hmax
    rw [hmax] at h
    exact absurd h not_mem_nil
  · exact (List.max?_le_iff hmax).mp le_rfl _ h

/-- **The heaviest path to a vertex** is one to a predecessor, or has this vertex only. -/
theorem isGreatest_weightsTo {heaviest : α → ℕ} {preds : List α} (hv : v ∈ G.vertices)
    (hpreds : ∀ u, u ∈ preds ↔ G.Edge u v)
    (hheaviest : ∀ u ∈ preds, IsGreatest (weightsTo G weight u) (heaviest u)) :
    IsGreatest (weightsTo G weight v) (((preds.map heaviest).max?).getD 0 + weight v) := by
  constructor
  · rcases hmax : (preds.map heaviest).max? with _ | best
    · exact ⟨[], isPath_singleton hv, by simp⟩
    · obtain ⟨u, hu, rfl⟩ := mem_map.mp (List.max?_mem hmax)
      obtain ⟨path, hpath, htotal⟩ := (hheaviest u hu).1
      refine ⟨path ++ [u], hpath.snoc ((hpreds u).mp hu) hv, ?_⟩
      rw [total_append, htotal]
      simp
  · rintro n ⟨path, hpath, rfl⟩
    rcases eq_nil_or_concat path with rfl | ⟨path, u, rfl⟩
    · simp
    · rw [concat_eq_append] at hpath ⊢
      have hedges := hpath.edges
      rw [append_assoc] at hedges
      have hedge : G.Edge u v := isChain_pair.mp hedges.right_of_append
      have hu := (hpreds u).mpr hedge
      have hbelow : total weight (path ++ [u]) ≤ heaviest u := by
        refine (hheaviest u hu).2 ⟨path, ⟨fun w hw => ?_, hpath.edges.left_of_append⟩, rfl⟩
        exact hpath.vertices w (mem_append_left _ hw)
      have hbest := le_max?_getD (mem_map_of_mem (f := heaviest) hu)
      rw [total_append]
      simp only [total_cons, total_nil, Nat.add_zero]
      omega

theorem isGreatest_weights {heaviest : List (α × ℕ)}
    (hall : ∀ v ∈ G.vertices, ∃ d, (v, d) ∈ heaviest)
    (hheaviest : ∀ entry ∈ heaviest, IsGreatest (weightsTo G weight entry.1) entry.2) :
    IsGreatest (weights G weight) ((heaviest.map Prod.snd).max?.getD 0) := by
  constructor
  · rcases hmax : (heaviest.map Prod.snd).max? with _ | best
    · exact ⟨[], isPath_nil G, rfl⟩
    · obtain ⟨entry, hentry, rfl⟩ := mem_map.mp (List.max?_mem hmax)
      obtain ⟨path, hpath, htotal⟩ := (hheaviest entry hentry).1
      exact ⟨path ++ [entry.1], hpath, htotal⟩
  · rintro n ⟨path, hpath, rfl⟩
    rcases eq_nil_or_concat path with rfl | ⟨path, v, rfl⟩
    · exact Nat.zero_le _
    · rw [concat_eq_append] at hpath ⊢
      have hv := hpath.vertices v (mem_append_right _ (mem_singleton_self v))
      obtain ⟨d, hd⟩ := hall v hv
      have hbelow : total weight (path ++ [v]) ≤ d := (hheaviest _ hd).2 ⟨path, hpath, rfl⟩
      exact hbelow.trans (le_max?_getD (mem_map.mpr ⟨_, hd, rfl⟩))

/-! ### Time and work -/

variable {workers now idle delta : ℕ} {running ready done : List α} {degrees : α → Option ℕ}

/-- The time against the work. -/
structure Pace (G : Kahn.Digraph α) (weight : α → ℕ) (workers now idle : ℕ) (rest : α → ℕ) :
    Prop where
  behind : ∀ path, IsPath G path → total weight path ≤ now + total rest path
  ahead : ∀ path, IsPath G path →
    ∃ heavy, IsPath G heavy ∧ idle + total rest path ≤ total weight heavy
  done_le : total weight G.vertices ≤ workers * now + total rest G.vertices
  le_done : workers * now + total rest G.vertices ≤
    total weight G.vertices + (workers - 1) * idle

theorem Pace.start (G : Kahn.Digraph α) (weight : α → ℕ) (workers : ℕ) :
    Pace G weight workers 0 0 weight where
  behind path _ := by omega
  ahead path hpath := ⟨path, hpath, by omega⟩
  done_le := by omega
  le_done := by omega

/-- **At the end.** -/
theorem Pace.finish (h : Pace G weight workers now idle rest)
    (hrest : ∀ v ∈ G.vertices, rest v = 0) :
    (∀ path, IsPath G path → total weight path ≤ now) ∧
    total weight G.vertices ≤ workers * now ∧
    ∃ heavy, IsPath G heavy ∧
      workers * now ≤ total weight G.vertices + (workers - 1) * total weight heavy := by
  obtain ⟨heavy, hheavy, hidle⟩ := h.ahead [] (isPath_nil G)
  have hzero {path : List α} (hpath : ∀ v ∈ path, v ∈ G.vertices) : total rest path = 0 :=
    total_eq_zero fun v hv => hrest v (hpath v hv)
  have hall := @hzero G.vertices fun _ hv => hv
  have hwork := h.done_le
  have hmost := h.le_done
  rw [hall, Nat.add_zero] at hwork hmost
  rw [total_nil, Nat.add_zero] at hidle
  refine ⟨fun path hpath => ?_, hwork, heavy, hheavy, ?_⟩
  · have hbehind := h.behind path hpath
    rwa [hzero hpath.vertices, Nat.add_zero] at hbehind
  · exact hmost.trans (Nat.add_le_add_left (Nat.mul_le_mul_left _ hidle) _)

variable [DecidableEq α]

/-- What is left to do after `delta` of time. -/
def work (rest : α → ℕ) (running : List α) (delta : ℕ) (v : α) : ℕ :=
  if v ∈ running then rest v - delta else rest v

theorem work_le (v : α) : work rest running delta v ≤ rest v := by
  unfold work
  split_ifs
  · exact Nat.sub_le _ _
  · exact le_refl _

/-- What comes before a vertex that is ready or running was taken. -/
theorem reach_mem (hprogress : Progress G (running ++ ready) degrees done)
    (hv : v ∈ done ++ (running ++ ready)) (hpath : TransGen G.Edge u v) : u ∈ done := by
  induction hpath using TransGen.head_induction_on with
  | single hedge => exact hprogress.pred_mem hv hedge
  | head hedge _ ih => exact hprogress.pred_mem (mem_append_left _ ih) hedge

theorem notMem_running (hprogress : Progress G (running ++ ready) degrees done)
    (hpath : IsPath G (u :: path)) (hu : u ∈ running) : ∀ v ∈ path, v ∉ running := by
  intro v hv hrunning
  have hchain : (u :: path).IsChain (TransGen G.Edge) := hpath.edges.imp fun _ _ => .single
  have hdone := reach_mem hprogress (mem_append_right _ (mem_append_left _ hrunning))
    (hchain.rel_cons hv)
  exact (nodup_append.mp hprogress.nodup).2.2 u hdone u (mem_append_left _ hu) rfl

theorem total_le_work_add (hprogress : Progress G (running ++ ready) degrees done)
    (hpath : IsPath G path) : total rest path ≤ total (work rest running delta) path + delta := by
  induction path with
  | nil => exact Nat.zero_le _
  | cons u path ih =>
    have htail : IsPath G path := @IsPath.right_of_append _ _ [u] _ hpath
    rw [total_cons, total_cons]
    by_cases hu : u ∈ running
    · have hsame : total rest path ≤ total (work rest running delta) path := by
        refine total_mono fun v hv => ?_
        unfold work
        rw [if_neg (notMem_running hprogress hpath hu v hv)]
      have hwork : work rest running delta u = rest u - delta := if_pos hu
      omega
    · have hwork : work rest running delta u = rest u := if_neg hu
      have := ih htail
      omega

/-- Where nothing is ready, a vertex that was not taken waits for one that is running. -/
theorem exists_waiting (hprogress : Progress G (running ++ []) degrees done)
    (hacyclic : Acyclic G.Edge) (hv : v ∈ G.vertices) (hwaits : v ∉ done) :
    ∃ path, IsPath G (path ++ [v]) ∧ ∃ u ∈ running, (path ++ [v]).head? = some u := by
  classical
  let stuck : α → Prop := fun v => v ∉ done ∧
    ¬ ∃ path, IsPath G (path ++ [v]) ∧ ∃ u ∈ running, (path ++ [v]).head? = some u
  by_contra hnone
  have hne : G.vertices.filter stuck ≠ [] :=
    ne_nil_of_mem (mem_filter.mpr ⟨hv, decide_eq_true ⟨hwaits, hnone⟩⟩)
  obtain ⟨w, hw, hleast⟩ := hacyclic.exists_minimal hne
  obtain ⟨hvertex, hstuck⟩ := mem_filter.mp hw
  obtain ⟨hleft, hnot⟩ := of_decide_eq_true hstuck
  have hidle : w ∉ running := fun hrunning =>
    hnot ⟨[], isPath_singleton hvertex, w, hrunning, rfl⟩
  have hpred : edgesFrom G.succs (G.left done) w ≠ 0 := by
    intro hzero
    have hready := (hprogress.ready w hvertex).mpr hzero
    rw [append_nil, mem_append] at hready
    exact hready.elim hleft hidle
  rw [Ne, edgesFrom_eq_zero] at hpred
  push Not at hpred
  obtain ⟨u, hu, hsucc⟩ := hpred
  obtain ⟨huvertex, hudone⟩ := mem_left.mp hu
  have hfree : ¬ stuck u := fun hstuck =>
    hleast u (mem_filter.mpr ⟨huvertex, decide_eq_true hstuck⟩) ⟨huvertex, hsucc⟩
  obtain ⟨path, hpath, first, hfirst, hhead⟩ : ∃ path, IsPath G (path ++ [u]) ∧
      ∃ first ∈ running, (path ++ [u]).head? = some first := by
    by_contra hno
    exact hfree ⟨hudone, hno⟩
  refine hnot ⟨path ++ [u], hpath.snoc ⟨huvertex, hsucc⟩ hvertex, first, hfirst, ?_⟩
  rw [List.head?_append, hhead]
  rfl

/-- While nothing is ready, each path is outweighed, before the time passes, by one with `delta`
more to do. -/
theorem exists_heavier (hprogress : Progress G (running ++ []) degrees done)
    (hacyclic : Acyclic G.Edge) (hdone : ∀ v ∈ done, rest v = 0)
    (hdelta : ∀ v ∈ running, delta ≤ rest v) (hne : running ≠ []) (hpath : IsPath G path) :
    ∃ heavier, IsPath G heavier ∧
      delta + total (work rest running delta) path ≤ total rest heavier := by
  -- the work on what runs goes down by `delta`
  have hhead {u : α} {tail : List α} (hu : u ∈ running) :
      delta + total (work rest running delta) (u :: tail) ≤ total rest (u :: tail) := by
    have htail : total (work rest running delta) tail ≤ total rest tail :=
      total_mono fun v _ => work_le v
    have hwork : work rest running delta u = rest u - delta := if_pos hu
    have := hdelta u hu
    rw [total_cons, total_cons]
    omega
  have hnothing {path : List α} (h : ∀ v ∈ path, v ∈ done) :
      total (work rest running delta) path = 0 :=
    total_eq_zero fun v hv => Nat.le_zero.mp ((work_le v).trans (le_of_eq (hdone v (h v hv))))
  by_cases hall : ∀ v ∈ path, v ∈ done
  · obtain ⟨u, hu⟩ := exists_mem_of_ne_nil running hne
    refine ⟨[u], isPath_singleton (hprogress.sub u ?_), ?_⟩
    · exact mem_append_right _ (mem_append_left _ hu)
    · have := @hhead u [] hu
      rw [hnothing hall]
      omega
  · -- from the first vertex that was not taken
    obtain ⟨before, v, after, hbefore, hv, rfl⟩ : ∃ before v after,
        (∀ u ∈ before, u ∈ done) ∧ v ∉ done ∧ path = before ++ v :: after := by
      push Not at hall
      obtain ⟨v, hv, hnot⟩ := hall
      obtain ⟨first, hfirst⟩ := Option.isSome_iff_exists.mp
        (List.find?_isSome.mpr ⟨v, hv, decide_eq_true hnot⟩ :
          (path.find? fun v => v ∉ done).isSome)
      obtain ⟨hfirstNot, before, after, hsplit, hbefore⟩ := List.find?_eq_some_iff_append.mp hfirst
      refine ⟨before, first, after, fun u hu => ?_, of_decide_eq_true hfirstNot, hsplit⟩
      simpa using hbefore u hu
    have hsuffix := hpath.right_of_append
    obtain ⟨front, hfront, u, hu, hfirst⟩ :=
      exists_waiting hprogress hacyclic (hsuffix.vertices v mem_cons_self) hv
    refine ⟨_, hfront.join hsuffix, ?_⟩
    obtain ⟨tail, htail⟩ := List.head?_eq_some_iff.mp hfirst
    have hmore := @hhead u (tail ++ after) hu
    rw [← cons_append, ← htail] at hmore
    refine le_trans (Nat.add_le_add_left ?_ _) hmore
    rw [total_append, hnothing hbefore, append_assoc, total_append, Nat.zero_add]
    exact Nat.le_add_left _ _

/-- The work that is done in `delta` of time. -/
theorem total_work (hnodup : G.vertices.Nodup) (hrunning : running.Nodup)
    (hsub : ∀ v ∈ running, v ∈ G.vertices) (hdelta : ∀ v ∈ running, delta ≤ rest v) :
    total rest G.vertices =
      total (work rest running delta) G.vertices + running.length * delta := by
  have hcount (vs : List α) : total rest vs =
      total (work rest running delta) vs + vs.countP (· ∈ running) * delta := by
    induction vs with
    | nil => simp
    | cons v vs ih =>
      rw [total_cons, total_cons, countP_cons]
      by_cases hv : v ∈ running
      · have hwork : work rest running delta v = rest v - delta := if_pos hv
        have := hdelta v hv
        rw [if_pos (decide_eq_true hv), Nat.add_mul, Nat.one_mul]
        omega
      · have hwork : work rest running delta v = rest v := if_neg hv
        rw [if_neg (by simpa using hv), Nat.add_zero]
        omega
  have hperm : (G.vertices.filter (· ∈ running)).Perm running := by
    rw [perm_ext_iff_of_nodup (hnodup.filter _) hrunning]
    intro v
    rw [mem_filter, decide_eq_true_eq]
    exact and_iff_right_of_imp (hsub v)
  rw [hcount, countP_eq_length_filter, hperm.length_eq]

/-- **Time passes**: no job ends before, and no worker is idle while a job is ready. -/
theorem Pace.pass (h : Pace G weight workers now idle rest)
    (hprogress : Progress G (running ++ ready) degrees done) (hacyclic : Acyclic G.Edge)
    (hdone : ∀ v ∈ done, rest v = 0) (hdelta : ∀ v ∈ running, delta ≤ rest v)
    (hne : running ≠ []) (hbusy : running.length ≤ workers)
    (hgreedy : ready = [] ∨ running.length = workers) :
    ∃ idle, Pace G weight workers (now + delta) idle (work rest running delta) := by
  obtain ⟨-, hqueue, -⟩ := nodup_append.mp hprogress.nodup
  have hwork := @total_work _ G rest delta running _ G.nodup (nodup_append.mp hqueue).1
    (fun v hv => hprogress.sub v (mem_append_right _ (mem_append_left _ hv))) hdelta
  have hbehind (path : List α) (hpath : IsPath G path) :
      total weight path ≤ now + delta + total (work rest running delta) path := by
    have hbefore := h.behind path hpath
    have hless := @total_le_work_add _ G rest _ delta _ _ _ _ _ hprogress hpath
    omega
  have hpos : 0 < running.length := length_pos_iff.mpr hne
  obtain ⟨others, rfl⟩ := Nat.exists_eq_add_of_le hbusy
  have hdoneLe := h.done_le
  have hleDone := h.le_done
  rw [hwork] at hdoneLe hleDone
  have hsum : (running.length + others) * (now + delta) =
      (running.length + others) * now + running.length * delta + others * delta := by ring
  by_cases hfull : others = 0
  · refine ⟨idle, hbehind, fun path hpath => ?_, ?_, ?_⟩
    · obtain ⟨heavy, hheavy, hle⟩ := h.ahead path hpath
      refine ⟨heavy, hheavy, le_trans (Nat.add_le_add_left ?_ _) hle⟩
      exact total_mono fun v _ => work_le v
    · rw [hsum]
      omega
    · rw [hsum, hfull, Nat.zero_mul]
      rw [hfull] at hleDone
      omega
  · have hready : ready = [] := hgreedy.resolve_right (by omega)
    subst hready
    refine ⟨idle + delta, hbehind, fun path hpath => ?_, ?_, ?_⟩
    · obtain ⟨heavier, hheavier, hmore⟩ :=
        exists_heavier hprogress hacyclic hdone hdelta hne hpath
      obtain ⟨heavy, hheavy, hle⟩ := h.ahead heavier hheavier
      exact ⟨heavy, hheavy, by omega⟩
    · rw [hsum]
      omega
    · -- all but one worker at most are idle
      have hothers : others * delta ≤ (running.length + others - 1) * delta :=
        Nat.mul_le_mul_right _ (by omega)
      rw [hsum, Nat.mul_add]
      omega

end Pandora.Lib.ListScheduling
