import Pandora.Lib.SortedMaps

/-! # Breadth-first search with a depth cut

The search takes the nodes in the order in which they were found, and looks at the successors of
those that are nearer than the cut. It may run out of fuel; with as much fuel as the graph has nodes
it does not, and then it has found exactly the nodes whose distance from the start is at most the
cut, each with that distance (`search_spec`).

Two facts about the queue carry the proof: its distances do not decrease, and no node found is more
than one step farther than a node in it. -/

namespace Pandora.Lib.Breadth

open Lib.SortedMaps SortedMap Option
open List hiding keys mem_keys

variable {α : Type}

/-- `b` can be reached from `a` in so many steps. -/
def Steps (r : α → α → Prop) : ℕ → α → α → Prop
  | 0, a, b => b = a
  | n + 1, a, b => ∃ c, Steps r n a c ∧ r c b

/-- The least number of steps from `a` to `b`. -/
def Distance (r : α → α → Prop) (a b : α) (d : ℕ) : Prop :=
  Steps r d a b ∧ ∀ n, Steps r n a b → d ≤ n

variable [LinearOrder α]

/-- A node that is new is put down with its distance, and in the queue. -/
def visit (d : ℕ) (state : SortedMap α ℕ × List (α × ℕ)) (b : α) :
    SortedMap α ℕ × List (α × ℕ) :=
  if (state.1.get? b).isSome then state
  else (state.1.insert b (d + 1), state.2 ++ [(b, d + 1)])

/-- The nodes found, with their distances. -/
def search (successors : α → List α) (cut : ℕ) :
    ℕ → SortedMap α ℕ → List (α × ℕ) → Option (SortedMap α ℕ)
  | _, found, [] => some found
  | 0, _, _ :: _ => none
  | fuel + 1, found, (a, d) :: queue =>
    if cut ≤ d then search successors cut fuel found queue
    else
      let state := (successors a).foldl (visit d) (found, queue)
      search successors cut fuel state.1 state.2

/-! ### What the queue keeps -/

variable {successors : α → List α} {cut : ℕ} {start : α}

/-- The invariant of the search, where the successors in `left` of the node `at`, which has just
been taken from the queue, are still to be visited. -/
structure Between (successors : α → List α) (cut : ℕ) (start a : α) (d : ℕ) (left : List α)
    (found : SortedMap α ℕ) (queue : List (α × ℕ)) : Prop where
  start_found : found.get? start = some 0
  sound : ∀ b e, found.get? b = some e →
    e ≤ cut ∧ Steps (fun a b => b ∈ successors a) e start b
  here : found.get? a = some d
  queued : ∀ entry ∈ queue, found.get? entry.1 = some entry.2
  increasing : queue.Pairwise fun x y => x.2 ≤ y.2
  behind : ∀ entry ∈ queue, d ≤ entry.2
  ahead : ∀ b e, found.get? b = some e → e ≤ d + 1
  closed : ∀ b e, found.get? b = some e → e < cut → (b, e) ∉ queue → b ≠ a →
    ∀ c ∈ successors b, ∃ e' ≤ e + 1, found.get? c = some e'
  closed_here : d < cut →
    ∀ c ∈ successors a, c ∈ left ∨ ∃ e' ≤ d + 1, found.get? c = some e'

/-- The invariant of the search. -/
structure Inv (successors : α → List α) (cut : ℕ) (start : α) (found : SortedMap α ℕ)
    (queue : List (α × ℕ)) : Prop where
  start_found : found.get? start = some 0
  sound : ∀ b e, found.get? b = some e →
    e ≤ cut ∧ Steps (fun a b => b ∈ successors a) e start b
  queued : ∀ entry ∈ queue, found.get? entry.1 = some entry.2
  increasing : queue.Pairwise fun x y => x.2 ≤ y.2
  ahead : ∀ b e, found.get? b = some e → ∀ entry ∈ queue, e ≤ entry.2 + 1
  closed : ∀ b e, found.get? b = some e → e < cut → (b, e) ∉ queue →
    ∀ c ∈ successors b, ∃ e' ≤ e + 1, found.get? c = some e'

theorem inv_start (successors : α → List α) (cut : ℕ) (start : α) :
    Inv successors cut start (empty.insert start 0) [(start, 0)] := by
  have hget : ∀ b e, (empty.insert start 0).get? b = some e → b = start ∧ e = 0 := by
    intro b e hb
    rw [get?_insert, get?_empty] at hb
    by_cases hstart : b = start
    · rw [if_pos hstart] at hb
      exact ⟨hstart, (Option.some.inj hb).symm⟩
    · rw [if_neg hstart] at hb
      cases hb
  have hfound : (empty.insert start 0).get? start = some 0 := by
    rw [get?_insert, if_pos rfl]
  refine ⟨hfound, fun b e hb => ?_, ?_, pairwise_singleton _ _, fun b e hb entry _ => ?_,
    fun b e hb _ hout => ?_⟩
  · obtain ⟨rfl, rfl⟩ := hget b e hb
    exact ⟨Nat.zero_le _, rfl⟩
  · intro entry hentry
    obtain rfl := mem_singleton.mp hentry
    exact hfound
  · rw [(hget b e hb).2]
    omega
  · obtain ⟨rfl, rfl⟩ := hget b e hb
    exact absurd (mem_singleton.mpr rfl) hout

variable {found : SortedMap α ℕ} {queue : List (α × ℕ)} {a : α} {d : ℕ}

theorem Inv.pop (h : Inv successors cut start found ((a, d) :: queue)) :
    Between successors cut start a d (successors a) found queue := by
  obtain ⟨hbehind, hincreasing⟩ := pairwise_cons.mp h.increasing
  have hhere := h.queued (a, d) mem_cons_self
  refine ⟨h.start_found, h.sound, hhere, fun entry hentry =>
    h.queued entry (mem_cons_of_mem _ hentry), hincreasing, hbehind, fun b e hb =>
    h.ahead b e hb (a, d) mem_cons_self, fun b e hb hcut hout hne => ?_, fun _ c hc =>
    Or.inl hc⟩
  refine h.closed b e hb hcut fun hmem => ?_
  rcases mem_cons.mp hmem with hsame | hmem
  · exact hne (congrArg Prod.fst hsame)
  · exact hout hmem

theorem Between.push {left : List α}
    (h : Between successors cut start a d left found queue) (hleft : left = [] ∨ cut ≤ d) :
    Inv successors cut start found queue := by
  refine ⟨h.start_found, h.sound, h.queued, h.increasing, fun b e hb entry hentry => ?_,
    fun b e hb hcut hout c hc => ?_⟩
  · have hahead := h.ahead b e hb
    have hbehind := h.behind entry hentry
    omega
  · by_cases hba : b = a
    · subst hba
      obtain rfl : d = e := Option.some.inj (h.here.symm.trans hb)
      rcases hleft with rfl | hleft
      · exact (h.closed_here hcut c hc).resolve_left not_mem_nil
      · omega
    · exact h.closed b e hb hcut hout hba c hc

theorem Between.visit {b : α} {left : List α} (hcut : d < cut) (hb : b ∈ successors a)
    (h : Between successors cut start a d (b :: left) found queue) :
    Between successors cut start a d left (Breadth.visit d (found, queue) b).1
      (Breadth.visit d (found, queue) b).2 := by
  unfold Breadth.visit
  rcases hget : found.get? b with _ | e
  · rw [isSome_none, if_neg Bool.false_ne_true]
    have hother : ∀ c e, found.get? c = some e → (found.insert b (d + 1)).get? c = some e := by
      intro c e hc
      rw [get?_insert, if_neg, hc]
      rintro rfl
      rw [hget] at hc
      cases hc
    have hnew : (found.insert b (d + 1)).get? b = some (d + 1) := by
      rw [get?_insert, if_pos rfl]
    have hcases : ∀ c e, (found.insert b (d + 1)).get? c = some e →
        c = b ∧ e = d + 1 ∨ found.get? c = some e := by
      intro c e hc
      rw [get?_insert] at hc
      by_cases hcb : c = b
      · rw [if_pos hcb] at hc
        exact Or.inl ⟨hcb, (Option.some.inj hc).symm⟩
      · rw [if_neg hcb] at hc
        exact Or.inr hc
    have hlast : ∀ entry ∈ queue ++ [(b, d + 1)], entry ∈ queue ∨ entry = (b, d + 1) := by
      intro entry hentry
      exact (mem_append.mp hentry).imp_right mem_singleton.mp
    refine ⟨hother _ _ h.start_found, fun c e hc => ?_, hother _ _ h.here, fun entry hentry => ?_,
      ?_, fun entry hentry => ?_, fun c e hc => ?_, fun c e hc hlt hout hne x hx => ?_,
      fun _ x hx => ?_⟩
    · rcases hcases c e hc with ⟨rfl, rfl⟩ | hc
      · exact ⟨hcut, a, (h.sound a d h.here).2, hb⟩
      · exact h.sound c e hc
    · rcases hlast entry hentry with hentry | rfl
      · exact hother _ _ (h.queued entry hentry)
      · exact hnew
    · refine pairwise_append.mpr ⟨h.increasing, pairwise_singleton _ _, ?_⟩
      intro x hx y hy
      obtain rfl := mem_singleton.mp hy
      exact h.ahead x.1 x.2 (h.queued x hx)
    · rcases hlast entry hentry with hentry | rfl
      · exact h.behind entry hentry
      · exact Nat.le_succ d
    · rcases hcases c e hc with ⟨-, rfl⟩ | hc
      · exact le_rfl
      · exact h.ahead c e hc
    · rcases hcases c e hc with ⟨rfl, rfl⟩ | hc
      · exact absurd (mem_append_right queue (mem_singleton.mpr rfl)) hout
      · obtain ⟨e', hle, he'⟩ := h.closed c e hc hlt
          (fun hmem => hout (mem_append_left _ hmem)) hne x hx
        exact ⟨e', hle, hother _ _ he'⟩
    · rcases h.closed_here hcut x hx with hmem | ⟨e', hle, he'⟩
      · rcases mem_cons.mp hmem with rfl | hmem
        · exact Or.inr ⟨d + 1, le_rfl, hnew⟩
        · exact Or.inl hmem
      · exact Or.inr ⟨e', hle, hother _ _ he'⟩
  · rw [isSome_some, if_pos rfl]
    refine ⟨h.start_found, h.sound, h.here, h.queued, h.increasing, h.behind, h.ahead, h.closed,
      fun _ x hx => ?_⟩
    rcases h.closed_here hcut x hx with hmem | hfound
    · rcases mem_cons.mp hmem with rfl | hmem
      · exact Or.inr ⟨e, h.ahead x e hget, hget⟩
      · exact Or.inl hmem
    · exact Or.inr hfound

theorem Between.visit_all (hcut : d < cut) : ∀ (left : List α)
    (found : SortedMap α ℕ) (queue : List (α × ℕ)), (∀ b ∈ left, b ∈ successors a) →
    Between successors cut start a d left found queue →
    Between successors cut start a d [] (left.foldl (Breadth.visit d) (found, queue)).1
      (left.foldl (Breadth.visit d) (found, queue)).2
  | [], _, _, _, h => h
  | b :: left, found, queue, hleft, h => by
    obtain ⟨hb, hleft⟩ := forall_mem_cons.mp hleft
    exact visit_all hcut left _ _ hleft (h.visit hcut hb)

/-! ### The fuel -/

/-- Visiting keeps the difference between the nodes found and those queued, and the nodes. -/
theorem visit_length (d : ℕ) (state : SortedMap α ℕ × List (α × ℕ)) (b : α) :
    (visit d state b).1.entries.length + state.2.length =
      state.1.entries.length + (visit d state b).2.length := by
  unfold visit
  rcases hget : state.1.get? b with _ | e
  · rw [isSome_none, if_neg Bool.false_ne_true, length_insert_of_none hget,
      length_append, length_singleton]
    omega
  · rw [isSome_some, if_pos rfl]

theorem visit_all_length (d : ℕ) : ∀ (left : List α) (state : SortedMap α ℕ × List (α × ℕ)),
    (left.foldl (visit d) state).1.entries.length + state.2.length =
      state.1.entries.length + (left.foldl (visit d) state).2.length
  | [], _ => rfl
  | b :: left, state => by
    have hfirst := visit_length d state b
    have hrest := visit_all_length d left (visit d state b)
    rw [foldl_cons]
    omega

variable {nodes : List α}

theorem keys_visit_all (d : ℕ) : ∀ (left : List α)
    (state : SortedMap α ℕ × List (α × ℕ)), (∀ b ∈ left, b ∈ nodes) →
    (∀ b ∈ state.1.keys, b ∈ nodes) → ∀ b ∈ (left.foldl (visit d) state).1.keys, b ∈ nodes
  | [], _, _, h => h
  | b :: left, state, hleft, h => by
    obtain ⟨hb, hleft⟩ := forall_mem_cons.mp hleft
    refine keys_visit_all d left (visit d state b) hleft fun c hc => ?_
    unfold visit at hc
    split at hc
    · exact h c hc
    · rw [mem_keys, get?_insert] at hc
      by_cases hcb : c = b
      · exact hcb ▸ hb
      · rw [if_neg hcb] at hc
        exact h c (mem_keys.mpr hc)

theorem search_inv (hnodes : ∀ a ∈ nodes, ∀ b ∈ successors a, b ∈ nodes) :
    ∀ (fuel : ℕ) (found : SortedMap α ℕ) (queue : List (α × ℕ)),
      Inv successors cut start found queue → (∀ b ∈ found.keys, b ∈ nodes) →
      queue.length + nodes.length ≤ fuel + found.entries.length →
      ∃ result, search successors cut fuel found queue = some result ∧
        Inv successors cut start result []
  | fuel, found, [], h, _, _ => by
    refine ⟨found, ?_, h⟩
    unfold search
    rfl
  | 0, found, (a, d) :: queue, _, hkeys, hfuel => by
    have hcount : found.entries.length ≤ nodes.length := by
      have hsub := (subperm_of_subset found.nodup_keys hkeys).length_le
      rwa [keys, length_map] at hsub
    rw [length_cons] at hfuel
    omega
  | fuel + 1, found, (a, d) :: queue, h, hkeys, hfuel => by
    rw [length_cons] at hfuel
    unfold search
    by_cases hcut : cut ≤ d
    · rw [if_pos hcut]
      exact search_inv hnodes fuel found queue (h.pop.push (Or.inr hcut)) hkeys (by omega)
    · rw [if_neg hcut]
      have ha : a ∈ nodes := by
        refine hkeys a (mem_keys.mpr ?_)
        rw [h.pop.here, isSome_some]
      have hlength := visit_all_length d (successors a) (found, queue)
      refine search_inv hnodes fuel _ _ ?_ (keys_visit_all d _ (found, queue) (hnodes a ha) hkeys)
        (by dsimp only at hlength ⊢; omega)
      exact (h.pop.visit_all (by omega) _ _ _ (fun _ hb => hb)).push (Or.inl rfl)

/-! ### Exactness -/

theorem Inv.found_of_steps (h : Inv successors cut start found []) :
    ∀ (n : ℕ) (b : α), n ≤ cut → Steps (fun a b => b ∈ successors a) n start b →
      ∃ e ≤ n, found.get? b = some e
  | 0, b, _, hsteps => ⟨0, le_rfl, by rw [show b = start from hsteps]; exact h.start_found⟩
  | n + 1, b, hn, ⟨c, hsteps, hb⟩ => by
    obtain ⟨e, hle, he⟩ := h.found_of_steps n c (by omega) hsteps
    obtain ⟨e', hle', he'⟩ := h.closed c e he (by omega) not_mem_nil b hb
    exact ⟨e', by omega, he'⟩

theorem Inv.get?_iff (h : Inv successors cut start found []) (b : α)
    (d : ℕ) : found.get? b = some d ↔
      d ≤ cut ∧ Distance (fun a b => b ∈ successors a) start b d := by
  constructor
  · intro hget
    obtain ⟨hcut, hsteps⟩ := h.sound b d hget
    refine ⟨hcut, hsteps, fun n hn => ?_⟩
    by_contra hlt
    obtain ⟨e, hle, he⟩ := h.found_of_steps n b (by omega) hn
    have hed : e = d := Option.some.inj (he.symm.trans hget)
    omega
  · rintro ⟨hcut, hsteps, hleast⟩
    obtain ⟨e, hle, he⟩ := h.found_of_steps d b hcut hsteps
    have hde := hleast e (h.sound b e he).2
    rw [he, le_antisymm hle hde]

/-- **The search is exact.** -/
theorem search_spec (successors : α → List α) (cut : ℕ) {start : α}
    (hnodes : ∀ a ∈ nodes, ∀ b ∈ successors a, b ∈ nodes) (hstart : start ∈ nodes) {fuel : ℕ}
    (hfuel : nodes.length ≤ fuel) :
    ∃ found, search successors cut fuel (empty.insert start 0) [(start, 0)] = some found ∧
      ∀ b d, found.get? b = some d ↔
        d ≤ cut ∧ Distance (fun a b => b ∈ successors a) start b d := by
  have hkeys : ∀ b ∈ (empty.insert start 0).keys, b ∈ nodes := by
    intro b hb
    rw [mem_keys, get?_insert] at hb
    by_cases hbs : b = start
    · exact hbs ▸ hstart
    · rw [if_neg hbs] at hb
      cases hb
  have hcount : [(start, 0)].length + nodes.length ≤
      fuel + (empty.insert start 0).entries.length := by
    rw [length_insert_of_none (get?_empty start)]
    show 1 + nodes.length ≤ fuel + (0 + 1)
    omega
  obtain ⟨found, hsearch, hinv⟩ :=
    search_inv hnodes fuel _ _ (inv_start successors cut start) hkeys hcount
  exact ⟨found, hsearch, hinv.get?_iff⟩

end Pandora.Lib.Breadth
