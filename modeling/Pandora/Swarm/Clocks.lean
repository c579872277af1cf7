import Pandora.Lib.SortedMaps

/-! # Vector clocks

`VectorClock` of `swarm_mesh.rs`: a counter for each node, kept in a sorted map; a node without an
entry has the counter 0. Clocks are compared by their counters and merged to their least upper bound
(`causallyPrecedes_iff`, `isLub_merge`). Only `isConcurrentWith` looks at the maps themselves, and
an entry that is 0 makes two of them different. -/

namespace Pandora.Swarm.Clocks

open Lib.SortedMaps List

/-- The counters are `u64`; runs are taken to make fewer than 2^64 increments. -/
structure VectorClock where
  clock : SortedMap String ℕ
deriving DecidableEq

namespace VectorClock

def new : VectorClock := ⟨.empty⟩

def get (c : VectorClock) (node : String) : ℕ := (c.clock.get? node).getD 0

def increment (c : VectorClock) (node : String) : VectorClock :=
  ⟨c.clock.alter node fun tick => tick.getD 0 + 1⟩

/-- One entry of the other clock. -/
def mergeEntry (clock : SortedMap String ℕ) (entry : String × ℕ) :
    SortedMap String ℕ :=
  clock.alter entry.1 fun tick => max (tick.getD 0) entry.2

def merge (c other : VectorClock) : VectorClock := ⟨other.clock.entries.foldl mergeEntry c.clock⟩

/-- The loop over the entries of the one clock; nothing, where it returns `false`. -/
def compareEntries (other : VectorClock) : List (String × ℕ) → Bool → Option Bool
  | [], strictlyLess => some strictlyLess
  | (node, val) :: rest, strictlyLess =>
    let otherVal := other.get node
    if otherVal < val then none
    else compareEntries other rest (strictlyLess || decide (val < otherVal))

def causallyPrecedes (c other : VectorClock) : Bool :=
  match compareEntries other c.clock.entries false with
  | none => false
  | some strictlyLess =>
    strictlyLess || other.clock.entries.any fun entry =>
      (c.clock.get? entry.1).isNone && decide (0 < entry.2)

def isConcurrentWith (c other : VectorClock) : Bool :=
  !c.causallyPrecedes other && !other.causallyPrecedes c && decide (c ≠ other)

/-! ### Counters -/

variable {a b c : VectorClock}

theorem get_of_entry {node : String} {val : ℕ} (h : (node, val) ∈ c.clock.entries) :
    c.get node = val := by
  unfold get
  rw [SortedMap.get?_eq_some.mpr h]
  rfl

theorem get_cases (c : VectorClock) (node : String) :
    (node, c.get node) ∈ c.clock.entries ∨ c.clock.get? node = none ∧ c.get node = 0 := by
  rcases hentry : c.clock.get? node with _ | val
  · exact Or.inr ⟨rfl, by rw [get, hentry]; rfl⟩
  · refine Or.inl ?_
    have hmem := SortedMap.get?_eq_some.mp hentry
    rwa [get_of_entry hmem]

/-- The pointwise order of counters. -/
def Le (a b : VectorClock) : Prop := ∀ node, a.get node ≤ b.get node

theorem compareEntries_eq_some {other : VectorClock} {entries : List (String × ℕ)}
    {start result : Bool} :
    compareEntries other entries start = some result ↔
      (∀ entry ∈ entries, entry.2 ≤ other.get entry.1) ∧
        (result = true ↔ start = true ∨ ∃ entry ∈ entries, entry.2 < other.get entry.1) := by
  induction entries generalizing start with
  | nil =>
    simp only [compareEntries, Option.some.injEq, not_mem_nil, false_implies, implies_true,
      false_and, exists_false, or_false, true_and]
    rw [Bool.eq_iff_iff]
    exact Iff.comm
  | cons entry rest ih =>
    obtain ⟨node, val⟩ := entry
    rw [compareEntries]
    split_ifs with hgreater
    · refine iff_of_false (by simp) fun h => ?_
      exact absurd (h.1 _ mem_cons_self) (not_le.mpr hgreater)
    · rw [ih]
      simp only [forall_mem_cons, exists_mem_cons_iff, Bool.or_eq_true, decide_eq_true_eq,
        not_lt.mp hgreater, true_and, or_assoc]

/-- **Precedence is the strict order of counters.** -/
theorem causallyPrecedes_iff :
    a.causallyPrecedes b = true ↔ Le a b ∧ ∃ node, a.get node < b.get node := by
  have hle : (∀ entry ∈ a.clock.entries, entry.2 ≤ b.get entry.1) ↔ Le a b := by
    constructor
    · intro h node
      rcases get_cases a node with hentry | ⟨-, hzero⟩
      · exact h _ hentry
      · rw [hzero]
        exact Nat.zero_le _
    · intro h entry hentry
      have hnode := h entry.1
      rwa [get_of_entry hentry] at hnode
  unfold causallyPrecedes
  rcases hloop : compareEntries b a.clock.entries false with _ | strictlyLess
  · refine iff_of_false (by simp) fun h => ?_
    have hsome : compareEntries b a.clock.entries false =
        some (decide (∃ entry ∈ a.clock.entries, entry.2 < b.get entry.1)) :=
      compareEntries_eq_some.mpr ⟨hle.mpr h.1, by simp⟩
    rw [hloop] at hsome
    cases hsome
  · obtain ⟨hbelow, hstrict⟩ := compareEntries_eq_some.mp hloop
    rw [hle] at hbelow
    dsimp only
    rw [Bool.or_eq_true, hstrict, any_eq_true, and_iff_right hbelow]
    constructor
    · rintro ((hfalse | ⟨entry, hentry, hlt⟩) | ⟨entry, hentry, hnew⟩)
      · cases hfalse
      · exact ⟨entry.1, by rwa [get_of_entry hentry]⟩
      · rw [Bool.and_eq_true, Option.isNone_iff_eq_none, decide_eq_true_eq] at hnew
        refine ⟨entry.1, ?_⟩
        rw [get_of_entry hentry, get, hnew.1]
        exact hnew.2
    · rintro ⟨node, hlt⟩
      rcases get_cases a node with hentry | ⟨hnone, hzero⟩
      · exact Or.inl (Or.inr ⟨_, hentry, hlt⟩)
      · rcases get_cases b node with hentry | ⟨-, hzero'⟩
        · refine Or.inr ⟨_, hentry, ?_⟩
          rw [Bool.and_eq_true, Option.isNone_iff_eq_none, decide_eq_true_eq]
          exact ⟨hnone, hzero ▸ hlt⟩
        · rw [hzero, hzero'] at hlt
          exact absurd hlt (lt_irrefl _)

/-! ### Merging -/

theorem get_mergeEntry (clock : SortedMap String ℕ) (entry : String × ℕ) (node : String) :
    ((mergeEntry clock entry).get? node).getD 0 =
      if node = entry.1 then max ((clock.get? node).getD 0) entry.2
      else (clock.get? node).getD 0 := by
  unfold mergeEntry
  rw [SortedMap.get?_alter]
  split_ifs with hnode
  · rw [hnode]
    rfl
  · rfl

theorem get_foldl_mergeEntry {entries : List (String × ℕ)}
    (hsorted : entries.Pairwise fun a b => a.1 < b.1) (clock : SortedMap String ℕ)
    (node : String) :
    ((entries.foldl mergeEntry clock).get? node).getD 0 =
      max ((clock.get? node).getD 0) (((entries.find? (·.1 = node)).map (·.2)).getD 0) := by
  induction entries generalizing clock with
  | nil => simp
  | cons entry rest ih =>
    obtain ⟨hhead, hrest⟩ := List.pairwise_cons.mp hsorted
    rw [foldl_cons, ih hrest, get_mergeEntry]
    by_cases hnode : node = entry.1
    · -- the other keys are greater
      have hnone : rest.find? (·.1 = node) = none := by
        rw [List.find?_eq_none]
        intro other hother
        rw [decide_eq_true_eq, hnode]
        exact (hhead other hother).ne'
      rw [if_pos hnode, hnone, List.find?_cons_of_pos (by simp [hnode])]
      simp
    · rw [if_neg hnode, List.find?_cons_of_neg (by simpa using Ne.symm hnode)]

theorem get_merge (a b : VectorClock) (node : String) :
    (a.merge b).get node = max (a.get node) (b.get node) :=
  get_foldl_mergeEntry b.clock.sorted a.clock node

theorem get_increment (c : VectorClock) (node key : String) :
    (c.increment node).get key = if key = node then c.get node + 1 else c.get key := by
  unfold get increment
  rw [SortedMap.get?_alter]
  split_ifs
  · rfl
  · rfl

theorem le_increment (c : VectorClock) (node : String) : Le c (c.increment node) := by
  intro key
  rw [get_increment]
  split_ifs with hkey
  · rw [hkey]
    exact Nat.le_succ _
  · exact le_rfl

/-- **A merge is the least upper bound.** -/
theorem isLub_merge (a b : VectorClock) :
    Le a (a.merge b) ∧ Le b (a.merge b) ∧ ∀ c, Le a c → Le b c → Le (a.merge b) c := by
  refine ⟨fun node => ?_, fun node => ?_, fun c ha hb node => ?_⟩
  · rw [get_merge]
    exact le_max_left _ _
  · rw [get_merge]
    exact le_max_right _ _
  · rw [get_merge]
    exact max_le (ha node) (hb node)

/-! ### The ways in which two clocks compare -/

inductive Comparison
  | before | after | same | concurrent

/-- What is said of two clocks by each. -/
def Comparison.Holds (a b : VectorClock) : Comparison → Prop
  | before => a.causallyPrecedes b = true
  | after => b.causallyPrecedes a = true
  | same => ∀ node, a.get node = b.get node
  | concurrent => a.isConcurrentWith b = true

/-- What a causal order of clocks is. -/
structure CausalOrder (a b : VectorClock) : Prop where
  precedes : a.causallyPrecedes b = true ↔
    (∀ node, a.get node ≤ b.get node) ∧ ∃ node, a.get node < b.get node
  lub : Le a (a.merge b) ∧ Le b (a.merge b) ∧ ∀ c, Le a c → Le b c → Le (a.merge b) c
  unique : ∃! comparison : Comparison, comparison.Holds a b

/-- Two clocks with the same counters differ: one of them has an entry 0 where the other has
none. -/
def DifferInZeros (a b : VectorClock) : Prop := (∀ node, a.get node = b.get node) ∧ a ≠ b

theorem not_precedes_of_same (h : ∀ node, a.get node = b.get node) :
    a.causallyPrecedes b = false := by
  rw [Bool.eq_false_iff, Ne, causallyPrecedes_iff]
  rintro ⟨-, node, hlt⟩
  rw [h node] at hlt
  exact lt_irrefl _ hlt

theorem not_both_precede (h : a.causallyPrecedes b = true) : b.causallyPrecedes a = false := by
  rw [Bool.eq_false_iff, Ne, causallyPrecedes_iff]
  rintro ⟨hle, -⟩
  obtain ⟨node, hlt⟩ := (causallyPrecedes_iff.mp h).2
  exact absurd hlt (not_lt.mpr (hle node))

theorem unique_comparison_iff :
    (∃! comparison : Comparison, comparison.Holds a b) ↔ ¬ DifferInZeros a b := by
  by_cases hsame : ∀ node, a.get node = b.get node
  · have hab := not_precedes_of_same hsame
    have hba := not_precedes_of_same fun node => (hsame node).symm
    constructor
    · rintro ⟨comparison, -, hunique⟩ ⟨-, hne⟩
      have hfirst := hunique .same hsame
      have hsecond := hunique .concurrent (by
        show a.isConcurrentWith b = true
        rw [isConcurrentWith, hab, hba]
        simpa using hne)
      rw [← hfirst] at hsecond
      cases hsecond
    · intro hdiffer
      have heq : a = b := by
        by_contra hne
        exact hdiffer ⟨hsame, hne⟩
      refine ⟨.same, hsame, fun comparison hholds => ?_⟩
      cases comparison with
      | before => exact absurd hholds (by rw [Comparison.Holds, hab]; exact Bool.false_ne_true)
      | after => exact absurd hholds (by rw [Comparison.Holds, hba]; exact Bool.false_ne_true)
      | same => rfl
      | concurrent =>
        refine absurd hholds ?_
        rw [Comparison.Holds, isConcurrentWith, heq]
        simp
  · refine iff_of_true ?_ fun hdiffer => hsame hdiffer.1
    have hne : a ≠ b := by
      rintro rfl
      exact hsame fun _ => rfl
    cases hab : a.causallyPrecedes b with
    | true =>
      have hba := not_both_precede hab
      refine ⟨.before, hab, fun comparison hholds => ?_⟩
      cases comparison with
      | before => rfl
      | after => exact absurd hholds (by rw [Comparison.Holds, hba]; exact Bool.false_ne_true)
      | same => exact absurd hholds hsame
      | concurrent =>
        refine absurd hholds ?_
        rw [Comparison.Holds, isConcurrentWith, hab]
        simp
    | false =>
      cases hba : b.causallyPrecedes a with
      | true =>
        refine ⟨.after, hba, fun comparison hholds => ?_⟩
        cases comparison with
        | before => exact absurd hholds (by rw [Comparison.Holds, hab]; exact Bool.false_ne_true)
        | after => rfl
        | same => exact absurd hholds hsame
        | concurrent =>
          refine absurd hholds ?_
          rw [Comparison.Holds, isConcurrentWith, hba]
          simp
      | false =>
        refine ⟨.concurrent, ?_, fun comparison hholds => ?_⟩
        · show a.isConcurrentWith b = true
          rw [isConcurrentWith, hab, hba]
          simpa using hne
        · cases comparison with
          | before => exact absurd hholds (by rw [Comparison.Holds, hab]; exact Bool.false_ne_true)
          | after => exact absurd hholds (by rw [Comparison.Holds, hba]; exact Bool.false_ne_true)
          | same => exact absurd hholds hsame
          | concurrent => rfl

/-- **The clocks are a causal order** of two clocks unless they differ in entries that are 0. -/
theorem causalOrder_iff (a b : VectorClock) : CausalOrder a b ↔ ¬ DifferInZeros a b :=
  ⟨fun h => unique_comparison_iff.mp h.unique,
    fun h => ⟨causallyPrecedes_iff, isLub_merge a b, unique_comparison_iff.mpr h⟩⟩

theorem zero_entry_concurrent :
    let a : VectorClock := ⟨.ofList [("agent", 0)]⟩
    let b : VectorClock := .new
    (∀ node, a.get node = b.get node) ∧ a.isConcurrentWith b = true ∧
      ¬ ∃! comparison : Comparison, comparison.Holds a b := by
  intro a b
  have hsame : ∀ node, a.get node = b.get node := by
    intro node
    show ((SortedMap.insert .empty "agent" 0).get? node).getD 0 = 0
    rw [SortedMap.get?_insert]
    split_ifs <;> rfl
  have hne : a ≠ b := by decide
  refine ⟨hsame, by decide, fun h => ?_⟩
  exact unique_comparison_iff.mp h ⟨hsame, hne⟩

end VectorClock

end Pandora.Swarm.Clocks
