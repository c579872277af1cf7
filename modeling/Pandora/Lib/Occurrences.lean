import Mathlib

/-! # Occurrences of a list in a list

The first occurrence, and the number of occurrences that a search from left to right finds when it
goes on after each: two that do not overlap are both found (`two_le_matchCount`). -/

namespace Pandora.Lib.Occurrences

open List Option

variable {α : Type} [DecidableEq α] {target text : List α}

/-- What stands before the first occurrence, and what after it. -/
def find? (target : List α) : List α → Option (List α × List α)
  | [] => if target = [] then some ([], []) else none
  | c :: text =>
    if target <+: c :: text then some ([], (c :: text).drop target.length)
    else (find? target text).map fun parts => (c :: parts.1, parts.2)

theorem find?_eq_some : ∀ {text pre post : List α}, find? target text = some (pre, post) →
    text = pre ++ target ++ post
  | [], pre, post, h => by
    unfold find? at h
    split_ifs at h with hempty
    cases h
    rw [hempty, append_nil, append_nil]
  | c :: text, pre, post, h => by
    unfold find? at h
    split_ifs at h with hhere
    · obtain ⟨rest, hrest⟩ := hhere
      cases h
      rw [← hrest, drop_left, nil_append]
    · rw [map_eq_some_iff] at h
      obtain ⟨⟨pre', post'⟩, hlater, hparts⟩ := h
      cases hparts
      rw [find?_eq_some hlater, cons_append, cons_append]

theorem find?_ne_none : ∀ {text : List α}, target <:+: text → find? target text ≠ none
  | [], h => by
    have hempty : target = [] := List.infix_nil.mp h
    unfold find?
    rw [if_pos hempty]
    exact some_ne_none _
  | c :: text, h => by
    unfold find?
    split_ifs with hhere
    · exact some_ne_none _
    · have hlater : target <:+: text := (List.infix_cons_iff.mp h).resolve_left hhere
      rw [Ne, map_eq_none_iff]
      exact find?_ne_none hlater

theorem find?_eq_none (h : find? target text = none) : ¬ target <:+: text :=
  fun hinfix => find?_ne_none hinfix h

/-- The matches after so many elements have been passed over. -/
def countFrom (target : List α) : ℕ → List α → ℕ
  | _, [] => 0
  | 0, c :: text =>
    if target <+: c :: text then 1 + countFrom target (target.length - 1) text
    else countFrom target 0 text
  | skip + 1, _ :: text => countFrom target skip text

/-- The number of matches, none of which overlap. The empty list stands between all elements. -/
def matchCount (target text : List α) : ℕ :=
  if target = [] then text.length + 1 else countFrom target 0 text

theorem countFrom_pos (htarget : target ≠ []) : ∀ {text pre post : List α} {skip : ℕ},
    text = pre ++ target ++ post → skip ≤ pre.length → 1 ≤ countFrom target skip text
  | [], pre, post, _, h, _ => by
    have hnil : pre ++ target = [] := (List.append_eq_nil_iff.mp h.symm).1
    exact absurd (List.append_eq_nil_iff.mp hnil).2 htarget
  | c :: text, [], post, skip, h, hskip => by
    have hzero : skip = 0 := Nat.le_zero.mp hskip
    have hhere : target <+: c :: text := ⟨post, by rw [h, nil_append]⟩
    subst hzero
    unfold countFrom
    rw [if_pos hhere]
    omega
  | c :: text, p :: pre, post, 0, h, _ => by
    have hrest : text = pre ++ target ++ post := (List.cons.inj h).2
    have hlater := countFrom_pos htarget hrest (Nat.zero_le _)
    unfold countFrom
    split_ifs
    · omega
    · exact hlater
  | c :: text, p :: pre, post, skip + 1, h, hskip => by
    have hrest : text = pre ++ target ++ post := (List.cons.inj h).2
    have hlater := countFrom_pos htarget hrest (Nat.le_of_succ_le_succ hskip)
    unfold countFrom
    exact hlater

theorem two_le_countFrom (htarget : target ≠ []) : ∀ {text pre mid post : List α},
    text = pre ++ target ++ (mid ++ target ++ post) → 2 ≤ countFrom target 0 text
  | [], pre, mid, post, h => by
    have hnil : pre ++ target = [] := (List.append_eq_nil_iff.mp h.symm).1
    exact absurd (List.append_eq_nil_iff.mp hnil).2 htarget
  | c :: text, pre, mid, post, h => by
    unfold countFrom
    split_ifs with hhere
    · -- the second is passed over in no case
      have hsecond : text = (pre ++ target ++ mid).tail ++ target ++ post := by
        have hne : pre ++ target ++ mid ≠ [] := by simp [htarget]
        have hwhole : c :: text = pre ++ target ++ mid ++ (target ++ post) := by
          rw [h]
          simp only [append_assoc]
        have htail := congrArg List.tail hwhole
        rw [tail_cons, tail_append_of_ne_nil hne] at htail
        rw [htail, ← append_assoc]
      have hskip : target.length - 1 ≤ (pre ++ target ++ mid).tail.length := by
        simp only [length_tail, length_append]
        omega
      have hlater := countFrom_pos htarget hsecond hskip
      omega
    · cases pre with
      | nil =>
        refine absurd ⟨mid ++ target ++ post, ?_⟩ hhere
        rw [h, nil_append]
      | cons p pre => exact two_le_countFrom htarget (List.cons.inj h).2

theorem two_le_matchCount {pre post pre' post' : List α} (htarget : target ≠ [])
    (hfirst : text = pre ++ target ++ post) (hsecond : text = pre' ++ target ++ post')
    (hapart : pre.length + target.length ≤ pre'.length) : 2 ≤ matchCount target text := by
  have hle : (pre ++ target).length ≤ pre'.length := by
    rw [length_append]
    exact hapart
  have hprefix : pre ++ target <+: text := ⟨post, hfirst.symm⟩
  have hlonger : pre' <+: text := ⟨target ++ post', by rw [hsecond, append_assoc]⟩
  obtain ⟨mid, hmid⟩ := prefix_of_prefix_length_le hprefix hlonger hle
  have hboth : text = pre ++ target ++ (mid ++ target ++ post') := by
    rw [hsecond, ← hmid]
    simp only [append_assoc]
  unfold matchCount
  rw [if_neg htarget]
  exact two_le_countFrom htarget hboth

end Pandora.Lib.Occurrences
