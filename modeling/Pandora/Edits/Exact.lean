import Pandora.Edits.LineEndings
import Pandora.Lib.Checked

/-! # Exact edits

An edit is exact if the target has one occurrence, up to line endings, and only that is replaced.
Whether an edit that is made is exact depends on two things that the search does not see
(`exact_iff`): occurrences that overlap, or that differ in their line endings, and line endings
outside the occurrence that are not those of the rest of the file. -/

namespace Pandora.Edits

open Lib.Checked Lib.Occurrences List

variable {original target replacement new : List Char}

/-- A place where the target stands, as it is written or up to line endings. No line ending is
parted in the second case. -/
structure Occurrence (target text : List Char) where
  (before found after : List Char)
  split : text = before ++ found ++ after
  matched : found = target ∨
    toLf found = toLf target ∧ toLf text = toLf before ++ toLf found ++ toLf after

/-- How a replacement is put down: as it is written, or with the line endings of the file. -/
def Written (replacement written : List Char) : Prop :=
  written = replacement ∨ written = toLf replacement ∨ written = toCrlf (toLf replacement)

/-- The target has one occurrence, which is replaced, and nothing else changes. -/
structure ExactEdit (original target replacement new : List Char) : Prop where
  nonempty : target ≠ []
  single : ∀ o o' : Occurrence target original, o.after = o'.after
  replaced : ∃ o : Occurrence target original, ∃ written, Written replacement written ∧
    new = o.before ++ written ++ o.after

namespace Occurrence

variable (o o' : Occurrence target original)

/-- The one ends before the other begins. -/
def Apart : Prop :=
  o.before.length + o.found.length ≤ o'.before.length ∨
    o'.before.length + o'.found.length ≤ o.before.length

/-- The target as it is written. -/
def Literal : Prop := o.found = target

end Occurrence

/-- What the search does not see is not there. -/
structure Plain (original target : List Char) : Prop where
  nonempty : original ≠ []
  apart : ∀ o o' : Occurrence target original, o.after ≠ o'.after →
    o.Apart o' ∧ (o.Literal ↔ o'.Literal)
  lines : target <:+: original ∨ ¬ crlf <:+: original ∨
    ∃ o : Occurrence target original, LinesCrlf o.before ∧ LinesCrlf o.after

/-! ### Occurrences -/

theorem literal_occurs (o : Occurrence target original) (h : o.Literal) : target <:+: original := by
  refine ⟨o.before, o.after, ?_⟩
  have hsplit := o.split
  rw [show o.found = target from h] at hsplit
  exact hsplit.symm

variable {o o' : Occurrence target original}

/-- Two occurrences as the target is written, apart, are two matches. -/
theorem two_le_of_literal (htarget : target ≠ [])
    (ho : o.Literal) (ho' : o'.Literal) (h : o.Apart o') : 2 ≤ matchCount target original := by
  have hsplit := o.split
  have hsplit' := o'.split
  unfold Occurrence.Apart at h
  rw [show o.found = target from ho] at hsplit h
  rw [show o'.found = target from ho'] at hsplit' h
  rcases h with h | h
  · exact two_le_matchCount htarget hsplit hsplit' h
  · exact two_le_matchCount htarget hsplit' hsplit h

theorem read_of_not_literal (h : ¬ o.Literal) :
    toLf o.found = toLf target ∧ toLf original = toLf o.before ++ toLf target ++ toLf o.after := by
  obtain ⟨hfound, hread⟩ := o.matched.resolve_left h
  exact ⟨hfound, hfound ▸ hread⟩

/-- What stands apart in the text stands apart in the text as it is read. -/
theorem read_apart (ho : ¬ o.Literal) (h : o.before.length + o.found.length ≤ o'.before.length) :
    (toLf o.before).length + (toLf target).length ≤ (toLf o'.before).length := by
  obtain ⟨hfound, hread⟩ := read_of_not_literal ho
  have hlength : (toLf original).length =
      (toLf o.before).length + (toLf target).length + (toLf o.after).length := by
    rw [hread, length_append, length_append]
  have hle := length_toLf_append_le (o.before ++ o.found) o.after
  have hjoin := length_toLf_append_le o.before o.found
  rw [← o.split] at hle
  rw [hfound] at hjoin
  have hprefix : o.before ++ o.found <+: original := ⟨o.after, o.split.symm⟩
  have hlonger : o'.before <+: original :=
    ⟨o'.found ++ o'.after, by rw [← append_assoc, ← o'.split]⟩
  obtain ⟨mid, hmid⟩ := prefix_of_prefix_length_le hprefix hlonger
    (by rw [length_append]; exact h)
  have hmono := length_toLf_le_append (o.before ++ o.found) mid
  rw [hmid] at hmono
  omega

theorem two_le_of_read (htarget : toLf target ≠ [])
    (ho : ¬ o.Literal) (ho' : ¬ o'.Literal) (h : o.Apart o') :
    2 ≤ matchCount (toLf target) (toLf original) := by
  have hread := (read_of_not_literal ho).2
  have hread' := (read_of_not_literal ho').2
  rcases h with h | h
  · exact two_le_matchCount htarget hread hread' (read_apart ho h)
  · exact two_le_matchCount htarget hread' hread (read_apart ho' h)

theorem exists_of_read {pre post : List Char} (h : toLf original = pre ++ toLf target ++ post) :
    ∃ o : Occurrence target original, toLf o.before = pre ∧ toLf o.after = post := by
  obtain ⟨x, z, hxz, hx, rfl⟩ := toLf_split h
  obtain ⟨x, y, rfl, rfl, hy⟩ := toLf_split hx
  refine ⟨⟨x, y, z, hxz, Or.inr ⟨hy, ?_⟩⟩, rfl, rfl⟩
  rw [hy, h]

/-! ### The two ways of an edit -/

variable {parts : List Char × List Char}

theorem replaceOnce_eq_ok {text : List Char} :
    replaceOnce target replacement text parts = .ok new ↔
      matchCount target text ≤ 1 ∧ new = parts.1 ++ replacement ++ parts.2 := by
  unfold replaceOnce
  split_ifs with hmore
  · exact ⟨fun h => (nomatch h), fun h => by omega⟩
  · rw [Except.ok.injEq]
    exact ⟨fun h => ⟨by omega, h.symm⟩, fun h => h.2.symm⟩

theorem exact_of_found (hfind : find? target original = some parts)
    (hok : replaceOnce target replacement original parts = .ok new) :
    ExactEdit original target replacement new ↔ Plain original target := by
  obtain ⟨hcount, rfl⟩ := replaceOnce_eq_ok.mp hok
  have hsplit := find?_eq_some hfind
  have hinfix : target <:+: original := ⟨parts.1, parts.2, hsplit.symm⟩
  constructor
  · intro h
    refine ⟨fun hempty => h.nonempty ?_, fun o o' hne => absurd (h.single o o') hne, Or.inl hinfix⟩
    rw [hempty] at hinfix
    exact List.infix_nil.mp hinfix
  · intro h
    have htarget : target ≠ [] := by
      intro hempty
      have hlength := List.length_pos_iff.mpr h.nonempty
      unfold matchCount at hcount
      rw [if_pos hempty] at hcount
      omega
    let first : Occurrence target original := ⟨parts.1, target, parts.2, hsplit, Or.inl rfl⟩
    have hliteral : first.Literal := rfl
    refine ⟨htarget, fun o o' => ?_, first, replacement, Or.inl rfl, rfl⟩
    by_contra hne
    obtain ⟨hapart, hboth⟩ := h.apart o o' hne
    -- one of the two is not at the first place, and is written as the target for that
    have hwritten : o.Literal ∧ o'.Literal := by
      by_cases hplace : o.after = first.after
      · have hother : first.after ≠ o'.after := hplace ▸ hne
        have ho' := (h.apart first o' hother).2.mp hliteral
        exact ⟨hboth.mpr ho', ho'⟩
      · have ho := (h.apart first o (Ne.symm hplace)).2.mp hliteral
        exact ⟨ho, hboth.mp ho⟩
    have hmany := two_le_of_literal htarget hwritten.1 hwritten.2 hapart
    omega

theorem single_of_read (hnot : ¬ target <:+: original)
    (hcount : matchCount (toLf target) (toLf original) ≤ 1)
    (hapart : ∀ o o' : Occurrence target original, o.after ≠ o'.after →
      o.Apart o' ∧ (o.Literal ↔ o'.Literal)) (o o' : Occurrence target original) :
    o.after = o'.after := by
  have htarget : target ≠ [] := by
    rintro rfl
    exact hnot List.nil_infix
  have hread : ∀ o : Occurrence target original, ¬ o.Literal :=
    fun o ho => hnot (literal_occurs o ho)
  by_contra hne
  have hmany := two_le_of_read (toLf_ne_nil htarget) (hread o) (hread o') (hapart o o' hne).1
  omega

/-- The lengths of the two sides leave no room for a line ending that changes. -/
theorem lines_of_length {pre post written : List Char} (hwritten : Written replacement written)
    (h : toCrlf (toLf pre ++ toLf replacement ++ toLf post) = pre ++ written ++ post) :
    LinesCrlf pre ∧ LinesCrlf post := by
  obtain ⟨hpre, hpre'⟩ := length_toCrlf_toLf pre
  obtain ⟨hpost, hpost'⟩ := length_toCrlf_toLf post
  have hmid : written.length ≤ (toCrlf (toLf replacement)).length := by
    rcases hwritten with hsame | rfl | rfl
    · rw [hsame]
      exact (length_toCrlf_toLf replacement).1
    · exact length_le_toCrlf _
    · exact le_refl _
  have hlength := congrArg List.length h
  rw [toCrlf_append, toCrlf_append] at hlength
  simp only [length_append] at hlength
  exact ⟨hpre' (by omega), hpost' (by omega)⟩

theorem exact_of_read (hnot : ¬ target <:+: original)
    (hfind : find? (toLf target) (toLf original) = some parts)
    (hcount : matchCount (toLf target) (toLf original) ≤ 1)
    (hnew : new = if crlf <:+: original then toCrlf (parts.1 ++ toLf replacement ++ parts.2)
      else parts.1 ++ toLf replacement ++ parts.2) :
    ExactEdit original target replacement new ↔ Plain original target := by
  have htarget : target ≠ [] := by
    rintro rfl
    exact hnot List.nil_infix
  have hnonempty : original ≠ [] := by
    rintro rfl
    have hinfix := find?_eq_some hfind
    have hempty : parts.1 ++ toLf target = [] := (List.append_eq_nil_iff.mp hinfix.symm).1
    exact toLf_ne_nil htarget (List.append_eq_nil_iff.mp hempty).2
  have hread : ∀ o : Occurrence target original, ¬ o.Literal :=
    fun o ho => hnot (literal_occurs o ho)
  obtain ⟨first, hbefore, hafter⟩ := exists_of_read (find?_eq_some hfind)
  -- another occurrence at the same place is read as the same parts
  have hparts : ∀ o : Occurrence target original, o.after = first.after →
      parts.1 = toLf o.before ∧ parts.2 = toLf o.after := by
    intro o ho
    have hsame := (read_of_not_literal (hread o)).2.symm.trans (find?_eq_some hfind)
    rw [ho, hafter, append_left_inj, append_left_inj] at hsame
    exact ⟨hsame.symm, by rw [ho, hafter]⟩
  constructor
  · intro h
    refine ⟨hnonempty, fun o o' hne => absurd (h.single o o') hne, Or.inr ?_⟩
    by_cases hcrlf : crlf <:+: original
    · obtain ⟨o, written, hwritten, hedit⟩ := h.replaced
      obtain ⟨hpre, hpost⟩ := hparts o (h.single o first)
      rw [if_pos hcrlf, hedit, hpre, hpost] at hnew
      exact Or.inr ⟨o, lines_of_length hwritten hnew.symm⟩
    · exact Or.inl hcrlf
  · intro h
    have hsingle := single_of_read hnot hcount h.apart
    refine ⟨htarget, hsingle, ?_⟩
    by_cases hcrlf : crlf <:+: original
    · obtain ⟨o, hlines, hlines'⟩ := (h.lines.resolve_left hnot).resolve_left (not_not.mpr hcrlf)
      obtain ⟨hpre, hpost⟩ := hparts o (hsingle o first)
      refine ⟨o, toCrlf (toLf replacement), Or.inr (Or.inr rfl), ?_⟩
      rw [hnew, if_pos hcrlf, hpre, hpost, toCrlf_append, toCrlf_append, hlines, hlines']
    · have hsame : ∀ x : List Char, x <:+: original → toLf x = x :=
        fun x hx => toLf_of_no_crlf fun hlater => hcrlf (hlater.trans hx)
      have hpre : toLf first.before = first.before :=
        hsame _ ⟨[], first.found ++ first.after, by
          rw [nil_append, ← append_assoc, ← first.split]⟩
      have hpost : toLf first.after = first.after :=
        hsame _ ⟨first.before ++ first.found, [], by rw [append_nil, ← first.split]⟩
      refine ⟨first, toLf replacement, Or.inr (Or.inl rfl), ?_⟩
      rw [hnew, if_neg hcrlf, ← hbefore, ← hafter, hpre, hpost]

/-- **Exact edits.** An edit that is made is exact if and only if there is nothing that the search
does not see. -/
theorem exact_iff (original target replacement new : String)
    (h : newContent original target replacement = .ok new) :
    ExactEdit original.toList target.toList replacement.toList new.toList ↔
      Plain original.toList target.toList := by
  obtain ⟨newText, hnew, rfl⟩ := map_eq_ok.mp h
  rw [String.toList_ofList]
  unfold newChars at hnew
  cases hfind : find? target.toList original.toList with
  | some parts =>
    rw [hfind] at hnew
    exact exact_of_found hfind hnew
  | none =>
    rw [hfind] at hnew
    cases hread : find? (toLf target.toList) (toLf original.toList) with
    | none =>
      rw [hread] at hnew
      cases hnew
    | some parts =>
      rw [hread] at hnew
      obtain ⟨updated, hupdated, hcontent⟩ := map_eq_ok.mp hnew
      obtain ⟨hcount, rfl⟩ := replaceOnce_eq_ok.mp hupdated
      exact exact_of_read (find?_eq_none hfind) hread hcount hcontent.symm

theorem exact_sample :
    newContent "one\r\ntwo\r\n" "two\n" "three\n" = .ok "one\r\nthree\r\n" ∧
      (ExactEdit "one\r\ntwo\r\n".toList "two\n".toList "three\n".toList
        "one\r\nthree\r\n".toList ↔ Plain "one\r\ntwo\r\n".toList "two\n".toList) :=
  ⟨by decide +kernel, exact_iff "one\r\ntwo\r\n" "two\n" "three\n" "one\r\nthree\r\n"
    (by decide +kernel)⟩

/-- The target stands in two places that overlap, and one of them is replaced; and a line ending far
from the target changes. -/
theorem edits_not_exact :
    newContent "aaa" "aa" "b" = .ok "ba" ∧
      ¬ ExactEdit "aaa".toList "aa".toList "b".toList "ba".toList ∧
    newContent "x\ny\r\nz" "y\nz" "w" = .ok "x\r\nw" ∧
      ¬ ExactEdit "x\ny\r\nz".toList "y\nz".toList "w".toList "x\r\nw".toList := by
  refine ⟨by decide +kernel, fun h => ?_, by decide +kernel, fun h => ?_⟩
  · have hsame := h.single ⟨[], ['a', 'a'], ['a'], by decide, Or.inl (by decide)⟩
      ⟨['a'], ['a', 'a'], [], by decide, Or.inl (by decide)⟩
    exact absurd hsame (by decide)
  · obtain ⟨o, written, -, hnew⟩ := h.replaced
    have hnot : ¬ o.Literal := fun hliteral => absurd (literal_occurs o hliteral) (by decide)
    have hread := (read_of_not_literal hnot).2
    have hfile : "x\ny\r\nz".toList = ['x', '\n', 'y', '\r', '\n', 'z'] := by decide
    have hsplit := hfile.symm.trans o.split
    rw [show toLf "x\ny\r\nz".toList = ['x', '\n', 'y', '\n', 'z'] by decide,
      show toLf "y\nz".toList = ['y', '\n', 'z'] by decide] at hread
    rw [show "x\r\nw".toList = ['x', '\r', '\n', 'w'] by decide] at hnew
    -- the target does not stand in the first two places, so the line feed there stays
    rcases hbefore : o.before with _ | ⟨c, _ | ⟨d, rest⟩⟩
    · rw [hbefore] at hread
      cases hread
    · rw [hbefore] at hread
      cases hread
    · rw [hbefore] at hsplit hnew
      have hfeed : '\n' = d := (List.cons.inj (List.cons.inj hsplit).2).1
      have hreturn : '\r' = d := (List.cons.inj (List.cons.inj hnew).2).1
      exact absurd (hfeed.trans hreturn.symm) (by decide)

end Pandora.Edits
