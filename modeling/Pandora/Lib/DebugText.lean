import Pandora.Lib.Codes

/-! # Texts as `Debug` writes them

A quoted text in which some characters are escaped, and a list of such. The escapes form a prefix
code that has no quote at its front, so the closing quote tells where a text ends
(`prefixCode_debugStr`), and likewise the closing bracket for a list (`prefixCode_debugList`). -/

namespace Pandora.Lib.DebugText

open Lib.Codes List

variable {α : Type} {enc : α → List Char} {sep : Char}

/-- The characters with an escape of their own. -/
def shortEscape (c : Char) : Option Char :=
  if c = '\x00' then some '0'
  else if c = '\t' then some 't'
  else if c = '\r' then some 'r'
  else if c = '\n' then some 'n'
  else if c = '"' then some '"'
  else if c = '\\' then some '\\'
  else none

/-- `char::escape_debug`; `hidden` are the other characters that are written by their code point,
those that are not printable or extend another. -/
def escapeDebug (hidden : Char → Bool) (c : Char) : List Char :=
  match shortEscape c with
  | some e => ['\\', e]
  | none => if hidden c then '\\' :: 'u' :: '\x7b' :: (Nat.toDigits 16 c.toNat ++ ['\x7d']) else [c]

def debugStr (hidden : Char → Bool) (text : List Char) : List Char :=
  '"' :: (text.flatMap (escapeDebug hidden) ++ ['"'])

def debugList (enc : α → List Char) : List α → List Char
  | [] => ['[', ']']
  | a :: l => '[' :: (enc a ++ (l.flatMap (fun a => ',' :: ' ' :: enc a) ++ [']']))

/-! ### Digits -/

theorem digitChar_inj : ∀ n < 16, ∀ m < 16, Nat.digitChar n = Nat.digitChar m → n = m := by decide

theorem digitChar_ne : ∀ n < 16, Nat.digitChar n ≠ '\x7d' := by decide

theorem toDigits_inj (n : ℕ) : ∀ m : ℕ, Nat.toDigits 16 n = Nat.toDigits 16 m → n = m := by
  induction n using Nat.strong_induction_on with
  | _ n ih =>
    intro m h
    have hone := fun k => Nat.length_toDigits_le_iff (n := k) (b := 16) (k := 1) (by decide) one_pos
    have hsmall : n < 16 ↔ m < 16 := by
      rw [← pow_one 16, ← hone n, ← hone m, h]
    by_cases hn : n < 16
    · have hm := hsmall.mp hn
      rw [Nat.toDigits_of_lt_base hn, Nat.toDigits_of_lt_base hm] at h
      exact digitChar_inj n hn m hm (List.cons.inj h).1
    · have hm : ¬ m < 16 := fun hm => hn (hsmall.mpr hm)
      rw [Nat.toDigits_of_base_le (n := n) (by decide) (by omega),
        Nat.toDigits_of_base_le (n := m) (by decide) (by omega)] at h
      obtain ⟨hfront, hlast⟩ := append_inj' h rfl
      have hdiv := ih (n / 16) (by omega) (m / 16) hfront
      have hmod := digitChar_inj (n % 16) (Nat.mod_lt _ (by decide)) (m % 16)
        (Nat.mod_lt _ (by decide)) (List.cons.inj hlast).1
      omega

theorem not_mem_toDigits (n : ℕ) : '\x7d' ∉ Nat.toDigits 16 n := by
  induction n using Nat.strong_induction_on with
  | _ n ih =>
    by_cases hn : n < 16
    · rw [Nat.toDigits_of_lt_base hn, mem_singleton]
      exact (digitChar_ne n hn).symm
    · rw [Nat.toDigits_of_base_le (by decide) (by omega), mem_append, mem_singleton]
      rintro (hfront | hlast)
      · exact ih (n / 16) (by omega) hfront
      · exact digitChar_ne _ (Nat.mod_lt _ (by decide)) hlast.symm

/-! ### Escapes -/

/-- The character of an escape. -/
def readEscape (e : Char) : Char :=
  if e = '0' then '\x00' else if e = 't' then '\t' else if e = 'r' then '\r'
  else if e = 'n' then '\n' else e

theorem readEscape_shortEscape {c e : Char} (h : shortEscape c = some e) : readEscape e = c := by
  unfold shortEscape at h
  split_ifs at h <;> (cases h; subst_vars; decide)

theorem shortEscape_ne {a e : Char} (h : shortEscape a = some e) : e ≠ 'u' := by
  unfold shortEscape at h
  split_ifs at h <;> (cases h; decide)

theorem shortEscape_none {a : Char} (h : shortEscape a = none) : a ≠ '\\' ∧ a ≠ '"' := by
  refine ⟨?_, ?_⟩ <;> rintro rfl <;> cases h

theorem prefixCode_escapeDebug (hidden : Char → Bool) :
    PrefixCode (fun _ => True) (escapeDebug hidden) := by
  intro a b _ _ s t h
  unfold escapeDebug at h
  rcases ha : shortEscape a with _ | e <;> rcases hb : shortEscape b with _ | e' <;>
    rw [ha, hb] at h <;> dsimp only at h
  · by_cases hhidden : hidden a = true <;> by_cases hhidden' : hidden b = true
    · rw [if_pos hhidden, if_pos hhidden'] at h
      obtain ⟨hdigits, hst⟩ := prefixCode_terminated '\x7d' (not_mem_toDigits _)
        (not_mem_toDigits _) (List.cons.inj (List.cons.inj (List.cons.inj h).2).2).2
      exact ⟨Char.toNat_inj.mp (toDigits_inj _ _ hdigits), hst⟩
    · rw [if_pos hhidden, if_neg hhidden'] at h
      exact absurd (List.cons.inj h).1.symm (shortEscape_none hb).1
    · rw [if_neg hhidden, if_pos hhidden'] at h
      exact absurd (List.cons.inj h).1 (shortEscape_none ha).1
    · rw [if_neg hhidden, if_neg hhidden'] at h
      exact List.cons.inj h
  · split_ifs at h
    · exact absurd (List.cons.inj (List.cons.inj h).2).1.symm (shortEscape_ne hb)
    · exact absurd (List.cons.inj h).1 (shortEscape_none ha).1
  · split_ifs at h
    · exact absurd (List.cons.inj (List.cons.inj h).2).1 (shortEscape_ne ha)
    · exact absurd (List.cons.inj h).1.symm (shortEscape_none hb).1
  · obtain ⟨rfl, hst⟩ := List.cons.inj (List.cons.inj h).2
    exact ⟨(readEscape_shortEscape ha).symm.trans (readEscape_shortEscape hb), hst⟩

/-- No word begins with the separator. -/
def Avoids (sep : Char) (enc : α → List Char) : Prop := ∀ a s t, enc a ++ s ≠ sep :: t

theorem avoids_escapeDebug (hidden : Char → Bool) : Avoids '"' (escapeDebug hidden) := by
  intro c s t h
  unfold escapeDebug at h
  rcases hc : shortEscape c with _ | e <;> rw [hc] at h <;> dsimp only at h
  · split_ifs at h
    · exact absurd (List.cons.inj h).1 (by decide)
    · exact absurd (List.cons.inj h).1 (shortEscape_none hc).2
  · exact absurd (List.cons.inj h).1 (by decide)

theorem PrefixCode.until {p : α → Prop} (h : PrefixCode p enc) (hsep : Avoids sep enc) :
    ∀ {l l' : List α} {s t : List Char}, (∀ a ∈ l, p a) → (∀ a ∈ l', p a) →
      l.flatMap enc ++ sep :: s = l'.flatMap enc ++ sep :: t → l = l' ∧ s = t
  | [], [], s, t, _, _, he => ⟨rfl, (List.cons.inj he).2⟩
  | [], b :: l', s, t, _, _, he => by
    rw [flatMap_nil, nil_append, flatMap_cons, append_assoc] at he
    exact absurd he.symm (hsep b _ s)
  | a :: l, [], s, t, _, _, he => by
    rw [flatMap_nil, nil_append, flatMap_cons, append_assoc] at he
    exact absurd he (hsep a _ t)
  | a :: l, b :: l', s, t, hl, hl', he => by
    rw [forall_mem_cons] at hl hl'
    rw [flatMap_cons, flatMap_cons, append_assoc, append_assoc] at he
    obtain ⟨rfl, hrest⟩ := h hl.1 hl'.1 he
    obtain ⟨rfl, hst⟩ := PrefixCode.until h hsep hl.2 hl'.2 hrest
    exact ⟨rfl, hst⟩

theorem prefixCode_debugStr (hidden : Char → Bool) :
    PrefixCode (fun _ => True) (debugStr hidden) := by
  intro a b _ _ s t h
  unfold debugStr at h
  rw [cons_append, cons_append, append_assoc, append_assoc] at h
  exact PrefixCode.until (prefixCode_escapeDebug hidden) (avoids_escapeDebug hidden)
    (fun _ _ => trivial) (fun _ _ => trivial) (List.cons.inj h).2

theorem prefixCode_debugList (h : PrefixCode (fun _ => True) enc) (hsep : Avoids ']' enc) :
    PrefixCode (fun _ => True) (debugList enc)
  | [], [], _, _, s, t, he => ⟨rfl, (List.cons.inj (List.cons.inj he).2).2⟩
  | [], b :: l', _, _, s, t, he => by
    simp only [debugList, cons_append, append_assoc] at he
    exact absurd (List.cons.inj he).2.symm (hsep b _ s)
  | a :: l, [], _, _, s, t, he => by
    simp only [debugList, cons_append, append_assoc] at he
    exact absurd (List.cons.inj he).2 (hsep a _ t)
  | a :: l, b :: l', _, _, s, t, he => by
    simp only [debugList, cons_append, nil_append, append_assoc] at he
    obtain ⟨rfl, hitems⟩ := h trivial trivial (List.cons.inj he).2
    have hcode : PrefixCode (fun _ => True) fun a => ',' :: ' ' :: enc a :=
      fun x y _ _ u v hxy => h trivial trivial (List.cons.inj (List.cons.inj hxy).2).2
    have havoids : Avoids ']' fun a => ',' :: ' ' :: enc a :=
      fun x u v hxy => absurd (List.cons.inj hxy).1 (by decide)
    obtain ⟨rfl, hst⟩ := PrefixCode.until hcode havoids (fun _ _ => trivial) (fun _ _ => trivial)
      hitems
    exact ⟨rfl, hst⟩

end Pandora.Lib.DebugText
