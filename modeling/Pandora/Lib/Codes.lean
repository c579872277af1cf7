import Mathlib

/-! # Prefix codes

A code in which a codeword tells where it ends: whatever follows, the word determines the value and
the rest (`PrefixCode`). Words of one length, length-prefixed byte strings and tagged options are
such codes, and a concatenation of non-empty codewords needs no count: it determines the list
(`flatMap_inj`).

`bigEndian w n` is the number `n` in `w` bytes, the most significant first, and `ofBigEndian` reads
it back. -/

namespace Pandora.Lib.Codes

open List

variable {α β : Type}

/-- A codeword of a value that satisfies `p` determines the value and what follows it. -/
def PrefixCode (p : α → Prop) (enc : α → List β) : Prop :=
  ∀ ⦃a b⦄, p a → p b → ∀ ⦃s t⦄, enc a ++ s = enc b ++ t → a = b ∧ s = t

variable {p : α → Prop} {enc : α → List β}

theorem PrefixCode.of_length {n : ℕ}
    (hlen : ∀ a, p a → (enc a).length = n) (hinj : ∀ a b, p a → p b → enc a = enc b → a = b) :
    PrefixCode p enc := by
  intro a b ha hb s t h
  obtain ⟨hab, hst⟩ := append_inj h (by rw [hlen a ha, hlen b hb])
  exact ⟨hinj a b ha hb hab, hst⟩

/-- The code of a value that is determined by another value with a prefix code. -/
theorem PrefixCode.comp {γ : Type} {q : γ → Prop}
    (h : PrefixCode p enc) {f : γ → α} (hp : ∀ c, q c → p (f c)) (hf : ∀ c d, f c = f d → c = d) :
    PrefixCode q fun c => enc (f c) := by
  intro c d hc hd s t he
  obtain ⟨hcd, hst⟩ := h (hp c hc) (hp d hd) he
  exact ⟨hf c d hcd, hst⟩

/-- A concatenation of non-empty codewords determines its values as far as each codeword does. -/
theorem forall₂_of_flatMap {R : α → α → Prop}
    (h : ∀ ⦃a b⦄, p a → p b → ∀ ⦃s t⦄, enc a ++ s = enc b ++ t → R a b ∧ s = t)
    (hne : ∀ a, enc a ≠ []) : ∀ {l l' : List α}, (∀ a ∈ l, p a) → (∀ a ∈ l', p a) →
    l.flatMap enc = l'.flatMap enc → List.Forall₂ R l l'
  | [], [], _, _, _ => .nil
  | [], b :: l', _, _, he => by
    rw [flatMap_nil, flatMap_cons] at he
    exact absurd (append_eq_nil_iff.mp he.symm).1 (hne b)
  | a :: l, [], _, _, he => by
    rw [flatMap_nil, flatMap_cons] at he
    exact absurd (append_eq_nil_iff.mp he).1 (hne a)
  | a :: l, b :: l', hl, hl', he => by
    rw [flatMap_cons, flatMap_cons] at he
    obtain ⟨hab, hrest⟩ := h (hl a (by simp)) (hl' b (by simp)) he
    exact .cons hab (forall₂_of_flatMap h hne (fun c hc => hl c (by simp [hc]))
      (fun c hc => hl' c (by simp [hc])) hrest)

/-- A concatenation of non-empty codewords determines the list of its values. -/
theorem PrefixCode.flatMap_inj (h : PrefixCode p enc)
    (hne : ∀ a, enc a ≠ []) {l l' : List α} (hl : ∀ a ∈ l, p a) (hl' : ∀ a ∈ l', p a)
    (he : l.flatMap enc = l'.flatMap enc) : l = l' := by
  have hequal := forall₂_of_flatMap h hne hl hl' he
  rwa [forall₂_eq_eq_eq] at hequal

theorem prefixCode_terminated (sep : β) : PrefixCode (fun word => sep ∉ word) fun word =>
    word ++ [sep]
  | [], [], _, _, s, t, h => ⟨rfl, (List.cons.inj h).2⟩
  | [], b :: word, _, hb, s, t, h => by
    obtain ⟨rfl, -⟩ := List.cons.inj h
    exact absurd mem_cons_self hb
  | a :: word, [], ha, _, s, t, h => by
    obtain ⟨rfl, -⟩ := List.cons.inj h
    exact absurd mem_cons_self ha
  | a :: word, b :: word', ha, hb, s, t, h => by
    obtain ⟨rfl, hrest⟩ := List.cons.inj h
    obtain ⟨rfl, hst⟩ := prefixCode_terminated sep (fun hmem => ha (mem_cons_of_mem _ hmem))
      (fun hmem => hb (mem_cons_of_mem _ hmem)) hrest
    exact ⟨rfl, hst⟩

/-! ### Options -/

/-- A tag, and the codeword of the value if there is one. -/
def tagged (enc : α → List UInt8) : Option α → List UInt8
  | none => [0]
  | some a => 1 :: enc a

theorem PrefixCode.tagged {enc : α → List UInt8} (h : PrefixCode p enc) :
    PrefixCode (fun o => ∀ a, o = some a → p a) (tagged enc) := by
  intro o o' ho ho' s t he
  rcases o with _ | a <;> rcases o' with _ | b
  · simp only [Codes.tagged, cons_append, nil_append, List.cons.injEq] at he
    exact ⟨rfl, he.2⟩
  · simp [Codes.tagged] at he
  · simp [Codes.tagged] at he
  · simp only [Codes.tagged, cons_append, List.cons.injEq, true_and] at he
    obtain ⟨rfl, hst⟩ := h (ho a rfl) (ho' b rfl) he
    exact ⟨rfl, hst⟩

/-! ### Numbers and byte strings -/

/-- `n` in `w` bytes. -/
def bigEndian : ℕ → ℕ → List UInt8
  | 0, _ => []
  | w + 1, n => bigEndian w (n / 256) ++ [UInt8.ofNat n]

theorem length_bigEndian : ∀ (w n : ℕ), (bigEndian w n).length = w
  | 0, _ => rfl
  | w + 1, n => by rw [bigEndian, length_append, length_bigEndian w, length_singleton]

theorem bigEndian_inj : ∀ {w n m : ℕ},
    n < 256 ^ w → m < 256 ^ w → bigEndian w n = bigEndian w m → n = m
  | 0, n, m, hn, hm, _ => by
    rw [pow_zero] at hn hm
    omega
  | w + 1, n, m, hn, hm, he => by
    rw [pow_succ] at hn hm
    have hlen : (bigEndian w (n / 256)).length = (bigEndian w (m / 256)).length := by
      rw [length_bigEndian, length_bigEndian]
    obtain ⟨hhigh, hlow⟩ := append_inj he hlen
    have hdiv : n / 256 = m / 256 :=
      bigEndian_inj (Nat.div_lt_of_lt_mul (by omega)) (Nat.div_lt_of_lt_mul (by omega)) hhigh
    have hmod : n % 256 = m % 256 := by
      have hbyte := congrArg UInt8.toNat (List.cons.inj hlow).1
      simpa using hbyte
    omega

/-- The number written in `bytes`, the most significant byte first. -/
def ofBigEndian (bytes : List UInt8) : ℕ := bytes.foldl (fun n b => 256 * n + b.toNat) 0

theorem ofBigEndian_bigEndian : ∀ {w n : ℕ}, n < 256 ^ w → ofBigEndian (bigEndian w n) = n
  | 0, n, hn => by
    rw [pow_zero] at hn
    simp only [bigEndian, ofBigEndian, foldl_nil]
    omega
  | w + 1, n, hn => by
    rw [pow_succ] at hn
    have ih : ofBigEndian (bigEndian w (n / 256)) = n / 256 :=
      ofBigEndian_bigEndian (Nat.div_lt_of_lt_mul (by omega))
    rw [ofBigEndian] at ih
    simp only [ofBigEndian, bigEndian, foldl_append, foldl_cons, foldl_nil, ih,
      UInt8.toNat_ofNat']
    omega

/-- A byte string after its length. -/
def lengthPrefixed (w : ℕ) (bytes : List UInt8) : List UInt8 := bigEndian w bytes.length ++ bytes

theorem prefixCode_lengthPrefixed (w : ℕ) :
    PrefixCode (fun bytes : List UInt8 => bytes.length < 256 ^ w) (lengthPrefixed w) := by
  intro a b ha hb s t he
  rw [lengthPrefixed, lengthPrefixed, append_assoc, append_assoc] at he
  obtain ⟨hlen, hrest⟩ := append_inj he (by rw [length_bigEndian, length_bigEndian])
  exact append_inj hrest (bigEndian_inj ha hb hlen)

/-- `n` in `w` bytes, the least significant byte first. -/
def littleEndian (w n : ℕ) : List UInt8 := (bigEndian w n).reverse

theorem length_littleEndian (w n : ℕ) : (littleEndian w n).length = w := by
  rw [littleEndian, length_reverse, length_bigEndian]

theorem prefixCode_littleEndian (w : ℕ) :
    PrefixCode (fun bytes : List UInt8 => bytes.length < 256 ^ w)
      fun bytes => littleEndian w bytes.length ++ bytes := by
  intro a b ha hb s t he
  rw [append_assoc, append_assoc] at he
  obtain ⟨hlen, hrest⟩ := append_inj he (by rw [length_littleEndian, length_littleEndian])
  exact append_inj hrest (bigEndian_inj ha hb (reverse_injective hlen))

end Pandora.Lib.Codes
