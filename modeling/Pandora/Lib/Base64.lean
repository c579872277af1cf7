import Mathlib

/-! # Base 64

Three bytes are four characters of the alphabet; one or two bytes at the end are two or three
characters. What is decoded has no bits left over. -/

namespace Pandora.Lib.Base64

open List

def alphabet : List Char :=
  "ABCDEFGHIJKLMNOPQRSTUVWXYZabcdefghijklmnopqrstuvwxyz0123456789+/".toList

/-- The character of six bits. -/
def digit (n : ℕ) : Char := alphabet.getD n 'A'

/-- The six bits of a character. -/
def value (c : Char) : Option ℕ := alphabet.idxOf? c

theorem value_digit : ∀ n < 64, value (digit n) = some n := by decide +kernel

theorem digit_mem : ∀ n < 64, digit n ∈ alphabet := by decide +kernel

def encode : List UInt8 → List Char
  | a :: b :: c :: rest =>
    let n := a.toNat * 65536 + b.toNat * 256 + c.toNat
    digit (n / 262144) :: digit (n / 4096 % 64) :: digit (n / 64 % 64) :: digit (n % 64) ::
      encode rest
  | [a, b] =>
    let n := (a.toNat * 256 + b.toNat) * 4
    [digit (n / 4096), digit (n / 64 % 64), digit (n % 64)]
  | [a] =>
    let n := a.toNat * 16
    [digit (n / 64), digit (n % 64)]
  | [] => []

def decode : List Char → Option (List UInt8)
  | w :: x :: y :: z :: rest => do
    let n := (← value w) * 262144 + (← value x) * 4096 + (← value y) * 64 + (← value z)
    let bytes ← decode rest
    pure (.ofNat (n / 65536) :: .ofNat (n / 256 % 256) :: .ofNat (n % 256) :: bytes)
  | [w, x, y] => do
    let n := (← value w) * 4096 + (← value x) * 64 + (← value y)
    if n % 4 = 0 then pure [.ofNat (n / 1024), .ofNat (n / 4 % 256)] else none
  | [w, x] => do
    let n := (← value w) * 64 + (← value x)
    if n % 16 = 0 then pure [.ofNat (n / 16)] else none
  | [_] => none
  | [] => some []

theorem ofNat_eq {n : ℕ} {a : UInt8} (h : n = a.toNat) : UInt8.ofNat n = a := by
  rw [h, UInt8.ofNat_toNat]

theorem decode_encode (bytes : List UInt8) : decode (encode bytes) = some bytes := by
  fun_induction encode bytes with
  | case1 a b c rest n ih =>
    have ha := a.toNat_lt
    have hb := b.toNat_lt
    have hc := c.toNat_lt
    have hn : n = a.toNat * 65536 + b.toNat * 256 + c.toNat := rfl
    clear_value n
    rw [decode, value_digit _ (by omega), value_digit _ (by omega), value_digit _ (by omega),
      value_digit _ (by omega), ih]
    have hword : n / 262144 * 262144 + n / 4096 % 64 * 4096 + n / 64 % 64 * 64 + n % 64 = n := by
      omega
    simp only [Option.bind_eq_bind, Option.bind_some, hword, Option.pure_def]
    rw [ofNat_eq (show n / 65536 = a.toNat by omega),
      ofNat_eq (show n / 256 % 256 = b.toNat by omega), ofNat_eq (show n % 256 = c.toNat by omega)]
  | case2 a b n =>
    have ha := a.toNat_lt
    have hb := b.toNat_lt
    have hn : n = (a.toNat * 256 + b.toNat) * 4 := rfl
    clear_value n
    rw [decode, value_digit _ (by omega), value_digit _ (by omega), value_digit _ (by omega)]
    have hword : n / 4096 * 4096 + n / 64 % 64 * 64 + n % 64 = n := by omega
    simp only [Option.bind_eq_bind, Option.bind_some, hword, Option.pure_def]
    rw [if_pos (by omega), ofNat_eq (show n / 1024 = a.toNat by omega),
      ofNat_eq (show n / 4 % 256 = b.toNat by omega)]
  | case3 a n =>
    have ha := a.toNat_lt
    have hn : n = a.toNat * 16 := rfl
    clear_value n
    rw [decode, value_digit _ (by omega), value_digit _ (by omega)]
    have hword : n / 64 * 64 + n % 64 = n := by omega
    simp only [Option.bind_eq_bind, Option.bind_some, hword, Option.pure_def]
    rw [if_pos (by omega), ofNat_eq (show n / 16 = a.toNat by omega)]
  | case4 => rfl

theorem length_encode (bytes : List UInt8) :
    (encode bytes).length = (4 * bytes.length + 2) / 3 := by
  fun_induction encode bytes with
  | case1 a b c rest n ih =>
    simp only [length_cons, ih]
    omega
  | case2 | case3 =>
    simp only [length_cons, length_nil]
  | case4 => rfl

theorem mem_alphabet_of_mem_encode {bytes : List UInt8} {c : Char} (h : c ∈ encode bytes) :
    c ∈ alphabet := by
  fun_induction encode bytes with
  | case1 a b d rest n ih =>
    have hn : n = a.toNat * 65536 + b.toNat * 256 + d.toNat := rfl
    clear_value n
    have ha := a.toNat_lt
    have hb := b.toNat_lt
    have hd := d.toNat_lt
    simp only [mem_cons] at h
    rcases h with rfl | rfl | rfl | rfl | h
    · exact digit_mem _ (by omega)
    · exact digit_mem _ (by omega)
    · exact digit_mem _ (by omega)
    · exact digit_mem _ (by omega)
    · exact ih h
  | case2 a b n =>
    have hn : n = (a.toNat * 256 + b.toNat) * 4 := rfl
    clear_value n
    have ha := a.toNat_lt
    have hb := b.toNat_lt
    simp only [mem_cons, not_mem_nil, or_false] at h
    rcases h with rfl | rfl | rfl
    all_goals exact digit_mem _ (by omega)
  | case3 a n =>
    have hn : n = a.toNat * 16 := rfl
    clear_value n
    have ha := a.toNat_lt
    simp only [mem_cons, not_mem_nil, or_false] at h
    rcases h with rfl | rfl
    all_goals exact digit_mem _ (by omega)
  | case4 => exact absurd h not_mem_nil

/-! ### With padding

The text is filled up with `=` to four characters; a text whose length is no multiple of four, or
that is filled up with more than it takes, is not decoded. -/

def padding (n : ℕ) : List Char := List.replicate ((4 - n % 4) % 4) '='

def encodePadded (bytes : List UInt8) : List Char :=
  encode bytes ++ padding (encode bytes).length

/-- The text without one or two `=` at its end. -/
def stripPadding (text : List Char) : List Char :=
  match text.reverse with
  | '=' :: '=' :: rest => rest.reverse
  | '=' :: rest => rest.reverse
  | _ => text

def decodePadded (text : List Char) : Option (List UInt8) :=
  if text.length % 4 = 0 then decode (stripPadding text) else none

theorem pad_not_mem_encode {bytes : List UInt8} : '=' ∉ encode bytes := fun h =>
  absurd (mem_alphabet_of_mem_encode h) (by decide)

theorem stripPadding_append {text : List Char} (h : '=' ∉ text) {n : ℕ} (hn : n ≤ 2) :
    stripPadding (text ++ List.replicate n '=') = text := by
  have hlast : ∀ rest, text.reverse ≠ '=' :: rest := by
    intro rest hreverse
    refine h (List.mem_reverse.mp ?_)
    rw [hreverse]
    exact mem_cons_self
  unfold stripPadding
  rw [reverse_append, reverse_replicate]
  rcases n with _ | _ | _ | n
  · rw [replicate_zero, nil_append, append_nil]
    split
    · exact absurd ‹_› (hlast _)
    · exact absurd ‹_› (hlast _)
    · rfl
  · show (match '=' :: text.reverse with
      | '=' :: '=' :: rest => rest.reverse
      | '=' :: rest => rest.reverse
      | _ => text ++ ['=']) = text
    split
    · rename_i rest heq
      exact absurd (List.cons.inj heq).2 (hlast _)
    · rename_i rest _ heq
      rw [← (List.cons.inj heq).2, reverse_reverse]
    · rename_i hcontra
      exact absurd rfl (hcontra _)
  · show text.reverse.reverse = text
    exact reverse_reverse text
  · omega

theorem decodePadded_encodePadded (bytes : List UInt8) :
    decodePadded (encodePadded bytes) = some bytes := by
  have hlength := length_encode bytes
  have hpad : (4 - (encode bytes).length % 4) % 4 ≤ 2 := by omega
  unfold decodePadded encodePadded padding
  rw [if_pos, stripPadding_append pad_not_mem_encode hpad, decode_encode]
  rw [length_append, length_replicate]
  omega

theorem mem_encodePadded {bytes : List UInt8} {c : Char} (h : c ∈ encodePadded bytes) :
    c ∈ alphabet ∨ c = '=' := by
  rcases List.mem_append.mp h with h | h
  · exact Or.inl (mem_alphabet_of_mem_encode h)
  · exact Or.inr (eq_of_mem_replicate h)

end Pandora.Lib.Base64
