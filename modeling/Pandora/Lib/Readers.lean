import Pandora.Lib.Checked
import Pandora.Lib.Codes

/-! # Readers of byte strings

A reader takes bytes from the front of its input, or fails. Where a reader accepts exactly what a
writer writes (`Reads`), it reads back every value that is written, and what it has read is written
again as the same bytes. This is so for the number and the byte strings of a fixed length, and for
the readers built from such readers. -/

namespace Pandora.Lib.Readers

open Lib.Checked Lib.Codes List

variable {ε α β : Type}

/-- What is read, and the rest of the input. -/
abbrev Reader (ε α : Type) := StateT (List UInt8) (Except ε) α

/-- The reader accepts exactly the codewords of the values that satisfy `p`. -/
def Reads (read : Reader ε α) (write : α → List UInt8) (p : α → Prop) : Prop :=
  ∀ bytes a rest, read bytes = .ok (a, rest) ↔ p a ∧ bytes = write a ++ rest

theorem bind_eq_some {x : Reader ε α} {f : α → Reader ε β} {bytes rest : List UInt8} {b : β} :
    (x >>= f) bytes = .ok (b, rest) ↔
      ∃ a mid, x bytes = .ok (a, mid) ∧ f a mid = .ok (b, rest) := by
  show (x bytes >>= fun r => f r.1 r.2) = .ok (b, rest) ↔ _
  rw [bind_eq_ok, Prod.exists]

theorem pure_eq_some {a b : α} {bytes rest : List UInt8} :
    (pure a : Reader ε α) bytes = .ok (b, rest) ↔ a = b ∧ bytes = rest := by
  show (Except.ok (a, bytes) : Except ε _) = .ok (b, rest) ↔ _
  rw [Except.ok.injEq, Prod.mk.injEq]

/-- A check that reads nothing. -/
def check (x : Except ε α) : Reader ε α := fun bytes => x.map fun a => (a, bytes)

theorem check_eq_some {x : Except ε α} {a : α} {bytes rest : List UInt8} :
    check x bytes = .ok (a, rest) ↔ x = .ok a ∧ bytes = rest := by
  rcases x with e | b
  all_goals simp [check, Except.map]

/-! ### Bytes and numbers -/

/-- The next `n` bytes. -/
def take (n : ℕ) (error : ε) : Reader ε (List UInt8) := fun bytes =>
  if bytes.length < n then .error error else .ok (bytes.take n, bytes.drop n)

theorem reads_take (n : ℕ) (error : ε) :
    Reads (take n error) (fun bytes => bytes) fun bytes => bytes.length = n := by
  intro bytes a rest
  show take n error bytes = .ok (a, rest) ↔ a.length = n ∧ bytes = a ++ rest
  unfold take
  split_ifs with hshort
  · constructor
    · intro h
      cases h
    · rintro ⟨hlength, rfl⟩
      rw [length_append] at hshort
      omega
  · rw [Except.ok.injEq, Prod.mk.injEq]
    constructor
    · rintro ⟨rfl, rfl⟩
      rw [length_take, take_append_drop]
      exact ⟨by omega, rfl⟩
    · rintro ⟨rfl, rfl⟩
      exact ⟨take_left, drop_left⟩

/-- The number written in the bytes, the least significant byte first. -/
def ofLittleEndian (bytes : List UInt8) : ℕ := ofBigEndian bytes.reverse

theorem ofBigEndian_concat (bytes : List UInt8) (byte : UInt8) :
    ofBigEndian (bytes ++ [byte]) = 256 * ofBigEndian bytes + byte.toNat := by
  unfold ofBigEndian
  rw [foldl_append]
  rfl

theorem bigEndian_ofBigEndian : ∀ {w : ℕ} {bytes : List UInt8}, bytes.length = w →
    ofBigEndian bytes < 256 ^ w ∧ bigEndian w (ofBigEndian bytes) = bytes
  | 0, bytes, h => by
    rw [length_eq_zero_iff] at h
    subst h
    exact ⟨by decide, rfl⟩
  | w + 1, bytes, h => by
    rcases eq_nil_or_concat bytes with rfl | ⟨front, byte, rfl⟩
    · rw [length_nil] at h
      omega
    · rw [concat_eq_append] at h ⊢
      have hfront : front.length = w := by
        rw [length_append, length_singleton] at h
        omega
      obtain ⟨hlt, hfront⟩ := bigEndian_ofBigEndian hfront
      have hbyte := byte.toNat_lt
      rw [ofBigEndian_concat, bigEndian]
      constructor
      · rw [pow_succ]
        omega
      · have hdiv : (256 * ofBigEndian front + byte.toNat) / 256 = ofBigEndian front := by omega
        have hlow : UInt8.ofNat (256 * ofBigEndian front + byte.toNat) = byte := by
          apply UInt8.toNat_inj.mp
          rw [UInt8.toNat_ofNat']
          omega
        rw [hdiv, hfront, hlow]

theorem ofLittleEndian_littleEndian {w n : ℕ} (h : n < 256 ^ w) :
    ofLittleEndian (littleEndian w n) = n := by
  unfold ofLittleEndian littleEndian
  rw [reverse_reverse, ofBigEndian_bigEndian h]

/-- The next number of `w` bytes. -/
def readNumber (w : ℕ) (error : ε) : Reader ε ℕ := do
  let bytes ← take w error
  pure (ofLittleEndian bytes)

theorem reads_number (w : ℕ) (error : ε) :
    Reads (readNumber w error) (littleEndian w) fun n => n < 256 ^ w := by
  intro bytes n rest
  simp only [readNumber, bind_eq_some, pure_eq_some, reads_take w error _ _ _]
  constructor
  · rintro ⟨word, _, ⟨hlength, rfl⟩, rfl, rfl⟩
    have hword := @bigEndian_ofBigEndian w word.reverse (by rw [length_reverse]; exact hlength)
    refine ⟨hword.1, ?_⟩
    unfold littleEndian ofLittleEndian
    rw [hword.2, reverse_reverse]
  · rintro ⟨hlt, rfl⟩
    exact ⟨littleEndian w n, rest, ⟨length_littleEndian w n, rfl⟩, ofLittleEndian_littleEndian hlt,
      rfl⟩

/-- A byte string after its length. -/
def readBlock (w : ℕ) (lengthError error : ε) : Reader ε (List UInt8) := do
  let n ← readNumber w lengthError
  take n error

/-! ### Sequences -/

/-- So many values, one after another. -/
def readMany (read : Reader ε α) : ℕ → Reader ε (List α)
  | 0 => pure []
  | n + 1 => do
    let a ← read
    let rest ← readMany read n
    pure (a :: rest)

theorem reads_many {read : Reader ε α} {write : α → List UInt8} {p : α → Prop}
    (h : Reads read write p) : ∀ n : ℕ, Reads (readMany read n) (fun values => values.flatMap write)
      fun values => values.length = n ∧ ∀ a ∈ values, p a
  | 0 => by
    intro bytes values rest
    simp only [readMany, pure_eq_some, length_eq_zero_iff]
    constructor
    · rintro ⟨rfl, rfl⟩
      exact ⟨⟨rfl, fun _ h => absurd h not_mem_nil⟩, rfl⟩
    · rintro ⟨⟨rfl, -⟩, rfl⟩
      exact ⟨rfl, rfl⟩
  | n + 1 => by
    intro bytes values rest
    simp only [readMany, bind_eq_some, pure_eq_some, h _ _ _, reads_many h n _ _ _]
    constructor
    · rintro ⟨a, _, ⟨ha, rfl⟩, tail, _, ⟨⟨hlength, htail⟩, rfl⟩, rfl, rfl⟩
      refine ⟨⟨by rw [length_cons, hlength], List.forall_mem_cons.mpr ⟨ha, htail⟩⟩, ?_⟩
      rw [flatMap_cons, append_assoc]
    · rintro ⟨⟨hlength, hall⟩, rfl⟩
      rcases values with _ | ⟨a, tail⟩
      · rw [length_nil] at hlength
        omega
      · obtain ⟨ha, htail⟩ := List.forall_mem_cons.mp hall
        rw [length_cons, Nat.add_right_cancel_iff] at hlength
        refine ⟨a, _, ⟨ha, ?_⟩, tail, rest, ⟨⟨hlength, htail⟩, rfl⟩, rfl, rfl⟩
        rw [flatMap_cons, append_assoc]

end Pandora.Lib.Readers
