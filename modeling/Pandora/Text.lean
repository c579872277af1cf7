import Pandora.Lib.Codes

/-! # Text and digests

The operations on text the stores use: `trim` and `is_control` follow the Unicode properties the
standard library documents (`White_Space`, and the general category `Cc`), the length of a text is
its length in UTF-8. SHA-256 is a parameter: a function from byte strings to 32 bytes, written out
in lower-case hexadecimal. -/

namespace Pandora.Text

open Lib.Codes List

/-- `char::is_whitespace`. -/
def isWhitespace (c : Char) : Bool :=
  let n := c.toNat
  (0x9 ≤ n && n ≤ 0xD) || n == 0x20 || n == 0x85 || n == 0xA0 || n == 0x1680 ||
    (0x2000 ≤ n && n ≤ 0x200A) || n == 0x2028 || n == 0x2029 || n == 0x202F || n == 0x205F ||
    n == 0x3000

/-- `char::is_control`. -/
def isControl (c : Char) : Bool :=
  let n := c.toNat
  n ≤ 0x1F || (0x7F ≤ n && n ≤ 0x9F)

/-- `str::trim`. -/
def trim (s : String) : String :=
  String.ofList ((s.toList.dropWhile isWhitespace).reverse.dropWhile isWhitespace).reverse

/-- `str::strip_prefix`. -/
def strip (front text : String) : Option String :=
  if front.toList.isPrefixOf text.toList then
    some (.ofList (text.toList.drop front.toList.length))
  else none

/-- The number written with the given digits. -/
def digitsValue (digits : List Char) : ℕ :=
  digits.foldl (fun n c => 10 * n + (c.toNat - 48)) 0

/-- `parse` of an unsigned type with the given number of bits: digits, after a plus sign if there
is one. -/
def parseUnsigned (bits : ℕ) (text : String) : Option ℕ :=
  let digits := match text.toList with
    | '+' :: digits => digits
    | digits => digits
  if digits ≠ [] ∧ digits.all Char.isDigit ∧ digitsValue digits < 2 ^ bits then
    some (digitsValue digits)
  else none

/-- `str::as_bytes`. -/
def asBytes (s : String) : List UInt8 := s.toByteArray.data.toList

instance lawfulChars : LawfulBEq (List Char) := inferInstance

/-- `[u8; 32]`. -/
structure Bytes32 where
  bytes : List UInt8
  length_eq : bytes.length = 32
deriving DecidableEq

theorem length_zeroBytes : (List.replicate 32 (0 : UInt8)).length = 32 := rfl

/-- SHA-256: the code that computes it is not part of the repository. -/
abbrev Sha256 := List UInt8 → Bytes32

/-- A hexadecimal digit, in lower case. -/
def hexDigit (n : ℕ) : Char := if n < 10 then Char.ofNat (48 + n) else Char.ofNat (87 + n)

/-- `format!("{byte:02x}")`. -/
def hexByte (b : UInt8) : List Char := [hexDigit (b.toNat / 16), hexDigit (b.toNat % 16)]

/-- The bytes in hexadecimal. -/
def hex (bytes : List UInt8) : String := String.ofList (bytes.flatMap hexByte)

/-- Only the digits and the letters from `a` to `f`. -/
def isLowerHex (bytes : List UInt8) : Bool :=
  bytes.all fun b => (0x30 ≤ b && b ≤ 0x39) || (0x61 ≤ b && b ≤ 0x66)

/-- The value of a hexadecimal digit. -/
def decodeHex (b : UInt8) : UInt8 := if b ≤ 0x39 then b - 0x30 else b - 0x61 + 10

/-- The bytes of a hexadecimal text. -/
def decodeHexPairs : List UInt8 → List UInt8
  | high :: low :: rest => (decodeHex high <<< 4 ||| decodeHex low) :: decodeHexPairs rest
  | _ => []

/-- The `n` bytes written in hexadecimal, in lower case. -/
def decodeFixed (n : ℕ) (value : String) : Option (List UInt8) :=
  if (asBytes value).length = n * 2 ∧ isLowerHex (asBytes value) then
    some (decodeHexPairs (asBytes value))
  else none

theorem forall_mem_dropWhile {α : Type} {p : α → Bool} {l : List α}
    (h : ∀ a ∈ l.dropWhile p, p a) : l.dropWhile p = [] := by
  rw [← dropWhile_idempotent]
  exact dropWhile_eq_nil_iff.mpr h

theorem trim_trim_nonblank {s : String} (h : ¬ (trim s).isEmpty) : ¬ (trim (trim s)).isEmpty := by
  intro hblank
  refine h ?_
  unfold trim at hblank ⊢
  rw [String.isEmpty_iff, String.ofList_eq_empty_iff, reverse_eq_nil_iff] at hblank ⊢
  rw [String.toList_ofList, dropWhile_eq_nil_iff] at hblank
  have hfront : ∀ c ∈ (((s.toList.dropWhile isWhitespace).reverse.dropWhile
      isWhitespace).reverse.dropWhile isWhitespace), isWhitespace c :=
    fun c hc => hblank c (mem_reverse.mpr hc)
  have hnil := dropWhile_eq_nil_iff.mp (forall_mem_dropWhile hfront)
  exact forall_mem_dropWhile fun c hc => hnil c (mem_reverse.mpr hc)

theorem trim_trim (s : String) : trim (trim s) = trim s := by
  have hkeep : ∀ l : List Char, ((l.dropWhile isWhitespace).rdropWhile isWhitespace).dropWhile
      isWhitespace = (l.dropWhile isWhitespace).rdropWhile isWhitespace := by
    intro l
    rcases hfront : l.dropWhile isWhitespace with _ | ⟨c, rest⟩
    · rfl
    · have hc : isWhitespace c = false := by
        have hhead := List.head?_dropWhile_not isWhitespace l
        rw [hfront] at hhead
        simpa using hhead
      obtain ⟨tail, htail⟩ := rdropWhile_prefix isWhitespace (l := c :: rest)
      rcases hkept : (c :: rest).rdropWhile isWhitespace with _ | ⟨d, kept⟩
      · rfl
      · rw [hkept, cons_append] at htail
        obtain rfl := (List.cons.inj htail).1
        exact dropWhile_cons_of_neg (by rw [hc]; decide)
  unfold trim
  rw [String.toList_ofList]
  show String.ofList (((s.toList.dropWhile isWhitespace).rdropWhile isWhitespace).dropWhile
    isWhitespace |>.rdropWhile isWhitespace) = String.ofList
      ((s.toList.dropWhile isWhitespace).rdropWhile isWhitespace)
  rw [hkeep, rdropWhile_idempotent]

theorem mem_of_mem_trim {s : String} {c : Char} (h : c ∈ (trim s).toList) : c ∈ s.toList := by
  unfold trim at h
  rw [String.toList_ofList, mem_reverse] at h
  have hfront := mem_reverse.mp ((dropWhile_sublist _).subset h)
  exact (dropWhile_sublist _).subset hfront

theorem trim_eq_self {s : String} (h : ∀ c ∈ s.toList, isWhitespace c = false) : trim s = s := by
  have hkeep : ∀ l : List Char, (∀ c ∈ l, isWhitespace c = false) →
      l.dropWhile isWhitespace = l := by
    intro l hl
    cases l with
    | nil => rfl
    | cons c l => exact dropWhile_cons_of_neg (by rw [hl c mem_cons_self]; decide)
  unfold trim
  rw [hkeep _ h, hkeep _ fun c hc => h c (mem_reverse.mp hc), reverse_reverse,
    String.ofList_toList]

theorem asBytes_inj {s t : String} (h : asBytes s = asBytes t) : s = t := by
  have hdata : s.toByteArray.data = t.toByteArray.data := Array.toList_inj.mp h
  exact String.toByteArray_inj.mp (ByteArray.ext hdata)

theorem asBytes_append (s t : String) : asBytes (s ++ t) = asBytes s ++ asBytes t := by
  simp [asBytes]

theorem length_asBytes (s : String) : (asBytes s).length = s.utf8ByteSize := by
  simp [asBytes]

theorem strip_append (front text : String) : strip front (front ++ text) = some text := by
  unfold strip
  rw [String.toList_append, if_pos (by simp), drop_left, String.ofList_toList]

theorem hexDigit_inj : ∀ n < 16, ∀ m < 16, hexDigit n = hexDigit m → n = m := by decide

theorem prefixCode_hexByte : PrefixCode (fun _ => True) hexByte := by
  refine PrefixCode.of_length (n := 2) (fun _ _ => rfl) fun a b _ _ h => ?_
  have ha := a.toNat_lt
  have hb := b.toNat_lt
  simp only [hexByte, List.cons.injEq, and_true] at h
  have hhigh := hexDigit_inj _ (by omega) _ (by omega) h.1
  have hlow := hexDigit_inj _ (by omega) _ (by omega) h.2
  exact UInt8.toNat_inj.mp (by omega)

theorem hex_inj {a b : List UInt8} (h : hex a = hex b) : a = b := by
  have hchars := String.ofList_injective h
  exact prefixCode_hexByte.flatMap_inj (by simp [hexByte]) (fun _ _ => trivial)
    (fun _ _ => trivial) hchars

/-! ### Numbers in decimal -/

theorem toList_toString (n : ℕ) : (toString n).toList = Nat.toDigits 10 n := by
  rw [Nat.toString_eq_ofList_toDigits, String.toList_ofList]

theorem toString_inj {n m : ℕ} (h : toString n = toString m) : n = m := by
  have hdigits : Nat.toDigits 10 n = Nat.toDigits 10 m := by
    rw [← toList_toString, ← toList_toString, h]
  rw [← Nat.ofDigitChars_ten_toDigits (n := n), hdigits, Nat.ofDigitChars_ten_toDigits]

theorem isDigit_of_mem_toString {n : ℕ} {c : Char} (h : c ∈ (toString n).toList) :
    c.isDigit = true := by
  rw [toList_toString] at h
  exact Nat.isDigit_of_mem_toDigits (by decide) (by decide) h

/-! ### The bytes of a hexadecimal text -/

theorem mem_hexChars {bytes : List UInt8} {c : Char} (h : c ∈ bytes.flatMap hexByte) :
    ∃ n < 16, c = hexDigit n := by
  obtain ⟨b, -, hc⟩ := mem_flatMap.mp h
  have hb := b.toNat_lt
  simp only [hexByte, mem_cons, not_mem_nil, or_false] at hc
  rcases hc with rfl | rfl
  · exact ⟨b.toNat / 16, by omega, rfl⟩
  · exact ⟨b.toNat % 16, by omega, rfl⟩

theorem asBytes_ofList (cs : List Char) :
    asBytes (String.ofList cs) = cs.flatMap String.utf8EncodeChar := by
  simp [asBytes, List.utf8Encode]

theorem utf8ByteSize_le_of_sublist {l l' : List Char} (h : l.Sublist l') :
    (String.ofList l).utf8ByteSize ≤ (String.ofList l').utf8ByteSize := by
  rw [← length_asBytes, ← length_asBytes, asBytes_ofList, asBytes_ofList]
  exact (h.flatMap _).length_le

theorem utf8ByteSize_trim_le (s : String) : (trim s).utf8ByteSize ≤ s.utf8ByteSize := by
  have hsub : (((s.toList.dropWhile isWhitespace).reverse.dropWhile
      isWhitespace).reverse).Sublist s.toList := by
    have hback := (dropWhile_sublist (p := isWhitespace)
      (l := (s.toList.dropWhile isWhitespace).reverse)).reverse
    rw [reverse_reverse] at hback
    exact hback.trans (dropWhile_sublist _)
  have hle := utf8ByteSize_le_of_sublist hsub
  rwa [String.ofList_toList] at hle

theorem size_toString {n : ℕ} (h : n < 2 ^ 64) : (toString n).utf8ByteSize ≤ 80 := by
  have hdigits : (Nat.toDigits 10 n).length ≤ 20 :=
    (Nat.length_toDigits_le_iff (by decide) (by decide)).mpr (Nat.lt_of_lt_of_le h (by decide))
  have hchar : ∀ c ∈ Nat.toDigits 10 n, (String.utf8EncodeChar c).length ≤ 4 := by
    intro c _
    rw [String.length_utf8EncodeChar]
    exact Char.utf8Size_le_four c
  rw [← length_asBytes, Nat.toString_eq_ofList_toDigits, asBytes_ofList, length_flatMap]
  have hsum := sum_le_card_nsmul ((Nat.toDigits 10 n).map fun c =>
    (String.utf8EncodeChar c).length) 4 (by simpa using hchar)
  rw [length_map] at hsum
  change _ ≤ (Nat.toDigits 10 n).length * 4 at hsum
  omega

theorem hexDigit_encoded : ∀ n < 16, isLowerHex (String.utf8EncodeChar (hexDigit n)) ∧
    (String.utf8EncodeChar (hexDigit n)).length = 1 ∧ isControl (hexDigit n) = false := by
  decide

theorem isLowerHex_hex (bytes : List UInt8) : isLowerHex (asBytes (hex bytes)) := by
  unfold hex isLowerHex
  rw [asBytes_ofList, all_flatMap, all_eq_true]
  intro c hc
  obtain ⟨n, hn, rfl⟩ := mem_hexChars hc
  exact (hexDigit_encoded n hn).1

theorem length_hex (bytes : List UInt8) : (asBytes (hex bytes)).length = 2 * bytes.length := by
  have hone : ∀ c ∈ bytes.flatMap hexByte, (String.utf8EncodeChar c).length = 1 := by
    intro c hc
    obtain ⟨n, hn, rfl⟩ := mem_hexChars hc
    exact (hexDigit_encoded n hn).2.1
  unfold hex
  rw [asBytes_ofList, length_flatMap, map_congr_left hone, map_const',
    sum_replicate_nat, length_flatMap]
  simp only [hexByte, length_cons, length_nil, map_const', sum_replicate_nat]
  omega

theorem hex_no_control (bytes : List UInt8) : (hex bytes).toList.any isControl = false := by
  unfold hex
  rw [String.toList_ofList, any_eq_false]
  intro c hc
  obtain ⟨n, hn, rfl⟩ := mem_hexChars hc
  rw [(hexDigit_encoded n hn).2.2]
  exact Bool.false_ne_true

theorem Bytes32.ext_bytes {a b : Bytes32} (h : a.bytes = b.bytes) : a = b := by
  cases a; cases b; cases h; rfl

/-! ### Lines -/

def OneLine (s : String) : Prop := '\n' ∉ s.toList

theorem oneLine_toString (n : ℕ) : OneLine (toString n) := by
  intro h
  exact absurd (isDigit_of_mem_toString h) (by decide)

theorem count_oneLine {s : String} : s.toList.count '\n' = 0 ↔ OneLine s := count_eq_zero

theorem line_inj {a b : String} {s t : List Char} (ha : OneLine a) (hb : OneLine b)
    (h : a.toList ++ '\n' :: s = b.toList ++ '\n' :: t) : a = b ∧ s = t := by
  rw [append_cons, append_cons b.toList] at h
  obtain ⟨hab, hst⟩ := prefixCode_terminated '\n' ha hb h
  exact ⟨String.toList_inj.mp hab, hst⟩

/-- The last line ends the text, so that what stands before it may have any lines. -/
theorem last_line_inj {a b : String} {s t : List Char} (ha : OneLine a) (hb : OneLine b)
    (h : s ++ '\n' :: a.toList = t ++ '\n' :: b.toList) : s = t ∧ a = b := by
  have hreverse := congrArg List.reverse h
  rw [reverse_append, reverse_append, reverse_cons, reverse_cons] at hreverse
  obtain ⟨hab, hst⟩ := prefixCode_terminated '\n' (fun hmem => ha (mem_reverse.mp hmem))
    (fun hmem => hb (mem_reverse.mp hmem)) hreverse
  exact ⟨reverse_injective hst, String.toList_inj.mp (reverse_injective hab)⟩

end Pandora.Text
