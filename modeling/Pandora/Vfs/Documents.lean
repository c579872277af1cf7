import Pandora.Context.Fragments
import Pandora.Memory.Sop
import Pandora.Lib.SortedMaps

/-! # Documents and their index

The documents of `context_vfs.rs`, addressed by URIs of the scheme `pandora`, and the inverted index
of `semantic_memory.rs` over their terms.

The character classes of the standard library and the vectors, which are computed in floating point,
are parameters. Hash maps are maps without an order, as `SortedMap`. -/

namespace Pandora.Vfs.Documents

open Text Lib.Checked Lib.SortedMaps
open Context.Fragments (ContextContractError startsWith)
open Memory.Sop (MemoryIntent)
open Cron (splitAt)

/-! ## Addresses -/

def uriScheme : String := "pandora://"

/-- What follows the scheme. -/
def uriPath (text : String) : String := .ofList (text.toList.drop uriScheme.toList.length)

/-- The text that `ContextUri::new` keeps. -/
def normalizeUri (uri : String) : Except ContextContractError String := do
  let trimmed := trim uri
  ensure (startsWith uriScheme trimmed) (.invalidUri "URI must start with 'pandora://'")
  ensure (¬ trimmed.toList.any isControl) (.controlCharacter "uri")
  ensure (trimmed.utf8ByteSize ≤ 1024) (.fieldTooLong "uri")
  ensure ('\\' ∉ trimmed.toList) (.invalidUri "URI must not contain backslashes")
  ensure (¬ (splitAt '/' (uriPath trimmed)).any fun segment => segment = "." || segment = "..")
    (.invalidUri "URI must not contain path traversal segments ('.' or '..')")
  pure trimmed

structure ContextUri where
  text : String
  ok : normalizeUri text = .ok text
deriving DecidableEq

theorem ContextUri.ext_text {a b : ContextUri} (h : a.text = b.text) : a = b := by
  cases a
  cases b
  cases h
  rfl

theorem normalizeUri_idem {uri text : String} (h : normalizeUri uri = .ok text) :
    normalizeUri text = .ok text := by
  unfold normalizeUri at h ⊢
  simp only [bind_eq_ok, ensure_eq_ok, exists_const, pure_eq_ok] at h ⊢
  obtain ⟨hscheme, hcontrol, hsize, hslash, hsegments, rfl⟩ := h
  rw [trim_trim]
  exact ⟨hscheme, hcontrol, hsize, hslash, hsegments, rfl⟩

def ContextUri.new (uri : String) : Except ContextContractError ContextUri :=
  match h : normalizeUri uri with
  | .ok text => .ok ⟨text, normalizeUri_idem h⟩
  | .error error => .error error

theorem ContextUri.size (address : ContextUri) : address.text.utf8ByteSize ≤ 1024 := by
  have hok := address.ok
  unfold normalizeUri at hok
  simp only [bind_eq_ok, ensure_eq_ok, exists_const, pure_eq_ok] at hok
  obtain ⟨-, -, hsize, -, -, htrim⟩ := hok
  rw [htrim] at hsize
  exact hsize

/-! ## Terms -/

/-- The character classes of the standard library, and `str::to_lowercase`. -/
structure CharTables where
  (isAlphanumeric isLowercase isUppercase : Char → Bool)
  toLowercase : String → String

/-! ## The inverted index -/

structure SparseBm25Index where
  postings : SortedMap String (List (ℕ × UInt32))
  docLengths : SortedMap ℕ ℕ
  (docCount totalTokens : ℕ)

/-! ## Documents -/

inductive MemoryTier
  | l0 | l1 | l2 | l3 | l4
deriving DecidableEq

structure VfsDoc where
  uri : ContextUri
  (title content : String)
  tier : Option MemoryTier
  intent : Option MemoryIntent
deriving DecidableEq

/-- A vector in eight bits: the bits of its scale and the 128 components. -/
structure QuantizedVector where
  scale : UInt32
  data : List Int8
  dimension : data.length = 128
deriving DecidableEq

/-- The hash, the character classes and the vectors: of a content, and of the 128 numbers in
floating point of an older file. -/
structure VfsEnv where
  sha : Sha256
  tables : CharTables
  vectorize : String → QuantizedVector
  quantize : List UInt8 → QuantizedVector

def tierToU8 : Option MemoryTier → UInt8
  | none => 0
  | some .l0 => 1
  | some .l1 => 2
  | some .l2 => 3
  | some .l3 => 4
  | some .l4 => 5

def u8ToTier (val : UInt8) : Option MemoryTier :=
  match val.toNat with
  | 1 => some .l0
  | 2 => some .l1
  | 3 => some .l2
  | 4 => some .l3
  | 5 => some .l4
  | _ => none

def intentToU8 : Option MemoryIntent → UInt8
  | none => 0
  | some .repo => 1
  | some .procedure => 2
  | some .coding => 3
  | some .user => 4

def u8ToIntent (val : UInt8) : Option MemoryIntent :=
  match val.toNat with
  | 1 => some .repo
  | 2 => some .procedure
  | 3 => some .coding
  | 4 => some .user
  | _ => none

end Pandora.Vfs.Documents
