import Pandora.Vfs.Documents
import Pandora.Lib.Readers

/-! # The index file

The binary format of `context_vfs.rs`: a header, the documents with their vectors, the posting lists
in the order of the terms, and the hash of all this. There are two versions of the format and
both are read. What is read is kept as it stands in the file (`RawIndex`); the maps of the index are
made from it. -/

namespace Pandora.Vfs.IndexFile

open Text Lib.Checked Lib.Codes Lib.Readers Vfs.Documents List

inductive VfsError
  | invalidUri (message : String)
  | notFound (path : String)
  | isADirectory (path : String)
  | backendError (message : String)

def vfsIndexMagic : List UInt8 := asBytes "PVFS"
def vfsIndexVersionV1 : ℕ := 1
def vfsIndexVersionV2 : ℕ := 2
def vfsIndexHeaderSize : ℕ := 68
def vfsIndexTrailerSize : ℕ := 32
def vfsDenseDimension : ℕ := 128
def vfsQuantizedVectorSize : ℕ := 132

def zeroVector : QuantizedVector := ⟨0, List.replicate 128 0, rfl⟩

/-! ## Reading -/

/-- `std::str::from_utf8`. -/
def fromUtf8 (field : String) (bytes : List UInt8) : Except VfsError String :=
  orError (String.fromUTF8? ⟨⟨bytes⟩⟩) (.backendError ("invalid UTF-8 in " ++ field))

/-- A text after its length. -/
def readText (w : ℕ) (field lengthField name : String) : Reader VfsError String := do
  let bytes ← readBlock w (.backendError ("unexpected EOF reading " ++ lengthField))
    (.backendError ("unexpected EOF reading " ++ field))
  check (fromUtf8 name bytes)

/-- A document as it stands in the file. -/
structure RawDoc where
  docId : ℕ
  uriText : String
  uri : ContextUri
  (title content : String)
  (tierByte intentByte : UInt8)
  docLength : ℕ
  vector : QuantizedVector

def RawDoc.doc (raw : RawDoc) : VfsDoc where
  uri := raw.uri
  title := raw.title
  content := raw.content
  tier := u8ToTier raw.tierByte
  intent := u8ToIntent raw.intentByte

/-- The vector of 132 bytes. -/
def vectorOf (bytes : List UInt8) : Option QuantizedVector :=
  if h : ((bytes.drop 4).map UInt8.toInt8).length = 128 then
    some ⟨UInt32.ofNat (ofLittleEndian (bytes.take 4)), (bytes.drop 4).map UInt8.toInt8, h⟩
  else none

def vectorBytes (vector : QuantizedVector) : List UInt8 :=
  littleEndian 4 vector.scale.toNat ++ vector.data.map Int8.toUInt8

theorem QuantizedVector.ext_data {a b : QuantizedVector} (hscale : a.scale = b.scale)
    (hdata : a.data = b.data) : a = b := by
  cases a
  cases b
  cases hscale
  cases hdata
  rfl

theorem vectorOf_eq_some {word : List UInt8} (hlength : word.length = vfsQuantizedVectorSize)
    {vector : QuantizedVector} : vectorOf word = some vector ↔ word = vectorBytes vector := by
  have hback : (List.map UInt8.toInt8 ∘ List.map Int8.toUInt8) = id := by
    funext l
    rw [Function.comp_apply, map_map]
    exact (map_congr_left fun x _ => Int8.toInt8_toUInt8 x).trans (map_id _)
  constructor
  · intro hvector
    unfold vectorOf at hvector
    split_ifs at hvector with hdimension
    rw [Option.some.injEq] at hvector
    subst hvector
    have hscale : (word.take 4).reverse.length = 4 := by
      rw [length_reverse, length_take, hlength]
      decide
    obtain ⟨hlt, hword⟩ := bigEndian_ofBigEndian hscale
    have hnumber : (UInt32.ofNat (ofLittleEndian (word.take 4))).toNat =
        ofLittleEndian (word.take 4) := UInt32.toNat_ofNat_of_lt' hlt
    have hbytes : (word.drop 4).map (Int8.toUInt8 ∘ UInt8.toInt8) = word.drop 4 :=
      (map_congr_left fun x _ => UInt8.toUInt8_toInt8 x).trans (map_id _)
    unfold vectorBytes
    dsimp only
    rw [hnumber, map_map, hbytes]
    unfold littleEndian ofLittleEndian
    rw [hword, reverse_reverse, take_append_drop]
  · rintro rfl
    have hfront : (vectorBytes vector).take 4 = littleEndian 4 vector.scale.toNat :=
      take_left' (length_littleEndian 4 _)
    have hdata : ((vectorBytes vector).drop 4).map UInt8.toInt8 = vector.data := by
      unfold vectorBytes
      rw [drop_left' (length_littleEndian 4 _)]
      exact congrFun hback vector.data
    unfold vectorOf
    rw [dif_pos (by rw [hdata]; exact vector.dimension), Option.some.injEq]
    refine QuantizedVector.ext_data ?_ hdata
    show UInt32.ofNat (ofLittleEndian ((vectorBytes vector).take 4)) = vector.scale
    rw [hfront, ofLittleEndian_littleEndian vector.scale.toNat_lt, UInt32.ofNat_toNat]

theorem length_vectorBytes (vector : QuantizedVector) :
    (vectorBytes vector).length = vfsQuantizedVectorSize := by
  unfold vectorBytes
  rw [length_append, length_littleEndian, length_map, vector.dimension]
  rfl

/-- The first version has 128 numbers in floating point. -/
def readVector (env : VfsEnv) (version : ℕ) : Reader VfsError QuantizedVector := do
  if version = vfsIndexVersionV1 then
    let bytes ← take (128 * 4) (.backendError "unexpected EOF reading dense vector (v1)")
    pure (env.quantize bytes)
  else
    let bytes ← take vfsQuantizedVectorSize
      (.backendError "unexpected EOF reading quantized vector (v2)")
    check (orError (vectorOf bytes) (.backendError "unexpected EOF reading quantized vector (v2)"))

/-- The tier and the intent. -/
def readBytes2 : Reader VfsError (UInt8 × UInt8) := do
  let bytes ← take 2 (.backendError "unexpected EOF reading tier and intent")
  pure (bytes.headD 0, bytes.tail.headD 0)

def readUri (text : String) : Except VfsError ContextUri :=
  (ContextUri.new text).mapError fun _ => .backendError "invalid ContextUri"

def readDoc (env : VfsEnv) (version : ℕ) : Reader VfsError RawDoc := do
  let docId ← readNumber 4 (.backendError "unexpected EOF reading doc_id")
  let uriText ← readText 2 "uri" "uri_len" "URI"
  let uri ← check (readUri uriText)
  let title ← readText 2 "title" "title_len" "title"
  let content ← readText 4 "content" "content_len" "content"
  let (tierByte, intentByte) ← readBytes2
  let docLength ← readNumber 4 (.backendError "unexpected EOF reading doc_length")
  let vector ← readVector env version
  pure { docId, uriText, uri, title, content, tierByte, intentByte, docLength, vector }

def readPosting : Reader VfsError (ℕ × UInt32) := do
  let bytes ← take 8 (.backendError "unexpected EOF reading posting")
  pure (ofLittleEndian (bytes.take 4), UInt32.ofNat (ofLittleEndian (bytes.drop 4)))

def readTerm : Reader VfsError (String × List (ℕ × UInt32)) := do
  let term ← readText 2 "term" "term_len" "term"
  let count ← readNumber 4 (.backendError "unexpected EOF reading postings_count")
  let postings ← readMany readPosting count
  pure (term, postings)

/-- The file as it stands. -/
structure RawIndex where
  version : ℕ
  createdAt : UInt64
  totalTokens : ℕ
  corpusHash : Bytes32
  docs : List RawDoc
  terms : List (String × List (ℕ × UInt32))

/-- The header is there, because the file is long enough. -/
def eof : VfsError := .backendError "index file too short for header and trailer"

def readHash : Reader VfsError Bytes32 := do
  let bytes ← take 32 eof
  check (if h : bytes.length = 32 then .ok ⟨bytes, h⟩ else .error eof)

def readIndex (env : VfsEnv) : Reader VfsError RawIndex := do
  let magic ← take 4 eof
  check (ensure (magic = vfsIndexMagic) (.backendError "invalid index magic: expected PVFS"))
  let version ← readNumber 4 eof
  check (ensure (version = vfsIndexVersionV1 ∨ version = vfsIndexVersionV2)
    (.backendError ("unsupported index version: " ++ toString version)))
  let createdAt ← readNumber 8 eof
  let docCount ← readNumber 4 eof
  let denseDim ← readNumber 4 eof
  check (ensure (denseDim = vfsDenseDimension)
    (.backendError ("unexpected dense dimension " ++ toString denseDim ++ ", expected 128")))
  let totalTokens ← readNumber 8 eof
  let vocabSize ← readNumber 4 eof
  let corpusHash ← readHash
  let docs ← readMany (readDoc env version) docCount
  let terms ← readMany readTerm vocabSize
  pure { version, createdAt := .ofNat createdAt, totalTokens, corpusHash, docs, terms }

/-- The file is read to its end. -/
def parseVfsIndex (env : VfsEnv) (bytes : List UInt8) : Except VfsError RawIndex := do
  ensure (vfsIndexHeaderSize + vfsIndexTrailerSize ≤ bytes.length) eof
  let payloadLen := bytes.length - vfsIndexTrailerSize
  let payload := bytes.take payloadLen
  ensure ((env.sha payload).bytes = bytes.drop payloadLen)
    (.backendError "index integrity verification failed: SHA-256 checksum mismatch")
  let (raw, rest) ← readIndex env payload
  ensure (rest = []) (.backendError ("index parsing incomplete: cursor at " ++
    toString (payloadLen - rest.length) ++ ", expected " ++ toString payloadLen))
  pure raw

structure DeserializedVfsIndex where
  version : ℕ
  createdAt : UInt64
  corpusHash : Bytes32
  docs : List VfsDoc
  docVectors : List (ℕ × QuantizedVector)
  bm25 : SparseBm25Index

def RawIndex.index (raw : RawIndex) : DeserializedVfsIndex where
  version := raw.version
  createdAt := raw.createdAt
  corpusHash := raw.corpusHash
  docs := raw.docs.map (·.doc)
  docVectors := raw.docs.map fun doc => (doc.docId, doc.vector)
  bm25 := {
    postings := .ofList raw.terms
    docLengths := .ofList (raw.docs.map fun doc => (doc.docId, doc.docLength))
    docCount := raw.docs.length
    totalTokens := raw.totalTokens }

def deserializeVfsIndex (env : VfsEnv) (bytes : List UInt8) :
    Except VfsError DeserializedVfsIndex := do
  let raw ← parseVfsIndex env bytes
  pure raw.index

end Pandora.Vfs.IndexFile
