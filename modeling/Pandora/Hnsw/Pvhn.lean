import Pandora.Hnsw.Index
import Pandora.Vfs.IndexFile

/-! # The binary format of the graph index

`to_pvhn_bytes` and `from_pvhn_bytes`: a header of 80 bytes, the documents and levels of the nodes,
their vectors, their lists layer by layer, and the hash of all this. What is read of a node is
`RawNode`; the index is put together from these. An allocation that fails is not modelled. -/

namespace Pandora.Hnsw

open Text Lib.Checked Lib.Codes Lib.Readers Vfs.Documents Vfs.IndexFile

inductive HnswError
  | invalidMagic
  | unsupportedVersion (version : ℕ)
  | dimensionMismatch (dimension : ℕ)
  | checksumMismatch
  | truncatedData
  | invalidData (message : String)

def pvhnMagic : List UInt8 := asBytes "PVHN"
def pvhnVersion : ℕ := 1
def pvhnHeaderSize : ℕ := 80
def pvhnTrailerSize : ℕ := 32
def defaultHnswEfSearch : ℕ := 64
def denseDimension : ℕ := 128

/-- `[f32; 128]`, the numbers by their bits. -/
structure F32Vector where
  data : List UInt32
  dimension : data.length = denseDimension
deriving DecidableEq

inductive HnswVector
  | f32 (vector : F32Vector)
  | quantized (vector : QuantizedVector)
deriving DecidableEq

/-- The conversions between `f64` and `f32`, by the bits. -/
structure FloatEnv where
  narrow : UInt64 → UInt32
  widen : UInt32 → UInt64

/-! ## Writing -/

def HnswVector.isF32 : HnswVector → Bool
  | .f32 _ => true
  | .quantized _ => false

/-- `HnswVectorType`: 1 for numbers, 2 for quantized vectors, 3 for both. -/
def vectorType (nodes : List (HnswNode HnswVector)) : ℕ :=
  if nodes = [] then 2
  else if nodes.any (·.vector.isF32) ∧ nodes.any (!·.vector.isF32) then 3
  else if nodes.any (·.vector.isF32) then 1
  else 2

/-- No entry point is written as the greatest number. -/
def entryWord : Option ℕ → ℕ
  | some entry => entry
  | none => 2 ^ 32 - 1

def metaBytes (docId : UInt64) (level : ℕ) : List UInt8 :=
  littleEndian 8 docId.toNat ++ littleEndian 4 level

def f32Bytes (vector : F32Vector) : List UInt8 :=
  vector.data.flatMap fun bits => littleEndian 4 bits.toNat

def hnswVectorBytes : HnswVector → List UInt8
  | .f32 vector => 1 :: f32Bytes vector
  | .quantized vector => 2 :: vectorBytes vector

def layerBytes (ids : List ℕ) : List UInt8 :=
  littleEndian 4 ids.length ++ ids.flatMap (littleEndian 4)

def layersBytes (layers : List (List ℕ)) : List UInt8 :=
  littleEndian 4 layers.length ++ layers.flatMap layerBytes

def tablesBytes (nodes : List (HnswNode HnswVector)) : List UInt8 :=
  nodes.flatMap (fun node => metaBytes node.docId node.level) ++
    nodes.flatMap (fun node => hnswVectorBytes node.vector) ++
    nodes.flatMap fun node => layersBytes node.neighbors

namespace HnswIndex

def headerBytes (floats : FloatEnv) (g : HnswIndex HnswVector) : List UInt8 :=
  pvhnMagic ++ littleEndian 4 pvhnVersion ++ littleEndian 8 g.createdAtUnix.toNat ++
    littleEndian 4 g.nodes.length ++ littleEndian 4 denseDimension ++
    littleEndian 1 (vectorType g.nodes) ++ littleEndian 1 0 ++ littleEndian 2 g.config.m ++
    littleEndian 2 g.config.mMax0 ++ littleEndian 4 g.config.efConstruction ++
    littleEndian 4 (floats.narrow g.config.ml).toNat ++ littleEndian 4 g.maxLevel ++
    littleEndian 4 (entryWord g.entryPoint) ++ g.corpusHash.bytes ++ [0, 0]

def payload (floats : FloatEnv) (g : HnswIndex HnswVector) : List UInt8 :=
  g.headerBytes floats ++ tablesBytes g.nodes

/-- The conversions to `u32` and `u16` cut the number. -/
def toPvhnBytes (sha : Sha256) (floats : FloatEnv) (g : HnswIndex HnswVector) : List UInt8 :=
  g.payload floats ++ (sha (g.payload floats)).bytes

end HnswIndex

/-! ## Reading -/

/-- A check that there are so many bytes left. -/
def require (n : ℕ) : Reader HnswError Unit := fun bytes =>
  if n ≤ bytes.length then .ok ((), bytes) else .error .truncatedData

def readWord (w : ℕ) : Reader HnswError ℕ := readNumber w .truncatedData

def entryOf (nodeCount word : ℕ) : Except HnswError (Option ℕ) :=
  if word = 2 ^ 32 - 1 then
    if 0 < nodeCount then .error (.invalidData "missing entry point for non-empty index")
    else .ok none
  else if nodeCount ≤ word then
    .error (.invalidData ("entry_point " ++ toString word ++ " out of bounds (node_count = " ++
      toString nodeCount ++ ")"))
  else .ok (some word)

def readHash : Reader HnswError Bytes32 := do
  let bytes ← take 32 .truncatedData
  check (if h : bytes.length = 32 then .ok ⟨bytes, h⟩ else .error .truncatedData)

/-- What is used of the header. -/
structure Header where
  (createdAtUnix nodeCount m mMax0 efConstruction ml maxLevel : ℕ)
  entryPoint : Option ℕ
  corpusHash : Bytes32

def readHeader : Reader HnswError Header := do
  let magic ← take 4 .truncatedData
  check (ensure (magic = pvhnMagic) .invalidMagic)
  let version ← readWord 4
  check (ensure (version = pvhnVersion) (.unsupportedVersion version))
  let createdAtUnix ← readWord 8
  let nodeCount ← readWord 4
  let denseDim ← readWord 4
  check (ensure (denseDim = denseDimension) (.dimensionMismatch denseDim))
  let _vectorType ← readWord 1
  let _flags ← readWord 1
  let m ← readWord 2
  let mMax0 ← readWord 2
  let efConstruction ← readWord 4
  let ml ← readWord 4
  let maxLevel ← readWord 4
  let word ← readWord 4
  let entryPoint ← check (entryOf nodeCount word)
  let corpusHash ← readHash
  let _reserved ← take 2 .truncatedData
  pure { createdAtUnix, nodeCount, m, mMax0, efConstruction, ml, maxLevel, entryPoint, corpusHash }

def readMeta : Reader HnswError (UInt64 × ℕ) := do
  let docId ← readWord 8
  let level ← readWord 4
  pure (.ofNat docId, level)

def readBits : Reader HnswError UInt32 := do
  let bits ← readWord 4
  pure (.ofNat bits)

def readVector : Reader HnswError HnswVector := do
  let tag ← readWord 1
  if tag = 1 then
    let data ← readMany readBits denseDimension
    check (if h : data.length = denseDimension then .ok (.f32 ⟨data, h⟩)
      else .error .truncatedData)
  else if tag = 2 then
    let bytes ← take vfsQuantizedVectorSize .truncatedData
    let vector ← check (orError (vectorOf bytes) .truncatedData)
    pure (.quantized vector)
  else check (.error (.invalidData ("unknown vector tag in PVHN: " ++ toString tag)))

def readId (nodeCount : ℕ) : Reader HnswError ℕ := do
  let id ← readWord 4
  check (ensure (id < nodeCount) (.invalidData ("neighbor ID " ++ toString id ++
    " out of bounds (node_count = " ++ toString nodeCount ++ ")")))
  pure id

def readLayer (nodeCount : ℕ) : Reader HnswError (List ℕ) := do
  let degree ← readWord 4
  require (degree * 4)
  readMany (readId nodeCount) degree

def readLayers (nodeCount : ℕ) : Reader HnswError (List (List ℕ)) := do
  let numLayers ← readWord 4
  readMany (readLayer nodeCount) numLayers

/-- The nodes from number `i` on. -/
def assemble : ℕ → List (UInt64 × ℕ) → List HnswVector → List (List (List ℕ)) →
    Except HnswError (List (HnswNode HnswVector))
  | _, [], _, _ => .ok []
  | _, _ :: _, [], _ => .error (.invalidData "vector missing for node")
  | _, _ :: _, _ :: _, [] => .error (.invalidData "neighbors missing for node")
  | i, (docId, level) :: metas, vector :: vectors, neighbors :: rest => do
    let nodes ← assemble (i + 1) metas vectors rest
    pure (⟨i, docId, level, vector, neighbors⟩ :: nodes)

/-- A node takes 149 bytes at least. -/
def readNodes (nodeCount : ℕ) :
    Reader HnswError (List (UInt64 × ℕ) × List HnswVector × List (List (List ℕ))) := do
  require (nodeCount * 149)
  let metas ← readMany readMeta nodeCount
  let vectors ← readMany readVector nodeCount
  let neighbors ← readMany (readLayers nodeCount) nodeCount
  pure (metas, vectors, neighbors)

namespace HnswIndex

/-- The payload is read to its end. -/
def fromPvhnBytes (sha : Sha256) (floats : FloatEnv) (bytes : List UInt8) :
    Except HnswError (HnswIndex HnswVector) := do
  ensure (pvhnHeaderSize + pvhnTrailerSize ≤ bytes.length) .truncatedData
  let payloadLen := bytes.length - pvhnTrailerSize
  let payload := bytes.take payloadLen
  ensure ((sha payload).bytes = bytes.drop payloadLen) .checksumMismatch
  let (header, afterHeader) ← readHeader payload
  let ((metas, vectors, neighbors), rest) ← readNodes header.nodeCount afterHeader
  ensure (rest = []) (.invalidData ("trailing payload bytes: " ++
    toString (payloadLen - rest.length) ++ " != " ++ toString payloadLen))
  let nodes ← assemble 0 metas vectors neighbors
  pure {
    config := {
      m := header.m
      mMax0 := header.mMax0
      efConstruction := header.efConstruction
      efSearch := defaultHnswEfSearch
      ml := floats.widen (.ofNat header.ml) }
    entryPoint := header.entryPoint
    maxLevel := header.maxLevel
    nodes := nodes
    docIds := metas.map (·.1)
    corpusHash := header.corpusHash
    createdAtUnix := .ofNat header.createdAtUnix }

end HnswIndex

end Pandora.Hnsw
