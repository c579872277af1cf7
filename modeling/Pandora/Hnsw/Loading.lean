import Pandora.Hnsw.Pvhn
import Pandora.Hnsw.Insertion

/-! # An index is loaded

What is loaded has links between its nodes only, and an entry point (`loaded_linked`). What is
stored is loaded as it was if its numbers fit the format (`Storable`). -/

namespace Pandora.Hnsw

open Text Lib.Checked Lib.Codes Lib.Readers Vfs.IndexFile List

variable {bytes rest : List UInt8} {n w : ℕ}

/-! ### Numbers -/

theorem bigEndian_mod : ∀ w n : ℕ, bigEndian w (n % 256 ^ w) = bigEndian w n
  | 0, _ => rfl
  | w + 1, n => by
    have hlow : UInt8.ofNat (n % 256 ^ (w + 1)) = UInt8.ofNat n := by
      apply UInt8.toNat_inj.mp
      rw [UInt8.toNat_ofNat', UInt8.toNat_ofNat', pow_succ', Nat.mod_mul_right_mod]
    rw [bigEndian, bigEndian, hlow, pow_succ', Nat.mod_mul_right_div_self, bigEndian_mod w]

theorem littleEndian_mod (w n : ℕ) : littleEndian w (n % 256 ^ w) = littleEndian w n := by
  unfold littleEndian
  rw [bigEndian_mod]

theorem reads_word (w : ℕ) : Reads (readWord w) (littleEndian w) fun n => n < 256 ^ w :=
  reads_number w _

theorem readWord_ok (w n : ℕ) (rest : List UInt8) :
    readWord w (littleEndian w n ++ rest) = .ok (n % 256 ^ w, rest) := by
  rw [reads_word w _ _ _, littleEndian_mod]
  exact ⟨Nat.mod_lt _ (Nat.pow_pos (by decide)), rfl⟩

theorem take_ok {front : List UInt8} (hlength : front.length = n) (rest : List UInt8) :
    take n HnswError.truncatedData (front ++ rest) = .ok (front, rest) := by
  rw [reads_take n _ _ _ _]
  exact ⟨hlength, rfl⟩

theorem require_eq_some {u : Unit} :
    require n bytes = .ok (u, rest) ↔ n ≤ bytes.length ∧ bytes = rest := by
  unfold require
  split_ifs with hroom
  · rw [Except.ok.injEq, Prod.mk.injEq]
    exact ⟨fun h => ⟨hroom, h.2⟩, fun h => ⟨rfl, h.2⟩⟩
  · exact ⟨nofun, fun h => absurd h.1 hroom⟩

/-! ### The header -/

/-- An entry point is a node, and there is none without nodes. -/
def EntryFits (n : ℕ) : Option ℕ → Prop
  | none => n = 0
  | some entry => entry < n ∧ entry ≠ 2 ^ 32 - 1

theorem entryOf_eq_ok {word : ℕ} {entry : Option ℕ} :
    entryOf n word = .ok entry ↔ word = entryWord entry ∧ EntryFits n entry := by
  unfold entryOf
  constructor
  · intro h
    split_ifs at h with hnone hsome hout
    · rw [← Except.ok.inj h]
      exact ⟨hnone, Nat.eq_zero_of_not_pos hsome⟩
    · rw [← Except.ok.inj h]
      exact ⟨rfl, Nat.lt_of_not_le hout, hnone⟩
  · rintro ⟨rfl, hfits⟩
    cases entry with
    | none =>
      have hn : ¬ 0 < n := Nat.not_lt.mpr (le_of_eq hfits)
      rw [entryWord, if_pos rfl, if_neg hn]
    | some entry => rw [entryWord, if_neg hfits.2, if_neg (Nat.not_le.mpr hfits.1)]

theorem reads_hash : Reads readHash Bytes32.bytes fun _ => True := by
  intro bytes hash rest
  simp only [readHash, bind_eq_some, reads_take _ _ _ _ _, check_eq_some, true_and]
  constructor
  · rintro ⟨word, _, ⟨hlength, rfl⟩, hhash, rfl⟩
    rw [dif_pos hlength, Except.ok.injEq] at hhash
    rw [← hhash]
  · rintro rfl
    refine ⟨hash.bytes, rest, ⟨hash.length_eq, rfl⟩, ?_, rfl⟩
    rw [dif_pos hash.length_eq]

theorem readHeader_entry {header : Header} (h : readHeader bytes = .ok (header, rest)) :
    EntryFits header.nodeCount header.entryPoint := by
  unfold readHeader at h
  simp only [bind_eq_some, pure_eq_some, check_eq_some] at h
  obtain ⟨_, _, -, _, _, -, _, _, -, _, _, -, _, _, -, nodeCount, _, -, _, _, -, _, _, -, _, _, -,
    _, _, -, _, _, -, _, _, -, _, _, -, _, _, -, _, _, -, _, _, -, entry, _, ⟨hentry, -⟩, _, _, -,
    _, _, -, rfl, -⟩ := h
  exact (entryOf_eq_ok.mp hentry).2

namespace HnswIndex

variable {sha : Sha256} {floats : FloatEnv} {g : HnswIndex HnswVector}

/-- The header of an index. -/
def header (floats : FloatEnv) (g : HnswIndex HnswVector) : Header where
  createdAtUnix := g.createdAtUnix.toNat
  nodeCount := g.nodes.length
  m := g.config.m % 2 ^ 16
  mMax0 := g.config.mMax0 % 2 ^ 16
  efConstruction := g.config.efConstruction % 2 ^ 32
  ml := (floats.narrow g.config.ml).toNat
  maxLevel := g.maxLevel
  entryPoint := g.entryPoint
  corpusHash := g.corpusHash

theorem readHeader_headerBytes (hcount : g.nodes.length < 2 ^ 32) (hlevel : g.maxLevel < 2 ^ 32)
    (hentry : EntryFits g.nodes.length g.entryPoint) (rest : List UInt8) :
    readHeader (g.headerBytes floats ++ rest) = .ok (g.header floats, rest) := by
  have hword : entryWord g.entryPoint < 256 ^ 4 := by
    rcases he : g.entryPoint with _ | entry
    · decide
    · rw [he] at hentry
      exact lt_trans hentry.1 hcount
  have hcreated : g.createdAtUnix.toNat < 256 ^ 8 := g.createdAtUnix.toNat_lt
  have hml : (floats.narrow g.config.ml).toNat < 256 ^ 4 := UInt32.toNat_lt _
  unfold readHeader headerBytes
  simp only [append_assoc]
  refine bind_eq_some.mpr ⟨_, _, take_ok rfl _, ?_⟩
  refine bind_eq_some.mpr ⟨(), _, check_eq_some.mpr ⟨ensure_eq_ok.mpr rfl, rfl⟩, ?_⟩
  refine bind_eq_some.mpr ⟨_, _, readWord_ok _ _ _, ?_⟩
  refine bind_eq_some.mpr ⟨(), _, check_eq_some.mpr ⟨ensure_eq_ok.mpr rfl, rfl⟩, ?_⟩
  iterate 3 refine bind_eq_some.mpr ⟨_, _, readWord_ok _ _ _, ?_⟩
  refine bind_eq_some.mpr ⟨(), _, check_eq_some.mpr ⟨ensure_eq_ok.mpr rfl, rfl⟩, ?_⟩
  iterate 8 refine bind_eq_some.mpr ⟨_, _, readWord_ok _ _ _, ?_⟩
  rw [Nat.mod_eq_of_lt hcreated, Nat.mod_eq_of_lt (show g.nodes.length < 256 ^ 4 from hcount),
    Nat.mod_eq_of_lt hml, Nat.mod_eq_of_lt (show g.maxLevel < 256 ^ 4 from hlevel),
    Nat.mod_eq_of_lt hword]
  refine bind_eq_some.mpr ⟨_, _, check_eq_some.mpr ⟨entryOf_eq_ok.mpr ⟨rfl, hentry⟩, rfl⟩, ?_⟩
  refine bind_eq_some.mpr ⟨_, _, (reads_hash _ _ _).mpr ⟨trivial, rfl⟩, ?_⟩
  refine bind_eq_some.mpr ⟨_, _, take_ok rfl _, ?_⟩
  exact pure_eq_some.mpr ⟨rfl, rfl⟩

end HnswIndex

/-! ### The tables -/

theorem reads_meta : Reads readMeta (fun entry => metaBytes entry.1 entry.2) fun entry =>
    entry.2 < 256 ^ 4 := by
  rintro bytes ⟨docId, level⟩ rest
  simp only [readMeta, bind_eq_some, reads_word _ _ _ _, pure_eq_some, Prod.mk.injEq, metaBytes]
  constructor
  · rintro ⟨word, _, ⟨hword, rfl⟩, _, _, ⟨hlevel, rfl⟩, ⟨rfl, rfl⟩, rfl⟩
    refine ⟨hlevel, ?_⟩
    rw [UInt64.toNat_ofNat_of_lt' hword, append_assoc]
  · rintro ⟨hlevel, rfl⟩
    refine ⟨docId.toNat, _, ⟨docId.toNat_lt, append_assoc _ _ _⟩, level, rest,
      ⟨hlevel, rfl⟩, ⟨?_, rfl⟩, rfl⟩
    rw [UInt64.ofNat_toNat]

theorem reads_bits : Reads readBits (fun bits => littleEndian 4 bits.toNat) fun _ => True := by
  intro bytes bits rest
  simp only [readBits, bind_eq_some, reads_word _ _ _ _, pure_eq_some, true_and]
  constructor
  · rintro ⟨word, _, ⟨hword, rfl⟩, rfl, rfl⟩
    rw [UInt32.toNat_ofNat_of_lt' hword]
  · rintro rfl
    exact ⟨bits.toNat, rest, ⟨bits.toNat_lt, rfl⟩, UInt32.ofNat_toNat, rfl⟩

theorem reads_hnswVector : Reads readVector hnswVectorBytes fun _ => True := by
  intro bytes vector rest
  unfold readVector
  simp only [bind_eq_some, reads_word _ _ _ _, true_and]
  constructor
  · rintro ⟨tag, _, ⟨-, rfl⟩, h⟩
    split_ifs at h with hf32 hquantized
    · simp only [bind_eq_some, reads_many reads_bits _ _ _ _, check_eq_some] at h
      obtain ⟨data, _, ⟨⟨hlength, -⟩, rfl⟩, hvector, rfl⟩ := h
      rw [dif_pos hlength, Except.ok.injEq] at hvector
      rw [← hvector, hf32]
      rfl
    · simp only [bind_eq_some, reads_take _ _ _ _ _, check_eq_some, orError_eq_ok,
        pure_eq_some] at h
      obtain ⟨word, _, ⟨hlength, rfl⟩, quantized, _, ⟨hvector, rfl⟩, rfl, rfl⟩ := h
      rw [(vectorOf_eq_some hlength).mp hvector, hquantized]
      rfl
    · rw [check_eq_some] at h
      cases h.1
  · rintro rfl
    cases vector with
    | f32 vector =>
      refine ⟨1, f32Bytes vector ++ rest, ⟨by decide, rfl⟩, ?_⟩
      rw [if_pos rfl]
      refine bind_eq_some.mpr ⟨vector.data, rest, (reads_many reads_bits _ _ _ _).mpr
        ⟨⟨vector.dimension, fun _ _ => trivial⟩, rfl⟩, check_eq_some.mpr ⟨?_, rfl⟩⟩
      rw [dif_pos vector.dimension]
    | quantized vector =>
      have hlength := length_vectorBytes vector
      refine ⟨2, vectorBytes vector ++ rest, ⟨by decide, rfl⟩, ?_⟩
      rw [if_neg (by decide), if_pos rfl]
      refine bind_eq_some.mpr ⟨_, rest, take_ok hlength rest, ?_⟩
      refine bind_eq_some.mpr ⟨vector, rest, check_eq_some.mpr
        ⟨orError_eq_ok.mpr ((vectorOf_eq_some hlength).mpr rfl), rfl⟩, ?_⟩
      exact pure_eq_some.mpr ⟨rfl, rfl⟩

theorem reads_id (n : ℕ) : Reads (readId n) (littleEndian 4) fun id => id < 256 ^ 4 ∧ id < n := by
  intro bytes id rest
  simp only [readId, bind_eq_some, reads_word _ _ _ _, check_eq_some, pure_eq_some, ensure_eq_ok]
  constructor
  · rintro ⟨_, _, ⟨hword, rfl⟩, _, _, ⟨hlt, rfl⟩, rfl, rfl⟩
    exact ⟨⟨hword, hlt⟩, rfl⟩
  · rintro ⟨⟨hword, hlt⟩, rfl⟩
    exact ⟨id, rest, ⟨hword, rfl⟩, (), rest, ⟨hlt, rfl⟩, rfl, rfl⟩

/-- The ids of a layer fit. -/
def LayerFits (n : ℕ) (ids : List ℕ) : Prop :=
  ids.length < 256 ^ 4 ∧ ∀ id ∈ ids, id < 256 ^ 4 ∧ id < n

theorem length_flatMap_of_forall {α β : Type} {f : α → List β} {k : ℕ} : ∀ {items : List α},
    (∀ a ∈ items, (f a).length = k) → (items.flatMap f).length = items.length * k
  | [], _ => by simp
  | a :: items, h => by
    rw [forall_mem_cons] at h
    rw [flatMap_cons, length_append, h.1, length_flatMap_of_forall h.2, length_cons]
    ring

theorem reads_layer (n : ℕ) : Reads (readLayer n) layerBytes (LayerFits n) := by
  intro bytes ids rest
  simp only [readLayer, bind_eq_some, reads_word _ _ _ _, require_eq_some,
    reads_many (reads_id n) _ _ _ _, layerBytes, LayerFits]
  constructor
  · rintro ⟨_, _, ⟨hdegree, rfl⟩, _, _, ⟨-, rfl⟩, ⟨rfl, hids⟩, rfl⟩
    exact ⟨⟨hdegree, hids⟩, by rw [append_assoc]⟩
  · rintro ⟨⟨hdegree, hids⟩, rfl⟩
    refine ⟨ids.length, _, ⟨hdegree, append_assoc _ _ _⟩, (), _, ⟨?_, rfl⟩, ⟨rfl, hids⟩, rfl⟩
    rw [length_append, length_flatMap_of_forall fun id _ => length_littleEndian 4 id]
    exact Nat.le_add_right _ _

def LayersFit (n : ℕ) (layers : List (List ℕ)) : Prop :=
  layers.length < 256 ^ 4 ∧ ∀ ids ∈ layers, LayerFits n ids

theorem reads_layers (n : ℕ) : Reads (readLayers n) layersBytes (LayersFit n) := by
  intro bytes layers rest
  simp only [readLayers, bind_eq_some, reads_word _ _ _ _, reads_many (reads_layer n) _ _ _ _,
    layersBytes, LayersFit]
  constructor
  · rintro ⟨_, _, ⟨hcount, rfl⟩, ⟨rfl, hlayers⟩, rfl⟩
    exact ⟨⟨hcount, hlayers⟩, by rw [append_assoc]⟩
  · rintro ⟨⟨hcount, hlayers⟩, rfl⟩
    exact ⟨layers.length, _, ⟨hcount, append_assoc _ _ _⟩, ⟨rfl, hlayers⟩, rfl⟩

/-- The nodes are put together from as many entries of each table. -/
theorem assemble_eq_ok : ∀ {i : ℕ} {metas : List (UInt64 × ℕ)} {vectors : List HnswVector}
    {neighbors : List (List (List ℕ))} {nodes : List (HnswNode HnswVector)},
    metas.length = vectors.length → metas.length = neighbors.length →
    (assemble i metas vectors neighbors = .ok nodes ↔
      metas = nodes.map (fun node => (node.docId, node.level)) ∧
      vectors = nodes.map HnswNode.vector ∧ neighbors = nodes.map HnswNode.neighbors ∧
      nodes.map HnswNode.id = List.range' i nodes.length)
  | i, [], vectors, neighbors, nodes, hvectors, hneighbors => by
    rw [eq_nil_of_length_eq_zero hvectors.symm, eq_nil_of_length_eq_zero hneighbors.symm,
      assemble, Except.ok.injEq]
    constructor
    · rintro rfl
      exact ⟨rfl, rfl, rfl, rfl⟩
    · rintro ⟨hmetas, -⟩
      exact (map_eq_nil_iff.mp hmetas.symm).symm
  | i, (docId, level) :: metas, vector :: vectors, layers :: neighbors, nodes, hvectors,
      hneighbors => by
    rw [length_cons, length_cons, Nat.add_right_cancel_iff] at hvectors hneighbors
    rw [assemble, bind_eq_ok]
    simp only [assemble_eq_ok hvectors hneighbors, pure_eq_ok]
    constructor
    · rintro ⟨rest, ⟨rfl, rfl, rfl, hids⟩, rfl⟩
      refine ⟨rfl, rfl, rfl, ?_⟩
      rw [map_cons, hids, length_cons, List.range'_succ]
    · rintro ⟨hmetas, hvector, hlayers, hids⟩
      rcases nodes with _ | ⟨node, rest⟩
      · cases hmetas
      · rw [map_cons, List.cons.injEq] at hmetas hvector hlayers
        rw [map_cons, length_cons, List.range'_succ, List.cons.injEq] at hids
        refine ⟨rest, ⟨hmetas.2, hvector.2, hlayers.2, hids.2⟩, ?_⟩
        cases node
        cases hmetas.1
        cases hvector.1
        cases hlayers.1
        cases hids.1
        rfl

theorem length_metaBytes (docId : UInt64) (level : ℕ) : (metaBytes docId level).length = 12 := by
  unfold metaBytes
  rw [length_append, length_littleEndian, length_littleEndian]

theorem le_length_hnswVectorBytes : ∀ vector, 133 ≤ (hnswVectorBytes vector).length
  | .f32 vector => by
    have hlength := @length_flatMap_of_forall _ _ (fun bits : UInt32 => littleEndian 4 bits.toNat) 4
      vector.data fun bits _ => length_littleEndian 4 bits.toNat
    rw [vector.dimension] at hlength
    rw [hnswVectorBytes, f32Bytes, length_cons, hlength]
    decide
  | .quantized vector => by
    rw [hnswVectorBytes, length_cons, length_vectorBytes]
    exact le_refl _

theorem le_length_layersBytes (layers : List (List ℕ)) : 4 ≤ (layersBytes layers).length := by
  unfold layersBytes
  rw [length_append, length_littleEndian]
  exact Nat.le_add_right _ _

theorem le_length_tablesBytes : ∀ nodes : List (HnswNode HnswVector),
    nodes.length * 149 ≤ (tablesBytes nodes).length
  | [] => Nat.zero_le _
  | node :: nodes => by
    have hmore := le_length_tablesBytes nodes
    have hvector := le_length_hnswVectorBytes node.vector
    have hlayers := le_length_layersBytes node.neighbors
    unfold tablesBytes at hmore ⊢
    simp only [flatMap_cons, length_append, length_cons, length_metaBytes] at hmore ⊢
    omega

theorem readNodes_eq_ok {metas : List (UInt64 × ℕ)} {vectors : List HnswVector}
    {neighbors : List (List (List ℕ))}
    (h : readNodes n bytes = .ok ((metas, vectors, neighbors), rest)) :
    metas.length = n ∧ vectors.length = n ∧ neighbors.length = n ∧
      ∀ layers ∈ neighbors, LayersFit n layers := by
  unfold readNodes at h
  simp only [bind_eq_some, pure_eq_some, require_eq_some, reads_many reads_meta _ _ _ _,
    reads_many reads_hnswVector _ _ _ _, reads_many (reads_layers n) _ _ _ _, Prod.mk.injEq] at h
  obtain ⟨_, _, -, _, _, ⟨⟨hmetas, -⟩, -⟩, _, _, ⟨⟨hvectors, -⟩, -⟩, _, _,
    ⟨⟨hneighbors, hfit⟩, -⟩, ⟨rfl, rfl, rfl⟩, -⟩ := h
  exact ⟨hmetas, hvectors, hneighbors, hfit⟩

namespace HnswIndex

variable {sha : Sha256} {floats : FloatEnv} {g : HnswIndex HnswVector}

/-! ### What is loaded -/

/-- **What is loaded** has links between its nodes, and its entry point. -/
theorem loaded_linked (h : fromPvhnBytes sha floats bytes = .ok g) :
    g.Linked ∧ g.Lists False := by
  unfold fromPvhnBytes at h
  simp only [bind_eq_ok, ensure_eq_ok, pure_eq_ok, Prod.exists] at h
  obtain ⟨_, -, _, -, header, afterHeader, hheader, metas, vectors, neighbors, rest, hnodes, _, -,
    nodes, hassemble, rfl⟩ := h
  obtain ⟨hmetas, hvectors, hneighbors, hfit⟩ := readNodes_eq_ok hnodes
  obtain ⟨rfl, -, rfl, -⟩ := (assemble_eq_ok (hmetas.trans hvectors.symm)
    (hmetas.trans hneighbors.symm)).mp hassemble
  rw [length_map] at hmetas
  have hentry := readHeader_entry hheader
  rw [← hmetas] at hfit hentry
  have hlinks : ∀ (i l : ℕ) (ids : List ℕ), Option.bind nodes[i]?
      (fun node : HnswNode HnswVector => node.neighbors[l]?) = some ids →
      ∀ x ∈ ids, x < nodes.length := by
    intro i l ids hids x hx
    obtain ⟨node, hnode, hlayer⟩ := Option.bind_eq_some_iff.mp hids
    have hlayers := hfit node.neighbors (mem_map_of_mem (mem_of_getElem? hnode))
    exact ((hlayers.2 ids (mem_of_getElem? hlayer)).2 x hx).2
  refine ⟨⟨fun hne => ?_, fun e he => ?_, hlinks⟩, fun i l ids hids => ?_⟩
  · dsimp only at hne ⊢
    rcases he : header.entryPoint with _ | entry
    · rw [he] at hentry
      exact absurd (eq_nil_of_length_eq_zero hentry) hne
    · exact ⟨entry, rfl⟩
  · dsimp only at he
    rw [he] at hentry
    exact hentry.1
  · exact ⟨fun x hx => ⟨hlinks i l ids hids x hx, False.elim⟩, False.elim⟩

/-! ### What is stored -/

/-- The numbers of the index fit the format. -/
structure Storable (g : HnswIndex HnswVector) : Prop where
  count : g.nodes.length < 2 ^ 32
  maxLevel : g.maxLevel < 2 ^ 32
  entry : EntryFits g.nodes.length g.entryPoint
  docIds : g.docIds = g.nodes.map HnswNode.docId
  ids : g.nodes.map HnswNode.id = List.range' 0 g.nodes.length
  levels : ∀ node ∈ g.nodes, node.level < 2 ^ 32
  lists : ∀ node ∈ g.nodes, LayersFit g.nodes.length node.neighbors

/-- The configuration after it was stored. -/
def reloadedConfig (floats : FloatEnv) (config : HnswConfig) : HnswConfig where
  m := config.m % 2 ^ 16
  mMax0 := config.mMax0 % 2 ^ 16
  efConstruction := config.efConstruction % 2 ^ 32
  efSearch := defaultHnswEfSearch
  ml := floats.widen (floats.narrow config.ml)

theorem readNodes_tablesBytes (hg : g.Storable) :
    readNodes g.nodes.length (tablesBytes g.nodes) =
      .ok ((g.nodes.map (fun node => (node.docId, node.level)), g.nodes.map HnswNode.vector,
        g.nodes.map HnswNode.neighbors), []) := by
  have hsize := le_length_tablesBytes g.nodes
  have htables : tablesBytes g.nodes = (g.nodes.map fun node => (node.docId, node.level)).flatMap
          (fun entry => metaBytes entry.1 entry.2) ++
        ((g.nodes.map HnswNode.vector).flatMap hnswVectorBytes ++
          ((g.nodes.map HnswNode.neighbors).flatMap layersBytes ++ [])) := by
    unfold tablesBytes
    rw [flatMap_map, flatMap_map, flatMap_map, append_nil, append_assoc]
  unfold readNodes
  refine bind_eq_some.mpr ⟨(), _, require_eq_some.mpr ⟨hsize, rfl⟩, ?_⟩
  rw [htables]
  refine bind_eq_some.mpr ⟨_, _, (reads_many reads_meta _ _ _ _).mpr
    ⟨⟨length_map _, ?_⟩, rfl⟩, ?_⟩
  · intro entry hentry
    obtain ⟨node, hnode, rfl⟩ := mem_map.mp hentry
    exact hg.levels node hnode
  refine bind_eq_some.mpr ⟨_, _, (reads_many reads_hnswVector _ _ _ _).mpr
    ⟨⟨length_map _, fun _ _ => trivial⟩, rfl⟩, ?_⟩
  refine bind_eq_some.mpr ⟨_, [], (reads_many (reads_layers _) _ _ _ _).mpr
    ⟨⟨length_map _, ?_⟩, rfl⟩, ?_⟩
  · intro layers hlayers
    obtain ⟨node, hnode, rfl⟩ := mem_map.mp hlayers
    exact hg.lists node hnode
  exact pure_eq_some.mpr ⟨rfl, rfl⟩

theorem length_headerBytes : (g.headerBytes floats).length = pvhnHeaderSize := by
  unfold headerBytes
  simp only [length_append, length_littleEndian, g.corpusHash.length_eq]
  rfl

/-- **What is stored is loaded** as it was, but for the configuration. -/
theorem fromPvhnBytes_toPvhnBytes (sha : Sha256) (floats : FloatEnv) (hg : g.Storable) :
    fromPvhnBytes sha floats (g.toPvhnBytes sha floats) =
      .ok { g with config := reloadedConfig floats g.config } := by
  have htrailer : (sha (g.payload floats)).bytes.length = pvhnTrailerSize :=
    (sha (g.payload floats)).length_eq
  have hlength : (g.toPvhnBytes sha floats).length =
      (g.payload floats).length + pvhnTrailerSize := by
    unfold toPvhnBytes
    rw [length_append, htrailer]
  have hsize : pvhnHeaderSize + pvhnTrailerSize ≤ (g.toPvhnBytes sha floats).length := by
    rw [hlength]
    unfold payload
    rw [length_append, length_headerBytes]
    omega
  have hpayload : (g.toPvhnBytes sha floats).take
      ((g.toPvhnBytes sha floats).length - pvhnTrailerSize) = g.payload floats := by
    rw [hlength, Nat.add_sub_cancel]
    exact take_left
  have hrest : (g.toPvhnBytes sha floats).drop
      ((g.toPvhnBytes sha floats).length - pvhnTrailerSize) = (sha (g.payload floats)).bytes := by
    rw [hlength, Nat.add_sub_cancel]
    exact drop_left
  have hassemble : assemble 0 (g.nodes.map fun node => (node.docId, node.level))
      (g.nodes.map HnswNode.vector) (g.nodes.map HnswNode.neighbors) = .ok g.nodes :=
    (assemble_eq_ok (by simp) (by simp)).mpr ⟨rfl, rfl, rfl, hg.ids⟩
  unfold fromPvhnBytes
  simp only [bind_eq_ok, ensure_eq_ok, pure_eq_ok]
  refine ⟨(), hsize, (), ?_, (g.header floats, tablesBytes g.nodes), ?_, _,
    readNodes_tablesBytes hg, (), rfl, g.nodes, hassemble, ?_⟩
  · rw [hpayload, hrest]
  · rw [hpayload]
    exact readHeader_headerBytes hg.count hg.maxLevel hg.entry _
  · unfold reloadedConfig header
    dsimp only
    rw [UInt32.ofNat_toNat, UInt64.ofNat_toNat, map_map, hg.docIds]
    rfl

end HnswIndex

end Pandora.Hnsw
