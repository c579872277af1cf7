import Pandora.Lib.OrderedSets
import Pandora.Lib.Runs
import Pandora.Lib.Tables
import Pandora.Swarm.Clocks
import Pandora.Text

/-! # Gossip

`BloomFilter` and `GossipNode` of `swarm_mesh.rs`, and a mesh of such nodes: every target that a
node returns is sent the message, and the messages in flight are delivered in any order. The peers
are a set; sorting its elements gives its increasing list. -/

namespace Pandora.Swarm.Gossip

open Lib.Tables Lib.Runs Lib.Codes Lib.OrderedSets Text Swarm.Clocks List

/-! ### Bloom filters -/

/-- The bits of the messages seen. -/
structure BloomFilter where
  bits : List UInt64
  (numBits hashFunctions : ℕ)
  numBits_eq : numBits = bits.length * 64
  numBits_pos : 0 < numBits

namespace BloomFilter

def new (numBits hashFunctions : ℕ) : BloomFilter where
  bits := List.replicate ((max numBits 64 + 63) / 64) 0
  numBits := (max numBits 64 + 63) / 64 * 64
  hashFunctions := max hashFunctions 1
  numBits_eq := by rw [List.length_replicate]
  numBits_pos := by omega

def mask (bitIdx : ℕ) : UInt64 := 1 <<< UInt64.ofNat (bitIdx % 64)

def setBit (f : BloomFilter) (bitIdx : ℕ) : BloomFilter where
  bits := f.bits.set (bitIdx / 64) (f.bits.getD (bitIdx / 64) 0 ||| mask bitIdx)
  numBits := f.numBits
  hashFunctions := f.hashFunctions
  numBits_eq := by rw [List.length_set]; exact f.numBits_eq
  numBits_pos := f.numBits_pos

def bit (f : BloomFilter) (bitIdx : ℕ) : Bool := f.bits.getD (bitIdx / 64) 0 &&& mask bitIdx ≠ 0

variable (sha : Sha256)

/-- Double hashing: `g_i(x) = h_1(x) + i * h_2(x) mod m`. -/
def hashPair (item : List UInt8) : UInt64 × UInt64 :=
  let digest := (sha item).bytes
  let h1 := UInt64.ofNat (ofBigEndian (digest.take 8))
  let h2 := UInt64.ofNat (ofBigEndian ((digest.drop 8).take 8))
  (h1, if h2 = 0 then 1 else h2)

def bitIdx (numBits : ℕ) (item : List UInt8) (i : ℕ) : ℕ :=
  let (h1, h2) := hashPair sha item
  (h1 + UInt64.ofNat i * h2).toNat % numBits

def insert (f : BloomFilter) (item : List UInt8) : BloomFilter :=
  (List.range f.hashFunctions).foldl (fun g i => g.setBit (bitIdx sha f.numBits item i)) f

def contains (f : BloomFilter) (item : List UInt8) : Bool :=
  (List.range f.hashFunctions).all fun i => f.bit (bitIdx sha f.numBits item i)

theorem mask_ne_zero (idx : ℕ) : mask idx ≠ 0 := by
  have hlt : idx % 64 < 64 := Nat.mod_lt _ (by decide)
  unfold mask
  generalize idx % 64 = k at hlt
  revert k
  decide

theorem or_and_ne_zero {w m : UInt64} (h : w &&& m ≠ 0) (x : UInt64) : (w ||| x) &&& m ≠ 0 := by
  have hdistrib : (w ||| x) &&& m = (w &&& m) ||| (x &&& m) :=
    UInt64.toBitVec_inj.mp BitVec.and_or_distrib_right
  rw [hdistrib, Ne, UInt64.or_eq_zero_iff]
  exact fun hzero => h hzero.1

theorem getD_setBit (f : BloomFilter) (idx other : ℕ) :
    (f.setBit other).bits.getD (idx / 64) 0 = f.bits.getD (idx / 64) 0 ∨
      (f.setBit other).bits.getD (idx / 64) 0 = f.bits.getD (idx / 64) 0 ||| mask other := by
  unfold setBit
  simp only [getD_eq_getElem?_getD, List.getElem?_set]
  by_cases hword : other / 64 = idx / 64
  · rw [if_pos hword, hword]
    by_cases hlt : idx / 64 < f.bits.length
    · rw [if_pos hlt]
      exact Or.inr rfl
    · rw [if_neg hlt, List.getElem?_eq_none (Nat.le_of_not_lt hlt)]
      exact Or.inl rfl
  · rw [if_neg hword]
    exact Or.inl rfl

theorem bit_setBit_of_bit {f : BloomFilter} {idx : ℕ} (h : f.bit idx = true) (other : ℕ) :
    (f.setBit other).bit idx = true := by
  unfold bit at h ⊢
  rw [decide_eq_true_iff] at h ⊢
  rcases getD_setBit f idx other with hword | hword
  · rw [hword]
    exact h
  · rw [hword]
    exact or_and_ne_zero h _

theorem bit_setBit {f : BloomFilter} {idx : ℕ} (h : idx < f.numBits) :
    (f.setBit idx).bit idx = true := by
  have hlt : idx / 64 < f.bits.length := by
    rw [f.numBits_eq] at h
    omega
  have hword : (f.setBit idx).bits.getD (idx / 64) 0 = f.bits.getD (idx / 64) 0 ||| mask idx := by
    unfold setBit
    rw [getD_eq_getElem?_getD, List.getElem?_set_self hlt]
    rfl
  have hmask : mask idx &&& mask idx ≠ 0 := by
    rw [UInt64.and_self]
    exact mask_ne_zero idx
  unfold bit
  rw [decide_eq_true_iff, hword, UInt64.or_comm]
  exact or_and_ne_zero hmask _

theorem bit_insertRange {f : BloomFilter} {idx : ℕ → ℕ} {b : ℕ} :
    ∀ {is : List ℕ}, f.bit b = true → (is.foldl (fun g i => g.setBit (idx i)) f).bit b = true := by
  intro is
  induction is generalizing f with
  | nil => exact id
  | cons i is ih => exact fun h => ih (bit_setBit_of_bit h _)

theorem sizes_insertRange (idx : ℕ → ℕ) (is : List ℕ) (f : BloomFilter) :
    (is.foldl (fun g i => g.setBit (idx i)) f).numBits = f.numBits ∧
      (is.foldl (fun g i => g.setBit (idx i)) f).hashFunctions = f.hashFunctions := by
  induction is generalizing f with
  | nil => exact ⟨rfl, rfl⟩
  | cons i is ih => exact ih (f.setBit (idx i))

theorem bit_insertRange_self {idx : ℕ → ℕ} {i : ℕ} : ∀ {is : List ℕ} {f : BloomFilter},
    i ∈ is → idx i < f.numBits → (is.foldl (fun g i => g.setBit (idx i)) f).bit (idx i) = true
  | j :: is, f, hi, hlt => by
    rw [foldl_cons]
    rcases List.mem_cons.mp hi with rfl | hi
    · exact bit_insertRange (bit_setBit hlt)
    · exact bit_insertRange_self hi hlt

/-- **No false negatives**: an item that was inserted is found. -/
theorem contains_insert (f : BloomFilter) (item : List UInt8) :
    (f.insert sha item).contains sha item = true := by
  unfold contains insert
  obtain ⟨hbits, hhash⟩ := sizes_insertRange (bitIdx sha f.numBits item)
    (List.range f.hashFunctions) f
  rw [hbits, hhash, all_eq_true]
  intro i hi
  exact bit_insertRange_self hi (Nat.mod_lt _ f.numBits_pos)

theorem contains_insert_of_contains {f : BloomFilter} {item : List UInt8}
    (h : f.contains sha item = true) (other : List UInt8) :
    (f.insert sha other).contains sha item = true := by
  unfold contains insert at *
  obtain ⟨hbits, hhash⟩ := sizes_insertRange (bitIdx sha f.numBits other)
    (List.range f.hashFunctions) f
  rw [hbits, hhash, all_eq_true]
  rw [all_eq_true] at h
  intro i hi
  exact bit_insertRange (h i hi)

end BloomFilter

/-! ### Nodes -/

structure GossipMessage where
  (id originNode : String)
  payload : List UInt8
  vectorClock : VectorClock
  (hopCount maxHops : UInt32)
deriving DecidableEq

/-- The message as it was published, whatever hops a copy of it has made. -/
def GossipMessage.publication (msg : GossipMessage) : GossipMessage := { msg with hopCount := 0 }

/-- A node with its clock, its filter and its messages. -/
structure GossipNode where
  nodeId : String
  clock : VectorClock
  filter : BloomFilter
  knownPeers : OrderedSet String
  fanout : ℕ
  messageStore : List GossipMessage

namespace GossipNode

def new (nodeId : String) (fanout : ℕ) : GossipNode :=
  ⟨nodeId, .new, .new 2048 7, .empty, max fanout 1, []⟩

def addPeer (node : GossipNode) (peerId : String) : GossipNode :=
  if peerId ≠ node.nodeId then { node with knownPeers := node.knownPeers.insert peerId } else node

def selectGossipTargets (node : GossipNode) (exclude : List String) : List String :=
  (node.knownPeers.elems.filter fun peer => !exclude.contains peer).take node.fanout

variable (sha : Sha256)

def publish (node : GossipNode) (payload : List UInt8) (maxHops : UInt32) :
    GossipNode × GossipMessage × List String :=
  let clock := node.clock.increment node.nodeId
  let digest := sha (asBytes node.nodeId ++ payload ++ bigEndian 8 (clock.get node.nodeId))
  let id := hex digest.bytes
  let msg : GossipMessage := ⟨id, node.nodeId, payload, clock, 0, maxHops⟩
  let node := { node with
    clock := clock
    filter := node.filter.insert sha (asBytes id)
    messageStore := node.messageStore ++ [msg] }
  (node, msg, node.selectGossipTargets [])

/-- Process received gossip frame. Returns targets to forward to, or `none` if discarded. -/
def receive (node : GossipNode) (msg : GossipMessage) : GossipNode × Option (List String) :=
  if node.filter.contains sha (asBytes msg.id) then (node, none)
  else
    let clock := (node.clock.merge msg.vectorClock).increment node.nodeId
    let stored := { msg with hopCount := msg.hopCount + 1 }
    let shouldForward := stored.hopCount < stored.maxHops
    let targets := if shouldForward then node.selectGossipTargets [msg.originNode] else []
    ({ node with
        clock := clock
        filter := node.filter.insert sha (asBytes msg.id)
        messageStore := node.messageStore ++ [stored] },
      if shouldForward ∧ targets ≠ [] then some targets else none)

/-- The node after a message that it has not seen. -/
def accept (node : GossipNode) (msg : GossipMessage) : GossipNode :=
  { node with
    clock := (node.clock.merge msg.vectorClock).increment node.nodeId
    filter := node.filter.insert sha (asBytes msg.id)
    messageStore := node.messageStore ++ [{ msg with hopCount := msg.hopCount + 1 }] }

/-- The nodes that a message is forwarded to. -/
def forwards (node : GossipNode) (msg : GossipMessage) : List String :=
  if msg.hopCount + 1 < msg.maxHops then node.selectGossipTargets [msg.originNode] else []

theorem receive_of_seen {node : GossipNode} {msg : GossipMessage}
    (h : node.filter.contains sha (asBytes msg.id) = true) :
    node.receive sha msg = (node, none) := by
  unfold receive
  rw [if_pos h]

theorem receive_of_new {node : GossipNode} {msg : GossipMessage}
    (h : node.filter.contains sha (asBytes msg.id) = false) :
    (node.receive sha msg).1 = node.accept sha msg ∧
      (node.receive sha msg).2.getD [] = node.forwards msg := by
  unfold receive
  rw [if_neg (by rw [h]; exact Bool.false_ne_true)]
  refine ⟨rfl, ?_⟩
  unfold forwards
  by_cases hhops : msg.hopCount + 1 < msg.maxHops
  · simp only [hhops, if_true, true_and]
    by_cases hnone : node.selectGossipTargets [msg.originNode] = []
    all_goals simp [hnone]
  · simp [hhops]

/-- The node holds a copy of the published message. -/
def Holds (node : GossipNode) (msg : GossipMessage) : Prop :=
  ∃ stored ∈ node.messageStore, stored.publication = msg.publication

end GossipNode

/-! ### A mesh -/

/-- A message on its way to a node. -/
structure Packet where
  target : String
  message : GossipMessage

/-- The nodes and the messages in flight. -/
structure Mesh where
  nodes : Table GossipNode.nodeId
  inFlight : List Packet

/-- A node that has received a message passes on the copy it was sent or the one it has stored,
which has made one hop more. -/
inductive Copy
  | sent | stored

def Copy.of (copy : Copy) (msg : GossipMessage) : GossipMessage :=
  match copy with
  | .sent => msg
  | .stored => { msg with hopCount := msg.hopCount + 1 }

/-- A node publishes, or any of the messages in flight is delivered. -/
inductive Event
  | publish (nodeId : String) (payload : List UInt8) (maxHops : UInt32)
  | deliver (index : ℕ) (copy : Copy)

inductive Reply
  | published (msg : GossipMessage)
  | done
deriving DecidableEq

variable (sha : Sha256)

/-- Every target is sent the message. -/
def send (targets : List String) (msg : GossipMessage) : List Packet :=
  targets.map fun target => ⟨target, msg⟩

def Mesh.publish (s : Mesh) (node : GossipNode) (payload : List UInt8) (maxHops : UInt32) :
    Mesh × Reply :=
  let (node, msg, targets) := node.publish sha payload maxHops
  (⟨s.nodes.upsert node, s.inFlight ++ send targets msg⟩, .published msg)

def Mesh.receive (s : Mesh) (index : ℕ) (node : GossipNode) (msg : GossipMessage) (copy : Copy) :
    Mesh :=
  let (node, targets) := node.receive sha msg
  ⟨s.nodes.upsert node, s.inFlight.eraseIdx index ++ send (targets.getD []) (copy.of msg)⟩

def exec (s : Mesh) : Event → Mesh × Reply
  | .publish nodeId payload maxHops =>
    match s.nodes.get? nodeId with
    | none => (s, .done)
    | some node => s.publish sha node payload maxHops
  | .deliver index copy =>
    match s.inFlight[index]? with
    | none => (s, .done)
    | some packet =>
      match s.nodes.get? packet.target with
      | none => (⟨s.nodes, s.inFlight.eraseIdx index⟩, .done)
      | some node => (s.receive sha index node packet.message copy, .done)

def mesh : Machine Mesh Event Reply := ⟨exec sha⟩

/-! ### What an event does -/

/-- A message is published and sent, or one in flight is discarded or received. -/
inductive Step (s : Mesh) : Event → Reply → Mesh → Prop
  | same {event : Event} : Step s event .done s
  | published {s' : Mesh} {node : GossipNode} {payload : List UInt8} {maxHops : UInt32}
    (hnode : s.nodes.get? node.nodeId = some node)
    (hwrite : Table.Writes s.nodes s'.nodes node.nodeId (node.publish sha payload maxHops).1)
    (hflight : s'.inFlight = s.inFlight ++
      send (node.publish sha payload maxHops).2.2 (node.publish sha payload maxHops).2.1) :
    Step s (.publish node.nodeId payload maxHops)
      (.published (node.publish sha payload maxHops).2.1) s'
  | discarded {s' : Mesh} {index : ℕ} {copy : Copy} {packet : Packet}
    (hpacket : s.inFlight[index]? = some packet)
    (hseen : ∀ node, s.nodes.get? packet.target = some node →
      node.filter.contains sha (asBytes packet.message.id) = true)
    (hnodes : ∀ id, s'.nodes.get? id = s.nodes.get? id)
    (hflight : s'.inFlight = s.inFlight.eraseIdx index) : Step s (.deliver index copy) .done s'
  | received {s' : Mesh} {index : ℕ} {copy : Copy} {packet : Packet} {node : GossipNode}
    (hpacket : s.inFlight[index]? = some packet)
    (hnode : s.nodes.get? packet.target = some node)
    (hnew : node.filter.contains sha (asBytes packet.message.id) = false)
    (hwrite : Table.Writes s.nodes s'.nodes packet.target (node.accept sha packet.message))
    (hflight : s'.inFlight = s.inFlight.eraseIdx index ++
      send (node.forwards packet.message) (copy.of packet.message)) :
    Step s (.deliver index copy) .done s'

theorem receive_step {s : Mesh} {index : ℕ} {packet : Packet} {node : GossipNode}
    (hpacket : s.inFlight[index]? = some packet) (hnode : s.nodes.get? packet.target = some node)
    (copy : Copy) :
    Step sha s (.deliver index copy) .done (s.receive sha index node packet.message copy) := by
  have hid : node.nodeId = packet.target := (Table.get?_eq_some.mp hnode).2
  unfold Mesh.receive
  rcases hseen : node.filter.contains sha (asBytes packet.message.id) with _ | _
  · obtain ⟨haccept, hforwards⟩ := GossipNode.receive_of_new sha hseen
    refine .received hpacket hnode hseen (fun key => ?_) ?_
    · rw [← hid, ← haccept]
      have hkey : (node.receive sha packet.message).1.nodeId = node.nodeId := by
        rw [haccept]
        rfl
      rw [← hkey]
      exact Table.get?_upsert key
    · rw [← hforwards]
  · rw [GossipNode.receive_of_seen sha hseen]
    refine .discarded hpacket ?_ (fun key => ?_) (append_nil _)
    · intro node' hnode'
      rw [hnode, Option.some.injEq] at hnode'
      rw [← hnode']
      exact hseen
    · rw [Table.get?_upsert]
      split_ifs with hkey
      · rw [hkey, hid, hnode]
      · rfl

/-- **What an event does.** -/
theorem exec_step (s : Mesh) (event : Event) :
    Step sha s event (exec sha s event).2 (exec sha s event).1 := by
  cases event with
  | publish nodeId payload maxHops =>
    rcases hnode : s.nodes.get? nodeId with _ | node
    · have hexec : exec sha s (.publish nodeId payload maxHops) = (s, .done) := by
        simp only [exec, hnode]
      rw [hexec]
      exact .same
    · have hexec : exec sha s (.publish nodeId payload maxHops) =
          s.publish sha node payload maxHops := by simp only [exec, hnode]
      obtain rfl := (Table.get?_eq_some.mp hnode).2
      rw [hexec]
      exact .published hnode (fun key => Table.get?_upsert key) rfl
  | deliver index copy =>
    rcases hpacket : s.inFlight[index]? with _ | packet
    · have hexec : exec sha s (.deliver index copy) = (s, .done) := by simp only [exec, hpacket]
      rw [hexec]
      exact .same
    · rcases hnode : s.nodes.get? packet.target with _ | node
      · have hexec : exec sha s (.deliver index copy) =
            (⟨s.nodes, s.inFlight.eraseIdx index⟩, .done) := by simp only [exec, hpacket, hnode]
        rw [hexec]
        refine .discarded hpacket ?_ (fun _ => rfl) rfl
        intro node hnode'
        rw [hnode] at hnode'
        cases hnode'
      · have hexec : exec sha s (.deliver index copy) =
            (s.receive sha index node packet.message copy, .done) := by
          simp only [exec, hpacket, hnode]
        rw [hexec]
        exact receive_step sha hpacket hnode copy

/-- A new node that knows all the others. -/
def newNode (ids : List String) (fanout : ℕ) (nodeId : String) : GossipNode :=
  ids.foldl GossipNode.addPeer (.new nodeId fanout)

theorem nodeId_addPeers (ids : List String) (node : GossipNode) :
    (ids.foldl GossipNode.addPeer node).nodeId = node.nodeId := by
  induction ids generalizing node with
  | nil => rfl
  | cons id ids ih =>
    rw [foldl_cons, ih, GossipNode.addPeer]
    split_ifs
    · rfl
    · rfl

/-- New nodes that all know each other. -/
def start (ids : List String) (hids : ids.Nodup) (fanout : ℕ) : Mesh where
  nodes := ⟨ids.map (newNode ids fanout), by
    have hkeys : (ids.map (newNode ids fanout)).map GossipNode.nodeId = ids := by
      rw [List.map_map]
      refine (List.map_congr_left fun id _ => ?_).trans (List.map_id ids)
      exact nodeId_addPeers ids _
    rw [hkeys]
    exact hids⟩
  inFlight := []

end Pandora.Swarm.Gossip
