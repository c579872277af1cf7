import Pandora.Swarm.Gossip

/-! # How far a message spreads

A node forwards to the first `fanout` of its sorted peers. Where that is everybody (at most
`fanout + 2` nodes) a message that is no longer in flight has reached every node, and the filters
keep each node from storing it twice. Where it is not, the same few nodes are chosen over and over
and the others never hear of the message. -/

namespace Pandora.Swarm.Dissemination

open Lib.Tables Lib.Runs Lib.OrderedSets Text Swarm.Clocks Swarm.Gossip OrderedSet List

variable {sha : Sha256} {ids : List String} {fanout : ℕ} {s s' : Mesh} {event : Event}
  {reply : Reply}

/-! ### What holds in every mesh -/

/-- No entry of the clock is ahead of the node it is about. -/
def Bounded (s : Mesh) (clock : VectorClock) : Prop :=
  ∀ id node, s.nodes.get? id = some node → clock.get id ≤ node.clock.get id

/-- A node knows the others, finds what it has stored and has stored nothing twice. -/
structure Sound (sha : Sha256) (ids : List String) (fanout : ℕ) (node : GossipNode) : Prop where
  knownPeers : node.knownPeers = (ofList ids).remove node.nodeId
  fanout : node.fanout = max fanout 1
  found : ∀ stored ∈ node.messageStore, node.filter.contains sha (asBytes stored.id) = true
  once : (node.messageStore.map GossipMessage.publication).Nodup

/-- The clocks of a node and of its messages. -/
structure NodeBounded (s : Mesh) (node : GossipNode) : Prop where
  clock : Bounded s node.clock
  stored : ∀ stored ∈ node.messageStore, Bounded s stored.vectorClock

structure Wired (sha : Sha256) (ids : List String) (fanout : ℕ) (s : Mesh) : Prop where
  members : ∀ id, (s.nodes.get? id).isSome = true ↔ id ∈ ids
  sound : ∀ id node, s.nodes.get? id = some node → Sound sha ids fanout node
  bounded : ∀ id node, s.nodes.get? id = some node → NodeBounded s node
  inFlight : ∀ packet ∈ s.inFlight, Bounded s packet.message.vectorClock

/-- The own entry of no clock gets smaller. -/
def Advances (s s' : Mesh) : Prop :=
  ∀ id node', s'.nodes.get? id = some node' →
    ∃ node, s.nodes.get? id = some node ∧ node.clock.get id ≤ node'.clock.get id

theorem Bounded.advances {clock : VectorClock} (h : Bounded s clock) (hadv : Advances s s') :
    Bounded s' clock := by
  intro id node' hnode'
  obtain ⟨node, hnode, hle⟩ := hadv id node' hnode'
  exact (h id node hnode).trans hle

variable {node : GossipNode}

theorem NodeBounded.advances (h : NodeBounded s node) (hadv : Advances s s') :
    NodeBounded s' node :=
  ⟨h.clock.advances hadv, fun stored hstored => (h.stored stored hstored).advances hadv⟩

variable {id : String}

theorem advances_of_writes {node' : GossipNode}
    (hnode : s.nodes.get? id = some node) (hwrite : Table.Writes s.nodes s'.nodes id node')
    (hle : node.clock.get id ≤ node'.clock.get id) : Advances s s' := by
  intro key found hfound
  rw [hwrite key] at hfound
  split_ifs at hfound with hkey
  · rw [Option.some.injEq] at hfound
    subst hkey hfound
    exact ⟨node, hnode, hle⟩
  · exact ⟨found, hfound, le_rfl⟩

theorem Wired.write (h : Wired sha ids fanout s) {node' : GossipNode}
    (hnode : s.nodes.get? id = some node) (hwrite : Table.Writes s.nodes s'.nodes id node')
    (hle : node.clock.get id ≤ node'.clock.get id) (hsound : Sound sha ids fanout node')
    (hbounded : NodeBounded s' node')
    (hflight : ∀ packet ∈ s'.inFlight, Bounded s' packet.message.vectorClock) :
    Wired sha ids fanout s' where
  members key := by
    rw [hwrite key, ← h.members key]
    split_ifs with hkey
    · rw [hkey, hnode]
      exact Iff.rfl
    · exact Iff.rfl
  sound key found hfound := by
    rw [hwrite key] at hfound
    split_ifs at hfound
    · rw [Option.some.injEq] at hfound
      subst hfound
      exact hsound
    · exact h.sound key found hfound
  bounded key found hfound := by
    rw [hwrite key] at hfound
    split_ifs at hfound
    · rw [Option.some.injEq] at hfound
      subst hfound
      exact hbounded
    · exact (h.bounded key found hfound).advances (advances_of_writes hnode hwrite hle)
  inFlight := hflight

/-! ### Published messages are new -/

section

variable {node : GossipNode} {payload : List UInt8} {maxHops : UInt32}

theorem publish_clock : (node.publish sha payload maxHops).1.clock.get node.nodeId =
    node.clock.get node.nodeId + 1 := by
  change (node.clock.increment node.nodeId).get node.nodeId = _
  rw [VectorClock.get_increment, if_pos rfl]

/-- No message with bounded clock is the one that a node publishes. -/
theorem publish_new (hnode : s.nodes.get? node.nodeId = some node) {msg : GossipMessage}
    (hmsg : Bounded s msg.vectorClock) :
    msg.publication ≠ (node.publish sha payload maxHops).2.1.publication := by
  intro hsame
  have hclock : msg.vectorClock = node.clock.increment node.nodeId :=
    congrArg GossipMessage.vectorClock hsame
  have hle := hmsg node.nodeId node hnode
  rw [hclock, VectorClock.get_increment, if_pos rfl] at hle
  omega

theorem forall_mem_store {P : GossipMessage → Prop} {store : List GossipMessage}
    {new : GossipMessage} (hold : ∀ stored ∈ store, P stored) (hnew : P new) :
    ∀ stored ∈ store ++ [new], P stored :=
  forall_mem_append.mpr ⟨hold, forall_mem_singleton.mpr hnew⟩

theorem publish_wired (h : Wired sha ids fanout s) (hnode : s.nodes.get? node.nodeId = some node)
    (hwrite : Table.Writes s.nodes s'.nodes node.nodeId (node.publish sha payload maxHops).1)
    (hflight : s'.inFlight = s.inFlight ++
      send (node.publish sha payload maxHops).2.2 (node.publish sha payload maxHops).2.1) :
    Wired sha ids fanout s' := by
  have hsound := h.sound _ _ hnode
  have hbounded := h.bounded _ _ hnode
  have hle : node.clock.get node.nodeId ≤
      (node.publish sha payload maxHops).1.clock.get node.nodeId := by
    rw [publish_clock]
    omega
  have hadv := advances_of_writes hnode hwrite hle
  -- the clock of the node is also that of the message
  have hclock : Bounded s' (node.clock.increment node.nodeId) := by
    intro id found hfound
    rw [hwrite id] at hfound
    split_ifs at hfound with hid
    · rw [Option.some.injEq] at hfound
      subst hid hfound
      exact le_rfl
    · rw [VectorClock.get_increment, if_neg hid]
      exact hbounded.clock id found hfound
  refine h.write hnode hwrite hle ⟨hsound.knownPeers, hsound.fanout, ?_, ?_⟩ ⟨hclock, ?_⟩ ?_
  · exact forall_mem_store (fun stored hstored =>
      BloomFilter.contains_insert_of_contains sha (hsound.found stored hstored) _)
      (BloomFilter.contains_insert sha _ _)
  · change ((node.messageStore ++ [(node.publish sha payload maxHops).2.1]).map _).Nodup
    rw [map_append, map_singleton, nodup_append]
    refine ⟨hsound.once, nodup_singleton _, ?_⟩
    rintro _ hold _ hnew rfl
    obtain ⟨stored, hstored, hsame⟩ := mem_map.mp hold
    rw [mem_singleton] at hnew
    exact publish_new hnode (hbounded.stored stored hstored) (hsame.trans hnew)
  · exact forall_mem_store (fun stored h => (hbounded.stored stored h).advances hadv) hclock
  · intro packet hpacket
    rw [hflight, mem_append] at hpacket
    rcases hpacket with hpacket | hpacket
    · exact (h.inFlight packet hpacket).advances hadv
    · obtain ⟨_, -, rfl⟩ := mem_map.mp hpacket
      exact hclock

end

/-! ### Whole runs -/

theorem mem_eraseIdx_cases {α : Type} {l : List α} {i : ℕ} {a : α} (h : l[i]? = some a) {b : α}
    (hb : b ∈ l) : b = a ∨ b ∈ l.eraseIdx i := by
  obtain ⟨hi, rfl⟩ := List.getElem?_eq_some_iff.mp h
  have hperm := getElem_cons_eraseIdx_perm hi
  exact mem_cons.mp (hperm.mem_iff.mpr hb)

theorem copy_vectorClock (copy : Copy) (msg : GossipMessage) :
    (copy.of msg).vectorClock = msg.vectorClock := by
  cases copy with
  | sent => rfl
  | stored => rfl

theorem copy_publication (copy : Copy) (msg : GossipMessage) :
    (copy.of msg).publication = msg.publication := by
  cases copy with
  | sent => rfl
  | stored => rfl

variable {msg : GossipMessage}

theorem id_of_publication {msg' : GossipMessage} (h : msg.publication = msg'.publication) :
    msg.id = msg'.id := by
  have hid : msg.publication.id = msg'.publication.id := by rw [h]
  exact hid

variable {copy : Copy} {packet : Packet}

theorem receive_wired (h : Wired sha ids fanout s) {index : ℕ}
    (hpacket : s.inFlight[index]? = some packet)
    (hnode : s.nodes.get? packet.target = some node)
    (hnew : node.filter.contains sha (asBytes packet.message.id) = false)
    (hwrite : Table.Writes s.nodes s'.nodes packet.target (node.accept sha packet.message))
    (hflight : s'.inFlight = s.inFlight.eraseIdx index ++
      send (node.forwards packet.message) (copy.of packet.message)) :
    Wired sha ids fanout s' := by
  have hsound := h.sound _ _ hnode
  have hbounded := h.bounded _ _ hnode
  have hmsg := h.inFlight packet (mem_of_getElem? hpacket)
  have hid : node.nodeId = packet.target := (Table.get?_eq_some.mp hnode).2
  have hown : (node.accept sha packet.message).clock.get packet.target =
      (node.clock.merge packet.message.vectorClock).get packet.target + 1 := by
    change ((node.clock.merge packet.message.vectorClock).increment node.nodeId).get _ = _
    rw [VectorClock.get_increment, hid, if_pos rfl]
  have hle : node.clock.get packet.target ≤
      (node.accept sha packet.message).clock.get packet.target := by
    rw [hown]
    exact Nat.le_succ_of_le ((VectorClock.isLub_merge _ _).1 _)
  have hadv := advances_of_writes hnode hwrite hle
  have hclock : Bounded s' (node.accept sha packet.message).clock := by
    intro id found hfound
    rw [hwrite id] at hfound
    split_ifs at hfound with hkey
    · rw [Option.some.injEq] at hfound
      subst hfound
      exact le_rfl
    · change ((node.clock.merge packet.message.vectorClock).increment node.nodeId).get _ ≤ _
      rw [VectorClock.get_increment, hid, if_neg hkey]
      rw [VectorClock.get_merge]
      exact max_le (hbounded.clock id found hfound) (hmsg id found hfound)
  refine h.write hnode hwrite hle ⟨hsound.knownPeers, hsound.fanout, ?_, ?_⟩ ⟨hclock, ?_⟩ ?_
  · exact forall_mem_store (fun stored hstored =>
      BloomFilter.contains_insert_of_contains sha (hsound.found stored hstored) _)
      (BloomFilter.contains_insert sha _ _)
  · -- a message that is stored is found in the filter
    change ((node.messageStore ++ [_]).map _).Nodup
    rw [map_append, map_singleton, nodup_append]
    refine ⟨hsound.once, nodup_singleton _, ?_⟩
    rintro _ hold _ hlast rfl
    obtain ⟨stored, hstored, hsame⟩ := mem_map.mp hold
    rw [mem_singleton] at hlast
    have hids : stored.id = packet.message.id := id_of_publication (hsame.trans hlast)
    have hfound := hsound.found stored hstored
    rw [hids, hnew] at hfound
    cases hfound
  · exact forall_mem_store (fun stored h => (hbounded.stored stored h).advances hadv)
      (hmsg.advances hadv)
  · intro other hother
    rw [hflight, mem_append] at hother
    rcases hother with hother | hother
    · exact (h.inFlight other (mem_of_mem_eraseIdx hother)).advances hadv
    · obtain ⟨_, -, rfl⟩ := mem_map.mp hother
      rw [copy_vectorClock]
      exact hmsg.advances hadv

theorem step_wired (h : Wired sha ids fanout s) (hstep : Step sha s event reply s') :
    Wired sha ids fanout s' := by
  cases hstep with
  | same => exact h
  | published hnode hwrite hflight => exact publish_wired h hnode hwrite hflight
  | received hpacket hnode hnew hwrite hflight =>
    exact receive_wired h hpacket hnode hnew hwrite hflight
  | discarded hpacket hseen hnodes hflight =>
    have hadv : Advances s s' := by
      intro id node hnode
      rw [hnodes] at hnode
      exact ⟨node, hnode, le_rfl⟩
    refine ⟨?_, ?_, ?_, ?_⟩
    · intro id
      rw [hnodes]
      exact h.members id
    · intro id node hnode
      rw [hnodes] at hnode
      exact h.sound id node hnode
    · intro id node hnode
      rw [hnodes] at hnode
      exact (h.bounded id node hnode).advances hadv
    · intro packet hpacket
      rw [hflight] at hpacket
      exact (h.inFlight packet (mem_of_mem_eraseIdx hpacket)).advances hadv

theorem addPeers_knownPeers (nodeId : String) (ids : List String) :
    ∀ {node : GossipNode}, node.nodeId = nodeId → ∀ peer,
      peer ∈ (ids.foldl GossipNode.addPeer node).knownPeers ↔
        (peer ∈ ids ∧ peer ≠ nodeId) ∨ peer ∈ node.knownPeers := by
  induction ids with
  | nil => simp
  | cons id ids ih =>
    intro node hnode peer
    have hid : (node.addPeer id).nodeId = nodeId := by
      unfold GossipNode.addPeer
      split_ifs
      all_goals exact hnode
    rw [foldl_cons, ih hid, mem_cons]
    unfold GossipNode.addPeer
    rw [hnode]
    by_cases hself : id = nodeId
    · rw [if_neg (not_not_intro hself)]
      constructor
      · rintro (⟨hmem, hne⟩ | hmem)
        · exact Or.inl ⟨Or.inr hmem, hne⟩
        · exact Or.inr hmem
      · rintro (⟨rfl | hmem, hne⟩ | hmem)
        · exact absurd hself hne
        · exact Or.inl ⟨hmem, hne⟩
        · exact Or.inr hmem
    · rw [if_pos hself, mem_insert]
      constructor
      · rintro (⟨hmem, hne⟩ | rfl | hmem)
        · exact Or.inl ⟨Or.inr hmem, hne⟩
        · exact Or.inl ⟨Or.inl rfl, hself⟩
        · exact Or.inr hmem
      · rintro (⟨rfl | hmem, hne⟩ | hmem)
        · exact Or.inr (Or.inl rfl)
        · exact Or.inl ⟨hmem, hne⟩
        · exact Or.inr (Or.inr hmem)

theorem addPeers_keeps (ids : List String) : ∀ node : GossipNode,
    (ids.foldl GossipNode.addPeer node).fanout = node.fanout ∧
      (ids.foldl GossipNode.addPeer node).messageStore = node.messageStore ∧
      (ids.foldl GossipNode.addPeer node).clock = node.clock := by
  induction ids with
  | nil => exact fun _ => ⟨rfl, rfl, rfl⟩
  | cons id ids ih =>
    intro node
    rw [foldl_cons, (ih _).1, (ih _).2.1, (ih _).2.2, GossipNode.addPeer]
    split_ifs
    all_goals exact ⟨rfl, rfl, rfl⟩

theorem newNode_store (nodeId : String) : (newNode ids fanout nodeId).messageStore = [] :=
  (addPeers_keeps ids _).2.1

theorem newNode_sound (nodeId : String) : Sound sha ids fanout (newNode ids fanout nodeId) := by
  have hid : (newNode ids fanout nodeId).nodeId = nodeId := nodeId_addPeers ids _
  refine ⟨ext_mem fun peer => ?_, (addPeers_keeps ids _).1, ?_, ?_⟩
  · rw [mem_remove, mem_ofList, hid]
    refine (addPeers_knownPeers nodeId ids rfl peer).trans ?_
    constructor
    · rintro (⟨hmem, hne⟩ | hmem)
      · exact ⟨hne, hmem⟩
      · exact absurd hmem not_mem_empty
    · exact fun h => Or.inl ⟨h.2, h.1⟩
  · rw [newNode_store]
    exact fun _ h => absurd h not_mem_nil
  · rw [newNode_store]
    exact nodup_nil

theorem start_get? (hids : ids.Nodup) (h : (start ids hids fanout).nodes.get? id = some node) :
    id ∈ ids ∧ node = newNode ids fanout id := by
  obtain ⟨hmem, hkey⟩ := Table.get?_eq_some.mp h
  obtain ⟨nodeId, hin, rfl⟩ := mem_map.mp hmem
  have hid : (newNode ids fanout nodeId).nodeId = nodeId := nodeId_addPeers ids _
  rw [hid] at hkey
  subst hkey
  exact ⟨hin, rfl⟩

theorem start_wired (hids : ids.Nodup) : Wired sha ids fanout (start ids hids fanout) where
  members id := by
    constructor
    · intro hsome
      obtain ⟨node, hnode⟩ := Option.isSome_iff_exists.mp hsome
      exact (start_get? hids hnode).1
    · intro hin
      have hid : (newNode ids fanout id).nodeId = id := nodeId_addPeers ids _
      have hget : (start ids hids fanout).nodes.get? id = some (newNode ids fanout id) :=
        Table.get?_eq_some.mpr ⟨mem_map_of_mem hin, hid⟩
      rw [hget]
      rfl
  sound id node hnode := by
    rw [(start_get? hids hnode).2]
    exact newNode_sound id
  bounded id node hnode := by
    rw [(start_get? hids hnode).2]
    refine ⟨fun key _ _ => ?_, ?_⟩
    · have hclock : (newNode ids fanout id).clock = .new := (addPeers_keeps ids _).2.2
      rw [hclock]
      exact Nat.zero_le _
    · rw [newNode_store]
      exact fun _ h => absurd h not_mem_nil
  inFlight _ h := absurd h not_mem_nil

/-- **Every mesh that a run leads to is wired.** -/
theorem run_wired (h : Wired sha ids fanout s) (events : List Event) :
    Wired sha ids fanout ((mesh sha).run s events) :=
  (mesh sha).run_invariant (P := Wired sha ids fanout)
    (fun s event hs => step_wired hs (exec_step sha s event)) events h

/-! ### One published message -/

/-- The node holds the message. -/
def HeldBy (s : Mesh) (msg : GossipMessage) (id : String) : Prop :=
  ∃ node, s.nodes.get? id = some node ∧ node.Holds msg

/-- A copy of the message is on its way to the node. -/
def InFlightTo (s : Mesh) (msg : GossipMessage) (id : String) : Prop :=
  ∃ packet ∈ s.inFlight, packet.target = id ∧ packet.message.publication = msg.publication

/-- A message that a node discards is one that it holds. -/
def NoFalsePositive (sha : Sha256) (s : Mesh) : Event → Prop
  | .publish .. => True
  | .deliver index _ => ∀ packet node, s.inFlight[index]? = some packet →
      s.nodes.get? packet.target = some node →
      node.filter.contains sha (asBytes packet.message.id) = true → node.Holds packet.message

theorem holds_accept (h : node.Holds msg)
    (other : GossipMessage) : (node.accept sha other).Holds msg := by
  obtain ⟨stored, hstored, hsame⟩ := h
  exact ⟨stored, mem_append_left _ hstored, hsame⟩

theorem accept_holds (sha : Sha256) (node : GossipNode) (msg : GossipMessage) :
    (node.accept sha msg).Holds msg :=
  ⟨_, mem_append_right _ (mem_singleton_self _), rfl⟩

theorem HeldBy.step (h : HeldBy s msg id)
    (hstep : Step sha s event reply s') : HeldBy s' msg id := by
  obtain ⟨node, hnode, hholds⟩ := h
  cases hstep with
  | same => exact ⟨node, hnode, hholds⟩
  | discarded hpacket hseen hnodes hflight => exact ⟨node, (hnodes id).trans hnode, hholds⟩
  | @published _ publisher payload maxHops hpublisher hwrite hflight =>
    by_cases hid : id = publisher.nodeId
    · subst hid
      rw [hpublisher, Option.some.injEq] at hnode
      subst hnode
      obtain ⟨stored, hstored, hsame⟩ := hholds
      exact ⟨_, hwrite.same, stored, mem_append_left _ hstored, hsame⟩
    · exact ⟨node, (hwrite.other hid).trans hnode, hholds⟩
  | @received _ _ _ packet receiver hpacket hreceiver hnew hwrite hflight =>
    by_cases hid : id = packet.target
    · subst hid
      rw [hreceiver, Option.some.injEq] at hnode
      subst hnode
      exact ⟨_, hwrite.same, holds_accept hholds _⟩
    · exact ⟨node, (hwrite.other hid).trans hnode, hholds⟩

theorem InFlightTo.step (h : InFlightTo s msg id)
    (hwired : Wired sha ids fanout s) (hid : id ∈ ids) (hstep : Step sha s event reply s')
    (hpositive : NoFalsePositive sha s event) : HeldBy s' msg id ∨ InFlightTo s' msg id := by
  obtain ⟨copy, hcopy, htarget, hsame⟩ := h
  cases hstep with
  | same => exact Or.inr ⟨copy, hcopy, htarget, hsame⟩
  | published hnode hwrite hflight =>
    refine Or.inr ⟨copy, ?_, htarget, hsame⟩
    rw [hflight]
    exact mem_append_left _ hcopy
  | @discarded _ index _ packet hpacket hseen hnodes hflight =>
    rcases mem_eraseIdx_cases hpacket hcopy with rfl | hrest
    · left
      obtain ⟨node, hnode⟩ := Option.isSome_iff_exists.mp ((hwired.members id).mpr hid)
      rw [← htarget] at hnode
      obtain ⟨stored, hstored, hpub⟩ := hpositive copy node hpacket hnode (hseen node hnode)
      refine ⟨node, ?_, stored, hstored, hpub.trans hsame⟩
      rw [← htarget, hnodes, hnode]
    · refine Or.inr ⟨copy, ?_, htarget, hsame⟩
      rw [hflight]
      exact hrest
  | @received _ index _ packet node hpacket hnode hnew hwrite hflight =>
    rcases mem_eraseIdx_cases hpacket hcopy with rfl | hrest
    · left
      obtain ⟨stored, hstored, hpub⟩ := accept_holds sha node copy.message
      refine ⟨_, ?_, stored, hstored, hpub.trans hsame⟩
      rw [← htarget]
      exact hwrite.same
    · refine Or.inr ⟨copy, ?_, htarget, hsame⟩
      rw [hflight]
      exact mem_append_left _ hrest

theorem HeldBy.bounded (h : HeldBy s msg id)
    (hwired : Wired sha ids fanout s) : Bounded s msg.vectorClock := by
  obtain ⟨node, hnode, stored, hstored, hsame⟩ := h
  have hclock : stored.publication.vectorClock = msg.publication.vectorClock := by rw [hsame]
  change stored.vectorClock = msg.vectorClock at hclock
  rw [← hclock]
  exact (hwired.bounded id node hnode).stored stored hstored

/-- A step that adds nothing about the message. -/
def Unaffected (s s' : Mesh) (msg : GossipMessage) : Prop :=
  (∀ id, HeldBy s' msg id → HeldBy s msg id) ∧
    ∀ packet ∈ s'.inFlight, packet.message.publication = msg.publication → packet ∈ s.inFlight

/-- A copy of the message is stored by its target and forwarded. -/
structure Accepted (s s' : Mesh) (msg : GossipMessage) (packet : Packet)
    (node : GossipNode) (copy : Copy) : Prop where
  sent : packet ∈ s.inFlight
  copied : packet.message.publication = msg.publication
  receiver : s.nodes.get? packet.target = some node
  fresh : ¬ HeldBy s msg packet.target
  held : HeldBy s' msg packet.target
  others : ∀ id, id ≠ packet.target → HeldBy s' msg id → HeldBy s msg id
  forwarded : ∀ target ∈ node.forwards packet.message,
    (⟨target, copy.of packet.message⟩ : Packet) ∈ s'.inFlight
  inFlight : ∀ other ∈ s'.inFlight, other ∈ s.inFlight ∨
    ∃ target ∈ node.forwards packet.message, other = ⟨target, copy.of packet.message⟩

theorem heldBy_of_get?
    (hget : s'.nodes.get? id = s.nodes.get? id) (h : HeldBy s' msg id) : HeldBy s msg id := by
  obtain ⟨node, hnode, hholds⟩ := h
  exact ⟨node, hget ▸ hnode, hholds⟩

theorem publish_unaffected {payload : List UInt8} {maxHops : UInt32}
    (hnode : s.nodes.get? node.nodeId = some node)
    (hmsg : msg.publication ≠ (node.publish sha payload maxHops).2.1.publication)
    (hwrite : Table.Writes s.nodes s'.nodes node.nodeId (node.publish sha payload maxHops).1)
    (hflight : s'.inFlight = s.inFlight ++
      send (node.publish sha payload maxHops).2.2 (node.publish sha payload maxHops).2.1) :
    Unaffected s s' msg := by
  refine ⟨fun id hheld => ?_, fun packet hpacket hsame => ?_⟩
  · by_cases hid : id = node.nodeId
    · subst hid
      obtain ⟨found, hfound, stored, hstored, hsame⟩ := hheld
      rw [hwrite.same, Option.some.injEq] at hfound
      subst hfound
      rcases mem_append.mp hstored with hstored | hstored
      · exact ⟨node, hnode, stored, hstored, hsame⟩
      · rw [mem_singleton] at hstored
        subst hstored
        exact absurd hsame.symm hmsg
    · exact heldBy_of_get? (hwrite.other hid) hheld
  · rw [hflight, mem_append] at hpacket
    rcases hpacket with hpacket | hpacket
    · exact hpacket
    · obtain ⟨_, -, rfl⟩ := mem_map.mp hpacket
      exact absurd hsame.symm hmsg

theorem step_tracked (hwired : Wired sha ids fanout s)
    (hmsg : Bounded s msg.vectorClock) (hstep : Step sha s event reply s') :
    Unaffected s s' msg ∨ ∃ packet node copy, Accepted s s' msg packet node copy := by
  cases hstep with
  | same => exact Or.inl ⟨fun _ h => h, fun _ h _ => h⟩
  | published hnode hwrite hflight =>
    exact Or.inl (publish_unaffected hnode (publish_new hnode hmsg) hwrite hflight)
  | discarded hpacket hseen hnodes hflight =>
    refine Or.inl ⟨fun id hheld => heldBy_of_get? (hnodes id) hheld, fun packet hin _ => ?_⟩
    rw [hflight] at hin
    exact mem_of_mem_eraseIdx hin
  | @received _ index copy packet node hpacket hnode hnew hwrite hflight =>
    by_cases hsame : packet.message.publication = msg.publication
    · refine Or.inr ⟨packet, node, copy, ?_⟩
      refine ⟨mem_of_getElem? hpacket, hsame, hnode, ?_, ?_, ?_, ?_, ?_⟩
      · rintro ⟨found, hfound, stored, hstored, hpub⟩
        rw [hnode, Option.some.injEq] at hfound
        subst hfound
        have hids : stored.id = packet.message.id := id_of_publication (hpub.trans hsame.symm)
        have hcontains := (hwired.sound _ _ hnode).found stored hstored
        rw [hids, hnew] at hcontains
        cases hcontains
      · obtain ⟨stored, hstored, hpub⟩ := accept_holds sha node packet.message
        exact ⟨_, hwrite.same, stored, hstored, hpub.trans hsame⟩
      · exact fun id hid hheld => heldBy_of_get? (hwrite.other hid) hheld
      · intro target htarget
        rw [hflight]
        exact mem_append_right _ (mem_map_of_mem htarget)
      · intro other hother
        rw [hflight, mem_append] at hother
        rcases hother with hother | hother
        · exact Or.inl (mem_of_mem_eraseIdx hother)
        · obtain ⟨target, htarget, rfl⟩ := mem_map.mp hother
          exact Or.inr ⟨target, htarget, rfl⟩
    · -- another message
      refine Or.inl ⟨fun id hheld => ?_, fun other hother hpub => ?_⟩
      · by_cases hid : id = packet.target
        · subst hid
          obtain ⟨found, hfound, stored, hstored, hpub⟩ := hheld
          rw [hwrite.same, Option.some.injEq] at hfound
          subst hfound
          rcases mem_append.mp hstored with hstored | hstored
          · exact ⟨node, hnode, stored, hstored, hpub⟩
          · rw [mem_singleton] at hstored
            subst hstored
            exact absurd hpub hsame
        · exact heldBy_of_get? (hwrite.other hid) hheld
      · rw [hflight, mem_append] at hother
        rcases hother with hother | hother
        · exact mem_of_mem_eraseIdx hother
        · obtain ⟨_, -, rfl⟩ := mem_map.mp hother
          rw [copy_publication] at hpub
          exact absurd hpub hsame

/-! ### The targets of a node -/

/-- The other nodes, in order. -/
def others (ids : List String) (id : String) : List String :=
  (ofList ids).elems.filter fun peer => peer ≠ id

theorem mem_others {peer : String} : peer ∈ others ids id ↔ peer ∈ ids ∧ peer ≠ id := by
  unfold others
  rw [mem_filter, mem_elems, mem_ofList, decide_eq_true_iff]

theorem others_nodup (ids : List String) (id : String) : (others ids id).Nodup :=
  (ofList ids).nodup.filter _

theorem Sound.elems (h : Sound sha ids fanout node) :
    node.knownPeers.elems = others ids node.nodeId := by
  rw [h.knownPeers]
  change (ofList ids).elems.erase node.nodeId = _
  rw [(ofList ids).nodup.erase_eq_filter]
  refine filter_congr fun peer _ => ?_
  simp [bne, BEq.beq]

theorem Sound.publish_targets (h : Sound sha ids fanout node)
    (payload : List UInt8) (maxHops : UInt32) :
    (node.publish sha payload maxHops).2.2 = (others ids node.nodeId).take (max fanout 1) := by
  change (node.knownPeers.elems.filter fun peer => !([] : List String).contains peer).take
    node.fanout = _
  have hall : ((others ids node.nodeId).filter fun peer => !([] : List String).contains peer) =
      others ids node.nodeId := filter_eq_self.mpr fun _ _ => rfl
  rw [h.elems, h.fanout, hall]

theorem Sound.selectGossipTargets (h : Sound sha ids fanout node) (origin : String) :
    node.selectGossipTargets [origin] =
      ((others ids origin).filter fun peer => peer ≠ node.nodeId).take (max fanout 1) := by
  unfold GossipNode.selectGossipTargets others
  rw [h.elems, h.fanout, others, filter_filter, filter_filter]
  congr 1
  refine filter_congr fun peer _ => ?_
  rw [Bool.and_comm]
  simp

/-- Without one of its elements, a list yields at most one element more from its front. -/
theorem mem_take_filter_ne {a b : String} : ∀ {l : List String} {n : ℕ}, l.Nodup →
    b ∈ (l.filter fun x => x ≠ a).take n → b ∈ l.take (n + 1)
  | [], _, _, h => by simp at h
  | x :: l, n, hnodup, h => by
    obtain ⟨hx, hnodup⟩ := nodup_cons.mp hnodup
    rw [take_succ_cons, mem_cons]
    by_cases hxa : x = a
    · -- the element is dropped here, and occurs no more
      subst hxa
      right
      have hrest : (l.filter fun y => y ≠ x) = l := by
        rw [filter_eq_self]
        intro y hy
        rw [decide_eq_true_iff]
        rintro rfl
        exact hx hy
      rw [filter_cons_of_neg (by simp), hrest] at h
      exact h
    · rw [filter_cons_of_pos (by simpa using hxa)] at h
      cases n with
      | zero => simp at h
      | succ n =>
        rw [take_succ_cons, mem_cons] at h
        rcases h with rfl | h
        · exact Or.inl rfl
        · exact Or.inr (mem_take_filter_ne hnodup h)

theorem Sound.mem_targets (h : Sound sha ids fanout node)
    {origin target : String} (htarget : target ∈ node.selectGossipTargets [origin]) :
    target ∈ (others ids origin).take (max fanout 1 + 1) := by
  rw [h.selectGossipTargets] at htarget
  exact mem_take_filter_ne (others_nodup ids origin) htarget

/-- Where there are at most `fanout + 2` nodes everybody else is a target. -/
theorem Sound.targets_all (h : Sound sha ids fanout node)
    (hfew : ids.length ≤ max fanout 1 + 2) {origin target : String} (horigin : origin ∈ ids)
    (hnode : node.nodeId ∈ ids) (hne : node.nodeId ≠ origin) (htarget : target ∈ ids)
    (hother : target ≠ origin) (hself : target ≠ node.nodeId) :
    target ∈ node.selectGossipTargets [origin] := by
  have hmem : ∀ peer, (peer ∈ (others ids origin).filter fun peer => peer ≠ node.nodeId) ↔
      (peer ∈ ids ∧ peer ≠ origin) ∧ peer ≠ node.nodeId := by
    intro peer
    rw [mem_filter, mem_others, decide_eq_true_iff]
  have hnodup := (others_nodup ids origin).filter fun peer => decide (peer ≠ node.nodeId)
  rw [h.selectGossipTargets, take_of_length_le, hmem]
  · exact ⟨⟨htarget, hother⟩, hself⟩
  · -- the origin and the node itself are two more nodes
    generalize (others ids origin).filter (fun peer => peer ≠ node.nodeId) = targets at hmem hnodup
    have hall : (origin :: node.nodeId :: targets).Nodup := by
      rw [nodup_cons, nodup_cons, mem_cons, not_or]
      refine ⟨⟨Ne.symm hne, fun hin => ?_⟩, fun hin => ?_, hnodup⟩
      · exact ((hmem origin).mp hin).1.2 rfl
      · exact ((hmem _).mp hin).2 rfl
    have hsub : origin :: node.nodeId :: targets ⊆ ids := by
      intro peer hpeer
      rw [mem_cons, mem_cons] at hpeer
      rcases hpeer with rfl | rfl | hpeer
      · exact horigin
      · exact hnode
      · exact ((hmem peer).mp hpeer).1.1
    have hlen := (subperm_of_subset hall hsub).length_le
    rw [length_cons, length_cons] at hlen
    omega

theorem mem_forwards {target : String}
    (h : target ∈ node.forwards msg) : target ∈ node.selectGossipTargets [msg.originNode] := by
  unfold GossipNode.forwards at h
  split_ifs at h
  · exact h
  · exact absurd h not_mem_nil

/-! ### Too many nodes -/

/-- The message stays with its origin and the first `fanout + 1` other nodes. -/
def Confined (ids : List String) (fanout : ℕ) (msg : GossipMessage) (s : Mesh) : Prop :=
  ∀ id, HeldBy s msg id ∨ InFlightTo s msg id →
    id = msg.originNode ∨ id ∈ (others ids msg.originNode).take (max fanout 1 + 1)

theorem Confined.step (h : Confined ids fanout msg s)
    (hwired : Wired sha ids fanout s) (hmsg : Bounded s msg.vectorClock)
    (hstep : Step sha s event reply s') : Confined ids fanout msg s' := by
  intro id hid
  rcases step_tracked hwired hmsg hstep with ⟨hheld, hflight⟩ | ⟨packet, node, copy, haccepted⟩
  · refine h id ?_
    rcases hid with hid | ⟨other, hother, htarget, hsame⟩
    · exact Or.inl (hheld id hid)
    · exact Or.inr ⟨other, hflight other hother hsame, htarget, hsame⟩
  · have hpacket : InFlightTo s msg packet.target :=
      ⟨packet, haccepted.sent, rfl, haccepted.copied⟩
    have horigin : packet.message.originNode = msg.originNode := by
      have hsame : packet.message.publication.originNode = msg.publication.originNode := by
        rw [haccepted.copied]
      exact hsame
    rcases hid with hid | ⟨other, hother, htarget, hsame⟩
    · by_cases hreceiver : id = packet.target
      · rw [hreceiver]
        exact h _ (Or.inr hpacket)
      · exact h id (Or.inl (haccepted.others id hreceiver hid))
    · rcases haccepted.inFlight other hother with hold | ⟨target, hforward, rfl⟩
      · exact h id (Or.inr ⟨other, hold, htarget, hsame⟩)
      · right
        change target = id at htarget
        subst htarget
        rw [← horigin]
        exact (hwired.sound _ _ haccepted.receiver).mem_targets (mem_forwards hforward)

/-! ### Few nodes -/

/-- The message is on its way: some node gets it, and once another node than its origin has it every
node has it or gets it. -/
structure Spread (ids : List String) (msg : GossipMessage) (s : Mesh) : Prop where
  origin : HeldBy s msg msg.originNode
  hops : ∀ packet ∈ s.inFlight, packet.message.publication = msg.publication →
    packet.message.hopCount = 0 ∨ ∃ id ∈ ids, id ≠ msg.originNode ∧ HeldBy s msg id
  begun : 2 ≤ ids.length →
    ∃ id ∈ ids, id ≠ msg.originNode ∧ (HeldBy s msg id ∨ InFlightTo s msg id)
  rest : (∃ id ∈ ids, id ≠ msg.originNode ∧ HeldBy s msg id) →
    ∀ id ∈ ids, id ≠ msg.originNode → HeldBy s msg id ∨ InFlightTo s msg id

theorem Accepted.target_ne (h : Accepted s s' msg packet node copy)
    (horigin : HeldBy s msg msg.originNode) : packet.target ≠ msg.originNode := by
  intro heq
  exact h.fresh (heq ▸ horigin)

/-- The first node after the origin forwards the message to all others. -/
theorem Accepted.reaches (h : Accepted s s' msg packet node copy) (hwired : Wired sha ids fanout s)
    (hfew : ids.length ≤ max fanout 1 + 2) (hmax : ids.length ≤ msg.maxHops.toNat)
    (horigin : HeldBy s msg msg.originNode) (hhops : packet.message.hopCount = 0)
    (hid : id ∈ ids) (hne : id ≠ msg.originNode) (hother : id ≠ packet.target) :
    InFlightTo s' msg id := by
  have hnodeId : node.nodeId = packet.target := (Table.get?_eq_some.mp h.receiver).2
  have hin : ∀ {key : String} {found : GossipNode}, s.nodes.get? key = some found → key ∈ ids := by
    intro key found hfound
    rw [← hwired.members key, hfound]
    rfl
  have hreceiver := h.target_ne horigin
  obtain ⟨originNode, hget, -⟩ := horigin
  have hsame : packet.message.publication.originNode = msg.publication.originNode ∧
      packet.message.publication.maxHops = msg.publication.maxHops := by
    rw [h.copied]
    exact ⟨rfl, rfl⟩
  obtain ⟨horiginNode, hmaxHops⟩ := hsame
  change packet.message.originNode = msg.originNode at horiginNode
  change packet.message.maxHops = msg.maxHops at hmaxHops
  -- there are two nodes at least
  have htwo : 2 ≤ ids.length := by
    have hsub : [packet.target, msg.originNode] ⊆ ids := by
      intro key hkey
      rw [mem_cons, mem_singleton] at hkey
      rcases hkey with rfl | rfl
      · exact hin h.receiver
      · exact hin hget
    exact (subperm_of_subset (by simpa using hreceiver) hsub).length_le
  have hforward : node.forwards packet.message = node.selectGossipTargets [msg.originNode] := by
    unfold GossipNode.forwards
    rw [hhops, horiginNode, hmaxHops, if_pos]
    rw [UInt32.lt_iff_toNat_lt]
    have hone : ((0 : UInt32) + 1).toNat = 1 := rfl
    omega
  have hmem : id ∈ node.forwards packet.message := by
    rw [hforward]
    refine (hwired.sound _ _ h.receiver).targets_all hfew (hin hget) ?_ ?_ hid hne ?_
    · rw [hnodeId]
      exact hin h.receiver
    · rw [hnodeId]
      exact hreceiver
    · rw [hnodeId]
      exact hother
  exact ⟨_, h.forwarded id hmem, rfl, (copy_publication copy packet.message).trans h.copied⟩

theorem Spread.step (h : Spread ids msg s)
    (hwired : Wired sha ids fanout s) (hfew : ids.length ≤ max fanout 1 + 2)
    (hmax : ids.length ≤ msg.maxHops.toNat) (hstep : Step sha s event reply s')
    (hpositive : NoFalsePositive sha s event) : Spread ids msg s' := by
  have hkeeps : ∀ id ∈ ids, HeldBy s msg id ∨ InFlightTo s msg id →
      HeldBy s' msg id ∨ InFlightTo s' msg id := by
    rintro id hid (hheld | hflight)
    · exact Or.inl (hheld.step hstep)
    · exact hflight.step hwired hid hstep hpositive
  have horigin := h.origin.step hstep
  rcases step_tracked hwired (h.origin.bounded hwired) hstep with
    ⟨hheld, hflight⟩ | ⟨packet, node, copy, haccepted⟩
  · refine ⟨horigin, ?_, ?_, ?_⟩
    · intro packet hpacket hsame
      rcases h.hops packet (hflight packet hpacket hsame) hsame with hzero | ⟨id, hid, hne, hby⟩
      · exact Or.inl hzero
      · exact Or.inr ⟨id, hid, hne, hby.step hstep⟩
    · intro htwo
      obtain ⟨id, hid, hne, hgets⟩ := h.begun htwo
      exact ⟨id, hid, hne, hkeeps id hid hgets⟩
    · rintro ⟨id, hid, hne, hby⟩ other hother hothers
      exact hkeeps other hother (h.rest ⟨id, hid, hne, hheld id hby⟩ other hother hothers)
  · have hne := haccepted.target_ne h.origin
    have hin : packet.target ∈ ids := by
      rw [← hwired.members, haccepted.receiver]
      rfl
    refine ⟨horigin, ?_, ?_, ?_⟩
    · exact fun _ _ _ => Or.inr ⟨packet.target, hin, hne, haccepted.held⟩
    · exact fun _ => ⟨packet.target, hin, hne, Or.inl haccepted.held⟩
    · rintro - id hid hother
      by_cases htarget : id = packet.target
      · rw [htarget]
        exact Or.inl haccepted.held
      · -- the node that has just stored it may be the first one
        rcases h.hops packet haccepted.sent haccepted.copied with hzero | hsome
        · exact Or.inr (haccepted.reaches hwired hfew hmax h.origin hzero hid hother htarget)
        · exact hkeeps id hid (h.rest hsome id hid hother)

/-! ### The step that publishes -/

section

variable {node : GossipNode} {payload : List UInt8} {maxHops : UInt32}
  (hwired : Wired sha ids fanout s) (hnode : s.nodes.get? node.nodeId = some node)
  (hwrite : Table.Writes s.nodes s'.nodes node.nodeId (node.publish sha payload maxHops).1)
  (hflight : s'.inFlight = s.inFlight ++
    send (node.publish sha payload maxHops).2.2 (node.publish sha payload maxHops).2.1)

include hwired hnode hwrite hflight

/-- Right after a message is published it is held by its origin and in flight to the targets. -/
theorem published_where :
    (∀ id, HeldBy s' (node.publish sha payload maxHops).2.1 id ↔ id = node.nodeId) ∧
    ∀ packet, (packet ∈ s'.inFlight ∧ packet.message.publication =
        (node.publish sha payload maxHops).2.1.publication) ↔
      ∃ target ∈ (node.publish sha payload maxHops).2.2,
        packet = ⟨target, (node.publish sha payload maxHops).2.1⟩ := by
  refine ⟨fun id => ⟨?_, ?_⟩, fun packet => ⟨?_, ?_⟩⟩
  · rintro ⟨found, hfound, stored, hstored, hsame⟩
    by_contra hid
    rw [hwrite.other hid] at hfound
    exact publish_new hnode ((hwired.bounded id found hfound).stored stored hstored) hsame
  · rintro rfl
    exact ⟨_, hwrite.same, _, mem_append_right _ (mem_singleton_self _), rfl⟩
  · rintro ⟨hpacket, hsame⟩
    rw [hflight, mem_append] at hpacket
    rcases hpacket with hpacket | hpacket
    · exact absurd hsame (publish_new hnode (hwired.inFlight packet hpacket))
    · obtain ⟨target, htarget, rfl⟩ := mem_map.mp hpacket
      exact ⟨target, htarget, rfl⟩
  · rintro ⟨target, htarget, rfl⟩
    refine ⟨?_, rfl⟩
    rw [hflight]
    exact mem_append_right _ (mem_map_of_mem htarget)

theorem published_confined : Confined ids fanout (node.publish sha payload maxHops).2.1 s' := by
  obtain ⟨hheld, hpackets⟩ := published_where hwired hnode hwrite hflight
  rintro id (hid | ⟨packet, hpacket, htarget, hsame⟩)
  · exact Or.inl ((hheld id).mp hid)
  · right
    obtain ⟨target, hmem, rfl⟩ := (hpackets packet).mp ⟨hpacket, hsame⟩
    rw [(hwired.sound _ _ hnode).publish_targets] at hmem
    subst htarget
    exact take_subset_take_left _ (Nat.le_succ _) hmem

theorem published_spread (hids : ids.Nodup) :
    Spread ids (node.publish sha payload maxHops).2.1 s' := by
  obtain ⟨hheld, hpackets⟩ := published_where hwired hnode hwrite hflight
  refine ⟨(hheld _).mpr rfl, ?_, ?_, ?_⟩
  · intro packet hpacket hsame
    obtain ⟨target, -, rfl⟩ := (hpackets packet).mp ⟨hpacket, hsame⟩
    exact Or.inl rfl
  · intro htwo
    -- the first of the other nodes is a target
    have hsome : ∃ id, id ∈ others ids node.nodeId := by
      by_contra hnone
      have hsub : ids ⊆ [node.nodeId] := by
        intro id hid
        rw [mem_singleton]
        by_contra hne
        exact hnone ⟨id, mem_others.mpr ⟨hid, hne⟩⟩
      have hlen := (subperm_of_subset hids hsub).length_le
      rw [length_singleton] at hlen
      omega
    obtain ⟨id, hid⟩ := hsome
    rcases hothers : others ids node.nodeId with _ | ⟨first, rest⟩
    · rw [hothers] at hid
      exact absurd hid not_mem_nil
    · have hfirst : first ∈ others ids node.nodeId := by
        rw [hothers]
        exact mem_cons_self
      have htarget : first ∈ (node.publish sha payload maxHops).2.2 := by
        rw [(hwired.sound _ _ hnode).publish_targets, hothers]
        obtain ⟨n, hn⟩ : ∃ n, max fanout 1 = n + 1 := ⟨max fanout 1 - 1, by omega⟩
        rw [hn, take_succ_cons]
        exact mem_cons_self
      obtain ⟨hin, hne⟩ := mem_others.mp hfirst
      obtain ⟨hpacket, hsame⟩ := (hpackets ⟨first, _⟩).mpr ⟨first, htarget, rfl⟩
      exact ⟨first, hin, hne, Or.inr ⟨_, hpacket, rfl, hsame⟩⟩
  · rintro ⟨id, -, hne, hby⟩
    exact absurd ((hheld id).mp hby) hne

end

/-- A message that has just been published is confined and spreads. -/
theorem step_published {nodeId : String} {payload : List UInt8} {maxHops : UInt32}
    (hwired : Wired sha ids fanout s) (hids : ids.Nodup)
    (hstep : Step sha s (.publish nodeId payload maxHops) (.published msg) s') :
    Confined ids fanout msg s' ∧ Spread ids msg s' ∧ msg.maxHops = maxHops := by
  cases hstep with
  | published hnode hwrite hflight =>
    exact ⟨published_confined hwired hnode hwrite hflight,
      published_spread hwired hnode hwrite hflight hids, rfl⟩

theorem run_confined (h : Confined ids fanout msg s)
    (hwired : Wired sha ids fanout s) (horigin : HeldBy s msg msg.originNode)
    (events : List Event) : Confined ids fanout msg ((mesh sha).run s events) := by
  have hrun := (mesh sha).run_invariant
    (P := fun s => Wired sha ids fanout s ∧ HeldBy s msg msg.originNode ∧ Confined ids fanout msg s)
    (fun s event ⟨hs, hheld, hconfined⟩ =>
      have hstep := exec_step sha s event
      ⟨step_wired hs hstep, hheld.step hstep, hconfined.step hs (hheld.bounded hs) hstep⟩)
    events ⟨hwired, horigin, h⟩
  exact hrun.2.2

theorem run_spread (h : Spread ids msg s) (hwired : Wired sha ids fanout s)
    (hfew : ids.length ≤ max fanout 1 + 2) (hmax : ids.length ≤ msg.maxHops.toNat)
    (events : List Event) (hpositive : (mesh sha).Along (NoFalsePositive sha) s events) :
    Spread ids msg ((mesh sha).run s events) := by
  have hrun := (mesh sha).run_invariant_along
    (P := fun s => Wired sha ids fanout s ∧ Spread ids msg s)
    (fun s event hpositive ⟨hs, hspread⟩ =>
      have hstep := exec_step sha s event
      ⟨step_wired hs hstep, hspread.step hs hfew hmax hstep hpositive⟩)
    events hpositive ⟨hwired, h⟩
  exact hrun.2

/-! ### Where a message ends up -/

/-- Every node holds the message exactly once. -/
def HeldOnce (s : Mesh) (msg : GossipMessage) : Prop :=
  ∀ node ∈ s.nodes.rows,
    node.messageStore.countP (fun stored => stored.publication = msg.publication) = 1

theorem Sound.count_eq_one (h : Sound sha ids fanout node) (hholds : node.Holds msg) :
    node.messageStore.countP (fun stored => stored.publication = msg.publication) = 1 := by
  obtain ⟨stored, hstored, hsame⟩ := hholds
  have hmem : msg.publication ∈ node.messageStore.map GossipMessage.publication :=
    mem_map.mpr ⟨stored, hstored, hsame⟩
  have hone := count_eq_one_of_mem h.once hmem
  unfold List.count at hone
  rw [countP_map] at hone
  rw [← hone]
  refine countP_congr fun other _ => ?_
  simp

theorem HeldOnce.heldBy (h : HeldOnce s msg) (hnode : s.nodes.get? id = some node) :
    HeldBy s msg id := by
  have hcount := h node (Table.get?_eq_some.mp hnode).1
  have hpos : 0 < node.messageStore.countP fun stored => stored.publication = msg.publication := by
    omega
  obtain ⟨stored, hstored, hsame⟩ := countP_pos_iff.mp hpos
  exact ⟨node, hnode, stored, hstored, of_decide_eq_true hsame⟩

/-- A mesh in which nothing is in flight and the message has spread. -/
theorem Spread.heldOnce (h : Spread ids msg s)
    (hwired : Wired sha ids fanout s) (hquiet : s.inFlight = []) : HeldOnce s msg := by
  have hnone : ∀ id, ¬ InFlightTo s msg id := by
    rintro id ⟨packet, hpacket, -⟩
    rw [hquiet] at hpacket
    exact absurd hpacket not_mem_nil
  intro node hnode
  have hget : s.nodes.get? node.nodeId = some node := Table.get?_eq_some.mpr ⟨hnode, rfl⟩
  have hin : node.nodeId ∈ ids := by
    rw [← hwired.members, hget]
    rfl
  have hheld : HeldBy s msg node.nodeId := by
    by_cases horigin : node.nodeId = msg.originNode
    · rw [horigin]
      exact h.origin
    · have htwo : 2 ≤ ids.length := by
        obtain ⟨origin, hgetOrigin, -⟩ := h.origin
        have hsub : [node.nodeId, msg.originNode] ⊆ ids := by
          intro key hkey
          rw [mem_cons, mem_singleton] at hkey
          rcases hkey with rfl | rfl
          · exact hin
          · rw [← hwired.members, hgetOrigin]
            rfl
        exact (subperm_of_subset (by simpa using horigin) hsub).length_le
      obtain ⟨first, hfirst, hne, hgets⟩ := h.begun htwo
      have hby := hgets.resolve_right (hnone first)
      exact (h.rest ⟨first, hfirst, hne, hby⟩ _ hin horigin).resolve_right (hnone _)
  obtain ⟨found, hfound, hholds⟩ := hheld
  rw [hget, Option.some.injEq] at hfound
  subst hfound
  exact (hwired.sound _ _ hget).count_eq_one hholds

/-- A mesh in which the message is confined does not have it everywhere. -/
theorem Confined.few (h : Confined ids fanout msg s)
    (hwired : Wired sha ids fanout s) (hids : ids.Nodup) (honce : HeldOnce s msg) :
    ids.length ≤ max fanout 1 + 2 := by
  have hsub : ids ⊆ msg.originNode :: (others ids msg.originNode).take (max fanout 1 + 1) := by
    intro id hid
    obtain ⟨node, hnode⟩ := Option.isSome_iff_exists.mp ((hwired.members id).mpr hid)
    exact mem_cons.mpr (h id (Or.inl (honce.heldBy hnode)))
  have hlen := (subperm_of_subset hids hsub).length_le
  rw [length_cons, length_take] at hlen
  omega

/-- **How far a message spreads.** In every run of nodes that know each other after which nothing is
in flight, a message is held once by every node exactly when there are at most `fanout + 2`. -/
theorem heldOnce_iff (hids : ids.Nodup) (hfanout : 2 ≤ fanout) {events : List Event}
    (hpositive : (mesh sha).Along (NoFalsePositive sha) (start ids hids fanout) events)
    (hquiet : ((mesh sha).run (start ids hids fanout) events).inFlight = []) {k : ℕ}
    {nodeId : String} {payload : List UInt8} {maxHops : UInt32} {msg : GossipMessage}
    (hpublished : (mesh sha).Answers (start ids hids fanout) events k
      (.publish nodeId payload maxHops) (.published msg))
    (hhops : ids.length ≤ maxHops.toNat) :
    HeldOnce ((mesh sha).run (start ids hids fanout) events) msg ↔ ids.length ≤ fanout + 2 := by
  obtain ⟨hget, hanswer⟩ := hpublished
  have hsplit : events = events.take k ++ (.publish nodeId payload maxHops ::
      events.drop (k + 1)) := by
    obtain ⟨hk, hevent⟩ := List.getElem?_eq_some_iff.mp hget
    rw [← hevent, ← drop_eq_getElem_cons hk, take_append_drop]
  have hstart : Wired sha ids fanout (start ids hids fanout) := start_wired hids
  have hwired := run_wired hstart events
  have hmax : max fanout 1 = fanout := by omega
  -- the step that publishes, and the rest of the run
  have hbefore := run_wired hstart (events.take k)
  have hstep := exec_step sha ((mesh sha).run (start ids hids fanout) (events.take k))
    (.publish nodeId payload maxHops)
  have hreply : (exec sha ((mesh sha).run (start ids hids fanout) (events.take k))
      (.publish nodeId payload maxHops)).2 = .published msg := hanswer
  rw [hreply] at hstep
  obtain ⟨hconfined, hspread, hhopsMsg⟩ := step_published hbefore hids hstep
  have hafter := step_wired hbefore hstep
  have hrun : (mesh sha).run (start ids hids fanout) events =
      (mesh sha).run (exec sha ((mesh sha).run (start ids hids fanout) (events.take k))
        (.publish nodeId payload maxHops)).1 (events.drop (k + 1)) := by
    conv_lhs => rw [hsplit]
    rw [Machine.run_append]
    rfl
  rw [hsplit, Machine.along_append] at hpositive
  constructor
  · intro honce
    rw [hrun] at hwired honce
    have hfew := (run_confined hconfined hafter hspread.origin (events.drop (k + 1))).few hwired
      hids honce
    omega
  · intro hfew
    rw [hrun] at hwired hquiet ⊢
    have hall := run_spread hspread hafter (by omega) (by rw [hhopsMsg]; exact hhops)
      (events.drop (k + 1)) hpositive.2.2
    exact hall.heldOnce hwired hquiet

/-! ### Four nodes and five -/

instance (node : GossipNode) (msg : GossipMessage) : Decidable (node.Holds msg) :=
  inferInstanceAs (Decidable (∃ stored ∈ node.messageStore, stored.publication = msg.publication))

instance (s : Mesh) (msg : GossipMessage) : Decidable (HeldOnce s msg) :=
  inferInstanceAs (Decidable (∀ node ∈ s.nodes.rows, _ = 1))

instance (s : Mesh) (event : Event) : Decidable (NoFalsePositive sha s event) :=
  match event with
  | .publish .. => isTrue trivial
  | .deliver index _ =>
    decidable_of_iff (∀ packet ∈ s.inFlight[index]?, ∀ node ∈ s.nodes.get? packet.target,
        node.filter.contains sha (asBytes packet.message.id) = true → node.Holds packet.message)
      ⟨fun h packet node hpacket hnode => h packet hpacket node hnode,
        fun h packet hpacket node hnode => h packet node hpacket hnode⟩

/-- SHA-256 of the message that is published below, and of its identifier, which is longer. -/
def sampleSha : Sha256 := fun message =>
  if message.length = 64 then
    ⟨[20, 177, 32, 234, 204, 111, 186, 176, 141, 183, 106, 59, 253, 166, 162, 36, 242, 95, 60,
    194, 11, 20, 86, 23, 116, 203, 225, 93, 118, 167, 17, 232], rfl⟩
  else
    ⟨[27, 69, 110, 51, 88, 152, 153, 209, 249, 42, 69, 135, 28, 201, 89, 243, 244, 255, 135, 141,
    155, 245, 160, 233, 32, 171, 71, 216, 134, 116, 209, 111], rfl⟩

/-- A message is published and whatever is in flight is delivered. -/
def sampleEvents : List Event :=
  .publish "node-a" (asBytes "sync") 5 :: List.replicate 8 (.deliver 0 .stored)

def fourIds : List String := ["node-a", "node-b", "node-c", "node-d"]

def fiveIds : List String := ["node-a", "node-b", "node-c", "node-d", "node-e"]

/-- The message of the sample, as its node publishes it. -/
def sampleMessage (ids : List String) : GossipMessage :=
  ((newNode ids 2 "node-a").publish sampleSha (asBytes "sync") 5).2.1

theorem four_nodes_reached : HeldOnce
    ((mesh sampleSha).run (start fourIds (by decide) 2) sampleEvents) (sampleMessage fourIds) := by
  have hpublished : (mesh sampleSha).Answers (start fourIds (by decide) 2) sampleEvents 0
      (.publish "node-a" (asBytes "sync") 5) (.published (sampleMessage fourIds)) :=
    ⟨rfl, by decide +kernel⟩
  have hquiet :
    ((mesh sampleSha).run (start fourIds (by decide) 2) sampleEvents).inFlight = [] := by
    rw [← List.isEmpty_iff]
    decide +kernel
  exact (heldOnce_iff (by decide) (by decide) (by decide +kernel) hquiet hpublished
    (by decide)).mpr (by decide)

theorem fifth_node_missed : ∃ k payload maxHops msg,
    (mesh sampleSha).Along (NoFalsePositive sampleSha) (start fiveIds (by decide) 2) sampleEvents ∧
    ((mesh sampleSha).run (start fiveIds (by decide) 2) sampleEvents).inFlight = [] ∧
    (mesh sampleSha).Answers (start fiveIds (by decide) 2) sampleEvents k
      (.publish "node-a" payload maxHops) (.published msg) ∧ fiveIds.length ≤ maxHops.toNat ∧
    ¬ HeldOnce ((mesh sampleSha).run (start fiveIds (by decide) 2) sampleEvents) msg := by
  refine ⟨0, asBytes "sync", 5, sampleMessage fiveIds, by decide +kernel, ?_, ⟨rfl, ?_⟩,
    by decide, by decide +kernel⟩
  · rw [← List.isEmpty_iff]
    decide +kernel
  · decide +kernel

end Pandora.Swarm.Dissemination
