import Pandora.Swarm.Dissemination

/-! # Causality in the mesh

A node merges the clock of every message it stores and counts the event itself, so its clock is at
least that of each of them (`Heard`). What it publishes is later, in the order of the clocks, than
all it has stored. -/

namespace Pandora.Swarm.Causality

open Lib.Tables Text Swarm.Clocks Swarm.Gossip Swarm.Dissemination VectorClock List

variable {sha : Sha256} {s s' : Mesh} {event : Event} {reply : Reply}

/-- What a node publishes next is later than what it has stored. -/
def Causal (sha : Sha256) (s : Mesh) : Prop :=
  ∀ node ∈ s.nodes.rows, ∀ stored ∈ node.messageStore, ∀ payload maxHops,
    stored.vectorClock.causallyPrecedes (node.publish sha payload maxHops).2.1.vectorClock = true

/-- The clock of a node is at least that of what it has stored. -/
def Heard (node : GossipNode) : Prop :=
  ∀ stored ∈ node.messageStore, Le stored.vectorClock node.clock

theorem heard_publish {node : GossipNode} (h : Heard node) (payload : List UInt8)
    (maxHops : UInt32) : Heard (node.publish sha payload maxHops).1 :=
  forall_mem_store (fun stored hstored key => (h stored hstored key).trans (le_increment _ _ key))
    fun _ => le_rfl

theorem heard_accept {node : GossipNode} (h : Heard node) (msg : GossipMessage) :
    Heard (node.accept sha msg) :=
  forall_mem_store (fun stored hstored key => (h stored hstored key).trans
    (((isLub_merge _ _).1 key).trans (le_increment _ _ key)))
    fun key => ((isLub_merge _ _).2.1 key).trans (le_increment _ _ key)

def AllHeard (s : Mesh) : Prop := ∀ id node, s.nodes.get? id = some node → Heard node

theorem heard_step (h : AllHeard s) (hstep : Step sha s event reply s') : AllHeard s' := by
  have hwritten : ∀ {id node'}, Table.Writes s.nodes s'.nodes id node' → Heard node' →
      AllHeard s' := by
    intro id node' hwrite hnew key node hnode
    rw [hwrite key] at hnode
    split_ifs at hnode
    · exact Option.some.inj hnode ▸ hnew
    · exact h key node hnode
  cases hstep with
  | same => exact h
  | published hnode hwrite _ => exact hwritten hwrite (heard_publish (h _ _ hnode) _ _)
  | discarded _ _ hnodes _ => exact fun id node hnode => h id node (hnodes id ▸ hnode)
  | received _ hnode _ hwrite _ => exact hwritten hwrite (heard_accept (h _ _ hnode) _)

/-- **Publications follow what was heard.** -/
theorem publications_causal (sha : Sha256) (ids : List String) (hids : ids.Nodup) (fanout : ℕ)
    (events : List Event) : Causal sha ((mesh sha).run (start ids hids fanout) events) := by
  have hheard := (mesh sha).run_invariant (P := AllHeard)
    (fun s event h => heard_step h (exec_step sha s event)) events (s := start ids hids fanout)
    (fun id node hnode stored hstored => by
      obtain ⟨-, rfl⟩ := start_get? hids hnode
      rw [newNode_store] at hstored
      exact absurd hstored not_mem_nil)
  intro node hnode stored hstored payload maxHops
  have hle := hheard node.nodeId node (Table.get?_eq_some.mpr ⟨hnode, rfl⟩) stored hstored
  refine causallyPrecedes_iff.mpr
    ⟨fun key => (hle key).trans (le_increment _ _ key), node.nodeId, ?_⟩
  change _ < (node.clock.increment node.nodeId).get node.nodeId
  rw [get_increment, if_pos rfl]
  exact Nat.lt_succ_of_le (hle node.nodeId)

theorem publications_causal_sample :
    Causal sampleSha ((mesh sampleSha).run (start fourIds (by decide) 2) sampleEvents) :=
  publications_causal sampleSha fourIds (by decide) 2 sampleEvents

end Pandora.Swarm.Causality
