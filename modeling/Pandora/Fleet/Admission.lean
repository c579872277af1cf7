import Pandora.Fleet.Steps

/-! # Admission of leases

Active leases are work, and three things may stand against work: its node, the node's supervisor and
a quiescence. `Admitted` joins the three; each change of the fleet restores it whatever the clocks
say, because no operation relies on time for it: a lease is closed by a write, not by its expiry.

**Main result** (`lease_admission`): `Admitted` holds in every reachable database, and a lease that
has left the state `active` keeps its state forever (`Settled`). -/

namespace Pandora.Fleet.Admission

open Lib.Tables Lib.Runs Text Fleet.Records Fleet.Leases Fleet.Fences Fleet.Engine Fleet.Steps

/-- The invariant of the active leases. -/
structure Admitted (db : FleetDb) : Prop where
  ready : ∀ lease ∈ db.leases, lease.state = .active →
    ∃ node ∈ db.nodes, node.id = lease.nodeId ∧ node.state = .ready
  stopped : ∀ s ∈ db.supervisors, s.state = .stopped →
    ∀ lease ∈ db.leases, lease.nodeId = s.nodeId → lease.state ≠ .active
  quiet : ∀ row, db.quiescence = some row → ∀ lease ∈ db.leases, lease.state ≠ .active

/-- The leases that are not active in `a` are in the same state in `b`. -/
def Settled (a b : FleetDb) : Prop :=
  ∀ lease ∈ a.leases, lease.state ≠ .active →
    ∃ lease' ∈ b.leases, lease'.id = lease.id ∧ lease'.state = lease.state

theorem fresh_admitted : Admitted .fresh :=
  ⟨by simp [FleetDb.fresh], by simp [FleetDb.fresh], by simp [FleetDb.fresh]⟩

section

variable {req : GuardRequest} {db db' : FleetDb}

/-- Every active lease of `b` is one of `a`, possibly with another expiry. -/
def NoNewWork (a b : FleetDb) : Prop :=
  ∀ lease ∈ b.leases, lease.state = .active →
    ∃ old ∈ a.leases, old.state = .active ∧ old.nodeId = lease.nodeId

theorem NoNewWork.refl : NoNewWork db db := fun lease hmem hact => ⟨lease, hmem, hact, rfl⟩

/-- Where no work is added and the rest stays, the invariant stays. -/
theorem Admitted.of_noNewWork (h : Admitted db) (hwork : NoNewWork db db')
    (hnodes : db'.nodes = db.nodes) (hsup : db'.supervisors = db.supervisors)
    (hquiet : db'.quiescence = db.quiescence) : Admitted db' := by
  refine ⟨fun lease hmem hact => ?_, fun s hs hstop lease hmem hnode hact => ?_,
    fun row hrow lease hmem hact => ?_⟩
  · obtain ⟨old, hold, hoact, honode⟩ := hwork lease hmem hact
    rw [hnodes, ← honode]
    exact h.ready old hold hoact
  · obtain ⟨old, hold, hoact, honode⟩ := hwork lease hmem hact
    rw [hsup] at hs
    exact h.stopped s hs hstop old hold (by rw [honode, hnode]) hoact
  · obtain ⟨old, hold, hoact, -⟩ := hwork lease hmem hact
    rw [hquiet] at hrow
    exact h.quiet row hrow old hold hoact

/-! ### Changes of leases -/

theorem closeLeases_noNewWork {p : FleetLease → Bool} {state : FleetLeaseState}
    (hstate : state ≠ .active) : NoNewWork db (closeLeases db p state) := by
  intro lease hmem hact
  obtain ⟨old, hold, rfl⟩ := mem_closeLeases.mp hmem
  split_ifs at hact ⊢ with hp
  · exact absurd hact hstate
  · exact ⟨old, hold, hact, rfl⟩

theorem extendLeases_noNewWork {p : FleetLease → Bool} {expiresAt : ℕ} :
    NoNewWork db (extendLeases db p expiresAt) := by
  intro lease hmem hact
  obtain ⟨old, hold, rfl⟩ := mem_extendLeases.mp hmem
  split_ifs at hact ⊢ with hp
  all_goals exact ⟨old, hold, hact, rfl⟩

theorem leaseGranted_admitted (h : Admitted db) {leases : Table FleetLease.id} {lease : FleetLease}
    {node : FleetNode} (hins : db.leases.insert? lease = some leases)
    (hnode : db.nodes.get? lease.nodeId = some node) (hready : node.state = .ready)
    (hsup : ∀ s, db.supervisors.get? lease.nodeId = some s → s.state = .running)
    (hquiet : db.quiescence = none) : Admitted { db with leases } := by
  refine ⟨fun l hmem hact => ?_, fun s hs hstop l hmem hl => ?_, fun row hrow => ?_⟩
  · rcases (Table.mem_insert? hins).mp hmem with hmem | rfl
    · exact h.ready l hmem hact
    · obtain ⟨hn, hid⟩ := Table.get?_eq_some.mp hnode
      exact ⟨node, hn, hid, hready⟩
  · rcases (Table.mem_insert? hins).mp hmem with hmem | rfl
    · exact h.stopped s hs hstop l hmem hl
    · have hrun := hsup s (Table.get?_eq_some.mpr ⟨hs, hl.symm⟩)
      rw [hstop] at hrun
      exact absurd hrun (by simp)
  · rw [hquiet] at hrow
    exact absurd hrow (by simp)

/-! ### Changes of nodes, supervisors and quiescence -/

theorem withdrawNode_active {nodeId : String} {state : FleetNodeState}
    {leaseState : FleetLeaseState} (hlease : leaseState ≠ .active) :
    ∀ lease ∈ (withdrawNode db nodeId state leaseState).leases, lease.state = .active →
      lease ∈ db.leases ∧ lease.nodeId ≠ nodeId := by
  intro lease hmem hact
  obtain ⟨old, hold, rfl⟩ := mem_withdrawNode_leases.mp hmem
  split_ifs at hact ⊢ with hp
  · exact absurd hact hlease
  · exact ⟨hold, fun hnode => hp ⟨hnode, hact⟩⟩

theorem nodeWithdrawn_admitted (h : Admitted db) {nodeId : String} {state : FleetNodeState}
    {leaseState : FleetLeaseState} (hlease : leaseState ≠ .active) :
    Admitted (withdrawNode db nodeId state leaseState) := by
  refine ⟨fun lease hmem hact => ?_, fun s hs hstop lease hmem hnode hact => ?_,
    fun row hrow lease hmem hact => ?_⟩
  · -- The node of a lease that is still active is another one.
    obtain ⟨hold, hne⟩ := withdrawNode_active hlease lease hmem hact
    obtain ⟨node, hn, hid, hready⟩ := h.ready lease hold hact
    have hother : node.id ≠ nodeId := by rw [hid]; exact hne
    exact ⟨node, mem_withdrawNode_nodes.mpr ⟨node, hn, by simp [hother]⟩, hid, hready⟩
  · obtain ⟨hold, -⟩ := withdrawNode_active hlease lease hmem hact
    exact h.stopped s hs hstop lease hold hnode hact
  · obtain ⟨hold, -⟩ := withdrawNode_active hlease lease hmem hact
    exact h.quiet row hrow lease hold hact

theorem supervisorSaved_admitted (h : Admitted db) {supervisor : FleetSupervisor}
    (hidle : supervisor.state = .stopped →
      ∀ lease ∈ db.leases, lease.nodeId = supervisor.nodeId → lease.state ≠ .active) :
    Admitted { db with supervisors := db.supervisors.upsert supervisor } := by
  refine ⟨h.ready, fun s hs hstop => ?_, h.quiet⟩
  rcases Table.mem_upsert.mp hs with rfl | ⟨hs, -⟩
  · exact hidle hstop
  · exact h.stopped s hs hstop

theorem dropQuiescence_admitted (h : Admitted db) (guard : FleetQuiescenceGuard) :
    Admitted (dropQuiescence db guard) := by
  refine ⟨h.ready, h.stopped, fun row hrow => h.quiet row ?_⟩
  exact (Option.filter_eq_some_iff.mp hrow).1

theorem change_admitted (hch : Change req db db') (h : Admitted db) : Admitted db' := by
  cases hch with
  | nodeRegistered node hins =>
    refine ⟨fun lease hmem hact => ?_, h.stopped, h.quiet⟩
    obtain ⟨n, hn, hid⟩ := h.ready lease hmem hact
    exact ⟨n, (Table.mem_insert? hins).mpr (Or.inl hn), hid⟩
  | nodeWithdrawn nodeId hlease => exact nodeWithdrawn_admitted h hlease
  | leasesClosed p hstate => exact h.of_noNewWork (closeLeases_noNewWork hstate) rfl rfl rfl
  | leasesExtended p expiresAt => exact h.of_noNewWork extendLeases_noNewWork rfl rfl rfl
  | leaseGranted hins hnode hready hsup hquiet =>
    exact leaseGranted_admitted h hins hnode hready hsup hquiet
  | supervisorSaved supervisor hidle => exact supervisorSaved_admitted h hidle
  | quiescenceLapsed => exact ⟨h.ready, h.stopped, by simp⟩
  | quiescenceDropped => exact dropQuiescence_admitted h _
  | quiescenceGranted hcall hclock hnone hleases => exact ⟨h.ready, h.stopped, fun _ _ => hleases⟩
  | fenceInstalled | fenceClosed | fenceExtended | operationGranted | operationExtended
  | operationReleased | operationsReaped => exact h.of_noNewWork NoNewWork.refl rfl rfl rfl

/-! ### Leases that have ended -/

theorem Settled.refl (db : FleetDb) : Settled db db := fun lease hmem _ => ⟨lease, hmem, rfl, rfl⟩

theorem Settled.trans {a b c : FleetDb} (hab : Settled a b) (hbc : Settled b c) : Settled a c := by
  intro lease hmem hend
  obtain ⟨l₁, hl₁, hid₁, hst₁⟩ := hab lease hmem hend
  obtain ⟨l₂, hl₂, hid₂, hst₂⟩ := hbc l₁ hl₁ (by rw [hst₁]; exact hend)
  exact ⟨l₂, hl₂, by rw [hid₂, hid₁], by rw [hst₂, hst₁]⟩

/-- Every change keeps the state of the leases that are not active. -/
theorem change_settled (hch : Change req db db') : Settled db db' := by
  intro lease hmem hend
  cases hch with
  | nodeWithdrawn nodeId hlease =>
    exact ⟨lease, mem_withdrawNode_leases.mpr ⟨lease, hmem, by simp [hend]⟩, rfl, rfl⟩
  | leasesClosed p hstate =>
    exact ⟨lease, mem_closeLeases.mpr ⟨lease, hmem, by simp [hend]⟩, rfl, rfl⟩
  | leasesExtended p expiresAt =>
    refine ⟨_, mem_extendLeases.mpr ⟨lease, hmem, rfl⟩, ?_⟩
    split_ifs <;> exact ⟨rfl, rfl⟩
  | leaseGranted hins => exact ⟨lease, (Table.mem_insert? hins).mpr (Or.inl hmem), rfl, rfl⟩
  | _ => exact ⟨lease, hmem, rfl, rfl⟩

end

variable (sha : Sha256)

/-- **The admission invariant**, in every reachable database: an active lease belongs to a
registered node that is ready and not stopped; there is none while a quiescence row is present; and
a lease that has left `active` stays as it is. -/
theorem lease_admission (reqs : List GuardRequest) :
    (∀ lease ∈ (dbAfter sha reqs).leases, lease.state = .active →
      ∃ node, (dbAfter sha reqs).nodes.get? lease.nodeId = some node ∧ node.state = .ready) ∧
    (∀ nodeId s, (dbAfter sha reqs).supervisors.get? nodeId = some s → s.state = .stopped →
      ∀ lease ∈ (dbAfter sha reqs).leases, lease.nodeId = nodeId → lease.state ≠ .active) ∧
    (∀ row, (dbAfter sha reqs).quiescence = some row →
      ∀ lease ∈ (dbAfter sha reqs).leases, lease.state ≠ .active) ∧
    ∀ lease ∈ (dbAfter sha reqs).leases, lease.state ≠ .active → ∀ later,
      ∃ lease', (dbAfter sha (reqs ++ later)).leases.get? lease.id = some lease' ∧
        lease'.state = lease.state := by
  have h : Admitted (dbAfter sha reqs) := dbAfter_keeps sha fresh_admitted change_admitted reqs
  refine ⟨fun lease hmem hact => ?_, fun nodeId s hs hstop lease hmem hnode => ?_, h.quiet,
    fun lease hmem hend later => ?_⟩
  · obtain ⟨node, hn, hid, hready⟩ := h.ready lease hmem hact
    exact ⟨node, Table.get?_eq_some.mpr ⟨hn, hid⟩, hready⟩
  · obtain ⟨hmem_s, rfl⟩ := Table.get?_eq_some.mp hs
    exact h.stopped s hmem_s hstop lease hmem hnode
  · have hrun := run_keeps_pair sha Settled.refl (fun _ _ _ => Settled.trans) change_settled
      (dbAfter sha reqs) later
    obtain ⟨lease', hmem', hid, hst⟩ := hrun lease hmem hend
    rw [dbAfter, Machine.run_append]
    exact ⟨lease', Table.get?_eq_some.mpr ⟨hmem', hid⟩, hst⟩

end Pandora.Fleet.Admission
