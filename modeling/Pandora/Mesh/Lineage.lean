import Pandora.Lib.Graphs
import Pandora.Mesh.Sync

/-! # The lineage of capsules

The search for a cycle is exact: it succeeds from the capsules from which neither its goal nor a
cycle can be reached (`checkParents_spec`). A package that passes therefore closes no cycle, also
when it replaces the parents of a capsule that was admitted before, and the stored lineage stays
acyclic through every run. -/

namespace Pandora.Mesh.Lineage

open Relation Lib.MachineInts Lib.Tables Lib.Checked Lib.Graphs Memory.Sop Mesh.Sync List

/-! ### The search -/

section

variable {target current : String} {known : Ancestors} {marks marks' : Marks}

/-- From a known capsule to its parents. -/
def Parent (known : Ancestors) (capsuleId parent : String) : Prop :=
  parent ∈ parentsOf known capsuleId

/-- The known capsules that the search has not visited. -/
def unvisited (known : Ancestors) (marks : Marks) : Finset String :=
  (known.rows.map Lineage.capsuleId).toFinset \ marks.visited

/-- What was visited and is not on the stack is clear. -/
def Settled (target : String) (known : Ancestors) (visited inStack : Finset String) : Prop :=
  ∀ capsuleId ∈ visited, capsuleId ∉ inStack → Clear (Parent known) target capsuleId

/-- How the search from some capsules ends: all of them are clear, or one is not. -/
def Searched (target : String) (known : Ancestors) (marks : Marks) (starts : List String) :
    Except (Fault MeshError) Marks → Prop
  | .ok marks' => (∀ start ∈ starts, Clear (Parent known) target start) ∧
      marks'.inStack = marks.inStack ∧ marks.visited ⊆ marks'.visited ∧
      Settled target known marks'.visited marks.inStack
  | .error (.error _) => ∃ start ∈ starts, ¬ Clear (Parent known) target start
  | .error _ => False

/-- Every capsule on the stack leads to the start. -/
def OnPath (known : Ancestors) (marks : Marks) (start : String) : Prop :=
  ∀ capsuleId ∈ marks.inStack, TransGen (Parent known) capsuleId start

theorem unvisited_subset (h : marks.visited ⊆ marks'.visited) :
    (unvisited known marks').card ≤ (unvisited known marks).card :=
  Finset.card_le_card (Finset.sdiff_subset_sdiff le_rfl h)

/-- Visiting a capsule that has parents leaves one known capsule less. -/
theorem unvisited_insert (hparents : parentsOf known current ≠ [])
    (hvisited : current ∉ marks.visited) (inStack : Finset String) :
    (unvisited known ⟨insert current marks.visited, inStack⟩).card <
      (unvisited known marks).card := by
  have hknown : current ∈ (known.rows.map Lineage.capsuleId).toFinset := by
    rw [mem_toFinset, mem_map]
    unfold parentsOf at hparents
    rcases hget : known.get? current with _ | lineage
    · rw [hget] at hparents
      exact absurd rfl hparents
    · exact ⟨lineage, Table.get?_eq_some.mp hget⟩
  refine Finset.card_lt_card ⟨Finset.sdiff_subset_sdiff le_rfl (Finset.subset_insert _ _), ?_⟩
  intro hsub
  have hmem := hsub (Finset.mem_sdiff.mpr ⟨hknown, hvisited⟩)
  exact (Finset.mem_sdiff.mp hmem).2 (Finset.mem_insert_self _ _)

theorem searched_all {depth : ℕ}
    (hone : ∀ (start : String) (marks : Marks), OnPath known marks start →
      Settled target known marks.visited marks.inStack → (unvisited known marks).card < depth →
      Searched target known marks [start] (checkAncestryCycle target known depth start marks)) :
    ∀ (starts : List String) (marks : Marks), (∀ start ∈ starts, OnPath known marks start) →
      Settled target known marks.visited marks.inStack →
      (starts ≠ [] → (unvisited known marks).card < depth) →
      Searched target known marks starts (starts.foldlM
        (fun marks start => checkAncestryCycle target known depth start marks) marks)
  | [], marks, _, hsettled, _ => by
    refine ⟨?_, rfl, subset_rfl, hsettled⟩
    exact fun _ h => absurd h not_mem_nil
  | start :: starts, marks, hpath, hsettled, hdepth => by
    have hfirst := hone start marks (hpath start mem_cons_self) hsettled
      (hdepth (cons_ne_nil _ _))
    rw [foldlM_cons]
    rcases hresult : checkAncestryCycle target known depth start marks with fault | marks'
    · rw [hresult] at hfirst
      cases fault with
      | error e =>
        obtain ⟨_, hmem, hbad⟩ := hfirst
        rw [mem_singleton] at hmem
        subst hmem
        exact ⟨_, mem_cons_self, hbad⟩
      | panic | hang => exact hfirst
    · rw [hresult] at hfirst
      obtain ⟨hclear, hstack, hvisited, hsettled'⟩ := hfirst
      have hrest := searched_all hone starts marks' (fun other hother => by
          unfold OnPath
          rw [hstack]
          exact hpath other (mem_cons_of_mem _ hother))
        (by rw [hstack]; exact hsettled')
        (fun _ => lt_of_le_of_lt (unvisited_subset hvisited) (hdepth (cons_ne_nil _ _)))
      change Searched target known marks (start :: starts) (starts.foldlM _ marks')
      rcases hrestResult : starts.foldlM
        (fun marks start => checkAncestryCycle target known depth start marks) marks'
        with fault | marks''
      · rw [hrestResult] at hrest
        cases fault with
        | error e =>
          obtain ⟨other, hmem, hbad⟩ := hrest
          exact ⟨other, mem_cons_of_mem _ hmem, hbad⟩
        | panic | hang => exact hrest
      · rw [hrestResult] at hrest
        obtain ⟨hclears, hstack', hvisited', hsettled''⟩ := hrest
        refine ⟨?_, hstack'.trans hstack, hvisited.trans hvisited', ?_⟩
        · intro other hother
          rcases List.mem_cons.mp hother with rfl | hother
          · exact hclear other (mem_singleton_self _)
          · exact hclears other hother
        · rw [← hstack]
          exact hsettled''

/-- **The search from one capsule.** -/
theorem checkAncestryCycle_spec : ∀ (depth : ℕ) (current : String) (marks : Marks),
    OnPath known marks current → Settled target known marks.visited marks.inStack →
    (unvisited known marks).card < depth →
    Searched target known marks [current] (checkAncestryCycle target known depth current marks)
  | 0, _, _, _, _, hdepth => absurd hdepth (Nat.not_lt_zero _)
  | depth + 1, current, marks, hpath, hsettled, hdepth => by
    unfold checkAncestryCycle
    by_cases htarget : current = target
    · rw [if_pos htarget]
      exact ⟨current, mem_singleton_self _, fun hclear => (hclear current .refl).1 htarget⟩
    rw [if_neg htarget]
    by_cases hstack : current ∈ marks.inStack
    · rw [if_pos hstack]
      -- the capsule leads back to itself
      exact ⟨current, mem_singleton_self _,
        fun hclear => (hclear current .refl).2 (hpath current hstack)⟩
    rw [if_neg hstack]
    by_cases hvisited : current ∈ marks.visited
    · rw [if_pos hvisited]
      refine ⟨?_, rfl, subset_rfl, hsettled⟩
      intro start hstart
      rw [mem_singleton] at hstart
      subst hstart
      exact hsettled start hvisited hstack
    rw [if_neg hvisited]
    have hinner := searched_all (checkAncestryCycle_spec depth) (parentsOf known current)
      ⟨insert current marks.visited, insert current marks.inStack⟩
      (by
        intro parent hparent capsuleId hmem
        rcases Finset.mem_insert.mp hmem with rfl | hmem
        · exact .single hparent
        · exact (hpath capsuleId hmem).tail hparent)
      (by
        intro capsuleId hmem hnot
        rw [Finset.mem_insert, not_or] at hnot
        exact hsettled capsuleId ((Finset.mem_insert.mp hmem).resolve_left hnot.1) hnot.2)
      (by
        -- a capsule with parents is a known one, and it is visited now
        intro hparents
        have hsmaller := unvisited_insert hparents hvisited (insert current marks.inStack)
        omega)
    change Searched target known marks [current] (List.foldlM _ _ (parentsOf known current) >>= _)
    rcases hresult : (parentsOf known current).foldlM
      (fun marks parent => checkAncestryCycle target known depth parent marks)
      (⟨insert current marks.visited, insert current marks.inStack⟩ : Marks) with fault | marks'
    · rw [hresult] at hinner
      cases fault with
      | error e =>
        obtain ⟨parent, hparent, hbad⟩ := hinner
        exact ⟨current, mem_singleton_self _, fun hclear => hbad (hclear.of_edge hparent)⟩
      | panic | hang => exact hinner
    · rw [hresult] at hinner
      obtain ⟨hclears, hstack', hvisited', hsettled'⟩ := hinner
      have hclear : Clear (Parent known) target current := clear_of_edges htarget hclears
      refine ⟨?_, ?_, (Finset.subset_insert _ _).trans hvisited', ?_⟩
      · intro start hstart
        rw [mem_singleton] at hstart
        rw [hstart]
        exact hclear
      · change marks'.inStack.erase current = marks.inStack
        rw [hstack', Finset.erase_insert hstack]
      · intro capsuleId hmem hnot
        by_cases hcurrent : capsuleId = current
        · rw [hcurrent]
          exact hclear
        · refine hsettled' capsuleId hmem ?_
          rw [Finset.mem_insert, not_or]
          exact ⟨hcurrent, hnot⟩

/-- **The search from all parents**: it ends, and finds nothing exactly when there is nothing. -/
theorem checkParents_spec (target : String) (known : Ancestors) (parents : List String) :
    Searched target known ⟨∅, ∅⟩ parents (checkParents target known parents) := by
  refine searched_all (checkAncestryCycle_spec _) parents ⟨∅, ∅⟩ ?_ ?_ ?_
  · exact fun _ _ _ h => absurd h (Finset.notMem_empty _)
  · exact fun _ h => absurd h (Finset.notMem_empty _)
  · intro _
    have hcard := toFinset_card_le (known.rows.map Lineage.capsuleId)
    rw [length_map] at hcard
    unfold unvisited
    rw [Finset.sdiff_empty]
    omega

end

/-! ### The checks of a package -/

variable {crypto : Crypto}

/-- The digest, the signature and the procedure of the package pass their checks. -/
def Genuine (crypto : Crypto) (package : SignedCapsulePackage) : Prop :=
  package.capsule.verifyDigest crypto.sha crypto.json = true ∧
    verifyAuthor crypto package = .ok () ∧ package.capsule.sop.validate = .ok ()

/-- Neither the capsule itself nor a cycle can be reached from the parents of the package. -/
def Unrelated (package : SignedCapsulePackage) (known : Ancestors) : Prop :=
  ∀ parent ∈ package.parentCapsuleIds, ∀ ancestor, ReflTransGen (Parent known) parent ancestor →
      ancestor ≠ package.capsuleId ∧ ¬ TransGen (Parent known) ancestor ancestor

variable {known : Ancestors}

theorem checkParents_ok_iff {target : String} {parents : List String} :
    (∃ marks, checkParents target known parents = .ok marks) ↔
      ∀ parent ∈ parents, Clear (Parent known) target parent := by
  have hspec := checkParents_spec target known parents
  rcases hresult : checkParents target known parents with fault | marks
  · rw [hresult] at hspec
    cases fault with
    | error e =>
      obtain ⟨parent, hparent, hbad⟩ := hspec
      constructor
      · rintro ⟨_, hok⟩
        cases hok
      · exact fun hall => absurd (hall parent hparent) hbad
    | panic | hang => exact hspec.elim
  · rw [hresult] at hspec
    exact ⟨fun _ => hspec.1, fun _ => ⟨marks, rfl⟩⟩

variable {package : SignedCapsulePackage}

/-- **What the checks accept.** -/
theorem validate_ok_iff {verdict : CapsuleValidationVerdict} :
    validateCapsulePackage crypto package known = .ok verdict ↔
      Genuine crypto package ∧ Unrelated package known ∧
        verdict = ⟨true, true, true, true, package.capsuleId, package.capsule.author⟩ := by
  unfold validateCapsulePackage
  simp only [bind_eq_ok, ensure_eq_ok, lift_eq_ok, mapError_eq_ok, pure_eq_ok]
  constructor
  · rintro ⟨-, hdigest, ⟨⟩, hauthor, ⟨⟩, hsop, -, -, marks, hsearch, rfl⟩
    exact ⟨⟨hdigest, hauthor, hsop⟩, checkParents_ok_iff.mp ⟨marks, hsearch⟩, rfl⟩
  · rintro ⟨⟨hdigest, hauthor, hsop⟩, hunrelated, rfl⟩
    obtain ⟨marks, hsearch⟩ := checkParents_ok_iff.mpr hunrelated
    have hself : package.capsule.capsuleId ∉ package.parentCapsuleIds :=
      fun hmem => (hunrelated _ hmem _ .refl).1 rfl
    exact ⟨(), hdigest, (), hauthor, (), hsop, (), hself, marks, hsearch, rfl⟩

theorem ends_ensure {p : Prop} [Decidable p] (e : MeshError) :
    Ends (ensure p (Fault.error e)) := by
  unfold ensure
  split_ifs
  · exact ends_ok ()
  · exact ends_error e

theorem validate_ends (package : SignedCapsulePackage) (known : Ancestors) :
    Ends (validateCapsulePackage crypto package known) := by
  unfold validateCapsulePackage
  refine (ends_ensure _).bind fun _ => (ends_lift _).bind fun _ => (ends_lift _).bind fun _ =>
    (ends_ensure _).bind fun _ => Ends.bind ?_ fun _ => ends_ok _
  intro fault hfault
  have hspec := checkParents_spec package.capsule.capsuleId known package.parentCapsuleIds
  rw [hfault] at hspec
  cases fault with
  | error e => exact ⟨e, rfl⟩
  | panic | hang => exact hspec.elim

/-! ### The stored lineage -/

/-- From a stored capsule to its parents. -/
def StoredParent (store : CapsuleStore) (capsuleId parent : String) : Prop :=
  ∃ package, store.get? capsuleId = some package ∧ parent ∈ package.parentCapsuleIds

/-- The known capsules are the stored ones. -/
def Agree (known : Ancestors) (store : CapsuleStore) : Prop :=
  ∀ capsuleId, known.get? capsuleId =
    (store.get? capsuleId).map fun package => ⟨capsuleId, package.parentCapsuleIds⟩

variable {store : CapsuleStore}

theorem Agree.parent_iff (h : Agree known store) (capsuleId parent : String) :
    Parent known capsuleId parent ↔ StoredParent store capsuleId parent := by
  unfold Parent parentsOf StoredParent
  rw [h capsuleId]
  rcases store.get? capsuleId with _ | package
  · simp
  · simp

theorem get?_known : ∀ (rows : List SignedCapsulePackage) (known : Ancestors) (capsuleId : String),
    (rows.map SignedCapsulePackage.capsuleId).Nodup →
    (rows.foldl (fun known package =>
      known.upsert ⟨package.capsuleId, package.parentCapsuleIds⟩) known).get? capsuleId =
      ((rows.find? fun package => package.capsuleId = capsuleId).map fun package =>
        (⟨capsuleId, package.parentCapsuleIds⟩ : Lineage)).or (known.get? capsuleId)
  | [], _, _, _ => rfl
  | package :: rows, known, capsuleId, hnodup => by
    obtain ⟨hnew, hnodup⟩ := List.nodup_cons.mp hnodup
    rw [foldl_cons, get?_known rows _ _ hnodup, Table.get?_upsert]
    by_cases hkey : package.capsuleId = capsuleId
    · -- no later row has the key
      subst hkey
      have hnone : rows.find? (fun other => other.capsuleId = package.capsuleId) = none := by
        rw [List.find?_eq_none]
        intro other hother
        rw [decide_eq_true_iff]
        exact fun hsame => hnew (List.mem_map.mpr ⟨other, hother, hsame⟩)
      rw [hnone, List.find?_cons_of_pos (by simp), if_pos rfl]
      rfl
    · rw [List.find?_cons_of_neg (by simpa using hkey), if_neg fun h => hkey h.symm]

theorem agree_stored (store : CapsuleStore) : Agree (storedAncestors store) store := by
  intro capsuleId
  rw [storedAncestors, get?_known store.rows .empty capsuleId store.nodup, Table.get?_empty,
    Option.or_none]
  rfl

theorem accept_acyclic {pass : Pass}
    {verdict : CapsuleValidationVerdict} (promote : SopDefinition → Option String)
    (hagree : Agree pass.knownAncestors pass.store) (hacyclic : Acyclic (StoredParent pass.store))
    (h : validateCapsulePackage crypto package pass.knownAncestors = .ok verdict) :
    Agree (pass.accept package verdict promote).knownAncestors
        (pass.accept package verdict promote).store ∧
      Acyclic (StoredParent (pass.accept package verdict promote).store) := by
  obtain ⟨-, hunrelated, hverdict⟩ := validate_ok_iff.mp h
  have hid : verdict.capsuleId = package.capsuleId := by rw [hverdict]
  have hget : ∀ capsuleId, (storeMeshCapsule pass.store package).get? capsuleId =
      if capsuleId = package.capsuleId then some package else pass.store.get? capsuleId :=
    fun capsuleId => Table.get?_upsert capsuleId
  refine ⟨fun capsuleId => ?_, ?_⟩
  · change (pass.knownAncestors.upsert ⟨verdict.capsuleId, _⟩).get? capsuleId =
      ((storeMeshCapsule pass.store package).get? capsuleId).map _
    rw [hget, Table.get?_upsert, hid]
    split_ifs with hkey
    · rw [hkey]
      rfl
    · exact hagree capsuleId
  · refine hacyclic.replace (a := package.capsuleId) ?_ ?_
    · intro capsuleId parent hne
      unfold StoredParent
      rw [show (pass.accept package verdict promote).store = storeMeshCapsule pass.store package
        from rfl, hget, if_neg hne]
    · rintro parent ⟨found, hfound, hparent⟩ hpath
      change (storeMeshCapsule pass.store package).get? _ = _ at hfound
      rw [hget, if_pos rfl, Option.some.injEq] at hfound
      subst hfound
      -- the path was there before the package was stored
      have hknown : ReflTransGen (Parent pass.knownAncestors) parent package.capsuleId :=
        ReflTransGen.mono (fun a b => (hagree.parent_iff a b).mpr) _ _ hpath
      exact (hunrelated parent hparent _ hknown).1 rfl

theorem process_acyclic (crypto : Crypto) (promote : SopDefinition → Option String) {pass : Pass}
    (hagree : Agree pass.knownAncestors pass.store) (hacyclic : Acyclic (StoredParent pass.store))
    (candidate : Candidate) :
    ∃ pass', pass.process crypto promote candidate = .ok pass' ∧
      Agree pass'.knownAncestors pass'.store ∧ Acyclic (StoredParent pass'.store) := by
  cases candidate with
  | invalid filename error => exact ⟨_, rfl, hagree, hacyclic⟩
  | package package =>
    rcases hresult : validateCapsulePackage crypto package pass.knownAncestors with fault | verdict
    · obtain ⟨e, rfl⟩ := validate_ends package pass.knownAncestors fault hresult
      refine ⟨pass.reject package.capsuleId e.display, ?_, hagree, hacyclic⟩
      simp only [Pass.process, hresult]
    · refine ⟨pass.accept package verdict promote, ?_, accept_acyclic promote hagree
        hacyclic hresult⟩
      simp only [Pass.process, hresult]

theorem syncCapsules_acyclic (crypto : Crypto)
    (h : Acyclic (StoredParent store)) (candidates : List Candidate) (promote : SopDefinition →
      Option String) :
    ∃ store' result, syncCapsules crypto store candidates promote = .ok (store', result) ∧
      Acyclic (StoredParent store') := by
  have hfold : ∀ (candidates : List Candidate) (pass : Pass),
      Agree pass.knownAncestors pass.store → Acyclic (StoredParent pass.store) →
      ∃ pass', candidates.foldlM (Pass.process crypto promote) pass = .ok pass' ∧
        Acyclic (StoredParent pass'.store) := by
    intro candidates
    induction candidates with
    | nil => exact fun pass _ hacyclic => ⟨pass, rfl, hacyclic⟩
    | cons candidate candidates ih =>
      intro pass hagree hacyclic
      obtain ⟨next, hnext, hagree', hacyclic'⟩ :=
        process_acyclic crypto promote hagree hacyclic candidate
      obtain ⟨last, hlast, hacyclic''⟩ := ih next hagree' hacyclic'
      refine ⟨last, ?_, hacyclic''⟩
      rw [foldlM_cons, hnext]
      exact hlast
  obtain ⟨pass, hpass, hacyclic⟩ := hfold candidates ⟨store, storedAncestors store, ⟨[], [], []⟩⟩
    (agree_stored store) h
  refine ⟨pass.store, pass.result, ?_, hacyclic⟩
  unfold syncCapsules
  rw [hpass]
  rfl

theorem stored_acyclic (h : Acyclic (StoredParent store))
    (hparents : package.parentCapsuleIds = []) :
    Acyclic (StoredParent (storeMeshCapsule store package)) := by
  have hget : ∀ capsuleId, (storeMeshCapsule store package).get? capsuleId =
      if capsuleId = package.capsuleId then some package else store.get? capsuleId :=
    fun capsuleId => Table.get?_upsert capsuleId
  refine h.replace (a := package.capsuleId) ?_ ?_
  · intro capsuleId parent hne
    unfold StoredParent
    rw [hget, if_neg hne]
  · rintro parent ⟨found, hfound, hparent⟩
    rw [hget, if_pos rfl, Option.some.injEq] at hfound
    subst hfound
    rw [hparents] at hparent
    exact absurd hparent not_mem_nil

theorem broadcastPackage_parents {identity : PeerIdentity} {sopId : String} {sop : SopDefinition}
    {timestamp : ℕ}
    (h : broadcastPackage crypto identity sopId sop timestamp = .ok package) :
    package.parentCapsuleIds = [] := by
  obtain ⟨_, -, h⟩ := bind_eq_ok.mp h
  rw [pure_eq_ok] at h
  rw [← h]

theorem broadcastSop_acyclic (crypto : Crypto)
    (h : Acyclic (StoredParent store)) (identity : PeerIdentity) (sopId : String)
    (stored : Option SopDefinition) (timestamp : ℕ) :
    Acyclic (StoredParent (broadcastSop crypto store identity sopId stored timestamp).1) := by
  unfold broadcastSop
  cases stored with
  | none => exact h
  | some sop =>
    rcases hpackage : broadcastPackage crypto identity sopId sop timestamp with e | package
    · simp only [hpackage]
      exact h
    · simp only [hpackage]
      exact stored_acyclic h (broadcastPackage_parents hpackage)

theorem exec_acyclic (crypto : Crypto) (h : Acyclic (StoredParent store))
    (call : Call) : Acyclic (StoredParent (exec crypto store call).1) := by
  cases call with
  | sync candidates promote =>
    obtain ⟨store', result, hsync, hacyclic⟩ := syncCapsules_acyclic crypto h candidates promote
    simp only [exec, hsync]
    exact hacyclic
  | broadcast identity sopId stored timestamp =>
    exact broadcastSop_acyclic crypto h identity sopId stored timestamp

theorem empty_acyclic : Acyclic (StoredParent .empty) := by
  intro capsuleId hcycle
  obtain ⟨_, ⟨_, hget, -⟩, -⟩ := TransGen.head'_iff.mp hcycle
  cases hget

/-- **Capsule lineage stays acyclic**, and the checks of a package are exact about its ancestry. -/
theorem lineage_acyclic (crypto : Crypto) :
    (∀ calls : List Call, Acyclic (StoredParent ((engine crypto).run .empty calls))) ∧
    ∀ (package : SignedCapsulePackage) (known : Ancestors), Genuine crypto package →
      ((∃ verdict, validateCapsulePackage crypto package known = .ok verdict) ↔
        Unrelated package known) := by
  refine ⟨fun calls => ?_, fun package known hgenuine => ⟨?_, fun hunrelated => ?_⟩⟩
  · exact (engine crypto).run_invariant (P := fun store => Acyclic (StoredParent store))
      (fun store call h => exec_acyclic crypto h call) calls empty_acyclic
  · rintro ⟨verdict, hverdict⟩
    exact (validate_ok_iff.mp hverdict).2.1
  · exact ⟨_, validate_ok_iff.mpr ⟨hgenuine, hunrelated, rfl⟩⟩

theorem sample_genuine (parents : List String) :
    Genuine sampleCrypto { samplePackage with parentCapsuleIds := parents } := by
  refine ⟨?_, ?_, ?_⟩
  · change samplePackage.capsule.verifyDigest sampleCrypto.sha sampleCrypto.json = true
    decide +kernel
  · change verifyAuthor sampleCrypto samplePackage = .ok ()
    decide +kernel
  · change samplePackage.capsule.sop.validate = .ok ()
    decide +kernel

/-- Where no capsule is known, a package is unrelated to its parents unless it is one of them. -/
theorem unrelated_empty
    (h : package.capsuleId ∉ package.parentCapsuleIds) : Unrelated package .empty := by
  intro parent hparent ancestor hpath
  have hnone : ∀ a b, ¬ Parent .empty a b := fun a b h => absurd h not_mem_nil
  rcases hpath.cases_head with rfl | ⟨b, hedge, -⟩
  · refine ⟨fun heq => h (heq ▸ hparent), fun hcycle => ?_⟩
    obtain ⟨b, hedge, -⟩ := TransGen.head'_iff.mp hcycle
    exact hnone _ _ hedge
  · exact absurd hedge (hnone _ _)

/-- A base that has a parent of its own. -/
def sampleKnown : Ancestors := Table.empty.upsert ⟨"capsule-base", ["capsule-root"]⟩

theorem sampleKnown_parent {a b : String} (h : Parent sampleKnown a b) :
    a = "capsule-base" ∧ b = "capsule-root" := by
  unfold Parent parentsOf sampleKnown at h
  rw [Table.get?_upsert] at h
  split_ifs at h with ha
  · exact ⟨ha, mem_singleton.mp h⟩
  · cases h

theorem sample_unrelated :
    Unrelated { samplePackage with parentCapsuleIds := ["capsule-base"] } sampleKnown := by
  have hroot : ∀ b, ¬ Parent sampleKnown "capsule-root" b := fun b h =>
    absurd (sampleKnown_parent h).1 (by decide)
  rintro parent hparent ancestor hpath
  obtain rfl := mem_singleton.mp hparent
  constructor
  · rintro rfl
    rcases hpath.cases_tail with heq | ⟨b, -, hedge⟩
    · exact absurd heq (by decide)
    · exact absurd (sampleKnown_parent hedge).2 (by decide)
  · intro hcycle
    obtain ⟨b, hedge, hback⟩ := TransGen.head'_iff.mp hcycle
    obtain ⟨rfl, rfl⟩ := sampleKnown_parent hedge
    rcases hback.cases_head with heq | ⟨c, hnext, -⟩
    · exact absurd heq (by decide)
    · exact hroot c hnext

theorem sample_accepted : ∃ verdict, validateCapsulePackage sampleCrypto
    { samplePackage with parentCapsuleIds := ["capsule-base"] } sampleKnown = .ok verdict :=
  ((lineage_acyclic sampleCrypto).2 _ sampleKnown (sample_genuine _)).mpr sample_unrelated

end Pandora.Mesh.Lineage
