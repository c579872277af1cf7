import Pandora.Packages.Store

/-! # What the operations do

For each operation, what it has checked and what it has changed when it is committed. The records,
the bindings, the trust roots and the ledger are different parts of the store, and an operation
changes only some of them. -/

namespace Pandora.Packages.Steps

open Text Lib.Checked Lib.Tables Packages.Manifest Packages.Registry Packages.Store Option

variable {env : PackageEnv} {store store' : PackageStore} {registry registry' : HarnessRegistry}
  {roots : PublisherTrustRoots} {manifest declared embedded : PackageManifest}
  {artifact : List UInt8} {id version : String} {time : ℕ}
  {result : Except PackageStoreError PackageAnswer}

/-! ### The ledger -/

/-- An event is entered at the end of the ledger; the rest of the store stays. -/
structure Appended (env : PackageEnv) (store : PackageStore)
    (draft : PackageTransparencyEventDraft) (store' : PackageStore) : Prop where
  chain : validateTransparencyChain env store.events = .ok ()
  room : store.events.length < maxPackageTransparencyEvents
  inTime : draft.occurredAt < 2 ^ 63
  eq : store' = { store with events := store.events ++ [eventOf env store.events draft] }

theorem append_cases {draft : PackageTransparencyEventDraft}
    (h : appendTransparencyEvent env store draft = .ok store') :
    Appended env store draft store' := by
  unfold appendTransparencyEvent at h
  simp only [bind_eq_ok, ensure_eq_ok, exists_const, pure_eq_ok] at h
  obtain ⟨_, hchain, hroom, htime, -, heq⟩ := h
  exact ⟨hchain, hroom, htime, heq.symm⟩

/-- What is entered for an admission. -/
def admissionDraft (env : PackageEnv) (declared : PackageManifest) (declaredJson : String)
    (artifactDigest : Option String) (outcome : PackageTransparencyOutcome) (reasonCode : String)
    (occurredAt : ℕ) : PackageTransparencyEventDraft where
  eventKind := .admissionDecision
  outcome := outcome
  occurredAt := occurredAt
  publisher := declared.publisher
  keyId := none
  packageId := some declared.id
  packageVersion := some declared.version
  subjectDigest := hashArtifact env (asBytes declaredJson)
  artifactDigest := artifactDigest
  reasonCode := reasonCode

/-! ### The registry -/

/-- A package that is installed has passed every check. -/
structure Installs (env : PackageEnv) (registry : HarnessRegistry) (manifest : PackageManifest)
    (artifact : List UInt8) (roots : PublisherTrustRoots) : Prop where
  valid : manifest.validate env.semver = .ok ()
  admissible : admissible env roots manifest artifact = .ok ()
  free : registry.get manifest.id manifest.version = none
  dependencies : ∃ hasRequiredGene,
    checkDependencies registry manifest false manifest.dependencies = .ok hasRequiredGene ∧
      ¬ (manifest.kind = .domainHarness ∧ ¬ hasRequiredGene)
  domains : checkDomains registry manifest = .ok ()

theorem install_cases {record : PackageRecord}
    (h : registry.install env declared embedded artifact roots = .ok (registry', record)) :
    declared = embedded ∧ Installs env registry embedded artifact roots ∧
      record = recordOf embedded ∧
      registry.packages.insert? (recordOf embedded) = some registry'.packages := by
  unfold HarnessRegistry.install at h
  simp only [bind_eq_ok, ensure_eq_ok, exists_const, pure_eq_ok, orError_eq_ok, Prod.mk.injEq] at h
  obtain ⟨hmanifests, _, hadmissible, hfree, gene, hdependencies, hgene, _, hdomains, packages,
    hinsert, hregistry, hrecord⟩ := h
  refine ⟨hmanifests.2.2, ⟨hmanifests.2.1, hadmissible, hfree, ⟨gene, hdependencies, hgene⟩,
    hdomains⟩, hrecord.symm, ?_⟩
  rw [hinsert, ← hregistry]

theorem Installs.install (h : Installs env registry manifest artifact roots) :
    ∃ registry', registry.install env manifest manifest artifact roots =
        .ok (registry', recordOf manifest) ∧
      registry.packages.insert? (recordOf manifest) = some registry'.packages := by
  obtain ⟨packages, hpackages⟩ := Table.exists_insert? (recordOf manifest) h.free
  obtain ⟨gene, hdependencies, hgene⟩ := h.dependencies
  refine ⟨⟨packages⟩, ?_, hpackages⟩
  unfold HarnessRegistry.install
  simp only [bind_eq_ok, ensure_eq_ok, exists_const, pure_eq_ok, orError_eq_ok, Prod.mk.injEq]
  exact ⟨⟨h.valid, h.valid, trivial⟩, (), h.admissible, h.free, gene, hdependencies, hgene, (),
    h.domains, packages, hpackages, rfl, trivial⟩

/-! ### Operations -/

/-- An admission is denied, or the package is installed and its row inserted. -/
theorem admit_cases (h : admitAt env store declared embedded artifact time = .ok (store', result)) :
    ∃ declaredJson, env.write declared = some declaredJson ∧
      ((∃ artifactDigest reasonCode error, result = .error error ∧
        (artifactDigest = none ∧ reasonCode = "artifact_too_large" ∨
          artifactDigest = some (hashArtifact env artifact) ∧
            (reasonCode = "invalid_gene_artifact" ∨
              ∃ error, reasonCode = admissionReasonCode error)) ∧
        Appended env store (admissionDraft env declared declaredJson artifactDigest .denied
          reasonCode time) store') ∨
      (∃ registry registry' roots records, artifact.length ≤ maxStoredArtifactBytes ∧
        loadRegistry env store = .ok registry ∧ loadPublisherTrustRoots env store = .ok roots ∧
        registry.install env declared embedded artifact roots = .ok (registry', recordOf embedded) ∧
        store.records.insert? (rowOf (recordOf embedded) declaredJson artifact) = some records ∧
        result = .ok (.record (recordOf embedded)) ∧
        Appended env { store with records := records } (admissionDraft env declared declaredJson
          (some (hashArtifact env artifact)) .allowed "admitted" time) store')) := by
  unfold admitAt at h
  simp only [bind_eq_ok, orError_eq_ok] at h
  obtain ⟨declaredJson, hwrite, h⟩ := h
  refine ⟨declaredJson, hwrite, ?_⟩
  split_ifs at h with hlarge hartifact
  · left
    simp only [deny, appendAdmissionEvent, bind_eq_ok, pure_eq_ok, Prod.mk.injEq] at h
    obtain ⟨store₁, happend, rfl, rfl⟩ := h
    exact ⟨_, _, _, rfl, Or.inl ⟨rfl, rfl⟩, append_cases happend⟩
  · left
    simp only [deny, appendAdmissionEvent, bind_eq_ok, pure_eq_ok, Prod.mk.injEq] at h
    obtain ⟨store₁, happend, rfl, rfl⟩ := h
    exact ⟨_, _, _, rfl, Or.inr ⟨rfl, Or.inl rfl⟩, append_cases happend⟩
  · simp only [bind_eq_ok] at h
    obtain ⟨registry, hregistry, roots, hroots, h⟩ := h
    split at h
    · left
      rename_i error herror
      simp only [deny, appendAdmissionEvent, bind_eq_ok, pure_eq_ok, Prod.mk.injEq] at h
      obtain ⟨store₁, happend, rfl, rfl⟩ := h
      exact ⟨_, _, _, rfl, Or.inr ⟨rfl, Or.inr ⟨error, rfl⟩⟩, append_cases happend⟩
    · right
      rename_i registry' record hinstall
      obtain ⟨hsame, -, rfl, -⟩ := install_cases hinstall
      subst hsame
      simp only [bind_eq_ok, orError_eq_ok, pure_eq_ok, Prod.mk.injEq] at h
      obtain ⟨json, hjson, records, hrecords, store₁, happend, rfl, rfl⟩ := h
      have hjson' : declaredJson = json := by
        rw [show (recordOf declared).manifest = declared from rfl, hwrite] at hjson
        exact Option.some.inj hjson
      subst hjson'
      exact ⟨registry, registry', roots, records, Nat.le_of_not_lt hlarge, hregistry, hroots,
        hinstall, hrecords, rfl, append_cases happend⟩

theorem addTrustRoot_cases {publisher keyId publicKey : String}
    (h : addPublisherTrustRoot env store publisher keyId publicKey time = .ok (store', result)) :
    ∃ trustRoots, PublisherTrustRoot.new env publisher keyId publicKey =
        .ok ⟨publisher, keyId, publicKey⟩ ∧
      store.trustRoots.insert? ⟨⟨publisher, keyId, publicKey⟩, time, none⟩ = some trustRoots ∧
      Appended env { store with trustRoots := trustRoots } {
        eventKind := .trustRootAdded
        outcome := .allowed
        occurredAt := time
        publisher := publisher
        keyId := some keyId
        packageId := none
        packageVersion := none
        subjectDigest := hashArtifact env (asBytes publicKey)
        artifactDigest := none
        reasonCode := "trust_root_added" } store' := by
  unfold addPublisherTrustRoot at h
  simp only [bind_eq_ok, mapError_eq_ok, ensure_eq_ok, exists_const, orError_eq_ok, pure_eq_ok,
    Prod.mk.injEq] at h
  obtain ⟨root, hroot, -, -, trustRoots, hinsert, store₁, happend, rfl, -⟩ := h
  have hsame : root = ⟨publisher, keyId, publicKey⟩ := by
    unfold PublisherTrustRoot.new at hroot
    simp only [bind_eq_ok, ensure_eq_ok, exists_const, pure_eq_ok] at hroot
    obtain ⟨-, _, -, hroot⟩ := hroot
    exact hroot.symm
  subst hsame
  exact ⟨trustRoots, hroot, hinsert, append_cases happend⟩

theorem decodeTrustRoot_eq {record record' : PublisherTrustRootRecord}
    (h : decodeTrustRoot env record = .ok record') : record' = record := by
  unfold decodeTrustRoot PublisherTrustRoot.new at h
  simp only [bind_eq_ok, mapError_eq_ok, ensure_eq_ok, exists_const, pure_eq_ok] at h
  obtain ⟨root, ⟨-, _, -, rfl⟩, rfl⟩ := h
  rfl

/-- A trust root that is revoked already stays; otherwise the bindings of the packages that rely on
its key are deleted. -/
theorem revokeTrustRoot_cases {publisher keyId : String}
    (h : revokePublisherTrustRoot env store publisher keyId time = .ok (store', result)) :
    ∃ record, store.trustRoots.get? (publisher, keyId) = some record ∧
      ((record.revokedAt.isSome ∧ store' = store) ∨
      (record.revokedAt = none ∧ ∃ ids,
        affectedIds env store publisher record.root.publicKey = .ok ids ∧
        Appended env { store with
          trustRoots := store.trustRoots.upsert { record with revokedAt := some time }
          bindings := store.bindings.delete fun binding => ids.contains binding.id } {
          eventKind := .trustRootRevoked
          outcome := .allowed
          occurredAt := time
          publisher := record.root.publisher
          keyId := some record.root.keyId
          packageId := none
          packageVersion := none
          subjectDigest := hashArtifact env (asBytes record.root.publicKey)
          artifactDigest := none
          reasonCode := "trust_root_revoked" } store')) := by
  unfold revokePublisherTrustRoot at h
  simp only [bind_eq_ok, ensure_eq_ok, exists_const, orError_eq_ok] at h
  obtain ⟨-, record, hrecord, record', hdecode, h⟩ := h
  obtain rfl := decodeTrustRoot_eq hdecode
  refine ⟨record', hrecord, ?_⟩
  split_ifs at h with hrevoked
  · simp only [pure_eq_ok, Prod.mk.injEq] at h
    exact Or.inl ⟨hrevoked, h.1.symm⟩
  · simp only [bind_eq_ok, pure_eq_ok, Prod.mk.injEq] at h
    obtain ⟨ids, hids, store₁, happend, rfl, -⟩ := h
    rw [not_isSome_iff_eq_none] at hrevoked
    exact Or.inr ⟨hrevoked, ids, hids, append_cases happend⟩

theorem persist_cases {binding : PackageBinding} (h : persistBinding store binding = .ok store') :
    store' = { store with bindings := store.bindings.upsert binding } := by
  unfold persistBinding at h
  simp only [bind_eq_ok, ensure_eq_ok, exists_const, pure_eq_ok] at h
  exact h.2.symm

/-- The dependents of the version that is enabled, if there is one, have been looked for. -/
def Released (registry : HarnessRegistry) (store : PackageStore) (id : String) : Prop :=
  ∀ current, store.activeVersion id = some current →
    enabledDependents registry store.activeVersion id current = []

theorem released_of_reject {binding : PackageBinding}
    (hbinding : store.bindings.get? id = some binding)
    (h : rejectCurrentDependents registry store.activeVersion id binding = .ok ()) :
    Released registry store id := by
  intro current hcurrent
  have hactive : binding.activeVersion = some current := by
    unfold PackageStore.activeVersion at hcurrent
    rw [hbinding, bind_some] at hcurrent
    exact hcurrent
  unfold rejectCurrentDependents at h
  rw [hactive] at h
  exact ensure_eq_ok.mp h

/-- A version is enabled that was already, or takes the place of the one before. -/
theorem enable_cases (h : enable env store id version = .ok (store', result)) :
    ∃ registry record, loadRegistry env store = .ok registry ∧
      registry.get id version = some record ∧
      ((store.activeVersion id = some version ∧ store' = store) ∨
      ∃ binding, store.activeVersion id ≠ some version ∧ Released registry store id ∧
        ensureEnableable registry store.activeVersion record = .ok () ∧ binding.id = id ∧
        binding.activeVersion = some version ∧
        (∀ previous, binding.previousVersion = some previous → ∃ old,
          store.bindings.get? id = some old ∧
          (old.activeVersion = some previous ∨ old.previousVersion = some previous)) ∧
        store' = { store with bindings := store.bindings.upsert binding }) := by
  unfold enable at h
  simp only [bind_eq_ok, orError_eq_ok] at h
  obtain ⟨registry, hregistry, record, hrecord, h⟩ := h
  refine ⟨registry, record, hregistry, hrecord, ?_⟩
  have hactive : store.activeVersion id = (store.bindings.get? id).bind (·.activeVersion) := rfl
  split at h
  · rename_i old hold
    rw [hold, bind_some] at hactive
    split_ifs at h with henables
    · simp only [pure_eq_ok, Prod.mk.injEq] at h
      left
      unfold PackageBinding.enables at henables
      rw [hactive]
      exact ⟨of_decide_eq_true henables, h.1.symm⟩
    · right
      simp only [bind_eq_ok, pure_eq_ok, Prod.mk.injEq] at h
      obtain ⟨_, hreject, _, henableable, store₁, hpersist, rfl, -⟩ := h
      refine ⟨_, ?_, released_of_reject hold hreject, henableable, rfl, rfl, ?_,
        persist_cases hpersist⟩
      · rw [hactive]
        exact fun he => henables (decide_eq_true he)
      · intro previous hprevious
        refine ⟨old, hold, ?_⟩
        unfold previousVersion at hprevious
        rw [hold, bind_some, filter_eq_some_iff] at hprevious
        have hor := hprevious.1
        rw [or_eq_some_iff] at hor
        exact hor.imp (fun h => h) And.right
  · right
    rename_i hnone
    simp only [bind_eq_ok, pure_eq_ok, Prod.mk.injEq] at h
    obtain ⟨_, henableable, store₁, hpersist, rfl, -⟩ := h
    rw [hnone] at hactive
    refine ⟨_, ?_, ?_, henableable, rfl, rfl, ?_, persist_cases hpersist⟩
    · rw [hactive]
      exact (some_ne_none _).symm
    · intro current hcurrent
      rw [hactive] at hcurrent
      cases hcurrent
    · intro previous hprevious
      cases hprevious

theorem disable_cases (h : disable env store id version = .ok (store', result)) :
    ∃ registry generation, loadRegistry env store = .ok registry ∧
      store.activeVersion id = some version ∧ Released registry store id ∧
      store' = { store with
        bindings := store.bindings.upsert ⟨id, none, some version, generation⟩ } := by
  unfold disable at h
  simp only [bind_eq_ok, orError_eq_ok, ensure_eq_ok, exists_const, pure_eq_ok, Prod.mk.injEq] at h
  obtain ⟨registry, hregistry, _, -, old, hold, henables, _, hreject, store₁, hpersist, rfl, -⟩ := h
  have hactive : store.activeVersion id = some version := by
    unfold PackageStore.activeVersion
    rw [hold]
    exact of_decide_eq_true henables
  refine ⟨registry, _, hregistry, hactive, ?_, persist_cases hpersist⟩
  intro current hcurrent
  rw [hactive, Option.some.injEq] at hcurrent
  subst hcurrent
  exact ensure_eq_ok.mp hreject

theorem rollback_cases (h : rollback env store id = .ok (store', result)) :
    ∃ registry old target record generation, loadRegistry env store = .ok registry ∧
      store.bindings.get? id = some old ∧ old.previousVersion = some target ∧
      registry.get id target = some record ∧ Released registry store id ∧
      ensureEnableable registry (Function.update store.activeVersion id (some target)) record =
        .ok () ∧
      store' = { store with bindings :=
        store.bindings.upsert ⟨id, some target, old.activeVersion, generation⟩ } := by
  unfold rollback at h
  simp only [bind_eq_ok, orError_eq_ok, pure_eq_ok, Prod.mk.injEq] at h
  obtain ⟨registry, hregistry, old, hold, target, htarget, record, hrecord, _, hreject, _,
    henableable, store₁, hpersist, rfl, -⟩ := h
  exact ⟨registry, old, target, record, _, hregistry, hold, htarget, hrecord,
    released_of_reject hold hreject, henableable, persist_cases hpersist⟩

/-- The package is neither enabled nor, with another one enabled, the one to return to. -/
theorem remove_cases (h : remove env store id version = .ok (store', result)) :
    ∃ registry, loadRegistry env store = .ok registry ∧
      ((registry.get id version = none ∧ store' = store ∧ result = .ok (.removed none)) ∨
      ∃ record bindings, registry.get id version = some record ∧
        installedDependents registry record id version = [] ∧
        (∀ binding, binding ∈ bindings ↔ binding ∈ store.bindings ∧
          ¬ (binding.id = id ∧ binding.previousVersion = some version)) ∧
        (∀ binding ∈ store.bindings, binding.id = id → binding.activeVersion ≠ some version) ∧
        (∀ binding ∈ store.bindings, binding.id = id → binding.previousVersion = some version →
          binding.activeVersion = none) ∧
        result = .ok (.removed (some record)) ∧
        store' = { store with
          records := store.records.delete fun row => row.key = (id, version)
          bindings := bindings }) := by
  unfold remove at h
  simp only [bind_eq_ok] at h
  obtain ⟨registry, hregistry, h⟩ := h
  refine ⟨registry, hregistry, ?_⟩
  split at h
  · rename_i hnone
    simp only [pure_eq_ok, Prod.mk.injEq] at h
    exact Or.inl ⟨hnone, h.1.symm, h.2.symm⟩
  · right
    rename_i record hrecord
    simp only [bind_eq_ok, ensure_eq_ok, exists_const, pure_eq_ok, Prod.mk.injEq] at h
    obtain ⟨store₁, hrelease, hdependents, -, rfl, rfl⟩ := h
    unfold releaseBinding at hrelease
    split at hrelease
    · rename_i hnone
      rw [pure_eq_ok] at hrelease
      subst hrelease
      have hno := Table.get?_eq_none.mp hnone
      refine ⟨record, store.bindings, hrecord, hdependents, fun binding => ?_,
        fun binding hb hid => absurd hid (hno binding hb),
        fun binding hb hid => absurd hid (hno binding hb), rfl, rfl⟩
      exact ⟨fun hb => ⟨hb, fun hboth => hno binding hb hboth.1⟩, And.left⟩
    · rename_i old hold
      obtain ⟨holdmem, holdid⟩ := Table.get?_eq_some.mp hold
      have honly : ∀ binding ∈ store.bindings, binding.id = id → binding = old :=
        fun binding hb hid => Table.eq_of_key hb holdmem (hid.trans holdid.symm)
      simp only [bind_eq_ok, ensure_eq_ok, exists_const] at hrelease
      obtain ⟨hnotactive, hrelease⟩ := hrelease
      split_ifs at hrelease with hprevious
      · simp only [bind_eq_ok, ensure_eq_ok, exists_const, pure_eq_ok] at hrelease
        obtain ⟨hidle, rfl⟩ := hrelease
        refine ⟨record, _, hrecord, hdependents, fun binding => ?_, ?_, ?_, rfl, rfl⟩
        · rw [Table.mem_delete, decide_eq_false_iff_not]
          refine and_congr_right fun hb => not_congr ⟨fun hid => ⟨hid, ?_⟩, And.left⟩
          rw [honly binding hb hid]
          exact hprevious
        · intro binding hb hid
          rw [honly binding hb hid]
          exact hnotactive
        · intro binding hb hid _
          rw [honly binding hb hid]
          exact hidle
      · rw [pure_eq_ok] at hrelease
        subst hrelease
        refine ⟨record, store.bindings, hrecord, hdependents, fun binding => ?_, ?_, ?_, rfl, rfl⟩
        · refine ⟨fun hb => ⟨hb, fun hboth => hprevious ?_⟩, And.left⟩
          rw [← honly binding hb hboth.1]
          exact hboth.2
        · intro binding hb hid
          rw [honly binding hb hid]
          exact hnotactive
        · intro binding hb hid hprev
          rw [honly binding hb hid] at hprev
          exact absurd hprev hprevious

end Pandora.Packages.Steps
