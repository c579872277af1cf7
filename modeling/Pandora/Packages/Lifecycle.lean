import Pandora.Packages.Loading

/-! # Enabled packages are closed under dependencies

An enabled package finds what it requires enabled (`Supported`). Disabling a version, or putting
another in its place, is refused while an enabled package binds it; so the other packages keep what
they require (`not_binds`).

Two operations do not look at this. `enable` looks for what the new version requires among the
versions that are enabled before it, the version of itself that it replaces included. Revoking a
trust root deletes bindings without looking at dependents. The theorem is about the sequences in
which neither happens (`Careful`). -/

namespace Pandora.Packages.Lifecycle

open Lib.Checked Lib.Tables Packages.Manifest Packages.Registry Packages.Store List Packages.Steps
  Packages.Loading

variable {env : PackageEnv} {store store' : PackageStore} {registry : HarnessRegistry}
  {manifest : PackageManifest} {id version : String} {active active' : String → Option String}
  {installed installed' : String → String → Option PackageManifest} {time : ℕ}
  {result : Except PackageStoreError PackageAnswer}

/-! ### The property -/

/-- What a package requires is built in or enabled. -/
structure Supported (active : String → Option String)
    (installed : String → String → Option PackageManifest) (manifest : PackageManifest) : Prop where
  dependencies : ∀ dependency ∈ manifest.dependencies, dependency.optional = false →
    (builtinDependency manifest dependency).isSome = true ∨
      active dependency.id = some dependency.version
  domains : manifest.kind = .metaHarness → ∀ domain ∈ allowedDomains manifest,
    builtinDomain domain = true ∨ ∃ version package, active domain = some version ∧
      installed domain version = some package ∧ package.kind = .domainHarness

/-- The package that is enabled is installed, and what it requires is enabled; the version to return
to is installed. -/
structure Closed (env : PackageEnv) (store : PackageStore) : Prop where
  active : ∀ id version, store.activeVersion id = some version →
    ∃ manifest, manifestOf env store id version = some manifest ∧
      Supported store.activeVersion (manifestOf env store) manifest
  previous : ∀ binding ∈ store.bindings, ∀ version, binding.previousVersion = some version →
    ∃ manifest, manifestOf env store binding.id version = some manifest

/-- The package requires the other one, which is not built in. -/
def Binds (manifest : PackageManifest) (id : String) : Prop :=
  (∃ dependency ∈ manifest.dependencies, dependency.optional = false ∧
    builtinDependency manifest dependency = none ∧ dependency.id = id) ∨
  (manifest.kind = .metaHarness ∧ id ∈ allowedDomains manifest ∧ builtinDomain id = false)

theorem Supported.transfer (h : Supported active installed manifest)
    (hactive : ∀ id version, Binds manifest id → active id = some version →
      active' id = some version)
    (hinstalled : ∀ id version package, Binds manifest id → active id = some version →
      installed id version = some package → installed' id version = some package) :
    Supported active' installed' manifest := by
  constructor
  · intro dependency hd hrequired
    rcases h.dependencies dependency hd hrequired with hbuiltin | henabled
    · exact Or.inl hbuiltin
    · rcases hbuiltin : builtinDependency manifest dependency with _ | kind
      · have hbinds : Binds manifest dependency.id :=
          Or.inl ⟨dependency, hd, hrequired, hbuiltin, rfl⟩
        exact Or.inr (hactive _ _ hbinds henabled)
      · exact Or.inl rfl
  · intro hkind domain hdomain
    rcases h.domains hkind domain hdomain with hbuiltin | ⟨version, package, henabled, hpackage, hk⟩
    · exact Or.inl hbuiltin
    · rcases hbuiltin : builtinDomain domain with _ | _
      · have hbinds : Binds manifest domain := Or.inr ⟨hkind, hdomain, hbuiltin⟩
        exact Or.inr ⟨version, package, hactive _ _ hbinds henabled,
          hinstalled _ _ _ hbinds henabled hpackage, hk⟩
      · exact Or.inl rfl

/-! ### The steps that keep it -/

/-- The package takes the place of a version of itself that it requires. -/
def ReplacesRequired (env : PackageEnv) (store : PackageStore) (id version : String) : Prop :=
  ∃ current manifest, store.activeVersion id = some current ∧ current ≠ version ∧
    manifestOf env store id version = some manifest ∧
    ((∃ dependency ∈ manifest.dependencies, dependency.optional = false ∧
      builtinDependency manifest dependency = none ∧ dependency.id = id ∧
      dependency.version = current) ∨
    (manifest.kind = .metaHarness ∧ id ∈ allowedDomains manifest ∧ builtinDomain id = false ∧
      ∃ package, manifestOf env store id current = some package ∧ package.kind = .domainHarness))

/-- A version of the package is signed with the key. -/
def Relies (env : PackageEnv) (store : PackageStore) (publisher publicKey id : String) : Prop :=
  ∃ row ∈ store.records, ∃ manifest, env.read row.manifestJson = some manifest ∧
    manifest.publisher = publisher ∧ manifest.trust.publicKey = some publicKey ∧ manifest.id = id

/-- A package that stays enabled requires one that relies on the key. -/
def Orphans (env : PackageEnv) (store : PackageStore) (publisher keyId : String) : Prop :=
  ∃ record id version manifest needed, store.trustRoots.get? (publisher, keyId) = some record ∧
    record.revokedAt = none ∧ store.activeVersion id = some version ∧
    manifestOf env store id version = some manifest ∧
    ¬ Relies env store publisher record.root.publicKey id ∧ Binds manifest needed ∧
    Relies env store publisher record.root.publicKey needed

/-- The step is not one of those that break the property. -/
def Careful (env : PackageEnv) (store : PackageStore) : PackageRequest → Prop
  | .enable id version => ¬ ReplacesRequired env store id version
  | .revokePublisherTrustRoot publisher keyId _ => ¬ Orphans env store publisher keyId
  | _ => True

/-! ### Bindings -/

theorem activeVersion_eq_some {id version : String} : store.activeVersion id = some version ↔
    ∃ binding ∈ store.bindings, binding.id = id ∧ binding.activeVersion = some version := by
  unfold PackageStore.activeVersion
  rw [Option.bind_eq_some_iff]
  constructor
  · rintro ⟨binding, hbinding, hactive⟩
    obtain ⟨hmem, hid⟩ := Table.get?_eq_some.mp hbinding
    exact ⟨binding, hmem, hid, hactive⟩
  · rintro ⟨binding, hmem, hid, hactive⟩
    exact ⟨binding, Table.get?_eq_some.mpr ⟨hmem, hid⟩, hactive⟩

theorem activeVersion_upsert (store : PackageStore) (binding : PackageBinding) :
    ({ store with bindings := store.bindings.upsert binding } : PackageStore).activeVersion =
      Function.update store.activeVersion binding.id binding.activeVersion := by
  funext id
  unfold PackageStore.activeVersion
  rw [Table.get?_upsert, Function.update_apply]
  split_ifs
  · rfl
  · rfl

theorem asSet_eq_nil {texts : List String} (h : asSet texts = []) : texts = [] := by
  rw [eq_nil_iff_forall_not_mem] at h ⊢
  intro text htext
  refine h text ?_
  unfold asSet
  rw [mem_insertionSort, mem_dedup]
  exact htext

theorem not_binds (hstored : WellStored env store) (hload : loadRegistry env store = .ok registry)
    (hreleased : Released registry store id) {other otherVersion : String}
    (hother : other ≠ id) (hactive : store.activeVersion other = some otherVersion)
    (hmanifest : manifestOf env store other otherVersion = some manifest)
    (hsupported : Supported store.activeVersion (manifestOf env store) manifest) :
    ¬ Binds manifest id := by
  obtain ⟨hid, hversion⟩ := manifestOf_key hstored hmanifest
  have hrecord : recordOf manifest ∈ registry.list := by
    have hget := get_loaded hstored hload other otherVersion
    rw [hmanifest, Option.map_some] at hget
    exact HarnessRegistry.mem_list.mpr (Table.get?_eq_some.mp hget).1
  -- it would be among the dependents of the version that is enabled
  have hnot : ∀ current, store.activeVersion id = some current →
      ¬ (dependsOn manifest id current = true ∨
        (manifest.kind = .metaHarness ∧ composes manifest id = true)) := by
    intro current hcurrent hneeds
    have hnil := asSet_eq_nil (hreleased current hcurrent)
    rw [map_eq_nil_iff, filter_eq_nil_iff] at hnil
    refine hnil (recordOf manifest) hrecord ?_
    have hself : (recordOf manifest).manifest = manifest := rfl
    rw [hself, hid, hversion, hactive]
    simp only [decide_true, Bool.true_and, Bool.and_eq_true, Bool.or_eq_true,
      Bool.not_eq_true', Bool.and_eq_false_iff, decide_eq_true_eq, decide_eq_false_iff_not]
    exact ⟨Or.inl hother, hneeds⟩
  rintro (⟨dependency, hd, hrequired, hbuiltin, rfl⟩ | ⟨hkind, hdomain, hbuiltin⟩)
  · rcases hsupported.dependencies dependency hd hrequired with hsome | henabled
    · rw [hbuiltin] at hsome
      cases hsome
    · refine hnot _ henabled (Or.inl ?_)
      unfold dependsOn
      rw [any_eq_true]
      refine ⟨dependency, hd, ?_⟩
      rw [hrequired]
      simp
  · rcases hsupported.domains hkind id hdomain with hsome | ⟨current, _, henabled, -, -⟩
    · rw [hbuiltin] at hsome
      cases hsome
    · refine hnot _ henabled (Or.inr ⟨hkind, ?_⟩)
      unfold allowedDomains at hdomain
      unfold composes
      rcases hcomposition : manifest.metaComposition with _ | composition
      · rw [hcomposition] at hdomain
        cases hdomain
      · rw [hcomposition] at hdomain
        rw [Option.any_some, any_eq_true]
        exact ⟨id, hdomain, decide_eq_true rfl⟩

theorem supported_of_enableable (hstored : WellStored env store)
    (hload : loadRegistry env store = .ok registry)
    (h : ensureEnableable registry active (recordOf manifest) = .ok ()) :
    Supported active (manifestOf env store) manifest := by
  unfold ensureEnableable at h
  simp only [bind_eq_ok] at h
  obtain ⟨_, hdependencies, hdomains⟩ := h
  have hself : (recordOf manifest).manifest = manifest := rfl
  rw [hself] at hdependencies hdomains
  constructor
  · intro dependency hd hrequired
    have hcheck := ensure_eq_ok.mp (forM_eq_ok.mp hdependencies dependency hd)
    rcases hcheck with hoptional | hbuiltin | henabled
    · rw [hrequired] at hoptional
      cases hoptional
    · exact Or.inl hbuiltin
    · exact Or.inr henabled
  · intro hkind domain hdomain
    rw [if_pos hkind] at hdomains
    have hcheck := forM_eq_ok.mp hdomains domain hdomain
    unfold checkEnabledDomain at hcheck
    split_ifs at hcheck with hbuiltin
    · exact Or.inl hbuiltin
    · simp only [bind_eq_ok, orError_eq_ok, ensure_eq_ok, exists_const] at hcheck
      obtain ⟨version, hversion, -, hdomainKind⟩ := hcheck
      rw [get_loaded hstored hload, Option.any_map, Option.any_eq_true] at hdomainKind
      obtain ⟨package, hpackage, hk⟩ := hdomainKind
      exact Or.inr ⟨version, package, hversion, hpackage, of_decide_eq_true hk⟩

/-! ### The steps -/

theorem manifestOf_congr (h : store'.records = store.records) :
    manifestOf env store' = manifestOf env store := by
  funext id version
  unfold manifestOf
  rw [h]

/-- Another version takes the place of the one that is enabled, or none does. -/
theorem closed_upsert {binding : PackageBinding} (hstored : WellStored env store)
    (hclosed : Closed env store) (hload : loadRegistry env store = .ok registry)
    (hreleased : Released registry store binding.id)
    (hprevious : ∀ version, binding.previousVersion = some version →
      ∃ manifest, manifestOf env store binding.id version = some manifest)
    (hactive : ∀ version, binding.activeVersion = some version →
      ∃ manifest, manifestOf env store binding.id version = some manifest ∧
        Supported (Function.update store.activeVersion binding.id (some version))
          (manifestOf env store) manifest) :
    Closed env { store with bindings := store.bindings.upsert binding } := by
  constructor
  · intro id version hid
    rw [activeVersion_upsert] at hid ⊢
    by_cases hsame : id = binding.id
    · subst hsame
      rw [Function.update_self] at hid
      rw [hid]
      exact hactive version hid
    · rw [Function.update_of_ne hsame] at hid
      obtain ⟨manifest, hmanifest, hsupported⟩ := hclosed.active id version hid
      have hnot := not_binds hstored hload hreleased hsame hid hmanifest hsupported
      refine ⟨manifest, hmanifest, hsupported.transfer (fun needed v hbinds hv => ?_)
        fun _ _ _ _ _ h => h⟩
      have hne : needed ≠ binding.id := fun he => hnot (he ▸ hbinds)
      rw [Function.update_of_ne hne]
      exact hv
  · intro other hother version hversion
    rcases Table.mem_upsert.mp hother with rfl | ⟨hmem, -⟩
    · exact hprevious version hversion
    · exact hclosed.previous other hmem version hversion

theorem closed_enable (hstored : WellStored env store) (hclosed : Closed env store)
    (hcareful : ¬ ReplacesRequired env store id version)
    (h : enable env store id version = .ok (store', result)) : Closed env store' := by
  obtain ⟨registry, record, hload, hrecord, ⟨-, rfl⟩ | ⟨binding, hnew, hreleased, henableable, rfl,
    hversion, hprevious, rfl⟩⟩ := enable_cases h
  · exact hclosed
  · rw [get_loaded hstored hload, Option.map_eq_some_iff] at hrecord
    obtain ⟨manifest, hmanifest, rfl⟩ := hrecord
    refine closed_upsert hstored hclosed hload hreleased ?_ ?_
    · intro version' hversion'
      obtain ⟨old, hold, hold'⟩ := hprevious version' hversion'
      obtain ⟨hmem, hid⟩ := Table.get?_eq_some.mp hold
      rcases hold' with hactive | hprev
      · obtain ⟨m, hm, -⟩ := hclosed.active binding.id version'
          (activeVersion_eq_some.mpr ⟨old, hmem, hid, hactive⟩)
        exact ⟨m, hm⟩
      · obtain ⟨m, hm⟩ := hclosed.previous old hmem version' hprev
        rw [hid] at hm
        exact ⟨m, hm⟩
    · intro version' hversion'
      rw [hversion, Option.some.injEq] at hversion'
      subst hversion'
      refine ⟨manifest, hmanifest, ?_⟩
      have hsupported := supported_of_enableable hstored hload henableable
      -- what it requires is not the version of itself that it replaces
      have hother : ∀ dependency ∈ manifest.dependencies, dependency.optional = false →
          builtinDependency manifest dependency = none →
          store.activeVersion dependency.id = some dependency.version →
          dependency.id ≠ binding.id := by
        intro dependency hd hrequired hbuiltin henabled hself
        rw [hself] at henabled
        refine hcareful ⟨dependency.version, manifest, henabled, ?_, hmanifest,
          Or.inl ⟨dependency, hd, hrequired, hbuiltin, hself, rfl⟩⟩
        exact fun he => hnew (he ▸ henabled)
      constructor
      · intro dependency hd hrequired
        rcases hbuiltin : builtinDependency manifest dependency with _ | kind
        · right
          rcases hsupported.dependencies dependency hd hrequired with hsome | henabled
          · rw [hbuiltin] at hsome
            cases hsome
          · rw [Function.update_of_ne (hother dependency hd hrequired hbuiltin henabled)]
            exact henabled
        · exact Or.inl rfl
      · intro hkind domain hdomain
        rcases hsupported.domains hkind domain hdomain with hbuiltin |
          ⟨v, package, hv, hpackage, hk⟩
        · exact Or.inl hbuiltin
        · rcases hbuiltin : builtinDomain domain with _ | _
          · have hne : domain ≠ binding.id := by
              rintro rfl
              refine hcareful ⟨v, manifest, hv, fun he => hnew (he ▸ hv), hmanifest,
                Or.inr ⟨hkind, hdomain, hbuiltin, package, hpackage, hk⟩⟩
            refine Or.inr ⟨v, package, ?_, hpackage, hk⟩
            rw [Function.update_of_ne hne]
            exact hv
          · exact Or.inl rfl

theorem closed_disable (hstored : WellStored env store) (hclosed : Closed env store)
    (h : disable env store id version = .ok (store', result)) : Closed env store' := by
  obtain ⟨registry, generation, hload, hactive, hreleased, rfl⟩ := disable_cases h
  refine closed_upsert hstored hclosed hload hreleased ?_ nofun
  rintro version' ⟨⟩
  obtain ⟨manifest, hmanifest, -⟩ := hclosed.active id version hactive
  exact ⟨manifest, hmanifest⟩

theorem closed_rollback (hstored : WellStored env store) (hclosed : Closed env store)
    (h : rollback env store id = .ok (store', result)) : Closed env store' := by
  obtain ⟨registry, old, target, record, generation, hload, hold, -, hrecord, hreleased,
    henableable, rfl⟩ := rollback_cases h
  rw [get_loaded hstored hload, Option.map_eq_some_iff] at hrecord
  obtain ⟨manifest, hmanifest, rfl⟩ := hrecord
  obtain ⟨hmem, hid⟩ := Table.get?_eq_some.mp hold
  refine closed_upsert hstored hclosed hload hreleased ?_ ?_
  · intro version hversion
    obtain ⟨m, hm, -⟩ := hclosed.active id version
      (activeVersion_eq_some.mpr ⟨old, hmem, hid, hversion⟩)
    exact ⟨m, hm⟩
  · rintro version ⟨⟩
    exact ⟨manifest, hmanifest, supported_of_enableable hstored hload henableable⟩

theorem closed_remove (hclosed : Closed env store)
    (h : remove env store id version = .ok (store', result)) : Closed env store' := by
  obtain ⟨registry, -,
    ⟨-, rfl, -⟩ | ⟨record, bindings, -, -, hbindings, hinactive, hidle, -, rfl⟩⟩ :=
    remove_cases h
  · exact hclosed
  · have hkept : ∀ other otherVersion manifest, (other, otherVersion) ≠ (id, version) →
        manifestOf env store other otherVersion = some manifest →
        manifestOf env { store with
          records := store.records.delete fun row => row.key = (id, version)
          bindings := bindings } other otherVersion = some manifest := by
      intro other otherVersion manifest hne hmanifest
      obtain ⟨row, hrow, hkey, hread⟩ := manifestOf_eq_some.mp hmanifest
      refine manifestOf_eq_some.mpr ⟨row, Table.mem_delete.mpr ⟨hrow, ?_⟩, hkey, hread⟩
      rw [decide_eq_false_iff_not, hkey]
      exact hne
    have hactive : ∀ other otherVersion, store.activeVersion other = some otherVersion →
        (other, otherVersion) ≠ (id, version) := by
      intro other otherVersion hother he
      obtain ⟨binding, hmem, hid, hbinding⟩ := activeVersion_eq_some.mp hother
      rw [Prod.mk.injEq] at he
      exact hinactive binding hmem (hid.trans he.1) (by rw [hbinding, he.2])
    have hsame : ({ store with
        records := store.records.delete fun row => row.key = (id, version)
        bindings := bindings } : PackageStore).activeVersion = store.activeVersion := by
      funext other
      ext otherVersion
      rw [activeVersion_eq_some, activeVersion_eq_some]
      constructor
      · rintro ⟨binding, hmem, hboth⟩
        exact ⟨binding, ((hbindings binding).mp hmem).1, hboth⟩
      · rintro ⟨binding, hmem, hid, hbinding⟩
        refine ⟨binding, (hbindings binding).mpr ⟨hmem, fun hgone => ?_⟩, hid, hbinding⟩
        rw [hidle binding hmem hgone.1 hgone.2] at hbinding
        cases hbinding
    constructor
    · intro other otherVersion hother
      rw [hsame] at hother ⊢
      obtain ⟨manifest, hmanifest, hsupported⟩ := hclosed.active other otherVersion hother
      refine ⟨manifest, hkept _ _ _ (hactive _ _ hother) hmanifest,
        hsupported.transfer (fun _ _ _ h => h) fun needed v package _ hv hpackage => ?_⟩
      exact hkept _ _ _ (hactive _ _ hv) hpackage
    · intro binding hmem previous hprevious
      obtain ⟨hmem, hnot⟩ := (hbindings binding).mp hmem
      obtain ⟨manifest, hmanifest⟩ := hclosed.previous binding hmem previous hprevious
      refine ⟨manifest, hkept _ _ _ (fun he => hnot ?_) hmanifest⟩
      rw [Prod.mk.injEq] at he
      exact ⟨he.1, by rw [hprevious, he.2]⟩

theorem closed_admitAt {declared embedded : PackageManifest} {artifact : List UInt8}
    (hclosed : Closed env store)
    (h : admitAt env store declared embedded artifact time = .ok (store', result)) :
    Closed env store' := by
  obtain ⟨declaredJson, -, ⟨_, _, _, -, -, happended⟩ | ⟨_, _, _, records, -, -, -, -, hinsert, -,
    happended⟩⟩ := admit_cases h
  · rw [happended.eq]
    exact ⟨hclosed.active, hclosed.previous⟩
  · have hkept : ∀ id version manifest, manifestOf env store id version = some manifest →
        manifestOf env store' id version = some manifest := by
      intro id version manifest hmanifest
      obtain ⟨row, hrow, hkey, hread⟩ := manifestOf_eq_some.mp hmanifest
      refine manifestOf_eq_some.mpr ⟨row, ?_, hkey, hread⟩
      rw [happended.eq]
      exact (Table.mem_insert? hinsert).mpr (Or.inl hrow)
    have hbindings : store'.bindings = store.bindings := by rw [happended.eq]
    have hsame : store'.activeVersion = store.activeVersion := by
      unfold PackageStore.activeVersion
      rw [hbindings]
    constructor
    · intro id version hid
      rw [hsame] at hid ⊢
      obtain ⟨manifest, hmanifest, hsupported⟩ := hclosed.active id version hid
      exact ⟨manifest, hkept _ _ _ hmanifest,
        hsupported.transfer (fun _ _ _ h => h) fun _ _ _ _ _ hp => hkept _ _ _ hp⟩
    · intro binding hmem version hversion
      rw [hbindings] at hmem
      obtain ⟨manifest, hmanifest⟩ := hclosed.previous binding hmem version hversion
      exact ⟨manifest, hkept _ _ _ hmanifest⟩

theorem mem_affectedIds {publisher publicKey : String} {ids : List String}
    (h : affectedIds env store publisher publicKey = .ok ids) {id : String} :
    id ∈ ids ↔ Relies env store publisher publicKey id := by
  unfold affectedIds at h
  simp only [bind_eq_ok, pure_eq_ok] at h
  obtain ⟨manifests, hmanifests, rfl⟩ := h
  have hread : ∀ (rows : List PackageRow) (manifests : List PackageManifest),
      rows.mapM (fun row => orError (env.read row.manifestJson) PackageStoreError.corruptRecord) =
        .ok manifests → ∀ manifest, manifest ∈ manifests ↔
          ∃ row ∈ rows, env.read row.manifestJson = some manifest := by
    intro rows
    induction rows with
    | nil =>
      intro manifests hnil manifest
      rw [mapM_nil, pure_eq_ok] at hnil
      subst hnil
      simp
    | cons row rows ih =>
      intro manifests hcons manifest
      simp only [mapM_cons, bind_eq_ok, orError_eq_ok, pure_eq_ok] at hcons
      obtain ⟨first, hfirst, rest, hrest, rfl⟩ := hcons
      rw [mem_cons, ih rest hrest, exists_mem_cons_iff, hfirst, Option.some.injEq,
        eq_comm]
  simp only [mem_map, mem_filter, Bool.and_eq_true, decide_eq_true_eq]
  constructor
  · rintro ⟨manifest, ⟨hmem, hpublisher, hkey⟩, rfl⟩
    obtain ⟨row, hrow, hrow'⟩ := (hread _ _ hmanifests manifest).mp hmem
    exact ⟨row, hrow, manifest, hrow', hpublisher, hkey, rfl⟩
  · rintro ⟨row, hrow, manifest, hrow', hpublisher, hkey, rfl⟩
    exact ⟨manifest, ⟨(hread _ _ hmanifests manifest).mpr ⟨row, hrow, hrow'⟩, hpublisher, hkey⟩,
      rfl⟩

/-- No package that stays enabled requires one whose binding is deleted. -/
theorem closed_revoke {publisher keyId : String} (hclosed : Closed env store)
    (hcareful : ¬ Orphans env store publisher keyId)
    (h : revokePublisherTrustRoot env store publisher keyId time = .ok (store', result)) :
    Closed env store' := by
  obtain ⟨record, hrecord, ⟨-, rfl⟩ | ⟨hrevoked, ids, hids, happended⟩⟩ := revokeTrustRoot_cases h
  · exact hclosed
  · have hrecords : store'.records = store.records := by rw [happended.eq]
    have hbindings : ∀ binding, binding ∈ store'.bindings ↔
        binding ∈ store.bindings ∧ binding.id ∉ ids := by
      intro binding
      rw [happended.eq]
      change binding ∈ store.bindings.delete _ ↔ _
      rw [Table.mem_delete, contains_eq_mem, decide_eq_false_iff_not]
    have hactive : ∀ id version, store'.activeVersion id = some version ↔
        store.activeVersion id = some version ∧ id ∉ ids := by
      intro id version
      rw [activeVersion_eq_some, activeVersion_eq_some]
      constructor
      · rintro ⟨binding, hmem, rfl, hversion⟩
        obtain ⟨hmem, hnot⟩ := (hbindings binding).mp hmem
        exact ⟨⟨binding, hmem, rfl, hversion⟩, hnot⟩
      · rintro ⟨⟨binding, hmem, rfl, hversion⟩, hnot⟩
        exact ⟨binding, (hbindings binding).mpr ⟨hmem, hnot⟩, rfl, hversion⟩
    have hmanifests : manifestOf env store' = manifestOf env store := manifestOf_congr hrecords
    constructor
    · intro id version hid
      obtain ⟨hid, hnot⟩ := (hactive id version).mp hid
      obtain ⟨manifest, hmanifest, hsupported⟩ := hclosed.active id version hid
      rw [hmanifests]
      refine ⟨manifest, hmanifest, hsupported.transfer (fun needed v hbinds hv => ?_)
        fun _ _ _ _ _ h => h⟩
      refine (hactive needed v).mpr ⟨hv, fun hneeded => hcareful ?_⟩
      exact ⟨record, id, version, manifest, needed, hrecord, hrevoked, hid, hmanifest,
        fun hrelies => hnot ((mem_affectedIds hids).mpr hrelies), hbinds,
        (mem_affectedIds hids).mp hneeded⟩
    · intro binding hmem version hversion
      rw [hmanifests]
      exact hclosed.previous binding ((hbindings binding).mp hmem).1 version hversion

/-! ### Runs -/

/-- Rows are only ever inserted with the manifest of their package. -/
theorem wellStored_perform (hfaithful : Faithful env) {request : PackageRequest}
    (hstored : WellStored env store) (h : perform env store request = .ok (store', result)) :
    WellStored env store' := by
  cases request with
  | admitAt declared embedded artifact time =>
    obtain ⟨declaredJson, hwrite, ⟨_, _, _, -, -, happended⟩ | ⟨_, _, _, records, -, -, -, hinstall,
      hinsert, -, happended⟩⟩ := admit_cases h
    · rw [happended.eq]
      exact hstored
    · obtain ⟨rfl, -, -, -⟩ := install_cases hinstall
      rw [happended.eq]
      intro row hrow
      rcases (Table.mem_insert? hinsert).mp hrow with hrow | rfl
      · exact hstored row hrow
      · exact ⟨declared, hfaithful declared declaredJson hwrite, rfl⟩
  | enable id version =>
    obtain ⟨_, _, -, -, ⟨-, rfl⟩ | ⟨_, -, -, -, -, -, -, rfl⟩⟩ := enable_cases h <;> exact hstored
  | disable id version =>
    obtain ⟨_, _, -, -, -, rfl⟩ := disable_cases h
    exact hstored
  | rollback id =>
    obtain ⟨_, _, _, _, _, -, -, -, -, -, -, rfl⟩ := rollback_cases h
    exact hstored
  | remove id version =>
    obtain ⟨_, -, ⟨-, rfl, -⟩ | ⟨_, _, -, -, -, -, -, -, rfl⟩⟩ := remove_cases h
    · exact hstored
    · exact fun row hrow => hstored row (Table.mem_delete.mp hrow).1
  | addPublisherTrustRoot publisher keyId publicKey time =>
    obtain ⟨_, -, -, happended⟩ := addTrustRoot_cases h
    rw [happended.eq]
    exact hstored
  | revokePublisherTrustRoot publisher keyId time =>
    obtain ⟨_, -, ⟨-, rfl⟩ | ⟨-, _, -, happended⟩⟩ := revokeTrustRoot_cases h
    · exact hstored
    · rw [happended.eq]
      exact hstored

theorem closed_perform {request : PackageRequest} (hstored : WellStored env store)
    (hclosed : Closed env store) (hcareful : Careful env store request)
    (h : perform env store request = .ok (store', result)) : Closed env store' := by
  cases request with
  | admitAt declared embedded artifact time => exact closed_admitAt hclosed h
  | enable id version => exact closed_enable hstored hclosed hcareful h
  | disable id version => exact closed_disable hstored hclosed h
  | rollback id => exact closed_rollback hstored hclosed h
  | remove id version => exact closed_remove hclosed h
  | addPublisherTrustRoot publisher keyId publicKey time =>
    obtain ⟨_, -, -, happended⟩ := addTrustRoot_cases h
    rw [happended.eq]
    exact ⟨hclosed.active, hclosed.previous⟩
  | revokePublisherTrustRoot publisher keyId time => exact closed_revoke hclosed hcareful h

/-- **Enabled packages are closed under dependencies**, as long as no step replaces a version that
the new one requires or revokes a trust root of a package that others require. -/
theorem enabled_closed (hfaithful : Faithful env) (requests : List PackageRequest)
    (hcareful : (machine env).Along (Careful env) .empty requests) :
    Closed env ((machine env).run .empty requests) := by
  have hstart : WellStored env .empty ∧ Closed env .empty := by
    refine ⟨fun row hrow => absurd hrow (Table.not_mem_empty row), ⟨fun id version hid => ?_,
      fun binding hmem => absurd hmem (Table.not_mem_empty binding)⟩⟩
    cases hid
  have hstep : ∀ store request, Careful env store request →
      WellStored env store ∧ Closed env store →
      WellStored env (exec env store request).1 ∧ Closed env (exec env store request).1 := by
    rintro store request hcareful ⟨hstored, hclosed⟩
    unfold exec
    rcases hperform : perform env store request with error | ⟨store', result⟩
    · exact ⟨hstored, hclosed⟩
    · exact ⟨wellStored_perform hfaithful hstored hperform,
        closed_perform hstored hclosed hcareful hperform⟩
  exact ((machine env).run_invariant_along hstep requests hcareful hstart).2

/-- The first version is installed and enabled. -/
def sampleEnabled : List PackageRequest :=
  [.admitAt sampleFirst sampleFirst sampleArtifact 10, .enable "example/gene" "1.0.0"]

/-- The second version requires the first one and takes its place. -/
def sampleReplaced : List PackageRequest :=
  sampleEnabled ++
    [.admitAt sampleSecond sampleSecond sampleArtifact 11, .enable "example/gene" "2.0.0"]

theorem enabled_closed_replaced :
    ¬ Closed samplePackages ((machine samplePackages).run .empty sampleReplaced) := by
  intro hclosed
  have hsecond : ((machine samplePackages).run .empty sampleReplaced).activeVersion
      "example/gene" = some "2.0.0" ∧ manifestOf samplePackages
        ((machine samplePackages).run .empty sampleReplaced) "example/gene" "2.0.0" =
          some sampleSecond := by decide +kernel
  obtain ⟨hactive, hmanifest⟩ := hsecond
  obtain ⟨manifest, hinstalled, hsupported⟩ := hclosed.active _ _ hactive
  rw [hmanifest, Option.some.injEq] at hinstalled
  subst hinstalled
  rcases hsupported.dependencies ⟨"example/gene", "1.0.0", false⟩ List.mem_cons_self rfl with
    hbuiltin | henabled
  · revert hbuiltin
    decide +kernel
  · rw [hactive] at henabled
    revert henabled
    decide

/-- Another package, which requires the first one, is installed and enabled after it. -/
def sampleUsed : List PackageRequest :=
  sampleEnabled ++
    [.admitAt sampleUser sampleUser sampleArtifact 11, .enable "example/user-gene" "1.0.0"]

theorem enabled_closed_sample :
    ((machine samplePackages).run .empty sampleUsed).activeVersion "example/user-gene" =
        some "1.0.0" ∧
      Closed samplePackages ((machine samplePackages).run .empty sampleUsed) := by
  have hruns : ((machine samplePackages).run .empty (sampleUsed.take 1)).activeVersion
        "example/gene" = none ∧
      ((machine samplePackages).run .empty (sampleUsed.take 3)).activeVersion
        "example/user-gene" = none ∧
      ((machine samplePackages).run .empty sampleUsed).activeVersion "example/user-gene" =
        some "1.0.0" := by
    decide +kernel
  obtain ⟨hgene, huser, henabled⟩ := hruns
  refine ⟨henabled, enabled_closed samplePackages_faithful sampleUsed
    ⟨trivial, ?_, trivial, ?_, trivial⟩⟩
  · rintro ⟨current, -, hcurrent, -⟩
    exact absurd (hgene.symm.trans hcurrent) (Option.some_ne_none current).symm
  · rintro ⟨current, -, hcurrent, -⟩
    exact absurd (huser.symm.trans hcurrent) (Option.some_ne_none current).symm

end Pandora.Packages.Lifecycle
