import Pandora.Packages.Loading

/-! # The store can be loaded again

Loading installs the stored packages one after another, in the order in which they were admitted
(`Replays`). A package finds what it needs: the packages admitted before it, less the ones that were
removed since. A package that is required is never removed, and one that is not required may be
missing (`installs_without`); trust roots are only added (`verify_mono`).

So no row is put off, and the registry has the packages that were admitted and not removed
(`liveFrom`). -/

namespace Pandora.Packages.Reload

open Lib.Checked Lib.Tables Lib.Runs Packages.Manifest Packages.Registry Packages.Store List
  Packages.Steps Packages.Loading Table

variable {env : PackageEnv} {store store' : PackageStore}
  {registry registry' smaller : HarnessRegistry} {roots roots' : PublisherTrustRoots}
  {row : PackageRow} {rows : List PackageRow} {manifest : PackageManifest}
  {artifact : List UInt8} {id version : String} {live : List PackageRecord} {time : ℕ}
  {result : Except PackageStoreError PackageAnswer}

/-! ### Replaying the rows -/

/-- The row is installed. -/
structure Restores (env : PackageEnv) (roots : PublisherTrustRoots) (registry : HarnessRegistry)
    (row : PackageRow) (manifest : PackageManifest) (registry' : HarnessRegistry) : Prop where
  read : env.read row.manifestJson = some manifest
  key : row.key = (manifest.id, manifest.version)
  size : row.artifact.length ≤ maxStoredArtifactBytes
  state : row.state = (recordOf manifest).state.asStr
  installs : Installs env registry manifest row.artifact roots
  rows : registry'.packages.rows = registry.packages.rows ++ [recordOf manifest]

/-- The rows are installed one after another. -/
def Replays (env : PackageEnv) (roots : PublisherTrustRoots) :
    HarnessRegistry → List PackageRow → HarnessRegistry → Prop
  | registry, [], registry' => registry' = registry
  | registry, row :: rest, registry' => ∃ manifest registry₁,
      Restores env roots registry row manifest registry₁ ∧
        Replays env roots registry₁ rest registry'

theorem registry_ext (h : registry'.packages.rows = registry.packages.rows) :
    registry' = registry := by
  rcases registry with ⟨⟨rows, hrows⟩⟩
  rcases registry' with ⟨⟨rows', hrows'⟩⟩
  obtain rfl : rows' = rows := h
  rfl

theorem Restores.loadRow (h : Restores env roots registry row manifest registry') :
    loadRow env roots registry row = .ok (some registry') := by
  obtain ⟨registry₂, hinstall, hinsert⟩ := h.installs.install
  have hsame : registry₂ = registry' := by
    refine registry_ext ?_
    rw [(insert?_eq_some hinsert).2, h.rows]
  unfold Store.loadRow
  simp only [bind_eq_ok, ensure_eq_ok, exists_const, orError_eq_ok]
  refine ⟨h.size, manifest, h.read, ?_⟩
  rw [hinstall, hsame]
  simp only [bind_eq_ok, ensure_eq_ok, exists_const, pure_eq_ok, and_true]
  exact h.state.symm

theorem Replays.loadPass : ∀ {rows : List PackageRow} {registry registry' : HarnessRegistry},
    Replays env roots registry rows registry' → ∃ progress,
      loadPass env roots registry rows = .ok (registry', [], progress) ∧
        (rows ≠ [] → progress = true)
  | [], registry, registry', h => by
    obtain rfl : registry' = registry := h
    exact ⟨false, rfl, fun hne => absurd rfl hne⟩
  | row :: rest, registry, registry', ⟨manifest, registry₁, hrow, hrest⟩ => by
    obtain ⟨progress, hpass, -⟩ := hrest.loadPass
    refine ⟨true, ?_, fun _ => rfl⟩
    unfold Store.loadPass
    rw [hrow.loadRow, ok_bind]
    simp only [bind_eq_ok, pure_eq_ok, Prod.exists, Prod.mk.injEq]
    exact ⟨registry', [], progress, hpass, rfl, rfl, trivial⟩

theorem Replays.loadPasses (h : Replays env roots registry rows registry') :
    loadPasses env roots rows.length registry rows = .ok registry' := by
  obtain ⟨progress, hpass, hprogress⟩ := h.loadPass
  rcases rows with _ | ⟨row, rest⟩
  · obtain rfl : registry' = registry := h
    rfl
  · rw [length_cons]
    unfold Store.loadPasses
    rw [hpass, ok_bind]
    simp only [bind_eq_ok, ensure_eq_ok, exists_const]
    refine ⟨hprogress (cons_ne_nil row rest), ?_⟩
    unfold Store.loadPasses
    rfl

theorem Replays.append {registry₁ : HarnessRegistry} : ∀ {rows : List PackageRow}
    {registry : HarnessRegistry}, Replays env roots registry rows registry₁ →
    Restores env roots registry₁ row manifest registry' →
    Replays env roots registry (rows ++ [row]) registry'
  | [], registry, h, hrow => by
    obtain rfl : registry₁ = registry := h
    exact ⟨manifest, registry', hrow, rfl⟩
  | _ :: _, _, ⟨manifest₁, registry₂, hfirst, hrest⟩, hrow =>
    ⟨manifest₁, registry₂, hfirst, hrest.append hrow⟩

theorem Replays.kept : ∀ {rows : List PackageRow} {registry registry' : HarnessRegistry},
    Replays env roots registry rows registry' → ∀ record ∈ registry.packages,
      record ∈ registry'.packages
  | [], registry, registry', h, record, hrecord => by
    obtain rfl : registry' = registry := h
    exact hrecord
  | row :: rest, registry, registry', ⟨manifest, registry₁, hrow, hrest⟩, record, hrecord => by
    refine hrest.kept record ?_
    rw [← mem_rows, hrow.rows]
    exact mem_append_left _ hrecord

/-! ### More trust roots -/

theorem verify_mono (hsub : ∀ root ∈ roots, root ∈ roots')
    (h : roots.verify env manifest = .ok ()) : roots'.verify env manifest = .ok () := by
  unfold PublisherTrustRoots.verify at h ⊢
  simp only [bind_eq_ok, ensure_eq_ok, exists_const, orError_eq_ok] at h ⊢
  obtain ⟨hne, publicKey, hkey, root, hroot, hsignature⟩ := h
  have hfound := List.find?_some hroot
  have hmem := hsub root (mem_of_find?_eq_some hroot)
  have hroots' : roots' ≠ [] := ne_nil_of_mem hmem
  refine ⟨hroots', publicKey, hkey, ?_⟩
  have hsome : (roots'.find? fun root => decide (root.publisher = manifest.publisher) &&
      decide (root.publicKey = publicKey)).isSome = true :=
    List.find?_isSome.mpr ⟨root, hmem, hfound⟩
  obtain ⟨root', hroot'⟩ := Option.isSome_iff_exists.mp hsome
  refine ⟨root', hroot', ?_⟩
  have hfound' := List.find?_some hroot'
  rw [Bool.and_eq_true, decide_eq_true_eq, decide_eq_true_eq] at hfound hfound'
  rw [hfound'.2, ← hfound.2]
  exact hsignature

theorem admissible_mono (hsub : ∀ root ∈ roots, root ∈ roots')
    (h : admissible env roots manifest artifact = .ok ()) :
    admissible env roots' manifest artifact = .ok () := by
  unfold admissible at h ⊢
  simp only [bind_eq_ok, ensure_eq_ok, exists_const] at h ⊢
  obtain ⟨hhash, compatible, hcompatible, hruntime, _, htrust, hrest⟩ := h
  refine ⟨hhash, compatible, hcompatible, hruntime, (), ?_, hrest⟩
  unfold verifyTrust at htrust ⊢
  rcases hlevel : manifest.trust.level with _ | _ | _
  · rfl
  · rw [hlevel] at htrust
    exact htrust
  · rw [hlevel] at htrust
    exact verify_mono hsub htrust

theorem Replays.mono (hsub : ∀ root ∈ roots, root ∈ roots') : ∀ {rows : List PackageRow}
    {registry registry' : HarnessRegistry}, Replays env roots registry rows registry' →
      Replays env roots' registry rows registry'
  | [], _, _, h => h
  | _ :: _, _, _, ⟨manifest, registry₁, hrow, hrest⟩ => by
    refine ⟨manifest, registry₁, ?_, hrest.mono hsub⟩
    have hinstalls := hrow.installs
    exact { hrow with installs := { hinstalls with
      admissible := admissible_mono hsub hinstalls.admissible } }

theorem exists_roots (h : ∀ record ∈ store.trustRoots, decodeTrustRoot env record = .ok record) :
    ∃ roots, loadPublisherTrustRoots env store = .ok roots ∧
      ∀ root, root ∈ roots ↔ ∃ record ∈ store.trustRoots, record.active = true ∧
        record.root = root := by
  have hcheck : ∀ a b, decodeTrustRoot env a = .ok b ↔ decodeTrustRoot env a = .ok a ∧ b = a := by
    intro a b
    constructor
    · intro hb
      obtain rfl := decodeTrustRoot_eq hb
      exact ⟨hb, rfl⟩
    · rintro ⟨ha, rfl⟩
      exact ha
  have hfold : ∀ (records : List PublisherTrustRootRecord) (loaded : PublisherTrustRoots),
      (records.map (·.key)).Nodup →
      (∀ record ∈ records, ∀ root ∈ loaded, (root.publisher, root.keyId) ≠ record.key) →
      records.foldlM (fun (roots : PublisherTrustRoots) record =>
        (roots.insert record.root).mapError fun _ => PackageStoreError.corruptRecord) loaded =
        .ok (loaded ++ records.map (·.root)) := by
    intro records
    induction records with
    | nil =>
      intro loaded _ _
      rw [foldlM_nil, map_nil, append_nil]
      rfl
    | cons record records ih =>
      intro loaded hnodup hfree
      rw [map_cons, nodup_cons] at hnodup
      rw [foldlM_cons, bind_eq_ok]
      refine ⟨loaded ++ [record.root], ?_, ?_⟩
      · rw [mapError_eq_ok]
        unfold PublisherTrustRoots.insert
        simp only [bind_eq_ok, ensure_eq_ok, exists_const, pure_eq_ok, and_true]
        rw [any_eq_true]
        rintro ⟨root, hroot, hsame⟩
        rw [Bool.and_eq_true, decide_eq_true_eq, decide_eq_true_eq] at hsame
        refine hfree record mem_cons_self root hroot ?_
        rw [hsame.1, hsame.2]
        rfl
      · rw [ih _ hnodup.2 ?_, append_assoc, map_cons, singleton_append]
        intro other hother root hroot
        rcases mem_append.mp hroot with hroot | hroot
        · exact hfree other (mem_cons_of_mem _ hother) root hroot
        · rw [mem_singleton.mp hroot]
          intro hsame
          have hkey : record.key = other.key := hsame
          exact hnodup.1 (hkey ▸ mem_map_of_mem hother)
  unfold loadPublisherTrustRoots loadPublisherTrustRootRecords
  have hperm := perm_insertionSort (fun a b : PublisherTrustRootRecord =>
    a.root.publisher < b.root.publisher ∨
      (a.root.publisher = b.root.publisher ∧ a.root.keyId ≤ b.root.keyId)) store.trustRoots.rows
  generalize store.trustRoots.rows.insertionSort (fun a b : PublisherTrustRootRecord =>
    a.root.publisher < b.root.publisher ∨
      (a.root.publisher = b.root.publisher ∧ a.root.keyId ≤ b.root.keyId)) = sorted at hperm ⊢
  have hdecoded : sorted.mapM (decodeTrustRoot env) = .ok sorted :=
    (mapM_check_eq_ok hcheck).mpr ⟨fun record hr => h record (hperm.mem_iff.mp hr), rfl⟩
  have hnodup : ((sorted.filter (·.active)).map (·.key)).Nodup :=
    ((hperm.map _).nodup_iff.mpr store.trustRoots.nodup).sublist (filter_sublist.map _)
  refine ⟨(sorted.filter (·.active)).map (·.root), ?_, fun root => ?_⟩
  · rw [hdecoded, ok_bind, hfold _ _ hnodup fun _ _ _ h => absurd h not_mem_nil,
      nil_append]
  · rw [mem_map]
    constructor
    · rintro ⟨record, hrecord, rfl⟩
      obtain ⟨hmem, hactive⟩ := mem_filter.mp hrecord
      exact ⟨record, hperm.mem_iff.mp hmem, hactive, rfl⟩
    · rintro ⟨record, hmem, hactive, rfl⟩
      exact ⟨record, mem_filter.mpr ⟨hperm.mem_iff.mpr hmem, hactive⟩, rfl⟩

/-! ### A package is removed -/

/-- The registry without one package. -/
def Without (id version : String) (registry smaller : HarnessRegistry) : Prop :=
  smaller.packages.rows = registry.packages.rows.filter fun record => record.key ≠ (id, version)

theorem Without.mem (h : Without id version registry smaller) {record : PackageRecord} :
    record ∈ smaller.packages ↔ record ∈ registry.packages ∧ record.key ≠ (id, version) := by
  rw [← mem_rows, h, mem_filter, decide_eq_true_eq, mem_rows]

theorem Without.get_of_ne (h : Without id version registry smaller) {id' version' : String}
    (hne : (id', version') ≠ (id, version)) :
    smaller.get id' version' = registry.get id' version' := by
  ext record
  unfold HarnessRegistry.get
  rw [get?_eq_some, get?_eq_some, h.mem]
  constructor
  · rintro ⟨⟨hmem, -⟩, hkey⟩
    exact ⟨hmem, hkey⟩
  · rintro ⟨hmem, hkey⟩
    exact ⟨⟨hmem, fun he => hne (hkey.symm.trans he)⟩, hkey⟩

theorem Without.get_self (h : Without id version registry smaller) :
    smaller.get id version = none :=
  get?_eq_none.mpr fun _ hmem hkey => (h.mem.mp hmem).2 hkey

theorem kind_of_builtin {dependency : PackageDependency} {kind : PackageKind}
    (hkind : manifest.kind = .domainHarness)
    (h : builtinDependency manifest dependency = some kind) : kind = .gene := by
  unfold builtinDependency at h
  split_ifs at h with hgene hdomain
  · exact (Option.some.inj h).symm
  · rw [hkind] at hdomain
    cases hdomain.1

theorem checkDependencies_without (h : Without id version registry smaller) :
    ∀ {dependencies : List PackageDependency} {gene gene' : Bool},
    (∀ dependency ∈ dependencies, dependency.optional = false →
      (dependency.id, dependency.version) ≠ (id, version)) →
    checkDependencies registry manifest gene dependencies = .ok gene' →
    checkDependencies smaller manifest gene dependencies = .ok gene'
  | [], _, _, _, hcheck => hcheck
  | dependency :: rest, gene, gene', hrequired, hcheck => by
    have hrest : ∀ other ∈ rest, other.optional = false →
        (other.id, other.version) ≠ (id, version) := fun other ho =>
      hrequired other (mem_cons_of_mem _ ho)
    unfold checkDependencies at hcheck ⊢
    by_cases hsame : (dependency.id, dependency.version) = (id, version)
    · -- the package that is gone is optional here
      have hoptional : dependency.optional = true := by
        rw [← Bool.not_eq_false]
        exact fun hfalse => hrequired dependency mem_cons_self hfalse hsame
      have hcheck' : checkDependencies registry manifest gene rest = .ok gene' := by
        split at hcheck
        · simp only [bind_eq_ok, ensure_eq_ok, exists_const] at hcheck
          rw [hoptional, Bool.not_true, Bool.and_false, Bool.or_false] at hcheck
          exact hcheck.2
        · rw [if_pos hoptional] at hcheck
          exact hcheck
      have ih := checkDependencies_without h hrest hcheck'
      have hgone : dependencyKind smaller manifest dependency =
          builtinDependency manifest dependency := by
        rw [Prod.mk.injEq] at hsame
        unfold dependencyKind
        rw [hsame.1, hsame.2, h.get_self, Option.map_none, Option.none_or]
      rw [hgone]
      rcases hbuiltin : builtinDependency manifest dependency with _ | kind
      · simp only [hoptional, if_true]
        exact ih
      · simp only [bind_eq_ok, ensure_eq_ok, exists_const]
        refine ⟨fun hdomain => hdomain.2 (kind_of_builtin hdomain.1 hbuiltin), ?_⟩
        rw [hoptional, Bool.not_true, Bool.and_false, Bool.or_false]
        exact ih
    · have hkind : dependencyKind smaller manifest dependency =
          dependencyKind registry manifest dependency := by
        unfold dependencyKind
        rw [h.get_of_ne hsame]
      rw [hkind]
      rcases hfound : dependencyKind registry manifest dependency with _ | kind
      · rw [hfound] at hcheck
        dsimp only at hcheck ⊢
        split_ifs at hcheck ⊢ with hoptional
        exact checkDependencies_without h hrest hcheck
      · rw [hfound] at hcheck
        simp only [bind_eq_ok, ensure_eq_ok, exists_const] at hcheck ⊢
        exact ⟨hcheck.1, checkDependencies_without h hrest hcheck.2⟩

theorem requireDomain_eq_ok {domain : String} : requireDomain registry domain = .ok () ↔
    builtinDomain domain = true ∨ ((∃ record ∈ registry.packages, record.manifest.id = domain) ∧
      ∀ record ∈ registry.packages, record.manifest.id = domain →
        record.manifest.kind = .domainHarness) := by
  have hmem : ∀ record, record ∈ registry.list.filter (fun record => record.manifest.id = domain) ↔
      record ∈ registry.packages ∧ record.manifest.id = domain := by
    intro record
    rw [mem_filter, HarnessRegistry.mem_list, decide_eq_true_eq]
  unfold requireDomain
  dsimp only
  split_ifs with hbuiltin
  · simp [hbuiltin]
  · simp only [hbuiltin, Bool.false_eq_true, false_or, bind_eq_ok, ensure_eq_ok, exists_const]
    refine and_congr ?_ ?_
    · constructor
      · intro hne
        obtain ⟨record, hrecord⟩ := exists_mem_of_ne_nil _ hne
        exact ⟨record, (hmem record).mp hrecord⟩
      · rintro ⟨record, hrecord⟩
        exact ne_nil_of_mem ((hmem record).mpr hrecord)
    · split
      · rename_i record hfound
        have hnot := List.find?_some hfound
        have hrecord := (hmem record).mp (mem_of_find?_eq_some hfound)
        rw [decide_eq_true_eq] at hnot
        constructor
        · intro hthrow
          exact absurd hthrow throw_ne_ok
        · intro hall
          exact absurd (hall record hrecord.1 hrecord.2) hnot
      · rename_i hnone
        rw [List.find?_eq_none] at hnone
        constructor
        · intro _ record hrecord hdomain
          have hkind := hnone record ((hmem record).mpr ⟨hrecord, hdomain⟩)
          rw [decide_eq_true_eq, not_not] at hkind
          exact hkind
        · intro _
          rfl

theorem requireDomain_without (h : Without id version registry smaller) {domain : String}
    (hremoved : ∀ record ∈ registry.packages, record.key = (id, version) →
      record.manifest.kind = .domainHarness → domain ≠ id)
    (hrequire : requireDomain registry domain = .ok ()) :
    requireDomain smaller domain = .ok () := by
  rw [requireDomain_eq_ok] at hrequire ⊢
  rcases hrequire with hbuiltin | ⟨⟨record, hrecord, hdomain⟩, hkinds⟩
  · exact Or.inl hbuiltin
  · refine Or.inr ⟨⟨record, h.mem.mpr ⟨hrecord, fun hkey => ?_⟩, hdomain⟩,
      fun other hother => hkinds other (h.mem.mp hother).1⟩
    refine hremoved record hrecord hkey (hkinds record hrecord hdomain) ?_
    rw [← hdomain]
    exact congrArg Prod.fst hkey

/-- Neither a required dependency nor a domain of the package is removed. -/
theorem installs_without (h : Installs env registry manifest artifact roots)
    (hwithout : Without id version registry smaller)
    (hdepends : dependsOn manifest id version = false)
    (hcomposes : ∀ record ∈ registry.packages, record.key = (id, version) →
      record.manifest.kind = .domainHarness → composes manifest id = false) :
    Installs env smaller manifest artifact roots := by
  obtain ⟨gene, hcheck, hgene⟩ := h.dependencies
  refine ⟨h.valid, h.admissible, ?_, ⟨gene, checkDependencies_without hwithout ?_ hcheck, hgene⟩,
    ?_⟩
  · have hfree := get?_eq_none.mp h.free
    exact get?_eq_none.mpr fun record hrecord => hfree record (hwithout.mem.mp hrecord).1
  · intro dependency hd hrequired hsame
    unfold dependsOn at hdepends
    rw [Prod.mk.injEq] at hsame
    have hno := any_eq_false.mp hdepends dependency hd
    rw [hrequired, hsame.1, hsame.2] at hno
    simp at hno
  · have hdomains := h.domains
    unfold checkDomains at hdomains ⊢
    split_ifs at hdomains ⊢ with hkind
    · refine forM_eq_ok.mpr fun domain hdomain => ?_
      refine requireDomain_without hwithout (fun record hrecord hkey hk he => ?_)
        (forM_eq_ok.mp hdomains domain hdomain)
      have hno := hcomposes record hrecord hkey hk
      unfold allowedDomains at hdomain
      unfold composes at hno
      rcases hcomposition : manifest.metaComposition with _ | composition
      · rw [hcomposition] at hdomain
        cases hdomain
      · rw [hcomposition] at hdomain hno
        rw [Option.any_some] at hno
        exact any_eq_false.mp hno domain hdomain (decide_eq_true he)
    · rfl

theorem Replays.without {removed : PackageRecord} : ∀ {rows : List PackageRow}
    {registry registry' smaller : HarnessRegistry}, Replays env roots registry rows registry' →
    Without id version registry smaller →
    (∀ record ∈ registry'.packages, record.key = (id, version) → record = removed) →
    (∀ record ∈ registry'.packages, record.key ≠ (id, version) →
      dependsOn record.manifest id version = false ∧
        (removed.manifest.kind = .domainHarness → composes record.manifest id = false)) →
    ∃ smaller', Replays env roots smaller
        (rows.filter fun row => !decide (row.key = (id, version))) smaller' ∧
      Without id version registry' smaller'
  | [], registry, registry', smaller, h, hwithout, _, _ => by
    obtain rfl : registry' = registry := h
    exact ⟨smaller, rfl, hwithout⟩
  | row :: rest, registry, registry', smaller, ⟨manifest, registry₁, hrow, hrest⟩, hwithout, honly,
      hneeds => by
    have hmem : recordOf manifest ∈ registry'.packages := by
      refine hrest.kept _ ?_
      rw [← mem_rows, hrow.rows]
      simp
    have hkey : (recordOf manifest).key = row.key := hrow.key.symm
    rw [filter_cons]
    by_cases hgone : row.key = (id, version)
    · -- the row itself is removed
      have hwithout₁ : Without id version registry₁ smaller := by
        unfold Without
        rw [hrow.rows, filter_append, hwithout]
        simp [hkey, hgone]
      rw [if_neg (by simp [hgone])]
      exact hrest.without hwithout₁ honly hneeds
    · obtain ⟨hdepends, hcomposes⟩ := hneeds _ hmem (by rw [hkey]; exact hgone)
      have hinstalls : Installs env smaller manifest row.artifact roots := by
        refine installs_without hrow.installs hwithout hdepends fun record hrecord hsame hkind => ?_
        have hrecord' : record ∈ registry'.packages := by
          refine hrest.kept record ?_
          rw [← mem_rows, hrow.rows]
          exact mem_append_left _ hrecord
        exact hcomposes (honly record hrecord' hsame ▸ hkind)
      obtain ⟨smaller₁, -, hinsert⟩ := hinstalls.install
      have hrows := (insert?_eq_some hinsert).2
      have hwithout₁ : Without id version registry₁ smaller₁ := by
        unfold Without
        rw [hrow.rows, filter_append, hrows, hwithout]
        simp [hkey, hgone]
      obtain ⟨smaller', hreplays, hwithout'⟩ := hrest.without hwithout₁ honly hneeds
      rw [if_pos (by simp [hgone])]
      exact ⟨smaller', ⟨manifest, smaller₁, { hrow with installs := hinstalls, rows := hrows },
        hreplays⟩, hwithout'⟩

/-! ### The steps -/

/-- The rows can be replayed, to the given packages. -/
structure Reloads (env : PackageEnv) (store : PackageStore) (live : List PackageRecord) :
    Prop where
  decoded : ∀ record ∈ store.trustRoots, decodeTrustRoot env record = .ok record
  replays : ∃ roots registry, loadPublisherTrustRoots env store = .ok roots ∧
    Replays env roots .new store.records.rows registry ∧ registry.packages.rows = live

theorem load_of_replays (hroots : loadPublisherTrustRoots env store = .ok roots)
    (h : Replays env roots .new store.records.rows registry) :
    loadRegistry env store = .ok registry := by
  unfold loadRegistry
  rw [hroots, ok_bind]
  exact h.loadPasses

theorem Reloads.congr (h : Reloads env store live) (hrecords : store'.records = store.records)
    (htrust : store'.trustRoots = store.trustRoots) : Reloads env store' live := by
  obtain ⟨roots, registry, hroots, hreplays, hlive⟩ := h.replays
  refine ⟨by rw [htrust]; exact h.decoded, roots, registry, ?_, by rw [hrecords]; exact hreplays,
    hlive⟩
  unfold loadPublisherTrustRoots loadPublisherTrustRootRecords at hroots ⊢
  rw [htrust]
  exact hroots

theorem reloads_empty (env : PackageEnv) : Reloads env .empty [] := by
  have hroots : loadPublisherTrustRoots env .empty = .ok [] := by
    unfold loadPublisherTrustRoots loadPublisherTrustRootRecords
    rfl
  constructor
  · intro record hrecord
    exact absurd hrecord (not_mem_empty record)
  · refine ⟨[], .new, hroots, ?_, ?_⟩
    · rfl
    · rfl

theorem reloads_admitted (hfaithful : Faithful env) (h : Reloads env store live)
    {declaredJson : String} {records : Table PackageRow.key}
    (hload : loadRegistry env store = .ok registry)
    (hroots : loadPublisherTrustRoots env store = .ok roots)
    (hsize : artifact.length ≤ maxStoredArtifactBytes)
    (hwrite : env.write manifest = some declaredJson)
    (hinstall : registry.install env manifest manifest artifact roots =
      .ok (registry', recordOf manifest))
    (hinsert : store.records.insert? (rowOf (recordOf manifest) declaredJson artifact) =
      some records) :
    Reloads env { store with records := records } (live ++ [recordOf manifest]) := by
  obtain ⟨roots₁, registry₁, hroots₁, hreplays, hlive⟩ := h.replays
  rw [hroots, Except.ok.injEq] at hroots₁
  subst hroots₁
  rw [load_of_replays hroots hreplays, Except.ok.injEq] at hload
  subst hload
  obtain ⟨-, hinstalls, -, hpackages⟩ := install_cases hinstall
  have hrows := (insert?_eq_some hpackages).2
  refine ⟨h.decoded, roots, registry', hroots, ?_, by rw [hrows, hlive]⟩
  rw [(insert?_eq_some hinsert).2]
  exact hreplays.append {
    read := hfaithful manifest declaredJson hwrite
    key := rfl
    size := hsize
    state := rfl
    installs := hinstalls
    rows := hrows }

theorem reloads_removed (h : Reloads env store live) {record : PackageRecord}
    {bindings : Table PackageBinding.id} (hload : loadRegistry env store = .ok registry)
    (hrecord : registry.get id version = some record)
    (hdependents : installedDependents registry record id version = []) :
    Reloads env { store with
      records := store.records.delete fun row => row.key = (id, version)
      bindings := bindings } (live.filter fun record => record.key ≠ (id, version)) := by
  obtain ⟨roots, registry₁, hroots, hreplays, hlive⟩ := h.replays
  rw [load_of_replays hroots hreplays, Except.ok.injEq] at hload
  subst hload
  obtain ⟨hmem, hkey⟩ := get?_eq_some.mp hrecord
  have honly : ∀ other ∈ registry₁.packages, other.key = (id, version) → other = record :=
    fun other hother hsame => eq_of_key hother hmem (hsame.trans hkey.symm)
  have hneeds : ∀ other ∈ registry₁.packages, other.key ≠ (id, version) →
      dependsOn other.manifest id version = false ∧
        (record.manifest.kind = .domainHarness → composes other.manifest id = false) := by
    intro other hother hne
    unfold installedDependents at hdependents
    rw [map_eq_nil_iff, filter_eq_nil_iff] at hdependents
    have hno := hdependents other (HarnessRegistry.mem_list.mpr hother)
    have hother' : ¬ (other.manifest.id = id ∧ other.manifest.version = version) := by
      rintro ⟨hid, hversion⟩
      exact hne (by rw [← hid, ← hversion]; rfl)
    simp only [Bool.and_eq_true, Bool.not_eq_true', Bool.and_eq_false_iff, Bool.or_eq_true,
      decide_eq_true_eq, decide_eq_false_iff_not, ← not_and_or] at hno
    rw [← Bool.not_eq_true, ← Bool.not_eq_true]
    exact ⟨fun hdepends => hno ⟨hother', Or.inl hdepends⟩,
      fun hkind hcomposes => hno ⟨hother', Or.inr ⟨hkind, hcomposes⟩⟩⟩
  have hstart : Without id version HarnessRegistry.new HarnessRegistry.new := rfl
  obtain ⟨smaller, hsmaller, hwithout⟩ := hreplays.without hstart honly hneeds
  refine ⟨h.decoded, roots, smaller, hroots, hsmaller, ?_⟩
  rw [hwithout, hlive]

theorem reloads_trusted (h : Reloads env store live) (root : PublisherTrustRoot)
    {trustRoots : Table PublisherTrustRootRecord.key}
    (hroot : PublisherTrustRoot.new env root.publisher root.keyId root.publicKey = .ok root)
    (hinsert : store.trustRoots.insert? ⟨root, time, none⟩ = some trustRoots) :
    Reloads env { store with trustRoots := trustRoots } live := by
  have hdecoded : ∀ record ∈ trustRoots, decodeTrustRoot env record = .ok record := by
    intro record hrecord
    rcases (mem_insert? hinsert).mp hrecord with hrecord | rfl
    · exact h.decoded record hrecord
    · unfold decodeTrustRoot
      rw [hroot]
      rfl
  obtain ⟨roots, registry, hroots, hreplays, hlive⟩ := h.replays
  obtain ⟨roots₀, hroots₀, hmem⟩ := exists_roots h.decoded
  rw [hroots, Except.ok.injEq] at hroots₀
  subst hroots₀
  have hdecoded' : ∀ record ∈ ({ store with trustRoots := trustRoots } : PackageStore).trustRoots,
      decodeTrustRoot env record = .ok record := hdecoded
  obtain ⟨roots', hroots', hmem'⟩ := exists_roots hdecoded'
  refine ⟨hdecoded, roots', registry, hroots', hreplays.mono (fun root hr => ?_), hlive⟩
  obtain ⟨record, hrecord, hactive, hsame⟩ := (hmem root).mp hr
  exact (hmem' root).mpr ⟨record, (mem_insert? hinsert).mpr (Or.inl hrecord), hactive, hsame⟩

/-! ### Runs -/

/-- The request takes back a trust root. -/
def revokes : PackageRequest → Bool
  | .revokePublisherTrustRoot _ _ _ => true
  | _ => false

/-- The packages that are installed after a request, by its answer. -/
def track (live : List PackageRecord) (request : PackageRequest)
    (answer : Except PackageStoreError PackageAnswer) : List PackageRecord :=
  match request, answer with
  | .admitAt _ embedded _ _, .ok (.record _) => live ++ [recordOf embedded]
  | .remove id version, .ok (.removed (some _)) =>
    live.filter fun record => record.key ≠ (id, version)
  | _, _ => live

/-- The packages that are admitted and not removed since, in the order of admission. -/
def liveFrom (env : PackageEnv) : PackageStore → List PackageRecord → List PackageRequest →
    List PackageRecord
  | _, live, [] => live
  | store, live, request :: rest =>
    let (store', answer) := exec env store request
    liveFrom env store' (track live request answer) rest

theorem reloads_perform (hfaithful : Faithful env) {request : PackageRequest}
    (hkept : revokes request = false) (hreloads : Reloads env store live)
    (h : perform env store request = .ok (store', result)) :
    Reloads env store' (track live request result) := by
  cases request with
  | admitAt declared embedded artifact time =>
    obtain ⟨declaredJson, hwrite, ⟨_, _, error, rfl, -, happended⟩ | ⟨registry, registry', roots,
      records, hsize, hload, hroots, hinstall, hinsert, rfl, happended⟩⟩ := admit_cases h
    · rw [happended.eq]
      exact hreloads.congr rfl rfl
    · obtain ⟨rfl, -, -, -⟩ := install_cases hinstall
      have hadmitted := reloads_admitted hfaithful hreloads hload hroots hsize hwrite hinstall
        hinsert
      rw [happended.eq]
      exact hadmitted.congr rfl rfl
  | enable id version =>
    obtain ⟨_, _, -, -, ⟨-, rfl⟩ | ⟨_, -, -, -, -, -, -, rfl⟩⟩ := enable_cases h
    · exact hreloads
    · exact hreloads.congr rfl rfl
  | disable id version =>
    obtain ⟨_, _, -, -, -, rfl⟩ := disable_cases h
    exact hreloads.congr rfl rfl
  | rollback id =>
    obtain ⟨_, _, _, _, _, -, -, -, -, -, -, rfl⟩ := rollback_cases h
    exact hreloads.congr rfl rfl
  | remove id version =>
    obtain ⟨registry, hload, ⟨-, rfl, rfl⟩ | ⟨record, bindings, hrecord, hdependents, -, -, -, rfl,
      rfl⟩⟩ := remove_cases h
    · exact hreloads
    · exact reloads_removed hreloads hload hrecord hdependents
  | addPublisherTrustRoot publisher keyId publicKey time =>
    obtain ⟨trustRoots, hroot, hinsert, happended⟩ := addTrustRoot_cases h
    have htrusted := reloads_trusted hreloads ⟨publisher, keyId, publicKey⟩ hroot hinsert
    rw [happended.eq]
    exact htrusted.congr rfl rfl
  | revokePublisherTrustRoot publisher keyId time => cases hkept

theorem track_error (live : List PackageRecord) (request : PackageRequest)
    (error : PackageStoreError) : track live request (.error error) = live := by
  cases request <;> rfl

theorem reloads_run (hfaithful : Faithful env) : ∀ {requests : List PackageRequest}
    {store : PackageStore} {live : List PackageRecord},
    (∀ request ∈ requests, revokes request = false) → Reloads env store live →
    Reloads env ((machine env).run store requests) (liveFrom env store live requests)
  | [], _, _, _, hreloads => hreloads
  | request :: rest, store, live, hkept, hreloads => by
    have hstep : Reloads env (exec env store request).1
        (track live request (exec env store request).2) := by
      unfold exec
      rcases hperform : perform env store request with error | ⟨store', result⟩
      · rw [track_error]
        exact hreloads
      · exact reloads_perform hfaithful (hkept request mem_cons_self) hreloads hperform
    rw [Machine.run_cons, liveFrom]
    exact reloads_run hfaithful (fun other ho => hkept other (mem_cons_of_mem _ ho)) hstep

/-- **The store can be loaded again**, as long as no trust root is revoked: loading returns the
packages that were admitted and not removed since, and no row is refused or put off. -/
theorem store_stays_loadable (hfaithful : Faithful env) (requests : List PackageRequest)
    (hkept : ∀ request ∈ requests, revokes request = false) :
    ∃ registry roots progress, loadRegistry env ((machine env).run .empty requests) = .ok registry ∧
      registry.packages.rows = liveFrom env .empty [] requests ∧
      loadPublisherTrustRoots env ((machine env).run .empty requests) = .ok roots ∧
      loadPass env roots .new ((machine env).run .empty requests).records.rows =
        .ok (registry, [], progress) := by
  have hreloads : Reloads env ((machine env).run .empty requests) _ :=
    reloads_run hfaithful hkept (reloads_empty env)
  obtain ⟨roots, registry, hroots, hreplays, hlive⟩ := hreloads.replays
  obtain ⟨progress, hpass, -⟩ := hreplays.loadPass
  exact ⟨registry, roots, progress, load_of_replays hroots hreplays, hlive, hroots, hpass⟩

/-- A package that is enabled cannot be removed. -/
def sampleKept : List PackageRequest :=
  [.admitAt sampleFirst sampleFirst sampleArtifact 10, .enable "example/gene" "1.0.0",
    .remove "example/gene" "1.0.0"]

theorem store_stays_loadable_sample : ∃ registry roots progress,
    loadRegistry samplePackages ((machine samplePackages).run .empty sampleKept) = .ok registry ∧
    registry.packages.rows = [recordOf sampleFirst] ∧
    loadPublisherTrustRoots samplePackages ((machine samplePackages).run .empty sampleKept) =
      .ok roots ∧
    loadPass samplePackages roots .new
        ((machine samplePackages).run .empty sampleKept).records.rows =
      .ok (registry, [], progress) := by
  have hlive : liveFrom samplePackages .empty [] sampleKept = [recordOf sampleFirst] := by
    decide +kernel
  rw [← hlive]
  exact store_stays_loadable samplePackages_faithful sampleKept (by decide +kernel)

end Pandora.Packages.Reload
