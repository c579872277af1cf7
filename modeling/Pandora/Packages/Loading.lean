import Pandora.Packages.Steps

/-! # What a loaded registry contains

A registry that has been loaded has the manifests of the rows, no more and no fewer
(`mem_loaded`), whatever rows had to be put off. Rows are written with the manifest of the package
they are for (`WellStored`), so that the registry finds a package where the table has its row
(`get_loaded`). -/

namespace Pandora.Packages.Loading

open Text Lib.Checked Lib.Tables Packages.Manifest Packages.Registry Packages.Store Packages.Steps
  List

variable {env : PackageEnv} {store store' : PackageStore} {registry registry' : HarnessRegistry}
  {roots : PublisherTrustRoots} {row : PackageRow} {pending next : List PackageRow}
  {result : Except PackageStoreError PackageAnswer}

/-- What `serde_json` writes it reads back. -/
def Faithful (env : PackageEnv) : Prop :=
  ∀ manifest text, env.write manifest = some text → env.read text = some manifest

/-- The record that a row is loaded as. -/
def Holds (env : PackageEnv) (row : PackageRow) (record : PackageRecord) : Prop :=
  env.read row.manifestJson = some record.manifest ∧ record = recordOf record.manifest

theorem Holds.unique {record record' : PackageRecord} (h : Holds env row record)
    (h' : Holds env row record') : record = record' := by
  have hmanifest : record.manifest = record'.manifest := by
    rw [← Option.some.injEq, ← h.1, h'.1]
  rw [h.2, h'.2, hmanifest]

/-! ### Passes -/

theorem loadRow_cases (h : loadRow env roots registry row = .ok (some registry')) :
    ∃ record, Holds env row record ∧
      registry.packages.insert? record = some registry'.packages := by
  unfold loadRow at h
  simp only [bind_eq_ok, ensure_eq_ok, exists_const, orError_eq_ok] at h
  obtain ⟨-, manifest, hread, h⟩ := h
  split at h
  · rename_i registry₁ record hinstall
    simp only [bind_eq_ok, ensure_eq_ok, exists_const, pure_eq_ok, Option.some.injEq] at h
    obtain ⟨-, rfl⟩ := h
    obtain ⟨-, -, -, hinsert⟩ := install_cases hinstall
    exact ⟨recordOf manifest, ⟨hread, rfl⟩, hinsert⟩
  · cases h
  · cases h
  · cases h

/-- The pending rows have been installed, but for those that are put off. -/
structure Loaded (env : PackageEnv) (registry : HarnessRegistry) (pending next : List PackageRow)
    (registry' : HarnessRegistry) : Prop where
  kept : ∀ record ∈ registry.packages, record ∈ registry'.packages
  origin : ∀ record ∈ registry'.packages,
    record ∈ registry.packages ∨ ∃ row ∈ pending, Holds env row record
  all : ∀ row ∈ pending, row ∈ next ∨ ∃ record ∈ registry'.packages, Holds env row record
  sub : ∀ row ∈ next, row ∈ pending

theorem loadPass_cases {progress : Bool} :
    ∀ {pending next : List PackageRow} {registry registry' : HarnessRegistry},
      loadPass env roots registry pending = .ok (registry', next, progress) →
      Loaded env registry pending next registry'
  | [], next, registry, registry', h => by
    simp only [loadPass, pure_eq_ok, Prod.mk.injEq] at h
    obtain ⟨rfl, rfl, -⟩ := h
    exact ⟨fun _ h => h, fun _ h => Or.inl h, by rintro _ ⟨⟩, by rintro _ ⟨⟩⟩
  | row :: rest, next, registry, registry', h => by
    simp only [loadPass, bind_eq_ok] at h
    obtain ⟨loaded, hrow, h⟩ := h
    rcases loaded with _ | registry₁
    · simp only [bind_eq_ok, pure_eq_ok, Prod.exists, Prod.mk.injEq] at h
      obtain ⟨registry₂, next₂, progress₂, hpass, rfl, rfl, rfl⟩ := h
      have ih := loadPass_cases hpass
      refine ⟨ih.kept, fun record hr => ?_, fun row' hrow' => ?_, fun row' hrow' => ?_⟩
      · rcases ih.origin record hr with hr | ⟨r, hr, hh⟩
        · exact Or.inl hr
        · exact Or.inr ⟨r, mem_cons_of_mem _ hr, hh⟩
      · rcases List.mem_cons.mp hrow' with rfl | hrow'
        · exact Or.inl mem_cons_self
        · exact (ih.all row' hrow').imp_left (mem_cons_of_mem _)
      · rcases List.mem_cons.mp hrow' with rfl | hrow'
        · exact mem_cons_self
        · exact mem_cons_of_mem _ (ih.sub row' hrow')
    · simp only [bind_eq_ok, pure_eq_ok, Prod.exists, Prod.mk.injEq] at h
      obtain ⟨registry₂, next₂, progress₂, hpass, rfl, rfl, -⟩ := h
      have ih := loadPass_cases hpass
      obtain ⟨record₁, hholds, hinsert⟩ := loadRow_cases hrow
      have hmem : ∀ {record}, record ∈ registry₁.packages ↔
          record ∈ registry.packages ∨ record = record₁ := Table.mem_insert? hinsert
      refine ⟨fun record hr => ih.kept record (hmem.mpr (Or.inl hr)), fun record hr => ?_,
        fun row' hrow' => ?_, fun row' hrow' => mem_cons_of_mem _ (ih.sub row' hrow')⟩
      · rcases ih.origin record hr with hr | ⟨r, hr, hh⟩
        · rcases hmem.mp hr with hr | rfl
          · exact Or.inl hr
          · exact Or.inr ⟨row, mem_cons_self, hholds⟩
        · exact Or.inr ⟨r, mem_cons_of_mem _ hr, hh⟩
      · rcases List.mem_cons.mp hrow' with rfl | hrow'
        · exact Or.inr ⟨record₁, ih.kept record₁ (hmem.mpr (Or.inr rfl)), hholds⟩
        · exact ih.all row' hrow'

theorem Loaded.trans {registry'' : HarnessRegistry} (h : Loaded env registry pending next registry')
    (h' : Loaded env registry' next [] registry'') : Loaded env registry pending [] registry'' := by
  refine ⟨fun record hr => h'.kept record (h.kept record hr), fun record hr => ?_,
    fun row hrow => ?_, nofun⟩
  · rcases h'.origin record hr with hr | ⟨row, hrow, hh⟩
    · exact h.origin record hr
    · exact Or.inr ⟨row, h.sub row hrow, hh⟩
  · rcases h.all row hrow with hnext | ⟨record, hr, hh⟩
    · exact h'.all row hnext
    · exact Or.inr ⟨record, h'.kept record hr, hh⟩

theorem loadPasses_cases : ∀ {fuel : ℕ} {pending : List PackageRow}
    {registry registry' : HarnessRegistry},
    loadPasses env roots fuel registry pending = .ok registry' →
      Loaded env registry pending [] registry'
  | _, [], registry, registry', h => by
    simp only [loadPasses, pure_eq_ok] at h
    subst h
    exact ⟨fun _ h => h, fun _ h => Or.inl h, by rintro _ ⟨⟩, by rintro _ ⟨⟩⟩
  | 0, row :: rest, registry, registry', h => by
    simp only [loadPasses, throw_ne_ok] at h
  | fuel + 1, row :: rest, registry, registry', h => by
    simp only [loadPasses, bind_eq_ok, ensure_eq_ok, exists_const, Prod.exists] at h
    obtain ⟨registry₁, next, progress, hpass, -, h⟩ := h
    exact (loadPass_cases hpass).trans (loadPasses_cases h)

/-! ### The registry of a store -/

theorem mem_loaded (h : loadRegistry env store = .ok registry) {record : PackageRecord} :
    record ∈ registry.packages ↔ ∃ row ∈ store.records, Holds env row record := by
  unfold loadRegistry at h
  simp only [bind_eq_ok] at h
  obtain ⟨roots, -, h⟩ := h
  have hloaded := loadPasses_cases h
  constructor
  · intro hr
    rcases hloaded.origin record hr with hr | hrow
    · exact absurd hr (Table.not_mem_empty record)
    · exact hrow
  · rintro ⟨row, hrow, hholds⟩
    rcases hloaded.all row hrow with hnil | ⟨record', hr, hholds'⟩
    · cases hnil
    · rw [hholds.unique hholds']
      exact hr

/-- Every row has the manifest of the package it is for. -/
def WellStored (env : PackageEnv) (store : PackageStore) : Prop :=
  ∀ row ∈ store.records, ∃ manifest, env.read row.manifestJson = some manifest ∧
    row.key = (manifest.id, manifest.version)

/-- The manifest of an installed package. -/
def manifestOf (env : PackageEnv) (store : PackageStore) (id version : String) :
    Option PackageManifest :=
  (store.records.get? (id, version)).bind fun row => env.read row.manifestJson

theorem manifestOf_eq_some {id version : String} {manifest : PackageManifest} :
    manifestOf env store id version = some manifest ↔
      ∃ row ∈ store.records, row.key = (id, version) ∧
        env.read row.manifestJson = some manifest := by
  unfold manifestOf
  rw [Option.bind_eq_some_iff]
  constructor
  · rintro ⟨row, hrow, hread⟩
    obtain ⟨hmem, hkey⟩ := Table.get?_eq_some.mp hrow
    exact ⟨row, hmem, hkey, hread⟩
  · rintro ⟨row, hmem, hkey, hread⟩
    exact ⟨row, Table.get?_eq_some.mpr ⟨hmem, hkey⟩, hread⟩

theorem get_loaded (hstored : WellStored env store) (h : loadRegistry env store = .ok registry)
    (id version : String) :
    registry.get id version = (manifestOf env store id version).map recordOf := by
  ext record
  rw [Option.map_eq_some_iff]
  unfold HarnessRegistry.get
  rw [Table.get?_eq_some, mem_loaded h]
  constructor
  · rintro ⟨⟨row, hrow, hread, hrecord⟩, hkey⟩
    obtain ⟨manifest, hread', hrowkey⟩ := hstored row hrow
    rw [hread, Option.some.injEq] at hread'
    subst hread'
    exact ⟨record.manifest, manifestOf_eq_some.mpr ⟨row, hrow, hrowkey.trans hkey, hread⟩,
      hrecord.symm⟩
  · rintro ⟨manifest, hmanifest, rfl⟩
    obtain ⟨row, hrow, hkey, hread⟩ := manifestOf_eq_some.mp hmanifest
    obtain ⟨manifest', hread', hrowkey⟩ := hstored row hrow
    rw [hread, Option.some.injEq] at hread'
    subst hread'
    exact ⟨⟨row, hrow, hread, rfl⟩, hrowkey.symm.trans hkey⟩

/-- The manifest of an installed package is the one of its identifier and version. -/
theorem manifestOf_key (hstored : WellStored env store) {id version : String}
    {manifest : PackageManifest} (h : manifestOf env store id version = some manifest) :
    manifest.id = id ∧ manifest.version = version := by
  obtain ⟨row, hrow, hkey, hread⟩ := manifestOf_eq_some.mp h
  obtain ⟨manifest', hread', hrowkey⟩ := hstored row hrow
  rw [hread, Option.some.injEq] at hread'
  subst hread'
  exact Prod.mk.injEq .. ▸ hrowkey.symm.trans hkey

/-! ### A sample -/

/-- The digests of the texts of the samples, which differ in length. -/
def sampleSha : Sha256 := fun message =>
  if message.length = 4 then
    ⟨[90, 197, 44, 103, 193, 10, 108, 234, 109, 170, 98, 135, 110, 144, 169, 220, 246, 37, 35, 53,
      47, 8, 118, 218, 217, 156, 85, 120, 131, 146, 132, 154], rfl⟩
  else if message.length = 311 then
    ⟨[197, 119, 58, 195, 110, 142, 204, 186, 255, 202, 199, 236, 167, 108, 137, 120, 70, 205, 187,
      102, 168, 62, 189, 132, 43, 47, 44, 145, 173, 14, 169, 171], rfl⟩
  else if message.length = 367 then
    ⟨[107, 55, 219, 215, 181, 24, 32, 14, 226, 25, 111, 194, 220, 251, 217, 162, 29, 135, 125, 124,
      2, 68, 137, 134, 28, 88, 225, 47, 94, 255, 216, 65], rfl⟩
  else if message.length = 583 then
    ⟨[87, 19, 90, 41, 6, 36, 241, 126, 41, 67, 149, 131, 235, 110, 78, 140, 19, 11, 23, 98, 214,
      183, 89, 4, 82, 82, 47, 232, 147, 243, 234, 129], rfl⟩
  else if message.length = 662 then
    ⟨[117, 72, 90, 69, 3, 100, 70, 168, 17, 240, 64, 240, 155, 14, 83, 216, 6, 239, 84, 44, 13, 103,
      82, 49, 219, 85, 109, 98, 156, 162, 179, 55], rfl⟩
  else if message.length = 372 then
    ⟨[79, 170, 82, 155, 128, 237, 7, 7, 42, 162, 240, 247, 56, 230, 243, 119, 225, 167, 17, 165, 187,
      242, 89, 234, 60, 0, 163, 76, 44, 118, 87, 246], rfl⟩
  else if message.length = 667 then
    ⟨[238, 154, 88, 218, 38, 251, 217, 8, 1, 131, 19, 128, 135, 232, 64, 129, 118, 42, 230, 31, 123,
      182, 89, 4, 225, 241, 37, 178, 167, 218, 58, 31], rfl⟩
  else if message.length = 64 then
    ⟨[39, 26, 65, 59, 211, 57, 197, 112, 159, 220, 234, 236, 65, 241, 79, 17, 233, 251, 251, 80, 66,
      215, 45, 51, 28, 101, 243, 43, 40, 76, 208, 154], rfl⟩
  else if message.length = 490 then
    ⟨[200, 40, 249, 223, 237, 80, 211, 32, 37, 106, 158, 194, 2, 4, 59, 229, 53, 123, 10, 24, 218,
      205, 13, 189, 67, 124, 164, 249, 210, 28, 243, 84], rfl⟩
  else
    ⟨[201, 143, 17, 63, 122, 111, 46, 156, 252, 149, 46, 253, 44, 218, 1, 79, 30, 188, 66, 15, 250,
      39, 254, 89, 232, 4, 242, 79, 185, 50, 172, 226], rfl⟩

def sampleRequired : List PackageDependency := [⟨"example/gene", "1.0.0", false⟩]

def samplePackage (version : String) (dependencies : List PackageDependency) :
    PackageManifest where
  id := "example/gene"
  version := version
  kind := .gene
  publisher := "publisher"
  contentHash := "sha256:5ac52c67c10a6cea6daa62876e90a9dcf62523352f0876dad99c55788392849a"
  dependencies := dependencies
  runtime := "pandora>=3.0.3"
  license := "MIT"
  trust := ⟨.unverified, none, none⟩
  metaComposition := none
  domainRouting := none
  geneContract := none

def samplePackageJson (id version dependencies : String) : String :=
  "\x7b\"id\":\"" ++ id ++ "\",\"version\":\"" ++ version ++
    "\",\"kind\":\"gene\",\"publisher\":\"publisher\",\"content_hash\":\"" ++
    "sha256:5ac52c67c10a6cea6daa62876e90a9dcf62523352f0876dad99c55788392849a" ++
    "\",\"dependencies\":[" ++ dependencies ++
    "],\"compatibility\":\x7b\"runtime\":\"pandora>=3.0.3\"\x7d,\"license\":\"MIT\"," ++
    "\"trust\":\x7b\"level\":\"unverified\",\"signature\":null,\"public_key\":null\x7d\x7d"

/-- A version without dependencies. -/
def sampleFirst : PackageManifest := samplePackage "1.0.0" []

def sampleFirstJson : String := samplePackageJson "example/gene" "1.0.0" ""

def sampleRequiredJson : String :=
  "\x7b\"id\":\"example/gene\",\"version\":\"1.0.0\",\"optional\":false\x7d"

/-- A version that requires the first one. -/
def sampleSecond : PackageManifest := samplePackage "2.0.0" sampleRequired

def sampleSecondJson : String := samplePackageJson "example/gene" "2.0.0" sampleRequiredJson

/-- Another package that requires the first one. -/
def sampleUser : PackageManifest :=
  { samplePackage "1.0.0" sampleRequired with id := "example/user-gene" }

def sampleUserJson : String := samplePackageJson "example/user-gene" "1.0.0" sampleRequiredJson

def sampleArtifact : List UInt8 := asBytes "gene"

def samplePackages : PackageEnv where
  semver := {
    version := fun text => text = "1.0.0" || text = "2.0.0" || text = "3.0.3"
    requirement := fun text => text = ">=3.0.3"
    accepts := fun _ version => version = "3.0.3" }
  sha := sampleSha
  runtimeVersion := "3.0.3"
  validKey := fun _ => false
  verifies := fun _ _ _ => false
  decodeBase64 := fun _ => none
  write := fun manifest =>
    if manifest = sampleFirst then some sampleFirstJson
    else if manifest = sampleSecond then some sampleSecondJson
    else if manifest = sampleUser then some sampleUserJson
    else none
  read := fun text =>
    if text = sampleFirstJson then some sampleFirst
    else if text = sampleSecondJson then some sampleSecond
    else if text = sampleUserJson then some sampleUser
    else none
  validArtifact := fun _ _ => true

theorem samplePackages_faithful : Faithful samplePackages := by
  have hne : sampleSecondJson ≠ sampleFirstJson := by decide +kernel
  have huserFirst : sampleUserJson ≠ sampleFirstJson := by decide +kernel
  have huserSecond : sampleUserJson ≠ sampleSecondJson := by decide +kernel
  intro manifest text h
  change (if manifest = sampleFirst then some sampleFirstJson
    else if manifest = sampleSecond then some sampleSecondJson
    else if manifest = sampleUser then some sampleUserJson else none) = some text at h
  change (if text = sampleFirstJson then some sampleFirst
    else if text = sampleSecondJson then some sampleSecond
    else if text = sampleUserJson then some sampleUser else none) = some manifest
  split_ifs at h with hfirst hsecond huser
  · rw [Option.some.injEq] at h
    rw [← h, if_pos rfl, hfirst]
  · rw [Option.some.injEq] at h
    rw [← h, if_neg hne, if_pos rfl, hsecond]
  · rw [Option.some.injEq] at h
    rw [← h, if_neg huserFirst, if_neg huserSecond, if_pos rfl, huser]

end Pandora.Packages.Loading
