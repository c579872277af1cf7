import Pandora.Packages.Loading
import Pandora.Packages.Distribution

/-! # What the operations of the distribution store do

What an operation does when it succeeds, said once: a package is entered (`Caches`), a version
becomes active (`Admits`), the records of a key are revoked (`Withdrawn`). Each is exactly what the
operation does, checks included: `Caches.perform`, `Admits.perform` and `exists_revokeRecords` say
when it succeeds. -/

namespace Pandora.Packages.Admission

open Lib.Checked Lib.Tables Packages.Manifest Packages.Registry List
open Packages.Loading (Faithful)
open Packages.Distribution

variable {V : Type} {env : DistributionEnv V} {store store' : DistributionStore}
  {record : DistributionRecord} {answer : DistributionAnswer} {row row' : CacheRow}
  {id version publisher keyId : String} {time : ℕ}

/-! ### The log -/

/-- An event fits into the log. -/
structure Appends (env : DistributionEnv V) (events : List DistributionEvent)
    (eventKind : DistributionEventKind) (time : ℕ) (record : DistributionRecord)
    (events' : List DistributionEvent) : Prop where
  room : events.length < maxDistributionEvents
  inTime : time < 2 ^ 63
  written : ∃ json, env.write record.manifest = some json ∧
    (eventOf env events eventKind time record json).eventDigest ∉ events.map (·.eventDigest) ∧
    events' = events ++ [eventOf env events eventKind time record json]

theorem appendEvent_eq_ok {eventKind : DistributionEventKind} :
    appendEvent env store eventKind time record = .ok store' ↔
      ∃ events', Appends env store.events eventKind time record events' ∧
        store' = { store with events := events' } := by
  unfold appendEvent
  simp only [bind_eq_ok, ensure_eq_ok, exists_const, orError_eq_ok, pure_eq_ok]
  constructor
  · rintro ⟨hroom, json, hjson, htime, hfresh, rfl⟩
    exact ⟨_, ⟨hroom, htime, json, hjson, hfresh, rfl⟩, rfl⟩
  · rintro ⟨events', ⟨hroom, htime, json, hjson, hfresh, rfl⟩, rfl⟩
    exact ⟨hroom, json, hjson, htime, hfresh, rfl⟩

/-! ### Records -/

/-- The record that a row is read as. -/
structure Reads (env : DistributionEnv V) (row : CacheRow) (record : DistributionRecord) :
    Prop where
  manifest : env.read row.manifestJson = some record.manifest
  source : row.source.validate env = .ok ()
  eq : record = ⟨record.manifest, row.artifact, row.source, row.publisherKeyId, row.cachedAt,
    row.admittedAt, row.state⟩

theorem decodeRecord_eq_ok : decodeRecord env row = .ok record ↔ Reads env row record := by
  unfold decodeRecord
  simp only [bind_eq_ok, orError_eq_ok, mapError_eq_ok, pure_eq_ok]
  constructor
  · rintro ⟨manifest, hmanifest, ⟨⟩, hsource, rfl⟩
    exact ⟨hmanifest, hsource, rfl⟩
  · rintro ⟨hmanifest, hsource, heq⟩
    exact ⟨_, hmanifest, (), hsource, heq.symm⟩

theorem requireRecord_eq_ok : requireRecord env store id version = .ok record ↔
    ∃ row, store.cache.get? (id, version) = some row ∧ Reads env row record := by
  unfold requireRecord loadRecord
  cases hrow : store.cache.get? (id, version) with
  | none => simp
  | some row => simp [bind_eq_ok, decodeRecord_eq_ok]

/-- The row is a record of the publisher and the key. -/
def OfKey (env : DistributionEnv V) (entry : String × String) (row : CacheRow) : Prop :=
  ∃ manifest, env.read row.manifestJson = some manifest ∧ manifest.publisher = entry.1 ∧
    row.publisherKeyId = entry.2

variable {entry : String × String}

theorem Reads.ofKey (h : Reads env row record) :
    OfKey env entry row ↔ (record.manifest.publisher, record.publisherKeyId) = entry := by
  have hkey : record.publisherKeyId = row.publisherKeyId := by rw [h.eq]
  obtain ⟨publisher, keyId⟩ := entry
  unfold OfKey
  rw [h.manifest, Prod.mk.injEq, hkey]
  simp

/-- The rows as they are written: with the manifest that was verified. -/
structure Stored (env : DistributionEnv V) (row : CacheRow) (record : DistributionRecord) :
    Prop extends Reads env row record where
  written : env.write record.manifest = some row.manifestJson
  id : record.manifest.id = row.id
  version : record.manifest.version = row.version
  valid : record.manifest.validate env.semver = .ok ()

theorem Stored.set (h : Stored env row record) (state : DistributionState) (time : Option ℕ) :
    Stored env { row with state := state, admittedAt := time }
      { record with state := state, admittedAt := time } where
  manifest := h.manifest
  source := h.source
  eq := by
    have heq := h.eq
    rw [DistributionRecord.mk.injEq] at heq ⊢
    obtain ⟨-, hartifact, hsource, hkeyId, hcached, -, -⟩ := heq
    exact ⟨rfl, hartifact, hsource, hkeyId, hcached, rfl, rfl⟩
  written := h.written
  id := h.id
  version := h.version
  valid := h.valid

/-! ### What an operation does -/

/-- The cache and the bindings stay. -/
def Untouched (store store' : DistributionStore) : Prop :=
  store'.cache = store.cache ∧ store'.bindings = store.bindings

/-- The record of a package that has been downloaded. -/
def cachedRecord (manifest : PackageManifest) (artifact : List UInt8) (source : DistributionSource)
    (keyId : String) (time : ℕ) : DistributionRecord :=
  ⟨manifest, artifact, source, keyId, time, none, .cached⟩

/-- A package passes, and is not in the cache yet. -/
structure Caches (env : DistributionEnv V) (store : DistributionStore) (manifest : PackageManifest)
    (artifact : List UInt8) (source : DistributionSource) (time : ℕ) (keyId json : String)
    (store' : DistributionStore) : Prop where
  origin : source.validate env = .ok ()
  key : verifyCandidate env store manifest artifact = .ok keyId
  written : env.write manifest = some json
  new : store.cache.get? (manifest.id, manifest.version) = none
  room : store.cache.rows.length < maxDistributionRecords
  stored : ∃ cache events,
    store.cache.insert? (rowOf (cachedRecord manifest artifact source keyId time) json) =
      some cache ∧
    Appends env store.events .downloadVerified time
      (cachedRecord manifest artifact source keyId time) events ∧
    store' = { store with cache := cache, events := events }

theorem loadRecord_eq_ok {existing : Option DistributionRecord} :
    loadRecord env store id version = .ok existing ↔
      (store.cache.get? (id, version) = none ∧ existing = none) ∨
      ∃ row record, store.cache.get? (id, version) = some row ∧ Reads env row record ∧
        existing = some record := by
  unfold loadRecord
  cases hrow : store.cache.get? (id, version) with
  | none =>
    simp only [pure_eq_ok, true_and, reduceCtorEq, false_and, exists_false, or_false]
    exact eq_comm
  | some row =>
    simp only [bind_eq_ok, pure_eq_ok, decodeRecord_eq_ok]
    constructor
    · rintro ⟨record, hreads, rfl⟩
      exact Or.inr ⟨row, record, rfl, hreads, rfl⟩
    · rintro (⟨hnone, -⟩ | ⟨row', record, hrow', hreads, rfl⟩)
      · cases hnone
      · obtain rfl := Option.some.inj hrow'
        exact ⟨record, hreads, rfl⟩

section Caching
variable {manifest : PackageManifest} {artifact : List UInt8} {source : DistributionSource}
  {json : String}

theorem cacheVerified_cases
    (h : cacheVerified env store manifest artifact source time = .ok (store', answer)) :
    store' = store ∨ ∃ keyId json, Caches env store manifest artifact source time keyId json store'
    := by
  unfold cacheVerified at h
  simp only [bind_eq_ok, orError_eq_ok] at h
  obtain ⟨⟨⟩, hsource, keyId, hkey, json, hjson, existing, hexisting, h⟩ := h
  rcases loadRecord_eq_ok.mp hexisting with ⟨hnone, rfl⟩ | ⟨row, record, -, -, rfl⟩
  · unfold cacheRecord at h
    simp only [bind_eq_ok, ensure_eq_ok, exists_const, orError_eq_ok, appendEvent_eq_ok,
      pure_eq_ok, Prod.mk.injEq] at h
    obtain ⟨hroom, -, cache, hinsert, _, ⟨events, happends, rfl⟩, rfl, -⟩ := h
    exact Or.inr ⟨keyId, json, hsource, hkey, hjson, hnone, hroom, cache, events, hinsert, happends,
      rfl⟩
  · simp only [bind_eq_ok, ensure_eq_ok, exists_const, pure_eq_ok, Prod.mk.injEq] at h
    exact Or.inl h.2.1.symm

theorem Caches.perform (h : Caches env store manifest artifact source time keyId json store') :
    ∃ answer, cacheVerified env store manifest artifact source time = .ok (store', answer) := by
  obtain ⟨cache, events, hinsert, happends, rfl⟩ := h.stored
  refine ⟨.mutation (cachedRecord manifest artifact source keyId time) true, ?_⟩
  have hload : loadRecord env store manifest.id manifest.version = .ok none :=
    loadRecord_eq_ok.mpr (Or.inl ⟨h.new, rfl⟩)
  unfold cacheVerified
  simp only [bind_eq_ok, orError_eq_ok]
  refine ⟨(), h.origin, keyId, h.key, json, h.written, none, hload, ?_⟩
  unfold cacheRecord
  simp only [bind_eq_ok, ensure_eq_ok, exists_const, orError_eq_ok, appendEvent_eq_ok, pure_eq_ok]
  exact ⟨h.room, happends.inTime, cache, hinsert, _, ⟨events, happends, rfl⟩, rfl⟩

theorem Caches.stored_row (hfaithful : Faithful env.toPackageEnv)
    (h : Caches env store manifest artifact source time keyId json store') :
    Stored env (rowOf (cachedRecord manifest artifact source keyId time) json)
      (cachedRecord manifest artifact source keyId time) := by
  have hvalid : manifest.validate env.semver = .ok () := by
    have hkey := h.key
    unfold verifyCandidate at hkey
    simp only [bind_eq_ok, mapError_eq_ok] at hkey
    obtain ⟨⟨⟩, hvalid, -⟩ := hkey
    exact hvalid
  exact ⟨⟨hfaithful _ _ h.written, h.origin, rfl⟩, h.written, rfl, rfl, hvalid⟩

end Caching

theorem verifyOffline_cases (h : verifyOffline env store id version time = .ok (store', answer)) :
    Untouched store store' := by
  unfold verifyOffline at h
  simp only [bind_eq_ok, appendEvent_eq_ok, pure_eq_ok, Prod.mk.injEq] at h
  obtain ⟨_, -, _, ⟨events, -, rfl⟩, rfl, -⟩ := h
  exact ⟨rfl, rfl⟩

theorem verifyCurrent_cases (h : verifyCurrent env store id version = .ok (store', answer)) :
    Untouched store store' := by
  unfold verifyCurrent at h
  simp only [bind_eq_ok, pure_eq_ok, Prod.mk.injEq] at h
  obtain ⟨_, -, rfl, -⟩ := h
  exact ⟨rfl, rfl⟩

/-! ### What became active -/

variable {binding : DistributionBinding}

theorem activeVersion_of_mem (h : binding ∈ store.bindings) :
    store.activeVersion binding.id = some binding.activeVersion := by
  unfold DistributionStore.activeVersion loadBinding
  rw [Table.get?_eq_some.mpr ⟨h, rfl⟩]
  rfl

theorem mem_newlyBound : entry ∈ newlyBound store store' ↔
    ∃ binding ∈ store'.bindings, store.activeVersion binding.id ≠ some binding.activeVersion ∧
      (binding.id, binding.activeVersion) = entry := by
  unfold newlyBound
  simp only [mem_map, mem_filter, Table.mem_rows, decide_eq_true_eq, and_assoc]

theorem newlyBound_eq_nil (h : ∀ binding ∈ store'.bindings, binding ∈ store.bindings) :
    newlyBound store store' = [] := by
  rw [eq_nil_iff_forall_not_mem]
  intro entry hentry
  obtain ⟨binding, hbinding, hne, -⟩ := mem_newlyBound.mp hentry
  exact hne (activeVersion_of_mem (h binding hbinding))

theorem newlyBound_pairwise (store store' : DistributionStore) :
    (newlyBound store store').Pairwise fun a b => a.1 ≠ b.1 := by
  have hnodup := store'.bindings.nodup
  unfold List.Nodup at hnodup
  rw [pairwise_map] at hnodup
  unfold newlyBound
  rw [pairwise_map]
  exact hnodup.sublist filter_sublist

/-! ### Admission -/

/-- The record of a row that has been admitted. -/
def admittedRecord (record : DistributionRecord) (time : ℕ) : DistributionRecord :=
  { record with state := .admitted, admittedAt := some time }

theorem bindVersion_eq_ok {existing : Option DistributionBinding} :
    bindVersion env store existing id version time record = .ok (store', answer) ↔
      (nextBinding existing id version).generation < 2 ^ 63 ∧
      answer = .mutation (admittedRecord record time) true ∧
      ∃ events, Appends env store.events .admitted time (admittedRecord record time) events ∧
        store' = { store with
          bindings := store.bindings.upsert (nextBinding existing id version)
          cache := setAdmitted store.cache id version time
          events := events } := by
  unfold bindVersion
  simp only [bind_eq_ok, ensure_eq_ok, exists_const, appendEvent_eq_ok, pure_eq_ok, Prod.mk.injEq]
  constructor
  · rintro ⟨hgeneration, -, _, ⟨events, happends, rfl⟩, rfl, rfl⟩
    exact ⟨hgeneration, rfl, events, happends, rfl⟩
  · rintro ⟨hgeneration, rfl, events, happends, rfl⟩
    exact ⟨hgeneration, happends.inTime, _, ⟨events, happends, rfl⟩, rfl, rfl⟩

section Admission
variable [LinearOrder V] {digest : String}

theorem prepareAdmission_cases (h : prepareAdmission env store id version = .ok (store', answer)) :
    Untouched store store' := by
  unfold prepareAdmission at h
  simp only [bind_eq_ok] at h
  obtain ⟨record, -, ⟨⟩, -, h⟩ := h
  have hstore : store' = store := by
    cases hbinding : loadBinding store id with
    | none =>
      rw [hbinding] at h
      simp only [pure_eq_ok, Prod.mk.injEq] at h
      exact h.1.symm
    | some binding =>
      rw [hbinding] at h
      dsimp only at h
      split_ifs at h
      · simp only [pure_eq_ok, Prod.mk.injEq] at h
        exact h.1.symm
      · simp only [bind_eq_ok, pure_eq_ok, Prod.mk.injEq] at h
        obtain ⟨-, -, hstore, -⟩ := h
        exact hstore.symm
  rw [hstore]
  exact ⟨rfl, rfl⟩

/-- The first version is below the second. -/
def Below (env : DistributionEnv V) (a b : String) : Prop :=
  ∃ v w, env.parseVersion a = some v ∧ env.parseVersion b = some w ∧ v < w

theorem Below.trans {a b c : String} (hab : Below env a b) (hbc : Below env b c) :
    Below env a c := by
  obtain ⟨u, v, hu, hv, huv⟩ := hab
  obtain ⟨v', w, hv', hw, hvw⟩ := hbc
  have hsame : v = v' := Option.some.inj (hv.symm.trans hv')
  subst hsame
  exact ⟨u, w, hu, hw, lt_trans huv hvw⟩

theorem Below.ne {a b : String} (h : Below env a b) : a ≠ b := by
  rintro rfl
  obtain ⟨v, w, hv, hw, hvw⟩ := h
  have hsame : v = w := Option.some.inj (hv.symm.trans hw)
  exact absurd hsame (ne_of_lt hvw)

theorem checkUpgrade_eq_ok :
    checkUpgrade env binding version = .ok () ↔ Below env binding.activeVersion version := by
  unfold checkUpgrade Below
  simp only [bind_eq_ok, orError_eq_ok, ensure_eq_ok]
  constructor
  · rintro ⟨active, hactive, requested, hrequested, hlt⟩
    exact ⟨active, requested, hactive, hrequested, hlt⟩
  · rintro ⟨active, requested, hactive, hrequested, hlt⟩
    exact ⟨active, hactive, requested, hrequested, hlt⟩

/-- A version passes, and becomes active. -/
structure Admits (env : DistributionEnv V) (store : DistributionStore) (id version digest : String)
    (time : ℕ) (record : DistributionRecord) (store' : DistributionStore) : Prop where
  loads : requireRecord env store id version = .ok record
  digest_eq : hashArtifact env.toPackageEnv record.artifact = digest
  key : verifyCandidate env store record.manifest record.artifact = .ok record.publisherKeyId
  dependencies : verifyDependencies store record.manifest = .ok ()
  upgrade : ∀ binding, loadBinding store id = some binding →
    Below env binding.activeVersion version
  generation : (nextBinding (loadBinding store id) id version).generation < 2 ^ 63
  stored : ∃ events,
    Appends env store.events .admitted time (admittedRecord record time) events ∧
    store' = { store with
      bindings := store.bindings.upsert (nextBinding (loadBinding store id) id version)
      cache := setAdmitted store.cache id version time
      events := events }

theorem recordAdmission_cases
    (h : recordAdmission env store id version digest time = .ok (store', answer)) :
    store' = store ∨ ∃ record, Admits env store id version digest time record store' := by
  unfold recordAdmission at h
  simp only [bind_eq_ok, ensure_eq_ok, exists_const] at h
  obtain ⟨record, hrecord, hdigest, keyId, hkey, hsame, ⟨⟩, hdependencies, h⟩ := h
  subst hsame
  cases hbinding : loadBinding store id with
  | none =>
    rw [hbinding] at h
    obtain ⟨hgeneration, -, hstored⟩ := bindVersion_eq_ok.mp h
    refine Or.inr ⟨record, hrecord, hdigest, hkey, hdependencies, ?_, ?_, ?_⟩
    · intro binding hsome
      rw [hbinding] at hsome
      cases hsome
    · rw [hbinding]
      exact hgeneration
    · rw [hbinding]
      exact hstored
  | some binding =>
    rw [hbinding] at h
    dsimp only at h
    split_ifs at h
    · simp only [pure_eq_ok, Prod.mk.injEq] at h
      exact Or.inl h.1.symm
    · simp only [bind_eq_ok, bindVersion_eq_ok] at h
      obtain ⟨⟨⟩, hupgrade, hgeneration, -, hstored⟩ := h
      refine Or.inr ⟨record, hrecord, hdigest, hkey, hdependencies, ?_, ?_, ?_⟩
      · intro binding' hsome
        rw [hbinding, Option.some.injEq] at hsome
        subst hsome
        exact checkUpgrade_eq_ok.mp hupgrade
      · rw [hbinding]
        exact hgeneration
      · rw [hbinding]
        exact hstored

theorem Admits.perform (h : Admits env store id version digest time record store') :
    ∃ answer, recordAdmission env store id version digest time = .ok (store', answer) := by
  refine ⟨.mutation (admittedRecord record time) true, ?_⟩
  have hgeneration := h.generation
  have hstored := h.stored
  unfold recordAdmission
  simp only [bind_eq_ok, ensure_eq_ok, exists_const]
  refine ⟨record, h.loads, h.digest_eq, _, h.key, rfl, (), h.dependencies, ?_⟩
  cases hbinding : loadBinding store id with
  | none =>
    rw [hbinding] at hgeneration hstored
    exact bindVersion_eq_ok.mpr ⟨hgeneration, rfl, hstored⟩
  | some binding =>
    rw [hbinding] at hgeneration hstored
    have hbelow := h.upgrade binding hbinding
    dsimp only
    rw [if_neg fun hsame => hbelow.ne hsame.1]
    simp only [bind_eq_ok]
    exact ⟨(), checkUpgrade_eq_ok.mpr hbelow, bindVersion_eq_ok.mpr ⟨hgeneration, rfl, hstored⟩⟩

/-- The row of a version that has been admitted. -/
def promoted (row : CacheRow) (time : ℕ) : CacheRow :=
  { row with state := .admitted, admittedAt := some time }

theorem mem_setAdmitted {cache : Table CacheRow.key} :
    row' ∈ setAdmitted cache id version time ↔
      ∃ row ∈ cache, row' = if row.key = (id, version) then promoted row time else row := by
  refine Table.mem_update.trans ?_
  simp only [decide_eq_true_eq]
  rfl

theorem Admits.exists_row (h : Admits env store id version digest time record store') :
    ∃ row ∈ store.cache, row.key = (id, version) ∧ Reads env row record := by
  obtain ⟨row, hget, hreads⟩ := requireRecord_eq_ok.mp h.loads
  obtain ⟨hrow, hkey⟩ := Table.get?_eq_some.mp hget
  exact ⟨row, hrow, hkey, hreads⟩

theorem Admits.mem_bindings (h : Admits env store id version digest time record store') :
    binding ∈ store'.bindings ↔
      binding = nextBinding (loadBinding store id) id version ∨
        (binding ∈ store.bindings ∧ binding.id ≠ id) := by
  obtain ⟨events, -, rfl⟩ := h.stored
  exact Table.mem_upsert

theorem Admits.mem_cache (h : Admits env store id version digest time record store') :
    row' ∈ store'.cache ↔
      ∃ row ∈ store.cache, row' = if row.key = (id, version) then promoted row time else row := by
  obtain ⟨events, -, rfl⟩ := h.stored
  exact mem_setAdmitted

theorem Admits.mem_newlyBound (h : Admits env store id version digest time record store') :
    entry ∈ newlyBound store store' ↔ entry = (id, version) := by
  rw [Admission.mem_newlyBound]
  constructor
  · rintro ⟨binding, hbinding, hne, rfl⟩
    rcases h.mem_bindings.mp hbinding with rfl | ⟨hold, -⟩
    · rfl
    · exact absurd (activeVersion_of_mem hold) hne
  · rintro rfl
    refine ⟨nextBinding (loadBinding store id) id version, h.mem_bindings.mpr (Or.inl rfl), ?_, rfl⟩
    intro hactive
    obtain ⟨binding, hbinding, hsame⟩ := Option.map_eq_some_iff.mp hactive
    exact (h.upgrade binding hbinding).ne hsame

theorem Admits.keeps_admitted (h : Admits env store id version digest time record store')
    {key : String × String}
    (hrow : ∃ row ∈ store.cache, row.key = key ∧ row.state = .admitted) :
    ∃ row ∈ store'.cache, row.key = key ∧ row.state = .admitted := by
  obtain ⟨row, hrow, hkey, hadmitted⟩ := hrow
  refine ⟨_, h.mem_cache.mpr ⟨row, hrow, rfl⟩, ?_⟩
  split_ifs
  · exact ⟨hkey, rfl⟩
  · exact ⟨hkey, hadmitted⟩

end Admission

/-! ### Revoking the records of a key -/

def revokedRecord (record : DistributionRecord) : DistributionRecord :=
  { record with state := .revoked }

/-- The row of a record that has been revoked. -/
def withdrawn (row : CacheRow) : CacheRow := { row with state := .revoked }

/-- The records that are not revoked yet. -/
def live (records : List DistributionRecord) : List DistributionRecord :=
  records.filter fun record => record.state ≠ .revoked

/-- One of the records stands in the row. -/
def hits (records : List DistributionRecord) (row : CacheRow) : Bool :=
  records.any fun record => row.key = (record.manifest.id, record.manifest.version)

/-- The binding names one of the records. -/
def hitsBinding (records : List DistributionRecord) (binding : DistributionBinding) : Bool :=
  records.any fun record => binding.id = record.manifest.id && binding.names record.manifest.version

/-- The store after the given records have been revoked. -/
structure Withdrawn (store : DistributionStore) (records : List DistributionRecord)
    (store' : DistributionStore) : Prop where
  cache : ∀ row', row' ∈ store'.cache ↔
    ∃ row ∈ store.cache, row' = if hits records row then withdrawn row else row
  bindings : ∀ binding, binding ∈ store'.bindings ↔
    binding ∈ store.bindings ∧ hitsBinding records binding = false

theorem revokeRecord_eq_ok {record' : DistributionRecord} :
    revokeRecord env store time record = .ok (store', record') ↔
      (record.state = .revoked ∧ store' = store ∧ record' = record) ∨
      (record.state ≠ .revoked ∧ record' = revokedRecord record ∧
        ∃ events, Appends env store.events .revoked time (revokedRecord record) events ∧
          store' = { store with
            cache := setRevoked store.cache record.manifest.id record.manifest.version
            bindings := store.bindings.delete fun binding =>
              binding.id = record.manifest.id && binding.names record.manifest.version
            events := events }) := by
  unfold revokeRecord
  split_ifs with hrevoked
  · simp only [pure_eq_ok, Prod.mk.injEq, hrevoked, ne_eq, not_true_eq_false, false_and, or_false,
      true_and]
    constructor
    all_goals
      rintro ⟨rfl, rfl⟩
      exact ⟨rfl, rfl⟩
  · simp only [bind_eq_ok, appendEvent_eq_ok, pure_eq_ok, Prod.mk.injEq]
    constructor
    · rintro ⟨_, ⟨events, happends, rfl⟩, rfl, rfl⟩
      exact Or.inr ⟨hrevoked, rfl, events, happends, rfl⟩
    · rintro (⟨hstate, -⟩ | ⟨-, rfl, events, happends, rfl⟩)
      · exact absurd hstate hrevoked
      · exact ⟨_, ⟨events, happends, rfl⟩, rfl, rfl⟩

theorem Withdrawn.refl (store : DistributionStore) : Withdrawn store [] store := by
  refine ⟨fun row' => ?_, fun binding => ?_⟩
  · simp [hits]
  · simp [hitsBinding]

theorem mem_setRevoked {cache : Table CacheRow.key} : row' ∈ setRevoked cache id version ↔
    ∃ row ∈ cache, row' = if row.key = (id, version) then withdrawn row else row := by
  refine Table.mem_update.trans ?_
  simp only [decide_eq_true_eq]
  rfl

variable {rest : List DistributionRecord}

theorem Withdrawn.cons {events : List DistributionEvent} (h : Withdrawn { store with
      cache := setRevoked store.cache record.manifest.id record.manifest.version
      bindings := store.bindings.delete fun binding =>
        binding.id = record.manifest.id && binding.names record.manifest.version
      events := events } rest store') : Withdrawn store (record :: rest) store' := by
  refine ⟨fun row' => ?_, fun binding => ?_⟩
  · rw [h.cache]
    -- the row of the record is withdrawn once or twice, which is the same
    have hrow : ∀ row, (if hits (record :: rest) row then withdrawn row else row) =
        if hits rest (if row.key = (record.manifest.id, record.manifest.version) then withdrawn row
          else row) then
          withdrawn (if row.key = (record.manifest.id, record.manifest.version) then withdrawn row
            else row)
        else if row.key = (record.manifest.id, record.manifest.version) then withdrawn row
          else row := by
      intro row
      by_cases hkey : row.key = (record.manifest.id, record.manifest.version)
      · have hfirst : hits (record :: rest) row = true := by simp [hits, hkey]
        rw [if_pos hkey, if_pos hfirst]
        split_ifs <;> rfl
      · have hfirst : hits (record :: rest) row = hits rest row := by simp [hits, hkey]
        rw [if_neg hkey, hfirst]
    constructor
    · rintro ⟨row₁, hrow₁, rfl⟩
      obtain ⟨row, hmem, rfl⟩ := mem_setRevoked.mp hrow₁
      exact ⟨row, hmem, (hrow row).symm⟩
    · rintro ⟨row, hmem, rfl⟩
      exact ⟨_, mem_setRevoked.mpr ⟨row, hmem, rfl⟩, hrow row⟩
  · rw [h.bindings, Table.mem_delete]
    have hfirst : hitsBinding (record :: rest) binding =
        ((binding.id = record.manifest.id && binding.names record.manifest.version) ||
          hitsBinding rest binding) := rfl
    rw [hfirst, Bool.or_eq_false_iff, and_assoc]

theorem live_cons_revoked (h : record.state = .revoked) :
    live (record :: rest) = live rest := by
  unfold live
  rw [filter_cons_of_neg (by simp [h])]

theorem live_cons (h : record.state ≠ .revoked) :
    live (record :: rest) = record :: live rest := by
  unfold live
  rw [filter_cons_of_pos (by simp [h])]

theorem revokeRecords_cases : ∀ {records records' : List DistributionRecord}
    {store store' : DistributionStore},
    revokeRecords env time store records = .ok (store', records') →
      Withdrawn store (live records) store' ∧ (live records ≠ [] →
        store.events.length + (live records).length ≤ maxDistributionEvents ∧ time < 2 ^ 63)
  | [], records', store, store', h => by
    simp only [revokeRecords, pure_eq_ok, Prod.mk.injEq] at h
    rw [← h.1]
    exact ⟨Withdrawn.refl store, fun hne => absurd rfl hne⟩
  | record :: rest, records', store, store', h => by
    simp only [revokeRecords, bind_eq_ok, pure_eq_ok, Prod.mk.injEq, Prod.exists] at h
    obtain ⟨store₁, record', hrecord, store₂, rest', hrest, rfl, -⟩ := h
    obtain ⟨hwithdrawn, hroom⟩ := revokeRecords_cases hrest
    rcases revokeRecord_eq_ok.mp hrecord with ⟨hstate, rfl, -⟩ | ⟨hstate, -, events, happends, rfl⟩
    · rw [live_cons_revoked hstate]
      exact ⟨hwithdrawn, hroom⟩
    · rw [live_cons hstate]
      refine ⟨hwithdrawn.cons, fun _ => ⟨?_, happends.inTime⟩⟩
      obtain ⟨json, -, -, rfl⟩ := happends.written
      have hfirst := happends.room
      by_cases hnil : live rest = []
      · rw [hnil, length_singleton]
        exact hfirst
      · have hrest := (hroom hnil).1
        rw [length_append, length_singleton] at hrest
        rw [length_cons]
        omega

/-- The log after the records have been revoked. -/
def revokedEvents (env : DistributionEnv V) (time : ℕ) :
    List DistributionEvent → List DistributionRecord → List DistributionEvent
  | events, [] => events
  | events, record :: rest =>
    match env.write record.manifest with
    | none => events
    | some json =>
      revokedEvents env time
        (events ++ [eventOf env events .revoked time (revokedRecord record) json]) rest

/-- The digests of the log are distinct. -/
def Unlike (events : List DistributionEvent) : Prop := (events.map (·.eventDigest)).Nodup

theorem unlike_of_revokedEvents : ∀ {records : List DistributionRecord}
    {events : List DistributionEvent}, Unlike (revokedEvents env time events records) →
      Unlike events
  | [], _, h => h
  | record :: rest, events, h => by
    unfold revokedEvents at h
    split at h
    · exact h
    · have hnext := unlike_of_revokedEvents h
      unfold Unlike at hnext
      rw [map_append] at hnext
      exact hnext.of_append_left

/-- The loop succeeds if there is room for the events and no two of them look alike. -/
theorem exists_revokeRecords : ∀ {records : List DistributionRecord} {store : DistributionStore},
    (∀ record ∈ records, ∃ json, env.write record.manifest = some json) →
    (live records ≠ [] →
      store.events.length + (live records).length ≤ maxDistributionEvents ∧ time < 2 ^ 63) →
    Unlike (revokedEvents env time store.events (live records)) →
      ∃ store' records', revokeRecords env time store records = .ok (store', records')
  | [], store, _, _, _ => ⟨store, [], rfl⟩
  | record :: rest, store, hwritten, hroom, hunlike => by
    have hrest : ∀ other ∈ rest, ∃ json, env.write other.manifest = some json :=
      fun other hother => hwritten other (mem_cons_of_mem _ hother)
    by_cases hstate : record.state = .revoked
    · rw [live_cons_revoked hstate] at hroom hunlike
      obtain ⟨store', records', hloop⟩ := exists_revokeRecords hrest hroom hunlike
      refine ⟨store', record :: records', ?_⟩
      simp only [revokeRecords, bind_eq_ok, pure_eq_ok, Prod.mk.injEq, Prod.exists]
      exact ⟨store, record, revokeRecord_eq_ok.mpr (Or.inl ⟨hstate, rfl, rfl⟩), store', records',
        hloop, rfl, rfl⟩
    · rw [live_cons hstate] at hroom hunlike
      obtain ⟨hlength, htime⟩ := hroom (cons_ne_nil _ _)
      rw [length_cons] at hlength
      obtain ⟨json, hjson⟩ := hwritten record mem_cons_self
      unfold revokedEvents at hunlike
      rw [hjson] at hunlike
      have hnext := unlike_of_revokedEvents hunlike
      have happends : Appends env store.events .revoked time (revokedRecord record)
          (store.events ++
            [eventOf env store.events .revoked time (revokedRecord record) json]) := by
        refine ⟨by omega, htime, json, hjson, ?_, rfl⟩
        unfold Unlike at hnext
        rw [map_append, nodup_append] at hnext
        intro hmem
        exact hnext.2.2 _ hmem _ (mem_singleton_self _) rfl
      have hroom' : live rest ≠ [] → (store.events ++ [eventOf env store.events .revoked time
          (revokedRecord record) json]).length + (live rest).length ≤ maxDistributionEvents ∧
            time < 2 ^ 63 := by
        intro _
        rw [length_append, length_singleton]
        exact ⟨by omega, htime⟩
      obtain ⟨store', records', hloop⟩ := @exists_revokeRecords rest { store with
        cache := setRevoked store.cache record.manifest.id record.manifest.version
        bindings := store.bindings.delete fun binding =>
          binding.id = record.manifest.id && binding.names record.manifest.version
        events := store.events ++
          [eventOf env store.events .revoked time (revokedRecord record) json] }
        hrest hroom' hunlike
      refine ⟨store', revokedRecord record :: records', ?_⟩
      simp only [revokeRecords, bind_eq_ok, pure_eq_ok, Prod.mk.injEq, Prod.exists]
      exact ⟨_, _, revokeRecord_eq_ok.mpr (Or.inr ⟨hstate, rfl, _, happends, rfl⟩), store',
        records', hloop, rfl, rfl⟩

theorem Reads.unique {other : DistributionRecord} (h : Reads env row record)
    (h' : Reads env row other) : record = other := by
  have hmanifest : record.manifest = other.manifest :=
    Option.some.inj (h.manifest.symm.trans h'.manifest)
  rw [h.eq, h'.eq, hmanifest]

section Loading
variable {records : List DistributionRecord}

theorem mem_loadRecordsForKey (h : loadRecordsForKey env store publisher keyId = .ok records) :
    record ∈ records ↔
      ∃ row ∈ store.cache, Reads env row record ∧ OfKey env (publisher, keyId) row := by
  unfold loadRecordsForKey at h
  simp only [bind_eq_ok, mapError_eq_ok, pure_eq_ok] at h
  obtain ⟨all, hall, rfl⟩ := h
  rw [mem_filter, mem_mapM hall]
  simp only [mem_insertionSort, mem_filter, Table.mem_rows, decodeRecord_eq_ok,
    decide_eq_true_eq]
  constructor
  · rintro ⟨⟨row, ⟨hrow, hkey⟩, hreads⟩, hpublisher⟩
    exact ⟨row, hrow, hreads, record.manifest, hreads.manifest, hpublisher, hkey⟩
  · rintro ⟨row, hrow, hreads, manifest, hmanifest, hpublisher, hkey⟩
    have hsame : record.manifest = manifest :=
      Option.some.inj (hreads.manifest.symm.trans hmanifest)
    rw [hsame]
    exact ⟨⟨row, ⟨hrow, hkey⟩, hreads⟩, hpublisher⟩

theorem exists_loadRecordsForKey (hstored : ∀ row ∈ store.cache, ∃ record, Stored env row record)
    (publisher keyId : String) :
    ∃ records, loadRecordsForKey env store publisher keyId = .ok records := by
  obtain ⟨all, hall⟩ := @exists_mapM _ _ _ (decodeRecord env)
    ((store.cache.rows.filter fun row => row.publisherKeyId = keyId).insertionSort
      fun a b => a.id < b.id ∨ (a.id = b.id ∧ a.version ≤ b.version)) (by
    intro row hrow
    have hmem := (mem_filter.mp ((mem_insertionSort _).mp hrow)).1
    obtain ⟨record, hrecord⟩ := hstored row hmem
    exact ⟨record, decodeRecord_eq_ok.mpr hrecord.toReads⟩)
  refine ⟨all.filter fun record => record.manifest.publisher = publisher, ?_⟩
  unfold loadRecordsForKey
  simp only [bind_eq_ok, mapError_eq_ok, pure_eq_ok]
  exact ⟨all, hall, rfl⟩

/-- The rows whose records are revoked: those of the key that are not revoked yet. -/
theorem hits_live (hstored : ∀ row ∈ store.cache, ∃ record, Stored env row record)
    (h : loadRecordsForKey env store publisher keyId = .ok records) (hrow : row ∈ store.cache) :
    hits (live records) row = true ↔ row.state ≠ .revoked ∧ OfKey env (publisher, keyId) row := by
  unfold hits live
  simp only [any_eq_true, mem_filter, decide_eq_true_eq, mem_loadRecordsForKey h]
  constructor
  · rintro ⟨record, ⟨⟨other, hother, hreads, hofKey⟩, hstate⟩, hkey⟩
    obtain ⟨record', hrecord'⟩ := hstored other hother
    obtain rfl := hrecord'.toReads.unique hreads
    rw [hrecord'.id, hrecord'.version] at hkey
    obtain rfl := Table.eq_of_key hrow hother hkey
    rw [hreads.eq] at hstate
    exact ⟨hstate, hofKey⟩
  · rintro ⟨hstate, hofKey⟩
    obtain ⟨record, hrecord⟩ := hstored row hrow
    refine ⟨record, ⟨⟨row, hrow, hrecord.toReads, hofKey⟩, ?_⟩, ?_⟩
    · rw [hrecord.eq]
      exact hstate
    · rw [hrecord.id, hrecord.version]
      rfl

end Loading

end Pandora.Packages.Admission
