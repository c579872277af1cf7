import Pandora.Packages.Admission

/-! # Revocation in the distribution store

Revoking a key is effective and final, and the active versions of a package only grow (`Keeps`),
exactly if a revocation finds room in the log, nothing is cached or admitted under a key that was
revoked here, and a package that has lost its binding gets a version above all those it had
(`revocation_final_iff`). Each of the three can fail: `record_admission` does not look at the state
of the record, and compares the version with the binding alone, which a revocation deletes.

The invariant that a step keeps is `Sound`. What an operation does when it succeeds is said once, by
`Caches`, `Admits` and `Withdrawn`. -/

namespace Pandora.Packages.Revocation

open Text Lib.Checked Lib.Tables Lib.Runs Packages.Manifest Packages.Registry List
open Packages.Loading (Faithful)
open Packages.Distribution Packages.Admission

variable {V : Type} {env : DistributionEnv V} {store store' : DistributionStore}
  {record : DistributionRecord} {answer : DistributionAnswer} {row row' : CacheRow}
  {id version publisher keyId : String} {time : ℕ}

/-! ### The invariant -/

variable [LinearOrder V] {s : Observed}

/-- Of two versions of a package, the later one is above the earlier one. -/
def Increasing (env : DistributionEnv V) (bound : List (String × String)) : Prop :=
  bound.Pairwise fun earlier later => earlier.1 = later.1 → Below env earlier.2 later.2

structure Sound (env : DistributionEnv V) (s : Observed) : Prop where
  stored : ∀ row ∈ s.store.cache, ∃ record, Stored env row record
  named : ∀ binding ∈ s.store.bindings, ∀ version, binding.names version = true →
    ∃ row ∈ s.store.cache, row.key = (binding.id, version) ∧ row.state = .admitted
  revoked : ∀ row ∈ s.store.cache,
    row.state = .revoked ↔ ∃ entry ∈ s.revokedKeys, OfKey env entry row
  bound : ∀ binding ∈ s.store.bindings, ∀ entry ∈ s.bound, entry.1 = binding.id →
    entry.2 = binding.activeVersion ∨ Below env entry.2 binding.activeVersion
  increasing : Increasing env s.bound

theorem sound_empty : Sound env .empty := by
  refine ⟨?_, ?_, ?_, ?_, List.Pairwise.nil⟩
  · intro row hrow
    exact absurd hrow (Table.not_mem_empty row)
  · intro binding hbinding
    exact absurd hbinding (Table.not_mem_empty binding)
  · intro row hrow
    exact absurd hrow (Table.not_mem_empty row)
  · intro binding hbinding
    exact absurd hbinding (Table.not_mem_empty binding)

/-! ### Steps -/

variable {request : DistributionRequest}

theorem step_ok (h : perform env s.store request = .ok (store', answer)) :
    s.step env request = (s.next store' request, .ok answer) := by
  unfold Observed.step
  rw [h]

theorem step_error {e : PackageDistributionError}
    (h : perform env s.store request = .error e) : s.step env request = (s, .error e) := by
  unfold Observed.step
  rw [h]

/-- The bindings that are left have been there, with the same active version. -/
theorem Sound.bound_of_subset (h : Sound env s)
    (hsub : ∀ binding ∈ store'.bindings, binding ∈ s.store.bindings) :
    (∀ binding ∈ store'.bindings, ∀ entry ∈ s.bound ++ newlyBound s.store store',
      entry.1 = binding.id →
        entry.2 = binding.activeVersion ∨ Below env entry.2 binding.activeVersion) ∧
      Increasing env (s.bound ++ newlyBound s.store store') := by
  rw [newlyBound_eq_nil hsub, append_nil]
  exact ⟨fun binding hbinding => h.bound binding (hsub binding hbinding), h.increasing⟩

theorem Sound.untouched (h : Sound env s) (hsame : Untouched s.store store')
    (hrevokes : request.revokes = []) :
    Sound env (s.next store' request) := by
  obtain ⟨hcache, hbindings⟩ := hsame
  have hsub : ∀ binding ∈ store'.bindings, binding ∈ s.store.bindings := by
    rw [hbindings]
    exact fun _ hbinding => hbinding
  obtain ⟨hbound, hincreasing⟩ := h.bound_of_subset hsub
  refine ⟨?_, ?_, ?_, hbound, hincreasing⟩
  · show ∀ row ∈ store'.cache, _
    rw [hcache]
    exact h.stored
  · show ∀ binding ∈ store'.bindings, ∀ version, _ → ∃ row ∈ store'.cache, _
    rw [hcache, hbindings]
    exact h.named
  · show ∀ row ∈ store'.cache, row.state = .revoked ↔
      ∃ entry ∈ s.revokedKeys ++ request.revokes, OfKey env entry row
    rw [hcache, hrevokes, append_nil]
    exact h.revoked

section Caching
variable {manifest : PackageManifest} {artifact : List UInt8} {source : DistributionSource}
  {json : String}

theorem Sound.caches (hfaithful : Faithful env.toPackageEnv) (h : Sound env s)
    (hcaches : Caches env s.store manifest artifact source time keyId json store')
    (hkey : (manifest.publisher, keyId) ∉ s.revokedKeys) :
    Sound env (s.next store' (.cacheVerified manifest artifact source time)) := by
  have hrow := hcaches.stored_row hfaithful
  obtain ⟨cache, events, hinsert, -, rfl⟩ := hcaches.stored
  obtain ⟨hbound, hincreasing⟩ := @Sound.bound_of_subset _ _
    { s.store with cache := cache, events := events } _ _ h fun _ hbinding => hbinding
  refine ⟨?_, ?_, ?_, hbound, hincreasing⟩
  · intro row hmem
    rcases (Table.mem_insert? hinsert).mp hmem with hold | rfl
    · exact h.stored row hold
    · exact ⟨_, hrow⟩
  · intro binding hbinding version hnames
    obtain ⟨row, hold, hadmitted⟩ := h.named binding hbinding version hnames
    exact ⟨row, (Table.mem_insert? hinsert).mpr (Or.inl hold), hadmitted⟩
  · intro row hmem
    show row.state = .revoked ↔ ∃ entry ∈ s.revokedKeys ++ [], OfKey env entry row
    rw [append_nil]
    rcases (Table.mem_insert? hinsert).mp hmem with hold | rfl
    · exact h.revoked row hold
    · constructor
      · intro hrevoked
        cases hrevoked
      · rintro ⟨entry, hentry, hofKey⟩
        have hsame := hrow.toReads.ofKey.mp hofKey
        rw [← hsame] at hentry
        exact absurd hentry hkey

end Caching

section Admission
variable {digest : String}

theorem Sound.admits (h : Sound env s)
    (hadmits : Admits env s.store id version digest time record store')
    (hkey : (record.manifest.publisher, record.publisherKeyId) ∉ s.revokedKeys)
    (hnone : loadBinding s.store id = none →
      ∀ entry ∈ s.bound, entry.1 = id → Below env entry.2 version) :
    Sound env (s.next store' (.recordAdmission id version digest time)) := by
  obtain ⟨row₀, hrow₀, hkey₀, hreads₀⟩ := hadmits.exists_row
  -- every version that was active before is below
  have hbelow : ∀ entry ∈ s.bound, entry.1 = id → Below env entry.2 version := by
    cases hbinding : loadBinding s.store id with
    | none => exact hnone hbinding
    | some binding =>
      have hupgrade := hadmits.upgrade binding hbinding
      obtain ⟨hmem, hid⟩ := Table.get?_eq_some.mp hbinding
      intro entry hentry hsame
      rcases h.bound binding hmem entry hentry (hsame.trans hid.symm) with heq | hlt
      · rw [heq]
        exact hupgrade
      · exact hlt.trans hupgrade
  refine ⟨?_, ?_, ?_, ?_, ?_⟩
  · intro row hrow
    obtain ⟨old, hold, rfl⟩ := hadmits.mem_cache.mp hrow
    obtain ⟨oldRecord, hstored⟩ := h.stored old hold
    split_ifs
    · exact ⟨_, hstored.set .admitted (some time)⟩
    · exact ⟨oldRecord, hstored⟩
  · intro binding hbinding version' hnames
    rcases hadmits.mem_bindings.mp hbinding with rfl | ⟨hold, -⟩
    · unfold DistributionBinding.names at hnames
      rw [Bool.or_eq_true, decide_eq_true_eq, decide_eq_true_eq] at hnames
      rcases hnames with hactive | hprevious
      · refine ⟨promoted row₀ time, hadmits.mem_cache.mpr ⟨row₀, hrow₀, ?_⟩, ?_, rfl⟩
        · rw [if_pos hkey₀]
        · rw [← hactive]
          exact hkey₀
      · obtain ⟨old, hold, rfl⟩ := Option.map_eq_some_iff.mp hprevious
        obtain ⟨hmem, hid⟩ := Table.get?_eq_some.mp hold
        have hadmitted := h.named old hmem old.activeVersion (by simp [DistributionBinding.names])
        rw [hid] at hadmitted
        exact hadmits.keeps_admitted hadmitted
    · exact hadmits.keeps_admitted (h.named binding hold version' hnames)
  · intro row hrow
    show row.state = .revoked ↔ ∃ entry ∈ s.revokedKeys ++ [], OfKey env entry row
    rw [append_nil]
    obtain ⟨old, hold, rfl⟩ := hadmits.mem_cache.mp hrow
    split_ifs with hsame
    · obtain rfl := Table.eq_of_key hold hrow₀ (hsame.trans hkey₀.symm)
      constructor
      · intro hrevoked
        cases hrevoked
      · rintro ⟨entry, hentry, hofKey⟩
        have hentry' := hreads₀.ofKey.mp hofKey
        rw [← hentry'] at hentry
        exact absurd hentry hkey
    · exact h.revoked old hold
  · intro binding hbinding entry hentry hsame
    rcases hadmits.mem_bindings.mp hbinding with rfl | ⟨hold, hother⟩
    · rcases List.mem_append.mp hentry with hentry | hentry
      · exact Or.inr (hbelow entry hentry hsame)
      · rw [hadmits.mem_newlyBound.mp hentry]
        exact Or.inl rfl
    · rcases List.mem_append.mp hentry with hentry | hentry
      · exact h.bound binding hold entry hentry hsame
      · rw [hadmits.mem_newlyBound.mp hentry] at hsame
        exact absurd hsame.symm hother
  · refine List.pairwise_append.mpr ⟨h.increasing, ?_, ?_⟩
    · exact (newlyBound_pairwise s.store store').imp fun hne hsame => absurd hsame hne
    · intro earlier hearlier later hlater hsame
      obtain rfl := hadmits.mem_newlyBound.mp hlater
      exact hbelow earlier hearlier hsame

end Admission

section Revoking
variable {records : List DistributionRecord}

theorem Sound.withdrawn (h : Sound env s)
    (hload : loadRecordsForKey env s.store publisher keyId = .ok records)
    (hwithdrawn : Withdrawn s.store (live records) store') (time : ℕ) :
    Sound env (s.next store' (.revokePublisherKey publisher keyId time)) := by
  have hsub : ∀ binding ∈ store'.bindings, binding ∈ s.store.bindings :=
    fun binding hbinding => ((hwithdrawn.bindings binding).mp hbinding).1
  obtain ⟨hbound, hincreasing⟩ := h.bound_of_subset hsub
  refine ⟨?_, ?_, ?_, hbound, hincreasing⟩
  · intro row hrow
    obtain ⟨old, hold, rfl⟩ := (hwithdrawn.cache row).mp hrow
    obtain ⟨record, hstored⟩ := h.stored old hold
    split_ifs
    · exact ⟨_, hstored.set .revoked old.admittedAt⟩
    · exact ⟨record, hstored⟩
  · intro binding hbinding version hnames
    obtain ⟨hold, hmissed⟩ := (hwithdrawn.bindings binding).mp hbinding
    obtain ⟨row, hrow, hkey, hadmitted⟩ := h.named binding hold version hnames
    -- the binding is still there, so the version it names was not revoked
    have hnot : hits (live records) row = false := by
      rw [Bool.eq_false_iff]
      intro hhit
      obtain ⟨record, hrecord, hsame⟩ := List.any_eq_true.mp hhit
      rw [decide_eq_true_eq, hkey, Prod.mk.injEq] at hsame
      have hhit' : hitsBinding (live records) binding = true := by
        refine List.any_eq_true.mpr ⟨record, hrecord, ?_⟩
        rw [Bool.and_eq_true, decide_eq_true_eq, ← hsame.2]
        exact ⟨hsame.1, hnames⟩
      rw [hmissed] at hhit'
      cases hhit'
    refine ⟨row, (hwithdrawn.cache row).mpr ⟨row, hrow, ?_⟩, hkey, hadmitted⟩
    rw [hnot]
    rfl
  · intro row hrow
    show row.state = .revoked ↔ ∃ entry ∈ s.revokedKeys ++ [(publisher, keyId)], OfKey env entry row
    obtain ⟨old, hold, rfl⟩ := (hwithdrawn.cache row).mp hrow
    have hhits := hits_live h.stored hload hold
    have holdKeys := h.revoked old hold
    split_ifs with hhit
    · have hofKey := (hhits.mp hhit).2
      refine ⟨fun _ => ⟨(publisher, keyId), by simp, hofKey⟩, fun _ => rfl⟩
    · constructor
      · intro hrevoked
        obtain ⟨entry, hentry, hofKey⟩ := holdKeys.mp hrevoked
        exact ⟨entry, mem_append_left _ hentry, hofKey⟩
      · rintro ⟨entry, hentry, hofKey⟩
        rcases List.mem_append.mp hentry with hentry | hentry
        · exact holdKeys.mpr ⟨entry, hentry, hofKey⟩
        · obtain rfl := List.mem_singleton.mp hentry
          by_contra hstate
          exact hhit (hhits.mpr ⟨hstate, hofKey⟩)

end Revoking

/-! ### What is promised, and when it is kept -/

/-- What a step is to leave behind. -/
structure Keeps (env : DistributionEnv V) (s : Observed) (request : DistributionRequest) :
    Prop where
  /-- A revocation succeeds. -/
  succeeds : ∀ publisher keyId time, request = .revokePublisherKey publisher keyId time →
    ∃ records, (s.step env request).2 = .ok (.records records)
  /-- The records of the keys that were revoked are revoked, and no binding names one of them. -/
  gone : ∀ entry ∈ (s.step env request).1.revokedKeys, ∀ row ∈ (s.step env request).1.store.cache,
    OfKey env entry row → row.state = .revoked ∧
      ∀ binding ∈ (s.step env request).1.store.bindings, binding.id = row.id →
        binding.names row.version = false
  /-- A record that is revoked stays as it is. -/
  final : ∀ row ∈ s.store.cache, row.state = .revoked → row ∈ (s.step env request).1.store.cache
  /-- The active version of a package is admitted. -/
  active : ∀ binding ∈ (s.step env request).1.store.bindings,
    ∃ row ∈ (s.step env request).1.store.cache,
      row.key = (binding.id, binding.activeVersion) ∧ row.state = .admitted
  /-- The active versions of a package increase. -/
  increasing : Increasing env (s.step env request).1.bound

/-- No package is entered or admitted under a key that was revoked here, a package without a binding
gets a version above those it had, and a revocation finds room in the log. -/
def Meets (env : DistributionEnv V) (s : Observed) : DistributionRequest → Prop
  | .cacheVerified manifest artifact source time => ∀ keyId json store',
    Caches env s.store manifest artifact source time keyId json store' →
      (manifest.publisher, keyId) ∉ s.revokedKeys
  | .recordAdmission id version digest time => ∀ record store',
    Admits env s.store id version digest time record store' →
      (record.manifest.publisher, record.publisherKeyId) ∉ s.revokedKeys ∧
      (loadBinding s.store id = none → ∀ entry ∈ s.bound, entry.1 = id → Below env entry.2 version)
  | .revokePublisherKey publisher keyId time => ∀ records,
    loadRecordsForKey env s.store publisher keyId = .ok records → live records ≠ [] →
      s.store.events.length + (live records).length ≤ maxDistributionEvents ∧ time < 2 ^ 63
  | _ => True

/-- The digests of the events that a revocation enters are not those of other events. -/
def Apart (env : DistributionEnv V) (s : Observed) : DistributionRequest → Prop
  | .revokePublisherKey publisher keyId time => ∀ records,
    loadRecordsForKey env s.store publisher keyId = .ok records →
      Unlike (revokedEvents env time s.store.events (live records))
  | _ => True

theorem exists_revoke (h : Sound env s)
    (hapart : Apart env s (.revokePublisherKey publisher keyId time))
    (hmeets : Meets env s (.revokePublisherKey publisher keyId time)) :
    ∃ store' records, perform env s.store (.revokePublisherKey publisher keyId time) =
      .ok (store', .records records) := by
  obtain ⟨records, hload⟩ := exists_loadRecordsForKey h.stored publisher keyId
  have hwritten : ∀ record ∈ records, ∃ json, env.write record.manifest = some json := by
    intro record hrecord
    obtain ⟨row, hrow, hreads, -⟩ := (mem_loadRecordsForKey hload).mp hrecord
    obtain ⟨record', hstored⟩ := h.stored row hrow
    obtain rfl := hstored.toReads.unique hreads
    exact ⟨_, hstored.written⟩
  obtain ⟨store', records', hloop⟩ := exists_revokeRecords hwritten (hmeets records hload)
    (hapart records hload)
  refine ⟨store', records', ?_⟩
  unfold perform revokePublisherKey
  simp only [bind_eq_ok, pure_eq_ok, Prod.mk.injEq, Prod.exists]
  exact ⟨records, hload, store', records', hloop, rfl, rfl⟩

omit [LinearOrder V] in
theorem revoke_cases
    (h : revokePublisherKey env store publisher keyId time = .ok (store', answer)) :
    (∃ records, answer = .records records) ∧
      ∃ records, loadRecordsForKey env store publisher keyId = .ok records ∧
        Withdrawn store (live records) store' ∧ (live records ≠ [] →
          store.events.length + (live records).length ≤ maxDistributionEvents ∧ time < 2 ^ 63) := by
  unfold revokePublisherKey at h
  simp only [bind_eq_ok, pure_eq_ok, Prod.mk.injEq, Prod.exists] at h
  obtain ⟨records, hload, store₁, records', hloop, rfl, rfl⟩ := h
  exact ⟨⟨records', rfl⟩, records, hload, revokeRecords_cases hloop⟩

theorem Sound.step (hfaithful : Faithful env.toPackageEnv) (h : Sound env s)
    (hmeets : Meets env s request) :
    Sound env (s.step env request).1 := by
  cases hperform : perform env s.store request with
  | error e =>
    rw [step_error hperform]
    exact h
  | ok committed =>
    obtain ⟨store', answer⟩ := committed
    rw [step_ok hperform]
    cases request with
    | cacheVerified manifest artifact source time =>
      rcases cacheVerified_cases hperform with rfl | ⟨keyId, json, hcaches⟩
      · exact h.untouched ⟨rfl, rfl⟩ rfl
      · exact h.caches hfaithful hcaches (hmeets keyId json store' hcaches)
    | verifyOffline id version time => exact h.untouched (verifyOffline_cases hperform) rfl
    | verifyCurrent id version => exact h.untouched (verifyCurrent_cases hperform) rfl
    | prepareAdmission id version => exact h.untouched (prepareAdmission_cases hperform) rfl
    | recordAdmission id version digest time =>
      rcases recordAdmission_cases hperform with rfl | ⟨record, hadmits⟩
      · exact h.untouched ⟨rfl, rfl⟩ rfl
      · obtain ⟨hkey, hnone⟩ := hmeets record store' hadmits
        exact h.admits hadmits hkey hnone
    | revokePublisherKey publisher keyId time =>
      obtain ⟨-, records, hload, hwithdrawn, -⟩ := revoke_cases hperform
      exact h.withdrawn hload hwithdrawn time
    | packages request =>
      simp only [perform, Except.ok.injEq, Prod.mk.injEq] at hperform
      have hsame : Untouched s.store store' := by
        rw [← hperform.1]
        exact ⟨rfl, rfl⟩
      exact h.untouched hsame rfl

/-- A step that meets the condition leaves the revoked records as they are. -/
theorem final_step (h : Sound env s)
    (hmeets : Meets env s request) (hrow : row ∈ s.store.cache) (hrevoked : row.state = .revoked) :
    row ∈ (s.step env request).1.store.cache := by
  cases hperform : perform env s.store request with
  | error e =>
    rw [step_error hperform]
    exact hrow
  | ok committed =>
    obtain ⟨store', answer⟩ := committed
    rw [step_ok hperform]
    show row ∈ store'.cache
    cases request with
    | cacheVerified manifest artifact source time =>
      rcases cacheVerified_cases hperform with rfl | ⟨keyId, json, hcaches⟩
      · exact hrow
      · obtain ⟨cache, events, hinsert, -, rfl⟩ := hcaches.stored
        exact (Table.mem_insert? hinsert).mpr (Or.inl hrow)
    | verifyOffline id version time =>
      rw [(verifyOffline_cases hperform).1]
      exact hrow
    | verifyCurrent id version =>
      rw [(verifyCurrent_cases hperform).1]
      exact hrow
    | prepareAdmission id version =>
      rw [(prepareAdmission_cases hperform).1]
      exact hrow
    | recordAdmission id version digest time =>
      rcases recordAdmission_cases hperform with rfl | ⟨record, hadmits⟩
      · exact hrow
      · refine hadmits.mem_cache.mpr ⟨row, hrow, ?_⟩
        rw [if_neg]
        intro hkey
        -- the record would be one of a revoked key
        obtain ⟨row₀, hrow₀, hkey₀, hreads₀⟩ := hadmits.exists_row
        obtain rfl := Table.eq_of_key hrow hrow₀ (hkey.trans hkey₀.symm)
        obtain ⟨entry, hentry, hofKey⟩ := (h.revoked row hrow).mp hrevoked
        have hsame := hreads₀.ofKey.mp hofKey
        rw [← hsame] at hentry
        exact (hmeets record store' hadmits).1 hentry
    | revokePublisherKey publisher keyId time =>
      obtain ⟨-, records, hload, hwithdrawn, -⟩ := revoke_cases hperform
      refine (hwithdrawn.cache row).mpr ⟨row, hrow, ?_⟩
      rw [if_neg]
      intro hhit
      exact ((hits_live h.stored hload hrow).mp hhit).1 hrevoked
    | packages request =>
      simp only [perform, Except.ok.injEq, Prod.mk.injEq] at hperform
      rw [← hperform.1]
      exact hrow

theorem keeps_of_meets (hfaithful : Faithful env.toPackageEnv) (h : Sound env s)
    (hapart : Apart env s request) (hmeets : Meets env s request) :
    Keeps env s request := by
  have hnext := h.step hfaithful hmeets
  refine ⟨?_, ?_, ?_, ?_, hnext.increasing⟩
  · rintro publisher keyId time rfl
    obtain ⟨store', records, hperform⟩ := exists_revoke h hapart hmeets
    rw [step_ok hperform]
    exact ⟨records, rfl⟩
  · intro entry hentry row hrow hofKey
    have hrevoked := (hnext.revoked row hrow).mpr ⟨entry, hentry, hofKey⟩
    refine ⟨hrevoked, fun binding hbinding hid => ?_⟩
    rw [Bool.eq_false_iff]
    intro hnames
    obtain ⟨other, hother, hkey, hadmitted⟩ := hnext.named binding hbinding row.version hnames
    rw [hid] at hkey
    obtain rfl := Table.eq_of_key hother hrow hkey
    rw [hrevoked] at hadmitted
    cases hadmitted
  · intro row hrow hrevoked
    exact final_step h hmeets hrow hrevoked
  · intro binding hbinding
    exact hnext.named binding hbinding binding.activeVersion (by simp [DistributionBinding.names])

theorem meets_of_keeps (hfaithful : Faithful env.toPackageEnv)
    (hkeeps : Keeps env s request) : Meets env s request := by
  cases request with
  | cacheVerified manifest artifact source time =>
    intro keyId json store' hcaches hmem
    obtain ⟨answer, hperform⟩ := hcaches.perform
    have hrow := hcaches.stored_row hfaithful
    obtain ⟨cache, events, hinsert, -, rfl⟩ := hcaches.stored
    have hstep : s.step env (.cacheVerified manifest artifact source time) =
        (s.next _ _, .ok answer) := step_ok hperform
    have hgone := hkeeps.gone (manifest.publisher, keyId)
    rw [hstep] at hgone
    have hrevoked := (hgone (mem_append_left _ hmem) _
      ((Table.mem_insert? hinsert).mpr (Or.inr rfl)) (hrow.toReads.ofKey.mpr rfl)).1
    cases hrevoked
  | recordAdmission id version digest time =>
    intro record store' hadmits
    obtain ⟨answer, hperform⟩ := hadmits.perform
    obtain ⟨row, hrow, hkey, hreads⟩ := hadmits.exists_row
    have hstep : s.step env (.recordAdmission id version digest time) =
        (s.next _ _, .ok answer) := step_ok hperform
    refine ⟨?_, ?_⟩
    · intro hmem
      have hgone := hkeeps.gone (record.manifest.publisher, record.publisherKeyId)
      rw [hstep] at hgone
      have hpromoted : promoted row time ∈ store'.cache := by
        refine hadmits.mem_cache.mpr ⟨row, hrow, ?_⟩
        rw [if_pos hkey]
      have hofKey : OfKey env (record.manifest.publisher, record.publisherKeyId)
          (promoted row time) := hreads.ofKey.mpr rfl
      have hrevoked := (hgone (mem_append_left _ hmem) _ hpromoted hofKey).1
      cases hrevoked
    · intro _ entry hentry hid
      have hincreasing := hkeeps.increasing
      rw [hstep] at hincreasing
      exact (List.pairwise_append.mp hincreasing).2.2 entry hentry (id, version)
        (hadmits.mem_newlyBound.mpr rfl) hid
  | revokePublisherKey publisher keyId time =>
    intro records hload
    obtain ⟨answered, hanswer⟩ := hkeeps.succeeds publisher keyId time rfl
    cases hperform : perform env s.store (.revokePublisherKey publisher keyId time) with
    | error e =>
      rw [step_error hperform] at hanswer
      cases hanswer
    | ok committed =>
      obtain ⟨store', answer⟩ := committed
      obtain ⟨-, records', hload', -, hroom⟩ := revoke_cases hperform
      rw [hload, Except.ok.injEq] at hload'
      rw [hload']
      exact hroom
  | verifyOffline | verifyCurrent | prepareAdmission | packages => trivial

/-- **When a revocation is final.** As long as no two events have the same digest, every step keeps
what is promised exactly if every step meets the condition. -/
theorem revocation_final_iff (hfaithful : Faithful env.toPackageEnv)
    (requests : List DistributionRequest)
    (hapart : (machine env).Along (Apart env) .empty requests) :
    (machine env).Along (Keeps env) .empty requests ↔
      (machine env).Along (Meets env) .empty requests :=
  @Machine.along_iff _ _ _ (machine env) (Sound env) _ _ _
    (fun _ _ hapart h => ⟨meets_of_keeps hfaithful, keeps_of_meets hfaithful h hapart⟩)
    (fun _ _ _ _ hmeets h => h.step hfaithful hmeets) requests _ hapart sound_empty

/-- The check of the digests, on a store. -/
def unlikeCheck (env : DistributionEnv V) (store : DistributionStore) (publisher keyId : String)
    (time : ℕ) : Bool :=
  match loadRecordsForKey env store publisher keyId with
  | .ok records => ((revokedEvents env time store.events (live records)).map (·.eventDigest)).Nodup
  | .error _ => true

omit [LinearOrder V] in
theorem apart_of_check (h : unlikeCheck env s.store publisher keyId time = true) :
    Apart env s (.revokePublisherKey publisher keyId time) := by
  intro records hload
  unfold unlikeCheck at h
  rw [hload] at h
  unfold Unlike
  exact of_decide_eq_true h

theorem not_keeps_of_bound {requests : List DistributionRequest}
    (h : ((machine env).run s (requests ++ [request])).bound = [(id, version), (id, version)]) :
    ¬ (machine env).Along (Keeps env) s (requests ++ [request]) := by
  intro hkeeps
  have hincreasing := (((machine env).along_append requests).mp hkeeps).2.1.increasing
  rw [Machine.run_snoc] at h
  change Increasing env ((machine env).step _ request).1.bound at hincreasing
  rw [h] at hincreasing
  exact ((List.pairwise_cons.mp hincreasing).1 _ (mem_singleton_self _) rfl).ne rfl

/-! ### A record that is admitted again -/

def sampleArtifact : List UInt8 := asBytes "current"

def samplePublicKey : String :=
  "e28a8970753332bd72fef413e6b0b2ef1b4aadda7aa2c141f233712a6876b351"

def sampleSignature : String :=
  "2e82c8d13983991cf0d1182caa43be4edb5388036f765291aa8b5ed5f53e4b29" ++
    "1e7c88865438f06612b1e867bc83b8016d3c51855da894f3800cf4af359a8d05"

def sampleManifest : PackageManifest where
  id := "publisher/skill"
  version := "1.0.0"
  kind := .skill
  publisher := "publisher"
  contentHash := "sha256:97b0560280ed60a5a1eaa1bc45492543c8a986ad5a25b468c427eb83c3e88191"
  dependencies := []
  runtime := "pandora>=3.0.3"
  license := "MIT"
  trust := ⟨.official, some sampleSignature, some samplePublicKey⟩
  metaComposition := none
  domainRouting := none
  geneContract := none

def sampleJson : String :=
  "\x7b\"id\":\"publisher/skill\",\"version\":\"1.0.0\",\"kind\":\"skill\"," ++
    "\"publisher\":\"publisher\",\"content_hash\":\"" ++
    "sha256:97b0560280ed60a5a1eaa1bc45492543c8a986ad5a25b468c427eb83c3e88191" ++
    "\",\"dependencies\":[],\"compatibility\":\x7b\"runtime\":\"pandora>=3.0.3\"\x7d," ++
    "\"license\":\"MIT\",\"trust\":\x7b\"level\":\"official\",\"signature\":\"" ++
    sampleSignature ++ "\",\"public_key\":\"" ++ samplePublicKey ++ "\"\x7d\x7d"

/-- SHA-256 on the messages below. -/
def sampleSha : Sha256 := fun message =>
  if message.length = 7 then
    ⟨[151, 176, 86, 2, 128, 237, 96, 165, 161, 234, 161, 188, 69, 73, 37, 67, 200, 169, 134, 173,
      90, 37, 180, 104, 196, 39, 235, 131, 195, 232, 129, 145], rfl⟩
  else if message.length = 64 then
    ⟨[129, 126, 4, 47, 237, 146, 26, 163, 139, 103, 80, 35, 126, 151, 150, 145, 36, 165, 23, 94,
      172, 114, 133, 233, 4, 228, 40, 194, 215, 241, 53, 143], rfl⟩
  else if message.length = 489 then
    ⟨[170, 63, 123, 193, 94, 129, 244, 17, 249, 31, 201, 169, 85, 137, 142, 164, 119, 35, 178, 236,
      186, 141, 95, 8, 80, 135, 136, 131, 248, 0, 206, 224], rfl⟩
  else if message.length = 501 then
    ⟨[103, 20, 39, 227, 147, 71, 141, 178, 23, 124, 14, 141, 249, 109, 36, 90, 86, 155, 149, 149,
      152, 202, 78, 188, 195, 197, 245, 1, 90, 135, 153, 203], rfl⟩
  else if message.length = 506 then
    ⟨[119, 147, 56, 51, 13, 110, 71, 173, 106, 217, 252, 41, 148, 219, 95, 107, 18, 136, 195, 210,
      234, 132, 23, 144, 58, 93, 105, 136, 201, 218, 227, 211], rfl⟩
  else if message.length = 567 then
    ⟨[123, 230, 1, 247, 154, 6, 176, 107, 83, 44, 250, 254, 154, 77, 255, 172, 171, 249, 25, 23, 57,
      124, 238, 0, 127, 64, 228, 179, 40, 122, 69, 79], rfl⟩
  else if message.length = 568 then
    ⟨[221, 10, 219, 54, 229, 179, 188, 110, 191, 120, 124, 132, 235, 178, 23, 48, 166, 142, 195,
      243, 79, 56, 252, 62, 41, 185, 132, 250, 233, 27, 112, 46], rfl⟩
  else
    ⟨[99, 96, 39, 124, 150, 15, 25, 112, 193, 104, 15, 251, 200, 165, 57, 165, 172, 53, 100, 166,
      209, 26, 55, 6, 199, 176, 147, 133, 78, 255, 104, 221], rfl⟩

/-- The versions of the package and of the runtime. -/
def sampleVersion (text : String) : Option ℕ :=
  if text = "1.0.0" then some 1 else if text = "3.0.3" then some 3 else none

def sampleDistribution : DistributionEnv ℕ where
  semver := {
    version := fun text => (sampleVersion text).isSome
    requirement := fun text => text = ">=3.0.3"
    accepts := fun _ version => version = "3.0.3" }
  sha := sampleSha
  runtimeVersion := "3.0.3"
  validKey := fun key => key = decodeHexBytes (asBytes samplePublicKey)
  verifies := fun key message signature =>
    key = decodeHexBytes (asBytes samplePublicKey) &&
      message = asBytes sampleManifest.signingMessage &&
      signature = decodeHexBytes (asBytes sampleSignature)
  decodeBase64 := fun _ => none
  write := fun manifest => if manifest = sampleManifest then some sampleJson else none
  read := fun text => if text = sampleJson then some sampleManifest else none
  validArtifact := fun _ _ => true
  parseVersion := sampleVersion
  version_eq := fun _ => rfl

theorem sampleDistribution_faithful : Faithful sampleDistribution.toPackageEnv := by
  intro manifest text h
  change (if manifest = sampleManifest then some sampleJson else none) = some text at h
  change (if text = sampleJson then some sampleManifest else none) = some manifest
  split_ifs at h with hmanifest
  rw [← Option.some.inj h, if_pos rfl, hmanifest]

/-- A package is downloaded and admitted. -/
def sampleAdmitted : List DistributionRequest :=
  [.packages (.addPublisherTrustRoot "publisher" "key-1" samplePublicKey 1),
    .cacheVerified sampleManifest sampleArtifact ⟨.registry, "https://registry.example", "1.0.0"⟩ 2,
    .prepareAdmission "publisher/skill" "1.0.0",
    .recordAdmission "publisher/skill" "1.0.0" sampleManifest.contentHash 5]

/-- Its key is revoked; the trust root of the key is not. -/
def sampleRevoked : List DistributionRequest :=
  sampleAdmitted ++ [.revokePublisherKey "publisher" "key-1" 6]

/-- The record is admitted again. -/
def sampleReadmitted : List DistributionRequest :=
  sampleRevoked ++ [.recordAdmission "publisher/skill" "1.0.0" sampleManifest.contentHash 10]

/-- The state of the version. -/
def sampleState (requests : List DistributionRequest) : Option DistributionState :=
  (((machine sampleDistribution).run .empty requests).store.cache.get?
    ("publisher/skill", "1.0.0")).map (·.state)

theorem sample_runs :
    unlikeCheck sampleDistribution ((machine sampleDistribution).run .empty sampleAdmitted).store
      "publisher" "key-1" 6 = true ∧
    sampleState sampleRevoked = some .revoked ∧ sampleState sampleReadmitted = some .admitted ∧
    ((machine sampleDistribution).run .empty sampleReadmitted).bound =
      [("publisher/skill", "1.0.0"), ("publisher/skill", "1.0.0")] := by
  decide +kernel

theorem sampleRevoked_apart :
    (machine sampleDistribution).Along (Apart sampleDistribution) .empty sampleRevoked :=
  ((machine sampleDistribution).along_append sampleAdmitted).mpr
    ⟨⟨trivial, trivial, trivial, trivial, trivial⟩, apart_of_check sample_runs.1, trivial⟩

theorem revocation_final_iff_sample :
    (machine sampleDistribution).Along (Keeps sampleDistribution) .empty sampleRevoked ↔
      (machine sampleDistribution).Along (Meets sampleDistribution) .empty sampleRevoked :=
  revocation_final_iff sampleDistribution_faithful sampleRevoked sampleRevoked_apart

/-- The record of the revoked key is admitted again, and the same version becomes active twice. -/
theorem revoked_record_admitted :
    sampleState sampleRevoked = some .revoked ∧ sampleState sampleReadmitted = some .admitted ∧
    ¬ (machine sampleDistribution).Along (Keeps sampleDistribution) .empty sampleReadmitted := by
  obtain ⟨-, hrevoked, hadmitted, hbound⟩ := sample_runs
  exact ⟨hrevoked, hadmitted, not_keeps_of_bound hbound⟩

end Pandora.Packages.Revocation
