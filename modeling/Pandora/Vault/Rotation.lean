import Pandora.Lib.Runs

/-! # Credential pools

`CredentialPool` of `secret.rs`: keys that are used in turn, and rested after a rate limit. Times,
counters and the rotation index are 64-bit numbers; counters and the end of a rest saturate, the
index wraps around.

A selection takes a healthy key (`selectKey_cases`). The rotation index counts through the healthy
keys, not through all keys: while they stay the same, each of them gets its turn within as many
selections as there are keys. -/

namespace Pandora.Vault.Rotation

open Lib.Runs List

def maxU64 : ℕ := 2 ^ 64 - 1

inductive PoolStrategy
  | roundRobin | leastUsed | priorityFailover
deriving DecidableEq

/-- A key with its counters and its cool-down. -/
structure PoolKeyEntry where
  (keyId secretName : String)
  (priority usageCount : ℕ)
  cooldownUntil : Option ℕ
  consecutiveErrors : ℕ
  lastUsedAt : Option ℕ
deriving DecidableEq

namespace PoolKeyEntry

def isHealthy (key : PoolKeyEntry) (now : ℕ) : Bool := key.cooldownUntil.all (· ≤ now)

def use (now : ℕ) (key : PoolKeyEntry) : PoolKeyEntry :=
  { key with usageCount := min (key.usageCount + 1) maxU64, lastUsedAt := some now }

def success (key : PoolKeyEntry) : PoolKeyEntry :=
  { key with consecutiveErrors := 0, cooldownUntil := none }

def rateLimit (duration now : ℕ) (key : PoolKeyEntry) : PoolKeyEntry :=
  { key with
    consecutiveErrors := min (key.consecutiveErrors + 1) (2 ^ 32 - 1)
    cooldownUntil := some (min (now + duration) maxU64) }

end PoolKeyEntry

/-- The keys of one provider, as the rotation uses them. -/
structure CredentialPool where
  strategy : PoolStrategy
  keys : List PoolKeyEntry
  (defaultCooldownSeconds currentIndex : ℕ)
deriving DecidableEq

/-- `iter_mut().find`: the first key with the id is changed. -/
def updateKey (keyId : String) (f : PoolKeyEntry → PoolKeyEntry) : List PoolKeyEntry →
    List PoolKeyEntry
  | [] => []
  | key :: keys => if key.keyId = keyId then f key :: keys else key :: updateKey keyId f keys

namespace CredentialPool

variable {pool : CredentialPool} {key : PoolKeyEntry} {now : ℕ}

def healthyIndices (pool : CredentialPool) (now : ℕ) : List ℕ :=
  (pool.keys.zipIdx.filter fun entry => entry.1.isHealthy now).map (·.2)

/-- The index of the key that is taken, and the rotation index after it. At `usize::MAX` the index
wraps, where a build with overflow checks panics. -/
def choose (pool : CredentialPool) (healthy : List ℕ) : Option ℕ × ℕ :=
  let usage (i : ℕ) := (pool.keys[i]?.map (·.usageCount)).getD 0
  let priority (i : ℕ) := (pool.keys[i]?.map (·.priority)).getD 0
  match pool.strategy with
  | .roundRobin =>
    let count := healthy.length
    (healthy[pool.currentIndex % count]?, (pool.currentIndex + 1) % 2 ^ 64 % count)
  | .leastUsed => (healthy.argmin fun i => toLex (usage i, priority i), pool.currentIndex)
  | .priorityFailover => (healthy.argmin fun i => toLex (priority i, usage i), pool.currentIndex)

/-- The key that is returned, with its counters after the use. -/
def selectKey (pool : CredentialPool) (now : ℕ) : CredentialPool × Option PoolKeyEntry :=
  let healthy := pool.healthyIndices now
  if healthy.isEmpty then (pool, none)
  else match pool.choose healthy with
    | (none, _) => (pool, none)
    | (some chosen, index) =>
      let keys := pool.keys.modify chosen (·.use now)
      ({ pool with keys := keys, currentIndex := index }, keys[chosen]?)

def recordSuccess (pool : CredentialPool) (keyId : String) : CredentialPool :=
  { pool with keys := updateKey keyId (·.success) pool.keys }

/-- The seconds until the next key is healthy again. -/
def nextResetSeconds (pool : CredentialPool) (now : ℕ) : Option ℕ :=
  (((pool.keys.filterMap (·.cooldownUntil)).filter (now < ·)).map (· - now)).min?

def recordRateLimit (pool : CredentialPool) (keyId : String) (cooldownSeconds : Option ℕ)
    (now : ℕ) : CredentialPool × Option ℕ :=
  let duration := cooldownSeconds.getD pool.defaultCooldownSeconds
  let pool := { pool with keys := updateKey keyId (·.rateLimit duration now) pool.keys }
  (pool, pool.nextResetSeconds now)

end CredentialPool

inductive Call
  | selectKey (now : ℕ)
  | recordSuccess (keyId : String)
  | recordRateLimit (keyId : String) (cooldownSeconds : Option ℕ) (now : ℕ)
deriving DecidableEq

inductive Answer
  | key (key : Option PoolKeyEntry)
  | done
  | reset (seconds : Option ℕ)
deriving DecidableEq

/-- A pool that is called. -/
def calls : Machine CredentialPool Call Answer where
  step pool
    | .selectKey now => ((pool.selectKey now).1, .key (pool.selectKey now).2)
    | .recordSuccess keyId => (pool.recordSuccess keyId, .done)
    | .recordRateLimit keyId seconds now =>
      ((pool.recordRateLimit keyId seconds now).1,
        .reset (pool.recordRateLimit keyId seconds now).2)

/-! ### Selections -/

variable {pool : CredentialPool} {key : PoolKeyEntry} {keyId : String} {now : ℕ}

theorem mem_healthyIndices {i : ℕ} : i ∈ pool.healthyIndices now ↔
    ∃ key, pool.keys[i]? = some key ∧ key.isHealthy now := by
  simp only [CredentialPool.healthyIndices, mem_map, mem_filter, Prod.exists,
    mem_zipIdx_iff_getElem?, exists_eq_right]

theorem healthyIndices_eq_nil : pool.healthyIndices now = [] ↔
    ∀ key ∈ pool.keys, ¬ key.isHealthy now := by
  rw [eq_nil_iff_forall_not_mem]
  constructor
  · intro h key hkey hhealthy
    obtain ⟨i, hi⟩ := mem_iff_getElem?.mp hkey
    exact h i (mem_healthyIndices.mpr ⟨key, hi, hhealthy⟩)
  · intro h i hi
    obtain ⟨key, hkey, hhealthy⟩ := mem_healthyIndices.mp hi
    exact h key (mem_of_getElem? hkey) hhealthy

theorem CredentialPool.choose_mem (pool : CredentialPool) {healthy : List ℕ} (h : healthy ≠ []) :
    ∃ i ∈ healthy, (pool.choose healthy).1 = some i := by
  have hargmin : ∀ f : ℕ → ℕ ×ₗ ℕ, ∃ i ∈ healthy, healthy.argmin f = some i := by
    intro f
    obtain ⟨i, hi⟩ := Option.ne_none_iff_exists'.mp (mt (argmin_eq_none (f := f)).mp h)
    exact ⟨i, argmin_mem hi, hi⟩
  unfold CredentialPool.choose
  cases pool.strategy with
  | roundRobin =>
    have hlt := Nat.mod_lt pool.currentIndex (length_pos_iff.mpr h)
    exact ⟨_, getElem_mem hlt, List.getElem?_eq_getElem hlt⟩
  | leastUsed => exact hargmin _
  | priorityFailover => exact hargmin _

/-- **What a selection does.** -/
theorem selectKey_cases (pool : CredentialPool) (now : ℕ) :
    (∀ key ∈ pool.keys, ¬ key.isHealthy now) ∧ pool.selectKey now = (pool, none) ∨
      ∃ i key, pool.keys[i]? = some key ∧ key.isHealthy now ∧
        (pool.choose (pool.healthyIndices now)).1 = some i ∧
        pool.selectKey now = ({ pool with
          keys := pool.keys.modify i (·.use now)
          currentIndex := (pool.choose (pool.healthyIndices now)).2 }, some (key.use now)) := by
  unfold CredentialPool.selectKey
  by_cases h : pool.healthyIndices now = []
  · exact Or.inl ⟨healthyIndices_eq_nil.mp h, by rw [h]; rfl⟩
  · obtain ⟨i, hi, hchosen⟩ := pool.choose_mem h
    obtain ⟨key, hkey, hhealthy⟩ := mem_healthyIndices.mp hi
    refine Or.inr ⟨i, key, hkey, hhealthy, hchosen, ?_⟩
    dsimp only
    rw [if_neg (by rwa [List.isEmpty_iff])]
    generalize pool.choose (pool.healthyIndices now) = choice at hchosen ⊢
    obtain ⟨chosen, index⟩ := choice
    obtain rfl : chosen = some i := hchosen
    have hused : (pool.keys.modify i (·.use now))[i]? = some (key.use now) := by
      rw [List.getElem?_modify_eq, hkey]
      rfl
    dsimp only
    rw [hused]

/-- **A selection fails only if no key is healthy.** -/
theorem selectKey_isSome :
    (pool.selectKey now).2.isSome ↔ ∃ key ∈ pool.keys, key.isHealthy now := by
  rcases selectKey_cases pool now with ⟨hnone, heq⟩ | ⟨i, key, hkey, hhealthy, -, heq⟩
  · rw [heq]
    refine ⟨fun h => absurd h Bool.false_ne_true, fun ⟨key, hkey, h⟩ => absurd h (hnone key hkey)⟩
  · rw [heq]
    exact ⟨fun _ => ⟨key, mem_of_getElem? hkey, hhealthy⟩, fun _ => rfl⟩

/-! ### Keys keep their ids -/

theorem map_updateKey {f : PoolKeyEntry → PoolKeyEntry} (hf : ∀ key, (f key).keyId = key.keyId) :
    ∀ keys, (updateKey keyId f keys).map (·.keyId) = keys.map (·.keyId)
  | [] => rfl
  | key :: keys => by
    unfold updateKey
    split_ifs
    · rw [map_cons, map_cons, hf]
    · rw [map_cons, map_cons, map_updateKey hf keys]

theorem map_modify_use (i : ℕ) (keys : List PoolKeyEntry) :
    (keys.modify i (·.use now)).map (·.keyId) = keys.map (·.keyId) := by
  refine ext_getElem? fun j => ?_
  rw [List.getElem?_map, List.getElem?_map, List.getElem?_modify]
  cases keys[j]? with
  | none => rfl
  | some key => split_ifs <;> rfl

theorem map_step (pool : CredentialPool) (c : Call) :
    (calls.step pool c).1.keys.map (·.keyId) = pool.keys.map (·.keyId) := by
  cases c with
  | selectKey now =>
    rcases selectKey_cases pool now with ⟨-, heq⟩ | ⟨i, key, -, -, -, heq⟩
    · exact congrArg (fun s => s.1.keys.map (·.keyId)) heq
    · exact (congrArg (fun s => s.1.keys.map (·.keyId)) heq).trans (map_modify_use i pool.keys)
  | recordSuccess keyId => exact map_updateKey (f := (·.success)) (fun _ => rfl) pool.keys
  | recordRateLimit keyId seconds now =>
    exact map_updateKey (f := (·.rateLimit _ now)) (fun _ => rfl) pool.keys

theorem map_run (pool : CredentialPool) (cs : List Call) :
    (calls.run pool cs).keys.map (·.keyId) = pool.keys.map (·.keyId) :=
  calls.run_invariant (P := fun s => s.keys.map (·.keyId) = pool.keys.map (·.keyId))
    (fun s c h => (map_step s c).trans h) cs rfl

/-! ### Cool-downs -/

/-- The key rests until then. -/
def RestsUntil (keyId : String) (time : ℕ) (keys : List PoolKeyEntry) : Prop :=
  ∀ key ∈ keys, key.keyId = keyId → ∃ until_ ∈ key.cooldownUntil, time ≤ until_

/-- The call sets the cool-down of the key. -/
def Call.Sets (keyId : String) : Call → Prop
  | .selectKey _ => False
  | .recordSuccess other => other = keyId
  | .recordRateLimit other _ _ => other = keyId

theorem mem_updateKey {f : PoolKeyEntry → PoolKeyEntry} : ∀ {keys}, key ∈ updateKey keyId f keys →
    key ∈ keys ∨ ∃ old ∈ keys, old.keyId = keyId ∧ key = f old
  | [], h => Or.inl h
  | first :: keys, h => by
    unfold updateKey at h
    split_ifs at h with hid
    · rcases mem_cons.mp h with rfl | h
      · exact Or.inr ⟨first, mem_cons_self, hid, rfl⟩
      · exact Or.inl (mem_cons_of_mem first h)
    · rcases mem_cons.mp h with rfl | h
      · exact Or.inl mem_cons_self
      · rcases mem_updateKey h with h | ⟨old, hold, h⟩
        · exact Or.inl (mem_cons_of_mem first h)
        · exact Or.inr ⟨old, mem_cons_of_mem first hold, h⟩

/-- With different ids, the key with the id is the one that is changed. -/
theorem changed_of_mem {f : PoolKeyEntry → PoolKeyEntry} (hf : ∀ key, (f key).keyId = key.keyId) :
    ∀ {keys : List PoolKeyEntry}, (keys.map (·.keyId)).Nodup → key ∈ updateKey keyId f keys →
      key.keyId = keyId → ∃ old, key = f old
  | [], _, h, _ => absurd h not_mem_nil
  | first :: keys, hids, h, hkey => by
    obtain ⟨hnot, hids⟩ := nodup_cons.mp hids
    unfold updateKey at h
    split_ifs at h with hid
    · rcases mem_cons.mp h with rfl | h
      · exact ⟨first, rfl⟩
      · exact absurd (mem_map.mpr ⟨key, h, hkey.trans hid.symm⟩) hnot
    · rcases mem_cons.mp h with rfl | h
      · exact absurd hkey hid
      · exact changed_of_mem hf hids h hkey

theorem restsUntil_updateKey {other : String} {time : ℕ} {keys : List PoolKeyEntry}
    {f : PoolKeyEntry → PoolKeyEntry} (hf : ∀ key, (f key).keyId = key.keyId) (hne : other ≠ keyId)
    (h : RestsUntil keyId time keys) : RestsUntil keyId time (updateKey other f keys) := by
  intro key hkey hid
  rcases mem_updateKey hkey with hkey | ⟨old, -, hold, rfl⟩
  · exact h key hkey hid
  · exact absurd (hold.symm.trans ((hf old).symm.trans hid)) hne

theorem restsUntil_step {time : ℕ} {c : Call} (hc : ¬ c.Sets keyId)
    (h : RestsUntil keyId time pool.keys) : RestsUntil keyId time (calls.step pool c).1.keys := by
  cases c with
  | selectKey now =>
    show RestsUntil keyId time (pool.selectKey now).1.keys
    rcases selectKey_cases pool now with ⟨-, heq⟩ | ⟨i, taken, -, -, -, heq⟩
    · rwa [heq]
    · rw [heq]
      intro key hkey hid
      obtain ⟨j, hj⟩ := mem_iff_getElem?.mp hkey
      rw [List.getElem?_modify, Option.map_eq_map, Option.map_eq_some_iff] at hj
      obtain ⟨old, hold, rfl⟩ := hj
      have hrests := h old (mem_of_getElem? hold)
      split_ifs at hid ⊢
      all_goals exact hrests hid
  | recordSuccess other => exact restsUntil_updateKey (fun _ => rfl) hc h
  | recordRateLimit other seconds now => exact restsUntil_updateKey (fun _ => rfl) hc h

theorem restsUntil_run {time : ℕ} : ∀ {cs : List Call} {pool : CredentialPool},
    (∀ c ∈ cs, ¬ c.Sets keyId) → RestsUntil keyId time pool.keys →
      RestsUntil keyId time (calls.run pool cs).keys
  | [], _, _, h => h
  | c :: cs, pool, hcs, h => by
    rw [Machine.run_cons]
    exact restsUntil_run (fun c' h' => hcs c' (mem_cons_of_mem c h'))
      (restsUntil_step (hcs c mem_cons_self) h)

/-- **A resting key is not selected.** -/
theorem keyId_ne_of_restsUntil {time : ℕ} (h : RestsUntil keyId time pool.keys) (hnow : now < time)
    (hkey : (pool.selectKey now).2 = some key) : key.keyId ≠ keyId := by
  rcases selectKey_cases pool now with ⟨-, heq⟩ | ⟨i, taken, htaken, hhealthy, -, heq⟩
  · rw [heq] at hkey
    cases hkey
  · rw [heq] at hkey
    obtain rfl := Option.some.inj hkey
    intro hid
    obtain ⟨until_, huntil, hle⟩ := h taken (mem_of_getElem? htaken) hid
    unfold PoolKeyEntry.isHealthy at hhealthy
    rw [Option.mem_def.mp huntil, Option.all_some, decide_eq_true_eq] at hhealthy
    omega

/-! ### Turns -/

/-- What each selection finds healthy and returns, after the records before it. -/
def selections : CredentialPool → List (List Call × ℕ) → List (List ℕ × Option PoolKeyEntry)
  | _, [] => []
  | pool, (records, now) :: rounds =>
    let pool := calls.run pool records
    (pool.healthyIndices now, (pool.selectKey now).2) :: selections (pool.selectKey now).1 rounds

def Call.IsRecord : Call → Prop
  | .selectKey _ => False
  | .recordSuccess _ | .recordRateLimit _ _ _ => True

theorem run_records : ∀ {cs : List Call} (pool : CredentialPool), (∀ c ∈ cs, c.IsRecord) →
    (calls.run pool cs).strategy = pool.strategy ∧
      (calls.run pool cs).currentIndex = pool.currentIndex
  | [], _, _ => ⟨rfl, rfl⟩
  | c :: cs, pool, h => by
    obtain ⟨hstrategy, hindex⟩ := run_records (calls.step pool c).1
      fun c' h' => h c' (mem_cons_of_mem c h')
    rw [Machine.run_cons, hstrategy, hindex]
    cases c with
    | selectKey now => exact (h _ mem_cons_self).elim
    | recordSuccess keyId => exact ⟨rfl, rfl⟩
    | recordRateLimit keyId seconds now => exact ⟨rfl, rfl⟩

theorem length_healthyIndices_le (pool : CredentialPool) (now : ℕ) :
    (pool.healthyIndices now).length ≤ pool.keys.length := by
  unfold CredentialPool.healthyIndices
  rw [length_map]
  exact (length_filter_le _ _).trans (length_zipIdx).le

theorem selectKey_roundRobin (hrobin : pool.strategy = .roundRobin) {i : ℕ}
    (hi : (pool.healthyIndices now)[pool.currentIndex % (pool.healthyIndices now).length]? =
      some i) :
    ∃ key, pool.keys[i]? = some key ∧ (pool.selectKey now).2 = some (key.use now) ∧
      (pool.selectKey now).1.strategy = .roundRobin ∧ (pool.selectKey now).1.currentIndex =
        (pool.currentIndex + 1) % 2 ^ 64 % (pool.healthyIndices now).length := by
  rcases selectKey_cases pool now with ⟨hnone, -⟩ | ⟨i', key, hkey, -, hchosen, heq⟩
  · rw [healthyIndices_eq_nil.mpr hnone] at hi
    cases hi
  · unfold CredentialPool.choose at hchosen heq
    rw [hrobin] at hchosen heq
    obtain rfl : i' = i := Option.some.inj (hchosen.symm.trans hi)
    rw [heq]
    exact ⟨key, hkey, rfl, rfl, rfl⟩

/-- **The turns** while the same keys are healthy. -/
theorem selections_turn {healthy : List ℕ} : ∀ {rounds : List (List Call × ℕ)}
    {pool : CredentialPool}, pool.strategy = .roundRobin → pool.currentIndex + 1 < 2 ^ 64 →
    pool.keys.length < 2 ^ 64 → (∀ round ∈ rounds, ∀ c ∈ round.1, c.IsRecord) →
    (∀ selection ∈ selections pool rounds, selection.1 = healthy) → healthy ≠ [] →
    ∀ {j i : ℕ}, j < rounds.length →
      healthy[(pool.currentIndex + j) % healthy.length]? = some i →
      ∃ selection ∈ selections pool rounds, ∃ key ∈ selection.2,
        (pool.keys.map (·.keyId))[i]? = some key.keyId
  | [], _, _, _, _, _, _, _, _, _, hj, _ => absurd hj (Nat.not_lt_zero _)
  | (records, now) :: rounds, pool, hrobin, hindex, hlen, hrecords, hsame, hne, j, i, hj, hi => by
    obtain ⟨hrobin', hindex'⟩ := run_records pool (hrecords _ mem_cons_self)
    have hids := map_run pool records
    unfold selections at hsame ⊢
    obtain ⟨hhealthy, hsame⟩ := forall_mem_cons.mp hsame
    dsimp only at hhealthy hsame hrobin' hindex' ⊢
    generalize calls.run pool records = pool' at *
    have hpos := length_pos_iff.mpr hne
    have hturn : pool.currentIndex % healthy.length < healthy.length := Nat.mod_lt _ hpos
    have hfirst : (pool'.healthyIndices now)[pool'.currentIndex %
        (pool'.healthyIndices now).length]? = some healthy[pool.currentIndex % healthy.length] := by
      rw [hhealthy, hindex', List.getElem?_eq_getElem hturn]
    obtain ⟨key, hkey, hselected, hrobin'', hindex''⟩ :=
      selectKey_roundRobin (hrobin'.trans hrobin) hfirst
    rw [hhealthy, hindex', Nat.mod_eq_of_lt hindex] at hindex''
    cases j with
    | zero =>
      obtain rfl := Option.some.inj ((List.getElem?_eq_getElem hturn).symm.trans hi)
      refine ⟨_, mem_cons_self, key.use now, hselected, ?_⟩
      rw [← hids, List.getElem?_map, hkey]
      rfl
    | succ j =>
      have hids' : (pool'.selectKey now).1.keys.map (·.keyId) = pool.keys.map (·.keyId) :=
        (map_step pool' (.selectKey now)).trans hids
      have hlen' : (pool'.selectKey now).1.keys.length = pool.keys.length := by
        simpa only [length_map] using congrArg List.length hids'
      have hle := length_healthyIndices_le pool' now
      have hlen'' : pool'.keys.length = pool.keys.length := by
        simpa only [length_map] using congrArg List.length hids
      rw [hhealthy] at hle
      have hnext := Nat.mod_lt (pool.currentIndex + 1) hpos
      obtain ⟨selection, hselection, key', hkey', hid⟩ := selections_turn hrobin''
        (by omega) (by omega) (fun round h => hrecords round (mem_cons_of_mem _ h)) hsame hne
        (Nat.lt_of_succ_lt_succ hj)
        (by rwa [hindex'', Nat.mod_add_mod, Nat.add_right_comm])
      exact ⟨selection, mem_cons_of_mem _ hselection, key', hkey', hids' ▸ hid⟩

/-! ### The pool over a run -/

/-- **Rotation.** In every state of a pool a selection returns a key just if one is healthy; a key
is not returned while the cool-down set last for it runs; and, used in turn, a key that is healthy
at as many selections in a row as there are keys is returned by one of them, if the same keys are
healthy at all of them. -/
theorem rotation (pool : CredentialPool) (hids : (pool.keys.map (·.keyId)).Nodup)
    (cs : List Call) :
    let pool := calls.run pool cs
    (∀ now, (pool.selectKey now).2.isSome ↔ ∃ key ∈ pool.keys, key.isHealthy now) ∧
      (∀ keyId seconds time more now key, (∀ c ∈ more, ¬ Call.Sets keyId c) →
        now < min (time + seconds.getD pool.defaultCooldownSeconds) maxU64 →
        ((calls.run pool (.recordRateLimit keyId seconds time :: more)).selectKey now).2 =
          some key →
        key.keyId ≠ keyId) ∧
      ∀ rounds healthy i key, pool.strategy = .roundRobin → pool.currentIndex + 1 < 2 ^ 64 →
        pool.keys.length < 2 ^ 64 → rounds.length = pool.keys.length →
        (∀ round ∈ rounds, ∀ c ∈ round.1, Call.IsRecord c) →
        (∀ selection ∈ selections pool rounds, selection.1 = healthy) → i ∈ healthy →
        pool.keys[i]? = some key →
        ∃ selection ∈ selections pool rounds, ∃ used ∈ selection.2, used.keyId = key.keyId := by
  intro pool
  refine ⟨fun now => selectKey_isSome, ?_, ?_⟩
  · intro keyId seconds time more now key hmore hnow hkey
    refine keyId_ne_of_restsUntil (restsUntil_run hmore ?_) hnow hkey
    intro limited hlimited hid
    obtain ⟨old, rfl⟩ := changed_of_mem (f := (·.rateLimit _ time)) (fun _ => rfl)
      ((map_run _ cs).symm ▸ hids) hlimited hid
    exact ⟨_, rfl, le_rfl⟩
  · intro rounds healthy i key hrobin hindex hlen hrounds hrecords hsame hi hkey
    obtain ⟨p, hp, rfl⟩ := mem_iff_getElem.mp hi
    have hkeys := (List.getElem?_eq_some_iff.mp hkey).1
    have hle : healthy.length ≤ rounds.length := by
      cases rounds with
      | nil => exact absurd hrounds (by rw [length_nil]; omega)
      | cons round rounds =>
        rw [hrounds, ← hsame _ mem_cons_self]
        refine (length_healthyIndices_le _ _).trans_eq ?_
        simpa only [length_map] using congrArg List.length (map_run pool round.1)
    have hpos : 0 < healthy.length := Nat.zero_lt_of_lt hp
    -- the number of turns until that of the key
    obtain ⟨j, hj, hturn⟩ : ∃ j < healthy.length, (pool.currentIndex + j) % healthy.length = p := by
      refine ⟨(p + (healthy.length - pool.currentIndex % healthy.length)) % healthy.length,
        Nat.mod_lt _ hpos, ?_⟩
      have hmod := Nat.mod_lt pool.currentIndex hpos
      rw [Nat.add_mod_mod, ← Nat.mod_add_mod,
        show pool.currentIndex % healthy.length +
          (p + (healthy.length - pool.currentIndex % healthy.length)) = p + healthy.length by omega,
        Nat.add_mod_right, Nat.mod_eq_of_lt hp]
    obtain ⟨selection, hselection, used, hused, hid⟩ := selections_turn hrobin hindex hlen hrecords
      hsame (ne_nil_of_length_pos hpos) (hj.trans_le hle)
      (by rw [hturn, List.getElem?_eq_getElem hp])
    refine ⟨selection, hselection, used, hused, ?_⟩
    rw [List.getElem?_map, hkey] at hid
    exact (Option.some.inj hid).symm

def samplePool (ids : List String) : CredentialPool :=
  { strategy := .roundRobin
    keys := ids.map fun id => ⟨id, id, 1, 0, none, 0, none⟩
    defaultCooldownSeconds := 60
    currentIndex := 0 }

theorem rotation_sample :
    (((samplePool ["a", "b"]).selectKey 1).2.isSome ↔
        ∃ key ∈ (samplePool ["a", "b"]).keys, key.isHealthy 1) ∧
      (∀ key, ((calls.run (samplePool ["a", "b"]) [.recordRateLimit "a" (some 60) 100]).selectKey
        101).2 = some key → key.keyId ≠ "a") ∧
      ∃ selection ∈ selections (samplePool ["a", "b"]) [([], 1), ([], 2)], ∃ used ∈ selection.2,
        used.keyId = "b" := by
  have h := rotation (samplePool ["a", "b"]) (by decide) []
  refine ⟨h.1 1, fun key => h.2.1 "a" (some 60) 100 [] 101 key nofun (by decide), ?_⟩
  exact h.2.2 [([], 1), ([], 2)] [0, 1] 1 _ rfl (by decide) (by decide) rfl (by simp) (by decide)
    (by decide) rfl

/-- The third key is healthy at three selections of three keys and is not returned, since the first
one is resting at the last; and a later rate limit ends an earlier cool-down. -/
theorem key_starved :
    let pool := samplePool ["a", "b", "c"]
    let rounds := [([], 0), ([], 0), ([.recordRateLimit "a" (some 10) 0], 1)]
    (∀ selection ∈ selections pool rounds, 2 ∈ selection.1) ∧
      (∀ selection ∈ selections pool rounds, ∀ used ∈ selection.2, used.keyId ≠ "c") ∧
      (((calls.run pool [.recordRateLimit "a" (some 60) 100,
        .recordRateLimit "a" (some 1) 100]).selectKey 101).2.map (·.keyId)) = some "a" := by
  decide

end Pandora.Vault.Rotation
