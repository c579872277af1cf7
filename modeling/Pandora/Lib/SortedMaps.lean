import Mathlib

/-! # Sorted maps

A finite map kept as the list of its entries in the order of their keys. Two maps with the same
values are equal (`ext_get?`), so that this is also a map whose order is of no concern; a program
that sorts the keys of such a map sees this list. -/

namespace Pandora.Lib.SortedMaps

open List

/-- Entries in the order of their keys, one for each key. -/
structure SortedMap (κ α : Type) [LinearOrder κ] where
  entries : List (κ × α)
  sorted : entries.Pairwise fun a b => a.1 < b.1
deriving DecidableEq

variable {κ α : Type} [LinearOrder κ]

/-- The entries with the value of one key changed. -/
def alterEntries (k : κ) (f : Option α → α) : List (κ × α) → List (κ × α)
  | [] => [(k, f none)]
  | (k', a) :: rest =>
    if k < k' then (k, f none) :: (k', a) :: rest
    else if k = k' then (k, f (some a)) :: rest
    else (k', a) :: alterEntries k f rest

variable {k : κ}

theorem mem_alterEntries {f : Option α → α} {entry : κ × α} :
    ∀ {entries : List (κ × α)}, entry ∈ alterEntries k f entries → entry.1 = k ∨ entry ∈ entries
  | [], h => by
    rw [alterEntries, mem_singleton] at h
    exact Or.inl (by rw [h])
  | (k', a) :: rest, h => by
    rw [alterEntries] at h
    split_ifs at h with hlt heq
    · rcases mem_cons.mp h with rfl | h
      · exact Or.inl rfl
      · exact Or.inr h
    · rcases mem_cons.mp h with rfl | h
      · exact Or.inl rfl
      · exact Or.inr (mem_cons_of_mem _ h)
    · rcases mem_cons.mp h with rfl | h
      · exact Or.inr mem_cons_self
      · exact (mem_alterEntries h).imp_right (mem_cons_of_mem _)

theorem sorted_alterEntries (k : κ) (f : Option α → α) : ∀ {entries : List (κ × α)},
    entries.Pairwise (fun a b => a.1 < b.1) →
      (alterEntries k f entries).Pairwise fun a b => a.1 < b.1
  | [], _ => by
    rw [alterEntries]
    exact pairwise_singleton _ _
  | (k', a) :: rest, h => by
    obtain ⟨hhead, htail⟩ := pairwise_cons.mp h
    rw [alterEntries]
    split_ifs with hlt heq
    · refine pairwise_cons.mpr ⟨fun entry hentry => ?_, h⟩
      rcases mem_cons.mp hentry with rfl | hentry
      · exact hlt
      · exact lt_trans hlt (hhead entry hentry)
    · subst heq
      exact pairwise_cons.mpr ⟨hhead, htail⟩
    · refine pairwise_cons.mpr ⟨fun entry hentry => ?_, sorted_alterEntries k f htail⟩
      rcases mem_alterEntries hentry with hkey | hentry
      · rw [hkey]
        exact lt_of_le_of_ne (not_lt.mp hlt) (Ne.symm heq)
      · exact hhead entry hentry

/-- The only element that is looked for is found. -/
theorem find?_of_unique {β : Type} {p : β → Bool} {l : List β} {b : β} (hmem : b ∈ l)
    (hp : p b = true) (hunique : ∀ c ∈ l, p c = true → c = b) : l.find? p = some b := by
  rcases hfind : l.find? p with _ | c
  · exact absurd hp (List.find?_eq_none.mp hfind b hmem)
  · rw [hunique c (mem_of_find?_eq_some hfind) (List.find?_some hfind)]

theorem find?_of_nodup {β γ : Type} [DecidableEq γ] {f : β → γ} {l : List β} {b : β}
    (hnodup : (l.map f).Nodup) (hmem : b ∈ l) : l.find? (fun c => f c = f b) = some b :=
  find?_of_unique hmem (decide_eq_true rfl) fun _ hother hsame =>
    inj_on_of_nodup_map hnodup hother hmem (of_decide_eq_true hsame)

namespace SortedMap

def empty : SortedMap κ α := ⟨[], .nil⟩

def get? (m : SortedMap κ α) (k : κ) : Option α := (m.entries.find? (·.1 = k)).map (·.2)

/-- The value of a key is replaced by one that is computed from it. -/
def alter (m : SortedMap κ α) (k : κ) (f : Option α → α) : SortedMap κ α :=
  ⟨alterEntries k f m.entries, sorted_alterEntries k f m.sorted⟩

def insert (m : SortedMap κ α) (k : κ) (a : α) : SortedMap κ α := m.alter k fun _ => a

/-- The entries of a list, the later ones in place of the earlier ones. -/
def ofList (entries : List (κ × α)) : SortedMap κ α :=
  entries.foldl (fun m entry => m.insert entry.1 entry.2) empty

theorem get?_empty (k : κ) : (empty : SortedMap κ α).get? k = none := rfl

theorem eq_of_key {entries : List (κ × α)} (h : entries.Pairwise fun a b => a.1 < b.1)
    {a b : κ × α} (ha : a ∈ entries) (hb : b ∈ entries) (hkey : a.1 = b.1) : a = b := by
  have hnodup : (entries.map Prod.fst).Nodup :=
    pairwise_map.mpr (h.imp fun hlt => ne_of_lt hlt)
  exact inj_on_of_nodup_map hnodup ha hb hkey

variable {m : SortedMap κ α}

theorem get?_eq_some {a : α} :
    m.get? k = some a ↔ (k, a) ∈ m.entries := by
  unfold get?
  rw [Option.map_eq_some_iff]
  constructor
  · rintro ⟨⟨k', a'⟩, hfound, rfl⟩
    have hkey := List.find?_some hfound
    rw [decide_eq_true_eq] at hkey
    obtain rfl : k' = k := hkey
    exact mem_of_find?_eq_some hfound
  · intro hmem
    refine ⟨(k, a), find?_of_unique hmem (decide_eq_true rfl) fun entry hentry hkey => ?_, rfl⟩
    exact eq_of_key m.sorted hentry hmem (of_decide_eq_true hkey)

/-- The keys, in their order. -/
def keys (m : SortedMap κ α) : List κ := m.entries.map Prod.fst

theorem sorted_keys (m : SortedMap κ α) : m.keys.Pairwise (· < ·) := pairwise_map.mpr m.sorted

theorem nodup_keys (m : SortedMap κ α) : m.keys.Nodup := m.sorted_keys.imp ne_of_lt

theorem mem_keys : k ∈ m.keys ↔ (m.get? k).isSome := by
  unfold keys
  rw [mem_map, Option.isSome_iff_exists]
  constructor
  · rintro ⟨⟨k', a⟩, hmem, rfl⟩
    exact ⟨a, get?_eq_some.mpr hmem⟩
  · rintro ⟨a, ha⟩
    exact ⟨(k, a), get?_eq_some.mp ha, rfl⟩

theorem keys_eq {β : Type} {m' : SortedMap κ β}
    (h : ∀ k, k ∈ m.keys ↔ k ∈ m'.keys) : m.keys = m'.keys :=
  ((perm_ext_iff_of_nodup m.nodup_keys m'.nodup_keys).mpr h).eq_of_pairwise
    (fun _ _ _ _ hab hba => absurd hab (lt_asymm hba)) m.sorted_keys m'.sorted_keys

theorem get?_alter (m : SortedMap κ α) (k : κ) (f : Option α → α) (k' : κ) :
    (m.alter k f).get? k' = if k' = k then some (f (m.get? k)) else m.get? k' := by
  obtain ⟨entries, hsorted⟩ := m
  induction entries with
  | nil =>
    by_cases hk : k' = k
    · simp [get?, alter, alterEntries, hk]
    · simp [get?, alter, alterEntries, hk, Ne.symm hk]
  | cons entry rest ih =>
    obtain ⟨k₁, a⟩ := entry
    obtain ⟨hhead, htail⟩ := pairwise_cons.mp hsorted
    have ih := ih htail
    simp only [get?, alter, alterEntries] at ih ⊢
    rcases lt_trichotomy k k₁ with hlt | rfl | hgt
    · -- the key comes before all others
      have hnone : (((k₁, a) :: rest).find? (·.1 = k)) = none := by
        refine List.find?_eq_none.mpr fun entry hentry => ?_
        rw [decide_eq_true_eq]
        rcases mem_cons.mp hentry with rfl | hentry
        · exact (ne_of_lt hlt).symm
        · exact (ne_of_lt (lt_trans hlt (hhead entry hentry))).symm
      rw [if_pos hlt, hnone, List.find?_cons]
      by_cases hk : k' = k
      · simp [hk]
      · simp [hk, Ne.symm hk]
    · rw [if_neg (lt_irrefl k), if_pos rfl]
      by_cases hk : k' = k
      · simp [hk]
      · simp [hk, Ne.symm hk]
    · rw [if_neg (lt_asymm hgt), if_neg (ne_of_gt hgt), List.find?_cons, List.find?_cons,
        List.find?_cons, decide_eq_false (ne_of_lt hgt)]
      by_cases hk₁ : k₁ = k'
      · have hk : k' ≠ k := fun he => ne_of_lt hgt (hk₁.trans he)
        simp [hk₁, hk]
      · rw [decide_eq_false hk₁]
        exact ih

theorem get?_insert (m : SortedMap κ α) (k : κ) (a : α) (k' : κ) :
    (m.insert k a).get? k' = if k' = k then some a else m.get? k' := get?_alter m k _ k'

def erase (m : SortedMap κ α) (k : κ) : SortedMap κ α :=
  ⟨m.entries.filter fun entry => entry.1 ≠ k, m.sorted.filter _⟩

theorem get?_erase (m : SortedMap κ α) (k k' : κ) :
    (m.erase k).get? k' = if k' = k then none else m.get? k' := by
  have hmem : ∀ a, (k', a) ∈ (m.erase k).entries ↔ (k', a) ∈ m.entries ∧ k' ≠ k := by
    intro a
    simp [erase, mem_filter]
  by_cases hk : k' = k
  · rw [if_pos hk, Option.eq_none_iff_forall_ne_some]
    intro a ha
    exact ((hmem a).mp (get?_eq_some.mp ha)).2 hk
  · rw [if_neg hk]
    refine Option.ext fun a => ?_
    rw [get?_eq_some, hmem, and_iff_left hk, ← get?_eq_some]

theorem mem_insert {a : α} {entry : κ × α}
    (h : entry ∈ (m.insert k a).entries) : entry = (k, a) ∨ entry ∈ m.entries := by
  obtain ⟨k', a'⟩ := entry
  rw [← get?_eq_some, get?_insert] at h
  split_ifs at h with hkey
  · obtain rfl := Option.some.inj h
    exact Or.inl (by rw [hkey])
  · exact Or.inr (get?_eq_some.mp h)

theorem length_alterEntries_le (k : κ) (f : Option α → α) : ∀ entries : List (κ × α),
    (alterEntries k f entries).length ≤ entries.length + 1
  | [] => le_refl 1
  | (k', a) :: rest => by
    have ih := length_alterEntries_le k f rest
    rw [alterEntries]
    split_ifs
    · exact le_refl _
    · exact Nat.le_succ _
    · rw [length_cons, length_cons]
      omega

theorem length_insert_le (m : SortedMap κ α) (k : κ) (a : α) :
    (m.insert k a).entries.length ≤ m.entries.length + 1 :=
  length_alterEntries_le k _ m.entries

theorem length_alterEntries_of_forall (k : κ) (f : Option α → α) : ∀ {entries : List (κ × α)},
    (∀ entry ∈ entries, entry.1 ≠ k) → (alterEntries k f entries).length = entries.length + 1
  | [], _ => rfl
  | (k', a) :: rest, h => by
    rw [forall_mem_cons] at h
    rw [alterEntries]
    split_ifs with hlt heq
    · rfl
    · exact absurd heq.symm h.1
    · rw [length_cons, length_alterEntries_of_forall k f h.2, length_cons]

theorem length_insert_of_none (h : m.get? k = none) (a : α) :
    (m.insert k a).entries.length = m.entries.length + 1 := by
  refine length_alterEntries_of_forall k _ fun entry hentry hkey => ?_
  obtain ⟨k', a'⟩ := entry
  obtain rfl : k' = k := hkey
  rw [get?_eq_some.mpr hentry] at h
  cases h

theorem length_insert_of_get? {a : α} (h : m.get? k ≠ none) :
    (m.insert k a).entries.length ≤ m.entries.length := by
  have hsub : (m.insert k a).entries.map Prod.fst ⊆ m.entries.map Prod.fst := by
    intro key hkey
    obtain ⟨entry, hentry, rfl⟩ := mem_map.mp hkey
    rcases mem_insert hentry with rfl | hentry
    · obtain ⟨old, hold⟩ := Option.ne_none_iff_exists'.mp h
      exact mem_map.mpr ⟨(k, old), get?_eq_some.mp hold, rfl⟩
    · exact mem_map_of_mem hentry
  have hnodup : ((m.insert k a).entries.map Prod.fst).Nodup :=
    pairwise_map.mpr ((m.insert k a).sorted.imp fun hlt => ne_of_lt hlt)
  have hle := (subperm_of_subset hnodup hsub).length_le
  rwa [length_map, length_map] at hle

theorem ext_get? {m' : SortedMap κ α} (h : ∀ k, m.get? k = m'.get? k) : m = m' := by
  obtain ⟨entries, hsorted⟩ := m
  obtain ⟨entries', hsorted'⟩ := m'
  have hmem : ∀ entry, entry ∈ entries ↔ entry ∈ entries' := by
    rintro ⟨k, a⟩
    rw [← get?_eq_some (m := ⟨entries, hsorted⟩), h, get?_eq_some]
  have hnodup : ∀ {l : List (κ × α)}, l.Pairwise (fun a b => a.1 < b.1) → l.Nodup :=
    fun hl => hl.imp fun hlt he => absurd (congrArg Prod.fst he) (ne_of_lt hlt)
  have hperm := (perm_ext_iff_of_nodup (hnodup hsorted) (hnodup hsorted')).mpr hmem
  have heq : entries = entries' := hperm.eq_of_pairwise
    (fun a b _ _ hab hba => absurd hab (lt_asymm hba)) hsorted hsorted'
  subst heq
  rfl

/-- The entries of a map are inserted into another map, in place of what it has there. -/
theorem get?_foldl_insert : ∀ {entries : List (κ × α)} {start : SortedMap κ α},
    entries.Pairwise (fun a b => a.1 ≠ b.1) → ∀ k,
      (entries.foldl (fun m entry => m.insert entry.1 entry.2) start).get? k =
        ((entries.find? (·.1 = k)).map (·.2)).or (start.get? k)
  | [], _, _, _ => rfl
  | entry :: rest, start, hdistinct, k => by
    obtain ⟨hhead, htail⟩ := pairwise_cons.mp hdistinct
    rw [foldl_cons, get?_foldl_insert htail, get?_insert, List.find?_cons]
    by_cases hk : entry.1 = k
    · have hnone : rest.find? (·.1 = k) = none := by
        refine List.find?_eq_none.mpr fun other hother => ?_
        rw [decide_eq_true_eq, ← hk]
        exact (hhead other hother).symm
      simp [hnone, hk]
    · simp [hk, Ne.symm hk]

/-- The entries for which there is a new value, with it. -/
def filterMap {β : Type} (m : SortedMap κ α) (f : κ → α → Option β) : SortedMap κ β where
  entries := m.entries.filterMap fun entry => (f entry.1 entry.2).map (entry.1, ·)
  sorted := by
    refine pairwise_filterMap.mpr (m.sorted.imp ?_)
    intro entry entry' hlt new hnew new' hnew'
    obtain ⟨_, -, rfl⟩ := Option.map_eq_some_iff.mp hnew
    obtain ⟨_, -, rfl⟩ := Option.map_eq_some_iff.mp hnew'
    exact hlt

theorem get?_filterMap {β : Type} (m : SortedMap κ α) (f : κ → α → Option β) (k : κ) :
    (m.filterMap f).get? k = (m.get? k).bind (f k) := by
  refine Option.ext fun b => ?_
  rw [get?_eq_some, Option.bind_eq_some_iff]
  constructor
  · intro h
    obtain ⟨⟨k', a⟩, hmem, hnew⟩ := mem_filterMap.mp h
    obtain ⟨b', hb', heq⟩ := Option.map_eq_some_iff.mp hnew
    obtain ⟨rfl, rfl⟩ := Prod.mk.inj heq
    exact ⟨a, get?_eq_some.mpr hmem, hb'⟩
  · rintro ⟨a, ha, hb⟩
    refine mem_filterMap.mpr ⟨(k, a), get?_eq_some.mp ha, ?_⟩
    rw [hb]
    rfl

end SortedMap

end Pandora.Lib.SortedMaps
