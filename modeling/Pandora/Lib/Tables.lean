import Mathlib

/-! # Tables

A table with a primary key: rows in order of insertion, no two with the same key. The operations are
those of a relational store (`INSERT`, `INSERT … ON CONFLICT DO UPDATE`, `UPDATE … WHERE`, `DELETE …
WHERE`, lookup by key); each keeps the keys distinct, so a table with a repeated key cannot be
built. Proofs see a table through its rows: one membership lemma for each operation. -/

namespace Pandora.Lib.Tables

open List

/-- Rows with pairwise distinct keys. -/
structure Table {ρ κ : Type} (key : ρ → κ) where
  rows : List ρ
  nodup : (rows.map key).Nodup

namespace Table

variable {ρ κ : Type} {key : ρ → κ}

instance : Membership ρ (Table key) := ⟨fun t r => r ∈ t.rows⟩

variable {t : Table key} {r : ρ}

theorem mem_rows : r ∈ t.rows ↔ r ∈ t := Iff.rfl

/-- The table without rows. -/
def empty : Table key := ⟨[], by simp⟩

@[simp] theorem not_mem_empty (r : ρ) : ¬ r ∈ (empty : Table key) := by
  simp [← mem_rows, empty]

theorem eq_of_key {s : ρ} (hr : r ∈ t) (hs : s ∈ t) (h : key r = key s) : r = s :=
  inj_on_of_nodup_map t.nodup hr hs h

/-- `UPDATE … SET … WHERE p`. -/
def update (t : Table key) (p : ρ → Bool) (f : ρ → ρ) (hf : ∀ r, p r = true → key (f r) = key r) :
    Table key where
  rows := t.rows.map fun r => if p r then f r else r
  nodup := by
    have hkey : (t.rows.map fun r => if p r then f r else r).map key = t.rows.map key := by
      rw [map_map]
      refine map_congr_left fun r _ => ?_
      simp only [Function.comp_apply]
      split_ifs with h
      · exact hf r h
      · rfl
    rw [hkey]; exact t.nodup

variable {p : ρ → Bool} {f : ρ → ρ}

theorem mem_update {hf : ∀ r, p r = true → key (f r) = key r} :
    r ∈ t.update p f hf ↔ ∃ s ∈ t, r = if p s then f s else s := by
  simp only [← mem_rows, update, mem_map]
  exact exists_congr fun s => and_congr_right fun _ => eq_comm

/-- `DELETE … WHERE p`. -/
def delete (t : Table key) (p : ρ → Bool) : Table key where
  rows := t.rows.filter fun r => !p r
  nodup := t.nodup.sublist (filter_sublist.map key)

theorem mem_delete :
    r ∈ t.delete p ↔ r ∈ t ∧ p r = false := by
  simp [← mem_rows, delete]

/-- `ORDER BY column ASC LIMIT 1`. -/
def firstBy (column : ρ → ℤ) : List ρ → Option ρ
  | [] => none
  | r :: rs =>
    match firstBy column rs with
    | none => some r
    | some s => if column r ≤ column s then some r else some s

theorem firstBy_eq_some {column : ρ → ℤ} : ∀ {rs : List ρ} {r : ρ}, firstBy column rs = some r →
    r ∈ rs ∧ ∀ s ∈ rs, column r ≤ column s
  | [], _, h => by cases h
  | a :: rs, r, h => by
    unfold firstBy at h
    rcases hrest : firstBy column rs with _ | b
    · rw [hrest, Option.some.injEq] at h
      subst h
      have hnil : rs = [] := by
        cases rs with
        | nil => rfl
        | cons c cs =>
          unfold firstBy at hrest
          split at hrest
          · cases hrest
          · split_ifs at hrest
      simp [hnil]
    · obtain ⟨hb, hle⟩ := firstBy_eq_some hrest
      rw [hrest] at h
      dsimp only at h
      split_ifs at h with hab
      · rw [Option.some.injEq] at h
        subst h
        refine ⟨by simp, fun s hs => ?_⟩
        rcases mem_cons.mp hs with rfl | hs
        · exact Int.le_refl _
        · exact Int.le_trans hab (hle s hs)
      · rw [Option.some.injEq] at h
        subst h
        refine ⟨by simp [hb], fun s hs => ?_⟩
        rcases mem_cons.mp hs with rfl | hs
        · omega
        · exact hle s hs

/-! ### Rows in the order of a column -/

/-- `SELECT … WHERE p ORDER BY column ASC`. -/
def selectBy (t : Table key) (p : ρ → Bool) (column : ρ → ℤ) : List ρ :=
  (t.rows.filter p).insertionSort fun r s => column r ≤ column s

section selectBy

variable {p : ρ → Bool} {column : ρ → ℤ}

theorem mem_selectBy :
    r ∈ t.selectBy p column ↔ r ∈ t ∧ p r = true := by
  unfold selectBy
  rw [mem_insertionSort, mem_filter, mem_rows]

/-- The rows increase strictly, if the column tells the selected rows apart. -/
theorem sorted_selectBy (hcolumn : ∀ r s, p r = true → p s = true → column r = column s →
    key r = key s) (t : Table key) :
    (t.selectBy p column).Pairwise fun r s => column r < column s := by
  have hle : (t.selectBy p column).Pairwise fun r s => column r ≤ column s :=
    pairwise_insertionSort _ _
  have hkeys : ((t.selectBy p column).map key).Nodup := by
    have hrows : ((t.rows.filter p).map key).Nodup :=
      t.nodup.sublist (filter_sublist.map key)
    exact ((perm_insertionSort _ _).map key).nodup_iff.mpr hrows
  have hne := pairwise_map.mp hkeys
  refine (hle.and hne).imp_of_mem ?_
  rintro r s hr hs ⟨hrs, hkey⟩
  have hdiff : column r ≠ column s := fun heq =>
    hkey (hcolumn r s (mem_selectBy.mp hr).2 (mem_selectBy.mp hs).2 heq)
  omega

theorem eq_of_sorted {l l' : List ρ} (hl : l.Pairwise fun r s => column r < column s)
    (hl' : l'.Pairwise fun r s => column r < column s) (hmem : ∀ r, r ∈ l ↔ r ∈ l') : l = l' := by
  have hnodup : ∀ {l : List ρ}, (l.Pairwise fun r s => column r < column s) → l.Nodup :=
    fun h => h.imp fun hlt heq => absurd hlt (by rw [heq]; omega)
  have hperm := (perm_ext_iff_of_nodup (hnodup hl) (hnodup hl')).mpr hmem
  exact hperm.eq_of_pairwise (fun _ _ _ _ hrs hsr => absurd hrs (by omega)) hl hl'

/-- The selected rows are determined by being the selected rows, in order. -/
theorem selectBy_eq (hcolumn : ∀ r s, p r = true → p s = true → column r = column s →
    key r = key s) {l : List ρ} (hl : l.Pairwise fun r s => column r < column s)
    (hmem : ∀ r, r ∈ l ↔ r ∈ t ∧ p r = true) : t.selectBy p column = l :=
  eq_of_sorted (sorted_selectBy hcolumn t) hl fun r => mem_selectBy.trans (hmem r).symm

theorem filter_le_prefix (top : ℤ) : ∀ {l : List ρ},
    (l.Pairwise fun r s => column r < column s) → l.filter (fun r => column r ≤ top) <+: l
  | [], _ => nil_prefix
  | r :: l, hl => by
    obtain ⟨hr, hl⟩ := pairwise_cons.mp hl
    by_cases hle : column r ≤ top
    · rw [filter_cons_of_pos (by rwa [decide_eq_true_eq])]
      exact cons_prefix_cons.mpr ⟨rfl, filter_le_prefix top hl⟩
    · -- all later rows are above the value, too
      have hnil : l.filter (fun r => column r ≤ top) = [] := by
        rw [filter_eq_nil_iff]
        intro s hs
        have hlt := hr s hs
        rw [decide_eq_true_eq]
        omega
      rw [filter_cons_of_neg (by rwa [decide_eq_true_eq]), hnil]
      exact nil_prefix

end selectBy

/-! ### Rows by their key -/

variable [DecidableEq κ]

/-- `SELECT … WHERE key = k`. -/
def get? (t : Table key) (k : κ) : Option ρ := t.rows.find? fun r => key r = k

variable {k : κ}

theorem get?_eq_some : t.get? k = some r ↔ r ∈ t ∧ key r = k := by
  constructor
  · intro h
    exact ⟨mem_of_find?_eq_some h, by simpa using List.find?_some h⟩
  · rintro ⟨hr, rfl⟩
    rcases hs : t.get? (key r) with _ | s
    · have := List.find?_eq_none.mp hs r hr
      simp at this
    · have hk : key s = key r := by simpa using List.find?_some hs
      rw [eq_of_key (mem_of_find?_eq_some hs) hr hk]

theorem get?_eq_none : t.get? k = none ↔ ∀ r ∈ t, key r ≠ k := by
  simp [get?, List.find?_eq_none, mem_rows]

@[simp] theorem get?_empty (k : κ) : (empty : Table key).get? k = none := rfl

/-- Lookup after an `UPDATE`: the row of a key stays the row of that key. -/
theorem get?_update {hf : ∀ r, p r = true → key (f r) = key r} (k : κ) :
    (t.update p f hf).get? k = (t.get? k).map fun r => if p r then f r else r := by
  unfold get? update
  rw [List.find?_map]
  congr 2
  funext r
  simp only [Function.comp_apply]
  split_ifs with h
  · rw [hf r h]
  · rfl

/-- `INSERT`: refused when the key is taken. -/
def insert? (t : Table key) (r : ρ) : Option (Table key) :=
  if h : key r ∈ t.rows.map key then none
  else some ⟨t.rows ++ [r], by
    rw [map_append, map_singleton, nodup_append]
    refine ⟨t.nodup, by simp, ?_⟩
    rintro a ha b hb rfl
    rw [mem_singleton] at hb
    exact h (hb ▸ ha)⟩

variable {t' : Table key}

theorem insert?_eq_some (h : t.insert? r = some t') :
    (∀ s ∈ t, key s ≠ key r) ∧ t'.rows = t.rows ++ [r] := by
  unfold insert? at h
  split_ifs at h with hk
  rw [Option.some.injEq] at h
  subst h
  refine ⟨fun s hs he => hk ?_, rfl⟩
  rw [← he]; exact mem_map_of_mem hs

/-- `INSERT` of a row whose key is free. -/
theorem exists_insert? (r : ρ) (h : t.get? (key r) = none) :
    ∃ t', t.insert? r = some t' := by
  have hfree : key r ∉ t.rows.map key := by
    intro hmem
    obtain ⟨s, hs, hkey⟩ := mem_map.mp hmem
    exact get?_eq_none.mp h s hs hkey
  exact ⟨_, dif_neg hfree⟩

theorem mem_insert? {s : ρ} (h : t.insert? r = some t') :
    s ∈ t' ↔ s ∈ t ∨ s = r := by
  rw [← mem_rows, (insert?_eq_some h).2]; simp [mem_rows]

theorem get?_insert? (h : t.insert? r = some t') (k : κ) :
    t'.get? k = if k = key r then some r else t.get? k := by
  split_ifs with hk
  · exact get?_eq_some.mpr ⟨(mem_insert? h).mpr (Or.inr rfl), hk.symm⟩
  · unfold get?
    rw [(insert?_eq_some h).2, List.find?_append]
    simp [Ne.symm hk]

/-! ### Writes of one row -/

/-- The row of one key is written, the others stay. -/
def Writes (t t' : Table key) (k : κ) (r : ρ) : Prop :=
  ∀ k', t'.get? k' = if k' = k then some r else t.get? k'

theorem Writes.same (h : Writes t t' k r) :
    t'.get? k = some r := by
  rw [h k, if_pos rfl]

theorem Writes.other {k' : κ} (h : Writes t t' k r) (hk : k' ≠ k) :
    t'.get? k' = t.get? k' := by
  rw [h k', if_neg hk]

/-- An `UPDATE` that selects the row of one key. -/
theorem writes_update
    {hf : ∀ r, p r = true → key (f r) = key r} (honly : ∀ s, p s = true → key s = k)
    (hget : t.get? k = some r) (hp : p r = true) : Writes t (t.update p f hf) k (f r) := by
  intro k'
  rw [get?_update]
  split_ifs with hk
  · subst hk
    rw [hget, Option.map_some, if_pos hp]
  · rcases hget' : t.get? k' with _ | s
    · rfl
    · have hs : ¬ p s = true := by
        intro hps
        rw [← (get?_eq_some.mp hget').2] at hk
        exact hk (honly s hps)
      rw [Option.map_some, if_neg hs]

omit [DecidableEq κ] in
/-- An `UPDATE` that selects no row. -/
theorem update_of_none (hf : ∀ r, p r = true → key (f r) = key r) (h : ∀ r ∈ t, p r = false) :
    t.update p f hf = t := by
  have hrows : t.rows.map (fun r => if p r then f r else r) = t.rows := by
    refine (map_congr_left fun r hr => ?_).trans (map_id _)
    rw [h r hr]
    rfl
  obtain ⟨rows, hnodup⟩ := t
  exact Table.mk.injEq .. ▸ hrows

/-- An `UPDATE` on the row of one key that does not select it. -/
theorem get?_update_of_not
    {hf : ∀ r, p r = true → key (f r) = key r} (honly : ∀ s, p s = true → key s = k)
    (hget : t.get? k = some r) (hp : p r = false) (k' : κ) :
    (t.update p f hf).get? k' = t.get? k' := by
  rw [get?_update]
  rcases hget' : t.get? k' with _ | s
  · rfl
  · have hs : ¬ p s = true := by
      intro hps
      have hk : k' = k := by rw [← (get?_eq_some.mp hget').2]; exact honly s hps
      subst hk
      rw [hget, Option.some.injEq] at hget'
      subst hget'
      rw [hp] at hps
      cases hps
    rw [Option.map_some, if_neg hs]

/-- A row that an `UPDATE` on the row of one key counts is that row. -/
theorem of_countP_eq_one (honly : ∀ s, p s = true → key s = k)
    (hget : t.get? k = some r) (h : t.rows.countP p = 1) : p r = true := by
  have hpos : 0 < t.rows.countP p := by omega
  obtain ⟨s, hs, hp⟩ := countP_pos_iff.mp hpos
  obtain ⟨hmem, hkey⟩ := get?_eq_some.mp hget
  rw [eq_of_key hmem hs (by rw [hkey, honly s hp])]
  exact hp

/-- `INSERT … ON CONFLICT DO UPDATE` of every other column. -/
def upsert (t : Table key) (r : ρ) : Table key :=
  match t.insert? r with
  | some t' => t'
  | none => t.update (fun s => key s = key r) (fun _ => r) (by simp [eq_comm])

theorem mem_upsert {s : ρ} :
    s ∈ t.upsert r ↔ s = r ∨ (s ∈ t ∧ key s ≠ key r) := by
  unfold upsert
  rcases h : t.insert? r with _ | t'
  · have hin : key r ∈ t.rows.map key := by
      by_contra hn; simp [insert?, hn] at h
    obtain ⟨r₀, hr₀, hk⟩ := mem_map.mp hin
    simp only [mem_update]
    constructor
    · rintro ⟨u, hu, rfl⟩
      by_cases he : key u = key r
      · simp [he]
      · right; simp [he, hu]
    · rintro (rfl | ⟨hs, hne⟩)
      · exact ⟨r₀, hr₀, by simp [hk]⟩
      · exact ⟨s, hs, by simp [hne]⟩
  · simp only [mem_insert? h]
    constructor
    · rintro (hs | rfl)
      · exact Or.inr ⟨hs, (insert?_eq_some h).1 s hs⟩
      · exact Or.inl rfl
    · rintro (rfl | ⟨hs, -⟩)
      · exact Or.inr rfl
      · exact Or.inl hs

theorem get?_upsert (k : κ) :
    (t.upsert r).get? k = if k = key r then some r else t.get? k := by
  split_ifs with hk
  · exact get?_eq_some.mpr ⟨mem_upsert.mpr (Or.inl rfl), hk.symm⟩
  · rcases hget : t.get? k with _ | s
    · rw [get?_eq_none] at hget ⊢
      intro s hs
      rcases mem_upsert.mp hs with rfl | ⟨hs, -⟩
      · exact Ne.symm hk
      · exact hget s hs
    · obtain ⟨hs, rfl⟩ := get?_eq_some.mp hget
      exact get?_eq_some.mpr ⟨mem_upsert.mpr (Or.inr ⟨hs, hk⟩), rfl⟩

theorem insert?_eq_upsert (h : t.get? (key r) = none) :
    t.insert? r = some (t.upsert r) := by
  obtain ⟨t', ht'⟩ := exists_insert? r h
  unfold upsert
  rw [ht']

theorem get?_delete_eq_some :
    (t.delete p).get? k = some r ↔ t.get? k = some r ∧ p r = false := by
  rw [get?_eq_some, get?_eq_some, mem_delete]
  tauto

/-! ### Sums over the rows -/

/-- `SELECT SUM(w)`. -/
def total (t : Table key) (w : ρ → ℕ) : ℕ := (t.rows.map w).sum

omit [DecidableEq κ] in
@[simp] theorem total_empty (w : ρ → ℕ) : (empty : Table key).total w = 0 := rfl

theorem total_insert? (h : t.insert? r = some t') (w : ρ → ℕ) :
    t'.total w = t.total w + w r := by
  unfold total
  rw [(insert?_eq_some h).2, map_append, sum_append, map_singleton,
    sum_singleton]

theorem rows_split (h : t.get? k = some r) :
    ∃ before after, t.rows = before ++ r :: after ∧ (∀ s ∈ before, key s ≠ k) ∧
      ∀ s ∈ after, key s ≠ k := by
  obtain ⟨hmem, rfl⟩ := get?_eq_some.mp h
  obtain ⟨before, after, hrows⟩ := append_of_mem (mem_rows.mpr hmem)
  have hnodup := t.nodup
  rw [hrows, map_append, map_cons, nodup_append] at hnodup
  obtain ⟨-, hafter, hbefore⟩ := hnodup
  refine ⟨before, after, hrows, fun s hs => ?_, fun s hs he => ?_⟩
  · exact hbefore _ (mem_map_of_mem hs) _ mem_cons_self
  · exact (nodup_cons.mp hafter).1 (he ▸ mem_map_of_mem hs)

/-- An `UPDATE` on the row of one key moves the sum by what that row changes. -/
theorem total_update {hf : ∀ r, p r = true → key (f r) = key r}
    (honly : ∀ s, p s = true → key s = k) (hget : t.get? k = some r) (hp : p r = true)
    (w : ρ → ℕ) : (t.update p f hf).total w + w r = t.total w + w (f r) := by
  obtain ⟨before, after, hrows, hbefore, hafter⟩ := rows_split hget
  have hkeep : ∀ l : List ρ, (∀ s ∈ l, key s ≠ k) →
      l.map (fun s => if p s then f s else s) = l := by
    intro l hl
    refine (map_congr_left fun s hs => ?_).trans (map_id l)
    have hns : ¬ p s = true := fun hps => hl s hs (honly s hps)
    rw [if_neg hns]
    rfl
  unfold total update
  simp only [hrows, map_append, map_cons, hkeep before hbefore, hkeep after hafter,
    if_pos hp, sum_append, sum_cons]
  omega

/-- An `UPDATE` on the row of one key counts that row. -/
theorem countP_eq_one
    (honly : ∀ s, p s = true → key s = k) (hget : t.get? k = some r) (hp : p r = true) :
    t.rows.countP p = 1 := by
  obtain ⟨before, after, hrows, hbefore, hafter⟩ := rows_split hget
  have hnone : ∀ l : List ρ, (∀ s ∈ l, key s ≠ k) → l.countP p = 0 := by
    intro l hl
    exact countP_eq_zero.mpr fun s hs hps => hl s hs (honly s hps)
  rw [hrows, countP_append, countP_cons, hnone before hbefore, hnone after hafter,
    if_pos hp]

theorem total_except (hget : t.get? k = some r) (w : ρ → ℕ) :
    t.total (fun s => if key s = k then 0 else w s) + w r = t.total w := by
  obtain ⟨before, after, hrows, hbefore, hafter⟩ := rows_split hget
  have hkeep : ∀ l : List ρ, (∀ s ∈ l, key s ≠ k) →
      l.map (fun s => if key s = k then 0 else w s) = l.map w :=
    fun l hl => map_congr_left fun s hs => if_neg (hl s hs)
  unfold total
  simp only [hrows, map_append, map_cons, hkeep before hbefore, hkeep after hafter,
    if_pos (get?_eq_some.mp hget).2, sum_append, sum_cons]
  omega

variable {w : ρ → ℕ}

omit [DecidableEq κ] in
theorem total_congr {w' : ρ → ℕ} (h : ∀ s ∈ t, w s = w' s) :
    t.total w = t.total w' := by
  unfold total
  rw [map_congr_left h]

omit [DecidableEq κ] in
theorem total_eq_zero (h : ∀ s ∈ t, w s = 0) : t.total w = 0 := by
  rw [total_congr h, total]
  simp

omit [DecidableEq κ] in
theorem total_add_le {w' v : ρ → ℕ} (h : ∀ s ∈ t, w s + w' s ≤ v s) :
    t.total w + t.total w' ≤ t.total v := by
  have hle : ∀ l : List ρ, (∀ s ∈ l, w s + w' s ≤ v s) →
      (l.map w).sum + (l.map w').sum ≤ (l.map v).sum := by
    intro l
    induction l with
    | nil => exact fun _ => Nat.le_refl _
    | cons s l ih =>
      intro hl
      have hs := hl s mem_cons_self
      have hrest := ih fun r hr => hl r (mem_cons_of_mem _ hr)
      simp only [map_cons, sum_cons]
      omega
  exact hle t.rows h

omit [DecidableEq κ] in
theorem sum_filter (p : ρ → Bool) (w : ρ → ℕ) :
    ((t.rows.filter p).map w).sum = t.total fun s => if p s then w s else 0 := by
  unfold total
  induction t.rows with
  | nil => rfl
  | cons r rs ih =>
    rw [filter_cons, map_cons, sum_cons, ← ih]
    split_ifs
    · rw [map_cons, sum_cons]
    · rw [Nat.zero_add]

/-- The row of one key is written, where there was `old`: what lookups and sums are afterwards. -/
structure Put (t t' : Table key) (k : κ) (old : Option ρ) (r : ρ) : Prop where
  was : t.get? k = old
  writes : Writes t t' k r
  total : ∀ w : ρ → ℕ, t'.total w + (old.map w).getD 0 = t.total w + w r

theorem put_insert? (h : t.insert? r = some t') :
    Put t t' (key r) none r where
  was := get?_eq_none.mpr fun s hs => (insert?_eq_some h).1 s hs
  writes := get?_insert? h
  total w := by rw [Option.map_none, Option.getD_none, Nat.add_zero, total_insert? h]

theorem put_update (hf : ∀ r, p r = true → key (f r) = key r)
    (honly : ∀ s, p s = true → key s = k) (hget : t.get? k = some r) (hp : p r = true) :
    Put t (t.update p f hf) k (some r) (f r) where
  was := hget
  writes := writes_update honly hget hp
  total w := by rw [Option.map_some, Option.getD_some, total_update honly hget hp]

theorem Put.total_eq {old : Option ρ} (h : Put t t' k old r) (hr : w r = 0)
    (hold : ∀ s ∈ old, w s = 0) : t'.total w = t.total w := by
  have htotal := h.total w
  have hzero : (old.map w).getD 0 = 0 := by
    rcases old with _ | s
    · rfl
    · exact hold s rfl
  omega

end Table

end Pandora.Lib.Tables
