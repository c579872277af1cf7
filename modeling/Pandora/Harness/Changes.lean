import Pandora.Harness.Tree
import Pandora.Lib.Runs

/-! # Changes of a harness tree

A diff between two valid trees leads from the one to the other (`applyDiff_diff`). The trees that
are reached from the empty one stay valid exactly as long as no insertion is refused for the totals
(`changes_iff`): such an insertion is refused after it was made. -/

namespace Pandora.Harness

open Lib.Checked Lib.SortedMaps Lib.Runs SortedMap
open List hiding keys mem_keys

variable {files : Files} {path content : String} {tree base other : HarnessTree}

/-- What `validate` checks. -/
structure Valid (files : Files) : Prop where
  count : files.entries.length ≤ maxTreeFilesCount
  entries : ∀ file ∈ files.entries, validateEntry file.1 file.2 = .ok ()
  total : totalBytes files ≤ maxTreeTotalSizeBytes

theorem validateTotals_eq_ok : validateTotals files = .ok () ↔
    files.entries.length ≤ maxTreeFilesCount ∧ totalBytes files ≤ maxTreeTotalSizeBytes := by
  unfold validateTotals
  rw [bind_eq_ok]
  simp only [ensure_eq_ok, exists_and_left, exists_const]

namespace HarnessTree

theorem validate_eq_ok : tree.validate = .ok () ↔ Valid tree.files := by
  unfold validate
  simp only [bind_eq_ok, ensure_eq_ok]
  constructor
  · rintro ⟨⟨⟩, hcount, ⟨⟩, hentries, htotal⟩
    exact ⟨hcount, forM_eq_ok.mp hentries, htotal⟩
  · rintro ⟨hcount, hentries, htotal⟩
    exact ⟨(), hcount, (), forM_eq_ok.mpr hentries, htotal⟩

/-! ### A diff is applied -/

theorem foldlM_putFile {α : Type} {key value : α → String} : ∀ {items : List α} {files : Files},
    (∀ a ∈ items, validateEntry (key a) (value a) = .ok ()) →
      items.foldlM (fun files a => putFile files (key a) (value a)) files =
        .ok (items.foldl (fun files a => files.insert (key a) (value a)) files)
  | [], _, _ => rfl
  | a :: items, files, h => by
    rw [forall_mem_cons] at h
    rw [foldlM_cons, putFile, h.1, ok_bind]
    exact foldlM_putFile h.2

theorem get?_foldl_erase : ∀ {paths : List String} {files : Files},
    (paths.foldl erase files).get? path =
      if path ∈ paths then none else files.get? path
  | [], _ => rfl
  | p :: paths, files => by
    rw [foldl_cons, get?_foldl_erase, get?_erase]
    by_cases hlater : path ∈ paths
    · rw [if_pos hlater, if_pos (mem_cons_of_mem _ hlater)]
    · rw [if_neg hlater]
      by_cases hpath : path = p
      · rw [if_pos hpath, if_pos (List.mem_cons.mpr (Or.inl hpath))]
      · rw [if_neg hpath, if_neg (not_mem_cons_of_ne_of_not_mem hpath hlater)]

theorem get?_foldl_modified {modified : SortedMap String (String × String)} :
    (modified.entries.foldl (fun files file => files.insert file.1 file.2.2) files).get? path =
      ((modified.get? path).map Prod.snd).or (files.get? path) := by
  have hentries : (modified.filterMap fun _ change => some change.2).entries =
      modified.entries.map fun file => (file.1, file.2.2) := by
    show modified.entries.filterMap (fun file => some (file.1, file.2.2)) = _
    rw [filterMap_eq_map']
  have hfold := @get?_foldl_insert _ _ _ _ files
    ((modified.filterMap fun _ change => some change.2).sorted.imp ne_of_lt) path
  rw [hentries, foldl_map] at hfold
  rw [hfold, ← hentries]
  show ((modified.filterMap fun _ change => some change.2).get? path).or _ = _
  rw [get?_filterMap, Option.map_eq_bind]
  rfl

theorem mem_removed : path ∈ (base.diff other).removed.elems ↔
    base.files.get? path ≠ none ∧ other.files.get? path = none := by
  unfold diff
  rw [mem_filter, mem_keys, decide_eq_true_eq, Option.isSome_iff_ne_none]

theorem files_of_diff : (((base.diff other).modified.entries.foldl
    (fun files file => files.insert file.1 file.2.2)
      ((base.diff other).added.entries.foldl (fun files file => files.insert file.1 file.2)
        ((base.diff other).removed.elems.foldl erase base.files))) : Files) =
    other.files := by
  refine ext_get? fun path => ?_
  rw [get?_foldl_modified, get?_foldl_insert ((base.diff other).added.sorted.imp ne_of_lt)]
  show (((base.diff other).modified.get? path).map Prod.snd).or
    (((base.diff other).added.get? path).or _) = _
  rw [get?_foldl_erase]
  simp only [mem_removed]
  unfold diff
  dsimp only
  rw [get?_filterMap, get?_filterMap]
  rcases hbase : base.files.get? path with _ | oldContent
  · rcases hother : other.files.get? path with _ | newContent
    · simp
    · simp
  · rcases hother : other.files.get? path with _ | newContent
    · simp
    · by_cases hsame : oldContent = newContent
      all_goals simp [hsame]

/-- **The diff between two trees** makes the second, if it is valid, from the first, but for the
metadata. -/
theorem applyDiff_diff (base : HarnessTree) (hother : other.validate = .ok ()) :
    base.applyDiff (base.diff other) = .ok { base with files := other.files } := by
  have hvalid := validate_eq_ok.mp hother
  have hentry : ∀ path newContent, other.files.get? path = some newContent →
      validateEntry path newContent = .ok () := fun path newContent hget =>
    hvalid.entries (path, newContent) (get?_eq_some.mp hget)
  have hadded : ∀ file ∈ (base.diff other).added.entries, validateEntry file.1 file.2 = .ok () := by
    intro file hfile
    have hget := get?_eq_some.mpr hfile
    unfold diff at hget
    rw [get?_filterMap] at hget
    obtain ⟨newContent, hnew, hsame⟩ := Option.bind_eq_some_iff.mp hget
    split at hsame
    · rw [← Option.some.inj hsame]
      exact hentry _ _ hnew
    · cases hsame
  have hmodified : ∀ file ∈ (base.diff other).modified.entries,
      validateEntry file.1 file.2.2 = .ok () := by
    intro file hfile
    have hget := get?_eq_some.mpr hfile
    unfold diff at hget
    rw [get?_filterMap] at hget
    obtain ⟨newContent, hnew, hsame⟩ := Option.bind_eq_some_iff.mp hget
    split at hsame
    · cases hsame
    · split_ifs at hsame
      rw [← Option.some.inj hsame]
      exact hentry _ _ hnew
  unfold applyDiff
  dsimp only
  rw [foldlM_putFile hadded, ok_bind, foldlM_putFile hmodified, ok_bind, files_of_diff]
  refine bind_eq_ok.mpr ⟨(), validate_eq_ok.mpr hvalid, rfl⟩

/-! ### Runs -/

inductive Call
  | insert (path content : String)
  | remove (path : String)
  | applyDiff (diff : HarnessTreeDiff)

def step (tree : HarnessTree) : Call → HarnessTree × Except HarnessTreeError Unit
  | .insert path content => tree.insert path content
  | .remove path => ((tree.remove path).1, .ok ())
  | .applyDiff diff =>
    match tree.applyDiff diff with
    | .ok newTree => (newTree, .ok ())
    | .error error => (tree, .error error)

def machine : Machine HarnessTree Call (Except HarnessTreeError Unit) := ⟨step⟩

/-- An entry that is inserted leaves the totals within their bounds. -/
def Fits (tree : HarnessTree) : Call → Prop
  | .insert path content => validateEntry path content = .ok () →
    validateTotals (tree.files.insert path content) = .ok ()
  | .remove _ => True
  | .applyDiff _ => True

/-- The tree is valid after the call, and as it was if the call is refused. -/
def Kept (tree : HarnessTree) (call : Call) : Prop :=
  (machine.step tree call).1.validate = .ok () ∧
    ∀ error, (machine.step tree call).2 = .error error → (machine.step tree call).1 = tree

theorem valid_erase (h : Valid files) (path : String) : Valid (files.erase path) := by
  have hsub : (files.erase path).entries.Sublist files.entries := filter_sublist
  refine ⟨hsub.length_le.trans h.count, fun file hfile => h.entries file (hsub.subset hfile), ?_⟩
  exact ((hsub.map _).sum_le_sum fun _ _ => Nat.zero_le _).trans h.total

/-- A call keeps a valid tree valid exactly if what it inserts fits. -/
theorem kept_iff {call : Call} (h : tree.validate = .ok ()) : Fits tree call ↔ Kept tree call := by
  have hvalid := validate_eq_ok.mp h
  cases call with
  | insert path content =>
    show (_ → _) ↔ (tree.insert path content).1.validate = .ok () ∧
      ∀ error, (tree.insert path content).2 = .error error → (tree.insert path content).1 = tree
    unfold insert
    rcases hentry : validateEntry path content with error | ⟨⟩
    · exact ⟨fun _ => ⟨h, fun _ _ => rfl⟩, fun _ hok => by cases hok⟩
    · dsimp only
      constructor
      · intro hfits
        have htotals := hfits rfl
        obtain ⟨hcount, htotal⟩ := validateTotals_eq_ok.mp htotals
        refine ⟨validate_eq_ok.mpr ⟨hcount, fun file hfile => ?_, htotal⟩, fun error herror => ?_⟩
        · rcases mem_insert hfile with rfl | hfile
          · exact hentry
          · exact hvalid.entries file hfile
        · rw [htotals] at herror
          cases herror
      · rintro ⟨hnew, -⟩ -
        have hnew := validate_eq_ok.mp hnew
        exact validateTotals_eq_ok.mpr ⟨hnew.count, hnew.total⟩
  | remove path =>
    exact ⟨fun _ => ⟨validate_eq_ok.mpr (valid_erase hvalid path), fun _ herror => by cases herror⟩,
      fun _ => trivial⟩
  | applyDiff diff =>
    refine ⟨fun _ => ?_, fun _ => trivial⟩
    unfold Kept machine step
    dsimp only
    rcases happly : tree.applyDiff diff with error | newTree
    · exact ⟨h, fun _ _ => rfl⟩
    · refine ⟨?_, fun _ herror => by cases herror⟩
      unfold applyDiff at happly
      simp only [bind_eq_ok, pure_eq_ok] at happly
      obtain ⟨_, -, _, -, ⟨⟩, hvalidate, rfl⟩ := happly
      exact hvalidate

/-- **The changes of a tree.** A diff leads to the tree it was made for; and from an empty tree on,
each call leaves the tree valid, and as it was where it is refused, exactly if each insertion fits.
-/
theorem changes_iff (calls : List Call) :
    (∀ base other : HarnessTree, other.validate = .ok () →
      base.applyDiff (base.diff other) = .ok { base with files := other.files } ∧
        (base.metadata = other.metadata → base.applyDiff (base.diff other) = .ok other)) ∧
    (machine.Along Fits new calls ↔ machine.Along Kept new calls) := by
  refine ⟨fun base other hother => ?_, ?_⟩
  · have happly := applyDiff_diff base hother
    refine ⟨happly, fun hmetadata => ?_⟩
    rw [happly, hmetadata]
  · have hnew : new.validate = .ok () := by decide
    exact machine.along_iff (P := fun tree : HarnessTree => tree.validate = .ok ())
      (fun _ _ _ htree => kept_iff htree) (fun _ _ _ _ hkept _ => hkept.1) calls
      (machine.along_of_forall (fun _ _ => trivial) calls new) hnew

/-! ### A refused insertion -/

def fileName (n : ℕ) : String := "memory/" ++ String.ofList (List.replicate n 'a')

theorem toList_fileName (n : ℕ) :
    (fileName n).toList = "memory".toList ++ '/' :: List.replicate n 'a' := by
  have hword : "memory".toList = ['m', 'e', 'm', 'o', 'r', 'y'] := by decide
  unfold fileName
  rw [hword, String.toList_append, String.toList_ofList, String.toList_ofList]
  rfl

theorem fileName_inj {n m : ℕ} (h : fileName n = fileName m) : n = m := by
  have hlength := congrArg (fun path : String => path.toList.length) h
  simp only [toList_fileName, length_append, length_cons, length_replicate]
    at hlength
  omega

theorem validateEntry_fileName (n : ℕ) : validateEntry (fileName n) "" = .ok () := by
  have hcharacter : ∀ c ∈ (fileName n).toList, c ∈ "memory/a".toList := by
    intro c hc
    rw [toList_fileName] at hc
    rcases List.mem_append.mp hc with hc | hc
    · exact mem_append_left ['/', 'a'] hc
    · rcases List.mem_cons.mp hc with rfl | hc
      · decide
      · rw [(List.mem_replicate.mp hc).2]
        decide
  have hfirst : (fileName n).toList = 'm' :: ("emory".toList ++ '/' :: List.replicate n 'a') :=
    toList_fileName n
  have hclass : HarnessComponent.classifyPath (fileName n) = some .memory := by
    unfold HarnessComponent.classifyPath startsWith
    rw [hfirst]
    simp [List.isPrefixOf]
  unfold validateEntry
  simp only [bind_eq_ok, ensure_eq_ok, exists_and_left, exists_const]
  refine ⟨fun hempty => ?_, fun hnul => ?_, fun hbackslash => ?_, ?_, ?_, ?_, by decide⟩
  · rw [hempty] at hfirst
    cases hfirst
  · exact absurd (hcharacter _ hnul) (by decide)
  · exact absurd (hcharacter _ hbackslash) (by decide)
  · rw [hfirst, List.head?_cons]
    decide
  · have hone : '/' ∉ List.replicate n 'a' := fun hmem => by
      have hsame := (List.mem_replicate.mp hmem).2
      revert hsame
      decide
    rw [toList_fileName, splitOn_append_cons_self, splitOn_eq_singleton hone]
    intro hparent
    rcases List.mem_append.mp hparent with hparent | hparent
    · revert hparent
      decide
    · have hlast := List.mem_singleton.mp hparent
      have hdot : '.' ∈ List.replicate n 'a' := by
        rw [← hlast]
        decide
      have hsame := (List.mem_replicate.mp hdot).2
      revert hsame
      decide
  · rw [hclass]
    exact Option.some_ne_none _

def insertions (n : ℕ) : List Call := (List.range n).map fun i => .insert (fileName i) ""

theorem run_insertions : ∀ n : ℕ, (machine.run new (insertions n)).files.entries.length = n ∧
    ∀ m, n ≤ m → (machine.run new (insertions n)).files.get? (fileName m) = none
  | 0 => ⟨rfl, fun _ _ => rfl⟩
  | n + 1 => by
    obtain ⟨hlength, hfresh⟩ := run_insertions n
    have hrun : (machine.run new (insertions (n + 1))).files =
        (machine.run new (insertions n)).files.insert (fileName n) "" := by
      unfold insertions
      rw [range_succ, map_append, map_singleton, Machine.run_snoc]
      show (insert _ (fileName n) "").1.files = _
      unfold insert
      rw [validateEntry_fileName]
    rw [hrun]
    refine ⟨?_, fun m hm => ?_⟩
    · rw [length_insert_of_none (hfresh n (le_refl n)), hlength]
    · rw [get?_insert, if_neg, hfresh m (by omega)]
      intro hsame
      have hnm := fileName_inj hsame
      omega

theorem insert_of_full (hlength : tree.files.entries.length = 1024)
    (hfresh : tree.files.get? path = none) (hentry : validateEntry path content = .ok ()) :
    (tree.insert path content).2 = .error (.tooManyFiles 1025) := by
  have hcount := length_insert_of_none hfresh content
  have hrefused : ensure (1024 + 1 ≤ maxTreeFilesCount)
      (HarnessTreeError.tooManyFiles (1024 + 1)) = .error (.tooManyFiles 1025) := by decide
  unfold insert
  rw [hentry]
  dsimp only
  unfold validateTotals
  rw [hcount, hlength, hrefused]
  exact bind_eq_error.mpr (Or.inl rfl)

/-- The insertion of the 1025th file is refused, and the file is there afterwards. -/
theorem refused_insert_stays :
    ((machine.run new (insertions 1024)).insert (fileName 1024) "").2 =
        .error (.tooManyFiles 1025) ∧
      (machine.run new (insertions 1025)).files.entries.length = 1025 ∧
      (machine.run new (insertions 1025)).validate ≠ .ok () := by
  obtain ⟨hlength, hfresh⟩ := run_insertions 1024
  have hmore := (run_insertions 1025).1
  refine ⟨insert_of_full hlength (hfresh 1024 (le_refl _)) (validateEntry_fileName 1024), hmore,
    fun hvalid => ?_⟩
  have hcount := (validate_eq_ok.mp hvalid).count
  rw [hmore] at hcount
  exact absurd hcount (by decide)

end HarnessTree

end Pandora.Harness
