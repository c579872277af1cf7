import Pandora.Cron.Engine
import Pandora.Harness.Changes
import Pandora.Lib.Separators

/-! # The digests of trees and diffs

Paths, contents and tags are joined with a NUL after each of them. Paths have none inside, contents
may: a content may go on with a NUL, the path of another file and its content. Where the two texts
are the same, equal digests mean equal objects exactly if the contents have as many NULs, one by one
(`digests_bind_iff`); without any NUL in the contents they always do. -/

namespace Pandora.Harness

open Text Lib.Checked Lib.Codes Lib.SortedMaps Lib.Separators List
open Cron (hashArtifact)
open HarnessTree

/-- A part and the separator. -/
def part (text : String) : List Char := text.toList ++ ['\x00']

def fileText (file : String × String) : List Char := part file.1 ++ part file.2

/-- The text whose bytes are hashed. -/
def treeText (files : Files) : String :=
  .ofList (part "pandora-harness-tree-v1" ++ files.entries.flatMap fileText)

def HarnessTree.digest (sha : Sha256) (tree : HarnessTree) : String :=
  "htree-" ++ hashArtifact sha (asBytes (treeText tree.files))

/-- An entry of a diff. -/
inductive Change
  | add (path content : String)
  | modify (path oldContent newContent : String)
  | delete (path : String)

def changeText : Change → List Char
  | .add path content => part "add" ++ (part path ++ part content)
  | .modify path oldContent newContent =>
    part "mod" ++ (part path ++ (part oldContent ++ part newContent))
  | .delete path => part "del" ++ part path

namespace HarnessTreeDiff

/-- The entries in the order in which they are hashed. -/
def changes (diff : HarnessTreeDiff) : List Change :=
  diff.added.entries.map (fun file => .add file.1 file.2) ++
    (diff.modified.entries.map (fun file => .modify file.1 file.2.1 file.2.2) ++
      diff.removed.elems.map .delete)

def diffText (diff : HarnessTreeDiff) : String :=
  .ofList (part "pandora-harness-diff-v1" ++ diff.changes.flatMap changeText)

def digest (sha : Sha256) (diff : HarnessTreeDiff) : String :=
  "hdiff-" ++ hashArtifact sha (asBytes diff.diffText)

end HarnessTreeDiff

/-! ### What is known of the parts -/

/-- A text without the separator. -/
def Plain (text : String) : Prop := '\x00' ∉ text.toList

def nuls (text : String) : ℕ := text.toList.count '\x00'

theorem nuls_eq_zero {text : String} : nuls text = 0 ↔ Plain text := count_eq_zero

variable {s t : List Char}

theorem part_inj {a b : String} (hnuls : nuls a = nuls b)
    (h : part a ++ s = part b ++ t) : a = b ∧ s = t := by
  unfold part at h
  rw [append_assoc, append_assoc] at h
  obtain ⟨hab, hst⟩ := counted_inj hnuls h
  exact ⟨String.toList_inj.mp hab, hst⟩

theorem plain_inj {a b : String} (ha : Plain a) (hb : Plain b)
    (h : part a ++ s = part b ++ t) : a = b ∧ s = t :=
  part_inj ((nuls_eq_zero.mpr ha).trans (nuls_eq_zero.mpr hb).symm) h

theorem plain_of_validateEntry {path content : String}
    (h : validateEntry path content = .ok ()) : Plain path := by
  unfold validateEntry at h
  simp only [bind_eq_ok, ensure_eq_ok, exists_and_left, exists_const] at h
  exact h.2.1

/-! ### Trees -/

theorem file_inj {a b : String × String} (ha : Plain a.1) (hb : Plain b.1)
    (hnuls : nuls a.2 = nuls b.2) (h : fileText a ++ s = fileText b ++ t) : a = b ∧ s = t := by
  unfold fileText at h
  rw [append_assoc, append_assoc] at h
  obtain ⟨hpath, hrest⟩ := plain_inj ha hb h
  obtain ⟨hcontent, hst⟩ := part_inj hnuls hrest
  exact ⟨Prod.ext hpath hcontent, hst⟩

/-- The numbers of NULs in the contents, in the order of the paths. -/
def contentNuls (files : Files) : List ℕ := files.entries.map fun file => nuls file.2

variable {files files' : Files}

theorem entries_of_treeText (h : treeText files = treeText files') :
    files.entries.flatMap fileText = files'.entries.flatMap fileText :=
  append_cancel_left (String.ofList_injective h)

theorem files_of_entries (h : files.entries = files'.entries) :
    files = files' := by
  cases files
  cases files'
  cases h
  rfl

theorem treeText_inj (hplain : ∀ file ∈ files.entries, Plain file.1)
    (hplain' : ∀ file ∈ files'.entries, Plain file.1)
    (hnuls : contentNuls files = contentNuls files') (h : treeText files = treeText files') :
    files = files' := by
  refine files_of_entries (flatMap_inj_of_counts (fun a b s t ha hb hab => ?_) hplain hplain' hnuls
    (entries_of_treeText h))
  exact file_inj ha hb hab

theorem treeText_inj_of_plain (hplain : ∀ file ∈ files.entries, Plain file.1 ∧ Plain file.2)
    (hplain' : ∀ file ∈ files'.entries, Plain file.1 ∧ Plain file.2)
    (h : treeText files = treeText files') : files = files' := by
  have hcode : PrefixCode (fun file : String × String => Plain file.1 ∧ Plain file.2) fileText := by
    intro a b ha hb s t hab
    refine file_inj ha.1 hb.1 ?_ hab
    rw [nuls_eq_zero.mpr ha.2, nuls_eq_zero.mpr hb.2]
  refine files_of_entries (hcode.flatMap_inj (fun file => ?_) hplain hplain'
    (entries_of_treeText h))
  unfold fileText part
  simp

/-! ### Diffs -/

def Change.Plain : Change → Prop
  | .add path _ => Harness.Plain path
  | .modify path _ _ => Harness.Plain path
  | .delete path => Harness.Plain path

/-- The numbers of NULs in the contents. -/
def Change.nuls : Change → List ℕ
  | .add _ content => [Harness.nuls content]
  | .modify _ oldContent newContent => [Harness.nuls oldContent, Harness.nuls newContent]
  | .delete _ => []

theorem change_inj {a b : Change} (ha : a.Plain) (hb : b.Plain)
    (hnuls : a.nuls = b.nuls) (h : changeText a ++ s = changeText b ++ t) : a = b ∧ s = t := by
  cases a with
  | add path content =>
    cases b with
    | add path' content' =>
      simp only [changeText, append_assoc, append_cancel_left_eq] at h
      obtain ⟨rfl, hrest⟩ := plain_inj ha hb h
      obtain ⟨rfl, hst⟩ := part_inj (singleton_injective hnuls) hrest
      exact ⟨rfl, hst⟩
    | modify | delete => simp [Change.nuls] at hnuls
  | modify path oldContent newContent =>
    cases b with
    | add | delete => simp [Change.nuls] at hnuls
    | modify path' oldContent' newContent' =>
      simp only [changeText, append_assoc, append_cancel_left_eq] at h
      simp only [Change.nuls, List.cons.injEq, and_true] at hnuls
      obtain ⟨rfl, hrest⟩ := plain_inj ha hb h
      obtain ⟨hold, hrest⟩ := part_inj hnuls.1 hrest
      obtain ⟨hnew, hst⟩ := part_inj hnuls.2 hrest
      exact ⟨by rw [hold, hnew], hst⟩
  | delete path =>
    cases b with
    | add | modify => simp [Change.nuls] at hnuls
    | delete path' =>
      simp only [changeText, append_assoc, append_cancel_left_eq] at h
      obtain ⟨rfl, hst⟩ := plain_inj ha hb h
      exact ⟨rfl, hst⟩

theorem nuls_of_plain {a b : Change} (ha : ∀ n ∈ a.nuls, n = 0)
    (hb : ∀ n ∈ b.nuls, n = 0) (h : changeText a ++ s = changeText b ++ t) : a.nuls = b.nuls := by
  have hadd : Harness.Plain "add" := by unfold Harness.Plain; decide
  have hmod : Harness.Plain "mod" := by unfold Harness.Plain; decide
  have hdel : Harness.Plain "del" := by unfold Harness.Plain; decide
  cases a <;> cases b <;>
    simp only [Change.nuls, forall_mem_cons] at ha hb ⊢ <;>
    rw [changeText, changeText, append_assoc, append_assoc] at h
  · rw [ha.1, hb.1]
  · exact absurd (plain_inj hadd hmod h).1 (by decide)
  · exact absurd (plain_inj hadd hdel h).1 (by decide)
  · exact absurd (plain_inj hmod hadd h).1 (by decide)
  · rw [ha.1, ha.2.1, hb.1, hb.2.1]
  · exact absurd (plain_inj hmod hdel h).1 (by decide)
  · exact absurd (plain_inj hdel hadd h).1 (by decide)
  · exact absurd (plain_inj hdel hmod h).1 (by decide)

namespace HarnessTreeDiff

variable {diff diff' : HarnessTreeDiff}

theorem changes_inj (h : diff.changes = diff'.changes) : diff = diff' := by
  have hkinds : ∀ d : HarnessTreeDiff,
      (d.changes.filterMap fun | .add path content => some (path, content) | _ => none) =
        d.added.entries ∧
      (d.changes.filterMap fun
        | .modify path oldContent newContent => some (path, oldContent, newContent)
        | _ => none) = d.modified.entries ∧
      (d.changes.filterMap fun | .delete path => some path | _ => none) = d.removed.elems := by
    intro d
    unfold changes
    simp [filterMap_append, filterMap_map]
  obtain ⟨hadded, hmodified, hremoved⟩ := hkinds diff
  obtain ⟨hadded', hmodified', hremoved'⟩ := hkinds diff'
  rw [h] at hadded hmodified hremoved
  obtain ⟨⟨added, _⟩, ⟨modified, _⟩, ⟨removed, _⟩⟩ := diff
  obtain ⟨⟨added', _⟩, ⟨modified', _⟩, ⟨removed', _⟩⟩ := diff'
  obtain rfl : added = added' := hadded.symm.trans hadded'
  obtain rfl : modified = modified' := hmodified.symm.trans hmodified'
  obtain rfl : removed = removed' := hremoved.symm.trans hremoved'
  rfl

theorem changes_of_diffText (h : diff.diffText = diff'.diffText) :
    diff.changes.flatMap changeText = diff'.changes.flatMap changeText :=
  append_cancel_left (String.ofList_injective h)

theorem diffText_inj (hplain : ∀ c ∈ diff.changes, c.Plain) (hplain' : ∀ c ∈ diff'.changes, c.Plain)
    (hnuls : diff.changes.map Change.nuls = diff'.changes.map Change.nuls)
    (h : diff.diffText = diff'.diffText) : diff = diff' := by
  refine changes_inj (flatMap_inj_of_counts (fun a b s t ha hb hab => ?_) hplain hplain' hnuls
    (changes_of_diffText h))
  exact change_inj ha hb hab

theorem diffText_inj_of_plain (hplain : ∀ c ∈ diff.changes, c.Plain ∧ ∀ n ∈ c.nuls, n = 0)
    (hplain' : ∀ c ∈ diff'.changes, c.Plain ∧ ∀ n ∈ c.nuls, n = 0)
    (h : diff.diffText = diff'.diffText) : diff = diff' := by
  have hcode : PrefixCode (fun c : Change => c.Plain ∧ ∀ n ∈ c.nuls, n = 0) changeText := by
    intro a b ha hb s t hab
    exact change_inj ha.1 hb.1 (nuls_of_plain ha.2 hb.2 hab) hab
  refine changes_inj (hcode.flatMap_inj (fun c => ?_) hplain hplain' (changes_of_diffText h))
  cases c <;> simp [changeText, part]

theorem plain_changes {base other : HarnessTree} (hbase : base.validate = .ok ())
    (hother : other.validate = .ok ()) : ∀ c ∈ (base.diff other).changes, c.Plain := by
  have hpath : ∀ (tree : HarnessTree) (path : String), tree.validate = .ok () →
      tree.files.get? path ≠ none → Harness.Plain path := by
    intro tree path htree hget
    obtain ⟨content, hcontent⟩ := Option.ne_none_iff_exists'.mp hget
    exact plain_of_validateEntry ((validate_eq_ok.mp htree).entries (path, content)
      (SortedMap.get?_eq_some.mp hcontent))
  have hadded : ∀ file ∈ (base.diff other).added.entries, other.files.get? file.1 ≠ none := by
    intro file hfile hnone
    have hget := SortedMap.get?_eq_some.mpr hfile
    unfold diff at hget
    rw [SortedMap.get?_filterMap, hnone] at hget
    cases hget
  have hmodified : ∀ file ∈ (base.diff other).modified.entries, other.files.get? file.1 ≠ none := by
    intro file hfile hnone
    have hget := SortedMap.get?_eq_some.mpr hfile
    unfold diff at hget
    rw [SortedMap.get?_filterMap, hnone] at hget
    cases hget
  intro c hc
  unfold changes at hc
  rw [mem_append, mem_append] at hc
  rcases hc with hc | hc | hc
  · obtain ⟨file, hfile, rfl⟩ := List.mem_map.mp hc
    exact hpath other file.1 hother (hadded file hfile)
  · obtain ⟨file, hfile, rfl⟩ := List.mem_map.mp hc
    exact hpath other file.1 hother (hmodified file hfile)
  · obtain ⟨path, hpathMem, rfl⟩ := List.mem_map.mp hc
    exact hpath base path hbase (mem_removed.mp hpathMem).1

end HarnessTreeDiff

/-! ### The digests -/

theorem hashArtifact_inj {sha : Sha256} {label : String} {a b : List UInt8} :
    label ++ hashArtifact sha a = label ++ hashArtifact sha b ↔ sha a = sha b := by
  unfold hashArtifact
  constructor
  · intro h
    have hhex := (String.append_right_inj _).mp ((String.append_right_inj _).mp h)
    exact Bytes32.ext_bytes (hex_inj hhex)
  · intro h
    rw [h]

/-- **What the digests bind.** Without a collision of the hash, equal digests mean equal files, or
diffs, exactly if the contents have as many NULs, one by one, where the texts are the same; and so
they do without NULs. -/
theorem digests_bind_iff (sha : Sha256) :
    (∀ tree tree' : HarnessTree, tree.validate = .ok () → tree'.validate = .ok () →
      (sha (asBytes (treeText tree.files)) = sha (asBytes (treeText tree'.files)) →
        treeText tree.files = treeText tree'.files) →
      ((tree.digest sha = tree'.digest sha → tree.files = tree'.files) ↔
        (treeText tree.files = treeText tree'.files →
          contentNuls tree.files = contentNuls tree'.files)) ∧
      ((∀ file ∈ tree.files.entries ++ tree'.files.entries, Plain file.2) →
        tree.digest sha = tree'.digest sha → tree.files = tree'.files)) ∧
    ∀ base other base' other' : HarnessTree, base.validate = .ok () → other.validate = .ok () →
      base'.validate = .ok () → other'.validate = .ok () →
      (sha (asBytes (base.diff other).diffText) = sha (asBytes (base'.diff other').diffText) →
        (base.diff other).diffText = (base'.diff other').diffText) →
      (((base.diff other).digest sha = (base'.diff other').digest sha →
          base.diff other = base'.diff other') ↔
        ((base.diff other).diffText = (base'.diff other').diffText →
          (base.diff other).changes.map Change.nuls =
            (base'.diff other').changes.map Change.nuls)) ∧
      ((∀ c ∈ (base.diff other).changes ++ (base'.diff other').changes, ∀ n ∈ c.nuls, n = 0) →
        (base.diff other).digest sha = (base'.diff other').digest sha →
          base.diff other = base'.diff other') := by
  constructor
  · intro tree tree' htree htree' hsha
    have hpaths : ∀ file ∈ tree.files.entries, Plain file.1 := fun file hfile =>
      plain_of_validateEntry ((validate_eq_ok.mp htree).entries file hfile)
    have hpaths' : ∀ file ∈ tree'.files.entries, Plain file.1 := fun file hfile =>
      plain_of_validateEntry ((validate_eq_ok.mp htree').entries file hfile)
    have hdigest : tree.digest sha = tree'.digest sha ↔
        treeText tree.files = treeText tree'.files :=
      hashArtifact_inj.trans ⟨hsha, fun h => by rw [h]⟩
    rw [hdigest]
    refine ⟨⟨fun hbinds htext => by rw [hbinds htext], fun hnuls htext =>
      treeText_inj hpaths hpaths' (hnuls htext) htext⟩, fun hplain htext => ?_⟩
    rw [List.forall_mem_append] at hplain
    exact treeText_inj_of_plain (fun file hfile => ⟨hpaths file hfile, hplain.1 file hfile⟩)
      (fun file hfile => ⟨hpaths' file hfile, hplain.2 file hfile⟩) htext
  · intro base other base' other' hbase hother hbase' hother' hsha
    have hpaths := HarnessTreeDiff.plain_changes hbase hother
    have hpaths' := HarnessTreeDiff.plain_changes hbase' hother'
    have hdigest : (base.diff other).digest sha = (base'.diff other').digest sha ↔
        (base.diff other).diffText = (base'.diff other').diffText :=
      hashArtifact_inj.trans ⟨hsha, fun h => by rw [h]⟩
    rw [hdigest]
    refine ⟨⟨fun hbinds htext => by rw [hbinds htext], fun hnuls htext =>
      HarnessTreeDiff.diffText_inj hpaths hpaths' (hnuls htext) htext⟩, fun hplain htext => ?_⟩
    rw [List.forall_mem_append] at hplain
    exact HarnessTreeDiff.diffText_inj_of_plain (fun c hc => ⟨hpaths c hc, hplain.1 c hc⟩)
      (fun c hc => ⟨hpaths' c hc, hplain.2 c hc⟩) htext

/-! ### One text of two objects -/

def sampleSha : Sha256 := fun message =>
  if message.length = 46 then
    ⟨[230, 64, 226, 55, 250, 167, 23, 219, 196, 131, 207, 65, 159, 34, 27, 10, 164, 192, 164, 151,
      26, 3, 186, 202, 177, 73, 149, 182, 41, 135, 236, 217], rfl⟩
  else if message.length = 50 then
    ⟨[105, 241, 81, 90, 112, 186, 164, 15, 34, 224, 169, 8, 196, 202, 128, 110, 161, 97, 68, 87, 26,
      87, 65, 44, 30, 52, 171, 36, 248, 7, 131, 44], rfl⟩
  else
    ⟨[166, 186, 254, 229, 243, 229, 150, 132, 118, 18, 218, 146, 116, 85, 98, 193, 45, 11, 6, 89, 6,
      254, 171, 120, 44, 209, 235, 78, 197, 112, 247, 12], rfl⟩

def treeOf (files : List (String × String)) : HarnessTree :=
  ⟨files.foldl (fun map file => map.insert file.1 file.2) SortedMap.empty, SortedMap.empty⟩

def twoFiles : HarnessTree := treeOf [("memory/a", "x"), ("memory/b", "y")]

/-- The second file is in the content of the first. -/
def oneFile : HarnessTree := treeOf [("memory/a", "x\x00memory/b\x00y")]

/-- The addition of the second file is in the content of the first. -/
def oneAddition : HarnessTree := treeOf [("memory/a", "x\x00add\x00memory/b\x00y")]

/-- The second file is put in before the first. -/
def filesSwapped : HarnessTree := treeOf [("memory/b", "y"), ("memory/a", "x")]

theorem digests_bind_sample :
    filesSwapped.digest sampleSha = twoFiles.digest sampleSha ∧
      filesSwapped.files = twoFiles.files := by
  have hbinds := (digests_bind_iff sampleSha).1 filesSwapped twoFiles (by decide) (by decide)
    fun _ => by decide
  exact ⟨by decide, hbinds.1.mpr (fun _ => by decide) (by decide)⟩

theorem digests_collide :
    twoFiles.validate = .ok () ∧ oneFile.validate = .ok () ∧ oneAddition.validate = .ok () ∧
      twoFiles.digest sampleSha = oneFile.digest sampleSha ∧
      twoFiles.files ≠ oneFile.files ∧
      (HarnessTree.new.diff twoFiles).digest sampleSha =
        (HarnessTree.new.diff oneAddition).digest sampleSha ∧
      HarnessTree.new.diff twoFiles ≠ HarnessTree.new.diff oneAddition := by
  have htrees : treeText twoFiles.files = treeText oneFile.files := by decide
  have hdiffs : (new.diff twoFiles).diffText = (new.diff oneAddition).diffText := by decide
  refine ⟨by decide, by decide, by decide, ?_, by decide, ?_, by decide⟩
  · unfold digest
    rw [htrees]
  · unfold HarnessTreeDiff.digest
    rw [hdiffs]

end Pandora.Harness
