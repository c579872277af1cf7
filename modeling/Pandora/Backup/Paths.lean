import Pandora.Backup.Archive

/-! # Paths of a restore

`backup.rs`: a file of the data directory has its path below the directory as its path in the
archive, behind `data/`; the configuration has a path of its own. `restore_target` goes back. A path
is the list of its components, and so two texts of one path are equal. -/

namespace Pandora.Backup.Paths

open Text Lib.Checked Backup.Archive
open List hiding splitAt
open Cron (splitAt)

abbrev Path := List Component

/-- Where the configuration and the data directory are. -/
structure Layout where
  (configPath dataDir : Path)

inductive RestoreTargetError
  | unsupportedTarget
  | escapedDataDirectory
deriving DecidableEq

/-- `Path::strip_prefix`. -/
def stripPrefix (root path : Path) : Option Path :=
  if root.isPrefixOf path then some (path.drop root.length) else none

/-- `Path::join`, with a path that is not empty: an absolute path takes its place. -/
def join (root : Path) (relative : String) : Path :=
  if isAbsolute relative then components relative
  else root ++ (splitAt '/' relative).filterMap segment

def restoreTarget (archivePath : String) (layout : Layout) : Except RestoreTargetError Path :=
  if archivePath = "config/config.json" then .ok layout.configPath
  else match strip "data/" archivePath with
    | none => .error .unsupportedTarget
    | some relative =>
      if relative = "" then .error .unsupportedTarget else .ok (join layout.dataDir relative)

def backupRelativePath (target : Path) (layout : Layout) : Except RestoreTargetError Path :=
  if target = layout.configPath then .ok [.normal "config", .normal "config.json"]
  else match stripPrefix layout.dataDir target with
    | some relative => .ok (.normal "data" :: relative)
    | none => .error .escapedDataDirectory

def componentText : Component → String
  | .rootDir => "/"
  | .curDir => "."
  | .parentDir => ".."
  | .normal name => name

/-- The components of a relative path with slashes between them. -/
def pathText (path : Path) : String := "/".intercalate (path.map componentText)

/-- `str::replace` of a backslash by a slash. -/
def forwardSlashes (text : String) : String :=
  .ofList (text.toList.map fun c => if c = '\\' then '/' else c)

def portableRelativePath (path : Path) : String := forwardSlashes (pathText path)

/-! ## Sidecars -/

inductive Suffix
  | wal
  | shm
  | journal
deriving DecidableEq

def Suffix.all : List Suffix := [.wal, .shm, .journal]

def Suffix.text : Suffix → String
  | .wal => "wal"
  | .shm => "shm"
  | .journal => "journal"

/-- The text of the last component, with a hyphen and the suffix. -/
def restoreSidecarPath (target : Path) (suffix : Suffix) : Path :=
  match target.getLast? with
  | none => [.normal ("-" ++ suffix.text)]
  | some .rootDir => target ++ [.normal ("-" ++ suffix.text)]
  | some last => target.dropLast ++ [.normal (componentText last ++ "-" ++ suffix.text)]

/-! ### A path and its text -/

/-- A name as `components` finds them. -/
def IsName (name : String) : Prop := name ≠ "" ∧ name ≠ "." ∧ name ≠ ".." ∧ '/' ∉ name.toList

instance (name : String) : Decidable (IsName name) := inferInstanceAs (Decidable (_ ∧ _))

def Named (path : Path) : Prop := ∀ c ∈ path, ∃ name, c = .normal name ∧ IsName name

theorem mem_of_mem_splitOn {α : Type} [DecidableEq α] {a c : α} {xs part : List α}
    (h : part ∈ xs.splitOn a) (hc : c ∈ part) : c ∈ xs ∧ c ≠ a := by
  induction xs generalizing part with
  | nil =>
    rw [splitOn_nil, mem_singleton] at h
    subst h
    exact absurd hc not_mem_nil
  | cons x xs ih =>
    rw [splitOn_cons_eq_if_modifyHead] at h
    split_ifs at h with hx
    · rcases List.mem_cons.mp h with rfl | hrest
      · exact absurd hc not_mem_nil
      · exact (ih hrest hc).imp_left (mem_cons_of_mem x)
    · obtain ⟨first, rest, hsplit⟩ := exists_cons_of_ne_nil (splitOn_ne_nil a xs)
      rw [hsplit, modifyHead_cons] at h
      rcases List.mem_cons.mp h with rfl | hrest
      · rcases List.mem_cons.mp hc with rfl | hfirst
        · exact ⟨mem_cons_self, by simpa using hx⟩
        · exact (ih (hsplit ▸ mem_cons_self) hfirst).imp_left (mem_cons_of_mem x)
      · exact (ih (hsplit ▸ mem_cons_of_mem _ hrest) hc).imp_left (mem_cons_of_mem x)

variable {text name : String}

theorem isName_of_segment (hslash : '/' ∉ text.toList)
    (h : segment text = some (.normal name)) : IsName name := by
  unfold Archive.segment at h
  split_ifs at h with hempty hup
  · cases h
  rw [Option.some.injEq, Component.normal.injEq] at h
  subst h
  rw [not_or] at hempty
  exact ⟨hempty.1, hempty.2, hup, hslash⟩

/-- The components below a directory that a text stands for. -/
def segments (text : String) : Path := (splitAt '/' text).filterMap segment

theorem mem_segments (h : .normal name ∈ segments text) :
    IsName name ∧ ∀ c ∈ name.toList, c ∈ text.toList := by
  unfold segments at h
  rw [mem_filterMap] at h
  obtain ⟨part, hpart, hsegment⟩ := h
  unfold splitAt at hpart
  rw [mem_map] at hpart
  obtain ⟨cs, hcs, rfl⟩ := hpart
  have hname : String.ofList cs = name := by
    unfold Archive.segment at hsegment
    split_ifs at hsegment
    · cases hsegment
    · rwa [Option.some.injEq, Component.normal.injEq] at hsegment
  refine ⟨isName_of_segment ?_ hsegment, ?_⟩
  · rw [String.toList_ofList]
    intro hslash
    exact (mem_of_mem_splitOn hcs hslash).2 rfl
  · rw [← hname, String.toList_ofList]
    intro c hc
    exact (mem_of_mem_splitOn hcs hc).1

theorem segment_name (h : IsName name) : segment name = some (.normal name) := by
  unfold Archive.segment
  rw [if_neg (not_or.mpr ⟨h.1, h.2.1⟩), if_neg h.2.2.1]

theorem splitAt_intercalate {names : List String} (hne : names ≠ [])
    (h : ∀ name ∈ names, '/' ∉ name.toList) : splitAt '/' ("/".intercalate names) = names := by
  have hparts : ∀ part ∈ names.map String.toList, '/' ∉ part := by
    intro part hpart
    rw [mem_map] at hpart
    obtain ⟨name, hname, rfl⟩ := hpart
    exact h name hname
  have hslash : ("/" : String).toList = ['/'] := by decide
  unfold splitAt
  rw [String.toList_intercalate, hslash,
    splitOn_intercalate '/' hparts (by simpa using hne), map_map]
  exact map_id'' (fun name => String.ofList_toList) names

variable {path : Path}

theorem text_isName (h : Named path)
    (hname : name ∈ path.map componentText) : IsName name ∧ .normal name ∈ path := by
  rw [mem_map] at hname
  obtain ⟨c, hc, rfl⟩ := hname
  obtain ⟨name, rfl, hvalid⟩ := h c hc
  exact ⟨hvalid, hc⟩

theorem segments_pathText (h : Named path) :
    segments (pathText path) = path := by
  by_cases hne : path = []
  · subst hne
    decide
  · unfold segments pathText
    rw [splitAt_intercalate (by simpa using hne) fun name hname => (text_isName h hname).1.2.2.2,
      filterMap_map]
    have hcongr : ∀ c ∈ path, (segment ∘ componentText) c = some c := by
      intro c hc
      obtain ⟨name, rfl, hvalid⟩ := h c hc
      exact segment_name hvalid
    rw [filterMap_congr hcongr, filterMap_some]

theorem pathText_inj {p q : Path} (hp : Named p) (hq : Named q) (h : pathText p = pathText q) :
    p = q := by
  rw [← segments_pathText hp, h, segments_pathText hq]

/-! ### The target of an entry -/

theorem strip_eq_some {front rest : String} (h : strip front text = some rest) :
    text = front ++ rest := by
  unfold strip at h
  split_ifs at h with hfront
  rw [Option.some.injEq] at h
  subst h
  rw [← String.toList_inj, String.toList_append, String.toList_ofList]
  exact (List.prefix_iff_eq_append.mp (List.isPrefixOf_iff_prefix.mp hfront)).symm

theorem segments_data (relative : String) :
    segments ("data/" ++ relative) = .normal "data" :: segments relative := by
  have hdata : ("data/" : String).toList = ("data" : String).toList ++ ['/'] := by decide
  have hslash : '/' ∉ ("data" : String).toList := by decide
  unfold segments splitAt
  rw [String.toList_append, hdata, append_assoc, singleton_append,
    splitOn_append_cons_self_of_not_mem hslash, map_cons, String.ofList_toList,
    filterMap_cons_some (by decide : segment "data" = some (.normal "data"))]

theorem named_segments {path relative : String} (h : validatePath path = .ok ())
    (hstrip : strip "data/" path = some relative) : Named (segments relative) := by
  unfold validatePath at h
  rw [ensure_eq_ok] at h
  have hnormal : ∀ c ∈ segments path, c.isNormal = true := by
    intro c hc
    refine List.all_eq_true.mp h.2.2.2.2 c ?_
    exact mem_append_right _ hc
  rw [strip_eq_some hstrip, segments_data] at hnormal
  intro c hc
  have hc' := hnormal c (mem_cons_of_mem _ hc)
  rcases c with _ | _ | _ | name
  · cases hc'
  · cases hc'
  · cases hc'
  · exact ⟨name, rfl, (mem_segments hc).1⟩

theorem no_backslash_segments {path relative : String} (h : '\\' ∉ path.toList)
    (hstrip : strip "data/" path = some relative) (hname : .normal name ∈ segments relative) :
    '\\' ∉ name.toList := by
  intro hmem
  have hrelative := (mem_segments hname).2 _ hmem
  rw [strip_eq_some hstrip, String.toList_append] at h
  exact h (mem_append_right _ hrelative)

theorem stripPrefix_eq_some {root rest : Path} (h : stripPrefix root path = some rest) :
    path = root ++ rest := by
  unfold stripPrefix at h
  split_ifs at h with hroot
  rw [Option.some.injEq] at h
  subst h
  exact (List.prefix_iff_eq_append.mp (List.isPrefixOf_iff_prefix.mp hroot)).symm

/-- What is below the data directory in a target is part of what the entry names, unless it starts
at the root. -/
theorem mem_segments_of_join {root rest : Path} {relative : String} {c : Component}
    (h : join root relative = root ++ rest) (hroot : rest.head? ≠ some .rootDir) (hc : c ∈ rest) :
    c ∈ segments relative := by
  unfold join at h
  split_ifs at h with habsolute
  · unfold components at h
    dsimp only at h
    rw [habsolute, if_pos rfl] at h
    rcases root with _ | ⟨first, root⟩
    · rw [nil_append] at h
      rw [← h] at hroot
      exact absurd rfl hroot
    · have hrest : segments relative = root ++ rest := (List.cons_eq_cons.mp h).2
      rw [hrest]
      exact mem_append_right root hc
  · rw [append_cancel_left_eq] at h
    subst h
    exact hc

theorem forwardSlashes_eq_self (h : '\\' ∉ text.toList) :
    forwardSlashes text = text := by
  have hmap : ∀ c ∈ text.toList, (if c = '\\' then '/' else c) = c := by
    intro c hc
    rw [if_neg]
    rintro rfl
    exact h hc
  unfold forwardSlashes
  rw [map_congr_left hmap, map_id', String.ofList_toList]

theorem no_backslash_pathText (h : Named path)
    (hnames : ∀ name, .normal name ∈ path → '\\' ∉ name.toList) :
    '\\' ∉ (pathText path).toList := by
  have hslash : ("/" : String).toList = ['/'] := by decide
  induction path with
  | nil => decide
  | cons c rest ih =>
    obtain ⟨name, rfl, -⟩ := h c mem_cons_self
    have hname := hnames name mem_cons_self
    have hrest := ih (fun c hc => h c (mem_cons_of_mem _ hc))
      fun name hc => hnames name (mem_cons_of_mem _ hc)
    unfold pathText at hrest ⊢
    rw [map_cons]
    by_cases hnil : rest.map componentText = []
    · rw [hnil, String.intercalate_singleton]
      exact hname
    · rw [String.intercalate_cons_of_ne_nil hnil, String.toList_append, String.toList_append,
        hslash]
      simp only [mem_append, mem_singleton, not_or]
      exact ⟨⟨hname, by decide⟩, hrest⟩

/-! ### Sidecars of a named path -/

theorem sidecar_snoc (path : Path) (name : String) (suffix : Suffix) :
    restoreSidecarPath (path ++ [.normal name]) suffix =
      path ++ [.normal (name ++ "-" ++ suffix.text)] := by
  unfold restoreSidecarPath
  rw [List.getLast?_append]
  simp [componentText]

theorem exists_last (h : Named path) (hne : path ≠ []) :
    ∃ front name, path = front ++ [.normal name] ∧ IsName name := by
  obtain ⟨name, hlast, hvalid⟩ := h _ (getLast_mem hne)
  refine ⟨path.dropLast, name, ?_, hvalid⟩
  rw [← hlast]
  exact (dropLast_append_getLast hne).symm

theorem sidecar_append (h : Named path) (hne : path ≠ []) (root : Path) (suffix : Suffix) :
    restoreSidecarPath (root ++ path) suffix = root ++ restoreSidecarPath path suffix := by
  obtain ⟨front, name, rfl, -⟩ := exists_last h hne
  rw [← append_assoc, sidecar_snoc, sidecar_snoc, append_assoc]

theorem isName_sidecar (h : IsName name) (suffix : Suffix) :
    IsName (name ++ "-" ++ suffix.text) := by
  have hlength : 5 ≤ (name ++ "-" ++ suffix.text).toList.length := by
    have hone : 1 ≤ name.toList.length := by
      refine List.length_pos_iff.mpr fun hnil => ?_
      exact h.1 (String.toList_eq_nil_iff.mp hnil)
    have hhyphen : ("-" : String).toList.length = 1 := by decide
    have htext : 3 ≤ suffix.text.toList.length := by cases suffix <;> decide
    rw [String.toList_append, String.toList_append, length_append, length_append]
    omega
  refine ⟨?_, ?_, ?_, ?_⟩
  · intro hempty
    rw [hempty] at hlength
    exact absurd hlength (by decide)
  · intro hdot
    rw [hdot] at hlength
    exact absurd hlength (by decide)
  · intro hdots
    rw [hdots] at hlength
    exact absurd hlength (by decide)
  · have hsuffix : '/' ∉ suffix.text.toList := by cases suffix <;> decide
    have hhyphen : '/' ∉ ("-" : String).toList := by decide
    rw [String.toList_append, String.toList_append, mem_append, mem_append]
    rintro ((hname | hmem) | hmem)
    · exact h.2.2.2 hname
    · exact hhyphen hmem
    · exact hsuffix hmem

theorem named_append {p q : Path} : Named (p ++ q) ↔ Named p ∧ Named q :=
  forall_mem_append

theorem named_singleton (h : IsName name) : Named [.normal name] := by
  intro c hc
  rw [mem_singleton] at hc
  exact ⟨name, hc, h⟩

theorem named_sidecar (h : Named path) (hne : path ≠ []) (suffix : Suffix) :
    Named (restoreSidecarPath path suffix) := by
  obtain ⟨front, name, rfl, hvalid⟩ := exists_last h hne
  rw [sidecar_snoc]
  exact named_append.mpr ⟨(named_append.mp h).1, named_singleton (isName_sidecar hvalid suffix)⟩

theorem intercalate_snoc (front : List String) (last extra : String) :
    "/".intercalate (front ++ [last ++ extra]) = "/".intercalate (front ++ [last]) ++ extra := by
  induction front with
  | nil => simp
  | cons name front ih =>
    rw [cons_append, cons_append, String.intercalate_cons_of_ne_nil (by simp), ih,
      String.intercalate_cons_of_ne_nil (by simp), String.append_assoc, String.append_assoc,
      String.append_assoc]

theorem pathText_sidecar (h : Named path) (hne : path ≠ []) (suffix : Suffix) :
    pathText (restoreSidecarPath path suffix) = pathText path ++ "-" ++ suffix.text := by
  obtain ⟨front, name, rfl, -⟩ := exists_last h hne
  rw [sidecar_snoc]
  unfold pathText
  rw [map_append, map_append, map_singleton, map_singleton]
  show "/".intercalate (_ ++ [name ++ "-" ++ suffix.text]) = _ ++ "-" ++ suffix.text
  rw [String.append_assoc, intercalate_snoc, String.append_assoc]
  rfl

end Pandora.Backup.Paths
