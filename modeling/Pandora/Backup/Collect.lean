import Pandora.Backup.Paths

/-! # What a backup collects

`collect_entries` walks through the data directory. A name on disk is a sequence of bytes; in the
archive it is a text, with a slash for each backslash. -/

namespace Pandora.Backup.Collect

open Text Lib.Checked Backup.Archive Backup.Paths List

/-! ## Names -/

/-- A file's name, on Unix: bytes other than a slash and zero. -/
structure FileName where
  bytes : List UInt8
  valid : bytes ≠ [] ∧ bytes ≠ [46] ∧ bytes ≠ [46, 46] ∧ 47 ∉ bytes ∧ 0 ∉ bytes
deriving DecidableEq

/-- `OsStr::to_str`. -/
def FileName.toStr (name : FileName) : Option String := String.fromUTF8? ⟨⟨name.bytes⟩⟩

/-- Whether the second byte can follow the first in UTF-8, for a character of three bytes. -/
def secondOfThree (first second : UInt8) : Bool :=
  (first = 0xE0 ∧ 0xA0 ≤ second ∧ second ≤ 0xBF) ∨
    (0xE1 ≤ first ∧ first ≤ 0xEC ∧ 0x80 ≤ second ∧ second ≤ 0xBF) ∨
    (first = 0xED ∧ 0x80 ≤ second ∧ second ≤ 0x9F) ∨
    (0xEE ≤ first ∧ first ≤ 0xEF ∧ 0x80 ≤ second ∧ second ≤ 0xBF)

/-- The same for a character of four bytes. -/
def secondOfFour (first second : UInt8) : Bool :=
  (first = 0xF0 ∧ 0x90 ≤ second ∧ second ≤ 0xBF) ∨
    (0xF1 ≤ first ∧ first ≤ 0xF3 ∧ 0x80 ≤ second ∧ second ≤ 0xBF) ∨
    (first = 0xF4 ∧ 0x80 ≤ second ∧ second ≤ 0x8F)

def isContinuation (byte : UInt8) : Bool := 0x80 ≤ byte ∧ byte ≤ 0xBF

/-- How many bytes of a malformed sequence one replacement character stands for. -/
def malformedLength : List UInt8 → ℕ
  | first :: second :: rest =>
    if secondOfThree first second then 2
    else if secondOfFour first second then
      if (rest.head?.map isContinuation).getD false then 3 else 2
    else 1
  | _ => 1

/-- The characters of the bytes; `fuel` is their number. -/
def lossyChars : ℕ → List UInt8 → List Char
  | 0, _ => []
  | _, [] => []
  | fuel + 1, bytes =>
    match ByteArray.utf8DecodeChar? ⟨⟨bytes⟩⟩ 0 with
    | some c => c :: lossyChars fuel (bytes.drop c.utf8Size)
    | none => Char.ofNat 0xFFFD :: lossyChars fuel (bytes.drop (malformedLength bytes))

/-- `to_string_lossy`. -/
def toStringLossy (bytes : List UInt8) : String := .ofList (lossyChars bytes.length bytes)

/-! ## The data directory -/

/-- What `read_dir` finds in a directory, in the order of the names. -/
inductive Listing
  | done
  | file (name : FileName) (bytes : List UInt8) (rest : Listing)
  | directory (name : FileName) (inside rest : Listing)
  | symlink (name : FileName) (rest : Listing)
  | special (name : FileName) (rest : Listing)

def Listing.names : Listing → List FileName
  | .done => []
  | .file name _ rest | .directory name _ rest | .symlink name rest | .special name rest =>
    name :: rest.names

/-- Each directory has its names in order, and each once. -/
def Listing.Ordered : Listing → Prop
  | .done => True
  | .file name _ rest | .symlink name rest | .special name rest =>
    (∀ other ∈ rest.names, name.bytes < other.bytes) ∧ rest.Ordered
  | .directory name inside rest =>
    (∀ other ∈ rest.names, name.bytes < other.bytes) ∧ inside.Ordered ∧ rest.Ordered

instance Listing.decidableOrdered : (listing : Listing) → Decidable listing.Ordered
  | .done => .isTrue trivial
  | .file _ _ rest | .symlink _ rest | .special _ rest =>
    let _ := rest.decidableOrdered
    inferInstanceAs (Decidable (_ ∧ _))
  | .directory _ inside rest =>
    let _ := inside.decidableOrdered
    let _ := rest.decidableOrdered
    inferInstanceAs (Decidable (_ ∧ _ ∧ _))

/-- The path below the data directory, as `read_dir` gives it. -/
abbrev Below := List FileName

def pathBytes : Below → List UInt8
  | [] => []
  | [name] => name.bytes
  | name :: rest => name.bytes ++ 47 :: pathBytes rest

inductive BackupError
  | symbolicLink (path : Below)
  | snapshot
  | archive (error : RecoveryArchiveError)
  | noState
deriving DecidableEq

def endsWith (text ending : String) : Bool := ending.toList.isSuffixOf text.toList

def isSqliteSidecar (name : FileName) : Bool :=
  match name.toStr with
  | none => false
  | some text => endsWith text "-wal" || endsWith text "-shm" || endsWith text "-journal"

/-- The first component of a path that is left out. -/
def isLeftOut (path : Below) : Bool :=
  match path.head? with
  | none => false
  | some name =>
    name.toStr = some "operations" || name.toStr = some "updates" || name.toStr = some "recovery"

/-- `output` is where the archive goes, if that is below the data directory. -/
def passesOver (output : Option Below) (path : Below) (name : FileName) : Bool :=
  output = some path || isSqliteSidecar name

def archivePath (path : Below) : String :=
  "data/" ++ forwardSlashes (toStringLossy (pathBytes path))

/-- A file and what is read from it. -/
structure SourceFile where
  path : Below
  bytes : List UInt8

def collectDataFiles (output : Option Below) (here : Below) :
    Listing → Except BackupError (List (String × SourceFile))
  | .done => .ok []
  | .file name bytes rest =>
    if passesOver output (here ++ [name]) name || isLeftOut (here ++ [name]) then
      collectDataFiles output here rest
    else do
      let files ← collectDataFiles output here rest
      pure ((archivePath (here ++ [name]), ⟨here ++ [name], bytes⟩) :: files)
  | .directory name inside rest =>
    if passesOver output (here ++ [name]) name || isLeftOut (here ++ [name]) then
      collectDataFiles output here rest
    else do
      let found ← collectDataFiles output (here ++ [name]) inside
      let files ← collectDataFiles output here rest
      pure (found ++ files)
  | .symlink name rest =>
    if passesOver output (here ++ [name]) name then collectDataFiles output here rest
    else .error (.symbolicLink (here ++ [name]))
  | .special _ rest => collectDataFiles output here rest

/-! ## Entries -/

/-- `sqlite_snapshot_bytes`, which may fail; what it copies is the database. -/
structure Snapshots where
  take : List UInt8 → Option (List UInt8)
  faithful : ∀ bytes copy, take bytes = some copy → copy = bytes

/-- `extension() == Some("sqlite3")`. -/
def isDatabase (name : List UInt8) : Bool :=
  (asBytes ".sqlite3").isSuffixOf name && 8 < name.length

def readSource (snapshots : Snapshots) (name bytes : List UInt8) :
    Except BackupError (List UInt8) :=
  if isDatabase name then orError (snapshots.take bytes) .snapshot else .ok bytes

/-- What is on disk: the configuration, if it is a file, and the data directory, if there is one. -/
structure Home where
  layout : Layout
  config : Option (List UInt8)
  data : Option Listing
  ordered : ∀ listing, data = some listing → listing.Ordered

def configName (layout : Layout) : List UInt8 :=
  match layout.configPath.getLast? with
  | some component => asBytes (componentText component)
  | none => []

/-- The archive path of a file, the last part of its own path and its bytes. -/
structure Collected where
  archivePath : String
  (name bytes : List UInt8)

def collectConfig (home : Home) : List Collected :=
  match home.config with
  | some bytes => [⟨"config/config.json", configName home.layout, bytes⟩]
  | none => []

def lastName (path : Below) : List UInt8 := (path.getLast?.map FileName.bytes).getD []

def collectFiles (home : Home) (output : Option Below) : Except BackupError (List Collected) :=
  match home.data with
  | none => .ok (collectConfig home)
  | some listing => do
    let files ← collectDataFiles output [] listing
    pure (collectConfig home ++ files.map fun file => ⟨file.1, lastName file.2.path, file.2.bytes⟩)

def entryOf (snapshots : Snapshots) (file : Collected) : Except BackupError RecoveryEntry := do
  let bytes ← readSource snapshots file.name file.bytes
  (RecoveryEntry.new file.archivePath bytes).mapError .archive

def collectEntries (snapshots : Snapshots) (home : Home) (output : Option Below) :
    Except BackupError (List RecoveryEntry) := do
  let files ← collectFiles home output
  (files.insertionSort fun left right => left.archivePath ≤ right.archivePath).mapM
    (entryOf snapshots)

/-- The entries of the archive that `create` seals. -/
def create (snapshots : Snapshots) (home : Home) (output : Option Below) :
    Except BackupError (List RecoveryEntry) := do
  let entries ← collectEntries snapshots home output
  ensure (entries ≠ []) .noState
  (validateEntries entries).mapError .archive
  pure entries

/-! ### No archive path has a backslash -/

theorem no_backslash_forwardSlashes (text : String) : '\\' ∉ (forwardSlashes text).toList := by
  unfold forwardSlashes
  rw [String.toList_ofList, mem_map]
  rintro ⟨c, -, hc⟩
  split_ifs at hc with hback
  · exact absurd hc (by decide)
  · exact hback hc

theorem no_backslash_archivePath (path : Below) : '\\' ∉ (archivePath path).toList := by
  have hdata : '\\' ∉ ("data/" : String).toList := by decide
  unfold archivePath
  rw [String.toList_append, mem_append]
  rintro (hmem | hmem)
  · exact hdata hmem
  · exact no_backslash_forwardSlashes _ hmem

theorem recoveryEntry_eq_ok {path : String} {bytes : List UInt8} {entry : RecoveryEntry}
    (h : RecoveryEntry.new path bytes = .ok entry) : entry.path = path ∧ entry.bytes = bytes := by
  unfold RecoveryEntry.new at h
  split at h
  · cases h
  · split_ifs at h
    rw [Except.ok.injEq] at h
    subst h
    exact ⟨rfl, rfl⟩

variable {snapshots : Snapshots}

theorem readSource_eq_ok {name bytes read : List UInt8}
    (h : readSource snapshots name bytes = .ok read) : read = bytes := by
  unfold readSource at h
  split_ifs at h
  · exact snapshots.faithful bytes read (orError_eq_ok.mp h)
  · rw [Except.ok.injEq] at h
    exact h.symm

theorem entryOf_eq_ok {file : Collected} {entry : RecoveryEntry}
    (h : entryOf snapshots file = .ok entry) :
    entry.path = file.archivePath ∧ entry.bytes = file.bytes := by
  unfold entryOf at h
  rw [bind_eq_ok] at h
  obtain ⟨bytes, hread, hentry⟩ := h
  rw [mapError_eq_ok] at hentry
  rw [← readSource_eq_ok hread]
  exact recoveryEntry_eq_ok hentry

variable {entries : List RecoveryEntry}

theorem entries_of_mapM {files : List Collected}
    (h : files.mapM (entryOf snapshots) = .ok entries) :
    entries.map (fun entry => (entry.path, entry.bytes)) =
      files.map fun file => (file.archivePath, file.bytes) := by
  induction files generalizing entries with
  | nil =>
    rw [mapM_nil, pure_eq_ok] at h
    subst h
    rfl
  | cons file files ih =>
    simp only [mapM_cons, bind_eq_ok, pure_eq_ok] at h
    obtain ⟨entry, hentry, rest, hrest, rfl⟩ := h
    rw [map_cons, map_cons, ih hrest, (entryOf_eq_ok hentry).1, (entryOf_eq_ok hentry).2]

variable {output : Option Below}

theorem archivePath_of_mem {listing : Listing} :
    ∀ {here : Below} {files : List (String × SourceFile)},
      collectDataFiles output here listing = .ok files →
      ∀ file ∈ files, file.1 = archivePath file.2.path := by
  induction listing with
  | done =>
    intro here files h
    unfold collectDataFiles at h
    rw [Except.ok.injEq] at h
    subst h
    exact forall_mem_nil _
  | file name bytes rest ih =>
    intro here files h
    unfold collectDataFiles at h
    split_ifs at h
    · exact ih h
    · simp only [bind_eq_ok, pure_eq_ok] at h
      obtain ⟨others, hothers, rfl⟩ := h
      exact List.forall_mem_cons.mpr ⟨rfl, ih hothers⟩
  | directory name inside rest ihinside ihrest =>
    intro here files h
    unfold collectDataFiles at h
    split_ifs at h
    · exact ihrest h
    · simp only [bind_eq_ok, pure_eq_ok] at h
      obtain ⟨found, hfound, others, hothers, rfl⟩ := h
      exact List.forall_mem_append.mpr ⟨ihinside hfound, ihrest hothers⟩
  | symlink name rest ih =>
    intro here files h
    unfold collectDataFiles at h
    split_ifs at h
    exact ih h
  | special name rest ih =>
    intro here files h
    exact ih h

variable {home : Home}

theorem mem_collectFiles {files : List Collected}
    (h : collectFiles home output = .ok files) {file : Collected} (hfile : file ∈ files) :
    file.archivePath = "config/config.json" ∨ ∃ path, file.archivePath = archivePath path := by
  have hconfig : ∀ file ∈ collectConfig home, file.archivePath = "config/config.json" := by
    intro file hmem
    unfold collectConfig at hmem
    split at hmem
    · rw [mem_singleton] at hmem
      rw [hmem]
    · exact absurd hmem not_mem_nil
  unfold collectFiles at h
  split at h
  · rw [Except.ok.injEq] at h
    subst h
    exact .inl (hconfig file hfile)
  · simp only [bind_eq_ok, pure_eq_ok] at h
    obtain ⟨found, hfound, rfl⟩ := h
    rcases List.mem_append.mp hfile with hmem | hmem
    · exact .inl (hconfig file hmem)
    · rw [mem_map] at hmem
      obtain ⟨source, hsource, rfl⟩ := hmem
      exact .inr ⟨source.2.path, archivePath_of_mem hfound source hsource⟩

theorem collectEntries_eq_ok (h : collectEntries snapshots home output = .ok entries) :
    ∃ files, collectFiles home output = .ok files ∧
      (entries.map fun entry => (entry.path, entry.bytes)).Perm
        (files.map fun file => (file.archivePath, file.bytes)) := by
  unfold collectEntries at h
  rw [bind_eq_ok] at h
  obtain ⟨files, hfiles, hentries⟩ := h
  refine ⟨files, hfiles, ?_⟩
  rw [entries_of_mapM hentries]
  exact (perm_insertionSort _ files).map _

theorem create_eq_ok :
    create snapshots home output = .ok entries ↔
      collectEntries snapshots home output = .ok entries ∧ entries ≠ [] ∧
        validateEntries entries = .ok () := by
  unfold create
  simp only [bind_eq_ok, ensure_eq_ok, mapError_eq_ok, pure_eq_ok]
  constructor
  · rintro ⟨_, hcollect, -, hne, ⟨⟩, hvalid, rfl⟩
    exact ⟨hcollect, hne, hvalid⟩
  · rintro ⟨hcollect, hne, hvalid⟩
    exact ⟨entries, hcollect, (), hne, (), hvalid, rfl⟩

theorem no_backslash_of_create (h : create snapshots home output = .ok entries) :
    ∀ entry ∈ entries, '\\' ∉ entry.path.toList := by
  obtain ⟨files, hfiles, hperm⟩ := collectEntries_eq_ok (create_eq_ok.mp h).1
  intro entry hentry
  have hmem : (entry.path, entry.bytes) ∈ files.map fun file => (file.archivePath, file.bytes) :=
    hperm.subset (mem_map_of_mem hentry)
  rw [mem_map] at hmem
  obtain ⟨file, hfile, heq⟩ := hmem
  rw [← (Prod.mk.inj heq).1]
  rcases mem_collectFiles hfiles hfile with hpath | ⟨path, hpath⟩
  · rw [hpath]
    decide
  · rw [hpath]
    exact no_backslash_archivePath path

end Pandora.Backup.Collect
