import Pandora.Backup.Journal
import Pandora.Lib.Triples

/-! # Restoring an archive

`restore` of `backup.rs` as the operations on files it consists of: the entries are staged, the
originals copied, the journal written, and then each target is written; after an error what was
written is rolled back. Each operation is named (`Op`), and `faults` says what becomes of it. A
crash at an operation ends the run there, so the states in which runs end are the states at all
moments.

The recovery directory is named by the clock and the process; its files are kept apart here. -/

namespace Pandora.Backup.Restore

open Backup.Archive Backup.Paths Backup.Journal

/-! ## The disk -/

inductive Stored
  | file (bytes : List UInt8)
  | other
deriving DecidableEq

/-- The files outside the recovery directory of this restore, those in it, its journal, and the
journals of earlier restores. -/
structure Disk where
  live : Path → Option Stored
  recovery : String → Option Stored
  journal : Option RestoreJournal
  past : List RestoreJournal

def Disk.putLive (path : Path) (stored : Option Stored) (disk : Disk) : Disk :=
  { disk with live := fun other => if other = path then stored else disk.live other }

def Disk.putRecovery (key : String) (bytes : List UInt8) (disk : Disk) : Disk :=
  { disk with recovery := fun other =>
      if other = key then some (.file bytes) else disk.recovery other }

def Disk.putJournal (journal : RestoreJournal) (disk : Disk) : Disk :=
  { disk with journal := some journal }

/-- Before the restore: the recovery directory is new. -/
def Disk.start (live : Path → Option Stored) (past : List RestoreJournal) : Disk where
  live := live
  recovery := fun _ => none
  journal := none
  past := past

inductive RestoreError
  | io
  | target (error : RestoreTargetError)
  | unsafeTarget (path : Path)
  | unsafeSidecar (path : Path)
  | incompleteRestore (transactionId : String) (state : RestoreJournalState)
  | journal (error : RestoreJournalError)
  | restoreFailed (error : RestoreError) (rollbackError : Option RestoreError)
      (journalUpdated : Bool)

/-- A run that does not come to its end: `restore` returns an error, or the process is gone. -/
inductive Stop
  | failed (error : RestoreError)
  | crashed

abbrev RestoreM := EStateM Stop Disk

/-! ## Operations -/

/-- The operations of a restore; a number is that of the entry. -/
inductive Op
  | probe
  | check (i : ℕ)
  | stage (i : ℕ)
  | isFile (i : ℕ)
  | copyOriginal (i : ℕ)
  | sidecarMetadata (i : ℕ) (suffix : Suffix)
  | copySidecar (i : ℕ) (suffix : Suffix)
  | createJournal
  | setApplying
  | removalMetadata (i : ℕ) (suffix : Suffix)
  | removeSidecar (i : ℕ) (suffix : Suffix)
  | writeTarget (i : ℕ)
  | markApplied (i : ℕ)
  | setCompleted
  | setRollingBack
  | undoCopy (i : ℕ)
  | undoExists (i : ℕ)
  | undoRemove (i : ℕ)
  | undoSidecarCopy (i : ℕ) (suffix : Suffix)
  | undoSidecarExists (i : ℕ) (suffix : Suffix)
  | undoSidecarRemove (i : ℕ) (suffix : Suffix)
  | setOutcome
deriving DecidableEq

/-- What an operation that did not succeed has done: nothing, all of it, or a copy was broken off
and left these bytes. -/
inductive Left
  | untouched
  | complete
  | torn (bytes : List UInt8)

/-- Whether an operation succeeds, fails or is the last. -/
inductive Fate
  | success
  | failure (left : Left)
  | crash (left : Left)

abbrev Faults := Op → Fate

def Left.effect (done : Disk → Disk) (torn : List UInt8 → Disk → Disk) : Left → Disk → Disk
  | .untouched => id
  | .complete => done
  | .torn bytes => torn bytes

/-- An operation that changes the disk. -/
def perform (fate : Fate) (error : RestoreError) (done : Disk → Disk)
    (torn : List UInt8 → Disk → Disk) : RestoreM Unit :=
  match fate with
  | .success => modify done
  | .failure left => do
    modify (left.effect done torn)
    throw (.failed error)
  | .crash left => do
    modify (left.effect done torn)
    throw .crashed

/-- `Path::is_file` and `Path::exists`: false also if it cannot be found out. -/
def query (fate : Fate) (answer : Disk → Bool) : RestoreM Bool :=
  match fate with
  | .success => do
    let disk ← get
    pure (answer disk)
  | .failure _ => pure false
  | .crash _ => throw .crashed

def fail {α : Type} (error : RestoreError) : RestoreM α := throw (.failed error)

def liftResult {ε α : Type} (wrap : ε → RestoreError) : Except ε α → RestoreM α
  | .ok a => pure a
  | .error error => fail (wrap error)

/-- The error of a computation as a value; a crash remains one. -/
def attempt {α : Type} (m : RestoreM α) : RestoreM (Except RestoreError α) := fun disk =>
  match m disk with
  | .ok a disk => .ok (.ok a) disk
  | .error (.failed error) disk => .ok (.error error) disk
  | .error .crashed disk => .error .crashed disk

/-- `fs::copy` into the recovery directory. -/
def copyOut (fate : Fate) (source : Path) (backup : String) : RestoreM Unit := do
  let disk ← get
  match disk.live source with
  | some (.file bytes) =>
    perform fate .io (Disk.putRecovery backup bytes) fun part => Disk.putRecovery backup part
  | _ => fail .io

/-- `fs::copy` out of the recovery directory. -/
def copyBack (fate : Fate) (backup : String) (target : Path) : RestoreM Unit := do
  let disk ← get
  match disk.recovery backup with
  | some (.file bytes) =>
    perform fate .io (Disk.putLive target (some (.file bytes))) fun part =>
      Disk.putLive target (some (.file part))
  | _ => fail .io

def removeFile (fate : Fate) (path : Path) : RestoreM Unit :=
  perform fate .io (Disk.putLive path none) fun _ => id

def existingSidecarMetadata (fate : Fate) (path : Path) : RestoreM (Option Stored) :=
  match fate with
  | .success => do
    let disk ← get
    pure (disk.live path)
  | .failure _ => fail .io
  | .crash _ => throw .crashed

def rejectUnsafeTarget (path : Path) : RestoreM Unit := do
  let disk ← get
  match disk.live path with
  | some .other => fail (.unsafeTarget path)
  | _ => pure ()

/-- `write_private_atomic`, of a target. -/
def writePrivateAtomic (fate : Fate) (path : Path) (bytes : List UInt8) : RestoreM Unit := do
  rejectUnsafeTarget path
  perform fate .io (Disk.putLive path (some (.file bytes))) fun _ => id

/-- `RestoreJournal::write`. -/
def writeJournal (fate : Fate) (journal : RestoreJournal) : RestoreM Unit := do
  liftResult .journal journal.checkSize
  perform fate (.journal .io) (Disk.putJournal journal) fun _ => id

/-- `RestoreJournal::set_state`; the state in memory is set in any case. -/
def setState (fate : Fate) (journal : RestoreJournal) (state : RestoreJournalState) :
    RestoreM Unit := do
  liftResult .journal { journal with state := state }.validate
  writeJournal fate { journal with state := state }

/-! ## Before the first target is written -/

def discoverRestoreJournals (disk : Disk) : List RestoreJournal :=
  disk.past ++ disk.journal.toList

def ensureNoIncompleteRestore (disk : Disk) : Except RestoreError Unit :=
  match (discoverRestoreJournals disk).find? fun journal => !journal.isTerminal with
  | some journal => .error (.incompleteRestore journal.transactionId journal.state)
  | none => .ok ()

/-- The metadata of a path and of what is above it. A query that fails counts as an unsafe path, that
of the configuration file too. -/
def inspectPath (fate : Fate) (path : Path) : RestoreM Unit :=
  match fate with
  | .success => rejectUnsafeTarget path
  | .failure _ => fail (.unsafeTarget path)
  | .crash _ => throw .crashed

/-- `reject_unsafe_descendant`. A link or a file above the path makes the inspection fail. -/
def rejectUnsafeDescendant (fate : Fate) (root path : Path) : RestoreM Unit :=
  match stripPrefix root path with
  | none => fail (.target .escapedDataDirectory)
  | some [] | some (.parentDir :: _) | some (.rootDir :: _) => fail (.unsafeTarget path)
  | some _ => inspectPath fate path

/-- An entry with its number and its target. -/
structure Planned where
  index : ℕ
  entry : RecoveryEntry
  target : Path

def rejectUnsafe (fate : Fate) (layout : Layout) (target : Path) : RestoreM Unit :=
  if target = layout.configPath then inspectPath fate target
  else rejectUnsafeDescendant fate layout.dataDir target

def planTarget (faults : Faults) (layout : Layout) (numbered : RecoveryEntry × ℕ) :
    RestoreM Planned := do
  let target ← liftResult .target (restoreTarget numbered.1.path layout)
  rejectUnsafe (faults (.check numbered.2)) layout target
  pure ⟨numbered.2, numbered.1, target⟩

def stageEntry (faults : Faults) (planned : Planned) : RestoreM Unit :=
  perform (faults (.stage planned.index)) .io
    (Disk.putRecovery ("staged/" ++ planned.entry.path) planned.entry.bytes) fun _ => id

/-- Where the originals are, in the recovery directory. -/
structure RestoreOriginal where
  main : Option String
  sidecars : List (Suffix × String)

def backupMain (faults : Faults) (planned : Planned) (originalRelative : String) :
    RestoreM (Option String) := do
  let isFile ← query (faults (.isFile planned.index)) fun disk =>
    match disk.live planned.target with
    | some (.file _) => true
    | _ => false
  match isFile with
  | true => do
    copyOut (faults (.copyOriginal planned.index)) planned.target originalRelative
    pure (some originalRelative)
  | false => pure none

def backupSidecar (faults : Faults) (planned : Planned) (originalRelative : String)
    (suffix : Suffix) : RestoreM (List (Suffix × String)) := do
  let source := restoreSidecarPath planned.target suffix
  let destination := originalRelative ++ "-" ++ suffix.text
  let metadata ← existingSidecarMetadata (faults (.sidecarMetadata planned.index suffix)) source
  match metadata with
  | none => pure []
  | some .other => fail (.unsafeSidecar source)
  | some (.file _) => do
    copyOut (faults (.copySidecar planned.index suffix)) source destination
    pure [(suffix, destination)]

def backupRestoreSidecars (faults : Faults) (planned : Planned) (originalRelative : String) :
    RestoreM (List (Suffix × String)) := do
  let found ← Suffix.all.mapM (backupSidecar faults planned originalRelative)
  pure found.flatten

def journalEntryOf (planned : Planned) (original : RestoreOriginal) : RestoreJournalEntry where
  target := planned.entry.path
  staged := "staged/" ++ planned.entry.path
  original := original.main
  sidecars := original.sidecars.map fun sidecar => ⟨sidecar.1, some sidecar.2⟩
  applied := false

/-- The copies of what an entry replaces. -/
def backupOriginal (faults : Faults) (layout : Layout) (planned : Planned) :
    RestoreM RestoreOriginal := do
  let relative ← liftResult .target (backupRelativePath planned.target layout)
  let main ← backupMain faults planned (portableRelativePath relative)
  let sidecars ← backupRestoreSidecars faults planned (portableRelativePath relative)
  let original : RestoreOriginal := ⟨main, sidecars⟩
  liftResult .journal (journalEntryOf planned original).validate
  pure original

/-! ## Rolling back -/

/-- The original of a target: `originals` is a map, in which a later entry takes the place of an
earlier one. -/
def originalOf (originals : List (Planned × RestoreOriginal)) (target : Path) :
    Option RestoreOriginal :=
  (originals.reverse.find? fun original => original.1.target = target).map (·.2)

/-- One file as it was: from its copy, or absent. -/
def undoFile (copy present remove : Fate) (path : Path) (backup : Option String) :
    RestoreM Unit :=
  match backup with
  | some backup => copyBack copy backup path
  | none => do
    let found ← query present fun disk => (disk.live path).isSome
    match found with
    | true => removeFile remove path
    | false => pure ()

def undoSidecar (faults : Faults) (planned : Planned) (original : RestoreOriginal)
    (suffix : Suffix) : RestoreM Unit :=
  undoFile (faults (.undoSidecarCopy planned.index suffix))
    (faults (.undoSidecarExists planned.index suffix))
    (faults (.undoSidecarRemove planned.index suffix))
    (restoreSidecarPath planned.target suffix) (original.sidecars.lookup suffix)

def undoEntry (faults : Faults) (originals : List (Planned × RestoreOriginal))
    (planned : Planned) : RestoreM Unit :=
  match originalOf originals planned.target with
  | none => pure ()
  | some original => do
    undoFile (faults (.undoCopy planned.index)) (faults (.undoExists planned.index))
      (faults (.undoRemove planned.index)) planned.target original.main
    Suffix.all.forM (undoSidecar faults planned original)

def rollbackRestore (faults : Faults) (originals : List (Planned × RestoreOriginal))
    (written : List Planned) : RestoreM Unit :=
  written.reverse.forM (undoEntry faults originals)

/-- The state the journal ends in, and the error of the rollback. -/
def rollbackOutcome (stateWrite rollback : Except RestoreError Unit) :
    RestoreJournalState × Option RestoreError :=
  match stateWrite, rollback with
  | .ok _, .ok _ => (.rolledBack, none)
  | .error error, _ => (.rollbackFailed, some error)
  | .ok _, .error error => (.rollbackFailed, some error)

def rollbackFailedRestore {α : Type} (faults : Faults)
    (originals : List (Planned × RestoreOriginal)) (journal : RestoreJournal)
    (written : List Planned) (error : RestoreError) : RestoreM α := do
  let stateWrite ← attempt (setState (faults .setRollingBack) journal .rollingBack)
  let rollback ← attempt (rollbackRestore faults originals written)
  let journalWrite ← attempt
    (setState (faults .setOutcome) journal (rollbackOutcome stateWrite rollback).1)
  fail (.restoreFailed error (rollbackOutcome stateWrite rollback).2 journalWrite.isOk)

/-! ## Writing the targets -/

def removeRestoreSidecar (faults : Faults) (planned : Planned) (suffix : Suffix) :
    RestoreM Unit := do
  let sidecar := restoreSidecarPath planned.target suffix
  let metadata ← existingSidecarMetadata (faults (.removalMetadata planned.index suffix)) sidecar
  match metadata with
  | none => pure ()
  | some .other => fail (.unsafeSidecar sidecar)
  | some (.file _) => removeFile (faults (.removeSidecar planned.index suffix)) sidecar

def removeRestoreSidecars (faults : Faults) (planned : Planned) : RestoreM Unit :=
  Suffix.all.forM (removeRestoreSidecar faults planned)

def writeEntry (faults : Faults) (planned : Planned) : RestoreM Unit := do
  removeRestoreSidecars faults planned
  writePrivateAtomic (faults (.writeTarget planned.index)) planned.target planned.entry.bytes

/-- The journal with the entry marked, after it has been written. -/
def markEntry (faults : Faults) (originals : List (Planned × RestoreOriginal))
    (journal : RestoreJournal) (written : List Planned) (planned : Planned) :
    RestoreM RestoreJournal :=
  match journal.markApplied planned.entry.path with
  | none =>
    rollbackFailedRestore faults originals journal written (.journal .entryNotFound)
  | some marked => do
    let mark ← attempt (writeJournal (faults (.markApplied planned.index)) marked)
    match mark with
    | .error error => rollbackFailedRestore faults originals marked written error
    | .ok _ => pure marked

/-- One entry of the loop; `written` has the entry itself already. -/
def applyEntry (faults : Faults) (originals : List (Planned × RestoreOriginal))
    (journal : RestoreJournal) (written : List Planned) (planned : Planned) :
    RestoreM RestoreJournal := do
  let write ← attempt (writeEntry faults planned)
  match write with
  | .error error => rollbackFailedRestore faults originals journal written error
  | .ok _ => markEntry faults originals journal written planned

def applyEntries (faults : Faults) (originals : List (Planned × RestoreOriginal)) :
    RestoreJournal → List Planned → List Planned → RestoreM RestoreJournal
  | journal, _, [] => pure journal
  | journal, written, planned :: rest => do
    let journal ← applyEntry faults originals journal (written ++ [planned]) planned
    applyEntries faults originals journal (written ++ [planned]) rest

/-- `RestoreJournal::create`. -/
def createJournal (fate : Fate) (transactionId : String) (entries : List RestoreJournalEntry) :
    RestoreM RestoreJournal := do
  liftResult .journal (RestoreJournal.prepared transactionId entries).validate
  writeJournal fate (.prepared transactionId entries)
  pure (.prepared transactionId entries)

/-- The targets and the copies of the originals. -/
def prepare (faults : Faults) (layout : Layout) (entries : List RecoveryEntry) :
    RestoreM (List (Planned × RestoreOriginal)) := do
  let disk ← get
  liftResult id (ensureNoIncompleteRestore disk)
  perform (faults .probe) .io id fun _ => id
  let targets ← entries.zipIdx.mapM (planTarget faults layout)
  targets.forM (stageEntry faults)
  let originals ← targets.mapM (backupOriginal faults layout)
  pure (targets.zip originals)

/-- From the opened archive on; the number of entries restored. -/
def restore (faults : Faults) (layout : Layout) (transactionId : String)
    (entries : List RecoveryEntry) : RestoreM ℕ := do
  let originals ← prepare faults layout entries
  let journal ← createJournal (faults .createJournal) transactionId
    (originals.map fun original => journalEntryOf original.1 original.2)
  setState (faults .setApplying) journal .applying
  let journal ← applyEntries faults originals { journal with state := .applying } []
    (originals.map (·.1))
  setState (faults .setCompleted) journal .completed
  pure originals.length

end Pandora.Backup.Restore
