import Pandora.Backup.Restore

/-! # What a restore may leave

`Whole` is what is to hold at each moment of a restore: the targets are as they were, or all are as
in the archive, or a journal that is not at its end says where the originals are. -/

namespace Pandora.Backup.Outcomes

open Backup.Archive Backup.Paths Backup.Journal Backup.Restore

variable {layout : Layout} {entries : List RecoveryEntry} {live₀ : Path → Option Stored}
  {disk : Disk}

/-! ## What is said of a disk -/

def IsTarget (layout : Layout) (entries : List RecoveryEntry) (path : Path) : Prop :=
  ∃ entry ∈ entries, restoreTarget entry.path layout = .ok path

/-- Every target and its sidecars are as they were before. -/
def Old (layout : Layout) (entries : List RecoveryEntry) (live₀ : Path → Option Stored)
    (disk : Disk) : Prop :=
  ∀ entry ∈ entries, ∀ target, restoreTarget entry.path layout = .ok target →
    disk.live target = live₀ target ∧ ∀ suffix,
      disk.live (restoreSidecarPath target suffix) = live₀ (restoreSidecarPath target suffix)

/-- Every target is as in the archive, and has no sidecar but what is a target itself. -/
def New (layout : Layout) (entries : List RecoveryEntry) (disk : Disk) : Prop :=
  ∀ entry ∈ entries, ∀ target, restoreTarget entry.path layout = .ok target →
    disk.live target = some (.file entry.bytes) ∧ ∀ suffix,
      ¬ IsTarget layout entries (restoreSidecarPath target suffix) →
        disk.live (restoreSidecarPath target suffix) = none

/-- The file at the path is in the recovery directory, or there was none. -/
def Recorded (live₀ : Path → Option Stored) (disk : Disk) (path : Path) : Option String → Prop
  | some key => ∃ bytes, live₀ path = some (.file bytes) ∧ disk.recovery key = some (.file bytes)
  | none => live₀ path = none

def sidecarOriginal (entry : RestoreJournalEntry) (suffix : Suffix) : Option String :=
  (entry.sidecars.find? fun sidecar => sidecar.suffix = suffix).bind (·.original)

/-- A journal that is not at its end has every entry, and its originals are complete. -/
def Pending (layout : Layout) (entries : List RecoveryEntry) (live₀ : Path → Option Stored)
    (disk : Disk) : Prop :=
  ∃ journal, disk.journal = some journal ∧ journal.isTerminal = false ∧
    (∀ entry ∈ entries, ∃ recorded ∈ journal.entries, recorded.target = entry.path) ∧
    ∀ recorded ∈ journal.entries, ∀ target, restoreTarget recorded.target layout = .ok target →
      Recorded live₀ disk target recorded.original ∧ ∀ suffix,
        Recorded live₀ disk (restoreSidecarPath target suffix) (sidecarOriginal recorded suffix)

structure Whole (layout : Layout) (entries : List RecoveryEntry) (live₀ : Path → Option Stored)
    (disk : Disk) : Prop where
  somewhere : Old layout entries live₀ disk ∨ New layout entries disk ∨
    Pending layout entries live₀ disk
  refused : ¬ Old layout entries live₀ disk → ¬ New layout entries disk →
    ∃ error, ensureNoIncompleteRestore disk = .error error
  rolledBack : ∀ journal, disk.journal = some journal → journal.state = .rolledBack →
    Old layout entries live₀ disk

/-- The disk when the run has ended, in whichever way. -/
def endOf {α : Type} : EStateM.Result Stop Disk α → Disk
  | .ok _ disk => disk
  | .error _ disk => disk

/-! ## When it holds -/

def fails : Fate → Bool
  | .failure _ => true
  | _ => false

/-- Whether the operation has been done, whatever it reports. -/
def takesEffect : Fate → Bool
  | .success | .failure .complete | .crash .complete => true
  | _ => false

/-- The operations of `rollback_restore`. -/
def ofRollback : Op → Bool
  | .undoCopy _ | .undoExists _ | .undoRemove _ => true
  | .undoSidecarCopy _ _ | .undoSidecarExists _ _ | .undoSidecarRemove _ _ => true
  | _ => false

/-- Two entries, the second after the first, do not undo each other. -/
def Apart (layout : Layout) (earlier later : RecoveryEntry) : Prop :=
  ∀ target target', restoreTarget earlier.path layout = .ok target →
    restoreTarget later.path layout = .ok target' →
    (target = target' → earlier.bytes = later.bytes) ∧
      ∀ suffix, target ≠ restoreSidecarPath target' suffix

/-- No file is taken for absent, the rollback does not fail unless the journal stays open, and no
entry takes away an earlier one. -/
structure Dependable (faults : Faults) (layout : Layout) (entries : List RecoveryEntry)
    (live₀ : Path → Option Stored) : Prop where
  isFile : ∀ i entry target, entries[i]? = some entry →
    restoreTarget entry.path layout = .ok target → fails (faults (.isFile i)) = true →
    live₀ target = none
  rollback : (∀ op, ofRollback op = true → fails (faults op) = false) ∨
    takesEffect (faults .setOutcome) = false
  apart : entries.Pairwise (Apart layout)

/-! ### What is enough -/

theorem whole_of_old (h : Old layout entries live₀ disk) : Whole layout entries live₀ disk where
  somewhere := .inl h
  refused hold := absurd h hold
  rolledBack _ _ _ := h

theorem whole_of_live (h : disk.live = live₀) : Whole layout entries live₀ disk := by
  refine whole_of_old fun entry _ target _ => ?_
  rw [h]
  exact ⟨rfl, fun _ => rfl⟩

theorem refused_of_open {journal : RestoreJournal} (h : disk.journal = some journal)
    (hopen : journal.isTerminal = false) :
    ∃ error, ensureNoIncompleteRestore disk = .error error := by
  have hmem : journal ∈ discoverRestoreJournals disk := by
    unfold discoverRestoreJournals
    rw [h]
    exact List.mem_append_right _ (Option.mem_toList.mpr rfl)
  have hfind :
    ((discoverRestoreJournals disk).find? fun journal => !journal.isTerminal).isSome := by
    rw [List.find?_isSome]
    exact ⟨journal, hmem, by rw [hopen]; rfl⟩
  obtain ⟨found, hfound⟩ := Option.isSome_iff_exists.mp hfind
  unfold ensureNoIncompleteRestore
  rw [hfound]
  exact ⟨_, rfl⟩

theorem whole_of_pending (h : Pending layout entries live₀ disk) :
    Whole layout entries live₀ disk := by
  obtain ⟨journal, hjournal, hopen, -⟩ := id h
  refine ⟨.inr (.inr h), fun _ _ => refused_of_open hjournal hopen, ?_⟩
  intro other hother hstate
  rw [hjournal, Option.some.injEq] at hother
  subst hother
  unfold RestoreJournal.isTerminal at hopen
  rw [hstate] at hopen
  exact absurd hopen (by decide)

theorem whole_of_completed {journal : RestoreJournal} (h : New layout entries disk)
    (hjournal : disk.journal = some journal) (hstate : journal.state = .completed) :
    Whole layout entries live₀ disk := by
  refine ⟨.inr (.inl h), fun _ hnew => absurd h hnew, ?_⟩
  intro other hother hrolled
  rw [hjournal, Option.some.injEq] at hother
  subst hother
  rw [hstate] at hrolled
  cases hrolled

end Pandora.Backup.Outcomes
