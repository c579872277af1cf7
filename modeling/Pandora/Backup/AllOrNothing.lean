import Pandora.Backup.Collect
import Pandora.Backup.Rollback

/-! # Restores that fail

At each moment of a restore the targets are as they were, or all are as in the archive, or a journal
that is not at its end says where the originals are (`restore_all_or_nothing`).

The rollback itself can fail, and then the journal is closed all the same: a second restore is not
refused although the targets are neither old nor new (`failed_rollback_closes`). -/

namespace Pandora.Backup.AllOrNothing

open Lib.Triples Backup.Archive Backup.Paths Backup.Journal Backup.Restore List Backup.Outcomes
  Backup.Copies Backup.Rollback
open Backup.Collect hiding endsWith

variable {faults : Faults} {layout : Layout} {transactionId : String}
  {entries : List RecoveryEntry} {live₀ : Path → Option Stored} {past : List RestoreJournal}
  {disk : Disk} {originals : List (Planned × RestoreOriginal)} {journal : RestoreJournal}

/-! ## Writing the targets -/

/-- The written targets are as in the archive. -/
def Written (layout : Layout) (entries : List RecoveryEntry) (written : List Planned)
    (disk : Disk) : Prop :=
  ∀ planned ∈ written, disk.live planned.target = some (.file planned.entry.bytes) ∧
    ∀ suffix, ¬ IsTarget layout entries (restoreSidecarPath planned.target suffix) →
      disk.live (restoreSidecarPath planned.target suffix) = none

section Applying

variable {written : List Planned} {planned : Planned}

theorem written_remove {suffix : Suffix} (h : Written layout entries written disk)
    (hapart : ∀ earlier ∈ written, earlier.target ≠ restoreSidecarPath planned.target suffix) :
    Written layout entries written
      (disk.putLive (restoreSidecarPath planned.target suffix) none) := by
  intro earlier hearlier
  unfold Disk.putLive
  dsimp only
  refine ⟨?_, fun other hother => ?_⟩
  · rw [if_neg (hapart earlier hearlier)]
    exact (h earlier hearlier).1
  · split_ifs
    · rfl
    · exact (h earlier hearlier).2 other hother

theorem written_write (h : Written layout entries written disk)
    (htarget : IsTarget layout entries planned.target)
    (hsidecars : ∀ suffix, disk.live (restoreSidecarPath planned.target suffix) = none)
    (hapart : ∀ earlier ∈ written, earlier.target = planned.target →
      earlier.entry.bytes = planned.entry.bytes) :
    Written layout entries (written ++ [planned])
      (disk.putLive planned.target (some (.file planned.entry.bytes))) := by
  intro other hother
  unfold Disk.putLive
  dsimp only
  have hne : ∀ suffix, ¬ IsTarget layout entries (restoreSidecarPath other.target suffix) →
      restoreSidecarPath other.target suffix ≠ planned.target := by
    rintro suffix hnot heq
    exact hnot (heq ▸ htarget)
  rcases mem_append.mp hother with hearlier | hlast
  · refine ⟨?_, fun suffix hsuffix => ?_⟩
    · split_ifs with heq
      · rw [hapart other hearlier heq]
      · exact (h other hearlier).1
    · rw [if_neg (hne suffix hsuffix)]
      exact (h other hearlier).2 suffix hsuffix
  · rw [mem_singleton] at hlast
    subst hlast
    refine ⟨if_pos rfl, fun suffix hsuffix => ?_⟩
    rw [if_neg (hne suffix hsuffix)]
    exact hsidecars suffix

theorem restored_touched {path : Path} {stored : Option Stored}
    (h : Restored live₀ (fun path => ∃ other ∈ written ++ [planned], Touches other path) disk)
    (htouches : Touches planned path) :
    Restored live₀ (fun path => ∃ other ∈ written ++ [planned], Touches other path)
      (disk.putLive path stored) := by
  refine restored_putLive h (fun hnot => absurd ⟨planned, ?_, htouches⟩ hnot) fun _ _ hnot => hnot
  exact mem_append_right _ (mem_singleton_self planned)

theorem midway_putLive {path : Path} {stored : Option Stored}
    (h : Midway layout live₀ originals (written ++ [planned]) disk)
    (htouches : Touches planned path) :
    Midway layout live₀ originals (written ++ [planned]) (disk.putLive path stored) :=
  ⟨inProgress_putLive h.1, restored_touched h.2 htouches⟩

theorem removeRestoreSidecars_triple (hapart : ∀ earlier ∈ written, ∀ suffix,
      earlier.target ≠ restoreSidecarPath planned.target suffix) :
    Triple (fun disk => Midway layout live₀ originals (written ++ [planned]) disk ∧
        Written layout entries written disk)
      (removeRestoreSidecars faults planned)
      (fun _ disk => Midway layout live₀ originals (written ++ [planned]) disk ∧
        Written layout entries written disk ∧
        ∀ suffix, disk.live (restoreSidecarPath planned.target suffix) = none)
      fun _ => Midway layout live₀ originals (written ++ [planned]) := by
  unfold removeRestoreSidecars
  refine (Triple.forM (fun rest disk => Midway layout live₀ originals (written ++ [planned]) disk ∧
    Written layout entries written disk ∧
    ∀ suffix, suffix ∉ rest → disk.live (restoreSidecarPath planned.target suffix) = none)
    ?_).conseq ?_ ?_ fun _ _ h => h
  · intro suffix rest
    unfold removeRestoreSidecar
    dsimp only
    have hrest : ∀ other, other ≠ suffix → other ∉ rest → other ∉ suffix :: rest :=
      fun other hne hother hmem => (mem_cons.mp hmem).elim hne hother
    refine Triple.bind (Q := fun metadata disk =>
      (Midway layout live₀ originals (written ++ [planned]) disk ∧
        Written layout entries written disk ∧ ∀ other, other ∉ suffix :: rest →
          disk.live (restoreSidecarPath planned.target other) = none) ∧
      metadata = disk.live (restoreSidecarPath planned.target suffix))
      (metadata_triple (fun disk h => ⟨h, rfl⟩) fun _ _ h => h.1) ?_
    rintro (_ | bytes | _)
    · refine .pure fun disk h => ⟨h.1.1, h.1.2.1, fun other hother => ?_⟩
      by_cases heq : other = suffix
      · rw [heq]
        exact h.2.symm
      · exact h.1.2.2 other (hrest other heq hother)
    · refine perform_triple ?_ ?_ ?_
      · intro _ disk h
        refine ⟨midway_putLive h.1.1 (.inr ⟨suffix, rfl⟩),
          written_remove h.1.2.1 fun earlier hmem => hapart earlier hmem suffix, ?_⟩
        intro other hother
        unfold Disk.putLive
        dsimp only
        split_ifs with heq
        · rfl
        · exact h.1.2.2 other (hrest other (fun h => heq (h ▸ rfl)) hother)
      all_goals
        intro left _ disk h
        exact effect_keeps (I := Midway layout live₀ originals (written ++ [planned]))
          (fun _ h => midway_putLive h (.inr ⟨suffix, rfl⟩)) (fun _ _ h => h) left h.1.1
    · exact fail_triple fun disk h => h.1.1
  · rintro disk ⟨hmidway, hwritten⟩
    refine ⟨hmidway, hwritten, fun suffix hsuffix => ?_⟩
    exact absurd (by cases suffix <;> decide : suffix ∈ Suffix.all) hsuffix
  · rintro _ disk ⟨hmidway, hwritten, hnone⟩
    exact ⟨hmidway, hwritten, fun suffix => hnone suffix not_mem_nil⟩

theorem writeEntry_triple (htarget : IsTarget layout entries planned.target)
    (hapart : ∀ earlier ∈ written, (earlier.target = planned.target →
      earlier.entry.bytes = planned.entry.bytes) ∧
      ∀ suffix, earlier.target ≠ restoreSidecarPath planned.target suffix) :
    Triple (fun disk => Midway layout live₀ originals (written ++ [planned]) disk ∧
        Written layout entries written disk)
      (writeEntry faults planned)
      (fun _ disk => Midway layout live₀ originals (written ++ [planned]) disk ∧
        Written layout entries (written ++ [planned]) disk)
      fun _ => Midway layout live₀ originals (written ++ [planned]) := by
  unfold writeEntry
  refine (removeRestoreSidecars_triple fun earlier hmem => (hapart earlier hmem).2).bind fun _ => ?_
  unfold writePrivateAtomic
  refine Triple.bind (Q := fun _ disk =>
    Midway layout live₀ originals (written ++ [planned]) disk ∧
      Written layout entries written disk ∧
      ∀ suffix, disk.live (restoreSidecarPath planned.target suffix) = none)
    (rejectUnsafeTarget_triple (fun disk h _ => h) fun _ _ h => h.1) fun _ => ?_
  refine perform_triple ?_ ?_ ?_
  · rintro - disk ⟨hmidway, hwritten, hnone⟩
    refine ⟨midway_putLive hmidway (.inl rfl), written_write hwritten htarget hnone ?_⟩
    exact fun earlier hmem => (hapart earlier hmem).1
  all_goals
    intro left _ disk h
    exact effect_keeps (I := Midway layout live₀ originals (written ++ [planned]))
      (fun _ h => midway_putLive h (.inl rfl)) (fun _ _ h => h) left h.1

theorem markFirst_entries (target : String) (recorded : List RestoreJournalEntry) :
    (markFirst target recorded).map (fun entry => { entry with applied := false }) =
      recorded.map fun entry => { entry with applied := false } := by
  induction recorded with
  | nil => rfl
  | cons entry rest ih =>
    unfold markFirst
    split_ifs
    · rfl
    · rw [map_cons, map_cons, ih]

theorem markApplied_eq_some {target : String} {marked : RestoreJournal}
    (h : journal.markApplied target = some marked) (hsame : SameEntries originals journal) :
    SameEntries originals marked ∧ marked.state = journal.state := by
  unfold RestoreJournal.markApplied at h
  split_ifs at h
  rw [Option.some.injEq] at h
  subst h
  refine ⟨?_, rfl⟩
  unfold SameEntries
  rw [markFirst_entries]
  exact hsame

/-- The journal in memory, while the targets are written. -/
def Applying (originals : List (Planned × RestoreOriginal)) (journal : RestoreJournal) : Prop :=
  SameEntries originals journal ∧ journal.state = .applying

theorem isTerminal_of_applying (h : Applying originals journal) : journal.isTerminal = false := by
  unfold RestoreJournal.isTerminal
  rw [h.2]
  rfl

theorem markEntry_triple (hdependable : Dependable faults layout entries live₀)
    (hprepared : Prepared layout entries live₀ originals)
    (hmem : ∀ other ∈ written ++ [planned], other ∈ originals.map (·.1))
    (hjournal : Applying originals journal) :
    Triple (fun disk => Midway layout live₀ originals (written ++ [planned]) disk ∧
        Written layout entries (written ++ [planned]) disk)
      (markEntry faults originals journal (written ++ [planned]) planned)
      (fun marked disk => Applying originals marked ∧
        Midway layout live₀ originals (written ++ [planned]) disk ∧
        Written layout entries (written ++ [planned]) disk)
      fun _ => Whole layout entries live₀ := by
  unfold markEntry
  split
  · exact (rollbackFailedRestore_triple hdependable hprepared hmem hjournal.1).pre fun _ h => h.1
  · rename_i marked hmarked
    obtain ⟨hsame, hstate⟩ := markApplied_eq_some hmarked hjournal.1
    have happlying : Applying originals marked := ⟨hsame, hstate.trans hjournal.2⟩
    let S : Disk → Prop := fun disk => Midway layout live₀ originals (written ++ [planned]) disk ∧
      Written layout entries (written ++ [planned]) disk
    have hput : ∀ disk, S disk → S (disk.putJournal marked) := by
      intro disk h
      refine ⟨⟨?_, h.1.2⟩, h.2⟩
      exact inProgress_putJournal h.1.1.copies (isTerminal_of_applying happlying) hsame
    have hwrite : Triple S (writeJournal (faults (.markApplied planned.index)) marked)
        (fun _ => S) fun _ => S := by
      refine writeJournal_triple (fun _ => hput) (fun _ _ h => h) fun _ left _ disk h => ?_
      exact effect_keeps hput (fun _ _ h => h) left h
    refine Triple.bind (Q := fun _ => S) ((attempt_triple hwrite (fun _ _ h => h)
      fun _ _ h => h).conseq (fun _ h => h) (fun _ _ h => h) ?_) ?_
    · exact fun _ _ h => whole_of_inProgress hprepared h.1.1
    · rintro (error | _)
      · exact (rollbackFailedRestore_triple hdependable hprepared hmem hsame).pre fun _ h => h.1
      · exact .pure fun disk h => ⟨happlying, h⟩

/-- An entry against those before it. -/
def ApartFrom (written : List Planned) (planned : Planned) : Prop :=
  ∀ earlier ∈ written, (earlier.target = planned.target →
    earlier.entry.bytes = planned.entry.bytes) ∧
    ∀ suffix, earlier.target ≠ restoreSidecarPath planned.target suffix

theorem applyEntry_triple (hdependable : Dependable faults layout entries live₀)
    (hprepared : Prepared layout entries live₀ originals)
    (hmem : ∀ other ∈ written ++ [planned], other ∈ originals.map (·.1))
    (htarget : IsTarget layout entries planned.target) (hapart : ApartFrom written planned)
    (hjournal : Applying originals journal) :
    Triple (fun disk => Midway layout live₀ originals written disk ∧
        Written layout entries written disk)
      (applyEntry faults originals journal (written ++ [planned]) planned)
      (fun marked disk => Applying originals marked ∧
        Midway layout live₀ originals (written ++ [planned]) disk ∧
        Written layout entries (written ++ [planned]) disk)
      fun _ => Whole layout entries live₀ := by
  unfold applyEntry
  have hwrite : Triple (fun disk => Midway layout live₀ originals (written ++ [planned]) disk ∧
        Written layout entries written disk) (writeEntry faults planned)
      (fun _ disk => Midway layout live₀ originals (written ++ [planned]) disk ∧
        Written layout entries (written ++ [planned]) disk)
      fun _ => Midway layout live₀ originals (written ++ [planned]) :=
    writeEntry_triple htarget hapart
  refine Triple.bind (Q := fun write disk =>
    Midway layout live₀ originals (written ++ [planned]) disk ∧
      (write.isOk = true → Written layout entries (written ++ [planned]) disk))
    ((attempt_triple hwrite ?_ ?_).conseq ?_ (fun _ _ h => h) ?_) ?_
  · exact fun _ disk h => ⟨h.1, fun _ => h.2⟩
  · exact fun _ disk h => ⟨h, fun hok => nomatch hok⟩
  · rintro disk ⟨⟨hprogress, hrestored⟩, hwritten⟩
    refine ⟨⟨hprogress, fun path hpath => hrestored path ?_⟩, hwritten⟩
    rintro ⟨other, hother, htouches⟩
    exact hpath ⟨other, mem_append_left _ hother, htouches⟩
  · exact fun _ _ h => whole_of_inProgress hprepared h.1
  · rintro (error | _)
    · exact (rollbackFailedRestore_triple hdependable hprepared hmem hjournal.1).pre fun _ h => h.1
    · exact (markEntry_triple hdependable hprepared hmem hjournal).pre fun _ h => ⟨h.1, h.2 rfl⟩

theorem apartFrom_of_split {rest : List Planned}
    (hdependable : Dependable faults layout entries live₀)
    (hprepared : Prepared layout entries live₀ originals)
    (hsplit : written ++ planned :: rest = originals.map (·.1)) : ApartFrom written planned := by
  have hpairwise := hdependable.apart
  have hentries :
      entries = written.map Planned.entry ++ planned.entry :: rest.map Planned.entry := by
    rw [← hprepared.entries_eq, ← map_cons, ← map_append, hsplit, map_map]
    rfl
  have hplanned : ∀ other ∈ written ++ planned :: rest,
      restoreTarget other.entry.path layout = .ok other.target := by
    intro other hother
    rw [hsplit, mem_map] at hother
    obtain ⟨pair, hpair, rfl⟩ := hother
    exact (hprepared.planned pair hpair).target_eq
  rw [hentries, pairwise_append] at hpairwise
  intro earlier hearlier
  refine hpairwise.2.2 earlier.entry (mem_map_of_mem hearlier) planned.entry mem_cons_self
    earlier.target planned.target ?_ ?_
  · exact hplanned earlier (mem_append_left _ hearlier)
  · exact hplanned planned (mem_append_right _ mem_cons_self)

theorem isTarget_of_mem (hprepared : Prepared layout entries live₀ originals)
    (h : planned ∈ originals.map (·.1)) : IsTarget layout entries planned.target := by
  obtain ⟨pair, hpair, rfl⟩ := mem_map.mp h
  refine ⟨pair.1.entry, ?_, (hprepared.planned pair hpair).target_eq⟩
  rw [← hprepared.entries_eq]
  exact mem_map_of_mem hpair

theorem applyEntries_triple {rest : List Planned}
    (hdependable : Dependable faults layout entries live₀)
    (hprepared : Prepared layout entries live₀ originals)
    (hsplit : written ++ rest = originals.map (·.1)) (hjournal : Applying originals journal) :
    Triple (fun disk => Midway layout live₀ originals written disk ∧
        Written layout entries written disk)
      (applyEntries faults originals journal written rest)
      (fun marked disk => Applying originals marked ∧
        Midway layout live₀ originals (originals.map (·.1)) disk ∧
        Written layout entries (originals.map (·.1)) disk)
      fun _ => Whole layout entries live₀ := by
  induction rest generalizing journal written with
  | nil =>
    rw [append_nil] at hsplit
    subst hsplit
    exact .pure fun disk h => ⟨hjournal, h⟩
  | cons planned rest ih =>
    have hsplit' : (written ++ [planned]) ++ rest = originals.map (·.1) := by
      rw [append_assoc, singleton_append]
      exact hsplit
    have hmem : ∀ other ∈ written ++ [planned], other ∈ originals.map (·.1) := by
      intro other hother
      rw [← hsplit']
      exact mem_append_left _ hother
    have htarget := isTarget_of_mem hprepared
      (hmem planned (mem_append_right _ (mem_singleton_self planned)))
    refine (applyEntry_triple hdependable hprepared hmem htarget
      (apartFrom_of_split hdependable hprepared hsplit) hjournal).bind fun marked => .each ?_
    rintro disk ⟨happlying, h⟩
    refine (ih hsplit' happlying).pre ?_
    rintro _ rfl
    exact h

end Applying

/-! ## The whole restore -/

theorem new_of_written (hprepared : Prepared layout entries live₀ originals)
    (h : Written layout entries (originals.map (·.1)) disk) : New layout entries disk := by
  intro entry hentry target htarget
  rw [← hprepared.entries_eq, mem_map] at hentry
  obtain ⟨pair, hpair, rfl⟩ := hentry
  rw [(hprepared.planned pair hpair).target_eq, Except.ok.injEq] at htarget
  subst htarget
  exact h pair.1 (mem_map_of_mem hpair)

theorem sameEntries_prepared : SameEntries originals (.prepared transactionId
    (originals.map fun pair => journalEntryOf pair.1 pair.2)) := by
  unfold SameEntries RestoreJournal.prepared
  dsimp only
  rw [map_map]
  rfl

theorem createJournal_triple (layout : Layout) {fate : Fate} :
    Triple (fun disk => Unchanged live₀ disk ∧ CopiesKept layout live₀ originals disk)
      (createJournal fate transactionId (originals.map fun pair => journalEntryOf pair.1 pair.2))
      (fun journal disk => (SameEntries originals journal ∧ journal.state = .prepared) ∧
        InProgress layout live₀ originals disk ∧ disk.live = live₀)
      fun _ disk => disk.live = live₀ := by
  unfold createJournal
  refine Triple.bind
    (Q := fun _ disk => Unchanged live₀ disk ∧ CopiesKept layout live₀ originals disk)
    (liftResult_triple (fun _ _ _ h => h) fun _ _ h => h.1.1) fun _ => ?_
  refine Triple.bind (Q := fun _ disk => InProgress layout live₀ originals disk ∧ disk.live = live₀)
    (writeJournal_triple ?_ (fun _ _ h => h.1.1) ?_) fun _ => .pure ?_
  · exact fun _ disk h => ⟨inProgress_putJournal h.2 rfl sameEntries_prepared, h.1.1⟩
  · intro _ left _ disk h
    refine effect_keeps (I := fun disk => disk.live = live₀) ?_ (fun _ _ h => h) left h.1.1
    exact fun _ h => h
  · exact fun disk h => ⟨⟨sameEntries_prepared, rfl⟩, h⟩

theorem setCompleted_triple (hprepared : Prepared layout entries live₀ originals)
    (fate : Fate) (journal : RestoreJournal) :
    Triple (fun disk => InProgress layout live₀ originals disk ∧ New layout entries disk)
      (setState fate journal .completed) (fun _ => Whole layout entries live₀)
      fun _ => Whole layout entries live₀ := by
  have hput : ∀ disk, New layout entries disk →
      Whole layout entries live₀ (disk.putJournal { journal with state := .completed }) :=
    fun disk h => whole_of_completed h rfl rfl
  have hkeep : ∀ disk, InProgress layout live₀ originals disk ∧ New layout entries disk →
      Whole layout entries live₀ disk := fun disk h => whole_of_inProgress hprepared h.1
  unfold setState
  refine Triple.bind (Q := fun _ disk => InProgress layout live₀ originals disk ∧
    New layout entries disk) (liftResult_triple (fun _ _ _ h => h) fun _ => hkeep) fun _ => ?_
  refine writeJournal_triple (fun _ disk h => hput disk h.2) (fun _ => hkeep) ?_
  intro _ left _ disk h
  rcases left with _ | _ | bytes
  · exact hkeep disk h
  · exact hput disk h.2
  · exact hkeep disk h

theorem restore_triple (transactionId : String)
    (hclean : ∀ entry ∈ entries, '\\' ∉ entry.path.toList)
    (hdependable : Dependable faults layout entries live₀) :
    Triple (Unchanged live₀) (restore faults layout transactionId entries)
      (fun _ => Whole layout entries live₀) fun _ => Whole layout entries live₀ := by
  unfold restore
  refine Triple.bind ((prepare_triple hclean hdependable.isFile).conseq (fun _ h => h)
    (fun _ _ h => h) fun _ _ h => whole_of_live h.1) fun originals => .each ?_
  rintro disk ⟨hunchanged, hprepared, hcopies⟩
  refine Triple.bind ((createJournal_triple layout).conseq ?_ (fun _ _ h => h)
    fun _ _ h => whole_of_live h) fun journal => .each ?_
  · rintro _ rfl
    exact ⟨hunchanged, hcopies⟩
  rintro disk ⟨⟨hsame, hstate⟩, hprogress⟩
  refine Triple.bind (Q := fun _ disk => InProgress layout live₀ originals disk ∧
    disk.live = live₀) ((setState_triple (R := fun live => live = live₀) rfl hsame).conseq ?_
    (fun _ _ h => h) fun _ _ h => whole_of_live h.2) fun _ => ?_
  · rintro _ rfl
    exact hprogress
  have happlying : Applying originals { journal with state := .applying } := ⟨hsame, rfl⟩
  refine Triple.bind ((applyEntries_triple hdependable hprepared (nil_append _)
    happlying).pre ?_) fun marked => ?_
  · rintro disk ⟨hprogress, hlive⟩
    refine ⟨⟨hprogress, fun path _ => by rw [hlive]⟩, forall_mem_nil _⟩
  refine Triple.bind ((setCompleted_triple hprepared (faults .setCompleted) marked).pre ?_)
    fun _ => .pure fun _ h => h
  rintro disk ⟨-, hmidway, hwritten⟩
  exact ⟨hmidway.1, new_of_written hprepared hwritten⟩

/-- **Restores are all or nothing, unless a rollback fails.** -/
theorem restore_all_or_nothing {snapshots : Snapshots} {home : Home} {output : Option Below}
    (hcreated : create snapshots home output = .ok entries)
    (hdependable : Dependable faults layout entries live₀) :
    Whole layout entries live₀
      (endOf (restore faults layout transactionId entries (.start live₀ past))) := by
  have h := restore_triple transactionId (no_backslash_of_create hcreated) hdependable
  have hstart : Unchanged live₀ (.start live₀ past) := ⟨rfl, rfl⟩
  rcases hrun : restore faults layout transactionId entries (.start live₀ past) with
    ⟨count, disk⟩ | ⟨stop, disk⟩
  · exact h.ok hstart hrun
  · exact h.error hstart hrun

/-! ### Two files -/

def sampleLayout : Layout where
  configPath := [.rootDir, .normal "etc", .normal "pandora.json"]
  dataDir := [.rootDir, .normal "data"]

def sampleHome : Home where
  layout := sampleLayout
  config := none
  data := some (.file ⟨[97], by decide⟩ [9] (.file ⟨[98], by decide⟩ [8] .done))
  ordered := by
    intro listing h
    rw [Option.some.injEq] at h
    subst h
    decide

def sampleSnapshots : Snapshots := ⟨some, fun _ _ h => (Option.some.inj h).symm⟩

def sampleEntries : List RecoveryEntry :=
  [⟨"data/a", [9], by decide +kernel, by decide⟩, ⟨"data/b", [8], by decide +kernel, by decide⟩]

def targetA : Path := [.rootDir, .normal "data", .normal "a"]

def targetB : Path := [.rootDir, .normal "data", .normal "b"]

/-- Both files are there, with other contents. -/
def sampleLive (path : Path) : Option Stored :=
  if path = targetA then some (.file [1]) else if path = targetB then some (.file [2]) else none

/-- The second target cannot be written. -/
def writeFails (op : Op) : Fate := if op = .writeTarget 1 then .failure .untouched else .success

/-- Nor can the first be written back. -/
def copyFails (op : Op) : Fate := if op = .undoCopy 0 then .failure .untouched else writeFails op

theorem apart_sample : sampleEntries.Pairwise (Apart sampleLayout) := by
  refine pairwise_cons.mpr ⟨?_, pairwise_singleton _ _⟩
  intro later hlater target target' htarget htarget'
  rw [mem_singleton] at hlater
  subst hlater
  have hA : restoreTarget "data/a" sampleLayout = .ok targetA := by decide +kernel
  have hB : restoreTarget "data/b" sampleLayout = .ok targetB := by decide +kernel
  rw [hA, Except.ok.injEq] at htarget
  rw [hB, Except.ok.injEq] at htarget'
  subst htarget htarget'
  refine ⟨fun heq => absurd heq (by decide), fun suffix => ?_⟩
  cases suffix <;> decide

theorem restore_all_or_nothing_sample :
    create sampleSnapshots sampleHome none = .ok sampleEntries ∧
      Whole sampleLayout sampleEntries sampleLive
        (endOf (restore writeFails sampleLayout "restore-1-1" sampleEntries
          (.start sampleLive []))) := by
  have hcreated : create sampleSnapshots sampleHome none = .ok sampleEntries := by decide +kernel
  have hnever : ∀ op, op ≠ .writeTarget 1 → fails (writeFails op) = false := by
    intro op hop
    unfold writeFails
    rw [if_neg hop]
    rfl
  refine ⟨hcreated, restore_all_or_nothing hcreated ⟨?_, .inl ?_, apart_sample⟩⟩
  · intro i entry target _ _ hfails
    rw [hnever (.isFile i) (by simp)] at hfails
    cases hfails
  · intro op hop
    refine hnever op ?_
    rintro rfl
    cases hop

/-- The first file is new, the second old, and the journal is closed. -/
theorem failed_rollback_closes :
    create sampleSnapshots sampleHome none = .ok sampleEntries ∧
      ¬ Whole sampleLayout sampleEntries sampleLive
        (endOf (restore copyFails sampleLayout "restore-1-1" sampleEntries
          (.start sampleLive []))) := by
  refine ⟨by decide +kernel, fun h => ?_⟩
  set disk := endOf (restore copyFails sampleLayout "restore-1-1" sampleEntries
    (.start sampleLive [])) with hdisk
  have hA : disk.live targetA = some (.file [9]) := by decide +kernel
  have hB : disk.live targetB = some (.file [2]) := by decide +kernel
  have hopen : ensureNoIncompleteRestore disk matches .ok () := by decide +kernel
  have hold : ¬ Old sampleLayout sampleEntries sampleLive disk := by
    intro hold
    have hkept := (hold _ mem_cons_self targetA (by decide +kernel)).1
    rw [hA] at hkept
    exact absurd hkept (by decide)
  have hnew : ¬ New sampleLayout sampleEntries disk := by
    intro hnew
    have hwritten := (hnew _ (mem_cons_of_mem _ mem_cons_self) targetB
      (by decide +kernel)).1
    rw [hB] at hwritten
    exact absurd hwritten (by decide)
  obtain ⟨error, herror⟩ := h.refused hold hnew
  rw [herror] at hopen
  cases hopen

end Pandora.Backup.AllOrNothing
