import Pandora.Backup.Copies

/-! # Rolling back

`InProgress` is what holds from the journal on: the operations after it change targets only, and the
copies stay. A rollback in which no operation fails brings back everything that was touched
(`rollbackRestore_triple`). -/

namespace Pandora.Backup.Rollback

open Lib.Triples Backup.Archive Backup.Paths Backup.Journal Backup.Restore List Backup.Outcomes
  Backup.Copies

variable {faults : Faults} {layout : Layout} {entries : List RecoveryEntry}
  {live₀ : Path → Option Stored} {disk : Disk}

/-! ## From the journal on -/

variable {originals : List (Planned × RestoreOriginal)} {journal : RestoreJournal}

/-- The journal has the entries and where their originals are; how many are applied is left open. -/
def SameEntries (originals : List (Planned × RestoreOriginal)) (journal : RestoreJournal) : Prop :=
  journal.entries.map (fun entry => { entry with applied := false }) =
    originals.map fun pair => journalEntryOf pair.1 pair.2

structure InProgress (layout : Layout) (live₀ : Path → Option Stored)
    (originals : List (Planned × RestoreOriginal)) (disk : Disk) : Prop where
  copies : CopiesKept layout live₀ originals disk
  journal : ∃ journal, disk.journal = some journal ∧ journal.isTerminal = false ∧
    SameEntries originals journal

theorem inProgress_putLive {path : Path} {stored : Option Stored}
    (h : InProgress layout live₀ originals disk) :
    InProgress layout live₀ originals (disk.putLive path stored) :=
  ⟨fun pair hpair => ⟨(h.copies pair hpair).main, (h.copies pair hpair).sidecars⟩, h.journal⟩

theorem inProgress_putJournal (hcopies : CopiesKept layout live₀ originals disk)
    (hopen : journal.isTerminal = false) (hsame : SameEntries originals journal) :
    InProgress layout live₀ originals (disk.putJournal journal) :=
  ⟨fun pair hpair => ⟨(hcopies pair hpair).main, (hcopies pair hpair).sidecars⟩,
    journal, rfl, hopen, hsame⟩

theorem recorded_of_keptAs {path : Path} {key : Option String}
    (h : KeptAs layout live₀ path key disk) : Recorded live₀ disk path key := by
  rcases key with _ | key
  · exact h
  · exact h.2

theorem sidecarOriginal_eq {recorded : RestoreJournalEntry} {planned : Planned}
    {original : RestoreOriginal} (h : { recorded with applied := false } =
      journalEntryOf planned original) (suffix : Suffix) :
    sidecarOriginal recorded suffix = original.sidecars.lookup suffix := by
  have hsidecars : recorded.sidecars =
      original.sidecars.map fun sidecar => ⟨sidecar.1, some sidecar.2⟩ :=
    congrArg RestoreJournalEntry.sidecars h
  unfold sidecarOriginal
  rw [hsidecars]
  generalize original.sidecars = sidecars
  induction sidecars with
  | nil => rfl
  | cons sidecar rest ih =>
    rw [map_cons, List.find?_cons, lookup_cons]
    by_cases heq : sidecar.1 = suffix
    · simp [heq]
    · have hne : (suffix == sidecar.1) = false := by simpa using fun h => heq h.symm
      simp only [heq, hne, decide_false]
      exact ih

theorem pending_of_inProgress (hprepared : Prepared layout entries live₀ originals)
    (h : InProgress layout live₀ originals disk) : Pending layout entries live₀ disk := by
  obtain ⟨journal, hjournal, hopen, hsame⟩ := h.journal
  refine ⟨journal, hjournal, hopen, fun entry hentry => ?_,
    fun recorded hrecorded target htarget => ?_⟩
  · rw [← hprepared.entries_eq, mem_map] at hentry
    obtain ⟨pair, hpair, rfl⟩ := hentry
    have hmem : journalEntryOf pair.1 pair.2 ∈
        journal.entries.map fun entry => { entry with applied := false } := by
      rw [hsame]
      exact mem_map_of_mem hpair
    rw [mem_map] at hmem
    obtain ⟨recorded, hrecorded, heq⟩ := hmem
    exact ⟨recorded, hrecorded, congrArg RestoreJournalEntry.target heq⟩
  · have hmem : { recorded with applied := false } ∈
        originals.map fun pair => journalEntryOf pair.1 pair.2 := by
      rw [← hsame]
      exact List.mem_map.mpr ⟨recorded, hrecorded, rfl⟩
    rw [mem_map] at hmem
    obtain ⟨pair, hpair, heq⟩ := hmem
    have hpath : recorded.target = pair.1.entry.path :=
      (congrArg RestoreJournalEntry.target heq).symm
    have horiginal : recorded.original = pair.2.main :=
      (congrArg RestoreJournalEntry.original heq).symm
    have hkept := h.copies pair hpair
    rw [hpath, (hprepared.planned pair hpair).target_eq, Except.ok.injEq] at htarget
    subst htarget
    refine ⟨horiginal ▸ recorded_of_keptAs hkept.main, fun suffix => ?_⟩
    rw [sidecarOriginal_eq heq.symm suffix]
    exact recorded_of_keptAs (hkept.sidecars suffix)

theorem whole_of_inProgress (hprepared : Prepared layout entries live₀ originals)
    (h : InProgress layout live₀ originals disk) : Whole layout entries live₀ disk :=
  whole_of_pending (pending_of_inProgress hprepared h)

theorem setState_triple {fate : Fate} {state : RestoreJournalState}
    {R : (Path → Option Stored) → Prop}
    (hopen : { journal with state := state }.isTerminal = false)
    (hsame : SameEntries originals journal) :
    Triple (fun disk => InProgress layout live₀ originals disk ∧ R disk.live)
      (setState fate journal state)
      (fun _ disk => InProgress layout live₀ originals disk ∧ R disk.live)
      fun _ disk => InProgress layout live₀ originals disk ∧ R disk.live := by
  have hput : ∀ disk, InProgress layout live₀ originals disk ∧ R disk.live →
      InProgress layout live₀ originals (disk.putJournal { journal with state := state }) ∧
        R (disk.putJournal { journal with state := state }).live :=
    fun disk h => ⟨inProgress_putJournal h.1.copies hopen hsame, h.2⟩
  unfold setState
  refine Triple.bind (liftResult_triple (fun _ _ _ h => h) fun _ _ h => h) fun _ => ?_
  refine writeJournal_triple (fun _ => hput) (fun _ _ h => h) ?_
  intro _ left _ disk h
  exact effect_keeps (I := fun disk => InProgress layout live₀ originals disk ∧ R disk.live) hput
    (fun _ _ h => h) left h

/-! ### Rolling back -/

/-- Outside the given paths everything is as it was. -/
def Restored (live₀ : Path → Option Stored) (changed : Path → Prop) (disk : Disk) : Prop :=
  ∀ path, ¬ changed path → disk.live path = live₀ path

def Touches (planned : Planned) (path : Path) : Prop :=
  path = planned.target ∨ ∃ suffix, path = restoreSidecarPath planned.target suffix

theorem restored_putLive {changed changed' : Path → Prop} {path : Path} {stored : Option Stored}
    (h : Restored live₀ changed disk) (hstored : ¬ changed' path → stored = live₀ path)
    (hchanged : ∀ other, other ≠ path → ¬ changed' other → ¬ changed other) :
    Restored live₀ changed' (disk.putLive path stored) := by
  intro other hother
  unfold Disk.putLive
  dsimp only
  split_ifs with heq
  · subst heq
    exact hstored hother
  · exact h other (hchanged other heq hother)

section Rollback

variable {changed : Path → Prop} {path : Path} {T : Prop}

theorem undoFile_triple {copy present remove : Fate} {backup : Option String}
    (hcopy : T → fails copy = false) (hpresent : T → fails present = false)
    (hremove : T → fails remove = false)
    (hkept : ∀ disk,
      CopiesKept layout live₀ originals disk → KeptAs layout live₀ path backup disk) :
    Triple (fun disk => InProgress layout live₀ originals disk ∧ (T → Restored live₀ changed disk))
      (undoFile copy present remove path backup)
      (fun _ disk => InProgress layout live₀ originals disk ∧
        (T → Restored live₀ (fun other => changed other ∧ other ≠ path) disk))
      fun stop disk => InProgress layout live₀ originals disk ∧ (T → stop = .crashed) := by
  have hput : ∀ (stored : Option Stored) disk, live₀ path = stored →
      InProgress layout live₀ originals disk ∧ (T → Restored live₀ changed disk) →
      InProgress layout live₀ originals (disk.putLive path stored) ∧
        (T → Restored live₀ (fun other => changed other ∧ other ≠ path)
          (disk.putLive path stored)) := by
    intro stored disk hstored h
    refine ⟨inProgress_putLive h.1, fun hT => restored_putLive (h.2 hT) (fun _ => hstored.symm) ?_⟩
    intro other hne hother hchanged
    exact hother ⟨hchanged, hne⟩
  have hkeep : ∀ stored (left : Left) torn disk,
      (∀ bytes disk, InProgress layout live₀ originals disk →
        InProgress layout live₀ originals (torn bytes disk)) →
      InProgress layout live₀ originals disk →
      InProgress layout live₀ originals (left.effect (Disk.putLive path stored) torn disk) :=
    fun stored left torn disk htorn h => effect_keeps (fun _ h => inProgress_putLive h) htorn left h
  rcases backup with _ | key
  · refine Triple.bind (Q := fun found disk =>
      (InProgress layout live₀ originals disk ∧ (T → Restored live₀ changed disk)) ∧
        (T → found = false → disk.live path = none)) ?_ ?_
    · refine query_triple (fun disk h => ⟨h, fun _ => ?_⟩) (fun left hfate disk h => ⟨h, ?_⟩) ?_
      · simp
      · intro hT
        have hfalse := hpresent hT
        rw [hfate] at hfalse
        cases hfalse
      · exact fun disk h => ⟨h.1, fun _ => rfl⟩
    · rintro (_ | _)
      · refine .pure fun disk h => ⟨h.1.1, fun hT other hother => ?_⟩
        by_cases heq : other = path
        · subst heq
          rw [h.2 hT rfl]
          exact (hkept disk h.1.1.copies).symm
        · exact h.1.2 hT other fun hchanged => hother ⟨hchanged, heq⟩
      · refine perform_triple ?_ ?_ ?_
        · exact fun _ disk h => hput none disk (hkept disk h.1.1.copies) h.1
        · intro left hfate disk h
          refine ⟨hkeep none left _ disk (fun _ _ h => h) h.1.1, fun hT => ?_⟩
          have hfalse := hremove hT
          rw [hfate] at hfalse
          cases hfalse
        · exact fun left _ disk h =>
            ⟨hkeep none left _ disk (fun _ _ h => h) h.1.1, fun _ => rfl⟩
  · show Triple _ (copyBack copy key path) _ _
    unfold copyBack
    refine .get fun disk h => ?_
    obtain ⟨-, bytes, hlive, hcopied⟩ := hkept disk h.1.copies
    rw [hcopied]
    refine perform_triple ?_ ?_ ?_
    · rintro - _ rfl
      exact hput (some (.file bytes)) _ hlive h
    · rintro left hfate _ rfl
      refine ⟨hkeep _ left _ _ (fun _ _ h => inProgress_putLive h) h.1, fun hT => ?_⟩
      have hfalse := hcopy hT
      rw [hfate] at hfalse
      cases hfalse
    · rintro left - _ rfl
      exact ⟨hkeep _ left _ _ (fun _ _ h => inProgress_putLive h) h.1, fun _ => rfl⟩

/-- The original found for a target is one that was copied for it. -/
theorem kept_of_originalOf {target : Path} {original : RestoreOriginal}
    (h : originalOf originals target = some original)
    (hcopies : CopiesKept layout live₀ originals disk) :
    KeptAs layout live₀ target original.main disk ∧ ∀ suffix,
      KeptAs layout live₀ (restoreSidecarPath target suffix) (original.sidecars.lookup suffix)
        disk := by
  unfold originalOf at h
  rw [Option.map_eq_some_iff] at h
  obtain ⟨pair, hfind, rfl⟩ := h
  have htarget : pair.1.target = target := by simpa using List.find?_some hfind
  have hmem : pair ∈ originals := List.mem_reverse.mp (mem_of_find?_eq_some hfind)
  subst htarget
  exact ⟨(hcopies pair hmem).main, (hcopies pair hmem).sidecars⟩

theorem originalOf_of_mem {pair : Planned × RestoreOriginal} (h : pair ∈ originals) :
    ∃ original, originalOf originals pair.1.target = some original := by
  have hfind : (originals.reverse.find? fun other =>
      other.1.target = pair.1.target).isSome := by
    rw [List.find?_isSome]
    exact ⟨pair, List.mem_reverse.mpr h, by simp⟩
  obtain ⟨found, hfound⟩ := Option.isSome_iff_exists.mp hfind
  unfold originalOf
  rw [hfound]
  exact ⟨found.2, rfl⟩

theorem undoEntry_triple {pair : Planned × RestoreOriginal} (changed : Path → Prop)
    (hpair : pair ∈ originals)
    (hT : T → ∀ op, ofRollback op = true → fails (faults op) = false) :
    Triple (fun disk => InProgress layout live₀ originals disk ∧ (T → Restored live₀ changed disk))
      (undoEntry faults originals pair.1)
      (fun _ disk => InProgress layout live₀ originals disk ∧
        (T → Restored live₀ (fun path => changed path ∧ ¬ Touches pair.1 path) disk))
      fun stop disk => InProgress layout live₀ originals disk ∧ (T → stop = .crashed) := by
  obtain ⟨original, horiginal⟩ := originalOf_of_mem hpair
  unfold undoEntry
  rw [horiginal]
  refine (undoFile_triple (fun h => hT h _ rfl) (fun h => hT h _ rfl) (fun h => hT h _ rfl)
    fun disk h => (kept_of_originalOf horiginal h).1).bind fun _ => ?_
  -- the sidecars before `rest` are as they were
  refine (Triple.forM (fun rest disk => InProgress layout live₀ originals disk ∧
    (T → Restored live₀ (fun path => (changed path ∧ path ≠ pair.1.target) ∧
      ∀ suffix, suffix ∉ rest → path ≠ restoreSidecarPath pair.1.target suffix) disk)) ?_).conseq
    ?_ ?_ fun _ _ h => h
  · intro suffix rest
    unfold undoSidecar
    refine (undoFile_triple (fun h => hT h _ rfl) (fun h => hT h _ rfl) (fun h => hT h _ rfl)
      fun disk h => (kept_of_originalOf horiginal h).2 suffix).conseq (fun _ h => h) ?_
      fun _ _ h => h
    rintro _ disk ⟨hprogress, hrestored⟩
    refine ⟨hprogress, fun h path hpath => hrestored h path fun hchanged => hpath ?_⟩
    refine ⟨hchanged.1.1, fun other hother => ?_⟩
    by_cases heq : other = suffix
    · subst heq
      exact hchanged.2
    · exact hchanged.1.2 other fun hmem => (List.mem_cons.mp hmem).elim heq hother
  · rintro disk ⟨hprogress, hrestored⟩
    refine ⟨hprogress, fun h path hpath => hrestored h path fun hchanged => hpath ⟨hchanged, ?_⟩⟩
    intro suffix hsuffix
    exact absurd (by cases suffix <;> decide : suffix ∈ Suffix.all) hsuffix
  · rintro _ disk ⟨hprogress, hrestored⟩
    refine ⟨hprogress, fun h path hpath => hrestored h path fun hchanged => hpath ?_⟩
    refine ⟨hchanged.1.1, ?_⟩
    rintro (htarget | ⟨suffix, hsuffix⟩)
    · exact hchanged.1.2 htarget
    · exact hchanged.2 suffix not_mem_nil hsuffix

theorem rollbackRestore_triple {written : List Planned}
    (hwritten : ∀ planned ∈ written, planned ∈ originals.map (·.1))
    (hT : T → ∀ op, ofRollback op = true → fails (faults op) = false) :
    Triple (fun disk => InProgress layout live₀ originals disk ∧
        (T → Restored live₀ (fun path => ∃ planned ∈ written, Touches planned path) disk))
      (rollbackRestore faults originals written)
      (fun _ disk => InProgress layout live₀ originals disk ∧ (T → disk.live = live₀))
      fun stop disk => InProgress layout live₀ originals disk ∧ (T → stop = .crashed) := by
  unfold rollbackRestore
  refine (Triple.forM (fun rest disk => (∀ planned ∈ rest, planned ∈ originals.map (·.1)) ∧
    InProgress layout live₀ originals disk ∧
    (T → Restored live₀ (fun path => ∃ planned ∈ rest, Touches planned path) disk)) ?_).conseq
    ?_ ?_ fun _ _ h => h
  · intro planned rest
    refine .each fun disk h => ?_
    obtain ⟨hmem, hrest⟩ := h
    obtain ⟨pair, hpair, rfl⟩ := List.mem_map.mp (hmem planned mem_cons_self)
    refine (undoEntry_triple (fun path => ∃ planned ∈ pair.1 :: rest, Touches planned path) hpair
      hT).conseq ?_ ?_ fun _ _ h => h
    · rintro _ rfl
      exact hrest
    · rintro _ disk' ⟨hprogress, hrestored⟩
      refine ⟨fun other hother => hmem other (mem_cons_of_mem _ hother), hprogress, ?_⟩
      intro h path hpath
      refine hrestored h path ?_
      rintro ⟨⟨other, hother, htouches⟩, hnot⟩
      rcases List.mem_cons.mp hother with rfl | hmem'
      · exact hnot htouches
      · exact hpath ⟨other, hmem', htouches⟩
  · rintro disk ⟨hprogress, hrestored⟩
    refine ⟨fun planned hplanned => hwritten planned (List.mem_reverse.mp hplanned), hprogress, ?_⟩
    intro h path hpath
    refine hrestored h path ?_
    rintro ⟨planned, hplanned, htouches⟩
    exact hpath ⟨planned, List.mem_reverse.mpr hplanned, htouches⟩
  · rintro _ disk ⟨-, hprogress, hrestored⟩
    refine ⟨hprogress, fun h => funext fun path => hrestored h path ?_⟩
    rintro ⟨planned, hplanned, -⟩
    exact absurd hplanned not_mem_nil

theorem setOutcome_triple {state : RestoreJournalState}
    (hprepared : Prepared layout entries live₀ originals)
    (hT : T ∨ takesEffect (faults .setOutcome) = false) :
    Triple (fun disk => InProgress layout live₀ originals disk ∧ (T → disk.live = live₀))
      (setState (faults .setOutcome) journal state) (fun _ => Whole layout entries live₀)
      fun _ => Whole layout entries live₀ := by
  have hsame : ∀ disk, InProgress layout live₀ originals disk ∧ (T → disk.live = live₀) →
      Whole layout entries live₀ disk := fun disk h => whole_of_inProgress hprepared h.1
  have hput : ∀ disk, takesEffect (faults .setOutcome) = true →
      InProgress layout live₀ originals disk ∧ (T → disk.live = live₀) →
      Whole layout entries live₀ (disk.putJournal { journal with state := state }) := by
    intro disk htakes h
    rcases hT with hT | hT
    · exact whole_of_live (h.2 hT)
    · rw [hT] at htakes
      cases htakes
  unfold setState
  refine Triple.bind (Q := fun _ disk => InProgress layout live₀ originals disk ∧
    (T → disk.live = live₀)) (liftResult_triple (fun _ _ _ h => h) fun _ => hsame) fun _ => ?_
  refine writeJournal_triple ?_ (fun _ => hsame) ?_
  · intro hfate disk h
    exact hput disk (by rw [hfate]; rfl) h
  · intro _ left hfate disk h
    rcases left with _ | _ | bytes
    · exact hsame disk h
    · refine hput disk ?_ h
      rcases hfate with hfate | hfate
      all_goals
        rw [hfate]
        rfl
    · exact hsame disk h

/-- Nothing has changed but the targets that were written, and their sidecars. -/
def Midway (layout : Layout) (live₀ : Path → Option Stored)
    (originals : List (Planned × RestoreOriginal)) (written : List Planned) (disk : Disk) : Prop :=
  InProgress layout live₀ originals disk ∧
    Restored live₀ (fun path => ∃ planned ∈ written, Touches planned path) disk

theorem rollbackFailedRestore_triple {α : Type} {Q : α → Disk → Prop} {written : List Planned}
    {error : RestoreError} (hdependable : Dependable faults layout entries live₀)
    (hprepared : Prepared layout entries live₀ originals)
    (hwritten : ∀ planned ∈ written, planned ∈ originals.map (·.1))
    (hsame : SameEntries originals journal) :
    Triple (Midway layout live₀ originals written)
      (rollbackFailedRestore faults originals journal written error) Q
      fun _ => Whole layout entries live₀ := by
  unfold rollbackFailedRestore
  refine Triple.bind (Q := fun _ => Midway layout live₀ originals written)
    ((attempt_triple (setState_triple (R := fun live => ∀ path,
      ¬ (∃ planned ∈ written, Touches planned path) → live path = live₀ path) rfl hsame)
      (fun _ _ h => h) fun _ _ h => h).conseq (fun _ h => h) (fun _ _ h => h)
      fun _ _ h => whole_of_inProgress hprepared h.1) fun stateWrite => ?_
  refine Triple.bind (Q := fun _ disk => InProgress layout live₀ originals disk ∧
    ((∀ op, ofRollback op = true → fails (faults op) = false) → disk.live = live₀))
    ((attempt_triple (rollbackRestore_triple hwritten
      (T := ∀ op, ofRollback op = true → fails (faults op) = false) id) (fun _ _ h => h) ?_).conseq
      ?_ (fun _ _ h => h) fun _ _ h => whole_of_inProgress hprepared h.1) fun rollback => ?_
  · rintro error disk ⟨hprogress, hcrashed⟩
    exact ⟨hprogress, fun h => nomatch hcrashed h⟩
  · exact fun disk h => ⟨h.1, fun _ => h.2⟩
  refine Triple.bind (Q := fun _ => Whole layout entries live₀)
    (attempt_triple (setOutcome_triple hprepared hdependable.rollback) (fun _ _ h => h)
      fun _ _ h => h) fun _ => ?_
  exact fail_triple fun _ h => h

end Rollback

end Pandora.Backup.Rollback
