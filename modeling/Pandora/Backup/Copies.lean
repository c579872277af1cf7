import Pandora.Backup.Outcomes

/-! # The copies of the originals

Before its journal is written a restore only copies. Two files never have one copy (`keyOf_unique`),
and so a copy stays complete while the others are made (`Stable`). -/

namespace Pandora.Backup.Copies

open Lib.Triples Backup.Archive Backup.Paths Backup.Journal Backup.Restore List Backup.Outcomes
  Triple

variable {faults : Faults} {layout : Layout} {entries : List RecoveryEntry}
  {live₀ : Path → Option Stored} {disk : Disk}

/-! ## The operations -/

section Operations

variable {α : Type} {P : Disk → Prop} {Q : α → Disk → Prop} {E : Stop → Disk → Prop}
  {fate : Fate} {path : Path}

theorem perform_triple {error : RestoreError} {done : Disk → Disk} {torn : List UInt8 → Disk → Disk}
    {Q : Unit → Disk → Prop} (hok : fate = .success → ∀ disk, P disk → Q () (done disk))
    (hfailure : ∀ left, fate = .failure left → ∀ disk, P disk →
      E (.failed error) (left.effect done torn disk))
    (hcrash : ∀ left, fate = .crash left → ∀ disk, P disk →
      E .crashed (left.effect done torn disk)) :
    Triple P (perform fate error done torn) Q E := by
  unfold perform
  rcases fate with _ | left | left
  · exact .modify (hok rfl)
  · refine bind (Q := fun _ disk => E (.failed error) disk)
      (.modify (hfailure left rfl)) fun _ => .throw fun disk h => h
  · refine bind (Q := fun _ disk => E .crashed disk)
      (.modify (hcrash left rfl)) fun _ => .throw fun disk h => h

theorem effect_keeps {I : Disk → Prop} {done : Disk → Disk} {torn : List UInt8 → Disk → Disk}
    (hdone : ∀ disk, I disk → I (done disk)) (htorn : ∀ bytes disk, I disk → I (torn bytes disk))
    (left : Left) (h : I disk) : I (left.effect done torn disk) := by
  rcases left with _ | _ | bytes
  · exact h
  · exact hdone disk h
  · exact htorn bytes disk h

theorem query_triple {answer : Disk → Bool} {Q : Bool → Disk → Prop}
    (hanswer : ∀ disk, P disk → Q (answer disk) disk)
    (hfailure : ∀ left, fate = .failure left → ∀ disk, P disk → Q false disk)
    (hcrash : ∀ disk, P disk → E .crashed disk) : Triple P (query fate answer) Q E := by
  unfold query
  rcases fate with _ | left | left
  · refine .get fun disk h => .pure ?_
    rintro _ rfl
    exact hanswer _ h
  · exact .pure (hfailure left rfl)
  · exact .throw hcrash

theorem fail_triple {error : RestoreError} (h : ∀ disk, P disk → E (.failed error) disk) :
    Triple P (fail error : RestoreM α) Q E := .throw h

theorem liftResult_triple {ε : Type} {wrap : ε → RestoreError} {result : Except ε α}
    (hok : ∀ a, result = .ok a → ∀ disk, P disk → Q a disk)
    (herror : ∀ error disk, P disk → E (.failed error) disk) :
    Triple P (liftResult wrap result) Q E := by
  unfold liftResult
  rcases result with error | a
  · exact fail_triple (herror _)
  · exact .pure (hok a rfl)

theorem attempt_triple {m : RestoreM α} {Q' : Except RestoreError α → Disk → Prop}
    (h : Triple P m Q E) (hok : ∀ a disk, Q a disk → Q' (.ok a) disk)
    (herror : ∀ error disk, E (.failed error) disk → Q' (.error error) disk) :
    Triple P (attempt m) Q' E := by
  refine ⟨fun disk hP => ?_⟩
  unfold attempt
  rcases hrun : m disk with ⟨a, disk'⟩ | ⟨stop, disk'⟩
  · exact hok a disk' (h.ok hP hrun)
  · rcases stop with error | _
    · exact herror error disk' (h.error hP hrun)
    · exact h.error hP hrun

theorem metadata_triple {Q : Option Stored → Disk → Prop}
    (hok : ∀ disk, P disk → Q (disk.live path) disk) (herror : ∀ stop disk, P disk → E stop disk) :
    Triple P (existingSidecarMetadata fate path) Q E := by
  unfold existingSidecarMetadata
  rcases fate with _ | left | left
  · refine .get fun disk h => .pure ?_
    rintro _ rfl
    exact hok _ h
  · exact fail_triple (herror _)
  · exact .throw (herror _)

theorem rejectUnsafeTarget_triple {Q : Unit → Disk → Prop}
    (hok : ∀ disk, P disk → disk.live path ≠ some .other → Q () disk)
    (herror : ∀ stop disk, P disk → E stop disk) : Triple P (rejectUnsafeTarget path) Q E := by
  unfold rejectUnsafeTarget
  refine .get fun disk h => ?_
  split
  · exact fail_triple fun _ heq => heq ▸ herror _ disk h
  · rename_i hother
    refine .pure ?_
    rintro _ rfl
    exact hok _ h fun heq => hother heq

theorem writeJournal_triple {journal : RestoreJournal} {Q : Unit → Disk → Prop}
    (hok : fate = .success → ∀ disk, P disk → Q () (disk.putJournal journal))
    (hkept : ∀ error disk, P disk → E (.failed error) disk)
    (hstop : ∀ stop left, fate = .failure left ∨ fate = .crash left →
      ∀ disk, P disk → E stop (left.effect (Disk.putJournal journal) (fun _ => id) disk)) :
    Triple P (writeJournal fate journal) Q E := by
  unfold writeJournal
  refine bind (Q := fun _ => P) (liftResult_triple (fun _ _ _ h => h) hkept) fun _ => ?_
  exact perform_triple hok (fun left hfate => hstop _ left (.inl hfate))
    fun left hfate => hstop _ left (.inr hfate)

end Operations

/-! ## Where the copies are -/

def configCopy : Path := [.normal "config", .normal "config.json"]

theorem named_configCopy : Named configCopy := by
  intro c hc
  have hc' : c = .normal "config" ∨ c = .normal "config.json" := by simpa [configCopy] using hc
  rcases hc' with rfl | rfl
  · exact ⟨_, rfl, by decide⟩
  · exact ⟨_, rfl, by decide⟩

/-- The path of a copy in the recovery directory. -/
def CopiedTo (layout : Layout) (copy path : Path) : Prop :=
  (copy = configCopy ∧ path = layout.configPath) ∨
    (∃ suffix, copy = restoreSidecarPath configCopy suffix ∧
      path = restoreSidecarPath layout.configPath suffix) ∨
    ∃ relative, copy = .normal "data" :: relative ∧ path = layout.dataDir ++ relative

def KeyOf (layout : Layout) (key : String) (path : Path) : Prop :=
  ∃ copy, Named copy ∧ key = pathText copy ∧ CopiedTo layout copy path

theorem configCopy_facts (suffix other : Suffix) (relative : Path) :
    configCopy ≠ restoreSidecarPath configCopy suffix ∧ configCopy ≠ .normal "data" :: relative ∧
      restoreSidecarPath configCopy suffix ≠ .normal "data" :: relative ∧
      (restoreSidecarPath configCopy suffix = restoreSidecarPath configCopy other →
        suffix = other) := by
  have hhead : ∀ suffix,
      (restoreSidecarPath configCopy suffix).head? = some (.normal "config") := by
    intro suffix
    cases suffix <;> decide
  refine ⟨?_, ?_, ?_, ?_⟩
  · cases suffix <;> decide
  · intro h
    have h' := congrArg List.head? h
    exact absurd h' (by simp [configCopy])
  · intro h
    have h' := congrArg List.head? h
    rw [hhead] at h'
    exact absurd h' (by simp)
  · cases suffix <;> cases other <;> decide

theorem keyOf_unique {key : String} {p q : Path} (hp : KeyOf layout key p)
    (hq : KeyOf layout key q) : p = q := by
  obtain ⟨copy, hnamed, rfl, hcopy⟩ := hp
  obtain ⟨copy', hnamed', hkey, hcopy'⟩ := hq
  have heq := pathText_inj hnamed hnamed' hkey
  subst heq
  rcases hcopy with ⟨rfl, rfl⟩ | ⟨s, rfl, rfl⟩ | ⟨relative, rfl, rfl⟩
  · rcases hcopy' with ⟨-, rfl⟩ | ⟨s', h, -⟩ | ⟨relative', h, -⟩
    · rfl
    · exact absurd h (configCopy_facts s' s' []).1
    · exact absurd h (configCopy_facts .wal .wal relative').2.1
  · rcases hcopy' with ⟨h, -⟩ | ⟨s', h, rfl⟩ | ⟨relative', h, -⟩
    · exact absurd h.symm (configCopy_facts s s []).1
    · rw [(configCopy_facts s s' []).2.2.2 h]
    · exact absurd h (configCopy_facts s s relative').2.2.1
  · rcases hcopy' with ⟨h, -⟩ | ⟨s', h, -⟩ | ⟨relative', h, rfl⟩
    · exact absurd h.symm (configCopy_facts .wal .wal relative).2.1
    · exact absurd h.symm (configCopy_facts s' s' relative).2.2.1
    · rw [(cons_eq_cons.mp h).2]

/-- What `planTarget` has found out about an entry. -/
structure WellPlanned (layout : Layout) (live₀ : Path → Option Stored) (planned : Planned) :
    Prop where
  target_eq : restoreTarget planned.entry.path layout = .ok planned.target
  safe : live₀ planned.target ≠ some .other
  place : planned.target = layout.configPath ∨ ∃ relative, relative ≠ [] ∧ Named relative ∧
    (∀ name, .normal name ∈ relative → '\\' ∉ name.toList) ∧
    planned.target = layout.dataDir ++ relative

theorem portable_eq {path : Path} (h : Named path)
    (hnames : ∀ name, .normal name ∈ path → '\\' ∉ name.toList) :
    portableRelativePath path = pathText path :=
  forwardSlashes_eq_self (no_backslash_pathText h hnames)

theorem keys_of_backup {planned : Planned} {relative : Path} (h : WellPlanned layout live₀ planned)
    (hrelative : backupRelativePath planned.target layout = .ok relative) :
    KeyOf layout (portableRelativePath relative) planned.target ∧ ∀ suffix,
      KeyOf layout (portableRelativePath relative ++ "-" ++ suffix.text)
        (restoreSidecarPath planned.target suffix) := by
  unfold backupRelativePath at hrelative
  split_ifs at hrelative with hconfig
  · rw [Except.ok.injEq] at hrelative
    subst hrelative
    have hportable : portableRelativePath configCopy = pathText configCopy := by decide +kernel
    show KeyOf layout (portableRelativePath configCopy) _ ∧ ∀ suffix : Suffix,
      KeyOf layout (portableRelativePath configCopy ++ "-" ++ suffix.text) _
    rw [hportable, hconfig]
    refine ⟨⟨configCopy, named_configCopy, rfl, .inl ⟨rfl, rfl⟩⟩, fun suffix => ?_⟩
    refine ⟨_, named_sidecar named_configCopy (by decide) suffix, ?_, .inr
      (.inl ⟨suffix, rfl, rfl⟩)⟩
    exact (pathText_sidecar named_configCopy (by decide) suffix).symm
  · obtain hplace | ⟨rest, hne, hnamed, hnames, hplace⟩ := h.place
    · exact absurd hplace hconfig
    · split at hrelative
      · rename_i found hstrip
        rw [Except.ok.injEq] at hrelative
        subst hrelative
        have hrest := stripPrefix_eq_some hstrip
        rw [hplace, append_cancel_left_eq] at hrest
        subst hrest
        have hdata : Named (.normal "data" :: rest) :=
          named_append.mpr ⟨named_singleton (by decide), hnamed⟩
        have hclean : ∀ name, .normal name ∈ Component.normal "data" :: rest →
            '\\' ∉ name.toList := by
          intro name hname
          rcases mem_cons.mp hname with heq | hmem
          · rw [Component.normal.injEq] at heq
            subst heq
            decide
          · exact hnames name hmem
        rw [portable_eq hdata hclean, hplace]
        refine ⟨⟨_, hdata, rfl, .inr (.inr ⟨rest, rfl, rfl⟩)⟩, fun suffix => ?_⟩
        have hbelow := sidecar_append hnamed hne [.normal "data"] suffix
        rw [singleton_append, singleton_append] at hbelow
        refine ⟨_, named_sidecar hdata (cons_ne_nil _ _) suffix,
          (pathText_sidecar hdata (cons_ne_nil _ _) suffix).symm, .inr (.inr ?_)⟩
        exact ⟨_, hbelow, sidecar_append hnamed hne layout.dataDir suffix⟩
      · cases hrelative

/-! ## Before the journal -/

/-- The copy of a file is complete. -/
def Kept (layout : Layout) (live₀ : Path → Option Stored) (path : Path) (key : String)
    (disk : Disk) : Prop :=
  KeyOf layout key path ∧
    ∃ bytes, live₀ path = some (.file bytes) ∧ disk.recovery key = some (.file bytes)

def KeptAs (layout : Layout) (live₀ : Path → Option Stored) (path : Path) (key : Option String)
    (disk : Disk) : Prop :=
  match key with
  | some key => Kept layout live₀ path key disk
  | none => live₀ path = none

structure OriginalKept (layout : Layout) (live₀ : Path → Option Stored) (planned : Planned)
    (original : RestoreOriginal) (disk : Disk) : Prop where
  main : KeptAs layout live₀ planned.target original.main disk
  sidecars : ∀ suffix, KeptAs layout live₀ (restoreSidecarPath planned.target suffix)
    (original.sidecars.lookup suffix) disk

/-- What stays when a further file is copied. -/
def Stable (layout : Layout) (live₀ : Path → Option Stored) (P : Disk → Prop) : Prop :=
  ∀ disk key path bytes, P disk → KeyOf layout key path → live₀ path = some (.file bytes) →
    P (disk.putRecovery key bytes)

/-- Nothing but the recovery directory has changed. -/
def Unchanged (live₀ : Path → Option Stored) (disk : Disk) : Prop :=
  disk.live = live₀ ∧ disk.journal = none

theorem stable_kept (path : Path) (key : String) :
    Stable layout live₀ (Kept layout live₀ path key) := by
  rintro disk key' path' bytes' ⟨hkey, bytes, hlive, hcopy⟩ hkey' hlive'
  refine ⟨hkey, bytes, hlive, ?_⟩
  unfold Disk.putRecovery
  dsimp only
  split_ifs with heq
  · subst heq
    rw [← keyOf_unique hkey hkey', hlive] at hlive'
    exact hlive'.symm
  · exact hcopy

theorem stable_keptAs (path : Path) (key : Option String) :
    Stable layout live₀ (KeptAs layout live₀ path key) := by
  rcases key with _ | key
  · intro disk _ _ _ h _ _
    exact h
  · exact stable_kept path key

theorem stable_original (planned : Planned) (original : RestoreOriginal) :
    Stable layout live₀ (OriginalKept layout live₀ planned original) := by
  intro disk key path bytes h hkey hlive
  refine ⟨stable_keptAs _ _ disk key path bytes h.main hkey hlive, fun suffix => ?_⟩
  exact stable_keptAs _ _ disk key path bytes (h.sidecars suffix) hkey hlive

theorem stable_and {P Q : Disk → Prop} (hP : Stable layout live₀ P) (hQ : Stable layout live₀ Q) :
    Stable layout live₀ fun disk => P disk ∧ Q disk :=
  fun disk key path bytes h hkey hlive =>
    ⟨hP disk key path bytes h.1 hkey hlive, hQ disk key path bytes h.2 hkey hlive⟩

section Copies

variable {P : Disk → Prop} {fate : Fate} {path : Path} {key : String} {planned : Planned}

theorem copyOut_triple (hP : Stable layout live₀ P) (hkey : KeyOf layout key path) :
    Triple (fun disk => Unchanged live₀ disk ∧ P disk) (copyOut fate path key)
      (fun _ disk => Unchanged live₀ disk ∧ P disk ∧ Kept layout live₀ path key disk)
      fun _ => Unchanged live₀ := by
  unfold copyOut
  refine .get fun disk h => ?_
  obtain ⟨hunchanged, hstable⟩ := h
  split
  · rename_i bytes hfile
    rw [hunchanged.1] at hfile
    refine perform_triple ?_ ?_ ?_
    · rintro - _ rfl
      refine ⟨hunchanged, hP _ key path bytes hstable hkey hfile, hkey, bytes, hfile, ?_⟩
      unfold Disk.putRecovery
      dsimp only
      rw [if_pos rfl]
    · rintro left - _ rfl
      refine effect_keeps ?_ ?_ left hunchanged
      · exact fun _ h => h
      · exact fun _ _ h => h
    · rintro left - _ rfl
      refine effect_keeps ?_ ?_ left hunchanged
      · exact fun _ h => h
      · exact fun _ _ h => h
  · refine fail_triple ?_
    rintro _ rfl
    exact hunchanged

theorem backupMain_triple (hP : Stable layout live₀ P) (hsafe : live₀ planned.target ≠ some .other)
    (hkey : KeyOf layout key planned.target)
    (hquery : fails (faults (.isFile planned.index)) = true → live₀ planned.target = none) :
    Triple (fun disk => Unchanged live₀ disk ∧ P disk) (backupMain faults planned key)
      (fun main disk =>
        Unchanged live₀ disk ∧ P disk ∧ KeptAs layout live₀ planned.target main disk)
      fun _ => Unchanged live₀ := by
  unfold backupMain
  refine bind (Q := fun isFile disk => (Unchanged live₀ disk ∧ P disk) ∧
    (isFile = false → live₀ planned.target = none)) ?_ ?_
  · refine query_triple ?_ ?_ fun _ h => h.1
    · intro disk h
      refine ⟨h, fun hfalse => ?_⟩
      rw [h.1.1] at hfalse
      split at hfalse
      · cases hfalse
      · rename_i hfile
        rcases hlive : live₀ planned.target with _ | stored
        · rfl
        · rcases stored with bytes | _
          · exact absurd hlive (hfile bytes)
          · exact absurd hlive hsafe
    · intro left hfate disk h
      exact ⟨h, fun _ => hquery (by rw [hfate]; rfl)⟩
  · rintro (_ | _)
    · exact .pure fun disk h => ⟨h.1.1, h.1.2, h.2 rfl⟩
    · refine bind ((copyOut_triple hP hkey).pre fun _ h => h.1) fun _ => ?_
      exact .pure fun disk h => h

theorem backupSidecar_triple (hP : Stable layout live₀ P) (suffix : Suffix)
    (hkey : KeyOf layout (key ++ "-" ++ suffix.text) (restoreSidecarPath planned.target suffix)) :
    Triple (fun disk => Unchanged live₀ disk ∧ P disk) (backupSidecar faults planned key suffix)
      (fun found disk => (∀ sidecar ∈ found, sidecar.1 = suffix) ∧ Unchanged live₀ disk ∧ P disk ∧
        KeptAs layout live₀ (restoreSidecarPath planned.target suffix) (found.lookup suffix) disk)
      fun _ => Unchanged live₀ := by
  unfold backupSidecar
  dsimp only
  refine bind (Q := fun metadata disk => (Unchanged live₀ disk ∧ P disk) ∧
    metadata = live₀ (restoreSidecarPath planned.target suffix)) ?_ ?_
  · refine metadata_triple (fun disk h => ⟨h, ?_⟩) fun _ _ h => h.1
    rw [h.1.1]
  · rintro (_ | bytes | _)
    · exact .pure fun disk h => ⟨forall_mem_nil _, h.1.1, h.1.2, h.2.symm⟩
    · refine bind ((copyOut_triple hP hkey).pre fun _ h => h.1) fun _ => .pure ?_
      rintro disk ⟨hunchanged, hstable, hkept⟩
      refine ⟨by simp, hunchanged, hstable, ?_⟩
      simpa [KeptAs] using hkept
    · exact fail_triple fun disk h => h.1.1

theorem backupRestoreSidecars_eq : backupRestoreSidecars faults planned key = (do
    let wal ← backupSidecar faults planned key .wal
    let shm ← backupSidecar faults planned key .shm
    let journal ← backupSidecar faults planned key .journal
    pure (wal ++ (shm ++ journal))) := by
  unfold backupRestoreSidecars Suffix.all
  simp only [mapM_cons, mapM_nil, bind_assoc, pure_bind, flatten_cons,
    flatten_nil, append_nil]

theorem lookup_of_ne {found : List (Suffix × String)} {suffix other : Suffix} (hne : suffix ≠ other)
    (h : ∀ sidecar ∈ found, sidecar.1 = suffix) : found.lookup other = none := by
  rw [lookup_eq_none_iff]
  intro sidecar hmem
  rw [h sidecar hmem]
  simpa using fun heq => hne heq.symm

theorem backupRestoreSidecars_triple (hP : Stable layout live₀ P)
    (hkeys : ∀ suffix : Suffix, KeyOf layout (key ++ "-" ++ suffix.text)
      (restoreSidecarPath planned.target suffix)) :
    Triple (fun disk => Unchanged live₀ disk ∧ P disk) (backupRestoreSidecars faults planned key)
      (fun sidecars disk => Unchanged live₀ disk ∧ P disk ∧ ∀ suffix,
        KeptAs layout live₀ (restoreSidecarPath planned.target suffix)
          (sidecars.lookup suffix) disk)
      fun _ => Unchanged live₀ := by
  rw [backupRestoreSidecars_eq]
  refine (backupSidecar_triple hP .wal (hkeys .wal)).bind fun wal => .each fun disk h => ?_
  obtain ⟨hwal, hrest⟩ := h
  have hP₁ := stable_and hP
    (stable_keptAs (restoreSidecarPath planned.target .wal) (wal.lookup .wal))
  refine ((backupSidecar_triple hP₁ .shm (hkeys .shm)).pre ?_).bind fun shm =>
    .each fun disk' h' => ?_
  · rintro _ rfl
    exact hrest
  obtain ⟨hshm, hunchanged, ⟨hstable, hkeptwal⟩, hkeptshm⟩ := h'
  have hP₂ := stable_and hP₁
    (stable_keptAs (restoreSidecarPath planned.target .shm) (shm.lookup .shm))
  refine ((backupSidecar_triple hP₂ .journal (hkeys .journal)).pre ?_).bind fun journal => ?_
  · rintro _ rfl
    exact ⟨hunchanged, ⟨hstable, hkeptwal⟩, hkeptshm⟩
  refine .pure fun disk'' h'' => ?_
  obtain ⟨hjournal, hunchanged'', ⟨⟨hstable'', hkeptwal''⟩, hkeptshm''⟩, hkeptjournal''⟩ := h''
  refine ⟨hunchanged'', hstable'', fun suffix => ?_⟩
  rw [lookup_append, lookup_append]
  rcases suffix with _ | _ | _
  · rw [lookup_of_ne (by decide : Suffix.shm ≠ .wal) hshm,
      lookup_of_ne (by decide : Suffix.journal ≠ .wal) hjournal, Option.or_none, Option.or_none]
    exact hkeptwal''
  · rw [lookup_of_ne (by decide : Suffix.wal ≠ .shm) hwal,
      lookup_of_ne (by decide : Suffix.journal ≠ .shm) hjournal, Option.or_none, Option.none_or]
    exact hkeptshm''
  · rw [lookup_of_ne (by decide : Suffix.wal ≠ .journal) hwal,
      lookup_of_ne (by decide : Suffix.shm ≠ .journal) hshm, Option.none_or, Option.none_or]
    exact hkeptjournal''

theorem backupOriginal_triple (hP : Stable layout live₀ P)
    (hplanned : WellPlanned layout live₀ planned)
    (hquery : fails (faults (.isFile planned.index)) = true → live₀ planned.target = none) :
    Triple (fun disk => Unchanged live₀ disk ∧ P disk) (backupOriginal faults layout planned)
      (fun original disk => Unchanged live₀ disk ∧ P disk ∧
        OriginalKept layout live₀ planned original disk)
      fun _ => Unchanged live₀ := by
  unfold backupOriginal
  refine bind (Q := fun relative disk => (Unchanged live₀ disk ∧ P disk) ∧
    backupRelativePath planned.target layout = .ok relative) ?_ fun relative => .each ?_
  · exact liftResult_triple (fun relative hok disk h => ⟨h, hok⟩) fun _ _ h => h.1
  rintro disk ⟨h, hrelative⟩
  obtain ⟨hkey, hkeys⟩ := keys_of_backup hplanned hrelative
  refine ((backupMain_triple hP hplanned.safe hkey hquery).pre ?_).bind fun main => ?_
  · rintro _ rfl
    exact h
  refine (backupRestoreSidecars_triple (stable_and hP (stable_keptAs _ main)) hkeys).bind
    fun sidecars => ?_
  dsimp only
  refine bind (Q := fun _ disk => Unchanged live₀ disk ∧ P disk ∧
    OriginalKept layout live₀ planned ⟨main, sidecars⟩ disk) ?_ fun _ => .pure fun _ h => h
  refine liftResult_triple ?_ fun _ _ h => h.1
  rintro - - disk ⟨hunchanged, ⟨hstable, hmain⟩, hsidecars⟩
  exact ⟨hunchanged, hstable, hmain, hsidecars⟩

end Copies

/-! ### The plan -/

theorem inspectPath_triple {fate : Fate} {path : Path} :
    Triple (Unchanged live₀) (inspectPath fate path)
      (fun _ disk => Unchanged live₀ disk ∧ live₀ path ≠ some .other) fun _ => Unchanged live₀ := by
  unfold inspectPath
  rcases fate with _ | left | left
  · refine rejectUnsafeTarget_triple (fun disk h hother => ⟨h, ?_⟩) fun _ _ h => h
    rw [← h.1]
    exact hother
  · exact fail_triple fun _ h => h
  · exact .throw fun _ h => h

/-- What is below the data directory in a target that was let through. -/
theorem place_of_strip {entry : RecoveryEntry} {target relative : Path}
    (hclean : '\\' ∉ entry.path.toList) (htarget : restoreTarget entry.path layout = .ok target)
    (hconfig : target ≠ layout.configPath)
    (hstrip : stripPrefix layout.dataDir target = some relative)
    (hroot : relative.head? ≠ some .rootDir) :
    Named relative ∧ ∀ name, .normal name ∈ relative → '\\' ∉ name.toList := by
  unfold restoreTarget at htarget
  split_ifs at htarget with hpath
  · rw [Except.ok.injEq] at htarget
    exact absurd htarget.symm hconfig
  split at htarget
  · cases htarget
  · rename_i text htext
    split_ifs at htarget with hempty
    rw [Except.ok.injEq] at htarget
    subst htarget
    have hmem : ∀ c ∈ relative, c ∈ segments text := fun c hc =>
      mem_segments_of_join (stripPrefix_eq_some hstrip) hroot hc
    refine ⟨fun c hc => named_segments entry.valid htext c (hmem c hc), fun name hname => ?_⟩
    exact no_backslash_segments hclean htext (hmem _ hname)

theorem rejectUnsafe_triple {entry : RecoveryEntry} {target : Path} {fate : Fate} (i : ℕ)
    (hclean : '\\' ∉ entry.path.toList) (htarget : restoreTarget entry.path layout = .ok target) :
    Triple (Unchanged live₀) (rejectUnsafe fate layout target)
      (fun _ disk => Unchanged live₀ disk ∧ WellPlanned layout live₀ ⟨i, entry, target⟩)
      fun _ => Unchanged live₀ := by
  unfold rejectUnsafe
  split_ifs with hconfig
  · refine inspectPath_triple.conseq (fun _ h => h) (fun _ disk h => ?_) fun _ _ h => h
    exact ⟨h.1, htarget, h.2, .inl hconfig⟩
  · unfold rejectUnsafeDescendant
    split
    · exact fail_triple fun _ h => h
    · exact fail_triple fun _ h => h
    · exact fail_triple fun _ h => h
    · exact fail_triple fun _ h => h
    · rename_i relative hempty hparent hroot hstrip
      refine inspectPath_triple.conseq (fun _ h => h) (fun _ disk h => ?_) fun _ _ h => h
      have hhead : relative.head? ≠ some .rootDir := by
        rcases relative with _ | ⟨c, rest⟩
        · simp
        · intro heq
          rw [List.head?_cons, Option.some.injEq] at heq
          exact hroot rest (heq ▸ rfl)
      obtain ⟨hnamed, hnames⟩ := place_of_strip hclean htarget hconfig hstrip hhead
      refine ⟨h.1, htarget, h.2, .inr ⟨relative, fun heq => hempty heq, hnamed, hnames, ?_⟩⟩
      exact stripPrefix_eq_some hstrip

theorem planTarget_triple {numbered : RecoveryEntry × ℕ} (hclean : '\\' ∉ numbered.1.path.toList) :
    Triple (Unchanged live₀) (planTarget faults layout numbered)
      (fun planned disk => Unchanged live₀ disk ∧ WellPlanned layout live₀ planned ∧
        (planned.entry, planned.index) = numbered)
      fun _ => Unchanged live₀ := by
  unfold planTarget
  refine bind (Q := fun target disk => Unchanged live₀ disk ∧
    restoreTarget numbered.1.path layout = .ok target) ?_ fun target => .each ?_
  · exact liftResult_triple (fun target hok disk h => ⟨h, hok⟩) fun _ _ h => h
  rintro disk ⟨h, htarget⟩
  refine ((rejectUnsafe_triple numbered.2 hclean htarget).pre ?_).bind fun _ => .pure ?_
  · rintro _ rfl
    exact h
  · rintro disk ⟨h, hplanned⟩
    exact ⟨h, hplanned, rfl⟩

theorem planTargets_triple (hclean : ∀ entry ∈ entries, '\\' ∉ entry.path.toList) :
    Triple (Unchanged live₀) (entries.zipIdx.mapM (planTarget faults layout))
      (fun targets disk => Unchanged live₀ disk ∧
        targets.map (fun planned => (planned.entry, planned.index)) = entries.zipIdx ∧
        ∀ planned ∈ targets, WellPlanned layout live₀ planned)
      fun _ => Unchanged live₀ := by
  refine (mapM (fun (done : List ((RecoveryEntry × ℕ) × Planned)) rest disk =>
    Unchanged live₀ disk ∧ (∀ numbered ∈ rest, '\\' ∉ numbered.1.path.toList) ∧
      ∀ pair ∈ done, WellPlanned layout live₀ pair.2 ∧ (pair.2.entry, pair.2.index) = pair.1)
    ?_ []).conseq ?_ ?_ fun _ _ h => h
  · intro done numbered rest
    refine .each fun disk h => ?_
    obtain ⟨hunchanged, hrest, hdone⟩ := h
    refine (planTarget_triple (hrest numbered mem_cons_self)).conseq ?_ ?_ fun _ _ h => h
    · rintro _ rfl
      exact hunchanged
    · rintro planned disk' ⟨h', hplanned⟩
      refine ⟨h', fun other hmem => hrest other (mem_cons_of_mem _ hmem), fun pair hmem => ?_⟩
      rcases mem_append.mp hmem with hold | hnew
      · exact hdone pair hold
      · rw [mem_singleton] at hnew
        subst hnew
        exact hplanned
  · intro disk h
    refine ⟨h, fun numbered hmem => ?_, forall_mem_nil _⟩
    exact hclean _ (fst_mem_of_mem_zipIdx hmem)
  · rintro targets disk ⟨hlength, h, -, hall⟩
    rw [nil_append] at hall
    have htargets : (entries.zipIdx.zip targets).map Prod.snd = targets :=
      map_snd_zip hlength.le
    refine ⟨h, ?_, fun planned hmem => ?_⟩
    · calc targets.map (fun planned => (planned.entry, planned.index))
          = (entries.zipIdx.zip targets).map fun pair => (pair.2.entry, pair.2.index) := by
            conv_lhs => rw [← htargets, map_map]
            rfl
        _ = (entries.zipIdx.zip targets).map Prod.fst :=
            map_congr_left fun pair hmem => (hall pair hmem).2
        _ = entries.zipIdx := map_fst_zip hlength.ge
    · rw [← htargets] at hmem
      obtain ⟨pair, hpair, rfl⟩ := mem_map.mp hmem
      exact (hall pair hpair).1

theorem backupOriginals_triple {targets : List Planned}
    (htargets : ∀ planned ∈ targets, WellPlanned layout live₀ planned)
    (hquery : ∀ planned ∈ targets, fails (faults (.isFile planned.index)) = true →
      live₀ planned.target = none) :
    Triple (Unchanged live₀) (targets.mapM (backupOriginal faults layout))
      (fun originals disk => originals.length = targets.length ∧ Unchanged live₀ disk ∧
        ∀ pair ∈ targets.zip originals, OriginalKept layout live₀ pair.1 pair.2 disk)
      fun _ => Unchanged live₀ := by
  refine (mapM (fun (done : List (Planned × RestoreOriginal)) rest disk =>
    (∀ planned ∈ rest, planned ∈ targets) ∧ Unchanged live₀ disk ∧
      ∀ pair ∈ done, OriginalKept layout live₀ pair.1 pair.2 disk) ?_ []).conseq ?_ ?_
    fun _ _ h => h
  · intro done planned rest
    refine .each fun disk h => ?_
    obtain ⟨hrest, hunchanged, hdone⟩ := h
    have hmem := hrest planned mem_cons_self
    have hstable : Stable layout live₀ fun disk =>
        ∀ pair ∈ done, OriginalKept layout live₀ pair.1 pair.2 disk :=
      fun disk key path bytes h hkey hlive pair hpair =>
        stable_original pair.1 pair.2 disk key path bytes (h pair hpair) hkey hlive
    refine (backupOriginal_triple hstable (htargets planned hmem)
      (hquery planned hmem)).conseq ?_ ?_
      fun _ _ h => h
    · rintro _ rfl
      exact ⟨hunchanged, hdone⟩
    · rintro original disk' ⟨h', hdone', hkept⟩
      refine ⟨fun other hother => hrest other (mem_cons_of_mem _ hother), h', fun pair hpair => ?_⟩
      rcases mem_append.mp hpair with hold | hnew
      · exact hdone' pair hold
      · rw [mem_singleton] at hnew
        subst hnew
        exact hkept
  · intro disk h
    exact ⟨fun _ hmem => hmem, h, forall_mem_nil _⟩
  · rintro originals disk ⟨hlength, -, h, hall⟩
    rw [nil_append] at hall
    exact ⟨hlength, h, hall⟩

/-- What is known when all originals have been copied. -/
structure Prepared (layout : Layout) (entries : List RecoveryEntry) (live₀ : Path → Option Stored)
    (originals : List (Planned × RestoreOriginal)) : Prop where
  entries_eq : originals.map (fun pair => pair.1.entry) = entries
  planned : ∀ pair ∈ originals, WellPlanned layout live₀ pair.1

/-- The copies of all originals. -/
def CopiesKept (layout : Layout) (live₀ : Path → Option Stored)
    (originals : List (Planned × RestoreOriginal)) (disk : Disk) : Prop :=
  ∀ pair ∈ originals, OriginalKept layout live₀ pair.1 pair.2 disk

theorem stage_triple (targets : List Planned) :
    Triple (Unchanged live₀) (targets.forM (stageEntry faults)) (fun _ => Unchanged live₀)
      fun _ => Unchanged live₀ := by
  refine forM (fun _ => Unchanged live₀) fun planned rest => ?_
  unfold stageEntry
  refine perform_triple (fun _ _ h => h) ?_ ?_
  all_goals
    intro left _ disk h
    refine effect_keeps ?_ (fun _ _ h => h) left h
    exact fun _ h => h

theorem prepare_triple (hclean : ∀ entry ∈ entries, '\\' ∉ entry.path.toList)
    (hfiles : ∀ i entry target, entries[i]? = some entry →
      restoreTarget entry.path layout = .ok target → fails (faults (.isFile i)) = true →
      live₀ target = none) :
    Triple (Unchanged live₀) (prepare faults layout entries)
      (fun originals disk => Unchanged live₀ disk ∧ Prepared layout entries live₀ originals ∧
        CopiesKept layout live₀ originals disk)
      fun _ => Unchanged live₀ := by
  unfold prepare
  refine .get fun disk hdisk => ?_
  refine bind (Q := fun _ => Unchanged live₀) (liftResult_triple ?_ ?_) fun _ => ?_
  · rintro - - _ rfl
    exact hdisk
  · rintro - _ rfl
    exact hdisk
  refine bind (Q := fun _ => Unchanged live₀) (perform_triple (fun _ _ h => h) ?_ ?_) fun _ => ?_
  · exact fun left _ disk h => effect_keeps (fun _ h => h) (fun _ _ h => h) left h
  · exact fun left _ disk h => effect_keeps (fun _ h => h) (fun _ _ h => h) left h
  refine (planTargets_triple hclean).bind fun targets => .each ?_
  rintro disk ⟨hunchanged, hentries, hplanned⟩
  have hquery : ∀ planned ∈ targets, fails (faults (.isFile planned.index)) = true →
      live₀ planned.target = none := by
    intro planned hmem
    have hnumbered : (planned.entry, planned.index) ∈ entries.zipIdx := by
      rw [← hentries]
      exact mem_map_of_mem hmem
    exact hfiles planned.index planned.entry planned.target
      (mem_zipIdx_iff_getElem?.mp hnumbered) (hplanned planned hmem).target_eq
  refine bind ((stage_triple targets).pre ?_) fun _ => ?_
  · rintro _ rfl
    exact hunchanged
  refine (backupOriginals_triple hplanned hquery).bind fun originals => .pure ?_
  rintro disk' ⟨hlength, hunchanged', hkept⟩
  have htargets : (targets.zip originals).map Prod.fst = targets := map_fst_zip hlength.ge
  refine ⟨hunchanged', ⟨?_, fun pair hpair => ?_⟩, hkept⟩
  · calc (targets.zip originals).map (fun pair => pair.1.entry)
        = (targets.map fun planned => (planned.entry, planned.index)).map Prod.fst := by
          conv_rhs => rw [← htargets]
          rw [map_map, map_map]
          rfl
      _ = entries := by rw [hentries, zipIdx_map_fst]
  · refine hplanned pair.1 ?_
    rw [← htargets]
    exact mem_map_of_mem hpair

end Pandora.Backup.Copies
