import Pandora.Cron.Engine

/-! # References to jobs

A job is meant by its identifier or by its name. Names differ from names, but nothing keeps a name
from being an identifier, and an identifier is cut off after a few digits of a hash. As long as no
added job shares a reference with one that is there (`Unshared`), every text means at most one job
(`references_unambiguous`). -/

namespace Pandora.Cron

open Text CronJob List

/-- `get_job`. -/
def getJob (idOrName : String) (jobs : List CronJob) : Option CronJob :=
  jobs.find? (named idOrName)

/-! ### Jobs without a common reference -/

/-- What a job can be meant by: its identifier and its name. -/
abbrev Reference := String × String

def CronJob.reference (job : CronJob) : Reference := (job.id, job.name)

/-- No text means both. -/
structure Apart (a b : Reference) : Prop where
  ids : a.1 ≠ b.1
  names : ¬ eqIgnoreAsciiCase a.2 b.2
  nameId : ¬ eqIgnoreAsciiCase a.2 b.1
  idName : ¬ eqIgnoreAsciiCase b.2 a.1

theorem eqIgnoreAsciiCase_iff {a b : String} :
    eqIgnoreAsciiCase a b = true ↔ toAsciiLowercase a = toAsciiLowercase b := by
  simp [eqIgnoreAsciiCase]

variable {job : CronJob}

theorem named_iff {idOrName : String} :
    job.named idOrName = true ↔ job.id = idOrName ∨ eqIgnoreAsciiCase job.name idOrName = true := by
  simp [named]

theorem Apart.not_both {a b : CronJob} (h : Apart a.reference b.reference) (idOrName : String) :
    ¬ (a.named idOrName ∧ b.named idOrName) := by
  rw [named_iff, named_iff]
  rintro ⟨rfl | ha, hb | hb⟩
  · exact h.ids hb.symm
  · exact h.idName hb
  · rw [← hb] at ha
    exact h.nameId ha
  · rw [eqIgnoreAsciiCase_iff] at ha hb
    exact h.names (eqIgnoreAsciiCase_iff.mpr (ha.trans hb.symm))

def Distinct (jobs : List CronJob) : Prop := (jobs.map reference).Pairwise Apart

variable {jobs : List CronJob}

theorem Distinct.of_reference {jobs' : List CronJob} (h : Distinct jobs)
    (heq : jobs'.map reference = jobs.map reference) : Distinct jobs' := by
  unfold Distinct
  rw [heq]
  exact h

theorem countP_le_one {α : Type} {p : α → Bool} : ∀ {l : List α},
    l.Pairwise (fun a b => ¬ (p a ∧ p b)) → l.countP p ≤ 1
  | [], _ => Nat.zero_le 1
  | a :: l, h => by
    obtain ⟨hfirst, hrest⟩ := List.pairwise_cons.mp h
    by_cases ha : p a
    · have hnone : l.countP p = 0 := List.countP_eq_zero.mpr fun b hb hpb => hfirst b hb ⟨ha, hpb⟩
      rw [countP_cons_of_pos ha, hnone]
    · rw [countP_cons_of_neg ha]
      exact countP_le_one hrest

theorem Distinct.countP_named (h : Distinct jobs) (idOrName : String) :
    jobs.countP (named idOrName) ≤ 1 := by
  have hpairs := List.pairwise_map.mp h
  exact countP_le_one (hpairs.imp fun hapart => hapart.not_both idOrName)

/-- The job with an identifier is the first that the identifier means. -/
theorem Distinct.split (h : Distinct jobs)
    (hjob : job ∈ jobs) : ∃ before after, jobs = before ++ job :: after ∧
      ∀ other ∈ before, other.named job.id = false := by
  obtain ⟨before, after, rfl⟩ := append_of_mem hjob
  refine ⟨before, after, rfl, fun other hother => ?_⟩
  have hpairs := List.pairwise_append.mp (List.pairwise_map.mp h)
  by_contra hnamed
  have hapart := hpairs.2.2 other hother job mem_cons_self
  refine hapart.not_both job.id ⟨?_, named_iff.mpr (Or.inl rfl)⟩
  simpa using hnamed

theorem find?_named {before after : List CronJob}
    (hbefore : ∀ other ∈ before, other.named job.id = false) :
    getJob job.id (before ++ job :: after) = some job := by
  unfold getJob
  have hnone : before.find? (named job.id) = none :=
    List.find?_eq_none.mpr fun other hother => by simp [hbefore other hother]
  rw [List.find?_append, hnone, Option.none_or, List.find?_cons_of_pos (named_iff.mpr (Or.inl rfl))]

/-- A change by an identifier is a change of the job that has it. -/
theorem modifyNamed_named {f : CronJob → Outcome CronJob} :
    ∀ {before after : List CronJob}, (∀ other ∈ before, other.named job.id = false) →
      modifyNamed job.id f (before ++ job :: after) =
        (do let updated ← f job; pure (before ++ updated :: after, updated))
  | [], after, _ => by
    rw [nil_append, modifyNamed, if_pos (named_iff.mpr (Or.inl rfl))]
    rfl
  | first :: before, after, h => by
    have hfirst := h first mem_cons_self
    have hrest := @modifyNamed_named f before after fun other hother =>
      h other (mem_cons_of_mem _ hother)
    rw [cons_append, modifyNamed, hfirst, if_neg Bool.false_ne_true, hrest]
    rcases f job with fault | updated
    · rfl
    · rfl

/-! ### What a call does to the references -/

variable {env : CronEnv}

theorem reference_keeps {jobs' : List CronJob} (h : List.Forall₂ (Keeps env) jobs jobs') :
    jobs'.map reference = jobs.map reference := by
  induction h with
  | nil => rfl
  | cons hfirst _ ih =>
    rw [map_cons, map_cons, ih]
    exact congrArg (· :: _) (Prod.ext hfirst.id hfirst.name)

/-- The identifier of an added job is not one that is there, not the name of a job, and its name is
not the identifier of one. -/
def Unshared (env : CronEnv) (jobs : List CronJob) : CronCall → Prop
  | .addJob name scheduleExpr command _ _ now =>
    ∀ job ∈ jobs, job.id ≠ jobId env (trim name) scheduleExpr command now ∧
      ¬ eqIgnoreAsciiCase job.name (jobId env (trim name) scheduleExpr command now) ∧
      ¬ eqIgnoreAsciiCase (trim name) job.id
  | _ => True

instance (jobs : List CronJob) : ∀ call, Decidable (Unshared env jobs call)
  | .addJob .. => inferInstanceAs (Decidable (∀ job ∈ jobs, _))
  | .removeJob _ | .pauseJob _ | .resumeJob .. | .updateJob .. | .runJob .. | .runDue _ =>
    isTrue trivial

theorem Distinct.step {call : CronCall} (hcall : Unshared env jobs call)
    (h : Distinct jobs) : Distinct ((engine env).step jobs call).1 := by
  simp only [engine]
  split
  · rename_i jobs' hexec
    rcases exec_cases hexec with hkeeps | hsub | ⟨name, scheduleExpr, command, workdir, deliver,
      now, job, rfl, rfl, -, hjobId, hjobName, hfresh⟩
    · exact h.of_reference (reference_keeps hkeeps)
    · exact List.Pairwise.sublist (hsub.map reference) h
    · unfold Distinct
      have hreference : job.reference = (_, _) := Prod.ext hjobId hjobName
      rw [map_append, map_singleton, hreference, pairwise_append]
      refine ⟨h, pairwise_singleton _ _, ?_⟩
      rintro reference hmem other hother
      obtain ⟨existing, hexisting, rfl⟩ := List.mem_map.mp hmem
      rw [List.mem_singleton.mp hother]
      obtain ⟨hids, hname, hid⟩ := hcall existing hexisting
      exact ⟨hids, hfresh existing hexisting, hname, hid⟩
  · exact h

/-- What is meant by a text, in a state. -/
structure Unambiguous (jobs : List CronJob) : Prop where
  unique : ∀ idOrName, jobs.countP (named idOrName) ≤ 1
  remove : ∀ idOrName, jobs.length ≤ (removeJob idOrName jobs).length + 1
  get : ∀ job ∈ jobs, getJob job.id jobs = some job
  /-- Pausing, resuming, updating and running are such changes. -/
  modify : ∀ job ∈ jobs, ∃ before after, jobs = before ++ job :: after ∧
    ∀ f : CronJob → Outcome CronJob, modifyNamed job.id f jobs =
      (do let updated ← f job; pure (before ++ updated :: after, updated))

theorem Distinct.unambiguous (h : Distinct jobs) : Unambiguous jobs where
  unique := h.countP_named
  remove idOrName := by
    have hcount := h.countP_named idOrName
    have hsplit := length_eq_countP_add_countP (named idOrName) (l := jobs)
    unfold removeJob
    rw [← countP_eq_length_filter]
    simp only [decide_not, Bool.decide_eq_true] at hsplit ⊢
    omega
  get job hjob := by
    obtain ⟨before, after, rfl, hbefore⟩ := h.split hjob
    exact find?_named hbefore
  modify job hjob := by
    obtain ⟨before, after, rfl, hbefore⟩ := h.split hjob
    exact ⟨before, after, rfl, fun f => modifyNamed_named hbefore⟩

/-- **References are unambiguous** after every sequence of calls whose additions share no reference
with a job that is there. -/
theorem references_unambiguous (env : CronEnv) (calls : List CronCall)
    (h : (engine env).Along (Unshared env) [] calls) : Unambiguous (jobsAfter env calls) := by
  have hdistinct : Distinct (jobsAfter env calls) :=
    (engine env).run_invariant_along (P := Distinct) (fun _ _ hcall h => h.step hcall) calls h
      List.Pairwise.nil
  exact hdistinct.unambiguous

/-- SHA-256 on the two jobs below. -/
def referenceEnv : CronEnv where
  overflowChecks := true
  toLowercase := toAsciiLowercase
  sha256 message :=
    if message = asBytes "backup:every 1d:save:1672444800" then
      ⟨[41, 241, 27, 69, 79, 80, 180, 197, 44, 115, 77, 154, 72, 82, 47, 218, 171, 116, 28, 55, 200,
        134, 140, 207, 20, 108, 167, 251, 246, 81, 158, 167], Eq.refl (nat_lit 32)⟩
    else
      ⟨[13, 16, 8, 186, 22, 53, 109, 43, 2, 221, 236, 132, 228, 59, 221, 83, 218, 162, 197, 236,
        187, 121, 199, 25, 20, 225, 229, 243, 253, 50, 124, 224], rfl⟩

def backup : CronCall := .addJob "backup" "every 1d" "save" none none 1672444800

theorem references_unambiguous_backup :
    Unambiguous (jobsAfter referenceEnv [backup, .pauseJob "backup"]) :=
  references_unambiguous referenceEnv [backup, .pauseJob "backup"] (by decide +kernel)

/-- The backup, a job named after its identifier, and the backup once more. -/
def sharedCalls : List CronCall :=
  [backup, .addJob "cron-sha256:29f11" "every 1d" "save" none none 1672444800,
    .removeJob "backup", backup]

/-- The identifier of the backup means both jobs: it is not the backup that is found, and removing
it removes both. -/
theorem shared_reference :
    (jobsAfter referenceEnv sharedCalls).map (·.name) = ["cron-sha256:29f11", "backup"] ∧
    (jobsAfter referenceEnv sharedCalls).map (·.id) = ["cron-sha256:0d100", "cron-sha256:29f11"] ∧
    (getJob "cron-sha256:29f11" (jobsAfter referenceEnv sharedCalls)).map (·.name) =
      some "cron-sha256:29f11" ∧
    removeJob "cron-sha256:29f11" (jobsAfter referenceEnv sharedCalls) = [] ∧
    ¬ Unambiguous (jobsAfter referenceEnv sharedCalls) := by
  have hcount : (jobsAfter referenceEnv sharedCalls).countP (named "cron-sha256:29f11") = 2 := by
    decide +kernel
  refine ⟨by decide +kernel, by decide +kernel, by decide +kernel, by decide +kernel, ?_⟩
  intro h
  have hunique := h.unique "cron-sha256:29f11"
  rw [hcount] at hunique
  omega

end Pandora.Cron
