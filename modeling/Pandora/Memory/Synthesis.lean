import Pandora.Lib.Separators
import Pandora.Memory.Engine

/-! # Synthesis and its evidence

The digest of a snapshot joins free texts with separators that they may contain, so it does not
always tell the records of a snapshot from those of another. It does if no summary and no provenance
has the label in it that follows it (`sources_of_text`), and then a commit means that the evidence
is what it was (`commit_unchanged`). -/

namespace Pandora.Memory.Engine

open List
open Context.Fragments (ContextClassification)
open Cron (hashArtifact)
open Ids Text Lib.Checked Lib.Codes Lib.DebugText Lib.Separators Memory.Records Memory.Store
open Memory.Sop (MemoryIntent)

variable {hidden : Char → Bool} {ext : Externals}

/-- The texts of the record do not have the label in them that follows. -/
structure Plain (source : Source) : Prop where
  summary : ¬ label "created" <:+: source.summary.toList
  provenance : ¬ label "origin" <:+: source.provenance.toList

instance (source : Source) : Decidable (Plain source) :=
  decidable_of_iff (_ ∧ _) ⟨fun h => ⟨h.1, h.2⟩, fun h => ⟨h.1, h.2⟩⟩

/-! ### The text of a record -/

theorem label_inj {name : String} {a b s t : List Char} (hname : ';' ∉ name.toList ++ ['='])
    (ha : ¬ label name <:+: a) (hb : ¬ label name <:+: b)
    (h : a ++ (label name ++ s) = b ++ (label name ++ t)) : a = b ∧ s = t := by
  rw [← append_assoc, ← append_assoc] at h
  exact word_inj hname ha hb h

theorem plain_inj {name : String} {a b s t : List Char} (hname : ';' ∉ name.toList ++ ['='])
    (ha : ';' ∉ a) (hb : ';' ∉ b) (h : a ++ (label name ++ s) = b ++ (label name ++ t)) :
    a = b ∧ s = t :=
  label_inj hname (fun hsub => ha (hsub.subset mem_cons_self))
    (fun hsub => hb (hsub.subset mem_cons_self)) h

theorem tier_plain (tier : MemoryTier) : ';' ∉ tier.asStr.toList := by
  cases tier <;> decide

theorem kind_plain (kind : MemoryKind) : ';' ∉ kind.asStr.toList := by
  cases kind <;> decide

theorem classification_plain (classification : ContextClassification) :
    ';' ∉ classification.asStr.toList := by
  cases classification <;> decide

theorem origin_plain (origin : MemoryOrigin) : ';' ∉ origin.asStr.toList := by
  cases origin <;> decide

theorem digits_plain (n : ℕ) : ';' ∉ (toString n).toList :=
  fun hmem => absurd (isDigit_of_mem_toString hmem) (by decide)

theorem kind_asStr_inj {a b : MemoryKind} (h : a.asStr = b.asStr) : a = b := by
  have hparse := parseMemoryKind_asStr a
  rw [h, parseMemoryKind_asStr] at hparse
  exact (Except.ok.inj hparse).symm

theorem origin_asStr_inj {a b : MemoryOrigin} (h : a.asStr = b.asStr) : a = b := by
  have hparse := parseMemoryOrigin_asStr a
  rw [h, parseMemoryOrigin_asStr] at hparse
  exact (Except.ok.inj hparse).symm

theorem classification_asStr_inj {a b : ContextClassification} (h : a.asStr = b.asStr) : a = b := by
  cases a <;> cases b <;> first | rfl | exact absurd h (by decide)

theorem prefixCode_debugId : PrefixCode (fun _ => True) (debugId hidden) := by
  intro a b _ _ s t h
  unfold debugId at h
  rw [append_assoc, append_assoc, append_assoc, append_assoc] at h
  obtain ⟨htext, hst⟩ := prefixCode_debugStr hidden trivial trivial (append_cancel_left h)
  exact ⟨Id.ext_text (String.toList_inj.mp htext), (List.cons.inj hst).2⟩

theorem avoids_debugId : Avoids ']' (debugId hidden) := by
  intro id s t h
  unfold debugId at h
  rw [show "MemoryId(".toList = 'M' :: "emoryId(".toList by decide, append_assoc,
    cons_append] at h
  exact absurd (List.cons.inj h).1 (by decide)

theorem sourceText_inj (hidden : Char → Bool) (a b : Source) (s t : List Char) (ha : Plain a)
    (hb : Plain b) (hid : a.id = b.id) (h : sourceText hidden a ++ s = sourceText hidden b ++ t) :
    a = b ∧ s = t := by
  unfold sourceText at h
  rw [hid] at h
  simp only [append_assoc] at h
  replace h := append_cancel_left (append_cancel_left (append_cancel_left h))
  obtain ⟨htier, h⟩ := plain_inj (by decide) (tier_plain _) (tier_plain _) h
  obtain ⟨hkind, h⟩ := plain_inj (by decide) (kind_plain _) (kind_plain _) h
  obtain ⟨hclass, h⟩ := plain_inj (by decide) (classification_plain _) (classification_plain _) h
  obtain ⟨hsummary, h⟩ := label_inj (by decide) ha.summary hb.summary h
  obtain ⟨hcreated, h⟩ := plain_inj (by decide) (digits_plain _) (digits_plain _) h
  obtain ⟨hprovenance, h⟩ := label_inj (by decide) ha.provenance hb.provenance h
  obtain ⟨horigin, h⟩ := plain_inj (by decide) (origin_plain _) (origin_plain _) h
  obtain ⟨hevidence, h⟩ := prefixCode_debugList prefixCode_debugId avoids_debugId trivial trivial h
  refine ⟨?_, (List.cons.inj h).2⟩
  cases a
  cases b
  cases hid
  cases tier_asStr_inj (String.toList_inj.mp htier)
  cases kind_asStr_inj (String.toList_inj.mp hkind)
  cases classification_asStr_inj (String.toList_inj.mp hclass)
  cases String.toList_inj.mp hsummary
  cases toString_inj (String.toList_inj.mp hcreated)
  cases String.toList_inj.mp hprovenance
  cases origin_asStr_inj (String.toList_inj.mp horigin)
  cases hevidence
  rfl

/-- The text of a digest tells the records, if their identifiers are known. -/
theorem sources_of_text {scope : MemoryScope} {records records' : List MemoryRecord}
    (hplain : ∀ record ∈ records, Plain (source record))
    (hplain' : ∀ record ∈ records', Plain (source record))
    (hids : records.map (·.id) = records'.map (·.id))
    (h : synthesisText hidden scope records = synthesisText hidden scope records') :
    records.map source = records'.map source := by
  have htext := congrArg String.toList h
  unfold synthesisText at htext
  rw [String.toList_ofList, String.toList_ofList] at htext
  have hknown : (records.map source).map Source.id = (records'.map source).map Source.id := by
    rw [map_map, map_map]
    exact hids
  exact flatMap_inj_of_counts (sourceText_inj hidden) (forall_mem_map.mpr hplain)
    (forall_mem_map.mpr hplain') hknown (append_cancel_left htext)

/-! ### Proposals and commits -/

/-- The proposal was made from the snapshot; its intent may have been set since. -/
structure Proposed (snapshot : MemorySynthesisSnapshot) (proposal : MemorySynthesisProposal) :
    Prop where
  made : ∃ id kind summary classification createdAt first, ∃ intents : List MemoryIntent,
    proposeSynthesis snapshot id kind summary classification createdAt = .ok first ∧
      proposal = intents.foldl MemorySynthesisProposal.withCandidateIntent first

theorem foldl_withCandidateIntent : ∀ (intents : List MemoryIntent)
    (first : MemorySynthesisProposal),
    let proposal := intents.foldl MemorySynthesisProposal.withCandidateIntent first
    proposal.snapshotDigest = first.snapshotDigest ∧ proposal.evidenceIds = first.evidenceIds ∧
      proposal.candidate.scope = first.candidate.scope
  | [], _ => ⟨rfl, rfl, rfl⟩
  | intent :: intents, first =>
    foldl_withCandidateIntent intents (first.withCandidateIntent intent)

theorem Proposed.keeps {snapshot : MemorySynthesisSnapshot} {proposal : MemorySynthesisProposal}
    (h : Proposed snapshot proposal) : proposal.snapshotDigest = snapshot.digest ∧
      proposal.evidenceIds = snapshot.records.map (·.id) ∧
      proposal.candidate.scope = snapshot.scope := by
  obtain ⟨id, kind, summary, classification, createdAt, first, intents, hfirst, rfl⟩ := h.made
  obtain ⟨hdigest, hids, hscope⟩ := foldl_withCandidateIntent intents first
  rw [hdigest, hids, hscope]
  unfold proposeSynthesis at hfirst
  simp only [bind_eq_ok, ensure_eq_ok, mapError_eq_ok, pure_eq_ok] at hfirst
  obtain ⟨_, -, candidate, hcandidate, rfl⟩ := hfirst
  refine ⟨rfl, rfl, ?_⟩
  unfold MemoryRecord.newSynthesizedL1 MemoryRecord.newL1WithOrigin MemoryRecord.newWithOrigin
    at hcandidate
  split at hcandidate <;> cases hcandidate
  rfl

theorem synthesisSnapshot_ok {engine : MemoryEngine} {scope : MemoryScope} {now : ℕ}
    {snapshot : MemorySynthesisSnapshot}
    (h : engine.synthesisSnapshot hidden ext scope now = .ok snapshot) :
    ∃ candidates, engine.candidates ext scope now = .ok candidates ∧ snapshot.scope = scope ∧
      snapshot.records = (candidates.destutter (·.id ≠ ·.id)).take maxMemorySynthesisEvidence ∧
      snapshot.digest = synthesisDigest hidden ext scope snapshot.records := by
  unfold MemoryEngine.synthesisSnapshot at h
  simp only [bind_eq_ok, pure_eq_ok] at h
  obtain ⟨candidates, hcandidates, rfl⟩ := h
  exact ⟨candidates, hcandidates, rfl, rfl, rfl⟩

theorem destutter_of_nodup {records : List MemoryRecord} (h : (records.map (·.id)).Nodup) :
    records.destutter (·.id ≠ ·.id) = records := by
  have hpairwise : records.Pairwise (·.id ≠ ·.id) := pairwise_map.mp h
  exact destutter_of_isChain _ _ hpairwise.isChain

theorem exists_of_commit {α ε σ : Type} {s : σ} {result : Except ε (σ × α)} {a : α}
    (h : (commit s result).2 = .ok a) : ∃ s', result = .ok (s', a) := by
  rcases result with e | ⟨s', a'⟩
  · cases h
  · exact ⟨s', by rw [Except.ok.inj h]⟩

/-- **Synthesis commits only against unchanged evidence.** A commit that succeeds finds the records
that the proposal was made from, if they and those it finds have different identifiers and texts
without the labels. -/
theorem commit_unchanged (hidden : Char → Bool) (ext : Externals) (start : MemoryEngine)
    (calls later : List Call) (scope : MemoryScope) (taken now : ℕ)
    (snapshot : MemorySynthesisSnapshot) (proposal : MemorySynthesisProposal)
    (committed : Option MemoryRecord) (candidates : List MemoryRecord)
    (hsnapshot : ((machine hidden ext).run start calls).synthesisSnapshot hidden ext scope taken =
      .ok snapshot)
    (hproposed : Proposed snapshot proposal)
    (hcandidates : ((machine hidden ext).run start (calls ++ later)).candidates ext
      proposal.candidate.scope now = .ok candidates)
    (hcommit : (machine hidden ext).answer ((machine hidden ext).run start (calls ++ later))
      (.commitSynthesis proposal now) = .ok committed)
    (hsha : ∀ text ∈ [synthesisText hidden scope (candidates.take maxMemorySynthesisEvidence)],
      ext.sha (asBytes text) = ext.sha (asBytes (synthesisText hidden scope snapshot.records)) →
        text = synthesisText hidden scope snapshot.records)
    (hdistinct : (candidates.map (·.id)).Nodup)
    (hplain : ∀ record ∈ snapshot.records ++ candidates, Plain (source record)) :
    (candidates.take maxMemorySynthesisEvidence).map source = snapshot.records.map source := by
  obtain ⟨hdigest, hids, hproposalScope⟩ := hproposed.keeps
  obtain ⟨-, -, hscope, -, htaken⟩ := synthesisSnapshot_ok hsnapshot
  obtain ⟨engine, hdone⟩ := exists_of_commit hcommit
  unfold MemoryEngine.commitSynthesis MemoryEngine.verifySynthesis at hdone
  simp only [bind_eq_ok, ensure_eq_ok] at hdone
  obtain ⟨_, ⟨_, -, current, hcurrent, _, ⟨hsame, -⟩, hcurrentIds⟩, -⟩ := hdone
  obtain ⟨candidates', hcandidates', -, hrecords, hfresh⟩ := synthesisSnapshot_ok hcurrent
  obtain rfl := Except.ok.inj (hcandidates.symm.trans hcandidates')
  rw [destutter_of_nodup hdistinct] at hrecords
  rw [hrecords] at hfresh hcurrentIds
  rw [hfresh, hdigest, htaken, hproposalScope, hscope] at hsame
  rw [forall_mem_append] at hplain
  have hhash : ext.sha (asBytes (synthesisText hidden scope
      (candidates.take maxMemorySynthesisEvidence))) =
      ext.sha (asBytes (synthesisText hidden scope snapshot.records)) :=
    Bytes32.ext_bytes (hex_inj ((String.append_right_inj _).mp hsame))
  have htext := hsha _ mem_cons_self hhash
  exact sources_of_text (fun record hrecord => hplain.2 record (mem_of_mem_take hrecord))
    hplain.1 (hcurrentIds.trans hids) htext

def sampleScope : MemoryScope :=
  ⟨.ofLiteral "tenant", .ofLiteral "workspace", .ofLiteral "session", "local", by decide +kernel⟩

def sampleIdsText (ids : List MemoryId) : String :=
  .ofList (ids.flatMap fun id => id.text.toList.flatMap (fun c => ['+', c]) ++ ['-'])

def sampleParse : List Char → List Char → Option (List MemoryId)
  | [], [] => some []
  | '+' :: c :: rest, text => sampleParse rest (text ++ [c])
  | '-' :: rest, text => do
    let id ← (Id.new (.ofList text)).toOption
    let ids ← sampleParse rest []
    some (id :: ids)
  | _, _ => none

theorem sampleParse_text : ∀ (text front rest : List Char),
    sampleParse (text.flatMap (fun c => ['+', c]) ++ rest) front = sampleParse rest (front ++ text)
  | [], front, rest => by rw [flatMap_nil, nil_append, append_nil]
  | c :: text, front, rest => by
    rw [flatMap_cons, append_assoc]
    show sampleParse (text.flatMap (fun c => ['+', c]) ++ rest) (front ++ [c]) = _
    rw [sampleParse_text text, append_assoc, singleton_append]

theorem sampleParse_ids : ∀ ids : List MemoryId,
    sampleParse (ids.flatMap fun id => id.text.toList.flatMap (fun c => ['+', c]) ++ ['-']) [] =
      some ids
  | [] => rfl
  | id :: ids => by
    rw [flatMap_cons, append_assoc, sampleParse_text, nil_append,
      singleton_append, sampleParse, String.ofList_toList, Id.new_text, sampleParse_ids ids]
    rfl

/-- The hash of the two texts. -/
def sampleSha (message : List UInt8) : Bytes32 :=
  if message.length = 175 then
    ⟨[85, 46, 223, 12, 63, 108, 62, 86, 86, 244, 167, 74, 174, 214, 74, 165, 10, 19, 89, 76, 255,
      198, 92, 212, 88, 140, 228, 69, 230, 196, 135, 177], rfl⟩
  else
    ⟨[253, 119, 46, 249, 102, 74, 195, 94, 227, 101, 20, 111, 105, 129, 1, 154, 17, 173, 97, 39,
      145, 217, 133, 84, 190, 124, 193, 68, 59, 44, 56, 43], rfl⟩

def sampleExternals : Externals where
  sha := sampleSha
  idsText := sampleIdsText
  parseIds text := sampleParse text.toList []
  parse_text ids := by
    unfold sampleIdsText
    rw [String.toList_ofList]
    exact sampleParse_ids ids

def sampleCall (summary : String) (createdAt : ℕ) (provenance : String) : Call :=
  .distillL1 ⟨sampleScope, "m", summary, .internal, createdAt, provenance⟩ .lesson none

def sampleRecord : MemoryRecord where
  id := .ofLiteral "m"
  tier := .l1
  kind := .lesson
  intent := none
  scope := sampleScope
  summary := "a"
  classification := .internal
  createdAt := 1
  expiresAt := none
  provenance := "p"
  approval := none
  origin := .explicit
  evidenceIds := []
  wellFormed := ⟨by decide +kernel, nofun, by decide +kernel, rfl, by decide, by decide, nofun,
    by decide, fun _ => rfl⟩

def sampleSnapshot : MemorySynthesisSnapshot :=
  ⟨sampleScope, [sampleRecord],
    synthesisDigest isControl sampleExternals sampleScope [sampleRecord], 5⟩

def sampleCandidate : MemoryRecord where
  toRecordData := { sampleRecord.toRecordData with
    id := .ofLiteral "lesson"
    createdAt := 5
    provenance := "synthesis:" ++ sampleSnapshot.digest
    origin := .synthesized
    evidenceIds := [.ofLiteral "m"] }
  wellFormed := ⟨by decide +kernel, nofun, by decide +kernel, rfl, by decide, by decide,
    fun _ => Or.inl rfl, by decide, fun _ => rfl⟩

/-- A lesson of another session is learnt between the snapshot and the commit. -/
def sampleLater : Call :=
  .distillL1 ⟨⟨.ofLiteral "tenant", .ofLiteral "workspace", .ofLiteral "other", "local",
    by decide +kernel⟩, "n", "b", .internal, 5, "q"⟩ .lesson none

theorem commit_unchanged_sample :
    ([sampleRecord].take maxMemorySynthesisEvidence).map source =
      sampleSnapshot.records.map source :=
  commit_unchanged isControl sampleExternals (.new 4) [sampleCall "a" 1 "p"] [sampleLater]
    sampleScope 5 6
    sampleSnapshot ⟨sampleSnapshot.digest, sampleCandidate, [.ofLiteral "m"]⟩ (some sampleCandidate)
    [sampleRecord] (by decide +kernel)
    ⟨⟨"lesson", .lesson, "a", .internal, 5, _, [], by decide +kernel, rfl⟩⟩
    (by decide +kernel) (by decide +kernel)
    (fun text htext _ => by rw [mem_singleton.mp htext]; rfl) (by decide)
    (by decide +kernel)

/-- A record whose summary has the labels in it, and one of the same identifier with the same text
that is older: the proposal is made from the one, and its commit succeeds on the other. -/
theorem commit_on_other_evidence :
    (do
      let before := (machine isControl sampleExternals).run (.new 4)
        [sampleCall "a;created=1;provenance=p" 2 "q"]
      let after := (machine isControl sampleExternals).run before
        [sampleCall "a" 1 "p;created=2;provenance=q"]
      let snapshot ← before.synthesisSnapshot isControl sampleExternals sampleScope 5
      let proposal ← proposeSynthesis snapshot "lesson" .lesson "a" .internal 5
      let _ ← after.commitSynthesis isControl sampleExternals proposal 6
      let current ← after.synthesisSnapshot isControl sampleExternals sampleScope 6
      pure (snapshot.records.map (·.summary), current.records.map (·.summary))) =
    (.ok (["a;created=1;provenance=p"], ["a"]) : Except MemoryError _) := by
  decide +kernel

end Pandora.Memory.Engine
