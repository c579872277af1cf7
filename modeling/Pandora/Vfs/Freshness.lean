import Pandora.Memory.Records
import Pandora.Vfs.IndexFile

/-! # The freshness of an index

A search uses an index that was kept if its corpus hash is that of the documents which are mounted
now (`servedDocs`). The hash covers the URI, the content, the tier and the intent of each document,
but not its title (`corpusMessage`); the fingerprint of a document covers the title as well.

**Main result** (`freshness_sound_iff`): a hash that does not change stands for the same documents
unless only titles have changed. -/

namespace Pandora.Vfs.Freshness

open Text Lib.Codes List
open Context.Fragments (ContextFragment)
open Memory.Sop (SopDefinition MemoryIntent)
open Memory.Records (MemoryRecord intentText)
open Vfs.Documents Vfs.IndexFile

/-! ## What is mounted -/

structure SessionArchiveRecord where
  (archiveId summary : String)

structure FeatureEntry where
  (name entryPoint description : String)
  (invariants dependencies : List String)

structure FeatureMap where
  version : UInt32
  features : List FeatureEntry

structure SkillManifest where
  (id name description : String)
  resources : List String

/-- What is mounted; of a stored procedure only its definition. -/
structure ContextVfs (sha : Sha256) where
  metaRules : List (ContextFragment sha)
  (l1Records l2Records : List MemoryRecord)
  sops : List SopDefinition
  archives : List SessionArchiveRecord
  featureMaps : List (String × FeatureMap)
  skills : List SkillManifest

/-- `trim_start_matches` of a text that is not empty, at most `fuel` times. -/
def trimStart (front : List Char) : ℕ → List Char → List Char
  | 0, text => text
  | fuel + 1, text =>
    if front.isPrefixOf text then trimStart front fuel (text.drop front.length) else text

def trimStartMatches (front text : String) : String :=
  .ofList (trimStart front.toList text.toList.length text.toList)

/-- A document is left out if its URI is not valid. -/
def mounted (uri title content : String) (tier : Option MemoryTier)
    (intent : Option MemoryIntent) : Option VfsDoc :=
  match ContextUri.new uri with
  | .ok uri => some ⟨uri, title, content, tier, intent⟩
  | .error _ => none

def ruleDoc {sha : Sha256} (rule : ContextFragment sha) : Option VfsDoc :=
  let uri := if rule.id = "meta:rules" ∨ rule.id = "rules" then "pandora://meta/rules"
    else "pandora://meta/" ++ trimStartMatches "meta:" rule.id
  mounted uri rule.id rule.content (some .l0) none

/-- The records of the first and of the second tier differ in the directory. -/
def recordDoc (directory : String) (tier : MemoryTier) (rec : MemoryRecord) : Option VfsDoc :=
  mounted ("pandora://" ++ directory ++ "/" ++ intentText rec.effectiveIntent ++ "/" ++ rec.id.text)
    rec.id.text (rec.id.text ++ " " ++ rec.summary) (some tier) (some rec.effectiveIntent)

def sopDoc (sop : SopDefinition) : Option VfsDoc :=
  let stepsText := " ".intercalate (sop.steps.map fun step => step.name ++ " " ++ step.command)
  let verif := sop.verificationCommand.getD ""
  mounted ("pandora://sops/" ++ sop.id) sop.name
    (sop.id ++ " " ++ sop.name ++ " " ++ stepsText ++ " " ++ verif) (some .l3)
    (some sop.triggerIntent)

def archiveDoc (archive : SessionArchiveRecord) : Option VfsDoc :=
  mounted ("pandora://archives/" ++ archive.archiveId) archive.archiveId
    (archive.archiveId ++ " " ++ archive.summary) (some .l4) none

def featureDoc (json : FeatureMap → Option String) (feature : String × FeatureMap) :
    Option VfsDoc :=
  mounted ("pandora://features/" ++ feature.1) ("Feature Map: " ++ feature.1)
    (feature.1 ++ " " ++ (json feature.2).getD "") none none

def skillDoc (skill : SkillManifest) : Option VfsDoc :=
  mounted ("pandora://skills/" ++ skill.id) skill.name
    (skill.id ++ " " ++ skill.name ++ " " ++ skill.description ++ " " ++
      " ".intercalate skill.resources) none none

/-- `collect_all_documents`; `json` writes a feature map. -/
def ContextVfs.collectAllDocuments {sha : Sha256} (json : FeatureMap → Option String)
    (vfs : ContextVfs sha) : List VfsDoc :=
  vfs.metaRules.filterMap ruleDoc ++ vfs.l1Records.filterMap (recordDoc "index" .l1) ++
    vfs.l2Records.filterMap (recordDoc "facts" .l2) ++ vfs.sops.filterMap sopDoc ++
    vfs.archives.filterMap archiveDoc ++ vfs.featureMaps.filterMap (featureDoc json) ++
    vfs.skills.filterMap skillDoc

/-! ## The corpus hash -/

/-- What the hash takes of a document. -/
def corpusMessage (doc : VfsDoc) : List UInt8 :=
  littleEndian 4 doc.uri.text.utf8ByteSize ++ asBytes doc.uri.text ++
    littleEndian 4 doc.content.utf8ByteSize ++ asBytes doc.content ++
    [tierToU8 doc.tier, intentToU8 doc.intent]

def computeCorpusHash (env : VfsEnv) (docs : List VfsDoc) : Bytes32 :=
  env.sha (docs.flatMap corpusMessage)

/-- The index that is kept in memory or on disk, if its hash is the current one. -/
def activeIndex (env : VfsEnv) (cached : Option DeserializedVfsIndex) (file : Option (List UInt8))
    (currentCorpusHash : Bytes32) : Option DeserializedVfsIndex :=
  let onDisk := file.bind fun bytes => (deserializeVfsIndex env bytes).toOption
  (cached.filter (·.corpusHash = currentCorpusHash)).or
    (onDisk.filter (·.corpusHash = currentCorpusHash))

/-- The documents from which a search reports: those of the index, or of one that is built anew. -/
def servedDocs (env : VfsEnv) (cached : Option DeserializedVfsIndex) (file : Option (List UInt8))
    (allDocs : List VfsDoc) : List VfsDoc :=
  ((activeIndex env cached file (computeCorpusHash env allDocs)).map (·.docs)).getD allDocs

/-! ## Documents with the same hash -/

/-- The documents agree in what the hash takes. -/
structure SameButTitle (a b : VfsDoc) : Prop where
  uri : a.uri = b.uri
  content : a.content = b.content
  tier : a.tier = b.tier
  intent : a.intent = b.intent

/-- The documents agree in what the hash takes, but are not the same. -/
def OnlyTitlesDiffer (docs docs' : List VfsDoc) : Prop :=
  List.Forall₂ SameButTitle docs docs' ∧ docs.map VfsDoc.title ≠ docs'.map VfsDoc.title

theorem tierToU8_inj {a b : Option MemoryTier} (h : tierToU8 a = tierToU8 b) : a = b := by
  have hread : ∀ tier, u8ToTier (tierToU8 tier) = tier := by
    rintro (_ | _ | _ | _ | _ | _) <;> rfl
  rw [← hread a, h, hread b]

theorem intentToU8_inj {a b : Option MemoryIntent} (h : intentToU8 a = intentToU8 b) : a = b := by
  have hread : ∀ intent, u8ToIntent (intentToU8 intent) = intent := by
    rintro (_ | _ | _ | _ | _) <;> rfl
  rw [← hread a, h, hread b]

/-- What the hash takes of a document determines it, but for the title. -/
theorem corpusMessage_cancel {a b : VfsDoc} (ha : a.content.utf8ByteSize < 2 ^ 32)
    (hb : b.content.utf8ByteSize < 2 ^ 32) {s t : List UInt8}
    (h : corpusMessage a ++ s = corpusMessage b ++ t) : SameButTitle a b ∧ s = t := by
  have hcode := prefixCode_littleEndian 4
  have hsize : ∀ text : String, text.utf8ByteSize < 2 ^ 32 → (asBytes text).length < 256 ^ 4 := by
    intro text htext
    rw [length_asBytes]
    exact htext
  have huri : ∀ doc : VfsDoc, doc.uri.text.utf8ByteSize < 2 ^ 32 := fun doc =>
    Nat.lt_of_le_of_lt doc.uri.size (by decide)
  have hsplit : ∀ (doc : VfsDoc) (rest : List UInt8), corpusMessage doc ++ rest =
      (littleEndian 4 (asBytes doc.uri.text).length ++ asBytes doc.uri.text) ++
      ((littleEndian 4 (asBytes doc.content).length ++ asBytes doc.content) ++
      (tierToU8 doc.tier :: intentToU8 doc.intent :: rest)) := by
    intro doc rest
    unfold corpusMessage
    rw [length_asBytes, length_asBytes]
    simp only [append_assoc, cons_append, nil_append]
  rw [hsplit, hsplit] at h
  obtain ⟨hu, h⟩ := hcode (hsize _ (huri a)) (hsize _ (huri b)) h
  obtain ⟨hc, h⟩ := hcode (hsize _ ha) (hsize _ hb) h
  obtain ⟨htier, h⟩ := List.cons.inj h
  obtain ⟨hintent, h⟩ := List.cons.inj h
  exact ⟨⟨ContextUri.ext_text (asBytes_inj hu), asBytes_inj hc, tierToU8_inj htier,
    intentToU8_inj hintent⟩, h⟩

theorem corpusMessage_congr {a b : VfsDoc} (h : SameButTitle a b) :
    corpusMessage a = corpusMessage b := by
  unfold corpusMessage
  rw [h.uri, h.content, h.tier, h.intent]

variable {docs docs' : List VfsDoc}

theorem flatMap_corpusMessage_congr (h : List.Forall₂ SameButTitle docs docs') :
    docs.flatMap corpusMessage = docs'.flatMap corpusMessage := by
  induction h with
  | nil => rfl
  | cons hab _ ih => rw [flatMap_cons, flatMap_cons, corpusMessage_congr hab, ih]

/-- Documents with the same titles that agree in what the hash takes are the same. -/
theorem eq_of_sameButTitle (h : List.Forall₂ SameButTitle docs docs')
    (htitle : docs.map VfsDoc.title = docs'.map VfsDoc.title) : docs = docs' := by
  induction h with
  | nil => rfl
  | @cons a b _ _ hab _ ih =>
    rw [map_cons, map_cons, List.cons.injEq] at htitle
    obtain ⟨rfl⟩ : a = b := by
      obtain ⟨uri, title, content, tier, intent⟩ := a
      obtain ⟨uri', title', content', tier', intent'⟩ := b
      obtain ⟨hu, hc, ht, hi⟩ := hab
      dsimp only at hu hc ht hi htitle
      rw [hu, htitle.1, hc, ht, hi]
    rw [ih htitle.2]

/-! ## When a fresh index is sound -/

/-- The documents are short enough for their lengths to be written in 32 bits. -/
def Short (docs : List VfsDoc) : Prop := ∀ doc ∈ docs, doc.content.utf8ByteSize < 2 ^ 32

/-- The index is one of the documents. -/
structure IndexOf (env : VfsEnv) (docs : List VfsDoc) (index : DeserializedVfsIndex) : Prop where
  docs_eq : index.docs = docs
  hash_eq : index.corpusHash = computeCorpusHash env docs

/-- A hash that is the same stands for the same documents, and a search that finds indexes of the
first documents, in memory or on disk, reports from the second ones, which are mounted. -/
structure Sound (env : VfsEnv) (docs docs' : List VfsDoc) : Prop where
  lists : computeCorpusHash env docs = computeCorpusHash env docs' → docs = docs'
  served : ∀ (cached : Option DeserializedVfsIndex) (file : Option (List UInt8)),
    (∀ index, cached = some index → IndexOf env docs index) →
    (∀ bytes index, file = some bytes → deserializeVfsIndex env bytes = .ok index →
      IndexOf env docs index) →
    servedDocs env cached file docs' = docs'

/-- **Equal hashes** of short documents. -/
theorem computeCorpusHash_eq_iff {env : VfsEnv} (hshort : Short docs) (hshort' : Short docs')
    (hsha : Set.InjOn env.sha {docs.flatMap corpusMessage, docs'.flatMap corpusMessage}) :
    computeCorpusHash env docs = computeCorpusHash env docs' ↔
      List.Forall₂ SameButTitle docs docs' := by
  unfold computeCorpusHash
  constructor
  · intro hhash
    have hmessage := hsha (Set.mem_insert _ _) (Set.mem_insert_of_mem _ rfl) hhash
    refine forall₂_of_flatMap (fun a b ha hb s t => corpusMessage_cancel ha hb) (fun doc => ?_)
      hshort hshort' hmessage
    unfold corpusMessage
    simp
  · intro h
    rw [flatMap_corpusMessage_congr h]

/-- Which index is used, if equal hashes stand for equal documents. -/
theorem servedDocs_eq {env : VfsEnv}
    (hlists : computeCorpusHash env docs = computeCorpusHash env docs' → docs = docs')
    {cached : Option DeserializedVfsIndex} {file : Option (List UInt8)}
    (hcached : ∀ index, cached = some index → IndexOf env docs index)
    (hfile : ∀ bytes index, file = some bytes → deserializeVfsIndex env bytes = .ok index →
      IndexOf env docs index) :
    servedDocs env cached file docs' = docs' := by
  unfold servedDocs
  rcases hactive : activeIndex env cached file (computeCorpusHash env docs') with _ | index
  · rfl
  · have hindex : IndexOf env docs index ∧ index.corpusHash = computeCorpusHash env docs' := by
      unfold activeIndex at hactive
      dsimp only at hactive
      rcases Option.or_eq_some_iff.mp hactive with hmem | ⟨-, hdisk⟩
      · obtain ⟨hsome, hfresh⟩ := Option.filter_eq_some_iff.mp hmem
        exact ⟨hcached index hsome, of_decide_eq_true hfresh⟩
      · obtain ⟨hsome, hfresh⟩ := Option.filter_eq_some_iff.mp hdisk
        obtain ⟨bytes, hbytes, hread⟩ := Option.bind_eq_some_iff.mp hsome
        refine ⟨hfile bytes index hbytes ?_, of_decide_eq_true hfresh⟩
        rcases hresult : deserializeVfsIndex env bytes with e | found
        · rw [hresult] at hread
          cases hread
        · rw [hresult] at hread
          rw [Option.some.inj hread]
    rw [Option.map_some, Option.getD_some, hindex.1.docs_eq]
    exact hlists (hindex.1.hash_eq.symm.trans hindex.2)

/-- **Index freshness is sound** exactly where not only titles have changed. -/
theorem freshness_sound_iff (env : VfsEnv) (json : FeatureMap → Option String)
    (before now : ContextVfs env.sha)
    (hshort : Short (before.collectAllDocuments json))
    (hshort' : Short (now.collectAllDocuments json))
    (hsha : Set.InjOn env.sha {(before.collectAllDocuments json).flatMap corpusMessage,
      (now.collectAllDocuments json).flatMap corpusMessage}) :
    Sound env (before.collectAllDocuments json) (now.collectAllDocuments json) ↔
      ¬ OnlyTitlesDiffer (before.collectAllDocuments json) (now.collectAllDocuments json) := by
  have hiff := computeCorpusHash_eq_iff hshort hshort' hsha
  constructor
  · rintro hsound ⟨hsame, htitles⟩
    exact htitles (congrArg _ (hsound.lists (hiff.mpr hsame)))
  · intro hdiffer
    have hlists : computeCorpusHash env (before.collectAllDocuments json) =
        computeCorpusHash env (now.collectAllDocuments json) →
        before.collectAllDocuments json = now.collectAllDocuments json := by
      intro hhash
      have hsame := hiff.mp hhash
      refine eq_of_sameButTitle hsame ?_
      by_contra htitles
      exact hdiffer ⟨hsame, htitles⟩
    exact ⟨hlists, fun cached file hcached hfile => servedDocs_eq hlists hcached hfile⟩

/-- SHA-256 on the messages of the samples and on the content of the rule. -/
def sampleSha : Sha256 := fun message =>
  if message.length = 221 then
    ⟨[36, 185, 193, 56, 123, 130, 50, 141, 130, 102, 89, 125, 131, 137, 119, 24, 110, 113, 213, 156,
      209, 128, 131, 111, 152, 52, 241, 14, 12, 161, 172, 231], rfl⟩
  else if message.length = 216 then
    ⟨[15, 158, 108, 15, 208, 162, 29, 135, 65, 104, 101, 105, 135, 17, 20, 125, 243, 118, 49, 148,
      96, 11, 214, 51, 135, 27, 144, 107, 74, 38, 113, 80], rfl⟩
  else
    ⟨[163, 0, 15, 80, 212, 245, 206, 71, 134, 183, 128, 211, 237, 235, 72, 86, 82, 111, 180, 139,
      223, 215, 101, 75, 136, 63, 9, 145, 8, 120, 100, 54], rfl⟩

def sampleEnv : VfsEnv where
  sha := sampleSha
  tables := ⟨Char.isAlphanum, Char.isLower, Char.isUpper, id⟩
  vectorize _ := zeroVector
  quantize _ := zeroVector

/-- The rule that is always mounted. -/
def defaultRule : ContextFragment sampleSha where
  id := "meta:rules"
  source := .constitutional
  trust := .constitutional
  classification := .internal
  priority := 255
  content := "# System Constitutional Rules\n1. Maintain architectural integrity.\n" ++
    "2. Do not bypass security bounds.\n3. Verify all code changes with tests."
  contentDigest := _
  tokenCost := 64
  expiresAt := none
  origin := .incomplete
  idShort := by decide
  contentDigest_eq := rfl

def withSkill (name description : String) : ContextVfs sampleEnv.sha where
  metaRules := [defaultRule]
  l1Records := []
  l2Records := []
  sops := []
  archives := []
  featureMaps := []
  skills := [⟨"lint", name, description, []⟩]

theorem freshness_sound_sample :
    Sound sampleEnv ((withSkill "Lint" "code style").collectAllDocuments fun _ => none)
      ((withSkill "Lint" "tests").collectAllDocuments fun _ => none) := by
  refine (freshness_sound_iff sampleEnv (fun _ => none) (withSkill "Lint" "code style")
    (withSkill "Lint" "tests") ?_ ?_ ?_).mpr ?_
  · unfold Short
    decide +kernel
  · unfold Short
    decide +kernel
  · have hne : sampleEnv.sha (((withSkill "Lint" "code style").collectAllDocuments
        fun _ => none).flatMap corpusMessage) ≠ sampleEnv.sha (((withSkill "Lint"
        "tests").collectAllDocuments fun _ => none).flatMap corpusMessage) := by decide +kernel
    rw [Set.injOn_pair]
    exact fun heq => absurd heq hne
  · rintro ⟨-, htitles⟩
    exact htitles (by decide +kernel)

/-- A word moves from the description of a skill to its name: the title changes, the hash does
not. -/
theorem renamed_skill_fresh :
    computeCorpusHash sampleEnv
        ((withSkill "Lint" "code style").collectAllDocuments fun _ => none) =
      computeCorpusHash sampleEnv
        ((withSkill "Lint code" "style").collectAllDocuments fun _ => none) ∧
    (withSkill "Lint" "code style").collectAllDocuments (fun _ => none) ≠
      (withSkill "Lint code" "style").collectAllDocuments fun _ => none := by
  decide +kernel

end Pandora.Vfs.Freshness
