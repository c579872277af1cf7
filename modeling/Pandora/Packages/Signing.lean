import Pandora.Packages.Manifest

/-! # The signed text determines the manifest

A field of the signed text says how long its value is, so it is a prefix code of the label and the
value, whatever the value contains (`fieldBytes_cancel`), and the text determines the list of its
fields. The labels of the groups are disjoint, so each group is read off the fields with its labels
(`valuesOf`). -/

namespace Pandora.Packages.Signing

open Text Lib.Codes Lib.Checked Packages.Manifest List
open Effect.Request (Capability)

variable {semver : SemVer} {a b manifest : PackageManifest}

/-! ### Fields -/

def fieldBytes (field : SigningField) : List UInt8 := asBytes (pushSigningField field)

def colon : UInt8 := 0x3a

/-- The label has no colon. -/
def PlainLabel (field : SigningField) : Prop := colon ∉ asBytes field.1

theorem colon_not_mem_digits (n : ℕ) : colon ∉ asBytes (toString n) := by
  have hdigits : ∀ n < 58, 48 ≤ n → colon ∉ String.utf8EncodeChar (Char.ofNat n) := by decide
  have hdigit : ∀ c : Char, c.isDigit = true → colon ∉ String.utf8EncodeChar c := by
    intro c hc
    simp only [Char.isDigit, Bool.and_eq_true, decide_eq_true_eq] at hc
    have hhigh : c.toNat ≤ 57 := hc.2
    rw [← Char.ofNat_toNat c]
    exact hdigits c.toNat (Nat.lt_succ_of_le hhigh) hc.1
  intro hmem
  rw [← String.ofList_toList (s := toString n), asBytes_ofList, mem_flatMap] at hmem
  obtain ⟨c, hc, hcolon⟩ := hmem
  exact hdigit c (isDigit_of_mem_toString hc) hcolon

theorem fieldBytes_eq (field : SigningField) : fieldBytes field = 10 ::
    (asBytes (toString field.2.utf8ByteSize) ++ colon :: (asBytes field.1 ++ colon ::
      asBytes field.2)) := by
  unfold fieldBytes pushSigningField
  simp only [asBytes_append, append_assoc]
  rfl

/-- **A field tells where it ends**: its length stands before the value. -/
theorem fieldBytes_cancel : PrefixCode PlainLabel fieldBytes := by
  intro f g hf hg s t h
  rw [fieldBytes_eq, fieldBytes_eq] at h
  simp only [cons_append, append_assoc] at h
  have hrest := (List.cons.inj h).2
  rw [append_cons, append_cons (asBytes (toString g.2.utf8ByteSize))] at hrest
  obtain ⟨hsize, hrest⟩ := prefixCode_terminated colon (colon_not_mem_digits _)
    (colon_not_mem_digits _) hrest
  rw [append_cons, append_cons (asBytes g.1)] at hrest
  obtain ⟨hlabel, hrest⟩ := prefixCode_terminated colon hf hg hrest
  have hlength : (asBytes f.2).length = (asBytes g.2).length := by
    rw [length_asBytes, length_asBytes]
    exact toString_inj (asBytes_inj hsize)
  obtain ⟨hvalue, hst⟩ := append_inj hrest hlength
  exact ⟨Prod.ext (asBytes_inj hlabel) (asBytes_inj hvalue), hst⟩

theorem fieldBytes_ne_nil (field : SigningField) : fieldBytes field ≠ [] := by
  rw [fieldBytes_eq]
  exact cons_ne_nil _ _

def signingLabels : List String :=
  ["id", "version", "kind", "publisher", "content_hash", "runtime_compatibility", "license",
    "dependency_id", "dependency_version", "dependency_optional", "meta_max_handoffs",
    "meta_domain", "route_hint", "gene_execution", "gene_approval_required", "gene_capability"]

theorem plain_of_mem {field : SigningField} (h : field.1 ∈ signingLabels) : PlainLabel field := by
  have hall : ∀ label ∈ signingLabels, colon ∉ asBytes label := by decide +kernel
  exact hall _ h

theorem label_mem {field : SigningField} (h : field ∈ signingFields manifest) :
    field.1 ∈ signingLabels := by
  unfold signingFields at h
  simp only [mem_append, mem_flatMap, mem_map] at h
  rcases h with (((h | ⟨dependency, -, h⟩) | h) | ⟨hint, -, rfl⟩) | h
  · simp only [mem_cons, not_mem_nil, or_false] at h
    rcases h with rfl | rfl | rfl | rfl | rfl | rfl | rfl <;> simp [signingLabels]
  · simp only [dependencyFields, mem_cons, not_mem_nil, or_false] at h
    rcases h with rfl | rfl | rfl <;> simp [signingLabels]
  · rcases hcomposition : manifest.metaComposition with _ | composition
    · rw [hcomposition] at h
      cases h
    · simp only [hcomposition, Option.map_some, Option.getD_some, compositionFields, mem_cons,
        mem_map] at h
      rcases h with rfl | ⟨domain, -, rfl⟩ <;> simp [signingLabels]
  · simp [signingLabels]
  · rcases hcontract : manifest.geneContract with _ | contract
    · rw [hcontract] at h
      cases h
    · simp only [hcontract, Option.map_some, Option.getD_some, contractFields, mem_cons,
        mem_map] at h
      rcases h with rfl | rfl | ⟨capability, -, rfl⟩ <;> simp [signingLabels]

theorem asBytes_signingMessage (manifest : PackageManifest) :
    asBytes manifest.signingMessage =
      asBytes "pandora-package-signature-v2" ++ (signingFields manifest).flatMap fieldBytes := by
  have hfold : ∀ (fields : List SigningField) (message : String),
      asBytes (fields.foldl (fun message field => message ++ pushSigningField field) message) =
        asBytes message ++ fields.flatMap fieldBytes := by
    intro fields
    induction fields with
    | nil => intro message; rw [foldl_nil, flatMap_nil, append_nil]
    | cons field fields ih =>
      intro message
      rw [foldl_cons, ih, asBytes_append, flatMap_cons, append_assoc]
      rfl
  exact hfold _ _

theorem signingFields_eq (h : a.signingMessage = b.signingMessage) :
    signingFields a = signingFields b := by
  have hbytes := congrArg asBytes h
  rw [asBytes_signingMessage, asBytes_signingMessage, append_cancel_left_eq] at hbytes
  exact fieldBytes_cancel.flatMap_inj fieldBytes_ne_nil (fun _ hf => plain_of_mem (label_mem hf))
    (fun _ hf => plain_of_mem (label_mem hf)) hbytes

/-! ### The groups of fields -/

/-- The values of the fields with a label. -/
def valuesOf (label : String) (fields : List SigningField) : List String :=
  fields.filterMap fun field => if field.1 = label then some field.2 else none

theorem valuesOf_append (label : String) (fields fields' : List SigningField) :
    valuesOf label (fields ++ fields') = valuesOf label fields ++ valuesOf label fields' :=
  filterMap_append

theorem valuesOf_cons (label : String) (field : SigningField) (fields : List SigningField) :
    valuesOf label (field :: fields) =
      if field.1 = label then field.2 :: valuesOf label fields else valuesOf label fields := by
  unfold valuesOf
  rw [filterMap_cons]
  split_ifs <;> rfl

theorem valuesOf_nil (label : String) : valuesOf label [] = [] := rfl

theorem valuesOf_map {α : Type} (label label' : String) (f : α → String) (l : List α) :
    valuesOf label (l.map fun x => (label', f x)) = if label' = label then l.map f else [] := by
  induction l with
  | nil => split_ifs <;> rfl
  | cons x l ih =>
    rw [map_cons, valuesOf_cons, ih]
    split_ifs <;> rfl

theorem valuesOf_flatMap (label : String) (dependencies : List PackageDependency) :
    valuesOf label (dependencies.flatMap dependencyFields) =
      dependencies.flatMap fun dependency => valuesOf label (dependencyFields dependency) := by
  induction dependencies with
  | nil => rfl
  | cons dependency dependencies ih =>
    rw [flatMap_cons, flatMap_cons, valuesOf_append, ih]

theorem valuesOf_option {α : Type} (label : String) (fields : α → List SigningField)
    (o : Option α) : valuesOf label ((o.map fields).getD []) =
      (o.map fun x => valuesOf label (fields x)).getD [] := by
  cases o <;> rfl

theorem valuesOf_composition (label : String) (composition : MetaComposition) :
    valuesOf label (compositionFields composition) =
      (if "meta_max_handoffs" = label then [toString composition.maxHandoffs.toNat] else []) ++
      (if "meta_domain" = label then composition.allowedDomains else []) := by
  unfold compositionFields
  rw [valuesOf_cons, valuesOf_map, map_id']
  split_ifs <;> rfl

theorem valuesOf_contract (label : String) (contract : GenePackageContract) :
    valuesOf label (contractFields contract) =
      (if "gene_execution" = label then [contract.execution.asStr] else []) ++
      (if "gene_approval_required" = label then [boolText contract.approvalRequired] else []) ++
      (if "gene_capability" = label then contract.capabilities.map Capability.asStr else []) := by
  unfold contractFields
  rw [valuesOf_cons, valuesOf_cons, valuesOf_map]
  split_ifs <;> rfl

theorem valuesOf_signingFields {label : String} (manifest : PackageManifest)
    (hlabel : label ∈ signingLabels.drop 7) :
    valuesOf label (signingFields manifest) = (sortedDependencies manifest).flatMap
        (fun dependency => valuesOf label (dependencyFields dependency)) ++
      (manifest.metaComposition.map fun composition =>
        valuesOf label (compositionFields composition)).getD [] ++
      (if "route_hint" = label then manifest.domainRouting.getD [] else []) ++
      (manifest.geneContract.map fun contract => valuesOf label (contractFields contract)).getD []
    := by
  have hheader : valuesOf label [("id", manifest.id), ("version", manifest.version),
      ("kind", manifest.kind.asStr), ("publisher", manifest.publisher),
      ("content_hash", manifest.contentHash), ("runtime_compatibility", manifest.runtime),
      ("license", manifest.license)] = [] := by
    simp only [signingLabels, drop_succ_cons, drop_zero, mem_cons,
      not_mem_nil, or_false] at hlabel
    rcases hlabel with rfl | rfl | rfl | rfl | rfl | rfl | rfl | rfl | rfl <;>
      simp [valuesOf_cons, valuesOf_nil]
  unfold signingFields
  rw [valuesOf_append, valuesOf_append, valuesOf_append, valuesOf_append, valuesOf_flatMap,
    valuesOf_option, valuesOf_option, valuesOf_map, map_id', hheader, nil_append]

theorem flatMap_none {α β : Type} (l : List α) : (l.flatMap fun _ => ([] : List β)) = [] :=
  flatMap_eq_nil_iff.mpr fun _ _ => rfl

theorem getD_map_nil {α β : Type} (o : Option α) : (o.map fun _ => ([] : List β)).getD [] = [] := by
  cases o <;> rfl

theorem dependencies_eq {l l' : List PackageDependency} (hid : l.map (·.id) = l'.map (·.id))
    (hversion : l.map (·.version) = l'.map (·.version))
    (hoptional : l.map (fun d => boolText d.optional) = l'.map (fun d => boolText d.optional)) :
    l = l' := by
  have hbool : ∀ x y : Bool, boolText x = boolText y → x = y := by decide
  induction l generalizing l' with
  | nil =>
    rw [map_nil, eq_comm, map_eq_nil_iff] at hid
    exact hid.symm
  | cons d l ih =>
    rcases l' with _ | ⟨d', l'⟩
    · cases hid
    · rw [map_cons, map_cons, List.cons.injEq] at hid hversion hoptional
      have hd : d = d' := by
        obtain ⟨id, version, optional⟩ := d
        obtain ⟨id', version', optional'⟩ := d'
        rw [PackageDependency.mk.injEq]
        exact ⟨hid.1, hversion.1, hbool _ _ hoptional.1⟩
      rw [hd, ih hid.2 hversion.2 hoptional.2]

theorem routing_ne_nil (h : manifest.validate semver = .ok ()) {hints : List String}
    (hhints : manifest.domainRouting = some hints) : hints ≠ [] := by
  have hrouting := (valid_of_validate semver h).routing
  rw [hhints] at hrouting
  unfold validateDomainRouting at hrouting
  split at hrouting
  · rename_i hints' _ hsome
    rw [Option.some.injEq] at hsome
    subst hsome
    simp only [validateRouting, bind_eq_ok, ensure_eq_ok, exists_const] at hrouting
    exact fun hnil => hrouting.1 (Or.inl hnil)
  · contradiction
  · cases hrouting
  · contradiction

/-- Two manifests that agree in everything but the trust and the order of the dependencies. -/
structure SameButTrust (a b : PackageManifest) : Prop where
  id : a.id = b.id
  version : a.version = b.version
  kind : a.kind = b.kind
  publisher : a.publisher = b.publisher
  contentHash : a.contentHash = b.contentHash
  runtime : a.runtime = b.runtime
  license : a.license = b.license
  dependencies : a.dependencies.Perm b.dependencies
  metaComposition : a.metaComposition = b.metaComposition
  domainRouting : a.domainRouting = b.domainRouting
  geneContract : a.geneContract = b.geneContract

section Groups
variable (h : signingFields a = signingFields b)
include h

theorem header_eq : a.id = b.id ∧ a.version = b.version ∧ a.kind = b.kind ∧
    a.publisher = b.publisher ∧ a.contentHash = b.contentHash ∧ a.runtime = b.runtime ∧
    a.license = b.license := by
  have hkinds : ∀ k k' : PackageKind, k.asStr = k'.asStr → k = k' := by
    intro k k'
    cases k <;> cases k' <;> decide
  unfold signingFields at h
  simp only [cons_append, List.cons.injEq, Prod.mk.injEq, true_and] at h
  obtain ⟨hid, hversion, hkind, hpublisher, hhash, hruntime, hlicense, -⟩ := h
  exact ⟨hid, hversion, hkinds _ _ hkind, hpublisher, hhash, hruntime, hlicense⟩

theorem valuesOf_eq (label : String) :
    valuesOf label (signingFields a) = valuesOf label (signingFields b) := by rw [h]

theorem dependencies_perm : a.dependencies.Perm b.dependencies := by
  have hcolumn : ∀ label ∈ ["dependency_id", "dependency_version", "dependency_optional"],
      (sortedDependencies a).flatMap (fun d => valuesOf label (dependencyFields d)) =
        (sortedDependencies b).flatMap (fun d => valuesOf label (dependencyFields d)) := by
    intro label hlabel
    have hvalues := valuesOf_eq h label
    simp only [mem_cons, not_mem_nil, or_false] at hlabel
    rcases hlabel with rfl | rfl | rfl <;>
      simpa [valuesOf_signingFields, signingLabels, valuesOf_composition, valuesOf_contract,
        getD_map_nil] using hvalues
  have hsorted : sortedDependencies a = sortedDependencies b := by
    have hid := hcolumn "dependency_id" (by simp)
    have hversion := hcolumn "dependency_version" (by simp)
    have hoptional := hcolumn "dependency_optional" (by simp)
    simp only [dependencyFields, valuesOf_cons, valuesOf_nil, String.reduceEq, if_true, if_false,
      ← map_eq_flatMap] at hid hversion hoptional
    exact dependencies_eq hid hversion hoptional
  have hperm : ∀ m : PackageManifest, (sortedDependencies m).Perm m.dependencies :=
    fun m => perm_insertionSort _ _
  exact (hperm a).symm.trans (hsorted ▸ hperm b)

theorem composition_eq : a.metaComposition = b.metaComposition := by
  have hhandoffs := valuesOf_eq h "meta_max_handoffs"
  have hdomains := valuesOf_eq h "meta_domain"
  rw [valuesOf_signingFields _ (by simp [signingLabels]),
    valuesOf_signingFields _ (by simp [signingLabels])] at hhandoffs hdomains
  simp only [valuesOf_composition, valuesOf_contract, dependencyFields, valuesOf_cons,
    valuesOf_nil, String.reduceEq, ↓reduceIte, append_nil, nil_append, flatMap_none,
    getD_map_nil] at hhandoffs hdomains
  rcases ha : a.metaComposition with _ | ca <;> rcases hb : b.metaComposition with _ | cb
  · rfl
  · simp [ha, hb] at hhandoffs
  · simp [ha, hb] at hhandoffs
  · simp only [ha, hb, Option.map_some, Option.getD_some, List.cons.injEq, and_true]
      at hhandoffs hdomains
    obtain ⟨domains, handoffs⟩ := ca
    obtain ⟨domains', handoffs'⟩ := cb
    rw [Option.some.injEq, MetaComposition.mk.injEq]
    exact ⟨hdomains, UInt32.toNat_inj.mp (toString_inj hhandoffs)⟩

theorem routing_eq (ha : a.validate semver = .ok ()) (hb : b.validate semver = .ok ()) :
    a.domainRouting = b.domainRouting := by
  have hhints := valuesOf_eq h "route_hint"
  rw [valuesOf_signingFields _ (by simp [signingLabels]),
    valuesOf_signingFields _ (by simp [signingLabels])] at hhints
  simp only [valuesOf_composition, valuesOf_contract, dependencyFields, valuesOf_cons,
    valuesOf_nil, String.reduceEq, ↓reduceIte, append_nil, nil_append, flatMap_none,
    getD_map_nil] at hhints
  rcases hra : a.domainRouting with _ | ra <;> rcases hrb : b.domainRouting with _ | rb
  · rfl
  · rw [hra, hrb] at hhints
    exact absurd hhints.symm (routing_ne_nil hb hrb)
  · rw [hra, hrb] at hhints
    exact absurd hhints (routing_ne_nil ha hra)
  · rw [hra, hrb] at hhints
    exact congrArg some hhints

theorem contract_eq : a.geneContract = b.geneContract := by
  have hmodes : ∀ m m' : GeneExecutionMode, m.asStr = m'.asStr → m = m' := by
    intro m m'
    cases m <;> cases m' <;> decide
  have hbool : ∀ x y : Bool, boolText x = boolText y → x = y := by decide
  have hexecution := valuesOf_eq h "gene_execution"
  have happroval := valuesOf_eq h "gene_approval_required"
  have hcapabilities := valuesOf_eq h "gene_capability"
  rw [valuesOf_signingFields _ (by simp [signingLabels]),
    valuesOf_signingFields _ (by simp [signingLabels])] at hexecution happroval hcapabilities
  simp only [valuesOf_composition, valuesOf_contract, dependencyFields, valuesOf_cons,
    valuesOf_nil, String.reduceEq, ↓reduceIte, append_nil, nil_append, flatMap_none,
    getD_map_nil] at hexecution happroval hcapabilities
  rcases ha : a.geneContract with _ | ca <;> rcases hb : b.geneContract with _ | cb
  · rfl
  · simp [ha, hb] at hexecution
  · simp [ha, hb] at hexecution
  · simp only [ha, hb, Option.map_some, Option.getD_some, List.cons.injEq, and_true]
      at hexecution happroval hcapabilities
    obtain ⟨execution, capabilities, approval⟩ := ca
    obtain ⟨execution', capabilities', approval'⟩ := cb
    rw [Option.some.injEq, GenePackageContract.mk.injEq]
    refine ⟨hmodes _ _ hexecution, ?_, hbool _ _ happroval⟩
    exact map_injective_iff.mpr (fun _ _ => Effect.Request.capability_asStr_inj) hcapabilities

end Groups

/-- **A signature binds the whole manifest**: two valid manifests with the same signed text agree
in everything but the trust and the order of the dependencies. -/
theorem signingMessage_binds (ha : a.validate semver = .ok ()) (hb : b.validate semver = .ok ())
    (h : a.signingMessage = b.signingMessage) : SameButTrust a b := by
  have hfields := signingFields_eq h
  obtain ⟨hid, hversion, hkind, hpublisher, hhash, hruntime, hlicense⟩ := header_eq hfields
  exact {
    id := hid
    version := hversion
    kind := hkind
    publisher := hpublisher
    contentHash := hhash
    runtime := hruntime
    license := hlicense
    dependencies := dependencies_perm hfields
    metaComposition := composition_eq hfields
    domainRouting := routing_eq hfields ha hb
    geneContract := contract_eq hfields }

/-- `semver` on the versions and the requirement below. -/
def sampleSemVer : SemVer where
  version text := text = "1.0.0" || text = "0.1.0"
  requirement text := text = ">=3.0.3"
  accepts _ _ := false

def sampleManifest (dependencies : List PackageDependency) (trust : TrustEvidence) :
    PackageManifest where
  id := "example/meta"
  version := "1.0.0"
  kind := .metaHarness
  publisher := "publisher: 4:kind:gene"
  contentHash := "sha256:e3b0c44298fc1c149afbf4c8996fb92427ae41e4649b934ca495991b7852b855"
  dependencies := dependencies
  runtime := "pandora>=3.0.3"
  license := "MIT"
  trust := trust
  metaComposition := some ⟨["coding-domain"], 4⟩
  domainRouting := none
  geneContract := none

theorem signingMessage_binds_sample :
    sampleManifest [⟨"tests.run", "0.1.0", false⟩, ⟨"lint.check", "0.1.0", true⟩]
        ⟨.unverified, none, none⟩ ≠
      sampleManifest [⟨"lint.check", "0.1.0", true⟩, ⟨"tests.run", "0.1.0", false⟩]
        ⟨.verified, some "00", some "00"⟩ ∧
    SameButTrust (sampleManifest [⟨"tests.run", "0.1.0", false⟩, ⟨"lint.check", "0.1.0", true⟩]
        ⟨.unverified, none, none⟩)
      (sampleManifest [⟨"lint.check", "0.1.0", true⟩, ⟨"tests.run", "0.1.0", false⟩]
        ⟨.verified, some "00", some "00"⟩) := by
  refine ⟨by decide +kernel, @signingMessage_binds sampleSemVer _ _ ?_ ?_ ?_⟩
  · decide +kernel
  · decide +kernel
  · decide +kernel

end Pandora.Packages.Signing
