import Pandora.Context.Engine

/-! # Secret content does not reach the assembled context

Two sequences of calls that differ only in the contents of secret fragments are answered alike, but
for the digest of the manifest. A request with a secret fragment goes past the caches, so the
engines stay the same, and where the fragments are placed a secret one is its redacted text. -/

namespace Pandora.Context.Secrets

open Text Lib.Checked Lib.Runs Context.Fragments Context.Engine List

variable {sha : Sha256} {env : ContextEnv} {access : FileAccess} {request : ContextRequest}
  {f g : ContextFragment sha} {fragments fragments' : List (ContextFragment sha)}

/-- Everything of a fragment but the content and its digest if it is secret. -/
structure OpenPart where
  id : String
  source : ContextSource
  trust : ContextTrust
  classification : ContextClassification
  priority : UInt8
  content : Option String
  tokenCost : UInt32
  expiresAt : Option UInt64
  origin : ContextOrigin

def openPart (fragment : ContextFragment sha) : OpenPart where
  id := fragment.id
  source := fragment.source
  trust := fragment.trust
  classification := fragment.classification
  priority := fragment.priority
  content := if fragment.classification = .secret then none else some fragment.content
  tokenCost := fragment.tokenCost
  expiresAt := fragment.expiresAt
  origin := fragment.origin

/-- The assembly but for the digest of its manifest. -/
def ContextAssembly.withoutDigest (assembly : ContextAssembly) : ContextAssembly :=
  { assembly with receipt := { assembly.receipt with manifestDigest := none } }

/-- The same event, but for the contents of secret fragments. -/
inductive AgreeButSecrets : Event sha → Event sha → Prop
  | assemble (access : FileAccess) (request : ContextRequest)
    (fragments fragments' : List (ContextFragment sha))
    (h : fragments.map openPart = fragments'.map openPart) :
    AgreeButSecrets (.assemble access request fragments) (.assemble access request fragments')
  | reopen : AgreeButSecrets .reopen .reopen

/-! ### Fragments with the same open part -/

theorem alikeAt_of_openPart (now : UInt64) (h : openPart f = openPart g) : AlikeAt now now f g := by
  have hclassification : f.classification = g.classification :=
    congrArg OpenPart.classification h
  have hexpires : f.expiresAt = g.expiresAt := congrArg OpenPart.expiresAt h
  exact {
    id := congrArg OpenPart.id h
    source := congrArg OpenPart.source h
    trust := congrArg OpenPart.trust h
    classification := hclassification
    tokenCost := congrArg OpenPart.tokenCost h
    expired := by
      unfold ContextFragment.isExpired
      rw [hexpires]
    text := by
      have hcontent := congrArg OpenPart.content h
      change (if f.classification = .secret then none else some f.content) =
        (if g.classification = .secret then none else some g.content) at hcontent
      unfold redact
      rw [hclassification] at hcontent ⊢
      by_cases hsecret : g.classification = .secret
      · rw [if_pos hsecret, if_pos hsecret]
      · rw [if_neg hsecret, if_neg hsecret, Option.some.injEq] at hcontent
        rw [if_neg hsecret, if_neg hsecret, hcontent] }

theorem eq_of_openPart (hopen : f.classification ≠ .secret) (h : openPart f = openPart g) :
    f = g := by
  have hclassification : f.classification = g.classification :=
    congrArg OpenPart.classification h
  have hcontent : f.content = g.content := by
    have hparts := congrArg OpenPart.content h
    change (if f.classification = .secret then none else some f.content) =
      (if g.classification = .secret then none else some g.content) at hparts
    rw [if_neg hopen, if_neg (hclassification ▸ hopen), Option.some.injEq] at hparts
    exact hparts
  obtain ⟨fid, fsource, ftrust, fclass, fpriority, fcontent, fdigest, fcost, fexpires, forigin,
    _, fdigest_eq⟩ := f
  obtain ⟨gid, gsource, gtrust, gclass, gpriority, gcontent, gdigest, gcost, gexpires, gorigin,
    _, gdigest_eq⟩ := g
  simp only [openPart, OpenPart.mk.injEq] at h hcontent
  obtain ⟨rfl, rfl, rfl, rfl, rfl, -, rfl, rfl, rfl⟩ := h
  subst hcontent fdigest_eq gdigest_eq
  rfl

theorem forall₂_of_map (h : fragments.map openPart = fragments'.map openPart) :
    List.Forall₂ (fun f g => openPart f = openPart g) fragments fragments' := by
  rw [← List.forall₂_eq_eq_eq, List.forall₂_map_left_iff, List.forall₂_map_right_iff] at h
  exact h

/-- The order of fragments, on their open parts. -/
def PrecedesPart (left right : OpenPart) : Prop :=
  sourceRank left.source < sourceRank right.source ∨
    (sourceRank left.source = sourceRank right.source ∧ (right.priority < left.priority ∨
      (left.priority = right.priority ∧ left.id ≤ right.id)))

instance (left right : OpenPart) : Decidable (PrecedesPart left right) :=
  inferInstanceAs (Decidable (_ ∨ (_ ∧ (_ ∨ (_ ∧ _)))))

theorem map_sorted (fragments : List (ContextFragment sha)) :
    (sorted fragments).map openPart = (fragments.map openPart).insertionSort PrecedesPart :=
  map_insertionSort Precedes PrecedesPart openPart fragments fun _ _ _ _ => Iff.rfl

/-! ### One call -/

theorem not_cacheCandidate (hf : f ∈ fragments) (hsecret : f.classification = .secret) :
    cacheCandidate fragments = false := by
  unfold cacheCandidate
  rw [Bool.and_eq_false_iff]
  refine Or.inl (List.all_eq_false.mpr ⟨f, hf, ?_⟩)
  rw [hsecret]
  exact Bool.false_ne_true

theorem provenanceComplete_eq (h : fragments.map openPart = fragments'.map openPart) :
    (ContextManifest.fromFragments fragments).provenanceComplete =
      (ContextManifest.fromFragments fragments').provenanceComplete := by
  have hparts : ∀ l : List (ContextFragment sha),
      (ContextManifest.fromFragments l).provenanceComplete =
        (l.map openPart).all (·.origin.isComplete) := by
    intro l
    unfold ContextManifest.fromFragments
    dsimp only
    rw [all_map, all_map]
    rfl
  rw [hparts, hparts, h]

theorem build_withoutDigest (request : ContextRequest)
    (h : fragments.map openPart = fragments'.map openPart) :
    (build request fragments).map ContextAssembly.withoutDigest =
      (build request fragments').map ContextAssembly.withoutDigest := by
  have halike : List.Forall₂ (AlikeAt request.now request.now) fragments fragments' :=
    (forall₂_of_map h).imp fun _ _ hfg => alikeAt_of_openPart request.now hfg
  have hcomplete := provenanceComplete_eq h
  unfold build
  dsimp only
  rw [cacheCandidate_alike halike hcomplete, foldlM_alike rfl rfl halike, hcomplete]
  rcases fragments'.foldlM (place request) ⟨∅, [], [], 0, cacheCandidate fragments'⟩ with e | acc
  · change Except.error e = Except.error e
    rfl
  · -- the digest is dropped before the two assemblies are compared
    simp only [ok_bind, pure, Except.pure, Except.map, ContextAssembly.withoutDigest]

/-- Without a candidate for the cache, a call makes the assembly and leaves the engine. -/
theorem assemble_bypass (engine : ContextEngine) (h : cacheCandidate (sorted fragments) = false) :
    assemble env engine access request fragments = (engine, build request (sorted fragments)) := by
  unfold assemble
  dsimp only
  rw [h, if_neg Bool.false_ne_true]
  rcases hbuild : build request (sorted fragments) with e | made
  · rfl
  · dsimp only
    unfold ContextEngine.remember
    rw [if_neg (by rw [h]; exact fun hall => absurd hall.1 Bool.false_ne_true)]

/-- **One call**: the engine afterwards is the same, and so is the answer but for the digest. -/
theorem assemble_agrees (engine : ContextEngine)
    (h : fragments.map openPart = fragments'.map openPart) :
    (assemble env engine access request fragments).1 =
        (assemble env engine access request fragments').1 ∧
      (assemble env engine access request fragments).2.map ContextAssembly.withoutDigest =
        (assemble env engine access request fragments').2.map ContextAssembly.withoutDigest := by
  by_cases hsecret : ∃ f ∈ fragments, f.classification = .secret
  · obtain ⟨f, hf, hclass⟩ := hsecret
    have hpart : openPart f ∈ fragments'.map openPart := h ▸ mem_map_of_mem hf
    obtain ⟨g, hg, hfg⟩ := List.mem_map.mp hpart
    have hclass' : g.classification = .secret :=
      (congrArg OpenPart.classification hfg).trans hclass
    have hmem : ∀ {l : List (ContextFragment sha)} {a}, a ∈ l → a ∈ sorted l :=
      fun ha => (mem_insertionSort Precedes).mpr ha
    rw [assemble_bypass engine (not_cacheCandidate (hmem hf) hclass),
      assemble_bypass engine (not_cacheCandidate (hmem hg) hclass')]
    refine ⟨rfl, build_withoutDigest request ?_⟩
    rw [map_sorted, map_sorted, h]
  · -- no fragment is secret, so the lists are the same
    have heq : List.Forall₂ (· = ·) fragments fragments' := by
      rw [List.forall₂_iff_zip]
      have hparts := List.forall₂_iff_zip.mp (forall₂_of_map h)
      refine ⟨hparts.1, fun {f g} hzip => eq_of_openPart ?_ (hparts.2 hzip)⟩
      exact fun hclass => hsecret ⟨f, (of_mem_zip hzip).1, hclass⟩
    rw [List.forall₂_eq_eq_eq] at heq
    subst heq
    exact ⟨rfl, rfl⟩

/-! ### Sequences of calls -/

/-- What of an answer may not depend on secrets. -/
def openAnswer (answer : Option (Except ContextError ContextAssembly)) :
    Option (Except ContextError ContextAssembly) :=
  answer.map (·.map ContextAssembly.withoutDigest)

theorem exec_agrees (engine : ContextEngine) {event event' : Event sha}
    (h : AgreeButSecrets event event') :
    (exec env engine event).1 = (exec env engine event').1 ∧
      openAnswer (exec env engine event).2 = openAnswer (exec env engine event').2 := by
  cases h with
  | assemble access request fragments fragments' h =>
    rw [exec_assemble, exec_assemble]
    obtain ⟨hengine, hanswer⟩ := assemble_agrees engine h
    exact ⟨hengine, congrArg some hanswer⟩
  | reopen => exact ⟨rfl, rfl⟩

theorem run_agrees {events events' : List (Event sha)}
    (h : List.Forall₂ AgreeButSecrets events events') (engine : ContextEngine) :
    (machine env sha).run engine events = (machine env sha).run engine events' := by
  induction h generalizing engine with
  | nil => rfl
  | cons hevent _ ih =>
    rw [Machine.run_cons, Machine.run_cons, ih]
    congr 1
    exact (exec_agrees engine hevent).1

/-- **Secret content never flows into the assembled context**: two sequences of calls that differ
only in the contents of secret fragments are answered alike, but for the digests of the manifests.
-/
theorem secrets_never_flow (engine : ContextEngine) {events events' : List (Event sha)}
    (h : List.Forall₂ AgreeButSecrets events events') {k : ℕ} {event event' : Event sha}
    {answer answer' : Option (Except ContextError ContextAssembly)}
    (hanswer : (machine env sha).Answers engine events k event answer)
    (hanswer' : (machine env sha).Answers engine events' k event' answer') :
    openAnswer answer = openAnswer answer' := by
  have hbefore : List.Forall₂ AgreeButSecrets (events.take k) (events'.take k) :=
    List.forall₂_take k h
  have hevent : AgreeButSecrets event event' := by
    obtain ⟨hk, hget⟩ := List.getElem?_eq_some_iff.mp hanswer.1
    obtain ⟨hk', hget'⟩ := List.getElem?_eq_some_iff.mp hanswer'.1
    rw [← hget, ← hget']
    exact h.get hk hk'
  rw [← hanswer.2, ← hanswer'.2, run_agrees hbefore engine]
  exact (exec_agrees _ hevent).2

/-- SHA-256 on the two contents below and on the manifests of them. -/
def sampleSha : Sha256 := fun message =>
  if message.length = 7 then
    ⟨[245, 47, 189, 50, 178, 179, 184, 111, 248, 142, 246, 196, 144, 98, 130, 133, 244, 130, 175,
      21, 221, 203, 41, 84, 31, 148, 188, 245, 38, 163, 246, 199], rfl⟩
  else if message.length = 20 then
    ⟨[35, 241, 168, 57, 141, 87, 235, 100, 19, 245, 134, 62, 40, 9, 80, 187, 2, 84, 137, 60, 66, 38,
      199, 240, 156, 91, 253, 184, 103, 234, 132, 87], rfl⟩
  else if message.getD 116 0 = 0x66 then
    ⟨[97, 21, 201, 135, 49, 216, 239, 146, 217, 19, 183, 203, 96, 144, 146, 211, 195, 50, 237, 129,
      150, 177, 122, 169, 161, 41, 156, 189, 91, 47, 15, 163], rfl⟩
  else
    ⟨[7, 49, 166, 92, 241, 181, 81, 18, 176, 185, 143, 183, 166, 110, 137, 105, 33, 97, 61, 65, 218,
      237, 67, 194, 253, 8, 252, 248, 201, 122, 14, 162], rfl⟩

def sampleSecret (content : String) : ContextFragment sampleSha where
  id := "api-token"
  source := .retrieved
  trust := .admitted
  classification := .secret
  priority := 10
  content := content
  contentDigest := sha256Digest sampleSha (asBytes content)
  tokenCost := 40
  expiresAt := none
  origin := .incomplete
  idShort := by decide
  contentDigest_eq := rfl

/-- A budget that shortens the fragment. -/
def sampleRequest : ContextRequest where
  tenantId := .ofLiteral "tenant"
  workspaceId := .ofLiteral "workspace"
  sessionId := .ofLiteral "session"
  provider := "local"
  model := "small"
  policyVersion := 1
  tokenBudget := 2
  now := 1000
  classificationBoundary := .secret

def sampleEvent (content : String) : Event sampleSha :=
  .assemble ⟨true, true, true⟩ sampleRequest [sampleSecret content]

/-- An engine without a file writes and reads nothing. -/
def sampleEnv : ContextEnv where
  write _ := none
  read _ := none
  sizeOfAssembly := 400
  sizeOfCacheEntry := 600
  sizeOfEntry := 56
  sizeOfString := 24

/-- Two secrets of different lengths, both shortened to the same text. -/
theorem secrets_never_flow_shortened :
    (exec sampleEnv .new (sampleEvent "hunter2")).2.map (·.map (·.text)) = some (.ok "[redacte…") ∧
    openAnswer (exec sampleEnv .new (sampleEvent "hunter2")).2 =
      openAnswer (exec sampleEnv .new (sampleEvent "a much longer secret")).2 := by
  have hanswers : ∀ content, (machine sampleEnv sampleSha).Answers .new [sampleEvent content] 0
      (sampleEvent content) (exec sampleEnv .new (sampleEvent content)).2 :=
    fun _ => ⟨rfl, rfl⟩
  have hagree : List.Forall₂ AgreeButSecrets [sampleEvent "hunter2"]
      [sampleEvent "a much longer secret"] := .cons (.assemble _ _ _ _ rfl) .nil
  exact ⟨by decide +kernel, secrets_never_flow .new hagree (hanswers _) (hanswers _)⟩

end Pandora.Context.Secrets
