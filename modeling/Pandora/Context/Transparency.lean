import Pandora.Context.Engine

/-! # The context cache is transparent

An entry of the cache was made for a request and its fragments (`Genuine`). A later request with the
same key and manifest digest has the same fragments, but for the kinds of their origins, and between
the time the entry was made and the first expiry after it the same of them are expired; so the entry
is what would be assembled anew. -/

namespace Pandora.Context.Transparency

open Text Context.Fragments Context.Engine ContextManifest List Option

variable {sha : Sha256} {env : ContextEnv} {engine : ContextEngine} {access : FileAccess}
  {request request' : ContextRequest} {fragments fragments' candidates : List (ContextFragment sha)}
  {assembly : ContextAssembly} {entry : ContextCacheEntry}

/-- What `serde_json` writes it reads back. -/
def Faithful (env : ContextEnv) : Prop :=
  ∀ file bytes, env.write file = some bytes → env.read bytes = some file

/-- The assembly but for its cache disposition. -/
def ContextAssembly.content (assembly : ContextAssembly) : ContextAssembly :=
  assembly.withCacheDisposition .bypass

/-- The texts that are hashed for a request. -/
def Hashed (asked : ContextRequest → List (ContextFragment sha) → Prop) : Set (List UInt8) :=
  { message | ∃ request fragments, asked request fragments ∧
    (message = manifestMessage ((sorted fragments).map ContextFragmentManifest.ofFragment) ∨
      ∃ fragment ∈ fragments, message = asBytes fragment.content) }

/-! ### Entries -/

/-- The entry was made for one of the requests. -/
def Genuine (asked : ContextRequest → List (ContextFragment sha) → Prop)
    (entry : ContextCacheEntry) : Prop :=
  ∃ request fragments made, asked request fragments ∧ build request (sorted fragments) = .ok made ∧
    ContextAssembly.content entry.assembly = ContextAssembly.content made ∧
    entry.key = request.cacheKey ∧
    entry.manifestDigest = (fromFragments (sorted fragments)).digest ∧
    entry.assembledAt = request.now ∧
    entry.validUntil = validUntil request.now (sorted fragments)

theorem lt_of_validUntil {now time : UInt64} {f : ContextFragment sha} (hf : f ∈ candidates)
    (htime : f.expiresAt = some time) (hafter : now < time) :
    ∃ first, validUntil now candidates = some first ∧ first ≤ time := by
  have hmem : time ∈ (candidates.filterMap ContextFragment.expiresAt).filter (now < ·) := by
    rw [mem_filter, mem_filterMap]
    exact ⟨⟨f, hf, htime⟩, decide_eq_true hafter⟩
  rcases hmin : validUntil now candidates with _ | first
  · unfold validUntil at hmin
    rw [List.min?_eq_none_iff] at hmin
    rw [hmin] at hmem
    cases hmem
  · exact ⟨first, rfl, (List.min?_eq_some_iff.mp hmin).2 time hmem⟩

/-- Until the first expiry, a fragment is expired if it was when the entry was made. -/
theorem isExpired_eq {now now' : UInt64} {f : ContextFragment sha} (hf : f ∈ candidates)
    (hle : now ≤ now') (hvalid : (validUntil now candidates).all (now' < ·) = true) :
    f.isExpired now = f.isExpired now' := by
  unfold ContextFragment.isExpired
  rcases htime : f.expiresAt with _ | time
  · rfl
  · rw [any_some, any_some, decide_eq_decide]
    constructor
    · exact fun hexpired => UInt64.le_trans hexpired hle
    · intro hexpired
      by_contra hafter
      obtain ⟨first, hfirst, hle'⟩ := lt_of_validUntil hf htime (UInt64.not_le.mp hafter)
      rw [hfirst, all_some, decide_eq_true_eq] at hvalid
      exact absurd hexpired (UInt64.not_le.mpr (UInt64.lt_of_lt_of_le hvalid hle'))

variable {asked : ContextRequest → List (ContextFragment sha) → Prop}

/-- Fragments with the same manifest digest have the same manifests and contents. -/
theorem same_of_digest (hsha : Set.InjOn sha (Hashed asked)) (hasked : asked request fragments)
    (hasked' : asked request' fragments')
    (h : (fromFragments (sorted fragments)).digest = (fromFragments (sorted fragments')).digest) :
    List.Forall₂ (fun f g => SameButKind (.ofFragment f) (.ofFragment g) ∧ f.content = g.content)
      (sorted fragments) (sorted fragments') := by
  have hmessage := hsha ⟨request, fragments, hasked, Or.inl rfl⟩
    ⟨request', fragments', hasked', Or.inl rfl⟩ (sha256Digest_inj h)
  have hshort : ∀ l : List (ContextFragment sha),
      ∀ a ∈ l.map ContextFragmentManifest.ofFragment, a.Short := by
    intro l a ha
    obtain ⟨f, -, rfl⟩ := mem_map.mp ha
    exact short_ofFragment f
  have hsame := manifestMessage_cancel (hshort _) (hshort _) hmessage
  rw [forall₂_map_left_iff, forall₂_map_right_iff] at hsame
  rw [forall₂_iff_zip] at hsame ⊢
  refine ⟨hsame.1, fun {f g} hzip => ?_⟩
  have hfg := hsame.2 hzip
  obtain ⟨hf, hg⟩ := of_mem_zip hzip
  refine ⟨hfg, ?_⟩
  -- the contents go into the manifest by their digests
  have hdigest : sha256Digest sha (asBytes f.content) = sha256Digest sha (asBytes g.content) := by
    rw [← f.contentDigest_eq, ← g.contentDigest_eq]
    exact hfg.contentDigest
  have hcontent := hsha
    ⟨request, fragments, hasked, Or.inr ⟨f, mem_insertionSort _ |>.mp hf, rfl⟩⟩
    ⟨request', fragments', hasked', Or.inr ⟨g, mem_insertionSort _ |>.mp hg, rfl⟩⟩
    (sha256Digest_inj hdigest)
  exact asBytes_inj hcontent

/-- **An entry stands for what would be assembled**: one that was made for a request and is valid
for another with the same key and manifest digest. -/
theorem build_of_genuine (hsha : Set.InjOn sha (Hashed asked)) (hgenuine : Genuine asked entry)
    (hasked : asked request fragments)
    (hfor : entry.isFor request.cacheKey (fromFragments (sorted fragments)).digest = true)
    (hvalid : entry.valid request.now = true) :
    ∃ made, build request (sorted fragments) = .ok made ∧
      ContextAssembly.content entry.assembly = ContextAssembly.content made := by
  obtain ⟨request₀, fragments₀, made, hasked₀, hmade, hcontent, hkey, hdigest, hat, huntil⟩ :=
    hgenuine
  unfold ContextCacheEntry.isFor at hfor
  unfold ContextCacheEntry.valid at hvalid
  rw [Bool.and_eq_true, decide_eq_true_eq, decide_eq_true_eq, hkey, hdigest] at hfor
  rw [Bool.and_eq_true, decide_eq_true_eq, hat, huntil] at hvalid
  have hsame := same_of_digest hsha hasked₀ hasked hfor.2
  have halike : List.Forall₂ (AlikeAt request₀.now request.now) (sorted fragments₀)
      (sorted fragments) := by
    rw [forall₂_iff_zip] at hsame ⊢
    refine ⟨hsame.1, fun {f g} hzip => ?_⟩
    obtain ⟨hfg, htext⟩ := hsame.2 hzip
    have hexpired : f.isExpired request₀.now = f.isExpired request.now :=
      isExpired_eq (of_mem_zip hzip).1 hvalid.1 hvalid.2
    exact {
      id := hfg.id
      source := hfg.source
      trust := hfg.trust
      classification := hfg.classification
      tokenCost := hfg.tokenCost
      expired := by
        rw [hexpired]
        unfold ContextFragment.isExpired
        rw [show f.expiresAt = g.expiresAt from hfg.expiresAt]
      text := by
        unfold redact
        rw [show f.classification = g.classification from hfg.classification, htext] }
  have hcomplete := provenanceComplete_congr (hsame.imp fun _ _ h => h.1)
  refine ⟨made, ?_, hcontent⟩
  rw [← hmade]
  exact (build_alike hfor.1 halike hfor.2 hcomplete).symm

/-! ### The caches of an engine -/

/-- Every entry in memory, and every entry that can be read from the file, is genuine. -/
structure Sound (env : ContextEnv) (asked : ContextRequest → List (ContextFragment sha) → Prop)
    (engine : ContextEngine) : Prop where
  memory : ∀ entry ∈ engine.cache.entries, Genuine asked entry
  file : ∀ bytes file, engine.persistent = some (some bytes) → env.read bytes = some file →
    ∀ entry ∈ file.entries, Genuine asked entry

variable {bytes : Option (List UInt8)}

theorem load_entries {file : PersistentContextCacheFile}
    (h : Sound env asked engine) (hbytes : engine.persistent = some bytes) (reads : Bool)
    (hload : load env (if reads then bytes else none) = some file) :
    ∀ entry ∈ file.entries, Genuine asked entry := by
  cases reads with
  | false => cases hload
  | true =>
    rcases bytes with _ | bytes
    · cases hload
    · rw [if_pos rfl] at hload
      simp only [load, bind_eq_bind, bind_some] at hload
      split_ifs at hload
      obtain ⟨file', hread, hfile⟩ := Option.bind_eq_some_iff.mp hload
      split_ifs at hfile
      rw [Option.some.injEq] at hfile
      subst hfile
      exact h.file bytes file' hbytes hread

section Asked
variable {asked : ContextRequest → List (ContextFragment sha) → Prop}

theorem genuine_entryOf {made : ContextAssembly} (hasked : asked request fragments)
    (hmade : build request (sorted fragments) = .ok made)
    (hcontent : ContextAssembly.content assembly = ContextAssembly.content made) :
    Genuine asked (entryOf request (sorted fragments) assembly) :=
  ⟨request, fragments, made, hasked, hmade, hcontent, rfl, rfl, rfl, rfl⟩

/-- The assembly is that of a genuine entry that may be used for the request. -/
def Recalled (asked : ContextRequest → List (ContextFragment sha) → Prop) (key : ContextCacheKey)
    (manifestDigest : String) (now : UInt64) (assembly : ContextAssembly) : Prop :=
  ∃ entry, Genuine asked entry ∧ entry.isFor key manifestDigest = true ∧ entry.valid now = true ∧
    ContextAssembly.content assembly = ContextAssembly.content entry.assembly

variable {cache : ContextCache}

theorem lookup_memory (key : ContextCacheKey) (digest : String)
    (now : UInt64) (h : ∀ entry ∈ cache.entries, Genuine asked entry) :
    (∀ entry ∈ (cache.lookup key digest now).1.entries, Genuine asked entry) ∧
      ∀ assembly, (cache.lookup key digest now).2 = some assembly →
        Recalled asked key digest now assembly := by
  unfold ContextCache.lookup
  split
  · exact ⟨h, fun _ hnone => absurd hnone (some_ne_none _).symm⟩
  · rename_i entry hfind
    have hmem := mem_of_find?_eq_some hfind
    have hfor : entry.isFor key digest = true := List.find?_some hfind
    split_ifs with hvalid
    · refine ⟨h, fun assembly hsome => ?_⟩
      rw [Option.some.injEq] at hsome
      exact ⟨entry, h entry hmem, hfor, hvalid, by rw [← hsome]; rfl⟩
    · exact ⟨fun e he => h e (mem_of_mem_eraseP he), fun _ hfalse => hfalse.elim⟩

theorem get_recalled {key : ContextCacheKey} {digest : String}
    {now : UInt64} (h : ∀ file, load env bytes = some file → ∀ entry ∈ file.entries,
      Genuine asked entry) (hget : Engine.get env bytes key digest now = some assembly) :
    Recalled asked key digest now assembly := by
  unfold Engine.get at hget
  simp only [bind_eq_bind, bind_eq_some_iff] at hget
  obtain ⟨file, hload, entry, hfind, hresult⟩ := hget
  split_ifs at hresult
  rw [Option.some.injEq] at hresult
  have hpred := List.find?_some hfind
  rw [Bool.and_eq_true] at hpred
  refine ⟨entry, h file hload entry (mem_of_find?_eq_some hfind), hpred.1, hpred.2, ?_⟩
  rw [← hresult]
  rfl

/-- An assembly that is recalled for a request is the one that would be made. -/
theorem Recalled.build (hsha : Set.InjOn sha (Hashed asked)) (hasked : asked request fragments)
    (h : Recalled asked request.cacheKey
      (fromFragments (sorted fragments)).digest request.now assembly) :
    ∃ made, build request (sorted fragments) = .ok made ∧
      ContextAssembly.content assembly = ContextAssembly.content made := by
  obtain ⟨entry, hgenuine, hfor, hvalid, hcontent⟩ := h
  obtain ⟨made, hmade, hsame⟩ := build_of_genuine hsha hgenuine hasked hfor hvalid
  exact ⟨made, hmade, hcontent.trans hsame⟩

theorem promote_memory (h : ∀ entry ∈ cache.entries, Genuine asked entry)
    (hentry : Genuine asked entry) : ∀ e ∈ (cache.promote entry).entries, Genuine asked e := by
  have hall : ∀ e ∈ cache.entries ++ [entry], Genuine asked e := by
    intro e he
    rcases mem_append.mp he with he | he
    · exact h e he
    · rw [mem_singleton.mp he]
      exact hentry
  intro e he
  unfold ContextCache.promote at he
  dsimp only at he
  split_ifs at he
  · exact hall e (mem_of_mem_drop he)
  · exact hall e he

theorem push_memory (h : ∀ entry ∈ cache.entries, Genuine asked entry)
    (hentry : Genuine asked entry) : ∀ e ∈ (cache.push entry).entries, Genuine asked e := by
  intro e he
  unfold ContextCache.push at he
  dsimp only at he
  rcases mem_append.mp he with he | he
  · split_ifs at he
    · exact h e (mem_of_mem_drop he)
    · exact h e he
  · rw [mem_singleton.mp he]
    exact hentry

/-- A lookup keeps the caches sound, and finds what would be made. -/
theorem recall_sound (hsha : Set.InjOn sha (Hashed asked)) (h : Sound env asked engine)
    (hasked : asked request fragments) :
    Sound env asked (engine.recall env access request (sorted fragments)).1 ∧
      ∀ assembly, (engine.recall env access request (sorted fragments)).2 = some assembly →
        ∃ made, build request (sorted fragments) = .ok made ∧
          ContextAssembly.content assembly = ContextAssembly.content made := by
  obtain ⟨hcache, hfound⟩ := lookup_memory request.cacheKey
    (fromFragments (sorted fragments)).digest request.now h.memory
  unfold ContextEngine.recall
  dsimp only
  generalize engine.cache.lookup request.cacheKey
    (fromFragments (sorted fragments)).digest request.now = looked at hcache hfound
  obtain ⟨cache, found⟩ := looked
  rcases found with _ | found
  · dsimp only
    split
    · rename_i fromFile hfile
      obtain ⟨bytes, hbytes, hget⟩ := Option.bind_eq_some_iff.mp hfile
      have hrecalled := get_recalled (fun file => load_entries h hbytes access.getReads) hget
      have hbuild := hrecalled.build hsha hasked
      obtain ⟨made, hmade, hsame⟩ := hbuild
      refine ⟨⟨promote_memory hcache (genuine_entryOf hasked hmade hsame), h.file⟩, ?_⟩
      rintro assembly ⟨⟩
      exact ⟨made, hmade, hsame⟩
    · exact ⟨⟨hcache, h.file⟩, fun _ hnone => absurd hnone (some_ne_none _).symm⟩
  · refine ⟨⟨hcache, h.file⟩, ?_⟩
    rintro assembly ⟨⟩
    exact (hfound found rfl).build hsha hasked

theorem addEntry_entries {entries : List ContextCacheEntry}
    (h : ∀ e ∈ entries, Genuine asked e) (hentry : Genuine asked entry) :
    ∀ e ∈ addEntry entries entry, Genuine asked e := by
  have hall : ∀ e ∈ entries.filter (fun candidate => candidate.key ≠ entry.key) ++ [entry],
      Genuine asked e := by
    intro e he
    rcases mem_append.mp he with he | he
    · exact h e (mem_of_mem_filter he)
    · rw [mem_singleton.mp he]
      exact hentry
  intro e he
  unfold addEntry at he
  dsimp only at he
  split_ifs at he
  · exact hall e (mem_of_mem_drop he)
  · exact hall e he

/-- The file is written with genuine entries, and read back as it was written. -/
theorem put_file (hfaithful : Faithful env) (h : Sound env asked engine)
    (hbytes : engine.persistent = some bytes)
    (hentry : Genuine asked entry) {written : List UInt8} {file : PersistentContextCacheFile}
    (hput : put env access bytes entry = some written) (hread : env.read written = some file) :
    ∀ e ∈ file.entries, Genuine asked e := by
  have hkept : bytes = some written → ∀ e ∈ file.entries, Genuine asked e := by
    rintro rfl
    exact h.file written file hbytes hread
  have hold : ∀ e ∈ ((load env (if access.putReads then bytes else none)).map
      (·.entries)).getD [], Genuine asked e := by
    intro e he
    rcases hload : load env (if access.putReads then bytes else none) with _ | old
    · rw [hload] at he
      cases he
    · rw [hload] at he
      exact load_entries h hbytes access.putReads hload e he
  unfold put at hput
  generalize load env (if access.putReads then bytes else none) = loaded at hput hold
  split_ifs at hput with hunsafe
  · exact hkept hput
  · dsimp only at hput
    split at hput
    · exact hkept hput
    · rename_i text htext
      split_ifs at hput
      · exact hkept hput
      · rw [Option.some.injEq] at hput
        subst hput
        rw [hfaithful _ _ htext, Option.some.injEq] at hread
        subst hread
        exact addEntry_entries hold hentry

theorem remember_sound (hfaithful : Faithful env) (h : Sound env asked engine)
    (hasked : asked request fragments) (hmade : build request (sorted fragments) = .ok assembly) :
    Sound env asked (engine.remember env access request (sorted fragments) assembly) := by
  have hentry : Genuine asked (entryOf request (sorted fragments) assembly) :=
    genuine_entryOf hasked hmade rfl
  unfold ContextEngine.remember
  split_ifs
  · refine ⟨push_memory h.memory hentry, ?_⟩
    intro written file hwritten hread
    obtain ⟨bytes, hbytes, hput⟩ := Option.map_eq_some_iff.mp hwritten
    exact put_file hfaithful h hbytes hentry hput hread
  · exact h

/-- **One call**: the caches stay sound, and the answer is the assembly made anew but for its cache
disposition. -/
theorem assemble_sound (hfaithful : Faithful env) (hsha : Set.InjOn sha (Hashed asked))
    (h : Sound env asked engine) (hasked : asked request fragments) :
    Sound env asked (assemble env engine access request fragments).1 ∧
      (assemble env engine access request fragments).2.map ContextAssembly.content =
        (build request (sorted fragments)).map ContextAssembly.content := by
  have hrecall : ∀ recalled : ContextEngine × Option ContextAssembly,
      recalled = (if cacheCandidate (sorted fragments) then
        engine.recall env access request (sorted fragments) else (engine, none)) →
      Sound env asked recalled.1 ∧ ∀ assembly, recalled.2 = some assembly →
        ∃ made, build request (sorted fragments) = .ok made ∧
          ContextAssembly.content assembly = ContextAssembly.content made := by
    rintro recalled rfl
    split_ifs
    · exact recall_sound hsha h hasked
    · exact ⟨h, fun _ hfalse => hfalse.elim⟩
  unfold assemble
  dsimp only
  generalize hrecalled : (if cacheCandidate (sorted fragments) then
    engine.recall env access request (sorted fragments) else (engine, none)) = recalled
  obtain ⟨hsound, hfound⟩ := hrecall recalled hrecalled.symm
  obtain ⟨engine', found⟩ := recalled
  rcases found with _ | found
  · dsimp only
    rcases hbuild : build request (sorted fragments) with e | made
    · exact ⟨hsound, rfl⟩
    · exact ⟨remember_sound hfaithful hsound hasked hbuild, rfl⟩
  · obtain ⟨made, hmade, hsame⟩ := hfound found rfl
    refine ⟨hsound, ?_⟩
    rw [hmade]
    change Except.ok (ContextAssembly.content found) = Except.ok (ContextAssembly.content made)
    rw [hsame]

end Asked

/-! ### Sequences of calls -/

theorem assemble_new (access : FileAccess) (request : ContextRequest)
    (fragments : List (ContextFragment sha)) :
    (assemble env ContextEngine.new access request fragments).2 =
      build request (sorted fragments) := by
  have hnone : ((if cacheCandidate (sorted fragments) then
      ContextEngine.new.recall env access request (sorted fragments)
      else (ContextEngine.new, none) : ContextEngine × Option ContextAssembly)).2 = none := by
    split_ifs <;> rfl
  unfold assemble
  dsimp only
  generalize (if cacheCandidate (sorted fragments) then
    ContextEngine.new.recall env access request (sorted fragments)
    else (ContextEngine.new, none)) = recalled at hnone
  obtain ⟨engine', found⟩ := recalled
  obtain rfl : found = none := hnone
  dsimp only
  rcases build request (sorted fragments) with e | made
  · rfl
  · rfl

/-- The requests of a sequence of calls. -/
def Asked (events : List (Event sha)) (request : ContextRequest)
    (fragments : List (ContextFragment sha)) : Prop :=
  ∃ access, Event.assemble access request fragments ∈ events

theorem exec_sound
    (hfaithful : Faithful env) (hsha : Set.InjOn sha (Hashed asked)) {event : Event sha}
    (hasked : ∀ access request fragments, event = .assemble access request fragments →
      asked request fragments) (h : Sound env asked engine) :
    Sound env asked (exec env engine event).1 := by
  cases event with
  | assemble access request fragments =>
    rw [exec_assemble]
    exact (assemble_sound hfaithful hsha h (hasked access request fragments rfl)).1
  | reopen => exact ⟨fun entry hentry => absurd hentry not_mem_nil, h.file⟩

/-- Every answer of a sequence of calls is the assembly made anew, but for its cache disposition. -/
theorem answer_content (hfaithful : Faithful env) (events : List (Event sha))
    (hsha : Set.InjOn sha (Hashed (Asked events)))
    (hengine : engine = ContextEngine.new ∨ engine = ContextEngine.open)
    {k : ℕ} {result : Except ContextError ContextAssembly}
    (hanswer : (machine env sha).Answers engine events k (.assemble access request fragments)
      (some result)) :
    result.map ContextAssembly.content =
      (build request (sorted fragments)).map ContextAssembly.content := by
  have hstart : Sound env (Asked events) engine := by
    rcases hengine with rfl | rfl
    · refine ⟨fun entry hentry => absurd hentry not_mem_nil, fun bytes file hbytes => ?_⟩
      change none = some (some bytes) at hbytes
      cases hbytes
    · refine ⟨fun entry hentry => absurd hentry not_mem_nil, fun bytes file hbytes => ?_⟩
      change some none = some (some bytes) at hbytes
      cases hbytes
  have halong : (machine env sha).Along (fun _ event => event ∈ events) engine (events.take k) := by
    have hall : ∀ (is : List (Event sha)) (s : ContextEngine), (∀ event ∈ is, event ∈ events) →
        (machine env sha).Along (fun _ event => event ∈ events) s is := by
      intro is
      induction is with
      | nil => exact fun _ _ => trivial
      | cons event is ih =>
        intro s hsub
        exact ⟨hsub event mem_cons_self, ih _ fun e he => hsub e (mem_cons_of_mem _ he)⟩
    exact hall _ _ fun event => mem_of_mem_take
  have hsound := (machine env sha).run_invariant_along (P := Sound env (Asked events))
    (C := fun _ event => event ∈ events)
    (fun s event hevent hs => exec_sound hfaithful hsha
      (fun access request fragments he => ⟨access, he ▸ hevent⟩) hs) (events.take k) halong hstart
  have hasked : Asked events request fragments :=
    ⟨access, mem_of_getElem? hanswer.1⟩
  have hresult : (assemble env ((machine env sha).run engine (events.take k)) access request
      fragments).2 = result := by
    have hstep := hanswer.2
    change (exec env _ _).2 = some result at hstep
    rw [exec_assemble] at hstep
    exact Option.some.inj hstep
  rw [← hresult]
  exact (assemble_sound hfaithful hsha hsound hasked).2

/-- **The cache is transparent**: every call of a sequence returns what an engine without any cache
returns for the request and the fragments, but for the cache disposition. -/
theorem cache_transparent (hfaithful : Faithful env) (events : List (Event sha))
    (hsha : Set.InjOn sha (Hashed (Asked events)))
    (hengine : engine = ContextEngine.new ∨ engine = ContextEngine.open)
    {k : ℕ} {result : Except ContextError ContextAssembly}
    (hanswer : (machine env sha).Answers engine events k (.assemble access request fragments)
      (some result)) (access' : FileAccess) :
    result.map ContextAssembly.content =
      (assemble env ContextEngine.new access' request fragments).2.map
        ContextAssembly.content := by
  rw [assemble_new]
  exact answer_content hfaithful events hsha hengine hanswer

/-- SHA-256 on the content below and on the manifest of it. -/
def sampleSha : Sha256 := fun message =>
  if message.length = 26 then
    ⟨[216, 188, 218, 221, 203, 68, 98, 227, 25, 247, 136, 2, 196, 224, 173, 238, 183, 28, 60, 81,
      197, 145, 106, 135, 178, 244, 59, 42, 223, 165, 92, 166], rfl⟩
  else
    ⟨[25, 134, 23, 198, 114, 149, 41, 145, 213, 221, 107, 174, 132, 17, 187, 88, 32, 9, 156, 114,
      124, 116, 50, 252, 211, 120, 214, 182, 127, 196, 128, 59], rfl⟩

def sampleFragment : ContextFragment sampleSha where
  id := "charter"
  source := .constitutional
  trust := .constitutional
  classification := .internal
  priority := 100
  content := "Stay within the workspace."
  contentDigest := "sha256:d8bcdaddcb4462e319f78802c4e0adeeb71c3c51c5916a87b2f43b2adfa55ca6"
  tokenCost := 6
  expiresAt := some 2000
  origin := {
    producer := some "pandora-runtime"
    reference := some "constitution"
    kind := .runtime
    producerShort := by
      rintro text ⟨⟩
      decide
    referenceShort := by
      rintro text ⟨⟩
      decide }
  idShort := by decide
  contentDigest_eq := by decide +kernel

def sampleRequest (now : UInt64) : ContextRequest where
  tenantId := .ofLiteral "tenant"
  workspaceId := .ofLiteral "workspace"
  sessionId := .ofLiteral "session"
  provider := "local"
  model := "small"
  policyVersion := 1
  tokenBudget := 100
  now := now
  classificationBoundary := .sensitive

/-- An engine without a file writes and reads nothing. -/
def sampleEnv : ContextEnv where
  write _ := none
  read _ := none
  sizeOfAssembly := 400
  sizeOfCacheEntry := 600
  sizeOfEntry := 56
  sizeOfString := 24

def sampleEvents : List (Event sampleSha) :=
  [.assemble ⟨true, true, true⟩ (sampleRequest 1000) [sampleFragment],
    .assemble ⟨true, true, true⟩ (sampleRequest 1999) [sampleFragment]]

theorem sampleSha_injOn {events : List (Event sampleSha)}
    {fragments : List (ContextFragment sampleSha)}
    (hsame : ∀ access request asked, .assemble access request asked ∈ events → asked = fragments)
    (hcontent : ∀ fragment ∈ fragments, fragment.content = sampleFragment.content)
    (hne : sampleSha (manifestMessage
      ((sorted fragments).map ContextFragmentManifest.ofFragment)) ≠
      sampleSha (asBytes sampleFragment.content)) :
    Set.InjOn sampleSha (Hashed (Asked events)) := by
  have hhashed : ∀ message ∈ Hashed (Asked events), message =
      manifestMessage ((sorted fragments).map ContextFragmentManifest.ofFragment) ∨
      message = asBytes sampleFragment.content := by
    rintro message ⟨request, asked, ⟨access, hmem⟩, hmessage⟩
    obtain rfl := hsame access request asked hmem
    rcases hmessage with hmessage | ⟨fragment, hfragment, hmessage⟩
    · exact Or.inl hmessage
    · rw [hcontent fragment hfragment] at hmessage
      exact Or.inr hmessage
  intro a ha b hb hab
  rcases hhashed a ha with rfl | rfl
  · rcases hhashed b hb with rfl | rfl
    · rfl
    · exact absurd hab hne
  · rcases hhashed b hb with rfl | rfl
    · exact absurd hab.symm hne
    · rfl

theorem sampleEvents_injOn : Set.InjOn sampleSha (Hashed (Asked sampleEvents)) := by
  refine @sampleSha_injOn _ [sampleFragment] (fun access request asked hmem => ?_)
    (fun fragment hfragment => mem_singleton.mp hfragment ▸ rfl) (by decide +kernel)
  simp only [sampleEvents, mem_cons, Event.assemble.injEq, not_mem_nil, or_false] at hmem
  exact hmem.elim (·.2.2) (·.2.2)

theorem cache_transparent_hit :
    (assemble sampleEnv ((machine sampleEnv sampleSha).run .new (sampleEvents.take 1))
      ⟨true, true, true⟩ (sampleRequest 1999) [sampleFragment]).2.map
        (·.receipt.cacheDisposition) = .ok .hit ∧
    (assemble sampleEnv ((machine sampleEnv sampleSha).run .new (sampleEvents.take 1))
      ⟨true, true, true⟩ (sampleRequest 1999) [sampleFragment]).2.map ContextAssembly.content =
      (assemble sampleEnv ContextEngine.new ⟨true, true, true⟩ (sampleRequest 1999)
        [sampleFragment]).2.map ContextAssembly.content := by
  have hfaithful : Faithful sampleEnv := by
    intro file bytes hwrite
    cases hwrite
  have hanswer : (machine sampleEnv sampleSha).Answers .new sampleEvents 1
      (.assemble ⟨true, true, true⟩ (sampleRequest 1999) [sampleFragment])
      (some (assemble sampleEnv ((machine sampleEnv sampleSha).run .new (sampleEvents.take 1))
        ⟨true, true, true⟩ (sampleRequest 1999) [sampleFragment]).2) := by
    refine ⟨rfl, ?_⟩
    change (exec _ _ _).2 = _
    rw [exec_assemble]
  exact ⟨by decide +kernel,
    cache_transparent hfaithful sampleEvents sampleEvents_injOn (Or.inl rfl) hanswer _⟩

end Pandora.Context.Transparency
