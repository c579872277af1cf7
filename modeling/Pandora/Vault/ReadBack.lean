import Pandora.Lib.Runs
import Pandora.Vault.Store

/-! # What a reopened vault holds

A vault keeps its word after a call (`Keeps`): if the call succeeds, opening the file gives the
running vault; if it fails, neither the running vault nor what the file holds has changed. This is
so along a run exactly if every call that changes the contents is written, and writes a file of 4
MiB at most (`keeps_iff_meets`): the JSON of the contents may then have 3,145,578 bytes. -/

namespace Pandora.Vault

open Text Ids Lib Lib.Checked Lib.SortedMaps Lib.Runs VaultCall List

/-- JSON and the cipher read back what they wrote, and the cipher adds a tag of 16 bytes. -/
structure Primitives.Lawful (lib : Primitives) : Prop where
  contents : ∀ contents, lib.contentsFromJson (lib.contentsToJson contents) = some contents
  envelope : ∀ salt nonce ciphertext, lib.envelopeFromJson (vaultFile salt nonce ciphertext) =
    some (envelopeOf salt nonce ciphertext)
  decrypt : ∀ {key nonce aad message ciphertext},
    lib.encrypt key nonce aad message = some ciphertext →
      lib.decrypt key nonce aad ciphertext = some message
  tag : ∀ {key nonce aad message ciphertext},
    lib.encrypt key nonce aad message = some ciphertext → ciphertext.length = message.length + 16

/-! ### The size of the file -/

/-- The JSON that fills the file. -/
def maxContentsBytes : ℕ := 3145578

theorem size_base64 (bytes : List UInt8) :
    (base64 bytes).utf8ByteSize = (4 * bytes.length + 2) / 3 := by
  have hone : ∀ c ∈ Base64.alphabet, c.utf8Size = 1 :=
    List.all_iff_forall_prop.mp (by decide)
  have hsize : ∀ {chars : List Char}, (∀ c ∈ chars, c ∈ Base64.alphabet) →
      (chars.flatMap String.utf8EncodeChar).length = chars.length := by
    intro chars
    induction chars with
    | nil =>
      intro _
      rfl
    | cons c rest ih =>
      intro hmem
      have hrest := ih fun c hc => hmem c (mem_cons_of_mem _ hc)
      rw [flatMap_cons, length_append, String.length_utf8EncodeChar,
        hone c (hmem c mem_cons_self), hrest, length_cons, Nat.add_comm]
  unfold base64
  rw [← length_asBytes, asBytes_ofList, hsize fun c hc => Base64.mem_alphabet_of_mem_encode hc,
    Base64.length_encode]

theorem size_envelope : "\x7b\"format_version\":".utf8ByteSize = 18 ∧
    (toString 1).utf8ByteSize = 1 ∧ ",\"algorithm\":\"".utf8ByteSize = 14 ∧
    "xchacha20poly1305".utf8ByteSize = 17 ∧ "\",\"kdf\":\"".utf8ByteSize = 9 ∧
    "argon2id-v19-m65536-t3-p1".utf8ByteSize = 25 ∧ "\",\"salt\":\"".utf8ByteSize = 10 ∧
    "\",\"nonce\":\"".utf8ByteSize = 11 ∧ "\",\"ciphertext\":\"".utf8ByteSize = 16 ∧
    "\"\x7d".utf8ByteSize = 2 ∧ "\n".utf8ByteSize = 1 := by decide

theorem length_vaultFile {salt nonce : List UInt8} (hsalt : salt.length = 16)
    (hnonce : nonce.length = 24) (ciphertext : List UInt8) :
    (vaultFile salt nonce ciphertext).length = 178 + (4 * ciphertext.length + 2) / 3 := by
  obtain ⟨h₁, h₂, h₃, h₄, h₅, h₆, h₇, h₈, h₉, h₁₀, h₁₁⟩ := size_envelope
  unfold vaultFile VaultEnvelope.toJson envelopeOf
  simp only [asBytes_append, length_append, length_asBytes, size_base64, hsalt, hnonce,
    h₁, h₂, h₃, h₄, h₅, h₆, h₇, h₈, h₉, h₁₀, h₁₁]
  omega

/-! ### Reading what was written -/

/-- What opening checks of the contents. -/
structure Limits (vault : SecretVault) : Prop where
  passphrase : validatePassphrase vault.passphrase = .ok ()
  tenant : vault.contents.tenantId = vault.tenantId.text
  workspace : vault.contents.workspaceId = vault.workspaceId.text
  count : vault.contents.secrets.entries.length ≤ maxSecretCount
  secrets : ∀ entry ∈ vault.contents.secrets.entries, validateName entry.1 = .ok () ∧
    entry.2.value.utf8ByteSize ≤ maxSecretBytes

/-- Opens the file again, with the scope and the passphrase of the running vault. -/
def System.reopen (lib : Primitives) (s : System) : Except SecretVaultError SecretVault :=
  openVault lib s.file s.vault.tenantId s.vault.workspaceId s.vault.passphrase

section

variable {lib : Primitives}

theorem limits_of_reopen {s : System} (h : s.reopen lib = .ok s.vault) : Limits s.vault := by
  obtain ⟨⟨tenant, workspace, passphrase, contents⟩, file⟩ := s
  simp only [System.reopen, openVault, bind_eq_ok] at h
  obtain ⟨_, hpassphrase, h⟩ := h
  cases file with
  | none =>
    simp only [pure_eq_ok, SecretVault.mk.injEq, true_and] at h
    obtain rfl := h
    refine ⟨hpassphrase, rfl, rfl, Nat.zero_le _, ?_⟩
    intro entry hentry
    exact absurd hentry not_mem_nil
  | some bytes =>
    simp only [bind_eq_ok, pure_eq_ok, SecretVault.mk.injEq, true_and] at h
    obtain ⟨read, hread, rfl⟩ := h
    simp only [readContents, bind_eq_ok, ensure_eq_ok, pure_eq_ok] at hread
    obtain ⟨_, -, _, -, _, -, _, -, _, -, _, -, _, -, _, -, _, -, _, -, _, hscope, _, hlimits,
      rfl⟩ := hread
    exact ⟨hpassphrase, hscope.1, hscope.2, hlimits.1, hlimits.2⟩

theorem decodeFixed_base64 {n : ℕ} {bytes : List UInt8} (h : bytes.length = n) :
    decodeFixed n (base64 bytes) = .ok bytes := by
  unfold decodeFixed base64
  rw [String.toList_ofList, Base64.decode_encode]
  simp [orError, ensure, h]

/-- **Reading back.** A file that was written is read if it is not too large. -/
theorem reopen_persist (hlaw : lib.Lawful) {vault : SecretVault} (hlimits : Limits vault)
    {write : Write} {bytes : List UInt8} (h : persist lib vault write = .ok bytes) :
    System.reopen lib ⟨vault, some bytes⟩ =
      if (lib.contentsToJson vault.contents).length ≤ maxContentsBytes then .ok vault
      else .error .unsafePath := by
  obtain ⟨tenant, workspace, passphrase, contents⟩ := vault
  simp only [persist, bind_eq_ok, orError_eq_ok, ensure_eq_ok, pure_eq_ok] at h
  obtain ⟨⟨salt, hsalt⟩, -, ⟨nonce, hnonce⟩, -, key, hkey, ciphertext, hcipher, _, -, rfl⟩ := h
  have hlength := length_vaultFile hsalt hnonce ciphertext
  have htag := hlaw.tag hcipher
  have hpassphrase := hlimits.passphrase
  unfold System.reopen openVault
  dsimp only
  rw [hpassphrase, ok_bind]
  unfold readContents
  split_ifs with hfits
  · have hsmall : (vaultFile salt nonce ciphertext).length ≤ maxVaultBytes := by
      rw [hlength, htag]
      unfold maxContentsBytes at hfits
      unfold maxVaultBytes
      omega
    have hcipherSmall : ciphertext.length ≤ maxVaultBytes := by
      rw [htag]
      unfold maxContentsBytes at hfits
      unfold maxVaultBytes
      omega
    have hdecode : Base64.decode (base64 ciphertext).toList = some ciphertext := by
      unfold base64
      rw [String.toList_ofList, Base64.decode_encode]
    refine bind_eq_ok.mpr ⟨contents, ?_, rfl⟩
    refine bind_eq_ok.mpr ⟨(), ensure_eq_ok.mpr hsmall, ?_⟩
    refine bind_eq_ok.mpr ⟨_, orError_eq_ok.mpr (hlaw.envelope salt nonce ciphertext), ?_⟩
    refine bind_eq_ok.mpr ⟨(), ensure_eq_ok.mpr ⟨rfl, rfl, rfl⟩, ?_⟩
    refine bind_eq_ok.mpr ⟨salt, decodeFixed_base64 hsalt, ?_⟩
    refine bind_eq_ok.mpr ⟨nonce, decodeFixed_base64 hnonce, ?_⟩
    refine bind_eq_ok.mpr ⟨ciphertext, orError_eq_ok.mpr hdecode, ?_⟩
    refine bind_eq_ok.mpr ⟨(), ensure_eq_ok.mpr hcipherSmall, ?_⟩
    refine bind_eq_ok.mpr ⟨key, hkey, ?_⟩
    refine bind_eq_ok.mpr ⟨_, orError_eq_ok.mpr (hlaw.decrypt hcipher), ?_⟩
    refine bind_eq_ok.mpr ⟨contents, orError_eq_ok.mpr (hlaw.contents contents), ?_⟩
    refine bind_eq_ok.mpr ⟨(), ensure_eq_ok.mpr ⟨hlimits.tenant, hlimits.workspace⟩, ?_⟩
    exact bind_eq_ok.mpr ⟨(), ensure_eq_ok.mpr ⟨hlimits.count, hlimits.secrets⟩, rfl⟩
  · have hlarge : ¬ (vaultFile salt nonce ciphertext).length ≤ maxVaultBytes := by
      rw [hlength, htag]
      unfold maxContentsBytes at hfits
      unfold maxVaultBytes
      omega
    unfold ensure
    rw [if_neg hlarge]
    rfl

/-! ### What a call changes -/

/-- The contents that a call writes, if it comes to that. -/
def VaultCall.changed (contents : VaultContents) : VaultCall → Option VaultContents
  | put name value now =>
    if validateName name = .ok () ∧ ¬ (trim value).isEmpty ∧ value.utf8ByteSize ≤ maxSecretBytes ∧
        (contents.secrets.get? name ≠ none ∨ contents.secrets.entries.length < maxSecretCount) then
      some { contents with
        secrets := contents.secrets.insert name
          ⟨value, ((contents.secrets.get? name).map StoredSecret.createdAt).getD now, now⟩ }
    else none
  | remove name =>
    if validateName name = .ok () ∧ contents.secrets.get? name ≠ none then
      some { contents with secrets := contents.secrets.erase name }
    else none
  | putPool pool =>
    if validatePoolId pool.poolId = .ok () then
      some { contents with pools := contents.pools.insert pool.poolId pool }
    else none
  | removePool poolId =>
    if validatePoolId poolId = .ok () ∧ contents.pools.get? poolId ≠ none then
      some { contents with pools := contents.pools.erase poolId }
    else none
  | putMcpAuth auth =>
    some { contents with mcpAuth := contents.mcpAuth.insert auth.serverId auth }
  | removeMcpAuth serverId =>
    if contents.mcpAuth.get? serverId ≠ none then
      some { contents with mcpAuth := contents.mcpAuth.erase serverId }
    else none

theorem store_map {α β : Type} (s : System) (contents : VaultContents) (write : Write) (reply : α)
    (f : α → β) : (store lib s contents write reply).map id (f <$> ·) =
      store lib s contents write (f reply) := by
  unfold store
  dsimp only
  cases persist lib { s.vault with contents } write with
  | ok bytes => rfl
  | error e => rfl

theorem exec_unchanged {s : System} {call : VaultCall} (h : call.changed s.vault.contents = none)
    (write : Write) : ∃ result, exec lib s write call = (s, result) := by
  cases call with
  | put name value now =>
    unfold exec put
    dsimp only
    cases hname : validateName name with
    | error e => exact ⟨_, rfl⟩
    | ok u =>
      dsimp only
      split_ifs with hvalue hfull
      · exact ⟨_, rfl⟩
      · exact ⟨_, rfl⟩
      · exfalso
        rw [not_or, not_lt] at hvalue
        rw [not_and_or, not_le] at hfull
        rw [changed, if_pos ⟨hname, hvalue.1, hvalue.2, hfull⟩] at h
        cases h
  | remove name =>
    unfold exec remove
    dsimp only
    cases hname : validateName name with
    | error e => exact ⟨_, rfl⟩
    | ok u =>
      dsimp only
      split_ifs with hfound
      · exact ⟨_, rfl⟩
      · exfalso
        rw [changed, if_pos ⟨hname, hfound⟩] at h
        cases h
  | putPool pool =>
    unfold exec putPool
    dsimp only
    cases hid : validatePoolId pool.poolId with
    | error e => exact ⟨_, rfl⟩
    | ok u =>
      exfalso
      rw [changed, if_pos hid] at h
      cases h
  | removePool poolId =>
    unfold exec removePool
    dsimp only
    cases hid : validatePoolId poolId with
    | error e => exact ⟨_, rfl⟩
    | ok u =>
      dsimp only
      split_ifs with hfound
      · exact ⟨_, rfl⟩
      · exfalso
        rw [changed, if_pos ⟨hid, hfound⟩] at h
        cases h
  | putMcpAuth auth => cases h
  | removeMcpAuth serverId =>
    unfold exec removeMcpAuth
    dsimp only
    split_ifs with hfound
    · exact ⟨_, rfl⟩
    · exfalso
      rw [changed, if_pos hfound] at h
      cases h

theorem exec_changed {s : System} {call : VaultCall} {contents : VaultContents}
    (h : call.changed s.vault.contents = some contents) (write : Write) :
    ∃ reply, exec lib s write call = store lib s contents write reply := by
  cases call with
  | put name value now =>
    rw [changed] at h
    split_ifs at h with hchecks
    obtain ⟨hname, hblank, hsize, hroom⟩ := hchecks
    obtain rfl := Option.some.inj h
    unfold exec put
    dsimp only
    rw [hname]
    dsimp only
    rw [if_neg (not_or.mpr ⟨hblank, not_lt.mpr hsize⟩),
      if_neg (not_and_or.mpr (hroom.imp_right not_le.mpr)), store_map]
    exact ⟨_, rfl⟩
  | remove name =>
    rw [changed] at h
    split_ifs at h with hchecks
    obtain rfl := Option.some.inj h
    unfold exec remove
    dsimp only
    rw [hchecks.1]
    dsimp only
    rw [if_neg hchecks.2, store_map]
    exact ⟨_, rfl⟩
  | putPool pool =>
    rw [changed] at h
    split_ifs at h with hid
    obtain rfl := Option.some.inj h
    unfold exec putPool
    dsimp only
    rw [hid]
    dsimp only
    rw [store_map]
    exact ⟨_, rfl⟩
  | removePool poolId =>
    rw [changed] at h
    split_ifs at h with hchecks
    obtain rfl := Option.some.inj h
    unfold exec removePool
    dsimp only
    rw [hchecks.1]
    dsimp only
    rw [if_neg hchecks.2, store_map]
    exact ⟨_, rfl⟩
  | putMcpAuth auth =>
    obtain rfl := Option.some.inj h
    unfold exec putMcpAuth
    dsimp only
    rw [store_map]
    exact ⟨_, rfl⟩
  | removeMcpAuth serverId =>
    rw [changed] at h
    split_ifs at h with hfound
    obtain rfl := Option.some.inj h
    unfold exec removeMcpAuth
    dsimp only
    rw [if_neg hfound, store_map]
    exact ⟨_, rfl⟩

/-- The changed contents are within the limits that opening checks. -/
theorem limits_changed {vault : SecretVault} (hlimits : Limits vault) {call : VaultCall}
    {contents : VaultContents} (h : call.changed vault.contents = some contents) :
    Limits { vault with contents } := by
  have hsecrets := hlimits.secrets
  have hcount := hlimits.count
  cases call with
  | put name value now =>
    rw [changed] at h
    split_ifs at h with hchecks
    obtain ⟨hname, hblank, hsize, hroom⟩ := hchecks
    obtain rfl := Option.some.inj h
    refine ⟨hlimits.passphrase, hlimits.tenant, hlimits.workspace, ?_, ?_⟩
    · dsimp only
      rcases hroom with hknown | hroom
      · exact (SortedMap.length_insert_of_get? hknown).trans hcount
      · exact (SortedMap.length_insert_le _ _ _).trans hroom
    · intro entry hentry
      rcases SortedMap.mem_insert hentry with rfl | hentry
      · exact ⟨hname, hsize⟩
      · exact hsecrets entry hentry
  | remove name =>
    rw [changed] at h
    split_ifs at h with hchecks
    obtain rfl := Option.some.inj h
    refine ⟨hlimits.passphrase, hlimits.tenant, hlimits.workspace, ?_, ?_⟩
    · exact (length_filter_le _ _).trans hcount
    · intro entry hentry
      exact hsecrets entry (mem_of_mem_filter hentry)
  | putPool | removePool | removeMcpAuth =>
    rw [changed] at h
    split_ifs at h with hchecks
    obtain rfl := Option.some.inj h
    exact ⟨hlimits.passphrase, hlimits.tenant, hlimits.workspace, hcount, hsecrets⟩
  | putMcpAuth auth =>
    obtain rfl := Option.some.inj h
    exact ⟨hlimits.passphrase, hlimits.tenant, hlimits.workspace, hcount, hsecrets⟩

/-! ### Runs -/

/-- The random bytes are there, the key and the cipher give a value, and the file is replaced. -/
def Write.Succeeds (lib : Primitives) (vault : SecretVault) (write : Write) : Prop :=
  write.commits = true ∧ ∃ salt ∈ write.salt, ∃ nonce ∈ write.nonce,
    ∃ key ∈ lib.argon2id vault.passphrase salt.1,
      (lib.encrypt key nonce.1 (scopeAad vault.tenantId vault.workspaceId)
        (lib.contentsToJson vault.contents)).isSome

theorem persist_iff {vault : SecretVault} (hlimits : Limits vault) {write : Write} :
    (∃ bytes, persist lib vault write = .ok bytes) ↔ write.Succeeds lib vault := by
  constructor
  · rintro ⟨bytes, h⟩
    simp only [persist, deriveKey, bind_eq_ok, orError_eq_ok, ensure_eq_ok, pure_eq_ok] at h
    obtain ⟨salt, hsalt, nonce, hnonce, key, ⟨_, -, hkey⟩, ciphertext, hcipher, _, hcommits, -⟩ := h
    exact ⟨hcommits, salt, hsalt, nonce, hnonce, key, hkey, by rw [hcipher]; rfl⟩
  · rintro ⟨hcommits, salt, hsalt, nonce, hnonce, key, hkey, hcipher⟩
    obtain ⟨ciphertext, hcipher⟩ := Option.isSome_iff_exists.mp hcipher
    refine ⟨vaultFile salt.1 nonce.1 ciphertext, ?_⟩
    refine bind_eq_ok.mpr ⟨salt, orError_eq_ok.mpr hsalt, ?_⟩
    refine bind_eq_ok.mpr ⟨nonce, orError_eq_ok.mpr hnonce, ?_⟩
    refine bind_eq_ok.mpr ⟨key, bind_eq_ok.mpr ⟨(), hlimits.passphrase, ?_⟩, ?_⟩
    · exact orError_eq_ok.mpr hkey
    · refine bind_eq_ok.mpr ⟨ciphertext, orError_eq_ok.mpr hcipher, ?_⟩
      exact bind_eq_ok.mpr ⟨(), ensure_eq_ok.mpr hcommits, rfl⟩

variable (lib)

/-- The vault and its file take one call after another. -/
def machine : Machine System (VaultCall × Write) (Except SecretVaultError Reply) where
  step s input := exec lib s input.2 input.1

/-- After a call that succeeds, the file holds the running vault; a call that fails changes neither
the running vault nor what the file holds. -/
structure Keeps (s : System) (input : VaultCall × Write) : Prop where
  ok : ∀ reply, ((machine lib).step s input).2 = .ok reply →
    ((machine lib).step s input).1.reopen lib = .ok ((machine lib).step s input).1.vault
  error : ∀ e, ((machine lib).step s input).2 = .error e →
    ((machine lib).step s input).1.vault = s.vault ∧
      ((machine lib).step s input).1.reopen lib = s.reopen lib

/-- What a call changes is written and fits the file, or is nothing. -/
def Meets (s : System) (input : VaultCall × Write) : Prop :=
  ∀ contents, input.1.changed s.vault.contents = some contents →
    (input.2.Succeeds lib { s.vault with contents } ∧
      (lib.contentsToJson contents).length ≤ maxContentsBytes) ∨
    (¬ input.2.Succeeds lib { s.vault with contents } ∧ contents = s.vault.contents)

variable {lib}

theorem store_ok {s : System} {contents : VaultContents} {write : Write} {bytes : List UInt8}
    {reply : Reply} (h : persist lib { s.vault with contents } write = .ok bytes) :
    store lib s contents write reply = (⟨{ s.vault with contents }, some bytes⟩, .ok reply) := by
  unfold store
  dsimp only at h ⊢
  rw [h]

theorem store_error {s : System} {contents : VaultContents} {write : Write} {e : SecretVaultError}
    {reply : Reply} (h : persist lib { s.vault with contents } write = .error e) :
    store lib s contents write reply = (⟨{ s.vault with contents }, s.file⟩, .error e) := by
  unfold store
  dsimp only at h ⊢
  rw [h]

theorem keeps_iff (hlaw : lib.Lawful) {s : System} (hs : s.reopen lib = .ok s.vault)
    (input : VaultCall × Write) : Keeps lib s input ↔ Meets lib s input := by
  obtain ⟨call, write⟩ := input
  cases hchanged : call.changed s.vault.contents with
  | none =>
    obtain ⟨result, hexec⟩ := @exec_unchanged lib s call hchanged write
    have hstep : (machine lib).step s (call, write) = (s, result) := hexec
    refine iff_of_true ⟨?_, ?_⟩ ?_
    · intro reply _
      rw [hstep]
      exact hs
    · intro e _
      rw [hstep]
      exact ⟨rfl, rfl⟩
    · intro contents hcontents
      rw [hchanged] at hcontents
      cases hcontents
  | some contents =>
    obtain ⟨reply, hexec⟩ := @exec_changed lib s call contents hchanged write
    have hlimits := limits_changed (limits_of_reopen hs) hchanged
    have hpersist := @persist_iff lib _ hlimits write
    have hmeets : Meets lib s (call, write) ↔ (write.Succeeds lib { s.vault with contents } ∧
          (lib.contentsToJson contents).length ≤ maxContentsBytes) ∨
        (¬ write.Succeeds lib { s.vault with contents } ∧ contents = s.vault.contents) := by
      constructor
      · intro h
        exact h contents hchanged
      · intro h contents' hcontents'
        obtain rfl := Option.some.inj (hchanged.symm.trans hcontents')
        exact h
    have hstep : (machine lib).step s (call, write) = store lib s contents write reply := hexec
    rw [hmeets]
    cases hfile : persist lib { s.vault with contents } write with
    | ok bytes =>
      -- written: what is read back depends on the size
      have hsucceeds := hpersist.mp ⟨bytes, hfile⟩
      have hreopen := reopen_persist hlaw hlimits hfile
      have hstore : (machine lib).step s (call, write) =
          (⟨{ s.vault with contents }, some bytes⟩, .ok reply) := hstep.trans (store_ok hfile)
      constructor
      · intro hkeeps
        have hok := hkeeps.ok reply (by rw [hstore])
        rw [hstore, hreopen] at hok
        split_ifs at hok with hfits
        exact Or.inl ⟨hsucceeds, hfits⟩
      · rintro (⟨-, hfits⟩ | ⟨hfails, -⟩)
        · refine ⟨?_, ?_⟩
          · intro reply' _
            rw [hstore, hreopen, if_pos hfits]
          · intro e he
            rw [hstore] at he
            cases he
        · exact absurd hsucceeds hfails
    | error e =>
      -- not written: the file is the old one
      have hfails : ¬ write.Succeeds lib { s.vault with contents } := by
        intro hsucceeds
        obtain ⟨bytes, hbytes⟩ := hpersist.mpr hsucceeds
        rw [hfile] at hbytes
        cases hbytes
      have hstore : (machine lib).step s (call, write) =
          (⟨{ s.vault with contents }, s.file⟩, .error e) := hstep.trans (store_error hfile)
      constructor
      · intro hkeeps
        obtain ⟨hvault, -⟩ := hkeeps.error e (by rw [hstore])
        rw [hstore] at hvault
        exact Or.inr ⟨hfails, congrArg SecretVault.contents hvault⟩
      · rintro (⟨hsucceeds, -⟩ | ⟨-, rfl⟩)
        · exact absurd hsucceeds hfails
        · refine ⟨?_, ?_⟩
          · intro reply' hreply'
            rw [hstore] at hreply'
            cases hreply'
          · intro e' _
            rw [hstore]
            exact ⟨rfl, rfl⟩

theorem reopen_step {s : System} (hs : s.reopen lib = .ok s.vault) {input : VaultCall × Write}
    (h : Keeps lib s input) : ((machine lib).step s input).1.reopen lib =
      .ok ((machine lib).step s input).1.vault := by
  cases hresult : ((machine lib).step s input).2 with
  | ok reply => exact h.ok reply hresult
  | error e =>
    obtain ⟨hvault, hreopen⟩ := h.error e hresult
    rw [hreopen, hvault]
    exact hs

/-- **When a vault keeps its word.** Each call keeps the file and the running vault together exactly
if each one that changes the contents is written, and the JSON of the new contents has 3,145,578
bytes at most (or is not written and changes nothing). -/
theorem keeps_iff_meets (hlaw : lib.Lawful) : ∀ (calls : List (VaultCall × Write)) {s : System},
    s.reopen lib = .ok s.vault →
      ((machine lib).Along (Keeps lib) s calls ↔ (machine lib).Along (Meets lib) s calls) := by
  intro calls s hs
  refine (machine lib).along_iff (P := fun s => s.reopen lib = .ok s.vault)
    (A := fun _ _ => True) ?_ ?_ calls ?_ hs
  · intro s input _ hs
    exact keeps_iff hlaw hs input
  · intro s input _ hkeeps _ hs
    exact reopen_step hs hkeeps
  · exact Machine.along_of_forall _ (fun _ _ => trivial) calls s

end

/-! ### A vault on a full disk -/

instance countableChar : Countable Char :=
  Function.Injective.countable (f := Char.toNat) fun _ _ h => Char.toNat_inj.mp h

instance countableString : Countable String :=
  Function.Injective.countable (f := String.toList) fun _ _ h => String.toList_injective h

instance {κ α : Type} [LinearOrder κ] [Countable κ] [Countable α] : Countable (SortedMap κ α) := by
  refine Function.Injective.countable (f := SortedMap.entries) ?_
  rintro ⟨entries, hsorted⟩ ⟨entries', hsorted'⟩ h
  obtain rfl : entries = entries' := h
  rfl

deriving instance Countable for
  PoolStrategy, PoolKeyEntry, CredentialPool, StoredMcpAuth, StoredSecret, VaultContents

/-- Some text for every contents, different ones for different contents. -/
theorem exists_writer : ∃ write : VaultContents → List UInt8, Function.Injective write := by
  obtain ⟨code, hcode⟩ := Countable.exists_injective_nat VaultContents
  refine ⟨fun contents => List.replicate (code contents) 0, ?_⟩
  intro a b h
  have hlength := congrArg List.length h
  rw [length_replicate, length_replicate] at hlength
  exact hcode hlength

theorem split_at_quote {a b : List UInt8} {s t : List Char}
    (h : Base64.encode a ++ '"' :: s = Base64.encode b ++ '"' :: t) : a = b ∧ s = t := by
  have hquote : ∀ bytes, '"' ∉ Base64.encode bytes := by
    intro bytes hmem
    exact absurd (Base64.mem_alphabet_of_mem_encode hmem) (by decide)
  have hsplit : (Base64.encode a ++ ['"']) ++ s = (Base64.encode b ++ ['"']) ++ t := by
    rw [append_assoc, append_assoc]
    exact h
  obtain ⟨hcode, hrest⟩ := Codes.prefixCode_terminated '"' (hquote a) (hquote b) hsplit
  have hdecode := congrArg Base64.decode hcode
  rw [Base64.decode_encode, Base64.decode_encode] at hdecode
  exact ⟨Option.some.inj hdecode, hrest⟩

theorem vaultFile_inj {salt nonce ciphertext salt' nonce' ciphertext' : List UInt8}
    (h : vaultFile salt nonce ciphertext = vaultFile salt' nonce' ciphertext') :
    salt = salt' ∧ nonce = nonce' ∧ ciphertext = ciphertext' := by
  have htext := congrArg String.toList (asBytes_inj h)
  unfold VaultEnvelope.toJson envelopeOf base64 at htext
  simp only [String.toList_append, String.toList_ofList, append_assoc,
    append_cancel_left_eq] at htext
  obtain ⟨hsalt, hrest⟩ := split_at_quote htext
  have hnonces := @append_cancel_left _ ",\"nonce\":\"".toList _ _ hrest
  obtain ⟨hnonce, hrest⟩ := split_at_quote hnonces
  have hciphers := @append_cancel_left _ ",\"ciphertext\":\"".toList _ _ hrest
  obtain ⟨hcipher, -⟩ := split_at_quote hciphers
  exact ⟨hsalt, hnonce, hcipher⟩

/-- Any JSON writer for the contents, with the reader that belongs to it; the reader of envelopes
knows the written ones; the key is always the same and the tag of the cipher 16 zero bytes. -/
noncomputable def sampleLib : Primitives where
  contentsToJson := exists_writer.choose
  contentsFromJson := Function.partialInv exists_writer.choose
  envelopeFromJson bytes :=
    (Function.partialInv (fun parts : List UInt8 × List UInt8 × List UInt8 =>
      vaultFile parts.1 parts.2.1 parts.2.2) bytes).map fun parts =>
        envelopeOf parts.1 parts.2.1 parts.2.2
  argon2id _ _ := some ⟨List.replicate 32 0, Text.length_zeroBytes⟩
  encrypt _ _ _ message := some (message ++ List.replicate 16 0)
  decrypt _ _ _ ciphertext := some (ciphertext.take (ciphertext.length - 16))

theorem sampleLib_lawful : sampleLib.Lawful where
  contents := Function.partialInv_left exists_writer.choose_spec
  envelope salt nonce ciphertext := by
    have hinj : Function.Injective fun parts : List UInt8 × List UInt8 × List UInt8 =>
        vaultFile parts.1 parts.2.1 parts.2.2 := by
      rintro ⟨salt, nonce, ciphertext⟩ ⟨salt', nonce', ciphertext'⟩ h
      obtain ⟨rfl, rfl, rfl⟩ := vaultFile_inj h
      rfl
    have hread := Function.partialInv_left hinj (salt, nonce, ciphertext)
    show Option.map _ (Function.partialInv _ (vaultFile salt nonce ciphertext)) = _
    rw [hread]
    rfl
  decrypt h := by
    obtain rfl := Option.some.inj h
    show some _ = some _
    rw [length_append, length_replicate, Nat.add_sub_cancel, take_left]
  tag h := by
    obtain rfl := Option.some.inj h
    rw [length_append, length_replicate]

def sampleTenant : TenantId := ⟨"tenant-a", by decide, by decide⟩

def sampleWorkspace : WorkspaceId := ⟨"workspace-a", by decide, by decide⟩

/-- A new vault, without a file. -/
def sampleSystem : System where
  vault := ⟨sampleTenant, sampleWorkspace, "correct horse battery staple",
    ⟨"tenant-a", "workspace-a", .empty, .empty, .empty⟩⟩
  file := none

/-- Random bytes, and a file that is not replaced. -/
def failingWrite : Write :=
  ⟨some ⟨List.replicate 16 1, rfl⟩, some ⟨List.replicate 24 2, rfl⟩, false⟩

theorem sampleSystem_opens : sampleSystem.reopen sampleLib = .ok sampleSystem.vault := by
  unfold System.reopen openVault
  refine bind_eq_ok.mpr ⟨(), ?_, rfl⟩
  unfold validatePassphrase
  rw [ensure_eq_ok]
  decide

/-- A secret is written, and changed without being written. -/
def sampleWrites : List (VaultCall × Write) :=
  [(.remove "PANDORA_PROVIDER_KEY", failingWrite),
    (.put "PANDORA_PROVIDER_KEY" "sk-private" 10, { failingWrite with commits := true }),
    (.put "PANDORA_PROVIDER_KEY" "sk-changed" 20, failingWrite)]

theorem keeps_iff_meets_sample :
    (machine sampleLib).Along (Keeps sampleLib) sampleSystem sampleWrites ↔
      (machine sampleLib).Along (Meets sampleLib) sampleSystem sampleWrites :=
  keeps_iff_meets sampleLib_lawful _ sampleSystem_opens

/-- A call that fails to write leaves the secret in the running vault and not in the file. -/
theorem put_not_kept :
    sampleSystem.reopen sampleLib = .ok sampleSystem.vault ∧
      ¬ Keeps sampleLib sampleSystem
        (.put "PANDORA_PROVIDER_KEY" "sk-private" 10, failingWrite) := by
  refine ⟨sampleSystem_opens, ?_⟩
  intro hkeeps
  have hchanged : changed sampleSystem.vault.contents
      (.put "PANDORA_PROVIDER_KEY" "sk-private" 10) = some { sampleSystem.vault.contents with
        secrets := SortedMap.insert .empty "PANDORA_PROVIDER_KEY" ⟨"sk-private", 10, 10⟩ } := by
    decide +kernel
  have hmeets := (keeps_iff sampleLib_lawful sampleSystem_opens _).mp hkeeps
  rcases hmeets _ hchanged with ⟨hsucceeds, -⟩ | ⟨-, hsame⟩
  · exact Bool.false_ne_true hsucceeds.1
  · have hlength := congrArg (fun contents => contents.secrets.entries.length) hsame
    revert hlength
    decide

end Pandora.Vault
