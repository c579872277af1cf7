import Pandora.Ids
import Pandora.Lib.Base64
import Pandora.Lib.SortedMaps

/-! # The secret vault

The vault of one tenant and workspace: its secrets, credential pools and MCP credentials are held in
memory and written to one encrypted file after every change (`store`). `openVault` reads the file
back. JSON, the key derivation and the cipher are parameters (`Primitives`); the file is a byte
string, if there is one, and is replaced whole or not at all.

The changes are made in memory first. Writing checks the number and the size of single secrets,
reading the size of the whole file. -/

namespace Pandora.Vault

open Text Ids Lib Lib.Checked Lib.SortedMaps

def maxVaultBytes : ℕ := 4 * 1024 * 1024
def maxSecretCount : ℕ := 128
def maxSecretBytes : ℕ := 64 * 1024
def minPassphraseBytes : ℕ := 16
def maxPassphraseBytes : ℕ := 4 * 1024

inductive SecretVaultError
  | io | unsafePath | invalidPassphrase | invalidName | secretTooLarge | vaultFull | invalidEnvelope
  | authenticationFailed | scopeMismatch | random
deriving DecidableEq

/-! ### Contents -/

inductive PoolStrategy
  | roundRobin | leastUsed | priorityFailover
deriving DecidableEq

structure PoolKeyEntry where
  (keyId secretName : String)
  (priority weight usageCount : ℕ)
  cooldownUntil : Option ℕ
  consecutiveErrors : ℕ
  lastUsedAt : Option ℕ
deriving DecidableEq

/-- The pool as the vault stores it; `Vault.Rotation` has the running one. -/
structure CredentialPool where
  poolId : String
  strategy : PoolStrategy
  keys : List PoolKeyEntry
  defaultCooldownSeconds : ℕ
  resetAwareRestore : Bool
  currentIndex : ℕ
deriving DecidableEq

structure StoredMcpAuth where
  (serverId authType accessToken : String)
  (refreshToken headerName : Option String)
  expiresAt : Option ℕ
  (tokenEndpoint clientId : Option String)
  scopes : List String
  (createdAt updatedAt : ℕ)
deriving DecidableEq

structure StoredSecret where
  value : String
  (createdAt updatedAt : ℕ)
deriving DecidableEq

structure VaultContents where
  (tenantId workspaceId : String)
  secrets : SortedMap String StoredSecret
  pools : SortedMap String CredentialPool
  mcpAuth : SortedMap String StoredMcpAuth
deriving DecidableEq

structure SecretVaultEntry where
  name : String
  (createdAt updatedAt : ℕ)

structure VaultEnvelope where
  formatVersion : ℕ
  (algorithm kdf salt nonce ciphertext : String)

structure SecretVault where
  tenantId : TenantId
  workspaceId : WorkspaceId
  passphrase : String
  contents : VaultContents

/-! ### Checks -/

def validatePassphrase (passphrase : String) : Except SecretVaultError Unit :=
  ensure (minPassphraseBytes ≤ passphrase.utf8ByteSize ∧
    passphrase.utf8ByteSize ≤ maxPassphraseBytes) .invalidPassphrase

def isNameByte (position : UInt8 × ℕ) : Bool :=
  position.1 = 0x5F ∨ (0x41 ≤ position.1 ∧ position.1 ≤ 0x5A) ∨
    (0 < position.2 ∧ 0x30 ≤ position.1 ∧ position.1 ≤ 0x39)

def validateName (name : String) : Except SecretVaultError Unit :=
  ensure (¬ name.isEmpty ∧ name.utf8ByteSize ≤ 128 ∧ (asBytes name).zipIdx.all isNameByte)
    .invalidName

def isPoolByte (byte : UInt8) : Bool :=
  byte = 0x5F ∨ byte = 0x2D ∨ (0x30 ≤ byte ∧ byte ≤ 0x39) ∨ (0x41 ≤ byte ∧ byte ≤ 0x5A) ∨
    (0x61 ≤ byte ∧ byte ≤ 0x7A)

def validatePoolId (id : String) : Except SecretVaultError Unit :=
  ensure (¬ id.isEmpty ∧ id.utf8ByteSize ≤ 128 ∧ (asBytes id).all isPoolByte) .invalidName

/-! ### The file -/

/-- What the vault takes from libraries: JSON, Argon2id and XChaCha20-Poly1305. -/
structure Primitives where
  contentsToJson : VaultContents → List UInt8
  contentsFromJson : List UInt8 → Option VaultContents
  envelopeFromJson : List UInt8 → Option VaultEnvelope
  argon2id : (passphrase : String) → (salt : List UInt8) → Option Bytes32
  encrypt : (key : Bytes32) → (nonce aad message : List UInt8) → Option (List UInt8)
  decrypt : (key : Bytes32) → (nonce aad ciphertext : List UInt8) → Option (List UInt8)

/-- `[u8; n]`. -/
abbrev Block (n : ℕ) := { bytes : List UInt8 // bytes.length = n }

/-- What a write meets: the random bytes, and whether the file is replaced. -/
structure Write where
  salt : Option (Block 16)
  nonce : Option (Block 24)
  commits : Bool

def base64 (bytes : List UInt8) : String := .ofList (Base64.encode bytes)

def scopeAad (tenant : TenantId) (workspace : WorkspaceId) : List UInt8 :=
  asBytes "pandora-secret-vault-v1" ++ [0] ++ asBytes tenant.text ++ [0] ++ asBytes workspace.text

def envelopeOf (salt nonce ciphertext : List UInt8) : VaultEnvelope where
  formatVersion := 1
  algorithm := "xchacha20poly1305"
  kdf := "argon2id-v19-m65536-t3-p1"
  salt := base64 salt
  nonce := base64 nonce
  ciphertext := base64 ciphertext

/-- The JSON of an envelope. None of the texts in it has a character that is escaped. -/
def VaultEnvelope.toJson (envelope : VaultEnvelope) : String :=
  "\x7b\"format_version\":" ++ toString envelope.formatVersion ++ ",\"algorithm\":\"" ++
    envelope.algorithm ++ "\",\"kdf\":\"" ++ envelope.kdf ++ "\",\"salt\":\"" ++ envelope.salt ++
    "\",\"nonce\":\"" ++ envelope.nonce ++ "\",\"ciphertext\":\"" ++ envelope.ciphertext ++
    "\"\x7d"

def vaultFile (salt nonce ciphertext : List UInt8) : List UInt8 :=
  asBytes ((envelopeOf salt nonce ciphertext).toJson ++ "\n")

section

variable (lib : Primitives)

def deriveKey (passphrase : String) (salt : List UInt8) : Except SecretVaultError Bytes32 := do
  validatePassphrase passphrase
  orError (lib.argon2id passphrase salt) .invalidPassphrase

/-- The file that is written, if it is. -/
def persist (vault : SecretVault) (write : Write) : Except SecretVaultError (List UInt8) := do
  let plaintext := lib.contentsToJson vault.contents
  let salt ← orError write.salt .random
  let nonce ← orError write.nonce .random
  let key ← deriveKey lib vault.passphrase salt.1
  let ciphertext ← orError
    (lib.encrypt key nonce.1 (scopeAad vault.tenantId vault.workspaceId) plaintext)
    .authenticationFailed
  ensure write.commits .io
  pure (vaultFile salt.1 nonce.1 ciphertext)

def decodeFixed (n : ℕ) (value : String) : Except SecretVaultError (List UInt8) := do
  let decoded ← orError (Base64.decode value.toList) .invalidEnvelope
  ensure (decoded.length = n) .invalidEnvelope
  pure decoded

def readContents (bytes : List UInt8) (tenant : TenantId) (workspace : WorkspaceId)
    (passphrase : String) : Except SecretVaultError VaultContents := do
  ensure (bytes.length ≤ maxVaultBytes) .unsafePath
  let envelope ← orError (lib.envelopeFromJson bytes) .invalidEnvelope
  ensure (envelope.formatVersion = 1 ∧ envelope.algorithm = "xchacha20poly1305" ∧
    envelope.kdf = "argon2id-v19-m65536-t3-p1") .invalidEnvelope
  let salt ← decodeFixed 16 envelope.salt
  let nonce ← decodeFixed 24 envelope.nonce
  let ciphertext ← orError (Base64.decode envelope.ciphertext.toList) .invalidEnvelope
  ensure (ciphertext.length ≤ maxVaultBytes) .invalidEnvelope
  let key ← deriveKey lib passphrase salt
  let plaintext ← orError (lib.decrypt key nonce (scopeAad tenant workspace) ciphertext)
    .authenticationFailed
  let contents ← orError (lib.contentsFromJson plaintext) .invalidEnvelope
  ensure (contents.tenantId = tenant.text ∧ contents.workspaceId = workspace.text) .scopeMismatch
  ensure (contents.secrets.entries.length ≤ maxSecretCount ∧
    ∀ entry ∈ contents.secrets.entries, validateName entry.1 = .ok () ∧
      entry.2.value.utf8ByteSize ≤ maxSecretBytes) .invalidEnvelope
  pure contents

/-- `SecretVault::open`, on the file of the scope. -/
def openVault (file : Option (List UInt8)) (tenant : TenantId) (workspace : WorkspaceId)
    (passphrase : String) : Except SecretVaultError SecretVault := do
  validatePassphrase passphrase
  match file with
  | some bytes =>
    let contents ← readContents lib bytes tenant workspace passphrase
    pure ⟨tenant, workspace, passphrase, contents⟩
  | none => pure ⟨tenant, workspace, passphrase,
      ⟨tenant.text, workspace.text, .empty, .empty, .empty⟩⟩

/-! ### Calls -/

/-- A running vault and its file. -/
structure System where
  vault : SecretVault
  file : Option (List UInt8)

/-- The contents are changed in memory, then written. -/
def store {α : Type} (s : System) (contents : VaultContents) (write : Write) (reply : α) :
    System × Except SecretVaultError α :=
  let vault := { s.vault with contents }
  match persist lib vault write with
  | .ok bytes => (⟨vault, some bytes⟩, .ok reply)
  | .error e => (⟨vault, s.file⟩, .error e)

def put (name value : String) (now : ℕ) (s : System) (write : Write) :
    System × Except SecretVaultError SecretVaultEntry :=
  let secrets := s.vault.contents.secrets
  match validateName name with
  | .error e => (s, .error e)
  | .ok () =>
    if (trim value).isEmpty ∨ maxSecretBytes < value.utf8ByteSize then (s, .error .secretTooLarge)
    else if secrets.get? name = none ∧ maxSecretCount ≤ secrets.entries.length then
      (s, .error .vaultFull)
    else
      let createdAt := ((secrets.get? name).map StoredSecret.createdAt).getD now
      store lib s { s.vault.contents with secrets := secrets.insert name ⟨value, createdAt, now⟩ }
        write ⟨name, createdAt, now⟩

def remove (name : String) (s : System) (write : Write) : System × Except SecretVaultError Bool :=
  let secrets := s.vault.contents.secrets
  match validateName name with
  | .error e => (s, .error e)
  | .ok () =>
    if secrets.get? name = none then (s, .ok false)
    else store lib s { s.vault.contents with secrets := secrets.erase name } write true

def putPool (pool : CredentialPool) (s : System) (write : Write) :
    System × Except SecretVaultError Unit :=
  match validatePoolId pool.poolId with
  | .error e => (s, .error e)
  | .ok () =>
    store lib s { s.vault.contents with pools := s.vault.contents.pools.insert pool.poolId pool }
      write ()

def removePool (poolId : String) (s : System) (write : Write) :
    System × Except SecretVaultError Bool :=
  match validatePoolId poolId with
  | .error e => (s, .error e)
  | .ok () =>
    if s.vault.contents.pools.get? poolId = none then (s, .ok false)
    else store lib s { s.vault.contents with pools := s.vault.contents.pools.erase poolId } write
      true

def putMcpAuth (auth : StoredMcpAuth) (s : System) (write : Write) :
    System × Except SecretVaultError Unit :=
  store lib s
    { s.vault.contents with mcpAuth := s.vault.contents.mcpAuth.insert auth.serverId auth } write ()

def removeMcpAuth (serverId : String) (s : System) (write : Write) :
    System × Except SecretVaultError Bool :=
  if s.vault.contents.mcpAuth.get? serverId = none then (s, .ok false)
  else store lib s
    { s.vault.contents with mcpAuth := s.vault.contents.mcpAuth.erase serverId } write true

inductive VaultCall
  | put (name value : String) (now : ℕ)
  | remove (name : String)
  | putPool (pool : CredentialPool)
  | removePool (poolId : String)
  | putMcpAuth (auth : StoredMcpAuth)
  | removeMcpAuth (serverId : String)

inductive Reply
  | entry (entry : SecretVaultEntry)
  | removed (found : Bool)
  | stored

def exec (s : System) (write : Write) : VaultCall → System × Except SecretVaultError Reply
  | .put name value now => (put lib name value now s write).map id (Reply.entry <$> ·)
  | .remove name => (remove lib name s write).map id (Reply.removed <$> ·)
  | .putPool pool => (putPool lib pool s write).map id ((fun _ => Reply.stored) <$> ·)
  | .removePool poolId => (removePool lib poolId s write).map id (Reply.removed <$> ·)
  | .putMcpAuth auth => (putMcpAuth lib auth s write).map id ((fun _ => Reply.stored) <$> ·)
  | .removeMcpAuth serverId => (removeMcpAuth lib serverId s write).map id (Reply.removed <$> ·)

end

end Pandora.Vault
