import Pandora.Cron.Schedule
import Pandora.Lib.Base64

/-! # Recovery archives

`recovery_archive.rs`: the files of a backup are written as JSON, each with its digest, encrypted
under a key derived from the passphrase, and the ciphertext is written in an envelope that is JSON
again. Both times bytes are in base 64.

The key derivation, the cipher and the reading of JSON are parameters; what is written as JSON is
written here, since the limits are on its length. -/

namespace Pandora.Backup.Archive

open Text Lib.Checked Lib
open Cron (splitAt)

def formatVersion : UInt32 := 1
def maxArchiveBytes : ℕ := 128 * 1024 * 1024
def maxEntryBytes : ℕ := 64 * 1024 * 1024
def maxEntries : ℕ := 2048
def minPassphraseBytes : ℕ := 16
def maxPassphraseBytes : ℕ := 4 * 1024
def saltBytes : ℕ := 16
def nonceBytes : ℕ := 24

inductive RecoveryArchiveError
  | invalidPassphrase
  | invalidPath
  | duplicatePath
  | tooLarge
  | tooManyEntries
  | invalidEnvelope
  | authenticationFailed
  | integrityFailed
  | serialization
  | random
deriving DecidableEq

/-! ## Paths -/

/-- `std::path::Component`, on Unix. -/
inductive Component
  | rootDir
  | curDir
  | parentDir
  | normal (name : String)
deriving DecidableEq

/-- What a segment between two slashes stands for; nothing where it is empty or a dot. -/
def segment (text : String) : Option Component :=
  if text = "" ∨ text = "." then none
  else if text = ".." then some .parentDir
  else some (.normal text)

def isAbsolute (path : String) : Bool := path.toList.head? = some '/'

/-- `Path::components`. A dot counts only where the path starts with it. -/
def components (path : String) : List Component :=
  let segments := splitAt '/' path
  let first := if isAbsolute path then [.rootDir]
    else if segments.head? = some "." then [.curDir] else []
  first ++ segments.filterMap segment

def Component.isNormal : Component → Bool
  | .normal _ => true
  | _ => false

def validatePath (value : String) : Except RecoveryArchiveError Unit :=
  ensure (value ≠ "" ∧ value.utf8ByteSize ≤ 512 ∧ isAbsolute value = false ∧
    ((components value).head? = some (.normal "config") ∨
      (components value).head? = some (.normal "data")) ∧
    (components value).all Component.isNormal) .invalidPath

/-! ## Entries -/

structure RecoveryEntry where
  path : String
  bytes : List UInt8
  valid : validatePath path = .ok ()
  small : bytes.length ≤ maxEntryBytes
deriving DecidableEq

def RecoveryEntry.new (path : String) (bytes : List UInt8) :
    Except RecoveryArchiveError RecoveryEntry :=
  match hpath : validatePath path with
  | .error error => .error error
  | .ok () =>
    if hsmall : bytes.length ≤ maxEntryBytes then .ok ⟨path, bytes, hpath, hsmall⟩
    else .error .tooLarge

structure RecoveryBundle where
  createdAt : UInt64
  entries : List RecoveryEntry

/-- One entry of `validate_entries`: the paths seen, and the bytes so far. -/
def validateEntry (state : List String × ℕ) (entry : RecoveryEntry) :
    Except RecoveryArchiveError (List String × ℕ) := do
  validatePath entry.path
  ensure (entry.path ∉ state.1) .duplicatePath
  let total ← orError (checkedAdd state.2 entry.bytes.length) .tooLarge
  pure (entry.path :: state.1, total)

def validateEntries (entries : List RecoveryEntry) : Except RecoveryArchiveError Unit := do
  ensure (entries.length ≤ maxEntries) .tooManyEntries
  let (_, total) ← entries.foldlM validateEntry ([], 0)
  ensure (total ≤ maxArchiveBytes) .tooLarge

/-! ## JSON -/

/-- What `serde_json` writes for a character of a text. -/
def escapeChar (c : Char) : List Char :=
  if c = '"' then ['\\', '"']
  else if c = '\\' then ['\\', '\\']
  else if c.toNat = 8 then ['\\', 'b']
  else if c.toNat = 9 then ['\\', 't']
  else if c.toNat = 10 then ['\\', 'n']
  else if c.toNat = 12 then ['\\', 'f']
  else if c.toNat = 13 then ['\\', 'r']
  else if c.toNat < 32 then ['\\', 'u', '0', '0'] ++ hexByte (.ofNat c.toNat)
  else [c]

def jsonString (text : String) : String :=
  "\"" ++ String.ofList (text.toList.flatMap escapeChar) ++ "\""

def commaSeparated : List String → String
  | [] => ""
  | [text] => text
  | text :: rest => text ++ "," ++ commaSeparated rest

structure EntryRecord where
  (path sha256 data : String)

def EntryRecord.json (record : EntryRecord) : String :=
  "\x7b\"path\":" ++ jsonString record.path ++ ",\"sha256\":" ++ jsonString record.sha256 ++
    ",\"data\":" ++ jsonString record.data ++ "\x7d"

structure ArchiveContents where
  formatVersion : UInt32
  createdAt : UInt64
  entries : List EntryRecord

def ArchiveContents.json (contents : ArchiveContents) : String :=
  "\x7b\"format_version\":" ++ toString contents.formatVersion.toNat ++ ",\"created_at\":" ++
    toString contents.createdAt.toNat ++ ",\"entries\":[" ++
    commaSeparated (contents.entries.map EntryRecord.json) ++ "]\x7d"

structure ArchiveEnvelope where
  formatVersion : UInt32
  (algorithm kdf salt nonce ciphertext : String)

def ArchiveEnvelope.json (envelope : ArchiveEnvelope) : String :=
  "\x7b\"format_version\":" ++ toString envelope.formatVersion.toNat ++ ",\"algorithm\":" ++
    jsonString envelope.algorithm ++ ",\"kdf\":" ++ jsonString envelope.kdf ++ ",\"salt\":" ++
    jsonString envelope.salt ++ ",\"nonce\":" ++ jsonString envelope.nonce ++ ",\"ciphertext\":" ++
    jsonString envelope.ciphertext ++ "\x7d"

/-! ## Sealing and opening -/

/-- The libraries: the hash, `Argon2`, the cipher under a key and a nonce, and the readers of
JSON. -/
structure ArchiveEnv where
  sha : Sha256
  hashPassword : String → List UInt8 → Option Bytes32
  (encrypt decrypt : Bytes32 → List UInt8 → List UInt8 → Option (List UInt8))
  readContents : List UInt8 → Option ArchiveContents
  readEnvelope : List UInt8 → Option ArchiveEnvelope

/-- What `getrandom` fills in, or nothing. -/
structure Randomness where
  salt : Option { salt : List UInt8 // salt.length = saltBytes }
  nonce : Option { nonce : List UInt8 // nonce.length = nonceBytes }

def encodeBase64 (bytes : List UInt8) : String := .ofList (Base64.encode bytes)

def decodeBase64 (text : String) : Option (List UInt8) := Base64.decode text.toList

def digest (sha : Sha256) (bytes : List UInt8) : String := "sha256:" ++ hex (sha bytes).bytes

def validatePassphrase (passphrase : String) : Except RecoveryArchiveError Unit :=
  ensure (minPassphraseBytes ≤ passphrase.utf8ByteSize ∧
    passphrase.utf8ByteSize ≤ maxPassphraseBytes) .invalidPassphrase

def deriveKey (env : ArchiveEnv) (passphrase : String) (salt : List UInt8) :
    Except RecoveryArchiveError Bytes32 := do
  validatePassphrase passphrase
  orError (env.hashPassword passphrase salt) .invalidPassphrase

def recordOf (env : ArchiveEnv) (entry : RecoveryEntry) : EntryRecord where
  path := entry.path
  sha256 := digest env.sha entry.bytes
  data := encodeBase64 entry.bytes

/-- The plaintext before it is written as JSON. -/
def contentsOf (env : ArchiveEnv) (entries : List RecoveryEntry) (createdAt : UInt64) :
    ArchiveContents where
  formatVersion := formatVersion
  createdAt := createdAt
  entries := entries.map (recordOf env)

def envelopeOf (salt nonce ciphertext : List UInt8) : ArchiveEnvelope where
  formatVersion := formatVersion
  algorithm := "xchacha20poly1305"
  kdf := "argon2id-v19-m65536-t3-p1"
  salt := encodeBase64 salt
  nonce := encodeBase64 nonce
  ciphertext := encodeBase64 ciphertext

/-- `RecoveryArchive::seal`. -/
def sealArchive (env : ArchiveEnv) (random : Randomness) (entries : List RecoveryEntry)
    (passphrase : String) (createdAt : UInt64) : Except RecoveryArchiveError (List UInt8) := do
  validatePassphrase passphrase
  validateEntries entries
  let plaintext := asBytes (contentsOf env entries createdAt).json
  ensure (plaintext.length ≤ maxArchiveBytes) .tooLarge
  let salt ← orError random.salt .random
  let nonce ← orError random.nonce .random
  let key ← deriveKey env passphrase salt.1
  let ciphertext ← orError (env.encrypt key nonce.1 plaintext) .authenticationFailed
  pure (asBytes (envelopeOf salt.1 nonce.1 ciphertext).json)

def decodeFixed (n : ℕ) (value : String) : Except RecoveryArchiveError (List UInt8) := do
  let bytes ← orError (decodeBase64 value) .invalidEnvelope
  ensure (bytes.length = n) .invalidEnvelope
  pure bytes

/-- One record of the archive: the paths and the entries so far. -/
def openRecord (env : ArchiveEnv) (state : List String × List RecoveryEntry)
    (record : EntryRecord) : Except RecoveryArchiveError (List String × List RecoveryEntry) := do
  validatePath record.path
  ensure (record.path ∉ state.1) .duplicatePath
  let bytes ← orError (decodeBase64 record.data) .invalidEnvelope
  ensure (bytes.length ≤ maxEntryBytes ∧ digest env.sha bytes = record.sha256) .integrityFailed
  let entry ← RecoveryEntry.new record.path bytes
  pure (record.path :: state.1, state.2 ++ [entry])

/-- `RecoveryArchive::open`. -/
def openArchive (env : ArchiveEnv) (encoded : List UInt8) (passphrase : String) :
    Except RecoveryArchiveError RecoveryBundle := do
  validatePassphrase passphrase
  ensure (encoded.length ≤ maxArchiveBytes) .tooLarge
  let envelope ← orError (env.readEnvelope encoded) .invalidEnvelope
  ensure (envelope.formatVersion = formatVersion ∧ envelope.algorithm = "xchacha20poly1305" ∧
    envelope.kdf = "argon2id-v19-m65536-t3-p1") .invalidEnvelope
  let salt ← decodeFixed saltBytes envelope.salt
  let nonce ← decodeFixed nonceBytes envelope.nonce
  let ciphertext ← orError (decodeBase64 envelope.ciphertext) .invalidEnvelope
  ensure (ciphertext.length ≤ maxArchiveBytes) .tooLarge
  let key ← deriveKey env passphrase salt
  let plaintext ← orError (env.decrypt key nonce ciphertext) .authenticationFailed
  let contents ← orError (env.readContents plaintext) .invalidEnvelope
  ensure (contents.formatVersion = formatVersion ∧ contents.entries.length ≤ maxEntries)
    .invalidEnvelope
  let (_, entries) ← contents.entries.foldlM (openRecord env) ([], [])
  validateEntries entries
  pure ⟨contents.createdAt, entries⟩

end Pandora.Backup.Archive
