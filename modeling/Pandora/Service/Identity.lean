import Pandora.Ids

/-! # Service identities

The rows of the `service_identities` table and `IdentityStore::authenticate`: the identity of a
token that is not revoked and is used from the device it is bound to. Enrolment and revocation
happen in other processes too, so the table is an argument. Two identities never have one token
digest (the column is `UNIQUE`), so the row found is the only one. -/

namespace Pandora.Service.Identity

open Ids Text Lib.Checked

def tokenHexBytes : ℕ := 64
def maxDeviceIdBytes : ℕ := 128

inductive AccessRole
  | viewer | operator | administrator
deriving DecidableEq

inductive IdentityStoreError
  | invalidDevice
  | invalidToken
  | corruptRecord

def AccessRole.asStr : AccessRole → String
  | viewer => "viewer"
  | operator => "operator"
  | administrator => "administrator"

def AccessRole.parse (value : String) : Except IdentityStoreError AccessRole :=
  if value = "viewer" then .ok .viewer
  else if value = "operator" then .ok .operator
  else if value = "administrator" then .ok .administrator
  else .error .corruptRecord

/-- A row of the table. -/
structure IdentityRow where
  (id principalId tenantId workspaceId role deviceId : String)
  devicePublicKey : List UInt8
  tokenDigest : Bytes32
  createdAt : ℤ
  revokedAt : Option ℤ

structure ServiceIdentity where
  id : String
  principalId : PrincipalId
  tenantId : TenantId
  workspaceId : WorkspaceId
  role : AccessRole
  deviceId : String
  devicePublicKey : Bytes32
  createdAt : ℕ
  revokedAt : Option ℕ
deriving DecidableEq

/-- The caller a request runs for. -/
structure RuntimeServiceScope where
  principalId : PrincipalId
  tenantId : TenantId
  workspaceId : WorkspaceId
  role : AccessRole
deriving DecidableEq

def validateDeviceId (value : String) : Except IdentityStoreError Unit :=
  ensure (value ≠ "" ∧ value.utf8ByteSize ≤ maxDeviceIdBytes ∧
    value.toList.all fun c => c.isAlphanum || c = '-' || c = '_' || c = '.') .invalidDevice

def tokenDigest (sha : Sha256) (token : String) : Except IdentityStoreError Bytes32 := do
  ensure ((asBytes token).length = tokenHexBytes ∧ isLowerHex (asBytes token)) .invalidToken
  pure (sha (asBytes "pandora-service-identity-token-v1\x00" ++ asBytes token))

def decodeId {kind : IdKind} (text : String) : Except IdentityStoreError (Id kind) :=
  match Id.new text with
  | .ok id => .ok id
  | .error _ => .error .corruptRecord

def decodeIdentity (row : IdentityRow) : Except IdentityStoreError ServiceIdentity := do
  let principalId ← decodeId row.principalId
  let tenantId ← decodeId row.tenantId
  let workspaceId ← decodeId row.workspaceId
  let role ← AccessRole.parse row.role
  let devicePublicKey ← if h : row.devicePublicKey.length = 32 then pure ⟨row.devicePublicKey, h⟩
    else throw .corruptRecord
  let createdAt ← orError (fitsU64 row.createdAt) .corruptRecord
  let revokedAt ← match row.revokedAt with
    | some time => some <$> orError (fitsU64 time) .corruptRecord
    | none => pure none
  pure ⟨row.id, principalId, tenantId, workspaceId, role, row.deviceId, devicePublicKey, createdAt,
    revokedAt⟩

def authenticate (sha : Sha256) (identities : List IdentityRow) (token deviceId : String) :
    Except IdentityStoreError (Option ServiceIdentity) := do
  validateDeviceId deviceId
  let digest ← tokenDigest sha token
  match identities.find? fun row => row.tokenDigest = digest ∧ row.revokedAt = none with
  | none => pure none
  | some row =>
    if row.deviceId ≠ deviceId then pure none else some <$> decodeIdentity row

end Pandora.Service.Identity
