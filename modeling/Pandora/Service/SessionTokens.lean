import Pandora.Cron.Schedule
import Pandora.Lib.Base64

/-! # Session tokens

`create_session_token` and `verify_session_token` of `websocket.rs`. The payload of a token is the
subject, a colon and the time of expiry; the token is the payload and its HMAC, both in base 64,
with a dot between them. Both are split again at every colon and every dot: neither base 64 nor a
number has one, but a subject may have colons.

SHA-256 and what the libraries say of a text that they cannot read are parameters.

**Main result** (`token_verifies_iff`): a token verifies for the subjects without a colon. -/

namespace Pandora.Service.SessionTokens

open Text Lib.Checked Lib.Base64
open List hiding splitAt
open Cron (splitAt)

structure TokenEnv where
  sha : Sha256
  decodeError : String → String
  utf8Error : List UInt8 → String
  parseError : String → String

/-- `WebSocketError::AuthenticationFailed`. -/
structure AuthenticationFailed where
  reason : String
deriving DecidableEq

/-- A key is filled up with zeros to 64 bytes; a longer one is hashed first. -/
def hmacSha256 (sha : Sha256) (key message : List UInt8) : Bytes32 :=
  let k := if 64 < key.length then (sha key).bytes else key
  let k := k ++ List.replicate (64 - k.length) 0
  let ipad := k.map (· ^^^ 0x36)
  let opad := k.map (· ^^^ 0x5C)
  sha (opad ++ (sha (ipad ++ message)).bytes)

def tokenPayload (subject : String) (expiryTimestamp : UInt64) : String :=
  subject ++ ":" ++ toString expiryTimestamp.toNat

def createSessionToken (sha : Sha256) (secret : List UInt8) (subject : String)
    (expiryTimestamp : UInt64) : String :=
  let payload := asBytes (tokenPayload subject expiryTimestamp)
  let tag := hmacSha256 sha secret payload
  .ofList (encodePadded payload ++ '.' :: encodePadded tag.bytes)

variable (env : TokenEnv)

/-- The subject of a payload that was found authentic. -/
def readPayload (payload : String) (currentTimestamp : UInt64) :
    Except AuthenticationFailed String :=
  match splitAt ':' payload with
  | [sub, expiryText] => do
    let expiry ← orError (parseUnsigned 64 expiryText)
      ⟨"Invalid expiry integer: " ++ env.parseError expiryText⟩
    ensure (currentTimestamp.toNat ≤ expiry) ⟨"Session token has expired"⟩
    .ok sub
  | _ => .error ⟨"Invalid payload segments"⟩

def verifySessionToken (secret : List UInt8) (token : String) (currentTimestamp : UInt64) :
    Except AuthenticationFailed String :=
  match splitAt '.' token with
  | [payload64, tag64] => do
    let payloadBytes ← orError (decodePadded payload64.toList)
      ⟨"Invalid base64 payload: " ++ env.decodeError payload64⟩
    let expectedTag ← orError (decodePadded tag64.toList)
      ⟨"Invalid base64 tag: " ++ env.decodeError tag64⟩
    ensure (expectedTag = (hmacSha256 env.sha secret payloadBytes).bytes)
      ⟨"HMAC tag verification mismatch"⟩
    let payload ← orError (String.fromUTF8? ⟨⟨payloadBytes⟩⟩)
      ⟨"UTF-8 decoding error in token: " ++ env.utf8Error payloadBytes⟩
    readPayload env payload currentTimestamp
  | _ => .error ⟨"Malformed token format"⟩

/-! ### Splitting -/

theorem splitAt_append (separator : Char) (left right : String) :
    splitAt separator (.ofList (left.toList ++ separator :: right.toList)) =
      splitAt separator left ++ splitAt separator right := by
  unfold splitAt
  rw [String.toList_ofList, splitOn_append_cons_self, map_append]

theorem splitAt_of_not_mem {separator : Char} {text : String} (h : separator ∉ text.toList) :
    splitAt separator text = [text] := by
  unfold splitAt
  rw [splitOn_eq_singleton h, map_singleton, String.ofList_toList]

theorem splitAt_ne_nil (separator : Char) (text : String) : splitAt separator text ≠ [] := by
  unfold splitAt
  rw [Ne, map_eq_nil_iff]
  exact splitOn_ne_nil _ _

theorem two_le_length_splitAt {separator : Char} {text : String} (h : separator ∈ text.toList) :
    2 ≤ (splitAt separator text).length := by
  obtain ⟨left, right, hsplit⟩ := append_of_mem h
  have htext : text = .ofList ((String.ofList left).toList ++
      separator :: (String.ofList right).toList) := by
    rw [String.toList_ofList, String.toList_ofList, ← hsplit, String.ofList_toList]
  rw [htext, splitAt_append, length_append]
  have hleft := length_pos_of_ne_nil (splitAt_ne_nil separator (.ofList left))
  have hright := length_pos_of_ne_nil (splitAt_ne_nil separator (.ofList right))
  omega

/-! ### A token that was created -/

theorem parseUnsigned_of_no_plus {bits : ℕ} {text : String}
    (h : ∀ rest, text.toList ≠ '+' :: rest) :
    parseUnsigned bits text =
      if text.toList ≠ [] ∧ text.toList.all Char.isDigit ∧ digitsValue text.toList < 2 ^ bits then
        some (digitsValue text.toList)
      else none := by
  rw [parseUnsigned.eq_def]
  generalize text.toList = digits at h
  -- the first case of the match is refuted by `h`
  rcases digits with _ | ⟨c, rest⟩
  · rfl
  · simp

theorem parseUnsigned_toString (n : UInt64) :
    parseUnsigned 64 (toString n.toNat) = some n.toNat := by
  have hdigits : (toString n.toNat).toList = Nat.toDigits 10 n.toNat := toList_toString n.toNat
  have hall : ∀ c ∈ Nat.toDigits 10 n.toNat, c.isDigit = true := fun c hc =>
    Nat.isDigit_of_mem_toDigits (by decide) (by decide) hc
  have hplus : ∀ rest, Nat.toDigits 10 n.toNat ≠ '+' :: rest := by
    intro rest hsplit
    have hdigit := hall '+' (by rw [hsplit]; exact mem_cons_self)
    revert hdigit
    decide
  have hvalue : digitsValue (Nat.toDigits 10 n.toNat) = n.toNat :=
    Nat.ofDigitChars_ten_toDigits (n := n.toNat)
  rw [parseUnsigned_of_no_plus (by rwa [hdigits]), hdigits, hvalue]
  exact if_pos ⟨Nat.toDigits_ne_nil, List.all_eq_true.mpr hall, n.toNat_lt⟩

theorem fromUTF8?_asBytes (text : String) : String.fromUTF8? ⟨⟨asBytes text⟩⟩ = some text := by
  have hvalid : (⟨⟨asBytes text⟩⟩ : ByteArray).IsValidUTF8 := text.isValidUTF8
  unfold String.fromUTF8?
  rw [dif_pos hvalid]
  rfl

theorem dot_not_mem_encodePadded (bytes : List UInt8) : '.' ∉ encodePadded bytes := by
  intro h
  rcases mem_encodePadded h with halphabet | hpad
  · revert halphabet
    decide
  · revert hpad
    decide

theorem verify_create (secret : List UInt8) (subject : String) (expiry now : UInt64) :
    verifySessionToken env secret (createSessionToken env.sha secret subject expiry) now =
      readPayload env (tokenPayload subject expiry) now := by
  have hsplit : splitAt '.' (createSessionToken env.sha secret subject expiry) =
      [.ofList (encodePadded (asBytes (tokenPayload subject expiry))), .ofList (encodePadded
          (hmacSha256 env.sha secret (asBytes (tokenPayload subject expiry))).bytes)] := by
    have happend := splitAt_append '.'
      (.ofList (encodePadded (asBytes (tokenPayload subject expiry))))
      (.ofList (encodePadded
        (hmacSha256 env.sha secret (asBytes (tokenPayload subject expiry))).bytes))
    rw [String.toList_ofList, String.toList_ofList] at happend
    rw [createSessionToken, happend, splitAt_of_not_mem, splitAt_of_not_mem]
    · rfl
    · rw [String.toList_ofList]
      exact dot_not_mem_encodePadded _
    · rw [String.toList_ofList]
      exact dot_not_mem_encodePadded _
  unfold verifySessionToken
  rw [hsplit]
  dsimp only
  rw [String.toList_ofList, String.toList_ofList, decodePadded_encodePadded,
    decodePadded_encodePadded]
  simp only [orError, ok_bind, ensure, if_true, fromUTF8?_asBytes]

theorem splitAt_tokenPayload (subject : String) (expiry : UInt64) :
    splitAt ':' (tokenPayload subject expiry) = splitAt ':' subject ++ [toString expiry.toNat] := by
  have hcolon : ':' ∉ (toString expiry.toNat).toList := fun h =>
    absurd (isDigit_of_mem_toString h) (by decide)
  have htext : tokenPayload subject expiry =
      .ofList (subject.toList ++ ':' :: (toString expiry.toNat).toList) := by
    rw [← String.toList_inj, String.toList_ofList, tokenPayload, String.toList_append,
      String.toList_append, append_assoc]
    rfl
  rw [htext, splitAt_append, splitAt_of_not_mem hcolon]

theorem readPayload_of_colon {subject : String} (h : ':' ∈ subject.toList) (expiry now : UInt64) :
    readPayload env (tokenPayload subject expiry) now = .error ⟨"Invalid payload segments"⟩ := by
  have hlength := two_le_length_splitAt h
  unfold readPayload
  rw [splitAt_tokenPayload]
  split
  · rename_i sub expiryText hsplit
    have hthree := congrArg List.length hsplit
    rw [length_append, length_singleton] at hthree
    simp only [length_cons, length_nil] at hthree
    omega
  · rfl

theorem readPayload_of_no_colon {subject : String} (h : ':' ∉ subject.toList)
    (expiry now : UInt64) :
    readPayload env (tokenPayload subject expiry) now =
      if now ≤ expiry then .ok subject else .error ⟨"Session token has expired"⟩ := by
  unfold readPayload
  rw [splitAt_tokenPayload, splitAt_of_not_mem h]
  dsimp only [singleton_append]
  rw [parseUnsigned_toString]
  simp only [orError, ok_bind, ensure, ← UInt64.le_iff_toNat_le]
  split_ifs with hle
  · rfl
  · rfl

/-- **The round trip.** A token verifies until it expires, for the subjects without a colon. -/
theorem token_verifies_iff (secret : List UInt8) (subject : String) (expiry : UInt64) :
    (∀ now : UInt64, (now ≤ expiry → verifySessionToken env secret
        (createSessionToken env.sha secret subject expiry) now = .ok subject) ∧
      (expiry < now → ∃ e, verifySessionToken env secret
        (createSessionToken env.sha secret subject expiry) now = .error e)) ↔
      ':' ∉ subject.toList := by
  constructor
  · intro h hcolon
    have hnow := (h 0).1 UInt64.zero_le
    rw [verify_create, readPayload_of_colon env hcolon] at hnow
    cases hnow
  · intro hcolon now
    rw [verify_create, readPayload_of_no_colon env hcolon]
    constructor
    · intro hle
      rw [if_pos hle]
    · intro hlt
      rw [if_neg (UInt64.not_le.mpr hlt)]
      exact ⟨_, rfl⟩

def sampleEnv : TokenEnv where
  sha := fun _ => ⟨List.replicate 32 0, length_zeroBytes⟩
  decodeError _ := "Invalid symbol"
  utf8Error _ := "invalid utf-8 sequence"
  parseError _ := "invalid digit found in string"

theorem colon_subject_refused :
    verifySessionToken sampleEnv [1, 2, 3]
      (createSessionToken sampleEnv.sha [1, 2, 3] "tenant:user" 1700003600) 1700000000 =
      .error ⟨"Invalid payload segments"⟩ := by
  rw [verify_create]
  exact readPayload_of_colon sampleEnv (by decide) _ _

end Pandora.Service.SessionTokens
