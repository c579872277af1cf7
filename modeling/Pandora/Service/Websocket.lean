import Pandora.Lib.Codes
import Pandora.Lib.Framing

/-! # WebSocket frames

A frame on the wire is a byte of flags and opcode, a byte with the mask bit and a length code, the
length in two or eight bytes if the code says so, the mask key if the bit says so, and the payload,
each byte of it combined with the key in rotation. `decodeFrame` reads the front of a buffer with a
cursor and returns nothing when the buffer ends before the part it is about to read (`slice`).

A frame that was decoded is decoded from every longer front of the same bytes and from no shorter
one (`decodeFrame_take`), so that the round trip on a whole frame gives every cut point with it. -/

namespace Pandora.Service.Websocket

open Lib.Checked Lib.Codes Lib.Framing
open List hiding Vector

/-- The opcodes of a frame. -/
inductive Opcode
  | continuation | text | binary | close | ping | pong

/-- The errors of the decoder. -/
inductive WebSocketError
  | invalidOpcode (byte : UInt8)
  | frameTooLarge (size : ℕ)

def Opcode.fromU8 (byte : UInt8) : Except WebSocketError Opcode :=
  match byte.toNat with
  | 0x0 => .ok .continuation
  | 0x1 => .ok .text
  | 0x2 => .ok .binary
  | 0x8 => .ok .close
  | 0x9 => .ok .ping
  | 0xA => .ok .pong
  | _ => .error (.invalidOpcode byte)

def Opcode.toU8 : Opcode → UInt8
  | .continuation => 0x0
  | .text => 0x1
  | .binary => 0x2
  | .close => 0x8
  | .ping => 0x9
  | .pong => 0xA

def maxFramePayloadSize : ℕ := 16 * 1024 * 1024

structure WebSocketFrame where
  (fin rsv1 rsv2 rsv3 : Bool)
  opcode : Opcode
  masked : Bool
  maskKey : Option (Vector UInt8 4)
  payload : List UInt8

/-- The payload combined with the key in rotation: masking and unmasking are one operation. -/
def mask (key : Vector UInt8 4) (payload : List UInt8) : List UInt8 :=
  payload.mapIdx fun i byte => byte ^^^ key.get (Fin.ofNat 4 i)

/-- The first byte: flags and opcode. -/
def flagByte (fin rsv1 rsv2 rsv3 : Bool) (opcode : Opcode) : UInt8 :=
  (if fin then 0x80 else 0x00) ||| (if rsv1 then 0x40 else 0x00) |||
    (if rsv2 then 0x20 else 0x00) ||| (if rsv3 then 0x10 else 0x00) ||| (opcode.toU8 &&& 0x0F)

/-- The second byte and the bytes of the length. -/
def lengthBytes (masked : Bool) (len : ℕ) : List UInt8 :=
  let maskBit : UInt8 := if masked then 0x80 else 0x00
  if len ≤ 125 then [maskBit ||| UInt8.ofNat len]
  else if len ≤ 65535 then (maskBit ||| 126) :: bigEndian 2 len
  else (maskBit ||| 127) :: bigEndian 8 len

/-- The mask key and the payload. -/
def bodyBytes (frame : WebSocketFrame) : List UInt8 :=
  if frame.masked then
    let key := frame.maskKey.getD (.replicate 4 0)
    key.toList ++ mask key frame.payload
  else frame.payload

def encodeFrame (frame : WebSocketFrame) : List UInt8 :=
  flagByte frame.fin frame.rsv1 frame.rsv2 frame.rsv3 frame.opcode ::
    (lengthBytes frame.masked frame.payload.length ++ bodyBytes frame)

/-- `bytes[cursor..cursor + n]`, if the buffer is that long. -/
def slice (bytes : List UInt8) (cursor n : ℕ) : Option (List UInt8) :=
  if bytes.length < cursor + n then none else some ((bytes.drop cursor).take n)

/-- The length of the payload, and the cursor behind it. The code has seven bits, so that the last
case is 127. -/
def readLength (bytes : List UInt8) (lenCode : UInt8) : Option (ℕ × ℕ) :=
  if lenCode.toNat ≤ 125 then some (lenCode.toNat, 2)
  else if lenCode.toNat = 126 then
    (slice bytes 2 2).map fun len => (ofBigEndian len, 2 + 2)
  else (slice bytes 2 8).map fun len => (ofBigEndian len, 2 + 8)

/-- The mask key, and the cursor behind it. -/
def readMaskKey (bytes : List UInt8) (masked : Bool) (cursor : ℕ) :
    Option (Option (Vector UInt8 4) × ℕ) :=
  if masked then
    (slice bytes cursor 4).map fun key => (some (.ofFn fun i => key.getD i 0), cursor + 4)
  else some (none, cursor)

/-- The payload as it was before it was masked. -/
def unmask (maskKey : Option (Vector UInt8 4)) (raw : List UInt8) : List UInt8 :=
  match maskKey with
  | some key => mask key raw
  | none => raw

/-- A frame at the front of the buffer and the number of bytes it takes; nothing if the buffer ends
before the frame does. -/
def decodeFrame (bytes : List UInt8) : Except WebSocketError (Option (WebSocketFrame × ℕ)) :=
  match bytes with
  | b0 :: b1 :: _ => do
    let fin : Bool := b0 &&& 0x80 ≠ 0
    let rsv1 : Bool := b0 &&& 0x40 ≠ 0
    let rsv2 : Bool := b0 &&& 0x20 ≠ 0
    let rsv3 : Bool := b0 &&& 0x10 ≠ 0
    let opcode ← Opcode.fromU8 (b0 &&& 0x0F)
    let masked : Bool := b1 &&& 0x80 ≠ 0
    match readLength bytes (b1 &&& 0x7F) with
    | none => pure none
    | some (payloadLen, cursor) =>
      ensure (payloadLen ≤ maxFramePayloadSize) (.frameTooLarge payloadLen)
      match readMaskKey bytes masked cursor with
      | none => pure none
      | some (maskKey, cursor) =>
        match slice bytes cursor payloadLen with
        | none => pure none
        | some raw =>
          let payload := unmask maskKey raw
          pure (some (⟨fin, rsv1, rsv2, rsv3, opcode, masked, maskKey, payload⟩,
            cursor + payloadLen))
  | _ => .ok none

/-! ### Cut points -/

variable {bytes part : List UInt8} {cursor n : ℕ}

theorem slice_eq_some :
    slice bytes cursor n = some part ↔
      cursor + n ≤ bytes.length ∧ (bytes.drop cursor).take n = part := by
  unfold slice
  by_cases h : bytes.length < cursor + n
  · rw [if_pos h]
    exact ⟨nofun, fun hle => absurd hle.1 (by omega)⟩
  · rw [if_neg h, Option.some.injEq]
    exact ⟨fun he => ⟨by omega, he⟩, And.right⟩

theorem slice_take (h : slice bytes cursor n = some part) (m : ℕ) :
    slice (bytes.take m) cursor n = if m < cursor + n then none else some part := by
  obtain ⟨hle, rfl⟩ := slice_eq_some.mp h
  by_cases hm : m < cursor + n
  · have hshort : (bytes.take m).length < cursor + n := by
      rw [length_take]
      omega
    rw [if_pos hm, slice, if_pos hshort]
  · have hlong : cursor + n ≤ (bytes.take m).length := by
      rw [length_take]
      omega
    rw [if_neg hm, slice_eq_some]
    refine ⟨hlong, ?_⟩
    rw [drop_take, take_take, min_eq_left (by omega)]

theorem map_slice_take {α : Type} {g : List UInt8 → α} {a : α}
    (h : (slice bytes cursor n).map g = some a) (m : ℕ) :
    (slice (bytes.take m) cursor n).map g = if m < cursor + n then none else some a := by
  obtain ⟨part, hpart, rfl⟩ := Option.map_eq_some_iff.mp h
  rw [slice_take hpart m]
  split_ifs <;> rfl

variable {len : ℕ}

theorem readLength_take {lenCode : UInt8}
    (h : readLength bytes lenCode = some (len, cursor)) {m : ℕ} (hm : 2 ≤ m) :
    readLength (bytes.take m) lenCode = if m < cursor then none else some (len, cursor) := by
  unfold readLength at h ⊢
  by_cases h125 : lenCode.toNat ≤ 125
  · rw [if_pos h125] at h ⊢
    obtain ⟨-, rfl⟩ := Prod.mk.inj (Option.some.inj h)
    rw [if_neg (by omega), h]
  · rw [if_neg h125] at h ⊢
    by_cases h126 : lenCode.toNat = 126
    · rw [if_pos h126] at h ⊢
      have hcursor : cursor = 2 + 2 := by
        obtain ⟨part, -, hpart⟩ := Option.map_eq_some_iff.mp h
        exact (Prod.mk.inj hpart).2.symm
      rw [map_slice_take h m, hcursor]
    · rw [if_neg h126] at h ⊢
      have hcursor : cursor = 2 + 8 := by
        obtain ⟨part, -, hpart⟩ := Option.map_eq_some_iff.mp h
        exact (Prod.mk.inj hpart).2.symm
      rw [map_slice_take h m, hcursor]

theorem readMaskKey_take {masked : Bool} {start : ℕ}
    {key : Option (Vector UInt8 4)} (h : readMaskKey bytes masked start = some (key, cursor))
    {m : ℕ} (hm : start ≤ m) :
    readMaskKey (bytes.take m) masked start = if m < cursor then none else some (key, cursor) := by
  unfold readMaskKey at h ⊢
  cases masked with
  | false =>
    rw [if_neg Bool.false_ne_true] at h ⊢
    obtain ⟨-, rfl⟩ := Prod.mk.inj (Option.some.inj h)
    rw [if_neg (by omega), h]
  | true =>
    rw [if_pos rfl] at h ⊢
    have hcursor : cursor = start + 4 := by
      obtain ⟨part, -, hpart⟩ := Option.map_eq_some_iff.mp h
      exact (Prod.mk.inj hpart).2.symm
    rw [map_slice_take h m, hcursor]

theorem le_readLength {lenCode : UInt8}
    (h : readLength bytes lenCode = some (len, cursor)) : 2 ≤ cursor := by
  unfold readLength at h
  split_ifs at h with h125 h126
  · obtain ⟨-, rfl⟩ := Prod.mk.inj (Option.some.inj h)
    exact le_rfl
  all_goals
    obtain ⟨part, -, hpart⟩ := Option.map_eq_some_iff.mp h
    have hcursor := (Prod.mk.inj hpart).2
    omega

theorem le_readMaskKey {masked : Bool} {start : ℕ}
    {key : Option (Vector UInt8 4)} (h : readMaskKey bytes masked start = some (key, cursor)) :
    start ≤ cursor := by
  unfold readMaskKey at h
  split_ifs at h with hmasked
  · obtain ⟨part, -, hpart⟩ := Option.map_eq_some_iff.mp h
    have hcursor := (Prod.mk.inj hpart).2
    omega
  · obtain ⟨-, rfl⟩ := Prod.mk.inj (Option.some.inj h)
    exact le_rfl

/-- The parts of a decoded frame. -/
structure Parts (b0 b1 : UInt8) (tail : List UInt8) (frame : WebSocketFrame) (n : ℕ) : Prop where
  fin : frame.fin = decide (b0 &&& 0x80 ≠ 0)
  rsv1 : frame.rsv1 = decide (b0 &&& 0x40 ≠ 0)
  rsv2 : frame.rsv2 = decide (b0 &&& 0x20 ≠ 0)
  rsv3 : frame.rsv3 = decide (b0 &&& 0x10 ≠ 0)
  opcode : Opcode.fromU8 (b0 &&& 0x0F) = .ok frame.opcode
  masked : frame.masked = decide (b1 &&& 0x80 ≠ 0)
  body : ∃ len keyAt payloadAt raw,
    readLength (b0 :: b1 :: tail) (b1 &&& 0x7F) = some (len, keyAt) ∧ len ≤ maxFramePayloadSize ∧
    readMaskKey (b0 :: b1 :: tail) frame.masked keyAt = some (frame.maskKey, payloadAt) ∧
    slice (b0 :: b1 :: tail) payloadAt len = some raw ∧
    frame.payload = unmask frame.maskKey raw ∧ n = payloadAt + len

variable {frame : WebSocketFrame}

theorem decodeFrame_eq_some {b0 b1 : UInt8} {tail : List UInt8} :
    decodeFrame (b0 :: b1 :: tail) = .ok (some (frame, n)) ↔ Parts b0 b1 tail frame n := by
  constructor
  · intro h
    simp only [decodeFrame, bind_eq_ok] at h
    obtain ⟨opcode, hopcode, h⟩ := h
    split at h
    · simp at h
    · rename_i len keyAt hlen
      simp only [bind_eq_ok, ensure_eq_ok, exists_const] at h
      obtain ⟨hmax, h⟩ := h
      split at h
      · simp at h
      · rename_i key payloadAt hkey
        split at h
        · simp at h
        · rename_i raw hraw
          simp only [pure_eq_ok, Option.some.injEq, Prod.mk.injEq] at h
          obtain ⟨rfl, rfl⟩ := h
          exact ⟨rfl, rfl, rfl, rfl, hopcode, rfl, len, keyAt, payloadAt, raw, hlen, hmax, hkey,
            hraw, rfl, rfl⟩
  · rintro ⟨hfin, hrsv1, hrsv2, hrsv3, hopcode, hmasked, len, keyAt, payloadAt, raw, hlen, hmax,
      hkey, hraw, hpayload, rfl⟩
    obtain ⟨fin, rsv1, rsv2, rsv3, opcode, masked, maskKey, payload⟩ := frame
    dsimp only at hfin hrsv1 hrsv2 hrsv3 hopcode hmasked hkey hpayload
    subst hfin hrsv1 hrsv2 hrsv3 hmasked hpayload
    simp only [decodeFrame, hopcode, ok_bind, hlen, ensure, if_pos hmax, hkey, hraw]
    rfl

/-- A decoded frame is decoded from every front of the bytes that holds it, and a shorter front is
incomplete. -/
theorem decodeFrame_take (h : decodeFrame bytes = .ok (some (frame, n))) (m : ℕ) :
    decodeFrame (bytes.take m) = if m < n then .ok none else .ok (some (frame, n)) := by
  match bytes with
  | [] => simp [decodeFrame] at h
  | [b0] => simp [decodeFrame] at h
  | b0 :: b1 :: tail =>
    have parts := decodeFrame_eq_some.mp h
    obtain ⟨len, keyAt, payloadAt, raw, hlen, hmax, hkey, hraw, hpayload, hn⟩ := parts.body
    have hkeyAt : 2 ≤ keyAt := le_readLength hlen
    have hpayloadAt : keyAt ≤ payloadAt := le_readMaskKey hkey
    match m with
    | 0 => rw [if_pos (by omega)]; rfl
    | 1 => rw [if_pos (by omega)]; rfl
    | m + 2 =>
      have htake : (b0 :: b1 :: tail).take (m + 2) = b0 :: b1 :: tail.take m := rfl
      have hlen' := readLength_take hlen (m := m + 2) (by omega)
      have hraw' := slice_take hraw (m + 2)
      rw [htake] at hlen' hraw' ⊢
      -- the front ends before the length, before the key, before the payload, or behind it
      by_cases h1 : m + 2 < keyAt
      · rw [if_pos h1] at hlen'
        rw [if_pos (by omega)]
        simp only [decodeFrame, parts.opcode, ok_bind, hlen']
        rfl
      · rw [if_neg h1] at hlen'
        have hkey' := readMaskKey_take hkey (m := m + 2) (by omega)
        rw [htake] at hkey'
        by_cases h2 : m + 2 < payloadAt
        · rw [if_pos h2, parts.masked] at hkey'
          rw [if_pos (by omega)]
          simp only [decodeFrame, parts.opcode, ok_bind, hlen', ensure, if_pos hmax, hkey']
          rfl
        · rw [if_neg h2] at hkey'
          by_cases h3 : m + 2 < n
          · rw [if_pos (by omega)] at hraw'
            rw [if_pos h3]
            rw [parts.masked] at hkey'
            simp only [decodeFrame, parts.opcode, ok_bind, hlen', ensure, if_pos hmax, hkey', hraw']
            rfl
          · rw [if_neg (by omega)] at hraw'
            rw [if_neg h3, decodeFrame_eq_some]
            exact ⟨parts.fin, parts.rsv1, parts.rsv2, parts.rsv3, parts.opcode, parts.masked, len,
              keyAt, payloadAt, raw, hlen', hmax, hkey', hraw', hpayload, hn⟩

/-! ### Round trip -/

theorem length_mask (key : Vector UInt8 4) (payload : List UInt8) :
    (mask key payload).length = payload.length := length_mapIdx

theorem mask_mask (key : Vector UInt8 4) (payload : List UInt8) :
    mask key (mask key payload) = payload := by
  apply ext_getElem
  · rw [length_mask, length_mask]
  · intro i _ _
    simp only [mask, getElem_mapIdx, UInt8.xor_assoc, UInt8.xor_self, UInt8.xor_zero]

/-- A frame the protocol can carry: the payload is within the limit and there is a mask key exactly
if the frame is masked. -/
structure WebSocketFrame.Sendable (frame : WebSocketFrame) : Prop where
  payload_le : frame.payload.length ≤ maxFramePayloadSize
  maskKey_iff : frame.maskKey.isSome = frame.masked

theorem Opcode.fromU8_toU8 (opcode : Opcode) : Opcode.fromU8 opcode.toU8 = .ok opcode := by
  cases opcode <;> simp [Opcode.toU8, Opcode.fromU8]

theorem flagByte_fields (fin rsv1 rsv2 rsv3 : Bool) (opcode : Opcode) :
    fin = decide (flagByte fin rsv1 rsv2 rsv3 opcode &&& 0x80 ≠ 0) ∧
      rsv1 = decide (flagByte fin rsv1 rsv2 rsv3 opcode &&& 0x40 ≠ 0) ∧
      rsv2 = decide (flagByte fin rsv1 rsv2 rsv3 opcode &&& 0x20 ≠ 0) ∧
      rsv3 = decide (flagByte fin rsv1 rsv2 rsv3 opcode &&& 0x10 ≠ 0) ∧
      flagByte fin rsv1 rsv2 rsv3 opcode &&& 0x0F = opcode.toU8 := by
  revert fin rsv1 rsv2 rsv3
  cases opcode <;> decide

/-- The second byte of a frame, with a length code. -/
def codeByte (masked : Bool) (code : ℕ) : UInt8 :=
  (if masked then 0x80 else 0x00) ||| UInt8.ofNat code

theorem codeByte_fields : ∀ (masked : Bool), ∀ code < 128,
    masked = decide (codeByte masked code &&& 0x80 ≠ 0) ∧
      (codeByte masked code &&& 0x7F).toNat = code := by
  decide

theorem slice_append (front : List UInt8) (rest : List UInt8)
    (hcursor : cursor = front.length) (hn : n = part.length) :
    slice (front ++ (part ++ rest)) cursor n = some part := by
  rw [slice_eq_some, hcursor, hn]
  refine ⟨by simp only [length_append]; omega, ?_⟩
  rw [drop_left, take_left]

theorem slice_bigEndian (b0 b1 : UInt8) (w len : ℕ) (rest : List UInt8) :
    slice (b0 :: b1 :: (bigEndian w len ++ rest)) 2 w = some (bigEndian w len) :=
  slice_append [b0, b1] rest rfl (length_bigEndian w len).symm

theorem readLength_lengthBytes (b0 : UInt8) (masked : Bool)
    (hlen : len ≤ maxFramePayloadSize) (rest : List UInt8) :
    ∃ b1 tail, lengthBytes masked len = b1 :: tail ∧ masked = decide (b1 &&& 0x80 ≠ 0) ∧
      readLength (b0 :: b1 :: (tail ++ rest)) (b1 &&& 0x7F) = some (len, 2 + tail.length) := by
  unfold maxFramePayloadSize at hlen
  unfold lengthBytes
  by_cases h125 : len ≤ 125
  · obtain ⟨hmask, hcode⟩ := codeByte_fields masked len (by omega)
    refine ⟨codeByte masked len, [], by rw [if_pos h125]; rfl, hmask, ?_⟩
    rw [readLength, hcode, if_pos h125]
    rfl
  · by_cases h16 : len ≤ 65535
    · obtain ⟨hmask, hcode⟩ := codeByte_fields masked 126 (by omega)
      refine ⟨codeByte masked 126, bigEndian 2 len, by rw [if_neg h125, if_pos h16]; rfl, hmask, ?_⟩
      rw [readLength, hcode, if_neg (by omega), if_pos rfl, slice_bigEndian, Option.map_some,
        ofBigEndian_bigEndian (by omega), length_bigEndian]
    · obtain ⟨hmask, hcode⟩ := codeByte_fields masked 127 (by omega)
      refine ⟨codeByte masked 127, bigEndian 8 len, by rw [if_neg h125, if_neg h16]; rfl, hmask, ?_⟩
      rw [readLength, hcode, if_neg (by omega), if_neg (by omega), slice_bigEndian,
        Option.map_some, ofBigEndian_bigEndian (by omega), length_bigEndian]

theorem ofFn_toList (key : Vector UInt8 4) :
    Vector.ofFn (fun i : Fin 4 => key.toList.getD i 0) = key := by
  ext i hi
  simp

/-- The mask key and the payload are read back from behind the length. -/
theorem readBody_bodyBytes (h : frame.Sendable) (front rest : List UInt8) :
    ∃ payloadAt raw, readMaskKey (front ++ (bodyBytes frame ++ rest)) frame.masked front.length =
        some (frame.maskKey, payloadAt) ∧
      slice (front ++ (bodyBytes frame ++ rest)) payloadAt frame.payload.length = some raw ∧
      frame.payload = unmask frame.maskKey raw ∧
      payloadAt + frame.payload.length = front.length + (bodyBytes frame).length := by
  have hkey := h.maskKey_iff
  obtain ⟨fin, rsv1, rsv2, rsv3, opcode, masked, maskKey, payload⟩ := frame
  cases maskKey with
  | none =>
    obtain rfl : masked = false := hkey.symm
    exact ⟨front.length, payload, rfl, slice_append front rest rfl rfl, rfl, rfl⟩
  | some key =>
    obtain rfl : masked = true := hkey.symm
    have hbody : bodyBytes ⟨fin, rsv1, rsv2, rsv3, opcode, true, some key, payload⟩ =
        key.toList ++ mask key payload := rfl
    have hlength : key.toList.length = 4 := key.length_toList
    rw [hbody]
    refine ⟨front.length + 4, mask key payload, ?_, ?_, (mask_mask key payload).symm, ?_⟩
    · rw [readMaskKey, if_pos rfl, append_assoc, slice_append front _ rfl hlength.symm,
        Option.map_some, ofFn_toList]
    · rw [append_assoc, ← append_assoc]
      refine slice_append _ rest ?_ (length_mask key payload).symm
      rw [length_append, hlength]
    · rw [length_append, hlength, length_mask, Nat.add_assoc]

theorem decodeFrame_encodeFrame (h : frame.Sendable) (rest : List UInt8) :
    decodeFrame (encodeFrame frame ++ rest) = .ok (some (frame, (encodeFrame frame).length)) := by
  let b0 := flagByte frame.fin frame.rsv1 frame.rsv2 frame.rsv3 frame.opcode
  obtain ⟨hfin, hrsv1, hrsv2, hrsv3, hopcode⟩ :=
    flagByte_fields frame.fin frame.rsv1 frame.rsv2 frame.rsv3 frame.opcode
  obtain ⟨b1, tail, hbytes, hmasked, hlength⟩ :=
    readLength_lengthBytes b0 frame.masked h.payload_le (bodyBytes frame ++ rest)
  obtain ⟨payloadAt, raw, hkey, hraw, hpayload, hend⟩ :=
    readBody_bodyBytes h (b0 :: b1 :: tail) rest
  have hencode : encodeFrame frame = b0 :: b1 :: (tail ++ bodyBytes frame) := by
    rw [encodeFrame, hbytes, cons_append]
  have hstream : encodeFrame frame ++ rest = b0 :: b1 :: (tail ++ (bodyBytes frame ++ rest)) := by
    rw [hencode, cons_append, cons_append, append_assoc]
  have hcursor : 2 + tail.length = (b0 :: b1 :: tail).length := by
    simp only [length_cons]
    omega
  rw [hstream, decodeFrame_eq_some]
  refine ⟨hfin, hrsv1, hrsv2, hrsv3, ?_, hmasked, _, _, payloadAt, raw, hlength, h.payload_le, ?_,
    hraw, hpayload, ?_⟩
  · rw [hopcode, Opcode.fromU8_toU8]
  · rw [hcursor]
    exact hkey
  · rw [hend, hencode]
    simp only [length_cons, length_append]
    omega

theorem decodeFrame_prefix (h : frame.Sendable) {s : List UInt8}
    (hs : s <+: encodeFrame frame) (hne : s ≠ encodeFrame frame) : decodeFrame s = .ok none := by
  have hwhole := decodeFrame_encodeFrame h []
  rw [append_nil] at hwhole
  have hlt : s.length < (encodeFrame frame).length :=
    lt_of_le_of_ne hs.length_le fun heq => hne (hs.eq_of_length heq)
  have hcut := decodeFrame_take hwhole s.length
  rwa [if_pos hlt, ← prefix_iff_eq_take.mp hs] at hcut

theorem delimited_frames :
    Delimited WebSocketFrame.Sendable encodeFrame decodeFrame where
  ne_nil _ _ := cons_ne_nil _ _
  complete _ h rest := decodeFrame_encodeFrame h rest
  cut _ h _ hs hne := decodeFrame_prefix h hs hne
  empty := rfl

/-- Every frame is decoded back whatever follows it, no proper prefix of it is taken for a frame or
refused, and a stream of frames is received as their list in whatever chunks it comes. -/
theorem frames_roundTrip :
    (∀ frame : WebSocketFrame, frame.Sendable → ∀ rest, decodeFrame (encodeFrame frame ++ rest) =
      .ok (some (frame, (encodeFrame frame).length))) ∧
    (∀ frame : WebSocketFrame, frame.Sendable → ∀ s, s <+: encodeFrame frame →
      s ≠ encodeFrame frame → decodeFrame s = .ok none) ∧
    (∀ frames : List WebSocketFrame, (∀ frame ∈ frames, frame.Sendable) →
      ∀ chunks : List (List UInt8), chunks.flatten = frames.flatMap encodeFrame →
        receive decodeFrame [] chunks = .ok (frames, [])) :=
  ⟨fun _ h rest => decodeFrame_encodeFrame h rest, fun _ h _ hs hne => decodeFrame_prefix h hs hne,
    fun _ h _ hchunks => delimited_frames.receive_eq h hchunks⟩

/-- A masked frame and an unmasked one in three chunks. -/
def sampleFrames : List WebSocketFrame :=
  [⟨true, false, false, false, .text, true, some #v[1, 2, 3, 4], [7, 8, 9, 10, 11]⟩,
    ⟨false, false, true, false, .ping, false, none, [5]⟩]

theorem sampleFrames_roundTrip :
    receive decodeFrame [] [(sampleFrames.flatMap encodeFrame).take 1,
      ((sampleFrames.flatMap encodeFrame).drop 1).take 11,
      (sampleFrames.flatMap encodeFrame).drop 12] = .ok (sampleFrames, []) :=
  frames_roundTrip.2.2 sampleFrames (by
      intro frame hframe
      simp only [sampleFrames, mem_cons, not_mem_nil, or_false] at hframe
      rcases hframe with rfl | rfl
      · exact ⟨by decide, rfl⟩
      · exact ⟨by decide, rfl⟩) _ (by decide)

end Pandora.Service.Websocket
