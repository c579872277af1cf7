import Pandora.Backup.Archive

/-! # What is sealed and what is opened

An archive is sealed if its contents have at most 128 MiB as JSON; it is opened if its envelope,
where the same contents are in base 64, has at most 128 MiB. `contentsSize` is the length of the
contents, `size_envelope` that of the envelope, and so an archive that was sealed is opened exactly
if its contents have about three quarters of the limit (`sealed_archive_opens`). -/

namespace Pandora.Backup.Sealing

open Text hiding decodeFixed
open List
open Lib.Checked Lib Backup.Archive

variable {env : ArchiveEnv} {random : Randomness} {entries : List RecoveryEntry}
  {passphrase : String} {createdAt : UInt64} {bytes : List UInt8}

/-! ### Lengths -/

theorem size_ofList {cs : List Char} (h : ∀ c ∈ cs, c.utf8Size = 1) :
    (String.ofList cs).utf8ByteSize = cs.length := by
  have hone : ∀ c ∈ cs, (String.utf8EncodeChar c).length = 1 := by
    intro c hc
    rw [String.length_utf8EncodeChar]
    exact h c hc
  rw [← length_asBytes, asBytes_ofList, length_flatMap, map_congr_left hone,
    map_const', sum_replicate_nat]
  omega

theorem plain_alphabet : ∀ c ∈ Base64.alphabet, escapeChar c = [c] ∧ c.utf8Size = 1 :=
  all_iff_forall_prop.mp (by decide +kernel)

theorem plain_hexDigit : ∀ n < 16, escapeChar (hexDigit n) = [hexDigit n] := by decide +kernel

theorem jsonString_plain {text : String} (h : ∀ c ∈ text.toList, escapeChar c = [c]) :
    jsonString text = "\"" ++ text ++ "\"" := by
  unfold jsonString
  rw [flatMap_congr h, flatMap_singleton', String.ofList_toList]

theorem size_jsonString_plain {text : String} (h : ∀ c ∈ text.toList, escapeChar c = [c]) :
    (jsonString text).utf8ByteSize = text.utf8ByteSize + 2 := by
  rw [jsonString_plain h, String.utf8ByteSize_append, String.utf8ByteSize_append]
  have hquote : ("\"" : String).utf8ByteSize = 1 := by decide
  omega

theorem toList_encodeBase64 (bytes : List UInt8) :
    (encodeBase64 bytes).toList = Base64.encode bytes := by
  unfold encodeBase64
  rw [String.toList_ofList]

theorem plain_encodeBase64 {bytes : List UInt8} :
    ∀ c ∈ (encodeBase64 bytes).toList, escapeChar c = [c] ∧ c.utf8Size = 1 := by
  rw [toList_encodeBase64]
  intro c hc
  exact plain_alphabet c (Base64.mem_alphabet_of_mem_encode hc)

theorem size_jsonBase64 (bytes : List UInt8) :
    (jsonString (encodeBase64 bytes)).utf8ByteSize = (4 * bytes.length + 2) / 3 + 2 := by
  have hone : ∀ c ∈ Base64.encode bytes, c.utf8Size = 1 := by
    intro c hc
    rw [← toList_encodeBase64] at hc
    exact (plain_encodeBase64 c hc).2
  rw [size_jsonString_plain fun c hc => (plain_encodeBase64 c hc).1]
  unfold encodeBase64
  rw [size_ofList hone, Base64.length_encode]

theorem size_jsonDigest (sha : Sha256) (bytes : List UInt8) :
    (jsonString (digest sha bytes)).utf8ByteSize = 73 := by
  have hprefix : ∀ c ∈ ("sha256:" : String).toList, escapeChar c = [c] :=
    all_iff_forall_prop.mp (by decide)
  rw [size_jsonString_plain]
  · unfold digest
    rw [String.utf8ByteSize_append, ← length_asBytes (hex _), length_hex, (sha bytes).length_eq]
    have hsize : ("sha256:" : String).utf8ByteSize = 7 := by decide
    omega
  · intro c hc
    unfold digest at hc
    rw [String.toList_append, mem_append] at hc
    rcases hc with hc | hc
    · exact hprefix c hc
    · unfold hex at hc
      rw [String.toList_ofList] at hc
      obtain ⟨n, hn, rfl⟩ := mem_hexChars hc
      exact plain_hexDigit n hn

/-- The length of an entry as JSON. -/
def entrySize (entry : RecoveryEntry) : ℕ :=
  (jsonString entry.path).utf8ByteSize + (4 * entry.bytes.length + 2) / 3 + 102

theorem size_record (env : ArchiveEnv) (entry : RecoveryEntry) :
    (recordOf env entry).json.utf8ByteSize = entrySize entry := by
  have hpath : ("\x7b\"path\":" : String).utf8ByteSize = 8 := by decide
  have hsha : (",\"sha256\":" : String).utf8ByteSize = 10 := by decide
  have hdata : (",\"data\":" : String).utf8ByteSize = 8 := by decide
  have hend : ("\x7d" : String).utf8ByteSize = 1 := by decide
  unfold EntryRecord.json recordOf entrySize
  dsimp only
  simp only [String.utf8ByteSize_append, size_jsonDigest, size_jsonBase64, hpath, hsha, hdata, hend]
  omega

/-- The length of the contents as JSON: the entries, with a comma after each but the last. -/
def contentsSize (entries : List RecoveryEntry) (createdAt : UInt64) : ℕ :=
  47 + (toString createdAt.toNat).utf8ByteSize + (entries.map entrySize).sum + (entries.length - 1)

theorem size_commaSeparated : ∀ texts : List String, (commaSeparated texts).utf8ByteSize =
      (texts.map String.utf8ByteSize).sum + (texts.length - 1)
  | [] => rfl
  | [text] => by simp [commaSeparated]
  | text :: next :: rest => by
    have hcomma : ("," : String).utf8ByteSize = 1 := by decide
    rw [commaSeparated, String.utf8ByteSize_append, String.utf8ByteSize_append,
      size_commaSeparated (next :: rest), hcomma]
    · simp only [map_cons, sum_cons, length_cons]
      omega
    · simp

theorem size_contents (env : ArchiveEnv) (entries : List RecoveryEntry) (createdAt : UInt64) :
    (asBytes (contentsOf env entries createdAt).json).length = contentsSize entries createdAt := by
  have hversion : ("\x7b\"format_version\":" : String).utf8ByteSize = 18 := by decide
  have hone : (toString formatVersion.toNat).utf8ByteSize = 1 := by decide +kernel
  have hcreated : (",\"created_at\":" : String).utf8ByteSize = 14 := by decide
  have hentries : (",\"entries\":[" : String).utf8ByteSize = 12 := by decide
  have hend : ("]\x7d" : String).utf8ByteSize = 2 := by decide
  have hsizes : String.utf8ByteSize ∘ EntryRecord.json ∘ recordOf env = entrySize := by
    funext entry
    exact size_record env entry
  rw [length_asBytes]
  unfold ArchiveContents.json contentsOf contentsSize
  dsimp only
  simp only [String.utf8ByteSize_append, size_commaSeparated, map_map, length_map,
    hversion, hone, hcreated, hentries, hend, hsizes]
  omega

theorem size_envelope {salt nonce : List UInt8} (hsalt : salt.length = saltBytes)
    (hnonce : nonce.length = nonceBytes) (ciphertext : List UInt8) :
    (asBytes (envelopeOf salt nonce ciphertext).json).length =
      177 + (4 * ciphertext.length + 2) / 3 := by
  have hversion : ("\x7b\"format_version\":" : String).utf8ByteSize = 18 := by decide
  have hone : (toString formatVersion.toNat).utf8ByteSize = 1 := by decide +kernel
  have halgorithm : (",\"algorithm\":" : String).utf8ByteSize = 13 := by decide
  have hcipher : (jsonString "xchacha20poly1305").utf8ByteSize = 19 := by decide +kernel
  have hkdf : (",\"kdf\":" : String).utf8ByteSize = 7 := by decide
  have hargon : (jsonString "argon2id-v19-m65536-t3-p1").utf8ByteSize = 27 := by decide +kernel
  have hsaltKey : (",\"salt\":" : String).utf8ByteSize = 8 := by decide
  have hnonceKey : (",\"nonce\":" : String).utf8ByteSize = 9 := by decide
  have htext : (",\"ciphertext\":" : String).utf8ByteSize = 14 := by decide
  have hend : ("\x7d" : String).utf8ByteSize = 1 := by decide
  rw [length_asBytes]
  unfold ArchiveEnvelope.json envelopeOf
  dsimp only
  simp only [String.utf8ByteSize_append, size_jsonBase64, hversion, hone, halgorithm, hcipher, hkdf,
    hargon, hsaltKey, hnonceKey, htext, hend, hsalt, hnonce]
  unfold saltBytes nonceBytes
  omega

/-! ### The entries -/

theorem RecoveryEntry.new_self (entry : RecoveryEntry) :
    RecoveryEntry.new entry.path entry.bytes = .ok entry := by
  unfold RecoveryEntry.new
  split
  · rename_i error h
    rw [entry.valid] at h
    cases h
  · rw [dif_pos entry.small]

theorem nodup_of_foldlM : ∀ {entries : List RecoveryEntry} {seen : List String} {total : ℕ}
    {result : List String × ℕ}, entries.foldlM validateEntry (seen, total) = .ok result →
      (entries.map (·.path)).Nodup ∧ ∀ entry ∈ entries, entry.path ∉ seen
  | [], _, _, _, _ => ⟨nodup_nil, fun _ h => absurd h not_mem_nil⟩
  | entry :: rest, seen, total, result, h => by
    rw [foldlM_cons, bind_eq_ok] at h
    obtain ⟨state, hentry, hrest⟩ := h
    unfold validateEntry at hentry
    simp only [bind_eq_ok, ensure_eq_ok, pure_eq_ok, exists_const] at hentry
    obtain ⟨⟨⟩, -, hnew, sum, -, rfl⟩ := hentry
    obtain ⟨hnodup, hseen⟩ := nodup_of_foldlM hrest
    constructor
    · rw [map_cons, nodup_cons]
      refine ⟨fun hmem => ?_, hnodup⟩
      obtain ⟨other, hother, hpath⟩ := mem_map.mp hmem
      exact hseen other hother (by rw [hpath]; exact mem_cons_self)
    · intro other hother
      rcases mem_cons.mp hother with rfl | hother
      · exact hnew
      · exact fun hmem => hseen other hother (mem_cons_of_mem _ hmem)

theorem fresh_cons {entry : RecoveryEntry} {rest : List RecoveryEntry} {seen : List String}
    (hhead : entry.path ∉ rest.map (·.path)) (hseen : ∀ other ∈ entry :: rest, other.path ∉ seen) :
    ∀ other ∈ rest, other.path ∉ entry.path :: seen := by
  intro other hother hmem
  rcases mem_cons.mp hmem with hpath | hmem
  · exact hhead (mem_map.mpr ⟨other, hother, hpath⟩)
  · exact hseen other (mem_cons_of_mem _ hother) hmem

theorem validateEntries_foldlM : ∀ {entries : List RecoveryEntry} {seen : List String} {total : ℕ},
    (entries.map (·.path)).Nodup → (∀ entry ∈ entries, entry.path ∉ seen) →
      total + (entries.map (·.bytes.length)).sum ≤ maxArchiveBytes →
      ∃ paths, entries.foldlM validateEntry (seen, total) =
        .ok (paths, total + (entries.map (·.bytes.length)).sum)
  | [], seen, _, _, _, _ => ⟨seen, rfl⟩
  | entry :: rest, seen, total, hnodup, hseen, hsum => by
    rw [map_cons, nodup_cons] at hnodup
    rw [map_cons, sum_cons, ← Nat.add_assoc] at hsum ⊢
    obtain ⟨hhead, hnodup⟩ := hnodup
    obtain ⟨paths, hrest⟩ := validateEntries_foldlM hnodup (fresh_cons hhead hseen) hsum
    have hadd : checkedAdd total entry.bytes.length = some (total + entry.bytes.length) := by
      unfold maxArchiveBytes at hsum
      exact if_pos (by omega)
    have hentry : validateEntry (seen, total) entry =
        .ok (entry.path :: seen, total + entry.bytes.length) := by
      unfold validateEntry
      simp only [bind_eq_ok, ensure_eq_ok, orError_eq_ok, pure_eq_ok, exists_const, hadd,
        Option.some.injEq, exists_eq_left']
      exact ⟨⟨⟩, entry.valid, hseen entry mem_cons_self, trivial⟩
    refine ⟨paths, ?_⟩
    rw [foldlM_cons, hentry, ok_bind, hrest]

theorem validateEntries_of_nodup (hcount : entries.length ≤ maxEntries)
    (hnodup : (entries.map (·.path)).Nodup)
    (hsum : (entries.map (·.bytes.length)).sum ≤ maxArchiveBytes) :
    validateEntries entries = .ok () := by
  obtain ⟨paths, hfold⟩ := @validateEntries_foldlM entries [] 0 hnodup
    (fun _ _ => not_mem_nil) (by omega)
  unfold validateEntries
  simp only [bind_eq_ok, ensure_eq_ok, exists_const]
  exact ⟨hcount, _, hfold, by omega⟩

theorem openRecord_recordOf {state : List String × List RecoveryEntry} {entry : RecoveryEntry}
    (h : entry.path ∉ state.1) :
    openRecord env state (recordOf env entry) =
      .ok (entry.path :: state.1, state.2 ++ [entry]) := by
  have hdecode : decodeBase64 (encodeBase64 entry.bytes) = some entry.bytes := by
    unfold decodeBase64
    rw [toList_encodeBase64, Base64.decode_encode]
  unfold openRecord recordOf
  simp only [bind_eq_ok, ensure_eq_ok, orError_eq_ok, pure_eq_ok, exists_const, hdecode,
    Option.some.injEq, exists_eq_left', RecoveryEntry.new_self, Except.ok.injEq]
  exact ⟨⟨⟩, entry.valid, h, ⟨entry.small, trivial⟩, trivial⟩

theorem openRecords_recordOf : ∀ {entries : List RecoveryEntry}
    {state : List String × List RecoveryEntry}, (entries.map (·.path)).Nodup →
      (∀ entry ∈ entries, entry.path ∉ state.1) →
      ∃ paths, (entries.map (recordOf env)).foldlM (openRecord env) state =
        .ok (paths, state.2 ++ entries)
  | [], state, _, _ => ⟨state.1, by rw [append_nil]; rfl⟩
  | entry :: rest, state, hnodup, hseen => by
    rw [map_cons, nodup_cons] at hnodup
    obtain ⟨hhead, hnodup⟩ := hnodup
    obtain ⟨paths, hrest⟩ := @openRecords_recordOf rest
      (entry.path :: state.1, state.2 ++ [entry]) hnodup (fresh_cons hhead hseen)
    refine ⟨paths, ?_⟩
    rw [map_cons, foldlM_cons, openRecord_recordOf (hseen entry mem_cons_self),
      ok_bind, hrest, append_assoc]
    rfl

/-! ### The archive -/

/-- The libraries give back what they were given: JSON is read as it was written, and the cipher
decrypts what it encrypted, which is sixteen bytes longer. -/
structure Exact (env : ArchiveEnv) (random : Randomness) (contents : ArchiveContents) : Prop where
  contents : env.readContents (asBytes contents.json) = some contents
  envelope : ∀ salt ∈ random.salt, ∀ nonce ∈ random.nonce, ∀ ciphertext,
    env.readEnvelope (asBytes (envelopeOf salt.1 nonce.1 ciphertext).json) =
      some (envelopeOf salt.1 nonce.1 ciphertext)
  cipher : ∀ key nonce message ciphertext, env.encrypt key nonce message = some ciphertext →
    env.decrypt key nonce ciphertext = some message ∧ ciphertext.length = message.length + 16

theorem decodeFixed_encodeBase64 {n : ℕ} (h : bytes.length = n) :
    decodeFixed n (encodeBase64 bytes) = .ok bytes := by
  unfold decodeFixed decodeBase64
  rw [toList_encodeBase64, Base64.decode_encode]
  simp only [bind_eq_ok, orError_eq_ok, ensure_eq_ok, exists_const, pure_eq_ok, Option.some.injEq,
    exists_eq_left']
  exact ⟨h, trivial⟩

theorem sealed_length (hexact : Exact env random (contentsOf env entries createdAt))
    (hseal : sealArchive env random entries passphrase createdAt = .ok bytes) :
    bytes.length = 177 + (4 * (contentsSize entries createdAt + 16) + 2) / 3 := by
  unfold sealArchive at hseal
  simp only [bind_eq_ok, ensure_eq_ok, orError_eq_ok, pure_eq_ok, exists_const] at hseal
  obtain ⟨⟨⟩, -, ⟨⟩, -, -, salt, -, nonce, -, key, -, ciphertext, hcipher, rfl⟩ := hseal
  rw [size_envelope salt.2 nonce.2 ciphertext, (hexact.cipher _ _ _ _ hcipher).2, size_contents]

theorem open_tooLarge (hlarge : maxArchiveBytes < bytes.length)
    (hpassphrase : validatePassphrase passphrase = .ok ()) :
    openArchive env bytes passphrase = .error .tooLarge := by
  unfold openArchive
  rw [hpassphrase, ok_bind]
  refine bind_eq_error.mpr (Or.inl ?_)
  exact ensure_eq_error.mpr ⟨by omega, rfl⟩

/-- An archive that was sealed is opened, with what was sealed, exactly if its contents have at most
100663147 bytes as JSON; the envelope is then within the limit. -/
theorem sealed_archive_opens (hexact : Exact env random (contentsOf env entries createdAt))
    (hseal : sealArchive env random entries passphrase createdAt = .ok bytes) :
    openArchive env bytes passphrase = .ok ⟨createdAt, entries⟩ ↔
      contentsSize entries createdAt ≤ 100663147 := by
  unfold sealArchive at hseal
  simp only [bind_eq_ok, ensure_eq_ok, orError_eq_ok, pure_eq_ok, exists_const] at hseal
  obtain ⟨⟨⟩, hpassphrase, ⟨⟩, hentries, -, salt, hsalt, nonce, hnonce, key, hkey,
    ciphertext, hcipher, rfl⟩ := hseal
  obtain ⟨hdecrypt, hlength⟩ := hexact.cipher _ _ _ _ hcipher
  have hsize := size_envelope salt.2 nonce.2 ciphertext
  rw [hlength, size_contents] at hsize
  rw [size_contents] at hlength
  unfold openArchive
  simp only [bind_eq_ok, ensure_eq_ok, orError_eq_ok, pure_eq_ok, exists_const, hpassphrase,
    true_and]
  constructor
  · rintro ⟨hfits, -⟩
    unfold maxArchiveBytes at hfits
    omega
  · intro hfits
    have hcount : entries.length ≤ maxEntries ∧ (entries.map (·.path)).Nodup := by
      unfold validateEntries at hentries
      simp only [bind_eq_ok, ensure_eq_ok, exists_const] at hentries
      obtain ⟨hlength, state, hfold, -⟩ := hentries
      exact ⟨hlength, (nodup_of_foldlM hfold).1⟩
    obtain ⟨paths, hopen⟩ := @openRecords_recordOf env entries ([], []) hcount.2
      fun _ _ => not_mem_nil
    refine ⟨?_, _, hexact.envelope salt hsalt nonce hnonce ciphertext, ⟨rfl, rfl, rfl⟩, salt.1,
      decodeFixed_encodeBase64 salt.2, nonce.1, decodeFixed_encodeBase64 nonce.2, ciphertext,
        ?_, ?_,
      key, hkey, _, hdecrypt, _, hexact.contents, ⟨rfl, ?_⟩, (paths, entries), hopen,
        ⟨⟩, hentries, rfl⟩
    · unfold maxArchiveBytes
      omega
    · show decodeBase64 (encodeBase64 ciphertext) = some ciphertext
      unfold decodeBase64
      rw [toList_encodeBase64, Base64.decode_encode]
    · unfold maxArchiveBytes
      omega
    · show (entries.map (recordOf env)).length ≤ maxEntries
      rw [length_map]
      exact hcount.1

/-! ### Two archives

The first is small; the second has eighty megabytes in two files. The libraries stand in for the
real ones on these archives: the cipher adds sixteen bytes, and JSON is read where it was
written. -/

@[irreducible] def zeros (n : ℕ) : List UInt8 := List.replicate n 0

theorem length_zeros (n : ℕ) : (zeros n).length = n := by
  unfold zeros
  exact length_replicate

def sampleRandom : Randomness :=
  ⟨some ⟨zeros 16, length_zeros 16⟩, some ⟨zeros 24, length_zeros 24⟩⟩

/-- The envelope before its ciphertext. -/
def sampleFront : String :=
  "\x7b\"format_version\":" ++ toString formatVersion.toNat ++ ",\"algorithm\":" ++
    jsonString "xchacha20poly1305" ++ ",\"kdf\":" ++ jsonString "argon2id-v19-m65536-t3-p1" ++
    ",\"salt\":" ++ jsonString (encodeBase64 (zeros 16)) ++ ",\"nonce\":" ++
    jsonString (encodeBase64 (zeros 24)) ++ ",\"ciphertext\":" ++ "\""

@[irreducible] def sampleReadEnvelope (bytes : List UInt8) : Option ArchiveEnvelope :=
  let text := (bytes.drop (asBytes sampleFront).length).dropLast.dropLast
  (String.fromUTF8? ⟨⟨text⟩⟩).map fun ciphertext =>
    { envelopeOf (zeros 16) (zeros 24) [] with ciphertext }

theorem sampleReadEnvelope_json (ciphertext : List UInt8) :
    sampleReadEnvelope (asBytes (envelopeOf (zeros 16) (zeros 24) ciphertext).json) =
      some (envelopeOf (zeros 16) (zeros 24) ciphertext) := by
  have hjson : (envelopeOf (zeros 16) (zeros 24) ciphertext).json =
      sampleFront ++ (encodeBase64 ciphertext ++ ("\"" ++ "\x7d")) := by
    unfold ArchiveEnvelope.json envelopeOf sampleFront
    dsimp only
    rw [jsonString_plain (fun c hc => (@plain_encodeBase64 ciphertext c hc).1)]
    simp only [String.append_assoc]
  have hend : asBytes ("\"" ++ "\x7d") = [34, 125] := by decide
  have hback : ((asBytes (encodeBase64 ciphertext) ++ [34, 125]).dropLast).dropLast =
      asBytes (encodeBase64 ciphertext) := by simp
  unfold sampleReadEnvelope
  rw [hjson, asBytes_append, asBytes_append, drop_left, hend, hback]
  have hvalid : (⟨⟨asBytes (encodeBase64 ciphertext)⟩⟩ : ByteArray).IsValidUTF8 :=
    (encodeBase64 ciphertext).isValidUTF8
  unfold String.fromUTF8?
  dsimp only
  rw [dif_pos hvalid]
  rfl

def sampleSha : Sha256 := fun _ => ⟨zeros 32, length_zeros 32⟩

/-- The libraries for an archive of these entries. -/
def sampleEnv (entries : List RecoveryEntry) : ArchiveEnv where
  sha := sampleSha
  hashPassword := fun _ _ => some ⟨zeros 32, length_zeros 32⟩
  encrypt := fun _ _ message => some (message ++ zeros 16)
  decrypt := fun _ _ ciphertext => some (ciphertext.take (ciphertext.length - 16))
  readContents := fun _ => some
    { formatVersion, createdAt := 10, entries := entries.map fun entry =>
      { path := entry.path, sha256 := digest sampleSha entry.bytes,
        data := encodeBase64 entry.bytes } }
  readEnvelope := sampleReadEnvelope

theorem sample_exact (entries : List RecoveryEntry) :
    Exact (sampleEnv entries) sampleRandom (contentsOf (sampleEnv entries) entries 10) where
  contents := by
    show some _ = some _
    unfold contentsOf recordOf
    rfl
  envelope := by
    intro salt hsalt nonce hnonce ciphertext
    have hsalt : zeros 16 = salt.1 := by rw [← Option.some.inj hsalt]
    have hnonce : zeros 24 = nonce.1 := by rw [← Option.some.inj hnonce]
    rw [← hsalt, ← hnonce]
    exact sampleReadEnvelope_json ciphertext
  cipher := by
    intro key nonce message ciphertext hcipher
    obtain rfl : message ++ zeros 16 = ciphertext := Option.some.inj hcipher
    constructor
    · show some ((message ++ zeros 16).take ((message ++ zeros 16).length - 16)) = some message
      rw [length_append, length_zeros, Nat.add_sub_cancel, take_left]
    · rw [length_append, length_zeros]

/-- What the checks of `seal` ask of the entries is enough here. -/
theorem sample_sealed {entries : List RecoveryEntry} (hcount : entries.length ≤ maxEntries)
    (hnodup : (entries.map (·.path)).Nodup)
    (hsum : (entries.map (·.bytes.length)).sum ≤ maxArchiveBytes)
    (hsize : contentsSize entries 10 ≤ maxArchiveBytes) :
    ∃ bytes, sealArchive (sampleEnv entries) sampleRandom entries "correct horse battery staple"
      10 =
      .ok bytes := by
  have hpass : validatePassphrase "correct horse battery staple" = .ok () := by decide
  have hkey : deriveKey (sampleEnv entries) "correct horse battery staple" (zeros 16) =
      .ok ⟨zeros 32, length_zeros 32⟩ := by
    unfold deriveKey
    rw [hpass]
    rfl
  unfold sealArchive
  simp only [bind_eq_ok, ensure_eq_ok, orError_eq_ok, pure_eq_ok, exists_const]
  exact ⟨_, ⟨⟩, hpass, ⟨⟩, validateEntries_of_nodup hcount hnodup hsum,
    by rw [size_contents]; exact hsize, ⟨zeros 16, length_zeros 16⟩, rfl,
      ⟨zeros 24, length_zeros 24⟩, rfl, _, hkey, _, rfl,
    rfl⟩

theorem a_valid : validatePath "data/a" = .ok () := by decide +kernel

theorem b_valid : validatePath "data/b" = .ok () := by decide +kernel

def twoEntries (data : List UInt8) (hsmall : data.length ≤ maxEntryBytes) : List RecoveryEntry :=
  [⟨"data/a", data, a_valid, hsmall⟩, ⟨"data/b", data, b_valid, hsmall⟩]

theorem size_twoEntries {data : List UInt8} (hsmall : data.length ≤ maxEntryBytes) :
    contentsSize (twoEntries data hsmall) 10 = 270 + 2 * ((4 * data.length + 2) / 3) := by
  have ha : (jsonString "data/a").utf8ByteSize = 8 := by decide +kernel
  have hb : (jsonString "data/b").utf8ByteSize = 8 := by decide +kernel
  have htime : (toString (10 : UInt64).toNat).utf8ByteSize = 2 := by decide +kernel
  unfold contentsSize twoEntries entrySize
  simp only [map_cons, map_nil, sum_cons, sum_nil, length_cons,
    length_nil, ha, hb, htime]
  omega

theorem twoEntries_sealed {data : List UInt8} (hsmall : data.length ≤ maxEntryBytes)
    (hsize : contentsSize (twoEntries data hsmall) 10 ≤ maxArchiveBytes) :
    ∃ bytes, sealArchive (sampleEnv (twoEntries data hsmall)) sampleRandom (twoEntries data hsmall)
      "correct horse battery staple" 10 = .ok bytes := by
  refine sample_sealed (show 2 ≤ maxEntries by decide) ?_ ?_ hsize
  · show ["data/a", "data/b"].Nodup
    decide
  · show data.length + (data.length + 0) ≤ maxArchiveBytes
    unfold maxEntryBytes at hsmall
    unfold maxArchiveBytes
    omega

theorem zeros_small : (zeros 41943040).length ≤ maxEntryBytes := by
  rw [length_zeros]
  decide

theorem sealed_archive_opens_small :
    ∃ bytes, openArchive (sampleEnv (twoEntries [115] (by decide))) bytes
      "correct horse battery staple" = .ok ⟨10, twoEntries [115] (by decide)⟩ := by
  have hsize : contentsSize (twoEntries [115] (by decide)) 10 = 274 := size_twoEntries _
  obtain ⟨bytes, hseal⟩ := @twoEntries_sealed [115] (by decide) (by rw [hsize]; decide)
  refine ⟨bytes, (sealed_archive_opens (sample_exact _) hseal).mpr ?_⟩
  rw [hsize]
  decide

/-- Eighty megabytes are sealed, and the archive is too large to be opened. -/
theorem sealed_archive_too_large :
    Exact (sampleEnv (twoEntries (zeros 41943040) zeros_small)) sampleRandom
      (contentsOf (sampleEnv (twoEntries (zeros 41943040) zeros_small))
        (twoEntries (zeros 41943040) zeros_small) 10) ∧
    ∃ bytes, sealArchive (sampleEnv (twoEntries (zeros 41943040) zeros_small)) sampleRandom
        (twoEntries (zeros 41943040) zeros_small) "correct horse battery staple" 10 = .ok bytes ∧
      openArchive (sampleEnv (twoEntries (zeros 41943040) zeros_small)) bytes
        "correct horse battery staple" = .error .tooLarge := by
  have hsize : contentsSize (twoEntries (zeros 41943040) zeros_small) 10 = 111848378 := by
    rw [size_twoEntries, length_zeros]
  obtain ⟨bytes, hseal⟩ := twoEntries_sealed zeros_small (by rw [hsize]; decide)
  have hlength := sealed_length (sample_exact _) hseal
  refine ⟨sample_exact _, bytes, hseal, ?_⟩
  exact open_tooLarge (by rw [hlength, hsize]; decide) (by decide)

end Pandora.Backup.Sealing
