import Bchat.Messages.Group

/-!
# Group messages open again

A member who has the key of a group message and the public key of the group gets the message back,
unless it is empty: an empty message is sent, and refused by everyone who receives it.
-/

namespace Bchat.Messages

open Config Groups Bencode List Nat

variable {na : Sodium} {xPk : Key} {nonce : Nonce} {ciphertext : Bytes} {keys : List Bytes}
  {r : DecryptGroupMessage}

/-! ## The dict under the zeros -/

lemma removeNulls_append_replicate {l : Bytes} {b : UInt8} (hb : b ≠ 0) (n : Nat) :
    removeNulls (l ++ [b] ++ List.replicate n 0) = l ++ [b] := by
  have hne : ¬((l ++ [b] ++ replicate n 0).all (· == 0)) := by simp [hb]
  rw [removeNulls, if_neg hne]
  induction n with
  | zero => simp [hb]
  | succ n ih =>
    rw [replicate_succ', ← append_assoc, rdropWhile_concat_pos _ _ _ (by rfl)]
    exact ih (by simp [hb])

section

lemma readGroupBody_encodeDict (d : BtDict) (n : Nat) :
    readGroupBody na (encodeDict d ++ List.replicate n 0) = readGroupPairs na true d := by
  have henc : encodeDict d = (ascii 'd' :: encodePairs d) ++ [ascii 'e'] := rfl
  have hplain : removeNulls (encodeDict d ++ replicate n 0) = encodeDict d := by
    rw [henc, removeNulls_append_replicate (by decide)]
  have hends : ¬((encodeDict d).head? ≠ some (ascii 'd') ∨
      (encodeDict d).getLast? ≠ some (ascii 'e')) := by
    rw [henc, getLast?_concat]
    simp
  unfold readGroupBody
  rw [hplain, if_neg hends, readDict_encodeDict]

variable {edPk : Key}

lemma readGroupPairs_groupDict (hx : na.pkToCurve edPk = some xPk) {data : Bytes}
    (hdata : data ≠ []) (compressed : Bool) (edSig : Signature) :
    readGroupPairs na true (groupDict edPk data compressed edSig) =
      .ok ⟨edPk, bchatIdOf xPk, data, compressed, edSig⟩ := by
  have hds : bytes "d" < bytes "s" := by decide
  cases compressed with
  | true =>
    simp [readGroupPairs, groupDict, readVersion, readAuthor, readUncompressed, readSignature,
      readCompressed, seek_cons_self, seek_closed_of_lt hds, ok_bind, edPk.2, edSig.2, hx, hdata]
  | false =>
    have hend : seek true (bytes "z") [] = .ok (none, []) := rfl
    simp [readGroupPairs, groupDict, readVersion, readAuthor, readUncompressed, readSignature,
      readCompressed, seek_cons_self, hend, ok_bind, edPk.2, edSig.2, hx, hdata]

lemma readGroupPairs_empty (hx : na.pkToCurve edPk = some xPk) (edSig : Signature) :
    readGroupPairs na true (groupDict edPk [] false edSig) =
      .error (.runtime "uncompressed message data (\"d\") cannot be empty") := by
  simp [readGroupPairs, groupDict, readVersion, readAuthor, readUncompressed, seek_cons_self,
    ok_bind, edPk.2, hx]
  rfl

end

/-! ## The loop over the keys -/

section

variable {plain : Bytes}

lemma exists_key_of_openWithKeys {start index : Nat}
    (h : openWithKeys na nonce ciphertext start keys = .ok (index, plain)) :
    ∃ k ∈ keys, ∃ key, encKey k = some key ∧ na.aeadDecrypt key nonce ciphertext = some plain := by
  induction keys generalizing start with
  | nil => cases h
  | cons privkey rest ih =>
    rw [openWithKeys] at h
    split at h
    · cases h
    rename_i key hkey
    split at h
    · next hplain =>
      cases h
      exact ⟨privkey, mem_cons_self, key, hkey, hplain⟩
    · obtain ⟨k, hk, hopen⟩ := ih h
      exact ⟨k, mem_cons_of_mem _ hk, hopen⟩

lemma openWithKeys_spec {key : Key} (hkey : na.aeadDecrypt key nonce ciphertext = some plain)
    (hother : ∀ k, k ≠ key → na.aeadDecrypt k nonce ciphertext = none)
    (hkeys : ∀ k ∈ keys, (encKey k).isSome) (hmem : ∃ k ∈ keys, encKey k = some key) (start : Nat) :
    ∃ i, openWithKeys na nonce ciphertext start keys = .ok (start + i, plain) ∧
      keys[i]?.bind encKey = some key := by
  induction keys generalizing start with
  | nil => simp at hmem
  | cons privkey rest ih =>
    obtain ⟨k, hk⟩ := Option.isSome_iff_exists.mp (hkeys privkey mem_cons_self)
    rw [openWithKeys, hk]
    by_cases heq : k = key
    · rw [heq] at hk ⊢
      refine ⟨0, ?_, by simp [hk]⟩
      dsimp only
      rw [hkey]
      rfl
    have hrest : ∃ k ∈ rest, encKey k = some key := by
      obtain ⟨k', hk', henc⟩ := hmem
      rcases mem_cons.mp hk' with rfl | hk'
      · exact absurd (Option.some.inj (hk.symm.trans henc)) heq
      · exact ⟨k', hk', henc⟩
    obtain ⟨i, hopen, hi⟩ := ih (fun k hk => hkeys k (mem_cons_of_mem _ hk)) hrest (start + 1)
    refine ⟨i + 1, ?_, by simpa using hi⟩
    dsimp only
    rw [hother k heq]
    rw [hopen, add_assoc, add_comm 1]

end

/-! ## Both ends -/

/-- What is needed of a signature: it is valid for the text it was made for, and for no other. -/
structure Signs (na : Sodium) (sk : SecretKey) (m : Bytes) : Prop where
  accepts : na.verify sk.pk m (na.sign sk m) = true
  only : ∀ m', na.verify sk.pk m' (na.sign sk m) = true → m' = m

/-- What is encrypted: the dict and the zeros after it. -/
def groupPlain (na : Sodium) (zstd : Zstd) (sk : SecretKey) (groupPk plaintext : Bytes)
    (compress : Bool) (padding : Nat) : Bytes :=
  let d := groupData zstd compress plaintext
  let encoded := encodeDict (groupDict sk.pk d.1 d.2 (na.sign sk (d.1 ++ groupPk)))
  encoded ++ List.replicate (groupPadding padding encoded.length) 0

section

variable {zstd : Zstd} {userPrivkey groupPk groupEncKey plaintext : Bytes} {compress : Bool}
  {padding : Nat} {sk : SecretKey} {key : Key}

lemma encryptForGroup_spec (hsk : fullSecretKey na userPrivkey = some sk)
    (hkey : encKey groupEncKey = some key)
    (h : encryptForGroup na zstd userPrivkey groupPk groupEncKey plaintext compress padding nonce =
      .ok ciphertext) : plaintext.length ≤ groupsMaxPlaintextMessageSize ∧ groupPk.length = 32 ∧
      ciphertext = nonce.val ++
        na.aeadEncrypt key nonce (groupPlain na zstd sk groupPk plaintext compress padding) := by
  rw [encryptForGroup, hsk, hkey] at h
  split at h
  · cases h
  rename_i hsize
  dsimp only at h
  split at h
  · cases h
  rename_i hpk
  cases h
  exact ⟨not_lt.mp hsize, not_not.mp hpk, rfl⟩

lemma dvd_add_groupPadding (hpadding : 1 < padding) (size : Nat) :
    padding ∣ groupsEncryptOverhead + size + groupPadding padding size := by
  unfold groupPadding
  dsimp only
  split
  · next h =>
    have hlt := mod_lt (groupsEncryptOverhead + size) (by omega : 0 < padding)
    have hsum := div_add_mod (groupsEncryptOverhead + size) padding
    refine ⟨(groupsEncryptOverhead + size) / padding + 1, ?_⟩
    rw [mul_succ]
    omega
  · next h => exact dvd_of_mod_eq_zero (not_not.mp (fun hne => h ⟨hpadding, hne⟩))

lemma dvd_length_ciphertext (hpadding : 1 < padding) :
    padding ∣ (nonce.val ++ na.aeadEncrypt key nonce
      (groupPlain na zstd sk groupPk plaintext compress padding)).length := by
  unfold groupPlain
  rw [length_append, nonce.2, na.aeadEncrypt_length, length_append, length_replicate]
  generalize (encodeDict _).length = size
  have hlen : 24 + (size + groupPadding padding size + 16) =
      groupsEncryptOverhead + size + groupPadding padding size := by
    unfold groupsEncryptOverhead aeadOverhead
    omega
  rw [hlen]
  exact dvd_add_groupPadding hpadding size

lemma groupData_eq_nil_iff (hzstd : zstd.compress 1 plaintext ≠ []) :
    (groupData zstd compress plaintext).1 = [] ↔ plaintext = [] := by
  unfold groupData
  split
  · next h =>
    have hne : plaintext ≠ [] := by
      rintro rfl
      exact absurd h.2 (not_lt_zero _)
    simp [hzstd, hne]
  · rfl

lemma inflateBody_groupData (hsize : plaintext.length ≤ groupsMaxPlaintextMessageSize)
    (edPk : Key) (id : Bytes) (edSig : Signature) :
    inflateBody zstd ⟨edPk, id, (groupData zstd compress plaintext).1,
      (groupData zstd compress plaintext).2, edSig⟩ = .ok plaintext := by
  have hlimit : ¬(0 < groupsMaxPlaintextMessageSize ∧
      groupsMaxPlaintextMessageSize < plaintext.length) := fun h => absurd h.2 (not_lt.mpr hsize)
  unfold groupData
  split
  · simp [inflateBody, zstdDecompress, zstd.decompress_compress, hlimit]
  · simp [inflateBody]

lemma readGroupBody_groupPlain (hx : na.pkToCurve sk.pk = some xPk)
    (hdata : (groupData zstd compress plaintext).1 ≠ []) :
    readGroupBody na (groupPlain na zstd sk groupPk plaintext compress padding) =
      .ok ⟨sk.pk, bchatIdOf xPk, (groupData zstd compress plaintext).1,
        (groupData zstd compress plaintext).2,
        na.sign sk ((groupData zstd compress plaintext).1 ++ groupPk)⟩ :=
  (readGroupBody_encodeDict _ _).trans (readGroupPairs_groupDict hx hdata _ _)

lemma readGroupBody_groupPlain_nil (hx : na.pkToCurve sk.pk = some xPk) :
    readGroupBody na (groupPlain na zstd sk groupPk [] compress padding) =
      .error (.runtime "uncompressed message data (\"d\") cannot be empty") := by
  have hdata : groupData zstd compress [] = ([], false) := by simp [groupData]
  unfold groupPlain
  rw [hdata, readGroupBody_encodeDict, readGroupPairs_empty hx]

lemma decryptGroupMessage_append {c : Bytes} (hc : 16 ≤ c.length) {groupPk' : Bytes}
    (hpk : groupPk'.length = 32) (keys : List Bytes) :
    decryptGroupMessage na zstd keys groupPk' (nonce.val ++ c) =
      openWithKeys na nonce c 0 keys >>= fun r => readGroupMessage na zstd groupPk' r.1 r.2 := by
  have hsize : ¬(nonce.val ++ c).length < groupsEncryptOverhead := by
    rw [length_append, nonce.2]
    unfold groupsEncryptOverhead aeadOverhead
    omega
  have hnonce : (⟨(nonce.val ++ c).take 24, by simp [nonce.2]⟩ : Nonce) = nonce :=
    Subtype.ext (take_left' nonce.2)
  rw [decryptGroupMessage, dif_neg hsize, if_neg (not_not.mpr hpk)]
  rw [hnonce, drop_left' nonce.2]

lemma readGroupMessage_eq_ok {index : Nat} {opened : Bytes}
    (h : readGroupMessage na zstd groupPk index opened = .ok r) :
    ∃ body, readGroupBody na opened = .ok body ∧
      na.verify body.edPk (body.rawData ++ groupPk) body.edSig = true ∧
      r.bchatId = body.bchatId ∧ inflateBody zstd body = .ok r.plaintext := by
  obtain ⟨body, hbody, h⟩ := bind_eq_ok.mp h
  split at h
  · next hverify =>
    obtain ⟨data, hdata, h⟩ := bind_eq_ok.mp h
    cases h
    exact ⟨body, hbody, hverify, rfl, hdata⟩
  · cases h

lemma readGroupMessage_groupPlain (hx : na.pkToCurve sk.pk = some xPk)
    (hsize : plaintext.length ≤ groupsMaxPlaintextMessageSize)
    (hdata : (groupData zstd compress plaintext).1 ≠ [])
    (hsign : na.verify sk.pk ((groupData zstd compress plaintext).1 ++ groupPk)
      (na.sign sk ((groupData zstd compress plaintext).1 ++ groupPk)) = true) (index : Nat) :
    readGroupMessage na zstd groupPk index
        (groupPlain na zstd sk groupPk plaintext compress padding) =
      .ok ⟨index, bchatIdOf xPk, plaintext⟩ := by
  rw [readGroupMessage, readGroupBody_groupPlain hx hdata, ok_bind, if_pos hsign,
    inflateBody_groupData hsize, ok_bind]

lemma readGroupMessage_other_group (hx : na.pkToCurve sk.pk = some xPk)
    (hzstd : zstd.compress 1 plaintext ≠ [])
    (hsign : Signs na sk ((groupData zstd compress plaintext).1 ++ groupPk))
    {groupPk' : Bytes} (hne : groupPk' ≠ groupPk) (index : Nat) (r : DecryptGroupMessage) :
    readGroupMessage na zstd groupPk' index
      (groupPlain na zstd sk groupPk plaintext compress padding) ≠ .ok r := by
  intro h
  obtain ⟨body, hbody, hverify, -⟩ := readGroupMessage_eq_ok h
  by_cases hnil : plaintext = []
  · subst hnil
    rw [readGroupBody_groupPlain_nil hx] at hbody
    cases hbody
  rw [readGroupBody_groupPlain hx (mt (groupData_eq_nil_iff hzstd).mp hnil)] at hbody
  cases hbody
  exact hne (append_cancel_left (hsign.only _ hverify))

def OnlyKey (na : Sodium) (key : Key) (nonce : Nonce) : Prop :=
  ∀ k, k ≠ key → ∀ m, na.aeadDecrypt k nonce (na.aeadEncrypt key nonce m) = none

lemma decryptGroupMessage_groupPlain (hx : na.pkToCurve sk.pk = some xPk)
    (hsize : plaintext.length ≤ groupsMaxPlaintextMessageSize) (hpk : groupPk.length = 32)
    (hzstd : zstd.compress 1 plaintext ≠ []) (hne : plaintext ≠ [])
    (hsign : na.verify sk.pk ((groupData zstd compress plaintext).1 ++ groupPk)
      (na.sign sk ((groupData zstd compress plaintext).1 ++ groupPk)) = true)
    (honly : OnlyKey na key nonce) (hkeys : ∀ k ∈ keys, (encKey k).isSome)
    (hmem : ∃ k ∈ keys, encKey k = some key) : ∃ index, keys[index]?.bind encKey = some key ∧
      decryptGroupMessage na zstd keys groupPk (nonce.val ++
        na.aeadEncrypt key nonce (groupPlain na zstd sk groupPk plaintext compress padding)) =
        .ok ⟨index, bchatIdOf xPk, plaintext⟩ := by
  obtain ⟨index, hfound, hindex⟩ := openWithKeys_spec (na.aeadDecrypt_encrypt key nonce _)
    (fun k hk => honly k hk _) hkeys hmem 0
  refine ⟨index, hindex, ?_⟩
  have hlen := (na.aeadEncrypt_length key nonce
    (groupPlain na zstd sk groupPk plaintext compress padding)).ge
  rw [decryptGroupMessage_append (by omega) hpk, hfound, ok_bind, zero_add]
  exact readGroupMessage_groupPlain hx hsize (mt (groupData_eq_nil_iff hzstd).mp hne) hsign index

def Carries (na : Sodium) (keys : List Bytes) (ciphertext : Bytes) (body : GroupBody) : Prop :=
  ∃ k ∈ keys, ∃ key nonce opened, encKey k = some key ∧ nonce.val = ciphertext.take 24 ∧
    na.aeadDecrypt key nonce (ciphertext.drop 24) = some opened ∧
    readGroupBody na opened = .ok body

lemma exists_body_of_decryptGroupMessage
    (h : decryptGroupMessage na zstd keys groupPk ciphertext = .ok r) :
    ∃ body, Carries na keys ciphertext body ∧
      na.verify body.edPk (body.rawData ++ groupPk) body.edSig = true ∧
      r.bchatId = body.bchatId ∧ inflateBody zstd body = .ok r.plaintext := by
  unfold decryptGroupMessage at h
  split at h
  · cases h
  split at h
  · cases h
  obtain ⟨⟨index, opened⟩, hopen, h⟩ := bind_eq_ok.mp h
  obtain ⟨k, hk, key, hkey, hdec⟩ := exists_key_of_openWithKeys hopen
  obtain ⟨body, hbody, hrest⟩ := readGroupMessage_eq_ok h
  exact ⟨body, ⟨k, hk, key, _, opened, hkey, rfl, hdec, hbody⟩, hrest⟩

lemma length_of_decryptGroupMessage
    (h : decryptGroupMessage na zstd keys groupPk ciphertext = .ok r) : groupPk.length = 32 := by
  unfold decryptGroupMessage at h
  split at h
  · cases h
  split at h
  · cases h
  · next hlen => exact not_not.mp hlen

lemma readGroupMessage_of_decryptGroupMessage (honly : OnlyKey na key nonce) {plain : Bytes}
    (h : decryptGroupMessage na zstd keys groupPk
      (nonce.val ++ na.aeadEncrypt key nonce plain) = .ok r) :
    ∃ index, readGroupMessage na zstd groupPk index plain = .ok r := by
  have hlen : 16 ≤ (na.aeadEncrypt key nonce plain).length := by
    rw [na.aeadEncrypt_length]
    omega
  rw [decryptGroupMessage_append hlen (length_of_decryptGroupMessage h)] at h
  obtain ⟨⟨index, opened⟩, hfound, hread⟩ := bind_eq_ok.mp h
  obtain ⟨-, -, key', -, hdec⟩ := exists_key_of_openWithKeys hfound
  by_cases hkey : key' = key
  · rw [hkey, na.aeadDecrypt_encrypt] at hdec
    cases hdec
    exact ⟨index, hread⟩
  · rw [honly key' hkey] at hdec
    cases hdec

end

def singledSodium (key : Key) (text : Bytes) : Sodium :=
  { plainSodium with
    aeadEncrypt := fun k _ m => m ++ List.replicate 16 (if k = key then 1 else 0)
    aeadDecrypt := fun k _ c =>
      if c.drop (c.length - 16) = List.replicate 16 (if k = key then 1 else 0) then
        some (c.take (c.length - 16))
      else none
    sign := fun sk m =>
      ⟨sk.pk.val ++ List.replicate 32 (if m = text then 1 else 0), by simp [sk.pk.2]⟩
    verify := fun pk m sig => sig.val = pk.val ++ List.replicate 32 (if m = text then 1 else 0)
    aeadEncrypt_length := fun _ _ m => by simp
    aeadDecrypt_encrypt := fun _ _ m => by simp }

lemma onlyKey_singledSodium (key : Key) (text : Bytes) (nonce : Nonce) :
    OnlyKey (singledSodium key text) key nonce := by
  intro k hk m
  simp [singledSodium, hk]

lemma signs_singledSodium (key : Key) (text : Bytes) (sk : SecretKey) :
    Signs (singledSodium key text) sk text where
  accepts := by simp [singledSodium]
  only m' h := by
    by_contra hne
    simp [singledSodium, hne] at h

def runZstd : Zstd where
  compress _ b := if b = List.replicate 64 97 then [1] else 0 :: b
  decompress
    | [1] => some (List.replicate 64 97)
    | 0 :: b => some b
    | _ => none
  decompress_compress _ b := by
    by_cases h : b = List.replicate 64 97
    · rw [if_pos h, h]
      rfl
    · rw [if_neg h]
      rfl

def groupSampleKey (b : UInt8) : Key := ⟨List.replicate 32 b, length_replicate_32 b⟩

def groupSampleNonce : Nonce := ⟨List.replicate 24 9, by simp⟩

end Bchat.Messages
