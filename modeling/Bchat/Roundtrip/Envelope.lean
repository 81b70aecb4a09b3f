import Bchat.Lib.Bencode
import Bchat.Messages.Protocol
import Bchat.Roundtrip.Blinded
import Bchat.Roundtrip.GroupMessage

/-!
# Envelopes come back as they were made

What `encode_for_1o1` and `encode_for_group` make of a content, `decode_envelope` turns back into
it. -/

namespace Bchat.Messages

open Config Groups List

/-! ## Padding -/

lemma stripPadding_zeros (n : Nat) (l : Bytes) :
    stripPadding (List.replicate n 0 ++ paddingTerminatingByte :: l) = l := by
  induction n with
  | zero => rw [replicate_zero, nil_append, stripPadding, if_neg fun h => h.2 rfl, if_pos rfl]
  | succ n ih =>
    rw [replicate_succ, cons_append, stripPadding, if_neg fun h => h.1 rfl, if_neg (by decide), ih]

/-- **Padding is undone for every content**, also for one that ends like padding. -/
lemma unpadMessage_padMessage (payload : Bytes) : unpadMessage (padMessage payload) = payload := by
  unfold unpadMessage padMessage
  rw [reverse_append, reverse_cons, reverse_replicate, append_assoc,
    singleton_append, stripPadding_zeros, reverse_reverse]

lemma dvd_length_padMessage (payload : Bytes) : msgPadding ∣ (padMessage payload).length := by
  have hlt : (payload.length + 1) % msgPadding < msgPadding := Nat.mod_lt _ (by decide)
  have hsum := Nat.div_add_mod (payload.length + 1) msgPadding
  refine ⟨(payload.length + 1) / msgPadding + 1, ?_⟩
  unfold padMessage
  rw [length_append, length_cons, length_replicate, Nat.mul_succ]
  omega

/-! ## One recipient -/

section

variable {na : Sodium} {box : SealedBox} {privkey message sealed : Bytes} {ephemeral x : Key}
  {sk : SecretKey}

/-- A signer whose signatures are valid for the own public key and for no other. -/
def IdealSigner (na : Sodium) (sk : SecretKey) : Prop :=
  ∀ pk m, na.verify pk m (na.sign sk m) = true ↔ pk = sk.pk

def OnlyRecipient (box : SealedBox) (recipient : Key) (sealed : Bytes) : Prop :=
  ∀ x, box.scalarmultBase x ≠ recipient → box.boxSealOpen (box.scalarmultBase x) x sealed = none

def prefixedKey (k : Key) : PrefixedKey := ⟨0x05 :: k.val, by rw [List.length_cons, k.2]⟩

lemma recipientKey_prefixedKey (k : Key) : recipientKey (prefixedKey k).val = .ok k := by
  unfold recipientKey
  rw [dif_pos ⟨(prefixedKey k).2, rfl⟩]
  rfl

lemma encryptForRecipient_inv {recipient : Key} (hsk : fullSecretKey na privkey = some sk)
    (h : encryptForRecipient na box privkey (prefixedKey recipient).val message ephemeral =
      .ok sealed) : box.boxSeal ephemeral recipient (message ++ sk.pk.val ++
      (na.sign sk (message ++ sk.pk.val ++ recipient.val)).val) = some sealed := by
  unfold encryptForRecipient signForRecipient at h
  rw [hsk] at h
  dsimp only at h
  rw [recipientKey_prefixedKey, ok_bind, ok_bind, ok_bind] at h
  split at h
  next hsealed =>
    cases h
    exact hsealed
  · cases h

lemma signedMsg_parts (message : Bytes) (A : Key) (sig : Signature) :
    ((message ++ A.val ++ sig.val).drop message.length).take 32 = A.val ∧
      (message ++ A.val ++ sig.val).drop (message.length + 32) = sig.val ∧
      (message ++ A.val ++ sig.val).take (message.length + 32) = message ++ A.val ∧
      (message ++ A.val ++ sig.val).take message.length = message := by
  have hlen : (message ++ A.val).length = message.length + 32 := by rw [length_append, A.2]
  refine ⟨?_, drop_left' hlen, take_left' hlen, ?_⟩
  · rw [append_assoc, drop_left, take_left' A.2]
  · rw [append_assoc, take_left]

lemma decryptIncomingX_seal (hsign : IdealSigner na sk)
    (hsealed : box.boxSeal ephemeral (box.scalarmultBase x) (message ++ sk.pk.val ++
      (na.sign sk (message ++ sk.pk.val ++ (box.scalarmultBase x).val)).val) = some sealed) :
    decryptIncomingX na box (box.scalarmultBase x) x sealed = .ok (message, sk.pk) := by
  have hverify := (hsign sk.pk (message ++ sk.pk.val ++ (box.scalarmultBase x).val)).mpr rfl
  generalize na.sign sk (message ++ sk.pk.val ++ (box.scalarmultBase x).val) = sig
    at hsealed hverify
  obtain ⟨hA, hsig, hbody, hmessage⟩ := signedMsg_parts message sk.pk sig
  have hlen := box.boxSeal_length _ _ _ _ hsealed
  rw [length_append, length_append, sk.pk.2, sig.2] at hlen
  have hmsg : sealed.length - sealBytes - 32 - 64 = message.length := by omega
  have hopen := box.boxSealOpen_seal _ _ _ _ hsealed
  unfold decryptIncomingX
  rw [dif_neg (by omega)]
  split
  next hnone =>
    rw [hnone] at hopen
    cases hopen
  next buf hbuf hsome =>
    rw [hsome, Option.map_some] at hopen
    obtain rfl : buf = _ := Option.some.inj hopen
    simp only [hmsg, hA, hsig, hbody, hmessage]
    rw [if_pos hverify]

lemma decryptContent_spec (hsign : IdealSigner na sk) {recipient : Key}
    (hsealed : box.boxSeal ephemeral recipient (message ++ sk.pk.val ++
      (na.sign sk (message ++ sk.pk.val ++ recipient.val)).val) = some sealed)
    (honly : OnlyRecipient box recipient sealed) {keys : List Bytes}
    (hmem : ∃ k ∈ keys, ∃ r, fullSecretKey na k = some r ∧
      box.scalarmultBase (na.skToCurve r) = recipient) :
    decryptContent na box sealed keys = some (message, sk.pk) := by
  induction keys with
  | nil =>
    obtain ⟨k, hk, -⟩ := hmem
    cases hk
  | cons privkey rest ih =>
    rw [decryptContent]
    -- the first key is the recipient's, or it fails and the rest has one
    by_cases hfirst : ∃ r, fullSecretKey na privkey = some r ∧
        box.scalarmultBase (na.skToCurve r) = recipient
    · obtain ⟨r, hr, rfl⟩ := hfirst
      unfold decryptIncoming
      rw [hr]
      dsimp only
      rw [decryptIncomingX_seal hsign hsealed]
    have hrest : ∃ k ∈ rest, ∃ r, fullSecretKey na k = some r ∧
        box.scalarmultBase (na.skToCurve r) = recipient := by
      obtain ⟨k, hk, hr⟩ := hmem
      rcases mem_cons.mp hk with rfl | hk
      · exact absurd hr hfirst
      · exact ⟨k, hk, hr⟩
    have hfail : ∃ e, decryptIncoming na box privkey sealed = .error e := by
      unfold decryptIncoming
      split
      · exact ⟨_, rfl⟩
      next r hr =>
        dsimp only
        unfold decryptIncomingX
        split
        · exact ⟨_, rfl⟩
        · rw [honly _ fun h => hfirst ⟨r, hr, h⟩]
          exact ⟨_, rfl⟩
    obtain ⟨e, he⟩ := hfail
    rw [he]
    exact ih hrest

end

/-! ## Ids in hexadecimal -/

lemma fromHex_toHex (b : Bytes) : fromHex (toHex b) = some b := by
  have hhigh : ∀ n : Fin 256, hexValue (hexDigit (UInt8.ofFin n / 16)) =
      some (UInt8.ofFin n / 16) := by decide +kernel
  have hlow : ∀ n : Fin 256, hexValue (hexDigit (UInt8.ofFin n % 16)) =
      some (UInt8.ofFin n % 16) := by decide +kernel
  have hsum : ∀ n : Fin 256, 16 * (UInt8.ofFin n / 16) + UInt8.ofFin n % 16 = UInt8.ofFin n := by
    decide +kernel
  induction b with
  | nil => rfl
  | cons a rest ih =>
    change fromHex (hexDigit (a / 16) :: hexDigit (a % 16) :: toHex rest) = some (a :: rest)
    have hfirst : hexValue (hexDigit (a / 16)) = some (a / 16) := hhigh a.toFin
    have hsecond : hexValue (hexDigit (a % 16)) = some (a % 16) := hlow a.toFin
    rw [fromHex, ih, hfirst, hsecond]
    exact congrArg (fun c => some (c :: rest)) (hsum a.toFin)

lemma length_toHex (b : Bytes) : (toHex b).length = 2 * b.length := by
  unfold toHex
  simp [Nat.mul_comm]

lemma fromHexInto_toHex (k : Key) : fromHexInto 32 (toHex k.val) = .ok k := by
  unfold fromHexInto
  rw [fromHex_toHex]
  exact dif_pos k.2

lemma length_bchatIdOf (k : Key) : (bchatIdOf k).length = 66 := by
  rw [bchatIdOf, length_append, length_toHex, k.2]
  rfl

/-! ## Pro -/

structure Proto.ProProof.Complete (p : Proto.ProProof) : Prop where
  version : p.version = some 0
  genIndexHash : ∃ b, p.genIndexHash = some b ∧ b.length = 32
  rotatingPublicKey : ∃ b, p.rotatingPublicKey = some b ∧ b.length = 32
  expiryUnixTs : p.expiryUnixTs.isSome
  sig : ∃ b, p.sig = some b ∧ b.length = 64

def Proto.Content.ProComplete (content : Proto.Content) : Prop :=
  ∀ proMsg, content.proMessage = some proMsg →
    content.sigTimestamp ≠ 0 ∧ ∃ p, proMsg.proof = some p ∧ p.Complete

lemma readProof_isOk_iff (p : Proto.ProProof) : (∃ proof, readProof p = .ok proof) ↔
    p.Complete := by
  constructor
  · rintro ⟨proof, h⟩
    unfold readProof at h
    split at h
    next version hash key expiry sig hversion hhash hkey hexpiry hsig =>
      split at h
      next hsizes =>
        exact ⟨by rw [hversion, hsizes.1], ⟨hash, hhash, hsizes.2.1⟩, ⟨key, hkey, hsizes.2.2.1⟩,
          by rw [hexpiry]; rfl, ⟨sig, hsig, hsizes.2.2.2⟩⟩
      · cases h
    · cases h
  rintro ⟨hversion, ⟨hash, hhash, hhash32⟩, ⟨key, hkey, hkey32⟩, hexpiry, ⟨sig, hsig, hsig64⟩⟩
  obtain ⟨expiry, hexpiry⟩ := Option.isSome_iff_exists.mp hexpiry
  unfold readProof
  rw [hversion, hhash, hkey, hexpiry, hsig]
  dsimp only
  rw [dif_pos ⟨rfl, hhash32, hkey32, hsig64⟩]
  exact ⟨_, rfl⟩

section

variable {lib : Outside} {backend : Key} {content : Proto.Content} {proSk : SecretKey}
  {carried : Bytes}

lemma status_eq_valid_iff {proof : ProProof} {unixTs : Int64} {sig : Signature} {msg : Bytes} :
    proof.status lib backend unixTs sig msg = .valid ↔ proof.verifySignature lib backend = true ∧
      unixTs ≤ proof.expiryUnixTs ∧ lib.na.verify proof.rotatingPubkey msg sig = true := by
  unfold ProProof.status ProProof.isActive ProProof.verifyMessage
  split
  next h => simp_all
  next h =>
    split
    next h' => simp_all
    next h' =>
      split
      next h'' => simp_all
      next h'' => simp_all

/-- What is said of the Pro data. Timestamps are read as signed numbers, so that the comparison is
stated for those below `2 ^ 63`. -/
def ReportsPro (lib : Outside) (backend : Key) (content : Proto.Content) (proPk : Key)
    (pro : Option DecodedPro) : Prop :=
  match content.proMessage with
  | none => pro = none
  | some proMsg => ∃ p expiry d, proMsg.proof = some p ∧ p.expiryUnixTs = some expiry ∧
      readProof p = .ok d.proof ∧ pro = some d ∧
      (content.sigTimestamp.toNat < 2 ^ 63 → expiry.toNat < 2 ^ 63 →
        (d.status = .valid ↔ d.proof.verifySignature lib backend = true ∧
          content.sigTimestamp ≤ expiry ∧ proPk = d.proof.rotatingPubkey))

lemma toInt64_le_toInt64 {a b : UInt64} (ha : a.toNat < 2 ^ 63) (hb : b.toNat < 2 ^ 63) :
    a.toInt64 ≤ b.toInt64 ↔ a ≤ b := by
  have htoInt : ∀ x : UInt64, x.toNat < 2 ^ 63 → x.toInt64.toInt = x.toNat := by
    intro x hx
    have hnat : x.toBitVec.toNat = x.toNat := rfl
    show x.toBitVec.toInt = _
    rw [BitVec.toInt_eq_toNat_bmod, hnat]
    exact Int.bmod_eq_of_le (by omega) (by omega)
  rw [Int64.le_iff_toInt_le, htoInt a ha, htoInt b hb, UInt64.le_iff_toNat_le]
  exact Int.ofNat_le

lemma readProof_expiry {p : Proto.ProProof} {proof : ProProof} (h : readProof p = .ok proof) :
    ∃ expiry, p.expiryUnixTs = some expiry ∧ proof.expiryUnixTs = expiry.toInt64 := by
  unfold readProof at h
  split at h
  next version hash key expiry sig hversion hhash hkey hexpiry hsig =>
    split at h
    · cases h
      exact ⟨expiry, hexpiry, rfl⟩
    · cases h
  · cases h

lemma readPro_of_complete (hsign : IdealSigner lib.na proSk) (h : content.ProComplete)
    (backend : Key) (size : Nat) : ∃ pro,
      readPro lib backend content size (lib.na.sign proSk carried) carried = .ok pro ∧
        ReportsPro lib backend content proSk.pk pro := by
  unfold readPro ReportsPro
  cases hmsg : content.proMessage with
  | none => exact ⟨none, rfl, rfl⟩
  | some proMsg =>
    obtain ⟨hts, p, hp, hcomplete⟩ := h proMsg hmsg
    obtain ⟨proof, hproof⟩ := (readProof_isOk_iff p).mpr hcomplete
    dsimp only
    rw [if_neg hts, hp]
    dsimp only
    rw [hproof, ok_bind]
    obtain ⟨expiry, hexpiry, htime⟩ := readProof_expiry hproof
    refine ⟨_, rfl, p, expiry, _, rfl, hexpiry, hproof, rfl, fun hts hexp => ?_⟩
    rw [status_eq_valid_iff, hsign, htime, toInt64_le_toInt64 hts hexp]
    exact and_congr_right fun _ => and_congr_right fun _ => eq_comm

lemma readPro_of_not_complete (h : ¬content.ProComplete) (lib : Outside) (backend : Key)
    (size : Nat) (sig : Signature) : ∃ e, readPro lib backend content size sig carried =
        .error e := by
  cases hread : readPro lib backend content size sig carried with
  | error e => exact ⟨e, rfl⟩
  | ok pro =>
    refine absurd (fun proMsg hmsg => ?_) h
    unfold readPro at hread
    rw [hmsg] at hread
    dsimp only at hread
    split at hread
    · cases hread
    next hts =>
      split at hread
      · cases hread
      next p hp =>
        obtain ⟨proof, hproof, -⟩ := bind_eq_ok.mp hread
        exact ⟨hts, p, hp, (readProof_isOk_iff p).mp ⟨proof, hproof⟩⟩

/-- **The signature of an envelope is reported on, or the content refused.** -/
lemma attachPro_spec (hsign : IdealSigner lib.na proSk) (decoded : DecodedEnvelope) :
    (content.ProComplete → ∃ d, attachPro lib backend content
      (some (lib.na.sign proSk carried).val) carried decoded = .ok d ∧
      d.contentPlaintext = decoded.contentPlaintext ∧
      d.envelope.timestamp = decoded.envelope.timestamp ∧
      d.senderX25519Pubkey = decoded.senderX25519Pubkey ∧
      ReportsPro lib backend content proSk.pk d.pro) ∧
    (¬content.ProComplete → ∃ e, attachPro lib backend content
      (some (lib.na.sign proSk carried).val) carried decoded = .error e) := by
  unfold attachPro
  dsimp only
  rw [dif_pos (lib.na.sign proSk carried).2]
  constructor
  · intro h
    obtain ⟨pro, hpro, hreports⟩ :=
      readPro_of_complete hsign h backend decoded.contentPlaintext.length
    rw [hpro, ok_bind]
    exact ⟨_, rfl, rfl, rfl, rfl, hreports⟩
  intro h
  obtain ⟨e, he⟩ := readPro_of_not_complete h lib backend decoded.contentPlaintext.length
    (lib.na.sign proSk carried)
  rw [he]
  exact ⟨e, rfl⟩

end

/-! ## Both ways of sending -/

/-- What decoding an honest envelope gives: content, time, sender and the report on Pro, or a
refusal where the Pro data are incomplete. -/
def Returns (lib : Outside) (backend : Key) (c : Bytes) (content : Proto.Content) (ts : Int64)
    (xPk proPk : Key) (result : Except Err DecodedEnvelope) : Prop :=
  (content.ProComplete → ∃ d, result = .ok d ∧ d.contentPlaintext = c ∧ d.envelope.timestamp = ts ∧
    d.senderX25519Pubkey = xPk ∧ ReportsPro lib backend content proPk d.pro) ∧
  (¬content.ProComplete → ∃ e, result = .error e)

section

variable {lib : Outside} {draws : Draws} {backend : Key} {c privkey payload : Bytes}
  {content : Proto.Content} {ts : Int64} {sk : SecretKey} {xPk : Key}
  {proPrivkey : Option Bytes} {proKey : Option SecretKey} {dest : Destination}

lemma returns_decodeEnvelope {keys : DecodeEnvelopeKey} {groupSender : Option Key} {carried : Bytes}
    {senderEd : Key} (hsign : IdealSigner lib.na (proKey.getD draws.dummyProSk))
    (hcontent : lib.proto.parseContent c = some content)
    (hopen : openEnvelope lib keys payload = .ok (lib.proto.serializeEnvelope
      (makeEnvelope lib draws proKey carried dest), groupSender))
    (hopenContent : openContent lib keys groupSender carried = .ok (c, senderEd, xPk)) :
    Returns lib backend c content dest.sentTimestampMs xPk (proKey.getD draws.dummyProSk).pk
      (decodeEnvelope lib keys payload backend) := by
  unfold decodeEnvelope
  rw [hopen, ok_bind]
  dsimp only
  rw [lib.proto.parseEnvelope_serialize]
  dsimp only
  obtain ⟨info, hinfo, htime⟩ : ∃ info,
      readEnvelope (makeEnvelope lib draws proKey carried dest) = .ok info ∧
        info.timestamp = dest.sentTimestampMs :=
    ⟨_, rfl, Int64.toInt64_toUInt64 _⟩
  rw [hinfo, ok_bind]
  change Returns lib backend c content _ _ _
    (openContent lib keys groupSender carried >>= fun r => _)
  rw [hopenContent, ok_bind]
  rw [hcontent]
  rw [← htime]
  exact attachPro_spec hsign ⟨info, c, senderEd, xPk, none⟩

lemma encodeFor1o1_inv {recipient : PrefixedKey}
    (hpro : proSigningKey lib.na (proPrivkey.getD []) = .ok proKey)
    (h : encodeFor1o1 lib draws c privkey ts recipient proPrivkey = .ok payload) :
    ∃ sealed dest, dest.sentTimestampMs = ts ∧
      encryptForRecipient lib.na lib.box privkey recipient.val (padMessage c) draws.ephemeral =
        .ok sealed ∧
      payload = lib.proto.serializeWebSocket ⟨some .request, some ⟨some [], some [], some 0,
        some (lib.proto.serializeEnvelope (makeEnvelope lib draws proKey sealed dest))⟩⟩ := by
  unfold encodeFor1o1 encodeForDestination at h
  split at h
  · cases h
  rw [hpro, ok_bind] at h
  unfold encodeEnvelope at h
  obtain ⟨sealed, hsealed, h⟩ := bind_eq_ok.mp h
  unfold envelopeContent at hsealed
  cases h
  exact ⟨sealed, _, rfl, hsealed, rfl⟩

lemma encodeForGroup_inv {groupPk : PrefixedKey} {groupEncKey : Key}
    (hpro : proSigningKey lib.na (proPrivkey.getD []) = .ok proKey)
    (h : encodeForGroup lib draws c privkey ts groupPk groupEncKey proPrivkey = .ok payload) :
    ∃ dest, dest.sentTimestampMs = ts ∧
      encryptForGroup lib.na lib.zstd privkey (groupPk.val.drop 1) groupEncKey.val
        (lib.proto.serializeEnvelope (makeEnvelope lib draws proKey c dest)) true 256 draws.nonce =
        .ok payload := by
  unfold encodeForGroup encodeForDestination at h
  split at h
  · cases h
  rw [hpro, ok_bind] at h
  dsimp only at h
  unfold encodeEnvelope at h
  split at h
  · cases h
  obtain ⟨content, hcontent, h⟩ := bind_eq_ok.mp h
  unfold envelopeContent at hcontent
  cases hcontent
  exact ⟨_, rfl, h⟩

lemma encKey_val (k : Key) : encKey k.val = some k := by
  unfold encKey
  rw [dif_pos (Or.inl k.2)]
  exact congrArg some (Subtype.ext (take_of_length_le k.2.le))

lemma openEnvelope_webSocket (envelope : Bytes) (keys : List Bytes) :
    openEnvelope lib ⟨none, keys⟩ (lib.proto.serializeWebSocket ⟨some .request,
      some ⟨some [], some [], some 0, some envelope⟩⟩) = .ok (envelope, none) := by
  unfold openEnvelope
  rw [lib.proto.parseWebSocket_serialize]

lemma openEnvelope_group {groupPk envelope : Bytes} {groupEncKey : Key}
    (hsk : fullSecretKey lib.na privkey = some sk) (hx : lib.na.pkToCurve sk.pk = some xPk)
    (hsign : IdealSigner lib.na sk) (hzstd : ∀ b, lib.zstd.compress 1 b ≠ [])
    (honly : OnlyKey lib.na groupEncKey draws.nonce) (hne : envelope ≠ [])
    (henc : encryptForGroup lib.na lib.zstd privkey groupPk groupEncKey.val envelope true 256
      draws.nonce = .ok payload) {keys : List Bytes} (hkeys : ∀ k ∈ keys, (encKey k).isSome)
    (hmem : ∃ k ∈ keys, encKey k = some groupEncKey) :
    openEnvelope lib ⟨some groupPk, keys⟩ payload = .ok (envelope, some xPk) := by
  obtain ⟨hsize, hpk, rfl⟩ := encryptForGroup_spec hsk (encKey_val groupEncKey) henc
  obtain ⟨index, -, hdec⟩ := decryptGroupMessage_groupPlain hx hsize hpk (hzstd envelope) hne
    ((hsign _ _).mpr rfl) honly hkeys hmem
  unfold openEnvelope
  dsimp only
  rw [hdec, ok_bind]
  have hprefix : (bchatIdOf xPk).take 2 = bytes "05" := rfl
  rw [if_neg (not_not.mpr (length_bchatIdOf xPk)), if_neg (not_not.mpr hprefix)]
  change fromHexInto 32 (toHex xPk.val) >>= _ = _
  rw [fromHexInto_toHex]
  rfl

end

/-- **Envelope round trip.** Padding makes a multiple of 160 and is undone. What `encode_for_1o1`
seals is padded so and decoded with any keys among which is the recipient's; likewise what
`encode_for_group` makes. The content, the time and the sender come back, and a proof is valid
exactly if the backend signed it, it had not expired at the signature timestamp (both below
`2 ^ 63`), and its key signed the envelope. Incomplete Pro data is refused. -/
theorem envelope_roundtrip {lib : Outside} {draws : Draws} {c privkey : Bytes}
    {content : Proto.Content} {sk : SecretKey} {xPk : Key} {proPrivkey : Option Bytes}
    {proKey : Option SecretKey} (ts : Int64) (backend : Key)
    (hcontent : lib.proto.parseContent c = some content)
    (hsk : fullSecretKey lib.na privkey = some sk) (hx : lib.na.pkToCurve sk.pk = some xPk)
    (hpro : proSigningKey lib.na (proPrivkey.getD []) = .ok proKey)
    (hsign : IdealSigner lib.na sk) (hproSign : IdealSigner lib.na (proKey.getD draws.dummyProSk))
    (hbox : ∀ recipient m sealed, lib.box.boxSeal draws.ephemeral recipient m = some sealed →
      OnlyRecipient lib.box recipient sealed)
    (hzstd : ∀ b, lib.zstd.compress 1 b ≠ []) {groupEncKey : Key}
    (honly : OnlyKey lib.na groupEncKey draws.nonce) :
    (160 ∣ (padMessage c).length ∧ unpadMessage (padMessage c) = c) ∧
    (∀ recipient payload, encodeFor1o1 lib draws c privkey ts (prefixedKey recipient) proPrivkey =
        .ok payload →
      (∃ sealed e, encryptForRecipient lib.na lib.box privkey (prefixedKey recipient).val
          (padMessage c) draws.ephemeral = .ok sealed ∧ e.content = some sealed ∧
        payload = lib.proto.serializeWebSocket ⟨some .request, some ⟨some [], some [], some 0,
          some (lib.proto.serializeEnvelope e)⟩⟩) ∧
      ∀ keys : List Bytes, (∃ k ∈ keys, ∃ r, fullSecretKey lib.na k = some r ∧
          lib.box.scalarmultBase (lib.na.skToCurve r) = recipient) →
        Returns lib backend c content ts xPk (proKey.getD draws.dummyProSk).pk
          (decodeEnvelope lib ⟨none, keys⟩ payload backend)) ∧
    (∀ groupPk payload, encodeForGroup lib draws c privkey ts groupPk groupEncKey proPrivkey =
        .ok payload → ∀ keys : List Bytes, (∀ k ∈ keys, (encKey k).isSome) →
        (∃ k ∈ keys, encKey k = some groupEncKey) →
        Returns lib backend c content ts xPk (proKey.getD draws.dummyProSk).pk
          (decodeEnvelope lib ⟨some (groupPk.val.drop 1), keys⟩ payload backend)) := by
  refine ⟨⟨dvd_length_padMessage c, unpadMessage_padMessage c⟩, ?_, ?_⟩
  · intro recipient payload h
    obtain ⟨sealed, dest, rfl, hsealed, rfl⟩ := encodeFor1o1_inv hpro h
    refine ⟨⟨sealed, _, hsealed, rfl, rfl⟩, fun keys hmem => ?_⟩
    have hseal := encryptForRecipient_inv hsk hsealed
    have hopenContent : openContent lib ⟨none, keys⟩ none sealed = .ok (c, sk.pk, xPk) := by
      unfold openContent
      dsimp only
      rw [decryptContent_spec hsign hseal (hbox _ _ _ hseal) hmem]
      dsimp only
      rw [hx, unpadMessage_padMessage]
    exact returns_decodeEnvelope hproSign hcontent (openEnvelope_webSocket _ keys) hopenContent
  intro groupPk payload h keys hkeys hmem
  obtain ⟨dest, rfl, henc⟩ := encodeForGroup_inv hpro h
  have hopen := openEnvelope_group hsk hx hsign hzstd honly
    (lib.proto.serializeEnvelope_ne_nil _) henc hkeys hmem
  exact returns_decodeEnvelope hproSign hcontent hopen rfl

/-! ## A sample

Protobuf messages are written as bencoded values, a box is marked with the key of its recipient. -/

section

open Bencode

def u32Codec : BtCodec UInt32 := BtCodec.nat.map UInt32.toNat UInt32.ofNat fun n => by simp

def u64Codec : BtCodec UInt64 := BtCodec.nat.map UInt64.toNat UInt64.ofNat fun n => by simp

def envelopeTypeCodec : BtCodec Proto.EnvelopeType :=
  BtCodec.nat.map (fun t => if t = .bchatMessage then 6 else 7)
    (fun n => if n = 6 then .bchatMessage else .closedGroupMessage) fun t => by cases t <;> rfl

def envelopeCodec : BtCodec Proto.Envelope :=
  (envelopeTypeCodec.pair (BtCodec.str.option.pair (u32Codec.option.pair (u64Codec.option.pair
    (BtCodec.str.option.pair (u64Codec.option.pair BtCodec.str.option)))))).map
    (fun e => (e.type, e.source, e.sourceDevice, e.timestamp, e.content, e.serverTimestamp,
        e.proSig))
    (fun (t, s, d, ts, c, st, sig) => ⟨t, s, d, ts, c, st, sig⟩) fun _ => rfl

def webSocketTypeCodec : BtCodec Proto.WebSocketType :=
  BtCodec.nat.map (fun | .unknown => 0 | .request => 1 | .response => 2)
    (fun | 0 => .unknown | 1 => .request | _ => .response) fun t => by cases t <;> rfl

def requestCodec : BtCodec Proto.WebSocketRequest :=
  (BtCodec.str.option.pair (BtCodec.str.option.pair (u64Codec.option.pair BtCodec.str.option))).map
    (fun r => (r.verb, r.path, r.requestId, r.body)) (fun (v, p, i, b) => ⟨v, p, i, b⟩) fun _ => rfl

def webSocketCodec : BtCodec Proto.WebSocketMessage :=
  (webSocketTypeCodec.option.pair requestCodec.option).map (fun m => (m.type, m.request))
    (fun (t, r) => ⟨t, r⟩) fun _ => rfl

def proofCodec : BtCodec Proto.ProProof :=
  (u32Codec.option.pair (BtCodec.str.option.pair (BtCodec.str.option.pair (u64Codec.option.pair
    BtCodec.str.option)))).map
    (fun p => (p.version, p.genIndexHash, p.rotatingPublicKey, p.expiryUnixTs, p.sig))
    (fun (v, h, k, e, s) => ⟨v, h, k, e, s⟩) fun _ => rfl

def contentCodec : BtCodec Proto.Content :=
  (u64Codec.pair ((proofCodec.option.pair (u64Codec.pair u64Codec)).option.pair
    (BtCodec.str.option.pair BtCodec.str))).map
    (fun c => (c.sigTimestamp, c.proMessage.map fun m => (m.proof, m.profileBitset, m.msgBitset),
      c.proSigForCommunityMessageOnly, c.others))
    (fun (t, m, s, o) => ⟨t, m.map fun (p, f, b) => ⟨p, f, b⟩, s, o⟩)
    fun ⟨t, m, s, o⟩ => by cases m <;> rfl

def bencodeProtobuf : Protobuf where
  serializeEnvelope := envelopeCodec.serialize
  parseEnvelope := envelopeCodec.parse
  serializeWebSocket := webSocketCodec.serialize
  parseWebSocket := webSocketCodec.parse
  serializeContent := contentCodec.serialize
  parseContent := contentCodec.parse
  serializeEnvelope_ne_nil := envelopeCodec.serialize_ne_nil
  parseEnvelope_serialize := envelopeCodec.parse_serialize
  parseWebSocket_serialize := webSocketCodec.parse_serialize
  parseContent_serialize := contentCodec.parse_serialize

def boxMark (recipient : Key) : Bytes := recipient.val ++ List.replicate 16 0

lemma length_boxMark (recipient : Key) : (boxMark recipient).length = sealBytes := by
  rw [boxMark, length_append, recipient.2]
  rfl

def markedBox : SealedBox where
  scalarmultBase x := x
  boxSeal _ recipient m := some (m ++ boxMark recipient)
  boxSealOpen pub _ c :=
    if h : boxMark pub <:+ c then
      some ⟨c.take (c.length - sealBytes), by
        obtain ⟨m, rfl⟩ := h
        rw [List.length_take, List.length_append, length_boxMark]
        omega⟩
    else none
  boxSeal_length _ recipient m c h := by
    cases h
    rw [List.length_append, length_boxMark]
  boxSealOpen_seal _ x m c h := by
    cases h
    rw [dif_pos ⟨m, rfl⟩, Option.map_some]
    refine congrArg some (List.take_left' ?_)
    rw [List.length_append, length_boxMark, Nat.add_sub_cancel]

lemma onlyRecipient_markedBox (recipient : Key) (m : Bytes) :
    OnlyRecipient markedBox recipient (m ++ boxMark recipient) := by
  intro x hx
  refine dif_neg fun h => hx ?_
  have hmark : boxMark x = boxMark recipient := by
    refine IsSuffix.eq_of_length ?_ (by rw [length_boxMark, length_boxMark])
    exact suffix_of_suffix_length_le h (suffix_append m _) (by rw [length_boxMark, length_boxMark])
  exact Subtype.ext (append_cancel_right hmark)

lemma idealSigner_singledSodium (key : Key) (text : Bytes) (sk : SecretKey) :
    IdealSigner (singledSodium key text) sk := by
  intro pk m
  change decide (sk.pk.val ++ _ = pk.val ++ _) = true ↔ _
  rw [decide_eq_true_iff]
  exact ⟨fun h => (Subtype.ext (append_cancel_right h)).symm, fun h => by rw [h]⟩

def sampleOutside : Outside where
  na := singledSodium (groupSampleKey 7) []
  ed := smallEd25519
  box := markedBox
  zstd := runZstd
  proto := bencodeProtobuf
  blake2b32 _ data := lastBytes 32 data

def sampleSecret (b : UInt8) : SecretKey := SecretKey.ofSeed (groupSampleKey b) (groupSampleKey b)

def sampleDraws : Draws := ⟨sampleSecret 1, groupSampleKey 2, groupSampleNonce⟩

def sampleProof (rotating issuer : UInt8) (expiry : UInt64) : Proto.ProProof where
  version := some 0
  genIndexHash := some (List.replicate 32 0)
  rotatingPublicKey := some (groupSampleKey rotating).val
  expiryUnixTs := some expiry
  sig := some ((groupSampleKey issuer).val ++ List.replicate 32 0)

def sampleContent (sigTimestamp : UInt64) (proof : Option Proto.ProProof) : Proto.Content :=
  ⟨sigTimestamp, some ⟨proof, 0, 0⟩, none, bytes "hello"⟩

/-- A sender with Pro writes to one recipient and to a group; both envelopes can be made. -/
theorem envelope_roundtrip_sample :
    let c := bencodeProtobuf.serializeContent (sampleContent 5 (some (sampleProof 6 9 10)))
    let sender := (groupSampleKey 3).val
    let pro := some (groupSampleKey 6).val
    (∃ payload, encodeFor1o1 sampleOutside sampleDraws c sender 1000
        (prefixedKey (groupSampleKey 4))
        pro = .ok payload ∧
      ∃ d, decodeEnvelope sampleOutside ⟨none, [sender, (groupSampleKey 4).val]⟩ payload
          (groupSampleKey 9) = .ok d ∧ d.contentPlaintext = c ∧ d.envelope.timestamp = 1000 ∧
        d.senderX25519Pubkey = groupSampleKey 3) ∧
    ∃ payload, encodeForGroup sampleOutside sampleDraws c sender 1000
        ⟨0x03 :: (groupSampleKey 5).val, rfl⟩ (groupSampleKey 7) pro = .ok payload ∧
      ∃ d, decodeEnvelope sampleOutside ⟨some (groupSampleKey 5).val, [sender,
          (groupSampleKey 7).val]⟩ payload (groupSampleKey 9) = .ok d ∧ d.contentPlaintext = c ∧
        d.envelope.timestamp = 1000 ∧ d.senderX25519Pubkey = groupSampleKey 3 := by
  intro c sender pro
  have hcontent : sampleOutside.proto.parseContent c =
    some (sampleContent 5 (some (sampleProof 6 9 10))) := bencodeProtobuf.parseContent_serialize _
  have hcomplete : (sampleContent 5 (some (sampleProof 6 9 10))).ProComplete := by
    rintro proMsg hmsg
    cases hmsg
    exact ⟨by decide, _, rfl, rfl, ⟨_, rfl, rfl⟩, ⟨_, rfl, rfl⟩, rfl, ⟨_, rfl, rfl⟩⟩
  have hsk : fullSecretKey sampleOutside.na sender = some (sampleSecret 3) := rfl
  have hx : sampleOutside.na.pkToCurve (sampleSecret 3).pk = some (groupSampleKey 3) :=
    congrArg some (SecretKey.pk_ofSeed _ _)
  have hpro : proSigningKey sampleOutside.na (pro.getD []) = .ok (some (sampleSecret 6)) := rfl
  have hbox : ∀ recipient m sealed, sampleOutside.box.boxSeal sampleDraws.ephemeral recipient m =
      some sealed → OnlyRecipient sampleOutside.box recipient sealed := by
    intro recipient m sealed h
    cases h
    exact onlyRecipient_markedBox recipient m
  have hzstd : ∀ b, sampleOutside.zstd.compress 1 b ≠ [] := by
    intro b
    change (if b = replicate 64 97 then [1] else 0 :: b) ≠ []
    split <;> exact cons_ne_nil _ _
  have hsign : ∀ sk, IdealSigner sampleOutside.na sk := idealSigner_singledSodium _ _
  have honly : OnlyKey sampleOutside.na (groupSampleKey 7) sampleDraws.nonce :=
    onlyKey_singledSodium _ _ _
  obtain ⟨-, h1o1, hgroup⟩ := envelope_roundtrip 1000 (groupSampleKey 9) hcontent hsk hx hpro
    (hsign _) (hsign _) hbox hzstd honly
  refine ⟨?_, ?_⟩
  · obtain ⟨payload, henc⟩ : ∃ payload, encodeFor1o1 sampleOutside sampleDraws c sender 1000
        (prefixedKey (groupSampleKey 4)) pro = .ok payload :=
      exists_ok_of_isOk (by decide +kernel)
    obtain ⟨d, hd, h⟩ := ((h1o1 _ payload henc).2 [sender, (groupSampleKey 4).val]
      ⟨(groupSampleKey 4).val, by simp, sampleSecret 4, rfl, SecretKey.pk_ofSeed _ _⟩).1 hcomplete
    exact ⟨payload, henc, d, hd, h.1, h.2.1, h.2.2.1⟩
  obtain ⟨payload, henc⟩ : ∃ payload, encodeForGroup sampleOutside sampleDraws c sender 1000
      ⟨0x03 :: (groupSampleKey 5).val, rfl⟩ (groupSampleKey 7) pro = .ok payload :=
    exists_ok_of_isOk (by decide +kernel)
  obtain ⟨d, hd, h⟩ := (hgroup _ payload henc [sender, (groupSampleKey 7).val]
    (by decide) ⟨(groupSampleKey 7).val, by simp, rfl⟩).1 hcomplete
  exact ⟨payload, henc, d, hd, h.1, h.2.1, h.2.2.1⟩

lemma exists_ok_of_match {ε α : Type} {x : Except ε α} {p : α → Prop} [DecidablePred p]
    (h : (match x with | .ok a => decide (p a) | .error _ => false) = true) :
    ∃ a, x = .ok a ∧ p a := by
  cases x with
  | error e => cases h
  | ok a => exact ⟨a, rfl, of_decide_eq_true h⟩

/-- A content with a proof and no signature timestamp is sent and cannot be decoded. One whose
timestamp has the top bit set counts as signed before the proof expired. -/
theorem pro_without_timestamp_refused :
    let send content := encodeFor1o1 sampleOutside sampleDraws
      (bencodeProtobuf.serializeContent content) (groupSampleKey 3).val 1000
      (prefixedKey (groupSampleKey 4)) (some (groupSampleKey 6).val)
    let receive payload := decodeEnvelope sampleOutside ⟨none, [(groupSampleKey 4).val]⟩ payload
      (groupSampleKey 9)
    (∃ payload, send (sampleContent 0 (some (sampleProof 6 9 10))) = .ok payload ∧
      (receive payload).isOk = false) ∧
    ∃ payload, send (sampleContent (2 ^ 63) (some (sampleProof 6 9 10))) = .ok payload ∧
      (receive payload).toOption.bind (fun d => d.pro.map (·.status)) = some .valid ∧
      (10 : UInt64) < 2 ^ 63 := by
  intro send receive
  exact ⟨exists_ok_of_match (by decide +kernel), exists_ok_of_match (by decide +kernel)⟩

end

end Bchat.Messages
