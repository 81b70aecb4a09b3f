import Bchat.Messages.Group

/-!
# Messages to a blinded recipient

The parts of `blinding.cpp` and `bchat_encrypt.cpp` for direct messages through a community server.
A user is known to the server under a blinded key: a multiple of the Ed25519 key, with a factor that
depends on the server (prefix `0x15`) or also on the user (prefix `0x25`). Both sides derive one
encryption key, each from the own secret scalar and the blinded key of the other.

* The arithmetic of the curve is the parameter `Ed25519`. `crypto_sign_ed25519_sk_to_curve25519`,
  which yields the secret scalar, does not fail.
* The nonce, which the source draws at random, is an argument.
* A read of the first byte of an empty id, which the source does not guard, is an error of its own.
-/

namespace Bchat.Messages

open Config Groups

/-- The arithmetic of libsodium on Ed25519. -/
structure Ed25519 where
  /-- `crypto_core_ed25519_scalar_reduce`. -/
  scalarReduce : {b : Bytes // b.length = 64} → Key
  /-- `crypto_core_ed25519_scalar_mul`. -/
  scalarMul : Key → Key → Key
  /-- `crypto_core_ed25519_scalar_negate`. -/
  scalarNegate : Key → Key
  /-- `crypto_scalarmult_ed25519_noclamp`. -/
  scalarmult : Key → Key → Option Key
  /-- `crypto_scalarmult_ed25519_base_noclamp`. -/
  scalarmultBase : Key → Key

/-- The sign of a point: the top bit of its last byte. -/
def isNegative (pk : Key) : Bool := pk.val.getD 31 0 &&& 0x80 != 0

def clearSign (pk : Key) : Key :=
  ⟨pk.val.modify 31 (· &&& 0x7f), by rw [List.length_modify]; exact pk.2⟩

/-- A key of the size a function asks for, or the error it throws. -/
def asKey (b : Bytes) (err : Err) : Except Err Key :=
  if h : b.length = 32 then .ok ⟨b, h⟩ else .error err

/-! ## Blinding -/

/-- The factor of blinded ids `15`. -/
def blind15Factor (na : Sodium) (ed : Ed25519) (serverPk : Key) : Key :=
  ed.scalarReduce (na.hash 64 [] serverPk.val)

/-- The factor of blinded ids `25`. -/
def blind25Factor (na : Sodium) (ed : Ed25519) (bchatId : Bytes) (serverPk : Key) : Key :=
  let id := if bchatId.length = 32 then 0x05 :: bchatId else bchatId
  ed.scalarReduce (na.hash 64 [] (id ++ serverPk.val))

def bchatIdFromEd (na : Sodium) (edPubkey : Key) : Except Err Bytes :=
  match na.pkToCurve edPubkey with
  | some xPk => .ok (0x05 :: xPk.val)
  | none => .error (.runtime "ed25519 pubkey to x25519 pubkey conversion failed")

def blindPoint (ed : Ed25519) (tag : UInt8) (k pk : Key) : Except Err Bytes :=
  match ed.scalarmult k pk with
  | some point => .ok (tag :: point.val)
  | none => .error (.runtime "Cannot blind: invalid bchat_id (not on main subgroup)")

/-- `blinded15_id_from_ed`; `bchatId` is what the pointer of that name refers to. -/
def blinded15IdFromEd (na : Sodium) (ed : Ed25519) (edPubkey : Key) (serverPk : Bytes)
    (bchatId : Option Bytes) : Except Err (Bytes × Option Bytes) := do
  let serverPk ← asKey serverPk
    (.invalidArgument "blind15_id_from_ed: server_pk must be 32 bytes")
  match bchatId with
  | none =>
    let id ← blindPoint ed 0x15 (blind15Factor na ed serverPk) edPubkey
    return (id, none)
  | some [] =>
    let bchatId ← bchatIdFromEd na edPubkey
    let id ← blindPoint ed 0x15 (blind15Factor na ed serverPk) edPubkey
    return (id, some bchatId)
  | some _ =>
    throw (.invalidArgument "blind15_id_from_ed: bchat_id pointer must be an empty string")

/-- `blinded25_id_from_ed`. The blinded key is made from the positive one of the two Ed25519 keys
that share a BChat id. -/
def blinded25IdFromEd (na : Sodium) (ed : Ed25519) (edPubkey : Key) (serverPk : Bytes)
    (bchatId : Option Bytes) : Except Err (Bytes × Option Bytes) := do
  let serverPk ← asKey serverPk
    (.invalidArgument "blind25_id_from_ed: server_pk must be 32 bytes")
  let given := bchatId.getD []
  if given.length ≠ 0 ∧ given.length ≠ 33 then
    throw (.invalidArgument "blind25_id_from_ed: bchat_id pointer must be 0 or 33 bytes")
  let own ← if given.length = 0 then bchatIdFromEd na edPubkey else pure given
  let id ← blindPoint ed 0x25 (blind25Factor na ed own serverPk) (clearSign edPubkey)
  return (id, bchatId.map fun _ => own)

/-- What `blind15_key_pair` and `blind25_key_pair` return: the blinded public key and scalar, and
the factor. -/
structure BlindedKeyPair where
  A : Key
  a : Key
  k : Key
  deriving DecidableEq

def blindKeyPair (na : Sodium) (ed : Ed25519) (sk : SecretKey) (k : Key) : BlindedKeyPair :=
  let a := ed.scalarMul k (na.skToCurve sk)
  ⟨ed.scalarmultBase a, a, k⟩

def blindKeySizeError : Err := .invalidArgument
  "blind15_key_pair: Invalid ed25519_sk is not the expected 32- or 64-byte value"

/-- `blind15_key_pair`. -/
def blind15KeyPair (na : Sodium) (ed : Ed25519) (ed25519Sk serverPk : Bytes) :
    Except Err BlindedKeyPair :=
  match fullSecretKey na ed25519Sk with
  | none => .error blindKeySizeError
  | some sk => do
    let serverPk ← asKey serverPk
      (.invalidArgument "blind15_key_pair: server_pk must be 32 bytes")
    return blindKeyPair na ed sk (blind15Factor na ed serverPk)

/-- `blind25_key_pair`. A negative public key takes the negated factor, so that the blinded key is
the one of the positive public key. -/
def blind25KeyPair (na : Sodium) (ed : Ed25519) (ed25519Sk serverPk : Bytes) :
    Except Err BlindedKeyPair :=
  match fullSecretKey na ed25519Sk with
  | none => .error blindKeySizeError
  | some sk => do
    let serverPk ← asKey serverPk
      (.invalidArgument "blind15_key_pair: server_pk must be 32 bytes")
    match na.pkToCurve sk.pk with
    | none => throw (.runtime
        "blind25_key_pair: Invalid ed25519_sk; conversion to curve25519 pubkey failed")
    | some xPk =>
      let k := blind25Factor na ed xPk.val serverPk
      return blindKeyPair na ed sk (if isNegative sk.pk then ed.scalarNegate k else k)

/-! ## The shared key -/

def keyPairFor (na : Sodium) (ed : Ed25519) (seed kA jB serverPk : Bytes) :
    Except Err BlindedKeyPair :=
  if kA.head? = some 0x15 ∧ jB.head? = some 0x15 then blind15KeyPair na ed seed serverPk
  else if kA.head? = some 0x25 ∧ jB.head? = some 0x25 then blind25KeyPair na ed seed serverPk
  else .error (.invalidArgument "Both ids must start with the same 0x15 or 0x25 prefix")

/-- The key of a blinded message. -/
def blindedSharedSecret (na : Sodium) (ed : Ed25519) (seed kA jB serverPk : Bytes)
    (sending : Bool) : Except Err Key :=
  match fullSecretKey na seed with
  | none => .error (.invalidArgument "Invalid ed25519_privkey: expected 32 or 64 bytes")
  | some sk =>
    if serverPk.length ≠ 32 then
      .error (.invalidArgument "Invalid server_pk: expected 32 bytes")
    else if kA.length ≠ 33 then
      .error (.invalidArgument "Invalid local blinded id: expected 33 bytes")
    else if hB : jB.length ≠ 33 then
      .error (.invalidArgument "Invalid remote blinded id: expected 33 bytes")
    else do
      let pair ← keyPairFor na ed seed kA jB serverPk
      let a := na.skToCurve sk
      -- with the same factor on both sides one of the two is left out
      let ka := if kA.head? = some 0x25 then ed.scalarMul a pair.k else a
      match ed.scalarmult ka ⟨jB.drop 1, by rw [List.length_drop, not_not.mp hB]⟩ with
      | none => .error (.runtime "Shared secret generation failed")
      | some shared =>
        let sender := if sending then kA else jB
        let recipient := if sending then jB else kA
        .ok (na.hash 32 [] (shared.val ++ sender.drop 1 ++ recipient.drop 1))

/-! ## Encryption -/

def blindedEncryptVersion : UInt8 := 0

/-- `encrypt_for_blinded_recipient`. -/
def encryptForBlindedRecipient (na : Sodium) (ed : Ed25519) (ed25519Privkey serverPk
    recipientBlindedId message : Bytes) (nonce : Nonce) : Except Err Bytes :=
  match fullSecretKey na ed25519Privkey with
  | none => .error (.invalidArgument "Invalid ed25519_privkey: expected 32 or 64 bytes")
  | some sk =>
    if serverPk.length ≠ 32 then
      .error (.invalidArgument "Invalid server_pk: expected 32 bytes")
    else if recipientBlindedId.length ≠ 33 then
      .error (.invalidArgument "Invalid recipient_blinded_id: expected 33 bytes")
    else do
      let (tag, pair) ← match recipientBlindedId.head? with
        | some 0x15 => (blind15KeyPair na ed ed25519Privkey serverPk).map ((0x15 : UInt8), ·)
        | some 0x25 => (blind25KeyPair na ed ed25519Privkey serverPk).map ((0x25 : UInt8), ·)
        | _ => .error (.invalidArgument
            "Invalid recipient_blinded_id: must start with 0x15 or 0x25")
      let encKey ← blindedSharedSecret na ed ed25519Privkey (tag :: pair.A.val)
        recipientBlindedId serverPk true
      .ok (blindedEncryptVersion ::
        (na.aeadEncrypt encKey nonce (message ++ sk.pk.val) ++ nonce.val))

/-! ## Decryption -/

def blindedIdFromEd (na : Sodium) (ed : Ed25519) (tag : UInt8) (edPubkey : Key) (serverPk : Bytes)
    (bchatId : Option Bytes) : Except Err (Bytes × Option Bytes) :=
  if tag = 0x25 then blinded25IdFromEd na ed edPubkey serverPk bchatId
  else blinded15IdFromEd na ed edPubkey serverPk bchatId

/-- The id a message claims is the one of the key inside it. With prefix `0x15` a bit of the id is
flipped for a second try. -/
def matchesSender (senderId extracted : Bytes) : Bool :=
  senderId == extracted ||
    (extracted.head? == some 0x15 && senderId == extracted.modify 31 (· ^^^ 0x80))

/-- The part of `decrypt_from_blinded_recipient` after the decryption. -/
def readBlinded (na : Sodium) (ed : Ed25519) (tag : UInt8) (serverPk senderId buf : Bytes)
    (hbuf : 32 ≤ buf.length) : Except Err (Bytes × Bytes) := do
  let senderEdPk : Key := ⟨buf.drop (buf.length - 32), by rw [List.length_drop]; omega⟩
  match na.pkToCurve senderEdPk with
  | none => throw (.runtime "Sender ed25519 pubkey to x25519 pubkey conversion failed")
  | some senderXPk =>
    let (extracted, _) ← blindedIdFromEd na ed tag senderEdPk serverPk (some [])
    if matchesSender senderId extracted then
      return (buf.take (buf.length - 32), bchatIdOf senderXPk)
    else throw (.runtime "Blinded sender id does not match the actual sender")

lemma length_blindedNonce {ciphertext : Bytes}
    (hsize : 24 + 1 + aeadOverhead ≤ ciphertext.length) :
    (ciphertext.drop (ciphertext.length - aeadOverhead - 1 - 24 + 1 + aeadOverhead)).length =
        24 := by
  rw [List.length_drop]
  omega

lemma le_length_inner {n : Nat} {buf : Bytes} (hbuf : buf.length = n) (hmsg : ¬n < 32) :
    32 ≤ buf.length :=
  hbuf ▸ not_lt.mp hmsg

/-- The part of `decrypt_from_blinded_recipient` from the version byte on: version, ciphertext and
nonce are `data[0]`, `data[1:-24]` and `data[-24:]`. -/
def openBlinded (na : Sodium) (ed : Ed25519) (tag : UInt8) (serverPk senderId : Bytes)
    (decKey : Key)
    (ciphertext : Bytes) (hsize : 24 + 1 + aeadOverhead ≤ ciphertext.length) :
    Except Err (Bytes × Bytes) :=
  let msgSize := ciphertext.length - aeadOverhead - 1 - 24
  if ciphertext.head? ≠ some blindedEncryptVersion then
    .error (.invalidArgument "Invalid ciphertext: version is not 0")
  else if hmsg : msgSize < 32 then
    .error (.invalidArgument "Invalid ciphertext: innerBytes too short")
  else
    let nonce : Nonce :=
      ⟨ciphertext.drop (msgSize + 1 + aeadOverhead), length_blindedNonce hsize⟩
    match na.aeadDecrypt decKey nonce ((ciphertext.drop 1).take (msgSize + aeadOverhead)) with
    | none => .error (.invalidArgument "Decryption failed")
    | some buf =>
      if hbuf : buf.length = msgSize then
        readBlinded na ed tag serverPk senderId buf (le_length_inner hbuf hmsg)
      else .error .assertion

/-- `decrypt_from_blinded_recipient`. Whether the message is an own one is seen from the ids. -/
def decryptFromBlindedRecipient (na : Sodium) (ed : Ed25519) (ed25519Privkey serverPk senderId
    recipientId ciphertext : Bytes) : Except Err (Bytes × Bytes) :=
  match fullSecretKey na ed25519Privkey with
  | none => .error (.invalidArgument "Invalid ed25519_privkey: expected 32 or 64 bytes")
  | some sk =>
    if hsize : 24 + 1 + aeadOverhead ≤ ciphertext.length then
      match recipientId.head? with
      | none => .error .outOfRange
      | some tag => do
        let (blindedId, _) ← blindedIdFromEd na ed tag sk.pk serverPk none
        let decKey ← if senderId = blindedId
          then blindedSharedSecret na ed sk.val senderId recipientId serverPk true
          else blindedSharedSecret na ed sk.val recipientId senderId serverPk false
        openBlinded na ed tag serverPk senderId decKey ciphertext hsize
    else .error (.invalidArgument "Invalid ciphertext: too short to contain valid encrypted data")

end Bchat.Messages
