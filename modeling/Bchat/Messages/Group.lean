import Bchat.Groups.Keys
import Bchat.Config.Multipart

/-!
# Group messages

`encrypt_for_group` and `decrypt_group_message` (`bchat_encrypt.cpp`). A message is signed together
with the public key of the group, written as a bencoded dict, filled up with zeros and encrypted
under a key of the group.

* The nonce, which the source draws at random, is an argument.
* libsodium does not fail to encrypt and zstd does not fail to compress.
-/

namespace Bchat.Messages

open Config Groups Bencode

variable (na : Sodium) (closed : Bool) (zstd : Zstd) (d : BtDict)

def groupsMaxPlaintextMessageSize : Nat := 1000000

/-- `GROUPS_ENCRYPT_OVERHEAD`: the nonce and the tag. -/
def groupsEncryptOverhead : Nat := 24 + aeadOverhead

/-- A secret key given whole or as its seed. -/
def fullSecretKey (privkey : Bytes) : Option SecretKey :=
  if h : privkey.length = 32 then
    some (SecretKey.ofSeed ⟨privkey, h⟩ (na.seedPk ⟨privkey, h⟩))
  else if h : privkey.length = 64 then some ⟨privkey, h⟩
  else none

/-- The part of a 32- or 64-byte key that is used as encryption key. -/
def encKey (key : Bytes) : Option Key :=
  if h : key.length = 32 ∨ key.length = 64 then
    some ⟨key.take 32, by rw [List.length_take]; omega⟩
  else none

def hexDigit (n : UInt8) : UInt8 := if n < 10 then 48 + n else 87 + n

def toHex (b : Bytes) : Bytes := b.flatMap fun x => [hexDigit (x / 16), hexDigit (x % 16)]

/-- The Bchat id of a key. -/
def bchatIdOf (xPk : Key) : Bytes := bytes "05" ++ toHex xPk.val

/-- `zstd_decompress`, with its limit on the size of the result. -/
def zstdDecompress (data : Bytes) (maxSize : Nat) : Option Bytes :=
  match zstd.decompress data with
  | some out => if 0 < maxSize ∧ maxSize < out.length then none else some out
  | none => none

/-! ## Encryption -/

/-- The data of a message and whether they are compressed: that is done only where it helps. -/
def groupData (compress : Bool) (plaintext : Bytes) : Bytes × Bool :=
  if compress ∧ (zstd.compress 1 plaintext).length < plaintext.length then
    (zstd.compress 1 plaintext, true)
  else (plaintext, false)

/-- The dict that is encrypted. -/
def groupDict (edPk : Key) (data : Bytes) (compressed : Bool) (signature : Signature) : BtDict :=
  (bytes "", .int 1) :: (bytes "a", .str edPk.val) ::
    if compressed then [(bytes "s", .str signature.val), (bytes "z", .str data)]
    else [(bytes "d", .str data), (bytes "s", .str signature.val)]

/-- The number of zeros after a dict of the given size. -/
def groupPadding (padding size : Nat) : Nat :=
  let finalLen := groupsEncryptOverhead + size
  if 1 < padding ∧ finalLen % padding ≠ 0 then padding - finalLen % padding else 0

/-- `encrypt_for_group`. -/
def encryptForGroup (userEd25519Privkey groupEd25519Pubkey groupEncKey plaintext : Bytes)
    (compress : Bool) (padding : Nat) (nonce : Nonce) : Except Err Bytes :=
  if groupsMaxPlaintextMessageSize < plaintext.length then
    .error (.runtime "Cannot encrypt plaintext: message size is too large")
  else
    match fullSecretKey na userEd25519Privkey with
    | none => .error (.invalidArgument "Invalid user_ed25519_privkey: expected 32 or 64 bytes")
    | some sk =>
      match encKey groupEncKey with
      | none => .error (.invalidArgument "Invalid group_enc_key: expected 32 or 64 bytes")
      | some key =>
        if groupEd25519Pubkey.length ≠ 32 then
          .error (.invalidArgument "Invalid group_ed25519_pubkey: expected 32 bytes")
        else
          let (data, compressed) := groupData zstd compress plaintext
          let signature := na.sign sk (data ++ groupEd25519Pubkey)
          let encoded := encodeDict (groupDict sk.pk data compressed signature)
          let padded := encoded ++ List.replicate (groupPadding padding encoded.length) 0
          .ok (nonce.val ++ na.aeadEncrypt key nonce padded)

/-! ## Decryption -/

structure DecryptGroupMessage where
  index : Nat
  bchatId : Bytes
  plaintext : Bytes
  deriving DecidableEq, Repr

/-- Tries the keys one after the other. -/
def openWithKeys (na : Sodium) (nonce : Nonce) (ciphertext : Bytes) :
    Nat → List Bytes → Except Err (Nat × Bytes)
  | _, [] => .error (.runtime "unable to decrypt ciphertext with any current group keys")
  | index, privkey :: rest =>
    match encKey privkey with
    | none => .error (.invalidArgument "Invalid decrypt_ed25519_privkey: expected 32 or 64 bytes")
    | some key =>
      match na.aeadDecrypt key nonce ciphertext with
      | some plain => .ok (index, plain)
      | none => openWithKeys na nonce ciphertext (index + 1) rest

/-- Removes zeros from the end; data that are all zero stay as they are. -/
def removeNulls (plain : Bytes) : Bytes :=
  if plain.all (· == 0) then plain else plain.rdropWhile (· == 0)

def readVersion : Except Err BtDict := do
  match ← seek closed (bytes "") d with
  | (none, _) => .error (.runtime "group message version tag (\"\") is missing")
  | (some (.int v), rest) =>
    if ¬(-2 ^ 31 ≤ v ∧ v < 2 ^ 31) then .error .oxenc
    else if v ≠ 1 then
      .error (.runtime s!"group message version tag ({v}) is not compatible (we support v1)")
    else .ok rest
  | (some _, _) => .error .oxenc

def readAuthor : Except Err (Key × BtDict) := do
  match ← seek closed (bytes "a") d with
  | (none, _) => .error (.runtime "missing message author pubkey")
  | (some (.str edPk), rest) =>
    let size := edPk.length
    if h : size = 32 then .ok (⟨edPk, h⟩, rest)
    else .error (.runtime s!"message author pubkey size ({size}) is invalid")
  | (some _, _) => .error .oxenc

def readUncompressed : Except Err (Bytes × BtDict) := do
  match ← seek closed (bytes "d") d with
  | (none, rest) => .ok ([], rest)
  | (some (.str raw), rest) =>
    if raw = [] then .error (.runtime "uncompressed message data (\"d\") cannot be empty")
    else .ok (raw, rest)
  | (some _, _) => .error .oxenc

def readSignature : Except Err (Signature × BtDict) := do
  match ← seek closed (bytes "s") d with
  | (none, _) => .error (.runtime "message signature is missing")
  | (some (.str edSig), rest) =>
    let size := edSig.length
    if h : size = 64 then .ok (⟨edSig, h⟩, rest)
    else .error (.runtime s!"message signature size ({size}) is invalid")
  | (some _, _) => .error .oxenc

def readCompressed (raw : Bytes) (d : BtDict) : Except Err (Bytes × Bool) := do
  match ← seek closed (bytes "z") d with
  | (none, _) =>
    if raw = [] then
      .error (.runtime "message must contain compressed (z) or uncompressed (d) data")
    else .ok (raw, false)
  | (some v, _) =>
    if raw ≠ [] then
      .error (.runtime
        "message signature cannot contain both compressed (z) and uncompressed (d) data")
    else
      match v with
      | .str raw =>
        if raw = [] then .error (.runtime "compressed message data (\"z\") cannot be empty")
        else .ok (raw, true)
      | _ => .error .oxenc

/-- What is read from an opened message before the signature is checked. -/
structure GroupBody where
  edPk : Key
  bchatId : Bytes
  rawData : Bytes
  compressed : Bool
  edSig : Signature

def readGroupPairs (pairs : BtDict) : Except Err GroupBody := do
  let rest ← readVersion closed pairs
  let (edPk, rest) ← readAuthor closed rest
  match na.pkToCurve edPk with
  | none => .error (.runtime
      "author ed25519 pubkey is invalid (unable to convert it to a bchat id)")
  | some xPk =>
    let (raw, rest) ← readUncompressed closed rest
    let (edSig, rest) ← readSignature closed rest
    let (raw, compressed) ← readCompressed closed raw rest
    .ok ⟨edPk, bchatIdOf xPk, raw, compressed, edSig⟩

/-- The part of `decrypt_group_message` from the decryption to the signature. -/
def readGroupBody (opened : Bytes) : Except Err GroupBody :=
  let plain := removeNulls opened
  if plain.head? ≠ some (ascii 'd') ∨ plain.getLast? ≠ some (ascii 'e') then
    .error (.runtime "decrypted data is not a bencoded dict")
  else
    match readDict plain with
    | none => .error .oxenc
    | some (pairs, closed) => readGroupPairs na closed pairs

def inflateBody (body : GroupBody) : Except Err Bytes :=
  if body.compressed then
    match zstdDecompress zstd body.rawData groupsMaxPlaintextMessageSize with
    | some data => .ok data
    | none => .error (.runtime "message decompression failed")
  else .ok body.rawData

/-- The part of `decrypt_group_message` after the decryption. -/
def readGroupMessage (groupEd25519Pubkey : Bytes) (index : Nat) (opened : Bytes) :
    Except Err DecryptGroupMessage := do
  let body ← readGroupBody na opened
  if na.verify body.edPk (body.rawData ++ groupEd25519Pubkey) body.edSig then do
    let data ← inflateBody zstd body
    .ok ⟨index, body.bchatId, data⟩
  else .error (.runtime "message signature failed validation")

/-- `decrypt_group_message`. -/
def decryptGroupMessage (decryptEd25519PrivkeyList : List Bytes)
    (groupEd25519Pubkey ciphertext : Bytes) : Except Err DecryptGroupMessage :=
  if h : ciphertext.length < groupsEncryptOverhead then
    .error (.runtime "ciphertext is too small to be encrypted data")
  else if groupEd25519Pubkey.length ≠ 32 then
    .error (.invalidArgument "Invalid decrypt_ed25519_privkey: expected 32 bytes")
  else do
    let nonce : Nonce := ⟨ciphertext.take 24, by
      rw [List.length_take]
      unfold groupsEncryptOverhead at h
      omega⟩
    let (index, plain) ← openWithKeys na nonce (ciphertext.drop 24) 0 decryptEd25519PrivkeyList
    readGroupMessage na zstd groupEd25519Pubkey index plain

/-! ## Messages to one recipient

`sign_for_recipient`, `encrypt_for_recipient` and `decrypt_incoming` (`bchat_encrypt.cpp`). A
message `M` is signed by the sender `A` for the recipient `Y`, and `M || A || SIG` is put into a
sealed box for `Y`; the recipient is known by the X25519 key.

* The sealed boxes of libsodium are the parameter `SealedBox`. The ephemeral key pair, which
  libsodium draws at random, is an argument.
* libsodium does not fail to sign.
-/

section

def sealBytes : Nat := 48

/-- The anonymous boxes of libsodium. -/
structure SealedBox where
  /-- `crypto_scalarmult_base`. -/
  scalarmultBase : Key → Key
  /-- `crypto_box_seal`, given the ephemeral secret key. -/
  boxSeal : Key → Key → Bytes → Option Bytes
  /-- `crypto_box_seal_open`, given the public and the secret key of the recipient. -/
  boxSealOpen : Key → Key → (c : Bytes) → Option {m : Bytes // m.length + sealBytes = c.length}
  boxSeal_length : ∀ ephemeral pk m c, boxSeal ephemeral pk m = some c →
    c.length = m.length + sealBytes
  boxSealOpen_seal : ∀ ephemeral x m c, boxSeal ephemeral (scalarmultBase x) m = some c →
    (boxSealOpen (scalarmultBase x) x c).map Subtype.val = some m

variable (na : Sodium) (box : SealedBox)

def recipientKey (recipientPubkey : Bytes) : Except Err Key :=
  if h : recipientPubkey.length = 33 ∧ recipientPubkey.head? = some 0x05 then
    .ok ⟨recipientPubkey.drop 1, by rw [List.length_drop, h.1]⟩
  else if h : recipientPubkey.length = 32 then .ok ⟨recipientPubkey, h⟩
  else .error (.invalidArgument "Invalid recipient_pubkey: expected 32 bytes (33 with 05 prefix)")

/-- `sign_for_recipient`: `M || A || SIG`, where the signature is over `M || A || Y`. -/
def signForRecipient (ed25519Privkey recipientPubkey message : Bytes) :
    Except Err Bytes :=
  match fullSecretKey na ed25519Privkey with
  | none => .error (.invalidArgument "Invalid ed25519_privkey: expected 32 or 64 bytes")
  | some sk => do
    let recipient ← recipientKey recipientPubkey
    let sig := na.sign sk (message ++ sk.pk.val ++ recipient.val)
    .ok (message ++ sk.pk.val ++ sig.val)

/-- `encrypt_for_recipient`. -/
def encryptForRecipient (ed25519Privkey recipientPubkey message : Bytes) (ephemeral : Key) :
    Except Err Bytes := do
  let signedMsg ← signForRecipient na ed25519Privkey recipientPubkey message
  let recipient ← recipientKey recipientPubkey
  match box.boxSeal ephemeral recipient signedMsg with
  | some result => .ok result
  | none => .error (.runtime "Sealed box encryption failed")

def decryptIncomingX (x25519Pubkey x25519Seckey : Key) (ciphertext : Bytes) :
    Except Err (Bytes × Key) :=
  if hsize : ciphertext.length < sealBytes + 32 + 64 then
    .error (.runtime "Invalid incoming message: ciphertext is too small")
  else
    match box.boxSealOpen x25519Pubkey x25519Seckey ciphertext with
    | none => .error (.runtime "Decryption failed")
    | some ⟨buf, hbuf⟩ =>
      let msgSize := ciphertext.length - sealBytes - 32 - 64
      let senderEdPk : Key := ⟨(buf.drop msgSize).take 32, by
        rw [List.length_take, List.length_drop]
        omega⟩
      let sig : Signature := ⟨buf.drop (msgSize + 32), by
        rw [List.length_drop]
        omega⟩
      if na.verify senderEdPk (buf.take (msgSize + 32) ++ x25519Pubkey.val) sig then
        .ok (buf.take msgSize, senderEdPk)
      else .error (.runtime "Signature verification failed")

/-- `decrypt_incoming`. -/
def decryptIncoming (ed25519Privkey ciphertext : Bytes) :
    Except Err (Bytes × Key) :=
  match fullSecretKey na ed25519Privkey with
  | none => .error (.invalidArgument "Invalid ed25519_privkey: expected 32 or 64 bytes")
  | some sk =>
    let xSec := na.skToCurve sk
    decryptIncomingX na box (box.scalarmultBase xSec) xSec ciphertext

end

end Bchat.Messages
