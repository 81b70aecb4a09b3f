import Bchat.Config.Oxenc

/-!
# Encrypting config messages

`src/config/encrypt.cpp`: the key depends on the size of the message, the nonce on its content and
stands behind the ciphertext. Messages are padded with zeros in front so that their sizes say less.

libsodium is a parameter.
-/

namespace Bchat.Config

/-- A key of 32 bytes. -/
abbrev Key := {b : Bytes // b.length = 32}

def zeroKey : Key := ⟨List.replicate 32 0, length_zeros_32⟩

/-- A nonce of 24 bytes. -/
abbrev Nonce := {b : Bytes // b.length = 24}

/-- An encryption domain; other sizes make `make_encrypt_key` throw. -/
abbrev Domain := {b : Bytes // 1 ≤ b.length ∧ b.length ≤ 24}

/-- `ENCRYPT_DATA_OVERHEAD`: the authentication tag and the nonce. -/
def encryptDataOverhead : Nat := 40

/-- What `encrypt.cpp` uses of libsodium. -/
structure Aead where
  /-- BLAKE2b with a result of 32 bytes. -/
  keyHash : Bytes → Key
  /-- BLAKE2b with a key and a result of 24 bytes. -/
  nonceHash : Bytes → Bytes → Nonce
  /-- `crypto_aead_xchacha20poly1305_ietf_encrypt`. -/
  aeadEncrypt : Key → Nonce → Bytes → Bytes
  /-- `crypto_aead_xchacha20poly1305_ietf_decrypt`. -/
  aeadDecrypt : Key → Nonce → Bytes → Option Bytes
  aeadEncrypt_length : ∀ k n m, (aeadEncrypt k n m).length = m.length + 16
  aeadDecrypt_encrypt : ∀ k n m, aeadDecrypt k n (aeadEncrypt k n m) = some m

/-- `make_encrypt_key`. -/
def makeEncryptKey (aead : Aead) (keyBase : Key) (messageSize : Nat) (domain : Domain) : Key :=
  aead.keyHash (keyBase.val ++ natBytes 8 messageSize ++ domain.val)

/-- `encrypt` into a vector, which is filled with zeros before it is written to. -/
def encrypt (aead : Aead) (message : Bytes) (keyBase : Key) (domain : Domain) : Bytes :=
  let key := makeEncryptKey aead keyBase message.length domain
  let nonce := aead.nonceHash (bytes "libbchatutil-config-encrypted-" ++ domain.val) message
  aead.aeadEncrypt key nonce message ++ nonce.val

/-- `decrypt`. -/
def decrypt (aead : Aead) (ciphertext : Bytes) (keyBase : Key) (domain : Domain) :
    Except Err Bytes :=
  if h : ciphertext.length < encryptDataOverhead then
    .error (.decrypt "Decryption failed: ciphertext is too short")
  else
    let nonce : Nonce := ⟨ciphertext.drop (ciphertext.length - 24), by
      rw [List.length_drop]
      unfold encryptDataOverhead at h
      omega⟩
    let key := makeEncryptKey aead keyBase (ciphertext.length - encryptDataOverhead) domain
    match aead.aeadDecrypt key nonce (ciphertext.take (ciphertext.length - 24)) with
    | some message => .ok message
    | none => .error (.decrypt "Message decryption failed")

/-- The size a message is padded to. -/
def paddedSize (s overhead : Nat) : Nat :=
  let s2 := s + overhead
  let chunk := if s2 < 5120 then 256 else if s2 < 20480 then 1024 else if s2 < 40960 then 2048
    else 5120
  (s2 + chunk - 1) / chunk * chunk - overhead

/-- `pad_message`. -/
def padMessage (data : Bytes) (overhead : Nat) : Bytes :=
  List.replicate (paddedSize data.length overhead - data.length) 0 ++ data

/-! ## Round trips -/

lemma encrypt_length (aead : Aead) (message : Bytes) (keyBase : Key) (domain : Domain) :
    (encrypt aead message keyBase domain).length = message.length + encryptDataOverhead := by
  unfold encrypt
  rw [List.length_append, aead.aeadEncrypt_length, (aead.nonceHash _ _).2]
  rfl

lemma decrypt_encrypt (aead : Aead) (message : Bytes) (keyBase : Key) (domain : Domain) :
    decrypt aead (encrypt aead message keyBase domain) keyBase domain = .ok message := by
  have hlen := encrypt_length aead message keyBase domain
  have hbody : (encrypt aead message keyBase domain).length - 24 = message.length + 16 := by
    rw [hlen]
    rfl
  have hsize : (encrypt aead message keyBase domain).length - encryptDataOverhead =
      message.length := by omega
  unfold decrypt
  rw [dif_neg (by omega)]
  simp only [hbody, hsize]
  unfold encrypt
  have htake : ∀ (key : Key) (nonce : Nonce), (aead.aeadEncrypt key nonce message ++ nonce.val).take
      (message.length + 16) = aead.aeadEncrypt key nonce message := fun key nonce =>
    List.take_left' (aead.aeadEncrypt_length key nonce message)
  have hdrop : ∀ (key : Key) (nonce : Nonce), (aead.aeadEncrypt key nonce message ++ nonce.val).drop
      (message.length + 16) = nonce.val := fun key nonce =>
    List.drop_left' (aead.aeadEncrypt_length key nonce message)
  simp only [htake, hdrop, Subtype.coe_eta, aead.aeadDecrypt_encrypt]

lemma le_paddedSize (s overhead : Nat) : s ≤ paddedSize s overhead := by
  unfold paddedSize
  simp only
  split
  · omega
  split
  · omega
  split
  · omega
  · omega

lemma padMessage_length (data : Bytes) (overhead : Nat) :
    (padMessage data overhead).length = paddedSize data.length overhead := by
  have := le_paddedSize data.length overhead
  unfold padMessage
  rw [List.length_append, List.length_replicate]
  omega

end Bchat.Config
