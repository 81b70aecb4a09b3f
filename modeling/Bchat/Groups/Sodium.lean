import Bchat.Config.Encrypt

/-!
# Encrypting for several recipients

`multi_encrypt.hpp`: the same message, encrypted once per recipient under a key both sides can
compute, so that each recipient finds its own copy by trial. The group keys are sent this way.

libsodium is the parameter `Sodium`. Buffers of a fixed size are subtypes, so the size checks of
the source are left out where the callers pass arrays.
-/

namespace Bchat.Groups

open Config

/-- A 64-byte Ed25519 secret key: the seed, followed by the public key. -/
abbrev SecretKey := {b : Bytes // b.length = 64}

def SecretKey.seed (sk : SecretKey) : Key := ⟨sk.val.take 32, by rw [List.length_take, sk.2]; rfl⟩

def SecretKey.pk (sk : SecretKey) : Key := ⟨sk.val.drop 32, by rw [List.length_drop, sk.2]⟩

def SecretKey.ofSeed (seed pk : Key) : SecretKey :=
  ⟨seed.val ++ pk.val, by rw [List.length_append, seed.2, pk.2]⟩

@[simp] lemma SecretKey.pk_ofSeed (seed pk : Key) : (SecretKey.ofSeed seed pk).pk = pk := by
  apply Subtype.ext
  exact List.drop_left' seed.2

/-- What the group code uses of libsodium. -/
structure Sodium where
  /-- BLAKE2b with a key and a result of the given size. -/
  hash : (size : Nat) → Bytes → Bytes → {b : Bytes // b.length = size}
  /-- `crypto_sign_ed25519_pk_to_curve25519`. -/
  pkToCurve : Key → Option Key
  /-- `crypto_sign_ed25519_sk_to_curve25519`. -/
  skToCurve : SecretKey → Key
  /-- `crypto_scalarmult_curve25519`. -/
  scalarmult : Key → Key → Option Key
  /-- The public key `crypto_sign_ed25519_seed_keypair` makes. -/
  seedPk : Key → Key
  /-- `crypto_aead_xchacha20poly1305_ietf_encrypt`. -/
  aeadEncrypt : Key → Nonce → Bytes → Bytes
  /-- `crypto_aead_xchacha20poly1305_ietf_decrypt`. -/
  aeadDecrypt : Key → Nonce → Bytes → Option Bytes
  /-- `crypto_sign_ed25519_detached`. -/
  sign : SecretKey → Bytes → Signature
  /-- `crypto_sign_ed25519_verify_detached`. -/
  verify : Key → Bytes → Signature → Bool
  /-- `randombytes_buf_deterministic`. -/
  randomBytes : (size : Nat) → Key → {b : Bytes // b.length = size}
  /-- What an array holds that nothing was written to. -/
  uninitialized : Key
  aeadEncrypt_length : ∀ k n m, (aeadEncrypt k n m).length = m.length + 16
  aeadDecrypt_encrypt : ∀ k n m, aeadDecrypt k n (aeadEncrypt k n m) = some m

def aeadOverhead : Nat := 16

/-- The nonce of a message. -/
def nonceOf (nonce : Bytes) : Except Err Nonce :=
  if h : 24 ≤ nonce.length then .ok ⟨nonce.take 24, by rw [List.length_take]; omega⟩
  else .error (.logic "nonce must be 24 bytes")

/-- `encrypt_multi_key`: `a`/`A` is the sender when encrypting and the recipient when decrypting,
and `B` the other side. -/
def encryptMultiKey (na : Sodium) (a A B : Key) (encrypting : Bool) (domain : Bytes) :
    Except Err Key :=
  match na.scalarmult a B with
  | none => .error (.invalidArgument "Unable to compute shared encrypted key: invalid pubkey?")
  | some buf =>
    let S := if encrypting then A else B
    let R := if encrypting then B else A
    .ok (na.hash 32 domain (buf.val ++ S.val ++ R.val))

/-- The loop of `encrypt_for_multiple`: what `call` is given. -/
def encryptEach (na : Sodium) (nonce : Nonce) (privkey pubkey : Key) (domain : Bytes)
    (ignoreInvalid : Bool) : List (Key × Bytes) → Except Err (List Bytes)
  | [] => .ok []
  | (r, m) :: rest =>
    match encryptMultiKey na privkey pubkey r true domain with
    | .error e =>
      if ignoreInvalid then encryptEach na nonce privkey pubkey domain ignoreInvalid rest
      else .error e
    | .ok key => do
      let out ← encryptEach na nonce privkey pubkey domain ignoreInvalid rest
      .ok (na.aeadEncrypt key nonce m :: out)

/-- `encrypt_for_multiple`. -/
def encryptForMultiple (na : Sodium) (messages : List Bytes) (recipients : List Key)
    (nonce : Bytes) (privkey pubkey : Key) (domain : Bytes) (ignoreInvalid : Bool) :
    Except Err (List Bytes) := do
  let nonce ← nonceOf nonce
  match messages with
  | [m] => encryptEach na nonce privkey pubkey domain ignoreInvalid (recipients.map (·, m))
  | _ =>
    if messages.length ≠ recipients.length then
      .error (.logic "encrypt_for_multiple requires either 1 or recipients.size() messages")
    else encryptEach na nonce privkey pubkey domain ignoreInvalid (recipients.zip messages)

/-- Opens one ciphertext. -/
def decryptMulti (na : Sodium) (key : Key) (nonce : Nonce) (ciphertext : Bytes) : Option Bytes :=
  if ciphertext.length < aeadOverhead then none else na.aeadDecrypt key nonce ciphertext

/-! ## BChat ids -/

/-- The value of a hexadecimal digit. -/
def hexValue (b : UInt8) : Option UInt8 :=
  if ascii '0' ≤ b ∧ b ≤ ascii '9' then some (b - 48)
  else if ascii 'a' ≤ b ∧ b ≤ ascii 'f' then some (b - 87)
  else if ascii 'A' ≤ b ∧ b ≤ ascii 'F' then some (b - 55)
  else none

/-- `from_hex`, after `is_hex`. -/
def fromHex : Bytes → Option Bytes
  | [] => some []
  | [_] => none
  | a :: b :: rest =>
    match hexValue a, hexValue b, fromHex rest with
    | some x, some y, some out => some ((16 * x + y) :: out)
    | _, _, _ => none

/-- The id in an error message. -/
def showId (id : Bytes) : String := String.ofList (id.map fun b => Char.ofNat b.toNat)

/-- The key in a Bchat id. -/
def bchatIdPk (id : Bytes) : Except Err Key :=
  match (if id.take 2 = bytes "05" then fromHex (id.drop 2) else none) with
  | some pk => if h : pk.length = 32 then .ok ⟨pk, h⟩ else invalidId id
  | none => invalidId id
where
  invalidId (id : Bytes) : Except Err Key :=
    .error (.invalidArgument
      ("Invalid bchat ID: expected 66 hex digits starting with 05; got " ++ showId id))

/-- The public keys of a list of ids, or the error of the first invalid one. -/
def bchatIdPks : List Bytes → Except Err (List Key)
  | [] => .ok []
  | id :: rest => do
    let pk ← bchatIdPk id
    let pks ← bchatIdPks rest
    .ok (pk :: pks)

/-! ## A sample -/

def lastBytes (size : Nat) (b : Bytes) : {b : Bytes // b.length = size} :=
  ⟨(List.replicate size 0 ++ b).drop b.length, by simp⟩

/-- Functions that show who can read and write what: a hash is the end of its input, a shared key
the sum of the two keys, the tag of a ciphertext the beginning of its key, and a signature the key
that verifies it. -/
def plainSodium : Sodium where
  hash size _ data := lastBytes size data
  pkToCurve pk := some pk
  skToCurve sk := sk.pk
  scalarmult a B := some ⟨List.zipWith (· + ·) a.val B.val, by simp [a.2, B.2]⟩
  seedPk seed := seed
  aeadEncrypt k _ m := m ++ k.val.take 16
  aeadDecrypt k _ c :=
    if c.drop (c.length - 16) = k.val.take 16 then some (c.take (c.length - 16)) else none
  sign sk _ := ⟨sk.pk.val ++ List.replicate 32 0, by simp [sk.pk.2]⟩
  verify pk _ sig := sig.val.take 32 = pk.val
  randomBytes size _ := ⟨List.replicate size 0, length_zeros size⟩
  uninitialized := ⟨List.replicate 32 0, length_zeros_32⟩
  aeadEncrypt_length k _ m := by simp [k.2]
  aeadDecrypt_encrypt k _ m := by simp [k.2]

end Bchat.Groups
