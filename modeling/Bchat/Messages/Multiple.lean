import Bchat.Groups.Keys

/-!
# Self-contained messages for several recipients

`encrypt_for_multiple_simple` and `decrypt_for_multiple_simple` of `multi_encrypt.cpp`: the copies
of `encrypt_for_multiple` in a dict together with their nonce, filled up with junk to a multiple of
`pad` entries.

The random bytes are a parameter: the nonce that is drawn where none is given, and the junk.
-/

namespace Bchat.Messages

open Config Groups Bencode

/-- The conversion of a size to `int`. -/
def toInt32 (n : Nat) : Int := Int.bmod n (2 ^ 32)

/-- `pad_size`: the size of a junk entry, or zero where none are added. -/
def padSize (messages : List Bytes) (pad : Int) : Int :=
  match messages with
  | m :: _ => if 1 < pad then toInt32 m.length else 0
  | [] => 0

/-- The loop that adds junk while the number of entries is not a multiple of `pad`; it ends before
its bound. -/
def junkLoop (pad : Nat) (junk : Nat → Bytes) : Nat → Nat → List Bytes
  | 0, _ => []
  | fuel + 1, msgCount =>
    if msgCount % pad ≠ 0 then junk msgCount :: junkLoop pad junk fuel (msgCount + 1) else []

/-- The junk behind the entries. -/
def junkEntries (random : Nat → (size : Nat) → {b : Bytes // b.length = size})
    (messages : List Bytes) (pad : Int) (msgCount : Nat) : Except Err (List Bytes) :=
  let size := padSize messages pad
  if size = 0 then .ok []
  else if size < 0 then .error (.length "vector::_M_default_append")
  else .ok (junkLoop pad.toNat (fun i => (random i size.toNat).val) pad.toNat msgCount)

/-- The nonce given, or one that is drawn. -/
def simpleNonce (drawn : Nonce) : Option Bytes → Except Err Nonce
  | none => .ok drawn
  | some nonce =>
    if h : nonce.length = 24 then .ok ⟨nonce, h⟩
    else .error (.invalidArgument "Invalid nonce: nonce must be 24 bytes")

def encodeSimple (nonce : Nonce) (entries : List Bytes) : Bytes :=
  encodeDict [(bytes "#", .str nonce.val), (bytes "e", .list (entries.map .str))]

/-- `encrypt_for_multiple_simple`. -/
def encryptForMultipleSimple (na : Sodium) (drawn : Nonce)
    (random : Nat → (size : Nat) → {b : Bytes // b.length = size}) (messages : List Bytes)
    (recipients : List Key) (privkey pubkey : Key) (domain : Bytes) (nonce : Option Bytes)
    (pad : Int) : Except Err Bytes := do
  let nonce ← simpleNonce drawn nonce
  let entries ← encryptForMultiple na messages recipients nonce.val privkey pubkey domain false
  let junk ← junkEntries random messages pad entries.length
  .ok (encodeSimple nonce (entries ++ junk))

/-- `decrypt_for_multiple_simple`; everything that is thrown ends in no result. -/
def decryptForMultipleSimple (na : Sodium) (encoded : Bytes) (privkey pubkey senderPubkey : Key)
    (domain : Bytes) : Option Bytes :=
  match readDict encoded with
  | none => none
  | some (d, closed) =>
    match seek closed (bytes "#") d with
    | .ok (some (.str nonce), d) =>
      if nonce.length ≠ 24 then none
      else
        match seek closed (bytes "e") d with
        | .ok (some (.list list), _) =>
          match decryptForMultiple na false (fun _ _ => .ok ()) list nonce privkey pubkey
              senderPubkey domain with
          | .ok opened => opened.plaintext
          | .error _ => none
        | _ => none
    | _ => none

end Bchat.Messages
