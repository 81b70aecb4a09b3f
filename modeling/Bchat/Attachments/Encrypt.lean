import Bchat.Config.Encrypt

/-!
# Encrypting attachments

`attachments.cpp`: padding and data are cut into chunks of 32 KiB, and the chunks are pushed through
libsodium's secret stream. The padding is in front: zeros and a one.

* The secret stream is the parameter `SecretStream`, the hash the parameter `hash`.
* Sizes are natural numbers; where the source can go below zero the result is that of `size_t`.
* An output buffer that is written to step by step is the list of the bytes written so far.
-/

namespace Bchat.Attachments

open Config

/-- What is encrypted. -/
inductive Domain
  | attachment
  | profilePic
  deriving DecidableEq, Repr

def Domain.toByte : Domain → UInt8
  | .attachment => 0
  | .profilePic => 1

/-- How a call can end other than by returning. -/
inductive Failure
  /-- `std::runtime_error`. -/
  | runtime (what : String)
  /-- `std::logic_error`. -/
  | logic (what : String)
  /-- `std::invalid_argument`. -/
  | invalidArgument (what : String)
  /-- A failed `assert`. -/
  | assertion
  /-- Not an exception: a buffer is written to behind its end. -/
  | overrun
  /-- Not an exception: the call computes with memory that nothing was written to. -/
  | indeterminate
  deriving DecidableEq, Repr

def encryptHeader : Nat := 24

def encryptChunkSize : Nat := 32768

/-- The tag and MAC of a chunk. -/
def encryptChunkOverhead : Nat := 17

def encryptedChunkTotal : Nat := encryptChunkSize + encryptChunkOverhead

def maxRegularSize : Nat := 10218286

def tagFinal : UInt8 := 3

/-- The header of a stream. -/
abbrev StreamHeader := {b : Bytes // b.length = 24}

/-- What is used of libsodium's `crypto_secretstream_xchacha20poly1305`. Both sides have states of
one type, and what was pushed is pulled out again. -/
structure SecretStream where
  State : Type
  /-- The state after `init_push` with a header and after `init_pull`. -/
  init : StreamHeader → Key → State
  push : State → Bytes → UInt8 → Bytes × State
  pull : State → Bytes → Option (Bytes × UInt8 × State)
  push_length : ∀ st m tag, (push st m tag).1.length = m.length + 17
  pull_push : ∀ st m tag, pull st (push st m tag).1 = some (m, tag, (push st m tag).2)
  pull_length : ∀ st c m tag st', pull st c = some (m, tag, st') → c.length = m.length + 17

/-! ## Sizes -/

/-- The difference of two `size_t`. -/
def sizeSub (a b : Nat) : Nat := (a + 2 ^ 64 - b) % 2 ^ 64

/-- The number of chunks, the last one maybe partial. -/
def chunkCount (size chunkSize : Nat) : Nat := (size + chunkSize - 1) / chunkSize

/-- `std::bit_floor`. -/
def bitFloor (n : Nat) : Nat := if n = 0 then 0 else 2 ^ Nat.log2 n

/-- `encrypted_padding`. -/
def encryptedPadding (dataSize : Nat) : Nat :=
  let prefixSize := 1 + encryptHeader
  let minPadding := 1
  let streamChunks := chunkCount dataSize encryptChunkSize
  let encSize := dataSize + prefixSize + minPadding + streamChunks * encryptChunkOverhead
  let padFactor := bitFloor (max encSize 131072) >>> 5
  let paddedSize := (encSize + padFactor - 1) / padFactor * padFactor
  let padding := paddedSize - encSize + minPadding
  let fullImplicit :=
    if padding ≥ encryptedChunkTotal then (padding / encryptedChunkTotal) * encryptChunkOverhead
    else 0
  let freePadding := streamChunks * encryptChunkSize - dataSize
  let implicitPadding :=
    if padding % encryptedChunkTotal > freePadding then fullImplicit + encryptChunkOverhead
    else fullImplicit
  sizeSub padding implicitPadding

/-- `encrypted_size`. The padding can be close to `2 ^ 64`, so that the sums wrap around. -/
def encryptedSize (plaintextSize : Nat) : Nat :=
  let padding := encryptedPadding plaintextSize
  let paddedSize := (plaintextSize + padding) % 2 ^ 64
  let tagsSize :=
    (paddedSize + encryptChunkSize - 1) % 2 ^ 64 / encryptChunkSize * encryptChunkOverhead
  (1 + encryptHeader + plaintextSize + padding + tagsSize) % 2 ^ 64

/-- `decrypted_max_size`. -/
def decryptedMaxSize (encryptedSize : Nat) : Option Nat :=
  let sz := sizeSub encryptedSize (1 + 1 + encryptHeader)
  let overhead := (sz + encryptedChunkTotal - 1) % 2 ^ 64 / encryptedChunkTotal *
    encryptChunkOverhead
  let sz := sizeSub sz overhead
  if sz > encryptedSize then none else some sz

/-! ## Encryption -/

section

variable (ss : SecretStream)

/-- What the loops of `encrypt_impl` carry: the state of the stream, what was written behind the
header, the data not yet returned by `get_chunk`, and whether the last chunk was written. -/
structure EncryptState where
  st : ss.State
  written : Bytes
  data : Bytes
  done : Bool

variable {ss}

def EncryptState.pushChunk (outSize : Nat) (s : EncryptState ss) (buf : Bytes) (tag : UInt8) :
    Except Failure (EncryptState ss) :=
  if outSize < s.written.length + buf.length + encryptChunkOverhead then .error .assertion
  else
    let r := ss.push s.st buf tag
    if r.1.length ≠ buf.length + encryptChunkOverhead then .error .assertion
    else .ok { s with st := r.2, written := s.written ++ r.1 }

/-- `get_chunk` of a buffer: the next bytes, and whether there are more. -/
def EncryptState.getChunk (s : EncryptState ss) (size : Nat) : Bytes × Bool × EncryptState ss :=
  (s.data.take size, s.data.length > size, { s with data := s.data.drop size })

/-- The first loop of `encrypt_impl`: the padding, and the data behind it in the same chunk. -/
def pushPadding (outSize : Nat) (paddingRemaining : Nat) (s : EncryptState ss) :
    Except Failure (EncryptState ss) :=
  if paddingRemaining = 0 then .ok s
  else if encryptChunkSize < paddingRemaining then do
    let s ← s.pushChunk outSize (List.replicate encryptChunkSize 0) 0
    pushPadding outSize (paddingRemaining - encryptChunkSize) s
  else
    let buf := List.replicate (paddingRemaining - 1) 0 ++ [1]
    let (chunk, more, s) := s.getChunk (encryptChunkSize - paddingRemaining)
    if ¬(chunk.length = encryptChunkSize - paddingRemaining ∨ ¬more) then .error .assertion
    else do
      let s ← s.pushChunk outSize (buf ++ chunk) (if more then 0 else tagFinal)
      .ok { s with done := !more }
termination_by paddingRemaining
decreasing_by
  unfold encryptChunkSize at *
  omega

/-- The second loop of `encrypt_impl`: the rest of the data. -/
def pushData (outSize : Nat) (s : EncryptState ss) : Except Failure (EncryptState ss) :=
  if s.done then .ok s
  else
    let r := s.getChunk encryptChunkSize
    if r.1 = [] ∨ ¬(r.1.length = encryptChunkSize ∨ ¬r.2.1) then .error .assertion
    else
      match r.2.2.pushChunk outSize r.1 (if r.2.1 then 0 else tagFinal) with
      | .error e => .error e
      | .ok s' =>
        if _more : s.data.length > encryptChunkSize then
          pushData outSize { s' with data := s.data.drop encryptChunkSize }
        else .ok { s' with done := true }
termination_by s.data.length
decreasing_by
  rw [List.length_drop]
  unfold encryptChunkSize at *
  omega

/-- `encrypt_impl`. -/
def encryptImpl (outSize dataSize : Nat) (nonce : StreamHeader) (key : Key) (data : Bytes) :
    Except Failure Bytes :=
  let padding := encryptedPadding dataSize
  if ¬1 ≤ padding then .error .assertion
  else if outSize ≠ encryptedSize dataSize then .error .assertion
  else do
    let room := outSize - (1 + encryptHeader)
    let s : EncryptState ss := ⟨ss.init nonce key, [], data, false⟩
    let s ← pushPadding room padding s
    let s ← pushData room s
    .ok (ascii 'S' :: (nonce.val ++ s.written))

variable (ss)

/-- Key and nonce, derived from seed and data. -/
def nonceKey (hash : (size : Nat) → Bytes → Bytes → {b : Bytes // b.length = size})
    (seed data : Bytes)
    (domain : Domain) : StreamHeader × Key :=
  let h := hash 56 [domain.toByte] (seed.take 32 ++ data)
  (⟨h.val.take 24, by simp [h.2]⟩, ⟨h.val.drop 24, by simp [h.2]⟩)

/-- `encrypt` into a vector, which is filled with zeros before it is written to. -/
def encrypt (hash : (size : Nat) → Bytes → Bytes → {b : Bytes // b.length = size})
    (seed data : Bytes)
    (domain : Domain) (allowLarge : Bool) : Except Failure (Bytes × Key) :=
  if seed.length < 32 then
    .error (.invalidArgument "attachment::encrypt requires a 32-byte uploader seed")
  else if maxRegularSize < data.length ∧ ¬allowLarge then
    .error (.invalidArgument "data to encrypt is too large")
  else do
    let (nonce, key) := nonceKey hash seed data domain
    let size := encryptedSize data.length
    let written ← @encryptImpl ss size data.length nonce key data
    .ok (written ++ List.replicate (size - written.length) 0, key)

end

end Bchat.Attachments
