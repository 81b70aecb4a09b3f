import Bchat.Lib.Chunks
import Bchat.Attachments.Encrypt

/-!
# Decrypting attachments

`attachments.cpp` has two decoders: `decrypt` works on a buffer that holds the whole attachment, and
a `Decryptor` is fed with the attachment piece by piece. The overloads that read or write files use
a `Decryptor`.

* The bytes from `inpos` to `inend` are a list, from which the loops take chunk after chunk.
* The output callback of a `Decryptor` is the function `Output` on what was written before.
* Files can be opened, read and written; a file is its content.
-/

namespace Bchat.Attachments

open Config Chunks

variable {ss : SecretStream}

/-! ## The whole attachment at once -/

/-- Removes zeros and the terminator: the data behind them, or nothing if there are only zeros. -/
def padEnd (padbuf : Bytes) : Except Failure (Option Bytes) :=
  match padbuf.dropWhile (· == 0) with
  | [] => .ok none
  | c :: data =>
    if c ≠ 1 then .error (.runtime "Attachment decryption failed: invalid padding")
    else .ok (some data)

/-- The checks on the tag of a chunk: whether the stream is complete. -/
def checkTag (tag : UInt8) (rest : Bytes) : Except Failure Bool :=
  if tag = tagFinal then
    if rest ≠ [] then
      .error (.runtime "Attachment decryption failed: FINAL tag before end of the encrypted data")
    else .ok true
  else if rest = [] then
    .error (.runtime "Attachment decryption failed: end of data without FINAL tag")
  else .ok false

/-- The size of the next chunk. -/
def nextChunk (rest : Bytes) : Nat :=
  min (rest.length - encryptChunkOverhead) encryptChunkSize + encryptChunkOverhead

/-- The first loop of `decrypt`, which discards the chunks of padding: the data behind the padding
in its last chunk, the tag of that chunk, and what is left. -/
def discardPadding (st : ss.State) (rest : Bytes) :
    Except Failure (Bytes × UInt8 × ss.State × Bytes) :=
  if _h : rest.length ≤ encryptChunkOverhead then
    .error (.runtime "Attachment decryption failed: data ended in the middle of padding")
  else
    match ss.pull st (rest.take (nextChunk rest)) with
    | none => .error (.runtime "Attachment decryption failed: invalid key or corrupted data")
    | some (padbuf, tag, st) =>
      match padEnd padbuf with
      | .error e => .error e
      | .ok none => discardPadding st (rest.drop (nextChunk rest))
      | .ok (some initData) => .ok (initData, tag, st, rest.drop (nextChunk rest))
termination_by rest.length
decreasing_by
  rw [List.length_drop]
  unfold nextChunk encryptChunkOverhead at *
  omega

/-- What `decrypt` has between the two loops and in the second. -/
structure Depadded (ss : SecretStream) where
  decrypted : Bytes
  st : ss.State
  rest : Bytes
  done : Bool

/-- `final_size`, as it is asserted. -/
def finalSize (initData rest : Bytes) : Nat :=
  sizeSub (initData.length + rest.length)
    (chunkCount rest.length encryptedChunkTotal * encryptChunkOverhead)

/-- The end of the first loop: copies the first data. -/
def decryptPadding (outSize : Nat) (st : ss.State) (rest : Bytes) :
    Except Failure (Depadded ss) := do
  let (initData, tag, st, rest) ← discardPadding st rest
  if outSize < finalSize initData rest then .error .assertion
  else if outSize < initData.length then .error .overrun
  else do
    let done ← checkTag tag rest
    .ok ⟨initData, st, rest, done⟩

/-- The second loop of `decrypt`. -/
def decryptData (outSize : Nat) (s : Depadded ss) : Except Failure Bytes :=
  if s.done then .ok s.decrypted
  else if _h : s.rest.length ≤ encryptChunkOverhead then
    .error (.runtime "Attachment decryption failed: data ended before end of stream")
  else if outSize < s.decrypted.length + (nextChunk s.rest - encryptChunkOverhead) then
    .error .assertion
  else
    match ss.pull s.st (s.rest.take (nextChunk s.rest)) with
    | none => .error (.runtime "Attachment decryption failed: invalid key or corrupted data")
    | some (m, tag, st) =>
      match checkTag tag (s.rest.drop (nextChunk s.rest)) with
      | .error e => .error e
      | .ok done =>
        decryptData outSize ⟨s.decrypted ++ m, st, s.rest.drop (nextChunk s.rest), done⟩
termination_by s.rest.length
decreasing_by
  rw [List.length_drop]
  unfold nextChunk encryptChunkOverhead at *
  omega

def hexByte (b : UInt8) : String :=
  String.ofList [Nat.digitChar (b.toNat / 16), Nat.digitChar (b.toNat % 16)]

def orThrow {α : Type} (e : Failure) : Option α → Except Failure α
  | none => .error e
  | some a => .ok a

/-- The checks both overloads of `decrypt` begin with. -/
def checkEncrypted (encrypted : Bytes) : Except Failure Nat := do
  let maxSize ← orThrow (.runtime "Attachment decryption failed: encrypted data too short")
    (decryptedMaxSize encrypted.length)
  if encrypted.head? ≠ some (ascii 'S') then
    let kind := hexByte (encrypted.headD 0)
    .error (.runtime
      s!"Attachment decryption failed: unknown encryption type 0x{kind}; expected 0x53 (S)")
  else .ok maxSize

/-- `decrypt` into a buffer. -/
def decryptInto (ss : SecretStream) (encrypted : Bytes) (key : Key) (outSize : Nat) :
    Except Failure Bytes := do
  let maxSize ← checkEncrypted encrypted
  if outSize < maxSize then
    .error (.logic "Attachment decryption failed: output buffer too small to decrypt contents")
  else if h : encrypted.length < 1 + encryptHeader then .error .overrun
  else do
    let header : StreamHeader := ⟨(encrypted.drop 1).take 24, by
      rw [List.length_take, List.length_drop]
      unfold encryptHeader at h
      omega⟩
    let s ← decryptPadding outSize (ss.init header key) (encrypted.drop (1 + encryptHeader))
    decryptData outSize s

/-- `decrypt` of a buffer into a vector. -/
def decrypt (ss : SecretStream) (encrypted : Bytes) (key : Key) : Except Failure Bytes := do
  let maxSize ← checkEncrypted encrypted
  decryptInto ss encrypted key maxSize

/-! ## Piece by piece -/

/-- An output callback: what is written, given what was written before. -/
abbrev Output := Bytes → Bytes → Except Failure Bytes

/-- The callback that appends. -/
def collect : Output := fun written data => .ok (written ++ data)

/-- The callback that copies into a buffer of the given size. -/
def fill (size : Nat) : Output := fun written data =>
  if size - written.length < data.length then
    .error (.runtime "Decryption failed: output span is too small to contain decrypted data")
  else .ok (written ++ data)

/-- `Decryptor`, with what its callback was given. -/
structure Decryptor (ss : SecretStream) where
  key : Key
  buf : Bytes := []
  header : Bool := false
  depadded : Bool := false
  failed : Bool := false
  finished : Bool := false
  hitFinal : Bool := false
  /-- `st_data`, which nothing is written to before `header` is set. -/
  st : Option ss.State := none
  written : Bytes := []

namespace Decryptor

/-- `process_header`. -/
def processHeader (d : Decryptor ss) (hdr : Bytes) : Except Failure (Decryptor ss) :=
  if d.header then .error .assertion
  else if hdr.head? ≠ some (ascii 'S') then .ok { d with failed := true }
  else if h : (hdr.drop 1).length = 24 then
    .ok { d with st := some (ss.init ⟨hdr.drop 1, h⟩ d.key), header := true }
  else .error .assertion

/-- The part of `process_chunk` behind the decryption. -/
def emit (output : Output) (d : Decryptor ss) (out : Bytes) : Except Failure (Decryptor ss) :=
  if d.depadded then do
    let written ← output d.written out
    .ok { d with written := written }
  else
    match out.dropWhile (· == 0) with
    | [] => .ok d
    | c :: data =>
      if c ≠ 1 then .ok { d with failed := true }
      else if data = [] then .ok { d with depadded := true }
      else do
        let written ← output d.written data
        .ok { d with depadded := true, written := written }

/-- `process_chunk`. -/
def processChunk (output : Output) (d : Decryptor ss) (chunk : Bytes) (isFinal : Bool) :
    Except Failure (Decryptor ss) :=
  if d.hitFinal then .ok { d with failed := true }
  else if ¬(isFinal ∨ chunk.length = encryptedChunkTotal) ∨ encryptedChunkTotal < chunk.length then
    .error .assertion
  else if chunk.length < encryptChunkOverhead then .ok { d with failed := true }
  else
    match d.st with
    -- a chunk is decrypted before the header was processed
    | none => .error .indeterminate
    | some st =>
      match ss.pull st chunk with
      | none => .ok { d with failed := true }
      | some (out, tag, st) => emit output { d with st := some st, hitFinal := tag = tagFinal } out

/-- The loop of `update`: whole chunks are decrypted, the rest is kept. -/
def updateChunks (output : Output) (d : Decryptor ss) (encData : Bytes) :
    Except Failure (Bool × Decryptor ss) :=
  if _h : encryptedChunkTotal ≤ encData.length then
    match d.processChunk output (encData.take encryptedChunkTotal) false with
    | .error e => .error e
    | .ok d =>
      if d.failed then .ok (false, d)
      else updateChunks output d (encData.drop encryptedChunkTotal)
  else .ok (true, if encData = [] then d else { d with buf := encData })
termination_by encData.length
decreasing_by
  rw [List.length_drop]
  unfold encryptedChunkTotal encryptChunkSize at *
  omega

/-- The part of `update` for an empty `buf`. -/
def updateDirect (output : Output) (d : Decryptor ss) (encData : Bytes) :
    Except Failure (Bool × Decryptor ss) :=
  if d.header then d.updateChunks output encData
  else if 1 + encryptHeader ≤ encData.length then do
    let d ← d.processHeader (encData.take (1 + encryptHeader))
    if d.failed then .ok (false, d) else d.updateChunks output (encData.drop (1 + encryptHeader))
  else .ok (true, { d with buf := encData })

/-- The size `buf` is filled up to. -/
def target (d : Decryptor ss) : Nat := if d.header then encryptedChunkTotal else 1 + encryptHeader

def processBuf (output : Output) (d : Decryptor ss) (buf : Bytes) : Except Failure (Decryptor ss) :=
  if d.header then d.processChunk output buf false else d.processHeader buf

/-- `update`. -/
def update (output : Output) (d : Decryptor ss) (encData : Bytes) :
    Except Failure (Bool × Decryptor ss) :=
  if d.failed then .ok (false, d)
  else if d.finished then .error (.logic "cannot call update after finalize()")
  else if d.buf = [] then d.updateDirect output encData
  else if ¬d.buf.length < d.target then .error .assertion
  else
    let steal := min (d.target - d.buf.length) encData.length
    let buf := d.buf ++ encData.take steal
    if buf.length ≠ d.target then .ok (true, { d with buf := buf })
    else do
      let d ← d.processBuf output buf
      let d := { d with buf := [] }
      if d.failed then .ok (false, d) else d.updateDirect output (encData.drop steal)

/-- `finalize`. -/
def finalize (output : Output) (d : Decryptor ss) : Except Failure (Bool × Decryptor ss) :=
  if d.failed then .ok (false, d)
  else do
    let d ←
      if d.buf = [] then .ok d
      else do
        let d ← d.processChunk output d.buf true
        .ok { d with buf := [] }
    if d.failed then .ok (false, d)
    else if ¬d.hitFinal then .ok (false, { d with failed := true })
    else .ok (true, d)

/-- A sequence of calls to `update`, whatever they return. -/
def feed (output : Output) (d : Decryptor ss) : List Bytes → Except Failure (Decryptor ss)
  | [] => .ok d
  | piece :: pieces => do
    let (_, d) ← d.update output piece
    feed output d pieces

/-- All calls to a new `Decryptor`: what `finalize` returns, and what was written. -/
def run (ss : SecretStream) (output : Output) (key : Key) (pieces : List Bytes) :
    Except Failure (Bool × Bytes) := do
  let d ← feed output ({ key := key } : Decryptor ss) pieces
  let (ok, d) ← d.finalize output
  .ok (ok, d.written)

end Decryptor

/-! ## Files -/

/-- What an overload that writes to a file leaves: the exception, if any, and the file, if any. -/
structure FileResult where
  thrown : Option Failure
  file : Option Bytes
  deriving DecidableEq

def toFile : Except Failure (Bool × Bytes) → FileResult
  | .error e => ⟨some e, none⟩
  | .ok (_, written) => ⟨none, some written⟩

def decryptToFile (ss : SecretStream) (encrypted : Bytes) (key : Key) : FileResult :=
  toFile (Decryptor.run ss collect key [encrypted])

def checkFileSize (size : Nat) : Except Failure Nat :=
  orThrow (.runtime "Decryption failed: file is too small to contain an encrypted attachment")
    (decryptedMaxSize size)

/-- `decrypt` of a file. -/
def decryptFile (ss : SecretStream) (content : Bytes) (key : Key) : Except Failure Bytes := do
  let maxSize ← checkFileSize content.length
  let (_, written) ← Decryptor.run ss (fill maxSize) key (chunks 4096 content)
  .ok written

def decryptFileToFile (ss : SecretStream) (content : Bytes) (key : Key) : FileResult :=
  toFile do
    let _ ← checkFileSize content.length
    Decryptor.run ss collect key (chunks 4096 content)

end Bchat.Attachments
