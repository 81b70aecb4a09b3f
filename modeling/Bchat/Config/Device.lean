import Bchat.Config.Multipart

/-!
# Sending and receiving

The rest of `src/config/base.cpp`: the encryption keys of an object, what `push()` does with the
serialized message, what `merge()` does with the received ones before they are merged, and the entry
of the multipart table in a dump.

A `Device` is a config object with its encryption keys and its multipart table; `ConfigBase` is the
part of it that has the config itself. The protobuf wrapping of single messages is left out.
-/

namespace Bchat.Config

open Bencode

variable (env : Env) (tr : Transport) (now : Int)

/-- A config object with its encryption keys and multipart messages. -/
structure Device where
  base : ConfigBase
  /-- `_keys`: the first one encrypts. -/
  keys : List Key
  /-- `_multiparts`. -/
  multiparts : Multiparts

namespace Device

/-! ## Keys -/

/-- `dirty()`, if the flag is set and the object can be changed. -/
def dirtyIf (dirtyConfig : Bool) (dev : Device) : Except Err Device :=
  if dirtyConfig ∧ ¬dev.base.isReadonly then do
    let base ← dev.base.dirty env
    .ok { dev with base := base }
  else .ok dev

/-- `remove_key`. -/
def removeKey (key : Key) (start : Nat) (dirtyConfig : Bool) (dev : Device) :
    Except Err Device :=
  if dev.keys.length ≤ start then .ok dev
  else
    let isFirst := dev.keys.head? = some key
    dirtyIf env (dirtyConfig && isFirst)
      { dev with keys := dev.keys.take start ++ (dev.keys.drop start).filter (· ≠ key) }

/-- `add_key`. -/
def addKey (key : Bytes) (highPriority dirtyConfig : Bool) (dev : Device) :
    Except Err Device :=
  if h : key.length = 32 then
    if dev.keys.head? = some ⟨key, h⟩ then .ok dev
    else if !highPriority ∧ ⟨key, h⟩ ∈ dev.keys then .ok dev
    else
      (if highPriority then dev.removeKey env ⟨key, h⟩ 1 false else .ok dev) >>= fun dev =>
        let keys := if highPriority then ⟨key, h⟩ :: dev.keys else dev.keys ++ [⟨key, h⟩]
        dirtyIf env (dirtyConfig && (keys.length = 1 || highPriority)) { dev with keys := keys }
  else .error (.invalidArgument "add_key failed: key size must be 32 bytes")

def clearKeys (dirtyConfig : Bool) (dev : Device) : Except Err Device :=
  dirtyIf env (dirtyConfig && !dev.keys.isEmpty) { dev with keys := [] }

def addKeys (env : Env) : List Bytes → Device → Except Err Device
  | [], dev => .ok dev
  | k :: ks, dev => do
    let dev ← dev.addKey env k false false
    dev.addKeys env ks

/-- `replace_keys`. -/
def replaceKeys (newKeys : List Bytes) (dirtyConfig : Bool) (dev : Device) :
    Except Err Device :=
  if newKeys.isEmpty then
    if dev.keys.isEmpty then .ok dev else dev.clearKeys env dirtyConfig
  else if newKeys.any (·.length ≠ 32) then
    .error (.invalidArgument "replace_keys failed: keys must be 32 bytes")
  else do
    let changed := dev.keys.isEmpty || dev.keys.head?.map Subtype.val ≠ newKeys.head?
    let dev ← addKeys env newKeys { dev with keys := [] }
    dirtyIf env (dirtyConfig && changed) dev

/-! ## Pushing -/

def encodeOverhead : Nat := 1 + 2 + (3 + 32) + (2 + 1) + (2 + 1) + 6

def maxChunkSize : Nat := maxMessageSize - encodeOverhead - encryptDataOverhead

/-- The chunks of a message, each as long as possible. -/
def splitChunks : Nat → Bytes → List Bytes
  | 0, _ => []
  | fuel + 1, remaining =>
    if remaining.isEmpty then []
    else remaining.take maxChunkSize :: splitChunks fuel (remaining.drop maxChunkSize)

/-- A part before encryption: the buffer has room for the longest length prefix, and what is not
used of it stays zero. -/
def partBuffer (p : Part) : Bytes :=
  p.encode ++ List.replicate (p.data.length + encodeOverhead - p.encode.length) 0

/-- The parts of a message before encryption. -/
def partBuffers (finalHash : Hash) (msg : Bytes) : List Bytes :=
  let numParts : UInt8 := UInt8.ofNat ((msg.length + maxChunkSize - 1) / maxChunkSize)
  (splitChunks msg.length msg).zipIdx.map fun (chunk, index) =>
    partBuffer ⟨finalHash, UInt8.ofNat index, numParts, chunk⟩

/-- What `push()` returns. -/
structure Sent where
  seqno : Int
  msgs : List Bytes
  obsolete : Finset MsgId

/-- Compression and padding. -/
def packed (msg : Bytes) : Bytes :=
  padMessage (match tr.compressionLevel with
    | some level => compressMessage tr.zstd level msg
    | none => msg) encryptDataOverhead

/-- `push()`: the messages to be stored. -/
def push (env : Env) (tr : Transport) (now : Int) (dev : Device) : Device × Except Err Sent :=
  match dev.keys with
  | [] => (dev, .error (.logic "Cannot push data without an encryption key!"))
  | key :: _ =>
    let r := dev.base.config.serialize env true
    let msg := packed tr r.1
    if maxMultipartSize < msg.length then
      ({ dev with base := { dev.base with config := r.2 } },
        .error (.length s!"Config data is insanely large ({msg.length}B), even for multipart"))
    else
      let (pushed, base) := dev.base.push env
      if maxMessageSize < msg.length + encryptDataOverhead then
        let finalHash := env.blake2b msg
        let buffers := partBuffers finalHash msg
        ({ dev with
            base := base
            multiparts := SortedMap.insert finalHash (.finish now tr.multipartMaxRemember)
              dev.multiparts },
          .ok ⟨pushed.seqno, buffers.map (encrypt tr.aead · key tr.domain), pushed.obsolete⟩)
      else
        ({ dev with base := base },
          .ok ⟨pushed.seqno, [encrypt tr.aead msg key tr.domain], pushed.obsolete⟩)

/-! ## Merging -/

/-- The keys are tried one after the other. -/
def openMessage (keys : List Key) (conf : Bytes) : Option Bytes :=
  keys.findSome? fun key => (decrypt tr.aead conf key tr.domain).toOption

/-- What one received message adds to the rows to merge and to the good ids, and the table after
it. -/
structure Decoded where
  row : Option Row
  good : Bool
  table : Multiparts
  needsDump : Bool

/-- The loop body of `_merge` on a message that could be decrypted. -/
def decodePlain (hash : MsgId) (plain : Bytes) (table : Multiparts) : Decoded :=
  let plain := removePadding plain
  if plain.head? = some (ascii 'm') then
    let r := handleMultipart env tr now hash plain table
    ⟨r.completed.map fun c => ⟨c.1.toFinset, c.2⟩, r.accepted, r.table, r.needsDump⟩
  else
    match inflate tr.zstd plain with
    | some conf => ⟨some ⟨{hash}, conf⟩, true, table, false⟩
    | none => ⟨none, false, table, false⟩

/-- Opens one message from the server. -/
def decode (keys : List Key) (now : Int) (hash : MsgId) (conf : Bytes) (table : Multiparts) :
    Decoded :=
  match openMessage tr keys conf with
  | some plain => decodePlain env tr now hash plain table
  | none => ⟨none, false, table, false⟩

/-- The messages of a call one after the other: the rows to merge, the good ids, the table, and
whether it has changed. -/
def decodeAll (env : Env) (tr : Transport) (keys : List Key) (now : Int) :
    List (MsgId × Bytes) → Multiparts → List Row × Finset MsgId × Multiparts × Bool
  | [], table => ([], ∅, table, false)
  | (hash, conf) :: rest, table =>
    let d := decode env tr keys now hash conf table
    let (rows, good, table, needsDump) := decodeAll env tr keys now rest d.table
    (d.row.toList ++ rows, if d.good then insert hash good else good, table,
      d.needsDump || needsDump)

/-- `merge()`: decrypts, decompresses and merges. -/
def merge (env : Env) (tr : Transport) (debug : Bool) (now : Int) (configs : List (MsgId × Bytes))
    (dev : Device) : Device × Except Err (Finset MsgId) :=
  if dev.keys.isEmpty then
    (dev, .error (.logic "Cannot merge configs without any decryption keys"))
  else
    let (rows, good, table, needsDump) := decodeAll env tr dev.keys now configs dev.multiparts
    let base := { dev.base with needsDump := dev.base.needsDump || needsDump }
    let r := base.mergeRows env debug rows good
    ({ dev with base := r.1, multiparts := expireMultiparts now table }, r.2)

/-! ## Dumping and restoring -/

/-- `make_dump()`. The entry of derived classes is empty, as by default. -/
def makeDump (dev : Device) : Bytes × Device :=
  let r := dev.base.config.serialize env false
  (env.encode [(bytes "!", .int dev.base.state.toInt), (bytes "$", .str r.1),
    (bytes "(", idsToBt dev.base.currHashes), (bytes ")", idsToBt dev.base.oldHashes),
    (bytes "*", .dict (dumpMultiparts now dev.multiparts)), (bytes "+", .dict [])],
    { dev with base := { dev.base with config := r.2 } })

/-- `dump()` with the parts. -/
def dump (dev : Device) : Bytes × Device :=
  let base := if dev.base.isReadonly then { dev.base with oldHashes := ∅ } else dev.base
  let r := makeDump env now
    { dev with base := base, multiparts := expireMultiparts now dev.multiparts }
  (r.1, { r.2 with base := { r.2.base with needsDump := false } })

/-- Where `init()` is in the dump after it has read the ids. -/
def afterHashes (pairs : BtDict) : BtDict :=
  let rest := (skipUntil (bytes "$") (skipUntil (bytes "!") pairs).2).2
  match skipUntil (bytes "(") rest with
  | (some _, rest) => (skipUntil (bytes ")") rest).2
  | (none, rest) => rest

def loadTable (dumped : Bytes) : Except Err Multiparts :=
  match env.read dumped with
  | none => .error .oxenc
  | some (pairs, _) =>
    match skipUntil (bytes "*") (afterHashes pairs) with
    | (none, _) => .ok []
    | (some (.dict multi), _) => loadMultiparts now multi []
    | (some _, _) => .error .oxenc

/-- The object of a dump. -/
def restore (env : Env) (now : Int) (dumped : Bytes) (sigKeys : SigKeys) : Except Err Device := do
  let base ← ConfigBase.restore env dumped sigKeys
  let table ← loadTable env now dumped
  .ok ⟨base, [], table⟩

/-- `init()` without a dump. -/
def fresh (env : Env) (sigKeys : SigKeys) : Device := ⟨ConfigBase.fresh env sigKeys, [], []⟩

end Device

end Bchat.Config
