import Bchat.Config.Base
import Bchat.Config.Encrypt

/-!
# Multipart messages

A message that is too large for the storage server is split into parts, which name the hash of the
whole message, their index and their number. The receiving object collects them in a table under the
hash, and remembers complete sets for a while (`src/config/base.cpp`).

* Times are nanoseconds since the epoch, as `system_clock` counts them, without its bound; a dump
  has milliseconds.
* The exceptions of `_handle_multipart` go to the log only; here they are the result `accepted :=
  false`.
* oxenc's list consumer reads one string after the other and does not look behind the end of the
  list.
-/

namespace Bchat.Config

open Bencode

def maxMessageSize : Nat := 76800

def maxMultipartSize : Nat := 5000000

/-- zstd, with what is assumed of it. -/
structure Zstd where
  compress : Int → Bytes → Bytes
  decompress : Bytes → Option Bytes
  decompress_compress : ∀ level b, decompress (compress level b) = some b

/-- What the class and the settings of an object contribute to sending and receiving. -/
structure Transport where
  aead : Aead
  zstd : Zstd
  /-- `encryption_domain()`. -/
  domain : Domain
  /-- `compression_level()`. -/
  compressionLevel : Option Int := some 1
  /-- `MULTIPART_MAX_WAIT`. -/
  multipartMaxWait : Int := 7 * 24 * 3600 * 10 ^ 9
  /-- `MULTIPART_MAX_REMEMBER`. -/
  multipartMaxRemember : Int := 14 * 24 * 3600 * 10 ^ 9

/-! ## Compression and padding -/

/-- `compress_message`. -/
def compressMessage (zstd : Zstd) (level : Int) (msg : Bytes) : Bytes :=
  if level = 0 then msg
  else
    let compressed := ascii 'z' :: zstd.compress level msg
    if compressed.length < msg.length then compressed else msg

/-- Removes zeros in front; a message of zeros stays as it is. -/
def removePadding (plain : Bytes) : Bytes :=
  if plain.all (· == 0) then plain else plain.dropWhile (· == 0)

/-- Decompresses a message without padding if it is compressed; the result must be a dict. -/
def inflate (zstd : Zstd) (plain : Bytes) : Option Bytes :=
  match plain with
  | [] => none
  | c :: rest =>
    if c = ascii 'z' then
      match zstd.decompress rest with
      | some (c' :: rest') => if c' = ascii 'd' then some (c' :: rest') else none
      | _ => none
    else if c = ascii 'd' then some plain else none

/-! ## Parts -/

/-- One part of a message. -/
structure Part where
  finalHash : Hash
  index : UInt8
  numParts : UInt8
  data : Bytes

def Part.encode (p : Part) : Bytes :=
  ascii 'm' :: ascii 'l' :: (encodeStr p.finalHash.val ++ encodeStr [p.index] ++
    encodeStr [p.numParts] ++ encodeStr p.data ++ [ascii 'e'])

/-- The beginning of `_handle_multipart`, up to the end of the list. -/
def parsePart (message : Bytes) : Option Part :=
  if maxMessageSize < message.length then none
  else
    match message with
    | _ :: l :: rest =>
      if l ≠ ascii 'l' then none
      else do
        let (h, rest) ← decodeStr rest
        if hlen : h.length = 32 then do
          let (indexBytes, rest) ← decodeStr rest
          let (sizeBytes, rest) ← decodeStr rest
          match indexBytes, sizeBytes with
          | [index], [numParts] =>
            if numParts ≤ 1 ∨ numParts ≤ index then none
            else do
              let (data, rest) ← decodeStr rest
              if data.isEmpty then none
              else if rest.head? = some (ascii 'e') then some ⟨⟨h, hlen⟩, index, numParts, data⟩
              else none
          | _, _ => none
        else none
    | _ => none

/-! ## The table -/

/-- The parts received of one message. -/
structure PartialMessage where
  index : Int
  messageId : MsgId
  data : Bytes
  deriving DecidableEq

/-- All parts received. -/
structure PartialMessages where
  done : Bool
  size : Int
  parts : List PartialMessage
  expiry : Int
  deriving DecidableEq

/-- The entry a subscript creates. -/
def PartialMessages.new : PartialMessages := ⟨false, 0, [], 0⟩

def PartialMessages.finish (now lifetime : Int) : PartialMessages := ⟨true, 0, [], now + lifetime⟩

abbrev Multiparts := List (Hash × PartialMessages)

/-- What `_handle_multipart` returns, and the table after it. -/
structure Handled where
  accepted : Bool
  completed : Option (List MsgId × Bytes)
  table : Multiparts
  needsDump : Bool

/-- The new part goes in front of the first part that does not have a lower index. -/
def placePart (p : PartialMessage) (parts : List PartialMessage) : List PartialMessage :=
  parts.takeWhile (·.index < p.index) ++ p :: parts.dropWhile (·.index < p.index)

/-- Whether the message was finished before. -/
def alreadySeen (index : Int) (parts : List PartialMessage) : Bool :=
  (parts.dropWhile (·.index < index)).head?.any (·.index = index)

/-- The end of `_handle_multipart`, for a new part of a set that is not done. -/
def storePart (env : Env) (tr : Transport) (now : Int) (msgId : MsgId) (part : Part)
    (entry : PartialMessages) (table : Multiparts) : Handled :=
  let parts := placePart ⟨part.index.toNat, msgId, part.data⟩ entry.parts
  if parts.length = entry.size then
    let recombined := (parts.map PartialMessage.data).flatten
    if env.blake2b recombined ≠ part.finalHash then
      ⟨false, none, SortedMap.insert part.finalHash { entry with parts := parts } table, true⟩
    else
      let table := SortedMap.insert part.finalHash (.finish now tr.multipartMaxRemember) table
      match inflate tr.zstd (removePadding recombined) with
      | some plain => ⟨true, some (parts.map PartialMessage.messageId, plain), table, true⟩
      | none => ⟨false, none, table, true⟩
  else
    ⟨true, none, SortedMap.insert part.finalHash
      { entry with parts := parts, expiry := now + tr.multipartMaxWait } table, true⟩

/-- `_handle_multipart`. -/
def handleMultipart (env : Env) (tr : Transport) (now : Int) (msgId : MsgId) (message : Bytes)
    (table : Multiparts) : Handled :=
  match parsePart message with
  | none => ⟨false, none, table, false⟩
  | some part =>
    let table := SortedMap.emplace part.finalHash .new table
    let entry := (SortedMap.find? part.finalHash table).getD .new
    if entry.done then ⟨true, none, table, false⟩
    else if entry.parts ≠ [] ∧ (part.numParts.toNat : Int) ≠ entry.size then
      ⟨false, none, table, false⟩
    else
      let entry := { entry with size := part.numParts.toNat }
      if alreadySeen part.index.toNat entry.parts then
        ⟨true, none, SortedMap.insert part.finalHash entry table, false⟩
      else storePart env tr now msgId part entry table

/-- `_expire_multiparts`. -/
def expireMultiparts (now : Int) (table : Multiparts) : Multiparts :=
  table.filter fun p => !(p.2.expiry < now)

/-! ## Dumping and restoring the table -/

def epochMs (t : Int) : Int := t.tdiv (10 ^ 6)

def dumpPart (p : PartialMessage) : Bt :=
  .dict [(bytes "#", .int p.index), (bytes "M", .str p.messageId), (bytes "d", .str p.data)]

def dumpEntry (pm : PartialMessages) : BtDict :=
  [(bytes "#", .int (if pm.done then 0 else pm.size)), (bytes "T", .int (epochMs pm.expiry))] ++
    if pm.done then [] else [(bytes "p", .list (pm.parts.map dumpPart))]

/-- The parts in a dump. -/
def dumpMultiparts (now : Int) (table : Multiparts) : BtDict :=
  (table.filter fun p => !(p.2.expiry < now)).map fun p => (p.1.val, .dict (dumpEntry p.2))

/-- The range of `int`. -/
def InInt32 (i : Int) : Prop := -2 ^ 31 ≤ i ∧ i < 2 ^ 31

instance (i : Int) : Decidable (InInt32 i) := inferInstanceAs (Decidable (_ ∧ _))

/-- A part of a dump: its values are read without looking at their keys. -/
def loadPart : Bt → Except Err PartialMessage
  | .dict ((_, .int index) :: (_, .str msgid) :: (_, .str chunk) :: _) =>
    if InInt32 index then .ok ⟨index, msgid, chunk⟩ else .error .oxenc
  | _ => .error .oxenc

def loadParts : List Bt → Except Err (List PartialMessage)
  | [] => .ok []
  | v :: rest => do
    let p ← loadPart v
    let ps ← loadParts rest
    .ok (p :: ps)

/-- `require` of an integer. -/
def requireInt (key : Bytes) (d : BtDict) : Except Err (Int × BtDict) :=
  match skipUntil key d with
  | (some (.int i), rest) => .ok (i, rest)
  | _ => .error .oxenc

/-- An entry of a dump; nothing if it has expired. -/
def loadEntry (now : Int) (pdata : BtDict) : Except Err (Option PartialMessages) := do
  let (size, rest) ← requireInt (bytes "#") pdata
  let (ms, rest) ← requireInt (bytes "T") rest
  let exp := ms * 10 ^ 6
  if ¬InInt32 size then .error .oxenc
  else if exp < now then .ok none
  else if 0 < size then
    match skipUntil (bytes "p") rest with
    | (some (.list l), _) => do
      let parts ← loadParts l
      .ok (some ⟨false, size, parts, exp⟩)
    | _ => .error .oxenc
  else .ok (some ⟨false, size, [], exp⟩)

/-- The parts read from a dump. -/
def loadMultiparts (now : Int) : BtDict → Multiparts → Except Err Multiparts
  | [], table => .ok table
  | (k, .dict pdata) :: rest, table =>
    if h : k.length = 32 then do
      match ← loadEntry now pdata with
      | none => loadMultiparts now rest table
      | some pm => loadMultiparts now rest (SortedMap.insert ⟨k, h⟩ pm table)
    else loadMultiparts now rest table
  | _, _ => .error .oxenc

end Bchat.Config
