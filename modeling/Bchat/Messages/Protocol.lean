import Bchat.Messages.Blinded

/-!
# Envelopes

`bchat_protocol.cpp`: how the serialized `Content` of a message is wrapped for its destination, and
how an envelope is taken apart again.

* One-to-one: the padded content is encrypted and put into an envelope, and that into a websocket
  request.
* Group: the envelope carries the content as it is and is encrypted as a whole.
* Community: the content, signed inside where the sender has Pro, padded, and encrypted for an
  inbox.

An envelope carries a signature by the rotating Pro key over the content it carries; without such a
key it is made with a key nobody knows.

Protobuf is the parameter `Protobuf`: only the fields the code reads or writes are modelled. Random
values are collected in `Draws`.
-/

namespace Bchat.Messages

open Config Groups

/-! ## Protobuf messages -/

namespace Proto

inductive EnvelopeType
  | bchatMessage
  | closedGroupMessage
  deriving DecidableEq, Repr

/-- `Envelope`. What its flags do not name is zero. -/
structure Envelope where
  type : EnvelopeType
  source : Option Bytes
  sourceDevice : Option UInt32
  timestamp : Option UInt64
  content : Option Bytes
  serverTimestamp : Option UInt64
  proSig : Option Bytes
  deriving DecidableEq

inductive WebSocketType
  | unknown
  | request
  | response
  deriving DecidableEq, Repr

structure WebSocketRequest where
  verb : Option Bytes
  path : Option Bytes
  requestId : Option UInt64
  body : Option Bytes
  deriving DecidableEq

structure WebSocketMessage where
  type : Option WebSocketType
  request : Option WebSocketRequest
  deriving DecidableEq

structure ProProof where
  version : Option UInt32
  genIndexHash : Option Bytes
  rotatingPublicKey : Option Bytes
  expiryUnixTs : Option UInt64
  sig : Option Bytes
  deriving DecidableEq

structure ProMessage where
  proof : Option ProProof
  /-- Zero where it is not set, as protobuf reads it. -/
  profileBitset : UInt64
  msgBitset : UInt64
  deriving DecidableEq

structure Content where
  /-- Zero where it is not set. -/
  sigTimestamp : UInt64
  proMessage : Option ProMessage
  proSigForCommunityMessageOnly : Option Bytes
  /-- The fields this code does not look at. -/
  others : Bytes
  deriving DecidableEq

end Proto

structure Protobuf where
  serializeEnvelope : Proto.Envelope → Bytes
  parseEnvelope : Bytes → Option Proto.Envelope
  serializeWebSocket : Proto.WebSocketMessage → Bytes
  parseWebSocket : Bytes → Option Proto.WebSocketMessage
  serializeContent : Proto.Content → Bytes
  parseContent : Bytes → Option Proto.Content
  /-- The type of an envelope is a required field. -/
  serializeEnvelope_ne_nil : ∀ e, serializeEnvelope e ≠ []
  parseEnvelope_serialize : ∀ e, parseEnvelope (serializeEnvelope e) = some e
  parseWebSocket_serialize : ∀ m, parseWebSocket (serializeWebSocket m) = some m
  parseContent_serialize : ∀ c, parseContent (serializeContent c) = some c

/-- The libraries, and what is assumed of them. -/
structure Outside where
  na : Sodium
  ed : Ed25519
  box : SealedBox
  zstd : Zstd
  proto : Protobuf
  /-- BLAKE2b with a result of 32 bytes, under a personalisation. -/
  blake2b32 : Bytes → Bytes → Key

/-- What a call of `encode_for_destination` draws at random. -/
structure Draws where
  /-- The key that signs for a sender without Pro. -/
  dummyProSk : SecretKey
  /-- The ephemeral key of a sealed box. -/
  ephemeral : Key
  nonce : Nonce

/-! ## Padding -/

def msgPadding : Nat := 160

def paddingTerminatingByte : UInt8 := 0x80

/-- `pad_message`. Content that ends on the granularity less one gets a whole block more. -/
def padMessage (payload : Bytes) : Bytes :=
  let size := payload.length + 1
  payload ++ paddingTerminatingByte :: List.replicate (msgPadding - size % msgPadding) 0

/-- The loop of `unpad_message`, over the reversed payload. -/
def stripPadding : Bytes → Bytes
  | [] => []
  | ch :: rest =>
    if ch ≠ 0 ∧ ch ≠ paddingTerminatingByte then ch :: rest
    else if ch = paddingTerminatingByte then rest
    else stripPadding rest

/-- `unpad_message`. -/
def unpadMessage (payload : Bytes) : Bytes := (stripPadding payload.reverse).reverse

/-! ## Pro proofs -/

structure ProProof where
  version : UInt8
  genIndexHash : Key
  rotatingPubkey : Key
  /-- `expiry_unix_ts`, in milliseconds. -/
  expiryUnixTs : Int64
  sig : Signature
  deriving DecidableEq

structure DecodeEnvelopeKey where
  groupEd25519Pubkey : Option Bytes
  decryptKeys : List Bytes

variable (lib : Outside) (proof : ProProof) (draws : Draws) (keys : DecodeEnvelopeKey)
  (plaintext ed25519Privkey : Bytes)

/-- `ProStatus`. -/
inductive ProStatus
  | invalidProBackendSig
  | invalidUserSig
  | valid
  | expired
  deriving DecidableEq, Repr

/-- `ProProof::hash`. The expiry is hashed as it lies in memory, the lowest byte first. -/
def ProProof.hash : Key :=
  lib.blake2b32 (bytes "ProProof________") (proof.version :: (proof.genIndexHash.val ++
    proof.rotatingPubkey.val ++ (natBytes 8 proof.expiryUnixTs.toUInt64.toNat).reverse))

/-- `verify_signature`. -/
def ProProof.verifySignature (verifyPubkey : Key) : Bool :=
  lib.na.verify verifyPubkey (proof.hash lib).val proof.sig

def ProProof.verifyMessage (sig : Signature) (msg : Bytes) : Bool :=
  lib.na.verify proof.rotatingPubkey msg sig

/-- `is_active`. -/
def ProProof.isActive (unixTs : Int64) : Bool := unixTs ≤ proof.expiryUnixTs

/-- `status`. -/
def ProProof.status (verifyPubkey : Key) (unixTs : Int64) (sig : Signature) (msg : Bytes) :
    ProStatus :=
  if !proof.verifySignature lib verifyPubkey then .invalidProBackendSig
  else if !proof.verifyMessage lib sig msg then .invalidUserSig
  else if !proof.isActive unixTs then .expired
  else .valid

/-! ## Encoding -/

abbrev PrefixedKey := {b : Bytes // b.length = 33}

def zeroPrefixedKey : PrefixedKey := ⟨List.replicate 33 0, by simp⟩

inductive DestinationType
  | syncOr1o1
  | group
  | communityInbox
  | community
  deriving DecidableEq, Repr

/-- `Destination`. -/
structure Destination where
  type : DestinationType
  /-- Empty where the sender has no Pro. -/
  proRotatingEd25519Privkey : Bytes
  sentTimestampMs : Int64
  recipientPubkey : PrefixedKey
  communityInboxServerPubkey : Key
  groupEd25519Pubkey : PrefixedKey
  groupEncKey : Key

def proSigningKey (na : Sodium) (privkey : Bytes) : Except Err (Option SecretKey) :=
  if privkey = [] then .ok none
  else
    match fullSecretKey na privkey with
    | some sk => .ok (some sk)
    | none =>
      let size := privkey.length
      .error (.runtime
        s!"Invalid dest_pro_rotating_ed25519_privkey: expected 32 or 64 bytes, received {size}")

def envelopeContent (dest : Destination) : Except Err Bytes :=
  if dest.type = .syncOr1o1 then
    encryptForRecipient lib.na lib.box ed25519Privkey dest.recipientPubkey.val
        (padMessage plaintext)
      draws.ephemeral
  else .ok plaintext

/-- The envelope of a message. -/
def makeEnvelope (proSk : Option SecretKey) (content : Bytes) (dest : Destination) :
    Proto.Envelope where
  type := if dest.type = .syncOr1o1 then .bchatMessage else .closedGroupMessage
  source := none
  sourceDevice := some 1
  timestamp := some dest.sentTimestampMs.toUInt64
  content := some content
  serverTimestamp := none
  proSig := some (lib.na.sign (proSk.getD draws.dummyProSk) content).val

/-- The part of `encode_for_destination_internal` for groups and single recipients. -/
def encodeEnvelope (proSk : Option SecretKey) (dest : Destination) : Except Err Bytes :=
  if dest.type = .group ∧ dest.groupEd25519Pubkey.val.head? ≠ some 0x03 then
    .error (.runtime ("Unsupported configuration, encrypting for a legacy group (0x05 prefix) is "
        ++
      "no longer supported"))
  else do
    let content ← envelopeContent lib draws plaintext ed25519Privkey dest
    let envelope := lib.proto.serializeEnvelope (makeEnvelope lib draws proSk content dest)
    if dest.type = .group then
      encryptForGroup lib.na lib.zstd ed25519Privkey (dest.groupEd25519Pubkey.val.drop 1)
        dest.groupEncKey.val envelope true 256 draws.nonce
    else .ok (lib.proto.serializeWebSocket ⟨some .request, some ⟨some [], some [], some 0,
      some envelope⟩⟩)

def communityContent (plaintext : Bytes) (proSk : Option SecretKey) :
    Except Err Bytes :=
  match proSk with
  | none => .ok (padMessage plaintext)
  | some sk =>
    match lib.proto.parseContent plaintext with
    | none => .error (.runtime "Parsing community message failed")
    | some content =>
      if content.proSigForCommunityMessageOnly.isSome then
        .error (.runtime ("Pro signature for community message must not be set. Libbchat's " ++
          "responsible for generating the signature and setting it"))
      else
        let sig := lib.na.sign sk (padMessage plaintext)
        .ok (padMessage (lib.proto.serializeContent
          { content with proSigForCommunityMessageOnly := some sig.val }))

def encodeForDestination (dest : Destination) : Except Err Bytes :=
  if dest.type ≠ .community ∧ ed25519Privkey.length ≠ 64 ∧ ed25519Privkey.length ≠ 32 then
    .error .assertion
  else do
    let proSk ← proSigningKey lib.na dest.proRotatingEd25519Privkey
    match dest.type with
    | .group | .syncOr1o1 => encodeEnvelope lib draws plaintext ed25519Privkey proSk dest
    | .communityInbox =>
      let content ← communityContent lib plaintext proSk
      encryptForBlindedRecipient lib.na lib.ed ed25519Privkey dest.communityInboxServerPubkey.val
        dest.recipientPubkey.val content draws.nonce
    | .community => communityContent lib plaintext proSk

/-- `encode_for_1o1`. -/
def encodeFor1o1 (sentTimestamp : Int64) (recipientPubkey : PrefixedKey)
    (proRotatingPrivkey : Option Bytes) :
    Except Err Bytes :=
  encodeForDestination lib draws plaintext ed25519Privkey
    { type := .syncOr1o1
      proRotatingEd25519Privkey := proRotatingPrivkey.getD []
      sentTimestampMs := sentTimestamp
      recipientPubkey
      communityInboxServerPubkey := zeroKey
      groupEd25519Pubkey := zeroPrefixedKey
      groupEncKey := zeroKey }

/-- `encode_for_group`. -/
def encodeForGroup (sentTimestamp : Int64) (groupEd25519Pubkey : PrefixedKey) (groupEncKey : Key)
    (proRotatingPrivkey : Option Bytes) : Except Err Bytes :=
  encodeForDestination lib draws plaintext ed25519Privkey
    { type := .group
      proRotatingEd25519Privkey := proRotatingPrivkey.getD []
      sentTimestampMs := sentTimestamp
      recipientPubkey := zeroPrefixedKey
      communityInboxServerPubkey := zeroKey
      groupEd25519Pubkey
      groupEncKey }

/-! ## Decoding -/

def flagSource : UInt32 := 1

def flagSourceDevice : UInt32 := 2

def flagServerTimestamp : UInt32 := 4

def flagProSig : UInt32 := 8

def flagTimestamp : UInt32 := 16

/-- `Envelope`. What its flags do not name is zero. -/
structure Envelope where
  flags : UInt32
  timestamp : Int64
  source : PrefixedKey
  sourceDevice : UInt32
  serverTimestamp : UInt64
  proSig : Signature
  deriving DecidableEq

structure DecodedPro where
  status : ProStatus
  proof : ProProof
  msgBitset : UInt64
  profileBitset : UInt64
  deriving DecidableEq

structure DecodedEnvelope where
  envelope : Envelope
  contentPlaintext : Bytes
  senderEd25519Pubkey : Key
  senderX25519Pubkey : Key
  pro : Option DecodedPro
  deriving DecidableEq

def fromHexInto (size : Nat) (text : Bytes) : Except Err {b : Bytes // b.length = size} :=
  match fromHex text with
  | some b => if h : b.length = size then .ok ⟨b, h⟩ else .error .assertion
  | none => .error .assertion

/-- Finds the envelope in a payload. -/
def openEnvelope (payload : Bytes) :
    Except Err (Bytes × Option Key) :=
  match keys.groupEd25519Pubkey with
  | some groupPk => do
    let decrypt ← decryptGroupMessage lib.na lib.zstd keys.decryptKeys groupPk payload
    let size := decrypt.bchatId.length
    if size ≠ 66 then
      .error (.runtime
        s!"Parse encrypted envelope failed, extracted bchat ID was wrong size: {size}")
    else if decrypt.bchatId.take 2 ≠ bytes "05" then .error .assertion
    else do
      let sender ← fromHexInto 32 (decrypt.bchatId.drop 2)
      .ok (decrypt.plaintext, some sender)
  | none =>
    match lib.proto.parseWebSocket payload with
    | none =>
      let size := payload.length
      .error (.runtime s!"Parse websocket wrapped envelope from payload failed: {size}")
    | some message =>
      match message.request with
      | none => .error (.runtime "Parse websocket wrapped envelope failed, missing request")
      | some request =>
        match request.body with
        | none => .error (.runtime "Parse websocket wrapped envelope failed, missing request body")
        | some body => .ok (body, none)

def readSource (source : Option Bytes) : Except Err (Option PrefixedKey) :=
  match source with
  | none => .ok none
  | some source =>
    let size := source.length
    if size ≠ 0 ∧ size ≠ 66 then
      .error (.runtime s!"Parse envelope failed, source had unexpected size ({size} bytes)")
    else if size = 0 then .ok none
    else do
      let key ← fromHexInto 33 source
      .ok (some key)

/-- The plain fields of an envelope. -/
def readEnvelope (e : Proto.Envelope) : Except Err Envelope := do
  let source ← readSource e.source
  .ok { flags := (if e.timestamp.isSome then flagTimestamp else 0) |||
          (if source.isSome then flagSource else 0) |||
          (if e.sourceDevice.isSome then flagSourceDevice else 0) |||
          (if e.serverTimestamp.isSome then flagServerTimestamp else 0)
        timestamp := (e.timestamp.getD 0).toInt64
        source := source.getD zeroPrefixedKey
        sourceDevice := e.sourceDevice.getD 0
        serverTimestamp := e.serverTimestamp.getD 0
        proSig := ⟨List.replicate 64 0, by simp⟩ }

/-- The loop over the keys of a one-to-one message; every failure goes on with the next key. -/
def decryptContent (na : Sodium) (box : SealedBox) (content : Bytes) :
    List Bytes → Option (Bytes × Key)
  | [] => none
  | privkey :: rest =>
    match decryptIncoming na box privkey content with
    | .ok r => some r
    | .error _ => decryptContent na box content rest

def openContent (groupSender : Option Key) (content : Bytes) : Except Err (Bytes × Key × Key) :=
  match groupSender with
  | some sender => .ok (content, zeroKey, sender)
  | none =>
    match decryptContent lib.na lib.box content keys.decryptKeys with
    | none =>
      let tried := keys.decryptKeys.length
      .error (.runtime s!"Envelope content decryption failed, tried {tried} key(s)")
    | some (padded, senderEd) =>
      match lib.na.pkToCurve senderEd with
      | none => .error (.runtime ("Parse content failed, ed25519 public key could not be " ++
          "converted to x25519 key."))
      | some senderX => .ok (unpadMessage padded, senderEd, senderX)

/-- Reads a proof, with the sizes of its fields. -/
def readProof (p : Proto.ProProof) : Except Err ProProof :=
  match p.version, p.genIndexHash, p.rotatingPublicKey, p.expiryUnixTs, p.sig with
  | some version, some genIndexHash, some rotating, some expiry, some sig =>
    if h : version = 0 ∧ genIndexHash.length = 32 ∧ rotating.length = 32 ∧ sig.length = 64 then
      .ok { version := 0
            genIndexHash := ⟨genIndexHash, h.2.1⟩
            rotatingPubkey := ⟨rotating, h.2.2.1⟩
            expiryUnixTs := expiry.toInt64
            sig := ⟨sig, h.2.2.2⟩ }
    else .error (.runtime "Parse decrypted message failed, pro metadata was malformed")
  | _, _, _, _, _ => .error (.runtime "Parse decrypted message failed, pro metadata was malformed")

/-- The Pro data of a content; `size` is the number of its bytes. The signature is checked over the
content as the envelope carries it. -/
def readPro (proBackendPubkey : Key) (content : Proto.Content) (size : Nat) (proSig : Signature)
    (signed : Bytes) : Except Err (Option DecodedPro) :=
  match content.proMessage with
  | none => .ok none
  | some proMsg =>
    if content.sigTimestamp = 0 then
      .error (.runtime ("Content does not have signature timestamp set, pro proof expiry is " ++
        s!"unverifiable (content was {size}b)"))
    else
      match proMsg.proof with
      | none => .error (.runtime "Parse decrypted message failed, pro config missing proof")
      | some proof => do
        let proof ← readProof proof
        .ok (some
          { status := proof.status lib proBackendPubkey content.sigTimestamp.toInt64 proSig signed
            proof
            msgBitset := proMsg.msgBitset
            profileBitset := proMsg.profileBitset })

def attachPro (proBackendPubkey : Key) (content : Proto.Content) (proSig : Option Bytes)
    (signed : Bytes) (decoded : DecodedEnvelope) :
    Except Err DecodedEnvelope :=
  match proSig with
  | none => .ok decoded
  | some sig =>
    if h : sig.length = 64 then do
      let pro ← readPro lib proBackendPubkey content decoded.contentPlaintext.length ⟨sig, h⟩ signed
      .ok { decoded with
            envelope := { decoded.envelope with
              proSig := ⟨sig, h⟩
              flags := if pro.isSome then decoded.envelope.flags ||| flagProSig
                else decoded.envelope.flags }
            pro }
    else .error (.runtime "Parse envelope failed, pro signature has wrong size")

/-- `decode_envelope`. -/
def decodeEnvelope (envelopePayload : Bytes) (proBackendPubkey : Key) :
    Except Err DecodedEnvelope := do
  let (plaintext, groupSender) ← openEnvelope lib keys envelopePayload
  match lib.proto.parseEnvelope plaintext with
  | none => .error (.runtime "Parse envelope from plaintext failed")
  | some e => do
    let envelope ← readEnvelope e
    match e.content with
    | none => .error (.runtime "Parse decrypted message failed, missing content")
    | some carried => do
      let (opened, senderEd, senderX) ← openContent lib keys groupSender carried
      let size := opened.length
      match lib.proto.parseContent opened with
      | none => .error (.runtime s!"Parse content from envelope failed: {size}b")
      | some content =>
        attachPro lib proBackendPubkey content e.proSig carried
          ⟨envelope, opened, senderEd, senderX, none⟩

end Bchat.Messages
