import Bchat.Config.Diff
import Bchat.Lib.Text

/-!
# Community URLs

`src/config/community.cpp` with the helpers it takes from `src/util.cpp` and
`src/config/internal.cpp`. A community is named by a base URL, a room token and a 32-byte public
key, which travel together in one link; the link is taken apart from back to front.

The hex, base64 and base32z codecs are oxenc's. The decoders are the parameter `Encodings`, of which
the model uses how many bytes a valid text decodes to; `Encodings.standard` has the real ones. The
encoders are given as they are.
-/

namespace Bchat.Config

/-! ## Encodings of a public key -/

/-- The padding at the end of a base64 text: one or two `=` if they pad it to a multiple of four. -/
def base64Padding (s : Bytes) : Nat :=
  if s.length % 4 = 0 then
    if bytes "==" <:+ s then 2 else if bytes "=" <:+ s then 1 else 0
  else 0

/-- The text encodings of oxenc. -/
structure Encodings where
  isHex : Bytes → Bool
  fromHex : Bytes → Bytes
  isBase64 : Bytes → Bool
  fromBase64 : Bytes → Bytes
  isBase32z : Bytes → Bool
  fromBase32z : Bytes → Bytes
  length_fromHex : ∀ s, isHex s = true → (fromHex s).length = s.length * 4 / 8
  length_fromBase64 : ∀ s, isBase64 s = true →
    (fromBase64 s).length = (s.length - base64Padding s) * 6 / 8
  length_fromBase32z : ∀ s, isBase32z s = true → (fromBase32z s).length = s.length * 5 / 8

variable (enc : Encodings) (b : Bytes) (url : Bytes)

def digitValue (alphabet : Bytes) (c : UInt8) : Nat := alphabet.idxOf c

def base64Alphabet : Bytes :=
  bytes "ABCDEFGHIJKLMNOPQRSTUVWXYZabcdefghijklmnopqrstuvwxyz0123456789+/"

def base32zAlphabet : Bytes := bytes "ybndrfg8ejkmcpqxot1uwisza345h769"

/-- `c + ('a' - 'A')` for an upper-case letter. -/
def lowerCase (c : UInt8) : UInt8 := if ascii 'A' ≤ c ∧ c ≤ ascii 'Z' then c + 32 else c

/-- The codecs of oxenc. -/
def Encodings.standard : Encodings where
  isHex s := s.length % 2 == 0 && s.all fun c => bytes "0123456789abcdef" |>.contains (lowerCase c)
  fromHex s := packDigits 4 (s.map fun c => digitValue (bytes "0123456789abcdef") (lowerCase c))
  isBase64 s :=
    s.length % 4 != 1 && (s.take (s.length - base64Padding s)).all base64Alphabet.contains
  fromBase64 s :=
    packDigits 6 ((s.take (s.length - base64Padding s)).map (digitValue base64Alphabet))
  isBase32z s :=
    !([1, 3, 6].contains (s.length % 8)) && s.all fun c => base32zAlphabet.contains (lowerCase c)
  fromBase32z s := packDigits 5 (s.map fun c => digitValue base32zAlphabet (lowerCase c))
  length_fromHex s _ := by rw [length_packDigits, List.length_map]
  length_fromBase64 s _ := by
    rw [length_packDigits, List.length_map, List.length_take, Nat.min_eq_left (Nat.sub_le _ _)]
  length_fromBase32z s _ := by rw [length_packDigits, List.length_map]

def encodeDigits (alphabet : Bytes) (w : Nat) (b : Bytes) : Bytes :=
  (unpackDigits w b).map fun d => alphabet.getD d 0

def toHexText : Bytes := encodeDigits (bytes "0123456789abcdef") 4 b

def toBase64Unpadded : Bytes := encodeDigits base64Alphabet 6 b

def toBase64 : Bytes := toBase64Unpadded b ++ List.replicate ((3 - b.length % 3) % 3) (ascii '=')

def toBase32z : Bytes := encodeDigits base32zAlphabet 5 b

/-- `decode_pubkey`: hex, base64 or base32z. -/
def decodePubkey (pk : Bytes) : Except Err Bytes :=
  if pk.length = 64 ∧ enc.isHex pk then .ok (enc.fromHex pk)
  else if (pk.length = 43 ∨ (pk.length = 44 ∧ bytes "=" <:+ pk)) ∧ enc.isBase64 pk then
    .ok (enc.fromBase64 pk)
  else if pk.length = 52 ∧ enc.isBase32z pk then .ok (enc.fromBase32z pk)
  else .error (.invalidArgument "Invalid encoded pubkey: expected hex, base32z or base64")

/-! ## URLs -/

/-- What `parse_url` returns. -/
structure ParsedUrl where
  proto : Bytes
  host : Bytes
  port : Option Nat
  path : Option Bytes
  deriving DecidableEq, Repr

def stringIequal (s t : Bytes) : Bool := s.map lowerCase == t.map lowerCase

/-- The protocol of a URL. -/
def readProto : Except Err (Bytes × Bytes) :=
  match splitFirst (bytes "://") url with
  | some (name, rest) =>
    if stringIequal name (bytes "http") then .ok (bytes "http://", rest)
    else if stringIequal name (bytes "https") then .ok (bytes "https://", rest)
    else .error (.invalidArgument "Invalid URL: invalid/missing protocol://")
  | none => .error (.invalidArgument "Invalid URL: invalid/missing protocol://")

/-- The loop of `parse_url` over the host name, with its three variables. -/
def readHost (host : Bytes) (nextAllowDot hasDot : Bool) : Bytes → Bytes × Bool × Bytes
  | [] => (host, hasDot, [])
  | c :: url =>
    if (ascii '0' ≤ c ∧ c ≤ ascii '9') ∨ (ascii 'a' ≤ c ∧ c ≤ ascii 'z') ∨ c = ascii '-' then
      readHost (host ++ [c]) true hasDot url
    else if ascii 'A' ≤ c ∧ c ≤ ascii 'Z' then
      readHost (host ++ [c + 32]) true hasDot url
    else if nextAllowDot ∧ c = ascii '.' then
      readHost (host ++ [ascii '.']) false true url
    else (host, hasDot, c :: url)

/-- The port of a URL, if it has one. -/
def readPort (proto url : Bytes) : Except Err (Option Nat × Bytes) :=
  match url with
  | [] => .ok (none, [])
  | c :: rest =>
    if c = ascii ':' then
      -- `std::from_chars` reads the longest run of digits; a value over 16 bits is an error
      match Bencode.decodeNat rest with
      | some (port, rest) =>
        if port < 2 ^ 16 then
          if (port = 80 ∧ proto = bytes "http://") ∨ (port = 443 ∧ proto = bytes "https://") then
            .ok (none, rest)
          else .ok (some port, rest)
        else .error (.invalidArgument "Invalid URL: invalid port")
      | none => .error (.invalidArgument "Invalid URL: invalid port")
    else .ok (none, c :: rest)

/-- `parse_url`: protocol, host, port and path. -/
def parseUrl : Except Err ParsedUrl := do
  let (proto, url) ← readProto url
  let (host, hasDot, url) := readHost [] false false url
  if host.length < 4 ∨ hasDot = false ∨ bytes "." <:+ host then
    throw (.invalidArgument "Invalid URL: invalid hostname")
  let (port, url) ← readPort proto url
  let path := if 1 < url.length ∧ bytes "/" <+: url then some url else none
  return ⟨proto, host, port, path⟩

def baseUrlMaxLength : Nat := 267

def roomMaxLength : Nat := 64

def qsPubkey : Bytes := bytes "?public_key="

/-- The port as it stands in a URL. -/
def portSuffix : Option Nat → Bytes
  | some port => ascii ':' :: Bencode.encodeNat port
  | none => []

/-- `canonical_url`: protocol and host in lower case, without a default port. -/
def canonicalUrl : Except Err Bytes := do
  let parsed ← parseUrl url
  let result := parsed.proto ++ parsed.host ++ portSuffix parsed.port
  if parsed.path.isSome then
    throw (.invalidArgument "Invalid community URL: found unexpected trailing value")
  if baseUrlMaxLength < result.length then
    throw (.invalidArgument "Invalid community URL: base URL is too long")
  return result

/-- `canonical_room`: the room in lower case. -/
def canonicalRoom (room : Bytes) : Except Err Bytes := do
  let room := room.map lowerCase
  if roomMaxLength < room.length then
    throw (.invalidArgument "Invalid community room: room token is too long")
  if room = [] then
    throw (.invalidArgument "Invalid community room: room token cannot be empty")
  if !(room.all (bytes "-0123456789_abcdefghijklmnopqrstuvwxyz").contains) then
    throw (.invalidArgument "Invalid community URL: room token contains invalid characters")
  return room

/-- `full_url`: what `parse_full_url` reads. -/
def fullUrl (baseUrl room pubkey : Bytes) : Bytes :=
  baseUrl ++ bytes "/" ++ room ++ qsPubkey ++ toHexText pubkey

/-- What `parse_partial_url` returns. -/
structure PartialUrl where
  baseUrl : Bytes
  roomToken : Bytes
  pubkey : Option Bytes
  deriving DecidableEq, Repr

/-- The public key at the end of a link, and the link without it. -/
def takePubkey : Except Err (Option Bytes × Bytes) :=
  match splitLast qsPubkey url with
  | some (before, pk) => (decodePubkey enc pk).map fun pubkey => (some pubkey, before)
  | none => .ok (none, url)

/-- The room token at the end of a link, `/r/TOKEN` or `/TOKEN`, and the link without it. -/
def takeRoom : Bytes × Bytes :=
  match splitLast (bytes "/r/") url with
  | some (before, room) => (room, before)
  | none =>
    match splitLast (bytes "/") url with
    | some (before, room) => (room, before)
    | none => ([], url)

/-- `parse_partial_url`: the room and the key may be missing. -/
def parsePartialUrl : Except Err PartialUrl := do
  let (maybePubkey, url) ← takePubkey enc url
  let (roomToken, url) := takeRoom url
  let baseUrl ← canonicalUrl url
  return ⟨baseUrl, roomToken, maybePubkey⟩

/-- `parse_full_url`: a room and a key are required. -/
def parseFullUrl : Except Err (Bytes × Bytes × Bytes) := do
  let parsed ← parsePartialUrl enc url
  match parsed.pubkey with
  | some pk => return (parsed.baseUrl, parsed.roomToken, pk)
  | none => throw (.invalidArgument "Invalid community URL: no valid server pubkey")

/-- The members of `community`. -/
structure Community where
  baseUrl : Bytes
  room : Bytes
  localizedRoom : Option Bytes
  pubkey : Bytes
  deriving DecidableEq, Repr

/-- `set_room`. -/
def Community.setRoom (c : Community) (room : Bytes) : Except Err Community := do
  let canonical ← canonicalRoom room
  return { c with room := canonical, localizedRoom := some room }

/-- `set_full_url`. -/
def Community.setFullUrl (c : Community) (url : Bytes) : Except Err Community := do
  let (baseUrl, room, pubkey) ← parseFullUrl enc url
  let c ← { c with baseUrl }.setRoom room
  return { c with pubkey }

/-! ## The C functions

They return through buffers of the caller. A copy is the bytes written from the start of a buffer;
the two strings carry their terminator. The calls are modelled with assertions on and off, as the
library is built with either. -/

/-- What a successful call writes. -/
structure UrlCopies where
  baseUrl : Bytes
  roomToken : Bytes
  /-- Absent where the pubkey buffer is not written. -/
  pubkey : Option Bytes
  /-- Absent where the flag is not written. -/
  hasPubkey : Option Bool
  deriving DecidableEq, Repr

/-- The copies stay within buffers of the sizes the header asks the caller for. -/
structure UrlCopies.InBounds (c : UrlCopies) : Prop where
  baseUrl : c.baseUrl.length ≤ baseUrlMaxLength + 1
  roomToken : c.roomToken.length ≤ roomMaxLength + 1
  pubkey : ∀ pk ∈ c.pubkey, pk.length ≤ 32

/-- An `assert`, which is compiled in or left out. -/
def assertThat (asserts : Bool) (p : Prop) [Decidable p] : Except Err Unit :=
  if asserts ∧ ¬p then .error .assertion else .ok ()

/-- `community_parse_full_url`; `none` is the answer false. -/
def communityParseFullUrl (asserts : Bool) (fullUrl : Bytes) :
    Except Err (Option UrlCopies) :=
  match parseFullUrl enc fullUrl with
  | .error _ => .ok none
  | .ok (base, room, pk) => do
    assertThat asserts (base.length ≤ baseUrlMaxLength)
    assertThat asserts (room.length ≤ roomMaxLength)
    assertThat asserts (pk.length = 32)
    return some ⟨base ++ [0], room ++ [0], some pk, none⟩

/-- `community_parse_partial_url`; the caller passed a place for the pubkey or for the flag, or a
null pointer. -/
def communityParsePartialUrl (asserts wantsPubkey wantsFlag : Bool) (fullUrl : Bytes) :
    Except Err (Option UrlCopies) :=
  match parsePartialUrl enc fullUrl with
  | .error _ => .ok none
  | .ok parsed => do
    assertThat asserts (parsed.baseUrl.length ≤ baseUrlMaxLength)
    assertThat asserts (parsed.roomToken.length ≤ roomMaxLength)
    assertThat asserts (∀ pk ∈ parsed.pubkey, pk.length = 32)
    return some ⟨parsed.baseUrl ++ [0], parsed.roomToken ++ [0],
      if wantsPubkey then parsed.pubkey else none,
      if wantsFlag then some parsed.pubkey.isSome else none⟩

end Bchat.Config
