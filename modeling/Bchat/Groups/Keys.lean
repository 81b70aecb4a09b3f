import Bchat.Config.Base
import Bchat.Groups.Sodium

/-!
# The keys of a group

`groups::Keys` of `src/config/groups/keys.cpp`: the list of keys with its expiry, the messages that
carry them, and the dump of both.

Timestamps are milliseconds since the epoch, the precision the messages have. Generations and
timestamps are unbounded integers; the readers check the range of `int64_t`. The clock of the source
counts nanoseconds in an `int64_t`: `lapsed64` is its comparison, `InSysTime` the milliseconds for
which it agrees with the exact one.
-/

namespace Bchat.Groups

open Config Bencode

/-! ## A key -/

/-- A key with the time it was stored at. -/
structure KeyInfo where
  key : Key
  timestamp : Int
  generation : Int
  deriving DecidableEq

namespace KeyInfo

/-- What keys are ordered by. -/
def cmpval (k : KeyInfo) : Int ×ₗ Int ×ₗ Key := toLex (k.generation, toLex (k.timestamp, k.key))

lemma cmpval_injective : Function.Injective cmpval := by
  intro a b h
  have hp : (a.generation, toLex (a.timestamp, a.key)) =
      (b.generation, toLex (b.timestamp, b.key)) := toLex_inj.mp h
  obtain ⟨hg, ht⟩ := Prod.mk.inj hp
  cases a
  simp_all

instance : LinearOrder KeyInfo := LinearOrder.lift' cmpval cmpval_injective

lemma lt_iff {a b : KeyInfo} : a < b ↔ a.generation < b.generation ∨
    (a.generation = b.generation ∧ (a.timestamp < b.timestamp ∨
      (a.timestamp = b.timestamp ∧ a.key < b.key))) := by
  show cmpval a < cmpval b ↔ _
  simp [cmpval, Prod.Lex.toLex_lt_toLex]

lemma generation_le_of_le {a b : KeyInfo} (h : a ≤ b) : a.generation ≤ b.generation := by
  by_contra hlt
  exact absurd h (not_le.mpr (lt_iff.mpr (Or.inl (not_le.mp hlt))))

end KeyInfo

/-- `KEY_EXPIRY`: 60 days. -/
def keyExpiry : Int := 2 * 30 * 24 * 60 * 60 * 1000

/-- `timestamp + KEY_EXPIRY < last` as the source computes it, in nanoseconds of `int64_t`. -/
def lapsed64 (timestamp last : Int) : Bool :=
  wrap64 (wrap64 (timestamp * 1000000) + keyExpiry * 1000000) < wrap64 (last * 1000000)

/-- The milliseconds that fit into the clock, with `KEY_EXPIRY` added: up to early 2262. -/
def InSysTime (ms : Int) : Prop := -9223372036854 ≤ ms ∧ ms ≤ 9218188036854

instance (ms : Int) : Decidable (InSysTime ms) := inferInstanceAs (Decidable (_ ∧ _))

def messageKeyMultiple : Nat := 45

/-! ## The object -/

/-- Whose object it is. -/
structure Identity where
  userSk : SecretKey
  signPk : Key
  signSk : Option SecretKey

def Identity.admin (who : Identity) : Bool := who.signSk.isSome

/-- `active_msgs_`: the message hashes of each generation. -/
abbrev ActiveMsgs := List (Int × Finset MsgId)

def ActiveMsgs.add (generation : Int) (hash : MsgId) (active : ActiveMsgs) : ActiveMsgs :=
  SortedMap.insert generation (insert hash ((SortedMap.find? generation active).getD ∅)) active

/-- `groups::Keys`. -/
structure Keys extends Identity where
  keys : List KeyInfo
  activeMsgs : ActiveMsgs
  pendingKey : Key
  /-- Empty if no key is pending. -/
  pendingKeyConfig : Bytes
  pendingGen : Int
  needsDump : Bool

section

variable (env : Env) (na : Sodium) (k : Keys)

namespace Keys

/-! ## Expiry -/

/-- The loop of `remove_expired`: `keep` starts at the first key of the given generation, and what
is left to look at comes after that key. A generation has lapsed if the first key of the next one is
more than `KEY_EXPIRY` before the last key of all. -/
def dropLapsed (last : Int) (keep : List KeyInfo) (generation : Int) :
    List KeyInfo → List KeyInfo
  | [] => keep
  | k :: rest =>
    if k.generation = generation then dropLapsed last keep generation rest
    else if k.timestamp + keyExpiry < last then dropLapsed last (k :: rest) k.generation rest
    else keep

/-- The keys `remove_expired` leaves. -/
def unexpired : List KeyInfo → List KeyInfo
  | k :: rest =>
    match rest.getLast? with
    | some last => dropLapsed last.timestamp (k :: rest) k.generation rest
    | none => [k]
  | [] => []

/-- The messages `remove_expired` leaves. -/
def activeFor (keys : List KeyInfo) (active : ActiveMsgs) : ActiveMsgs :=
  match keys with
  | front :: _ => active.dropWhile (fun p => p.1 < front.generation)
  | [] => []

/-- `remove_expired`. -/
def removeExpired : Keys :=
  { k with keys := unexpired k.keys, activeMsgs := activeFor (unexpired k.keys) k.activeMsgs }

/-! ## Inserting -/

/-- The keys of a generation. -/
def equalRange (generation : Int) (keys : List KeyInfo) : List KeyInfo :=
  (keys.dropWhile (fun k => k.generation < generation)).takeWhile
    (fun k => ¬generation < k.generation)

/-- A new key in front of all others whose generation has lapsed; the comparison is the exact one.
-/
def isStale (new : KeyInfo) (keys : List KeyInfo) : Bool :=
  match keys.head?, keys.getLast? with
  | some front, some back =>
    2 ≤ keys.length && (keys.takeWhile (· < new)).isEmpty && new.generation < front.generation &&
      front.timestamp + keyExpiry < back.timestamp
  | _, _ => false

/-- Insertion before the first key that is not less. -/
def insertSorted (new : KeyInfo) (keys : List KeyInfo) : List KeyInfo :=
  keys.takeWhile (· < new) ++ new :: keys.dropWhile (· < new)

/-- `insert_key`. -/
def insertKey (msgHash : MsgId) (new : KeyInfo) (k : Keys) : Keys :=
  if (equalRange new.generation k.keys).any (fun i => i.key = new.key) then
    { k with activeMsgs := k.activeMsgs.add new.generation msgHash }
  else if isStale new k.keys then k
  else
    { ({ k with
          activeMsgs := k.activeMsgs.add new.generation msgHash
          keys := insertSorted new k.keys } : Keys).removeExpired with needsDump := true }

/-! ## The keys in use -/

def size : Nat := k.keys.length + if k.pendingKeyConfig.isEmpty then 0 else 1

/-- `group_keys()`: the newest key first. -/
def groupKeys : List Key :=
  (if k.pendingKeyConfig.isEmpty then [] else [k.pendingKey]) ++ k.keys.reverse.map KeyInfo.key

/-- `group_enc_key()`. -/
def groupEncKey : Except Err Key :=
  if ¬k.pendingKeyConfig.isEmpty then .ok k.pendingKey
  else match k.keys.getLast? with
    | none => .error (.runtime "group_enc_key failed: Keys object has no keys at all!")
    | some last => .ok last.key

/-- `needs_rekey()`. -/
def needsRekey : Bool :=
  match k.keys.reverse with
  | last :: second :: _ => k.admin && last.generation = second.generation
  | _ => false

/-- `active_hashes()`. -/
def activeHashes : Finset MsgId := k.activeMsgs.foldl (fun hashes p => hashes ∪ p.2) ∅

/-! ## Signing keys -/

/-- `load_admin_key`. -/
def loadAdminKey (secret : Bytes) (k : Keys) : Except Err Keys :=
  if k.admin then .ok k
  else if h : secret.length = 64 ∨ secret.length = 32 then
    let seed : Key := ⟨secret.take 32, by rw [List.length_take]; omega⟩
    let pk := na.seedPk seed
    if k.signPk ≠ pk then
      .error (.runtime "Failed to load admin key: given secret key does not match group pubkey")
    else .ok { k with signSk := some (SecretKey.ofSeed seed pk), signPk := pk }
  else .error (.invalidArgument
    "Failed to load admin key: invalid secret key (expected 32 or 64 bytes)")

/-! ## Dumping and restoring -/

/-- A key in a dump, and in a supplemental message. -/
def keyInfoPairs (k : KeyInfo) : BtDict :=
  [(bytes "g", .int k.generation), (bytes "k", .str k.key.val), (bytes "t", .int k.timestamp)]

/-- The messages of a generation in a dump. -/
def activeRow (p : Int × Finset MsgId) : Bt := .list (.int p.1 :: (sortedIds p.2).map Bt.str)

def dumpPairs : BtDict :=
  [(bytes "A", .list (k.activeMsgs.map activeRow)),
    (bytes "L", .list (k.keys.map fun i => .dict (keyInfoPairs i)))] ++
  if k.pendingKeyConfig.isEmpty then []
  else [(bytes "P", .dict [(bytes "c", .str k.pendingKeyConfig), (bytes "g", .int k.pendingGen),
    (bytes "k", .str k.pendingKey.val)])]

/-- `dump()`. -/
def dump : Bytes × Keys := (env.encode k.dumpPairs, { k with needsDump := false })

/-- The messages of a dump, added to those before. -/
def loadActive : List Bt → ActiveMsgs → Except Err ActiveMsgs
  | [], active => .ok active
  | .list (.int g :: hashes) :: rest, active =>
    if InInt64 g then do
      let ids ← idsOfBt hashes
      loadActive rest (SortedMap.insert g ((SortedMap.find? g active).getD ∅ ∪ ids) active)
    else .error .oxenc
  | _, _ => .error .oxenc

def requireInt64 (key : Bytes) (missing : String) (d : BtDict) : Except Err (Int × BtDict) :=
  match skipUntil key d with
  | (some (.int i), rest) => if InInt64 i then .ok (i, rest) else .error .oxenc
  | (some _, _) => .error .oxenc
  | (none, _) => .error (.value missing)

def requireStr (key : Bytes) (missing : String) (d : BtDict) : Except Err (Bytes × BtDict) :=
  match skipUntil key d with
  | (some (.str s), rest) => .ok (s, rest)
  | (some _, _) => .error .oxenc
  | (none, _) => .error (.value missing)

structure KeyInfoErrors where
  noGeneration : String
  noKey : String
  wrongSize : Nat → String
  noTimestamp : String

/-- A key in a dump or in a supplemental message, which differ by their errors only. -/
def readKeyInfo (errors : KeyInfoErrors) : Bt → Except Err KeyInfo
  | .dict d => do
    let (generation, d) ← requireInt64 (bytes "g") errors.noGeneration d
    let (key, d) ← requireStr (bytes "k") errors.noKey d
    if h : key.length = 32 then do
      let (timestamp, _) ← requireInt64 (bytes "t") errors.noTimestamp d
      .ok ⟨⟨key, h⟩, timestamp, generation⟩
    else .error (.value (errors.wrongSize key.length))
  | _ => .error .oxenc

def dumpErrors : KeyInfoErrors where
  noGeneration := "Invalid Keys dump: found key without generation (g)"
  noKey := "Invalid Keys dump: found key without key bytes (k)"
  wrongSize n := s!"Invalid Keys dump: found key with invalid size ({n})"
  noTimestamp := "Invalid Keys dump: found key without timestamp (t)"

/-- The keys of a dump, which must ascend. -/
def loadKeys : Option KeyInfo → List Bt → Except Err (List KeyInfo)
  | _, [] => .ok []
  | prev, v :: rest => do
    let k ← readKeyInfo dumpErrors v
    if prev.any (k ≤ ·) then
      .error (.value "Invalid Keys dump: keys are not in proper sorted order")
    else do
      let ks ← loadKeys (some k) rest
      .ok (k :: ks)

/-- The pending key of a dump. -/
def loadPending (d : BtDict) (k : Keys) : Except Err Keys := do
  let (config, d) ← requireStr (bytes "c") "Invalid Keys dump: found pending without config (c)" d
  let (gen, d) ← requireInt64 (bytes "g") "Invalid Keys dump: found pending without generation (g)"
      d
  let (key, _) ← requireStr (bytes "k") "Invalid Keys dump: found pending without key (k)" d
  if h : key.length = 32 then
    .ok { k with pendingKeyConfig := config, pendingGen := gen, pendingKey := ⟨key, h⟩ }
  else .error (.value s!"Invalid Keys dump: found pending key (k) with invalid size ({key.length})")

/-- `load_dump`. -/
def loadDump (dump : Bytes) (k : Keys) : Except Err Keys :=
  match env.read dump with
  | none => .error (.runtime "not a bencoded dict")
  | some (pairs, _) =>
    match skipUntil (bytes "A") pairs with
    | (none, _) => .error (.value "Invalid Keys dump: `active` not found")
    | (some (.list rows), rest) => do
      let active ← loadActive rows k.activeMsgs
      match skipUntil (bytes "L") rest with
      | (none, _) => .error (.value "Invalid Keys dump: `keys` not found")
      | (some (.list items), rest) => do
        let keys ← loadKeys k.keys.getLast? items
        let k := { k with activeMsgs := active, keys := k.keys ++ keys }
        match skipUntil (bytes "P") rest with
        | (none, _) => .ok k
        | (some (.dict pending), _) => loadPending pending k
        | (some _, _) => .error .oxenc
      | (some _, _) => .error .oxenc
    | (some _, _) => .error .oxenc

/-- `init_sig_keys`. -/
def initSigKeys (userSk : SecretKey) (groupPk : Key) (groupSk : Option SecretKey) :
    Except Err Identity :=
  match groupSk with
  | some sk =>
    if groupPk ≠ sk.pk then
      .error (.invalidArgument "Invalid signing keys: secret key and pubkey do not match")
    else .ok ⟨userSk, sk.pk, some sk⟩
  | none => .ok ⟨userSk, groupPk, none⟩

/-- The object without keys. The pending key is an array nothing was written to. -/
def empty (who : Identity) : Keys :=
  { who with
    keys := [], activeMsgs := [], pendingKey := na.uninitialized, pendingKeyConfig := []
    pendingGen := -1, needsDump := false }

/-- The constructor. -/
def make (userSk : SecretKey) (groupPk : Key) (groupSk : Option SecretKey)
    (dumped : Option Bytes) : Except Err Keys := do
  let who ← initSigKeys userSk groupPk groupSk
  match dumped with
  | none => .ok (empty na who)
  | some dump => loadDump env dump (empty na who)

end Keys

/-! ## Key messages

The messages that distribute the keys of a group: `rekey` makes a full message with a new key for
the admins and for every member, and `load_key_message` reads such messages and the supplemental
ones that `key_supplement` makes of the existing keys.

Asserts are on. The key lists of the info and members objects are not part of the model; each call
sets them to `groupKeys`.
-/

section

variable (env : Env) (na : Sodium) (sk : SecretKey)

/-! ## Derived keys -/

def seedHashKey : Bytes := bytes "BChatGroupKeySeed"
def encKeyHashKey : Bytes := bytes "BChatGroupKeyGen"
def encKeyAdminHashKey : Bytes := bytes "BChatGroupKeyAdminKey"
def encKeyMemberHashKey : Bytes := bytes "BChatGroupKeyMemberKey"
def junkSeedHashKey : Bytes := bytes "BChatGroupJunkMembers"

/-- `compute_xpk`. -/
def computeXpk (pk : Key) : Except Err Key :=
  match na.pkToCurve pk with
  | some xpk => .ok xpk
  | none => .error (.runtime
    ("An error occured while attempting to convert Ed25519 pubkey to X25519; " ++
      "is the pubkey valid?"))

def seedHash (key : Bytes) : Key := na.hash 32 key sk.seed.val

/-- A message with the signature of the group. -/
def signedMessage (pairs : BtDict) : Bytes :=
  env.encode (pairs ++ [(bytes "~", .str (na.sign sk (env.encodeOpen pairs)).val)])

def splitJunk (size : Nat) : Nat → Bytes → List Bytes
  | 0, _ => []
  | n + 1, junk => junk.take size :: splitJunk size n (junk.drop size)

/-- How many junk entries pad a list of keys. -/
def junkCount (memberCount : Nat) : Nat :=
  if memberCount % messageKeyMultiple = 0 then 0
  else messageKeyMultiple - memberCount % messageKeyMultiple

def encryptedKeySize : Nat := 32 + aeadOverhead

namespace Keys

/-! ## Making messages -/

/-- The generation of the next rekey. The sum is exact: it is that of the source unless the last
generation is the highest `int64_t`. -/
def nextGeneration (k : Keys) : Int :=
  match k.keys.getLast? with
  | none => 0
  | some last => last.generation + 1

/-- What key and nonce of a rekey are taken from. -/
def rekeyHash (members : List Bytes) (gen : Int) :
    {b : Bytes // b.length = 56} :=
  na.hash 56 encKeyHashKey
    (members.flatten ++ bytes (toString gen) ++ (seedHash na sk seedHashKey).val)

/-- The new key. -/
def rekeyKey (h1 : {b : Bytes // b.length = 56}) : Key :=
  ⟨h1.val.take 32, by rw [List.length_take, h1.2]; rfl⟩

/-- The nonce of a rekey. -/
def rekeyNonce (h1 : {b : Bytes // b.length = 56}) : Nonce :=
  ⟨h1.val.drop 32, by rw [List.length_drop, h1.2]⟩

/-- The junk entries of a rekey. -/
def junkKeys (h1 : {b : Bytes // b.length = 56}) (memberCount : Nat) : List Bytes :=
  let n := junkCount memberCount
  let seed := na.hash 32 junkSeedHashKey (h1.val ++ sk.val)
  splitJunk encryptedKeySize n (na.randomBytes (encryptedKeySize * n) seed).val

/-- The pairs of a full message before the signature. -/
def rekeyPairs (h1 : {b : Bytes // b.length = 56}) (gen : Int) (memberKeys : List Bytes) : BtDict :=
  [(bytes "#", .str (rekeyNonce h1).val), (bytes "G", .int gen),
    (bytes "K", .str (na.aeadEncrypt (seedHash na sk encKeyAdminHashKey) (rekeyNonce h1)
      (rekeyKey h1).val)),
    (bytes "k", .list ((memberKeys ++ junkKeys na sk h1 memberKeys.length).map Bt.str))]

/-- `rekey`. -/
def rekey (members : List Bytes) (k : Keys) :
    Except Err (Bytes × Keys) :=
  match k.signSk with
  | none =>
    .error (.logic "Unable to issue a new group encryption key without the main group keys")
  | some sk => do
    let groupXpk ← computeXpk na k.signPk
    let gen := k.nextGeneration
    let h1 := rekeyHash na sk members gen
    let memberXpks ← bchatIdPks members
    let memberKeys ← encryptForMultiple na [(rekeyKey h1).val] memberXpks (rekeyNonce h1).val
      (na.skToCurve sk) groupXpk encKeyMemberHashKey true
    let conf := signedMessage env na sk (rekeyPairs na sk h1 gen memberKeys)
    .ok (conf, { k with
      pendingGen := gen, pendingKey := rekeyKey h1, pendingKeyConfig := conf, needsDump := true })

end Keys

/-! ## Reading messages -/

/-- `skip_until` on a consumer whose input may be cut off. -/
def seek (closed : Bool) (key : Bytes) (d : BtDict) : Except Err (Option Bt × BtDict) :=
  if (d.dropWhile (fun p => p.1 < key)).isEmpty ∧ ¬closed then .error .oxenc
  else .ok (skipUntil key d)

lemma seek_cons_self (closed : Bool) (k : Bytes) (v : Bt) (rest : BtDict) :
    seek closed k ((k, v) :: rest) = .ok (some v, rest) := by
  simp [seek, skipUntil_cons_self]

lemma seek_closed_of_lt {k k' : Bytes} (h : k < k') (v : Bt) (rest : BtDict) :
    seek true k ((k', v) :: rest) = .ok (none, (k', v) :: rest) := by
  simp [seek, skipUntil, h.asymm, h.ne']

/-- What `decrypt_for_multiple` found, the number of ciphertexts read and those left. -/
structure Opened where
  plaintext : Option Bytes
  count : Nat
  rest : List Bt

/-- Reads ciphertexts up to the first that opens. -/
def openNext (na : Sodium) (key : Key) (nonce : Nonce) (check : Nat → Bytes → Except Err Unit) :
    Nat → List Bt → Except Err Opened
  | pos, [] => .ok ⟨none, pos, []⟩
  | pos, .str c :: rest => do
    check pos c
    match decryptMulti na key nonce c with
    | some m => .ok ⟨some m, pos + 1, rest⟩
    | none => openNext na key nonce check (pos + 1) rest
  | _, _ :: _ => .error .oxenc

/-- Reads all ciphertexts without opening them. -/
def skipCiphertexts (check : Nat → Bytes → Except Err Unit) : Nat → List Bt → Except Err Nat
  | pos, [] => .ok pos
  | pos, .str c :: rest => do
    check pos c
    skipCiphertexts check (pos + 1) rest
  | _, _ :: _ => .error .oxenc

/-- `decrypt_for_multiple` on the list of a key message. The callback gives out nothing once the
key is known or need not be found. -/
def decryptForMultiple (skip : Bool) (check : Nat → Bytes → Except Err Unit) (list : List Bt)
    (nonce : Bytes) (privkey pubkey senderPubkey : Key) (domain : Bytes) :
    Except Err Opened := do
  let nonce ← nonceOf nonce
  let key ← encryptMultiKey na privkey pubkey senderPubkey false domain
  if skip then do
    let count ← skipCiphertexts check 0 list
    .ok ⟨none, count, []⟩
  else openNext na key nonce check 0 list

def checkSupplement (pos : Nat) (encrypted : Bytes) : Except Err Unit :=
  if encrypted.length < 52 + aeadOverhead then .error (.value
    s!"Supplemental key message has invalid key info size at index {pos}")
  else .ok ()

def checkMemberKey (pos : Nat) (memberKey : Bytes) : Except Err Unit :=
  if memberKey.length ≠ encryptedKeySize then .error (.value
    s!"Key message has invalid member key length at index {pos}")
  else .ok ()

def suppErrors : Keys.KeyInfoErrors where
  noGeneration := "Invalid supplemental key message: no `g` generation"
  noKey := "Invalid supplemental key message: no `k` key data"
  wrongSize _ := "Invalid supplemental key message: `k` key has wrong size"
  noTimestamp := "Invalid supplemental key message: no `t` timestamp"

/-- The keys of a supplemental message. -/
def readKeyInfos : List Bt → Except Err (List KeyInfo)
  | [] => .ok []
  | v :: rest => do
    let k ← Keys.readKeyInfo suppErrors v
    let ks ← readKeyInfos rest
    .ok (k :: ks)

/-- The keys of an opened supplemental message. -/
def readSuppKeys (plaintext : Bytes) : Except Err (List KeyInfo) :=
  match readList plaintext with
  | none => .error (.runtime "not a bencoded list")
  | some (items, closed) => do
    let keys ← readKeyInfos items
    if closed then .ok keys else .error .oxenc

/-- What a message brings: its keys for us, the generation to associate it with if there are none,
and the pairs after them. -/
structure KeyContent where
  newKeys : List KeyInfo
  maxGen : Option Int
  rest : BtDict

/-- The X25519 keys a reader has, and those of the group. An admin does not set its own. -/
structure Curve where
  memberXsk : Key
  memberXpk : Key
  groupXpk : Key

/-- The body of a supplemental message. -/
def readSupplement (admin closed : Bool) (curve : Curve) (nonce : Bytes) (supp : List Bt)
    (rest : BtDict) : Except Err KeyContent := do
  let opened ← decryptForMultiple na admin checkSupplement supp nonce curve.memberXsk
    curve.memberXpk curve.groupXpk encKeyMemberHashKey
  let newKeys ← match opened.plaintext with
    | some plaintext => readSuppKeys plaintext
    | none => .ok []
  let _ ← skipCiphertexts checkSupplement opened.count opened.rest
  match ← seek closed (bytes "G") rest with
  | (some (.int g), rest) => if InInt64 g then .ok ⟨newKeys, some g, rest⟩ else .error .oxenc
  | (some _, _) => .error .oxenc
  | (none, _) => .error (.value
    "Supplemental key message missing required max generation field (G)")

/-- The key of a full message, for an admin. -/
def openAdminKey (nonce adminKey : Bytes) : Except Err Key :=
  if h : nonce.length = 24 then
    match na.aeadDecrypt (seedHash na sk encKeyAdminHashKey) ⟨nonce, h⟩ adminKey with
    | some key =>
      if h : key.length = 32 then .ok ⟨key, h⟩ else .error .assertion
    | none => .error (.value "Failed to decrypt admin key from key message")
  else .error .assertion

/-- The key of a full message, for a member. -/
def readMemberKeys (curve : Curve) (nonce : Bytes) (found : Option Key) (keyList : List Bt) :
    Except Err (Option Key) := do
  let opened ← decryptForMultiple na found.isSome checkMemberKey keyList nonce curve.memberXsk
    curve.memberXpk curve.groupXpk encKeyMemberHashKey
  let found ← match opened.plaintext with
    | some key => if h : key.length = 32 then .ok (some ⟨key, h⟩) else .error .assertion
    | none => .ok found
  let count ← skipCiphertexts checkMemberKey opened.count opened.rest
  if count % messageKeyMultiple ≠ 0 then
    .error (.value "Member key list has wrong size (missing junk key padding?)")
  else .ok found

/-- The body of a full message. -/
def readFull (signSk : Option SecretKey) (closed : Bool) (curve : Curve) (nonce : Bytes)
    (timestampMs : Int) (rest : BtDict) : Except Err KeyContent := do
  match ← seek closed (bytes "G") rest with
  | (none, _) => .error (.value "Key message missing required generation (G) field")
  | (some (.int generation), rest) =>
    if ¬InInt64 generation then .error .oxenc
    else if generation < 0 then
      .error (.value "Key message contains invalid negative generation")
    else
      match ← seek closed (bytes "K") rest with
      | (none, _) =>
        .error (.value "Non-supplemental key message is missing required admin key (K)")
      | (some (.str adminKey), rest) =>
        if adminKey.length ≠ encryptedKeySize then
          .error (.value "Key message has invalid admin key length")
        else do
          let found ← match signSk with
            | some sk => (openAdminKey na sk nonce adminKey).map some
            | none => .ok none
          match ← seek closed (bytes "k") rest with
          | (none, _) => .error (.value "Config is missing member keys list (k)")
          | (some (.list keyList), rest) => do
            match ← readMemberKeys na curve nonce found keyList with
            | some key => .ok ⟨[⟨key, timestampMs, generation⟩], none, rest⟩
            | none => .ok ⟨[], some generation, rest⟩
          | (some _, _) => .error .oxenc
      | (some _, _) => .error .oxenc
  | (some _, _) => .error .oxenc

def Identity.curve (groupXpk : Key) (who : Identity) : Except Err Curve :=
  if who.admin then .ok ⟨na.uninitialized, na.uninitialized, groupXpk⟩
  else do
    let memberXpk ← computeXpk na who.userSk.pk
    .ok ⟨na.skToCurve who.userSk, memberXpk, groupXpk⟩

/-- The reading part of `load_key_message`. -/
def readKeyMessage (who : Identity) (data : Bytes) (timestampMs : Int) : Except Err KeyContent :=
  match env.read data with
  | none => .error (.runtime "not a bencoded dict")
  | some (pairs, closed) => do
    let groupXpk ← computeXpk na who.signPk
    match ← seek closed (bytes "#") pairs with
    | (none, _) => .error (.value "Key message has no nonce")
    | (some (.str nonce), rest) => do
      let curve ← who.curve na groupXpk
      let content ← match ← seek closed (bytes "+") rest with
        | (some (.list supp), rest) => readSupplement na who.admin closed curve nonce supp rest
        | (some _, _) => .error .oxenc
        | (none, rest) => readFull na who.signSk closed curve nonce timestampMs rest
      let _ ← verifyConfigSig env data content.rest closed (some (na.verify who.signPk)) false
      .ok content
    | (some _, _) => .error .oxenc

namespace Keys

/-- A message with our pending key, or with a later one, drops the pending status. -/
def settlePending (newKeys : List KeyInfo) (k : Keys) : Keys :=
  match newKeys with
  | first :: _ =>
    if k.admin ∧ ¬k.pendingKeyConfig.isEmpty ∧
        (k.pendingGen < first.generation ∨ first.key = k.pendingKey) then
      { k with pendingKeyConfig := [], needsDump := true }
    else k
  | [] => k

/-- The part of `load_key_message` after the signature: whether there was a key for us, and the
object. -/
def applyContent (hash : MsgId) (content : KeyContent) (k : Keys) : Bool × Keys :=
  let k := k.settlePending content.newKeys
  match content.newKeys, content.maxGen with
  | [], none => (false, k)
  | [], some gen =>
    (false, { ({ k with activeMsgs := k.activeMsgs.add gen hash } : Keys).removeExpired with
      needsDump := true })
  | newKeys, _ => (true, newKeys.foldl (fun k new => k.insertKey hash new) k)

/-- `load_key_message`. -/
def loadKeyMessage (hash : MsgId) (data : Bytes) (timestampMs : Int) (k : Keys) :
    Except Err (Bool × Keys) := do
  let content ← readKeyMessage env na k.toIdentity data timestampMs
  .ok (k.applyContent hash content)

end Keys

end

end

end Bchat.Groups
