import Bchat.Config.Device
import Bchat.Groups.Keys
import Bchat.Lib.Effect

/-!
# Loading a key message, step by step

`load_key_message` once more, with its effects in the order of the source: on the keys object and
on the key lists of the info and members objects, which stay changed when a later step throws, and
the calls of the two decryption functions, which take the length of the nonce for granted.

* `try_decrypting` is called by admins, on the admin key of a full message
* `decrypt_multi_impl` is called by `decrypt_for_multiple`, on one ciphertext after the other
-/

namespace Bchat.Groups

open Config Bencode Effect

variable (env : Env) (na : Sodium)

/-- The objects `load_key_message` is given. -/
structure Group where
  keys : Keys
  info : Device
  members : Device

/-- A call of `decrypt_for_multiple`. -/
inductive DecryptCall
  | tryDecrypting (nonce encrypted : Bytes)
  | decryptMultiImpl (nonce ciphertext : Bytes)
  deriving DecidableEq

/-- A computation that records its calls. -/
abbrev LoadM := Prog Group DecryptCall Err

/-! ## Up to the signature -/

/-- The loop of `decrypt_for_multiple`. -/
def openNextM (na : Sodium) (key : Key) (nonce : Bytes) (nonce24 : Nonce)
    (check : Nat → Bytes → Except Err Unit) : Nat → List Bt → LoadM Opened
  | pos, [] => lift (.ok ⟨none, pos, []⟩)
  | pos, .str c :: rest => do
    lift (check pos c)
    note (.decryptMultiImpl nonce c)
    match decryptMulti na key nonce24 c with
    | some m => lift (.ok ⟨some m, pos + 1, rest⟩)
    | none => openNextM na key nonce nonce24 check (pos + 1) rest
  | _, _ :: _ => lift (.error .oxenc)

def decryptForMultipleM (skip : Bool) (check : Nat → Bytes → Except Err Unit) (list : List Bt)
    (nonce : Bytes) (privkey pubkey senderPubkey : Key) (domain : Bytes) :
    LoadM Opened := do
  let nonce24 ← lift (nonceOf nonce)
  let key ← lift (encryptMultiKey na privkey pubkey senderPubkey false domain)
  if skip then
    lift do
      let count ← skipCiphertexts check 0 list
      .ok ⟨none, count, []⟩
  else openNextM na key nonce nonce24 check 0 list

def readSupplementM (admin closed : Bool) (curve : Curve) (nonce : Bytes) (supp : List Bt)
    (rest : BtDict) : LoadM KeyContent := do
  let opened ← decryptForMultipleM na admin checkSupplement supp nonce curve.memberXsk
    curve.memberXpk curve.groupXpk encKeyMemberHashKey
  lift do
    let newKeys ← match opened.plaintext with
      | some plaintext => readSuppKeys plaintext
      | none => .ok []
    let _ ← skipCiphertexts checkSupplement opened.count opened.rest
    match ← seek closed (bytes "G") rest with
    | (some (.int g), rest) => if InInt64 g then .ok ⟨newKeys, some g, rest⟩ else .error .oxenc
    | (some _, _) => .error .oxenc
    | (none, _) => .error (.value
      "Supplemental key message missing required max generation field (G)")

def openAdminKeyM (signSk : Option SecretKey) (nonce adminKey : Bytes) :
    LoadM (Option Key) :=
  match signSk with
  | some sk => do
    note (.tryDecrypting nonce adminKey)
    lift ((openAdminKey na sk nonce adminKey).map some)
  | none => lift (.ok none)

def readMemberKeysM (curve : Curve) (nonce : Bytes) (found : Option Key) (keyList : List Bt) :
    LoadM (Option Key) := do
  let opened ← decryptForMultipleM na found.isSome checkMemberKey keyList nonce curve.memberXsk
    curve.memberXpk curve.groupXpk encKeyMemberHashKey
  lift do
    let found ← match opened.plaintext with
      | some key => if h : key.length = 32 then .ok (some ⟨key, h⟩) else .error .assertion
      | none => .ok found
    let count ← skipCiphertexts checkMemberKey opened.count opened.rest
    if count % messageKeyMultiple ≠ 0 then
      .error (.value "Member key list has wrong size (missing junk key padding?)")
    else .ok found

def readMemberListM (closed : Bool) (curve : Curve) (nonce : Bytes) (timestampMs generation : Int)
    (rest : BtDict) (found : Option Key) : LoadM KeyContent := do
  match ← lift (seek closed (bytes "k") rest) with
  | (none, _) => lift (.error (.value "Config is missing member keys list (k)"))
  | (some (.list keyList), rest) => do
    match ← readMemberKeysM na curve nonce found keyList with
    | some key => lift (.ok ⟨[⟨key, timestampMs, generation⟩], none, rest⟩)
    | none => lift (.ok ⟨[], some generation, rest⟩)
  | (some _, _) => lift (.error .oxenc)

def readFullM (signSk : Option SecretKey) (closed : Bool) (curve : Curve) (nonce : Bytes)
    (timestampMs : Int) (rest : BtDict) : LoadM KeyContent := do
  match ← lift (seek closed (bytes "G") rest) with
  | (none, _) => lift (.error (.value "Key message missing required generation (G) field"))
  | (some (.int generation), rest) =>
    if ¬InInt64 generation then lift (.error .oxenc)
    else if generation < 0 then
      lift (.error (.value "Key message contains invalid negative generation"))
    else
      match ← lift (seek closed (bytes "K") rest) with
      | (none, _) =>
        lift (.error (.value "Non-supplemental key message is missing required admin key (K)"))
      | (some (.str adminKey), rest) =>
        if adminKey.length ≠ encryptedKeySize then
          lift (.error (.value "Key message has invalid admin key length"))
        else do
          let found ← openAdminKeyM na signSk nonce adminKey
          readMemberListM na closed curve nonce timestampMs generation rest found
      | (some _, _) => lift (.error .oxenc)
  | (some _, _) => lift (.error .oxenc)

/-- Everything up to the signature. -/
def readKeyMessageM (who : Identity) (data : Bytes) (timestampMs : Int) :
    LoadM KeyContent :=
  match env.read data with
  | none => lift (.error (.runtime "not a bencoded dict"))
  | some (pairs, closed) => do
    let groupXpk ← lift (computeXpk na who.signPk)
    match ← lift (seek closed (bytes "#") pairs) with
    | (none, _) => lift (.error (.value "Key message has no nonce"))
    | (some (.str nonce), rest) => do
      let curve ← lift (who.curve na groupXpk)
      let content ← match ← lift (seek closed (bytes "+") rest) with
        | (some (.list supp), rest) => readSupplementM na who.admin closed curve nonce supp rest
        | (some _, _) => lift (.error .oxenc)
        | (none, rest) => readFullM na who.signSk closed curve nonce timestampMs rest
      let _ ← lift
        (verifyConfigSig env data content.rest closed (some (na.verify who.signPk)) false)
      lift (.ok content)
    | (some _, _) => lift (.error .oxenc)

/-! ## After the signature -/

def updateKeys (f : Keys → Keys) : LoadM Unit := update fun g => { g with keys := f g.keys }

def replaceGroupKeysM : LoadM Unit := do
  let g ← readState
  let newKeyList := g.keys.groupKeys.map Subtype.val
  let members ← lift (g.members.replaceKeys env newKeyList false)
  update fun g => { g with members := members }
  let info ← lift (g.info.replaceKeys env newKeyList false)
  update fun g => { g with info := info }

/-- The loop over the keys of the message. -/
def insertKeysM (hash : MsgId) : List KeyInfo → LoadM Unit
  | [] => lift (.ok ())
  | new :: rest => do
    updateKeys (·.insertKey hash new)
    insertKeysM hash rest

/-- Everything after the signature. -/
def applyContentM (hash : MsgId) (content : KeyContent) : LoadM Bool := do
  updateKeys (·.settlePending content.newKeys)
  if content.newKeys ≠ [] then do
    insertKeysM hash content.newKeys
    replaceGroupKeysM env
    lift (.ok true)
  else
    match content.maxGen with
    | some gen => do
      updateKeys fun k =>
        { ({ k with activeMsgs := k.activeMsgs.add gen hash } : Keys).removeExpired with
          needsDump := true }
      lift (.ok false)
    | none => lift (.ok false)

/-- `load_key_message` with its calls. -/
def loadKeyMessageM (hash : MsgId) (data : Bytes) (timestampMs : Int) :
    LoadM Bool := do
  let g ← readState
  let content ← readKeyMessageM env na g.keys.toIdentity data timestampMs
  applyContentM env hash content

end Bchat.Groups
