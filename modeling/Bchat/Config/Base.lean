import Bchat.Config.Merge

/-!
# Config objects

`ConfigBase` of `src/config/base.cpp`: an object holds the current message, edits it, pushes it,
merges what other devices have pushed, and can be dumped and restored.

The storage server names each stored message by an id. An object keeps the ids of the message it
considers stored (`currHashes`) and the ids of messages it can tell the server to delete
(`oldHashes`).

* `mergeRows` takes the messages after decryption, decompression and the reassembly of multipart
  messages, each with its ids (one for each part).
* `push` gives the plaintext of the message; compression, padding and encryption are left out.
* A function that throws after it has changed the object returns the changed object as well.
* A failed `assert` is an error when `debug` is set and is ignored otherwise.
-/

namespace Bchat.Config

open Bencode

variable (env : Env) (key : Bytes) (debug : Bool) (cb : ConfigBase)

/-! ## Keys and state -/

/-- A storage hash: the name the server gives to a stored message. -/
abbrev MsgId := Bytes

/-- `ConfigState`. -/
inductive ConfigState
  | clean
  | dirty
  | waiting
  deriving DecidableEq, Repr

/-- What `init_sig_keys` installs: nothing, the verifier of a public key, or the verifier and the
signer of a secret key. -/
inductive SigKeys
  | none
  | pubkey (verifier : Verifier)
  | secretkey (verifier : Verifier) (signer : Signer)

namespace SigKeys

def verifier : SigKeys → Option Verifier
  | .none => Option.none
  | .pubkey v => some v
  | .secretkey v _ => some v

def signer : SigKeys → Option Signer
  | .none => Option.none
  | .pubkey _ => Option.none
  | .secretkey _ s => some s

end SigKeys

def AnyMessage.setSigKeys (keys : SigKeys) : AnyMessage → AnyMessage
  | .immutable m => .immutable { m with verifier := keys.verifier, signer := keys.signer }
  | .mutable m => .mutable { m with verifier := keys.verifier, signer := keys.signer }

/-- `ConfigBase`: a message and what is known of the server. -/
structure ConfigBase where
  config : AnyMessage
  state : ConfigState
  currHashes : Finset MsgId
  oldHashes : Finset MsgId
  needsDump : Bool

/-- `config_lags()`. -/
def configLags : Int := 5

namespace ConfigBase

/-- `is_readonly()`. -/
def isReadonly : Bool := cb.config.base.verifier.isSome && cb.config.base.signer.isNone

/-- `set_state` after its check. -/
def setState (s : ConfigState) (cb : ConfigBase) : ConfigBase :=
  if cb.state = .clean ∧ cb.currHashes ≠ ∅ then
    { cb with
      oldHashes := cb.oldHashes ∪ cb.currHashes
      currHashes := ∅
      state := s
      needsDump := true }
  else { cb with state := s, needsDump := true }

/-- `dirty()`: the message that is edited. -/
def setDirty : Except Err ConfigBase :=
  if cb.isReadonly then .error (.runtime "Unable to make changes to a read-only config object")
  else .ok (cb.setState .dirty)

/-- `dirty()`, without the reference it returns. -/
def dirty : Except Err ConfigBase :=
  if cb.state ≠ .dirty then do
    let cb ← cb.setDirty
    .ok { cb with config := .mutable (cb.config.increment env) }
  else .ok { cb with needsDump := true }

end ConfigBase

/-! ## Editing -/

/-- An edit of the data through the field proxies: while the object is not Dirty they first look
whether there is anything to change. -/
structure Edit where
  needed : Dict → Bool
  apply : Dict → Dict
  wf_apply : ∀ d, Dict.WF d → Dict.WF (apply d)

def assignIfChanged (value : Scalar) : Edit where
  needed d :=
    match SortedMap.find? key d with
    | some (.scalar current) => current ≠ value
    | _ => true
  apply := SortedMap.insert key (.scalar value)
  wf_apply _ h := wf_insert h trivial

namespace ConfigBase

/-- Changes the data through the reference `dirty()` returns. -/
def modifyData (f : Dict → Dict) (cb : ConfigBase) : Except Err ConfigBase :=
  match cb.config with
  | .mutable m => .ok { cb with config := .mutable { m with data := f m.data } }
  | .immutable _ =>
    .error (.runtime "Internal error: unexpected dirty but non-mutable ConfigMessage")

def edit (e : Edit) (cb : ConfigBase) : Except Err ConfigBase :=
  if cb.state ≠ .dirty ∧ e.needed cb.config.base.data = false then .ok cb
  else do
    let cb ← cb.dirty env
    cb.modifyData e.apply

def editAll (env : Env) : List Edit → ConfigBase → Except Err ConfigBase
  | [], cb => .ok cb
  | e :: es, cb => do
    let cb ← cb.edit env e
    cb.editAll env es

/-! ## Pushing -/

/-- What `push()` returns: the seqno, the plaintext and the ids that can be deleted. -/
structure Pushed where
  seqno : Int
  msg : Bytes
  obsolete : Finset MsgId

/-- `push()`. -/
def push : Pushed × ConfigBase :=
  let s := cb.config.seqno
  let r := cb.config.serialize env true
  let cb := { cb with config := r.2 }
  let cb := if cb.state = .dirty then cb.setState .waiting else cb
  let obs := if cb.isReadonly then ∅ else cb.oldHashes
  (⟨s, r.1, obs⟩, { cb with oldHashes := ∅ })

/-- `confirm_pushed`. -/
def confirmPushed (seqno : Int) (msgHashes : Finset MsgId) (cb : ConfigBase) : ConfigBase :=
  if cb.state = .waiting ∧ seqno = cb.config.seqno then
    { cb.setState .clean with currHashes := msgHashes }
  else cb

/-- `old_hashes()`: the ids that can be deleted, which the object then forgets. -/
def takeOldHashes : Finset MsgId × ConfigBase :=
  if cb.state ≠ .dirty then (cb.oldHashes, { cb with oldHashes := ∅ }) else (∅, cb)

end ConfigBase

/-! ## Merging -/

/-- An entry of `all_hashes` with its entry of `all_confs`. -/
structure Row where
  ids : Finset MsgId
  conf : Bytes

/-- `make_config_message`, with the indices the error handler was given. -/
def makeConfigMessage (fromDirty : Bool) (confs : List Bytes) (verifier : Option Verifier)
    (signer : Option Signer) (lag : Int) (handler : Nat → Err → Except Err Unit) :
        Except Err (AnyMessage × List Nat) := do
  let (m, bad) ← mergeConfigs env confs verifier signer lag handler
  .ok (if fromDirty then .mutable (toMutable m) else .immutable m, bad)

/-- The error handler of `_merge`: the first entry should be parseable. -/
def mergeHandler : Nat → Err → Except Err Unit :=
  fun i _ => if debug ∧ i = 0 then .error .assertion else .ok ()

def superconfHashes (superconf : Option Nat) (rows : List Row) : Finset MsgId :=
  match superconf with
  | some i => ((rows[i]?).map Row.ids).getD ∅
  | none => ∅

/-- Collects the ids that can be deleted. -/
def addObsolete (superconf : Option Nat) (bad : List Nat) (rows : List Row)
    (old : Finset MsgId) : Finset MsgId :=
  rows.zipIdx.foldl (fun old (row, i) =>
    if superconf ≠ some i ∧ i ∉ bad ∧ row.ids ≠ ∅ ∧ superconfHashes superconf rows ≠ row.ids then
      old ∪ row.ids
    else old) old

/-- The loop that removes the ids of messages that could not be parsed from the good ones. -/
def removeBad (mineIndex : Option Nat) (bad : List Nat) (rows : List Row)
    (good : Finset MsgId) : Finset MsgId :=
  rows.zipIdx.foldl (fun good (row, i) =>
    if mineIndex ≠ some i ∧ i ∈ bad then good \ row.ids else good) good

namespace ConfigBase

/-- The serialization of the current message, which takes part in the merge unless the object is
new, and the object after it. -/
def serializeMine : Option Bytes × ConfigBase :=
  if cb.config.seqno ≠ 0 ∨ cb.state = .dirty then
    let r := cb.config.serialize env true
    (some r.1, { cb with config := r.2 })
  else (none, cb)

/-- The entries to merge: the own one is first if its ids are known, and last otherwise. -/
def allRows (mine : Option Bytes) (received : List Row) : List Row :=
  match mine with
  | none => received
  | some conf =>
    if cb.currHashes = ∅ then received ++ [⟨∅, conf⟩] else ⟨cb.currHashes, conf⟩ :: received

/-- The index `_merge` compares with that of the message used; it is 0 when there is no own
entry. -/
def mineIndex (mine : Option Bytes) (rows : List Row) : Nat :=
  if mine.isSome ∧ cb.currHashes = ∅ then rows.length - 1 else 0

/-- What `_merge` does with the merged message. -/
def adopt (mine : Option Bytes) (rows : List Row) (newConf : AnyMessage) (cb : ConfigBase) :
    ConfigBase × Except Err Unit :=
  let oldSeqno := cb.config.seqno
  let superconf := newConf.base.unmerged
  let superconfIsMine := superconf = some (cb.mineIndex mine rows)
  if newConf.seqno ≠ oldSeqno then
    if newConf.base.merged then
      let config := if cb.state ≠ .dirty then .mutable newConf.retain else newConf
      let cb := { cb with config := config }
      match cb.setDirty with
      | .ok cb => (cb, .ok ())
      | .error e => (cb, .error e)
    else if cb.state = .dirty ∧ superconfIsMine ∧ newConf.seqno = oldSeqno + 1 then (cb, .ok ())
    else
      let ok : Prop := ((oldSeqno = 0 ∧ mine.isNone) ∨ ¬superconfIsMine) ∧
        superconf.any (· < rows.length)
      let cb := { cb with config := newConf }
      if debug ∧ ¬ok then (cb, .error .assertion)
      else ({ cb.setState .clean with currHashes := superconfHashes superconf rows }, .ok ())
  else (cb, .ok ())

/-- `_merge` from the point where the messages are decoded; `good` holds the ids of the messages
that could be decoded. -/
def mergeRows (received : List Row) (good : Finset MsgId) (cb : ConfigBase) :
    ConfigBase × Except Err (Finset MsgId) :=
  let (mine, cb) := cb.serializeMine env
  let rows := cb.allRows mine received
  if rows.isEmpty then (cb, .ok good)
  else
    match makeConfigMessage env (cb.state == .dirty) (rows.map Row.conf)
      cb.config.base.verifier cb.config.base.signer configLags (mergeHandler debug) with
    | .error e => (cb, .error e)
    | .ok (newConf, bad) =>
      let cb := { cb with
        oldHashes := addObsolete newConf.base.unmerged bad rows cb.oldHashes }
      let own := if mine.isSome then some (cb.mineIndex mine rows) else none
      let r := cb.adopt debug mine rows newConf
      (r.1, r.2.map fun _ => removeBad own bad rows good)

end ConfigBase

/-! ## Dumping and restoring -/

namespace ConfigState

def toInt : ConfigState → Int
  | clean => 0
  | dirty => 1
  | waiting => 2

/-- `static_cast<ConfigState>`, on the numbers that have a name. -/
def ofInt : Int → Option ConfigState
  | 0 => some clean
  | 1 => some dirty
  | 2 => some waiting
  | _ => none

end ConfigState

abbrev sortedIds (ids : Finset MsgId) : List MsgId := ids.sort

/-- A set of ids as a list of strings; its order does not matter. -/
def idsToBt (ids : Finset MsgId) : Bt := .list ((sortedIds ids).map Bt.str)

/-- The strings of a list; an element of another type is an error. -/
def idsOfBt : List Bt → Except Err (Finset MsgId)
  | [] => .ok ∅
  | .str id :: rest => do
    let ids ← idsOfBt rest
    .ok (insert id ids)
  | _ => .error .oxenc

lemma idsOfBt_map_str (l : List MsgId) : idsOfBt (l.map Bt.str) = .ok l.toFinset := by
  induction l with
  | nil => rfl
  | cons id l ih =>
    rw [List.map_cons, idsOfBt, ih, List.toFinset_cons]
    rfl

/-- `skip_until`: the value of the key if it is there, and the pairs from which the consumer goes
on. -/
def skipUntil (d : BtDict) : Option Bt × BtDict :=
  match d.dropWhile (fun p => p.1 < key) with
  | (k, v) :: rest => if k = key then (some v, rest) else (none, (k, v) :: rest)
  | [] => (none, [])

lemma skipUntil_cons_self (v : Bt) (rest : BtDict) :
    skipUntil key ((key, v) :: rest) = (some v, rest) := by
  simp [skipUntil]

namespace ConfigBase

/-- `make_dump()`. The entries of partial multipart messages and of derived classes are empty. -/
def makeDump : Bytes × ConfigBase :=
  let r := cb.config.serialize env false
  (env.encode [(bytes "!", .int cb.state.toInt), (bytes "$", .str r.1),
    (bytes "(", idsToBt cb.currHashes), (bytes ")", idsToBt cb.oldHashes),
    (bytes "*", .dict []), (bytes "+", .dict [])], { cb with config := r.2 })

/-- `dump()`. -/
def dump : Bytes × ConfigBase :=
  let cb := if cb.isReadonly then { cb with oldHashes := ∅ } else cb
  let r := cb.makeDump env
  (r.1, { r.2 with needsDump := false })

def loadCurrHashes : Bt → Except Err (Finset MsgId)
  | .list l => idsOfBt l
  | .str hash => .ok (if hash.isEmpty then ∅ else {hash})
  | _ => .error (.runtime "Invalid dumped config data: expected '(' containing list or string")

def loadHashes (rest : BtDict) : Except Err (Finset MsgId × Finset MsgId) :=
  match skipUntil (bytes "(") rest with
  | (none, _) => .ok (∅, ∅)
  | (some curr, rest) => do
    let currHashes ← loadCurrHashes curr
    match skipUntil (bytes ")") rest with
    | (none, _) =>
      .error (.runtime "Unable to parse dumped config data: found '(' without ')'")
    | (some (.list l), _) => do
      let oldHashes ← idsOfBt l
      .ok (currHashes, oldHashes)
    | (some _, _) => .error .oxenc

/-- The message of a dump. -/
def loadConfig (state : ConfigState) (data : Bytes) : Except Err AnyMessage :=
  if state = .dirty then do
    let (m, _) ← mergeConfigs env [data] none none configLags throwHandler
    .ok (.mutable (toMutable m))
  else do
    let m ← ConfigMessage.parse env data none none configLags true
    .ok (.immutable m)

/-- `load`. -/
def load (dumped : Bytes) : Except Err ConfigBase :=
  match env.read dumped with
  | none => .error .oxenc
  | some (pairs, _) =>
    match skipUntil (bytes "!") pairs with
    | (some (.int i), rest) =>
      match ConfigState.ofInt i with
      | none => .error (.runtime "not a ConfigState")
      | some state =>
        match skipUntil (bytes "$") rest with
        | (some (.str data), rest) => do
          let config ← loadConfig env state data
          let (curr, old) ← loadHashes rest
          .ok ⟨config, state, curr, old, false⟩
        | (some _, _) => .error .oxenc
        | (none, _) =>
          .error (.runtime "Unable to parse dumped config data: did not find '$' data key")
    | (some _, _) => .error .oxenc
    | (none, _) =>
      .error (.runtime "Unable to parse dumped config data: did not find '!' state key")

/-- A new object. -/
def fresh (keys : SigKeys) : ConfigBase :=
  { config := (AnyMessage.immutable (ConfigMessage.empty env)).setSigKeys keys
    state := .clean
    currHashes := ∅
    oldHashes := ∅
    needsDump := false }

/-- An object from a dump. -/
def restore (dumped : Bytes) (keys : SigKeys) : Except Err ConfigBase := do
  let cb ← load env dumped
  .ok { cb with config := cb.config.setSigKeys keys }

end ConfigBase

end Bchat.Config
