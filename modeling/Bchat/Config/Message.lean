import Bchat.Config.Diff

/-!
# Config messages

`ConfigMessage` and `MutableConfigMessage` of `src/config.cpp`: parsing, serializing and deriving
the next message.

A `ConfigMessage` is a value here. The methods of `MutableConfigMessage` that change the object
while they compute a result (`diff`, `serialize`, `hash`) return the changed object.

Sequence numbers are unbounded integers; the parser checks the range of `int64_t`.
-/

namespace Bchat.Config

open Bencode

variable (env : Env) (m : ConfigMessage) (serialized : Bytes) (currDiff : BtDict)
  (enableSigning : Bool)

/-! ## The message -/

/-- A message as its descendants refer to it. -/
structure SeqnoHash where
  seqno : Int
  hash : Hash
  deriving DecidableEq, Repr

namespace SeqnoHash

/-- A pair compares by its first component first. -/
def toProd (s : SeqnoHash) : Int ×ₗ Hash := toLex (s.seqno, s.hash)

lemma toProd_injective : Function.Injective toProd := by
  intro a b h
  have hp : (a.seqno, a.hash) = (b.seqno, b.hash) := toLex_inj.mp h
  cases a
  cases b
  simpa using hp

instance : LinearOrder SeqnoHash := LinearOrder.lift' toProd toProd_injective

lemma lt_iff {a b : SeqnoHash} :
    a < b ↔ a.seqno < b.seqno ∨ (a.seqno = b.seqno ∧ a.hash < b.hash) := by
  show toProd a < toProd b ↔ _
  simp [toProd, Prod.Lex.toLex_lt_toLex]

lemma lt_of_seqno_lt {a b : SeqnoHash} (h : a.seqno < b.seqno) : a < b := lt_iff.mpr (Or.inl h)

lemma seqno_le_of_le {a b : SeqnoHash} (h : a ≤ b) : a.seqno ≤ b.seqno := by
  by_contra hlt
  exact absurd h (not_le.mpr (lt_of_seqno_lt (not_le.mp hlt)))

end SeqnoHash

/-- `verify_callable`; it is called with 64-byte signatures only. -/
abbrev Verifier := Bytes → Signature → Bool

/-- `sign_callable`, returning the 64 bytes `serialize_impl` insists on. -/
abbrev Signer := Bytes → Signature

/-- A signature written as a number. -/
def signatureOfNat (n : Nat) : Signature := ⟨natBytes 64 n, length_natBytes 64 n⟩

def tableVerifier (table : List (Bytes × Signature)) : Verifier :=
  fun data sig => decide ((data, sig) ∈ table)

def tableSigner (table : List (Bytes × Signature)) : Signer :=
  fun data => (SortedMap.find? data table).getD (signatureOfNat 0)

/-- The diffs of recent ancestors. -/
abbrev LaggedDiffs := List (SeqnoHash × BtDict)

/-- `ConfigMessage`. -/
structure ConfigMessage where
  data : Dict
  diff : BtDict
  laggedDiffs : LaggedDiffs
  unknown : BtDict
  seqnoHash : SeqnoHash
  verifiedSignature : Option Signature
  unmerged : Option Nat
  verifier : Option Verifier
  signer : Option Signer
  lag : Int

namespace ConfigMessage

def seqno (m : ConfigMessage) : Int := m.seqnoHash.seqno

/-- Whether the message is the result of a merge. -/
def merged : Bool := m.unmerged.isNone

end ConfigMessage

def zeroHash : Hash := ⟨List.replicate 32 0, length_zeros_32⟩

/-! ## Serializing -/

mutual
def DictValue.toBt : DictValue → Bt
  | .dict d => .dict (Dict.toBt d)
  | .set s => .list (s.map Scalar.toBt)
  | .scalar s => s.toBt

def Dict.toBt : Dict → BtDict
  | [] => []
  | (k, v) :: rest => (k, v.toBt) :: Dict.toBt rest
end

/-- `append_unknown`: the unknown keys before `bound`, and those that are left. -/
def appendUnknown (unknown : BtDict) (bound : Bytes) : BtDict × BtDict :=
  (unknown.takeWhile (fun p => p.1 < bound), unknown.dropWhile (fun p => p.1 < bound))

def laggedRow (p : SeqnoHash × BtDict) : Bt := .list [.int p.1.seqno, .str p.1.hash.val, .dict p.2]

/-- The lagged diffs that are within the lag of a message with the given seqno. -/
def inWindow (seqno lag : Int) (p : SeqnoHash × BtDict) : Bool :=
  !(p.1.seqno ≤ seqno - lag || seqno ≤ p.1.seqno)

namespace ConfigMessage

/-- The pairs of a message up to the signature. -/
def pairs : BtDict :=
  let u1 := appendUnknown m.unknown (bytes "&")
  let u2 := appendUnknown u1.2 (bytes "<")
  let u3 := appendUnknown u2.2 (bytes "=")
  let u4 := appendUnknown u3.2 (bytes "~")
  [(bytes "#", Bt.int m.seqno)] ++ u1.1
    ++ [(bytes "&", Bt.dict (Dict.toBt m.data))] ++ u2.1
    ++ [(bytes "<", Bt.list ((m.laggedDiffs.filter (inWindow m.seqno m.lag)).map laggedRow))] ++
        u3.1
    ++ [(bytes "=", Bt.dict currDiff)] ++ u4.1

def trailer :
    Option Signature :=
  match m.verifiedSignature with
  | some sig => some sig
  | none =>
    match m.signer with
    | some signer => if enableSigning then some (signer (env.encodeOpen (m.pairs currDiff))) else
        none
    | none => none

/-- `serialize_impl`. -/
def serializeImpl :
    Bytes :=
  match m.trailer env currDiff enableSigning with
  | some sig => env.encode (m.pairs currDiff ++ [(bytes "~", Bt.str sig.val)])
  | none => env.encode (m.pairs currDiff)

/-- `serialize()`, which is virtual. -/
def serialize : Bytes := m.serializeImpl env m.diff enableSigning

/-- The default constructor. -/
def empty : ConfigMessage :=
  let m : ConfigMessage :=
    { data := [], diff := [], laggedDiffs := [], unknown := [], seqnoHash := ⟨0, zeroHash⟩,
      verifiedSignature := none, unmerged := none, verifier := none, signer := none, lag := 5 }
  { m with seqnoHash := ⟨0, env.blake2b (m.serialize env true)⟩ }

end ConfigMessage

/-- The pairs of an unsigned message without unknown keys. -/
def messagePairs (seqno : Int) (data : Dict) (lagged : LaggedDiffs) (diff : BtDict) : BtDict :=
  [(bytes "#", .int seqno), (bytes "&", .dict (Dict.toBt data)),
    (bytes "<", .list (lagged.map laggedRow)), (bytes "=", .dict diff)]

/-- The bytes of an unsigned message without unknown keys. -/
def messageBytes (seqno : Int) (data : Dict) (lagged : LaggedDiffs) (diff : BtDict) : Bytes :=
  encodeDict (messagePairs seqno data lagged diff)

/-! ## Parsing -/

/-- `load_unknowns`: the unknown keys so far and the pairs not yet read. -/
def loadUnknowns (env : Env) (closed : Bool) (previous bound : Bytes) :
    BtDict → BtDict → Except Err (BtDict × BtDict)
  | unknown, [] => if closed then .ok (unknown, []) else .error .oxenc
  | unknown, (key, v) :: rest =>
    if key < bound then
      if key ≤ previous ∨ unknown.getLast?.any (fun p => key ≤ p.1) then
        .error (.bt "top-level keys are out of order")
      else
        match env.consume v with
        | some v' => loadUnknowns env closed previous bound (unknown ++ [(key, v')]) rest
        | none => .error .oxenc
    else .ok (unknown, (key, v) :: rest)

/-- `parse_data` on a set, with the last element so far. -/
def parseElems : Option Scalar → List Bt → Except Err (List Scalar)
  | _, [] => .ok []
  | prev, v :: rest => do
    let val ← parseElem v
    if prev = some val then .error (.parse "Data contains a set with duplicates" [])
    else if prev.any (val < ·) then .error (.parse "Data contains an unsorted set" [])
    else do
      let rest' ← parseElems (some val) rest
      .ok (val :: rest')
where
  parseElem : Bt → Except Err Scalar
    | .int i => if InInt64 i then .ok (.int (Int64.ofInt i)) else .error .oxenc
    | .str s => .ok (.str s)
    | _ => .error (.parse "Data contains a set with a non-scalar value" [])

mutual
def parseValue : Bt → Except Err DictValue
  | .str s => .ok (.scalar (.str s))
  | .int i => if InInt64 i then .ok (.scalar (.int (Int64.ofInt i))) else .error .oxenc
  | .dict d =>
    if d.isEmpty then .error (.bt "Data contains an unpruned, empty dict")
    else do
      let d' ← parseData none d
      .ok (.dict d')
  | .list l =>
    if l.isEmpty then .error (.bt "Data contains an unpruned, empty set")
    else do
      let s ← parseElems none l
      .ok (.set s)

/-- The data of a message, checked for order. -/
def parseData : Option Bytes → BtDict → Except Err Dict
  | _, [] => .ok []
  | prev, (key, v) :: rest =>
    if prev.any (key ≤ ·) then .error (.bt "Data keys are not correctly ordered")
    else do
      let v' ← parseValue v
      let rest' ← parseData (some key) rest
      .ok ((key, v') :: rest')
end

def parseLaggedRow (currSeqno lag : Int) (prev : Option SeqnoHash) :
    Bt → Except Err (Option (SeqnoHash × BtDict))
  | .list (.int seqno :: row) =>
    if ¬InInt64 seqno then .error .oxenc
    else if currSeqno ≤ seqno then .error (.parse "Data contains lagged seqno >= current seqno" [])
    else if seqno ≤ currSeqno - lag then .ok none
    else
      match row with
      | .str hash :: row =>
        if h : hash.length = 32 then
          if prev.any (⟨seqno, ⟨hash, h⟩⟩ ≤ ·) then
            .error (.parse "Data contained unsorted or duplicate lagged diff rows" [])
          else
            match row with
            | .dict d :: row => do
              let diff ← loadDiff env none d
              if row.isEmpty then .ok (some (⟨seqno, ⟨hash, h⟩⟩, diff))
              else .error (.parse "Data contains invalid lagged diff tuple: expected 3 elements" [])
            | _ => .error .oxenc
        else .error (.parse "Data contains invalid lagged diff data: hash must be 32 bytes" [])
      | _ => .error .oxenc
  | _ => .error .oxenc

/-- `parse_lagged_diffs`, with the last key of the result so far. -/
def parseLaggedDiffs (env : Env) (currSeqno lag : Int) :
    Option SeqnoHash → List Bt → Except Err LaggedDiffs
  | _, [] => .ok []
  | prev, row :: rows => do
    match ← parseLaggedRow env currSeqno lag prev row with
    | none => parseLaggedDiffs env currSeqno lag prev rows
    | some p => do
      let rest ← parseLaggedDiffs env currSeqno lag (some p.1) rows
      .ok (p :: rest)

/-- `verify_config_sig`. -/
def verifyConfigSig (rest : BtDict) (closed : Bool) (verifier : Option Verifier)
    (trustSignature : Bool) : Except Err (Option Signature) :=
  match rest.dropWhile (fun p => p.1 < bytes "~") with
  | [] =>
    if ¬closed then .error .oxenc
    else if verifier.isSome then .error (.missingSignature "Config signature is missing")
    else .ok none
  | (key, v) :: rest =>
    if key = bytes "~" then
      match v with
      | .str sig =>
        if h : sig.length = 64 then
          if verifier.any (fun f => !f (env.readUntil (bytes "~") serialized) ⟨sig, h⟩) then
            .error (.signature "Config signature failed verification")
          else if rest.isEmpty then
            if ¬closed then .error .oxenc
            else .ok (if verifier.isSome || trustSignature then some ⟨sig, h⟩ else none)
          else .error (.parse "Invalid config: dict has invalid key(s) after \"~\"" [])
        else .error (.signature "Config signature is invalid (not 64B)")
      | _ => .error .oxenc
    else if verifier.isSome then .error (.missingSignature "Config signature is missing")
    else .error (.parse "Invalid config: dict has invalid key(s) after \"~\"" [])

def readSeqno : BtDict → Except Err (Int × BtDict)
  | (key, .int i) :: rest =>
    if ¬InInt64 i then .error .oxenc
    else if key = bytes "#" then .ok (i, rest)
    else .error (.parse "Invalid config: first key must be \"#\"" [])
  | _ => .error .oxenc

/-- The next pair must be the data. -/
def readData : BtDict → Except Err (Dict × BtDict)
  | (key, .dict d) :: rest =>
    if key = bytes "&" then do
      let data ← parseData none d
      .ok (data, rest)
    else .error (.parse "Invalid config: \"&\" data dict not found" [])
  | _ => .error .oxenc

/-- The lagged diffs of a message that is parsed. -/
def readLagged (seqno lag : Int) : BtDict → Except Err (LaggedDiffs × BtDict)
  | [] => .error .oxenc
  | (key, v) :: rest =>
    if key = bytes "<" then
      match v with
      | .list rows => do
        let lagged ← parseLaggedDiffs env seqno lag none rows
        .ok (lagged, rest)
      | _ => .error .oxenc
    else .ok ([], (key, v) :: rest)

/-- The next pair may be the diff of the message. -/
def readDiff : BtDict → Except Err (BtDict × BtDict)
  | [] => .error .oxenc
  | (key, v) :: rest =>
    if key = bytes "=" then
      match v with
      | .dict d => do
        let diff ← loadDiff env none d
        .ok (diff, rest)
      | _ => .error .oxenc
    else .ok ([], (key, v) :: rest)

namespace ConfigMessage

/-- The part of the parsing constructor inside its `try` block. -/
def parsePairs (pairs : BtDict) (closed : Bool) (verifier : Option Verifier)
    (signer : Option Signer) (lag : Int) (trustSignature : Bool) :
    Except Err ConfigMessage := do
  let (seqno, rest) ← readSeqno pairs
  let (unknown, rest) ← loadUnknowns env closed (bytes "#") (bytes "&") [] rest
  let (data, rest) ← readData rest
  let (unknown, rest) ← loadUnknowns env closed (bytes "&") (bytes "<") unknown rest
  let (lagged, rest) ← readLagged env seqno lag rest
  let (unknown, rest) ← loadUnknowns env closed (bytes "<") (bytes "=") unknown rest
  let (diff, rest) ← readDiff env rest
  let (unknown, rest) ← loadUnknowns env closed (bytes "=") (bytes "~") unknown rest
  let sig ← verifyConfigSig env serialized rest closed verifier trustSignature
  .ok { data := data, diff := diff, laggedDiffs := lagged, unknown := unknown
        seqnoHash := ⟨seqno, env.blake2b serialized⟩, verifiedSignature := sig, unmerged := none
        verifier := verifier, signer := signer, lag := lag }

/-- What the `catch` of the parsing constructor makes of an error. -/
def rethrow : Err → Err
  | .oxenc => .parse "Failed to parse config file" []
  | .bt what => .parse ("Failed to parse config file: " ++ what) []
  | e => e

/-- The parsing constructor. -/
def parse (verifier : Option Verifier) (signer : Option Signer) (lag : Int) (trustSignature : Bool)
    : Except Err ConfigMessage :=
  match env.read serialized with
  | none => .error (.runtime "not a bencoded dict")
  | some (pairs, closed) =>
    (parsePairs env serialized pairs closed verifier signer lag trustSignature).mapError rethrow

end ConfigMessage

/-! ## Mutable messages -/

/-- `MutableConfigMessage`: a message that can be edited. -/
structure MutableConfigMessage extends ConfigMessage where
  origData : Dict

namespace MutableConfigMessage

/-- The effect of `diff()`, which is also a part of `serialize()`. -/
def refreshDiff (m : MutableConfigMessage) : MutableConfigMessage :=
  { m with
    verifiedSignature := none
    data := prune m.data
    diff := (diffImpl m.origData (prune m.data)).getD [] }

/-- `serialize()`, which is virtual. -/
def serialize (m : MutableConfigMessage) (enableSigning : Bool) :
    Bytes × MutableConfigMessage :=
  (m.refreshDiff.serializeImpl env m.refreshDiff.diff enableSigning, m.refreshDiff)

def hash (m : MutableConfigMessage) : MutableConfigMessage :=
  { m.refreshDiff with seqnoHash := ⟨m.seqno, env.blake2b (m.serialize env true).1⟩ }

/-- `increment_impl`: the diffs that are still in the window. -/
def incrementImpl (m : MutableConfigMessage) : MutableConfigMessage :=
  let lags := m.laggedDiffs.dropWhile (fun p => p.1.seqno ≤ m.seqno - m.lag)
  let lags := lags.rdropWhile (fun p => m.seqno ≤ p.1.seqno)
  { m with
    origData := m.data
    laggedDiffs := SortedMap.emplace m.seqnoHash m.diff lags
    seqnoHash := ⟨m.seqno + 1, zeroHash⟩
    diff := [] }

end MutableConfigMessage

/-- What a `std::unique_ptr<ConfigMessage>` points to. -/
inductive AnyMessage
  | immutable (m : ConfigMessage)
  | mutable (m : MutableConfigMessage)

namespace AnyMessage

/-- The common base of both classes. -/
def base : AnyMessage → ConfigMessage
  | .immutable m => m
  | .mutable m => m.toConfigMessage

def seqno (c : AnyMessage) : Int := c.base.seqno

/-- `serialize()`, which is virtual. -/
def serialize (env : Env) (c : AnyMessage) (enableSigning : Bool) : Bytes × AnyMessage :=
  match c with
  | .immutable m => (m.serialize env enableSigning, .immutable m)
  | .mutable m =>
    let r := m.serialize env enableSigning
    (r.1, .mutable r.2)

/-- `increment`: a message for the next edit. -/
def increment : AnyMessage → MutableConfigMessage
  | .immutable m => { m with origData := [] : MutableConfigMessage }.incrementImpl
  | .mutable m => (m.hash env).incrementImpl

/-- `MutableConfigMessage{m, retain_seqno}`. The member initializer of `orig_data_` runs before
the body assigns the message, when the data is still empty. -/
def retain : AnyMessage → MutableConfigMessage
  | .immutable m => { m with origData := [] }
  | .mutable m => m

end AnyMessage

end Bchat.Config
