import Bchat.Config.Message

/-!
# Merging competing messages

The merging constructors of `src/config.cpp`. Messages that are included in another one, that
repeat an earlier one or that are too old are redundant; if one message is left the constructor
becomes that message, otherwise it resolves the conflict by replaying the diffs it knows of.

The index of the message used counts the accepted messages only: messages the parser rejects are
not in the vector it indexes.
-/

namespace Bchat.Config

open Bencode

variable (env : Env) (configs : List ConfigMessage)

/-- The constructor loop that parses the messages: the messages accepted, and the indices given
to the error handler. -/
def parseAll (env : Env) (verifier : Option Verifier) (signer : Option Signer) (lag : Int)
    (handler : Nat → Err → Except Err Unit) :
    Nat → List Bytes → Except Err (List ConfigMessage × List Nat)
  | _, [] => .ok ([], [])
  | i, serialized :: rest =>
    match ConfigMessage.parse env serialized verifier signer lag false with
    | .ok m => do
      let r ← parseAll env verifier signer lag handler (i + 1) rest
      .ok (m :: r.1, r.2)
    | .error e =>
      if e.isConfigError then do
        handler i e
        let r ← parseAll env verifier signer lag handler (i + 1) rest
        .ok (r.1, i :: r.2)
      else .error e

/-- The highest seqno, starting from the lowest `int64_t`. -/
def maxSeqno : Int := configs.foldl (fun top c => if top < c.seqno then c.seqno else top) (-2 ^ 63)

/-- Another message includes the `i`-th one, or an earlier one equals it. -/
def isRedundant (conf : ConfigMessage) (i : Nat) : Bool :=
  configs.zipIdx.any fun (conf2, j) =>
    i ≠ j && ((SortedMap.find? conf.seqnoHash conf2.laggedDiffs).isSome ||
      (j < i && conf2.seqnoHash = conf.seqnoHash))

/-- Every message with its mark: redundant, or older than the lag allows. The sum is exact; the
source computes `markRedundant64`, which is the same while `seqno + lag` fits into `int64_t`. -/
def markRedundant (lag : Int) (configs : List ConfigMessage) : List (ConfigMessage × Bool) :=
  configs.zipIdx.map fun (conf, i) =>
    (conf, isRedundant configs conf i || conf.seqno + lag ≤ maxSeqno configs)

/-- The marks with an addition that wraps around. -/
def markRedundant64 (lag : Int) (configs : List ConfigMessage) : List (ConfigMessage × Bool) :=
  configs.zipIdx.map fun (conf, i) =>
    (conf, isRedundant configs conf i || wrap64 (conf.seqno + lag) ≤ maxSeqno configs)

lemma markRedundant64_eq {lag : Int} {configs : List ConfigMessage}
    (h : ∀ c ∈ configs, InInt64 (c.seqno + lag)) :
    markRedundant64 lag configs = markRedundant lag configs := by
  refine List.map_congr_left ?_
  rintro ⟨c, i⟩ hc
  have hmem : c ∈ configs := (List.mem_zipIdx' hc).2 ▸ List.getElem_mem _
  simp only [wrap64_of_inInt64 (h c hmem)]

/-- The comparison of the `std::max_element` call. -/
def worse (a b : ConfigMessage × Bool) : Bool :=
  if a.2 ≠ b.2 then a.2 else a.1.seqnoHash < b.1.seqnoHash

/-- `std::max_element`: the first of the greatest elements, with its index. -/
def maxElement : List ((ConfigMessage × Bool) × Nat) → Option ((ConfigMessage × Bool) × Nat)
  | [] => none
  | x :: rest => some (rest.foldl (fun best y => if worse best.1 y.1 then y else best) x)

/-- The diffs of all messages in order of their seqno and hash, each with its data. -/
def buildReplay : List (SeqnoHash × (Dict × BtDict)) :=
  configs.foldl (fun replay conf =>
    conf.laggedDiffs.foldl (fun replay p => SortedMap.emplace p.1 (conf.data, p.2) replay)
      (SortedMap.emplace conf.seqnoHash (conf.data, conf.diff) replay)) []

/-- Applies the diffs one after the other. -/
def applyReplay : List (SeqnoHash × (Dict × BtDict)) → Dict → Except Err Dict
  | [], data => .ok data
  | (_, (source, diff)) :: rest, data => do
    let data' ← applyDiff diff data source
    applyReplay rest data'

/-- The newest message first. -/
def sortDescending : List ConfigMessage :=
  configs.insertionSort (fun a b => b.seqnoHash ≤ a.seqnoHash)

/-- The conflict resolution at the end of the merging constructor. -/
def resolve (verifier : Option Verifier) (signer : Option Signer) (lag top : Int)
    (survivors : List ConfigMessage) : Except Err ConfigMessage :=
  match sortDescending survivors with
  | [] => .error .assertion
  | best :: others => do
    let replay := buildReplay (best :: others)
    let data ← applyReplay replay best.data
    let m : ConfigMessage :=
      { data := prune data, diff := [], laggedDiffs := replay.map (fun p => (p.1, p.2.2))
        unknown := [], seqnoHash := ⟨top + 1, zeroHash⟩, verifiedSignature := none
        unmerged := none, verifier := verifier, signer := signer, lag := lag }
    .ok { m with seqnoHash := ⟨top + 1, env.blake2b (m.serializeImpl env m.diff true)⟩ }

/-- The merging constructor behind the parsing loop. -/
def mergeAccepted (verifier : Option Verifier) (signer : Option Signer) (lag : Int)
    (configs : List ConfigMessage) : Except Err ConfigMessage :=
  let marked := markRedundant lag configs
  match marked.zipIdx.filter (fun p => !p.1.2) with
  | [((conf, _), i)] => .ok { conf with unmerged := some i }
  | survivors =>
    if verifier.isSome && signer.isNone then
      match maxElement marked.zipIdx with
      | some ((conf, _), i) => .ok { conf with unmerged := some i }
      | none => .error .assertion
    else resolve env verifier signer lag (maxSeqno configs) (survivors.map (fun p => p.1.1))

/-- The merging constructor of `ConfigMessage`. -/
def mergeConfigs (serialized : List Bytes) (verifier : Option Verifier) (signer : Option Signer)
    (lag : Int) (handler : Nat → Err → Except Err Unit) :
    Except Err (ConfigMessage × List Nat) := do
  let (configs, bad) ← parseAll env verifier signer lag handler 0 serialized
  if configs.isEmpty then
    .error (.config "Config initialization failed: no valid config messages given" [])
  else do
    let m ← mergeAccepted env verifier signer lag configs
    .ok (m, bad)

/-- An error handler that lets the constructor skip the message. -/
def skipHandler : Nat → Err → Except Err Unit := fun _ _ => .ok ()

/-- The error handler that throws. -/
def throwHandler : Nat → Err → Except Err Unit := fun _ e => .error e

/-- The part of the merging constructor of `MutableConfigMessage` after that of its base. -/
def toMutable (m : ConfigMessage) : MutableConfigMessage :=
  let r : MutableConfigMessage := { m with origData := m.data }
  if m.merged then r else r.incrementImpl

end Bchat.Config
