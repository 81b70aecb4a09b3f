import Bchat.Network.MasterNode
import Bchat.Lib.QuorumMerge
import Bchat.Lib.SortedMap

/-!
# Swarms

`src/network/swarm.cpp`: the nodes grouped by swarm id, and the swarm that is nearest to an account
key on the ring of 64-bit numbers.
-/

namespace Bchat.Network

abbrev Swarm := SwarmId × List MasterNode

/-- The bytewise exclusive or of the four words of a key. -/
def xorWords (pk : Bytes) : Bytes :=
  (List.range 8).map fun i =>
    (List.range 4).foldl (fun x j => x ^^^ pk.getD (8 * j + i) 0) 0

/-- `pubkey_to_swarm_space`: the words are combined as they lie in memory and the result is read as
a big-endian number, so that the byte order of the host does not matter. -/
def pubkeyToSwarmSpace (pk : Pubkey) : SwarmId := UInt64.ofNat (beNat (xorWords pk.val))

def pushNode (node : MasterNode) : List Swarm → List Swarm
  | [] => [(node.swarmId, [node])]
  | (id, nodes) :: rest =>
    if id = node.swarmId then (id, nodes ++ [node]) :: rest else (id, nodes) :: pushNode node rest

/-- The map of `generate_swarms`, in the order in which its keys were added. -/
def groupNodes (nodes : List MasterNode) : List Swarm :=
  nodes.foldl (fun grouped node => pushNode node grouped) []

def sortSwarms (swarms : List Swarm) : List Swarm := swarms.insertionSort (fun a b => a.1 ≤ b.1)

/-- `generate_swarms`. -/
def generateSwarms (nodes : List MasterNode) : List Swarm := sortSwarms (groupNodes nodes)

/-- `get_swarm`. -/
def getSwarm (swarmPubkey : Pubkey) (allSwarms : List Swarm) : Option Swarm :=
  match allSwarms with
  | [] => none
  | [swarm] => some swarm
  | _ =>
    let swarmId := pubkeyToSwarmSpace swarmPubkey
    -- the first swarm that is not before the key, or the first of all after the last
    let lower := allSwarms.findIdx (fun s => !decide (s.1 < swarmId))
    let right := if lower = allSwarms.length then 0 else lower
    let left := (if right = 0 then allSwarms.length else right) - 1
    match allSwarms[right]?, allSwarms[left]? with
    | some r, some l => some (if r.1 - swarmId < swarmId - l.1 then r else l)
    | _, _ => none

/-! ## The pool of master nodes

`src/network/mnode_pool.cpp`: how refresh responses are combined into a node cache, and the lookup
of swarms with its cache.

The callbacks that wait for a refresh are run by a loop in `_update_cache`. A callback can call the
pool again, so each of them is a step of its own. What it pushes to the vector the loop walks
over is not run: it is dropped by the `clear()` after the loop.

Left out are the requests themselves, the files, and the times and counters that decide when to
refresh: a refresh or a load from disk can happen at any time with any nodes.
-/

/-- `config::MnodePool`, as far as it is used here. -/
structure PoolConfig where
  cacheMinSwarmSize : Nat
  cacheMinNumRefreshPresenceToIncludeNode : UInt8
  cacheNodeStrikeThreshold : UInt16
  deriving Repr

/-! ## Refreshing -/

/-- One response of `_on_refresh_complete`: its nodes. Responses to onion requests can be in base64;
`fromBase64` is `oxenc::from_base64` where `is_base64` holds. -/
def processResponse (fromBase64 : Bytes → Option Bytes) (useDirectFetcher : Bool)
    (nodesBin : Bytes) : Except String (List MasterNode) :=
  let bin := if useDirectFetcher then nodesBin else (fromBase64 nodesBin).getD nodesBin
  (processMnodeCacheBin bin).map Prod.fst

/-- The loop over the responses; any of them that is invalid discards all. -/
def processResponses (fromBase64 : Bytes → Option Bytes) (useDirectFetcher : Bool) :
    List Bytes → Except String (List (List MasterNode))
  | [] => .ok []
  | raw :: rest => do
    let nodes ← processResponse fromBase64 useDirectFetcher raw
    let processed ← processResponses fromBase64 useDirectFetcher rest
    .ok (nodes.insertionSort (· ≤ ·) :: processed)

/-- The nodes that are present in enough responses; a single response is taken as it is. -/
def combineNodes (requiredCount : UInt8) : List (List MasterNode) → List MasterNode
  | [nodes] => nodes
  | processed => QuorumMerge.quorumMerge requiredCount.toNat processed

/-- The nodes a refresh leaves. -/
def onRefreshComplete (fromBase64 : Bytes → Option Bytes) (config : PoolConfig)
    (useDirectFetcher : Bool) (rawResults : List Bytes) : Except String (List MasterNode) := do
  let processed ← processResponses fromBase64 useDirectFetcher rawResults
  .ok (combineNodes config.cacheMinNumRefreshPresenceToIncludeNode processed)

/-! ## The pool -/

/-- A call of `get_swarm`. -/
structure Lookup where
  swarmPubkey : Pubkey
  ignoreStrikeCount : Bool
  deriving DecidableEq, Repr

/-- What the callback of a lookup is given. -/
structure Answer where
  lookup : Lookup
  swarmId : SwarmId
  swarm : List MasterNode
  deriving DecidableEq, Repr

/-- `MnodePool`. The last field holds the callbacks that the loop of `_update_cache` has still to
run. -/
structure MnodePool where
  mnodeCache : List MasterNode
  allSwarms : List Swarm
  swarmCache : List (Pubkey × Swarm)
  mnodeStrikes : List (Pubkey × Nat)
  afterMnodeCacheRefresh : List Lookup
  running : List Lookup
  deriving DecidableEq, Repr

namespace MnodePool

/-- The constructor with `_load_from_disk`, for the nodes that were on the disk. -/
def load (loadedCache : List MasterNode) (strikes : List (Pubkey × Nat)) : MnodePool :=
  { mnodeCache := loadedCache, allSwarms := generateSwarms loadedCache, swarmCache := []
    mnodeStrikes := strikes, afterMnodeCacheRefresh := [], running := [] }

/-- `_update_cache`, up to its loop over the callbacks. -/
def updateCache (nodes : List MasterNode) (p : MnodePool) : MnodePool :=
  { p with
    mnodeCache := nodes
    allSwarms := generateSwarms nodes
    swarmCache := []
    running := p.afterMnodeCacheRefresh }

def clearCache (p : MnodePool) : MnodePool :=
  { p with mnodeCache := [], allSwarms := [], swarmCache := [] }

def strikeCount (p : MnodePool) (node : MasterNode) : Nat :=
  (SortedMap.find? node.remotePubkey p.mnodeStrikes).getD 0

/-- `filter_by_strikes`, after the shuffle: nodes with too many strikes are dropped, or only added
until there are enough. -/
def filterByStrikes (config : PoolConfig) (p : MnodePool) (nodes : List MasterNode) :
    List MasterNode :=
  let under := nodes.filter (fun n => p.strikeCount n < config.cacheNodeStrikeThreshold.toNat)
  let above := nodes.filter (fun n => !(p.strikeCount n < config.cacheNodeStrikeThreshold.toNat))
  if above.isEmpty then nodes
  else if config.cacheMinSwarmSize ≤ under.length then under
  else
    let sorted := above.insertionSort (fun a b => p.strikeCount a ≤ p.strikeCount b)
    (under ++ sorted).take (min nodes.length config.cacheMinSwarmSize)

section

variable (config : PoolConfig) (shuffle : List MasterNode → List MasterNode)

/-- The call of the callback. -/
def reply (l : Lookup) (p : MnodePool) (swarm : Swarm) : Answer :=
  { lookup := l
    swarmId := swarm.1
    swarm := if l.ignoreStrikeCount then swarm.2 else p.filterByStrikes config (shuffle swarm.2) }

def getSwarm (l : Lookup) (p : MnodePool) : MnodePool × Option Answer :=
  match SortedMap.find? l.swarmPubkey p.swarmCache with
  | some swarm => (p, some (p.reply config shuffle l swarm))
  | none =>
    if p.mnodeCache.isEmpty || p.allSwarms.isEmpty then
      -- the call is repeated after the next refresh
      ({ p with afterMnodeCacheRefresh := p.afterMnodeCacheRefresh ++ [l] }, none)
    else
      match Network.getSwarm l.swarmPubkey p.allSwarms with
      | some swarm =>
        ({ p with swarmCache := SortedMap.insert l.swarmPubkey swarm p.swarmCache },
          some (p.reply config shuffle l swarm))
      | none => (p, none)

def runCallback (p : MnodePool) : MnodePool × Option Answer :=
  match p.running with
  | [] => (p, none)
  | l :: rest =>
    let r := getSwarm config shuffle l { p with running := rest }
    if rest.isEmpty then ({ r.1 with afterMnodeCacheRefresh := [] }, r.2) else r

/-- What can happen to a pool. -/
inductive Event where
  | updateCache (nodes : List MasterNode)
  | runCallback
  | clearCache
  | load (nodes : List MasterNode) (strikes : List (Pubkey × Nat))
  | strikes (strikes : List (Pubkey × Nat))
  | getSwarm (l : Lookup)
  deriving DecidableEq, Repr

/-- One call or event. -/
def step (p : MnodePool) : Event → MnodePool × Option Answer
  | .updateCache nodes => (p.updateCache nodes, none)
  | .runCallback => p.runCallback config shuffle
  | .clearCache => (p.clearCache, none)
  | .load nodes strikes => (load nodes strikes, none)
  | .strikes strikes => ({ p with mnodeStrikes := strikes }, none)
  | .getSwarm l => p.getSwarm config shuffle l

/-- All calls and events. -/
def run (p : MnodePool) (events : List Event) : MnodePool :=
  events.foldl (fun p e => (p.step config shuffle e).1) p

end

end MnodePool

end Bchat.Network
