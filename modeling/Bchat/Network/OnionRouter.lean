import Bchat.Lib.Rows
import Bchat.Network.ErrorPatterns
import Bchat.Network.NodeSelection

/-!
# The router of onion requests

`OnionRequestRouter` of `src/network/routing/onion_request_router.cpp`: how paths are built,
chosen, repaired, retired and rotated.

The router, the node pool and the transport run on one event loop, and stay alive. What the loop and
the transport still owe the router is part of the state: connectivity checks, requests that were
sent, failure listeners, retry timers and builds that wait for the pool.

Random choices, the order of hash maps, and what is computed outside this file are in `Environment`.

Left out are uploads and downloads, the connection status, log texts, request bodies and timeouts,
and what the callbacks of requests are given: they do not decide what happens to the paths. When
`refresh_if_needed` runs its callback at once, the build is counted as waiting and continued as the
next step.
-/

namespace Bchat.Network

/-! ## Requests and paths -/

inductive RequestCategory where
  | standard
  | standardSmall
  | file
  | fileSmall
  deriving DecidableEq, Repr

inductive PathCategory where
  | standard
  | file
  deriving DecidableEq, Repr

def toPathCategory : RequestCategory → PathCategory
  | .standard | .standardSmall => .standard
  | .file | .fileSmall => .file

def toSmallRequestCategory : PathCategory → RequestCategory
  | .standard => .standardSmall
  | .file => .fileSmall

inductive Destination where
  | masterNode (node : MasterNode)
  | serverDestination
  | remoteAddress
  deriving DecidableEq, Repr

def Destination.node? : Destination → Option MasterNode
  | .masterNode node => some node
  | _ => none

/-- `Request`, as far as routing looks at it. -/
structure Request where
  requestId : Nat
  destination : Destination
  category : RequestCategory
  desiredPathIndex : Option UInt8
  deriving DecidableEq, Repr

/-- The start of an id made by `random::unique_id`: `SP`, `FP` or `RP`. -/
inductive IdLabel where
  | standard
  | file
  | rotation
  deriving DecidableEq, Repr

structure PathId where
  label : IdLabel
  number : Nat
  deriving DecidableEq, Repr

def PathCategory.label : PathCategory → IdLabel
  | .standard => .standard
  | .file => .file

/-- `OnionPath`. Times are counted in ticks of the clock. -/
structure OnionPath where
  id : PathId
  nodes : List MasterNode
  createdAt : Int
  edgeFirstConnectedAt : Int
  activeRequests : Nat := 0
  strikeCount : Nat := 0
  rotationInProgress : Bool := false
  deriving DecidableEq, Repr

/-- The key of the edge node. -/
def OnionPath.edgeKey (p : OnionPath) : Option Pubkey := p.nodes.head?.map (·.remotePubkey)

/-- The configuration of the router. -/
structure RouterConfig where
  edgeNodeCacheDuration : Nat
  pathLength : Nat
  pathStrikeThreshold : Nat
  pathBuildRetryLimit : Nat
  pathRotationFrequency : Nat
  nodeStrikeThreshold : Nat
  disablePreBuildPaths : Bool
  singlePathMode : Bool
  minPathCounts : PathCategory → Nat
  pool : SelectionConfig

/-! ## The state -/

structure CachedEdgeNode where
  node : MasterNode
  firstConnectedAt : Int
  deriving DecidableEq, Repr

/-- An entry of `_pending_paths`. -/
structure PendingPath where
  id : PathId
  nodes : List MasterNode
  edgeNodeFirstConnectionAt : Option Int
  deriving DecidableEq, Repr

def PendingPath.activeAt (pending : PendingPath) (createdAt : Int) : OnionPath where
  id := pending.id
  nodes := pending.nodes
  createdAt := createdAt
  edgeFirstConnectedAt := pending.edgeNodeFirstConnectionAt.getD createdAt

/-- An entry of `_path_rotation_schedule`. -/
structure ScheduledRotation where
  rotateAt : Int
  pathId : PathId
  category : PathCategory
  deriving DecidableEq, Repr

structure PendingRotation where
  oldPathId : PathId
  category : PathCategory
  newPath : OnionPath
  deriving DecidableEq, Repr

def PendingRotation.newPathId (r : PendingRotation) : PathId := r.newPath.id

/-- A listener of the transport, which retires a path when the connection to a node fails. -/
structure FailureListener where
  key : Pubkey
  pathId : PathId
  category : PathCategory
  deriving DecidableEq, Repr

structure ConnectivityCheck where
  pathId : PathId
  category : PathCategory
  deriving DecidableEq, Repr

/-- A request that the transport has not answered: the path, the nodes it was encrypted for, and for
the verification of a rotation the time at which the new path is to be rotated in turn. -/
structure SentRequest where
  pathId : PathId
  nodes : List MasterNode
  request : Request
  rotateAt : Option Int
  deriving DecidableEq, Repr

/-- A build that the loop will retry. -/
structure RetryTimer where
  category : PathCategory
  failedEdge : MasterNode
  pathId : PathId
  deriving DecidableEq, Repr

structure WaitingBuild where
  category : PathCategory
  nodesToExclude : List MasterNode
  deriving DecidableEq, Repr

/-- `OnionRequestRouter`, with what it uses of the pool and what the transport and the loop hold for
it. A category without an entry in one of the maps has an empty list or a zero there. -/
structure Router where
  ready : Bool := false
  suspended : Bool := false
  cachedEdgeNodes : List CachedEdgeNode
  paths : PathCategory → List OnionPath := fun _ => []
  pathsPendingDrop : PathCategory → List OnionPath := fun _ => []
  requestQueues : PathCategory → List Request := fun _ => []
  inProgressPathBuilds : PathCategory → Nat := fun _ => 0
  pathBuildRetries : PathId → Nat := fun _ => 0
  pendingPaths : List PendingPath := []
  pathRotationSchedule : List ScheduledRotation := []
  pendingRotationPaths : List PendingRotation := []
  mnodeCache : List MasterNode
  mnodeStrikes : Strikes
  failureListeners : List FailureListener := []
  connectivityChecks : List ConnectivityCheck := []
  sentRequests : List SentRequest := []
  retryTimers : List RetryTimer := []
  waitingBuilds : List WaitingBuild := []
  /-- The nodes and seconds in the file of edge nodes. -/
  edgeNodeFile : List (MasterNode × Int) := []
  uniqueIds : Nat := 0
  /-- How many searches for unused nodes there were. -/
  draws : Nat := 0
  /-- How many times a list was shuffled. -/
  shuffles : Nat := 0
  /-- A path was used through a pointer behind the end of its vector; what the program does then is
  undefined, and the model goes on as if nothing was sent. -/
  usedDanglingPath : Bool := false

/-- What the router is given from outside. -/
structure Environment where
  startIndex : Nat → Nat
  shuffle : Nat → List (OnionPath × Nat) → List (OnionPath × Nat)
  shuffle_perm : ∀ n l, (shuffle n l).Perm l
  /-- The order in which the maps with a `PathCategory` as key are walked. -/
  categoryOrder : Nat → List PathCategory
  categoryOrder_perm : ∀ n, (categoryOrder n).Perm [.standard, .file]
  /-- Whether `Builder` makes a payload for these nodes, or throws. -/
  buildsPayload : List MasterNode → Request → Bool
  /-- `ResponseParser::decrypted_response`, with the status, the body or the text of the error. -/
  decryptedResponse : List MasterNode → Request → Bytes → Except Bytes (Int × Option Bytes)
  /-- `find_uniform_batch_error`. -/
  findUniformBatchError : Bytes → Option Int
  /-- `NGTCP2_ERR_HANDSHAKE_TIMEOUT`. -/
  handshakeTimeout : UInt64

/-- The two clocks, in ticks of a nanosecond. -/
structure Clock where
  system : Int
  steady : Int
  deriving Repr

def Clock.seconds (clock : Clock) : Int := clock.system / 1000000000

def oneMinute : Int := 60000000000

namespace Router

variable (env : Environment) (config : RouterConfig) (clock : Clock)

/-! ## Changes to the tables -/

section

variable (s : Router)

/-- The nodes of all paths. -/
def extractNodes : List MasterNode :=
  (s.paths .standard ++ s.paths .file).flatMap (·.nodes) ++ s.pendingPaths.flatMap (·.nodes)

/-- The path with the given id. -/
def findPath (category : PathCategory) (pathId : PathId) : Option OnionPath :=
  Rows.find OnionPath.id pathId (s.paths category)

/-- Changes the path with the given id. -/
def modifyPath (category : PathCategory) (pathId : PathId) (f : OnionPath → OnionPath) : Router :=
  { s with
    paths := Function.update s.paths category
      (Rows.modify OnionPath.id pathId f (s.paths category)) }

/-- The path leaves the active ones; if requests are in flight it is kept until they are done. -/
def retirePath (category : PathCategory) (path : OnionPath) : Router :=
  { s with
    paths := Function.update s.paths category (Rows.erase OnionPath.id path.id (s.paths category))
    pathsPendingDrop := Function.update s.pathsPendingDrop category
      (if path.activeRequests = 0 then s.pathsPendingDrop category
       else s.pathsPendingDrop category ++ [path]) }

/-- Records a failure of a node. -/
def strikeNode (key : Pubkey) (isPermanent : Bool) : Router :=
  { s with
    mnodeStrikes := recordNodeFailure config.pool clock.seconds s.mnodeStrikes key isPermanent }

def unusedNodes (count : Nat) (excludeNodes : List MasterNode) : List MasterNode :=
  getUnusedNodes config.pool s.mnodeCache s.mnodeStrikes (env.startIndex s.draws) count excludeNodes

/-- The next id has another number. -/
def idMade : Router := { s with uniqueIds := s.uniqueIds + 1 }

/-- The next search starts at another index. -/
def drawn : Router := { s with draws := s.draws + 1 }

/-- `add_failure_listener` of the transport. -/
def addFailureListener (key : Pubkey) (pathId : PathId) (category : PathCategory) : Router :=
  { s with failureListeners := s.failureListeners ++ [⟨key, pathId, category⟩] }

def removeFailureListeners (path : OnionPath) : Router :=
  { s with failureListeners := s.failureListeners.filter fun l => path.edgeKey ≠ some l.key }

/-- `_schedule_path_rotation`; the timer is set by the loop. -/
def schedulePathRotation (pathId : PathId) (category : PathCategory) (rotateAt : Int) : Router :=
  { s with
    pathRotationSchedule := s.pathRotationSchedule.orderedInsert
      (fun a b => a.rotateAt < b.rotateAt) ⟨rotateAt, pathId, category⟩ }

/-- Queues a request until there is a path. -/
def enqueue (category : PathCategory) (request : Request) : Router :=
  { s with
    requestQueues := Function.update s.requestQueues category
      (if request.requestId ∈ (s.requestQueues category).map (·.requestId) then
        s.requestQueues category
       else s.requestQueues category ++ [request]) }

def setQueue (category : PathCategory) (queue : List Request) : Router :=
  { s with requestQueues := Function.update s.requestQueues category queue }

end

/-! ## Building paths -/

/-- The entry in `_pending_paths`, with the call of `verify_connectivity`. -/
def addPending (category : PathCategory) (path : PendingPath) (s : Router) : Router :=
  { s with
    inProgressPathBuilds := Function.update s.inProgressPathBuilds category
      (s.inProgressPathBuilds category + 1)
    pendingPaths := Rows.erase PendingPath.id path.id s.pendingPaths ++ [path]
    connectivityChecks := s.connectivityChecks ++ [⟨path.id, category⟩] }

/-- The nodes of a new path. -/
def pathNodes (specificEdgeNode : Option CachedEdgeNode) (nodesToExclude : List MasterNode)
    (s : Router) : List MasterNode :=
  (specificEdgeNode.map (·.node)).toList ++ s.unusedNodes env config
    (if specificEdgeNode.isSome then config.pathLength - 1 else config.pathLength) nodesToExclude

/-- `_build_path`. A new id is made even when the one of an earlier attempt is used. -/
def buildPath (category : PathCategory) (nodesToExclude : List MasterNode)
    (originalPathId : Option PathId) (specificEdgeNode : Option CachedEdgeNode) (s : Router) :
    Router :=
  if s.suspended then s
  else
    let pathId := originalPathId.getD ⟨category.label, s.uniqueIds⟩
    let s := s.idMade
    if config.pathLength = 0 then s.setQueue category []
    else
      let exclude := s.extractNodes ++ nodesToExclude
      let nodes := pathNodes env config specificEdgeNode exclude s
      let s := s.drawn
      if nodes.length < config.pathLength then
        { s with waitingBuilds := s.waitingBuilds ++ [⟨category, exclude⟩] }
      else s.addPending category ⟨pathId, nodes, specificEdgeNode.map (·.firstConnectedAt)⟩

/-- One turn of the loops of `_pre_build_paths_if_needed`, with the edge nodes that are left. -/
def preBuildPath (state : Router × List CachedEdgeNode) (category : PathCategory) :
    Router × List CachedEdgeNode :=
  (buildPath env config category [] none state.2.getLast? state.1, state.2.dropLast)

/-- `_pre_build_paths_if_needed`. -/
def preBuildPathsIfNeeded (s : Router) : Router :=
  if config.disablePreBuildPaths then s
  else
    let categories :=
      if config.singlePathMode then [.standard]
      else (env.categoryOrder s.shuffles).flatMap fun c =>
        List.replicate (config.minPathCounts c) c
    (categories.foldl (preBuildPath env config) (s, s.cachedEdgeNodes)).1

/-! ## Choosing a path and sending -/

/-- The test of the loop in `_find_valid_path`: nodes are compared as whole records. -/
def isSuitable (request : Request) (path : OnionPath) : Bool :=
  path.strikeCount < config.pathStrikeThreshold &&
    match request.destination.node? with
    | some target => target ∉ path.nodes
    | none => true

/-- `_find_valid_path`. A pointer to a path is its category and its index in the vector, which can
be the index behind the last element. -/
def findValidPath (request : Request) (s : Router) : Option (PathCategory × Nat) :=
  if config.singlePathMode then
    ((env.categoryOrder s.shuffles).find? fun c => !(s.paths c).isEmpty).map (·, 0)
  else
    let category := toPathCategory request.category
    let candidates := s.paths category
    if candidates.isEmpty then none
    else
      match request.desiredPathIndex with
      | some i => if candidates.length < i.toNat then none else some (category, i.toNat)
      | none =>
        let suitable := candidates.zipIdx.filter fun p => isSuitable config request p.1
        match (env.shuffle s.shuffles suitable).insertionSort
            (fun a b => a.1.activeRequests ≤ b.1.activeRequests) with
        | [] => none
        | best :: _ =>
          if best.1.activeRequests = 0 ∨ config.minPathCounts category ≤ candidates.length then
            some (category, best.2)
          else none

/-- The bookkeeping of a request that is handed to the transport. -/
def recordSent (category : PathCategory) (index : Nat) (path : OnionPath) (request : Request)
    (s : Router) : Router :=
  { s with
    paths := Function.update s.paths category ((s.paths category).modify index
      fun p => { p with activeRequests := p.activeRequests + 1 })
    sentRequests := s.sentRequests ++ [⟨path.id, path.nodes, request, none⟩] }

/-- Sends a request over a path. -/
def sendOnPath (place : PathCategory × Nat) (request : Request) (s : Router) : Router :=
  match (s.paths place.1)[place.2]? with
  | none => { s with usedDanglingPath := true }
  | some path =>
    if env.buildsPayload path.nodes request then s.recordSent place.1 place.2 path request else s

/-- The next list is shuffled in another way. -/
def shuffled (s : Router) : Router := { s with shuffles := s.shuffles + 1 }

/-- `_send_request_internal`. -/
def sendRequestInternal (request : Request) (s : Router) : Router :=
  if s.suspended then s
  else
    let category := if config.singlePathMode then .standard else toPathCategory request.category
    if !s.ready then s.enqueue category request
    else
      match findValidPath env config request s with
      | some place => sendOnPath env place request s.shuffled
      | none =>
        let s := s.shuffled.enqueue category request
        let count := (s.paths category).length + s.inProgressPathBuilds category
        let shouldBuild :=
          if config.singlePathMode then count = 0 else count < config.minPathCounts category
        if shouldBuild then buildPath env config category [] none none s else s

/-- The loop over the queued requests when a path has become active, with the requests that cannot
be sent. -/
def sendQueued : List Request → Router → Router × List Request
  | [], s => (s, [])
  | request :: rest, s =>
    match findValidPath env config request s with
    | some place => sendQueued rest (sendOnPath env place request s.shuffled)
    | none =>
      let r := sendQueued rest s.shuffled
      (r.1, request :: r.2)

/-- A path that was built comes into use. -/
def activatePath (category : PathCategory) (pending : PendingPath) (s : Router) : Router :=
  { s with
    paths := Function.update s.paths category (s.paths category ++ [pending.activeAt clock.system])
    pathBuildRetries := Function.update s.pathBuildRetries pending.id 0 }.schedulePathRotation
      pending.id category (clock.steady + config.pathRotationFrequency)

/-- The retry after a failed connectivity check, or the end of the attempts. -/
def retryBuild (category : PathCategory) (pending : PendingPath) (edgeNode : MasterNode)
    (s : Router) : Router :=
  let retries := s.pathBuildRetries pending.id + 1
  if config.pathBuildRetryLimit < retries then
    { s with pathBuildRetries := Function.update s.pathBuildRetries pending.id 0 }.setQueue
      category []
  else
    { s with
      pathBuildRetries := Function.update s.pathBuildRetries pending.id retries
      retryTimers := s.retryTimers ++ [⟨category, edgeNode, pending.id⟩] }

/-- The requests that cannot be sent go back to the front of the queue, and another path is built
for them. -/
def requeue (category : PathCategory) (unsent : List Request) (s : Router) : Router :=
  if unsent.isEmpty then s
  else
    let s := s.setQueue category (unsent ++ s.requestQueues category)
    if s.inProgressPathBuilds category = 0 then buildPath env config category [] none none s else s

/-- The end of `_on_edge_connectivity_response` for a path that became active: the queue is worked
off and the path is watched. -/
def startUsing (category : PathCategory) (pathId : PathId) (edgeNode : MasterNode) (s : Router) :
    Router :=
  let r := sendQueued env config (s.requestQueues category) (s.setQueue category [])
  -- in `single_path_mode` the requests are failed and the function returns
  if r.2 ≠ [] ∧ config.singlePathMode then r.1
  else (requeue env config category r.2 r.1).addFailureListener edgeNode.remotePubkey pathId
      category

/-- The answer to a connectivity check. -/
def onEdgeConnectivityResponse (check : ConnectivityCheck) (success : Bool)
    (errorCode : Option UInt64) (s : Router) : Router :=
  match Rows.find PendingPath.id check.pathId s.pendingPaths with
  | none => s
  | some pending =>
    let s := { s with
      pendingPaths := Rows.erase PendingPath.id check.pathId s.pendingPaths
      inProgressPathBuilds := Function.update s.inProgressPathBuilds check.category
        (s.inProgressPathBuilds check.category - 1) }
    match pending.nodes with
    | [] => s
    | edgeNode :: _ =>
      if success then
        startUsing env config check.category pending.id edgeNode
          (activatePath config clock check.category pending s)
      else
        -- a handshake that timed out was recorded by the transport
        let s := if errorCode.any (· ≠ env.handshakeTimeout) then
          s.strikeNode config clock edgeNode.remotePubkey false else s
        retryBuild config check.category pending edgeNode s

/-! ## Failures -/

def strikePath (path : OnionPath) (alreadyPenalized : List Pubkey) (s : Router) : Router :=
  ((path.nodes.map (·.remotePubkey)).filter (· ∉ alreadyPenalized)).foldl
    (fun s key => s.strikeNode config clock key false) s

/-- A replacement is built if a category has too few paths. -/
def rebuildIfNeeded (category : PathCategory) (nodesToExclude : List MasterNode) (s : Router) :
    Router :=
  let rebuilt := if config.singlePathMode then .standard else category
  let minPaths := if config.singlePathMode then 1 else config.minPathCounts rebuilt
  if (s.paths rebuilt).length + s.inProgressPathBuilds rebuilt < minPaths then
    buildPath env config category nodesToExclude none none s
  else s

/-- `_handle_path_failure`. -/
def handlePathFailure (pathId : PathId) (category : PathCategory) (alreadyPenalized : List Pubkey)
    (s : Router) : Router :=
  match s.findPath category pathId with
  | none => s
  | some found =>
    let path := { found with strikeCount :=
      if found.strikeCount < config.pathStrikeThreshold then found.strikeCount + 1
      else found.strikeCount }
    let s := s.modifyPath category pathId fun _ => path
    if path.strikeCount < config.pathStrikeThreshold then s
    else
      let s := strikePath config clock path alreadyPenalized s
      let s := (s.removeFailureListeners path).retirePath category path
      rebuildIfNeeded env config category path.nodes s

def maxOutPath (category : PathCategory) (pathId : PathId) (s : Router) : Router :=
  s.modifyPath category pathId fun p => { p with strikeCount := config.pathStrikeThreshold }

/-- Replaces failing nodes of a path. -/
def tryRepairPath (pathId : PathId) (category : PathCategory) (badNodePubkey : Pubkey)
    (s : Router) : Router :=
  match s.findPath category pathId with
  | none => s
  | some path =>
    match path.nodes.findIdx? (·.remotePubkey = badNodePubkey) with
    | none => s
    | some 0 => maxOutPath config category pathId s
    | some i =>
      match s.unusedNodes env config 1 s.extractNodes with
      | replacement :: _ =>
        s.drawn.modifyPath category pathId fun p => { p with nodes := p.nodes.set i replacement }
      | [] => maxOutPath config category pathId s.drawn

/-- `_decrement_and_cleanup_path`. -/
def decrementAndCleanupPath (pathId : PathId) (category : PathCategory) (s : Router) : Router :=
  match s.findPath category pathId with
  | some _ => s.modifyPath category pathId fun p =>
      { p with activeRequests := p.activeRequests - 1 }
  | none =>
    let dying := s.pathsPendingDrop category
    match Rows.find OnionPath.id pathId dying with
    | none => s
    | some path =>
      if path.activeRequests - 1 = 0 then
        { s.removeFailureListeners path with
          pathsPendingDrop := Function.update s.pathsPendingDrop category
            (Rows.erase OnionPath.id pathId dying) }
      else
        { s with
          pathsPendingDrop := Function.update s.pathsPendingDrop category
            (Rows.modify OnionPath.id pathId
              (fun p => { p with activeRequests := p.activeRequests - 1 }) dying) }

/-- The listener of a connection that failed. -/
def onConnectionFailure (listener : FailureListener) (s : Router) : Router :=
  handlePathFailure env config clock listener.pathId listener.category []
    (maxOutPath config listener.category listener.pathId s)

/-! ## Responses -/

structure Response where
  success : Bool
  timeout : Bool
  statusCode : Int
  body : Option Bytes
  deriving Repr

structure TransportResponse where
  success : Bool
  timeout : Bool
  status : Int
  response : Option Bytes
  deriving Repr

/-- The callback given to the transport: the response is decrypted, and what prevents that becomes
the body of a failure. -/
def decryptResponse (sent : SentRequest) (answer : TransportResponse) : Response :=
  let failed (what : Bytes) : Response :=
    ⟨false, answer.timeout, answer.status,
      some (bytes "Failed to handle onion response due to error: " ++ what)⟩
  if !answer.success then failed (answer.response.getD (bytes "Unknown request failure"))
  else if answer.timeout then failed (answer.response.getD (bytes "Timed out"))
  else
    match answer.response with
    | none => failed (bytes "Unexpected empty response")
    | some response =>
      match env.decryptedResponse sent.nodes sent.request response with
      | .error what => failed what
      | .ok (statusCode, body) => ⟨true, false, statusCode, body⟩

def finalStatusCode (response : Response) : Int :=
  (response.body.bind env.findUniformBatchError).getD response.statusCode

def finalSuccess (response : Response) : Bool :=
  response.success && 200 ≤ finalStatusCode env response && finalStatusCode env response ≤ 299

def parsedError (request : Request) (response : Response) :
    Option (ErrorBehaviour × Option Bytes) :=
  if finalSuccess env response then none
  else parseErrorResponse (finalStatusCode env response) response.body
    (request.destination.node?.map (·.remotePubkey))

def penalizedNodes (pathId : PathId) (request : Request) (pattern : ErrorBehaviour)
    (extracted : Option Bytes) (s : Router) : List Pubkey :=
  (if pattern.penalizeExtractedNode then (extracted.bind pubkeyFromHex).toList else []) ++
  (if pattern.penalizeDestination then
    (request.destination.node?.map (·.remotePubkey)).toList else []) ++
  (if pattern.penalizeEdge then
    ((s.findPath (toPathCategory request.category) pathId).bind (·.edgeKey)).toList else [])

def penalize (keys : List Pubkey) (isPermanent : Bool) (s : Router) : Router :=
  keys.foldl (fun s key => s.strikeNode config clock key isPermanent) s

def nodesToRepair (path : OnionPath) (s : Router) : List Pubkey :=
  (path.nodes.map (·.remotePubkey)).filter fun key =>
    config.nodeStrikeThreshold ≤ nodeStrikeCount clock.seconds s.mnodeStrikes key

/-- One turn of the loop over the paths of a category. The path repaired is the one with the id of
the request, whichever path the loop is at. -/
def repairAt (pathId : PathId) (category : PathCategory) (s : Router) (index : Nat) : Router :=
  match (s.paths category)[index]? with
  | none => s
  | some path => (nodesToRepair config clock path s).foldl
      (fun s key => tryRepairPath env config pathId category key s) s

/-- Repairs the paths over the given nodes. -/
def repairPaths (pathId : PathId) (s : Router) : Router :=
  (env.categoryOrder s.shuffles).foldl (fun s category =>
    (List.range (s.paths category).length).foldl (repairAt env config clock pathId category) s) s

def pathsToRetire (pathId : PathId) (request : Request) (pattern : ErrorBehaviour) (s : Router) :
    List (PathCategory × PathId) :=
  (env.categoryOrder s.shuffles).flatMap fun category =>
    ((s.paths category).filter fun path =>
      (category = toPathCategory request.category ∧ path.id = pathId ∧ pattern.penalizePath) ∨
        config.pathStrikeThreshold ≤ path.strikeCount).map fun path => (category, path.id)

/-- Paths that failed are taken out of use. -/
def retirePaths (failed : List (PathCategory × PathId)) (alreadyPenalized : List Pubkey)
    (s : Router) : Router :=
  failed.foldl (fun s p => handlePathFailure env config clock p.2 p.1 alreadyPenalized s) s

/-- What an error of a request leads to. -/
def handleError (pathId : PathId) (request : Request) (pattern : ErrorBehaviour)
    (extracted : Option Bytes) (s : Router) : Router :=
  let keys := s.penalizedNodes pathId request pattern extracted
  let s := repairPaths env config clock pathId
      (penalize config clock keys pattern.forceRemoveNode s)
  retirePaths env config clock (pathsToRetire env config pathId request pattern s) keys s

/-- `_handle_transport_response`, up to its callback. -/
def handleTransportResponse (pathId : PathId) (request : Request) (response : Response)
    (s : Router) : Router :=
  let s := match parsedError env request response with
    | some (pattern, extracted) => handleError env config clock pathId request pattern extracted s
    | none => s
  s.decrementAndCleanupPath pathId (toPathCategory request.category)

/-! ## Rotation -/

def postponeRotation (category : PathCategory) (pathId : PathId) (s : Router) : Router :=
  (s.modifyPath category pathId fun p =>
      { p with rotationInProgress := false }).schedulePathRotation
    pathId category (clock.steady + oneMinute)

def takeRotation (newPathId : PathId) (s : Router) : Router :=
  { s with
    pendingRotationPaths :=
      Rows.erase PendingRotation.newPathId newPathId s.pendingRotationPaths }

/-- The new path replaces the old one. -/
def completeRotation (pending : PendingRotation) (oldPath : OnionPath) (rotateAt : Int)
    (s : Router) : Router :=
  let s := s.schedulePathRotation pending.newPathId pending.category rotateAt
  { s with
    paths := Function.update s.paths pending.category
      (s.paths pending.category ++ [pending.newPath]) }.retirePath pending.category oldPath

def onRotationVerificationResponse (newPathId : PathId) (success timeout : Bool) (rotateAt : Int)
    (s : Router) : Router :=
  match Rows.find PendingRotation.newPathId newPathId s.pendingRotationPaths with
  | none => s
  | some pending =>
    match s.findPath pending.category pending.oldPathId with
    | none => s.takeRotation newPathId
    | some oldPath =>
      if !success || timeout then
        postponeRotation clock pending.category pending.oldPathId (s.takeRotation newPathId)
      else completeRotation pending oldPath rotateAt (s.takeRotation newPathId)

/-- The nodes of the path that is to replace another one. The edge node is kept until it has been
used for longer than the cache duration. -/
def rotatedNodes (path : OnionPath) (exclude : List MasterNode) (s : Router) : List MasterNode :=
  if path.edgeFirstConnectedAt + config.edgeNodeCacheDuration < clock.system then
    s.unusedNodes env config config.pathLength exclude
  else path.nodes.take 1 ++ s.unusedNodes env config (config.pathLength - 1) exclude

def infoRequest (pending : PendingRotation) (target : MasterNode) : Request where
  requestId := pending.newPathId.number
  destination := .masterNode target
  category := toSmallRequestCategory pending.category
  desiredPathIndex := none

/-- The bookkeeping of a verification that is handed to the transport. -/
def recordVerification (pending : PendingRotation) (request : Request) (rotateAt : Int)
    (s : Router) : Router :=
  { s with
    pendingRotationPaths := s.pendingRotationPaths ++
      [{ pending with newPath := { pending.newPath with
          activeRequests := pending.newPath.activeRequests + 1 } }]
    sentRequests := s.sentRequests ++
      [⟨pending.newPathId, pending.newPath.nodes, request, some rotateAt⟩] }

def verifyRotation (pending : PendingRotation) (target : MasterNode) (s : Router) : Router :=
  let request := infoRequest pending target
  let rotateAt := clock.steady + config.pathRotationFrequency
  if env.buildsPayload pending.newPath.nodes request then
    s.recordVerification pending request rotateAt
  else
    onRotationVerificationResponse clock pending.newPathId false false rotateAt
      { s with pendingRotationPaths := s.pendingRotationPaths ++ [pending] }

/-- One path of `_check_path_rotations`. -/
def rotatePath (s : Router) (entry : ScheduledRotation) : Router :=
  match s.findPath entry.category entry.pathId with
  | none => s
  | some path =>
    if path.rotationInProgress then s
    else
      let s := s.modifyPath entry.category entry.pathId fun p =>
        { p with rotationInProgress := true }
      let newPathId : PathId := ⟨.rotation, s.uniqueIds⟩
      let s := s.idMade
      let exclude := s.extractNodes
      let nodes := rotatedNodes env config clock path exclude s
      let s := s.drawn
      let target := s.unusedNodes env config 1 (exclude ++ nodes)
      let s := s.drawn
      if nodes.length < config.pathLength then
        postponeRotation clock entry.category entry.pathId s
      else
        match target with
        | [] => postponeRotation clock entry.category entry.pathId s
        | target :: _ =>
          let newPath : OnionPath :=
            { id := newPathId
              nodes := nodes
              createdAt := clock.system
              edgeFirstConnectedAt := path.edgeFirstConnectedAt }
          verifyRotation env config clock ⟨entry.pathId, entry.category, newPath⟩ target s

/-- `_check_path_rotations`. -/
def checkPathRotations (s : Router) : Router :=
  let due := s.pathRotationSchedule.takeWhile (·.rotateAt ≤ clock.steady)
  let s := { s with
    pathRotationSchedule := s.pathRotationSchedule.dropWhile (·.rotateAt ≤ clock.steady) }
  due.foldl (rotatePath env config clock) s

/-! ## The interface -/

def closeConnections (s : Router) : Router :=
  let active := s.paths .standard ++ s.paths .file
  { s with
    requestQueues := fun _ => []
    failureListeners := s.failureListeners.filter fun l =>
      active.all fun p => p.edgeKey ≠ some l.key
    paths := fun _ => []
    pathsPendingDrop := fun _ => []
    inProgressPathBuilds := fun _ => 0
    pathBuildRetries := fun _ => 0
    pendingPaths := []
    pathRotationSchedule := []
    pendingRotationPaths := [] }

/-- What `suspend` writes for a path; `to_disk` writes whole seconds. -/
def edgeNodeEntry (path : OnionPath) : List (MasterNode × Int) :=
  (path.nodes.take 1).map (·, path.edgeFirstConnectedAt.tdiv 1000000000)

/-- `suspend()`. -/
def suspend (s : Router) : Router :=
  closeConnections { s with
    suspended := true
    edgeNodeFile := (env.categoryOrder s.shuffles).flatMap fun c =>
      (s.paths c).flatMap edgeNodeEntry }

/-- `resume()`. -/
def resume (automaticallyReconnect : Bool) (s : Router) : Router :=
  if !s.suspended then s
  else
    let s := { s with suspended := false }
    if automaticallyReconnect then preBuildPathsIfNeeded env config s else s

def clearCache (s : Router) : Router := { s with cachedEdgeNodes := [], edgeNodeFile := [] }

def sendQueuedOf (s : Router) (category : PathCategory) : Router :=
  (s.requestQueues category).foldl (fun s request => sendRequestInternal env config request s)
    (s.setQueue category [])

def finishSetup (s : Router) : Router :=
  (env.categoryOrder s.shuffles).foldl (sendQueuedOf env config)
    (preBuildPathsIfNeeded env config { s with ready := true })

end Router

/-! ## A sample -/

/-- An environment in which searches start at the first node, nothing is shuffled, and every payload
is built and decrypted. -/
def Environment.plain : Environment where
  startIndex _ := 0
  shuffle _ l := l
  shuffle_perm _ l := List.Perm.refl l
  categoryOrder _ := [.standard, .file]
  categoryOrder_perm _ := List.Perm.refl _
  buildsPayload _ _ := true
  decryptedResponse _ _ response := .ok (200, some response)
  findUniformBatchError _ := none
  handshakeTimeout := 0xffffffffffffff14

/-- A node with a number as key and a subnet of its own. -/
def nodeOfNat (n : Nat) : MasterNode :=
  { remotePubkey := pubkeyOfNat n
    ip := UInt32.ofNat (256 * n)
    httpsPort := 443
    omqPort := 22000
    storageServerVersion := (2, 11, 0)
    swarmId := 0
    requestedUnlockHeight := 0 }

def sampleRouterConfig : RouterConfig where
  edgeNodeCacheDuration := 1000
  pathLength := 2
  pathStrikeThreshold := 3
  pathBuildRetryLimit := 5
  pathRotationFrequency := 100
  nodeStrikeThreshold := 3
  disablePreBuildPaths := true
  singlePathMode := false
  minPathCounts _ := 1
  pool := { enforceSubnetDiversity := true, cacheNodeStrikeThreshold := 3 }

/-! ## Runs of the router

What can happen to a router between its start and its end: calls of its interface, answers of the
transport to what it was asked, timers of the loop, and changes of the node pool made by others.
Every event carries the time at which it happens.

Answers of the transport are handled one at a time, also where it gives them from its own thread,
and callbacks of requests do not throw.
-/

namespace Router

/-- What happens next. An index picks one of the things that the router is waiting for. -/
inductive Event where
  | sendRequest (request : Request)
  | connectivityResponse (index : Nat) (success : Bool) (errorCode : Option UInt64)
  | transportResponse (index : Nat) (answer : TransportResponse)
  | connectionFailed (key : Pubkey)
  | rotationTimer
  | retryTimer (index : Nat)
  | poolRefreshed (index : Nat)
  | poolChanged (mnodeCache : List MasterNode) (mnodeStrikes : Strikes)
  | requestTimedOut (category : PathCategory) (requestId : Nat)
  | finishSetup
  | suspend
  | resume (automaticallyReconnect : Bool)
  | closeConnections
  | clearCache

/-- A new router. -/
def start (cachedEdgeNodes : List CachedEdgeNode) (mnodeCache : List MasterNode)
    (mnodeStrikes : Strikes) : Router where
  cachedEdgeNodes := cachedEdgeNodes
  mnodeCache := mnodeCache
  mnodeStrikes := mnodeStrikes

variable (env : Environment) (config : RouterConfig) (clock : Clock)

def answerCheck (index : Nat) (success : Bool) (errorCode : Option UInt64) (s : Router) : Router :=
  match s.connectivityChecks[index]? with
  | none => s
  | some check => onEdgeConnectivityResponse env config clock check success errorCode
      { s with connectivityChecks := s.connectivityChecks.eraseIdx index }

/-- The response has been handled. -/
def forgetSent (index : Nat) (s : Router) : Router :=
  { s with sentRequests := s.sentRequests.eraseIdx index }

/-- The answer to a request. After it is handled, the callback of a verification decides about the
rotation. -/
def answerRequest (index : Nat) (answer : TransportResponse) (s : Router) : Router :=
  match s.sentRequests[index]? with
  | none => s
  | some sent =>
    let response := decryptResponse env sent answer
    let s := (handleTransportResponse env config clock sent.pathId sent.request response
        s).forgetSent
      index
    match sent.rotateAt with
    | none => s
    | some rotateAt => onRotationVerificationResponse clock sent.pathId (finalSuccess env response)
        response.timeout rotateAt s

/-- The connection to a node is lost; its listeners are taken off and run. -/
def failConnection (key : Pubkey) (s : Router) : Router :=
  (s.failureListeners.filter (·.key = key)).foldl
    (fun s listener => onConnectionFailure env config clock listener s)
    { s with failureListeners := s.failureListeners.filter (·.key ≠ key) }

def fireRetryTimer (index : Nat) (s : Router) : Router :=
  match s.retryTimers[index]? with
  | none => s
  | some timer => buildPath env config timer.category [timer.failedEdge] (some timer.pathId) none
      { s with retryTimers := s.retryTimers.eraseIdx index }

def resumeBuild (index : Nat) (s : Router) : Router :=
  match s.waitingBuilds[index]? with
  | none => s
  | some build => buildPath env config build.category build.nodesToExclude none none
      { s with waitingBuilds := s.waitingBuilds.eraseIdx index }

/-- One event. -/
def step (s : Router) : Event → Router
  | .sendRequest request => sendRequestInternal env config request s
  | .connectivityResponse index success errorCode =>
    answerCheck env config clock index success errorCode s
  | .transportResponse index answer => answerRequest env config clock index answer s
  | .connectionFailed key => failConnection env config clock key s
  | .rotationTimer => checkPathRotations env config clock s
  | .retryTimer index => fireRetryTimer env config index s
  | .poolRefreshed index => resumeBuild env config index s
  | .poolChanged mnodeCache mnodeStrikes =>
    { s with mnodeCache := mnodeCache, mnodeStrikes := mnodeStrikes }
  | .requestTimedOut category requestId =>
    s.setQueue category ((s.requestQueues category).filter (·.requestId ≠ requestId))
  | .finishSetup => finishSetup env config s
  | .suspend => suspend env s
  | .resume automaticallyReconnect => resume env config automaticallyReconnect s
  | .closeConnections => s.closeConnections
  | .clearCache => s.clearCache

/-- All events, one after the other. -/
def run (s : Router) (events : List (Clock × Event)) : Router :=
  events.foldl (fun s e => step env config e.1 s e.2) s

/-! ## A sample -/

def sampleStart : Router := start [] ((List.range 10).map nodeOfNat) fun _ => []

def sampleRequest : Request := ⟨1, .serverDestination, .standard, none⟩

def sampleAnswer : TransportResponse := ⟨true, false, 200, some []⟩

def rotationRun : List (Clock × Event) :=
  [(⟨0, 0⟩, .finishSetup), (⟨0, 0⟩, .sendRequest sampleRequest),
    (⟨10, 10⟩, .connectivityResponse 0 true none), (⟨20, 20⟩, .transportResponse 0 sampleAnswer),
    (⟨200, 200⟩, .rotationTimer), (⟨210, 210⟩, .transportResponse 0 sampleAnswer)]

end Router

end Bchat.Network
