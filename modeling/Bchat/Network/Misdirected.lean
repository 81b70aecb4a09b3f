import Bchat.Network.MnodePool
import Bchat.Network.OnionRouter

/-!
# Requests of clients

`Network::send_request` and `_handle_421_retry` of `src/network/bchat_network.cpp`, for one request
of a client. Its callback is passed on from one continuation to the next; what the other requests do
in the meantime is an input of each step.

Left out are what the request asks for, how long it may take, and the texts of the errors.
-/

namespace Bchat.Network

/-- A request as the session sends it. -/
structure NetworkRequest where
  destination : Destination
  isUpload : Bool
  hasBody : Bool
  retryCount : Nat
  deriving DecidableEq, Repr

def errorNotAcceptable : Int := 406
def errorMisdirectedRequest : Int := 421
def errorTooEarly : Int := 425
def errorNetworkSuspended : Int := -10002
def errorNoTransportLayer : Int := -10003
def errorNoRoutingLayer : Int := -10004

/-- The loop of `find_uniform_batch_error` over the codes of the results, none where a result has no
code. -/
def uniformBatchError (firstStatusCode : Int) : List (Option Int) → Option Int
  | [] => some firstStatusCode
  | none :: _ => none
  | some code :: rest =>
    if 200 ≤ code ∧ code ≤ 299 then none
    else if firstStatusCode = -1 then uniformBatchError code rest
    else if firstStatusCode ≠ code then none
    else uniformBatchError firstStatusCode rest

/-- An answer of the router. A body counts for its batch results. -/
structure Response where
  success : Bool
  timeout : Bool
  statusCode : Int
  results : List (Option Int)
  deriving DecidableEq, Repr

def Response.finalStatusCode (r : Response) : Int :=
  if r.results = [] then r.statusCode else (uniformBatchError (-1) r.results).getD r.statusCode

/-- What the callback of the client is given. -/
structure Reply where
  success : Bool
  timeout : Bool
  statusCode : Int
  deriving DecidableEq, Repr

def Reply.error (statusCode : Int) : Reply := ⟨false, false, statusCode⟩

/-- The network at a step, and whether the router throws. -/
structure Situation where
  suspended : Bool
  transport : Bool
  router : Bool
  routerThrows : Bool
  deriving DecidableEq, Repr

/-- A continuation that holds the callback. -/
inductive Waiting where
  /-- The router has the request. -/
  | routed (request : NetworkRequest)
  /-- The callback of `refresh_if_needed`. -/
  | refresh (request : NetworkRequest) (failedNode : MasterNode)
  /-- The callback of `get_swarm`. -/
  | swarm (request : NetworkRequest) (failedNode : MasterNode)
  /-- The request is in the queue of a clock resync. -/
  | resync (request : NetworkRequest)
  deriving DecidableEq, Repr

/-- What has become of the request of a client. -/
structure Journey where
  waiting : List Waiting
  handed : List NetworkRequest
  replies : List Reply
  deriving DecidableEq, Repr

namespace Journey

def start : Journey := ⟨[], [], []⟩

def reply (r : Reply) (j : Journey) : Journey := { j with replies := j.replies ++ [r] }

def wait (w : Waiting) (j : Journey) : Journey := { j with waiting := j.waiting ++ [w] }

def sendRequest (now : Situation) (request : NetworkRequest) (j : Journey) : Journey :=
  if now.suspended then j.reply (.error errorNetworkSuspended)
  else if !now.transport then j.reply (.error errorNoTransportLayer)
  else if !now.router then j.reply (.error errorNoRoutingLayer)
  -- `_preprocess_request` throws
  else if request.isUpload && !request.hasBody then j.reply (.error (-1))
  else
    let j := { j with handed := j.handed ++ [request] }
    -- the callback was moved away, so that the handler of the exception has none to call
    if now.routerThrows then j else j.wait (.routed request)

/-- `_resync_clock` for a node pool that is there. -/
def resyncClock (now : Situation) (request : NetworkRequest) (j : Journey) : Journey :=
  if now.suspended then j.reply (.error errorNetworkSuspended) else j.wait (.resync request)

/-- `_handle_421_retry`. -/
def handle421Retry (redirectRetryCount : UInt8) (request : NetworkRequest) (j : Journey) :
    Journey :=
  if redirectRetryCount.toNat ≤ request.retryCount then j.reply (.error errorMisdirectedRequest)
  else
    match request.destination with
    | .masterNode node => j.wait (.refresh request node)
    | _ => j.reply (.error errorMisdirectedRequest)

/-- The callback given to the router. -/
def onResponse (redirectRetryCount : UInt8) (now : Situation) (request : NetworkRequest)
    (r : Response) (j : Journey) : Journey :=
  let code := r.finalStatusCode
  let isNode := request.destination.node?.isSome
  if code = errorNotAcceptable ∧ isNode ∨ code = errorTooEarly ∧ !isNode then
    j.resyncClock now request
  else if code = errorMisdirectedRequest then j.handle421Retry redirectRetryCount request
  else j.reply ⟨r.success && 200 ≤ code && code ≤ 299, r.timeout, r.statusCode⟩

/-- The nodes among which the next target is drawn. -/
def retryTargets (failedNode : MasterNode) (swarmNodes : List MasterNode) : List MasterNode :=
  swarmNodes.filter (· ≠ failedNode)

/-- The callback given to `get_swarm`, with the number that was drawn. -/
def onSwarm (now : Situation) (request : NetworkRequest) (failedNode : MasterNode)
    (swarmNodes : List MasterNode) (draw : Nat) (j : Journey) : Journey :=
  let targets := retryTargets failedNode swarmNodes
  match targets[draw % targets.length]? with
  | none => j.reply (.error errorMisdirectedRequest)
  | some target => j.sendRequest now
      { request with retryCount := request.retryCount + 1, destination := .masterNode target }

/-- How a continuation goes on: the last two are for one that is dropped with its callback, and for
a queue that calls the callback. -/
inductive Event where
  | response (r : Response)
  | refreshed
  | swarm (swarmNodes : List MasterNode) (draw : Nat)
  | dropped
  | resynced (r : Reply)
  deriving DecidableEq, Repr

def resume (redirectRetryCount : UInt8) (now : Situation) (e : Event) (w : Waiting) (j : Journey) :
    Journey :=
  match w, e with
  | .routed request, .response r => j.onResponse redirectRetryCount now request r
  | .refresh request failedNode, .refreshed => j.wait (.swarm request failedNode)
  | .swarm request failedNode, .swarm nodes draw => j.onSwarm now request failedNode nodes draw
  | .resync _, .resynced r => j.reply r
  | _, .dropped => j
  | w, _ => j.wait w

/-- One of the continuations is called. -/
def step (redirectRetryCount : UInt8) (j : Journey) : Nat × Situation × Event → Journey
  | (i, now, e) =>
    match j.waiting[i]? with
    | none => j
    | some w => resume redirectRetryCount now e w { j with waiting := j.waiting.eraseIdx i }

/-- All that happens to a request. -/
def run (redirectRetryCount : UInt8) (j : Journey) (events : List (Nat × Situation × Event)) :
    Journey :=
  events.foldl (step redirectRetryCount) j

end Journey

end Bchat.Network
