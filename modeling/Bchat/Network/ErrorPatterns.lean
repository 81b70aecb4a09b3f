import Bchat.Groups.Sodium
import Bchat.Lib.Text
import Bchat.Network.MasterNode

/-!
# Error patterns

The table of errors in `src/network/routing/onion_request_router.cpp` and `parse_error_response`,
which finds the first entry that a response matches and cuts a public key out of the text.
-/

namespace Bchat.Network

inductive ErrorType where
  | intermediateNodeUnreachable
  | destinationUnreachable
  | mnodeNotReady
  | edgeNotReady
  | pathTimedOut
  | invalidHopResponse
  | unparseableData
  | destinationNotReady
  | clockOutOfSync
  | mnodeNotInSwarm
  deriving DecidableEq, Repr

/-- What is done about an error. -/
structure ErrorBehaviour where
  code : Int
  bodyPattern : String
  errorType : ErrorType
  penalizeExtractedNode : Bool := false
  penalizeDestination : Bool := false
  penalizeEdge : Bool := false
  penalizePath : Bool := false
  forceRemoveNode : Bool := false
  extractPubkey : Bool := false
  deriving DecidableEq, Repr

/-- The table of texts, in its order. -/
def errorPatterns : List ErrorBehaviour :=
  [{ code := 502
     bodyPattern := "Next node not found: "
     errorType := .intermediateNodeUnreachable
     penalizeExtractedNode := true
     penalizePath := true
     forceRemoveNode := true
     extractPubkey := true },
   { code := 502
     bodyPattern := "Next node is currently unreachable: "
     errorType := .intermediateNodeUnreachable
     penalizeExtractedNode := true
     penalizePath := true
     forceRemoveNode := true
     extractPubkey := true },
   { code := 502
     bodyPattern := "Next node not found: "
     errorType := .destinationUnreachable
     penalizeDestination := true
     forceRemoveNode := true
     extractPubkey := true },
   { code := 502
     bodyPattern := "Next node is currently unreachable: "
     errorType := .destinationUnreachable
     penalizeDestination := true
     forceRemoveNode := true
     extractPubkey := true },
   { code := 502
     bodyPattern := "beldexd returned unparsable data"
     errorType := .unparseableData
     penalizeDestination := true
     forceRemoveNode := true },
   { code := 503
     bodyPattern := "Mnode not ready: "
     errorType := .mnodeNotReady
     penalizeExtractedNode := true
     extractPubkey := true },
   { code := 503
     bodyPattern := "Service node is not ready: "
     errorType := .edgeNotReady
     penalizeEdge := true },
   { code := 503
     bodyPattern := "Server busy, try again later"
     errorType := .edgeNotReady
     penalizeEdge := true },
   { code := 504
     bodyPattern := "Request time out"
     errorType := .pathTimedOut
     penalizePath := true },
   { code := 500
     bodyPattern := "Invalid response from mnode"
     errorType := .invalidHopResponse
     penalizePath := true },
   { code := 406, bodyPattern := "", errorType := .clockOutOfSync },
   { code := 421, bodyPattern := "", errorType := .mnodeNotInSwarm }]

/-- The test of an entry against a response. -/
def ErrorBehaviour.isMatch (pattern : ErrorBehaviour) (statusCode : Int) (body : Bytes) : Bool :=
  pattern.code == statusCode &&
    (pattern.bodyPattern == "" ||
      (!body.isEmpty && (splitFirst (bytes pattern.bodyPattern) body).isSome))

/-- The text behind the pattern, up to the next blank. -/
def ErrorBehaviour.extractedPubkey (pattern : ErrorBehaviour) (body : Bytes) : Option Bytes :=
  if pattern.extractPubkey ∧ body ≠ [] then
    (splitFirst (bytes pattern.bodyPattern) body).map fun p =>
      p.2.takeWhile (fun b => b ∉ bytes " \n\r\t")
  else none

def pubkeyFromHex (text : Bytes) : Option Pubkey :=
  (Groups.fromHex text).bind fun b => if h : b.length = 32 then some ⟨b, h⟩ else none

/-- `parse_error_response`. An unreachable node that is the destination itself is reported with
the other entry of the same text. -/
def parseErrorResponse (statusCode : Int) (errorBody : Option Bytes)
    (destinationPubkey : Option Pubkey) : Option (ErrorBehaviour × Option Bytes) :=
  let body := errorBody.getD []
  (errorPatterns.find? (·.isMatch statusCode body)).map fun pattern =>
    let extracted := pattern.extractedPubkey body
    let isDestination := pattern.errorType = .intermediateNodeUnreachable ∧
      (extracted.bind pubkeyFromHex).isSome ∧ extracted.bind pubkeyFromHex = destinationPubkey
    let entry :=
      if isDestination then
        (errorPatterns.find? fun p =>
          p.errorType == .destinationUnreachable && p.bodyPattern == pattern.bodyPattern).getD
              pattern
      else pattern
    (entry, extracted)

end Bchat.Network
