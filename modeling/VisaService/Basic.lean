import VisaService.Lib.RowIndex
import VisaService.IpAddr

/-!
# Time, errors and flows

Values shared by every part of the visa service. Instants are nanoseconds on one
clock, as `Nat`: the process clock, the wall clock and the clock Redis expires keys by advance
together, so a `SystemTime`, a tokio `Instant` and the firing of a Redis TTL are all
points on it.
-/
namespace VisaService

open Lib

def nanosPerSec : Nat := 1000000000

/-- Whole seconds from `now` until the wall-clock instant `t`, zero if it has passed. -/
def secondsUntil (now t : Nat) : Nat := (t - now) / nanosPerSec

/-- Whole seconds from `now` until a deadline, zero if it was reached. -/
def remainingSecs (now deadline : Nat) : Nat := (deadline - now) / nanosPerSec

theorem remainingSecs_pos {now deadline : Nat} :
    0 < remainingSecs now deadline ↔ now + nanosPerSec ≤ deadline := by
  simp only [remainingSecs, nanosPerSec]
  omega

theorem lt_now_add_secondsUntil (now t : Nat) :
    t < now + secondsUntil now t * nanosPerSec + nanosPerSec := by
  simp only [secondsUntil, nanosPerSec]
  omega

theorem now_add_secondsUntil_le {now t : Nat} (future : now ≤ t) :
    now + secondsUntil now t * nanosPerSec ≤ t := by
  simp only [secondsUntil, nanosPerSec]
  omega

/-- `StoreError`; only the variants the modelled code constructs or forwards. -/
inductive StoreError where
  | redis
  | invalidData (message : String)
  | notFound (message : String)
  | missingRequired (message : String)
  | addressOccupied (message : String)
  | serialization
  | attribute (message : String)
  | capnp
  deriving DecidableEq, Repr

/-- `libeval::error::EvalError`. -/
inductive EvalError where
  | attributeMissing (message : String)
  deriving DecidableEq, Repr

inductive AttributeError where
  | attributeError (message : String)
  deriving DecidableEq, Repr

/-- Codes of `ApiResponseError`. -/
inductive ErrorCode where
  | policyDenied
  | authError
  deriving DecidableEq, Repr

/-- Errors of the services; only the variants the modelled code constructs or forwards. -/
inductive ServiceError where
  | store (failure : StoreError)
  | internal (message : String)
  | authenticationFailed (message : String)
  | eval (failure : EvalError)
  | attribute (failure : AttributeError)
  /-- `trusted service lookup failed for <cn>: <cause>`. -/
  | attributesIndeterminate (endpointCn : String) (cause : ServiceError)
  /-- `AttributesIndeterminate` of a refresh. -/
  | refreshIndeterminate (message : String)
  | trustedServiceNotFound (source : String)
  | apiResponse (code : ErrorCode) (message : String)
  | param (message : String)
  deriving DecidableEq, Repr

/-- What a packet's headers say about the flow it belongs to. -/
structure FiveTuple where
  sourceAddr : IpAddr
  destAddr : IpAddr
  l4Protocol : UInt8
  sourcePort : UInt16
  destPort : UInt16
  deriving DecidableEq, Repr

/-- Which side of a permission the source of a flow matched. -/
inductive Direction where
  | forward
  | reverse
  deriving DecidableEq, Repr

/-- Names of links, assigned by the policy compiler. -/
abbrev LinkId : Type := String

inductive RouteKind where
  /-- Both adapters are connected to the same node. -/
  | directSameNode (nodeId : IpAddr)
  | multihop
  deriving DecidableEq, Repr

/-- An ordered sequence of links between nodes, with the sum of their costs. -/
structure Route where
  kind : RouteKind
  links : List LinkId
  cost : UInt32
  deriving DecidableEq, Repr

def Route.newDirect (nodeId : IpAddr) : Route :=
  { kind := .directSameNode nodeId, links := [], cost := 0 }

end VisaService
