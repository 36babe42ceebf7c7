import VisaService.Visa.Manager

/-!
# Deciding a flow

The visa request path and the re-check of an issued visa run the same policy evaluation
on two resolved actors and a packet. What evaluation, docking and routing answer is read
from the environment of the moment, `FlowEnv`; what the two callers make of the answers is
modelled here: which visa a request leads to, and whether an issued visa may stay.
-/
namespace VisaService

open Lib

/-! ### Answers of policy evaluation -/

inductive DenyCode where
  | noReason
  | noMatch
  | denied
  | sourceNotFound
  | destNotFound
  | sourceAuthError
  | destAuthError
  | quotaExceeded
  | noRoute
  deriving DecidableEq, Repr

inductive CommFlag where
  | biDirectional
  | uniDirectional
  | reRequest
  deriving DecidableEq, Repr

structure PacketDesc where
  fiveTuple : FiveTuple
  commFlags : CommFlag
  deriving DecidableEq, Repr

/-- A policy that matched; the route if it was matched over one. -/
structure Hit where
  matchIdx : Nat
  direction : Direction
  /-- Message of the attached signal. -/
  signal : Option String
  route : Option Route
  deriving DecidableEq, Repr

/-- An allow has at least one hit; `defaultRoute` is missing when the hits carry routes. -/
inductive PolicyOutcome where
  | allow (first : Hit) (others : List Hit) (defaultRoute : Option Route)
      (srcDock dstDock : IpAddr)
  | deny (code : DenyCode)

/-- What the evaluation of a flow reads from the rest of the service: policy, docking
tables and topology. -/
structure FlowEnv where
  /-- `evaluate_against_policy` under the policy at hand. -/
  evaluate : PacketDesc → Except ServiceError PolicyOutcome
  dockingNodeForAddr : IpAddr → Option IpAddr
  routeToPath : Route → IpAddr → Except ServiceError (List IpAddr)
  /-- `compute_expiration` for the hit. -/
  expiration : Hit → Except ServiceError Nat
  policyVersion : Option Nat
  /-- The policy's source line of a hit. -/
  cpolSource : Nat → Option String

/-- The first hit's own route if it has one, else the default route. -/
def routeForAllow (first : Hit) (defaultRoute : Option Route) : Except ServiceError Route :=
  match first.route with
  | some route => .ok route
  | none =>
    match defaultRoute with
    | some route => .ok route
    | none =>
      .error (.internal "policy allowed visa but no route in hit and no default route")

/-- Node path of a route in flow order; none when no link is traversed. -/
def pathForFlow (env : FlowEnv) (sourceAddr : IpAddr) (route : Route) :
    Except ServiceError (Option (List IpAddr)) :=
  match route.kind with
  | .directSameNode _ => .ok none
  | .multihop =>
    match env.dockingNodeForAddr sourceAddr with
    | none =>
      .error (.internal
        s!"cannot orient visa path: source {sourceAddr.display} is not docked to any node")
    | some ingress =>
      match env.routeToPath route ingress with
      | .error failure => .error failure
      | .ok path => .ok (some path)

/-! ### From a request to a visa -/

structure VisaRequestJob where
  requestingNode : IpAddr
  packetDesc : PacketDesc
  deriving DecidableEq, Repr

def ipProtoTcp : UInt8 := 6
def ipProtoUdp : UInt8 := 17
def ipProtoIpv6Icmp : UInt8 := 58

def epFromDir : Direction → EndpointT
  | .forward => .client
  | .reverse => .server

/-- The ports a TCP or UDP visa is for; 0 stands for any port, which a bidirectional flow
leaves open on its client's side. -/
def visaPorts (pdesc : PacketDesc) (direction : Direction) : UInt16 × UInt16 :=
  if pdesc.commFlags = .biDirectional then
    match direction with
    | .forward => (0, pdesc.fiveTuple.destPort)
    | .reverse => (pdesc.fiveTuple.sourcePort, 0)
  else (pdesc.fiveTuple.sourcePort, pdesc.fiveTuple.destPort)

def dockPepType (pdesc : PacketDesc) (direction : Direction) :
    Except ServiceError DockPepType :=
  let ports := visaPorts pdesc direction
  if pdesc.fiveTuple.l4Protocol = ipProtoTcp then
    .ok (.tcp ports.1 ports.2 (epFromDir direction))
  else if pdesc.fiveTuple.l4Protocol = ipProtoUdp then
    .ok (.udp ports.1 ports.2 (epFromDir direction))
  else if pdesc.fiveTuple.l4Protocol = ipProtoIpv6Icmp then
    -- ICMP type and code travel in the ports
    .ok (.icmp pdesc.fiveTuple.sourcePort.toUInt8 pdesc.fiveTuple.destPort.toUInt8)
  else
    .error (.internal
      s!"unsupported protocol for visa: {pdesc.fiveTuple.l4Protocol.toNat}")

/-- A visa that was decided on, before it has an id. `vinst` is the generation of the
policy it was evaluated under. -/
structure VisaDraft where
  job : VisaRequestJob
  pep : DockPepType
  hit : Hit
  path : Option (List IpAddr)
  zpl : String
  policyVersion : Nat
  vinst : Nat
  expiration : Nat

/-- `VisaMetadata::new`: the generation seeds both `createdVinst` and `checkedVinst`. -/
def VisaDraft.metadata (draft : VisaDraft) (now : Nat) : VisaMetadata where
  requestingNode := draft.job.requestingNode
  ctime := now
  policyVersion := draft.policyVersion
  createdVinst := draft.vinst
  checkedVinst := draft.vinst
  zpl := draft.zpl
  signalMsgs := draft.hit.signal.toList
  direction := draft.hit.direction
  path := draft.path
  fiveTuple := draft.job.packetDesc.fiveTuple

/-- Both session keys are left out unless both ends sent one. -/
def sessionKey (ingressKey egressKey : List UInt8) : KeySet :=
  if ingressKey.isEmpty ∨ egressKey.isEmpty then ⟨[], []⟩ else ⟨ingressKey, egressKey⟩

def VisaDraft.visa (draft : VisaDraft) (visaId : Nat) (ingressKey egressKey : List UInt8) :
    Visa where
  issuerId := visaId
  config := 0
  expires := draft.expiration
  visaType := .full
  dockPep := some
    { pep := draft.pep
      sourceAddr := draft.job.packetDesc.fiveTuple.sourceAddr
      destAddr := draft.job.packetDesc.fiveTuple.destAddr
      sessionKey := sessionKey ingressKey egressKey }
  fwdPep := none

/-- `MIN_VISA_LIFETIME`, 30 s. -/
def minVisaLifetime : Nat := 30 * nanosPerSec

/-- `MAX_VISA_LIFETIME`, 24 hours. -/
def maxVisaLifetime : Nat := 24 * 60 * 60 * nanosPerSec

/-- How the evaluation of a request ends: with a visa to create or with a denial. -/
inductive RequestOutcome where
  | create (draft : VisaDraft)
  | deny (code : DenyCode)

/-- `visa_from_allow` up to the point where the visa gets its id. -/
def visaFromAllow (env : FlowEnv) (now vinst : Nat) (job : VisaRequestJob) (first : Hit)
    (defaultRoute : Option Route) : Except ServiceError RequestOutcome := do
  let route ← routeForAllow first defaultRoute
  let expiration ← env.expiration first
  -- a visa that lapses before the nodes can install it is denied
  if expiration < now + minVisaLifetime then return .deny .noReason
  let path ← pathForFlow env job.packetDesc.fiveTuple.sourceAddr route
  let pep ← dockPepType job.packetDesc first.direction
  return .create
    { job, pep, hit := first, path
      zpl := (env.cpolSource first.matchIdx).getD ""
      policyVersion := env.policyVersion.getD 0
      vinst, expiration }

/-- The part of `process_visa_request` that starts with the policy snapshot of generation
`vinst`. The requester must dock an end of the flow in the docking state evaluation used. -/
def decideRequest (env : FlowEnv) (now vinst : Nat) (job : VisaRequestJob) :
    Except ServiceError RequestOutcome := do
  match ← env.evaluate job.packetDesc with
  | .deny code => return .deny code
  | .allow first _ defaultRoute srcDock dstDock =>
    if srcDock ≠ job.requestingNode ∧ dstDock ≠ job.requestingNode then
      return .deny .noMatch
    visaFromAllow env now vinst job first defaultRoute

/-! ### Re-checking an issued visa -/

inductive VisaRecheck where
  | skipUnresolvedActor
  | allowSameRoute
  | revoke
  deriving DecidableEq, Repr

/-- The packet a visa was issued for; the flags are not persisted. -/
def VisaMetadata.packetDesc (metadata : VisaMetadata) : PacketDesc :=
  { fiveTuple := metadata.fiveTuple, commFlags := .biDirectional }

/-- Both ends of the visa's flow are connected actors. -/
def VisaMetadata.Resolves (resolves : IpAddr → Bool) (metadata : VisaMetadata) : Prop :=
  ∀ actor ∈ metadata.endpoints, resolves actor = true
  deriving Decidable

/-- An issued visa stays only if policy still allows its flow over the same path. -/
def recheckVisaAllowed (resolves : IpAddr → Bool) (env : FlowEnv) (metadata : VisaMetadata) :
    Except ServiceError VisaRecheck :=
  if metadata.Resolves resolves then
    match env.evaluate metadata.packetDesc with
    | .error failure => .error failure
    | .ok (.deny _) => .ok .revoke
    | .ok (.allow first _ defaultRoute _ _) =>
      match routeForAllow first defaultRoute with
      | .error failure => .error failure
      | .ok route =>
        match pathForFlow env metadata.fiveTuple.sourceAddr route with
        | .ok path => if path = metadata.path then .ok .allowSameRoute else .ok .revoke
        -- the source's docking node left the route, so the route has changed
        | .error _ => .ok .revoke
  else .ok .skipUnresolvedActor

/-- Evaluation of the visa's flow answers, and an allow comes with a route. -/
def FlowEnv.Answers (env : FlowEnv) (metadata : VisaMetadata) : Prop :=
  match env.evaluate metadata.packetDesc with
  | .error _ => False
  | .ok (.deny _) => True
  | .ok (.allow first _ defaultRoute _ _) => first.route.isSome ∨ defaultRoute.isSome

theorem recheck_of_answers {resolves : IpAddr → Bool} {env : FlowEnv} {metadata : VisaMetadata}
    (resolved : metadata.Resolves resolves) (answers : env.Answers metadata) :
    recheckVisaAllowed resolves env metadata = .ok .allowSameRoute ∨
      recheckVisaAllowed resolves env metadata = .ok .revoke := by
  rw [recheckVisaAllowed, if_pos resolved]
  unfold FlowEnv.Answers at answers
  cases evaluated : env.evaluate metadata.packetDesc with
  | error failure => simp [evaluated] at answers
  | ok outcome =>
    cases outcome with
    | deny code => exact .inr rfl
    | allow first others defaultRoute srcDock dstDock =>
      simp only [evaluated] at answers
      obtain ⟨route, chosen⟩ : ∃ route, routeForAllow first defaultRoute = .ok route := by
        unfold routeForAllow
        cases own : first.route <;> cases defaultRoute <;> simp [own] at answers ⊢
      simp only [chosen]
      split
      · split <;> simp
      · exact .inr rfl

end VisaService
