import VisaService.Actors.Aaa
import VisaService.Assembly.Sweeps
import VisaService.Router.BestRoutes

/-!
# The path of a requested visa

A visa request is evaluated against policy with the docking nodes of its two sides, and over the
best route between them. If it is allowed, a visa is created: the docking node of the source is
looked up once more, and the route is written down as the path that begins there. In between the
request is suspended, and adapters undock and dock elsewhere.

Main results: `path_binds` and `path_reversed`. A route that can be followed from a node begins at
this node, or is a single link that ends there (`Graph.starts_of_routeToPath`).
-/
namespace VisaService

open Lib

/-! ### Evaluation -/

/-- A communication policy that matches the two sides and the packet. -/
structure PolicyMatch where
  matchIdx : Nat
  direction : Direction
  signal : Option String
  deriving DecidableEq, Repr

/-- `Hit::new_with_signal` and `Hit::new_no_signal`, both without a route. -/
def PolicyMatch.hit (found : PolicyMatch) : Hit :=
  ⟨found.matchIdx, found.direction, found.signal, none⟩

inductive FinalDeny where
  | noMatch (message : String)
  | deny (hits : List Hit)

/-- The evaluator does not return `NeedsRoute`. -/
inductive PartialEvalResult where
  | deny (final : FinalDeny)
  | allowWithoutRoute (first : Hit) (others : List Hit)

/-- What is read from a policy for a request. -/
structure PolicyView where
  hasReader : Bool
  hasComPolicies : Bool
  /-- The denials or the allowances that match, in the order of the policy. -/
  matchPolicies : (allow : Bool) → Party → Party → PacketDesc →
    Except ServiceError (List PolicyMatch)
  /-- `compute_expiration`. -/
  expiration : Party → Party → Hit → Except ServiceError Nat
  version : Option Nat
  vinst : Nat
  cpolSource : Nat → Option String

namespace PolicyView

/-- Denials come first. -/
def evalRequest (policy : PolicyView) (src dst : Party) (request : PacketDesc) :
    Except ServiceError PartialEvalResult :=
  if request.fiveTuple.l4Protocol ∉ [ipProtoTcp, ipProtoUdp, ipProtoIpv6Icmp] then
    .ok (.deny (.noMatch "only TCP/UDP/ICMPv6 protocols supported"))
  else if !policy.hasReader then .ok (.deny (.noMatch "no policy available"))
  else if !policy.hasComPolicies then
    .ok (.deny (.noMatch "no communication policies defined"))
  else
    match policy.matchPolicies false src dst request with
    | .error failure => .error failure
    | .ok (first :: others) => .ok (.deny (.deny ((first :: others).map PolicyMatch.hit)))
    | .ok [] =>
      match policy.matchPolicies true src dst request with
      | .error failure => .error failure
      | .ok (first :: others) =>
        .ok (.allowWithoutRoute first.hit (others.map PolicyMatch.hit))
      | .ok [] => .ok (.deny (.noMatch "no matching policy"))

theorem evalRequest_route {policy : PolicyView} {src dst : Party} {request : PacketDesc}
    {first : Hit} {others : List Hit}
    (allowed : policy.evalRequest src dst request = .ok (.allowWithoutRoute first others)) :
    first.route = none := by
  unfold evalRequest at allowed
  repeat' split at allowed
  all_goals cases allowed
  rfl

end PolicyView

namespace Party

def zprAddr : Party → Option IpAddr
  | .stored actor => actor.zprAddr
  | .anonymous addr _ => some addr

def authenticationExpiration : Party → Option Nat
  | .stored actor => actor.getAuthenticationExpirationWithGate.map Prod.fst
  | .anonymous _ expiration => some expiration

def expired (party : Party) (now : Nat) : Bool :=
  party.authenticationExpiration.any (· < now)

end Party

/-- The two sides of a flow, with their addresses. -/
structure Sides where
  source : Party
  dest : Party
  sourceAddr : IpAddr
  destAddr : IpAddr

namespace AaaTable

/-- The docking nodes of the source and, after it, of the destination. -/
def resolveDocks (table : AaaTable) (fabric : Fabric) (sides : Sides) :
    Option IpAddr × Option IpAddr × AaaTable :=
  let (srcDock, table) := table.resolveDockingNode fabric sides.source sides.sourceAddr
  let (dstDock, table) := table.resolveDockingNode fabric sides.dest sides.destAddr
  (srcDock, dstDock, table)

/-- From the address alone: `found` is the actor that the database has for it, if it can be
read. -/
def dockingNodeForAddr (table : AaaTable) (fabric : Fabric) (found : Option Actor)
    (addr : IpAddr) : Option IpAddr × AaaTable :=
  match found with
  | some actor => table.resolveDockingNode fabric (.stored actor) addr
  | none => table.getDockingNodeForAaa addr

end AaaTable

/-- The docking nodes, the best route and the decision are read without a suspension in
between. -/
def evaluateAgainstPolicy (topology : Graph) (fabric : Fabric) (table : AaaTable) (sides : Sides)
    (pkt : PacketDesc) (policy : PolicyView) : Except ServiceError PolicyOutcome :=
  if sides.source.expired table.now then .ok (.deny .sourceAuthError)
  else if sides.dest.expired table.now then .ok (.deny .destAuthError)
  else
    match table.resolveDocks fabric sides with
    | (none, _, _) => .ok (.deny .sourceNotFound)
    | (some _, none, _) => .ok (.deny .destNotFound)
    | (some srcDock, some dstDock, _) =>
      match topology.getBestRoute srcDock dstDock with
      | none => .ok (.deny .noRoute)
      | some defaultRoute =>
        match policy.evalRequest sides.source sides.dest pkt with
        | .error failure => .error failure
        | .ok (.deny (.noMatch _)) => .ok (.deny .noMatch)
        | .ok (.deny (.deny _)) => .ok (.deny .denied)
        | .ok (.allowWithoutRoute first others) =>
          .ok (.allow first others (some defaultRoute) srcDock dstDock)

/-! ### Requests -/

/-- What an allowed request was evaluated with. -/
structure Evaluated where
  fabric : Fabric
  table : AaaTable
  sides : Sides
  policy : PolicyView
  first : Hit
  defaultRoute : Option Route
  srcDock : IpAddr
  dstDock : IpAddr

/-- Where a request is suspended. -/
inductive RequestStage where
  | received
  /-- The early check has passed; the attributes are refreshed. -/
  | checked (sides : Sides)
  /-- The actor of the source is read again. -/
  | allowed (evaluated : Evaluated)
  /-- The visa has its path; it is given an id and keys. -/
  | created (evaluated : Evaluated) (draft : VisaDraft)
  | finished

structure PendingRequest where
  job : VisaRequestJob
  stage : RequestStage

/-- Of a request that is to have its path written down. -/
def PendingRequest.evaluated? (request : PendingRequest) : Option Evaluated :=
  match request.stage with
  | .allowed evaluated => some evaluated
  | _ => none

/-- A visa in the store, with what its request was evaluated with. -/
structure StoredVisa where
  evaluated : Evaluated
  metadata : VisaMetadata

structure Arena where
  fabric : Fabric
  table : AaaTable
  requests : List PendingRequest
  stored : List StoredVisa

inductive ArenaEvent where
  | submit (job : VisaRequestJob)
  /-- The sides as they are found in the database, and the early check. -/
  | check (index : Nat) (sourceActor destActor : Option Actor)
      (hasAuthServices : IpAddr → Except ServiceError Bool)
  /-- The sides with refreshed attributes, and the current policy. -/
  | evaluate (index : Nat) (source dest : Party) (policy : PolicyView)
  /-- The path is written down; `found` is what the database has for the source. -/
  | orient (index : Nat) (found : Option Actor)
  | store (index : Nat) (now : Nat)
  /-- The request ends without a visa of its own: with a bootstrap visa, a denial or an error. -/
  | finish (index : Nat)
  /-- Adapters dock and undock, anonymous ones are registered, and time passes. -/
  | redock (fabric : Fabric) (table : AaaTable)

namespace Arena

variable {topology : Graph}

/-- What creating a visa reads: the policy it was evaluated under, and the docking state of
now. -/
def flowEnv (topology : Graph) (arena : Arena) (evaluated : Evaluated) (found : Option Actor) :
    FlowEnv where
  evaluate pkt := evaluateAgainstPolicy topology arena.fabric arena.table evaluated.sides pkt
    evaluated.policy
  dockingNodeForAddr addr := (arena.table.dockingNodeForAddr arena.fabric found addr).1
  routeToPath route starting := (topology.routeToPath route starting).mapError (·.toServiceError)
  expiration := evaluated.policy.expiration evaluated.sides.source evaluated.sides.dest
  policyVersion := evaluated.policy.version
  cpolSource := evaluated.policy.cpolSource

def setStage (arena : Arena) (index : Nat) (job : VisaRequestJob) (stage : RequestStage) : Arena :=
  { arena with requests := arena.requests.set index ⟨job, stage⟩ }

/-- The early check: both sides have an address, and the requester docks one of them. -/
def checkRequester (arena : Arena) (job : VisaRequestJob) (source dest : Party) : Option Sides :=
  match source.zprAddr, dest.zprAddr with
  | some sourceAddr, some destAddr =>
    let sides : Sides := ⟨source, dest, sourceAddr, destAddr⟩
    let (srcDock, dstDock, _) := arena.table.resolveDocks arena.fabric sides
    if srcDock ≠ some job.requestingNode ∧ dstDock ≠ some job.requestingNode then none
    else some sides
  | _, _ => none

def step [IpNet] (topology : Graph) (arena : Arena) : ArenaEvent → Option Arena
  | .submit job => some { arena with requests := arena.requests ++ [⟨job, .received⟩] }
  | .check index sourceActor destActor hasAuthServices =>
    match arena.requests[index]? with
    | some ⟨job, .received⟩ =>
      match arena.table.resolveActorsOrDeny job sourceActor destActor hasAuthServices with
      | (.error _, table) => some ({ arena with table }.setStage index job .finished)
      | (.ok (source, dest), table) =>
        let arena := { arena with table }
        match arena.checkRequester job source dest with
        | some sides => some (arena.setStage index job (.checked sides))
        | none => some (arena.setStage index job .finished)
    | _ => none
  | .evaluate index source dest policy =>
    match arena.requests[index]? with
    | some ⟨job, .checked sides⟩ =>
      let sides := { sides with source, dest }
      match evaluateAgainstPolicy topology arena.fabric arena.table sides job.packetDesc
        policy with
      | .ok (.allow first _ defaultRoute srcDock dstDock) =>
        if srcDock ≠ job.requestingNode ∧ dstDock ≠ job.requestingNode then
          some (arena.setStage index job .finished)
        else
          some (arena.setStage index job (.allowed
            ⟨arena.fabric, arena.table, sides, policy, first, defaultRoute, srcDock, dstDock⟩))
      | .ok (.deny _) => some (arena.setStage index job .finished)
      | .error _ => some (arena.setStage index job .finished)
    | _ => none
  | .orient index found =>
    match arena.requests[index]? with
    | some ⟨job, .allowed evaluated⟩ =>
      match visaFromAllow (arena.flowEnv topology evaluated found) evaluated.table.now
        evaluated.policy.vinst job evaluated.first evaluated.defaultRoute with
      | .ok (.create draft) => some (arena.setStage index job (.created evaluated draft))
      | .ok (.deny _) => some (arena.setStage index job .finished)
      | .error _ => some (arena.setStage index job .finished)
    | _ => none
  | .store index now =>
    match arena.requests[index]? with
    | some ⟨job, .created evaluated draft⟩ =>
      some { arena.setStage index job .finished with
        stored := ⟨evaluated, draft.metadata now⟩ :: arena.stored }
    | _ => none
  | .finish index =>
    match arena.requests[index]? with
    | some ⟨job, _⟩ => some (arena.setStage index job .finished)
    | none => none
  | .redock fabric table => some { arena with fabric, table }

end Arena

/-! ### What an evaluation settles -/

/-- The docking nodes are those of the evaluation's moment, the requester is one of them, and
the route is the best one between them. -/
structure Evaluated.Sound (topology : Graph) (requestingNode : IpAddr) (evaluated : Evaluated) :
    Prop where
  docks : ∃ table, evaluated.table.resolveDocks evaluated.fabric evaluated.sides =
    (some evaluated.srcDock, some evaluated.dstDock, table)
  requester : requestingNode = evaluated.srcDock ∨ requestingNode = evaluated.dstDock
  hitRoute : evaluated.first.route = none
  route : ∃ route, evaluated.defaultRoute = some route ∧
    topology.getBestRoute evaluated.srcDock evaluated.dstDock = some route

/-- The path goes from the source's docking node to the destination's over the links of the
evaluated route. -/
structure Evaluated.Binds (topology : Graph) (evaluated : Evaluated) (path : List IpAddr) :
    Prop where
  starts : path.head? = some evaluated.srcDock
  ends : path.getLast? = some evaluated.dstDock
  follows : ∃ route steps, topology.getBestRoute evaluated.srcDock evaluated.dstDock = some route ∧
    Walk topology.Joins evaluated.srcDock steps evaluated.dstDock ∧
    steps.map Prod.fst = route.links ∧ path = evaluated.srcDock :: steps.map Prod.snd

variable {first : Hit}

variable {defaultRoute : Option Route} {env : FlowEnv} {now vinst : Nat} {job : VisaRequestJob}
variable {draft : VisaDraft}

theorem evaluateAgainstPolicy_allow {topology : Graph} {fabric : Fabric} {table : AaaTable}
    {sides : Sides} {pkt : PacketDesc} {policy : PolicyView} {others : List Hit}
    {srcDock dstDock : IpAddr}
    (allowed : evaluateAgainstPolicy topology fabric table sides pkt policy =
      .ok (.allow first others defaultRoute srcDock dstDock)) :
    (∃ after, table.resolveDocks fabric sides = (some srcDock, some dstDock, after)) ∧
      first.route = none ∧
      ∃ route, defaultRoute = some route ∧ topology.getBestRoute srcDock dstDock = some route := by
  unfold evaluateAgainstPolicy at allowed
  split at allowed
  · cases allowed
  split at allowed
  · cases allowed
  split at allowed
  · cases allowed
  · cases allowed
  next src dst after resolved =>
    split at allowed
    · cases allowed
    next route isRoute =>
      split at allowed
      · cases allowed
      · cases allowed
      · cases allowed
      next evaluated =>
        cases allowed
        exact ⟨⟨after, resolved⟩, PolicyView.evalRequest_route evaluated, route, rfl, isRoute⟩

/-- The path of a created visa is the route as it is followed from the docking node of now. -/
theorem visaFromAllow_path {route : Route} {path : List IpAddr} (noRoute : first.route = none)
    (created : visaFromAllow env now vinst job first (some route) = .ok (.create draft))
    (isPath : draft.path = some path) :
    route.kind = .multihop ∧ ∃ ingress,
      env.dockingNodeForAddr job.packetDesc.fiveTuple.sourceAddr = some ingress ∧
      env.routeToPath route ingress = .ok path := by
  have chosen : routeForAllow first (some route) = .ok route := by
    simp only [routeForAllow, noRoute]
  simp only [visaFromAllow, bind, Except.bind, chosen, pure, Except.pure] at created
  split at created
  · cases created
  split at created
  · cases created
  split at created
  · cases created
  next flowPath followed =>
    split at created
    · cases created
    cases created
    cases isPath
    unfold pathForFlow at followed
    split at followed
    · cases followed
    next isMultihop =>
      split at followed
      · cases followed
      next ingress isIngress =>
        split at followed
        · cases followed
        next found isFound =>
          cases followed
          exact ⟨isMultihop, ingress, isIngress, isFound⟩

theorem visaFromAllow_job
    (created : visaFromAllow env now vinst job first defaultRoute = .ok (.create draft)) :
    draft.job = job := by
  simp only [visaFromAllow, bind, Except.bind, pure, Except.pure] at created
  repeat' split at created
  all_goals cases created
  rfl

def PendingRequest.Settled (topology : Graph) (request : PendingRequest) : Prop :=
  match request.stage with
  | .allowed evaluated => evaluated.Sound topology request.job.requestingNode
  | .created evaluated draft => draft.job = request.job ∧
      evaluated.Sound topology request.job.requestingNode ∧
      ∀ path, draft.path = some path → evaluated.Binds topology path
  | _ => True

/-- The requester docked a side when policy was evaluated, and the path is that of the
evaluated route. -/
structure StoredVisa.Bound (topology : Graph) (visa : StoredVisa) : Prop where
  evaluated : visa.evaluated.Sound topology visa.metadata.requestingNode
  path : ∀ path, visa.metadata.path = some path → visa.evaluated.Binds topology path

namespace Arena

variable {topology : Graph} {arena next final : Arena} {events : List ArenaEvent}

/-- When the path of a single link is written down, the source is not found at the docking node
of the destination. -/
def Anchored (arena : Arena) : ArenaEvent → Prop
  | .orient index found =>
    ∀ request ∈ arena.requests[index]?, ∀ evaluated ∈ request.evaluated?,
      ∀ route ∈ evaluated.defaultRoute, route.links.length = 1 →
        (arena.table.dockingNodeForAddr arena.fabric found
          request.job.packetDesc.fiveTuple.sourceAddr).1 ≠ some evaluated.dstDock
  | _ => True

instance (arena : Arena) : (event : ArenaEvent) → Decidable (arena.Anchored event)
  | .orient .. => inferInstanceAs (Decidable (∀ _ ∈ _, ∀ _ ∈ _, ∀ _ ∈ _, _ → _))
  | .submit _ | .check .. | .evaluate .. | .store .. | .finish _ | .redock .. => isTrue trivial

variable {job : VisaRequestJob}

theorem binds_of_orient (sound : topology.Sound) {evaluated : Evaluated}
    (isSound : evaluated.Sound topology job.requestingNode) {found : Option Actor}
    {draft : VisaDraft}
    (created : visaFromAllow (arena.flowEnv topology evaluated found) evaluated.table.now
      evaluated.policy.vinst job evaluated.first evaluated.defaultRoute = .ok (.create draft))
    (anchored : ∀ route, evaluated.defaultRoute = some route → route.links.length = 1 →
      (arena.table.dockingNodeForAddr arena.fabric found
        job.packetDesc.fiveTuple.sourceAddr).1 ≠ some evaluated.dstDock) {path : List IpAddr}
    (isPath : draft.path = some path) : evaluated.Binds topology path := by
  obtain ⟨route, isRoute, isBest⟩ := isSound.route
  rw [isRoute] at created
  obtain ⟨isMultihop, ingress, isIngress, mapped⟩ :=
    visaFromAllow_path isSound.hitRoute created isPath
  obtain ⟨apart, isSimple⟩ := sound.getBestRoute_multihop isBest isMultihop
  obtain ⟨kind, links, cost⟩ := route
  cases isMultihop
  have followed : topology.routeToPath ⟨.multihop, links, cost⟩ ingress = .ok path := by
    change (topology.routeToPath ⟨.multihop, links, cost⟩ ingress).mapError _ = .ok path at mapped
    cases led : topology.routeToPath ⟨.multihop, links, cost⟩ ingress with
    | error failure =>
      rw [led] at mapped
      cases mapped
    | ok nodes =>
      rw [led] at mapped
      cases mapped
      rfl
  -- from any other node the route cannot be followed
  have atSource : ingress = evaluated.srcDock := by
    rcases Graph.starts_of_routeToPath sound.wf isSimple apart followed with same | ⟨turned, single⟩
    · exact same
    · rw [turned] at isIngress
      exact absurd isIngress (anchored _ isRoute single)
  obtain ⟨steps, ⟨walk, -⟩, isLinks, isFollowed⟩ :=
    @Graph.routeToPath_of_simplePath _ _ _ _ cost sound.wf isSimple
  rw [atSource, isFollowed] at followed
  cases followed
  exact ⟨rfl, walk.getLast?, _, steps, isBest, walk, isLinks, rfl⟩

/-! ### Every run -/

structure Inv (topology : Graph) (arena : Arena) : Prop where
  requests : ∀ request ∈ arena.requests, request.Settled topology
  stored : ∀ visa ∈ arena.stored, visa.Bound topology

theorem Inv.setStage (inv : arena.Inv topology) (index : Nat) {stage : RequestStage}
    (settled : PendingRequest.Settled topology ⟨job, stage⟩) :
    (arena.setStage index job stage).Inv topology := by
  refine ⟨fun request member => ?_, inv.stored⟩
  rcases List.mem_or_eq_of_mem_set member with old | rfl
  · exact inv.requests request old
  · exact settled

section Steps

variable [IpNet] {index : Nat} (inv : arena.Inv topology)
include inv

theorem Inv.check {sourceActor destActor : Option Actor}
    {hasAuthServices : IpAddr → Except ServiceError Bool}
    (stepped : step topology arena (.check index sourceActor destActor hasAuthServices) = some next) :
    next.Inv topology := by
  have moved (table : AaaTable) : ({ arena with table } : Arena).Inv topology := { inv with }
  simp only [Arena.step] at stepped
  split at stepped
  · split at stepped
    · cases stepped
      exact (moved _).setStage index trivial
    · split at stepped <;> cases stepped
      · exact (moved _).setStage index trivial
      · exact (moved _).setStage index trivial
  · cases stepped

/-- An allowed request carries the docks and the route it was evaluated with. -/
theorem Inv.evaluate {source dest : Party} {policy : PolicyView}
    (stepped : step topology arena (.evaluate index source dest policy) = some next) :
    next.Inv topology := by
  simp only [Arena.step] at stepped
  split at stepped
  next job sides isRequest =>
    split at stepped
    next first others defaultRoute srcDock dstDock allowed =>
      obtain ⟨docks, noRoute, isRoute⟩ := evaluateAgainstPolicy_allow allowed
      split at stepped
      · cases stepped
        exact inv.setStage index trivial
      next bound =>
        cases stepped
        refine inv.setStage index ⟨docks, ?_, noRoute, isRoute⟩
        by_cases atSource : srcDock = job.requestingNode
        · exact .inl atSource.symm
        · exact .inr (not_ne_iff.mp fun elsewhere => bound ⟨atSource, elsewhere.symm⟩)
    · cases stepped
      exact inv.setStage index trivial
    · cases stepped
      exact inv.setStage index trivial
  · cases stepped

theorem Inv.orient (sound : topology.Sound) {found : Option Actor}
    (anchored : arena.Anchored (.orient index found))
    (stepped : step topology arena (.orient index found) = some next) : next.Inv topology := by
  simp only [Arena.step] at stepped
  split at stepped
  next job evaluated isRequest =>
    have isSound : evaluated.Sound topology job.requestingNode :=
      inv.requests _ (List.mem_of_getElem? isRequest)
    split at stepped
    next draft created =>
      cases stepped
      refine inv.setStage index ⟨visaFromAllow_job created, isSound, fun path isPath => ?_⟩
      exact binds_of_orient sound isSound created (anchored _ isRequest _ rfl) isPath
    · cases stepped
      exact inv.setStage index trivial
    · cases stepped
      exact inv.setStage index trivial
  · cases stepped

theorem Inv.store {now : Nat}
    (stepped : step topology arena (.store index now) = some next) : next.Inv topology := by
  simp only [Arena.step] at stepped
  split at stepped
  next job evaluated draft isRequest =>
    cases stepped
    obtain ⟨isJob, isSound, binds⟩ : draft.job = job ∧ _ ∧ _ :=
      inv.requests _ (List.mem_of_getElem? isRequest)
    have closed : (arena.setStage index job .finished).Inv topology := inv.setStage index trivial
    refine ⟨closed.requests, fun visa member => ?_⟩
    rcases List.mem_cons.mp member with rfl | old
    · subst isJob
      exact ⟨isSound, binds⟩
    · exact inv.stored visa old
  · cases stepped

theorem Inv.step (sound : topology.Sound) {event : ArenaEvent} (anchored : arena.Anchored event)
    (stepped : step topology arena event = some next) : next.Inv topology := by
  cases event with
  | submit job =>
    cases stepped
    refine ⟨fun request member => ?_, inv.stored⟩
    rcases List.mem_append.mp member with old | new
    · exact inv.requests request old
    · cases List.mem_singleton.mp new
      trivial
  | check => exact inv.check stepped
  | evaluate => exact inv.evaluate stepped
  | orient => exact inv.orient sound anchored stepped
  | store => exact inv.store stepped
  | finish index =>
    simp only [Arena.step] at stepped
    split at stepped
    · cases stepped
      exact inv.setStage index trivial
    · cases stepped
  | redock fabric table =>
    cases stepped
    exact { inv with }

end Steps

/-- However adapters move while requests are processed, the visas that are stored are bound to
what their requests were evaluated with. -/
theorem path_binds [IpNet] {calls : List RouterEvent} {routing : Routing}
    (routed : run Routing.step .init calls = some routing)
    (fresh : arena.requests = [] ∧ arena.stored = [])
    (anchored : Meets (step routing.router.topology) Anchored arena events)
    (ran : run (step routing.router.topology) arena events = some final) :
    ∀ visa ∈ final.stored, visa.Bound routing.router.topology := by
  have sound := routed_of_reachable routed
  have start : arena.Inv routing.router.topology := ⟨by simp [fresh.1], by simp [fresh.2]⟩
  exact (run_preserves_of_meets (fun _ _ _ inv anchored stepped => inv.step sound anchored stepped)
    start anchored ran).stored

end Arena

namespace BindingSample

open Arena

def gatewayAddr : IpAddr := .v6 0xfd5a505290de00010000000000000010
def relayAddr : IpAddr := .v6 0xfd5a505290de00010000000000000011
def laptopAddr : IpAddr := .v6 0xfd5a5052adda00010000000000000001
def printerAddr : IpAddr := .v6 0xfd5a5052adda00010000000000000002

def calls : List RouterEvent :=
  [.addNode gatewayAddr, .addNode relayAddr, .addLink gatewayAddr relayAddr "wire" [] 1].map
    (⟨.ascending, ·⟩)

def routing : Routing := (run Routing.step .init calls).getD .init

theorem routing_ran : run Routing.step .init calls = some routing :=
  run_eq_some_getD (by decide +kernel) _

def adapter (addr : IpAddr) : Actor :=
  { stampAttribute .new 0 Key.role roleAdapter with zprAddr := some addr }

def docked (laptopDock : IpAddr) : Fabric :=
  ⟨((∅ : HashSet IpAddr).insert gatewayAddr).insert relayAddr,
    ((∅ : HashMap IpAddr IpAddr).insert laptopAddr laptopDock).insert printerAddr relayAddr⟩

def noAaa : AaaTable := ⟨0, ∅, []⟩

def empty : Arena := ⟨docked gatewayAddr, noAaa, [], []⟩

def permissive : PolicyView where
  hasReader := true
  hasComPolicies := true
  matchPolicies allow _ _ _ := .ok (if allow then [⟨0, .forward, none⟩] else [])
  expiration _ _ _ := .ok (60 * nanosPerSec)
  version := some 1
  vinst := 1
  cpolSource _ := some "allow laptops to access printers"

/-- The gateway asks for a flow from the laptop to the printer, and policy allows it. -/
def asked : List ArenaEvent :=
  [.submit ⟨gatewayAddr, ⟨⟨laptopAddr, printerAddr, 6, 40000, 631⟩, .biDirectional⟩⟩,
    .check 0 (some (adapter laptopAddr)) (some (adapter printerAddr)) fun _ => .ok false,
    .evaluate 0 (.stored (adapter laptopAddr)) (.stored (adapter printerAddr)) permissive]

def issued : List ArenaEvent := [.orient 0 (some (adapter laptopAddr)), .store 0 0]

def after (events : List ArenaEvent) : Arena :=
  (run (step routing.router.topology) empty events).getD empty

/-- The laptop moves to the relay after policy was evaluated, and the path of its flow to the
printer is stored as leading from the relay to the gateway. -/
theorem path_reversed :
    ¬ ∀ (calls : List RouterEvent) (routing : Routing) (start arena : Arena)
        (events : List ArenaEvent), run Routing.step .init calls = some routing →
      start.requests = [] ∧ start.stored = [] →
        run (step routing.router.topology) start events = some arena →
          ∀ visa ∈ arena.stored, visa.Bound routing.router.topology := by
  intro always
  have ran : run (step routing.router.topology) empty
      (asked ++ .redock (docked relayAddr) noAaa :: issued) =
      some (after (asked ++ .redock (docked relayAddr) noAaa :: issued)) :=
    run_eq_some_getD (by decide +kernel) _
  obtain ⟨visa, stored, isPath, isDock⟩ :
      ∃ visa ∈ (after (asked ++ .redock (docked relayAddr) noAaa :: issued)).stored,
        visa.metadata.path = some [relayAddr, gatewayAddr] ∧
          visa.evaluated.srcDock = gatewayAddr := by decide +kernel
  have starts := ((always calls routing empty _ _ routing_ran ⟨rfl, rfl⟩ ran visa stored).path _
    isPath).starts
  rw [isDock] at starts
  exact absurd starts (by decide)

theorem issued_anchored : Meets (step routing.router.topology) Anchored empty (asked ++ issued) := by
  decide +kernel

/-- Without a move the path leads from the gateway to the relay. -/
theorem path_issued :
    ∃ visa ∈ (after (asked ++ issued)).stored,
      visa.metadata.path = some [gatewayAddr, relayAddr] ∧
        visa.Bound routing.router.topology := by
  have ran : run (step routing.router.topology) empty (asked ++ issued) =
      some (after (asked ++ issued)) := run_eq_some_getD (by decide +kernel) _
  obtain ⟨visa, stored, isPath⟩ : ∃ visa ∈ (after (asked ++ issued)).stored,
      visa.metadata.path = some [gatewayAddr, relayAddr] := by decide +kernel
  exact ⟨visa, stored, isPath,
    path_binds routing_ran ⟨rfl, rfl⟩ issued_anchored ran visa stored⟩

end BindingSample

end VisaService
