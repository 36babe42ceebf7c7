import VisaService.Eval.Join
import VisaService.Router.RouteCache

/-!
# The topology manager

The manager keeps the router's graph and, in the database, the set of its edges, from which the
graph is rebuilt at a restart. After a policy update `revalidateAgainstPolicy` goes through the
edges of both: an edge that policy does not describe is dropped, one whose description has changed
is replaced, and one that is missing on either side is repaired. The pass decides every edge
before it changes anything, and refuses a policy that gives two of the remaining edges the same
link id.
-/
namespace VisaService

open Lib

/-! ### Links of a policy -/

/-- An edge between two nodes as policy declares it; the substrate addresses are left out. -/
structure Peering where
  linkId : LinkId
  nodeA : IpAddr
  nodeB : IpAddr
  attributes : List AttrExp
  deriving DecidableEq, Repr

/-- A link as seen from one of its ends. -/
structure Peer where
  linkId : LinkId
  remoteZprAddr : IpAddr
  deriving DecidableEq, Repr

structure LinkDescription where
  linkId : LinkId
  attrs : List Attribute
  cost : UInt32
  deriving DecidableEq, Repr

def pushPeer (table : HashMap IpAddr (List Peer)) (node : IpAddr) (peer : Peer) :
    HashMap IpAddr (List Peer) :=
  table.insert node (table[node]?.getD [] ++ [peer])

/-- Every peering is entered at both of its ends. -/
def loadPeerTable (peerings : List Peering) : HashMap IpAddr (List Peer) :=
  peerings.foldl (fun table p =>
    pushPeer (pushPeer table p.nodeA ⟨p.linkId, p.nodeB⟩) p.nodeB ⟨p.linkId, p.nodeA⟩) ∅

def loadLinkAttrs (peerings : List Peering) : HashMap LinkId (List AttrExp) :=
  peerings.foldl (fun table p => table.insert p.linkId p.attributes) ∅

def defaultLinkCost : UInt32 := 1

def Key.linkCost : String := "link.zpr.cost"

def parseI32 (text : String) : Option Int :=
  let (negative, digits) := match text.toList with
    | '-' :: rest => (true, rest)
    | '+' :: rest => (false, rest)
    | chars => (false, chars)
  if digits.isEmpty || !digits.all Char.isDigit then none
  else
    let value := digits.foldl (fun value digit => value * 10 + (digit.toNat - '0'.toNat)) 0
    if negative then (if value ≤ 2 ^ 31 then some (-value) else none)
    else if value < 2 ^ 31 then some value else none

/-- The first cost attribute decides; a cost that is not a positive number is the default. -/
def getLinkCost (attrs : List Attribute) : UInt32 :=
  match attrs.find? fun attr => attr.key == Key.linkCost with
  | none => defaultLinkCost
  | some attr =>
    let value := (attr.getSingleValue.bind parseI32).getD 1
    if 0 < value then UInt32.ofNat value.toNat else defaultLinkCost

/-- What the topology manager reads from a policy. -/
structure LinkPolicy where
  peerTable : HashMap IpAddr (List Peer)
  linkAttrs : HashMap LinkId (List AttrExp)

namespace LinkPolicy

def ofPeerings (peerings : List Peering) : LinkPolicy :=
  ⟨loadPeerTable peerings, loadLinkAttrs peerings⟩

def attributesForLink (policy : LinkPolicy) (now : Nat) (linkId : LinkId) : List Attribute :=
  (policy.linkAttrs[linkId]?.getD []).map fun exp => .internal now exp.key exp.value

/-- The first peering between the two nodes. -/
def describeLink (policy : LinkPolicy) (now : Nat) (a b : IpAddr) :
    Except TopologyError LinkDescription :=
  match (policy.peerTable[a]?.getD []).find? fun peer => peer.remoteZprAddr == b with
  | some peer =>
    let attrs := policy.attributesForLink now peer.linkId
    .ok ⟨peer.linkId, attrs, getLinkCost attrs⟩
  | none => .error (.linkNotFound s!"{a.display} <-> {b.display}")

/-- Stored edges have no direction, so the link is looked for both ways. -/
def describeLinkEither (policy : LinkPolicy) (now : Nat) (a b : IpAddr) :
    Except TopologyError LinkDescription :=
  match policy.describeLink now a b with
  | .error (.linkNotFound _) => policy.describeLink now b a
  | other => other

end LinkPolicy

/-! ### Stored edges -/

structure Edge where
  a : IpAddr
  b : IpAddr
  deriving DecidableEq, Repr

namespace Edge

/-- Position in the order of the sets of edges. -/
def code (edge : Edge) : List Nat := [edge.a.rank, edge.b.rank]

instance : Ord Edge := ⟨compareOn code⟩

instance : Std.TransOrd Edge := inferInstanceAs (Std.TransCmp (compareOn _))

/-- `canonical_pair`: the ends in the order of addresses. -/
def canonicalPair (a b : IpAddr) : Edge := if a.rank ≤ b.rank then ⟨a, b⟩ else ⟨b, a⟩

end Edge

/-- `ZAddr`: an address in a database key. -/
def IpAddr.zaddr (addr : IpAddr) : String :=
  match addr with
  | .v4 _ => addr.display
  | .v6 _ => String.ofList (addr.display.toList.map fun c => if c = ':' then '-' else c)

/-- `LinkRepo::canonical`: the ends in the order of their texts, as read back from the member of
the set. -/
def Edge.canonical (a b : IpAddr) : Edge :=
  if b.zaddr < a.zaddr then ⟨b, a⟩ else ⟨a, b⟩

/-- How a write of one edge goes. -/
inductive EdgeWrite where
  | done
  /-- It fails without effect. -/
  | rejected
  /-- It goes through, but the reply is lost. -/
  | unanswered
  deriving DecidableEq, Repr

/-- How the database answers the topology manager, and the order in which hash sets are
iterated. -/
structure TopologyAnswer where
  listFails : Bool
  write : Edge → EdgeWrite
  links : SetOrder LinkId
  edges : SetOrder Edge

structure TopologyAnswer.Fine (answer : TopologyAnswer) : Prop where
  lists : answer.listFails = false
  writes : ∀ edge, answer.write edge = .done

/-! ### The manager -/

structure TopologyMgr where
  router : Router
  /-- The set `topology:edges`. -/
  edges : HashSet Edge

structure RouterLink where
  id : LinkId
  link : Link

namespace Router

def linkBetween (order : SetOrder LinkId) (router : Router) (a b : IpAddr) : Option RouterLink :=
  (router.topology.linkIdBetween order a b).bind fun id =>
    router.topology.edges[id]?.map fun link => ⟨id, link⟩

/-- The other ends of the links at a node. An id without a link makes it empty. -/
def getPeers (order : SetOrder LinkId) (router : Router) (addr : IpAddr) : List IpAddr :=
  ((router.topology.nodes[addr]?.bind fun node =>
    (order.list node.edges).mapM fun id =>
      router.topology.edges[id]?.map fun link => link.other addr)).getD []

end Router

/-- Attributes are compared by keys and values, in any order. -/
def attributesEquivalent (first second : List Attribute) : Bool :=
  let content (attr : Attribute) := (attr.key, attr.value)
  decide ((first.map content).Perm (second.map content))

inductive EdgeDecision where
  | install (desc : LinkDescription)
  | gc
  deriving DecidableEq, Repr

/-- How the router's link of a surviving edge has to change. -/
inductive EdgeAction where
  | keep
  | fresh
  | replace (old : LinkId)
  deriving DecidableEq, Repr

structure Surviving where
  edge : Edge
  persisted : Bool
  desc : LinkDescription
  action : EdgeAction

structure DroppedEdge where
  edge : Edge
  persisted : Bool
  oldId : Option LinkId

structure RevalidationReport where
  linksRemoved : Nat
  linksUpdated : Nat
  linksRepaired : Nat
  orphanedNodes : List IpAddr
  deriving DecidableEq, Repr

namespace TopologyMgr

def addNodeIfNotExists (mgr : TopologyMgr) (addr : IpAddr) : TopologyMgr :=
  { mgr with router := (mgr.router.addNode addr).1 }

def persistEdge (answer : TopologyAnswer) (mgr : TopologyMgr) (a b : IpAddr) :
    Except StoreError Unit × TopologyMgr :=
  let edge := Edge.canonical a b
  match answer.write edge with
  | .done => (.ok (), { mgr with edges := mgr.edges.insert edge })
  | .rejected => (.error .redis, mgr)
  | .unanswered => (.error .redis, { mgr with edges := mgr.edges.insert edge })

/-- A failure is only logged. -/
def removeEdge (answer : TopologyAnswer) (mgr : TopologyMgr) (a b : IpAddr) : TopologyMgr :=
  let edge := Edge.canonical a b
  match answer.write edge with
  | .done => { mgr with edges := mgr.edges.erase edge }
  | .rejected => mgr
  | .unanswered => { mgr with edges := mgr.edges.erase edge }

/-- The edges to the router's neighbours of the node, then the node with its links. -/
def removeNode (answer : TopologyAnswer) (mgr : TopologyMgr) (addr : IpAddr) : TopologyMgr :=
  let peers := mgr.router.getPeers answer.links addr
  let stripped := peers.foldl (fun mgr peer => mgr.removeEdge answer addr peer) mgr
  { stripped with router := stripped.router.removeNode answer.links addr }

/-- Only a link that policy does not describe is collected; other errors are passed on. -/
def decideEdge (policy : LinkPolicy) (now : Nat) (known : HashSet IpAddr) (a b : IpAddr) :
    Except TopologyError EdgeDecision :=
  if a ∉ known ∨ b ∉ known then .ok .gc
  else
    match policy.describeLinkEither now a b with
    | .ok desc => .ok (.install desc)
    | .error (.linkNotFound _) => .ok .gc
    | .error failure => .error failure

def actionFor (routerLink : Option RouterLink) (desc : LinkDescription) : EdgeAction :=
  match routerLink with
  | none => .fresh
  | some rl =>
    if rl.id ≠ desc.linkId ∨ rl.link.cost ≠ desc.cost ∨
        attributesEquivalent rl.link.attributes desc.attrs = false then .replace rl.id
    else .keep

def decideEdges (policy : LinkPolicy) (now : Nat) (known : HashSet IpAddr)
    (order : SetOrder LinkId) (router : Router) (persistedSet : HashSet Edge) :
    List Edge → List Surviving × List DroppedEdge →
      Except TopologyError (List Surviving × List DroppedEdge)
  | [], decided => .ok decided
  | edge :: rest, (surviving, removals) =>
    let persisted := decide (edge ∈ persistedSet)
    let routerLink := router.linkBetween order edge.a edge.b
    match decideEdge policy now known edge.a edge.b with
    | .error failure => .error failure
    | .ok .gc =>
      decideEdges policy now known order router persistedSet rest
        (surviving, removals ++ [⟨edge, persisted, routerLink.map RouterLink.id⟩])
    | .ok (.install desc) =>
      decideEdges policy now known order router persistedSet rest
        (surviving ++ [⟨edge, persisted, desc, actionFor routerLink desc⟩], removals)

/-- Two surviving edges must not claim one link id. -/
def rejectCollisions : List Surviving → HashSet LinkId → Except TopologyError Unit
  | [], _ => .ok ()
  | item :: rest, claimed =>
    if item.desc.linkId ∈ claimed then .error (.linkExists item.desc.linkId)
    else rejectCollisions rest (claimed.insert item.desc.linkId)

/-- Store the surviving edges that only the router knows. -/
def persistMissing (answer : TopologyAnswer) :
    List Surviving → TopologyMgr → RevalidationReport →
      Except StoreError RevalidationReport × TopologyMgr
  | [], mgr, report => (.ok report, mgr)
  | item :: rest, mgr, report =>
    if item.persisted then persistMissing answer rest mgr report
    else
      match mgr.persistEdge answer item.edge.a item.edge.b with
      | (.error failure, mgr) => (.error failure, mgr)
      | (.ok _, mgr) =>
        persistMissing answer rest mgr { report with linksRepaired := report.linksRepaired + 1 }

def dropRemovals (answer : TopologyAnswer) (removals : List DroppedEdge) (mgr : TopologyMgr) :
    TopologyMgr :=
  removals.foldl (fun mgr item =>
    if item.persisted then mgr.removeEdge answer item.edge.a item.edge.b else mgr) mgr

def Surviving.spec (item : Surviving) : LinkSpec where
  a := item.edge.a
  b := item.edge.b
  id := item.desc.linkId
  attributes := item.desc.attrs
  cost := item.desc.cost

/-- The links to take out first: those of the collected edges, then the ones to be replaced. -/
def removalIds (surviving : List Surviving) (removals : List DroppedEdge) : List LinkId :=
  removals.filterMap DroppedEdge.oldId ++ surviving.filterMap fun item =>
    match item.action with
    | .replace old => some old
    | _ => none

def additions (surviving : List Surviving) : List LinkSpec :=
  (surviving.filter fun item => item.action ≠ .keep).map Surviving.spec

def finalReport (report : RevalidationReport) (surviving : List Surviving)
    (removals : List DroppedEdge) (orphanedNodes : List IpAddr) : RevalidationReport where
  linksRemoved := report.linksRemoved +
    (removals.filter fun item => item.oldId.isSome || item.persisted).length
  linksUpdated := report.linksUpdated + (removalIds surviving []).length
  linksRepaired := report.linksRepaired +
    (surviving.filter fun item => item.action = .fresh).length
  orphanedNodes := report.orphanedNodes ++ orphanedNodes

/-- The edges that the database or the router has, each once. -/
def workEdges (mgr : TopologyMgr) : HashSet Edge :=
  Std.ExtTreeSet.ofList
    (mgr.edges.toList.map (fun edge => Edge.canonicalPair edge.a edge.b) ++
      mgr.router.topology.edges.toList.map fun (_, link) => Edge.canonicalPair link.a link.b)
    compare

/-- The part after the decisions: the database first, then the router in one batch. -/
def applyDecisions (answer : TopologyAnswer) (mgr : TopologyMgr) (nodeAddrs : List IpAddr)
    (surviving : List Surviving) (removals : List DroppedEdge) :
    Except ServiceError RevalidationReport × TopologyMgr :=
  match persistMissing answer surviving mgr ⟨0, 0, 0, []⟩ with
  | (.error failure, mgr) => (.error (.store failure), mgr)
  | (.ok report, mgr) =>
    let dropped := dropRemovals answer removals mgr
    match dropped.router.applyLinkBatch answer.links (removalIds surviving removals)
      (additions surviving) with
    | (router, .error failure) => (.error failure.toServiceError, { dropped with router })
    | (router, .ok _) =>
      let orphaned := nodeAddrs.filter fun addr => (router.getPeers answer.links addr).isEmpty
      (.ok (finalReport report surviving removals orphaned), { dropped with router })

/-- Bring graph and stored edges in line with the policy. -/
def revalidateAgainstPolicy (answer : TopologyAnswer) (policy : LinkPolicy) (now : Nat)
    (mgr : TopologyMgr) (nodeAddrs : List IpAddr) :
    Except ServiceError RevalidationReport × TopologyMgr :=
  let known : HashSet IpAddr := Std.ExtTreeSet.ofList nodeAddrs compare
  let mgr := nodeAddrs.foldl addNodeIfNotExists mgr
  if answer.listFails then (.error (.store .redis), mgr)
  else
    let persistedSet : HashSet Edge := Std.ExtTreeSet.ofList
      (mgr.edges.toList.map fun edge => Edge.canonicalPair edge.a edge.b) compare
    match decideEdges policy now known answer.links mgr.router persistedSet
      (answer.edges.list mgr.workEdges) ([], []) with
    | .error failure => (.error failure.toServiceError, mgr)
    | .ok (surviving, removals) =>
      match rejectCollisions surviving ∅ with
      | .error failure => (.error failure.toServiceError, mgr)
      | .ok _ => mgr.applyDecisions answer nodeAddrs surviving removals

end TopologyMgr

end VisaService
