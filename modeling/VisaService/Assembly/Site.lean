import VisaService.Assembly.Sweeps
import VisaService.Lib.Run

/-!
# Connects, disconnects and startup

`Site` adds to the assembled state the stored node records and the nodes of the router. Its
operations are the calls of the API that admit an actor or let one go, and the startup of the
visa service. `ConnectAnswer` says how the database responds to each step of a connect; `Answer`
does so for the steps that remove things.

Credentials and policy have been checked when an operation begins: `Login` is the approved
actor, whose address is still to be settled.
-/
namespace VisaService

open Lib

/-! ### State and answers -/

structure Site (codec : VisaCodec) where
  asm : Assembly codec
  /-- The nodes with a record `node:<ZADDR>`. -/
  nodes : HashSet IpAddr
  router : HashSet IpAddr

/-- How the write of an actor record goes. -/
inductive RecordWrite where
  | done
  /-- It fails, and everything is as before. -/
  | unchanged
  /-- It fails, and no record is left at the address. -/
  | cleared
  /-- It fails, and some of the new record is left. -/
  | partly
  deriving DecidableEq, Repr

/-- How a link to a joining node is installed. -/
structure LinkAnswer where
  /-- The policy describes the link. -/
  described : Bool
  /-- The router has the link already. -/
  adjacent : Bool
  installFails : Bool
  persistFails : Bool

/-- How the steps of a connect go. -/
structure ConnectAnswer where
  base : Answer
  /-- The holder of a pre-set address cannot be read. -/
  lookupFails : Bool
  write : RecordWrite
  /-- The old state of a node cannot be dropped. -/
  dropFails : Bool
  /-- The record of a node cannot be written. -/
  nodeFails : Bool
  /-- The time when a node was last seen cannot be written. -/
  seenFails : Bool
  /-- An adapter cannot be added to the connections of its node. -/
  dockFails : Bool
  /-- The actor of the visa service cannot be read. -/
  vsLookupFails : Bool
  denylistFails : Bool
  /-- The event queue is closed. -/
  eventFails : Bool
  link : LinkAnswer

/-- An approved actor, where its pre-set address comes from, and the random draws for an
address from the pool. -/
structure Login where
  env : AuthEnv
  actor : Actor
  addrSource : String
  draws : List (BitVec 64)

variable {codec : VisaCodec}

def Actor.withZprAddr (actor : Actor) (now : Nat) (addr : IpAddr) : Actor :=
  { actor with
    attrs := actor.attrs.insert Key.zprAddr (.internal now Key.zprAddr [addr.display])
    zprAddr := some addr }

/-! ### Records and docks -/

namespace Assembly

/-- `add_actor_replacing`, or `add_actor`, which does not evict anybody. -/
def addActor (asm : Assembly codec) (write : RecordWrite) (addr : IpAddr) (actor : Actor)
    (replace : Bool) : Except StoreError Unit × Assembly codec :=
  let stored := { asm with actors := asm.actors.insert addr actor }
  match write with
  | .done =>
    if !replace && decide (addr ∈ asm.actors) then
      (.error (.addressOccupied s!"zpr address already held by a live actor: {addr.display}"), asm)
    else (.ok (), stored)
  | .unchanged => (.error .redis, asm)
  | .cleared => (.error .redis, { asm with actors := asm.actors.erase addr })
  | .partly => (.error .redis, stored)

/-- A record is rewritten in its role. -/
def updateActor (asm : Assembly codec) (write : RecordWrite) (addr : IpAddr) (actor : Actor) :
    Except StoreError Unit × Assembly codec :=
  let stored := { asm with actors := asm.actors.insert addr actor }
  match asm.actors[addr]? with
  | none => (.error (.notFound s!"update called on non-existant actor: {addr.display}"), asm)
  | some holder =>
    if holder.isNode ≠ actor.isNode then
      let role := if actor.isNode then "node" else "adapter"
      (.error (.invalidData
        s!"update fails since {role} actor not already in {role} role: {addr.display}"), asm)
    else
      match write with
      | .done => (.ok (), stored)
      | .partly => (.error .redis, stored)
      | .unchanged | .cleared => (.error .redis, asm)

/-- Record in the database and in memory where the adapter is docked. -/
def dock (asm : Assembly codec) (node addr : IpAddr) : Assembly codec :=
  { asm with
    connections := asm.connections.add node addr
    connectionTable := asm.connectionTable.insert addr node }

end Assembly

namespace Site

def authEnv (site : Site codec) (env : AuthEnv) (lookupFails : Bool) : AuthEnv :=
  { env with
    vsAddr := site.asm.vsAddr
    holderOf := fun addr =>
      if lookupFails then .error .redis else .ok site.asm.actors[addr]?
    isManagedAddress := NetMgr.isManagedAddress }

/-- A pre-set address is checked; an actor without one gets an address of its pool. -/
def settle (site : Site codec) (login : Login) (lookupFails : Bool) :
    Except ServiceError (Actor × IpAddr) × Site codec :=
  match login.actor.zprAddr with
  | some addr =>
    match settleAddress (site.authEnv login.env lookupFails) login.actor login.addrSource none with
    | .error failure => (.error failure, site)
    | .ok actor => (.ok (actor, addr), site)
  | none =>
    let role := if login.actor.isNode then Role.node else Role.adapter
    match site.asm.net.getNextZprAddr role login.draws with
    | (.error _, net) =>
      (.error (.internal "address assignment failed"), { site with asm := { site.asm with net } })
    | (.ok addr, net) =>
      (.ok (login.actor.withZprAddr login.env.now addr, addr),
        { site with asm := { site.asm with net } })

def releaseAddr (site : Site codec) (addr : IpAddr) : Site codec :=
  { site with asm := site.asm.releaseAddr addr }

def removeNode (site : Site codec) (node : IpAddr) : Site codec :=
  if site.asm.answer.nodeFails then site
  else { site with asm := site.asm.removeNode node, nodes := site.nodes.erase node }

/-- `ActorMgr::remove_actor_by_zpr_addr`, whose failure is ignored. -/
def removeActor (site : Site codec) (addr : IpAddr) : Site codec :=
  { site with asm := (site.asm.removeActorByZprAddr addr).2 }

def disconnect (site : Site codec) (addr : IpAddr) : Except ServiceError Unit × Site codec :=
  let departs := !site.asm.answer.fails && site.asm.actors[addr]?.any Actor.isNode
  ((site.asm.disconnect addr).1,
    { asm := (site.asm.disconnect addr).2
      nodes := if departs && !site.asm.answer.nodeFails then site.nodes.erase addr else site.nodes
      router := if departs then site.router.erase addr else site.router })

/-- Once the actor is stored, a denied one is disconnected again. An unreadable denylist
denies. -/
def enforceDenylistAfterPersist (site : Site codec) (denylistFails : Bool) (actor : Actor) :
    Except ServiceError Unit × Site codec :=
  if (actor.attrs[Key.deviceAuthority]?.bind Attribute.getSingleValue) =
      some authorityMethodBootstrap then
    match actor.getCn with
    | none => (.ok (), site)
    | some cn =>
      if cn = vsCn then (.ok (), site)
      else if denylistFails || decide (cn ∈ site.asm.denied) then
        (.error (.authenticationFailed "not authorized"),
          match actor.zprAddr with
          | some addr => (site.disconnect addr).2
          | none => site)
      else (.ok (), site)
  else (.ok (), site)

/-! ### Nodes -/

/-- Tear down what a node held before a fresh connect. -/
def resetNodeState (site : Site codec) (node : IpAddr) : Except ServiceError Unit × Site codec :=
  if site.asm.answer.adaptersFail then (.error (.store .redis), site)
  else
    let docked := site.asm.answer.order.list (site.asm.connections[node]?.getD ∅)
    let (departed, left) := site.asm.removeDepartedAdapters docked
    let redis := site.asm.answer.redis
    let revoked := left.visas.removeVisasForActors redis departed
    match revoked.call (.clearNodeState node) (redis (.clearNodeState node)) with
    | (cleared, .error failure) =>
      (.error (.store failure), { site with asm := { left with visas := cleared } })
    | (cleared, .ok _) =>
      (.ok (),
        { site with asm := { left with visas := cleared }, router := site.router.erase node })

/-- The actor record of a node: a fresh connect drops the node's old state, with the set of
its connections, and supersedes the record; a reconnect rewrites it. -/
def persistNode (site : Site codec) (answer : ConnectAnswer) (actor : Actor) (addr : IpAddr)
    (reconnect : Bool) : Except ServiceError Unit × Site codec :=
  if reconnect then
    match site.asm.updateActor answer.write addr actor with
    | (.error failure, asm) => (.error (.store failure), { site with asm })
    | (.ok _, asm) => (.ok (), { site with asm })
  else if answer.dropFails then (.error (.store .redis), site)
  else
    let dropped := { site.asm with connections := site.asm.connections.erase addr }
    let nodes := site.nodes.erase addr
    match dropped.addActor answer.write addr actor true with
    | (.error failure, asm) => (.error (.store failure), { site with asm, nodes })
    | (.ok _, asm) => (.ok (), { site with asm, nodes })

def addNode (site : Site codec) (answer : ConnectAnswer) (actor : Actor) (addr : IpAddr)
    (reconnect : Bool) : Except ServiceError Unit × Site codec :=
  if !actor.isNode then (.error (.internal "attempt to add non-node actor as node"), site)
  else
    match site.persistNode answer actor addr reconnect with
    | (.error failure, site) => (.error failure, site)
    | (.ok _, site) =>
      if answer.nodeFails then (.error (.store .redis), site)
      else
        let site := { site with nodes := site.nodes.insert addr }
        if answer.seenFails then (.error (.store .redis), site) else (.ok (), site)

/-- What an authentication has changed so far. -/
structure AuthenticateUndo where
  takenZprAddr : Option IpAddr
  actorMgrAddNode : Option IpAddr
  addedNodeToRouter : Option IpAddr

def undo (site : Site codec) (changes : AuthenticateUndo) : Site codec :=
  let site := match changes.addedNodeToRouter with
    | some addr => { site with router := site.router.erase addr }
    | none => site
  let site := match changes.actorMgrAddNode with
    | some addr => (site.removeNode addr).removeActor addr
    | none => site
  match changes.takenZprAddr with
  | some addr => site.releaseAddr addr
  | none => site

/-- A visa service without a dock is taken to be docked at the node. -/
def dockVisaService (site : Site codec) (answer : ConnectAnswer) (node : IpAddr) :
    Except ServiceError Unit × Site codec :=
  if answer.vsLookupFails then (.ok (), site)
  else
    match site.asm.actors[site.asm.vsAddr]? with
    | none => (.ok (), site)
    | some vs =>
      if (site.asm.getDockingNodeForActor vs).isSome then (.ok (), site)
      else if answer.dockFails then (.error (.store .redis), site)
      else (.ok (), { site with asm := site.asm.dock node vsZprAddr })

/-- The rest of an authentication, once the node is stored. -/
def joinNode (site : Site codec) (answer : ConnectAnswer) (actor : Actor) (addr : IpAddr)
    (changes : AuthenticateUndo) : Except ServiceError Unit × Site codec :=
  match site.dockVisaService answer addr with
  | (.error _, site) => (.error (.internal "vs docking node update failed"), site.undo changes)
  | (.ok _, site) =>
    let changes :=
      if addr ∈ site.router then changes else { changes with addedNodeToRouter := some addr }
    let site := { site with router := site.router.insert addr }
    if answer.eventFails then (.error (.internal "event enqueue failed"), site.undo changes)
    else site.enforceDenylistAfterPersist answer.denylistFails actor

/-- The part of an authentication that writes to the database. -/
def admitNode (site : Site codec) (answer : ConnectAnswer) (actor : Actor) (addr : IpAddr)
    (reconnect : Bool) (changes : AuthenticateUndo) : Except ServiceError Unit × Site codec :=
  match if reconnect then (.ok (), site) else site.resetNodeState addr with
  | (.error _, site) => (.error (.internal "failed to clear node state"), site.undo changes)
  | (.ok _, site) =>
    match site.addNode answer actor addr reconnect with
    | (.error _, site) => (.error (.internal "state update failed"), site.undo changes)
    | (.ok _, site) =>
      site.joinNode answer actor addr { changes with actorMgrAddNode := some addr }

/-- A node that joined over a link can only be reached at the address it asked for. -/
def authenticate (site : Site codec) (login : Login) (answer : ConnectAnswer) (reconnect : Bool)
    (requested : IpAddr) (overLink : Bool) : Except ServiceError Unit × Site codec :=
  match site.settle login answer.lookupFails with
  | (.error failure, site) => (.error failure, site)
  | (.ok (actor, addr), site) =>
    let changes : AuthenticateUndo :=
      ⟨if NetMgr.isManagedAddress addr then some addr else none, none, none⟩
    if addr ≠ requested ∧ overLink = true then
      (.error (.apiResponse .authError "requested zpr address not granted by policy"),
        site.undo changes)
    else if actor.getCn.isNone then
      (.error (.internal "assertion failed (CN)"), site.undo changes)
    else site.admitNode answer actor addr reconnect changes

/-! ### Adapters, and nodes over a link -/

inductive AddLinkedNodeError where
  | newNodeFailed
  | existingNodeFailed
  deriving DecidableEq, Repr

/-- Failures of a rollback are only logged. -/
def rollbackCreatedNode (site : Site codec) (addr : IpAddr) : Site codec :=
  ({ site with router := site.router.erase addr }.removeNode addr).removeActor addr

/-- A node that the router does not know is added to it and stored. -/
def addLinkedNode (site : Site codec) (answer : ConnectAnswer) (actor : Actor) (addr : IpAddr) :
    Except AddLinkedNodeError Unit × Site codec :=
  let failure : AddLinkedNodeError :=
    if addr ∈ site.router then .existingNodeFailed else .newNodeFailed
  let linkFails := answer.link.persistFails || (!answer.link.adjacent && answer.link.installFails)
  if !answer.link.described then (.error failure, site)
  else if addr ∈ site.router then
    if linkFails then (.error failure, site) else (.ok (), site)
  else
    match { site with router := site.router.insert addr }.addNode answer actor addr false with
    | (.error _, site) => (.error failure, { site with router := site.router.erase addr })
    | (.ok _, site) =>
      if linkFails then (.error failure, site.rollbackCreatedNode addr) else (.ok (), site)

/-- The record of the visa service itself is superseded. -/
def addAdapterViaNode (site : Site codec) (answer : ConnectAnswer) (actor : Actor)
    (addr via : IpAddr) : Except ServiceError Unit × Site codec :=
  match site.asm.addActor answer.write addr actor (isVisaService addr actor) with
  | (.error failure, asm) => (.error (.store failure), { site with asm })
  | (.ok _, asm) =>
    if answer.dockFails then (.error (.store .redis), { site with asm })
    else (.ok (), { site with asm := asm.dock via addr })

def authorizeConnect (site : Site codec) (login : Login) (answer : ConnectAnswer)
    (via : IpAddr) : Except ServiceError Unit × Site codec :=
  match site.settle login answer.lookupFails with
  | (.error failure, site) => (.error failure, site)
  | (.ok (actor, addr), site) =>
    if actor.isNode then
      match site.addLinkedNode answer actor addr with
      | (.error .newNodeFailed, site) =>
        (.error (.internal "state update failed"), site.releaseAddr addr)
      | (.error .existingNodeFailed, site) => (.error (.internal "state update failed"), site)
      | (.ok _, site) => site.enforceDenylistAfterPersist answer.denylistFails actor
    else
      match site.addAdapterViaNode answer actor addr via with
      | (.error _, site) => (.error (.internal "state update failed"), site.releaseAddr addr)
      | (.ok _, site) => site.enforceDenylistAfterPersist answer.denylistFails actor

/-! ### Startup -/

structure CulledNode where
  nodeAddr : IpAddr
  adapterAddrs : List IpAddr
  deriving DecidableEq

/-- The adapters in the stored connections of a node; for a node that stays, a failed read is
only logged. -/
def dockedAt (site : Site codec) (node : IpAddr) : List IpAddr :=
  if site.asm.answer.adaptersFail then []
  else site.asm.answer.order.list (site.asm.connections[node]?.getD ∅)

/-- The stored nodes that are culled, because they have no actor record or were seen too long
ago, and the docking table of the others. Nothing is deleted. -/
def refreshNodes (site : Site codec) (stale : IpAddr → Bool) :
    List IpAddr → List CulledNode × HashMap IpAddr IpAddr → List CulledNode × HashMap IpAddr IpAddr
  | [], state => state
  | node :: rest, (culled, table) =>
    if node ∉ site.asm.actors ∨ stale node = true then
      site.refreshNodes stale rest (culled ++ [⟨node, site.dockedAt node⟩], table)
    else
      site.refreshNodes stale rest
        (culled, (site.dockedAt node).foldl (fun table addr => table.insert addr node) table)

def refreshState (site : Site codec) (stale : IpAddr → Bool) :
    List CulledNode × HashMap IpAddr IpAddr :=
  site.refreshNodes stale (site.asm.answer.order.list site.nodes) ([], ∅)

/-- Reserve the pool addresses among those of the stored actors. -/
def takeAddrs : List IpAddr → NetMgr → Except ServiceError NetMgr
  | [], net => .ok net
  | addr :: rest, net =>
    if NetMgr.isManagedAddress addr then
      match net.takeZprAddr addr with
      | .error failure => .error failure
      | .ok net => takeAddrs rest net
    else takeAddrs rest net

/-- Remove what a culled node leaves behind, its own records last. -/
def teardownCulledNode (site : Site codec) (culled : CulledNode) : Site codec :=
  let redis := site.asm.answer.redis
  let (removed, left) := site.asm.removeDepartedAdapters culled.adapterAddrs
  let revoked := left.visas.removeVisasForActors redis removed
  let cleared := { left with
    visas := (revoked.call (.clearNodeState culled.nodeAddr)
      (redis (.clearNodeState culled.nodeAddr))).1 }
  match cleared.removeActorByZprAddr culled.nodeAddr with
  | (.error _, failed) => { site with asm := failed }
  | (.ok _, gone) =>
    if site.asm.answer.nodeFails then { site with asm := gone }
    else
      { site with
        asm := (gone.removeNode culled.nodeAddr).releaseAddr culled.nodeAddr
        nodes := site.nodes.erase culled.nodeAddr }

/-- The state in memory when the stored state has been read. -/
def started (site : Site codec) (net : NetMgr) (table : HashMap IpAddr IpAddr) : Site codec :=
  { site with
    asm := { site.asm with
      net
      connectionTable := table
      handles := ∅
      trusted := { site.asm.trusted with actorRevisions := ∅ }
      visas := site.asm.visas.restart }
    router := ∅ }

/-- The visa service authorizes itself and supersedes its own record. -/
def selfAuthorize (site : Site codec) (self : Login) : Site codec :=
  match site.settle self false with
  | (.error _, site) => site
  | (.ok (actor, addr), site) =>
    { site with asm := { site.asm with actors := site.asm.actors.insert addr actor } }

/-- A startup; when the stored state cannot be read there is none. -/
def restart (site : Site codec) (stale : IpAddr → Bool) (self : Login) : Option (Site codec) :=
  match site.asm.listActors none with
  | .error _ => none
  | .ok listed =>
    match takeAddrs listed .newV6 with
    | .error _ => none
    | .ok net =>
      let (culled, table) := site.refreshState stale
      if site.asm.answer.adaptersFail ∧ culled ≠ [] then none
      else
        let torn := culled.foldl teardownCulledNode (site.started net table)
        some ({ torn with router := torn.nodes }.selfAuthorize self)

end Site

/-! ### Runs -/

inductive SiteEvent where
  | authenticate (login : Login) (answer : ConnectAnswer) (reconnect : Bool) (requested : IpAddr)
      (overLink : Bool)
  /-- A stored node asks for an actor that connects through it. -/
  | authorizeConnect (login : Login) (answer : ConnectAnswer) (via : IpAddr)
  | disconnect (answer : Answer) (addr : IpAddr)

namespace Site

/-- From now on the database responds like this. -/
def answering (site : Site codec) (answer : Answer) : Site codec :=
  { site with asm := { site.asm with answer } }

def step (site : Site codec) : SiteEvent → Option (Site codec)
  | .authenticate login answer reconnect requested overLink =>
    some ((site.answering answer.base).authenticate login answer reconnect requested overLink).2
  | .authorizeConnect login answer via =>
    if site.asm.actors[via]?.any Actor.isNode then
      some ((site.answering answer.base).authorizeConnect login answer via).2
    else none
  | .disconnect answer addr => some ((site.answering answer).disconnect addr).2

end Site

/-! ### A node and its adapters -/

namespace SiteSample

def env : AuthEnv where
  now := 0
  policy := ⟨1, none, [], []⟩
  trustedServices := []
  vsAddr := vsZprAddr
  holderOf := fun _ => .ok none
  isZprAddr := fun _ => true
  isManagedAddress := fun _ => false
  getNextZprAddr := fun _ => none
  genJwt := fun subject _ => .ok subject
  hash := fun _ => 0

def fine : ConnectAnswer :=
  ⟨(SweepSample.idle).answer, false, .done, false, false, false, false, false, false, false,
    ⟨true, false, false, false⟩⟩

def gatewayAddr : IpAddr := .v6 0xfd5a5052000000000000000000000010

def actor (cn role : String) (zprAddr : Option IpAddr) : Actor where
  attrs := ((∅ : HashMap String Attribute).insert Key.cn (.internal 0 Key.cn [cn])).insert Key.role
    (.internal 0 Key.role [role])
  identityKeys := []
  zprAddr := zprAddr

/-- The address is pre-set, or the first of the pool. -/
def login (cn role : String) (zprAddr : Option IpAddr) : Login :=
  ⟨env, actor cn role zprAddr, "static", [1]⟩

def vacant : Site VisaCodec.plain := ⟨SweepSample.idle, ∅, ∅⟩

def gatewayJoins (answer : ConnectAnswer) (reconnect : Bool) : SiteEvent :=
  .authenticate (login "gateway" roleNode (some gatewayAddr)) answer reconnect gatewayAddr false

def printerJoins (answer : ConnectAnswer) : SiteEvent :=
  .authorizeConnect (login "printer" roleAdapter none) answer gatewayAddr

def printerAddr : IpAddr := SweepSample.addr 1

def after (start : Site VisaCodec.plain) (events : List SiteEvent) : Site VisaCodec.plain :=
  (run Site.step start events).getD start

end SiteSample

end VisaService
