import VisaService.Lib.Prog
import VisaService.Eval.Actor

/-!
# The actor database

Redis keys of the connected actors and the calls that `ActorRepo` makes on them. Every
function of the repository is a program over single database calls; nothing holds a lock from
one call to the next.

Keys and values are in decoded form. Redis drops a hash or set that becomes empty; here a key that
is present but empty is never written.
-/
namespace VisaService

open Lib

/-! ### Keys and calls -/

/-- The hash `actor:<ZADDR>`. -/
structure ActorRecord where
  identityKeys : Option (List String)
  ctime : Option String
  utime : Option String
  hostnameConflicts : Option (List String)

/-- The sets `nodes` and `adapters`. -/
inductive RoleSet where
  | nodes
  | adapters
  deriving DecidableEq, Repr

structure ActorDb where
  /-- `actor:<ZADDR>`. -/
  base : HashMap IpAddr ActorRecord
  /-- `actor:<ZADDR>:attrs`. -/
  attrs : HashMap IpAddr (HashMap String Attribute)
  /-- `actor:<ZADDR>:services`. -/
  services : Rows IpAddr String
  /-- `actor:<ZADDR>:hostnames`. -/
  hostnames : Rows IpAddr String
  /-- Field `zpr_addr` of `service:<NAME>`. -/
  service : HashMap String IpAddr
  /-- Field `zpr_addr` of `host:<NAME>`. -/
  host : HashMap String IpAddr
  nodes : HashSet IpAddr
  adapters : HashSet IpAddr

inductive ActorKey where
  | base (addr : IpAddr)
  | attrs (addr : IpAddr)
  | services (addr : IpAddr)
  | hostnames (addr : IpAddr)
  | service (name : String)
  | host (name : String)
  deriving DecidableEq, Repr

/-- A field of `actor:<ZADDR>` with the value to set. -/
inductive ActorField where
  | identityKeys (keys : List String)
  | utime (ts : String)
  | hostnameConflicts (names : List String)

/-- One command of a pipeline. -/
inductive DbOp where
  | del (key : ActorKey)
  | srem (set : RoleSet) (addr : IpAddr)
  | hsetAttr (addr : IpAddr) (attr : Attribute)

/-- A call of `DbConnection`, indexed by its reply. -/
inductive DbCall : Type → Type where
  | exists (key : ActorKey) : DbCall Bool
  | del (key : ActorKey) : DbCall Unit
  | sismemberRole (set : RoleSet) (addr : IpAddr) : DbCall Bool
  | smembersRole (set : RoleSet) : DbCall (HashSet IpAddr)
  | saddRole (set : RoleSet) (addr : IpAddr) : DbCall Unit
  | sismemberServices (addr : IpAddr) (name : String) : DbCall Bool
  | smembersServices (addr : IpAddr) : DbCall (HashSet String)
  | saddServices (addr : IpAddr) (name : String) : DbCall Unit
  | smembersHostnames (addr : IpAddr) : DbCall (HashSet String)
  | saddHostnames (addr : IpAddr) (name : String) : DbCall Unit
  /-- `scan_match_all("actor:*:services")`. -/
  | scanServices : DbCall (List IpAddr)
  | hgetService (name : String) : DbCall (Option IpAddr)
  | hsetService (name : String) (addr : IpAddr) : DbCall Unit
  | hgetHost (name : String) : DbCall (Option IpAddr)
  | hsetNxHost (name : String) (addr : IpAddr) : DbCall Bool
  | hsetNxCtime (addr : IpAddr) (ts : String) : DbCall Bool
  | hsetBase (addr : IpAddr) (field : ActorField) : DbCall Unit
  | hgetIdentityKeys (addr : IpAddr) : DbCall (Option (List String))
  | hsetAttr (addr : IpAddr) (attr : Attribute) : DbCall Unit
  | hgetAttr (addr : IpAddr) (key : String) : DbCall (Option Attribute)
  | hgetallAttrs (addr : IpAddr) : DbCall (List Attribute)
  | atomicPipeline (ops : List DbOp) : DbCall Unit

namespace ActorDb

def empty : ActorDb :=
  { base := ∅, attrs := ∅, services := ∅, hostnames := ∅, service := ∅, host := ∅, nodes := ∅
    adapters := ∅ }

def has (db : ActorDb) : ActorKey → Bool
  | .base addr => decide (addr ∈ db.base)
  | .attrs addr => decide (addr ∈ db.attrs)
  | .services addr => decide (addr ∈ db.services)
  | .hostnames addr => decide (addr ∈ db.hostnames)
  | .service name => decide (name ∈ db.service)
  | .host name => decide (name ∈ db.host)

def del (db : ActorDb) : ActorKey → ActorDb
  | .base addr => { db with base := db.base.erase addr }
  | .attrs addr => { db with attrs := db.attrs.erase addr }
  | .services addr => { db with services := db.services.erase addr }
  | .hostnames addr => { db with hostnames := db.hostnames.erase addr }
  | .service name => { db with service := db.service.erase name }
  | .host name => { db with host := db.host.erase name }

def roleSet (db : ActorDb) : RoleSet → HashSet IpAddr
  | .nodes => db.nodes
  | .adapters => db.adapters

def sadd (db : ActorDb) (set : RoleSet) (addr : IpAddr) : ActorDb :=
  match set with
  | .nodes => { db with nodes := db.nodes.insert addr }
  | .adapters => { db with adapters := db.adapters.insert addr }

def srem (db : ActorDb) (set : RoleSet) (addr : IpAddr) : ActorDb :=
  match set with
  | .nodes => { db with nodes := db.nodes.erase addr }
  | .adapters => { db with adapters := db.adapters.erase addr }

/-- Write to the hash `actor:<ZADDR>`, which appears with its first field. -/
def setBase (db : ActorDb) (addr : IpAddr) (change : ActorRecord → ActorRecord) : ActorDb :=
  { db with
    base := db.base.insert addr (change (db.base[addr]?.getD ⟨none, none, none, none⟩)) }

def setAttr (db : ActorDb) (addr : IpAddr) (attr : Attribute) : ActorDb :=
  { db with attrs := db.attrs.insert addr ((db.attrs[addr]?.getD ∅).insert attr.key attr) }

def pipe (db : ActorDb) : DbOp → ActorDb
  | .del key => db.del key
  | .srem set addr => db.srem set addr
  | .hsetAttr addr attr => db.setAttr addr attr

end ActorDb

def ActorField.set (field : ActorField) (record : ActorRecord) : ActorRecord :=
  match field with
  | .identityKeys keys => { record with identityKeys := some keys }
  | .utime ts => { record with utime := some ts }
  | .hostnameConflicts names => { record with hostnameConflicts := some names }

/-- The reply to a call and the database after it. -/
def DbCall.exec {β : Type} (call : DbCall β) (db : ActorDb) : β × ActorDb :=
  match call with
  | .exists key => (db.has key, db)
  | .del key => ((), db.del key)
  | .sismemberRole set addr => (decide (addr ∈ db.roleSet set), db)
  | .smembersRole set => (db.roleSet set, db)
  | .saddRole set addr => ((), db.sadd set addr)
  | .sismemberServices addr name => (db.services[addr]?.any fun row => decide (name ∈ row), db)
  | .smembersServices addr => (db.services[addr]?.getD ∅, db)
  | .saddServices addr name => ((), { db with services := db.services.add addr name })
  | .smembersHostnames addr => (db.hostnames[addr]?.getD ∅, db)
  | .saddHostnames addr name => ((), { db with hostnames := db.hostnames.add addr name })
  | .scanServices => (db.services.keys, db)
  | .hgetService name => (db.service[name]?, db)
  | .hsetService name addr => ((), { db with service := db.service.insert name addr })
  | .hgetHost name => (db.host[name]?, db)
  | .hsetNxHost name addr =>
    if name ∈ db.host then (false, db)
    else (true, { db with host := db.host.insert name addr })
  | .hsetNxCtime addr ts =>
    if (db.base[addr]?.bind ActorRecord.ctime).isSome then (false, db)
    else (true, db.setBase addr fun record => { record with ctime := some ts })
  | .hsetBase addr field => ((), db.setBase addr field.set)
  | .hgetIdentityKeys addr => (db.base[addr]?.bind ActorRecord.identityKeys, db)
  | .hsetAttr addr attr => ((), db.setAttr addr attr)
  | .hgetAttr addr key => (db.attrs[addr]?.bind fun attrs => attrs[key]?, db)
  | .hgetallAttrs addr => ((db.attrs[addr]?.map fun attrs => attrs.toList.map Prod.snd).getD [], db)
  | .atomicPipeline ops => ((), ops.foldl ActorDb.pipe db)

/-- A function of the repository. -/
abbrev ActorProg : Type → Type 1 := Prog DbCall StoreError

/-- Execute a function that nobody interrupts. -/
abbrev ActorProg.run {α : Type} (prog : ActorProg α) (db : ActorDb) :
    Except StoreError α × ActorDb :=
  Prog.run DbCall.exec prog db

theorem ActorProg.run_call {α β : Type} (call : DbCall β) {rest : β → ActorProg α}
    {db after : ActorDb} {reply : β} (replies : call.exec db = (reply, after)) :
    ActorProg.run (Prog.lift call >>= rest) db = (rest reply).run after :=
  Prog.run_lift_bind DbCall.exec call replies

theorem ActorProg.run_bind {α β : Type} {prog : ActorProg β} {rest : β → ActorProg α}
    {db after : ActorDb} {value : β} (ran : prog.run db = (.ok value, after)) :
    ActorProg.run (prog >>= rest) db = (rest value).run after :=
  Prog.run_bind_of_ok DbCall.exec ran

/-! ### Releasing names -/

open Prog (each lift)

/-- Drop the `host:` entries that still point at the actor. -/
def releaseOwnedHostEntries (addr : IpAddr) (names : List String) : ActorProg Unit :=
  each names fun name => do
    let owner ← lift (.hgetHost name)
    if owner = some addr then lift (.del (.host name)) else pure ()

/-- Those of the actors that claim the service and are live, besides the excluded one. -/
def gatherClaimants (name : String) (excluded : IpAddr) :
    List IpAddr → List IpAddr → ActorProg (List IpAddr)
  | [], candidates => pure candidates
  | addr :: rest, candidates =>
    if addr = excluded then gatherClaimants name excluded rest candidates
    else do
      let claims ← lift (.sismemberServices addr name)
      if claims then do
        let live ← lift (.exists (.base addr))
        if live then gatherClaimants name excluded rest (candidates ++ [addr])
        else gatherClaimants name excluded rest candidates
      else gatherClaimants name excluded rest candidates

def leastAddress : List IpAddr → Option IpAddr
  | [] => none
  | addr :: rest =>
    match leastAddress rest with
    | none => some addr
    | some least => if least.display < addr.display then some least else some addr

def findSurvivingClaimant (name : String) (excluded : IpAddr) : ActorProg (Option IpAddr) := do
  let keys ← lift .scanServices
  let candidates ← gatherClaimants name excluded keys []
  pure (leastAddress candidates)

/-- Hand a `service:` entry that points at the actor to another claimant, or drop it. -/
def releaseServiceEntry (addr : IpAddr) (name : String) : ActorProg Unit := do
  let owner ← lift (.hgetService name)
  if owner = some addr then do
    let claimant ← findSurvivingClaimant name addr
    match claimant with
    | some claimant => lift (.hsetService name claimant)
    | none => lift (.del (.service name))
  else pure ()

def releaseOwnedServiceEntries (addr : IpAddr) (names : List String) : ActorProg Unit :=
  each names (releaseServiceEntry addr)

/-- Release and drop the actor's services. -/
def cleanUpServices (order : SetOrder String) (addr : IpAddr) : ActorProg Unit := do
  let listed ← lift (.exists (.services addr))
  if listed then do
    let names ← lift (.smembersServices addr)
    releaseOwnedServiceEntries addr (order.list names)
    lift (.del (.services addr))
  else pure ()

/-- Release and drop the actor's hostnames. -/
def cleanUpHostnames (order : SetOrder String) (addr : IpAddr) : ActorProg Unit := do
  let listed ← lift (.exists (.hostnames addr))
  if listed then do
    let names ← lift (.smembersHostnames addr)
    releaseOwnedHostEntries addr (order.list names)
    lift (.del (.hostnames addr))
  else pure ()

/-- Undo everything that adding an actor writes. -/
def cleanUp (order : SetOrder String) (addr : IpAddr) : ActorProg Unit := do
  lift (.atomicPipeline
    [.del (.base addr), .del (.attrs addr), .srem .nodes addr, .srem .adapters addr])
  cleanUpServices order addr
  cleanUpHostnames order addr

def rmActorByZprAddr (order : SetOrder String) (addr : IpAddr) : ActorProg Unit :=
  cleanUp order addr

/-! ### Hostnames -/

def Key.deviceHostname : String := "device.hostname"

/-- One lowercase DNS label of 1 to 63 characters. -/
def isValidHostnameLabel (value : String) : Bool :=
  let chars := value.toList
  let edge (c : Char) : Bool := c.isLower || c.isDigit
  let inner (c : Char) : Bool := edge c || c == '-'
  !chars.isEmpty && chars.length ≤ 63 && chars.head?.any edge && chars.getLast?.any edge &&
    chars.all inner

/-- The hostnames the actor may claim. -/
def desiredHostnames (actor : Actor) (policyServiceNames : HashSet String) : List String :=
  ((actor.attrs[Key.deviceHostname]?.map Attribute.value).getD []).filter fun value =>
    isValidHostnameLabel value && value ∉ policyServiceNames

/-- The valid hostnames that are names of policy services. -/
def policyConflicts (actor : Actor) (policyServiceNames : HashSet String) : List String :=
  ((actor.attrs[Key.deviceHostname]?.map Attribute.value).getD []).filter fun value =>
    isValidHostnameLabel value && value ∈ policyServiceNames

/-- First claim wins. The names held by others are added to the conflicts. -/
def claimHostnames (addr : IpAddr) : List String → List String → ActorProg (List String)
  | [], conflicts => pure conflicts
  | name :: rest, conflicts => do
    let claimed ← lift (.hsetNxHost name addr)
    if claimed then do
      lift (.saddHostnames addr name)
      claimHostnames addr rest conflicts
    else do
      let owner ← lift (.hgetHost name)
      if owner = some addr then do
        lift (.saddHostnames addr name)
        claimHostnames addr rest conflicts
      else claimHostnames addr rest (conflicts ++ [name])

/-- Release the hostnames the actor no longer claims, claim the others and note the
conflicts. -/
def claimHostnamesForActor (order : SetOrder String) (actor : Actor)
    (policyServiceNames : HashSet String) : ActorProg Unit :=
  match actor.zprAddr with
  | none => pure ()
  | some addr => do
    let desired := desiredHostnames actor policyServiceNames
    let existing ← lift (.smembersHostnames addr)
    releaseOwnedHostEntries addr ((order.list existing).filter fun name => name ∉ desired)
    lift (.del (.hostnames addr))
    let conflicts ← claimHostnames addr desired (policyConflicts actor policyServiceNames)
    lift (.hsetBase addr (.hostnameConflicts conflicts))

/-! ### Adding and updating -/

/-- What the caller of a write passes besides the actor: the names of policy services, the
time as text, and the order of hash sets during the call. -/
structure WriteContext where
  policyServiceNames : HashSet String
  ts : String
  order : SetOrder String

def Actor.roleSet (actor : Actor) : RoleSet := if actor.isNode then .nodes else .adapters

def Actor.attrsIter (actor : Actor) : List Attribute := actor.attrs.toList.map Prod.snd

/-- The fields of the base record, whose creation time is kept. -/
def writeBase (addr : IpAddr) (actor : Actor) (ts : String) : ActorProg Unit := do
  lift (.hsetBase addr (.identityKeys actor.identityKeys))
  let _ ← lift (.hsetNxCtime addr ts)
  lift (.hsetBase addr (.utime ts))

/-- Everything after the address was claimed. The last to add a service owns its entry. -/
def writeActor (ctx : WriteContext) (addr : IpAddr) (actor : Actor) : ActorProg Unit := do
  each actor.attrsIter fun attr => lift (.hsetAttr addr attr)
  writeBase addr actor ctx.ts
  each actor.services fun name => do
    lift (.hsetService name addr)
    lift (.saddServices addr name)
  claimHostnamesForActor ctx.order actor ctx.policyServiceNames
  lift (.saddRole actor.roleSet addr)

def tryAddActor (ctx : WriteContext) (actor : Actor) (replace : Bool) : ActorProg Unit :=
  match actor.zprAddr with
  | none => .fail (.missingRequired "attempt to add actor with no ZPR address")
  | some addr =>
    if replace then do
      cleanUp ctx.order addr
      writeActor ctx addr actor
    else do
      let claimed ← lift (.hsetNxCtime addr ctx.ts)
      if claimed then writeActor ctx addr actor
      else
        .fail (.addressOccupied
          s!"zpr address already held by a live actor: {addr.display}")

/-- An add that fails cleans up after itself, except at an address that somebody else holds;
a clean-up that fails as well is only logged. -/
def addActorWithMode (ctx : WriteContext) (actor : Actor) (replace : Bool) : ActorProg Unit :=
  (tryAddActor ctx actor replace).recover fun failure =>
    match failure, actor.zprAddr with
    | .addressOccupied _, _ => .fail failure
    | _, some addr => do
      (cleanUp ctx.order addr).recover fun _ => pure ()
      .fail failure
    | _, none => .fail failure

def addActor (ctx : WriteContext) (actor : Actor) : ActorProg Unit :=
  addActorWithMode ctx actor false

def addActorReplacing (ctx : WriteContext) (actor : Actor) : ActorProg Unit :=
  addActorWithMode ctx actor true

/-- A refresh does not take an entry that another actor holds. -/
def reclaimService (addr : IpAddr) (name : String) : ActorProg Unit := do
  let owner ← lift (.hgetService name)
  if owner.any (· ≠ addr) then lift (.saddServices addr name)
  else do
    lift (.hsetService name addr)
    lift (.saddServices addr name)

/-- The writes of an update, once its checks have passed. -/
def writeUpdate (ctx : WriteContext) (addr : IpAddr) (actor : Actor) : ActorProg Unit := do
  lift (.atomicPipeline (.del (.attrs addr) :: actor.attrsIter.map (.hsetAttr addr)))
  writeBase addr actor ctx.ts
  let existing ← lift (.smembersServices addr)
  releaseOwnedServiceEntries addr
    ((ctx.order.list existing).filter fun name => name ∉ actor.services)
  lift (.del (.services addr))
  each actor.services (reclaimService addr)
  claimHostnamesForActor ctx.order actor ctx.policyServiceNames

/-- The actor is not allowed to change roles. -/
def updateInRole (ctx : WriteContext) (addr : IpAddr) (actor : Actor) : ActorProg Unit := do
  let inRole ← lift (.sismemberRole actor.roleSet addr)
  if inRole then writeUpdate ctx addr actor
  else
    let role := if actor.isNode then "node" else "adapter"
    .fail (.invalidData
      (s!"update fails since {role} actor not already in {role} role: {addr.display}"))

def updateActor (ctx : WriteContext) (actor : Actor) : ActorProg Unit :=
  match actor.zprAddr with
  | none => .fail (.missingRequired "attempt to update actor with no ZPR address")
  | some addr => do
    let present ← lift (.exists (.base addr))
    if present then updateInRole ctx addr actor
    else .fail (.notFound s!"update called on non-existant actor: {addr.display}")

/-! ### Reading -/

def loadAttributes : List Attribute → Actor → ActorProg Actor
  | [], actor => pure actor
  | attr :: rest, actor =>
    match actor.addAttribute attr with
    | .ok actor => loadAttributes rest actor
    | .error (.attributeError message) => .fail (.attribute message)

/-- Register the stored identity keys, each after those before it. -/
def loadIdentityKeys : List String → Actor → ActorProg Actor
  | [], actor => pure actor
  | key :: rest, actor =>
    match actor.addIdentityKey actor.identityKeys.length key with
    | .ok actor => loadIdentityKeys rest actor
    | .error (.attributeError message) => .fail (.attribute message)

/-- A record without identity keys does not decode. -/
def getActorByZprAddr (addr : IpAddr) : ActorProg Actor := do
  let present ← lift (.exists (.base addr))
  if present then do
    let attrs ← lift (.hgetallAttrs addr)
    let actor ← loadAttributes attrs .new
    let keys ← lift (.hgetIdentityKeys addr)
    match keys with
    | none => .fail .serialization
    | some keys => loadIdentityKeys keys actor
  else .fail (.notFound s!"actor not found: {addr.display}")

/-- The CN of each listed actor is a label that may be missing. -/
def labelActors : List IpAddr → List (IpAddr × Option String) →
    ActorProg (List (IpAddr × Option String))
  | [], listed => pure listed
  | addr :: rest, listed => do
    let cn ← lift (.hgetAttr addr Key.cn)
    labelActors rest (listed ++ [(addr, cn.map fun attr => String.intercalate ", " attr.value)])

def listActors (order : SetOrder IpAddr) : ActorProg (List (IpAddr × Option String)) := do
  let nodes ← lift (.smembersRole .nodes)
  let listed ← labelActors (order.list nodes) []
  let adapters ← lift (.smembersRole .adapters)
  labelActors (order.list adapters) listed

/-- The claim pass for one listed actor. Failures to load and to claim are only logged. -/
def reconcileActor (order : SetOrder String) (policyServiceNames : HashSet String)
    (addr : IpAddr) : ActorProg Unit := do
  let loaded ← (getActorByZprAddr addr).attempt
  match loaded with
  | .ok actor =>
    (claimHostnamesForActor order actor policyServiceNames).recover fun _ => pure ()
  | .error _ => pure ()

def reconcileHostnameClaims (actorOrder : SetOrder IpAddr) (order : SetOrder String)
    (policyServiceNames : HashSet String) : ActorProg Unit := do
  let listed ← listActors actorOrder
  each listed fun entry => reconcileActor order policyServiceNames entry.1

/-! ### Calls on the repository, one after the other -/

inductive RepoCall where
  | addActor (ctx : WriteContext) (actor : BuiltActor)
  | addActorReplacing (ctx : WriteContext) (actor : BuiltActor)
  | updateActor (ctx : WriteContext) (actor : BuiltActor)
  | rmActorByZprAddr (order : SetOrder String) (addr : IpAddr)
  | reconcileHostnameClaims (actorOrder : SetOrder IpAddr) (order : SetOrder String)
      (policyServiceNames : HashSet String)

def RepoCall.prog : RepoCall → ActorProg Unit
  | .addActor ctx actor => VisaService.addActor ctx actor.1
  | .addActorReplacing ctx actor => VisaService.addActorReplacing ctx actor.1
  | .updateActor ctx actor => VisaService.updateActor ctx actor.1
  | .rmActorByZprAddr order addr => VisaService.rmActorByZprAddr order addr
  | .reconcileHostnameClaims actorOrder order policyServiceNames =>
    VisaService.reconcileHostnameClaims actorOrder order policyServiceNames

def ActorDb.after (db : ActorDb) (call : RepoCall) : ActorDb := (call.prog.run db).2

/-- The database after calls of which no two overlap. -/
def ActorDb.history (calls : List RepoCall) : ActorDb := calls.foldl ActorDb.after .empty

end VisaService
