import VisaService.Assembly.NetMgr
import VisaService.Connection.Authorize
import VisaService.Trusted.Manager
import VisaService.Visa.Manager

/-!
# The assembled visa service

`Assembly` is the state that the departure of an actor touches: the actor records with the
tables of who is docked where, the pools of addresses, the revisions of trusted services and
the visas. The operations of the managers act on it as a whole, one after the other; `Answer`
says how the database and the nodes respond to the next one.
-/
namespace VisaService

open Lib

inductive Removal where
  | done
  /-- It fails, and the record is still there. -/
  | kept
  /-- It fails when the record is already gone. -/
  | lost
  deriving DecidableEq, Repr

/-- How the database and the nodes respond. -/
structure Answer where
  /-- A read or a simple write fails. -/
  fails : Bool
  removal : IpAddr → Removal
  /-- The docked adapters of a departing node cannot be read. -/
  adaptersFail : Bool
  /-- The record of a departing node cannot be removed. -/
  nodeFails : Bool
  /-- A departed adapter cannot be dropped from the connections of its node. -/
  unlistFails : Bool
  redis : RepoOp → RedisOutcome
  order : SetOrder IpAddr
  /-- How many of a batch the node has revoked, if it answers. -/
  processed : Option Nat

structure Answer.Fine (answer : Answer) : Prop where
  reads : answer.fails = false
  removes : ∀ addr, answer.removal addr = .done
  adapters : answer.adaptersFail = false
  node : answer.nodeFails = false
  unlists : answer.unlistFails = false
  redis : ∀ op, answer.redis op = .applied

structure Assembly (codec : VisaCodec) where
  vsAddr : IpAddr
  actors : HashMap IpAddr Actor
  /-- The docking node of each adapter, in memory. -/
  connectionTable : HashMap IpAddr IpAddr
  /-- The adapters docked at each node, in the database. -/
  connections : Rows IpAddr IpAddr
  /-- Nodes with a VSS worker. -/
  handles : HashSet IpAddr
  /-- Pending obligations: the deadline in seconds by policy instance. -/
  obligations : HashMap Nat Nat
  denied : HashSet String
  net : NetMgr
  trusted : TrustedServicesMgr
  visas : Repo codec
  answer : Answer
  /-- Bookkeeping: node and adapter of each revocation that a node has made. -/
  revoked : List (IpAddr × IpAddr)
  /-- Bookkeeping: the actors have been listed, and the clock has not been read since. -/
  listed : Bool

/-- `VS_ZPR_ADDR`, fd5a:5052::1. -/
def vsZprAddr : IpAddr := .v6 0xfd5a5052000000000000000000000001

variable {codec : VisaCodec}

/-! ### Visas of departed actors and nodes -/

/-- Live visas that have one of the addresses as an end, each once. -/
def getVisaIdsForActors (now : Nat) (inner : VisaStoreInner) (addrs : List IpAddr) : List Nat :=
  let rows := addrs.flatMap fun addr => (inner.byActor[addr]?.map Std.ExtTreeSet.toList).getD []
  rows.dedup.filter fun id => (liveEntry now inner id).isSome

def getAllVisaIdsForNode (now : Nat) (inner : VisaStoreInner) (node : IpAddr) : List Nat :=
  (nodeRow inner node).filter fun id => (liveEntry now inner id).isSome

namespace Repo

/-- Remove the visa if no node references it any more. -/
def removeOrphan (redis : RepoOp → RedisOutcome) (repo : Repo codec) (id : Nat) : Repo codec :=
  if visaHasNodeRefs repo.now repo.store id then repo
  else (repo.call (.removeVisa id) (redis (.removeVisa id))).1

def revokeDeparted (redis : RepoOp → RedisOutcome) (repo : Repo codec) (id : Nat) : Repo codec :=
  match repo.call (.markVisaRevoked id) (redis (.markVisaRevoked id)) with
  | (marked, .ok true) => marked.removeOrphan redis id
  | (same, _) => same

def removeVisasForActors (redis : RepoOp → RedisOutcome) (repo : Repo codec)
    (addrs : List IpAddr) : Repo codec :=
  (getVisaIdsForActors repo.now repo.store addrs).foldl (revokeDeparted redis) repo

/-- Nothing is removed when the node's own references cannot be dropped. -/
def removeVisasForNode (redis : RepoOp → RedisOutcome) (repo : Repo codec) (node : IpAddr) :
    Repo codec :=
  let ids := getAllVisaIdsForNode repo.now repo.store node
  let marked := ids.foldl (fun repo id =>
    (repo.call (.markVisaRevoked id) (redis (.markVisaRevoked id))).1) repo
  match marked.call (.clearNodeState node) (redis (.clearNodeState node)) with
  | (cleared, .ok _) => ids.foldl (removeOrphan redis) cleared
  | (failed, .error _) => failed

end Repo

/-! ### Operations of the managers -/

namespace Assembly

/-- The addresses in the role set, in the order in which the database lists them. -/
def listActors (asm : Assembly codec) (role : Option Role) : Except ServiceError (List IpAddr) :=
  if asm.answer.fails then .error (.store .redis)
  else
    let matching := asm.actors.toList.filter fun (_, actor) =>
      match role with
      | some .node => actor.isNode
      | some _ => !actor.isNode
      | none => true
    .ok (asm.answer.order.list (Std.ExtTreeSet.ofList (matching.map Prod.fst) compare))

def getActorByZprAddr (asm : Assembly codec) (addr : IpAddr) :
    Except ServiceError (Option Actor) :=
  if asm.answer.fails then .error (.store .redis) else .ok asm.actors[addr]?

def getDockingNodeForActor (asm : Assembly codec) (actor : Actor) : Option IpAddr :=
  if actor.isNode then actor.zprAddr
  else actor.zprAddr.bind fun addr => asm.connectionTable[addr]?

/-- The adapter is dropped from its docking node, too. -/
def removeActorByZprAddr (asm : Assembly codec) (addr : IpAddr) :
    Except ServiceError Unit × Assembly codec :=
  let removed := { asm with actors := asm.actors.erase addr }
  match asm.answer.removal addr with
  | .kept => (.error (.store .redis), asm)
  | .lost => (.error (.store .redis), removed)
  | .done =>
    match asm.connectionTable[addr]? with
    | none => (.ok (), removed)
    | some node =>
      (.ok (), { removed with
        connectionTable := asm.connectionTable.erase addr
        connections :=
          if asm.answer.unlistFails then asm.connections else asm.connections.drop node addr })

/-- Drop the node with everything that points to it. -/
def removeNode (asm : Assembly codec) (node : IpAddr) : Assembly codec :=
  { asm with
    connections := asm.connections.erase node
    connectionTable := asm.connectionTable.filter fun _ dock => dock ≠ node }

def forgetRevisions (asm : Assembly codec) (addr : IpAddr) : Assembly codec :=
  { asm with trusted := asm.trusted.forgetActorRevisions addr }

/-- Give the address back if it came from a pool; a failure is only logged. -/
def releaseAddr (asm : Assembly codec) (addr : IpAddr) : Assembly codec :=
  if NetMgr.isManagedAddress addr then
    match asm.net.releaseZprAddr addr with
    | .ok net => { asm with net }
    | .error _ => asm
  else asm

/-- The adapters that were removed. The visa service's own adapter is spared, and an adapter
whose record could not be removed keeps its address. -/
def removeDepartedAdapters (asm : Assembly codec) : List IpAddr → List IpAddr × Assembly codec
  | [] => ([], asm)
  | addr :: rest =>
    if addr = asm.vsAddr then asm.removeDepartedAdapters rest
    else
      match asm.removeActorByZprAddr addr with
      | (.error _, failed) => failed.removeDepartedAdapters rest
      | (.ok _, removed) =>
        let (others, last) :=
          ((removed.forgetRevisions addr).releaseAddr addr).removeDepartedAdapters rest
        (addr :: others, last)

/-- The first step of a disconnect: the record, and the revisions if it could be removed. -/
def removeDisconnected (asm : Assembly codec) (addr : IpAddr) : Assembly codec :=
  match asm.removeActorByZprAddr addr with
  | (.ok _, removed) => removed.forgetRevisions addr
  | (.error _, failed) => failed

/-- The end of a disconnect: the visas of the departed and the address. -/
def finishDisconnect (asm : Assembly codec) (addr : IpAddr) (departed : List IpAddr) :
    Assembly codec :=
  { asm with visas := asm.visas.removeVisasForActors asm.answer.redis departed }.releaseAddr addr

/-- `disconnect`, for policy and administrative reasons alike. -/
def disconnect (asm : Assembly codec) (addr : IpAddr) :
    Except ServiceError Unit × Assembly codec :=
  if asm.answer.fails then (.error (.store .redis), asm)
  else
    let removed := asm.removeDisconnected addr
    match asm.actors[addr]? with
    | some actor =>
      if actor.isNode then
        let docked := if asm.answer.adaptersFail then []
          else asm.answer.order.list (removed.connections[addr]?.getD ∅)
        let (departed, left) := removed.removeDepartedAdapters docked
        if asm.answer.nodeFails then (.error (.store .redis), left)
        else
          let gone := left.removeNode addr
          let cleared := { gone with visas := gone.visas.removeVisasForNode asm.answer.redis addr }
          (.ok (), cleared.finishDisconnect addr (addr :: departed))
      else (.ok (), removed.finishDisconnect addr [addr])
    | none => (.ok (), removed.finishDisconnect addr [addr])

end Assembly

end VisaService
