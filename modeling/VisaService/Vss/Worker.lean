import VisaService.Visa.Manager

/-!
# The VSS worker of one node

Visas reach a node by two ways. `distribute_visa_on_path` queues a `PushVisas` command with
a copy of a new visa; the worker's housekeeping pushes what the store has pending for the
node and then revokes what is pending revocation. The worker handles one command or one
housekeeping round at a time, but the store changes between any two of its awaits.
-/
namespace VisaService

open Lib

variable {codec : VisaCodec}

/-- Where the worker is: between commands, or at an await of its housekeeping. -/
inductive WorkerPhase where
  | idle
  /-- Pending visas are read and actualized, the push is not answered yet. -/
  | pushing (visas : List Visa)
  /-- The node took the push; the install acknowledgements left to record. -/
  | installing (ids : List Nat)
  /-- Pushing is over, the pending revokes are read next. -/
  | readRevokes
  /-- The revoke is not answered yet. -/
  | revoking (ids : List Nat)
  /-- The node took the revoke; the acknowledgement in progress and those left. -/
  | acking (task : AckTask) (ids : List Nat)

/-- The visa service as seen from one node. -/
structure Vss (codec : VisaCodec) where
  repo : Repo codec
  /-- What the node holds, by visa id. -/
  held : HashMap Nat Visa
  /-- Distribution tasks for this node that have not reached its queue. -/
  distributing : List Visa
  /-- `PushVisas` commands in the worker's channel. -/
  queue : List Visa
  phase : WorkerPhase
  /-- Pushes of distribution tasks that returned `Ok(1)` and still have to be recorded. -/
  installAcks : List Nat
  /-- Revoke acknowledgements of other nodes' workers. -/
  peerAcks : List AckTask

/-- `none` stands for an RPC error; otherwise the number of operations the node processed. -/
abbrev RpcReply : Type := Option Nat

inductive VssEvent where
  | tick (nanos : Nat)
  | getNextVisaId
  | purgeExpired
  | recordAllowVerdict (visaId vinst : Nat) (outcome : RedisOutcome)
  | recordDenyVerdict (visaId vinst : Nat) (outcome : RedisOutcome)
  | markVisaRevoked (visaId : Nat) (outcome : RedisOutcome)
  | create (visa : Visa) (metadata : VisaMetadata) (outcome : RedisOutcome)
  /-- A distribution task actualizes its visa and queues the push, if there is a worker. -/
  | distribute (position : Nat) (connected : Bool)
  /-- The worker takes the next command and pushes its visa. -/
  | deliver (reply : RpcReply)
  | installAck (position : Nat) (outcome : RedisOutcome)
  | startHousekeeping
  | pushReply (reply : RpcReply)
  | recordInstall (outcome : RedisOutcome)
  | readRevokes
  | revokeReply (reply : RpcReply)
  | ackStep (outcome : RedisOutcome)
  | peerInstalled (peer : IpAddr) (visaId : Nat) (outcome : RedisOutcome)
  /-- Another node's worker had a pending revoke of the visa taken by its node. -/
  | peerRevoked (peer : IpAddr) (visaId : Nat)
  | peerAckStep (position : Nat) (outcome : RedisOutcome)

namespace Vss

def init (codec : VisaCodec) (now initialVisaId : Nat) : Vss codec where
  repo := Repo.init codec now initialVisaId
  held := ∅
  distributing := []
  queue := []
  phase := .idle
  installAcks := []
  peerAcks := []

def calls (vss : Vss codec) (op : RepoOp) (outcome : RedisOutcome) : Vss codec :=
  { vss with repo := (vss.repo.call op outcome).1 }

/-- `visa_installed`: compare-and-swap from `pendingInstall`. -/
def visaInstalled (vss : Vss codec) (visaId : Nat) (node : IpAddr) (outcome : RedisOutcome) :
    Vss codec :=
  vss.calls (.transitionNodeVisaState node visaId .pendingInstall .installed) outcome

/-- The node takes the first `processed` visas of a push. -/
def grant (held : HashMap Nat Visa) (visas : List Visa) (processed : Nat) : HashMap Nat Visa :=
  (visas.take processed).foldl (fun held visa => held.insert visa.issuerId visa) held

/-- The node drops the first `processed` visas of a revoke. -/
def revoke (held : HashMap Nat Visa) (ids : List Nat) (processed : Nat) : HashMap Nat Visa :=
  (ids.take processed).foldl (fun held id => held.erase id) held

/-- The worker goes on with the next acknowledged id, or is done. -/
def nextAck (node : IpAddr) : List Nat → WorkerPhase
  | [] => .idle
  | id :: rest => .acking (.dropNode node id) rest

def create (node : IpAddr) (vss : Vss codec) (visa : Visa) (metadata : VisaMetadata)
    (outcome : RedisOutcome) : Option (Vss codec) :=
  (vss.repo.claimId (.storeVisa visa metadata .pendingInstall)).map fun claimed =>
    match claimed.call (.storeVisa visa metadata .pendingInstall) outcome with
    | (next, .error _) => { vss with repo := next }
    | (next, .ok _) =>
      -- the requesting node gets its copy in the reply to the request
      if node ∈ metadata.path.getD [] ∧ node ≠ metadata.requestingNode then
        { vss with repo := next, distributing := vss.distributing ++ [visa] }
      else { vss with repo := next }

def distribute (node : IpAddr) (vss : Vss codec) (position : Nat) (connected : Bool) :
    Option (Vss codec) :=
  vss.distributing[position]?.map fun visa =>
    let left := vss.distributing.eraseIdx position
    match actualizeVisaForTargetNode vss.repo.now vss.repo.store visa node with
    | .error _ => { vss with distributing := left }
    | .ok sent =>
      if connected then { vss with distributing := left, queue := vss.queue ++ [sent] }
      else { vss with distributing := left }

def deliver (vss : Vss codec) (reply : RpcReply) : Option (Vss codec) :=
  match vss.phase, vss.queue with
  | .idle, visa :: rest =>
    match reply with
    | none => some { vss with queue := rest }
    | some processed =>
      some { vss with
        queue := rest
        held := grant vss.held [visa] processed
        installAcks := if processed = 1 then vss.installAcks ++ [visa.issuerId]
          else vss.installAcks }
  | _, _ => none

def startHousekeeping (node : IpAddr) (vss : Vss codec) : Option (Vss codec) :=
  match vss.phase with
  | .idle =>
    let repo := vss.repo.purgeExpired
    let pending := getVisasForNodeByState repo.now repo.store node .pendingInstall
    -- a visa that cannot be actualized is left for the next round
    let actualized := pending.filterMap fun visa =>
      (actualizeVisaForTargetNode repo.now repo.store visa node).toOption
    some { vss with
      repo := repo
      phase := if actualized.isEmpty then .readRevokes else .pushing actualized }
  | _ => none

def pushReply (vss : Vss codec) (reply : RpcReply) : Option (Vss codec) :=
  match vss.phase with
  | .pushing visas =>
    match reply with
    | none => some { vss with phase := .readRevokes }
    | some processed =>
      some { vss with
        held := grant vss.held visas processed
        phase := .installing ((visas.take processed).map Visa.issuerId) }
  | _ => none

def recordInstall (node : IpAddr) (vss : Vss codec) (outcome : RedisOutcome) :
    Option (Vss codec) :=
  match vss.phase with
  | .installing [] => some { vss with phase := .readRevokes }
  | .installing (id :: rest) =>
    some { vss.visaInstalled id node outcome with phase := .installing rest }
  | _ => none

def readRevokes (node : IpAddr) (vss : Vss codec) : Option (Vss codec) :=
  match vss.phase with
  | .readRevokes =>
    let ids := getVisaIdsForNodeByState vss.repo.now vss.repo.store node .pendingRevoke
    -- nothing to revoke: skip the RPC
    some { vss with phase := if ids.isEmpty then .idle else .revoking ids }
  | _ => none

def revokeReply (node : IpAddr) (vss : Vss codec) (reply : RpcReply) : Option (Vss codec) :=
  match vss.phase with
  | .revoking ids =>
    match reply with
    | none => some { vss with phase := .idle }
    | some processed =>
      some { vss with
        held := revoke vss.held ids processed
        phase := nextAck node (ids.take processed) }
  | _ => none

def ackStep (node : IpAddr) (vss : Vss codec) (outcome : RedisOutcome) : Option (Vss codec) :=
  match vss.phase with
  | .acking task rest =>
    match task.advance vss.repo outcome with
    | (next, some left) => some { vss with repo := next, phase := .acking left rest }
    | (next, none) => some { vss with repo := next, phase := nextAck node rest }
  | _ => none

def peerRevoked (node : IpAddr) (vss : Vss codec) (peer : IpAddr) (visaId : Nat) :
    Option (Vss codec) :=
  if peer ≠ node ∧
      visaId ∈ getVisaIdsForNodeByState vss.repo.now vss.repo.store peer .pendingRevoke then
    some { vss with peerAcks := vss.peerAcks ++ [.dropNode peer visaId] }
  else none

def peerAckStep (vss : Vss codec) (position : Nat) (outcome : RedisOutcome) :
    Option (Vss codec) :=
  vss.peerAcks[position]?.map fun task =>
    match task.advance vss.repo outcome with
    | (next, some left) =>
      { vss with repo := next, peerAcks := vss.peerAcks.set position left }
    | (next, none) => { vss with repo := next, peerAcks := vss.peerAcks.eraseIdx position }

def installAck (node : IpAddr) (vss : Vss codec) (position : Nat) (outcome : RedisOutcome) :
    Option (Vss codec) :=
  vss.installAcks[position]?.map fun id =>
    { vss.visaInstalled id node outcome with
      installAcks := vss.installAcks.eraseIdx position }

def step (node : IpAddr) (vss : Vss codec) : VssEvent → Option (Vss codec)
  | .tick nanos => some { vss with repo := { vss.repo with now := vss.repo.now + nanos } }
  | .getNextVisaId => some { vss with repo := vss.repo.getNextVisaId }
  | .purgeExpired => some { vss with repo := vss.repo.purgeExpired }
  | .recordAllowVerdict visaId vinst outcome =>
    some (vss.calls (.recordAllowVerdict visaId vinst) outcome)
  | .recordDenyVerdict visaId vinst outcome =>
    some (vss.calls (.recordDenyVerdict visaId vinst) outcome)
  | .markVisaRevoked visaId outcome => some (vss.calls (.markVisaRevoked visaId) outcome)
  | .create visa metadata outcome => vss.create node visa metadata outcome
  | .distribute position connected => vss.distribute node position connected
  | .deliver reply => vss.deliver reply
  | .installAck position outcome => vss.installAck node position outcome
  | .startHousekeeping => vss.startHousekeeping node
  | .pushReply reply => vss.pushReply reply
  | .recordInstall outcome => vss.recordInstall node outcome
  | .readRevokes => vss.readRevokes node
  | .revokeReply reply => vss.revokeReply node reply
  | .ackStep outcome => vss.ackStep node outcome
  | .peerInstalled peer visaId outcome => some (vss.visaInstalled visaId peer outcome)
  | .peerRevoked peer visaId => vss.peerRevoked node peer visaId
  | .peerAckStep position outcome => vss.peerAckStep position outcome

end Vss

end VisaService
