import VisaService.Lib.Run
import VisaService.Visa.Store

/-!
# The write-through visa repository

Every writer of `VisaRepo` first decides under a read guard what to write, then writes
Redis, then applies the change to memory. `Decision` is the outcome of the first part:
either the reply is already known or a `WritePlan` says what goes to Redis and what is
applied to memory afterwards. `Repo.call` runs one operation from its start to its reply; the
interleaved execution is built from the same plans.
-/
namespace VisaService

open Lib

/-- The wire form of a visa (Cap'n Proto bytes in base64), a codec of another crate. -/
structure VisaCodec where
  Blob : Type
  encode : Visa → Except StoreError Blob
  decode : Blob → Except StoreError Visa

/-- `loaded` is `visa` as read back from its wire form: at most the sub-second part of
the expiry is lost. -/
structure Visa.SameUpToSecond (visa loaded : Visa) : Prop where
  early : loaded.expires ≤ visa.expires
  close : visa.expires < loaded.expires + nanosPerSec
  rest : { loaded with expires := visa.expires } = visa

/-- What the codec promises: reading back what was written gives the same visa. -/
def VisaCodec.Lawful (codec : VisaCodec) : Prop :=
  ∀ visa blob, codec.encode visa = .ok blob →
    ∃ loaded, codec.decode blob = .ok loaded ∧ visa.SameUpToSecond loaded

/-- The creation time is serialized in seconds, rounded to the nearest. -/
def VisaMetadata.wholeSecs (metadata : VisaMetadata) : VisaMetadata :=
  { metadata with ctime := (metadata.ctime + 500000000) / nanosPerSec * nanosPerSec }

abbrev Redis (codec : VisaCodec) : Type := HashMap Nat (VisaRecord codec.Blob × Nat)

variable {codec : VisaCodec}

def buildRecord (codec : VisaCodec) (visa : Visa) (metadata : VisaMetadata)
    (nodeStates : NodeStates) : Except StoreError (VisaRecord codec.Blob) :=
  match codec.encode visa with
  | .error failure => .error failure
  | .ok blob => .ok { blob, metadata := metadata.wholeSecs, nodeStates }

/-- Decode a persisted record; the deadline is computed afresh from the visa's expiry. -/
def decodeRecord (codec : VisaCodec) (now : Nat) (record : VisaRecord codec.Blob) :
    Except StoreError VisaEntry :=
  match codec.decode record.blob with
  | .error failure => .error failure
  | .ok visa =>
    .ok { visa, metadata := record.metadata
          deadline := now + secondsUntil now visa.expires * nanosPerSec
          nodeStates := record.nodeStates }

/-! ### Plans -/

/-- One Redis command on `visa:<id>`. -/
inductive RedisWrite (codec : VisaCodec) where
  | setEx (id : Nat) (record : VisaRecord codec.Blob) (ttl : Nat)
  | del (id : Nat)

def RedisWrite.setId {codec : VisaCodec} : RedisWrite codec → Option Nat
  | .setEx id .. => some id
  | .del _ => none

/-- What a writer applies to memory once Redis has accepted its write. -/
inductive MemoryWrite where
  /-- A new entry; its deadline starts at the moment of the insert. -/
  | insert (id : Nat) (visa : Visa) (metadata : VisaMetadata) (nodeStates : NodeStates) (ttl : Nat)
  /-- New states (and metadata, if given) for an entry, and the node to unindex. -/
  | rewrite (id : Nat) (metadata : Option VisaMetadata) (nodeStates : NodeStates)
      (dropped : Option IpAddr)
  | clearNode (node : IpAddr) (ids : List Nat)
  | remove (id : Nat)

/-- `redis` is applied as one atomic batch; `undo` is sent when it failed. -/
structure WritePlan (codec : VisaCodec) where
  redis : List (RedisWrite codec)
  undo : List (RedisWrite codec)
  memory : MemoryWrite

/-- Replies of operations that return `()` are `ok true`. -/
inductive Decision (codec : VisaCodec) where
  | done (reply : Except StoreError Bool)
  | write (plan : WritePlan codec)

def applyRedisWrite (now : Nat) (redis : Redis codec) : RedisWrite codec → Redis codec
  | .setEx id record ttl => redis.insert id (record, now + ttl * nanosPerSec)
  | .del id => redis.erase id

def applyRedis (now : Nat) (redis : Redis codec) (writes : List (RedisWrite codec)) :
    Redis codec :=
  writes.foldl (applyRedisWrite now) redis

/-- Drop `node` from one entry and from its index row. -/
def clearNodeEntry (node : IpAddr) (inner : VisaStoreInner) (id : Nat) : VisaStoreInner :=
  unindexNode (modifyEntry inner id fun entry =>
    { entry with nodeStates := entry.nodeStates.erase node }) node id

def applyMemory (now : Nat) (inner : VisaStoreInner) : MemoryWrite → VisaStoreInner
  | .insert id visa metadata nodeStates ttl =>
    insertEntry inner id
      { visa, metadata, deadline := now + ttl * nanosPerSec, nodeStates }
  | .rewrite id metadata nodeStates dropped =>
    let rewritten := modifyEntry inner id fun entry =>
      { entry with metadata := metadata.getD entry.metadata, nodeStates }
    match dropped with
    | none => rewritten
    | some node => unindexNode rewritten node id
  | .clearNode node ids => ids.foldl (clearNodeEntry node) inner
  | .remove id => removeEntry inner id

/-! ### What each operation decides -/

/-- The states a new visa starts with: the requesting node gets `nstate`, every other
path node is to have it installed. -/
def initialNodeStates (metadata : VisaMetadata) (nstate : NodeVisaState) : NodeStates :=
  (metadata.path.getD []).foldl (fun states node =>
      if node = metadata.requestingNode then states
      else states.insert node { state := .pendingInstall, revokeVinst := none })
    ((∅ : NodeStates).insert metadata.requestingNode { state := nstate, revokeVinst := none })

def storeVisa (codec : VisaCodec) (now : Nat) (visa : Visa) (metadata : VisaMetadata)
    (nstate : NodeVisaState) : Decision codec :=
  let ttl := secondsUntil now visa.expires
  -- already expired
  if ttl = 0 then .done (.ok true)
  else
    let nodeStates := initialNodeStates metadata nstate
    match buildRecord codec visa metadata nodeStates with
    | .error failure => .done (.error failure)
    | .ok record =>
      .write
        { redis := [.setEx visa.issuerId record ttl]
          -- an ambiguous commit must not leave an unknown visa behind
          undo := [.del visa.issuerId]
          memory := .insert visa.issuerId visa metadata nodeStates ttl }

/-- Read-modify-write of one live entry: nothing to do when it is absent or expired or
`change` declines, otherwise one rewrite under the remaining TTL. -/
def rewriteEntry (codec : VisaCodec) (now : Nat) (inner : VisaStoreInner) (visaId : Nat)
    (change : VisaEntry → Option (Option VisaMetadata × NodeStates)) (dropped : Option IpAddr) :
    Decision codec :=
  match liveEntry now inner visaId with
  | none => .done (.ok false)
  | some entry =>
    match change entry with
    | none => .done (.ok false)
    | some (metadata, nodeStates) =>
      match buildRecord codec entry.visa (metadata.getD entry.metadata) nodeStates with
      | .error failure => .done (.error failure)
      | .ok record =>
        .write
          { redis := [.setEx visaId record (remainingSecs now entry.deadline)]
            undo := []
            memory := .rewrite visaId metadata nodeStates dropped }

/-- A queued revoke whose stamp predates `vinst` is cancelled by an allow at `vinst`. -/
def NodeState.allowed (vinst : Nat) (ns : NodeState) : NodeState :=
  if ns.state = .pendingRevoke ∧ ns.revokeVinst.any (· < vinst) then
    { state := .pendingInstall, revokeVinst := none }
  else ns

/-- A deny at `vinst` revokes the node; the stamp only ever grows. -/
def NodeState.denied (vinst : Nat) (ns : NodeState) : NodeState where
  state := .pendingRevoke
  revokeVinst := if ns.revokeVinst.all (· < vinst) then some vinst else ns.revokeVinst

/-- Revoked by an actor or node departure: the stamp is left as it is. -/
def NodeState.marked (ns : NodeState) : NodeState := { ns with state := .pendingRevoke }

def allowChange (vinst : Nat) (entry : VisaEntry) : Option (Option VisaMetadata × NodeStates) :=
  if vinst ≤ entry.metadata.checkedVinst then none
  else some (some { entry.metadata with checkedVinst := vinst },
    entry.nodeStates.map fun _ ns => ns.allowed vinst)

def denyChange (vinst : Nat) (entry : VisaEntry) : Option (Option VisaMetadata × NodeStates) :=
  if vinst ≤ entry.metadata.checkedVinst then none
  else some (none, entry.nodeStates.map fun _ ns => ns.denied vinst)

def markChange (entry : VisaEntry) : Option (Option VisaMetadata × NodeStates) :=
  some (none, entry.nodeStates.map fun _ ns => ns.marked)

/-- Compare-and-swap of one node's state. -/
def transitionChange (node : IpAddr) (expected new : NodeVisaState) (entry : VisaEntry) :
    Option (Option VisaMetadata × NodeStates) :=
  match entry.nodeStates[node]? with
  | none => none
  | some ns =>
    if ns.state = expected then
      some (none, entry.nodeStates.modify node fun ns => { ns with state := new })
    else none

def removeNodeChange (node : IpAddr) (entry : VisaEntry) :
    Option (Option VisaMetadata × NodeStates) :=
  match entry.nodeStates[node]? with
  | none => none
  | some ns =>
    if ns.state = .pendingRevoke then some (none, entry.nodeStates.erase node) else none

def recordAllowVerdict (codec : VisaCodec) (now : Nat) (inner : VisaStoreInner)
    (visaId vinst : Nat) : Decision codec :=
  rewriteEntry codec now inner visaId (allowChange vinst) none

def recordDenyVerdict (codec : VisaCodec) (now : Nat) (inner : VisaStoreInner)
    (visaId vinst : Nat) : Decision codec :=
  rewriteEntry codec now inner visaId (denyChange vinst) none

def markVisaRevoked (codec : VisaCodec) (now : Nat) (inner : VisaStoreInner) (visaId : Nat) :
    Decision codec :=
  rewriteEntry codec now inner visaId markChange none

def transitionNodeVisaState (codec : VisaCodec) (now : Nat) (inner : VisaStoreInner)
    (node : IpAddr) (visaId : Nat) (expected new : NodeVisaState) : Decision codec :=
  rewriteEntry codec now inner visaId (transitionChange node expected new) none

def removeNodeIfPendingRevoke (codec : VisaCodec) (now : Nat) (inner : VisaStoreInner)
    (node : IpAddr) (visaId : Nat) : Decision codec :=
  rewriteEntry codec now inner visaId (removeNodeChange node) (some node)

def removeVisa (visaId : Nat) : Decision codec :=
  .write { redis := [.del visaId], undo := [], memory := .remove visaId }

/-- The rewrite of one visa that references the node: the new record with its TTL, or
none when the entry is effectively expired and only memory has to forget the node. -/
def clearNodeWrite (codec : VisaCodec) (now : Nat) (inner : VisaStoreInner) (node : IpAddr)
    (id : Nat) : Except StoreError (List (Nat × Option (VisaRecord codec.Blob × Nat))) :=
  match inner.visas[id]? with
  | none => .ok []
  | some entry =>
    if node ∈ entry.nodeStates then
      let ttl := remainingSecs now entry.deadline
      if 0 < ttl then
        match buildRecord codec entry.visa entry.metadata (entry.nodeStates.erase node) with
        | .error failure => .error failure
        | .ok record => .ok [(id, some (record, ttl))]
      else .ok [(id, none)]
    else .ok []

def clearNodeWrites (codec : VisaCodec) (now : Nat) (inner : VisaStoreInner) (node : IpAddr) :
    List Nat → Except StoreError (List (Nat × Option (VisaRecord codec.Blob × Nat)))
  | [] => .ok []
  | id :: rest =>
    match clearNodeWrite codec now inner node id with
    | .error failure => .error failure
    | .ok first =>
      match clearNodeWrites codec now inner node rest with
      | .error failure => .error failure
      | .ok others => .ok (first ++ others)

def nodeRow (inner : VisaStoreInner) (node : IpAddr) : List Nat :=
  (inner.byNode[node]?.map Std.ExtTreeSet.toList).getD []

def clearNodeState (codec : VisaCodec) (now : Nat) (inner : VisaStoreInner) (node : IpAddr) :
    Decision codec :=
  match clearNodeWrites codec now inner node (nodeRow inner node) with
  | .error failure => .done (.error failure)
  | .ok writes =>
    .write
      { redis := writes.filterMap fun (id, write) =>
          write.map fun (record, ttl) => .setEx id record ttl
        undo := []
        memory := .clearNode node (writes.map Prod.fst) }

/-! ### The repository and its operations -/

/-- The operations that write Redis under the `backing` lock. -/
inductive RepoOp where
  | storeVisa (visa : Visa) (metadata : VisaMetadata) (nstate : NodeVisaState)
  | recordAllowVerdict (visaId vinst : Nat)
  | recordDenyVerdict (visaId vinst : Nat)
  | markVisaRevoked (visaId : Nat)
  | transitionNodeVisaState (node : IpAddr) (visaId : Nat) (expected new : NodeVisaState)
  | removeNodeIfPendingRevoke (node : IpAddr) (visaId : Nat)
  | removeVisa (visaId : Nat)
  | clearNodeState (node : IpAddr)

def RepoOp.decide (codec : VisaCodec) (now : Nat) (inner : VisaStoreInner) :
    RepoOp → Decision codec
  | .storeVisa visa metadata nstate => VisaService.storeVisa codec now visa metadata nstate
  | .recordAllowVerdict visaId vinst =>
    VisaService.recordAllowVerdict codec now inner visaId vinst
  | .recordDenyVerdict visaId vinst => VisaService.recordDenyVerdict codec now inner visaId vinst
  | .markVisaRevoked visaId => VisaService.markVisaRevoked codec now inner visaId
  | .transitionNodeVisaState node visaId expected new =>
    VisaService.transitionNodeVisaState codec now inner node visaId expected new
  | .removeNodeIfPendingRevoke node visaId =>
    VisaService.removeNodeIfPendingRevoke codec now inner node visaId
  | .removeVisa visaId => VisaService.removeVisa visaId
  | .clearNodeState node => VisaService.clearNodeState codec now inner node

/-- How Redis answers the write of an operation: it applied all of it, or it failed
without effect and the undo (if any) was then applied or not. -/
inductive RedisOutcome where
  | applied
  | failed (undone : Bool)
  deriving DecidableEq, Repr

/-- The repository with its backing database and the clock. `handedOut` are the ids
`get_next_visa_id` gave to callers that have not stored a visa under them yet. -/
structure Repo (codec : VisaCodec) where
  now : Nat
  store : VisaStoreInner
  redis : Redis codec
  nextVisaId : Nat
  handedOut : HashSet Nat
  lastPurge : Option Nat

namespace Repo

/-- A repository opened on an empty database. -/
def init (codec : VisaCodec) (now initialVisaId : Nat) : Repo codec where
  now := now
  store := .empty
  redis := ∅
  nextVisaId := initialVisaId
  handedOut := ∅
  lastPurge := none

def getNextVisaId (repo : Repo codec) : Repo codec :=
  { repo with
    nextVisaId := repo.nextVisaId + 1
    handedOut := repo.handedOut.insert (repo.nextVisaId + 1) }

/-- Carry out a decided write. An empty batch is never sent, so it cannot fail. -/
def commit (repo : Repo codec) (plan : WritePlan codec) (outcome : RedisOutcome) :
    Repo codec × Except StoreError Bool :=
  if plan.redis.isEmpty ∨ outcome = .applied then
    ({ repo with
        redis := applyRedis repo.now repo.redis plan.redis
        store := applyMemory repo.now repo.store plan.memory }, .ok true)
  else
    ({ repo with
        redis := if outcome = .failed true then applyRedis repo.now repo.redis plan.undo
          else repo.redis }, .error .redis)

/-- One operation, from taking the `backing` lock to its reply. -/
def call (repo : Repo codec) (op : RepoOp) (outcome : RedisOutcome) :
    Repo codec × Except StoreError Bool :=
  match op.decide codec repo.now repo.store with
  | .done reply => (repo, reply)
  | .write plan => repo.commit plan outcome

end Repo

/-- `PURGE_MIN_INTERVAL`, 800 ms. -/
def purgeMinInterval : Nat := 800000000

def expiredIds (now : Nat) (inner : VisaStoreInner) : List Nat :=
  (inner.visas.toList.filter fun (_, entry) => !entry.isLive now).map Prod.fst

/-- Drop expired entries from memory; throttled, and without a Redis write. -/
def Repo.purgeExpired (repo : Repo codec) : Repo codec :=
  if repo.lastPurge.any fun last => repo.now - last < purgeMinInterval then repo
  else
    { repo with
      lastPurge := some repo.now
      store := (expiredIds repo.now repo.store).foldl removeEntry repo.store }

/-- Load one persisted record: an undecodable or already expired one is deleted instead, so
that it is never scanned again; one whose TTL fired since the scan is skipped. The clock has
moved on when the liveness of the decoded entry is tested: however short the time, a whole second
is lost. -/
def restoreEntry (codec : VisaCodec) (now : Nat) (loaded : VisaStoreInner × Redis codec) :
    Nat × (VisaRecord codec.Blob × Nat) → VisaStoreInner × Redis codec
  | (id, record, expiresAt) =>
    if expiresAt ≤ now then loaded
    else
      match decodeRecord codec now record with
      | .error _ => (loaded.1, loaded.2.erase id)
      | .ok entry =>
        if entry.isLive (now + 1) then (insertEntry loaded.1 id entry, loaded.2)
        else (loaded.1, loaded.2.erase id)

def restoreFromState (codec : VisaCodec) (now : Nat) (redis : Redis codec) :
    VisaStoreInner × Redis codec :=
  redis.toList.foldl (restoreEntry codec now) (.empty, redis)

/-- The process stops, losing memory and every call in progress, and opens the repository
again on the same database. -/
def Repo.restart (repo : Repo codec) : Repo codec where
  now := repo.now
  store := (restoreFromState codec repo.now repo.redis).1
  redis := (restoreFromState codec repo.now repo.redis).2
  nextVisaId := repo.nextVisaId
  handedOut := ∅
  lastPurge := none

/-- What happens to the repository while the process runs. -/
inductive RepoEvent where
  | tick (nanos : Nat)
  | getNextVisaId
  | call (op : RepoOp) (outcome : RedisOutcome)
  | purgeExpired

def RepoOp.newId : RepoOp → Option Nat
  | .storeVisa visa _ _ => some visa.issuerId
  | _ => none

/-- A visa is only ever stored under an id that was handed out for it, and once. -/
def Repo.claimId (repo : Repo codec) (op : RepoOp) : Option (Repo codec) :=
  match op.newId with
  | none => some repo
  | some id =>
    if id ∈ repo.handedOut then some { repo with handedOut := repo.handedOut.erase id } else none

def Repo.step (repo : Repo codec) : RepoEvent → Option (Repo codec)
  | .tick nanos => some { repo with now := repo.now + nanos }
  | .getNextVisaId => some repo.getNextVisaId
  | .purgeExpired => some repo.purgeExpired
  | .call op outcome => (repo.claimId op).map fun claimed => (claimed.call op outcome).1

theorem Repo.claimId_eq_some {repo claimed : Repo codec} {op : RepoOp}
    (claims : repo.claimId op = some claimed) :
    (∀ own, op.newId = some own → own ∈ repo.handedOut) ∧
      ∃ left : HashSet Nat, claimed = { repo with handedOut := left } ∧
        ∀ id, id ∈ left ↔ id ∈ repo.handedOut ∧ op.newId ≠ some id := by
  unfold Repo.claimId at claims
  split at claims
  next notNew =>
    cases claims
    exact ⟨by simp [notNew], repo.handedOut, rfl, by simp [notNew]⟩
  next own isNew =>
    split at claims
    next handed =>
      cases claims
      refine ⟨by simp [isNew, handed], _, rfl, fun id => ?_⟩
      simp [isNew, and_comm]
    · cases claims

/-! ### A concrete visa -/

/-- The identity codec, to run the repository on concrete visas. -/
def VisaCodec.plain : VisaCodec where
  Blob := Visa
  encode := .ok
  decode := .ok

namespace Sample

def node : IpAddr := .v4 0x0A000001

def visa : Visa :=
  { issuerId := 1, config := 0, expires := 3600 * nanosPerSec, visaType := .full
    dockPep := none, fwdPep := none }

def metadata : VisaMetadata :=
  { requestingNode := node, ctime := 0, policyVersion := 1, createdVinst := 0, checkedVinst := 0
    zpl := "", signalMsgs := [], direction := .forward, path := none
    fiveTuple := ⟨.v4 1, .v4 2, 6, 0, 443⟩ }

end Sample

end VisaService
