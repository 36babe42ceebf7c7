import VisaService.Basic

/-!
# The in-memory visa store

`VisaStoreInner` is the authoritative image of every issued visa, with two secondary
indexes: visas by the nodes that carry a state for them and visas by the endpoints of
their five-tuple. `VisaRecord` is what Redis persists for one visa.
-/
namespace VisaService

open Lib

inductive NodeVisaState where
  | pendingInstall
  | installed
  | pendingRevoke
  | revoked
  deriving DecidableEq, Repr

inductive EndpointT where
  | any
  | server
  | client
  deriving DecidableEq, Repr

inductive DockPepType where
  | tcp (sourcePort destPort : UInt16) (endpoint : EndpointT)
  | udp (sourcePort destPort : UInt16) (endpoint : EndpointT)
  | icmp (icmpType icmpCode : UInt8)
  deriving DecidableEq, Repr

/-- Session keys of the two ends; both empty when either end has none. -/
structure KeySet where
  ingressKey : List UInt8
  egressKey : List UInt8
  deriving DecidableEq, Repr

structure DockPep where
  pep : DockPepType
  sourceAddr : IpAddr
  destAddr : IpAddr
  sessionKey : KeySet
  deriving DecidableEq, Repr

inductive FwdPepStyle where
  | oneWay
  | symmetric
  deriving DecidableEq, Repr

structure FwdPep where
  nextHop : IpAddr
  style : FwdPepStyle
  deriving DecidableEq, Repr

inductive VisaType where
  | full
  | forwardOnly
  deriving DecidableEq, Repr

/-- The visa as sent to nodes. -/
structure Visa where
  issuerId : Nat
  config : Nat
  expires : Nat
  visaType : VisaType
  dockPep : Option DockPep
  fwdPep : Option FwdPep
  deriving DecidableEq, Repr

/-- Metadata around an issued visa. -/
structure VisaMetadata where
  requestingNode : IpAddr
  ctime : Nat
  policyVersion : Nat
  createdVinst : Nat
  checkedVinst : Nat
  zpl : String
  signalMsgs : List String
  direction : Direction
  path : Option (List IpAddr)
  fiveTuple : FiveTuple
  deriving DecidableEq, Repr

/-- Per-node state of a visa; `revokeVinst` is the policy generation stamped when a deny
verdict marked the node `pendingRevoke`. -/
structure NodeState where
  state : NodeVisaState
  revokeVinst : Option Nat
  deriving DecidableEq, Repr

abbrev NodeStates : Type := HashMap IpAddr NodeState

/-- In-memory, authoritative copy of one visa. -/
structure VisaEntry where
  visa : Visa
  metadata : VisaMetadata
  deadline : Nat
  nodeStates : NodeStates

/-- The value persisted at `visa:<id>`, in decoded form; the visa itself stays a blob. -/
structure VisaRecord (Blob : Type) where
  blob : Blob
  metadata : VisaMetadata
  nodeStates : NodeStates

structure VisaStoreInner where
  visas : HashMap Nat VisaEntry
  byNode : Rows IpAddr Nat
  byActor : Rows IpAddr Nat

namespace VisaStoreInner

def empty : VisaStoreInner := ⟨∅, ∅, ∅⟩

end VisaStoreInner

/-- The two ends of the flow a visa is for; the keys of its `byActor` rows. -/
def VisaMetadata.endpoints (metadata : VisaMetadata) : List IpAddr :=
  [metadata.fiveTuple.sourceAddr, metadata.fiveTuple.destAddr]

/-- The single liveness rule used by every read. -/
def VisaEntry.isLive (now : Nat) (entry : VisaEntry) : Bool :=
  decide (0 < remainingSecs now entry.deadline)

/-- The entry only if it is still live; expired entries read as absent. -/
def liveEntry (now : Nat) (inner : VisaStoreInner) (id : Nat) : Option VisaEntry :=
  inner.visas[id]?.filter (VisaEntry.isLive now)

/-- Drop `id` from `index[key]`, removing the row if it empties. -/
def unindex (index : Rows IpAddr Nat) (key : IpAddr) (id : Nat) : Rows IpAddr Nat :=
  index.drop key id

def unindexNode (inner : VisaStoreInner) (node : IpAddr) (id : Nat) : VisaStoreInner :=
  { inner with byNode := unindex inner.byNode node id }

/-- Insert an entry and index it by its nodes and by its five-tuple endpoints. -/
def insertEntry (inner : VisaStoreInner) (id : Nat) (entry : VisaEntry) : VisaStoreInner where
  visas := inner.visas.insert id entry
  byNode := inner.byNode.addAll entry.nodeStates.keys id
  byActor := inner.byActor.addAll entry.metadata.endpoints id

def removeEntry (inner : VisaStoreInner) (id : Nat) : VisaStoreInner :=
  match inner.visas[id]? with
  | none => inner
  | some entry =>
    { visas := inner.visas.erase id
      byActor := inner.byActor.dropAll entry.metadata.endpoints id
      byNode := inner.byNode.dropAll entry.nodeStates.keys id }

/-- Change an entry in place (`visas.get_mut`); a missing entry is left missing. -/
def modifyEntry (inner : VisaStoreInner) (id : Nat) (change : VisaEntry → VisaEntry) :
    VisaStoreInner :=
  { inner with visas := inner.visas.modify id change }

variable {inner : VisaStoreInner}

theorem liveEntry_eq_some {now : Nat} {id : Nat} {entry : VisaEntry} :
    liveEntry now inner id = some entry ↔
      inner.visas[id]? = some entry ∧ now + nanosPerSec ≤ entry.deadline := by
  simp [liveEntry, Option.filter_eq_some_iff, VisaEntry.isLive, remainingSecs_pos]

theorem VisaEntry.isLive_iff {now : Nat} {entry : VisaEntry} :
    entry.isLive now = true ↔ now + nanosPerSec ≤ entry.deadline := by
  simp [VisaEntry.isLive, remainingSecs_pos]

@[simp] theorem insertEntry_visas (inner : VisaStoreInner) (id other : Nat)
    (entry : VisaEntry) : (insertEntry inner id entry).visas[other]? =
      if id = other then some entry else inner.visas[other]? :=
  HashMap.get_insert _ _ _ _

@[simp] theorem removeEntry_visas (inner : VisaStoreInner) (id other : Nat) :
    (removeEntry inner id).visas[other]? =
      if id = other then none else inner.visas[other]? := by
  unfold removeEntry
  split
  next missing =>
    split
    next same => rw [← same, missing]
    next => rfl
  next => exact HashMap.get_erase _ _ _

@[simp] theorem unindexNode_visas (inner : VisaStoreInner) (node : IpAddr) (id : Nat) :
    (unindexNode inner node id).visas = inner.visas := rfl

@[simp] theorem modifyEntry_visas (inner : VisaStoreInner) (id other : Nat)
    (change : VisaEntry → VisaEntry) : (modifyEntry inner id change).visas[other]? =
      if id = other then inner.visas[id]?.map change else inner.visas[other]? :=
  HashMap.get_modify _ _ _ _

/-! ### Exact indexes -/

/-- INVARIANT C of the store, as what readers rely on: each index row lists exactly the
visas it should, and no row is kept empty. -/
structure VisaStoreInner.Indexed (inner : VisaStoreInner) : Prop where
  byNode : ∀ node id, inner.byNode.Holds node id ↔
    ∃ entry, inner.visas[id]? = some entry ∧ node ∈ entry.nodeStates
  byActor : ∀ actor id, inner.byActor.Holds actor id ↔
    ∃ entry, inner.visas[id]? = some entry ∧ actor ∈ entry.metadata.endpoints
  nodeRows : inner.byNode.NoEmptyRow
  actorRows : inner.byActor.NoEmptyRow

theorem indexed_empty : VisaStoreInner.empty.Indexed where
  byNode node id := by simp [VisaStoreInner.empty, Rows.not_holds_empty]
  byActor actor id := by simp [VisaStoreInner.empty, Rows.not_holds_empty]
  nodeRows := Rows.noEmptyRow_empty
  actorRows := Rows.noEmptyRow_empty

variable (indexed : inner.Indexed)
include indexed

/-- A new id's entry is indexed by the insert; `fresh` matters, since `insertEntry` does
not unindex an entry it overwrites. -/
theorem Indexed.insertEntry {id : Nat} (fresh : inner.visas[id]? = none)
    (entry : VisaEntry) :
    (insertEntry inner id entry).Indexed where
  byNode node other := by
    simp only [insertEntry_visas]
    simp only [VisaService.insertEntry, Rows.holds_addAll, indexed.byNode,
      Std.ExtTreeMap.mem_keys]
    grind
  byActor actor other := by
    simp only [insertEntry_visas]
    simp only [VisaService.insertEntry, Rows.holds_addAll, indexed.byActor]
    grind
  nodeRows := Rows.noEmptyRow_addAll indexed.nodeRows _ _
  actorRows := Rows.noEmptyRow_addAll indexed.actorRows _ _

theorem Indexed.removeEntry (id : Nat) :
    (removeEntry inner id).Indexed := by
  cases found : inner.visas[id]? with
  | none =>
    simp only [VisaService.removeEntry, found]
    exact indexed
  | some entry =>
    constructor
    · intro node other
      simp only [removeEntry_visas]
      simp only [VisaService.removeEntry, found, Rows.holds_dropAll, indexed.byNode,
        Std.ExtTreeMap.mem_keys]
      grind
    · intro actor other
      simp only [removeEntry_visas]
      simp only [VisaService.removeEntry, found, Rows.holds_dropAll, indexed.byActor]
      grind
    · simp only [VisaService.removeEntry, found]
      exact Rows.noEmptyRow_dropAll indexed.nodeRows _ _
    · simp only [VisaService.removeEntry, found]
      exact Rows.noEmptyRow_dropAll indexed.actorRows _ _

/-- A rewrite that keeps the listed nodes and the endpoints keeps the indexes exact. -/
theorem Indexed.modifyEntry (id : Nat) (change : VisaEntry → VisaEntry)
    (sameNodes : ∀ entry, inner.visas[id]? = some entry →
      ∀ node, node ∈ (change entry).nodeStates ↔ node ∈ entry.nodeStates)
    (sameEnds : ∀ entry, inner.visas[id]? = some entry →
      (change entry).metadata.endpoints = entry.metadata.endpoints) :
    (modifyEntry inner id change).Indexed where
  byNode node other := by
    simp only [modifyEntry_visas]
    simp only [VisaService.modifyEntry, indexed.byNode]
    grind
  byActor actor other := by
    simp only [modifyEntry_visas]
    simp only [VisaService.modifyEntry, indexed.byActor]
    grind
  nodeRows := indexed.nodeRows
  actorRows := indexed.actorRows

/-- Dropping a node from an entry and from the entry's index row in one step; also right
when a purge already removed the entry. -/
theorem Indexed.dropNode (id : Nat) (node : IpAddr)
    (change : VisaEntry → VisaEntry)
    (dropped : ∀ entry, inner.visas[id]? = some entry →
      ∀ other, other ∈ (change entry).nodeStates ↔ other ∈ entry.nodeStates ∧ other ≠ node)
    (sameEnds : ∀ entry, inner.visas[id]? = some entry →
      (change entry).metadata.endpoints = entry.metadata.endpoints) :
    (unindexNode (VisaService.modifyEntry inner id change) node id).Indexed where
  byNode other item := by
    simp only [unindexNode_visas, modifyEntry_visas]
    simp only [unindexNode, unindex, VisaService.modifyEntry, Rows.holds_drop, indexed.byNode]
    grind
  byActor actor item := by
    simp only [unindexNode_visas, modifyEntry_visas]
    simp only [unindexNode, VisaService.modifyEntry, indexed.byActor]
    grind
  nodeRows := Rows.noEmptyRow_drop indexed.nodeRows _ _
  actorRows := indexed.actorRows

end VisaService
