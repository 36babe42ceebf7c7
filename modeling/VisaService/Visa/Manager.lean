import VisaService.Visa.EntrySteps

/-!
# Reads and acknowledgements of the visa manager

The parts of `VisaMgr` that stand between the visa store and the nodes: which visas a
node has pending, the form in which a visa is sent to a node on its path, and what an
acknowledged revoke does to the record.
-/
namespace VisaService

open Lib

variable {codec : VisaCodec}

/-! ### Queries by node and state -/

/-- Live visas that list `node` in the given state, in the order of the node's index row. -/
def nodeVisasInState (now : Nat) (inner : VisaStoreInner) (node : IpAddr)
    (state : NodeVisaState) : List (Nat × VisaEntry) :=
  (nodeRow inner node).filterMap fun id =>
    (liveEntry now inner id).bind fun entry =>
      entry.nodeStates[node]?.bind fun ns =>
        if ns.state = state then some (id, entry) else none

def getVisasForNodeByState (now : Nat) (inner : VisaStoreInner) (node : IpAddr)
    (state : NodeVisaState) : List Visa :=
  (nodeVisasInState now inner node state).map fun (_, entry) => entry.visa

def getVisaIdsForNodeByState (now : Nat) (inner : VisaStoreInner) (node : IpAddr)
    (state : NodeVisaState) : List Nat :=
  (nodeVisasInState now inner node state).map Prod.fst

def visaHasNodeRefs (now : Nat) (inner : VisaStoreInner) (visaId : Nat) : Bool :=
  (liveEntry now inner visaId).any fun entry => !entry.nodeStates.isEmpty

theorem mem_nodeVisasInState {now id : Nat} {inner : VisaStoreInner} {node : IpAddr}
    {state : NodeVisaState} {entry : VisaEntry}
    (member : (id, entry) ∈ nodeVisasInState now inner node state) :
    liveEntry now inner id = some entry ∧ node ∈ entry.nodeStates := by
  simp only [nodeVisasInState, List.mem_filterMap, Option.bind_eq_some_iff] at member
  obtain ⟨own, -, found, live, ns, listed, inState⟩ := member
  split at inState
  · cases inState
    exact ⟨live, HashMap.mem_of_get listed⟩
  · cases inState

/-! ### Actualization -/

/-- The node `target` hands off to on `path`: the next one along. -/
def nextHopInPath : List IpAddr → IpAddr → Option IpAddr
  | [], _ => none
  | node :: rest, target => if node = target then rest.head? else nextHopInPath rest target

def toForwardingVisa (visa : Visa) (fwdPep : FwdPep) : Visa :=
  { visa with visaType := .forwardOnly, dockPep := none, fwdPep := some fwdPep }

def getVisaMetadataById (now : Nat) (inner : VisaStoreInner) (visaId : Nat) :
    Except StoreError VisaMetadata :=
  match liveEntry now inner visaId with
  | some entry => .ok entry.metadata
  | none => .error (.notFound s!"visa metadata not found for ID {visaId}")

/-- Adjust a visa for the node it is sent to: both ends of the path dock the flow, and all
but the egress node forward it one hop further along. -/
def actualizeVisaForTargetNode (now : Nat) (inner : VisaStoreInner) (visa : Visa)
    (targetNode : IpAddr) : Except ServiceError Visa :=
  match getVisaMetadataById now inner visa.issuerId with
  | .error failure => .error (.store failure)
  | .ok metadata =>
    match metadata.path with
    | none => .ok visa
    | some path =>
      -- a path of one node has no link to traverse
      if path.length < 2 then .ok visa
      else if path.head? ≠ some targetNode ∧ path.getLast? = some targetNode then .ok visa
      else
        match nextHopInPath path targetNode with
        | none => .error (.internal "failed to actualize visa")
        | some nextHop =>
          let fwdPep : FwdPep := { nextHop, style := .oneWay }
          if path.head? = some targetNode then .ok { visa with fwdPep := some fwdPep }
          else .ok (toForwardingVisa visa fwdPep)

theorem actualize_keeps {now : Nat} {inner : VisaStoreInner} {visa sent : Visa}
    {targetNode : IpAddr}
    (actualized : actualizeVisaForTargetNode now inner visa targetNode = .ok sent) :
    sent.issuerId = visa.issuerId ∧ sent.expires = visa.expires := by
  unfold actualizeVisaForTargetNode at actualized
  split at actualized
  · cases actualized
  · split at actualized
    · cases actualized
      exact ⟨rfl, rfl⟩
    · -- each branch below returns a copy that differs in its enforcement points only
      repeat' split at actualized
      all_goals cases actualized
      all_goals exact ⟨rfl, rfl⟩

/-! ### Acknowledged revokes -/

/-- The steps of `revoke_acked`, between which the task may be suspended: drop the node,
look for remaining references, remove the orphaned visa. -/
inductive AckTask where
  | dropNode (node : IpAddr) (visaId : Nat)
  | checkRefs (visaId : Nat)
  | removeVisa (visaId : Nat)
  deriving DecidableEq, Repr

/-- Run one step of an acknowledgement; what remains of it is returned. -/
def AckTask.advance (repo : Repo codec) (outcome : RedisOutcome) :
    AckTask → Repo codec × Option AckTask
  | .dropNode node visaId =>
    match repo.call (.removeNodeIfPendingRevoke node visaId) outcome with
    | (next, .error _) => (next, none)
    | (next, .ok _) => (next, some (.checkRefs visaId))
  | .checkRefs visaId =>
    (repo, if visaHasNodeRefs repo.now repo.store visaId then none
      else some (.removeVisa visaId))
  | .removeVisa visaId => ((repo.call (.removeVisa visaId) outcome).1, none)

end VisaService
