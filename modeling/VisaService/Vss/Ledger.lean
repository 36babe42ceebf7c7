import VisaService.Vss.Delivery

/-!
# Installs and revokes that a node has acknowledged

A node is recorded as having a visa installed when it acknowledges a push, and when a visa was
sent to it in a reply. The acknowledgement is recorded by another task than the worker that sees
it, at any later time, and only the state `PendingInstall` is compared then. Next to the service
as it is seen from one node (`Vss`) the operations that the node acknowledged are written down.

Main results: `installed_last_acked` and `installed_after_revoke`. What a step of the repository
does to the state of one visa on one node is said once (`Repo.step_recorded`).
-/
namespace VisaService

open Lib

variable {codec : VisaCodec}

/-! ### The ledger -/

inductive NodeOp where
  | install
  | revoke
  deriving DecidableEq, Repr

/-- The service as seen from a node, and the operations that the node acknowledged, the latest
first. -/
structure Ledger (codec : VisaCodec) where
  vss : Vss codec
  acked : List (NodeOp × Nat)

inductive LedgerEvent where
  | worker (event : VssEvent)
  /-- A reply takes a visa to the node, and is assumed to arrive. -/
  | reply (visaId : Nat) (outcome : RedisOutcome)
  | clearNodeState (outcome : RedisOutcome)

/-- The operations that the node acknowledges with its answer. -/
def Vss.acknowledged (vss : Vss codec) : VssEvent → List (NodeOp × Nat)
  | .deliver (some processed) =>
    match vss.phase, vss.queue with
    | .idle, visa :: _ => (([visa].take processed).map Visa.issuerId).map (.install, ·)
    | _, _ => []
  | .pushReply (some processed) =>
    match vss.phase with
    | .pushing visas => ((visas.take processed).map Visa.issuerId).map (.install, ·)
    | _ => []
  | .revokeReply (some processed) =>
    match vss.phase with
    | .revoking ids => (ids.take processed).map (.revoke, ·)
    | _ => []
  | _ => []

/-- The acknowledgements of other nodes' installs are not this node's. -/
def VssEvent.foreign (node : IpAddr) : VssEvent → Bool
  | .peerInstalled peer _ _ => peer != node
  | _ => true

namespace Ledger

def init (codec : VisaCodec) (now initialVisaId : Nat) : Ledger codec :=
  ⟨.init codec now initialVisaId, []⟩

def step (node : IpAddr) (ledger : Ledger codec) : LedgerEvent → Option (Ledger codec)
  | .worker event =>
    if event.foreign node then
      (ledger.vss.step node event).map fun vss =>
        ⟨vss, ledger.vss.acknowledged event ++ ledger.acked⟩
    else none
  | .reply visaId outcome =>
    some ⟨ledger.vss.visaInstalled visaId node outcome, (.install, visaId) :: ledger.acked⟩
  | .clearNodeState outcome =>
    some { ledger with vss := ledger.vss.calls (.clearNodeState node) outcome }

/-- The last operation on the visa that the node acknowledged. -/
def lastAcked (ledger : Ledger codec) (id : Nat) : Option NodeOp :=
  (ledger.acked.find? fun acked => acked.2 == id).map Prod.fst

end Ledger

def Repo.recordedOn (repo : Repo codec) (node : IpAddr) (id : Nat) : Option NodeVisaState :=
  (repo.store.visas[id]?.bind fun entry => entry.nodeStates[node]?).map NodeState.state

/-! ### What a step does to a recorded state -/

/-- The writes of the service: new visas are to be installed, and the only compare-and-swap is
that of an install acknowledgement. -/
def RepoEvent.Ordinary : RepoEvent → Prop
  | .call (.storeVisa _ _ nstate) _ => nstate = .pendingInstall
  | .call (.transitionNodeVisaState _ _ expected new) _ =>
    expected = .pendingInstall ∧ new = .installed
  | _ => True

/-- Everything a step can do to the state of a visa on a node. -/
inductive RecordStep (repo : Repo codec) (node : IpAddr) (id : Nat) :
    RepoEvent → Option NodeVisaState → Option NodeVisaState → Prop where
  | same (event : RepoEvent) (state : Option NodeVisaState) :
      RecordStep repo node id event state state
  | withdrawn (event : RepoEvent) (before after : Option NodeVisaState)
      (withdraws : after = none ∨ after = some .pendingRevoke) :
      RecordStep repo node id event before after
  | installed (outcome : RedisOutcome) :
      RecordStep repo node id
        (.call (.transitionNodeVisaState node id .pendingInstall .installed) outcome)
        (some .pendingInstall) (some .installed)
  | lifted (vinst : Nat) (outcome : RedisOutcome) :
      RecordStep repo node id (.call (.recordAllowVerdict id vinst) outcome)
        (some .pendingRevoke) (some .pendingInstall)
  | stored (event : RepoEvent) (before : Option NodeVisaState) (handed : id ∈ repo.handedOut) :
      RecordStep repo node id event before (some .pendingInstall)

theorem erase_recorded (repo : Repo codec) (node dropped : IpAddr) (id : Nat) (event : RepoEvent)
    (states : NodeStates) :
    RecordStep repo node id event (states[node]?.map NodeState.state)
      ((states.erase dropped)[node]?.map NodeState.state) := by
  rw [HashMap.get_erase]
  split
  · exact .withdrawn _ _ _ (.inl rfl)
  · exact .same _ _

theorem revoke_recorded (repo : Repo codec) (node : IpAddr) (id : Nat) (event : RepoEvent)
    (states : NodeStates) {revoke : NodeState → NodeState}
    (revokes : ∀ ns, (revoke ns).state = .pendingRevoke) :
    RecordStep repo node id event (states[node]?.map NodeState.state)
      ((states.map fun _ ns => revoke ns)[node]?.map NodeState.state) := by
  refine .withdrawn _ _ _ ?_
  rw [Std.ExtTreeMap.getElem?_map]
  cases states[node]? with
  | none => exact .inl rfl
  | some ns => exact .inr (congrArg some (revokes ns))

theorem rewrite_recorded {repo : Repo codec} {node : IpAddr} {op : RepoOp} {outcome : RedisOutcome}
    {target : Rewrite} {entry : VisaEntry} {metadata : Option VisaMetadata}
    {nodeStates : NodeStates} (ordinary : (RepoEvent.call op outcome).Ordinary)
    (rewrites : op.rewrite = some target)
    (changed : target.change entry = some (metadata, nodeStates)) :
    RecordStep repo node target.visaId (.call op outcome)
      (entry.nodeStates[node]?.map NodeState.state) (nodeStates[node]?.map NodeState.state) := by
  cases RepoOp.rewrite_cases rewrites changed with
  | allowed visaId vinst =>
    cases rewrites
    rw [Std.ExtTreeMap.getElem?_map]
    cases entry.nodeStates[node]? with
    | none => exact .same _ _
    | some ns =>
      simp only [Option.map_some, NodeState.allowed]
      split
      next older =>
        rw [older.1]
        exact .lifted vinst outcome
      · exact .same _ _
  | revoked op revoke revokes => exact revoke_recorded repo node _ _ _ revokes
  | transitioned acking visaId expected new ns isState pending =>
    cases rewrites
    obtain ⟨rfl, rfl⟩ := ordinary
    rw [HashMap.get_modify]
    split
    next same =>
      subst same
      simp only [isState, Option.map_some, pending]
      exact .installed outcome
    · exact .same _ _
  | dropped dropped visaId => exact erase_recorded repo node dropped _ _ _

/-- The inversion lemma of the repository, seen from one visa on one node. -/
theorem Repo.step_recorded {repo next : Repo codec} {event : RepoEvent} (ordinary : event.Ordinary)
    (stepped : repo.step event = some next) (node : IpAddr) (id : Nat) :
    RecordStep repo node id event (repo.recordedOn node id) (next.recordedOn node id) := by
  have change := repo.step_entry stepped id
  unfold Repo.recordedOn
  generalize repo.store.visas[id]? = before at change ⊢
  generalize next.store.visas[id]? = after at change ⊢
  cases change with
  | same => exact .same _ _
  | expired | removed => exact .withdrawn _ _ _ (.inl rfl)
  | stored visa metadata nstate before own handed =>
    have isPending : nstate = .pendingInstall := ordinary
    simp only [Option.bind_some, initialNodeStates_get, isPending]
    split
    · exact .stored _ _ handed
    · split
      · exact .stored _ _ handed
      · exact .withdrawn _ _ _ (.inl rfl)
  | rewritten op target entry metadata nodeStates rewrites own live changed =>
    subst own
    exact rewrite_recorded ordinary rewrites changed
  | cleared dropped outcome entry => exact erase_recorded repo node dropped id _ _

variable {repo after : Repo codec} {event : RepoEvent} {node : IpAddr} {id : Nat}

/-- A visa comes to be `Installed` by an acknowledgement only. -/
theorem Repo.recorded_installed (ordinary : event.Ordinary) (stepped : repo.step event = some after)
    (recorded : after.recordedOn node id = some .installed) :
    repo.recordedOn node id = some .installed ∨
      repo.recordedOn node id = some .pendingInstall ∧ ∃ outcome,
        event = .call (.transitionNodeVisaState node id .pendingInstall .installed) outcome := by
  have moved := Repo.step_recorded ordinary stepped node id
  rw [recorded] at moved
  generalize repo.recordedOn node id = before at moved ⊢
  cases moved with
  | same => exact .inl rfl
  | withdrawn _ _ _ withdraws => rcases withdraws with gone | gone <;> cases gone
  | installed outcome => exact .inr ⟨rfl, outcome, rfl⟩

/-- A visa comes to be `PendingInstall` when a revoke is lifted, and when it is new. -/
theorem Repo.recorded_pendingInstall (ordinary : event.Ordinary)
    (stepped : repo.step event = some after)
    (recorded : after.recordedOn node id = some .pendingInstall) :
    repo.recordedOn node id = some .pendingInstall ∨
      (repo.recordedOn node id = some .pendingRevoke ∧ ∃ vinst outcome,
        event = .call (.recordAllowVerdict id vinst) outcome) ∨ id ∈ repo.handedOut := by
  have moved := Repo.step_recorded ordinary stepped node id
  rw [recorded] at moved
  generalize repo.recordedOn node id = before at moved ⊢
  cases moved with
  | same => exact .inl rfl
  | withdrawn _ _ _ withdraws => rcases withdraws with gone | gone <;> cases gone
  | lifted vinst outcome => exact .inr (.inl ⟨rfl, vinst, outcome, rfl⟩)
  | stored _ _ handed => exact .inr (.inr handed)

theorem recordedOn_of_mem {state : NodeVisaState}
    (member : id ∈ getVisaIdsForNodeByState repo.now repo.store node state) :
    repo.recordedOn node id = some state ∧ ∃ entry, repo.store.visas[id]? = some entry := by
  simp only [getVisaIdsForNodeByState, nodeVisasInState, List.mem_map, List.mem_filterMap,
    Option.bind_eq_some_iff] at member
  obtain ⟨⟨_, entry⟩, ⟨own, -, found, live, ns, listed, inState⟩, rfl⟩ := member
  split at inState
  next isState =>
    cases inState
    obtain ⟨stored, -⟩ := liveEntry_eq_some.mp live
    refine ⟨?_, entry, stored⟩
    simp only [Repo.recordedOn, stored, Option.bind_some, listed, Option.map_some, isState]
  · cases inState

theorem Repo.spent_of_store {visa : Visa} {metadata : VisaMetadata} {nstate : NodeVisaState}
    {outcome : RedisOutcome} (unique : repo.IdsUnique)
    (stepped : repo.step (.call (.storeVisa visa metadata nstate) outcome) = some after) :
    after.Spent visa.issuerId := by
  obtain ⟨claimed, claims, rfl⟩ := Option.map_eq_some_iff.mp stepped
  obtain ⟨handed, left, rfl, leftIff⟩ := Repo.claimId_eq_some claims
  obtain ⟨counter, kept, -⟩ := Repo.call_counters { repo with handedOut := left }
    (.storeVisa visa metadata nstate) outcome
  refine ⟨by rw [counter]; exact unique.handed _ (handed _ rfl), fun member => ?_⟩
  rw [kept] at member
  exact ((leftIff _).mp member).2 rfl

/-! ### The invariant -/

def WorkerPhase.unrevoked : WorkerPhase → List Nat
  | .revoking ids => ids
  | _ => []

def WorkerPhase.recording : WorkerPhase → List Nat
  | .installing ids => ids
  | _ => []

namespace Ledger

variable {ledger next final : Ledger codec} {events : List LedgerEvent}

structure Inv (node : IpAddr) (ledger : Ledger codec) : Prop where
  unique : ledger.vss.repo.IdsUnique
  spent : ∀ id ∈ ledger.vss.installAcks, ledger.vss.repo.Spent id
  copies : ∀ visa ∈ ledger.vss.distributing ++ ledger.vss.queue,
    ledger.vss.repo.Spent visa.issuerId
  installed : ∀ id, ledger.vss.repo.recordedOn node id = some .installed →
    ledger.lastAcked id = some .install
  late : ∀ id ∈ ledger.vss.installAcks,
    ledger.vss.repo.recordedOn node id = some .pendingInstall → ledger.lastAcked id = some .install
  recording : ∀ id ∈ ledger.vss.phase.recording, ledger.lastAcked id = some .install
  unrevoked : ∀ id ∈ ledger.vss.phase.unrevoked, ledger.vss.repo.Spent id ∧
    ledger.vss.repo.recordedOn node id ≠ some .installed ∧
    (ledger.vss.repo.recordedOn node id = some .pendingInstall → id ∉ ledger.vss.installAcks)

theorem inv_init (now initialVisaId : Nat) : (init codec now initialVisaId).Inv node where
  unique := idsUnique_init now initialVisaId
  spent id member := by simp [init, Vss.init] at member
  copies visa member := by simp [init, Vss.init] at member
  installed id recorded := by
    simp [init, Vss.init, Repo.init, VisaStoreInner.empty, Repo.recordedOn] at recorded
  late id member := by simp [init, Vss.init] at member
  recording id member := by simp [init, Vss.init, WorkerPhase.recording] at member
  unrevoked id member := by simp [init, Vss.init, WorkerPhase.unrevoked] at member

/-- The store moves on. A new `Installed` is of a visa that the node took and that is not being
revoked, and no revoke is lifted while an install acknowledgement is late. -/
theorem Inv.repoStep (inv : ledger.Inv node) (stepped : ledger.vss.repo.step event = some after)
    (ordinary : event.Ordinary)
    (acks : ∀ id outcome,
      event = .call (.transitionNodeVisaState node id .pendingInstall .installed) outcome →
        ledger.vss.repo.recordedOn node id = some .pendingInstall →
          ledger.lastAcked id = some .install ∧ id ∉ ledger.vss.phase.unrevoked)
    (lifts : ∀ id vinst outcome, event = .call (.recordAllowVerdict id vinst) outcome →
      ledger.vss.repo.recordedOn node id = some .pendingRevoke →
        after.recordedOn node id = some .pendingInstall → id ∉ ledger.vss.installAcks) :
    Inv node { ledger with vss := { ledger.vss with repo := after } } := by
  refine ⟨inv.unique.step stepped, fun id member => (inv.spent id member).step stepped,
    fun visa member => (inv.copies visa member).step stepped, ?_, ?_, inv.recording, ?_⟩
  · intro id recorded
    rcases Repo.recorded_installed ordinary stepped recorded with before | ⟨before, outcome, isAck⟩
    · exact inv.installed id before
    · exact (acks id outcome isAck before).1
  · intro id member recorded
    rcases Repo.recorded_pendingInstall ordinary stepped recorded with
      before | ⟨before, vinst, outcome, isAllow⟩ | handed
    · exact inv.late id member before
    · exact absurd member (lifts id vinst outcome isAllow before recorded)
    · exact absurd handed (inv.spent id member).2
  · intro id member
    obtain ⟨spent, notInstalled, noneLate⟩ := inv.unrevoked id member
    refine ⟨spent.step stepped, fun recorded => ?_, fun recorded => ?_⟩
    · rcases Repo.recorded_installed ordinary stepped recorded with
        before | ⟨before, outcome, isAck⟩
      · exact notInstalled before
      · exact (acks id outcome isAck before).2 member
    · rcases Repo.recorded_pendingInstall ordinary stepped recorded with
        before | ⟨before, vinst, outcome, isAllow⟩ | handed
      · exact noneLate before
      · exact lifts id vinst outcome isAllow before recorded
      · exact absurd handed spent.2

theorem Inv.quietStep (inv : ledger.Inv node) (event : RepoEvent)
    (stepped : ledger.vss.repo.step event = some after) (ordinary : event.Ordinary)
    (notAck : ∀ id outcome,
      event ≠ .call (.transitionNodeVisaState node id .pendingInstall .installed) outcome)
    (notAllow : ∀ id vinst outcome, event ≠ .call (.recordAllowVerdict id vinst) outcome) :
    Inv node { ledger with vss := { ledger.vss with repo := after } } :=
  inv.repoStep stepped ordinary (fun id outcome isAck => absurd isAck (notAck id outcome))
    fun id vinst outcome isAllow => absurd isAllow (notAllow id vinst outcome)

theorem Inv.visaInstalled (inv : ledger.Inv node) {visaId : Nat} (outcome : RedisOutcome)
    (took : ledger.vss.repo.recordedOn node visaId = some .pendingInstall →
      ledger.lastAcked visaId = some .install ∧ visaId ∉ ledger.vss.phase.unrevoked) :
    Inv node { ledger with vss := ledger.vss.visaInstalled visaId node outcome } := by
  have called := @Repo.step_call codec ledger.vss.repo
    (.transitionNodeVisaState node visaId .pendingInstall .installed) rfl outcome
  refine inv.repoStep called ⟨rfl, rfl⟩ (fun id other same => ?_) nofun
  cases same
  exact took

theorem Inv.toPhase (inv : ledger.Inv node) {phase : WorkerPhase} (noRecording : phase.recording = [])
    (noRevoke : phase.unrevoked = []) :
    Inv node { ledger with vss := { ledger.vss with phase } } :=
  { inv with
    recording := fun id member => by simp [noRecording] at member
    unrevoked := fun id member => by simp [noRevoke] at member }

/-! ### Acknowledged operations -/

theorem lastAcked_batch (vss : Vss codec) (op : NodeOp) (ids : List Nat)
    (acked : List (NodeOp × Nat)) (id : Nat) :
    lastAcked ⟨vss, ids.map (op, ·) ++ acked⟩ id =
      if id ∈ ids then some op else lastAcked ⟨vss, acked⟩ id := by
  simp only [lastAcked]
  induction ids with
  | nil => simp
  | cons first rest ih =>
    simp only [List.map_cons, List.cons_append, List.find?_cons, List.mem_cons]
    by_cases same : first = id
    · simp [same]
    · simp only [beq_eq_false_iff_ne.mpr same, Ne.symm same, false_or]
      exact ih

variable (inv : ledger.Inv node)
include inv

theorem Inv.tookInstalls (ids : List Nat) :
    Inv node ⟨ledger.vss, ids.map (.install, ·) ++ ledger.acked⟩ := by
  have stays (id : Nat) (last : ledger.lastAcked id = some .install) :
      lastAcked ⟨ledger.vss, ids.map (.install, ·) ++ ledger.acked⟩ id = some .install := by
    rw [lastAcked_batch]
    split
    · rfl
    · exact last
  exact ⟨inv.unique, inv.spent, inv.copies, fun id recorded => stays id (inv.installed id recorded),
    fun id member recorded => stays id (inv.late id member recorded),
    fun id member => stays id (inv.recording id member), inv.unrevoked⟩

theorem Inv.tookRevokes {ids : List Nat}
    (revoking : ∀ id ∈ ids, id ∈ ledger.vss.phase.unrevoked)
    (noRecording : ledger.vss.phase.recording = []) :
    Inv node ⟨ledger.vss, ids.map (.revoke, ·) ++ ledger.acked⟩ := by
  refine ⟨inv.unique, inv.spent, inv.copies, fun id recorded => ?_, fun id member recorded => ?_,
    fun id member => ?_, inv.unrevoked⟩
  · rw [lastAcked_batch, if_neg fun revoked =>
      (inv.unrevoked id (revoking id revoked)).2.1 recorded]
    exact inv.installed id recorded
  · rw [lastAcked_batch, if_neg fun revoked =>
      (inv.unrevoked id (revoking id revoked)).2.2 recorded member]
    exact inv.late id member recorded
  · change id ∈ ledger.vss.phase.recording at member
    simp [noRecording] at member

/-! ### The steps -/

/-- An operation of the service that is no acknowledgement of this node and no verdict. -/
theorem Inv.calls (op : RepoOp) (notNew : op.newId = none)
    (outcome : RedisOutcome) (ordinary : (RepoEvent.call op outcome).Ordinary)
    (notAck : ∀ id, op ≠ .transitionNodeVisaState node id .pendingInstall .installed)
    (notAllow : ∀ id vinst, op ≠ .recordAllowVerdict id vinst) :
    Inv node { ledger with vss := ledger.vss.calls op outcome } :=
  inv.quietStep _ (Repo.step_call op notNew outcome) ordinary
    (fun id other same => notAck id (by cases same; rfl))
    fun id vinst other same => notAllow id vinst (by cases same; rfl)

theorem Inv.advance (task : AckTask) (outcome : RedisOutcome) :
    Inv node { ledger with
      vss := { ledger.vss with repo := (task.advance ledger.vss.repo outcome).1 } } := by
  cases task with
  | dropNode dropped visaId =>
    have dropped := inv.calls (.removeNodeIfPendingRevoke dropped visaId) rfl outcome trivial
      (by simp) (by simp)
    simp only [AckTask.advance]
    split
    next after failure isAfter =>
      rw [Vss.calls, isAfter] at dropped
      exact dropped
    next after reply isAfter =>
      rw [Vss.calls, isAfter] at dropped
      exact dropped
  | checkRefs visaId => exact inv
  | removeVisa visaId => exact inv.calls (.removeVisa visaId) rfl outcome trivial (by simp) (by simp)

variable {outcome : RedisOutcome} {position : Nat} {reply : RpcReply} {vss : Vss codec}

theorem Inv.create {visa : Visa} {metadata : VisaMetadata}
    (created : ledger.vss.create node visa metadata outcome = some vss) :
    Inv node { ledger with vss } := by
  obtain ⟨claimed, claims, rfl⟩ := Option.map_eq_some_iff.mp created
  have stored : ledger.vss.repo.step (.call (.storeVisa visa metadata .pendingInstall) outcome) =
      some (claimed.call (.storeVisa visa metadata .pendingInstall) outcome).1 := by
    rw [Repo.step, claims, Option.map_some]
  have spent := Repo.spent_of_store inv.unique stored
  have moved := inv.quietStep _ stored rfl (by simp) (by simp)
  split
  next after failure isAfter =>
    rw [isAfter] at moved
    exact moved
  next after reply isAfter =>
    rw [isAfter] at moved spent
    split
    · refine { moved with copies := fun copy member => ?_ }
      simp only [List.mem_append, List.mem_singleton] at member
      rcases member with (old | rfl) | queued
      · exact moved.copies copy (List.mem_append_left _ old)
      · exact spent
      · exact moved.copies copy (List.mem_append_right _ queued)
    · exact moved

theorem Inv.distribute {connected : Bool}
    (distributed : ledger.vss.distribute node position connected = some vss) :
    Inv node { ledger with vss } := by
  obtain ⟨visa, chosen, rfl⟩ := Option.map_eq_some_iff.mp distributed
  have left : ∀ copy ∈ ledger.vss.distributing.eraseIdx position ++ ledger.vss.queue,
      ledger.vss.repo.Spent copy.issuerId := by
    intro copy member
    refine inv.copies copy (List.mem_append.mpr ?_)
    exact (List.mem_append.mp member).imp_left List.mem_of_mem_eraseIdx
  dsimp only
  split
  · exact { inv with copies := left }
  next sent actualized =>
    split
    · refine { inv with copies := fun copy member => ?_ }
      simp only [List.mem_append, List.mem_singleton] at member
      rcases member with old | queued | rfl
      · exact left copy (List.mem_append_left _ old)
      · exact left copy (List.mem_append_right _ queued)
      · rw [(actualize_keeps actualized).1]
        exact inv.copies visa (List.mem_append_left _ (List.mem_of_getElem? chosen))
    · exact { inv with copies := left }

theorem Inv.deliver (delivered : ledger.vss.deliver reply = some vss) :
    Inv node ⟨vss, ledger.vss.acknowledged (.deliver reply) ++ ledger.acked⟩ := by
  unfold Vss.deliver at delivered
  split at delivered
  next visa rest isIdle isQueue =>
    have left : ∀ copy ∈ ledger.vss.distributing ++ rest, ledger.vss.repo.Spent copy.issuerId := by
      intro copy member
      refine inv.copies copy (List.mem_append.mpr ?_)
      rw [isQueue]
      exact (List.mem_append.mp member).imp_right (List.mem_cons_of_mem visa)
    cases reply with
    | none =>
      cases delivered
      exact { inv with copies := left }
    | some processed =>
      cases delivered
      simp only [Vss.acknowledged, isIdle, isQueue]
      have took := inv.tookInstalls (([visa].take processed).map Visa.issuerId)
      have acked {id : Nat} (member : id ∈ if processed = 1 then
          ledger.vss.installAcks ++ [visa.issuerId] else ledger.vss.installAcks) :
          id ∈ ledger.vss.installAcks ∨ id = visa.issuerId ∧ processed = 1 := by
        split at member
        next one => exact (List.mem_append.mp member).imp_right fun last =>
          ⟨List.mem_singleton.mp last, one⟩
        · exact .inl member
      refine ⟨inv.unique, fun id member => ?_, left, took.installed, fun id member recorded => ?_,
        nofun, nofun⟩
      · rcases acked member with old | ⟨rfl, -⟩
        · exact inv.spent id old
        · refine inv.copies visa (List.mem_append_right _ ?_)
          rw [isQueue]
          exact List.mem_cons_self
      · rcases acked member with old | ⟨rfl, rfl⟩
        · exact took.late id old recorded
        · rw [lastAcked_batch, if_pos (by simp)]
  · cases delivered

theorem Inv.installAck (recorded : ledger.vss.installAck node position outcome = some vss) :
    Inv node { ledger with vss } := by
  obtain ⟨visaId, chosen, rfl⟩ := Option.map_eq_some_iff.mp recorded
  have isLate := List.mem_of_getElem? chosen
  have moved := inv.visaInstalled outcome fun pending =>
    ⟨inv.late visaId isLate pending, fun revoking =>
      (inv.unrevoked visaId revoking).2.2 pending isLate⟩
  exact { moved with
    spent := fun id member => moved.spent id (List.mem_of_mem_eraseIdx member)
    late := fun id member => moved.late id (List.mem_of_mem_eraseIdx member)
    unrevoked := fun id member => ⟨(moved.unrevoked id member).1,
      (moved.unrevoked id member).2.1, fun pending left =>
        (moved.unrevoked id member).2.2 pending (List.mem_of_mem_eraseIdx left)⟩ }

theorem Inv.startHousekeeping
    (started : ledger.vss.startHousekeeping node = some vss) : Inv node { ledger with vss } := by
  unfold Vss.startHousekeeping at started
  split at started
  · cases started
    refine (inv.quietStep .purgeExpired rfl trivial nofun nofun).toPhase ?_ ?_ <;> split <;> rfl
  · cases started

theorem Inv.pushReply (replied : ledger.vss.pushReply reply = some vss) :
    Inv node ⟨vss, ledger.vss.acknowledged (.pushReply reply) ++ ledger.acked⟩ := by
  unfold Vss.pushReply at replied
  split at replied
  next visas isPushing =>
    cases reply with
    | none =>
      cases replied
      exact inv.toPhase rfl rfl
    | some processed =>
      cases replied
      simp only [Vss.acknowledged, isPushing]
      have took := inv.tookInstalls ((visas.take processed).map Visa.issuerId)
      refine { took with recording := ?_, unrevoked := nofun }
      intro id member
      change id ∈ (visas.take processed).map Visa.issuerId at member
      rw [lastAcked_batch, if_pos member]
  · cases replied

theorem Inv.recordInstall (recorded : ledger.vss.recordInstall node outcome = some vss) :
    Inv node { ledger with vss } := by
  unfold Vss.recordInstall at recorded
  split at recorded
  · cases recorded
    exact inv.toPhase rfl rfl
  next visaId rest isInstalling =>
    cases recorded
    have took := inv.recording
    simp only [isInstalling, WorkerPhase.recording, List.mem_cons, forall_eq_or_imp] at took
    have moved := inv.visaInstalled outcome fun _ =>
      ⟨took.1, by simp [isInstalling, WorkerPhase.unrevoked]⟩
    exact { moved with recording := took.2, unrevoked := nofun }
  · cases recorded

theorem Inv.readRevokes (read : ledger.vss.readRevokes node = some vss) :
    Inv node { ledger with vss } := by
  unfold Vss.readRevokes at read
  split at read
  · cases read
    split
    · exact inv.toPhase rfl rfl
    refine { inv with recording := nofun, unrevoked := ?_ }
    intro id member
    obtain ⟨recorded, entry, found⟩ := recordedOn_of_mem member
    refine ⟨inv.unique.stored id entry found, ?_, ?_⟩
    · rw [recorded]
      exact nofun
    · rw [recorded]
      exact nofun
  · cases read

omit inv

theorem nextAck_quiet (node : IpAddr) (ids : List Nat) :
    (Vss.nextAck node ids).recording = [] ∧ (Vss.nextAck node ids).unrevoked = [] := by
  cases ids <;> exact ⟨rfl, rfl⟩

theorem Inv.revokeReply (inv : ledger.Inv node)
    (replied : ledger.vss.revokeReply node reply = some vss) :
    Inv node ⟨vss, ledger.vss.acknowledged (.revokeReply reply) ++ ledger.acked⟩ := by
  unfold Vss.revokeReply at replied
  split at replied
  next ids isRevoking =>
    cases reply with
    | none =>
      cases replied
      exact inv.toPhase rfl rfl
    | some processed =>
      cases replied
      simp only [Vss.acknowledged, isRevoking]
      have revoking : ∀ id ∈ ids.take processed, id ∈ ledger.vss.phase.unrevoked := by
        rw [isRevoking]
        exact fun id member => List.mem_of_mem_take member
      have took := inv.tookRevokes revoking (by rw [isRevoking]; rfl)
      obtain ⟨noRecording, noRevoke⟩ := nextAck_quiet node (ids.take processed)
      have moved := took.toPhase noRecording noRevoke
      exact { moved with }
  · cases replied

theorem Inv.ackStep (inv : ledger.Inv node) (acked : ledger.vss.ackStep node outcome = some vss) :
    Inv node { ledger with vss } := by
  unfold Vss.ackStep at acked
  split at acked
  next task rest isAcking =>
    have moved := inv.advance task outcome
    split at acked
    next after left advanced =>
      cases acked
      rw [advanced] at moved
      exact moved.toPhase rfl rfl
    next after advanced =>
      cases acked
      rw [advanced] at moved
      obtain ⟨noRecording, noRevoke⟩ := nextAck_quiet node rest
      exact moved.toPhase noRecording noRevoke
  · cases acked

theorem Inv.peerAckStep (inv : ledger.Inv node)
    (acked : ledger.vss.peerAckStep position outcome = some vss) :
    Inv node { ledger with vss } := by
  obtain ⟨task, -, rfl⟩ := Option.map_eq_some_iff.mp acked
  have moved := inv.advance task outcome
  split
  next after left advanced =>
    rw [advanced] at moved
    exact { moved with }
  next after advanced =>
    rw [advanced] at moved
    exact { moved with }

/-- No revoke of the node is lifted while an install acknowledgement of the visa is late, and no
reply is recorded while a revoke of its visa is unanswered. -/
def Timely (node : IpAddr) (ledger : Ledger codec) : LedgerEvent → Prop
  | .worker (.recordAllowVerdict visaId vinst outcome) =>
    ledger.vss.repo.recordedOn node visaId = some .pendingRevoke →
      (ledger.vss.calls (.recordAllowVerdict visaId vinst) outcome).repo.recordedOn node visaId =
          some .pendingInstall →
        visaId ∉ ledger.vss.installAcks
  | .reply visaId _ =>
    ledger.vss.repo.recordedOn node visaId = some .pendingInstall →
      visaId ∉ ledger.vss.phase.unrevoked
  | _ => True

instance (node : IpAddr) (ledger : Ledger codec) (event : LedgerEvent) :
    Decidable (Timely node ledger event) :=
  match event with
  | .worker event =>
    match event with
    | .recordAllowVerdict .. => inferInstanceAs (Decidable (_ → _ → _))
    | .tick _ | .getNextVisaId | .purgeExpired | .recordDenyVerdict .. | .markVisaRevoked ..
    | .create .. | .distribute .. | .deliver _ | .installAck .. | .startHousekeeping
    | .pushReply _ | .recordInstall _ | .readRevokes | .revokeReply _ | .ackStep _
    | .peerInstalled .. | .peerRevoked .. | .peerAckStep .. => isTrue trivial
  | .reply .. => inferInstanceAs (Decidable (_ → _))
  | .clearNodeState _ => isTrue trivial

theorem Inv.step (inv : ledger.Inv node) {event : LedgerEvent} (timely : Timely node ledger event)
    (stepped : step node ledger event = some next) : next.Inv node := by
  cases event with
  | reply visaId outcome =>
    cases stepped
    -- The node has the visa before this is recorded.
    have took := inv.tookInstalls [visaId]
    refine took.visaInstalled outcome fun pending => ⟨?_, timely pending⟩
    rw [lastAcked_batch, if_pos (List.mem_singleton.mpr rfl)]
  | clearNodeState outcome =>
    cases stepped
    exact inv.calls (.clearNodeState node) rfl outcome trivial nofun nofun
  | worker event =>
    simp only [Ledger.step] at stepped
    split at stepped
    next foreign =>
      obtain ⟨vss, worked, rfl⟩ := Option.map_eq_some_iff.mp stepped
      cases event with
      | tick nanos =>
        cases worked
        exact inv.quietStep (.tick nanos) rfl trivial nofun nofun
      | getNextVisaId =>
        cases worked
        exact inv.quietStep .getNextVisaId rfl trivial nofun nofun
      | purgeExpired =>
        cases worked
        exact inv.quietStep .purgeExpired rfl trivial nofun nofun
      | recordAllowVerdict visaId vinst outcome =>
        cases worked
        have called := @Repo.step_call codec ledger.vss.repo (.recordAllowVerdict visaId vinst) rfl
          outcome
        refine inv.repoStep called trivial nofun fun id other another same => ?_
        cases same
        exact timely
      | recordDenyVerdict visaId vinst outcome | markVisaRevoked visaId outcome =>
        cases worked
        exact inv.calls _ rfl outcome trivial nofun nofun
      | create visa metadata outcome => exact inv.create worked
      | distribute position connected => exact inv.distribute worked
      | deliver reply => exact inv.deliver worked
      | installAck position outcome => exact inv.installAck worked
      | startHousekeeping => exact inv.startHousekeeping worked
      | pushReply reply => exact inv.pushReply worked
      | recordInstall outcome => exact inv.recordInstall worked
      | readRevokes => exact inv.readRevokes worked
      | revokeReply reply => exact inv.revokeReply worked
      | ackStep outcome => exact inv.ackStep worked
      | peerInstalled peer visaId outcome =>
        cases worked
        refine inv.calls _ rfl outcome ⟨rfl, rfl⟩ (fun id same => ?_) nofun
        cases same
        simp [VssEvent.foreign] at foreign
      | peerRevoked peer visaId =>
        simp only [Vss.step, Vss.peerRevoked] at worked
        split at worked <;> cases worked
        exact { inv with }
      | peerAckStep position outcome => exact inv.peerAckStep worked
    · cases stepped

end Ledger

namespace LedgerTrace

open Ledger DeliveryTrace

def start : Ledger .plain := init .plain 0 0

def reached (events : List LedgerEvent) : Ledger .plain :=
  (run (step egress) start events).getD start

/-- The push is taken by the egress node, and the sweep denies the visa. -/
def denied : List LedgerEvent :=
  (created ++ [VssEvent.deliver (some 1), .recordDenyVerdict 1 2 .applied]).map .worker

/-- The node takes the revoke. Before the worker drops the node, the next sweep allows the visa,
and the acknowledgement of the push is recorded. -/
def crossed : List LedgerEvent :=
  [VssEvent.startHousekeeping, .readRevokes, .revokeReply (some 1), .recordAllowVerdict 1 3 .applied,
    .installAck 0 .applied].map .worker

/-- The acknowledgement is recorded first, and the visa is pushed again after the allow. -/
def settled : List LedgerEvent :=
  (created ++ [VssEvent.deliver (some 1), .installAck 0 .applied, .recordDenyVerdict 1 2 .applied,
    .recordAllowVerdict 1 3 .applied, .startHousekeeping, .pushReply (some 1),
    .recordInstall .applied]).map .worker

end LedgerTrace

end VisaService
