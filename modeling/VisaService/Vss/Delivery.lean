import VisaService.Vss.Worker

/-!
# Does the record list every node that holds the visa?

A revocation reaches a node only through the record that lists it, so a node that holds
a visa must stay listed until it has dropped the visa. Pushes from housekeeping keep
this. A queued push does not: the worker can acknowledge a revoke of the visa, and so drop the
node from the record, while a copy of the visa is still on its way to the node.
-/
namespace VisaService

open Lib

variable {codec : VisaCodec}

/-! ### Visas whose record still lists the node -/

/-- The record of the visa lists the node and outlives it by the store's rounding, or the
visa is in its last two seconds. -/
def Covered (node : IpAddr) (repo : Repo codec) (visa : Visa) : Prop :=
  visa.expires < repo.now + 2 * nanosPerSec ∨
    ∃ entry, repo.store.visas[visa.issuerId]? = some entry ∧ node ∈ entry.nodeStates ∧
      visa.expires < entry.deadline + nanosPerSec

/-- No node is left on a visa that is about to be removed as an orphan. -/
def Orphaned (repo : Repo codec) (id : Nat) : Prop :=
  ∀ entry, repo.store.visas[id]? = some entry → entry.isLive repo.now = true →
    ∀ node, node ∉ entry.nodeStates

/-- The store operations that may take `node` off the visas `onTheWay` to it. -/
def RepoEvent.Spares (node : IpAddr) (repo : Repo codec) (onTheWay : Nat → Prop) :
    RepoEvent → Prop
  | .call (.clearNodeState _) _ => False
  | .call (.removeNodeIfPendingRevoke dropped id) _ => dropped = node → ¬ onTheWay id
  | .call (.removeVisa id) _ => Orphaned repo id
  | _ => True

variable {node : IpAddr} {event : RepoEvent} {id position : Nat} {task : AckTask}
variable {held : HashMap Nat Visa} {phase : WorkerPhase} {vss next : Vss codec}
variable {outcome : RedisOutcome} {reply : RpcReply}

theorem Covered.step {repo next : Repo codec} {visa : Visa} {onTheWay : Nat → Prop}
    (covered : Covered node repo visa) (unique : repo.IdsUnique)
    (spares : event.Spares node repo onTheWay) (pushed : onTheWay visa.issuerId)
    (stepped : repo.step event = some next) : Covered node next visa := by
  have forward := Repo.step_now stepped
  rcases covered with ending | ⟨entry, found, listed, bound⟩
  · exact .inl (by omega)
  have change := repo.step_entry stepped visa.issuerId
  rw [found] at change
  generalize after : next.store.visas[visa.issuerId]? = final at change
  -- an entry that is no longer live belongs to a visa in its last two seconds
  have dying (dead : entry.isLive repo.now = false) : Covered node next visa := by
    have expired : ¬ repo.now + nanosPerSec ≤ entry.deadline := fun live => by
      simp [VisaEntry.isLive_iff.mpr live] at dead
    exact .inl (by omega)
  cases change with
  | same => exact .inr ⟨entry, after, listed, bound⟩
  | expired _ dead => exact dying dead
  | removed outcome =>
    cases live : entry.isLive repo.now with
    | false => exact dying live
    | true => exact absurd listed (spares entry found live node)
  | stored _ _ _ _ own handed => exact absurd handed (unique.stored _ entry found).2
  | cleared => exact spares.elim
  | rewritten op target _ metadata nodeStates rewrites own live changed =>
    refine .inr ⟨_, after, ?_, bound⟩
    refine ((RepoOp.rewrite_domain rewrites changed).1 node).mpr ⟨listed, fun dropped => ?_⟩
    cases op with
    | removeNodeIfPendingRevoke peer id =>
      cases rewrites
      cases dropped
      cases own
      exact spares rfl pushed
    | _ => cases rewrites <;> cases dropped

theorem Orphaned.step {repo next : Repo codec} (orphaned : Orphaned repo id) (spent : repo.Spent id)
    (stepped : repo.step event = some next) : Orphaned next id := by
  have forward := Repo.step_now stepped
  intro entry found live
  have change := repo.step_entry stepped id
  rw [found] at change
  generalize before : repo.store.visas[id]? = old at change
  rw [VisaEntry.isLive_iff] at live
  cases change with
  | same => exact orphaned entry before (VisaEntry.isLive_iff.mpr (by omega))
  | stored _ _ _ _ own handed => exact absurd handed spent.2
  | cleared node outcome entry listed =>
    have empty := orphaned entry before
      (VisaEntry.isLive_iff.mpr (Nat.le_trans (Nat.add_le_add_right forward _) live))
    exact absurd listed (empty node)
  | rewritten op target entry metadata nodeStates rewrites own isLive changed =>
    intro node member
    have empty := orphaned entry before (VisaEntry.isLive_iff.mpr (liveEntry_eq_some.mp isLive).2)
    exact empty node (((RepoOp.rewrite_domain rewrites changed).1 node).mp member).1

/-- The deadline the store gave a visa lags its expiry by less than a second. -/
def Repo.DeadlinesClose (repo : Repo codec) : Prop :=
  ∀ (id : Nat) (entry : VisaEntry), repo.store.visas[id]? = some entry →
    entry.visa.issuerId = id ∧ entry.visa.expires < entry.deadline + nanosPerSec

theorem Repo.DeadlinesClose.step {repo next : Repo codec} (close : repo.DeadlinesClose)
    (stepped : repo.step event = some next) :
    next.DeadlinesClose := by
  intro id entry found
  have change := repo.step_entry stepped id
  rw [found] at change
  generalize before : repo.store.visas[id]? = old at change
  cases change with
  | same => exact close id entry before
  | stored visa metadata nstate _ own handed unexpired =>
    exact ⟨own, lt_now_add_secondsUntil repo.now visa.expires⟩
  | cleared node outcome entry listed => exact close id entry before
  | rewritten op target entry metadata nodeStates => exact close id entry before

/-! ### The invariant of the node and its worker -/

/-- What an acknowledgement task relies on: its visa was stored before, and a visa it is
about to remove has no node left. -/
def AckTask.Sound (repo : Repo codec) : AckTask → Prop
  | .dropNode _ id => repo.Spent id
  | .checkRefs id => repo.Spent id
  | .removeVisa id => repo.Spent id ∧ Orphaned repo id

/-- The node an acknowledgement task is going to drop, if it has not done so. -/
def AckTask.drops : AckTask → Option (IpAddr × Nat)
  | .dropNode node id => some (node, id)
  | _ => none

def WorkerPhase.pushed : WorkerPhase → List Visa
  | .pushing visas => visas
  | _ => []

/-- Visas that are on their way to the node: pushed by the worker, queued for it, or still
to be distributed. -/
def Vss.outstanding (vss : Vss codec) : List Visa :=
  vss.phase.pushed ++ (vss.distributing ++ vss.queue)

/-- What the worker's position says about the store and the node. -/
def WorkerPhase.Sound (node : IpAddr) (repo : Repo codec) (held : HashMap Nat Visa) :
    WorkerPhase → Prop
  | .revoking ids => ∀ id ∈ ids, repo.Spent id
  | .acking task ids =>
    task.Sound repo ∧ (∀ dropped id, task.drops = some (dropped, id) →
      dropped = node ∧ held[id]? = none) ∧
    ∀ id ∈ ids, repo.Spent id ∧ held[id]? = none
  | _ => True

structure Vss.Inv (node : IpAddr) (vss : Vss codec) : Prop where
  unique : vss.repo.IdsUnique
  close : vss.repo.DeadlinesClose
  held : ∀ (id : Nat) (visa : Visa), vss.held[id]? = some visa →
    visa.issuerId = id ∧ Covered node vss.repo visa
  outstanding : ∀ visa ∈ vss.outstanding, Covered node vss.repo visa
  phase : vss.phase.Sound node vss.repo vss.held
  peers : ∀ task ∈ vss.peerAcks, task.Sound vss.repo ∧
    ∀ dropped id, task.drops = some (dropped, id) → dropped ≠ node

theorem Vss.inv_init (node : IpAddr) (now initialVisaId : Nat) :
    (Vss.init codec now initialVisaId).Inv node where
  unique := idsUnique_init now initialVisaId
  close id entry found := by simp [Vss.init, Repo.init, VisaStoreInner.empty] at found
  held id visa found := by simp [Vss.init] at found
  outstanding visa member := by simp [Vss.outstanding, Vss.init, WorkerPhase.pushed] at member
  phase := trivial
  peers task member := by simp [Vss.init] at member

theorem AckTask.Sound.step {repo next : Repo codec} (sound : task.Sound repo)
    (stepped : repo.step event = some next) : task.Sound next := by
  cases task with
  | dropNode node id | checkRefs id => exact Repo.Spent.step sound stepped
  | removeVisa id => exact ⟨sound.1.step stepped, sound.2.step sound.1 stepped⟩

theorem WorkerPhase.Sound.step {repo next : Repo codec} (sound : phase.Sound node repo held)
    (stepped : repo.step event = some next) : phase.Sound node next held := by
  cases phase with
  | revoking ids => exact fun id member => (sound id member).step stepped
  | acking task ids =>
    exact ⟨sound.1.step stepped, sound.2.1, fun id member =>
      ⟨(sound.2.2 id member).1.step stepped, (sound.2.2 id member).2⟩⟩
  | idle | pushing | installing | readRevokes => trivial

/-- Ids of visas the node holds or is about to get. -/
def Vss.Reaches (vss : Vss codec) (id : Nat) : Prop :=
  (∃ visa, vss.held[id]? = some visa) ∨ ∃ visa ∈ vss.outstanding, visa.issuerId = id

/-- The store moves on; the worker and the node stay where they are. -/
theorem Vss.Inv.repoStep (inv : vss.Inv node) (event : RepoEvent) {next : Repo codec}
    (stepped : vss.repo.step event = some next) (spares : event.Spares node vss.repo vss.Reaches) :
    Vss.Inv node { vss with repo := next } where
  unique := inv.unique.step stepped
  close := inv.close.step stepped
  held id visa found := by
    obtain ⟨own, covered⟩ := inv.held id visa found
    exact ⟨own, covered.step inv.unique spares (.inl ⟨visa, own ▸ found⟩) stepped⟩
  outstanding visa member :=
    (inv.outstanding visa member).step inv.unique spares (.inr ⟨visa, member, rfl⟩) stepped
  phase := inv.phase.step stepped
  peers task member :=
    ⟨(inv.peers task member).1.step stepped, (inv.peers task member).2⟩

/-! ### Small facts about the parts of a step -/

theorem Covered.congr {repo : Repo codec} {visa copy : Visa} (covered : Covered node repo visa)
    (sameId : copy.issuerId = visa.issuerId) (sameEnd : copy.expires = visa.expires) :
    Covered node repo copy := by
  unfold Covered
  rw [sameId, sameEnd]
  exact covered

theorem grant_get {visas : List Visa} {processed : Nat} {visa : Visa}
    (found : (Vss.grant held visas processed)[id]? = some visa) :
    held[id]? = some visa ∨ visa ∈ visas ∧ visa.issuerId = id := by
  unfold Vss.grant at found
  have taken : ∀ visa ∈ visas.take processed, visa ∈ visas := fun _ => List.mem_of_mem_take
  generalize visas.take processed = first at found taken
  induction first generalizing held with
  | nil => exact .inl found
  | cons head rest ih =>
    rcases ih found (fun other member => taken other (by simp [member])) with kept | pushed
    · rcases HashMap.of_get_insert kept with ⟨own, rfl⟩ | ⟨-, before⟩
      · exact .inr ⟨taken _ (by simp), own.symm⟩
      · exact .inl before
    · exact .inr pushed

theorem revoke_get (held : HashMap Nat Visa) (ids : List Nat) (processed id : Nat) :
    (Vss.revoke held ids processed)[id]? =
      if id ∈ ids.take processed then none else held[id]? := by
  unfold Vss.revoke
  generalize ids.take processed = first
  induction first generalizing held with
  | nil => simp
  | cons head rest ih =>
    rw [List.foldl_cons, ih, HashMap.get_erase]
    by_cases own : head = id
    · simp [own]
    · simp [own, Ne.symm (Ne.intro own)]

theorem storeVisa_ok {repo next : Repo codec} {visa : Visa} {metadata : VisaMetadata}
    {nstate : NodeVisaState} {stored : Bool}
    (called : repo.call (.storeVisa visa metadata nstate) outcome = (next, .ok stored)) :
    secondsUntil repo.now visa.expires = 0 ∨
      next.store.visas[visa.issuerId]? = some
        ⟨visa, metadata, repo.now + secondsUntil repo.now visa.expires * nanosPerSec,
          initialNodeStates metadata nstate⟩ := by
  by_cases expired : secondsUntil repo.now visa.expires = 0
  · exact .inl expired
  right
  have replied := congrArg Prod.snd called
  have stepped := congrArg (fun result => result.1.store.visas[visa.issuerId]?) called
  simp only [Repo.call, RepoOp.decide] at replied stepped
  cases decided : storeVisa codec repo.now visa metadata nstate with
  | done reply =>
    simp only [decided] at replied
    unfold storeVisa at decided
    simp only [expired, if_false] at decided
    split at decided
    · cases decided
      cases replied
    · cases decided
  | write plan =>
    obtain ⟨-, record, -, rfl⟩ := storeVisa_eq_write.mp decided
    simp only [decided, Repo.commit] at replied stepped
    split at replied
    next taken =>
      rw [if_pos taken] at stepped
      rw [← stepped]
      simp [applyMemory]
    · cases replied

/-! ### One lemma per kind of step -/

variable (inv : vss.Inv node)
include inv

private theorem inv_calls {op : RepoOp} (notNew : op.newId = none)
    (spares : (RepoEvent.call op outcome).Spares node vss.repo vss.Reaches) :
    (vss.calls op outcome).Inv node :=
  inv.repoStep (.call op outcome) (Repo.step_call op notNew outcome) spares

private theorem inv_visaInstalled (id : Nat) (target : IpAddr)
    (outcome : RedisOutcome) :
    (vss.visaInstalled id target outcome).Inv node :=
  inv_calls inv rfl trivial

private theorem inv_create {visa : Visa} {metadata : VisaMetadata}
    (stepped : vss.create node visa metadata outcome = some next) : next.Inv node := by
  obtain ⟨claimed, claims, rfl⟩ := Option.map_eq_some_iff.mp stepped
  have repoStepped : vss.repo.step (.call (.storeVisa visa metadata .pendingInstall) outcome) =
      some (claimed.call (.storeVisa visa metadata .pendingInstall) outcome).1 := by
    simp [Repo.step, claims]
  have moved := inv.repoStep _ repoStepped trivial
  cases called : claimed.call (.storeVisa visa metadata .pendingInstall) outcome with
  | mk after reply =>
    rw [called] at moved
    cases reply with
    | error failure => exact moved
    | ok stored =>
      simp only
      split
      next onPath =>
        obtain ⟨handed, left, rfl, -⟩ := Repo.claimId_eq_some claims
        have sameNow : after.now = vss.repo.now := by
          have counters := Repo.call_counters { vss.repo with handedOut := left }
            (.storeVisa visa metadata .pendingInstall) outcome
          rw [called] at counters
          exact counters.2.2
        have covered : Covered node after visa := by
          rcases storeVisa_ok called with expired | found
          · left
            have whole := lt_now_add_secondsUntil vss.repo.now visa.expires
            simp only at expired
            rw [expired] at whole
            omega
          · refine .inr ⟨_, found, ?_, lt_now_add_secondsUntil vss.repo.now visa.expires⟩
            have listed := initialNodeStates_get metadata .pendingInstall node
            rw [if_neg onPath.2, if_pos onPath.1] at listed
            exact HashMap.mem_of_get listed
        refine { moved with outstanding := fun other member => ?_ }
        have origin : other = visa ∨ other ∈ vss.outstanding := by
          simp only [Vss.outstanding, List.mem_append, List.mem_singleton] at member ⊢
          tauto
        rcases origin with rfl | old
        · exact covered
        · exact moved.outstanding other old
      · exact moved

private theorem inv_distribute {connected : Bool}
    (stepped : vss.distribute node position connected = some next) : next.Inv node := by
  obtain ⟨visa, chosen, rfl⟩ := Option.map_eq_some_iff.mp stepped
  have left : ∀ other ∈ vss.distributing.eraseIdx position, other ∈ vss.distributing :=
    fun _ => List.mem_of_mem_eraseIdx
  have dropped : Vss.Inv node { vss with distributing := vss.distributing.eraseIdx position } := by
    refine { inv with outstanding := fun other member => inv.outstanding other ?_ }
    simp only [Vss.outstanding, List.mem_append] at member ⊢
    have kept := left other
    tauto
  split
  · exact dropped
  next sent actualized =>
    split
    · refine { inv with outstanding := fun other member => ?_ }
      have origin : other = sent ∨ other ∈ vss.phase.pushed ++
          (vss.distributing.eraseIdx position ++ vss.queue) := by
        simp only [Vss.outstanding, List.mem_append, List.mem_singleton] at member ⊢
        tauto
      rcases origin with rfl | old
      · obtain ⟨sameId, sameEnd⟩ := actualize_keeps actualized
        have member : visa ∈ vss.outstanding := by
          simp [Vss.outstanding, List.mem_of_getElem? chosen]
        exact (inv.outstanding visa member).congr sameId sameEnd
      · exact dropped.outstanding other old
    · exact dropped

private theorem inv_deliver (stepped : vss.deliver reply = some next) :
    next.Inv node := by
  unfold Vss.deliver at stepped
  split at stepped
  next visa rest idle queued =>
    have fewer : ∀ other ∈ vss.phase.pushed ++ (vss.distributing ++ rest),
        other ∈ vss.outstanding := by
      intro other member
      simp only [Vss.outstanding, queued, List.mem_append, List.mem_cons] at member ⊢
      tauto
    cases reply with
    | none =>
      cases stepped
      exact { inv with
        outstanding := fun other member => inv.outstanding other (fewer other member) }
    | some processed =>
      cases stepped
      refine ⟨inv.unique, inv.close, fun id granted found => ?_,
        fun other member => inv.outstanding other (fewer other member), ?_, inv.peers⟩
      · rcases grant_get found with kept | ⟨member, own⟩
        · exact inv.held id granted kept
        · have pushed : granted ∈ vss.outstanding := by
            simp [Vss.outstanding, queued, List.mem_singleton.mp member]
          exact ⟨own, inv.outstanding granted pushed⟩
      · rw [idle]
        trivial
  · cases stepped

private theorem inv_startHousekeeping
    (stepped : vss.startHousekeeping node = some next) : next.Inv node := by
  unfold Vss.startHousekeeping at stepped
  split at stepped
  next idle =>
    cases stepped
    have purged : Vss.Inv node { vss with repo := vss.repo.purgeExpired } :=
      inv.repoStep .purgeExpired rfl trivial
    refine { purged with outstanding := fun visa member => ?_, phase := ?_ }
    · have origin : visa ∈ vss.outstanding ∨ ∃ pending,
          pending ∈ getVisasForNodeByState vss.repo.purgeExpired.now vss.repo.purgeExpired.store
            node .pendingInstall ∧
          actualizeVisaForTargetNode vss.repo.purgeExpired.now vss.repo.purgeExpired.store pending
            node = .ok visa := by
        simp only [Vss.outstanding, List.mem_append] at member
        rcases member with pushed | waiting
        · split at pushed
          · cases pushed
          · obtain ⟨pending, isPending, sent⟩ := List.mem_filterMap.mp pushed
            refine .inr ⟨pending, isPending, ?_⟩
            cases actualized : actualizeVisaForTargetNode vss.repo.purgeExpired.now
                vss.repo.purgeExpired.store pending node with
            | error failure => simp [actualized, Except.toOption] at sent
            | ok copy => simpa [actualized, Except.toOption] using sent
        · exact .inl (by simp [Vss.outstanding, waiting])
      rcases origin with old | ⟨pending, isPending, actualized⟩
      · exact purged.outstanding visa old
      -- read under the same guard: the record lists the node at this very moment
      obtain ⟨⟨id, entry⟩, inState, rfl⟩ := List.mem_map.mp isPending
      obtain ⟨live, listed⟩ := mem_nodeVisasInState inState
      have found := (liveEntry_eq_some.mp live).1
      obtain ⟨own, bound⟩ := purged.close id entry found
      obtain ⟨sameId, sameEnd⟩ := actualize_keeps actualized
      refine Covered.congr (.inr ⟨entry, ?_, listed, bound⟩) sameId sameEnd
      rw [own]
      exact found
    · split <;> trivial
  · cases stepped

private theorem inv_pushReply (stepped : vss.pushReply reply = some next) :
    next.Inv node := by
  unfold Vss.pushReply at stepped
  split at stepped
  next visas pushing =>
    have fewer : ∀ visa ∈ vss.distributing ++ vss.queue, visa ∈ vss.outstanding :=
      fun visa member => List.mem_append.mpr (.inr member)
    cases reply with
    | none =>
      cases stepped
      exact ⟨inv.unique, inv.close, inv.held,
        fun visa member => inv.outstanding visa (fewer visa member), trivial, inv.peers⟩
    | some processed =>
      cases stepped
      refine ⟨inv.unique, inv.close, fun id visa found => ?_,
        fun visa member => inv.outstanding visa (fewer visa member), trivial, inv.peers⟩
      rcases grant_get found with kept | ⟨member, own⟩
      · exact inv.held id visa kept
      · have pushed : visa ∈ vss.outstanding := by
          simp [Vss.outstanding, pushing, WorkerPhase.pushed, member]
        exact ⟨own, inv.outstanding visa pushed⟩
  · cases stepped

private theorem inv_phase (silent : phase.pushed = [])
    (sound : phase.Sound node vss.repo vss.held) :
    Vss.Inv node { vss with phase := phase } := by
  refine { inv with outstanding := fun visa member => inv.outstanding visa ?_, phase := sound }
  simp only [Vss.outstanding, silent, List.nil_append] at member
  exact List.mem_append.mpr (.inr member)

private theorem inv_recordInstall (stepped : vss.recordInstall node outcome = some next) :
    next.Inv node := by
  unfold Vss.recordInstall at stepped
  split at stepped
  · cases stepped
    exact inv_phase inv rfl trivial
  next id rest installing =>
    cases stepped
    exact inv_phase (inv_visaInstalled inv id node outcome) rfl trivial
  · cases stepped

private theorem inv_readRevokes (stepped : vss.readRevokes node = some next) :
    next.Inv node := by
  unfold Vss.readRevokes at stepped
  split at stepped
  · cases stepped
    refine inv_phase inv (by split <;> rfl) ?_
    split
    · trivial
    · intro id member
      obtain ⟨⟨_, entry⟩, inState, rfl⟩ := List.mem_map.mp member
      obtain ⟨live, -⟩ := mem_nodeVisasInState inState
      exact inv.unique.stored _ entry (liveEntry_eq_some.mp live).1
  · cases stepped

omit inv

private theorem nextAck_sound (node : IpAddr) {repo : Repo codec} {ids : List Nat}
    (gone : ∀ id ∈ ids, repo.Spent id ∧ held[id]? = none) :
    (Vss.nextAck node ids).pushed = [] ∧ (Vss.nextAck node ids).Sound node repo held := by
  cases ids with
  | nil => exact ⟨rfl, trivial⟩
  | cons id rest =>
    refine ⟨rfl, (gone id (by simp)).1, ?_, fun later member => gone later (by simp [member])⟩
    rintro dropped _ ⟨⟩
    exact ⟨rfl, (gone id (by simp)).2⟩

private theorem inv_revokeReply (inv : vss.Inv node)
    (stepped : vss.revokeReply node reply = some next) : next.Inv node := by
  unfold Vss.revokeReply at stepped
  split at stepped
  next ids revoking =>
    have spent : ∀ id ∈ ids, vss.repo.Spent id := by
      have sound := inv.phase
      rwa [revoking] at sound
    cases reply with
    | none =>
      cases stepped
      exact inv_phase inv rfl trivial
    | some processed =>
      cases stepped
      have revoked : Vss.Inv node { vss with held := Vss.revoke vss.held ids processed } := by
        refine { inv with held := fun id visa found => ?_, phase := ?_ }
        · rw [revoke_get] at found
          split at found
          · cases found
          · exact inv.held id visa found
        · simp only [revoking]
          exact spent
      have gone : ∀ id ∈ ids.take processed, vss.repo.Spent id ∧
          (Vss.revoke vss.held ids processed)[id]? = none := fun id member =>
        ⟨spent id (List.mem_of_mem_take member), by rw [revoke_get, if_pos member]⟩
      obtain ⟨silent, sound⟩ := nextAck_sound node gone
      exact inv_phase revoked silent sound
  · cases stepped

/-! ### Acknowledgements -/

private theorem advance_sound {repo : Repo codec} (sound : task.Sound repo) (outcome : RedisOutcome)
    :
    ∃ event, repo.step event = some (task.advance repo outcome).1 ∧
      (∀ (node : IpAddr) (onTheWay : Nat → Prop),
        (∀ dropped id, task.drops = some (dropped, id) → dropped = node → ¬ onTheWay id) →
        event.Spares node repo onTheWay) ∧
      ∀ left, (task.advance repo outcome).2 = some left →
        left.Sound (task.advance repo outcome).1 ∧ left.drops = none := by
  cases task with
  | dropNode node id =>
    refine ⟨.call (.removeNodeIfPendingRevoke node id) outcome, ?_, ?_, ?_⟩
    · rw [Repo.step_call _ rfl]
      simp only [AckTask.advance]
      split <;> simp_all
    · exact fun other onTheWay spared same => spared node id rfl same
    · intro left remains
      have spent := Repo.Spent.step sound
        (Repo.step_call (.removeNodeIfPendingRevoke node id) rfl outcome)
      simp only [AckTask.advance] at remains ⊢
      split at remains
      · cases remains
      next after stored called =>
        cases remains
        rw [called] at spent
        exact ⟨spent, rfl⟩
  | checkRefs id =>
    refine ⟨.tick 0, rfl, fun _ _ _ => trivial, fun left remains => ?_⟩
    simp only [AckTask.advance] at remains ⊢
    split at remains
    · cases remains
    next orphan =>
      cases remains
      refine ⟨⟨sound, fun entry found live node listed => orphan ?_⟩, rfl⟩
      -- a live entry with a node left would have been a reference
      rw [visaHasNodeRefs, liveEntry_eq_some.mpr ⟨found, VisaEntry.isLive_iff.mp live⟩]
      cases empty : entry.nodeStates.isEmpty with
      | false => simp [empty]
      | true =>
        rw [Std.ExtTreeMap.isEmpty_iff.mp empty] at listed
        simp at listed
  | removeVisa id =>
    refine ⟨.call (.removeVisa id) outcome, Repo.step_call _ rfl outcome, fun _ _ _ => sound.2, ?_⟩
    intro left remains
    cases remains

/-- The worker acknowledges a revoke of a visa: no copy of that visa is queued for the node
or still to be distributed to it. -/
def VssEvent.NoPushOutstanding (node : IpAddr) (vss : Vss codec) : VssEvent → Prop
  | .ackStep _ => ∀ id rest, vss.phase = .acking (.dropNode node id) rest →
      ∀ visa ∈ vss.distributing ++ vss.queue, visa.issuerId ≠ id
  | _ => True

private theorem inv_ackStep (inv : vss.Inv node)
    (settled : (VssEvent.ackStep outcome).NoPushOutstanding node vss)
    (stepped : vss.ackStep node outcome = some next) : next.Inv node := by
  unfold Vss.ackStep at stepped
  split at stepped
  next task rest acking =>
    have sound := inv.phase
    rw [acking] at sound
    obtain ⟨taskSound, drops, gone⟩ := sound
    obtain ⟨event, repoStepped, spares, leaves⟩ := advance_sound taskSound outcome
    have spared := spares node vss.Reaches fun dropped id dropping same => by
      obtain ⟨-, unheld⟩ := drops dropped id dropping
      cases task with
      | dropNode target own =>
        cases dropping
        subst same
        rintro (⟨visa, isHeld⟩ | ⟨visa, member, own⟩)
        · rw [unheld] at isHeld
          cases isHeld
        · simp only [Vss.outstanding, acking, WorkerPhase.pushed, List.nil_append] at member
          exact settled _ rest acking visa member own
      | checkRefs | removeVisa => cases dropping
    have moved := inv.repoStep event repoStepped spared
    have stillGone : ∀ id ∈ rest, (task.advance vss.repo outcome).1.Spent id ∧
        vss.held[id]? = none := fun id member =>
      ⟨(gone id member).1.step repoStepped, (gone id member).2⟩
    split at stepped
    next after left advanced =>
      cases stepped
      obtain ⟨leftSound, noDrop⟩ := leaves left (congrArg Prod.snd advanced)
      rw [advanced] at moved stillGone leftSound
      refine inv_phase moved rfl ⟨leftSound, fun dropped id dropping => ?_, stillGone⟩
      rw [noDrop] at dropping
      cases dropping
    next after advanced =>
      cases stepped
      rw [advanced] at moved stillGone
      obtain ⟨silent, sound⟩ := nextAck_sound node stillGone
      exact inv_phase moved silent sound
  · cases stepped

private theorem inv_peerRevoked (inv : vss.Inv node) {peer : IpAddr}
    (stepped : vss.peerRevoked node peer id = some next) :
    next.Inv node := by
  unfold Vss.peerRevoked at stepped
  split at stepped
  next pending =>
    cases stepped
    refine { inv with peers := fun task member => ?_ }
    rcases List.mem_append.mp member with old | added
    · exact inv.peers task old
    · rw [List.mem_singleton.mp added]
      obtain ⟨⟨_, entry⟩, inState, rfl⟩ := List.mem_map.mp pending.2
      obtain ⟨live, -⟩ := mem_nodeVisasInState inState
      refine ⟨inv.unique.stored _ entry (liveEntry_eq_some.mp live).1, ?_⟩
      rintro dropped _ ⟨⟩
      exact pending.1
  · cases stepped

private theorem inv_peerAckStep (inv : vss.Inv node)
    (stepped : vss.peerAckStep position outcome = some next) : next.Inv node := by
  obtain ⟨task, chosen, rfl⟩ := Option.map_eq_some_iff.mp stepped
  obtain ⟨taskSound, foreign⟩ := inv.peers task (List.mem_of_getElem? chosen)
  obtain ⟨event, repoStepped, spares, leaves⟩ := advance_sound taskSound outcome
  have moved := inv.repoStep event repoStepped (spares node vss.Reaches
    fun dropped id dropping same => absurd same (foreign dropped id dropping))
  split
  next after left advanced =>
    obtain ⟨leftSound, noDrop⟩ := leaves left (congrArg Prod.snd advanced)
    rw [advanced] at moved leftSound
    refine { moved with peers := fun other member => ?_ }
    rcases List.mem_or_eq_of_mem_set member with old | rfl
    · exact moved.peers other old
    · exact ⟨leftSound, by simp [noDrop]⟩
  next after advanced =>
    rw [advanced] at moved
    exact { moved with
      peers := fun other member => moved.peers other (List.mem_of_mem_eraseIdx member) }

theorem Vss.Inv.step {event : VssEvent} (inv : vss.Inv node)
    (settled : event.NoPushOutstanding node vss) (stepped : vss.step node event = some next) :
    next.Inv node := by
  cases event with
  | tick nanos =>
    cases stepped
    exact inv.repoStep (.tick nanos) rfl trivial
  | getNextVisaId =>
    cases stepped
    exact inv.repoStep .getNextVisaId rfl trivial
  | purgeExpired =>
    cases stepped
    exact inv.repoStep .purgeExpired rfl trivial
  | recordAllowVerdict visaId vinst outcome | recordDenyVerdict visaId vinst outcome
  | markVisaRevoked visaId outcome =>
    cases stepped
    exact inv_calls inv rfl trivial
  | peerInstalled peer visaId outcome =>
    cases stepped
    exact inv_visaInstalled inv visaId peer outcome
  | installAck position outcome =>
    obtain ⟨id, -, rfl⟩ := Option.map_eq_some_iff.mp stepped
    have recorded := inv_visaInstalled inv id node outcome
    exact { recorded with }
  | create visa metadata outcome => exact inv_create inv stepped
  | distribute position connected => exact inv_distribute inv stepped
  | deliver reply => exact inv_deliver inv stepped
  | startHousekeeping => exact inv_startHousekeeping inv stepped
  | pushReply reply => exact inv_pushReply inv stepped
  | recordInstall outcome => exact inv_recordInstall inv stepped
  | readRevokes => exact inv_readRevokes inv stepped
  | revokeReply reply => exact inv_revokeReply inv stepped
  | ackStep outcome => exact inv_ackStep inv settled stepped
  | peerRevoked peer visaId => exact inv_peerRevoked inv stepped
  | peerAckStep position outcome => exact inv_peerAckStep inv stepped

/-- In every run in which the worker acknowledges no revoke while a copy of the same visa is
still on its way to the node: whenever the node holds a visa with two seconds to live, the
live record of the visa lists the node. -/
theorem held_visa_listed_of_noPushOutstanding {node : IpAddr} {now initialVisaId : Nat}
    {events : List VssEvent} {vss : Vss codec}
    (settled : Meets (Vss.step node) (fun vss event => event.NoPushOutstanding node vss)
      (Vss.init codec now initialVisaId) events)
    (reached : run (Vss.step node) (Vss.init codec now initialVisaId) events = some vss)
    {id : Nat} {visa : Visa} (holds : vss.held[id]? = some visa)
    (unexpired : vss.repo.now + 2 * nanosPerSec ≤ visa.expires) :
    ∃ entry, liveEntry vss.repo.now vss.repo.store id = some entry ∧
      node ∈ entry.nodeStates := by
  have inv := run_preserves_of_meets
    (fun _ _ _ inv settled stepped => Vss.Inv.step inv settled stepped)
    (Vss.inv_init node now initialVisaId) settled reached
  obtain ⟨rfl, covered⟩ := inv.held id visa holds
  rcases covered with ending | ⟨entry, found, listed, bound⟩
  · omega
  · exact ⟨entry, liveEntry_eq_some.mpr ⟨found, by omega⟩, listed⟩

namespace DeliveryTrace

open Sample

/-- The second node on the path of the sample visa, which the first one requested. -/
def egress : IpAddr := .v4 0x0A000002

def created : List VssEvent :=
  [.getNextVisaId, .create visa { metadata with path := some [Sample.node, egress] } .applied,
    .distribute 0 true]

/-- The sweep denies the visa, and the worker revokes it before it gets to the queued push. -/
def revokedFirst : List VssEvent :=
  [.recordDenyVerdict 1 1 .applied, .startHousekeeping, .readRevokes, .revokeReply (some 1),
    .ackStep .applied, .ackStep .applied, .deliver (some 1)]

/-- The push is delivered and recorded before the sweep denies the visa. -/
def deliveredFirst : List VssEvent :=
  [.deliver (some 1), .installAck 0 .applied, .recordDenyVerdict 1 1 .applied]

def after (events : List VssEvent) : Vss .plain :=
  (run (Vss.step egress) (Vss.init .plain 0 0) events).getD (Vss.init .plain 0 0)

theorem run_after {events : List VssEvent}
    (enabled : (run (Vss.step egress) (Vss.init .plain 0 0) events).isSome = true) :
    run (Vss.step egress) (Vss.init .plain 0 0) events = some (after events) := by
  obtain ⟨vss, ran⟩ := Option.isSome_iff_exists.mp enabled
  simp [after, ran]

end DeliveryTrace

open DeliveryTrace in
/-- A push delivered after the acknowledged revoke of the same visa: the node holds a visa
whose record does not list it any more. -/
theorem held_visa_unlisted_after_queued_push :
    ¬ ∀ (codec : VisaCodec) (node : IpAddr) (now initialVisaId : Nat) (events : List VssEvent)
      (vss : Vss codec),
      run (Vss.step node) (Vss.init codec now initialVisaId) events = some vss →
      ∀ (id : Nat) (visa : Visa), vss.held[id]? = some visa →
        vss.repo.now + 2 * nanosPerSec ≤ visa.expires →
        ∃ entry, liveEntry vss.repo.now vss.repo.store id = some entry ∧
          node ∈ entry.nodeStates := by
  intro always
  obtain ⟨entry, live, listed⟩ := always .plain egress 0 0 (created ++ revokedFirst)
    (after (created ++ revokedFirst)) (run_after (by decide)) 1 Sample.visa (by decide) (by decide)
  have unlisted : (liveEntry (after (created ++ revokedFirst)).repo.now
      (after (created ++ revokedFirst)).repo.store 1).any
        (fun entry => decide (egress ∈ entry.nodeStates)) = false := by decide
  rw [live] at unlisted
  simp [listed] at unlisted

open DeliveryTrace in
theorem held_visa_listed_after_delivery :
    (after (created ++ deliveredFirst)).held[1]? = some Sample.visa ∧
      ∃ entry, liveEntry (after (created ++ deliveredFirst)).repo.now
          (after (created ++ deliveredFirst)).repo.store 1 = some entry ∧
        egress ∈ entry.nodeStates :=
  ⟨by decide, held_visa_listed_of_noPushOutstanding
    (meets_of_forall (by simp [created, deliveredFirst, VssEvent.NoPushOutstanding]) _)
    (run_after (by decide)) (show (after (created ++ deliveredFirst)).held[1]? =
      some Sample.visa by decide) (by decide)⟩

end VisaService
