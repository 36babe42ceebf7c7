import VisaService.Visa.Durability
import VisaService.Visa.Revocation
import VisaService.Visa.SweepCoverage

/-!
# The newest verdict decides

Each policy generation judges a visa, and the verdicts may be recorded in any order. An allow
raises `checked_vinst` and cancels older revokes; a deny stamps the nodes with its generation
and leaves `checked_vinst` alone. Whatever the order, the verdict of the newest generation wins.

Stamps stand only at nodes that wait for their revoke, in memory and in Redis, so a visa without
such nodes starts without stamps. `Weighed` says what the verdicts seen so far have left.
-/
namespace VisaService

open Lib

variable {codec : VisaCodec}

/-! ### Where stamps are -/

/-- Only a node that waits for its revoke carries a stamp. -/
def StampsPending (states : NodeStates) : Prop :=
  ∀ (node : IpAddr) (ns : NodeState), states[node]? = some ns → ns.revokeVinst ≠ none →
    ns.state = .pendingRevoke

theorem stampsPending_initial (metadata : VisaMetadata) (nstate : NodeVisaState) :
    StampsPending (initialNodeStates metadata nstate) := by
  intro node ns found stamped
  rw [initialNodeStates_get] at found
  split at found
  · cases found
    exact absurd rfl stamped
  · split at found
    · cases found
      exact absurd rfl stamped
    · cases found

theorem StampsPending.erase {states : NodeStates} (pending : StampsPending states)
    (node : IpAddr) : StampsPending (states.erase node) := by
  intro other ns found stamped
  exact pending other ns (HashMap.of_get_erase found).2 stamped

variable {op : RepoOp} {target : Rewrite} {final : Repo codec} {last : VisaEntry}

theorem StampsPending.rewritten {entry : VisaEntry} {metadata : Option VisaMetadata}
    {nodeStates : NodeStates} (rewrites : op.rewrite = some target)
    (acks : (RepoEvent.call op .applied).OnlyInstallAcks)
    (changed : target.change entry = some (metadata, nodeStates))
    (pending : StampsPending entry.nodeStates) : StampsPending nodeStates := by
  intro node ns found stamped
  cases RepoOp.rewrite_cases rewrites changed with
  | allowed visaId vinst =>
    simp only [Std.ExtTreeMap.getElem?_map, Option.map_eq_some_iff] at found
    obtain ⟨old, listed, rfl⟩ := found
    unfold NodeState.allowed at stamped ⊢
    split
    next lifted => simp [lifted] at stamped
    next kept =>
      rw [if_neg kept] at stamped
      exact pending node old listed stamped
  | revoked op revoke revokes =>
    simp only [Std.ExtTreeMap.getElem?_map, Option.map_eq_some_iff] at found
    obtain ⟨old, -, rfl⟩ := found
    exact revokes old
  | transitioned target visaId expected new old listed waiting =>
    -- the acknowledged node was waiting for its install, so it had no stamp
    obtain ⟨rfl, rfl⟩ := acks
    rw [HashMap.get_modify] at found
    split at found
    next same =>
      subst same
      rw [listed] at found
      cases found
      cases waiting.symm.trans (pending target old listed stamped)
    · exact pending node ns found stamped
  | dropped target => exact pending.erase target node ns found stamped

/-- The same of everything in memory and in Redis. -/
structure Repo.StampsPending (repo : Repo codec) : Prop where
  memory : ∀ (id : Nat) (entry : VisaEntry), repo.store.visas[id]? = some entry →
    VisaService.StampsPending entry.nodeStates
  redis : ∀ (id : Nat) (item : VisaRecord codec.Blob × Nat), repo.redis[id]? = some item →
    VisaService.StampsPending item.1.nodeStates

variable {after initial : VisaEntry} {event : VerdictEvent} {now : Nat}
  {seen : List (Nat × SweepVerdict)}

theorem Repo.StampsPending.planned {repo : Repo codec} (pending : repo.StampsPending)
    {outcome : RedisOutcome} (acks : (RepoEvent.call op outcome).OnlyInstallAcks) {id : Nat}
    {record : VisaRecord codec.Blob} (records : op.Records repo.store id record) :
    VisaService.StampsPending record.nodeStates := by
  cases records with
  | stored visa metadata nstate => exact stampsPending_initial metadata nstate
  | rewritten _ target entry metadata nodeStates blob found encoded rewrites changed =>
    have acked : (RepoEvent.call op .applied).OnlyInstallAcks := by cases op <;> exact acks
    exact (pending.memory _ entry found).rewritten rewrites acked changed
  | cleared node entry blob found => exact (pending.memory _ entry found).erase node

theorem Repo.StampsPending.step {repo next : Repo codec} {event : RepoEvent}
    (pending : repo.StampsPending) (acks : event.OnlyInstallAcks)
    (stepped : repo.step event = some next) : next.StampsPending where
  memory id entry found := by
    have change := repo.step_entry stepped id
    rw [found] at change
    generalize before : repo.store.visas[id]? = old at change
    cases change with
    | same => exact pending.memory id entry before
    | stored visa metadata nstate => exact stampsPending_initial metadata nstate
    | cleared node outcome entry listed => exact (pending.memory id entry before).erase node
    | rewritten op target entry metadata nodeStates rewrites own live changed encodes =>
      exact (pending.memory id entry before).rewritten rewrites acks changed
  redis id item found := by
    cases event with
    | tick nanos | getNextVisaId =>
      cases stepped
      exact pending.redis id item found
    | purgeExpired =>
      cases stepped
      unfold Repo.purgeExpired at found
      split at found <;> exact pending.redis id item found
    | call op outcome =>
      obtain ⟨claimed, claims, rfl⟩ := Option.map_eq_some_iff.mp stepped
      obtain ⟨-, left, rfl, -⟩ := Repo.claimId_eq_some claims
      rcases Repo.call_cases { repo with handedOut := left } op outcome with
        kept | ⟨plan, planned, ended⟩
      · rw [kept] at found
        exact pending.redis id item found
      obtain ⟨records, undoes⟩ := RepoOp.decide_records planned
      rcases ended with ended | ended
      · rw [ended] at found
        rcases applyRedis_get found with old | ⟨ttl, member⟩
        · exact pending.redis id item old
        · cases undoes _ member
      · rw [ended] at found
        rcases applyRedis_get found with old | ⟨ttl, member⟩
        · exact pending.redis id item old
        · exact pending.planned acks (records id item.1 ttl member)

theorem Repo.StampsPending.restart {repo : Repo codec} (pending : repo.StampsPending) :
    repo.restart.StampsPending where
  memory id entry found := by
    simp only [Repo.restart, restoreFromState_visas, Option.bind_eq_some_iff] at found
    obtain ⟨⟨record, firesAt⟩, persisted, loads⟩ := found
    obtain ⟨-, visa, -, -, rfl⟩ := loadRecord_eq_some.mp loads
    exact pending.redis id (record, firesAt) persisted
  redis id item found := by
    simp only [Repo.restart, restoreFromState_redis, Option.filter_eq_some_iff] at found
    exact pending.redis id item found.1

/-- Install acknowledgements are the only compare-and-swaps of a process. -/
def LifeEvent.OnlyInstallAcks : LifeEvent → Prop
  | .running event => event.OnlyInstallAcks
  | .restart => True

theorem Repo.StampsPending.lifeStep {repo next : Repo codec} {event : LifeEvent}
    (pending : repo.StampsPending) (acks : event.OnlyInstallAcks)
    (stepped : repo.lifeStep event = some next) : next.StampsPending := by
  cases event with
  | running event => exact pending.step acks stepped
  | restart =>
    cases stepped
    exact pending.restart

theorem Repo.stampsPending_init (now initialVisaId : Nat) :
    (Repo.init codec now initialVisaId).StampsPending where
  memory id entry found := by simp [Repo.init, VisaStoreInner.empty] at found
  redis id item found := by simp [Repo.init] at found

theorem stampsPending_of_reachable {initialVisaId : Nat} {history : List LifeEvent}
    {repo : Repo codec} (acks : ∀ event ∈ history, event.OnlyInstallAcks)
    (reached : run Repo.lifeStep (Repo.init codec now initialVisaId) history = some repo) :
    repo.StampsPending :=
  run_preserves_of_meets (fun _ _ _ pending acks stepped => pending.lifeStep acks stepped)
    (Repo.stampsPending_init now initialVisaId)
    (meets_of_forall (fun event member _ => acks event member) _) reached

/-! ### Verdicts in any order -/

/-- What happens to a visa while verdicts on it are the only writes. -/
inductive VerdictEvent where
  | deliver (vinst : Nat) (verdict : SweepVerdict)
  | tick (nanos : Nat)
  | purgeExpired
  deriving DecidableEq, Repr

def VerdictEvent.verdict : VerdictEvent → Option (Nat × SweepVerdict)
  | .deliver vinst verdict => some (vinst, verdict)
  | _ => none

/-- A verdict is delivered when its call replies without an error. -/
def Repo.verdictStep (id : Nat) (repo : Repo codec) : VerdictEvent → Option (Repo codec)
  | .deliver vinst verdict =>
    match repo.call (verdict.op id vinst) .applied with
    | (next, .ok _) => some next
    | (_, .error _) => none
  | .tick nanos => repo.step (.tick nanos)
  | .purgeExpired => repo.step .purgeExpired

/-- What the verdicts seen so far have made of the visa. -/
structure Weighed (initial : VisaEntry) (seen : List (Nat × SweepVerdict)) (entry : VisaEntry) :
    Prop where
  raised : initial.metadata.checkedVinst ≤ entry.metadata.checkedVinst
  checked : entry.metadata.checkedVinst = initial.metadata.checkedVinst ∨
    (entry.metadata.checkedVinst, .allow) ∈ seen
  allows : ∀ vinst, (vinst, .allow) ∈ seen → vinst ≤ entry.metadata.checkedVinst
  denies : ∀ vinst, (vinst, .deny) ∈ seen → entry.metadata.checkedVinst < vinst →
    ∀ (node : IpAddr) ns, entry.nodeStates[node]? = some ns → ns.state = .pendingRevoke ∧
      ∃ stamp, ns.revokeVinst = some stamp ∧ vinst ≤ stamp
  stamps : ∀ (node : IpAddr) ns stamp, entry.nodeStates[node]? = some ns →
    ns.revokeVinst = some stamp → ns.state = .pendingRevoke ∧ (stamp, .deny) ∈ seen ∧
      entry.metadata.checkedVinst < stamp
  pending : ∀ (node : IpAddr) ns, entry.nodeStates[node]? = some ns →
    ns.state = .pendingRevoke → ∃ stamp, ns.revokeVinst = some stamp
  nodes : ∀ node, node ∈ entry.nodeStates ↔ node ∈ initial.nodeStates

namespace Weighed

variable {initial entry : VisaEntry} {seen : List (Nat × SweepVerdict)} {vinst : Nat}

theorem start (unstamped : StampsPending initial.nodeStates)
    (unrevoked : ∀ (node : IpAddr) ns, initial.nodeStates[node]? = some ns →
      ns.state ≠ .pendingRevoke) : Weighed initial [] initial where
  raised := le_rfl
  checked := .inl rfl
  allows _ := nofun
  denies _ := nofun
  stamps node ns stamp found stamped :=
    absurd (unstamped node ns found (by simp [stamped])) (unrevoked node ns found)
  pending node ns found isPending := absurd isPending (unrevoked node ns found)
  nodes _ := Iff.rfl

variable (weighed : Weighed initial seen entry)
include weighed

theorem old (verdict : SweepVerdict)
    (isOld : vinst ≤ entry.metadata.checkedVinst) :
    Weighed initial ((vinst, verdict) :: seen) entry where
  raised := weighed.raised
  checked := weighed.checked.imp id (List.mem_cons_of_mem _)
  allows other member := by
    rcases List.mem_cons.mp member with same | member
    · cases same
      exact isOld
    · exact weighed.allows other member
  denies other member newer := by
    rcases List.mem_cons.mp member with same | member
    · cases same
      omega
    · exact weighed.denies other member newer
  stamps node ns stamp found stamped := by
    obtain ⟨isPending, member, newer⟩ := weighed.stamps node ns stamp found stamped
    exact ⟨isPending, List.mem_cons_of_mem _ member, newer⟩
  pending := weighed.pending
  nodes := weighed.nodes

theorem allow (newer : entry.metadata.checkedVinst < vinst) (fresh : (vinst, .deny) ∉ seen) :
    Weighed initial ((vinst, .allow) :: seen)
      { entry with
        metadata := { entry.metadata with checkedVinst := vinst }
        nodeStates := entry.nodeStates.map fun _ ns => ns.allowed vinst } where
  raised := weighed.raised.trans newer.le
  checked := .inr List.mem_cons_self
  allows other member := by
    rcases List.mem_cons.mp member with same | member
    · cases same
      exact le_rfl
    · exact (weighed.allows other member).trans newer.le
  denies other member above node ns found := by
    rcases List.mem_cons.mp member with same | member
    · cases same
    simp only [Std.ExtTreeMap.getElem?_map, Option.map_eq_some_iff] at found
    obtain ⟨before, listed, rfl⟩ := found
    obtain ⟨isPending, stamp, stamped, bound⟩ :=
      weighed.denies other member (newer.trans above) node before listed
    have above : vinst < other := above
    rw [NodeState.allowed_of_not_older fun old isOld => by
      cases stamped.symm.trans isOld
      omega]
    exact ⟨isPending, stamp, stamped, bound⟩
  stamps node ns stamp found stamped := by
    simp only [Std.ExtTreeMap.getElem?_map, Option.map_eq_some_iff] at found
    obtain ⟨before, listed, rfl⟩ := found
    unfold NodeState.allowed at stamped ⊢
    split
    next lifted => simp [lifted] at stamped
    next kept =>
      rw [if_neg kept] at stamped
      obtain ⟨isPending, member, -⟩ := weighed.stamps node before stamp listed stamped
      -- the stamp is not that of an older deny, and not of this generation
      have notOlder : ¬ stamp < vinst := fun older =>
        kept ⟨isPending, by simp [stamped, older]⟩
      have apart : stamp ≠ vinst := by
        rintro rfl
        exact fresh member
      exact ⟨isPending, List.mem_cons_of_mem _ member, show vinst < stamp by omega⟩
  pending node ns found isPending := by
    simp only [Std.ExtTreeMap.getElem?_map, Option.map_eq_some_iff] at found
    obtain ⟨before, listed, rfl⟩ := found
    unfold NodeState.allowed at isPending ⊢
    split
    next lifted => simp [lifted] at isPending
    next kept =>
      rw [if_neg kept] at isPending
      exact weighed.pending node before listed isPending
  nodes node := by
    rw [Std.ExtTreeMap.mem_map]
    exact weighed.nodes node

theorem deny (newer : entry.metadata.checkedVinst < vinst) :
    Weighed initial ((vinst, .deny) :: seen)
      { entry with nodeStates := entry.nodeStates.map fun _ ns => ns.denied vinst } where
  raised := weighed.raised
  checked := weighed.checked.imp id (List.mem_cons_of_mem _)
  allows other member := by
    rcases List.mem_cons.mp member with same | member
    · cases same
    · exact weighed.allows other member
  denies other member above node ns found := by
    simp only [Std.ExtTreeMap.getElem?_map, Option.map_eq_some_iff] at found
    obtain ⟨before, listed, rfl⟩ := found
    refine ⟨rfl, ?_⟩
    -- A stamp is only replaced by a newer one.
    have old : (other, SweepVerdict.deny) ∈ seen → ∃ stamp, before.revokeVinst = some stamp ∧
        other ≤ stamp := fun member => (weighed.denies other member above node before listed).2
    unfold NodeState.denied
    split
    next replaced =>
      refine ⟨vinst, rfl, ?_⟩
      rcases List.mem_cons.mp member with same | member
      · cases same
        exact le_rfl
      · obtain ⟨stamp, stamped, bound⟩ := old member
        simp only [stamped, Option.all_some, decide_eq_true_eq] at replaced
        omega
    next kept =>
      cases stamped : before.revokeVinst with
      | none => simp [stamped] at kept
      | some stamp =>
        refine ⟨stamp, rfl, ?_⟩
        simp only [stamped, Option.all_some, decide_eq_true_eq] at kept
        rcases List.mem_cons.mp member with same | member
        · cases same
          omega
        · obtain ⟨same, isStamp, bound⟩ := old member
          cases stamped.symm.trans isStamp
          exact bound
  stamps node ns stamp found stamped := by
    simp only [Std.ExtTreeMap.getElem?_map, Option.map_eq_some_iff] at found
    obtain ⟨before, listed, rfl⟩ := found
    refine ⟨rfl, ?_⟩
    unfold NodeState.denied at stamped
    split at stamped
    · cases stamped
      exact ⟨List.mem_cons_self, newer⟩
    · obtain ⟨-, member, above⟩ := weighed.stamps node before stamp listed stamped
      exact ⟨List.mem_cons_of_mem _ member, above⟩
  pending node ns found isPending := by
    simp only [Std.ExtTreeMap.getElem?_map, Option.map_eq_some_iff] at found
    obtain ⟨before, -, rfl⟩ := found
    unfold NodeState.denied
    split
    · exact ⟨vinst, rfl⟩
    next kept =>
      cases stamped : before.revokeVinst with
      | none => simp [stamped] at kept
      | some stamp => exact ⟨stamp, rfl⟩
  nodes node := by
    rw [Std.ExtTreeMap.mem_map]
    exact weighed.nodes node

end Weighed

/-! ### Deliveries -/

variable {repo next : Repo codec} {id : Nat} {entry : VisaEntry}

/-- What a rewrite that replies without an error leaves of a live entry. -/
theorem Repo.call_rewrite_live {reply : Bool} (rewrites : op.rewrite = some target)
    (live : liveEntry repo.now repo.store target.visaId = some entry)
    (replied : (repo.call op .applied).2 = .ok reply) :
    (repo.call op .applied).1.now = repo.now ∧
      (repo.call op .applied).1.store.visas[target.visaId]? =
        some (match target.change entry with
          | none => entry
          | some (metadata, nodeStates) =>
            { entry with metadata := metadata.getD entry.metadata, nodeStates }) := by
  have decides : op.decide codec repo.now repo.store =
      rewriteEntry codec repo.now repo.store target.visaId target.change target.dropped :=
    RepoOp.decide_of_rewrite rewrites repo.now repo.store
  have found := (liveEntry_eq_some.mp live).1
  unfold rewriteEntry at decides
  simp only [live] at decides
  cases changed : target.change entry with
  | none =>
    simp only [changed] at decides
    simp only [Repo.call, decides, true_and]
    exact found
  | some change =>
    obtain ⟨metadata, nodeStates⟩ := change
    simp only [changed] at decides
    cases built : buildRecord codec entry.visa (metadata.getD entry.metadata) nodeStates with
    | error failure =>
      simp only [built] at decides
      simp [Repo.call, decides] at replied
    | ok record =>
      obtain ⟨blob, encoded, -⟩ := buildRecord_eq_ok.mp built
      refine ⟨?_, (Repo.call_rewrite_applied op rewrites live changed encoded).2⟩
      simp only [built] at decides
      simp [Repo.call, decides, Repo.commit]

theorem liveEntry_of_deadline {later : Nat} {inner left : VisaStoreInner} {before : VisaEntry}
    (found : left.visas[id]? = some after) (live : liveEntry now inner id = some before)
    (deadline : after.deadline = before.deadline) (same : later = now) :
    liveEntry later left id = some after := by
  rw [liveEntry_eq_some, deadline, same]
  exact ⟨found, (liveEntry_eq_some.mp live).2⟩

theorem Weighed.deliver {vinst : Nat} {verdict : SweepVerdict}
    (weighed : Weighed initial seen entry) (live : liveEntry repo.now repo.store id = some entry)
    (fresh : ∀ other, (vinst, other) ∉ seen)
    (stepped : repo.verdictStep id (.deliver vinst verdict) = some next) :
    ∃ after, liveEntry next.now next.store id = some after ∧
      entry.metadata.checkedVinst ≤ after.metadata.checkedVinst ∧
      Weighed initial ((vinst, verdict) :: seen) after := by
  simp only [Repo.verdictStep] at stepped
  split at stepped
  next result reply called =>
    cases stepped
    obtain ⟨sameNow, found⟩ := Repo.call_rewrite_live (verdict.op_rewrite id vinst) live
      (congrArg Prod.snd called)
    simp only [called] at sameNow found
    cases verdict with
    | allow =>
      simp only [SweepVerdict.change, allowChange] at found
      split at found
      next unchanged =>
        split at unchanged
        next isOld =>
          exact ⟨entry, liveEntry_of_deadline found live rfl sameNow, le_rfl,
            weighed.old .allow isOld⟩
        · cases unchanged
      next metadata nodeStates changed =>
        split at changed
        · cases changed
        next notOld =>
          cases changed
          have newer : entry.metadata.checkedVinst < vinst := Nat.lt_of_not_le notOld
          exact ⟨_, liveEntry_of_deadline found live rfl sameNow, newer.le,
            weighed.allow newer (fresh .deny)⟩
    | deny =>
      simp only [SweepVerdict.change, denyChange] at found
      split at found
      next unchanged =>
        split at unchanged
        next isOld =>
          exact ⟨entry, liveEntry_of_deadline found live rfl sameNow, le_rfl,
            weighed.old .deny isOld⟩
        · cases unchanged
      next metadata nodeStates changed =>
        split at changed
        · cases changed
        next notOld =>
          cases changed
          have newer : entry.metadata.checkedVinst < vinst := Nat.lt_of_not_le notOld
          exact ⟨_, liveEntry_of_deadline found live rfl sameNow, le_rfl, weighed.deny newer⟩
  · cases stepped

theorem Repo.verdictStep_dead (dead : liveEntry repo.now repo.store id = none)
    (stepped : repo.verdictStep id event = some next) :
    liveEntry next.now next.store id = none := by
  cases event with
  | deliver vinst verdict =>
    have decides : (verdict.op id vinst).decide codec repo.now repo.store = .done (.ok false) := by
      rw [RepoOp.decide_of_rewrite (verdict.op_rewrite id vinst)]
      simp [rewriteEntry, dead]
    simp only [verdictStep, Repo.call, decides] at stepped
    cases stepped
    exact dead
  | tick nanos =>
    cases stepped
    refine Option.eq_none_iff_forall_ne_some.mpr fun entry live => ?_
    obtain ⟨found, alive⟩ := liveEntry_eq_some.mp live
    have alive : repo.now + nanos + nanosPerSec ≤ entry.deadline := alive
    have earlier : liveEntry repo.now repo.store id = some entry :=
      liveEntry_eq_some.mpr ⟨found, by omega⟩
    cases dead.symm.trans earlier
  | purgeExpired =>
    cases stepped
    unfold Repo.purgeExpired
    split
    · exact dead
    · refine Option.eq_none_iff_forall_ne_some.mpr fun entry live => ?_
      have found := (liveEntry_eq_some.mp live).1
      rw [purge_visas] at found
      cases dead.symm.trans found

theorem Repo.verdictStep_passes (noVerdict : event.verdict = none)
    (live : liveEntry repo.now repo.store id = some entry)
    (stepped : repo.verdictStep id event = some next)
    (alive : liveEntry next.now next.store id = some after) : after = entry := by
  have found := (liveEntry_eq_some.mp live).1
  have later := (liveEntry_eq_some.mp alive).1
  cases event with
  | deliver vinst verdict => cases noVerdict
  | tick nanos =>
    cases stepped
    exact Option.some.inj (later.symm.trans found)
  | purgeExpired =>
    cases stepped
    unfold Repo.purgeExpired at later
    split at later
    · exact Option.some.inj (later.symm.trans found)
    · rw [purge_visas] at later
      exact Option.some.inj (later.symm.trans live)

theorem Weighed.step (weighed : Weighed initial seen entry)
    (live : liveEntry repo.now repo.store id = some entry)
    (fresh : ∀ vinst verdict other, event.verdict = some (vinst, verdict) → (vinst, other) ∉ seen)
    (stepped : repo.verdictStep id event = some next)
    (alive : liveEntry next.now next.store id = some after) :
    entry.metadata.checkedVinst ≤ after.metadata.checkedVinst ∧
      Weighed initial (event.verdict.toList ++ seen) after := by
  cases event with
  | deliver vinst verdict =>
    obtain ⟨left, isLeft, raised, weighed⟩ :=
      weighed.deliver live (fun other => fresh vinst verdict other rfl) stepped
    cases isLeft.symm.trans alive
    exact ⟨raised, weighed⟩
  | tick nanos | purgeExpired =>
    cases Repo.verdictStep_passes rfl live stepped alive
    exact ⟨le_rfl, weighed⟩

theorem Repo.alive_before {events : List VerdictEvent}
    (ran : run (Repo.verdictStep id) repo events = some final)
    (alive : liveEntry final.now final.store id = some last) :
    ∃ entry, liveEntry repo.now repo.store id = some entry := by
  refine Option.ne_none_iff_exists'.mp fun dead => ?_
  have stays : liveEntry final.now final.store id = none :=
    @run_preserves _ _ _ (fun repo : Repo codec => liveEntry repo.now repo.store id = none)
      (fun _ _ _ dead stepped => Repo.verdictStep_dead dead stepped) _ _ _ dead ran
  cases stays.symm.trans alive

/-- The verdicts among the events, newest delivery first. -/
def delivered (events : List VerdictEvent) : List (Nat × SweepVerdict) :=
  (events.filterMap VerdictEvent.verdict).reverse

theorem Weighed.run {events : List VerdictEvent} (weighed : Weighed initial seen entry)
    (live : liveEntry repo.now repo.store id = some entry)
    (distinct : ((delivered events ++ seen).map Prod.fst).Nodup)
    (ran : Lib.run (Repo.verdictStep id) repo events = some final)
    (alive : liveEntry final.now final.store id = some last) :
    entry.metadata.checkedVinst ≤ last.metadata.checkedVinst ∧
      Weighed initial (delivered events ++ seen) last := by
  induction events generalizing repo entry seen with
  | nil =>
    cases ran
    cases live.symm.trans alive
    exact ⟨le_rfl, weighed⟩
  | cons event rest ih =>
    obtain ⟨next, stepped, ran⟩ := run_cons_eq_some.mp ran
    obtain ⟨after, isAfter⟩ := Repo.alive_before ran alive
    have split : delivered (event :: rest) ++ seen =
        delivered rest ++ (event.verdict.toList ++ seen) := by
      cases event with
      | deliver vinst verdict => simp [delivered, VerdictEvent.verdict]
      | tick nanos => rfl
      | purgeExpired => rfl
    rw [split] at distinct ⊢
    have fresh (vinst : Nat) (verdict other : SweepVerdict)
        (isVerdict : event.verdict = some (vinst, verdict)) : (vinst, other) ∉ seen := by
      intro member
      rw [isVerdict, List.map_append, List.nodup_append] at distinct
      have inner := distinct.2.1
      simp only [Option.toList_some, List.singleton_append, List.map_cons, List.nodup_cons] at inner
      exact inner.1 (List.mem_map_of_mem member)
    obtain ⟨raised, later⟩ := weighed.step live fresh stepped isAfter
    obtain ⟨further, final⟩ := ih later isAfter distinct ran
    exact ⟨raised.trans further, final⟩

/-- Verdicts of pairwise different generations, all newer than the visa's `checked_vinst`, in
any order: the newest one decides whether all nodes or none wait for a revoke in the end, and
`checked_vinst` never decreases on the way. -/
theorem newest_verdict_decides {now initialVisaId id : Nat} {history : List LifeEvent}
    {repo final : Repo codec} {entry last : VisaEntry} {events : List VerdictEvent}
    (acks : ∀ event ∈ history, event.OnlyInstallAcks)
    (reached : run Repo.lifeStep (Repo.init codec now initialVisaId) history = some repo)
    (live : liveEntry repo.now repo.store id = some entry)
    (unrevoked : ∀ (node : IpAddr) ns, entry.nodeStates[node]? = some ns →
      ns.state ≠ .pendingRevoke)
    (distinct : ((delivered events).map Prod.fst).Nodup)
    (newer : ∀ vinst verdict, (vinst, verdict) ∈ delivered events →
      entry.metadata.checkedVinst < vinst)
    (ran : run (Repo.verdictStep id) repo events = some final)
    (alive : liveEntry final.now final.store id = some last)
    {newest : Nat} {verdict : SweepVerdict} (isDelivered : (newest, verdict) ∈ delivered events)
    (isNewest : ∀ vinst other, (vinst, other) ∈ delivered events → vinst ≤ newest) :
    (∀ node, node ∈ last.nodeStates ↔ node ∈ entry.nodeStates) ∧
    (∀ (node : IpAddr) ns, last.nodeStates[node]? = some ns →
      (ns.state = .pendingRevoke ↔ verdict = .deny)) ∧
    ∀ earlier later mid between, events = earlier ++ later →
      run (Repo.verdictStep id) repo earlier = some mid →
      liveEntry mid.now mid.store id = some between →
      entry.metadata.checkedVinst ≤ between.metadata.checkedVinst ∧
        between.metadata.checkedVinst ≤ last.metadata.checkedVinst := by
  have pending := stampsPending_of_reachable acks reached
  have start : Weighed entry [] entry :=
    .start (pending.memory id entry (liveEntry_eq_some.mp live).1) unrevoked
  have weighed : Weighed entry (delivered events) last := by
    have ended := (start.run live (by simpa using distinct) ran alive).2
    rwa [List.append_nil] at ended
  refine ⟨weighed.nodes, fun node ns found => ?_, ?_⟩
  · cases verdict with
    | deny =>
      -- no allow is as new, so `checked_vinst` is below the newest deny
      have below : last.metadata.checkedVinst < newest := by
        rcases weighed.checked with unraised | allowed
        · rw [unraised]
          exact newer newest .deny isDelivered
        · refine lt_of_le_of_ne (isNewest _ _ allowed) fun same => ?_
          rw [same] at allowed
          cases List.inj_on_of_nodup_map distinct allowed isDelivered rfl
      simp [(weighed.denies newest isDelivered below node ns found).1]
    | allow =>
      have above : newest ≤ last.metadata.checkedVinst := weighed.allows newest isDelivered
      simp only [reduceCtorEq, iff_false]
      intro isPending
      -- a node still waiting would carry the stamp of a newer deny
      obtain ⟨stamp, stamped⟩ := weighed.pending node ns found isPending
      obtain ⟨-, denied, newerStamp⟩ := weighed.stamps node ns stamp found stamped
      have := isNewest stamp .deny denied
      omega
  · intro earlier later mid between isEvents reachedMid isBetween
    subst isEvents
    obtain ⟨mid', ranMid, ranLater⟩ := run_append_eq_some.mp ran
    cases reachedMid.symm.trans ranMid
    have splits : delivered (earlier ++ later) = delivered later ++ delivered earlier := by
      simp [delivered]
    rw [splits] at distinct
    have firstDistinct : ((delivered earlier ++ []).map Prod.fst).Nodup := by
      rw [List.append_nil]
      rw [List.map_append, List.nodup_append] at distinct
      exact distinct.2.1
    obtain ⟨raised, between'⟩ := start.run live firstDistinct reachedMid isBetween
    rw [List.append_nil] at between'
    exact ⟨raised, (between'.run isBetween distinct ranLater alive).1⟩

namespace VerdictTrace

open Sample

/-- A visa is stored, the process restarts, and its node acknowledges the install. -/
def history : List LifeEvent :=
  [.running .getNextVisaId, .running (.call (.storeVisa visa metadata .pendingInstall) .applied),
    .restart, .running (.call (.transitionNodeVisaState node 1 .pendingInstall .installed) .applied)]

def installed : Repo .plain :=
  (run Repo.lifeStep (Repo.init .plain 0 0) history).getD (Repo.init .plain 0 0)

/-- A deny, a newer allow and a deny in between that comes last. -/
def events : List VerdictEvent :=
  [.deliver 2 .deny, .deliver 4 .allow, .tick nanosPerSec, .deliver 3 .deny]

def judged : Repo .plain :=
  (run (Repo.verdictStep 1) installed events).getD installed

end VerdictTrace

open VerdictTrace Sample in
/-- The node keeps the visa that the newest generation allows. -/
theorem late_deny_outweighed :
    ∃ entry, liveEntry judged.now judged.store 1 = some entry ∧ node ∈ entry.nodeStates ∧
      ∀ (node : IpAddr) ns, entry.nodeStates[node]? = some ns → ns.state ≠ .pendingRevoke := by
  obtain ⟨entry, live⟩ := Option.isSome_iff_exists.mp
    (show (liveEntry installed.now installed.store 1).isSome = true by decide +kernel)
  obtain ⟨last, alive⟩ := Option.isSome_iff_exists.mp
    (show (liveEntry judged.now judged.store 1).isSome = true by decide +kernel)
  have listed : node ∈ entry.nodeStates ∧ entry.metadata.checkedVinst = 0 ∧
      (entry.nodeStates.toList.all fun item => item.2.state ≠ .pendingRevoke) = true := by
    have all : ∀ entry ∈ liveEntry installed.now installed.store 1, node ∈ entry.nodeStates ∧
        entry.metadata.checkedVinst = 0 ∧
        (entry.nodeStates.toList.all fun item => item.2.state ≠ .pendingRevoke) = true := by
      decide +kernel
    exact all entry live
  obtain ⟨member, unchecked, unrevoked⟩ := listed
  have bounds : ∀ item ∈ delivered events, 0 < item.1 ∧ item.1 ≤ 4 := by decide
  have decided := @newest_verdict_decides .plain 0 0 1 history installed judged entry last events
    (by simp [history, LifeEvent.OnlyInstallAcks, RepoEvent.OnlyInstallAcks])
    (run_eq_some_getD (by decide +kernel) _) live
    (fun node ns found => of_decide_eq_true (List.all_eq_true.mp unrevoked (node, ns)
      (Std.ExtTreeMap.mem_toList_iff_getElem?_eq_some.mpr found)))
    (by decide) (fun vinst verdict isDelivered => unchecked ▸ (bounds _ isDelivered).1)
    (run_eq_some_getD (by decide +kernel) _) alive 4 .allow (by decide)
    (fun vinst other isDelivered => (bounds _ isDelivered).2)
  refine ⟨last, alive, (decided.1 node).mpr member, fun node ns found => ?_⟩
  simpa using decided.2.1 node ns found

end VisaService
