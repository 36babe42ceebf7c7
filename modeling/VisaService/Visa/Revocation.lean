import VisaService.Visa.EntrySteps

/-!
# Is a departure revoke final?

`mark_visa_revoked` revokes a visa whose actor or node has left, whatever the policy says.
It relies on leaving the nodes without a deny stamp, which `record_allow_verdict` cannot
cancel. A stamp that a deny verdict left earlier, or sets later, defeats this: the next
allow verdict newer than the stamp returns the node to `pendingInstall`.
-/
namespace VisaService

open Lib

variable {codec : VisaCodec}

/-- Of `nodes`, those still listed by visa `id` are waiting for their revoke. -/
def StaysRevoked (id : Nat) (nodes : List IpAddr) (repo : Repo codec) : Prop :=
  ∀ node ∈ nodes, ∀ entry ns, repo.store.visas[id]? = some entry →
    entry.nodeStates[node]? = some ns → ns.state = .pendingRevoke

/-- The only compare-and-swap the service issues is the install acknowledgement. -/
def RepoEvent.OnlyInstallAcks : RepoEvent → Prop
  | .call (.transitionNodeVisaState _ _ expected new) _ =>
    expected = .pendingInstall ∧ new = .installed
  | _ => True

/-- The step records an allow verdict on `id` that is newer than the deny stamp of one of
its nodes. -/
def RepoEvent.LiftsStamp (repo : Repo codec) (id : Nat) : RepoEvent → Prop
  | .call (.recordAllowVerdict visaId vinst) .applied =>
    visaId = id ∧ ∃ entry, liveEntry repo.now repo.store id = some entry ∧
      entry.metadata.checkedVinst < vinst ∧ (∃ blob, codec.encode entry.visa = .ok blob) ∧
      ∃ (node : IpAddr) (ns : NodeState) (stamp : Nat),
        entry.nodeStates[node]? = some ns ∧ ns.state = .pendingRevoke ∧
        ns.revokeVinst = some stamp ∧ stamp < vinst
  | _ => False

def Repo.nodesOf (repo : Repo codec) (id : Nat) : List IpAddr :=
  (repo.store.visas[id]?.map fun entry => entry.nodeStates.keys).getD []

/-! ### A marked visa -/

/-- What a mark establishes: the id is never stored again, and every node the visa lists
is one of `nodes` and waits for its revoke. -/
structure Repo.Marked (id : Nat) (nodes : List IpAddr) (repo : Repo codec) : Prop where
  spent : repo.Spent id
  listed : ∀ entry node ns, repo.store.visas[id]? = some entry →
    entry.nodeStates[node]? = some ns → node ∈ nodes ∧ ns.state = .pendingRevoke

variable {id : Nat} {nodes : List IpAddr} {repo : Repo codec}

theorem Repo.Marked.staysRevoked (marked : repo.Marked id nodes) : StaysRevoked id nodes repo :=
  fun node _ entry ns found state => (marked.listed entry node ns found state).2

theorem NodeState.allowed_of_not_older {ns : NodeState} {vinst : Nat}
    (kept : ∀ stamp, ns.revokeVinst = some stamp → ¬ stamp < vinst) : ns.allowed vinst = ns := by
  unfold NodeState.allowed
  cases stamped : ns.revokeVinst with
  | none => simp
  | some stamp => simp [kept stamp stamped]

/-- The rewrites that are no allow verdict keep every listed node waiting for its revoke and
list no new one. -/
theorem change_keeps_revoked {op : RepoOp} {target : Rewrite} {entry : VisaEntry}
    {metadata : Option VisaMetadata} {nodeStates : NodeStates}
    (rewrites : op.rewrite = some target)
    (acks : (RepoEvent.call op .applied).OnlyInstallAcks)
    (notAllow : ∀ visaId vinst, op ≠ .recordAllowVerdict visaId vinst)
    (changed : target.change entry = some (metadata, nodeStates))
    (pending : ∀ (node : IpAddr) (ns : NodeState), entry.nodeStates[node]? = some ns →
      ns.state = .pendingRevoke)
    {node : IpAddr} {ns : NodeState} (found : nodeStates[node]? = some ns) :
    node ∈ entry.nodeStates ∧ ns.state = .pendingRevoke := by
  cases RepoOp.rewrite_cases rewrites changed with
  | allowed visaId vinst => exact absurd rfl (notAllow visaId vinst)
  | revoked op revoke revokes =>
    simp only [Std.ExtTreeMap.getElem?_map, Option.map_eq_some_iff] at found
    obtain ⟨old, listed, rfl⟩ := found
    exact ⟨HashMap.mem_of_get listed, revokes old⟩
  | transitioned target visaId expected new old listed expects =>
    -- the acknowledged node would have to be waiting for its install
    obtain ⟨rfl, rfl⟩ := acks
    cases expects.symm.trans (pending target old listed)
  | dropped target =>
    have before := (HashMap.of_get_erase found).2
    exact ⟨HashMap.mem_of_get before, pending node ns before⟩

private theorem step_keeps_marked {next : Repo codec} {event : RepoEvent}
    (marked : repo.Marked id nodes) (acks : event.OnlyInstallAcks)
    (unlifted : ¬ event.LiftsStamp repo id) (stepped : repo.step event = some next) :
    next.Marked id nodes := by
  refine ⟨marked.spent.step stepped, fun entry node ns found state => ?_⟩
  have change := repo.step_entry stepped id
  rw [found] at change
  generalize before : repo.store.visas[id]? = old at change
  cases change with
  | same => exact marked.listed entry node ns before state
  | stored visa metadata nstate old own handed => exact absurd handed marked.spent.2
  | cleared target outcome entry =>
    exact marked.listed entry node ns before (HashMap.of_get_erase state).2
  | rewritten op target entry metadata nodeStates rewrites own live changed encodes =>
    have pending : ∀ (node : IpAddr) (ns : NodeState), entry.nodeStates[node]? = some ns →
        node ∈ nodes ∧ ns.state = .pendingRevoke :=
      fun node ns => marked.listed entry node ns before
    by_cases allow : ∃ visaId vinst, op = .recordAllowVerdict visaId vinst
    · obtain ⟨visaId, vinst, rfl⟩ := allow
      cases rewrites
      simp only [allowChange] at changed
      split at changed
      · cases changed
      next newer =>
        cases changed
        simp only [Std.ExtTreeMap.getElem?_map, Option.map_eq_some_iff] at state
        obtain ⟨listed, wasListed, rfl⟩ := state
        obtain ⟨member, isPending⟩ := pending node listed wasListed
        -- an older stamp would make this very step lift it
        rw [NodeState.allowed_of_not_older fun stamp stamped older => unlifted
          ⟨own, entry, live, by omega, encodes, node, listed, stamp, wasListed, isPending,
            stamped, older⟩]
        exact ⟨member, isPending⟩
    · simp only [not_exists] at allow
      obtain ⟨member, isPending⟩ := change_keeps_revoked rewrites acks allow changed
        (fun node ns listed => (pending node ns listed).2) state
      obtain ⟨old, listed⟩ := HashMap.get_of_mem member
      exact ⟨(pending node old listed).1, isPending⟩

private theorem lift_revives {event : RepoEvent} (marked : repo.Marked id nodes)
    (lifts : event.LiftsStamp repo id) :
    ∃ next, repo.step event = some next ∧ ¬ StaysRevoked id nodes next := by
  unfold RepoEvent.LiftsStamp at lifts
  split at lifts
  next visaId vinst =>
    obtain ⟨rfl, entry, live, newer, ⟨blob, encoded⟩, node, ns, stamp, listed, pending, stamped,
      older⟩ := lifts
    have found := (liveEntry_eq_some.mp live).1
    have changed : allowChange vinst entry =
        some (some { entry.metadata with checkedVinst := vinst },
          entry.nodeStates.map fun _ ns => ns.allowed vinst) := by
      simp [allowChange, newer]
    have written := (Repo.call_rewrite_applied (.recordAllowVerdict visaId vinst) rfl live
      changed encoded).2
    refine ⟨_, rfl, fun stays => ?_⟩
    have state := stays node (marked.listed entry node ns found listed).1 _ (ns.allowed vinst)
      written (by simp [listed])
    simp [NodeState.allowed, pending, stamped, older] at state
  · exact lifts.elim

private theorem mark_marks {before marked : Repo codec} {outcome : RedisOutcome}
    (unique : before.IdsUnique)
    (marks : before.call (.markVisaRevoked id) outcome = (marked, .ok true)) :
    marked.Marked id (marked.nodesOf id) := by
  obtain ⟨entry, metadata, nodeStates, live, changed, written⟩ :=
    Repo.call_rewrite_ok (.markVisaRevoked id) rfl (congrArg Prod.snd marks)
  cases changed
  simp only [marks] at written
  obtain ⟨counter, handed, -⟩ := before.call_counters (.markVisaRevoked id) outcome
  obtain ⟨bound, unhanded⟩ := unique.stored id entry (liveEntry_eq_some.mp live).1
  rw [marks] at counter handed
  refine ⟨⟨counter ▸ bound, handed ▸ unhanded⟩, fun found node ns isFound state => ?_⟩
  simp only [Repo.nodesOf, isFound, Option.map_some, Option.getD_some, Std.ExtTreeMap.mem_keys]
  refine ⟨HashMap.mem_of_get state, ?_⟩
  rw [written] at isFound
  cases isFound
  simp only [Std.ExtTreeMap.getElem?_map, Option.map_eq_some_iff] at state
  obtain ⟨old, -, rfl⟩ := state
  rfl

/-! ### When the mark is final -/

/-- After `mark_visa_revoked` replied `ok true`, the nodes it marked stay in `pendingRevoke`
along a run exactly when no step of the run records an allow verdict newer than the deny
stamp one of them carries. -/
theorem markVisaRevoked_final_iff {now initialVisaId id : Nat} {before marked : Repo codec}
    {history later : List RepoEvent} {outcome : RedisOutcome}
    (reached : run Repo.step (Repo.init codec now initialVisaId) history = some before)
    (marks : before.call (.markVisaRevoked id) outcome = (marked, .ok true))
    (acks : ∀ event ∈ later, event.OnlyInstallAcks) :
    (∀ first rest final, later = first ++ rest → run Repo.step marked first = some final →
        StaysRevoked id (marked.nodesOf id) final) ↔
      Meets Repo.step (fun repo event => ¬ event.LiftsStamp repo id) marked later := by
  have unique := run_preserves (fun _ _ _ unique stepped => Repo.IdsUnique.step unique stepped)
    (idsUnique_init now initialVisaId) reached
  exact good_along_iff_meets
    (fun _ _ _ inv legal unlifted stepped => step_keeps_marked inv legal unlifted stepped)
    (fun _ inv => inv.staysRevoked)
    (fun _ _ inv _ lifts => lift_revives inv (not_not.mp lifts))
    (mark_marks unique marks) acks

namespace RevocationTrace

open Sample

/-- The visa is stored and a deny verdict at policy 1 stamps its node. -/
def history : List RepoEvent :=
  [.getNextVisaId, .call (.storeVisa visa metadata .pendingInstall) .applied,
    .call (.recordDenyVerdict 1 1) .applied]

/-- The repository with the visa stored, and after a departure revoke of it. -/
def stored : Repo .plain :=
  (run Repo.step (Repo.init .plain 0 0) (history.take 2)).getD (Repo.init .plain 0 0)

def marked : Repo .plain := (stored.call (.markVisaRevoked 1) .applied).1

end RevocationTrace

open RevocationTrace Sample in
/-- A visa revoked by a departure before any deny verdict reached it stays revoked through
a later deny and the removal of the node. -/
theorem markVisaRevoked_final_unstamped :
    (∀ first rest final,
      ([.call (.recordDenyVerdict 1 1) .applied,
        .call (.removeNodeIfPendingRevoke node 1) .applied] : List RepoEvent) = first ++ rest →
      run Repo.step marked first = some final →
      StaysRevoked 1 (marked.nodesOf 1) final) ∧ marked.nodesOf 1 = [node] :=
  ⟨(markVisaRevoked_final_iff (show run Repo.step (Repo.init .plain 0 0) (history.take 2) =
      some stored from rfl) (show stored.call (.markVisaRevoked 1) .applied = (marked, .ok true)
      from rfl) (by simp [RepoEvent.OnlyInstallAcks])).mpr
    ⟨fun lifts => lifts, fun _ _ => ⟨fun lifts => lifts, fun _ _ => trivial⟩⟩, by decide⟩

open RevocationTrace Sample in
/-- A deny at policy 1, a departure revoke, then an allow at policy 2: the node that was to
lose the visa for good gets it installed again. -/
theorem markVisaRevoked_undone_by_allow :
    ¬ ∀ (codec : VisaCodec) (now initialVisaId id : Nat) (before marked : Repo codec)
      (history later : List RepoEvent) (outcome : RedisOutcome),
      run Repo.step (Repo.init codec now initialVisaId) history = some before →
      before.call (.markVisaRevoked id) outcome = (marked, .ok true) →
      (∀ event ∈ later, event.OnlyInstallAcks) →
      ∀ final, run Repo.step marked later = some final →
        StaysRevoked id (marked.nodesOf id) final := by
  intro final
  have stays := final .plain 0 0 1 _ _ history [.call (.recordAllowVerdict 1 2) .applied] .applied
    rfl rfl (by simp [RepoEvent.OnlyInstallAcks]) _ rfl node (by decide) _ _ rfl rfl
  revert stays
  decide

end VisaService
