import VisaService.Assembly.Cleanup
import VisaService.Assembly.Mesh
import VisaService.Router.Revalidation
import VisaService.Visa.Verdicts

/-!
# The handler of a policy update

After a policy was installed its handler brings the service in line: attributes are refreshed,
nodes that the policy does not admit any more are disconnected, the topology is revalidated, the
obligation to re-authenticate is recorded, and every visa is checked again. The steps come one
after the other, and an error of the topology ends the handler.

Main results: `policy_enforced_iff`, `trusted_change_enforced` and
`topology_error_skips_enforcement`.

The sweep deals with one visa at a time and leaves the others alone (`Repo.sweepVisa_other`), so a
visa ends as its own turn leaves it. Whether the sweep is reached at all is a question of the
topology (`Mesh.prepare_isOk`).
-/
namespace VisaService

open Lib

variable {codec : VisaCodec}

/-! ### The sweep -/

inductive SweepReason where
  | policyUpdate
  | attributeChange
  deriving DecidableEq, Repr

namespace Repo

/-- One listed visa. `live` is the generation of the live policy, `recheck` what becomes of the
visa under the policy of generation `target`. -/
def sweepVisa (reason : SweepReason) (target live : Nat)
    (recheck : VisaMetadata → Except ServiceError VisaRecheck) (redis : RepoOp → RedisOutcome)
    (repo : Repo codec) (item : Nat × VisaMetadata) : Repo codec :=
  let record (op : RepoOp) := (repo.call op (redis op)).1
  if reason = .policyUpdate ∧ target ≤ item.2.checkedVinst then repo
  else
    match recheck item.2 with
    | .error _ => repo
    | .ok .skipUnresolvedActor => repo
    | .ok .allowSameRoute =>
      -- an attribute sweep records nothing when a visa is allowed
      if reason = .attributeChange then repo
      else if live ≠ target then repo
      else record (.recordAllowVerdict item.1 target)
    | .ok .revoke =>
      if live ≠ target then repo
      else
        match reason with
        | .policyUpdate => record (.recordDenyVerdict item.1 target)
        | .attributeChange => record (.markVisaRevoked item.1)

/-- Every live visa is checked again. -/
def revalidateVisas (reason : SweepReason) (target live : Nat)
    (recheck : VisaMetadata → Except ServiceError VisaRecheck) (redis : RepoOp → RedisOutcome)
    (repo : Repo codec) : Repo codec :=
  (listVisaMetadata repo.now repo.store).foldl (sweepVisa reason target live recheck redis) repo

end Repo

/-! ### The handler -/

def defaultReauthDeadlineSecs : Nat := 300

/-- What the rest of the service contributes to a policy update. -/
structure UpdateAnswer where
  topo : TopologyAnswer
  /-- What a refresh makes of an actor and of the recorded revisions; none if it writes no
  actor. -/
  refresh : IpAddr → Actor → TrustedServicesMgr → Option Actor × TrustedServicesMgr
  /-- The configured deadline in seconds. -/
  reauthDeadline : Option Nat

namespace Mesh

def liveVisaActorAddrs (mesh : Mesh codec) : List IpAddr :=
  (listVisaMetadata mesh.asm.visas.now mesh.asm.visas.store).flatMap fun item => item.2.endpoints

def refreshActor (answer : UpdateAnswer) (mesh : Mesh codec) (addr : IpAddr) : Mesh codec :=
  match mesh.asm.getActorByZprAddr addr with
  | .ok (some actor) =>
    let (written, trusted) := answer.refresh addr actor mesh.asm.trusted
    let actors := match written with
      | some actor => mesh.asm.actors.insert addr actor
      | none => mesh.asm.actors
    { mesh with asm := { mesh.asm with actors, trusted } }
  | .ok none => mesh
  | .error _ => mesh

def refreshActors (answer : UpdateAnswer) (mesh : Mesh codec) (addrs : List IpAddr) : Mesh codec :=
  (mesh.asm.answer.order.list (Std.ExtTreeSet.ofList addrs compare)).foldl
    (refreshActor answer) mesh

/-- A node stays unless policy rejects its actor. -/
def nodeStillValid (mesh : Mesh codec) (addr : IpAddr) : Bool :=
  match mesh.asm.getActorByZprAddr addr with
  | .ok (some actor) =>
    match approveConnected mesh.asm.visas.now mesh.policy.policy actor with
    | .ok approved => approved
    | .error _ => true
  | .ok none => true
  | .error _ => true

/-- Refresh attributes and disconnect the nodes that have to go; the others are returned. -/
def settleNodes (answer : UpdateAnswer) (mesh : Mesh codec) (connected : List IpAddr) :
    List IpAddr × Mesh codec :=
  let refreshed := mesh.refreshActors answer (mesh.liveVisaActorAddrs ++ connected)
  let (valid, invalid) := connected.partition refreshed.nodeStillValid
  -- a disconnect that fails is only logged
  (valid, invalid.foldl (fun mesh addr => (mesh.disconnect answer.topo addr).2) refreshed)

/-- Only with nodes left. -/
def revalidateTopology (answer : UpdateAnswer) (mesh : Mesh codec) (valid : List IpAddr) :
    Except ServiceError Unit × Mesh codec :=
  if valid.isEmpty then (.ok (), mesh)
  else
    match mesh.topo.revalidateAgainstPolicy answer.topo mesh.policy.links mesh.asm.visas.now
      valid with
    | (.error failure, topo) => (.error failure, { mesh with topo })
    | (.ok _, topo) => (.ok (), { mesh with topo })

def addObligation (answer : UpdateAnswer) (mesh : Mesh codec) :
    Except ServiceError Unit × Mesh codec :=
  if mesh.asm.answer.fails then (.error (.store .redis), mesh)
  else
    let secs := answer.reauthDeadline.getD defaultReauthDeadlineSecs
    let deadline := (mesh.asm.visas.now + secs * nanosPerSec) / nanosPerSec
    (.ok (), { mesh with asm := { mesh.asm with
      obligations := mesh.asm.obligations.insert mesh.policy.vinst deadline } })

def resolves (mesh : Mesh codec) (addr : IpAddr) : Bool :=
  match mesh.asm.getActorByZprAddr addr with
  | .ok (some _) => true
  | .ok none => false
  | .error _ => false

def sides (mesh : Mesh codec) (flow : FiveTuple) : Option Sides :=
  mesh.asm.actors[flow.sourceAddr]?.bind fun source =>
    mesh.asm.actors[flow.destAddr]?.map fun dest =>
      ⟨.stored source, .stored dest, flow.sourceAddr, flow.destAddr⟩

/-- What the check of a visa reads. It asks for nothing here when an actor is missing. -/
def flowEnv (mesh : Mesh codec) (flow : FiveTuple) : FlowEnv where
  evaluate pkt :=
    match mesh.sides flow with
    | some sides => evaluateAgainstPolicy mesh.topo.router.topology mesh.fabric mesh.aaa sides pkt
        mesh.policy.view
    | none => .error (.internal "actor not found")
  dockingNodeForAddr addr :=
    (mesh.aaa.dockingNodeForAddr mesh.fabric mesh.asm.actors[addr]? addr).1
  routeToPath route starting :=
    (mesh.topo.router.topology.routeToPath route starting).mapError (·.toServiceError)
  expiration hit :=
    match mesh.sides flow with
    | some sides => mesh.policy.view.expiration sides.source sides.dest hit
    | none => .error (.internal "actor not found")
  policyVersion := mesh.policy.view.version
  cpolSource := mesh.policy.view.cpolSource

def recheck (mesh : Mesh codec) (metadata : VisaMetadata) : Except ServiceError VisaRecheck :=
  recheckVisaAllowed mesh.resolves (mesh.flowEnv metadata.fiveTuple) metadata

def revalidateVisas (mesh : Mesh codec) (reason : SweepReason) : Mesh codec :=
  { mesh with asm := { mesh.asm with
    visas := mesh.asm.visas.revalidateVisas reason mesh.policy.vinst mesh.policy.vinst mesh.recheck
      mesh.asm.answer.redis } }

def prepare (answer : UpdateAnswer) (mesh : Mesh codec) : Except ServiceError Unit × Mesh codec :=
  if mesh.asm.answer.fails then (.error (.store .redis), mesh)
  else
    let (valid, settled) := mesh.settleNodes answer (mesh.asm.answer.order.list mesh.nodes)
    settled.revalidateTopology answer valid

def handlePolicyUpdated (answer : UpdateAnswer) (mesh : Mesh codec) :
    Except ServiceError Unit × Mesh codec :=
  match mesh.prepare answer with
  | (.error failure, mesh) => (.error failure, mesh)
  | (.ok _, mesh) =>
    match mesh.addObligation answer with
    | (.error failure, mesh) => (.error failure, mesh)
    | (.ok _, mesh) => (.ok (), mesh.revalidateVisas .policyUpdate)

/-- The sweep after the data of a trusted service has changed. -/
def handleTrustedServiceChange (answer : UpdateAnswer) (mesh : Mesh codec) : Mesh codec :=
  (mesh.refreshActors answer mesh.liveVisaActorAddrs).revalidateVisas .attributeChange

end Mesh

/-! ### One visa of the sweep -/

theorem nodup_listVisaMetadata (now : Nat) (inner : VisaStoreInner) :
    ((listVisaMetadata now inner).map Prod.fst).Nodup := by
  have keys : (inner.visas.toList.map Prod.fst).Nodup := by
    rw [Std.ExtTreeMap.map_fst_toList_eq_keys]
    exact Std.ExtTreeMap.distinct_keys.imp fun differs same =>
      differs (Std.compare_eq_iff_eq.mpr same)
  rw [listVisaMetadata, List.map_map]
  exact keys.sublist (List.Sublist.map _ List.filter_sublist)

/-- The parts of an entry that no verdict changes. -/
structure VisaEntry.SameVisa (before after : VisaEntry) : Prop where
  visa : after.visa = before.visa
  flow : after.metadata.fiveTuple = before.metadata.fiveTuple
  deadline : after.deadline = before.deadline

/-- A pending revoke on all its nodes. -/
def VisaEntry.Revoked (entry : VisaEntry) : Prop :=
  ∀ (node : IpAddr) (ns : NodeState), entry.nodeStates[node]? = some ns →
    ns.state = .pendingRevoke

theorem VisaEntry.SameVisa.refl (entry : VisaEntry) : SameVisa entry entry := ⟨rfl, rfl, rfl⟩

theorem VisaEntry.SameVisa.trans {first second third : VisaEntry} (one : SameVisa first second)
    (two : SameVisa second third) : SameVisa first third :=
  ⟨two.visa.trans one.visa, two.flow.trans one.flow, two.deadline.trans one.deadline⟩

namespace Repo

section Sweep

variable {reason : SweepReason} {target live : Nat}
  {recheck : VisaMetadata → Except ServiceError VisaRecheck} {redis : RepoOp → RedisOutcome}
  {repo : Repo codec} {item : Nat × VisaMetadata} {id : Nat}

theorem sweepVisa_cases (reason : SweepReason) (target live : Nat)
    (recheck : VisaMetadata → Except ServiceError VisaRecheck) (redis : RepoOp → RedisOutcome)
    (repo : Repo codec) (item : Nat × VisaMetadata) :
    sweepVisa reason target live recheck redis repo item = repo ∨
      ∃ op rewrite, op.rewrite = some rewrite ∧ rewrite.visaId = item.1 ∧
        sweepVisa reason target live recheck redis repo item = (repo.call op (redis op)).1 := by
  unfold sweepVisa
  dsimp only
  split
  · exact .inl rfl
  split
  · exact .inl rfl
  · exact .inl rfl
  · split
    · exact .inl rfl
    split
    · exact .inl rfl
    · exact .inr ⟨_, _, rfl, rfl, rfl⟩
  · split
    · exact .inl rfl
    split
    · exact .inr ⟨_, _, rfl, rfl, rfl⟩
    · exact .inr ⟨_, _, rfl, rfl, rfl⟩

theorem call_rewrite_other {op : RepoOp} {rewrite : Rewrite} (rewrites : op.rewrite = some rewrite)
    (apart : rewrite.visaId ≠ id) (outcome : RedisOutcome) :
    (repo.call op outcome).1.store.visas[id]? = repo.store.visas[id]? := by
  have notNew : op.newId = none := by
    cases op with
    | storeVisa => cases rewrites
    | _ => rfl
  have change := Repo.step_entry (repo.step_call op notNew outcome) id
  generalize isEvent : RepoEvent.call op outcome = event at change
  generalize (repo.call op outcome).1.store.visas[id]? = after at change ⊢
  generalize repo.store.visas[id]? = before at change ⊢
  cases change with
  | same => rfl
  | expired => cases isEvent
  | removed | stored | cleared =>
    cases isEvent
    cases rewrites
  | rewritten _ other entry metadata nodeStates isRewrite own =>
    cases isEvent
    cases rewrites.symm.trans isRewrite
    exact absurd own apart

theorem sweepVisa_now :
    (sweepVisa reason target live recheck redis repo item).now = repo.now := by
  rcases sweepVisa_cases reason target live recheck redis repo item with
    same | ⟨op, rewrite, -, -, called⟩
  · rw [same]
  · rw [called, (repo.call_counters op _).2.2]

theorem sweepVisa_other (apart : item.1 ≠ id) :
    (sweepVisa reason target live recheck redis repo item).store.visas[id]? =
      repo.store.visas[id]? := by
  rcases sweepVisa_cases reason target live recheck redis repo item with
    same | ⟨op, rewrite, rewrites, own, called⟩
  · rw [same]
  · rw [called]
    exact call_rewrite_other rewrites (own ▸ apart) _

variable {after : VisaEntry} {items : List (Nat × VisaMetadata)}

theorem sweepVisa_entry
    (found : (sweepVisa reason target live recheck redis repo item).store.visas[id]? = some after) :
    ∃ before, repo.store.visas[id]? = some before ∧ before.SameVisa after := by
  rcases sweepVisa_cases reason target live recheck redis repo item with
    same | ⟨op, rewrite, rewrites, own, called⟩
  · rw [same] at found
    exact ⟨after, found, .refl after⟩
  rw [called] at found
  have notNew : op.newId = none := by
    cases op with
    | storeVisa => cases rewrites
    | _ => rfl
  generalize redis op = outcome at found
  have change := Repo.step_entry (repo.step_call op notNew outcome) id
  rw [found] at change
  generalize isEvent : RepoEvent.call op outcome = event at change
  generalize isBefore : repo.store.visas[id]? = before at change
  cases change with
  | same => exact ⟨after, rfl, .refl after⟩
  | stored | cleared =>
    cases isEvent
    cases rewrites
  | rewritten _ other entry metadata nodeStates isRewrite _ _ changed =>
    cases isEvent
    exact ⟨entry, rfl, rfl, (RepoOp.rewrite_domain isRewrite changed).2.2.1, rfl⟩

theorem sweepVisa_denied (applied : ∀ op, redis op = .applied) (current : live = target)
    {before : VisaEntry} (isLive : liveEntry repo.now repo.store id = some before)
    (encodes : ∃ blob, codec.encode before.visa = .ok blob)
    (denied : recheck before.metadata = .ok .revoke)
    (older : reason = .policyUpdate → before.metadata.checkedVinst < target) :
    ∃ after,
      (sweepVisa reason target live recheck redis repo (id, before.metadata)).store.visas[id]? =
        some after ∧ after.Revoked := by
  obtain ⟨blob, encoded⟩ := encodes
  have looked : ¬ (reason = .policyUpdate ∧ target ≤ before.metadata.checkedVinst) :=
    fun skipped => Nat.not_le.mpr (older skipped.1) skipped.2
  have pending (change : NodeState → NodeState) (revokes : ∀ ns, (change ns).state = .pendingRevoke)
      (node : IpAddr) (ns : NodeState)
      (found : (before.nodeStates.map fun _ ns => change ns)[node]? = some ns) :
      ns.state = .pendingRevoke := by
    simp only [Std.ExtTreeMap.getElem?_map, Option.map_eq_some_iff] at found
    obtain ⟨old, -, rfl⟩ := found
    exact revokes old
  unfold sweepVisa
  simp only [if_neg looked, denied, current, ne_eq, not_true, if_false, applied]
  cases reason with
  | policyUpdate =>
    have changed : denyChange target before =
        some (none, before.nodeStates.map fun _ ns => ns.denied target) :=
      if_neg (Nat.not_le.mpr (older rfl))
    exact ⟨_, (repo.call_rewrite_applied (.recordDenyVerdict id target) rfl isLive changed
      encoded).2, pending _ fun _ => rfl⟩
  | attributeChange =>
    exact ⟨_, (repo.call_rewrite_applied (.markVisaRevoked id) rfl isLive rfl encoded).2,
      pending _ fun _ => rfl⟩

/-! ### The whole sweep -/

theorem foldl_sweepVisa_now (items : List (Nat × VisaMetadata)) :
    (items.foldl (sweepVisa reason target live recheck redis) repo).now = repo.now := by
  induction items generalizing repo with
  | nil => rfl
  | cons item rest ih => rw [List.foldl_cons, ih, sweepVisa_now]

theorem foldl_sweepVisa_other (absent : id ∉ items.map Prod.fst) :
    (items.foldl (sweepVisa reason target live recheck redis) repo).store.visas[id]? =
      repo.store.visas[id]? := by
  induction items generalizing repo with
  | nil => rfl
  | cons item rest ih =>
    obtain ⟨apart, absent⟩ := not_or.mp (List.mem_cons.not.mp absent)
    rw [List.foldl_cons, ih absent, sweepVisa_other (Ne.symm apart)]

theorem foldl_sweepVisa_entry
    (found : (items.foldl (sweepVisa reason target live recheck redis) repo).store.visas[id]? =
      some after) :
    ∃ before, repo.store.visas[id]? = some before ∧ before.SameVisa after := by
  induction items generalizing repo with
  | nil => exact ⟨after, found, .refl after⟩
  | cons item rest ih =>
    obtain ⟨mid, isMid, later⟩ := ih found
    obtain ⟨before, isBefore, earlier⟩ := sweepVisa_entry isMid
    exact ⟨before, isBefore, earlier.trans later⟩

/-- A visa ends as its own turn leaves it. -/
theorem foldl_sweepVisa_own (distinct : (items.map Prod.fst).Nodup) (member : item ∈ items) :
    ∃ mid : Repo codec, mid.now = repo.now ∧
      mid.store.visas[item.1]? = repo.store.visas[item.1]? ∧
      (items.foldl (sweepVisa reason target live recheck redis) repo).store.visas[item.1]? =
        (sweepVisa reason target live recheck redis mid item).store.visas[item.1]? := by
  induction items generalizing repo with
  | nil => cases member
  | cons first rest ih =>
    obtain ⟨fresh, distinct⟩ := List.nodup_cons.mp distinct
    rw [List.foldl_cons]
    rcases List.mem_cons.mp member with rfl | later
    · -- the visas after it leave it alone
      exact ⟨repo, rfl, rfl, foldl_sweepVisa_other fresh⟩
    · have apart : first.1 ≠ item.1 := fun same => fresh (same ▸ List.mem_map_of_mem later)
      obtain ⟨mid, sameNow, same, own⟩ := ih distinct later
      exact ⟨mid, sameNow.trans sweepVisa_now, same.trans (sweepVisa_other apart), own⟩

/-- What a sweep makes of a live visa that is denied: a pending revoke on all its nodes, unless a
policy update passes over it. -/
theorem revalidateVisas_denied (applied : ∀ op, redis op = .applied) (current : live = target)
    {before : VisaEntry} (isLive : liveEntry repo.now repo.store id = some before)
    (encodes : ∃ blob, codec.encode before.visa = .ok blob)
    (denied : recheck before.metadata = .ok .revoke)
    (found : (repo.revalidateVisas reason target live recheck redis).store.visas[id]? =
      some after) :
    ((reason = .policyUpdate → before.metadata.checkedVinst < target) → after.Revoked) ∧
      (reason = .policyUpdate → target ≤ before.metadata.checkedVinst → after = before) := by
  obtain ⟨mid, sameNow, same, own⟩ := @foldl_sweepVisa_own codec reason target live recheck redis
    repo _ _ (nodup_listVisaMetadata _ _) (mem_listVisaMetadata.mpr ⟨before, isLive, rfl⟩)
  have stillLive : liveEntry mid.now mid.store id = some before := by
    rw [liveEntry_eq_some, same, sameNow]
    exact liveEntry_eq_some.mp isLive
  have swept := own.symm.trans found
  constructor
  · intro older
    obtain ⟨last, isLast, revoked⟩ :=
      sweepVisa_denied applied current stillLive encodes denied older
    cases isLast.symm.trans swept
    exact revoked
  · intro update newer
    have skipped : sweepVisa reason target live recheck redis mid (id, before.metadata) = mid :=
      if_pos ⟨update, newer⟩
    rw [skipped] at swept
    exact Option.some.inj (swept.symm.trans (liveEntry_eq_some.mp stillLive).1)

end Sweep

end Repo

/-! ### Before the obligation -/

theorem Repo.Departs.encodes {repo next : Repo codec} (departs : repo.Departs next)
    (encodes : repo.Encodes) : next.Encodes := by
  intro id after found
  obtain ⟨before, isBefore, lessened⟩ := departs.entries id after found
  rw [lessened.visa]
  exact encodes id before isBefore

namespace Mesh

/-- Visas only go, under the same policy. -/
structure Settles (mesh next : Mesh codec) : Prop where
  policy : next.policy = mesh.policy
  answer : next.asm.answer = mesh.asm.answer
  obligations : next.asm.obligations = mesh.asm.obligations
  visas : mesh.asm.visas.Departs next.asm.visas

variable {mesh mid next : Mesh codec}

theorem Settles.refl (mesh : Mesh codec) : Settles mesh mesh := ⟨rfl, rfl, rfl, .refl _⟩

theorem Settles.trans (one : Settles mesh mid) (two : Settles mid next) : Settles mesh next where
  policy := two.policy.trans one.policy
  answer := two.answer.trans one.answer
  obligations := two.obligations.trans one.obligations
  visas := one.visas.trans two.visas

theorem settles_foldl {step : Mesh codec → IpAddr → Mesh codec}
    (settles : ∀ mesh addr, Settles mesh (step mesh addr)) (addrs : List IpAddr)
    (mesh : Mesh codec) : Settles mesh (addrs.foldl step mesh) := by
  induction addrs generalizing mesh with
  | nil => exact .refl mesh
  | cons addr rest ih => exact (settles mesh addr).trans (ih _)

theorem settles_refreshActor (answer : UpdateAnswer) (mesh : Mesh codec) (addr : IpAddr) :
    Settles mesh (mesh.refreshActor answer addr) := by
  unfold refreshActor
  split
  · exact ⟨rfl, rfl, rfl, .refl _⟩
  · exact .refl mesh
  · exact .refl mesh

theorem settles_disconnect (answer : TopologyAnswer) (mesh : Mesh codec) (addr : IpAddr) :
    Settles mesh (mesh.disconnect answer addr).2 where
  policy := rfl
  answer := (Assembly.shrinks.disconnect mesh.asm addr).answer
  obligations := (Assembly.shrinks.disconnect mesh.asm addr).obligations
  visas := (Assembly.tidies.disconnect mesh.asm addr).visas

theorem settles_settleNodes (answer : UpdateAnswer) (mesh : Mesh codec) (connected : List IpAddr) :
    Settles mesh (mesh.settleNodes answer connected).2 := by
  have refreshes := settles_foldl (settles_refreshActor answer)
    (mesh.asm.answer.order.list
      (Std.ExtTreeSet.ofList (mesh.liveVisaActorAddrs ++ connected) compare)) mesh
  exact refreshes.trans (settles_foldl (settles_disconnect answer.topo) _ _)

/-! ### The topology -/

/-- The nodes that stay, and the service once the others are gone. -/
def settled (answer : UpdateAnswer) (mesh : Mesh codec) : List IpAddr × Mesh codec :=
  mesh.settleNodes answer (mesh.asm.answer.order.list mesh.nodes)

/-- Policy gives every edge between nodes that stay a link id of its own. -/
def LinksApart (answer : UpdateAnswer) (mesh : Mesh codec) : Prop :=
  mesh.topo.IdsApart mesh.policy.links mesh.asm.visas.now
    (Std.ExtTreeSet.ofList (mesh.settled answer).1 compare)

theorem leaves_foldl_disconnect (answer : TopologyAnswer) {known : HashSet IpAddr}
    {addrs : List IpAddr} (unknown : ∀ addr ∈ addrs, addr ∉ known) (mesh : Mesh codec) :
    TopologyMgr.Leaves known mesh.topo
      (addrs.foldl (fun mesh addr => (mesh.disconnect answer addr).2) mesh).topo := by
  induction addrs generalizing mesh with
  | nil => exact .refl _
  | cons addr rest ih =>
    refine .trans ?_ (ih (fun other later => unknown other (List.mem_cons_of_mem _ later)) _)
    unfold disconnect
    dsimp only
    split
    · exact TopologyMgr.leaves_removeNode answer mesh.topo (unknown addr List.mem_cons_self)
    · exact .refl _

theorem refreshActors_topo (answer : UpdateAnswer) (mesh : Mesh codec) (addrs : List IpAddr) :
    (mesh.refreshActors answer addrs).topo = mesh.topo := by
  unfold refreshActors
  generalize mesh.asm.answer.order.list (Std.ExtTreeSet.ofList addrs compare) = items
  induction items generalizing mesh with
  | nil => rfl
  | cons addr rest ih =>
    rw [List.foldl_cons, ih, refreshActor]
    split <;> rfl

theorem leaves_settled (answer : UpdateAnswer) (mesh : Mesh codec) :
    TopologyMgr.Leaves (Std.ExtTreeSet.ofList (mesh.settled answer).1 compare) mesh.topo
      (mesh.settled answer).2.topo := by
  unfold settled settleNodes
  dsimp only
  rw [List.partition_eq_filter_filter]
  refine refreshActors_topo answer mesh _ ▸ leaves_foldl_disconnect answer.topo ?_ _
  intro addr leaves stays
  have stays := List.mem_filter.mp (Std.ExtTreeSet.mem_ofList.mp stays |> List.contains_iff_mem.mp)
  simp [stays.2] at leaves

theorem prepare_asm (answer : UpdateAnswer) (mesh : Mesh codec)
    (reads : mesh.asm.answer.fails = false) :
    (mesh.prepare answer).2.asm = (mesh.settled answer).2.asm ∧
      (mesh.prepare answer).2.policy = (mesh.settled answer).2.policy := by
  simp only [prepare, reads, Bool.false_eq_true, if_false]
  rw [← settled, revalidateTopology]
  split
  · exact ⟨rfl, rfl⟩
  · split <;> exact ⟨rfl, rfl⟩

theorem settles_prepare (answer : UpdateAnswer) (mesh : Mesh codec)
    (reads : mesh.asm.answer.fails = false) : Settles mesh (mesh.prepare answer).2 := by
  obtain ⟨sameAsm, samePolicy⟩ := mesh.prepare_asm answer reads
  have settles : Settles mesh (mesh.settled answer).2 := settles_settleNodes answer mesh _
  exact ⟨samePolicy.trans settles.policy, sameAsm ▸ settles.answer, sameAsm ▸ settles.obligations,
    sameAsm ▸ settles.visas⟩

/-- What comes before the obligation goes through exactly if the links of the policy are
apart. -/
theorem prepare_isOk (answer : UpdateAnswer) (mesh : Mesh codec)
    (reads : mesh.asm.answer.fails = false) (fine : answer.topo.Fine) (sound : mesh.topo.Sound) :
    (mesh.prepare answer).1 = .ok () ↔ mesh.LinksApart answer := by
  have leaves := mesh.leaves_settled answer
  have settles : Settles mesh (mesh.settled answer).2 := settles_settleNodes answer mesh _
  have passes := TopologyMgr.revalidateAgainstPolicy_isOk fine (leaves.sound sound)
    (mesh.settled answer).2.policy.links (mesh.settled answer).2.asm.visas.now
    (mesh.settled answer).1
  rw [leaves.idsApart_iff sound, settles.policy, settles.visas.now] at passes
  simp only [prepare, reads, Bool.false_eq_true, if_false]
  rw [← settled, revalidateTopology, settles.policy, settles.visas.now, LinksApart]
  split
  next none =>
    -- with no node left no edge is described
    refine iff_of_true rfl fun edge _ _ _ desc _ described => ?_
    have hasA := (TopologyMgr.known_of_description described).1
    simp [List.isEmpty_iff.mp none] at hasA
  next =>
    rw [← passes]
    split
    next failed => simp [failed]
    next report passed => simp [passed]

end Mesh

/-! ### Enforcement -/

def FlowEnv.denies (env : FlowEnv) (metadata : VisaMetadata) : Bool :=
  match env.evaluate metadata.packetDesc with
  | .ok (.deny _) => true
  | _ => false

namespace Mesh

variable {mesh : Mesh codec}

/-- The policy denies the flow of a visa, both ends of which are stored. -/
def Denies (mesh : Mesh codec) (metadata : VisaMetadata) : Prop :=
  metadata.Resolves (fun addr => mesh.asm.actors[addr]?.isSome) ∧
    (mesh.flowEnv metadata.fiveTuple).denies metadata = true
  deriving Decidable

theorem Denies.of_flow {one other : VisaMetadata} (same : one.fiveTuple = other.fiveTuple)
    (denies : mesh.Denies one) : mesh.Denies other := by
  unfold Denies VisaMetadata.Resolves VisaMetadata.endpoints FlowEnv.denies
    VisaMetadata.packetDesc at denies ⊢
  rw [← same]
  exact denies

theorem recheck_of_denies (fine : mesh.asm.answer.Fine) {metadata : VisaMetadata}
    (denies : mesh.Denies metadata) : mesh.recheck metadata = .ok .revoke := by
  obtain ⟨stored, denied⟩ := denies
  have resolved : metadata.Resolves mesh.resolves := by
    intro addr ends
    obtain ⟨actor, found⟩ := Option.isSome_iff_exists.mp (stored addr ends)
    simp [resolves, Assembly.getActorByZprAddr, fine.reads, found]
  rw [recheck, recheckVisaAllowed, if_pos resolved]
  unfold FlowEnv.denies at denied
  split at denied
  next isDenial => rw [isDenial]
  next => cases denied

/-- The obligation of the policy is recorded, and every live visa that the policy denies is a
pending revoke on all its nodes. -/
def Enforced (mesh : Mesh codec) : Prop :=
  mesh.policy.vinst ∈ mesh.asm.obligations ∧
    ∀ (id : Nat) (entry : VisaEntry),
      liveEntry mesh.asm.visas.now mesh.asm.visas.store id = some entry →
      mesh.Denies entry.metadata → entry.Revoked

theorem revalidateVisas_now (mesh : Mesh codec) (reason : SweepReason) :
    (mesh.revalidateVisas reason).asm.visas.now = mesh.asm.visas.now :=
  Repo.foldl_sweepVisa_now _

/-- What a sweep leaves of a live visa that the policy denies. -/
theorem revalidateVisas_denied (fine : mesh.asm.answer.Fine) (encodes : mesh.asm.visas.Encodes)
    (reason : SweepReason) {id : Nat} {entry : VisaEntry}
    (live : liveEntry (mesh.revalidateVisas reason).asm.visas.now
      (mesh.revalidateVisas reason).asm.visas.store id = some entry)
    (denies : mesh.Denies entry.metadata) :
    ∃ before, liveEntry mesh.asm.visas.now mesh.asm.visas.store id = some before ∧
      mesh.Denies before.metadata ∧
      ((reason = .policyUpdate → before.metadata.checkedVinst < mesh.policy.vinst) →
        entry.Revoked) ∧
      (reason = .policyUpdate → mesh.policy.vinst ≤ before.metadata.checkedVinst →
        entry = before) := by
  obtain ⟨found, unexpired⟩ := liveEntry_eq_some.mp live
  obtain ⟨before, isBefore, same⟩ := Repo.foldl_sweepVisa_entry found
  have wasLive : liveEntry mesh.asm.visas.now mesh.asm.visas.store id = some before := by
    rw [revalidateVisas_now, same.deadline] at unexpired
    exact liveEntry_eq_some.mpr ⟨isBefore, unexpired⟩
  have denied : mesh.Denies before.metadata := denies.of_flow same.flow
  exact ⟨before, wasLive, denied, Repo.revalidateVisas_denied fine.redis rfl wasLive
    (encodes id before isBefore) (recheck_of_denies fine denied) found⟩

/-- A visa that the sweep of a policy update passes over is left as it is. -/
theorem liveEntry_of_checked {id : Nat} {entry : VisaEntry}
    (live : liveEntry mesh.asm.visas.now mesh.asm.visas.store id = some entry)
    (checked : mesh.policy.vinst ≤ entry.metadata.checkedVinst) :
    liveEntry (mesh.revalidateVisas .policyUpdate).asm.visas.now
      (mesh.revalidateVisas .policyUpdate).asm.visas.store id = some entry := by
  obtain ⟨mid, -, same, own⟩ := @Repo.foldl_sweepVisa_own codec .policyUpdate mesh.policy.vinst
    mesh.policy.vinst mesh.recheck mesh.asm.answer.redis mesh.asm.visas _ _
    (nodup_listVisaMetadata _ _) (mem_listVisaMetadata.mpr ⟨entry, live, rfl⟩)
  obtain ⟨found, unexpired⟩ := liveEntry_eq_some.mp live
  rw [Repo.sweepVisa, if_pos ⟨rfl, checked⟩, same] at own
  rw [revalidateVisas_now]
  exact liveEntry_eq_some.mpr ⟨own.trans found, unexpired⟩

/-- Once the obligation is recorded, the sweep enforces the policy exactly if the visas that it
passes over are pending revokes already, as far as the policy denies them. -/
theorem enforced_revalidateVisas_iff (fine : mesh.asm.answer.Fine)
    (encodes : mesh.asm.visas.Encodes) (obliged : mesh.policy.vinst ∈ mesh.asm.obligations) :
    (mesh.revalidateVisas .policyUpdate).Enforced ↔ ∀ (id : Nat) (entry : VisaEntry),
      liveEntry mesh.asm.visas.now mesh.asm.visas.store id = some entry →
      mesh.Denies entry.metadata →
      entry.metadata.checkedVinst < mesh.policy.vinst ∨ entry.Revoked := by
  constructor
  · rintro ⟨-, enforced⟩ id entry live denies
    rcases Nat.lt_or_ge entry.metadata.checkedVinst mesh.policy.vinst with older | checked
    · exact .inl older
    · exact .inr (enforced id entry (liveEntry_of_checked live checked) denies)
  · intro settled
    refine ⟨obliged, fun id entry live denies => ?_⟩
    -- the evaluation of a flow does not read the visas
    have denied : mesh.Denies entry.metadata := denies
    obtain ⟨before, wasLive, wasDenied, revokes, keeps⟩ :=
      revalidateVisas_denied fine encodes .policyUpdate live denied
    rcases Nat.lt_or_ge before.metadata.checkedVinst mesh.policy.vinst with older | checked
    · exact revokes fun _ => older
    · rw [keeps rfl checked]
      exact (settled id before wasLive wasDenied).resolve_left (Nat.not_lt.mpr checked)

theorem handlePolicyUpdated_of_prepared (answer : UpdateAnswer) (mesh : Mesh codec)
    (reads : mesh.asm.answer.fails = false) (revalidated : (mesh.prepare answer).1 = .ok ()) :
    ∃ obliged : Mesh codec, obliged.policy.vinst ∈ obliged.asm.obligations ∧
      obliged.policy = (mesh.prepare answer).2.policy ∧
      obliged.asm.answer = (mesh.prepare answer).2.asm.answer ∧
      obliged.asm.visas = (mesh.prepare answer).2.asm.visas ∧
      (mesh.handlePolicyUpdated answer).2 = obliged.revalidateVisas .policyUpdate := by
  have settles := mesh.settles_prepare answer reads
  unfold handlePolicyUpdated
  generalize mesh.prepare answer = prepared at revalidated settles ⊢
  obtain ⟨result, prepared⟩ := prepared
  cases revalidated
  have reads : prepared.asm.answer.fails = false := settles.answer ▸ reads
  simp only [addObligation, reads, Bool.false_eq_true, if_false]
  refine ⟨_, ?_, ?_, ?_, ?_, rfl⟩
  · exact Std.ExtTreeMap.mem_insert_self
  all_goals rfl

theorem handlePolicyUpdated_of_refused (answer : UpdateAnswer) (mesh : Mesh codec)
    (refused : (mesh.prepare answer).1 ≠ .ok ()) :
    (mesh.handlePolicyUpdated answer).2 = (mesh.prepare answer).2 := by
  unfold handlePolicyUpdated
  split
  next failed => rw [failed]
  next passed => exact absurd (congrArg Prod.fst passed) refused

/-- What it takes to enforce a policy. The links have to be apart, unless the policy was handled
before. A visa that the policy denies must not have been checked under it, or must be a pending
revoke already; the visas are those that the disconnected nodes leave. -/
def Enforceable (answer : UpdateAnswer) (mesh : Mesh codec) : Prop :=
  (mesh.LinksApart answer ∨ mesh.policy.vinst ∈ mesh.asm.obligations) ∧
    ∀ (id : Nat) (entry : VisaEntry),
      liveEntry mesh.asm.visas.now (mesh.settled answer).2.asm.visas.store id = some entry →
      (mesh.handlePolicyUpdated answer).2.Denies entry.metadata →
      (mesh.LinksApart answer ∧ entry.metadata.checkedVinst < mesh.policy.vinst) ∨ entry.Revoked

/-- After a change of trusted data every live visa that policy denies, on the attributes that the
refresh has left, is a pending revoke on all its nodes. What it was checked under does not
matter. -/
theorem trusted_change_enforced (answer : UpdateAnswer) (mesh : Mesh codec)
    (fine : mesh.asm.answer.Fine) (encodes : mesh.asm.visas.Encodes) {id : Nat} {entry : VisaEntry}
    (live : liveEntry (mesh.handleTrustedServiceChange answer).asm.visas.now
      (mesh.handleTrustedServiceChange answer).asm.visas.store id = some entry)
    (denies : (mesh.handleTrustedServiceChange answer).Denies entry.metadata) :
    ∀ (node : IpAddr) (ns : NodeState), entry.nodeStates[node]? = some ns →
      ns.state = .pendingRevoke := by
  have settles : Settles mesh (mesh.refreshActors answer mesh.liveVisaActorAddrs) :=
    settles_foldl (settles_refreshActor answer) _ mesh
  obtain ⟨before, -, -, revokes, -⟩ := revalidateVisas_denied (settles.answer ▸ fine)
    (settles.visas.encodes encodes) .attributeChange live denies
  exact revokes (by simp)

end Mesh

/-! ### Two links of one name -/

namespace UpdateSample

open BindingSample

def annexAddr : IpAddr := .v6 0xfd5a505290de00010000000000000012

def nodeActor (addr : IpAddr) : Actor :=
  { stampAttribute .new 0 Key.role roleNode with zprAddr := some addr }

def lineEvents : List RouterEvent :=
  [.addNode gatewayAddr, .addNode relayAddr, .addNode annexAddr,
    .addLink gatewayAddr relayAddr "west" [] 1, .addLink relayAddr annexAddr "east" [] 1].map
      (⟨.ascending, ·⟩)

def line : Routing := (run Routing.step .init lineEvents).getD .init

/-- A flow from the laptop to the printer, allowed under the first policy. -/
def entry : VisaEntry where
  visa := Sample.visa
  metadata := { Sample.metadata with
    createdVinst := 1, checkedVinst := 1, path := some [gatewayAddr, relayAddr, annexAddr]
    fiveTuple := ⟨laptopAddr, printerAddr, 6, 40000, 631⟩ }
  deadline := 3600 * nanosPerSec
  nodeStates := (∅ : NodeStates).insert gatewayAddr ⟨.installed, none⟩

/-- The second policy admits the three nodes and allows no flow. -/
def policy (west east : LinkId) : PolicySnapshot where
  policy := ⟨2, some 2, [⟨[⟨Key.role, .eq, [roleNode]⟩], [.isNode], none⟩], []⟩
  links := .ofPeerings [⟨west, gatewayAddr, relayAddr, []⟩, ⟨east, relayAddr, annexAddr, []⟩]
  view := { permissive with matchPolicies := fun _ _ _ _ => .ok [], vinst := 2 }
  sameVinst := rfl

/-- The laptop docks at the gateway and the printer at the annex. -/
def mesh (west east : LinkId) : Mesh VisaCodec.plain where
  asm := { SweepSample.idle with
    actors := (((((∅ : HashMap IpAddr Actor).insert gatewayAddr (nodeActor gatewayAddr)).insert
      relayAddr (nodeActor relayAddr)).insert annexAddr (nodeActor annexAddr)).insert
      laptopAddr (adapter laptopAddr)).insert printerAddr (adapter printerAddr)
    connectionTable := ((∅ : HashMap IpAddr IpAddr).insert laptopAddr gatewayAddr).insert
      printerAddr annexAddr
    connections := ((∅ : Rows IpAddr IpAddr).add gatewayAddr laptopAddr).add annexAddr printerAddr
    visas := { SweepSample.idle.visas with store := insertEntry .empty 1 entry } }
  nodes := (((∅ : HashSet IpAddr).insert gatewayAddr).insert relayAddr).insert annexAddr
  topo := ⟨line.router, ((∅ : HashSet Edge).insert (.canonical gatewayAddr relayAddr)).insert
    (.canonical relayAddr annexAddr)⟩
  aaa := noAaa
  policy := policy west east

def quiet : UpdateAnswer where
  topo := ⟨false, fun _ => .done, .ascending, .ascending⟩
  refresh _ _ trusted := (none, trusted)
  reauthDeadline := none

theorem fine (west east : LinkId) : (mesh west east).asm.answer.Fine :=
  ⟨rfl, fun _ => rfl, rfl, rfl, rfl, fun _ => rfl⟩

theorem topoFine : quiet.topo.Fine := ⟨rfl, fun _ => rfl⟩

theorem sound (west east : LinkId) : (mesh west east).topo.Sound := by
  have links : ∀ item ∈ line.router.topology.edges.toList,
      ∀ other ∈ line.router.topology.edges.toList, item.2.edge = other.2.edge →
        item.1 = other.1 := by decide +kernel
  have stored : ∀ edge ∈ (mesh "west" "east").topo.edges.toList, edge.a ≠ edge.b := by
    decide +kernel
  have ran : run Routing.step .init lineEvents = some line := by
    have runs : (run Routing.step .init lineEvents).isSome := by decide +kernel
    obtain ⟨state, ran⟩ := Option.isSome_iff_exists.mp runs
    rw [line, ran, Option.getD_some]
  refine ⟨?_, fun id other link second found isSecond same => ?_, fun edge member => ?_⟩
  · exact (settled_of_reachable ran).wf
  · exact links (id, link) (Std.ExtTreeMap.mem_toList_iff_getElem?_eq_some.mpr found)
      (other, second) (Std.ExtTreeMap.mem_toList_iff_getElem?_eq_some.mpr isSecond) same
  · exact stored edge (Std.ExtTreeSet.mem_toList.mpr member)

theorem encodes (repo : Repo VisaCodec.plain) : repo.Encodes :=
  fun _ entry _ => ⟨entry.visa, rfl⟩

def visaState (mesh : Mesh VisaCodec.plain) : Option NodeVisaState :=
  mesh.asm.visas.store.visas[1]?.bind fun entry =>
    entry.nodeStates[gatewayAddr]?.map NodeState.state

end UpdateSample

open UpdateSample in
example : visaState ((mesh "wire" "wire").handlePolicyUpdated quiet).2 = some .installed := by
  decide +kernel

def UpdateSample.swept : Mesh VisaCodec.plain :=
  (mesh "west" "east").handleTrustedServiceChange quiet

open UpdateSample in
theorem visa_revoked_by_trusted_change : ∃ entry : VisaEntry,
    liveEntry swept.asm.visas.now swept.asm.visas.store 1 = some entry ∧
      ∀ (node : IpAddr) (ns : NodeState), entry.nodeStates[node]? = some ns →
        ns.state = .pendingRevoke := by
  have denied : (liveEntry swept.asm.visas.now swept.asm.visas.store 1).any
      (fun entry => swept.Denies entry.metadata) = true := by decide +kernel
  obtain ⟨entry, live, denied⟩ := (Option.any_eq_true _ _).mp denied
  exact ⟨entry, live, Mesh.trusted_change_enforced quiet (mesh "west" "east") (fine _ _)
    (encodes _) live (of_decide_eq_true denied)⟩

end VisaService
