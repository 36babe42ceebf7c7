import VisaService.Visa.Reconciler

/-!
# What a completed sweep covers

The invariant follows the sweep through its list: every live visa between connected
actors has been checked under the live policy, or is being revoked on every node it lists,
or is still on the list. The one way a visa escapes is to be stored behind the sweep's back.
-/
namespace VisaService

open Lib

variable {codec : VisaCodec} {resolves : IpAddr → Bool} {vinst : Nat}

/-! ### Visas that the policy of a generation has dealt with -/

/-- The visa was checked under `vinst` or a newer policy, or is being revoked everywhere. -/
def VisaEntry.SettledAt (vinst : Nat) (entry : VisaEntry) : Prop :=
  vinst ≤ entry.metadata.checkedVinst ∨
    ∀ (node : IpAddr) (ns : NodeState), entry.nodeStates[node]? = some ns →
      ns.state = .pendingRevoke

/-- Every live visa between connected actors is settled, except those in `pending`. -/
def Repo.SettledBut (resolves : IpAddr → Bool) (vinst : Nat) (repo : Repo codec)
    (pending : List Nat) : Prop :=
  ∀ (id : Nat) (entry : VisaEntry), liveEntry repo.now repo.store id = some entry →
    entry.metadata.Resolves resolves → entry.SettledAt vinst ∨ id ∈ pending

/-- Operations that unsettle nothing: no visa decided under an older policy is stored, no
allow of an older policy cancels a revoke, and no node is taken out of `pendingRevoke`. -/
def RepoOp.Respects (vinst : Nat) : RepoOp → Prop
  | .storeVisa _ metadata _ => vinst ≤ metadata.checkedVinst
  | .recordAllowVerdict _ allowed => vinst ≤ allowed
  | .transitionNodeVisaState _ _ expected _ => expected ≠ .pendingRevoke
  | _ => True

def RepoEvent.Respects (vinst : Nat) : RepoEvent → Prop
  | .call op _ => op.Respects vinst
  | _ => True

theorem VisaEntry.SettledAt.erase {entry : VisaEntry} (settled : entry.SettledAt vinst)
    (node : IpAddr) :
    VisaEntry.SettledAt vinst { entry with nodeStates := entry.nodeStates.erase node } := by
  rcases settled with checked | revoking
  · exact .inl checked
  · right
    exact fun other ns found => revoking other ns (HashMap.of_get_erase found).2

variable {op : RepoOp} {nodeStates : NodeStates} {event : RepoEvent} {state next : Reconciler codec}
variable {position visaId : Nat}

theorem VisaEntry.SettledAt.rewritten {target : Rewrite} {entry : VisaEntry}
    {metadata : Option VisaMetadata} (settled : entry.SettledAt vinst)
    (rewrites : op.rewrite = some target)
    (changed : target.change entry = some (metadata, nodeStates)) (respects : op.Respects vinst) :
    VisaEntry.SettledAt vinst
      { entry with metadata := metadata.getD entry.metadata, nodeStates } := by
  cases RepoOp.rewrite_cases rewrites changed with
  | allowed => exact .inl respects
  | revoked op revoke revokes =>
    right
    intro node ns found
    simp only [Std.ExtTreeMap.getElem?_map, Option.map_eq_some_iff] at found
    obtain ⟨old, -, rfl⟩ := found
    exact revokes old
  | transitioned node visaId expected new ns listed expects =>
    rcases settled with checked | revoking
    · exact .inl checked
    · -- the swap expects a state that no node of a revoked visa is in
      exact absurd (expects.symm.trans (revoking node ns listed)) respects
  | dropped node => exact settled.erase node

theorem Repo.SettledBut.step {repo next : Repo codec} {pending : List Nat}
    (settled : repo.SettledBut resolves vinst pending) (respects : event.Respects vinst)
    (stepped : repo.step event = some next) : next.SettledBut resolves vinst pending := by
  have forward := Repo.step_now stepped
  intro id entry live resolved
  obtain ⟨found, alive⟩ := liveEntry_eq_some.mp live
  have change := repo.step_entry stepped id
  rw [found] at change
  generalize before : repo.store.visas[id]? = old at change
  -- the entry was live before, since its deadline is the same and time only advances
  have wasLive {entry' : VisaEntry} (same : entry'.deadline = entry.deadline)
      (was : repo.store.visas[id]? = some entry') :
      liveEntry repo.now repo.store id = some entry' :=
    liveEntry_eq_some.mpr ⟨was, by omega⟩
  cases change with
  | same => exact settled id entry (wasLive rfl before) resolved
  | stored visa metadata nstate => exact .inl (.inl respects)
  | cleared node outcome entry listed =>
    exact (settled id entry (wasLive rfl before) resolved).imp_left fun was => was.erase node
  | rewritten op target entry metadata nodeStates rewrites own isLive changed =>
    have sameEnds := (RepoOp.rewrite_domain rewrites changed).2.1
    have resolvedBefore : entry.metadata.Resolves resolves := by
      intro actor member
      exact resolved actor (sameEnds ▸ member)
    exact (settled id entry isLive resolvedBefore).imp_left
      fun was => was.rewritten rewrites changed respects

theorem Repo.SettledBut.discharge {repo : Repo codec} {done : Nat} {rest : List Nat}
    (settled : repo.SettledBut resolves vinst (done :: rest))
    (dealt : ∀ entry, liveEntry repo.now repo.store done = some entry →
      entry.metadata.Resolves resolves → entry.SettledAt vinst) :
    repo.SettledBut resolves vinst rest := by
  intro id entry live resolved
  rcases settled id entry live resolved with already | member
  · exact .inl already
  · rcases List.mem_cons.mp member with rfl | later
    · exact .inl (dealt entry live resolved)
    · exact .inr later

/-! ### A recorded verdict settles its visa -/

/-- The change of the entry that a verdict asks for. -/
def SweepVerdict.change (vinst : Nat) :
    SweepVerdict → VisaEntry → Option (Option VisaMetadata × NodeStates)
  | .allow => allowChange vinst
  | .deny => denyChange vinst

theorem SweepVerdict.op_rewrite (verdict : SweepVerdict) (visaId vinst : Nat) :
    (verdict.op visaId vinst).rewrite = some ⟨visaId, verdict.change vinst, none⟩ := by
  cases verdict <;> rfl

/-- A verdict changes the entry unless it was checked under this policy already, and the
changed entry is settled. -/
theorem SweepVerdict.change_settles (verdict : SweepVerdict) (vinst : Nat) (entry : VisaEntry) :
    (verdict.change vinst entry = none ∧ vinst ≤ entry.metadata.checkedVinst) ∨
      ∃ metadata nodeStates, verdict.change vinst entry = some (metadata, nodeStates) ∧
        VisaEntry.SettledAt vinst
          { entry with metadata := metadata.getD entry.metadata, nodeStates } := by
  by_cases checked : vinst ≤ entry.metadata.checkedVinst
  · left
    cases verdict <;> exact ⟨if_pos checked, checked⟩
  right
  cases verdict with
  | allow => exact ⟨_, _, if_neg checked, .inl (Nat.le_refl _)⟩
  | deny =>
    refine ⟨_, _, if_neg checked, .inr fun node ns found => ?_⟩
    simp only [Std.ExtTreeMap.getElem?_map, Option.map_eq_some_iff] at found
    obtain ⟨old, -, rfl⟩ := found
    rfl

/-- Every visa in memory was encoded when it was stored. -/
def Repo.Encodes (repo : Repo codec) : Prop :=
  ∀ (id : Nat) (entry : VisaEntry), repo.store.visas[id]? = some entry →
    ∃ blob, codec.encode entry.visa = .ok blob

theorem Repo.Encodes.step {repo next : Repo codec} (encodes : repo.Encodes)
    (stepped : repo.step event = some next) : next.Encodes := by
  intro id entry found
  have change := repo.step_entry stepped id
  rw [found] at change
  generalize before : repo.store.visas[id]? = old at change
  cases change with
  | same | cleared node outcome entry listed => exact encodes id entry before
  | stored visa metadata nstate _ own handed unexpired encoded => exact encoded
  | rewritten op target entry metadata nodeStates rewrites own live changed encoded =>
    exact encoded

theorem verdict_settles {repo : Repo codec} (encodes : repo.Encodes) (verdict : SweepVerdict)
    (visaId : Nat) {entry : VisaEntry}
    (live : liveEntry repo.now (repo.call (verdict.op visaId vinst) .applied).1.store visaId =
      some entry) : entry.SettledAt vinst := by
  have rewrites := verdict.op_rewrite visaId vinst
  -- a call that decides against a write leaves the store alone
  have untouched (done : (verdict.op visaId vinst).decide codec repo.now repo.store =
        .done (.ok false)) :
      liveEntry repo.now repo.store visaId = some entry := by
    simpa [Repo.call, done] using live
  cases before : liveEntry repo.now repo.store visaId with
  | none =>
    have kept := untouched
      (by rw [RepoOp.decide_of_rewrite rewrites]; simp [rewriteEntry, before])
    simp [before] at kept
  | some old =>
    rcases verdict.change_settles vinst old with
      ⟨unchanged, checked⟩ | ⟨metadata, nodeStates, changed, settled⟩
    · have kept := untouched
        (by rw [RepoOp.decide_of_rewrite rewrites]; simp [rewriteEntry, before, unchanged])
      cases before.symm.trans kept
      exact .inl checked
    · obtain ⟨blob, encoded⟩ := encodes visaId old (liveEntry_eq_some.mp before).1
      have written := (Repo.call_rewrite_applied _ rewrites before changed encoded).2
      cases written.symm.trans (liveEntry_eq_some.mp live).1
      exact settled

/-! ### The invariant of the sweep -/

namespace SweepPhase

def target : SweepPhase → Option Nat
  | .idle => none
  | .preparing target | .checking target _ | .judged target .. | .recording target .. =>
    some target

/-- The generation whose sweep has listed the visas. -/
def listing : SweepPhase → Option Nat
  | .idle | .preparing _ => none
  | .checking target _ | .judged target .. | .recording target .. => some target

def rest : SweepPhase → List (Nat × VisaMetadata)
  | .idle | .preparing _ => []
  | .checking _ rest | .judged _ _ _ rest | .recording _ _ _ rest => rest

/-- The listed visas that the sweep has not dealt with. -/
def pending : SweepPhase → List Nat
  | .idle | .preparing _ => []
  | .checking _ rest => rest.map Prod.fst
  | .judged _ visaId _ rest | .recording _ visaId _ rest => visaId :: rest.map Prod.fst

theorem target_of_listing {sweep : SweepPhase} {target : Nat}
    (listed : sweep.listing = some target) : sweep.target = some target := by
  cases sweep <;> first | exact listed | cases listed

end SweepPhase

/-- The entry of a listed visa, as long as there is one, is for the same flow and has not
been checked under an older policy than when it was listed. -/
structure Repo.Listed (repo : Repo codec) (item : Nat × VisaMetadata) : Prop where
  spent : repo.Spent item.1
  agrees : ∀ entry, repo.store.visas[item.1]? = some entry →
    item.2.endpoints = entry.metadata.endpoints ∧
      item.2.checkedVinst ≤ entry.metadata.checkedVinst

theorem Repo.Listed.step {repo next : Repo codec} {item : Nat × VisaMetadata}
    (listed : repo.Listed item) (stepped : repo.step event = some next) : next.Listed item where
  spent := listed.spent.step stepped
  agrees entry found := by
    have change := repo.step_entry stepped item.1
    rw [found] at change
    generalize before : repo.store.visas[item.1]? = old at change
    cases change with
    | same | cleared node outcome entry member => exact listed.agrees entry before
    | stored visa metadata nstate _ own handed => exact absurd handed listed.spent.2
    | rewritten op target entry metadata nodeStates rewrites own live changed =>
      obtain ⟨sameEnds, older⟩ := listed.agrees entry before
      obtain ⟨-, ends, -, checked⟩ := RepoOp.rewrite_domain rewrites changed
      exact ⟨sameEnds.trans ends.symm, older.trans checked⟩

/-- A request stores its visa with the generation it was evaluated under. -/
def RequestPhase.Sound : RequestPhase → Prop
  | .storing draft _ metadata => metadata.checkedVinst = draft.vinst
  | _ => True

def Reconciler.Swept (state : Reconciler codec) : Prop :=
  state.vinst ∈ state.completed ∨ state.sweep.listing = some state.vinst

structure Reconciler.Inv (resolves : IpAddr → Bool) (state : Reconciler codec) : Prop where
  unique : state.repo.IdsUnique
  encodes : state.repo.Encodes
  requests : ∀ request ∈ state.requests, request.phase.Sound
  completed : ∀ done ∈ state.completed, done ≤ state.vinst
  -- the event worker handles one event at a time, so targets only grow
  target : ∀ target, state.sweep.target = some target →
    target ≤ state.vinst ∧ ∀ done ∈ state.completed, done ≤ target
  listed : ∀ item ∈ state.sweep.rest, state.repo.Listed item
  settled : state.vinst ∈ state.completed → state.repo.SettledBut resolves state.vinst []
  sweeping : state.sweep.listing = some state.vinst →
    state.repo.SettledBut resolves state.vinst state.sweep.pending

theorem Reconciler.inv_init (now initialVisaId vinst : Nat) :
    (Reconciler.init codec now initialVisaId vinst).Inv resolves where
  unique := idsUnique_init now initialVisaId
  encodes id entry found := by simp [Reconciler.init, Repo.init, VisaStoreInner.empty] at found
  requests request member := by simp [Reconciler.init] at member
  completed done member := by simp [Reconciler.init] at member
  target target isTarget := by simp [Reconciler.init, SweepPhase.target] at isTarget
  listed item member := by simp [Reconciler.init, SweepPhase.rest] at member
  settled member := by simp [Reconciler.init] at member
  sweeping isListing := by simp [Reconciler.init, SweepPhase.listing] at isListing

variable (inv : state.Inv resolves)
include inv

/-- A store operation keeps the invariant if, once the sweep has listed the visas, it
respects the live policy. -/
theorem Reconciler.Inv.repoStep {next : Repo codec}
    (stepped : state.repo.step event = some next)
    (respects : state.Swept → event.Respects state.vinst) :
    Reconciler.Inv resolves { state with repo := next } where
  unique := inv.unique.step stepped
  encodes := inv.encodes.step stepped
  requests := inv.requests
  completed := inv.completed
  target := inv.target
  listed item member := (inv.listed item member).step stepped
  settled member := (inv.settled member).step (respects (.inl member)) stepped
  sweeping isListing := (inv.sweeping isListing).step (respects (.inr isListing)) stepped

theorem Reconciler.Inv.withRequests {requests : List VisaRequest}
    (sound : ∀ request ∈ requests, request.phase.Sound) :
    Reconciler.Inv resolves { state with requests } :=
  { inv with requests := sound }

/-! ### The steps of requests -/

private theorem inv_setPhase (position : Nat) (request : VisaRequest)
    {phase : RequestPhase} (sound : phase.Sound) :
    (state.setPhase position request phase).Inv resolves := by
  refine inv.withRequests fun other member => ?_
  rcases List.mem_or_eq_of_mem_set member with kept | rfl
  · exact inv.requests other kept
  · exact sound

private theorem inv_finish (position : Nat) :
    (state.finish position).Inv resolves :=
  inv.withRequests fun other member => inv.requests other (List.mem_of_mem_eraseIdx member)

private theorem inv_arrive (job : VisaRequestJob) :
    (state.arrive job).Inv resolves := by
  refine inv.withRequests fun other member => ?_
  rcases List.mem_append.mp member with kept | added
  · exact inv.requests other kept
  · cases List.mem_singleton.mp added
    trivial

private theorem inv_takePolicy
    (stepped : state.takePolicy position = some next) : next.Inv resolves := by
  obtain ⟨request, found, stepped⟩ := Option.bind_eq_some_iff.mp stepped
  split at stepped <;> cases stepped
  exact inv_setPhase inv position request trivial

private theorem inv_evaluate {env : FlowEnv}
    (stepped : state.evaluate position env = some next) :
    next.Inv resolves := by
  obtain ⟨request, found, stepped⟩ := Option.bind_eq_some_iff.mp stepped
  split at stepped
  · split at stepped <;> cases stepped
    · exact inv_setPhase inv position request trivial
    · exact inv_finish inv position
  · cases stepped

private theorem inv_number (stepped : state.number position = some next)
    : next.Inv resolves := by
  obtain ⟨request, found, stepped⟩ := Option.bind_eq_some_iff.mp stepped
  split at stepped <;> cases stepped
  have numbered := inv.repoStep (show state.repo.step .getNextVisaId = some _ from rfl)
    fun _ => trivial
  exact inv_setPhase numbered position request rfl

/-- A request whose visa is stored behind the sweep was evaluated under the live policy. -/
private theorem inv_store {ingressKey egressKey : List UInt8}
    (fresh : state.Swept → ∀ request draft visaId metadata,
      state.requests[position]? = some request →
      request.phase = .storing draft visaId metadata → state.vinst ≤ draft.vinst)
    (stepped : state.store position ingressKey egressKey = some next) : next.Inv resolves := by
  obtain ⟨request, found, stepped⟩ := Option.bind_eq_some_iff.mp stepped
  split at stepped
  next draft visaId metadata phase =>
    obtain ⟨claimed, claims, rfl⟩ := Option.map_eq_some_iff.mp stepped
    have sameVinst : metadata.checkedVinst = draft.vinst := by
      simpa [phase, RequestPhase.Sound] using
        inv.requests request (List.mem_of_getElem? found)
    have storeStep : state.repo.step (.call (.storeVisa (draft.visa visaId ingressKey egressKey)
        metadata .pendingInstall) .applied) = some _ :=
      Option.map_eq_some_iff.mpr ⟨claimed, claims, rfl⟩
    have stored := inv.repoStep storeStep fun swept => by
      have newEnough := fresh swept request draft visaId metadata found phase
      exact newEnough.trans (Nat.le_of_eq sameVinst.symm)
    exact inv_finish stored position
  · cases stepped

/-! ### The steps of the sweep -/

theorem Reconciler.Inv.withSweep {sweep : SweepPhase}
    (sameTarget : sweep.target = state.sweep.target)
    (listed : ∀ item ∈ sweep.rest, state.repo.Listed item)
    (sweeping : sweep.listing = some state.vinst →
      state.repo.SettledBut resolves state.vinst sweep.pending) :
    Reconciler.Inv resolves { state with sweep } :=
  { inv with
    target := fun target isTarget => inv.target target (sameTarget ▸ isTarget)
    listed
    sweeping }

omit inv

theorem mem_listVisaMetadata {now id : Nat} {inner : VisaStoreInner}
    {metadata : VisaMetadata} : (id, metadata) ∈ listVisaMetadata now inner ↔
      ∃ entry, liveEntry now inner id = some entry ∧ entry.metadata = metadata := by
  simp only [listVisaMetadata, List.mem_map, List.mem_filter, Prod.mk.injEq, Prod.exists,
    Std.ExtTreeMap.mem_toList_iff_getElem?_eq_some, liveEntry_eq_some, VisaEntry.isLive_iff]
  constructor
  · rintro ⟨own, entry, ⟨found, live⟩, rfl, rfl⟩
    exact ⟨entry, ⟨found, live⟩, rfl⟩
  · rintro ⟨entry, ⟨found, live⟩, rfl⟩
    exact ⟨id, entry, ⟨found, live⟩, rfl, rfl⟩

variable (inv : state.Inv resolves)
include inv

private theorem inv_listVisas (stepped : state.listVisas = some next) :
    next.Inv resolves := by
  unfold Reconciler.listVisas at stepped
  split at stepped
  next target preparing =>
    cases stepped
    refine inv.withSweep (by rw [preparing]; rfl) ?_ fun _ => ?_
    · rintro ⟨id, metadata⟩ member
      obtain ⟨entry, live, rfl⟩ := mem_listVisaMetadata.mp member
      obtain ⟨found, -⟩ := liveEntry_eq_some.mp live
      refine ⟨inv.unique.stored id entry found, fun other foundOther => ?_⟩
      cases found.symm.trans foundOther
      exact ⟨rfl, Nat.le_refl _⟩
    · intro id entry live resolved
      right
      exact List.mem_map.mpr ⟨(id, entry.metadata), mem_listVisaMetadata.mpr ⟨entry, live, rfl⟩, rfl⟩
  · cases stepped

private theorem inv_skip {target : Nat} {metadata : VisaMetadata}
    {rest : List (Nat × VisaMetadata)}
    (checking : state.sweep = .checking target ((visaId, metadata) :: rest))
    (dealt : target = state.vinst → metadata.Resolves resolves →
      target ≤ metadata.checkedVinst) :
    Reconciler.Inv resolves { state with sweep := .checking target rest } := by
  have listed := inv.listed
  have sweeping := inv.sweeping
  rw [checking] at listed sweeping
  refine inv.withSweep (by rw [checking]; rfl) (fun item member => listed item ?_) ?_
  · exact List.mem_cons_of_mem _ member
  · intro current
    cases Option.some.inj current
    refine (sweeping rfl).discharge fun entry live resolved => ?_
    obtain ⟨sameEnds, older⟩ :=
      (listed (visaId, metadata) List.mem_cons_self).agrees entry (liveEntry_eq_some.mp live).1
    have resolvedWhenListed : metadata.Resolves resolves := fun actor member =>
      resolved actor (sameEnds ▸ member)
    exact .inl ((dealt rfl resolvedWhenListed).trans older)

private theorem inv_judge {target : Nat} {metadata : VisaMetadata}
    {rest : List (Nat × VisaMetadata)}
    (checking : state.sweep = .checking target ((visaId, metadata) :: rest))
    (verdict : SweepVerdict) :
    Reconciler.Inv resolves { state with sweep := .judged target visaId verdict rest } := by
  have listed := inv.listed
  have sweeping := inv.sweeping
  rw [checking] at listed sweeping
  exact inv.withSweep (by rw [checking]; rfl)
    (fun item member => listed item (List.mem_cons_of_mem _ member)) sweeping

private theorem inv_check {env : FlowEnv}
    (answers : ∀ visaId metadata rest,
      state.sweep = .checking state.vinst ((visaId, metadata) :: rest) →
      metadata.Resolves resolves → metadata.checkedVinst < state.vinst → env.Answers metadata)
    (stepped : state.check resolves env = some next) : next.Inv resolves := by
  unfold Reconciler.check at stepped
  split at stepped
  next target checking =>
    -- the list is worked off, so nothing is pending any more
    cases stepped
    have sweeping := inv.sweeping
    have bounds := inv.target target (by rw [checking]; rfl)
    rw [checking] at sweeping
    refine { inv with completed := ?_, target := ?_, listed := ?_, settled := ?_, sweeping := ?_ }
    · rintro done member
      rcases List.mem_cons.mp member with rfl | earlier
      · exact bounds.1
      · exact inv.completed done earlier
    · intro other isTarget
      cases isTarget
    · intro item member
      cases member
    · intro member
      rcases List.mem_cons.mp member with current | earlier
      · exact sweeping (congrArg some current.symm)
      · exact inv.settled earlier
    · intro isListing
      cases isListing
  next target visaId metadata rest checking =>
    split at stepped
    next checked =>
      cases stepped
      exact inv_skip inv checking fun _ _ => checked
    next unchecked =>
      split at stepped
      next skipped =>
        cases stepped
        refine inv_skip inv checking fun _ resolved => ?_
        rw [recheckVisaAllowed, if_pos resolved] at skipped
        repeat' split at skipped
        all_goals cases skipped
      · cases stepped
        exact inv_judge inv checking .allow
      · cases stepped
        exact inv_judge inv checking .deny
      next failure failed =>
        cases stepped
        refine inv_skip inv checking fun current resolved => ?_
        subst current
        have verdict := recheck_of_answers resolved
          (answers visaId metadata rest checking resolved (Nat.lt_of_not_le unchecked))
        simp [failed] at verdict
  · cases stepped

private theorem inv_compare (stepped : state.compare = some next) :
    next.Inv resolves := by
  unfold Reconciler.compare at stepped
  split at stepped
  next target visaId verdict rest judged =>
    have listed := inv.listed
    have sweeping := inv.sweeping
    rw [judged] at listed sweeping
    split at stepped
    next stale =>
      cases stepped
      exact inv.withSweep (by rw [judged]; rfl) listed fun current =>
        absurd (Option.some.inj current).symm stale
    · cases stepped
      exact inv.withSweep (by rw [judged]; rfl) listed sweeping
  · cases stepped

private theorem inv_record (stepped : state.record = some next) :
    next.Inv resolves := by
  unfold Reconciler.record at stepped
  split at stepped
  next target visaId verdict rest recording =>
    cases stepped
    have bounds := inv.target target (by rw [recording]; rfl)
    have notNew : (verdict.op visaId target).newId = none := by cases verdict <;> rfl
    have recorded := inv.repoStep (Repo.step_call _ notNew .applied) fun swept => by
      -- sweeps run one after the other, so no older target is left to be recorded
      have newest : state.vinst ≤ target := by
        rcases swept with done | isListing
        · exact bounds.2 _ done
        · rw [recording] at isListing
          exact Nat.le_of_eq (Option.some.inj isListing).symm
      cases verdict with
      | allow => exact newest
      | deny => trivial
    have listed := recorded.listed
    have sweeping := recorded.sweeping
    simp only [recording] at listed sweeping
    refine recorded.withSweep (by simp only [recording]; rfl) listed fun current => ?_
    refine (sweeping current).discharge fun entry live _ => ?_
    have same : target = state.vinst := Option.some.inj current
    subst same
    refine verdict_settles inv.encodes verdict visaId ?_
    rw [← (Repo.call_counters state.repo (verdict.op visaId state.vinst) .applied).2.2]
    exact live
  · cases stepped

omit inv

/-! ### Whole runs -/

/-- No visa that was decided under an older policy is stored once the sweep for the live
policy has listed the visas, and evaluation answers when that sweep asks about a visa
between connected actors. -/
def ReconcilerEvent.Orderly (resolves : IpAddr → Bool) (state : Reconciler codec) :
    ReconcilerEvent → Prop
  | .store position _ _ => state.Swept → ∀ request draft visaId metadata,
      state.requests[position]? = some request →
      request.phase = .storing draft visaId metadata → state.vinst ≤ draft.vinst
  | .check env => ∀ visaId metadata rest,
      state.sweep = .checking state.vinst ((visaId, metadata) :: rest) →
      metadata.Resolves resolves → metadata.checkedVinst < state.vinst → env.Answers metadata
  | _ => True

theorem RepoOp.Background.respects (background : op.Background) (vinst : Nat) :
    op.Respects vinst := by
  cases op with
  | transitionNodeVisaState node visaId expected new =>
    obtain ⟨rfl, -⟩ := background
    exact NodeVisaState.noConfusion
  | storeVisa | recordAllowVerdict => exact background.elim
  | _ => trivial

theorem Reconciler.Inv.step {event : ReconcilerEvent} (inv : state.Inv resolves)
    (orderly : event.Orderly resolves state) (stepped : state.step resolves event = some next) :
    next.Inv resolves := by
  cases event with
  | tick nanos =>
    cases stepped
    exact inv.repoStep (show state.repo.step (.tick nanos) = some _ from rfl) fun _ => trivial
  | purgeExpired =>
    cases stepped
    exact inv.repoStep (show state.repo.step .purgeExpired = some _ from rfl) fun _ => trivial
  | background op =>
    simp only [Reconciler.step] at stepped
    split at stepped
    next background =>
      cases stepped
      have notNew : op.newId = none := by
        cases op <;> first | rfl | exact background.elim
      exact inv.repoStep (Repo.step_call op notNew .applied) fun _ => background.respects _
    · cases stepped
  | arrive job =>
    cases stepped
    exact inv_arrive inv job
  | takePolicy position => exact inv_takePolicy inv stepped
  | evaluate position env => exact inv_evaluate inv stepped
  | number position => exact inv_number inv stepped
  | store position ingressKey egressKey => exact inv_store inv orderly stepped
  | installPolicy =>
    cases stepped
    -- nothing was swept for the new generation
    refine { inv with completed := ?_, target := ?_, settled := ?_, sweeping := ?_ }
    · exact fun done member => Nat.le_succ_of_le (inv.completed done member)
    · exact fun target isTarget =>
        ⟨Nat.le_succ_of_le (inv.target target isTarget).1, (inv.target target isTarget).2⟩
    · exact fun member => absurd (inv.completed _ member) (Nat.not_succ_le_self _)
    · exact fun isListing => absurd
        (inv.target _ (SweepPhase.target_of_listing isListing)).1 (Nat.not_succ_le_self _)
  | policyUpdated =>
    simp only [Reconciler.step] at stepped
    split at stepped <;> cases stepped
    refine { inv with target := ?_, listed := ?_, sweeping := ?_ }
    · intro target isTarget
      cases isTarget
      exact ⟨Nat.le_refl _, inv.completed⟩
    · intro item member
      cases member
    · intro isListing
      cases isListing
  | giveUp =>
    simp only [Reconciler.step] at stepped
    split at stepped <;> cases stepped
    refine { inv with target := ?_, listed := ?_, sweeping := ?_ }
    · intro target isTarget
      cases isTarget
    · intro item member
      cases member
    · intro isListing
      cases isListing
  | listVisas => exact inv_listVisas inv stepped
  | check env => exact inv_check inv orderly stepped
  | compare => exact inv_compare inv stepped
  | record => exact inv_record inv stepped

/-- The sweep for the live policy is complete and every request that was in flight when
the policy was installed has finished. -/
def Reconciler.Quiesced (state : Reconciler codec) : Prop :=
  state.vinst ∈ state.completed ∧ ∀ request ∈ state.requests, state.vinst ≤ request.arrived

/-- In a run whose steps are all orderly, once the sweep for the live policy is complete and
the older requests have finished, every live visa between connected actors has been checked
under that policy or is being revoked on every node it lists. -/
theorem visas_settled_of_orderly {now initialVisaId vinst : Nat}
    {events : List ReconcilerEvent} {state : Reconciler codec}
    (orderly : Meets (Reconciler.step resolves) (fun state event => event.Orderly resolves state)
      (Reconciler.init codec now initialVisaId vinst) events)
    (ran : run (Reconciler.step resolves) (Reconciler.init codec now initialVisaId vinst) events =
      some state)
    (quiesced : state.Quiesced) {id : Nat} {entry : VisaEntry}
    (live : liveEntry state.repo.now state.repo.store id = some entry)
    (resolved : entry.metadata.Resolves resolves) : entry.SettledAt state.vinst := by
  have inv : state.Inv resolves := run_preserves_of_meets
    (fun _ _ _ holds meets stepped => holds.step meets stepped)
    (Reconciler.inv_init now initialVisaId vinst) orderly ran
  rcases inv.settled quiesced.1 id entry live resolved with settled | pending
  · exact settled
  · cases pending

namespace SweepTrace

open Sample

def job : VisaRequestJob := ⟨node, ⟨metadata.fiveTuple, .biDirectional⟩⟩

/-- Policy allows the flow between the two adapters of one node. -/
def env : FlowEnv where
  evaluate _ := .ok (.allow ⟨0, .forward, none, none⟩ [] (some (.newDirect node)) node node)
  dockingNodeForAddr _ := some node
  routeToPath _ _ := .ok [node]
  expiration _ := .ok (3600 * nanosPerSec)
  policyVersion := some 1
  cpolSource _ := none

/-- A request from its policy snapshot to the stored visa. -/
def issue : List ReconcilerEvent := [.evaluate 0 env, .number 0, .store 0 [] []]

def sweep : List ReconcilerEvent := [.policyUpdated, .listVisas]

/-- The request has read policy 1 when policy 2 is installed and swept, and stores its visa
after the sweep. -/
def storedBehind : List ReconcilerEvent :=
  [.arrive job, .takePolicy 0, .installPolicy] ++ sweep ++ [.check env] ++ issue

/-- The visa is stored before the sweep for policy 2, which allows it again. -/
def storedBefore : List ReconcilerEvent :=
  [.arrive job, .takePolicy 0, .installPolicy] ++ issue ++ sweep ++
    [.check env, .compare, .record, .check env]

def start : Reconciler .plain := Reconciler.init .plain 0 0 1

def after (events : List ReconcilerEvent) : Reconciler .plain :=
  (run (Reconciler.step fun _ => true) start events).getD start

theorem run_after {events : List ReconcilerEvent}
    (enabled : (run (Reconciler.step fun _ => true) start events).isSome = true) :
    run (Reconciler.step fun _ => true) start events = some (after events) :=
  run_eq_some_getD enabled start

end SweepTrace

open SweepTrace in
/-- A visa decided under policy 1 and stored after the sweep for policy 2 stays to be
installed without having been checked under policy 2. -/
theorem visa_unsettled_after_late_store :
    ¬ ∀ (codec : VisaCodec) (resolves : IpAddr → Bool) (now initialVisaId vinst : Nat)
      (events : List ReconcilerEvent) (state : Reconciler codec),
      run (Reconciler.step resolves) (Reconciler.init codec now initialVisaId vinst) events =
        some state → state.Quiesced →
      ∀ (id : Nat) (entry : VisaEntry),
        liveEntry state.repo.now state.repo.store id = some entry →
        entry.metadata.Resolves resolves → entry.SettledAt state.vinst := by
  intro always
  have stored : (liveEntry (after storedBehind).repo.now (after storedBehind).repo.store 1).any
      (fun entry => decide (entry.metadata.checkedVinst = 1) &&
        decide (entry.nodeStates[Sample.node]? = some ⟨.pendingInstall, none⟩)) = true := by
    decide
  obtain ⟨entry, live, facts⟩ := (Option.any_eq_true _ _).mp stored
  simp only [Bool.and_eq_true, decide_eq_true_eq] at facts
  obtain ⟨checked, installable⟩ := facts
  have quiesced : (after storedBehind).Quiesced := ⟨by decide, by decide⟩
  have current : (after storedBehind).vinst = 2 := by decide
  rcases always .plain (fun _ => true) 0 0 1 storedBehind (after storedBehind)
    (run_after (by decide)) quiesced 1 entry live (fun _ _ => rfl) with newer | revoking
  · omega
  · exact NodeVisaState.noConfusion (revoking Sample.node _ installable)

open SweepTrace in
theorem visa_settled_after_early_store :
    (after storedBefore).Quiesced ∧ (after storedBefore).vinst = 2 ∧
      ∃ entry, liveEntry (after storedBefore).repo.now (after storedBefore).repo.store 1 =
        some entry ∧ entry.SettledAt (after storedBefore).vinst := by
  have quiesced : (after storedBefore).Quiesced := ⟨by decide, by decide⟩
  obtain ⟨entry, live⟩ := Option.isSome_iff_exists.mp (show (liveEntry
    (after storedBefore).repo.now (after storedBefore).repo.store 1).isSome = true by decide)
  -- when the visa is stored, no sweep has listed the visas
  have orderly : Meets (Reconciler.step fun _ => true)
      (fun state event => event.Orderly (fun _ => true) state) start storedBefore := by
    have split : storedBefore = [.arrive job, .takePolicy 0, .installPolicy, .evaluate 0 env,
      .number 0] ++ .store 0 [] [] :: (sweep ++ [.check env, .compare, .record, .check env]) := rfl
    rw [split, meets_append]
    refine ⟨meets_of_forall (by simp [ReconcilerEvent.Orderly]) _, fun mid ran => ⟨?_, ?_⟩⟩
    · intro swept
      cases (run_after (by decide)).symm.trans ran
      exact absurd swept (by unfold Reconciler.Swept; decide)
    · exact fun next _ => meets_of_forall
        (by simp [sweep, ReconcilerEvent.Orderly, FlowEnv.Answers, env]) _
  exact ⟨quiesced, by decide, entry, live,
    visas_settled_of_orderly orderly (run_after (by decide)) quiesced live (fun _ _ => rfl)⟩

end VisaService
