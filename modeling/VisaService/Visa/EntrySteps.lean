import VisaService.Visa.Repo

/-!
# What one step does to one visa

`EntryStep` lists everything a step of the repository can do to the in-memory entry of
one visa id. Results about a visa's history are case analyses over it; none of them
unfolds the operations again.
-/
namespace VisaService

open Lib

variable {codec : VisaCodec}

/-- The read-modify-write operations: the visa they touch, the change they make and the
node they unindex. -/
structure Rewrite where
  visaId : Nat
  change : VisaEntry → Option (Option VisaMetadata × NodeStates)
  dropped : Option IpAddr

def RepoOp.rewrite : RepoOp → Option Rewrite
  | .recordAllowVerdict visaId vinst => some ⟨visaId, allowChange vinst, none⟩
  | .recordDenyVerdict visaId vinst => some ⟨visaId, denyChange vinst, none⟩
  | .markVisaRevoked visaId => some ⟨visaId, markChange, none⟩
  | .transitionNodeVisaState node visaId expected new =>
    some ⟨visaId, transitionChange node expected new, none⟩
  | .removeNodeIfPendingRevoke node visaId => some ⟨visaId, removeNodeChange node, some node⟩
  | .storeVisa .. | .removeVisa _ | .clearNodeState _ => none

variable {op : RepoOp} {target : Rewrite} {visa : Visa} {metadata : VisaMetadata}
variable {nodeStates : NodeStates} {entry : VisaEntry} {now id : Nat} {inner : VisaStoreInner}
variable {plan : WritePlan codec} {node : IpAddr} {repo next : Repo codec} {outcome : RedisOutcome}
variable {event : RepoEvent}

theorem RepoOp.decide_of_rewrite (found : op.rewrite = some target) (now : Nat)
    (inner : VisaStoreInner) : op.decide codec now inner =
      rewriteEntry codec now inner target.visaId target.change target.dropped := by
  cases op <;> cases found <;> rfl

theorem buildRecord_eq_ok {record : VisaRecord codec.Blob} :
    buildRecord codec visa metadata nodeStates = .ok record ↔
      ∃ blob, codec.encode visa = .ok blob ∧ record = ⟨blob, metadata.wholeSecs, nodeStates⟩ := by
  unfold buildRecord
  split
  next failure failed => simp [failed]
  next blob encoded => simp [encoded, eq_comm]

/-- What a rewrite makes of an entry: the metadata if they change, and the states of the nodes.
A deny verdict and a mark both revoke every node. -/
inductive RewriteStep (entry : VisaEntry) :
    RepoOp → Option VisaMetadata → NodeStates → Prop
  | allowed (visaId vinst : Nat) (newer : entry.metadata.checkedVinst < vinst) :
    RewriteStep entry (.recordAllowVerdict visaId vinst)
      (some { entry.metadata with checkedVinst := vinst })
      (entry.nodeStates.map fun _ ns => ns.allowed vinst)
  | revoked (op : RepoOp) (revoke : NodeState → NodeState)
      (revokes : ∀ ns, (revoke ns).state = .pendingRevoke)
      (keeps : ∀ target, op.rewrite = some target → target.dropped = none) :
    RewriteStep entry op none (entry.nodeStates.map fun _ ns => revoke ns)
  | transitioned (node : IpAddr) (visaId : Nat) (expected new : NodeVisaState) (ns : NodeState)
      (listed : entry.nodeStates[node]? = some ns) (expects : ns.state = expected) :
    RewriteStep entry (.transitionNodeVisaState node visaId expected new) none
      (entry.nodeStates.modify node fun ns => { ns with state := new })
  | dropped (node : IpAddr) (visaId : Nat) :
    RewriteStep entry (.removeNodeIfPendingRevoke node visaId) none (entry.nodeStates.erase node)

theorem RepoOp.rewrite_cases {metadata : Option VisaMetadata} (rewrites : op.rewrite = some target)
    (changed : target.change entry = some (metadata, nodeStates)) :
    RewriteStep entry op metadata nodeStates := by
  cases op with
  | recordAllowVerdict visaId vinst =>
    cases rewrites
    simp only [allowChange] at changed
    split at changed
    · cases changed
    next newer =>
      cases changed
      exact .allowed visaId vinst (Nat.lt_of_not_le newer)
  | recordDenyVerdict visaId vinst =>
    cases rewrites
    simp only [denyChange] at changed
    split at changed <;> cases changed
    exact .revoked _ (NodeState.denied vinst) (fun _ => rfl) fun _ isTarget => by cases isTarget; rfl
  | markVisaRevoked visaId =>
    cases rewrites
    cases changed
    exact .revoked _ NodeState.marked (fun _ => rfl) fun _ isTarget => by cases isTarget; rfl
  | transitionNodeVisaState node visaId expected new =>
    cases rewrites
    simp only [transitionChange] at changed
    split at changed
    · cases changed
    next ns listed =>
      split at changed <;> cases changed
      next expects => exact .transitioned node visaId expected new ns listed expects
  | removeNodeIfPendingRevoke node visaId =>
    cases rewrites
    simp only [removeNodeChange] at changed
    split at changed
    · cases changed
    · split at changed <;> cases changed
      exact .dropped node visaId
  | storeVisa | removeVisa | clearNodeState => cases rewrites

/-- Each rewrite keeps the nodes of the entry, apart from the one it drops, and of its metadata
the ends and the flow; a check is never taken back. -/
theorem RepoOp.rewrite_domain {metadata : Option VisaMetadata} (rewrites : op.rewrite = some target)
    (changed : target.change entry = some (metadata, nodeStates)) :
    (∀ node, node ∈ nodeStates ↔ node ∈ entry.nodeStates ∧ target.dropped ≠ some node) ∧
      (metadata.getD entry.metadata).endpoints = entry.metadata.endpoints ∧
      (metadata.getD entry.metadata).fiveTuple = entry.metadata.fiveTuple ∧
      entry.metadata.checkedVinst ≤ (metadata.getD entry.metadata).checkedVinst := by
  cases RepoOp.rewrite_cases rewrites changed with
  | allowed visaId vinst newer =>
    cases rewrites
    exact ⟨by simp, rfl, rfl, newer.le⟩
  | revoked op revoke revokes keeps => exact ⟨by simp [keeps target rewrites], rfl, rfl, le_rfl⟩
  | transitioned =>
    cases rewrites
    exact ⟨by simp [Std.ExtTreeMap.mem_modify], rfl, rfl, le_rfl⟩
  | dropped node visaId =>
    cases rewrites
    refine ⟨fun other => ?_, rfl, rfl, le_rfl⟩
    rw [HashMap.mem_erase, ne_eq, ne_eq, Option.some.injEq, eq_comm]

/-- A rewrite is planned exactly for a live entry the change accepts and the codec encodes. -/
theorem rewriteEntry_eq_write {visaId : Nat}
    {change : VisaEntry → Option (Option VisaMetadata × NodeStates)} {dropped : Option IpAddr} :
    rewriteEntry codec now inner visaId change dropped = .write plan ↔
      ∃ entry metadata nodeStates record,
        liveEntry now inner visaId = some entry ∧ change entry = some (metadata, nodeStates) ∧
        buildRecord codec entry.visa (metadata.getD entry.metadata) nodeStates = .ok record ∧
        plan = ⟨[.setEx visaId record (remainingSecs now entry.deadline)], [],
          .rewrite visaId metadata nodeStates dropped⟩ := by
  constructor
  · intro planned
    unfold rewriteEntry at planned
    split at planned
    · cases planned
    next entry live =>
      split at planned
      · cases planned
      next metadata nodeStates changed =>
        split at planned
        · cases planned
        next record built =>
          cases planned
          exact ⟨entry, metadata, nodeStates, record, live, changed, built, rfl⟩
  · rintro ⟨entry, metadata, nodeStates, record, live, changed, built, rfl⟩
    simp only [rewriteEntry, live, changed, built]

theorem initialNodeStates_get (metadata : VisaMetadata) (nstate : NodeVisaState)
    (node : IpAddr) : (initialNodeStates metadata nstate)[node]? =
      if node = metadata.requestingNode then some ⟨nstate, none⟩
      else if node ∈ metadata.path.getD [] then some ⟨.pendingInstall, none⟩ else none := by
  have fold : ∀ (path : List IpAddr) (states : NodeStates),
      (path.foldl (fun states node => if node = metadata.requestingNode then states
        else states.insert node ⟨.pendingInstall, none⟩) states)[node]? =
      if node ≠ metadata.requestingNode ∧ node ∈ path then some ⟨.pendingInstall, none⟩
      else states[node]? := by
    intro path
    induction path with
    | nil => simp
    | cons first rest ih =>
      intro states
      rw [List.foldl_cons, ih]
      by_cases requesting : first = metadata.requestingNode
      · grind
      · simp only [requesting, if_false, HashMap.get_insert, List.mem_cons]
        grind
  simp only [initialNodeStates, fold, HashMap.get_insert]
  grind

theorem storeVisa_eq_write {nstate : NodeVisaState} :
    storeVisa codec now visa metadata nstate = .write plan ↔
      0 < secondsUntil now visa.expires ∧ ∃ record,
        buildRecord codec visa metadata (initialNodeStates metadata nstate) = .ok record ∧
        plan = ⟨[.setEx visa.issuerId record (secondsUntil now visa.expires)],
          [.del visa.issuerId],
          .insert visa.issuerId visa metadata (initialNodeStates metadata nstate)
            (secondsUntil now visa.expires)⟩ := by
  constructor
  · intro planned
    unfold storeVisa at planned
    simp only at planned
    split at planned
    · cases planned
    next unexpired =>
      split at planned
      · cases planned
      next record built =>
        cases planned
        exact ⟨Nat.pos_of_ne_zero unexpired, record, built, rfl⟩
  · rintro ⟨unexpired, record, built, rfl⟩
    simp only [storeVisa, Nat.ne_of_gt unexpired, if_false, built]

theorem clearNodeState_eq_write (planned : clearNodeState codec now inner node = .write plan) :
    ∃ writes, clearNodeWrites codec now inner node (nodeRow inner node) = .ok writes ∧
      plan = ⟨writes.filterMap fun (id, write) =>
          write.map fun (record, ttl) => .setEx id record ttl, [],
        .clearNode node (writes.map Prod.fst)⟩ := by
  unfold clearNodeState at planned
  split at planned
  · cases planned
  next writes collected =>
    cases planned
    exact ⟨writes, collected, rfl⟩

/-! ### Lookups after a memory write -/

theorem erase_erase (states : NodeStates) (node : IpAddr) :
    (states.erase node).erase node = states.erase node := by
  apply Std.ExtTreeMap.ext_getElem?
  intro other
  simp only [HashMap.get_erase]
  split <;> rfl

@[simp] theorem clearNodeEntry_visas (node : IpAddr) (inner : VisaStoreInner) (id other : Nat) :
    (clearNodeEntry node inner id).visas[other]? =
      if id = other then inner.visas[id]?.map fun entry =>
        { entry with nodeStates := entry.nodeStates.erase node }
      else inner.visas[other]? := by
  simp only [clearNodeEntry, unindexNode_visas, modifyEntry_visas]

theorem clearNode_visas (node : IpAddr) (ids : List Nat) (inner : VisaStoreInner) (id : Nat) :
    (ids.foldl (clearNodeEntry node) inner).visas[id]? =
      if id ∈ ids then inner.visas[id]?.map fun entry =>
        { entry with nodeStates := entry.nodeStates.erase node }
      else inner.visas[id]? := by
  induction ids generalizing inner with
  | nil => simp
  | cons first rest ih =>
    rw [List.foldl_cons, ih, clearNodeEntry_visas]
    by_cases same : first = id
    · subst same
      cases inner.visas[first]? <;> simp [erase_erase]
    · simp [same, Ne.symm (Ne.intro same)]

theorem applyMemory_rewrite_visas (now id other : Nat) (inner : VisaStoreInner)
    (metadata : Option VisaMetadata) (nodeStates : NodeStates) (dropped : Option IpAddr) :
    (applyMemory now inner (.rewrite id metadata nodeStates dropped)).visas[other]? =
      if id = other then inner.visas[id]?.map fun entry =>
        { entry with metadata := metadata.getD entry.metadata, nodeStates }
      else inner.visas[other]? := by
  cases dropped <;> simp only [applyMemory, unindexNode_visas, modifyEntry_visas]

theorem removeAll_visas (ids : List Nat) (inner : VisaStoreInner) (id : Nat) :
    (ids.foldl removeEntry inner).visas[id]? =
      if id ∈ ids then none else inner.visas[id]? := by
  induction ids generalizing inner with
  | nil => simp
  | cons first rest ih =>
    rw [List.foldl_cons, ih, removeEntry_visas]
    by_cases same : first = id
    · simp [same]
    · simp [same, Ne.symm (Ne.intro same)]

theorem mem_expiredIds :
    id ∈ expiredIds now inner ↔
      ∃ entry, inner.visas[id]? = some entry ∧ entry.isLive now = false := by
  simp [expiredIds, Std.ExtTreeMap.mem_toList_iff_getElem?_eq_some]

theorem purge_visas (now : Nat) (inner : VisaStoreInner) (id : Nat) :
    ((expiredIds now inner).foldl removeEntry inner).visas[id]? = liveEntry now inner id := by
  rw [removeAll_visas, liveEntry]
  cases found : inner.visas[id]? with
  | none => simp
  | some entry => cases live : entry.isLive now <;> simp [mem_expiredIds, found, live, Option.filter]

/-- Each write of a clear is for a visa in memory that lists the node; a live one gets a new
record under its remaining TTL. -/
theorem clearNodeWrites_spec {ids : List Nat}
    {writes : List (Nat × Option (VisaRecord codec.Blob × Nat))}
    (collected : clearNodeWrites codec now inner node ids = .ok writes)
    {write : Option (VisaRecord codec.Blob × Nat)} (member : (id, write) ∈ writes) :
    ∃ entry, inner.visas[id]? = some entry ∧ node ∈ entry.nodeStates ∧
      (entry.isLive now = false ∧ write = none ∨
        entry.isLive now = true ∧ ∃ record,
          buildRecord codec entry.visa entry.metadata (entry.nodeStates.erase node) = .ok record ∧
          write = some (record, remainingSecs now entry.deadline)) := by
  induction ids generalizing writes with
  | nil =>
    cases collected
    cases member
  | cons first rest ih =>
    unfold clearNodeWrites at collected
    split at collected
    · cases collected
    next head written =>
      split at collected
      · cases collected
      next tail others =>
        cases collected
        rcases List.mem_append.mp member with member | member
        · unfold clearNodeWrite at written
          grind [VisaEntry.isLive]
        · exact ih others member

/-! ### The steps of one entry -/

/-- Everything a step can do to the entry of visa `id`. -/
inductive EntryStep (repo : Repo codec) (id : Nat) :
    RepoEvent → Option VisaEntry → Option VisaEntry → Prop where
  | same (event : RepoEvent) (entry : Option VisaEntry) : EntryStep repo id event entry entry
  | expired (entry : VisaEntry) (dead : entry.isLive repo.now = false) :
      EntryStep repo id .purgeExpired (some entry) none
  | removed (outcome : RedisOutcome) (entry : Option VisaEntry) :
      EntryStep repo id (.call (.removeVisa id) outcome) entry none
  | stored (visa : Visa) (metadata : VisaMetadata) (nstate : NodeVisaState)
      (entry : Option VisaEntry) (own : visa.issuerId = id) (handed : id ∈ repo.handedOut)
      (unexpired : 0 < secondsUntil repo.now visa.expires)
      (encodes : ∃ blob, codec.encode visa = .ok blob) :
      EntryStep repo id (.call (.storeVisa visa metadata nstate) .applied) entry
        (some
          { visa, metadata
            deadline := repo.now + secondsUntil repo.now visa.expires * nanosPerSec
            nodeStates := initialNodeStates metadata nstate })
  | rewritten (op : RepoOp) (target : Rewrite) (entry : VisaEntry)
      (metadata : Option VisaMetadata) (nodeStates : NodeStates)
      (rewrites : op.rewrite = some target) (own : target.visaId = id)
      (live : liveEntry repo.now repo.store id = some entry)
      (changed : target.change entry = some (metadata, nodeStates))
      (encodes : ∃ blob, codec.encode entry.visa = .ok blob) :
      EntryStep repo id (.call op .applied) (some entry)
        (some { entry with metadata := metadata.getD entry.metadata, nodeStates })
  | cleared (node : IpAddr) (outcome : RedisOutcome) (entry : VisaEntry)
      (listed : node ∈ entry.nodeStates) :
      EntryStep repo id (.call (.clearNodeState node) outcome) (some entry)
        (some { entry with nodeStates := entry.nodeStates.erase node })

theorem Repo.call_cases (repo : Repo codec) (op : RepoOp) (outcome : RedisOutcome) :
    (repo.call op outcome).1 = repo ∨
      ∃ plan, op.decide codec repo.now repo.store = .write plan ∧
        ((repo.call op outcome).1 =
            { repo with redis := applyRedis repo.now repo.redis plan.undo } ∨
          (repo.call op outcome).1 =
            { repo with
              redis := applyRedis repo.now repo.redis plan.redis
              store := applyMemory repo.now repo.store plan.memory }) := by
  unfold Repo.call
  split
  · exact .inl rfl
  next plan planned =>
    unfold Repo.commit
    split
    · exact .inr ⟨plan, planned, .inr rfl⟩
    · split
      · exact .inr ⟨plan, planned, .inl rfl⟩
      · exact .inl rfl

theorem Repo.call_store (repo : Repo codec) (op : RepoOp) (outcome : RedisOutcome) :
    (repo.call op outcome).1.store = repo.store ∨
      ∃ plan, op.decide codec repo.now repo.store = .write plan ∧
        (plan.redis.isEmpty ∨ outcome = .applied) ∧
        (repo.call op outcome).1.store = applyMemory repo.now repo.store plan.memory := by
  unfold Repo.call
  split
  · exact .inl rfl
  next plan planned =>
    unfold Repo.commit
    split
    next taken => exact .inr ⟨plan, planned, taken, rfl⟩
    · exact .inl rfl

private theorem call_entry {claimed : Repo codec} (id : Nat)
    (claims : repo.claimId op = some claimed) :
    EntryStep repo id (.call op outcome) repo.store.visas[id]?
      (claimed.call op outcome).1.store.visas[id]? := by
  obtain ⟨handed, left, rfl, -⟩ := Repo.claimId_eq_some claims
  rcases Repo.call_store { repo with handedOut := left } op outcome with
    kept | ⟨plan, planned, taken, written⟩
  · rw [kept]
    exact .same _ _
  rw [written]
  -- Most operations rewrite one live entry; the other three are taken one by one.
  cases rewrites : op.rewrite with
  | some target =>
    rw [RepoOp.decide_of_rewrite rewrites] at planned
    obtain ⟨entry, metadata, nodeStates, record, live, changed, built, rfl⟩ :=
      rewriteEntry_eq_write.mp planned
    obtain ⟨blob, encoded, -⟩ := buildRecord_eq_ok.mp built
    have applied : outcome = .applied := by simpa using taken
    rw [applyMemory_rewrite_visas]
    split
    next same =>
      subst same applied
      rw [(liveEntry_eq_some.mp live).1]
      exact .rewritten op target entry metadata nodeStates rewrites rfl live changed
        ⟨blob, encoded⟩
    · exact .same _ _
  | none =>
    cases op with
    | storeVisa visa metadata nstate =>
      obtain ⟨unexpired, record, built, rfl⟩ := storeVisa_eq_write.mp planned
      obtain ⟨blob, encoded, -⟩ := buildRecord_eq_ok.mp built
      have applied : outcome = .applied := by simpa using taken
      simp only [applyMemory, insertEntry_visas]
      split
      next same =>
        subst applied
        exact .stored visa metadata nstate _ same (same ▸ handed _ rfl) unexpired
          ⟨blob, encoded⟩
      · exact .same _ _
    | removeVisa visaId =>
      cases planned
      simp only [applyMemory, removeEntry_visas]
      split
      next same =>
        subst same
        exact .removed _ _
      · exact .same _ _
    | clearNodeState node =>
      obtain ⟨writes, collected, rfl⟩ := clearNodeState_eq_write planned
      simp only [applyMemory, clearNode_visas]
      split
      next member =>
        obtain ⟨⟨_, write⟩, isWrite, rfl⟩ := List.mem_map.mp member
        obtain ⟨entry, found, listed, -⟩ := clearNodeWrites_spec collected isWrite
        rw [found]
        exact .cleared node _ entry listed
      · exact .same _ _
    | _ => cases rewrites

/-- The inversion lemma of the repository, seen from one visa. -/
theorem Repo.step_entry (stepped : repo.step event = some next) (id : Nat) :
    EntryStep repo id event repo.store.visas[id]? next.store.visas[id]? := by
  cases event with
  | tick nanos | getNextVisaId =>
    cases stepped
    exact .same _ _
  | purgeExpired =>
    cases stepped
    unfold Repo.purgeExpired
    split
    · exact .same _ _
    rw [purge_visas]
    cases found : repo.store.visas[id]? with
    | none => simpa [liveEntry, found] using EntryStep.same _ _
    | some entry =>
      cases live : entry.isLive repo.now with
      | true => simpa [liveEntry, found, live, Option.filter] using EntryStep.same _ _
      | false =>
        simpa [liveEntry, found, live, Option.filter] using EntryStep.expired entry live
  | call op outcome =>
    obtain ⟨claimed, claims, rfl⟩ := Option.map_eq_some_iff.mp stepped
    exact call_entry id claims

theorem Repo.call_rewrite_applied (op : RepoOp) {metadata : Option VisaMetadata} {blob : codec.Blob}
    (rewrites : op.rewrite = some target)
    (live : liveEntry repo.now repo.store target.visaId = some entry)
    (changed : target.change entry = some (metadata, nodeStates))
    (encoded : codec.encode entry.visa = .ok blob) :
    (repo.call op .applied).2 = .ok true ∧
      (repo.call op .applied).1.store.visas[target.visaId]? =
        some { entry with metadata := metadata.getD entry.metadata, nodeStates } := by
  have planned : op.decide codec repo.now repo.store = .write _ :=
    (RepoOp.decide_of_rewrite rewrites _ _).trans <| rewriteEntry_eq_write.mpr
      ⟨entry, metadata, nodeStates, _, live, changed,
        buildRecord_eq_ok.mpr ⟨blob, encoded, rfl⟩, rfl⟩
  simp only [Repo.call, planned, Repo.commit, or_true, if_true, true_and,
    applyMemory_rewrite_visas, (liveEntry_eq_some.mp live).1, Option.map_some]

theorem Repo.call_rewrite_ok (op : RepoOp) (rewrites : op.rewrite = some target)
    (replied : (repo.call op outcome).2 = .ok true) :
    ∃ entry metadata nodeStates, liveEntry repo.now repo.store target.visaId = some entry ∧
      target.change entry = some (metadata, nodeStates) ∧
      (repo.call op outcome).1.store.visas[target.visaId]? =
        some { entry with metadata := metadata.getD entry.metadata, nodeStates } := by
  cases decided : op.decide codec repo.now repo.store with
  | done reply =>
    simp only [Repo.call, decided] at replied
    rw [RepoOp.decide_of_rewrite rewrites] at decided
    unfold rewriteEntry at decided
    grind
  | write plan =>
    rw [RepoOp.decide_of_rewrite rewrites] at decided
    obtain ⟨entry, metadata, nodeStates, record, live, changed, built, -⟩ :=
      rewriteEntry_eq_write.mp decided
    obtain ⟨blob, encoded, -⟩ := buildRecord_eq_ok.mp built
    cases outcome with
    | applied =>
      exact ⟨entry, metadata, nodeStates, live, changed,
        (Repo.call_rewrite_applied op rewrites live changed encoded).2⟩
    | failed undone =>
      obtain ⟨_, _, _, _, _, _, _, rfl⟩ := rewriteEntry_eq_write.mp decided
      rw [← RepoOp.decide_of_rewrite rewrites] at decided
      simp [Repo.call, decided, Repo.commit] at replied

/-! ### Ids are used once -/

/-- An id that was stored, or tried: it is not handed out a second time. -/
def Repo.Spent (repo : Repo codec) (id : Nat) : Prop :=
  id ≤ repo.nextVisaId ∧ id ∉ repo.handedOut

/-- Ids in memory or handed out come from the counter, and no id is both. -/
structure Repo.IdsUnique (repo : Repo codec) : Prop where
  stored : ∀ id entry, repo.store.visas[id]? = some entry → repo.Spent id
  handed : ∀ id ∈ repo.handedOut, id ≤ repo.nextVisaId

theorem Repo.call_counters (repo : Repo codec) (op : RepoOp) (outcome : RedisOutcome) :
    (repo.call op outcome).1.nextVisaId = repo.nextVisaId ∧
      (repo.call op outcome).1.handedOut = repo.handedOut ∧
      (repo.call op outcome).1.now = repo.now := by
  unfold Repo.call
  split
  · exact ⟨rfl, rfl, rfl⟩
  · unfold Repo.commit
    split <;> exact ⟨rfl, rfl, rfl⟩

theorem Repo.step_now (stepped : repo.step event = some next) : repo.now ≤ next.now := by
  cases event with
  | tick nanos =>
    cases stepped
    exact Nat.le_add_right _ _
  | getNextVisaId =>
    cases stepped
    exact Nat.le_refl _
  | purgeExpired =>
    cases stepped
    unfold Repo.purgeExpired
    split <;> exact Nat.le_refl _
  | call op outcome =>
    obtain ⟨claimed, claims, rfl⟩ := Option.map_eq_some_iff.mp stepped
    obtain ⟨-, left, rfl, -⟩ := Repo.claimId_eq_some claims
    exact Nat.le_of_eq
      (Repo.call_counters { repo with handedOut := left } op outcome).2.2.symm

theorem Repo.step_call (op : RepoOp) (notNew : op.newId = none) (outcome : RedisOutcome) :
    repo.step (.call op outcome) = some (repo.call op outcome).1 := by
  simp [Repo.step, Repo.claimId, notNew]

theorem Repo.Spent.step (spent : repo.Spent id) (stepped : repo.step event = some next) :
    next.Spent id := by
  obtain ⟨bound, unhanded⟩ := spent
  cases event with
  | tick nanos =>
    cases stepped
    exact ⟨bound, unhanded⟩
  | getNextVisaId =>
    cases stepped
    refine ⟨Nat.le_succ_of_le bound, ?_⟩
    simp only [Repo.getNextVisaId, Std.ExtTreeSet.mem_insert, Std.compare_eq_iff_eq]
    rintro (same | handed)
    · omega
    · exact unhanded handed
  | purgeExpired =>
    cases stepped
    unfold Repo.purgeExpired
    split <;> exact ⟨bound, unhanded⟩
  | call op outcome =>
    obtain ⟨claimed, claims, rfl⟩ := Option.map_eq_some_iff.mp stepped
    obtain ⟨-, left, rfl, leftIff⟩ := Repo.claimId_eq_some claims
    obtain ⟨counter, handed, -⟩ := Repo.call_counters { repo with handedOut := left } op outcome
    refine ⟨by rw [counter]; exact bound, fun member => ?_⟩
    rw [handed] at member
    exact unhanded ((leftIff id).mp member).1

theorem idsUnique_init (now initialVisaId : Nat) :
    (Repo.init codec now initialVisaId).IdsUnique where
  stored id entry found := by simp [Repo.init, VisaStoreInner.empty] at found
  handed id member := by simp [Repo.init] at member

theorem Repo.IdsUnique.step (unique : repo.IdsUnique) (stepped : repo.step event = some next) :
    next.IdsUnique := by
  constructor
  · intro id entry found
    have change := repo.step_entry stepped id
    cases before : repo.store.visas[id]? with
    | some old => exact (unique.stored id old before).step stepped
    | none =>
      -- an entry that was not there before was stored by this very step
      rw [before, found] at change
      cases change with
      | stored visa metadata nstate _ own handed =>
        obtain ⟨claimed, claims, rfl⟩ := Option.map_eq_some_iff.mp stepped
        obtain ⟨-, left, rfl, leftIff⟩ := Repo.claimId_eq_some claims
        obtain ⟨counter, kept, -⟩ := Repo.call_counters { repo with handedOut := left }
          (.storeVisa visa metadata nstate) .applied
        refine ⟨by rw [counter]; exact unique.handed id handed, fun member => ?_⟩
        rw [kept] at member
        exact ((leftIff id).mp member).2 (by simp [RepoOp.newId, own])
  · intro id member
    cases event with
    | tick nanos =>
      cases stepped
      exact unique.handed id member
    | getNextVisaId =>
      cases stepped
      simp only [Repo.getNextVisaId, Std.ExtTreeSet.mem_insert, Std.compare_eq_iff_eq] at member ⊢
      rcases member with same | member
      · omega
      · exact Nat.le_succ_of_le (unique.handed id member)
    | purgeExpired =>
      cases stepped
      unfold Repo.purgeExpired at member ⊢
      split at member <;> rename_i throttled <;> simp only [throttled] <;>
        exact unique.handed id member
    | call op outcome =>
      obtain ⟨claimed, claims, rfl⟩ := Option.map_eq_some_iff.mp stepped
      obtain ⟨-, left, rfl, leftIff⟩ := Repo.claimId_eq_some claims
      obtain ⟨counter, kept, -⟩ := Repo.call_counters { repo with handedOut := left } op outcome
      rw [kept] at member
      rw [counter]
      exact unique.handed id ((leftIff id).mp member).1

/-! ### Records in Redis -/

theorem applyRedis_get {writes : List (RedisWrite codec)} {redis : Redis codec}
    {item : VisaRecord codec.Blob × Nat} (found : (applyRedis now redis writes)[id]? = some item) :
    redis[id]? = some item ∨ ∃ ttl, RedisWrite.setEx id item.1 ttl ∈ writes := by
  induction writes generalizing redis with
  | nil => exact .inl found
  | cons write rest ih =>
    rcases ih found with kept | ⟨ttl, later⟩
    · cases write with
      | setEx own record ttl =>
        rcases HashMap.of_get_insert kept with ⟨rfl, rfl⟩ | ⟨-, kept⟩
        · exact .inr ⟨ttl, List.mem_cons_self⟩
        · exact .inl kept
      | del own => exact .inl (HashMap.of_get_erase kept).2
    · exact .inr ⟨ttl, List.mem_cons_of_mem _ later⟩

theorem applyRedis_mem {writes : List (RedisWrite codec)} {redis : Redis codec}
    (member : id ∈ applyRedis now redis writes) :
    id ∈ redis ∨ ∃ write ∈ writes, write.setId = some id := by
  obtain ⟨item, found⟩ := HashMap.get_of_mem member
  exact (applyRedis_get found).imp HashMap.mem_of_get fun ⟨ttl, sets⟩ => ⟨_, sets, rfl⟩

/-- The record that an operation writes for a visa: of the visa it stores, or of one in
memory. -/
inductive RepoOp.Records (inner : VisaStoreInner) (id : Nat) :
    RepoOp → VisaRecord codec.Blob → Prop
  | stored (visa : Visa) (metadata : VisaMetadata) (nstate : NodeVisaState) (blob : codec.Blob)
      (own : visa.issuerId = id) (encoded : codec.encode visa = .ok blob) :
    Records inner id (.storeVisa visa metadata nstate)
      ⟨blob, metadata.wholeSecs, initialNodeStates metadata nstate⟩
  | rewritten (op : RepoOp) (target : Rewrite) (entry : VisaEntry)
      (metadata : Option VisaMetadata) (nodeStates : NodeStates) (blob : codec.Blob)
      (found : inner.visas[id]? = some entry) (encoded : codec.encode entry.visa = .ok blob)
      (rewrites : op.rewrite = some target)
      (changed : target.change entry = some (metadata, nodeStates)) :
    Records inner id op ⟨blob, (metadata.getD entry.metadata).wholeSecs, nodeStates⟩
  | cleared (node : IpAddr) (entry : VisaEntry) (blob : codec.Blob)
      (found : inner.visas[id]? = some entry) (encoded : codec.encode entry.visa = .ok blob) :
    Records inner id (.clearNodeState node)
      ⟨blob, entry.metadata.wholeSecs, entry.nodeStates.erase node⟩

theorem RepoOp.decide_records (planned : op.decide codec now inner = .write plan) :
    (∀ id record ttl, RedisWrite.setEx id record ttl ∈ plan.redis → op.Records inner id record) ∧
      ∀ write ∈ plan.undo, write.setId = none := by
  cases rewrites : op.rewrite with
  | some target =>
    rw [RepoOp.decide_of_rewrite rewrites] at planned
    obtain ⟨entry, metadata, nodeStates, record, live, changed, built, rfl⟩ :=
      rewriteEntry_eq_write.mp planned
    refine ⟨fun id written ttl member => ?_, by simp⟩
    cases List.mem_singleton.mp member
    obtain ⟨blob, encoded, rfl⟩ := buildRecord_eq_ok.mp built
    exact .rewritten op target entry metadata nodeStates blob (liveEntry_eq_some.mp live).1 encoded
      rewrites changed
  | none =>
    cases op with
    | storeVisa visa metadata nstate =>
      obtain ⟨-, record, built, rfl⟩ := storeVisa_eq_write.mp planned
      refine ⟨fun id written ttl member => ?_, by simp [RedisWrite.setId]⟩
      cases List.mem_singleton.mp member
      obtain ⟨blob, encoded, rfl⟩ := buildRecord_eq_ok.mp built
      exact .stored visa metadata nstate blob rfl encoded
    | removeVisa visaId =>
      cases planned
      simp [RedisWrite.setId]
    | clearNodeState node =>
      obtain ⟨writes, collected, rfl⟩ := clearNodeState_eq_write planned
      refine ⟨fun id written ttl member => ?_, by simp⟩
      simp only [List.mem_filterMap, Prod.exists, Option.map_eq_some_iff] at member
      obtain ⟨own, _, isWrite, _, _, rfl, isSet⟩ := member
      cases isSet
      obtain ⟨entry, found, -, ⟨-, ⟨⟩⟩ | ⟨-, _, built, isRecord⟩⟩ :=
        clearNodeWrites_spec collected isWrite
      cases isRecord
      obtain ⟨blob, encoded, rfl⟩ := buildRecord_eq_ok.mp built
      exact .cleared node entry blob found encoded
    | _ => cases rewrites

theorem RepoOp.decide_redis (planned : op.decide codec now inner = .write plan) :
    (∀ write ∈ plan.redis, ∀ id, write.setId = some id →
        op.newId = some id ∨ ∃ entry, inner.visas[id]? = some entry) ∧
      ∀ write ∈ plan.undo, write.setId = none := by
  obtain ⟨records, undoes⟩ := RepoOp.decide_records planned
  refine ⟨fun write member id sets => ?_, undoes⟩
  cases write with
  | del own => cases sets
  | setEx own record ttl =>
    cases sets
    cases records _ record ttl member with
    | stored visa metadata nstate blob isOwn => exact .inl (congrArg some isOwn)
    | rewritten _ target entry metadata nodeStates blob found => exact .inr ⟨entry, found⟩
    | cleared node entry blob found => exact .inr ⟨entry, found⟩

/-- Every persisted key is an id the counter has passed. -/
def Repo.Persisted (repo : Repo codec) : Prop :=
  ∀ id, id ∈ repo.redis → id ≤ repo.nextVisaId

theorem Repo.Persisted.call (persisted : repo.Persisted)
    (unique : ∀ (id : Nat) (entry : VisaEntry), repo.store.visas[id]? = some entry →
      id ≤ repo.nextVisaId) (handed : ∀ own, op.newId = some own → own ≤ repo.nextVisaId)
    (outcome : RedisOutcome) : (repo.call op outcome).1.Persisted := by
  rcases repo.call_cases op outcome with kept | ⟨plan, planned, ended⟩
  · rw [kept]
    exact persisted
  obtain ⟨keys, undoes⟩ := RepoOp.decide_redis planned
  rcases ended with ended | ended <;> rw [ended] <;> intro id member
  · rcases applyRedis_mem member with kept | ⟨write, isWrite, sets⟩
    · exact persisted id kept
    · simp [undoes write isWrite] at sets
  · rcases applyRedis_mem member with kept | ⟨write, isWrite, sets⟩
    · exact persisted id kept
    · rcases keys write isWrite id sets with own | ⟨entry, found⟩
      · exact handed id own
      · exact unique id entry found

theorem Repo.Persisted.step (persisted : repo.Persisted) (unique : repo.IdsUnique)
    (stepped : repo.step event = some next) : next.Persisted := by
  cases event with
  | tick nanos =>
    cases stepped
    exact persisted
  | getNextVisaId =>
    cases stepped
    exact fun id member => Nat.le_succ_of_le (persisted id member)
  | purgeExpired =>
    cases stepped
    unfold Repo.purgeExpired
    split <;> exact persisted
  | call op outcome =>
    obtain ⟨claimed, claims, rfl⟩ := Option.map_eq_some_iff.mp stepped
    obtain ⟨handed, left, rfl, -⟩ := Repo.claimId_eq_some claims
    have claimed : Repo.Persisted { repo with handedOut := left } := persisted
    exact claimed.call (fun id entry found => (unique.stored id entry found).1)
      (fun own isNew => unique.handed own (handed own isNew)) outcome

end VisaService
