import VisaService.Visa.Restore

/-!
# Writers interleaved with purges

A writer drops the memory lock while it waits for Redis. The `backing` lock keeps other
writers out of that gap, but the clock moves on, `purge_expired` may take entries away
and the process may stop. `store_visa` computes its record before it takes the lock, so
any number of stores can be waiting for it. The indexes stay exact through all of this.
-/
namespace VisaService

open Lib

variable {codec : VisaCodec}

/-- The call that holds `backing`: its Redis write is outstanding, or taken by Redis and
not yet applied to memory. -/
inductive Writer (codec : VisaCodec) where
  | idle
  | awaiting (plan : WritePlan codec)
  | written (plan : WritePlan codec)

structure Machine (codec : VisaCodec) where
  repo : Repo codec
  /-- Stores that have their record ready and wait for `backing`. -/
  waiting : List (WritePlan codec)
  writer : Writer codec

inductive MachineEvent where
  | tick (nanos : Nat)
  | getNextVisaId
  | purgeExpired
  /-- `store_visa` up to the lock. -/
  | prepareStore (visa : Visa) (metadata : VisaMetadata) (nstate : NodeVisaState)
  /-- One of the waiting stores gets the lock and writes Redis. -/
  | acquireStore (position : Nat)
  /-- Any other operation gets the lock, decides and writes Redis. -/
  | acquire (op : RepoOp)
  | redisReply (outcome : RedisOutcome)
  | applyMemory
  | restart

namespace Machine

def init (codec : VisaCodec) (now initialVisaId : Nat) : Machine codec :=
  ⟨Repo.init codec now initialVisaId, [], .idle⟩

/-- With nothing to send the call goes straight on to memory. -/
def send (machine : Machine codec) (plan : WritePlan codec) : Machine codec :=
  { machine with writer := if plan.redis.isEmpty then .written plan else .awaiting plan }

def step (machine : Machine codec) : MachineEvent → Option (Machine codec)
  | .tick nanos =>
    some { machine with repo := { machine.repo with now := machine.repo.now + nanos } }
  | .getNextVisaId => some { machine with repo := machine.repo.getNextVisaId }
  | .purgeExpired => some { machine with repo := machine.repo.purgeExpired }
  | .prepareStore visa metadata nstate =>
    (machine.repo.claimId (.storeVisa visa metadata nstate)).map fun claimed =>
      match storeVisa codec claimed.now visa metadata nstate with
      | .done _ => { machine with repo := claimed }
      | .write plan => { machine with repo := claimed, waiting := machine.waiting ++ [plan] }
  | .acquireStore position =>
    match machine.writer, machine.waiting[position]? with
    | .idle, some plan =>
      some ({ machine with waiting := machine.waiting.eraseIdx position }.send plan)
    | _, _ => none
  | .acquire op =>
    match machine.writer, op.newId with
    | .idle, none =>
      match op.decide codec machine.repo.now machine.repo.store with
      | .done _ => some machine
      | .write plan => some (machine.send plan)
    | _, _ => none
  | .redisReply outcome =>
    match machine.writer with
    | .awaiting plan =>
      match outcome with
      | .applied =>
        some { machine with
          repo := { machine.repo with
            redis := applyRedis machine.repo.now machine.repo.redis plan.redis }
          writer := .written plan }
      | .failed undone =>
        some { machine with
          repo := { machine.repo with
            redis := if undone then applyRedis machine.repo.now machine.repo.redis plan.undo
              else machine.repo.redis }
          writer := .idle }
    | _ => none
  | .applyMemory =>
    match machine.writer with
    | .written plan =>
      some { machine with
        repo := { machine.repo with
          store := VisaService.applyMemory machine.repo.now machine.repo.store plan.memory }
        writer := .idle }
    | _ => none
  | .restart => some ⟨machine.repo.restart, [], .idle⟩

end Machine

/-! ### Plans that keep the indexes exact -/

/-- What a pending memory write may assume of the entry it finds. -/
def MemoryWrite.Safe (inner : VisaStoreInner) : MemoryWrite → Prop
  | .insert id .. => inner.visas[id]? = none
  | .rewrite id metadata nodeStates dropped => ∀ entry, inner.visas[id]? = some entry →
      (∀ node, node ∈ nodeStates ↔ node ∈ entry.nodeStates ∧ dropped ≠ some node) ∧
      (metadata.getD entry.metadata).endpoints = entry.metadata.endpoints
  | .clearNode .. => True
  | .remove _ => True

def MemoryWrite.newId : MemoryWrite → Option Nat
  | .insert id .. => some id
  | _ => none

variable {inner : VisaStoreInner} {machine next : Machine codec} {now : Nat}
  {plan : WritePlan codec} {repo : Repo codec} {write : MemoryWrite}

theorem MemoryWrite.Safe.mono {smaller : VisaStoreInner} (safe : write.Safe inner)
    (fewer : ∀ (id : Nat) (entry : VisaEntry), smaller.visas[id]? = some entry →
      inner.visas[id]? = some entry) :
    write.Safe smaller := by
  cases write with
  | insert id visa metadata nodeStates ttl =>
    refine Option.eq_none_iff_forall_ne_some.mpr fun entry found => ?_
    have present := fewer id entry found
    rw [show inner.visas[id]? = none from safe] at present
    cases present
  | rewrite id metadata nodeStates dropped =>
    exact fun entry found => safe entry (fewer id entry found)
  | clearNode | remove => trivial

theorem Indexed.clearNode (indexed : inner.Indexed) (node : IpAddr) (ids : List Nat) :
    (ids.foldl (clearNodeEntry node) inner).Indexed := by
  induction ids generalizing inner with
  | nil => exact indexed
  | cons id rest ih =>
    refine ih (Indexed.dropNode indexed id node _ (fun entry _ other => ?_) fun _ _ => rfl)
    exact HashMap.mem_erase

theorem Indexed.applyMemory (indexed : inner.Indexed) (safe : write.Safe inner) :
    (VisaService.applyMemory now inner write).Indexed := by
  cases write with
  | insert id visa metadata nodeStates ttl => exact Indexed.insertEntry indexed safe _
  | remove id => exact Indexed.removeEntry indexed id
  | clearNode node ids => exact Indexed.clearNode indexed node ids
  | rewrite id metadata nodeStates dropped =>
    have ends entry (found : inner.visas[id]? = some entry) := (safe entry found).2
    cases dropped with
    | none =>
      exact Indexed.modifyEntry indexed id _
        (fun entry found node => by simpa using (safe entry found).1 node) ends
    | some node =>
      refine Indexed.dropNode indexed id node _ (fun entry found other => ?_) ends
      rw [(safe entry found).1 other]
      simp [eq_comm]

theorem RepoOp.decide_safe {op : RepoOp} (notNew : op.newId = none)
    (planned : op.decide codec now inner = .write plan) :
    plan.memory.Safe inner ∧ plan.memory.newId = none := by
  cases rewrites : op.rewrite with
  | some target =>
    rw [RepoOp.decide_of_rewrite rewrites] at planned
    obtain ⟨entry, metadata, nodeStates, record, live, changed, -, rfl⟩ :=
      rewriteEntry_eq_write.mp planned
    refine ⟨fun found isFound => ?_, rfl⟩
    rw [(liveEntry_eq_some.mp live).1] at isFound
    cases isFound
    have ⟨nodes, ends, _⟩ := RepoOp.rewrite_domain rewrites changed
    exact ⟨nodes, ends⟩
  | none =>
    cases op with
    | storeVisa => cases notNew
    | removeVisa visaId =>
      cases planned
      exact ⟨trivial, rfl⟩
    | clearNodeState node =>
      obtain ⟨writes, -, rfl⟩ := clearNodeState_eq_write planned
      exact ⟨trivial, rfl⟩
    | _ => cases rewrites

/-- A memory write leaves the visa and the deadline of an entry alone, unless it inserts it. -/
theorem applyMemory_entry {id : Nat} {entry : VisaEntry}
    (found : (VisaService.applyMemory now inner write).visas[id]? = some entry) :
    (∃ before, inner.visas[id]? = some before ∧ entry.visa = before.visa ∧
        entry.deadline = before.deadline) ∨
      ∃ metadata nodeStates ttl, write = .insert id entry.visa metadata nodeStates ttl ∧
        entry.deadline = now + ttl * nanosPerSec := by
  cases write with
  | insert own visa metadata nodeStates ttl =>
    simp only [VisaService.applyMemory, insertEntry_visas] at found
    split at found
    next same =>
      cases found
      exact .inr ⟨metadata, nodeStates, ttl, by rw [same], rfl⟩
    · exact .inl ⟨entry, found, rfl, rfl⟩
  | rewrite own metadata nodeStates dropped =>
    rw [applyMemory_rewrite_visas] at found
    split at found
    next same =>
      obtain ⟨before, isBefore, rfl⟩ := Option.map_eq_some_iff.mp found
      exact .inl ⟨before, same ▸ isBefore, rfl, rfl⟩
    · exact .inl ⟨entry, found, rfl, rfl⟩
  | clearNode node ids =>
    simp only [VisaService.applyMemory, clearNode_visas] at found
    split at found
    · obtain ⟨before, isBefore, rfl⟩ := Option.map_eq_some_iff.mp found
      exact .inl ⟨before, isBefore, rfl, rfl⟩
    · exact .inl ⟨entry, found, rfl, rfl⟩
  | remove own =>
    simp only [VisaService.applyMemory, removeEntry_visas] at found
    split at found
    · cases found
    · exact .inl ⟨entry, found, rfl, rfl⟩

theorem applyMemory_visas_none {id : Nat} (absent : inner.visas[id]? = none)
    (other : write.newId ≠ some id) :
    (VisaService.applyMemory now inner write).visas[id]? = none := by
  refine Option.eq_none_iff_forall_ne_some.mpr fun entry found => ?_
  rcases applyMemory_entry found with ⟨before, isBefore, -⟩ | ⟨_, _, _, rfl, -⟩
  · cases absent.symm.trans isBefore
  · exact other rfl

/-! ### The invariant of the machine -/

/-- What holds of a plan from the moment it is made until it is applied. -/
structure WritePlan.Pending (repo : Repo codec) (plan : WritePlan codec) : Prop where
  safe : plan.memory.Safe repo.store
  spent : ∀ id, plan.memory.newId = some id → repo.Spent id
  persists : ∀ write ∈ plan.redis, ∀ id, write.setId = some id → id ≤ repo.nextVisaId
  undoes : ∀ write ∈ plan.undo, write.setId = none

theorem WritePlan.Pending.mono {next : Repo codec} (pending : plan.Pending repo)
    (fewer : ∀ (id : Nat) (entry : VisaEntry), next.store.visas[id]? = some entry →
      repo.store.visas[id]? = some entry)
    (spent : ∀ id, repo.Spent id → next.Spent id) (grows : repo.nextVisaId ≤ next.nextVisaId) :
    plan.Pending next where
  safe := pending.safe.mono fewer
  spent id isNew := spent id (pending.spent id isNew)
  persists write member id sets := Nat.le_trans (pending.persists write member id sets) grows
  undoes := pending.undoes

def Writer.plans : Writer codec → List (WritePlan codec)
  | .idle => []
  | .awaiting plan => [plan]
  | .written plan => [plan]

def Machine.pending (machine : Machine codec) : List (WritePlan codec) :=
  machine.writer.plans ++ machine.waiting

theorem Machine.send_pending (machine : Machine codec) (plan : WritePlan codec) :
    (machine.send plan).pending = plan :: machine.waiting := by
  simp only [Machine.send, Machine.pending]
  split <;> rfl

/-- A reply of Redis changes records only, to what the plan that was sent writes. -/
theorem Machine.step_redisReply {outcome : RedisOutcome}
    (stepped : machine.step (.redisReply outcome) = some next) :
    ∃ plan redis, plan ∈ machine.pending ∧ next.repo = { machine.repo with redis } ∧
      next.waiting = machine.waiting ∧ next.pending.Sublist machine.pending ∧
      ∀ id item, redis[id]? = some item → machine.repo.redis[id]? = some item ∨
        ∃ ttl, .setEx id item.1 ttl ∈ plan.redis ∨ .setEx id item.1 ttl ∈ plan.undo := by
  simp only [Machine.step] at stepped
  split at stepped
  next plan awaiting =>
    have pending : machine.pending = plan :: machine.waiting := by
      simp [Machine.pending, awaiting, Writer.plans]
    rw [pending]
    cases outcome with
    | applied =>
      cases stepped
      refine ⟨plan, _, List.mem_cons_self, rfl, rfl, .refl _, fun id item found => ?_⟩
      exact (applyRedis_get found).imp_right fun ⟨ttl, sets⟩ => ⟨ttl, .inl sets⟩
    | failed undone =>
      cases stepped
      refine ⟨plan, _, List.mem_cons_self, rfl, rfl, List.sublist_cons_self ..,
        fun id item found => ?_⟩
      split at found
      · exact (applyRedis_get found).imp_right fun ⟨ttl, sets⟩ => ⟨ttl, .inr sets⟩
      · exact .inl found
  · cases stepped

def WritePlan.newId (plan : WritePlan codec) : Option Nat := plan.memory.newId

structure Machine.Inv (machine : Machine codec) : Prop where
  indexed : machine.repo.store.Indexed
  unique : machine.repo.IdsUnique
  persisted : machine.repo.Persisted
  pending : ∀ plan ∈ machine.pending, plan.Pending machine.repo
  stores : ∀ plan ∈ machine.waiting, plan.newId ≠ none
  distinct : (machine.pending.filterMap WritePlan.newId).Nodup

theorem Machine.inv_init (now initialVisaId : Nat) :
    (Machine.init codec now initialVisaId).Inv where
  indexed := indexed_empty
  unique := idsUnique_init now initialVisaId
  persisted id member := by simp [Machine.init, Repo.init] at member
  pending plan member := by simp [Machine.init, Machine.pending, Writer.plans] at member
  stores plan member := by simp [Machine.init] at member
  distinct := by simp [Machine.init, Machine.pending, Writer.plans]

/-- A step of the repository alone that adds no entry keeps the invariant. -/
theorem Machine.Inv.repoStep (inv : machine.Inv) (event : RepoEvent) {next : Repo codec}
    (stepped : machine.repo.step event = some next) (indexed : next.store.Indexed)
    (sameRedis : next.redis = machine.repo.redis)
    (fewer : ∀ (id : Nat) (entry : VisaEntry), next.store.visas[id]? = some entry →
      machine.repo.store.visas[id]? = some entry)
    (grows : machine.repo.nextVisaId ≤ next.nextVisaId) :
    Machine.Inv { machine with repo := next } where
  indexed := indexed
  unique := inv.unique.step stepped
  persisted id member := Nat.le_trans (inv.persisted id (sameRedis ▸ member)) grows
  pending plan member :=
    (inv.pending plan member).mono fewer (fun _ spent => spent.step stepped) grows
  stores := inv.stores
  distinct := inv.distinct

theorem Repo.purgeExpired_indexed (indexed : repo.store.Indexed) :
    repo.purgeExpired.store.Indexed := by
  unfold Repo.purgeExpired
  split
  · exact indexed
  · refine List.foldlRecOn (motive := VisaStoreInner.Indexed) _ _ indexed fun inner kept id _ => ?_
    exact Indexed.removeEntry kept id

theorem Repo.purgeExpired_fewer {id : Nat} {entry : VisaEntry}
    (found : repo.purgeExpired.store.visas[id]? = some entry) :
    repo.store.visas[id]? = some entry := by
  unfold Repo.purgeExpired at found
  split at found
  · exact found
  · rw [purge_visas] at found
    exact (liveEntry_eq_some.mp found).1

variable (inv : machine.Inv)
include inv

private theorem inv_purge :
    Machine.Inv { machine with repo := machine.repo.purgeExpired } := by
  have untouched : machine.repo.purgeExpired.redis = machine.repo.redis ∧
      machine.repo.purgeExpired.nextVisaId = machine.repo.nextVisaId := by
    unfold Repo.purgeExpired
    split <;> exact ⟨rfl, rfl⟩
  exact inv.repoStep .purgeExpired rfl (Repo.purgeExpired_indexed inv.indexed)
    untouched.1 (fun _ _ => Repo.purgeExpired_fewer) (Nat.le_of_eq untouched.2.symm)

private theorem inv_send (idle : machine.writer = .idle)
    (pending : plan.Pending machine.repo) (notNew : plan.newId = none) :
    (machine.send plan).Inv where
  indexed := inv.indexed
  unique := inv.unique
  persisted := inv.persisted
  stores := inv.stores
  pending other member := by
    rw [Machine.send_pending, List.mem_cons] at member
    rcases member with rfl | queued
    · exact pending
    · exact inv.pending other (by simp [Machine.pending, queued])
  distinct := by
    have distinct := inv.distinct
    simp only [Machine.pending, idle, Writer.plans, List.nil_append] at distinct
    simpa [Machine.send_pending, notNew] using distinct

private theorem inv_acquireStore {position : Nat}
    (idle : machine.writer = .idle) (chosen : machine.waiting[position]? = some plan) :
    ({ machine with waiting := machine.waiting.eraseIdx position }.send plan).Inv := by
  obtain ⟨bound, rfl⟩ := List.getElem?_eq_some_iff.mp chosen
  have moved : (({ machine with waiting := machine.waiting.eraseIdx position } :
      Machine codec).send machine.waiting[position]).pending.Perm machine.pending := by
    rw [Machine.send_pending]
    simpa [Machine.pending, idle, Writer.plans] using List.getElem_cons_eraseIdx_perm bound
  exact
    { indexed := inv.indexed
      unique := inv.unique
      persisted := inv.persisted
      pending := fun other member => inv.pending other (moved.mem_iff.mp member)
      stores := fun other member => inv.stores other (List.mem_of_mem_eraseIdx member)
      distinct := (moved.filterMap _).nodup_iff.mpr inv.distinct }

private theorem inv_claim {left : HashSet Nat}
    (fewer : ∀ id, id ∈ left → id ∈ machine.repo.handedOut) :
    Machine.Inv { machine with repo := { machine.repo with handedOut := left } } where
  indexed := inv.indexed
  unique :=
    { stored := fun id entry found =>
        ⟨(inv.unique.stored id entry found).1,
          fun member => (inv.unique.stored id entry found).2 (fewer id member)⟩
      handed := fun id member => inv.unique.handed id (fewer id member) }
  persisted := inv.persisted
  pending plan member :=
    (inv.pending plan member).mono (fun _ _ found => found)
      (fun id spent => ⟨spent.1, fun handed => spent.2 (fewer id handed)⟩) (Nat.le_refl _)
  stores := inv.stores
  distinct := inv.distinct

private theorem inv_prepareStore {visa : Visa} {metadata : VisaMetadata}
    {nstate : NodeVisaState}
    (stepped : machine.step (.prepareStore visa metadata nstate) = some next) : next.Inv := by
  obtain ⟨claimed, claims, rfl⟩ := Option.map_eq_some_iff.mp stepped
  obtain ⟨handed, left, rfl, leftIff⟩ := Repo.claimId_eq_some claims
  have claimedInv := inv_claim inv fun id member => ((leftIff id).mp member).1
  have own := handed visa.issuerId rfl
  cases decided : storeVisa codec machine.repo.now visa metadata nstate with
  | done reply => simpa only [decided] using claimedInv
  | write plan =>
    obtain ⟨-, record, -, rfl⟩ := storeVisa_eq_write.mp decided
    have unhanded : visa.issuerId ∉ left := fun member => ((leftIff _).mp member).2 rfl
    have absent : machine.repo.store.visas[visa.issuerId]? = none :=
      Option.eq_none_iff_forall_ne_some.mpr fun entry found =>
        (inv.unique.stored _ entry found).2 own
    refine { claimedInv with pending := ?_, stores := ?_, distinct := ?_ }
    · intro plan member
      simp only [Machine.pending, ← List.append_assoc, List.mem_append, List.mem_singleton]
        at member
      rcases member with queued | rfl
      · exact claimedInv.pending plan (List.mem_append.mpr queued)
      · exact ⟨absent, by rintro _ ⟨⟩; exact ⟨inv.unique.handed _ own, unhanded⟩,
          by simpa [RedisWrite.setId] using inv.unique.handed _ own, by simp [RedisWrite.setId]⟩
    · intro plan member
      rcases List.mem_append.mp member with queued | added
      · exact inv.stores plan queued
      · simp [List.mem_singleton.mp added, WritePlan.newId, MemoryWrite.newId]
    · -- the claimed id was still handed out, the pending ones are spent
      have newest : visa.issuerId ∉ machine.pending.filterMap WritePlan.newId := by
        intro member
        obtain ⟨plan, queued, isNew⟩ := List.mem_filterMap.mp member
        exact ((inv.pending plan queued).spent _ isNew).2 own
      simp only [Machine.pending, ← List.append_assoc, List.filterMap_append]
      rw [← List.filterMap_append]
      refine List.Nodup.append inv.distinct (by simp [WritePlan.newId, MemoryWrite.newId]) ?_
      simpa [WritePlan.newId, MemoryWrite.newId, Machine.pending] using newest

private theorem inv_acquire {op : RepoOp}
    (stepped : machine.step (.acquire op) = some next) : next.Inv := by
  simp only [Machine.step] at stepped
  split at stepped
  next idle notNew =>
    split at stepped
    · cases stepped
      exact inv
    next plan planned =>
      cases stepped
      obtain ⟨safe, adds⟩ := RepoOp.decide_safe notNew planned
      obtain ⟨keys, undoes⟩ := RepoOp.decide_redis planned
      refine inv_send inv idle ⟨safe, by simp [adds], fun write member id sets => ?_, undoes⟩ adds
      rcases keys write member id sets with own | ⟨entry, found⟩
      · simp [notNew] at own
      · exact (inv.unique.stored id entry found).1
  · cases stepped

private theorem inv_redisReply {outcome : RedisOutcome}
    (stepped : machine.step (.redisReply outcome) = some next) :
    next.Inv := by
  obtain ⟨plan, redis, sent, isRepo, waits, fewer, rows⟩ := Machine.step_redisReply stepped
  obtain ⟨_, _, writer⟩ := next
  cases isRepo
  cases waits
  have own := inv.pending plan sent
  refine ⟨inv.indexed, ⟨inv.unique.stored, inv.unique.handed⟩, fun id member => ?_,
    fun other member => ?_, inv.stores, inv.distinct.sublist (fewer.filterMap _)⟩
  · obtain ⟨item, found⟩ := HashMap.get_of_mem member
    rcases rows id item found with kept | ⟨ttl, sets | undoes⟩
    · exact inv.persisted id (HashMap.mem_of_get kept)
    · exact own.persists _ sets id rfl
    · cases own.undoes _ undoes
  · exact { inv.pending other (fewer.subset member) with }

private theorem inv_applyMemory (stepped : machine.step .applyMemory = some next) : next.Inv := by
  simp only [Machine.step] at stepped
  split at stepped
  next plan written =>
    cases stepped
    have own := inv.pending plan (by simp [Machine.pending, written, Writer.plans])
    have distinct := inv.distinct
    simp only [Machine.pending, written, Writer.plans, List.filterMap_append] at distinct
    refine ⟨Indexed.applyMemory inv.indexed own.safe, ⟨fun id entry found => ?_, inv.unique.handed⟩,
      inv.persisted, fun other member => ?_, inv.stores, distinct.of_append_right⟩
    · cases before : machine.repo.store.visas[id]? with
      | some old => exact inv.unique.stored id old before
      | none =>
        by_cases isNew : plan.memory.newId = some id
        · exact own.spent id isNew
        · simp [applyMemory_visas_none before isNew] at found
    · have waits : other ∈ machine.waiting := by
        simpa [Machine.pending, Writer.plans] using member
      have same := inv.pending other (List.mem_append.mpr (.inr waits))
      refine { same with safe := ?_ }
      -- the others are stores of other ids
      cases memory : other.memory with
      | insert id visa metadata nodeStates ttl =>
        have absent : machine.repo.store.visas[id]? = none := by
          have safe := same.safe
          rwa [memory] at safe
        refine applyMemory_visas_none absent fun clash => ?_
        refine (List.nodup_append.mp distinct).2.2 id ?_ id ?_ rfl
        · exact List.mem_filterMap.mpr ⟨plan, by simp, clash⟩
        · exact List.mem_filterMap.mpr ⟨other, waits, by simp [WritePlan.newId, memory,
            MemoryWrite.newId]⟩
      | _ =>
        exact absurd (by simp [WritePlan.newId, memory, MemoryWrite.newId])
          (inv.stores other waits)
  · cases stepped

private theorem inv_restart :
    Machine.Inv ⟨machine.repo.restart, [], .idle⟩ where
  indexed := restoreFromState_indexed _ _
  unique := inv.persisted.idsUnique_restart
  persisted := inv.persisted.restart
  pending := by simp [Machine.pending, Writer.plans]
  stores := by simp
  distinct := by simp [Machine.pending, Writer.plans]

theorem Machine.Inv.step {event : MachineEvent}
    (stepped : machine.step event = some next) : next.Inv := by
  cases event with
  | tick nanos =>
    cases stepped
    exact inv.repoStep (.tick nanos) rfl inv.indexed rfl (fun _ _ found => found) (Nat.le_refl _)
  | getNextVisaId =>
    cases stepped
    exact inv.repoStep .getNextVisaId rfl inv.indexed rfl (fun _ _ found => found)
      (Nat.le_succ _)
  | purgeExpired =>
    cases stepped
    exact inv_purge inv
  | prepareStore visa metadata nstate => exact inv_prepareStore inv stepped
  | acquireStore position =>
    simp only [Machine.step] at stepped
    split at stepped
    next idle chosen =>
      cases stepped
      exact inv_acquireStore inv idle chosen
    · cases stepped
  | acquire op => exact inv_acquire inv stepped
  | redisReply outcome => exact inv_redisReply inv stepped
  | applyMemory => exact inv_applyMemory inv stepped
  | restart =>
    cases stepped
    exact inv_restart inv

omit inv

/-- In every state any interleaving of the writers, purges and restarts reaches, both
indexes are exact and have no empty row. -/
theorem store_indexed_of_reachable {now initialVisaId : Nat} {machine : Machine codec}
    {events : List MachineEvent}
    (reached : run Machine.step (Machine.init codec now initialVisaId) events = some machine) :
    (∀ node id, machine.repo.store.byNode.Holds node id ↔
        ∃ entry, machine.repo.store.visas[id]? = some entry ∧ node ∈ entry.nodeStates) ∧
      (∀ actor id, machine.repo.store.byActor.Holds actor id ↔
        ∃ entry, machine.repo.store.visas[id]? = some entry ∧
          (actor = entry.metadata.fiveTuple.sourceAddr ∨
            actor = entry.metadata.fiveTuple.destAddr)) ∧
      machine.repo.store.byNode.NoEmptyRow ∧ machine.repo.store.byActor.NoEmptyRow := by
  have inv := run_preserves (fun _ _ _ inv stepped => Machine.Inv.step inv stepped)
    (Machine.inv_init now initialVisaId) reached
  refine ⟨inv.indexed.byNode, fun actor id => ?_, inv.indexed.nodeRows, inv.indexed.actorRows⟩
  simpa [VisaMetadata.endpoints] using inv.indexed.byActor actor id

open Sample in
/-- A node drops its revoked visa while the visa runs out: the purge falls between the Redis
write and the change in memory. -/
def purgeInGap : List MachineEvent :=
  [.getNextVisaId, .prepareStore visa metadata .pendingRevoke, .acquireStore 0,
    .redisReply .applied, .applyMemory, .acquire (.removeNodeIfPendingRevoke node 1),
    .redisReply .applied, .tick (3600 * nanosPerSec), .purgeExpired, .applyMemory]

theorem store_indexed_after_purgeInGap :
    ∃ machine, run Machine.step (Machine.init .plain 0 0) purgeInGap = some machine ∧
      machine.repo.store.byNode.NoEmptyRow ∧ machine.repo.store.byActor.NoEmptyRow := by
  obtain ⟨machine, ran⟩ :
      ∃ machine, run Machine.step (Machine.init .plain 0 0) purgeInGap = some machine := ⟨_, rfl⟩
  exact ⟨machine, ran, (store_indexed_of_reachable ran).2.2⟩

end VisaService
