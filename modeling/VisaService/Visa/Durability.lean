import VisaService.Visa.Restore

/-!
# Memory against what a restart would load

A visa expires by a deadline in memory and by a TTL in Redis, both in whole seconds and both
rounded down from the visa's expiry at different moments. An operation takes time: Redis gets its
write after the lifetime was measured, and memory follows when Redis has replied. `Backs` is what
the two keep in common. Whatever a restart loads is live in memory, and it loads every visa that
memory reports live three seconds before its expiry.
-/
namespace VisaService

open Lib

variable {codec : VisaCodec}

/-- Events over the life of a database: one process after another runs on it. -/
inductive LifeEvent where
  | running (event : RepoEvent)
  | restart

def Repo.lifeStep (repo : Repo codec) : LifeEvent → Option (Repo codec)
  | .running event => repo.step event
  | .restart => some repo.restart

namespace Repo

/-- One operation that takes time: Redis gets its write `sending` after the clock was read for it,
and memory changes `applying` after that. -/
def slowCall (repo : Repo codec) (op : RepoOp) (outcome : RedisOutcome) (sending applying : Nat) :
    Repo codec × Except StoreError Bool :=
  let sent := { repo with now := repo.now + sending }
  let applied := { repo with now := repo.now + sending + applying }
  match op.decide codec repo.now repo.store with
  | .done reply => (applied, reply)
  | .write plan =>
    let (inMemory, reply) := applied.commit plan outcome
    ({ inMemory with redis := (sent.commit plan outcome).1.redis }, reply)

end Repo

inductive SlowEvent where
  | life (event : LifeEvent)
  | call (op : RepoOp) (outcome : RedisOutcome) (sending applying : Nat)

def Repo.slowStep (repo : Repo codec) : SlowEvent → Option (Repo codec)
  | .life event => repo.lifeStep event
  | .call op outcome sending applying =>
    (repo.claimId op).map fun claimed => (claimed.slowCall op outcome sending applying).1

/-- The persisted record, with the instant its TTL fires, backs the entry in memory. -/
structure Backs (codec : VisaCodec) (now : Nat) (entry : VisaEntry)
    (record : VisaRecord codec.Blob) (firesAt : Nat) : Prop where
  visa : ∃ loaded, codec.decode record.blob = .ok loaded ∧ entry.visa.SameUpToSecond loaded
  metadata : record.metadata = entry.metadata.wholeSecs
  -- a clear skips the rewrite of an entry that is no longer live
  nodeStates : entry.isLive now = true → record.nodeStates = entry.nodeStates
  deadlineLt : entry.visa.expires < entry.deadline + nanosPerSec
  fires : entry.visa.expires < firesAt + 2 * nanosPerSec

/-- A record without an entry in memory: its TTL fired, or its visa is about to expire. -/
structure Leftover (codec : VisaCodec) (now : Nat) (record : VisaRecord codec.Blob)
    (firesAt : Nat) : Prop where
  metadata : record.metadata.wholeSecs = record.metadata
  ending : firesAt ≤ now ∨ ∀ visa, codec.decode record.blob = .ok visa →
    visa.expires < now + 2 * nanosPerSec

/-- How the entry of an id and its persisted record relate at any moment. -/
def Synced (codec : VisaCodec) (now : Nat) :
    Option VisaEntry → Option (VisaRecord codec.Blob × Nat) → Prop
  | some entry, some (record, firesAt) => Backs codec now entry record firesAt
  | some _, none => False
  | none, some (record, firesAt) => Leftover codec now record firesAt
  | none, none => True

def Repo.Synced (repo : Repo codec) : Prop :=
  ∀ id : Nat, VisaService.Synced codec repo.now repo.store.visas[id]? repo.redis[id]?

theorem rounded_rounded (nanos : Nat) :
    ((nanos + 500000000) / nanosPerSec * nanosPerSec + 500000000) / nanosPerSec * nanosPerSec =
      (nanos + 500000000) / nanosPerSec * nanosPerSec := by
  generalize (nanos + 500000000) / nanosPerSec = secs
  unfold nanosPerSec
  omega

@[simp] theorem VisaMetadata.wholeSecs_wholeSecs (metadata : VisaMetadata) :
    metadata.wholeSecs.wholeSecs = metadata.wholeSecs := by
  unfold wholeSecs
  dsimp only
  rw [rounded_rounded]

theorem Visa.SameUpToSecond.refl (visa : Visa) : visa.SameUpToSecond visa :=
  ⟨Nat.le_refl _, by simp [nanosPerSec], rfl⟩

/-! ### What the single changes do -/

variable {now firesAt visaId : Nat} {item : Option (VisaRecord codec.Blob × Nat)}
variable {entry : VisaEntry} {record : VisaRecord codec.Blob} {nodeStates : NodeStates}
variable {op : RepoOp}

theorem Synced.later {later : Nat} {entry : Option VisaEntry} (synced : Synced codec now entry item)
    (after : now ≤ later) : Synced codec later entry item := by
  match entry, item, synced with
  | some entry, some (record, firesAt), backs =>
    refine { backs with nodeStates := fun live => backs.nodeStates ?_ }
    rw [VisaEntry.isLive_iff] at live ⊢
    omega
  | none, some (record, firesAt), left =>
    refine ⟨left.metadata, left.ending.imp (fun fired => Nat.le_trans fired after) ?_⟩
    intro ending visa decoded
    have bound := ending visa decoded
    omega
  | none, none, _ => trivial

theorem Synced.backs (synced : Synced codec now (some entry) item) :
    ∃ record firesAt, item = some (record, firesAt) ∧ Backs codec now entry record firesAt := by
  match item, synced with
  | some (record, firesAt), backs => exact ⟨record, firesAt, rfl, backs⟩

theorem Backs.leftover (backs : Backs codec now entry record firesAt)
    (dead : entry.isLive now = false) : Leftover codec now record firesAt := by
  refine ⟨by rw [backs.metadata, VisaMetadata.wholeSecs_wholeSecs], .inr fun visa decoded => ?_⟩
  obtain ⟨loaded, read, same⟩ := backs.visa
  rw [decoded] at read
  cases read
  have expired : ¬ now + nanosPerSec ≤ entry.deadline := fun live => by
    simp [VisaEntry.isLive_iff.mpr live] at dead
  have early := same.early
  have deadline := backs.deadlineLt
  omega

/-- A record backs its entry if it was written under a lifetime that was rounded down once. -/
theorem Backs.of_write (lawful : codec.Lawful) (now : Nat) (entry : VisaEntry)
    (built : buildRecord codec entry.visa entry.metadata entry.nodeStates = .ok record)
    (deadlineLt : entry.visa.expires < entry.deadline + nanosPerSec)
    (fires : entry.visa.expires < firesAt + 2 * nanosPerSec) :
    Backs codec now entry record firesAt := by
  obtain ⟨blob, encoded, rfl⟩ := buildRecord_eq_ok.mp built
  exact ⟨lawful _ _ encoded, rfl, fun _ => rfl, deadlineLt, fires⟩

/-- The remaining whole seconds are counted from the moment Redis gets them. -/
theorem fires_of_remainingSecs {sentAt deadline expires : Nat} (sent : now ≤ sentAt)
    (deadlineLt : expires < deadline + nanosPerSec) :
    expires < sentAt + remainingSecs now deadline * nanosPerSec + 2 * nanosPerSec := by
  simp only [remainingSecs, nanosPerSec] at deadlineLt ⊢
  omega

theorem Backs.of_load {before : Option VisaEntry}
    (synced : Synced codec now before (some (record, firesAt)))
    (loads : loadRecord codec now (record, firesAt) = some entry) :
    Backs codec now entry record firesAt := by
  obtain ⟨unfired, visa, read, lives, rfl⟩ := loadRecord_eq_some.mp loads
  have wholeSecs : record.metadata.wholeSecs = record.metadata := by
    match before, synced with
    | some old, backs => rw [backs.metadata, VisaMetadata.wholeSecs_wholeSecs]
    | none, left => exact left.metadata
  have fires : visa.expires < firesAt + 2 * nanosPerSec := by
    match before, synced with
    | some old, backs =>
      obtain ⟨loaded, read', same⟩ := backs.visa
      rw [read] at read'
      cases read'
      exact Nat.lt_of_le_of_lt same.early backs.fires
    | none, left =>
      rcases left.ending with fired | ending
      · omega
      · have bound := ending visa read
        omega
  exact ⟨⟨visa, read, .refl visa⟩, wholeSecs.symm, fun _ => rfl,
    lt_now_add_secondsUntil now visa.expires, fires⟩

/-! ### Calls -/

/-- A batch of sets leaves a key alone that it does not name, and otherwise stores one of
the records it has for the key. -/
theorem applyRedis_sets {writes : List (RedisWrite codec)}
    (onlySets : ∀ write ∈ writes, write.setId ≠ none) (redis : Redis codec) (id : Nat) :
    ((applyRedis now redis writes)[id]? = redis[id]? ∧
        ∀ record ttl, RedisWrite.setEx id record ttl ∉ writes) ∨
      ∃ record ttl, RedisWrite.setEx id record ttl ∈ writes ∧
        (applyRedis now redis writes)[id]? = some (record, now + ttl * nanosPerSec) := by
  induction writes generalizing redis with
  | nil => exact .inl ⟨rfl, by simp⟩
  | cons write rest ih =>
    cases write with
    | del own => exact absurd rfl (onlySets (.del own) (by simp))
    | setEx own record ttl =>
      have restSets : ∀ write ∈ rest, write.setId ≠ none := fun write member =>
        onlySets write (by simp [member])
      rcases ih restSets (applyRedisWrite now redis (.setEx own record ttl)) with
        ⟨kept, absent⟩ | ⟨later, laterTtl, member, written⟩
      · simp only [applyRedisWrite, HashMap.get_insert] at kept
        by_cases same : own = id
        · subst same
          rw [if_pos rfl] at kept
          exact .inr ⟨record, ttl, by simp, kept⟩
        · rw [if_neg same] at kept
          refine .inl ⟨kept, fun other otherTtl member => ?_⟩
          rcases List.mem_cons.mp member with clash | member
          · cases clash
            exact same rfl
          · exact absent other otherTtl member
      · exact .inr ⟨later, laterTtl, by simp [member], written⟩

section Timed

variable {repo : Repo codec} (synced : repo.Synced) {sentAt later : Nat}
include synced

theorem Repo.Synced.wait (after : repo.now ≤ later) :
    Repo.Synced { repo with now := later } :=
  fun id => (synced id).later after

private theorem synced_rewrite (lawful : codec.Lawful) (sent : repo.now ≤ sentAt)
    (applied : sentAt ≤ later) {metadata : Option VisaMetadata} {dropped : Option IpAddr}
    (live : liveEntry repo.now repo.store visaId = some entry)
    (built : buildRecord codec entry.visa (metadata.getD entry.metadata) nodeStates = .ok record) :
    Repo.Synced { repo with
      now := later
      redis := applyRedis sentAt repo.redis
        [.setEx visaId record (remainingSecs repo.now entry.deadline)]
      store := applyMemory later repo.store (.rewrite visaId metadata nodeStates dropped) } := by
  intro id
  have found := (liveEntry_eq_some.mp live).1
  simp only [applyMemory_rewrite_visas, applyRedis, List.foldl_cons, List.foldl_nil,
    applyRedisWrite, HashMap.get_insert]
  split
  next same =>
    subst same
    have before := synced visaId
    rw [found] at before ⊢
    obtain ⟨_, _, -, backs⟩ := before.backs
    exact Backs.of_write lawful later
      { entry with metadata := metadata.getD entry.metadata, nodeStates } built
      backs.deadlineLt (fires_of_remainingSecs sent backs.deadlineLt)
  · exact synced.wait (sent.trans applied) id

private theorem synced_store (lawful : codec.Lawful) (sent : repo.now ≤ sentAt)
    (applied : sentAt ≤ later) {visa : Visa} {metadata : VisaMetadata}
    (built : buildRecord codec visa metadata nodeStates = .ok record) :
    Repo.Synced { repo with
      now := later
      redis := applyRedis sentAt repo.redis
        [.setEx visa.issuerId record (secondsUntil repo.now visa.expires)]
      store := applyMemory later repo.store
        (.insert visa.issuerId visa metadata nodeStates (secondsUntil repo.now visa.expires)) } := by
  intro id
  simp only [applyMemory, insertEntry_visas, applyRedis, List.foldl_cons, List.foldl_nil,
    applyRedisWrite, HashMap.get_insert]
  split
  · have measured := lt_now_add_secondsUntil repo.now visa.expires
    exact Backs.of_write lawful later ⟨visa, metadata, _, nodeStates⟩ built (by dsimp only; omega)
      (by dsimp only; omega)
  · exact synced.wait (sent.trans applied) id

private theorem synced_clear (lawful : codec.Lawful) (sent : repo.now ≤ sentAt)
    (applied : sentAt ≤ later) {node : IpAddr} {ids : List Nat}
    {writes : List (Nat × Option (VisaRecord codec.Blob × Nat))}
    (collected : clearNodeWrites codec repo.now repo.store node ids = .ok writes) :
    Repo.Synced { repo with
      now := later
      redis := applyRedis sentAt repo.redis (writes.filterMap fun (id, write) =>
        write.map fun (record, ttl) => .setEx id record ttl)
      store := applyMemory later repo.store (.clearNode node (writes.map Prod.fst)) } := by
  intro id
  have isSet : ∀ record ttl, RedisWrite.setEx id record ttl ∈ (writes.filterMap fun (id, write) =>
      write.map fun (record, ttl) => RedisWrite.setEx id record ttl) ↔
        (id, some (record, ttl)) ∈ writes := by
    intro record ttl
    simp [List.mem_filterMap]
  have onlySets : ∀ write ∈ (writes.filterMap fun (id, write) =>
      write.map fun (record, ttl) => RedisWrite.setEx id record ttl), write.setId ≠ none := by
    intro write member
    simp only [List.mem_filterMap, Prod.exists, Option.map_eq_some_iff] at member
    obtain ⟨_, _, -, _, _, -, rfl⟩ := member
    simp [RedisWrite.setId]
  have after := sent.trans applied
  simp only [applyMemory, clearNode_visas]
  rcases applyRedis_sets onlySets repo.redis id with ⟨kept, unset⟩ | ⟨record, ttl, sets, written⟩
  · rw [kept]
    split
    next member =>
      -- a visa that lists the node and was not rewritten is no longer live
      have before := synced id
      obtain ⟨⟨_, write⟩, isWrite, rfl⟩ := List.mem_map.mp member
      obtain ⟨entry, found, -, ⟨dead, rfl⟩ | ⟨-, record, -, rfl⟩⟩ :=
        clearNodeWrites_spec collected isWrite
      · rw [found] at before ⊢
        obtain ⟨record, firesAt, item, backs⟩ := before.backs
        rw [item]
        refine { backs with nodeStates := fun live => ?_ }
        rw [VisaEntry.isLive_iff] at live
        rw [VisaEntry.isLive_iff.mpr (by dsimp only at live; omega)] at dead
        cases dead
      · exact absurd ((isSet _ _).mpr isWrite) (unset _ _)
    · exact synced.wait after id
  · have isWrite := (isSet record ttl).mp sets
    obtain ⟨entry, found, -, ⟨-, none⟩ | ⟨live, built, isBuilt, same⟩⟩ :=
      clearNodeWrites_spec collected isWrite
    · cases none
    · cases same
      have before := synced id
      rw [if_pos (List.mem_map.mpr ⟨_, isWrite, rfl⟩), written]
      rw [found] at before ⊢
      obtain ⟨_, _, -, backs⟩ := before.backs
      exact Backs.of_write lawful later
        { entry with nodeStates := entry.nodeStates.erase node } isBuilt
        backs.deadlineLt (fires_of_remainingSecs sent backs.deadlineLt)

/-- Deleting the key of an id that has no entry in memory, or loses it too. -/
private theorem synced_del (after : repo.now ≤ later) {store : VisaStoreInner}
    (absent : store.visas[visaId]? = none)
    (same : ∀ id : Nat, visaId ≠ id → store.visas[id]? = repo.store.visas[id]?) :
    Repo.Synced { repo with
      now := later, redis := applyRedis sentAt repo.redis [.del visaId], store } := by
  intro id
  simp only [applyRedis, List.foldl_cons, List.foldl_nil, applyRedisWrite, HashMap.get_erase]
  split
  next own =>
    rw [← own, absent]
    trivial
  next other =>
    rw [same id other]
    exact synced.wait after id

end Timed

/-- How a slow operation ends. -/
theorem Repo.slowCall_cases (repo : Repo codec) (op : RepoOp) (outcome : RedisOutcome)
    (sending applying : Nat) :
    let later := repo.now + sending + applying
    (repo.slowCall op outcome sending applying).1 = { repo with now := later } ∨
      ∃ plan, op.decide codec repo.now repo.store = .write plan ∧
        ((repo.slowCall op outcome sending applying).1 = { repo with
            now := later, redis := applyRedis (repo.now + sending) repo.redis plan.undo } ∨
          (repo.slowCall op outcome sending applying).1 = { repo with
            now := later
            redis := applyRedis (repo.now + sending) repo.redis plan.redis
            store := applyMemory later repo.store plan.memory }) := by
  unfold Repo.slowCall
  split
  · exact .inl rfl
  next plan planned =>
    unfold Repo.commit
    by_cases applied : plan.redis.isEmpty ∨ outcome = .applied
    · refine .inr ⟨plan, planned, .inr ?_⟩
      simp only [if_pos applied]
    · by_cases undone : outcome = .failed true
      · refine .inr ⟨plan, planned, .inl ?_⟩
        simp only [if_neg applied, if_pos undone]
      · refine .inl ?_
        simp only [if_neg applied, if_neg undone]

theorem Repo.Synced.slowCall (lawful : codec.Lawful) {repo : Repo codec} (synced : repo.Synced)
    (fresh : ∀ own : Nat, op.newId = some own → repo.store.visas[own]? = none)
    (outcome : RedisOutcome) (sending applying : Nat) :
    (repo.slowCall op outcome sending applying).1.Synced := by
  have sent := Nat.le_add_right repo.now sending
  have applied := Nat.le_add_right (repo.now + sending) applying
  have after := sent.trans applied
  rcases repo.slowCall_cases op outcome sending applying with kept | ⟨plan, planned, ended⟩
  · rw [kept]
    exact synced.wait after
  cases rewrites : op.rewrite with
  | some target =>
    rw [RepoOp.decide_of_rewrite rewrites] at planned
    obtain ⟨entry, metadata, nodeStates, record, live, -, built, rfl⟩ :=
      rewriteEntry_eq_write.mp planned
    rcases ended with ended | ended <;> rw [ended]
    · exact synced.wait after
    · exact synced_rewrite synced lawful sent applied live built
  | none =>
    cases op with
    | storeVisa visa metadata nstate =>
      obtain ⟨-, record, built, rfl⟩ := storeVisa_eq_write.mp planned
      rcases ended with ended | ended <;> rw [ended]
      · exact synced_del synced after (fresh _ rfl) fun _ _ => rfl
      · exact synced_store synced lawful sent applied built
    | removeVisa visaId =>
      cases planned
      rcases ended with ended | ended <;> rw [ended]
      · exact synced.wait after
      · exact synced_del synced after (by simp [applyMemory]) fun id other => by
          simp [applyMemory, other]
    | clearNodeState node =>
      obtain ⟨writes, collected, rfl⟩ := clearNodeState_eq_write planned
      rcases ended with ended | ended <;> rw [ended]
      · exact synced.wait after
      · exact synced_clear synced lawful sent applied collected
    | _ => cases rewrites

/-! ### Ids -/

/-- Which ids memory has does not depend on the moment of the write. -/
theorem applyMemory_ids (inner : VisaStoreInner) (write : MemoryWrite) (one two id : Nat) :
    (applyMemory one inner write).visas[id]?.isSome =
      (applyMemory two inner write).visas[id]?.isSome := by
  cases write with
  | insert own visa metadata nodeStates ttl =>
    simp only [applyMemory, insertEntry_visas]
    split
    · rw [Option.isSome_some, Option.isSome_some]
    · rfl
  | rewrite | clearNode | remove => simp only [applyMemory]

theorem applyRedis_ids (redis : Redis codec) (writes : List (RedisWrite codec)) (one two id : Nat)
    (same : Redis codec) (ids : id ∈ redis ↔ id ∈ same) :
    id ∈ applyRedis one redis writes ↔ id ∈ applyRedis two same writes := by
  induction writes generalizing redis same with
  | nil => exact ids
  | cons write rest ih =>
    refine ih _ _ ?_
    cases write with
    | setEx own record ttl => simp [applyRedisWrite, ids]
    | del own => simp [applyRedisWrite, ids]

theorem Repo.slowCall_ids (repo : Repo codec) (op : RepoOp) (outcome : RedisOutcome)
    (sending applying : Nat) :
    let slow := (repo.slowCall op outcome sending applying).1
    let quick := (repo.call op outcome).1
    slow.nextVisaId = quick.nextVisaId ∧ slow.handedOut = quick.handedOut ∧
      (∀ id : Nat, slow.store.visas[id]?.isSome = quick.store.visas[id]?.isSome) ∧
      ∀ id : Nat, id ∈ slow.redis ↔ id ∈ quick.redis := by
  cases planned : op.decide codec repo.now repo.store with
  | done reply => simp only [Repo.slowCall, Repo.call, planned, implies_true, and_self]
  | write plan =>
    simp only [Repo.slowCall, Repo.call, Repo.commit, planned]
    by_cases applied : plan.redis.isEmpty ∨ outcome = .applied
    · simp only [if_pos applied]
      exact ⟨trivial, trivial, applyMemory_ids _ _ _ _, fun id =>
        applyRedis_ids _ _ _ _ id _ Iff.rfl⟩
    · simp only [if_neg applied]
      refine ⟨trivial, trivial, fun _ => trivial, fun id => ?_⟩
      split
      · exact applyRedis_ids _ _ _ _ id _ Iff.rfl
      · exact Iff.rfl

/-! ### Whole lives -/

/-- What holds of a repository throughout the life of its database. -/
structure Repo.Durable (repo : Repo codec) : Prop where
  synced : repo.Synced
  unique : repo.IdsUnique
  persisted : repo.Persisted

theorem Repo.durable_init (now initialVisaId : Nat) :
    (Repo.init codec now initialVisaId).Durable where
  synced id := by simp [Repo.init, VisaStoreInner.empty, VisaService.Synced]
  unique := idsUnique_init now initialVisaId
  persisted id member := by simp [Repo.init] at member

private theorem synced_purge {repo : Repo codec} (synced : repo.Synced) :
    repo.purgeExpired.Synced := by
  unfold Repo.purgeExpired
  split
  · exact synced
  intro id
  have before := synced id
  simp only [purge_visas]
  cases found : repo.store.visas[id]? with
  | none =>
    rw [found] at before
    simpa [liveEntry, found] using before
  | some entry =>
    rw [found] at before
    cases live : entry.isLive repo.now with
    | true => simpa [liveEntry, found, live, Option.filter] using before
    | false =>
      obtain ⟨record, firesAt, item, backs⟩ := before.backs
      simpa [liveEntry, found, live, Option.filter, item, VisaService.Synced] using
        backs.leftover live

private theorem synced_restart {repo : Repo codec} (synced : repo.Synced) :
    repo.restart.Synced := by
  intro id
  have before := synced id
  simp only [Repo.restart, restoreFromState_visas, restoreFromState_redis]
  cases persisted : repo.redis[id]? with
  | none => simp [VisaService.Synced]
  | some item =>
    rw [persisted] at before
    cases loads : loadRecord codec repo.now item with
    | some entry =>
      simpa [loads, Option.filter, VisaService.Synced] using Backs.of_load before loads
    | none =>
      by_cases fired : item.2 ≤ repo.now
      · -- the TTL fired, so nothing will load this record any more
        have wholeSecs : item.1.metadata.wholeSecs = item.1.metadata := by
          cases found : repo.store.visas[id]? with
          | none =>
            rw [found] at before
            exact before.metadata
          | some old =>
            rw [found] at before
            obtain ⟨_, _, same, backs⟩ := before.backs
            cases same
            rw [backs.metadata, VisaMetadata.wholeSecs_wholeSecs]
        simpa [loads, Option.filter, fired, VisaService.Synced] using
          Leftover.mk wholeSecs (.inl fired)
      · simp [loads, Option.filter, fired, VisaService.Synced]

theorem Repo.Durable.slowCall (lawful : codec.Lawful) {repo next : Repo codec}
    (durable : repo.Durable) {outcome : RedisOutcome} {sending applying : Nat}
    (stepped : repo.slowStep (.call op outcome sending applying) = some next) : next.Durable := by
  obtain ⟨claimed, claims, rfl⟩ := Option.map_eq_some_iff.mp stepped
  have quick : repo.step (.call op outcome) = some (claimed.call op outcome).1 := by
    rw [Repo.step, claims, Option.map_some]
  have unique := durable.unique.step quick
  have persisted := durable.persisted.step durable.unique quick
  obtain ⟨counter, handedOut, stored, keys⟩ :=
    claimed.slowCall_ids op outcome sending applying
  obtain ⟨handed, left, rfl, -⟩ := Repo.claimId_eq_some claims
  refine ⟨?_, ⟨fun id entry found => ?_, fun id member => ?_⟩, fun id member => ?_⟩
  · have claimed : Repo.Synced { repo with handedOut := left } := durable.synced
    refine claimed.slowCall lawful (fun own isNew => ?_) outcome sending applying
    exact Option.eq_none_iff_forall_ne_some.mpr fun entry found =>
      (durable.unique.stored own entry found).2 (handed own isNew)
  · have quickly := stored id
    rw [found] at quickly
    obtain ⟨quickEntry, isQuick⟩ := Option.isSome_iff_exists.mp quickly.symm
    obtain ⟨passed, gone⟩ := unique.stored id quickEntry isQuick
    exact ⟨counter ▸ passed, handedOut ▸ gone⟩
  · rw [handedOut] at member
    exact counter ▸ unique.handed id member
  · exact counter ▸ persisted id ((keys id).mp member)

/-- An operation that takes no time. -/
theorem Repo.call_eq_slowCall (repo : Repo codec) (op : RepoOp) (outcome : RedisOutcome) :
    repo.call op outcome = repo.slowCall op outcome 0 0 := by
  cases planned : op.decide codec repo.now repo.store with
  | done reply => simp only [Repo.slowCall, Repo.call, planned, Nat.add_zero]
  | write plan =>
    simp only [Repo.slowCall, Repo.call, Repo.commit, planned, Nat.add_zero]

theorem Repo.Durable.slowStep (lawful : codec.Lawful) {repo next : Repo codec}
    {event : SlowEvent} (durable : repo.Durable) (stepped : repo.slowStep event = some next) :
    next.Durable := by
  cases event with
  | call op outcome sending applying => exact durable.slowCall lawful stepped
  | life event =>
    cases event with
    | restart =>
      cases stepped
      exact ⟨synced_restart durable.synced, durable.persisted.idsUnique_restart,
        durable.persisted.restart⟩
    | running event =>
      have runs : repo.step event = some next := stepped
      have unique := durable.unique.step runs
      have persisted := durable.persisted.step durable.unique runs
      cases event with
      | tick nanos =>
        cases runs
        exact ⟨durable.synced.wait (Nat.le_add_right _ _), unique, persisted⟩
      | getNextVisaId =>
        cases runs
        exact ⟨durable.synced, unique, persisted⟩
      | purgeExpired =>
        cases runs
        exact ⟨synced_purge durable.synced, unique, persisted⟩
      | call op outcome =>
        have slowly : repo.slowStep (.call op outcome 0 0) = some next := by
          simpa only [Repo.slowStep, Repo.step, Repo.call_eq_slowCall] using runs
        exact durable.slowCall lawful slowly

theorem Repo.slowCall_error_store {repo : Repo codec} {outcome : RedisOutcome}
    {failure : StoreError} {sending applying : Nat}
    (failed : (repo.slowCall op outcome sending applying).2 = .error failure) :
    (repo.slowCall op outcome sending applying).1.store = repo.store := by
  unfold Repo.slowCall at failed ⊢
  split
  · rfl
  next plan planned =>
    simp only [planned, Repo.commit] at failed ⊢
    split
    next taken =>
      rw [if_pos taken] at failed
      cases failed
    · rfl

/-- Memory and a restart: whatever the restart loads is live in memory, a visa that is live in
memory three seconds before it expires is loaded, and what both hold is the same up to sub-second
parts of timestamps. No failed operation changes memory. -/
theorem restart_agrees_with_memory (lawful : codec.Lawful) {now initialVisaId : Nat}
    {events : List SlowEvent} {repo : Repo codec}
    (reached : run Repo.slowStep (Repo.init codec now initialVisaId) events = some repo) :
    let restored := (restoreFromState codec repo.now repo.redis).1
    (∀ (id : Nat) entry, liveEntry repo.now repo.store id = some entry →
        repo.now + 3 * nanosPerSec ≤ entry.visa.expires →
          ∃ loaded, restored.visas[id]? = some loaded) ∧
      (∀ (id : Nat) loaded, restored.visas[id]? = some loaded →
        ∃ entry, liveEntry repo.now repo.store id = some entry ∧
          entry.visa.SameUpToSecond loaded.visa ∧ loaded.nodeStates = entry.nodeStates ∧
          loaded.metadata = entry.metadata.wholeSecs) ∧
      ∀ op outcome sending applying failure,
        (repo.slowCall op outcome sending applying).2 = .error failure →
        (repo.slowCall op outcome sending applying).1.store = repo.store := by
  have durable := run_preserves (fun _ _ _ durable stepped =>
    Repo.Durable.slowStep lawful durable stepped) (Repo.durable_init now initialVisaId) reached
  refine ⟨fun id entry live unhurried => ?_, fun id loaded loads => ?_,
    fun _ _ _ _ _ => Repo.slowCall_error_store⟩
  · have synced := durable.synced id
    rw [(liveEntry_eq_some.mp live).1] at synced
    obtain ⟨record, firesAt, item, backs⟩ := synced.backs
    obtain ⟨visa, read, same⟩ := backs.visa
    have fires := backs.fires
    have close := same.close
    rw [restoreFromState_visas, item]
    exact ⟨_, loadRecord_eq_some.mpr ⟨by omega, visa, read, by omega, rfl⟩⟩
  · rw [restoreFromState_visas] at loads
    obtain ⟨⟨record, firesAt⟩, item, loads⟩ := Option.bind_eq_some_iff.mp loads
    obtain ⟨unfired, visa, read, lives, rfl⟩ := loadRecord_eq_some.mp loads
    have synced := durable.synced id
    rw [item] at synced
    cases found : repo.store.visas[id]? with
    | none =>
      rw [found] at synced
      rcases synced.ending with fired | ending
      · omega
      · have bound := ending visa read
        omega
    | some entry =>
      rw [found] at synced
      -- Whatever still loads is live in memory.
      obtain ⟨visa', read', same⟩ := synced.visa
      rw [read] at read'
      cases read'
      have early := same.early
      have deadline := synced.deadlineLt
      have live : repo.now + nanosPerSec ≤ entry.deadline := by omega
      exact ⟨entry, liveEntry_eq_some.mpr ⟨found, live⟩, same,
        synced.nodeStates (VisaEntry.isLive_iff.mpr live), synced.metadata⟩

theorem VisaCodec.plain_lawful : VisaCodec.plain.Lawful := by
  rintro visa blob ⟨⟩
  exact ⟨visa, rfl, .refl visa⟩

namespace DurabilityTrace

open Sample

/-- A visa for ten and a half seconds, looked at after `elapsed` nanoseconds. -/
def events (elapsed : Nat) : List SlowEvent :=
  [.life (.running .getNextVisaId),
    .call (.storeVisa { visa with expires := 10500000000 } metadata .pendingInstall) .applied 0 0,
    .life (.running (.tick elapsed))]

def repo (elapsed : Nat) : Repo .plain :=
  (run Repo.slowStep (Repo.init .plain 0 0) (events elapsed)).getD (Repo.init .plain 0 0)

end DurabilityTrace

open DurabilityTrace in
/-- After 8.7 seconds memory reports the visa, whose deadline was rounded down to ten seconds. A
restart finds one whole second left, and when it tests the deadline less than that. -/
theorem restart_drops_visa_live_in_memory :
    ¬ ∀ (codec : VisaCodec) (now initialVisaId : Nat) (events : List SlowEvent)
      (repo : Repo codec), codec.Lawful →
      run Repo.slowStep (Repo.init codec now initialVisaId) events = some repo →
      ∀ id : Nat, (liveEntry repo.now repo.store id).isSome =
        (restoreFromState codec repo.now repo.redis).1.visas[id]?.isSome := by
  intro agree
  have same := agree .plain 0 0 (events 8700000000) _ VisaCodec.plain_lawful rfl 1
  revert same
  decide

open DurabilityTrace in
/-- With three seconds to live the visa is in memory, and a restart loads it. -/
theorem restart_agrees_three_seconds_before_expiry :
    (liveEntry (repo 7500000000).now (repo 7500000000).store 1).isSome = true ∧
      ∀ entry, liveEntry (repo 7500000000).now (repo 7500000000).store 1 = some entry →
        (repo 7500000000).now + 3 * nanosPerSec ≤ entry.visa.expires →
        ∃ loaded, (restoreFromState .plain (repo 7500000000).now
          (repo 7500000000).redis).1.visas[1]? = some loaded :=
  ⟨by decide, (restart_agrees_with_memory VisaCodec.plain_lawful
    (show run Repo.slowStep (Repo.init .plain 0 0) (events 7500000000) = some (repo 7500000000)
      from rfl)).1 1⟩

end VisaService
