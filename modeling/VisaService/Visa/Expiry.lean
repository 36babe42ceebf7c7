import VisaService.Visa.Durability
import VisaService.Visa.Interleaving
import VisaService.Visa.SweepCoverage
import VisaService.Assembly.State

/-!
# Reads against the expiry of a visa

`store_visa` measures the remaining lifetime in whole seconds before it waits for the `backing`
lock and for Redis, and counts it from the moment of the insert. The wait is added to the life of
the visa in memory: a visa that took ten seconds to store is still reported five seconds after it
expired. Reads keep the last second of a deadline back, so a wait of up to one second does no harm.

The invariant says of every entry that its deadline is at most a second later than the expiry of
the visa that was stored under its id, and of every record that it encodes that visa. Only the
insert of a store can break the first part, and only the codec the second.
-/
namespace VisaService

open Lib Machine

variable {codec : VisaCodec}

/-! ### Reads -/

def getVisaById (now : Nat) (inner : VisaStoreInner) (visaId : Nat) : Except StoreError Visa :=
  match liveEntry now inner visaId with
  | some entry => .ok entry.visa
  | none => .error (.notFound s!"visa not found for ID {visaId}")

def getNodeVisaState (now : Nat) (inner : VisaStoreInner) (visaId : Nat) (node : IpAddr) :
    Option NodeVisaState :=
  (liveEntry now inner visaId).bind fun entry => entry.nodeStates[node]?.map NodeState.state

def listVisaIds (now : Nat) (inner : VisaStoreInner) : List Nat :=
  (inner.visas.toList.filter fun (_, entry) => entry.isLive now).map Prod.fst

/-- Some read reports the visa `id` as live. -/
inductive Reported (now : Nat) (inner : VisaStoreInner) (id : Nat) : Prop where
  | byId (visa : Visa) (read : getVisaById now inner id = .ok visa)
  | metadata (found : VisaMetadata) (read : getVisaMetadataById now inner id = .ok found)
  | nodeState (node : IpAddr) (state : NodeVisaState)
    (read : getNodeVisaState now inner id node = some state)
  | nodeRefs (read : visaHasNodeRefs now inner id = true)
  /-- The visas, the ids and the count for a node and a state are all taken from this list. -/
  | byNodeAndState (node : IpAddr) (state : NodeVisaState) (entry : VisaEntry)
    (read : (id, entry) ∈ nodeVisasInState now inner node state)
  | byNode (node : IpAddr) (read : id ∈ getAllVisaIdsForNode now inner node)
  | byActors (addrs : List IpAddr) (read : id ∈ getVisaIdsForActors now inner addrs)
  | listed (read : id ∈ listVisaIds now inner)
  | listedMetadata (found : VisaMetadata) (read : (id, found) ∈ listVisaMetadata now inner)

/-- Every read goes through `is_live`. -/
theorem Reported.live {now id : Nat} {inner : VisaStoreInner} (reported : Reported now inner id) :
    ∃ entry, liveEntry now inner id = some entry := by
  cases reported with
  | byId visa read =>
    unfold getVisaById at read
    split at read
    next entry live => exact ⟨entry, live⟩
    · cases read
  | metadata found read =>
    unfold getVisaMetadataById at read
    split at read
    next entry live => exact ⟨entry, live⟩
    · cases read
  | nodeState node state read =>
    obtain ⟨entry, live, -⟩ := Option.bind_eq_some_iff.mp read
    exact ⟨entry, live⟩
  | nodeRefs read =>
    obtain ⟨entry, live, -⟩ := (Option.any_eq_true _ _).mp read
    exact ⟨entry, live⟩
  | byNodeAndState node state entry read => exact ⟨entry, (mem_nodeVisasInState read).1⟩
  | byNode node read => exact Option.isSome_iff_exists.mp (List.mem_filter.mp read).2
  | byActors addrs read => exact Option.isSome_iff_exists.mp (List.mem_filter.mp read).2
  | listed read =>
    simp only [listVisaIds, List.mem_map, List.mem_filter, Prod.exists, exists_and_right,
      exists_eq_right, Std.ExtTreeMap.mem_toList_iff_getElem?_eq_some] at read
    obtain ⟨entry, found, live⟩ := read
    exact ⟨entry, liveEntry_eq_some.mpr ⟨found, VisaEntry.isLive_iff.mp live⟩⟩
  | listedMetadata found read =>
    obtain ⟨entry, live, -⟩ := mem_listVisaMetadata.mp read
    exact ⟨entry, live⟩

/-! ### An id is stored once -/

variable {machine next final : Machine codec} {event : MachineEvent} {events : List MachineEvent}
  {visa other : Visa} {id : Nat}

/-- The events of a run store `visa`. -/
def Stores (events : List MachineEvent) (visa : Visa) : Prop :=
  ∃ metadata nstate, .prepareStore visa metadata nstate ∈ events

theorem Machine.step_spent (spent : machine.repo.Spent id)
    (stepped : machine.step event = some next) : next.repo.Spent id := by
  cases event with
  | tick nanos =>
    cases stepped
    exact spent
  | getNextVisaId =>
    cases stepped
    exact spent.step (show machine.repo.step .getNextVisaId = some _ from rfl)
  | purgeExpired =>
    cases stepped
    exact spent.step (show machine.repo.step .purgeExpired = some _ from rfl)
  | prepareStore visa metadata nstate =>
    obtain ⟨claimed, claims, rfl⟩ := Option.map_eq_some_iff.mp stepped
    obtain ⟨-, left, rfl, leftIff⟩ := Repo.claimId_eq_some claims
    have kept : id ∉ left := fun member => spent.2 ((leftIff id).mp member).1
    cases storeVisa codec machine.repo.now visa metadata nstate <;> exact ⟨spent.1, kept⟩
  | restart =>
    cases stepped
    exact ⟨spent.1, by simp [Repo.restart]⟩
  | acquireStore | acquire | redisReply | applyMemory =>
    simp only [step] at stepped
    grind [send, Repo.Spent]

/-- A spent id is not claimed again. -/
theorem Machine.not_stores_spent (spent : machine.repo.Spent id)
    (ran : run step machine events = some final) (stores : Stores events visa) :
    visa.issuerId ≠ id := by
  induction events generalizing machine with
  | nil => simp [Stores] at stores
  | cons event rest ih =>
    obtain ⟨next, stepped, ran⟩ := run_cons_eq_some.mp ran
    obtain ⟨metadata, nstate, member⟩ := stores
    rcases List.mem_cons.mp member with rfl | later
    · obtain ⟨claimed, claims, -⟩ := Option.map_eq_some_iff.mp stepped
      rintro rfl
      exact spent.2 ((Repo.claimId_eq_some claims).1 _ rfl)
    · exact ih (step_spent spent stepped) ran ⟨metadata, nstate, later⟩

/-- The step that stores a visa spends its id. -/
theorem Machine.spent_of_prepareStore {metadata : VisaMetadata} {nstate : NodeVisaState}
    (unique : machine.repo.IdsUnique)
    (stepped : machine.step (.prepareStore visa metadata nstate) = some next) :
    next.repo.Spent visa.issuerId := by
  obtain ⟨claimed, claims, rfl⟩ := Option.map_eq_some_iff.mp stepped
  obtain ⟨handed, left, rfl, leftIff⟩ := Repo.claimId_eq_some claims
  have kept : visa.issuerId ∉ left := fun member => ((leftIff _).mp member).2 rfl
  have bound := unique.handed _ (handed _ rfl)
  cases storeVisa codec machine.repo.now visa metadata nstate <;> exact ⟨bound, kept⟩

theorem stored_once (inv : machine.Inv) (ran : run step machine events = some final)
    (stores : Stores events visa) (storesOther : Stores events other)
    (same : visa.issuerId = other.issuerId) : visa = other := by
  induction events generalizing machine with
  | nil => simp [Stores] at stores
  | cons event rest ih =>
    obtain ⟨next, stepped, later⟩ := run_cons_eq_some.mp ran
    obtain ⟨metadata, nstate, member⟩ := stores
    obtain ⟨otherMetadata, otherState, otherMember⟩ := storesOther
    rcases List.mem_cons.mp member with rfl | inRest <;>
      rcases List.mem_cons.mp otherMember with first | otherInRest
    · cases first
      rfl
    · have spent := spent_of_prepareStore inv.unique stepped
      exact absurd same.symm (not_stores_spent spent later ⟨_, _, otherInRest⟩)
    · subst first
      have spent := spent_of_prepareStore inv.unique stepped
      exact absurd same (not_stores_spent spent later ⟨_, _, inRest⟩)
    · exact ih (inv.step stepped) later ⟨_, _, inRest⟩ ⟨_, _, otherInRest⟩

/-! ### What bounds a deadline -/

/-- `copy` is a visa stored under `id`, or was read back from one. -/
def Vouched (given : Visa → Prop) (id : Nat) (copy : Visa) : Prop :=
  ∃ visa, given visa ∧ visa.issuerId = id ∧ copy.expires ≤ visa.expires

/-- The record holds a vouched visa. -/
def Encodes (given : Visa → Prop) (id : Nat) (record : VisaRecord codec.Blob) : Prop :=
  ∃ copy, Vouched given id copy ∧ codec.encode copy = .ok record.blob

variable {given : Visa → Prop}

structure WritePlan.Sound (given : Visa → Prop) (plan : WritePlan codec) : Prop where
  inserts : ∀ id visa metadata nodeStates ttl,
    plan.memory = .insert id visa metadata nodeStates ttl → Vouched given id visa
  records : ∀ id record ttl, .setEx id record ttl ∈ plan.redis → Encodes given id record
  undoes : ∀ write ∈ plan.undo, write.setId = none

structure Machine.Sound (given : Visa → Prop) (machine : Machine codec) : Prop where
  entries : ∀ id entry, machine.repo.store.visas[id]? = some entry → Vouched given id entry.visa ∧
    entry.deadline ≤ entry.visa.expires + nanosPerSec
  records : ∀ id item, machine.repo.redis[id]? = some item → Encodes given id item.1
  plans : ∀ plan ∈ machine.pending, plan.Sound given

/-- A store is inserted on time: since it measured the lifetime, no more has passed than the
second that reads keep back and the fraction that the measurement rounded away. -/
def Machine.OnTime (machine : Machine codec) (event : MachineEvent) : Prop :=
  match event, machine.writer with
  | .applyMemory, .written ⟨_, _, .insert _ visa _ _ ttl⟩ =>
    machine.repo.now + ttl * nanosPerSec ≤ visa.expires + nanosPerSec
  | _, _ => True

instance (machine : Machine codec) (event : MachineEvent) : Decidable (machine.OnTime event) := by
  unfold Machine.OnTime
  split <;> infer_instance

/-- The other operations write records of the visas in memory. -/
theorem RepoOp.decide_sound {op : RepoOp} {plan : WritePlan codec} {inner : VisaStoreInner}
    {now : Nat} (notNew : op.newId = none) (planned : op.decide codec now inner = .write plan)
    (vouched : ∀ id entry, inner.visas[id]? = some entry → Vouched given id entry.visa) :
    plan.Sound given where
  inserts id visa metadata nodeStates ttl inserts := by
    have adds := (RepoOp.decide_safe notNew planned).2
    rw [inserts] at adds
    cases adds
  undoes := (RepoOp.decide_records planned).2
  records id record ttl member := by
    cases (RepoOp.decide_records planned).1 id record ttl member with
    | stored => cases notNew
    | rewritten _ target entry metadata nodeStates blob found encoded =>
      exact ⟨entry.visa, vouched id entry found, encoded⟩
    | cleared node entry blob found encoded => exact ⟨entry.visa, vouched id entry found, encoded⟩

theorem Machine.sound_init (now initialVisaId : Nat) :
    (init codec now initialVisaId).Sound given where
  entries id entry found := by simp [init, Repo.init, VisaStoreInner.empty] at found
  records id item found := by simp [init, Repo.init] at found
  plans plan member := by simp [init, pending, Writer.plans] at member

/-- The record of a store encodes the visa it is given. -/
theorem storeVisa_sound {now : Nat} {metadata : VisaMetadata} {nstate : NodeVisaState}
    {plan : WritePlan codec} (gives : given visa)
    (planned : storeVisa codec now visa metadata nstate = .write plan) : plan.Sound given := by
  have vouched : Vouched given visa.issuerId visa := ⟨visa, gives, rfl, Nat.le_refl _⟩
  obtain ⟨-, record, built, rfl⟩ := storeVisa_eq_write.mp planned
  obtain ⟨blob, encoded, rfl⟩ := buildRecord_eq_ok.mp built
  refine ⟨fun id copy _ _ _ inserts => ?_, fun id record ttl member => ?_,
    by simp [RedisWrite.setId]⟩
  · cases inserts
    exact vouched
  · cases List.mem_singleton.mp member
    exact ⟨visa, vouched, encoded⟩

/-- A restart counts the lifetime from the moment it measures it. -/
theorem Machine.Sound.restart (lawful : codec.Lawful) (sound : machine.Sound given) :
    Machine.Sound given ⟨machine.repo.restart, [], .idle⟩ where
  entries id entry found := by
    simp only [Repo.restart, restoreFromState_visas, Option.bind_eq_some_iff] at found
    obtain ⟨⟨record, firesAt⟩, isRecord, loads⟩ := found
    obtain ⟨-, loaded, decoded, lives, rfl⟩ := loadRecord_eq_some.mp loads
    obtain ⟨copy, ⟨visa, gives, isId, early⟩, encoded⟩ := sound.records id _ isRecord
    obtain ⟨again, decodedAgain, same⟩ := lawful copy _ encoded
    rw [decoded] at decodedAgain
    cases decodedAgain
    refine ⟨⟨visa, gives, isId, same.early.trans early⟩, ?_⟩
    exact (now_add_secondsUntil_le (by omega)).trans (Nat.le_add_right _ _)
  records id item found := by
    simp only [Repo.restart, restoreFromState_redis, Option.filter_eq_some_iff] at found
    exact sound.records id item found.1
  plans plan member := by simp [pending, Writer.plans] at member

/-- Whoever gets the lock sends a sound plan; the other plans wait. -/
theorem Machine.Sound.send (sound : machine.Sound given) {plan : WritePlan codec}
    (own : plan.Sound given) : (machine.send plan).Sound given := by
  refine { sound with plans := fun other member => ?_ }
  rw [send_pending, List.mem_cons] at member
  rcases member with rfl | queued
  · exact own
  · exact sound.plans other (List.mem_append.mpr (.inr queued))

theorem Machine.Sound.step (lawful : codec.Lawful) (sound : machine.Sound given)
    (onTime : machine.OnTime event) (gives : ∀ visa, Stores [event] visa → given visa)
    (stepped : machine.step event = some next) : next.Sound given := by
  cases event with
  | tick nanos | getNextVisaId =>
    cases stepped
    exact { sound with }
  | purgeExpired =>
    cases stepped
    have untouched : machine.repo.purgeExpired.redis = machine.repo.redis := by
      unfold Repo.purgeExpired
      split <;> rfl
    exact ⟨fun id entry found => sound.entries id entry (Repo.purgeExpired_fewer found),
      fun id item found => sound.records id item (untouched ▸ found), sound.plans⟩
  | prepareStore visa metadata nstate =>
    obtain ⟨claimed, claims, rfl⟩ := Option.map_eq_some_iff.mp stepped
    obtain ⟨-, left, rfl, -⟩ := Repo.claimId_eq_some claims
    cases planned : storeVisa codec machine.repo.now visa metadata nstate with
    | done reply => exact { sound with }
    | write plan =>
      refine { sound with plans := fun other member => ?_ }
      simp only [pending, ← List.append_assoc, List.mem_append, List.mem_singleton]
        at member
      rcases member with queued | rfl
      · exact sound.plans other (List.mem_append.mpr queued)
      · exact storeVisa_sound (gives visa ⟨metadata, nstate, by simp⟩) planned
  | acquireStore position =>
    simp only [step] at stepped
    split at stepped <;> cases stepped
    next plan idle chosen =>
      -- A waiting plan gets the lock; no plan is new.
      have fewer : Machine.Sound given
          { machine with waiting := machine.waiting.eraseIdx position } :=
        { sound with plans := fun other member => sound.plans other (List.mem_append.mpr
          ((List.mem_append.mp member).imp id List.mem_of_mem_eraseIdx)) }
      exact fewer.send
        (sound.plans plan (List.mem_append.mpr (.inr (List.mem_of_getElem? chosen))))
  | acquire op =>
    simp only [step] at stepped
    split at stepped
    next idle notNew =>
      split at stepped <;> cases stepped
      · exact sound
      next plan planned =>
        exact sound.send (RepoOp.decide_sound notNew planned fun id entry found =>
          (sound.entries id entry found).1)
    · cases stepped
  | redisReply outcome =>
    obtain ⟨plan, redis, sent, isRepo, -, fewer, rows⟩ := step_redisReply stepped
    have own := sound.plans plan sent
    refine ⟨isRepo ▸ sound.entries, fun id item found => ?_,
      fun other member => sound.plans other (fewer.subset member)⟩
    rw [isRepo] at found
    rcases rows id item found with kept | ⟨ttl, sets | undoes⟩
    · exact sound.records id item kept
    · exact own.records id item.1 ttl sets
    · cases own.undoes _ undoes
  | applyMemory =>
    simp only [step] at stepped
    split at stepped <;> cases stepped
    next plan written =>
      have own : plan.Sound given :=
        sound.plans plan (by simp [pending, written, Writer.plans])
      refine ⟨fun id entry found => ?_, sound.records, fun other member =>
        sound.plans other (List.mem_append.mpr (.inr member))⟩
      -- Only an insert sets a deadline, and it is on time.
      rcases applyMemory_entry found with ⟨before, isBefore, visa, deadline⟩ |
        ⟨metadata, nodeStates, ttl, inserts, deadline⟩
      · rw [visa, deadline]
        exact sound.entries id before isBefore
      · obtain ⟨redis, undo, memory⟩ := plan
        cases inserts
        simp only [Machine.OnTime, written] at onTime
        exact ⟨own.inserts _ _ _ _ _ rfl, deadline ▸ onTime⟩
  | restart =>
    cases stepped
    exact sound.restart lawful

/-- No read reports a visa later than its expiry, in any state that is reached by stores that
are inserted on time, by other writers, purges and restarts, whatever they wait for. -/
theorem reported_until_expiry (lawful : codec.Lawful) {now initialVisaId : Nat}
    (ran : run step (init codec now initialVisaId) events = some machine)
    (onTime : Meets step Machine.OnTime (init codec now initialVisaId) events)
    (stores : Stores events visa)
    (reported : Reported machine.repo.now machine.repo.store visa.issuerId) :
    machine.repo.now ≤ visa.expires := by
  have given : Meets step (fun _ event => ∀ visa, Stores [event] visa → Stores events visa)
      (init codec now initialVisaId) events :=
    meets_of_forall (fun event member _ visa ⟨metadata, nstate, isEvent⟩ =>
      ⟨metadata, nstate, List.mem_singleton.mp isEvent ▸ member⟩) _
  have sound : machine.Sound (Stores events) := run_preserves_of_meets
    (fun _ _ _ sound met stepped => Machine.Sound.step lawful sound met.1 met.2 stepped)
    (sound_init now initialVisaId) (onTime.and given) ran
  obtain ⟨entry, live⟩ := reported.live
  obtain ⟨found, lives⟩ := liveEntry_eq_some.mp live
  obtain ⟨⟨other, storesOther, sameId, early⟩, deadline⟩ := sound.entries _ entry found
  cases stored_once (inv_init now initialVisaId) ran storesOther stores sameId
  omega

/-- The visa of one hour is stored and read at `readAt`; Redis takes `wait` to answer. -/
def Sample.storedAfter (wait readAt : Nat) : List MachineEvent :=
  [.getNextVisaId, .prepareStore Sample.visa Sample.metadata .installed, .acquireStore 0,
    .tick wait, .redisReply .applied, .applyMemory, .tick (readAt - wait)]

/-- Redis takes ten seconds for the store; five seconds after the hour the visa is returned. -/
theorem reported_after_expiry :
    ∃ machine, run step (init .plain 0 0)
        (Sample.storedAfter (10 * nanosPerSec) (3605 * nanosPerSec)) = some machine ∧
      getVisaById machine.repo.now machine.repo.store 1 = .ok Sample.visa ∧
      Sample.visa.expires + 5 * nanosPerSec = machine.repo.now :=
  ⟨_, rfl, by rfl, by rfl⟩

/-- A store that takes one second: the visa is returned up to the hour. -/
theorem reported_until_expiry_one_second :
    ∃ machine, run step (init .plain 0 0)
        (Sample.storedAfter nanosPerSec (3600 * nanosPerSec)) = some machine ∧
      getVisaById machine.repo.now machine.repo.store 1 = .ok Sample.visa ∧
      machine.repo.now ≤ Sample.visa.expires := by
  obtain ⟨machine, ran, read⟩ : ∃ machine, run step (init .plain 0 0)
      (Sample.storedAfter nanosPerSec (3600 * nanosPerSec)) = some machine ∧
      getVisaById machine.repo.now machine.repo.store 1 = .ok Sample.visa := ⟨_, rfl, by rfl⟩
  exact ⟨machine, ran, read, reported_until_expiry VisaCodec.plain_lawful ran (by decide +kernel)
    ⟨Sample.metadata, .installed, by simp [Sample.storedAfter]⟩ (.byId Sample.visa read)⟩

end VisaService
