import VisaService.Visa.Expiry

/-!
# Reads by index against a scan

A read for a node or for actors goes through an index and drops what has expired. In every state
that the interleaved writers, purges and restarts lead to, it lists what a scan of the table would.
-/
namespace VisaService

open Lib

variable {codec : VisaCodec} {now id : Nat}

section Scan

variable {inner : VisaStoreInner}

/-- The entry of a live visa is the one in the table. -/
theorem exists_live {holds : VisaEntry → Prop} :
    (∃ entry, inner.visas[id]? = some entry ∧ holds entry) ∧ (liveEntry now inner id).isSome ↔
      ∃ entry, liveEntry now inner id = some entry ∧ holds entry := by
  cases isLive : liveEntry now inner id with
  | none => simp
  | some entry => simp [(liveEntry_eq_some.mp isLive).1]

variable (exact : inner.Indexed)
include exact

theorem mem_getAllVisaIdsForNode {node : IpAddr} : id ∈ getAllVisaIdsForNode now inner node ↔
    ∃ entry, liveEntry now inner id = some entry ∧ node ∈ entry.nodeStates := by
  simp only [getAllVisaIdsForNode, nodeRow, List.mem_filter, Rows.mem_list, exact.byNode,
    exists_live]

theorem mem_getVisaIdsForActors {addrs : List IpAddr} : id ∈ getVisaIdsForActors now inner addrs ↔
    ∃ entry, liveEntry now inner id = some entry ∧
      ∃ addr ∈ addrs, addr ∈ entry.metadata.endpoints := by
  rw [← exists_live]
  simp only [getVisaIdsForActors, List.mem_filter, List.mem_dedup, List.mem_flatMap,
    Rows.mem_list, exact.byActor]
  -- the index says it of one address after the other, the scan of one entry
  refine and_congr_left fun _ => ?_
  constructor
  · rintro ⟨addr, member, entry, found, ends⟩
    exact ⟨entry, found, addr, member, ends⟩
  · rintro ⟨entry, found, addr, member, ends⟩
    exact ⟨addr, member, entry, found, ends⟩

theorem mem_nodeVisasInState_iff {node : IpAddr} {state : NodeVisaState} {entry : VisaEntry} :
    (id, entry) ∈ nodeVisasInState now inner node state ↔ liveEntry now inner id = some entry ∧
      entry.nodeStates[node]?.map NodeState.state = some state := by
  simp only [nodeVisasInState, nodeRow, List.mem_filterMap, Rows.mem_list, exact.byNode,
    Option.bind_eq_some_iff, Option.map_eq_some_iff]
  constructor
  · rintro ⟨own, -, found, isLive, ns, isState, inState⟩
    split at inState <;> cases inState
    next same => exact ⟨isLive, ns, isState, same⟩
  · rintro ⟨isLive, ns, isState, same⟩
    exact ⟨id, ⟨entry, (liveEntry_eq_some.mp isLive).1, HashMap.mem_of_get isState⟩, entry,
      isLive, ns, isState, if_pos same⟩

end Scan

theorem Repo.liveEntry_purgeExpired (repo : Repo codec) (later : repo.now ≤ now) :
    liveEntry now repo.purgeExpired.store id = liveEntry now repo.store id := by
  unfold Repo.purgeExpired
  split
  · rfl
  · refine Option.ext fun entry => ?_
    simp only [liveEntry_eq_some, purge_visas]
    constructor
    · rintro ⟨⟨found, -⟩, lives⟩
      exact ⟨found, lives⟩
    · rintro ⟨found, lives⟩
      exact ⟨⟨found, by omega⟩, lives⟩

/-- A read by node, by actors or by node and state lists the live visas that a scan finds, and
none can tell whether a purge has run at any moment before it. -/
theorem reads_list_live {machine : Machine codec} {events : List MachineEvent}
    {start initialVisaId : Nat} {store : VisaStoreInner}
    (ran : run Machine.step (Machine.init codec start initialVisaId) events = some machine)
    (purged : store = machine.repo.store ∨ store = machine.repo.purgeExpired.store)
    (later : machine.repo.now ≤ now) :
    let live (entry : VisaEntry) := liveEntry now machine.repo.store id = some entry
    (∀ node, id ∈ getAllVisaIdsForNode now store node ↔
        ∃ entry, live entry ∧ node ∈ entry.nodeStates) ∧
      (∀ addrs, id ∈ getVisaIdsForActors now store addrs ↔
        ∃ entry, live entry ∧ ∃ addr ∈ addrs, addr ∈ entry.metadata.endpoints) ∧
      ∀ node state entry, (id, entry) ∈ nodeVisasInState now store node state ↔
        live entry ∧ entry.nodeStates[node]?.map NodeState.state = some state := by
  have inv := run_preserves (fun _ _ _ inv stepped => Machine.Inv.step inv stepped)
    (Machine.inv_init start initialVisaId) ran
  have exact : store.Indexed := by
    rcases purged with rfl | rfl
    · exact inv.indexed
    · exact Repo.purgeExpired_indexed inv.indexed
  have same : liveEntry now store id = liveEntry now machine.repo.store id := by
    rcases purged with rfl | rfl
    · rfl
    · exact machine.repo.liveEntry_purgeExpired later
  rw [← same]
  exact ⟨fun _ => mem_getAllVisaIdsForNode exact, fun _ => mem_getVisaIdsForActors exact,
    fun _ _ _ => mem_nodeVisasInState_iff exact⟩

/-- A visa is stored, and a purge runs before it is read. -/
theorem stored_listed_live : ∃ machine, run Machine.step (Machine.init .plain 0 0)
      (Sample.storedAfter 0 nanosPerSec) = some machine ∧
    ∃ entry, liveEntry machine.repo.now machine.repo.store 1 = some entry ∧
      Sample.node ∈ entry.nodeStates := by
  obtain ⟨machine, ran, listed⟩ : ∃ machine, run Machine.step (Machine.init .plain 0 0)
      (Sample.storedAfter 0 nanosPerSec) = some machine ∧ 1 ∈ getAllVisaIdsForNode
        machine.repo.now machine.repo.purgeExpired.store Sample.node := ⟨_, rfl, by decide +kernel⟩
  exact ⟨machine, ran, ((reads_list_live ran (.inr rfl) le_rfl).1 _).mp listed⟩

end VisaService
