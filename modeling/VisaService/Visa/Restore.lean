import VisaService.Visa.EntrySteps

/-!
# What a restart loads

`restore_from_state` scans every persisted visa once. The image it builds has, for each
id, the entry decoded from that id's record if the record's TTL has not fired, it decodes
and the visa is live; and its indexes are exact.
-/
namespace VisaService

open Lib

variable {codec : VisaCodec}

/-- The entry a restart at `now` makes of a persisted record, if it loads it. -/
def loadRecord (codec : VisaCodec) (now : Nat) (item : VisaRecord codec.Blob × Nat) :
    Option VisaEntry :=
  if item.2 ≤ now then none
  else (decodeRecord codec now item.1).toOption.filter (VisaEntry.isLive (now + 1))

variable {items : List (Nat × (VisaRecord codec.Blob × Nat))}
  {loaded : VisaStoreInner × Redis codec} {now other : Nat}

/-- A record is loaded while its TTL runs, if its visa decodes and has two seconds to live: the
deadline is rounded down to whole seconds from now, and so is what is left of it a moment later. -/
theorem loadRecord_eq_some {firesAt : Nat} {record : VisaRecord codec.Blob} {entry : VisaEntry} :
    loadRecord codec now (record, firesAt) = some entry ↔
      now < firesAt ∧ ∃ visa, codec.decode record.blob = .ok visa ∧
        now + 2 * nanosPerSec ≤ visa.expires ∧
        entry = ⟨visa, record.metadata, now + secondsUntil now visa.expires * nanosPerSec,
          record.nodeStates⟩ := by
  simp only [loadRecord, Option.ite_none_left_eq_some, Nat.not_le, Option.filter_eq_some_iff]
  refine and_congr_right fun _ => ?_
  unfold decodeRecord
  cases codec.decode record.blob with
  | error failure => simp [Except.toOption]
  | ok visa =>
    have live (entry : VisaEntry)
        (same : entry = ⟨visa, record.metadata,
          now + secondsUntil now visa.expires * nanosPerSec, record.nodeStates⟩) :
        entry.isLive (now + 1) = true ↔ now + 2 * nanosPerSec ≤ visa.expires := by
      rw [same, VisaEntry.isLive_iff]
      simp only [secondsUntil, nanosPerSec]
      omega
    simp only [Except.toOption, Option.some.injEq, Except.ok.injEq, exists_eq_left']
    constructor
    · rintro ⟨rfl, isLive⟩
      exact ⟨(live _ rfl).mp isLive, rfl⟩
    · rintro ⟨lives, rfl⟩
      exact ⟨rfl, (live _ rfl).mpr lives⟩

theorem restoreEntry_visas (now : Nat) (loaded : VisaStoreInner × Redis codec) (id other : Nat)
    (item : VisaRecord codec.Blob × Nat) :
    (restoreEntry codec now loaded (id, item)).1.visas[other]? =
      if id = other then (loadRecord codec now item).or loaded.1.visas[other]?
      else loaded.1.visas[other]? := by
  obtain ⟨record, expiresAt⟩ := item
  simp only [restoreEntry, loadRecord]
  by_cases fired : expiresAt ≤ now
  · simp [fired]
  · cases decodeRecord codec now record with
    | error failure => simp [fired, Except.toOption]
    | ok entry =>
      cases live : entry.isLive (now + 1) <;> simp [fired, Except.toOption, Option.filter, live]

theorem restoreEntry_indexed {id : Nat} (indexed : loaded.1.Indexed)
    (fresh : loaded.1.visas[id]? = none) (item : VisaRecord codec.Blob × Nat) :
    (restoreEntry codec now loaded (id, item)).1.Indexed := by
  obtain ⟨record, expiresAt⟩ := item
  simp only [restoreEntry]
  split
  · exact indexed
  · split
    · exact indexed
    · split
      · exact Indexed.insertEntry indexed fresh _
      · exact indexed

theorem restoreEntry_redis (now : Nat) (loaded : VisaStoreInner × Redis codec) (id other : Nat)
    (item : VisaRecord codec.Blob × Nat) :
    (restoreEntry codec now loaded (id, item)).2[other]? =
      if id = other ∧ now < item.2 ∧ loadRecord codec now item = none then none
      else loaded.2[other]? := by
  obtain ⟨record, expiresAt⟩ := item
  simp only [restoreEntry, loadRecord]
  by_cases fired : expiresAt ≤ now
  · simp [fired, Nat.not_lt.mpr fired]
  · cases decodeRecord codec now record with
    | error failure => simp [fired, Except.toOption, Nat.not_le.mp fired, HashMap.get_erase]
    | ok entry =>
      cases live : entry.isLive (now + 1) <;>
        simp [fired, Except.toOption, Option.filter, live, Nat.not_le.mp fired, HashMap.get_erase]

/-! ### The scan -/

theorem restoreFold_visas_notMem (absent : other ∉ items.map Prod.fst)
    (loaded : VisaStoreInner × Redis codec) :
    (items.foldl (restoreEntry codec now) loaded).1.visas[other]? =
      loaded.1.visas[other]? := by
  induction items generalizing loaded with
  | nil => rfl
  | cons item rest ih =>
    simp only [List.map_cons, List.mem_cons, not_or] at absent
    rw [List.foldl_cons, ih absent.2, restoreEntry_visas, if_neg (Ne.symm absent.1)]

theorem restoreFold_visas_mem {item : VisaRecord codec.Blob × Nat} (member : (other, item) ∈ items)
    (distinct : (items.map Prod.fst).Nodup) (fresh : loaded.1.visas[other]? = none) :
    (items.foldl (restoreEntry codec now) loaded).1.visas[other]? =
      loadRecord codec now item := by
  induction items generalizing loaded with
  | nil => simp at member
  | cons first rest ih =>
    simp only [List.map_cons, List.nodup_cons] at distinct
    rw [List.foldl_cons]
    rcases List.mem_cons.mp member with rfl | later
    · rw [restoreFold_visas_notMem distinct.1, restoreEntry_visas]
      simp [fresh]
    · have differs : first.1 ≠ other := by
        rintro rfl
        exact distinct.1 (List.mem_map.mpr ⟨_, later, rfl⟩)
      exact ih later distinct.2 (by rw [restoreEntry_visas, if_neg differs, fresh])

theorem restoreFold_indexed (distinct : (items.map Prod.fst).Nodup) (indexed : loaded.1.Indexed)
    (fresh : ∀ id ∈ items.map Prod.fst, loaded.1.visas[id]? = none) :
    (items.foldl (restoreEntry codec now) loaded).1.Indexed := by
  induction items generalizing loaded with
  | nil => exact indexed
  | cons item rest ih =>
    simp only [List.map_cons, List.nodup_cons] at distinct
    refine ih distinct.2 (restoreEntry_indexed indexed (fresh _ (by simp)) _) fun id member => ?_
    have differs : item.1 ≠ id := by
      rintro rfl
      exact distinct.1 member
    rw [restoreEntry_visas, if_neg differs]
    exact fresh id (by simp [member])

theorem restoreFold_redis_notMem (absent : other ∉ items.map Prod.fst)
    (loaded : VisaStoreInner × Redis codec) :
    (items.foldl (restoreEntry codec now) loaded).2[other]? = loaded.2[other]? := by
  induction items generalizing loaded with
  | nil => rfl
  | cons item rest ih =>
    simp only [List.map_cons, List.mem_cons, not_or] at absent
    rw [List.foldl_cons, ih absent.2, restoreEntry_redis, if_neg fun h => absent.1 h.1.symm]

theorem restoreFold_redis_mem {item : VisaRecord codec.Blob × Nat} (member : (other, item) ∈ items)
    (distinct : (items.map Prod.fst).Nodup) (loaded : VisaStoreInner × Redis codec) :
    (items.foldl (restoreEntry codec now) loaded).2[other]? =
      if now < item.2 ∧ loadRecord codec now item = none then none else loaded.2[other]? := by
  induction items generalizing loaded with
  | nil => simp at member
  | cons first rest ih =>
    simp only [List.map_cons, List.nodup_cons] at distinct
    rw [List.foldl_cons]
    rcases List.mem_cons.mp member with rfl | later
    · rw [restoreFold_redis_notMem distinct.1, restoreEntry_redis]
      simp
    · have differs : first.1 ≠ other := by
        rintro rfl
        exact distinct.1 (List.mem_map.mpr ⟨_, later, rfl⟩)
      rw [ih later distinct.2, restoreEntry_redis]
      simp [differs]

private theorem toList_keys_nodup (redis : Redis codec) : (redis.toList.map Prod.fst).Nodup := by
  rw [Std.ExtTreeMap.map_fst_toList_eq_keys]
  exact Std.ExtTreeMap.nodup_keys

private theorem not_mem_toList_keys {redis : Redis codec} {id : Nat} (absent : redis[id]? = none) :
    id ∉ redis.toList.map Prod.fst := by
  rw [Std.ExtTreeMap.map_fst_toList_eq_keys, Std.ExtTreeMap.mem_keys,
    Std.ExtTreeMap.mem_iff_isSome_getElem?, absent]
  simp

theorem restoreFromState_visas (now : Nat) (redis : Redis codec) (id : Nat) :
    (restoreFromState codec now redis).1.visas[id]? = redis[id]?.bind (loadRecord codec now) := by
  cases found : redis[id]? with
  | none => exact restoreFold_visas_notMem (not_mem_toList_keys found) _
  | some item =>
    exact restoreFold_visas_mem (Std.ExtTreeMap.mem_toList_iff_getElem?_eq_some.mpr found)
      (toList_keys_nodup redis) rfl

theorem restoreFromState_redis (now : Nat) (redis : Redis codec) (id : Nat) :
    (restoreFromState codec now redis).2[id]? = redis[id]?.filter fun item =>
      item.2 ≤ now ∨ (loadRecord codec now item).isSome := by
  cases found : redis[id]? with
  | none => exact (restoreFold_redis_notMem (not_mem_toList_keys found) _).trans found
  | some item =>
    refine (restoreFold_redis_mem (Std.ExtTreeMap.mem_toList_iff_getElem?_eq_some.mpr found)
      (toList_keys_nodup redis) _).trans ?_
    rw [found]
    by_cases fired : item.2 ≤ now
    · simp [fired, Nat.not_lt.mpr fired, Option.filter]
    · cases loads : loadRecord codec now item <;>
        simp [fired, Nat.not_le.mp fired, Option.filter, loads]

theorem restoreFromState_indexed (now : Nat) (redis : Redis codec) :
    (restoreFromState codec now redis).1.Indexed :=
  restoreFold_indexed (toList_keys_nodup redis) indexed_empty fun _ _ => rfl

theorem Repo.Persisted.restart {repo : Repo codec} (persisted : repo.Persisted) :
    repo.restart.Persisted := by
  intro id member
  obtain ⟨item, found⟩ := HashMap.get_of_mem member
  simp only [Repo.restart, restoreFromState_redis, Option.filter_eq_some_iff] at found
  exact persisted id (HashMap.mem_of_get found.1)

theorem Repo.Persisted.idsUnique_restart {repo : Repo codec} (persisted : repo.Persisted) :
    repo.restart.IdsUnique where
  stored id entry found := by
    simp only [Repo.restart, restoreFromState_visas, Option.bind_eq_some_iff] at found
    obtain ⟨item, isPersisted, -⟩ := found
    exact ⟨persisted id (HashMap.mem_of_get isPersisted), by simp [Repo.restart]⟩
  handed := by simp [Repo.restart]

end VisaService
