import VisaService.Assembly.State
import VisaService.Visa.Interleaving

/-!
# The visas of those who leave

When actors or nodes leave, their visas are marked for revocation, dropped from the departing
node and removed when no node lists them any more. None of this brings a visa back: `Departs`
says that entries only go, or lose nodes, or become pending revokes.

Main result: `Repo.withdrawn_removeVisasForActors`, the live visas of the actors are pending
revokes.
-/
namespace VisaService

open Lib

variable {codec : VisaCodec}

def RepoOp.IsDeparture : RepoOp → Prop
  | .markVisaRevoked _ | .removeVisa _ | .clearNodeState _ => True
  | _ => False

namespace Repo

/-- The entry is the earlier one, without some nodes and with more pending revokes. -/
structure Lessened (before after : VisaEntry) : Prop where
  visa : after.visa = before.visa
  metadata : after.metadata = before.metadata
  deadline : after.deadline = before.deadline
  states : ∀ (node : IpAddr) (ns : NodeState), after.nodeStates[node]? = some ns →
    ns.state = .pendingRevoke ∨ before.nodeStates[node]? = some ns

theorem Lessened.refl (entry : VisaEntry) : Lessened entry entry :=
  ⟨rfl, rfl, rfl, fun _ _ => .inr⟩

theorem Lessened.trans {first second third : VisaEntry} (one : Lessened first second)
    (two : Lessened second third) : Lessened first third where
  visa := two.visa.trans one.visa
  metadata := two.metadata.trans one.metadata
  deadline := two.deadline.trans one.deadline
  states node ns found := by
    rcases two.states node ns found with pending | earlier
    · exact .inl pending
    · exact one.states node ns earlier

/-- Entries only go, or lose nodes, or become pending revokes. -/
structure Departs (repo next : Repo codec) : Prop where
  now : next.now = repo.now
  indexed : repo.store.Indexed → next.store.Indexed
  entries : ∀ (id : Nat) (after : VisaEntry), next.store.visas[id]? = some after →
    ∃ before, repo.store.visas[id]? = some before ∧ Lessened before after

theorem Departs.refl (repo : Repo codec) : Departs repo repo :=
  ⟨rfl, id, fun _ entry found => ⟨entry, found, .refl entry⟩⟩

theorem Departs.trans {first second third : Repo codec} (one : Departs first second)
    (two : Departs second third) : Departs first third where
  now := two.now.trans one.now
  indexed exact := two.indexed (one.indexed exact)
  entries id last found := by
    obtain ⟨mid, isMid, later⟩ := two.entries id last found
    obtain ⟨before, isBefore, earlier⟩ := one.entries id mid isMid
    exact ⟨before, isBefore, earlier.trans later⟩

theorem lessened_marked (entry : VisaEntry) :
    Lessened entry { entry with nodeStates := entry.nodeStates.map fun _ ns => ns.marked } where
  visa := rfl
  metadata := rfl
  deadline := rfl
  states node ns found := by
    left
    simp only [Std.ExtTreeMap.getElem?_map, Option.map_eq_some_iff] at found
    obtain ⟨old, -, rfl⟩ := found
    rfl

theorem lessened_erased (entry : VisaEntry) (node : IpAddr) :
    Lessened entry { entry with nodeStates := entry.nodeStates.erase node } where
  visa := rfl
  metadata := rfl
  deadline := rfl
  states _ _ found := .inr (HashMap.of_get_erase found).2

/-- Each operation of a departure, however the database responds. -/
theorem departs_call (repo : Repo codec) (op : RepoOp) (departure : op.IsDeparture)
    (outcome : RedisOutcome) : Departs repo (repo.call op outcome).1 := by
  have notNew : op.newId = none := by
    cases op with
    | storeVisa => cases departure
    | _ => rfl
  refine ⟨(repo.call_counters op outcome).2.2, fun exact => ?_, fun id after found => ?_⟩
  · rcases repo.call_store op outcome with kept | ⟨plan, planned, -, written⟩
    · rw [kept]
      exact exact
    · rw [written]
      exact Indexed.applyMemory exact (RepoOp.decide_safe notNew planned).1
  · have stepped := Repo.step_entry (repo.step_call op notNew outcome) id
    rw [found] at stepped
    generalize isEvent : RepoEvent.call op outcome = event at stepped
    generalize isBefore : repo.store.visas[id]? = before at stepped
    generalize isAfter : some after = result at stepped
    cases stepped with
    | same => exact ⟨after, isAfter.symm, .refl after⟩
    | expired | removed => cases isAfter
    | stored =>
      cases isEvent
      cases departure
    | rewritten _ target entry metadata nodeStates rewrites own live changed =>
      cases isEvent
      cases isAfter
      cases op with
      | markVisaRevoked visaId =>
        cases rewrites
        cases changed
        exact ⟨entry, rfl, lessened_marked entry⟩
      | removeVisa | clearNodeState => cases rewrites
      | _ => cases departure
    | cleared node _ entry =>
      cases isAfter
      exact ⟨entry, rfl, lessened_erased entry node⟩

variable (redis : RepoOp → RedisOutcome)

theorem departs_removeOrphan (repo : Repo codec) (id : Nat) :
    Departs repo (repo.removeOrphan redis id) := by
  unfold removeOrphan
  split
  · exact .refl repo
  · exact departs_call repo (.removeVisa id) trivial _

theorem departs_revokeDeparted (repo : Repo codec) (id : Nat) :
    Departs repo (repo.revokeDeparted redis id) := by
  have marks : Departs repo (repo.call (.markVisaRevoked id) (redis (.markVisaRevoked id))).1 :=
    departs_call repo (.markVisaRevoked id) trivial _
  unfold revokeDeparted
  split
  next marked isMarked =>
    rw [isMarked] at marks
    exact marks.trans (departs_removeOrphan redis marked id)
  next same _ isSame =>
    rw [isSame] at marks
    exact marks

theorem departs_foldl {step : Repo codec → Nat → Repo codec}
    (departs : ∀ repo id, Departs repo (step repo id)) (ids : List Nat) (repo : Repo codec) :
    Departs repo (ids.foldl step repo) := by
  induction ids generalizing repo with
  | nil => exact .refl repo
  | cons id rest ih => exact (departs repo id).trans (ih (step repo id))

theorem departs_removeVisasForActors (repo : Repo codec) (addrs : List IpAddr) :
    Departs repo (repo.removeVisasForActors redis addrs) :=
  departs_foldl (departs_revokeDeparted redis) _ repo

theorem departs_removeVisasForNode (repo : Repo codec) (node : IpAddr) :
    Departs repo (repo.removeVisasForNode redis node) := by
  unfold removeVisasForNode
  dsimp only
  generalize getAllVisaIdsForNode repo.now repo.store node = ids
  have marks := departs_foldl (fun (repo : Repo codec) id =>
    repo.departs_call (.markVisaRevoked id) trivial (redis (.markVisaRevoked id))) ids repo
  generalize ids.foldl (fun (repo : Repo codec) id =>
    (repo.call (.markVisaRevoked id) (redis (.markVisaRevoked id))).1) repo = marked at marks ⊢
  have clears : Departs marked
      (marked.call (.clearNodeState node) (redis (.clearNodeState node))).1 :=
    departs_call marked (.clearNodeState node) trivial _
  split
  next cleared _ isCleared =>
    rw [isCleared] at clears
    exact marks.trans (clears.trans (departs_foldl (departs_removeOrphan redis) ids cleared))
  next failed _ isFailed =>
    rw [isFailed] at clears
    exact marks.trans clears

/-! ### Withdrawn visas -/

/-- The visa, if it is live, is a pending revoke on every node it lists. -/
def Withdrawn (repo : Repo codec) (id : Nat) : Prop :=
  ∀ entry, liveEntry repo.now repo.store id = some entry →
    ∀ (node : IpAddr) (ns : NodeState), entry.nodeStates[node]? = some ns →
      ns.state = .pendingRevoke

variable {id : Nat} {repo : Repo codec}

variable {next : Repo codec} {addrs : List IpAddr} {addr : IpAddr} {entry : VisaEntry}

theorem Departs.liveEntry (departs : Departs repo next) {after : VisaEntry}
    (live : VisaService.liveEntry next.now next.store id = some after) :
    ∃ before, VisaService.liveEntry repo.now repo.store id = some before ∧
      Lessened before after := by
  obtain ⟨found, unexpired⟩ := liveEntry_eq_some.mp live
  obtain ⟨before, isBefore, lessened⟩ := departs.entries id after found
  rw [departs.now, lessened.deadline] at unexpired
  exact ⟨before, liveEntry_eq_some.mpr ⟨isBefore, unexpired⟩, lessened⟩

theorem Departs.withdrawn (departs : Departs repo next) (withdrawn : repo.Withdrawn id) :
    next.Withdrawn id := by
  intro after live node ns found
  obtain ⟨before, wasLive, lessened⟩ := departs.liveEntry live
  rcases lessened.states node ns found with pending | earlier
  · exact pending
  · exact withdrawn before wasLive node ns earlier

variable {redis}

theorem withdrawn_revokeDeparted (applied : ∀ op, redis op = .applied)
    (encodes : ∀ visa, ∃ blob, codec.encode visa = .ok blob) (repo : Repo codec) (id : Nat) :
    (repo.revokeDeparted redis id).Withdrawn id := by
  cases live : liveEntry repo.now repo.store id with
  | none =>
    -- nothing to withdraw, and nothing comes back
    have vacuous : repo.Withdrawn id := fun entry isLive => by cases live.symm.trans isLive
    exact (departs_revokeDeparted redis repo id).withdrawn vacuous
  | some entry =>
    obtain ⟨blob, encoded⟩ := encodes entry.visa
    obtain ⟨replied, found⟩ :=
      repo.call_rewrite_applied (.markVisaRevoked id) rfl live rfl encoded
    have marked : (repo.call (.markVisaRevoked id) .applied).1.Withdrawn id := by
      intro after isLive node ns state
      cases found.symm.trans (liveEntry_eq_some.mp isLive).1
      simp only [Std.ExtTreeMap.getElem?_map, Option.map_eq_some_iff] at state
      obtain ⟨old, -, rfl⟩ := state
      rfl
    have isCall : repo.call (.markVisaRevoked id) (redis (.markVisaRevoked id)) =
        ((repo.call (.markVisaRevoked id) .applied).1, .ok true) := by
      rw [applied, ← replied]
    rw [revokeDeparted, isCall]
    exact (departs_removeOrphan redis _ id).withdrawn marked

theorem withdrawn_foldl_revokeDeparted (applied : ∀ op, redis op = .applied)
    (encodes : ∀ visa, ∃ blob, codec.encode visa = .ok blob) {ids : List Nat} (member : id ∈ ids)
    (repo : Repo codec) :
    (ids.foldl (revokeDeparted redis) repo).Withdrawn id := by
  induction ids generalizing repo with
  | nil => cases member
  | cons first rest ih =>
    rcases List.mem_cons.mp member with rfl | later
    · exact (departs_foldl (departs_revokeDeparted redis) rest _).withdrawn
        (withdrawn_revokeDeparted applied encodes repo id)
    · exact ih later _

theorem mem_getVisaIdsForActors {now : Nat} {inner : VisaStoreInner} (exact : inner.Indexed)
    (member : addr ∈ addrs) (live : VisaService.liveEntry now inner id = some entry)
    (ends : addr ∈ entry.metadata.endpoints) : id ∈ getVisaIdsForActors now inner addrs := by
  have holds : inner.byActor.Holds addr id :=
    (exact.byActor addr id).mpr ⟨entry, (liveEntry_eq_some.mp live).1, ends⟩
  obtain ⟨row, isRow, inRow⟩ := holds
  simp only [getVisaIdsForActors, List.mem_filter, List.mem_dedup, List.mem_flatMap, live,
    Option.isSome_some, and_true]
  exact ⟨addr, member, by simpa [isRow] using inRow⟩

theorem withdrawn_removeVisasForActors (applied : ∀ op, redis op = .applied)
    (encodes : ∀ visa, ∃ blob, codec.encode visa = .ok blob) (exact : repo.store.Indexed)
    (member : addr ∈ addrs)
    (live : VisaService.liveEntry (repo.removeVisasForActors redis addrs).now
      (repo.removeVisasForActors redis addrs).store id = some entry)
    (ends : addr ∈ entry.metadata.endpoints) :
    (repo.removeVisasForActors redis addrs).Withdrawn id := by
  obtain ⟨before, wasLive, lessened⟩ :=
    (departs_removeVisasForActors redis repo addrs).liveEntry live
  rw [lessened.metadata] at ends
  exact withdrawn_foldl_revokeDeparted applied encodes
    (mem_getVisaIdsForActors exact member wasLive ends) repo

end Repo

end VisaService
