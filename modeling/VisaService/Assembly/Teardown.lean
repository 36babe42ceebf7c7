import VisaService.Assembly.VisaCleanup
import VisaService.Visa.Verdicts

/-!
# Tearing down visas while others write

The teardown of a departed node lists the visas that reference it, marks each of them revoked,
drops the node from all visas, and removes those that no node references any more. The teardown
for departed actors marks and removes visa by visa. Other writers get their turns in between. A
mark leaves a deny stamp that is already there, so an allow verdict that is newer than the stamp
takes the mark back.

Main results: `departed_visa_revived` and `torn_down_unless_lifted`.
-/
namespace VisaService

open Lib

variable {codec : VisaCodec}

/-! ### The teardown -/

inductive Leaver where
  | node (addr : IpAddr)
  | actors (addrs : List IpAddr)

/-- What a teardown still has to do. -/
inductive Work where
  | mark (id : Nat)
  | clear (node : IpAddr)
  | check (id : Nat)
  | remove (id : Nat)
  /-- Mark the visa and, if it was still there, check it. -/
  | revoke (id : Nat)
  deriving DecidableEq

/-- Marks and clears; checks and removals only tidy up. -/
def Work.Matters : Work → Prop
  | check _ => False
  | remove _ => False
  | _ => True

namespace Leaver

/-- The visas that are listed when the teardown begins. -/
def ids (repo : Repo codec) : Leaver → List Nat
  | node addr => getAllVisaIdsForNode repo.now repo.store addr
  | actors addrs => getVisaIdsForActors repo.now repo.store addrs

/-- `remove_visas_for_node` and `remove_visas_for_actors` after the listing. -/
def work (ids : List Nat) : Leaver → List Work
  | node addr => ids.map .mark ++ .clear addr :: ids.map .check
  | actors _ => ids.map .revoke

/-- The visa references the node, or has one of the actors at an end. -/
def Concerns (entry : VisaEntry) : Leaver → Prop
  | node addr => addr ∈ entry.nodeStates
  | actors addrs => ∃ addr ∈ addrs, addr ∈ entry.metadata.endpoints

end Leaver

/-- A teardown under way; `marked` are the visas whose turn to be marked has come. -/
structure Teardown (codec : VisaCodec) where
  repo : Repo codec
  todo : List Work
  marked : List Nat

inductive TeardownEvent where
  | own
  | other (event : RepoEvent)

namespace Teardown

/-- The listed visas come in the order of a hash set. -/
def start (repo : Repo codec) (departed : Leaver) (ids : List Nat) : Teardown codec :=
  { repo, todo := departed.work ids, marked := [] }

/-- The teardown's next call; it stops where a call fails. -/
def own (state : Teardown codec) : Option (Teardown codec) :=
  match state.todo with
  | [] => none
  | .mark id :: rest =>
    match state.repo.call (.markVisaRevoked id) .applied with
    | (repo, .ok _) => some ⟨repo, rest, id :: state.marked⟩
    | (_, .error _) => none
  | .clear node :: rest =>
    match state.repo.call (.clearNodeState node) .applied with
    | (repo, .ok _) => some ⟨repo, rest, state.marked⟩
    | (_, .error _) => none
  | .check id :: rest =>
    if visaHasNodeRefs state.repo.now state.repo.store id then some { state with todo := rest }
    else some { state with todo := .remove id :: rest }
  | .remove id :: rest =>
    match state.repo.call (.removeVisa id) .applied with
    | (repo, .ok _) => some ⟨repo, rest, state.marked⟩
    | (_, .error _) => none
  | .revoke id :: rest =>
    match state.repo.call (.markVisaRevoked id) .applied with
    | (repo, .ok true) => some ⟨repo, .check id :: rest, id :: state.marked⟩
    | (repo, .ok false) => some ⟨repo, rest, id :: state.marked⟩
    | (_, .error _) => none

def step (state : Teardown codec) : TeardownEvent → Option (Teardown codec)
  | .own => state.own
  | .other event => (state.repo.step event).map fun repo => { state with repo }

end Teardown

/-! ### Consistent repositories -/

/-- What holds throughout the life of the database, however its codec behaves. -/
structure Repo.Consistent (repo : Repo codec) : Prop where
  indexed : repo.store.Indexed
  unique : repo.IdsUnique
  persisted : repo.Persisted

theorem Repo.consistent_init (now initialVisaId : Nat) :
    (Repo.init codec now initialVisaId).Consistent where
  indexed := indexed_empty
  unique := idsUnique_init now initialVisaId
  persisted id member := by simp [Repo.init] at member

variable {repo next : Repo codec}

theorem Repo.Consistent.indexed_step (consistent : repo.Consistent) {event : RepoEvent}
    (stepped : repo.step event = some next) : next.store.Indexed := by
  cases event with
  | tick nanos | getNextVisaId =>
    cases stepped
    exact consistent.indexed
  | purgeExpired =>
    cases stepped
    exact Repo.purgeExpired_indexed consistent.indexed
  | call op outcome =>
    obtain ⟨claimed, claims, rfl⟩ := Option.map_eq_some_iff.mp stepped
    obtain ⟨handed, left, rfl, -⟩ := Repo.claimId_eq_some claims
    rcases Repo.call_store { repo with handedOut := left } op outcome with
      kept | ⟨plan, planned, -, written⟩
    · rw [kept]
      exact consistent.indexed
    rw [written]
    refine Indexed.applyMemory consistent.indexed ?_
    cases isNew : op.newId with
    | none => exact (RepoOp.decide_safe isNew planned).1
    | some own =>
      cases op with
      | storeVisa visa metadata nstate =>
        cases isNew
        obtain ⟨-, record, -, rfl⟩ := storeVisa_eq_write.mp planned
        -- an id that was handed out is not in memory
        refine Option.eq_none_iff_forall_ne_some.mpr fun entry found => ?_
        exact (consistent.unique.stored _ entry found).2 (handed _ rfl)
      | _ => cases isNew

theorem Repo.Consistent.step (consistent : repo.Consistent) {event : RepoEvent}
    (stepped : repo.step event = some next) : next.Consistent :=
  ⟨consistent.indexed_step stepped, consistent.unique.step stepped,
    consistent.persisted.step consistent.unique stepped⟩

theorem Repo.Consistent.lifeStep (consistent : repo.Consistent) {event : LifeEvent}
    (stepped : repo.lifeStep event = some next) : next.Consistent := by
  cases event with
  | running event => exact consistent.step stepped
  | restart =>
    cases stepped
    exact ⟨restoreFromState_indexed _ _, consistent.persisted.idsUnique_restart,
      consistent.persisted.restart⟩

/-! ### What the steps of others leave -/

variable {id : Nat} {event : RepoEvent}

theorem Repo.Withdrawn.step (withdrawn : repo.Withdrawn id) (spent : repo.Spent id)
    (acks : event.OnlyInstallAcks) (unlifted : ¬ event.LiftsStamp repo id)
    (stepped : repo.step event = some next) : next.Withdrawn id := by
  intro entry live node ns state
  obtain ⟨found, alive⟩ := liveEntry_eq_some.mp live
  have elapsed : repo.now ≤ next.now := Repo.step_now stepped
  have wasLive {before : VisaEntry} (isBefore : repo.store.visas[id]? = some before)
      (deadline : entry.deadline = before.deadline) :
      liveEntry repo.now repo.store id = some before :=
    liveEntry_eq_some.mpr ⟨isBefore, by omega⟩
  have change := repo.step_entry stepped id
  rw [found] at change
  generalize isBefore : repo.store.visas[id]? = old at change
  cases change with
  | same => exact withdrawn entry (wasLive isBefore rfl) node ns state
  | stored visa metadata nstate old own handed => exact absurd handed spent.2
  | cleared target outcome entry =>
    exact withdrawn entry (wasLive isBefore rfl) node ns (HashMap.of_get_erase state).2
  | rewritten op target entry metadata nodeStates rewrites own isLive changed encodes =>
    have pending := withdrawn entry isLive
    by_cases allow : ∃ visaId vinst, op = .recordAllowVerdict visaId vinst
    · obtain ⟨visaId, vinst, rfl⟩ := allow
      cases rewrites
      simp only [allowChange] at changed
      split at changed
      · cases changed
      next newer =>
        cases changed
        simp only [Std.ExtTreeMap.getElem?_map, Option.map_eq_some_iff] at state
        obtain ⟨listed, wasListed, rfl⟩ := state
        have isPending := pending node listed wasListed
        -- an older stamp would make this very step lift it
        rw [NodeState.allowed_of_not_older fun stamp stamped older => unlifted
          ⟨own, entry, isLive, by omega, encodes, node, listed, stamp, wasListed, isPending,
            stamped, older⟩]
        exact isPending
    · simp only [not_exists] at allow
      exact (change_keeps_revoked rewrites acks allow changed pending state).2

def Repo.Unlisted (repo : Repo codec) (node : IpAddr) (id : Nat) : Prop :=
  ∀ entry, repo.store.visas[id]? = some entry → node ∉ entry.nodeStates

variable {node : IpAddr}

theorem Repo.Unlisted.step (unlisted : repo.Unlisted node id) (spent : repo.Spent id)
    (stepped : repo.step event = some next) : next.Unlisted node id := by
  intro entry found
  have change := repo.step_entry stepped id
  rw [found] at change
  generalize isBefore : repo.store.visas[id]? = old at change
  cases change with
  | same => exact unlisted entry isBefore
  | stored visa metadata nstate old own handed => exact absurd handed spent.2
  | cleared target outcome entry =>
    exact fun member => unlisted entry isBefore (HashMap.mem_erase.mp member).1
  | rewritten op target entry metadata nodeStates rewrites own isLive changed encodes =>
    intro member
    exact unlisted entry isBefore
      (((RepoOp.rewrite_domain rewrites changed).1 node).mp member).1

/-! ### What the calls of the teardown achieve -/

theorem Repo.withdrawn_mark {reply : Bool}
    (replied : (repo.call (.markVisaRevoked id) .applied).2 = .ok reply) :
    (repo.call (.markVisaRevoked id) .applied).1.Withdrawn id := by
  cases live : liveEntry repo.now repo.store id with
  | none =>
    have vacuous : repo.Withdrawn id := fun entry isLive => by cases live.symm.trans isLive
    exact (Repo.departs_call repo (.markVisaRevoked id) trivial .applied).withdrawn vacuous
  | some entry =>
    obtain ⟨-, found⟩ :=
      @Repo.call_rewrite_live _ (.markVisaRevoked id) _ repo entry reply rfl live replied
    simp only [markChange] at found
    intro after isLive node ns state
    cases found.symm.trans (liveEntry_eq_some.mp isLive).1
    simp only [Std.ExtTreeMap.getElem?_map, Option.map_eq_some_iff] at state
    obtain ⟨old, -, rfl⟩ := state
    rfl

theorem mem_clearNodeWrites {now : Nat} {inner : VisaStoreInner} {ids : List Nat}
    {writes : List (Nat × Option (VisaRecord codec.Blob × Nat))}
    (collected : clearNodeWrites codec now inner node ids = .ok writes) (member : id ∈ ids)
    {entry : VisaEntry} (found : inner.visas[id]? = some entry) (listed : node ∈ entry.nodeStates) :
    id ∈ writes.map Prod.fst := by
  induction ids generalizing writes with
  | nil => cases member
  | cons first rest ih =>
    unfold clearNodeWrites at collected
    split at collected
    · cases collected
    next head written =>
      split at collected
      · cases collected
      next tail others =>
        cases collected
        rw [List.map_append, List.mem_append]
        rcases List.mem_cons.mp member with rfl | later
        · left
          simp only [clearNodeWrite, found, if_pos listed] at written
          split at written
          · split at written
            · cases written
            · cases written
              exact List.mem_cons_self
          · cases written
            exact List.mem_cons_self
        · exact .inr (ih others later)

theorem Repo.unlisted_clear {reply : Bool} (indexed : repo.store.Indexed)
    (replied : (repo.call (.clearNodeState node) .applied).2 = .ok reply) (id : Nat) :
    (repo.call (.clearNodeState node) .applied).1.Unlisted node id := by
  cases decided : (RepoOp.clearNodeState node).decide codec repo.now repo.store with
  | done reply =>
    simp only [Repo.call, decided] at replied
    have planned : clearNodeState codec repo.now repo.store node = .done reply := decided
    unfold clearNodeState at planned
    split at planned
    · cases planned
      cases replied
    · cases planned
  | write plan =>
    obtain ⟨writes, collected, rfl⟩ := clearNodeState_eq_write decided
    intro entry found
    simp only [Repo.call, decided, Repo.commit, or_true, if_true, applyMemory,
      clearNode_visas] at found
    split at found
    next isWritten =>
      obtain ⟨before, -, rfl⟩ := Option.map_eq_some_iff.mp found
      exact fun member => (HashMap.mem_erase.mp member).2 rfl
    next unwritten =>
      intro listed
      have holds : repo.store.byNode.Holds node id :=
        (indexed.byNode node id).mpr ⟨entry, found, listed⟩
      obtain ⟨row, isRow, inRow⟩ := holds
      have inList : id ∈ nodeRow repo.store node := by
        simpa [nodeRow, isRow] using inRow
      exact unwritten (mem_clearNodeWrites collected inList found listed)

/-! ### The invariant of a teardown -/

namespace Teardown

variable {state after : Teardown codec}

/-- Everything a call of the teardown can do. -/
inductive Own (state after : Teardown codec) : Prop where
  | mark (id : Nat) (rest : List Work) (reply : Bool)
      (isTodo : state.todo = .mark id :: rest ∨ state.todo = .revoke id :: rest)
      (replied : (state.repo.call (.markVisaRevoked id) .applied).2 = .ok reply)
      (isRepo : after.repo = (state.repo.call (.markVisaRevoked id) .applied).1)
      (isRest : after.todo = rest ∨ after.todo = .check id :: rest)
      (isMarked : after.marked = id :: state.marked)
  | clear (node : IpAddr) (rest : List Work) (reply : Bool) (isTodo : state.todo = .clear node :: rest)
      (replied : (state.repo.call (.clearNodeState node) .applied).2 = .ok reply)
      (isRepo : after.repo = (state.repo.call (.clearNodeState node) .applied).1)
      (isRest : after.todo = rest) (isMarked : after.marked = state.marked)
  | check (id : Nat) (rest : List Work) (isTodo : state.todo = .check id :: rest)
      (isRepo : after.repo = state.repo)
      (isRest : after.todo = rest ∨ after.todo = .remove id :: rest)
      (isMarked : after.marked = state.marked)
  | remove (id : Nat) (rest : List Work) (isTodo : state.todo = .remove id :: rest)
      (isRepo : after.repo = (state.repo.call (.removeVisa id) .applied).1)
      (isRest : after.todo = rest) (isMarked : after.marked = state.marked)

theorem own_cases (steps : state.own = some after) : Own state after := by
  unfold own at steps
  split at steps
  · cases steps
  next id rest isTodo =>
    split at steps
    next result reply called =>
      cases steps
      exact .mark id rest reply (.inl isTodo) (by rw [called]) (by rw [called]) (.inl rfl) rfl
    · cases steps
  next node rest isTodo =>
    split at steps
    next result reply called =>
      cases steps
      exact .clear node rest reply isTodo (by rw [called]) (by rw [called]) rfl rfl
    · cases steps
  next id rest isTodo =>
    split at steps <;> cases steps
    · exact .check id rest isTodo rfl (.inl rfl) rfl
    · exact .check id rest isTodo rfl (.inr rfl) rfl
  next id rest isTodo =>
    split at steps
    next result reply called =>
      cases steps
      exact .remove id rest isTodo (by rw [called]) rfl rfl
    · cases steps
  next id rest isTodo =>
    split at steps
    next result called =>
      cases steps
      exact .mark id rest true (.inr isTodo) (by rw [called]) (by rw [called]) (.inr rfl) rfl
    next result called =>
      cases steps
      exact .mark id rest false (.inr isTodo) (by rw [called]) (by rw [called]) (.inl rfl) rfl
    · cases steps

/-- No verdict lifts the stamp of a visa that the teardown has marked. -/
def Unlifted (state : Teardown codec) : TeardownEvent → Prop
  | .own => True
  | .other event => ∀ id ∈ state.marked, ¬ event.LiftsStamp state.repo id

/-- Install acknowledgements are the only compare-and-swaps. -/
def OnlyInstallAcks : TeardownEvent → Prop
  | .own => True
  | .other event => event.OnlyInstallAcks

/-- A visa the teardown is about has been marked and is withdrawn, or is still to be marked; the
departed node has been dropped from the visas that were there, or is still to be. -/
structure Inv (begun : Repo codec) (departed : Leaver) (ids : List Nat)
    (state : Teardown codec) : Prop where
  consistent : state.repo.Consistent
  spent : ∀ id, begun.Spent id → state.repo.Spent id
  own : ∀ id, id ∈ state.marked ∨ .mark id ∈ state.todo ∨ .revoke id ∈ state.todo →
    begun.Spent id
  withdrawn : ∀ id ∈ state.marked, state.repo.Withdrawn id
  pending : ∀ id ∈ ids, id ∈ state.marked ∨ .mark id ∈ state.todo ∨ .revoke id ∈ state.todo
  cleared : ∀ node, departed = .node node → .clear node ∈ state.todo ∨
    ∀ id, begun.Spent id → state.repo.Unlisted node id

variable {begun : Repo codec} {departed : Leaver} {ids : List Nat}

variable (inv : Inv begun departed ids state)
include inv

theorem Inv.repoStep {event : RepoEvent} {next : Repo codec}
    (acks : event.OnlyInstallAcks)
    (unlifted : ∀ id ∈ state.marked, ¬ event.LiftsStamp state.repo id)
    (stepped : state.repo.step event = some next) :
    Inv begun departed ids { state with repo := next } where
  consistent := inv.consistent.step stepped
  spent id isSpent := (inv.spent id isSpent).step stepped
  own := inv.own
  withdrawn id member :=
    (inv.withdrawn id member).step (inv.spent id (inv.own id (.inl member))) acks
      (unlifted id member) stepped
  pending := inv.pending
  cleared node isNode := (inv.cleared node isNode).imp id fun unlisted id isSpent =>
    (unlisted id isSpent).step (inv.spent id isSpent) stepped

/-- A call of the teardown is a step of the repository that lifts no stamp. -/
theorem Inv.call (op : RepoOp) (departure : op.IsDeparture) :
    Inv begun departed ids { state with repo := (state.repo.call op .applied).1 } := by
  have notNew : op.newId = none := by
    cases op with
    | storeVisa => cases departure
    | _ => rfl
  have stepped := state.repo.step_call op notNew .applied
  refine inv.repoStep ?_ (fun id _ => ?_) stepped
  · cases op with
    | transitionNodeVisaState => cases departure
    | _ => trivial
  · cases op with
    | recordAllowVerdict => cases departure
    | _ => exact fun lifts => lifts

theorem Inv.step_mark {id : Nat} {rest todo : List Work}
    {reply : Bool} (isTodo : state.todo = .mark id :: rest ∨ state.todo = .revoke id :: rest)
    (replied : (state.repo.call (.markVisaRevoked id) .applied).2 = .ok reply)
    (isRest : todo = rest ∨ todo = .check id :: rest) :
    Inv begun departed ids
      ⟨(state.repo.call (.markVisaRevoked id) .applied).1, todo, id :: state.marked⟩ := by
  have called := inv.call (.markVisaRevoked id) trivial
  -- the mark is done, everything else that matters is still to be done
  have same (work : Work) (matters : work.Matters) :
      work ∈ state.todo ↔ work ∈ todo ∨ state.todo.head? = some work := by
    rcases isTodo with isTodo | isTodo <;> rcases isRest with isRest | isRest <;>
      cases work <;> simp_all [Work.Matters, eq_comm, or_comm]
  have isHead (work : Work) (head : state.todo.head? = some work) :
      work = .mark id ∨ work = .revoke id := by
    rcases isTodo with isTodo | isTodo <;> simp_all
  have isSpent : begun.Spent id := by
    refine inv.own id (.inr ?_)
    rcases isTodo with isTodo | isTodo <;> simp [isTodo]
  refine ⟨called.consistent, called.spent, fun other => ?_, fun other member => ?_,
    fun other member => ?_, fun node isNode => ?_⟩
  · rintro (member | member | member)
    · rcases List.mem_cons.mp member with rfl | member
      · exact isSpent
      · exact inv.own other (.inl member)
    · exact inv.own other (.inr (.inl ((same (.mark other) trivial).mpr (.inl member))))
    · exact inv.own other (.inr (.inr ((same (.revoke other) trivial).mpr (.inl member))))
  · rcases List.mem_cons.mp member with rfl | member
    · exact Repo.withdrawn_mark replied
    · exact called.withdrawn other member
  · rcases inv.pending other member with member | member | member
    · exact .inl (List.mem_cons_of_mem _ member)
    · rcases (same (.mark other) trivial).mp member with later | head
      · exact .inr (.inl later)
      · rcases isHead _ head with equal | equal <;> cases equal
        exact .inl List.mem_cons_self
    · rcases (same (.revoke other) trivial).mp member with later | head
      · exact .inr (.inr later)
      · rcases isHead _ head with equal | equal <;> cases equal
        exact .inl List.mem_cons_self
  · rcases called.cleared node isNode with member | unlisted
    · rcases (same (.clear node) trivial).mp member with later | head
      · exact .inl later
      · rcases isHead _ head with equal | equal <;> cases equal
    · exact .inr unlisted

theorem Inv.step_clear {node : IpAddr} {rest : List Work}
    {reply : Bool} (isTodo : state.todo = .clear node :: rest)
    (replied : (state.repo.call (.clearNodeState node) .applied).2 = .ok reply) :
    Inv begun departed ids
      ⟨(state.repo.call (.clearNodeState node) .applied).1, rest, state.marked⟩ := by
  have called := inv.call (.clearNodeState node) trivial
  refine { called with
    own := fun other member => ?_
    pending := fun other member => ?_
    cleared := fun other isNode => ?_ }
  · refine inv.own other ?_
    simpa [isTodo] using member
  · simpa [isTodo] using inv.pending other member
  · by_cases same : other = node
    · subst same
      exact .inr fun id _ => Repo.unlisted_clear inv.consistent.indexed replied id
    · rcases called.cleared other isNode with member | unlisted
      · left
        simpa [isTodo, same] using member
      · exact .inr unlisted

/-- The rest of the work matters only as far as marks and the clear are concerned. -/
theorem Inv.with_todo {todo : List Work}
    (same : ∀ work : Work, work.Matters → (work ∈ todo ↔ work ∈ state.todo)) :
    Inv begun departed ids { state with todo } where
  consistent := inv.consistent
  spent := inv.spent
  own other member := by
    refine inv.own other ?_
    rwa [same (.mark other) trivial, same (.revoke other) trivial] at member
  withdrawn := inv.withdrawn
  pending other member := by
    rw [same (.mark other) trivial, same (.revoke other) trivial]
    exact inv.pending other member
  cleared node isNode := by
    rw [same (.clear node) trivial]
    exact inv.cleared node isNode

theorem Inv.step_own (steps : state.own = some after) :
    Inv begun departed ids after := by
  obtain ⟨repo, todo, marked⟩ := after
  cases own_cases steps with
  | mark id rest reply isTodo replied isRepo isRest isMarked =>
    cases isRepo
    cases isMarked
    exact inv.step_mark isTodo replied isRest
  | clear node rest reply isTodo replied isRepo isRest isMarked =>
    cases isRepo
    cases isRest
    cases isMarked
    exact inv.step_clear isTodo replied
  | check id rest isTodo isRepo isRest isMarked =>
    cases isRepo
    cases isMarked
    refine inv.with_todo fun work matters => ?_
    rcases isRest with isRest | isRest <;> cases isRest <;> cases work <;>
      simp_all [Work.Matters]
  | remove id rest isTodo isRepo isRest isMarked =>
    cases isRepo
    cases isRest
    cases isMarked
    refine (inv.call (.removeVisa id) trivial).with_todo fun work matters => ?_
    cases work <;> simp_all [Work.Matters]

theorem Inv.step {event : TeardownEvent}
    (acks : OnlyInstallAcks event) (unlifted : state.Unlifted event)
    (stepped : state.step event = some after) : Inv begun departed ids after := by
  cases event with
  | own => exact inv.step_own stepped
  | other event =>
    obtain ⟨repo, repoStepped, rfl⟩ := Option.map_eq_some_iff.mp stepped
    exact inv.repoStep acks unlifted repoStepped

omit inv

theorem inv_start (consistent : begun.Consistent) (listed : ids.Perm (departed.ids begun)) :
    Inv begun departed ids (start begun departed ids) where
  consistent := consistent
  spent _ isSpent := isSpent
  own id member := by
    have isListed : id ∈ departed.ids begun := by
      refine listed.mem_iff.mp ?_
      cases departed <;> simpa [start, Leaver.work] using member
    -- only live visas are listed
    obtain ⟨entry, live⟩ : ∃ entry, liveEntry begun.now begun.store id = some entry := by
      refine Option.isSome_iff_exists.mp ?_
      cases departed with
      | node addr | actors addrs => exact (List.mem_filter.mp isListed).2
    exact consistent.unique.stored id entry (liveEntry_eq_some.mp live).1
  withdrawn _ := nofun
  pending id member := by
    cases departed <;> simp [start, Leaver.work, member]
  cleared node isNode := by
    subst isNode
    simp [start, Leaver.work]

end Teardown

theorem Leaver.mem_ids {begun : Repo codec} (indexed : begun.store.Indexed)
    {departed : Leaver} {id : Nat} {entry : VisaEntry}
    (live : liveEntry begun.now begun.store id = some entry) (concerns : departed.Concerns entry) :
    id ∈ departed.ids begun := by
  cases departed with
  | node addr =>
    have holds : begun.store.byNode.Holds addr id :=
      (indexed.byNode addr id).mpr ⟨entry, (liveEntry_eq_some.mp live).1, concerns⟩
    obtain ⟨row, isRow, inRow⟩ := holds
    refine List.mem_filter.mpr ⟨?_, by simp [live]⟩
    simpa [nodeRow, isRow] using inRow
  | actors addrs =>
    obtain ⟨addr, member, ends⟩ := concerns
    exact Repo.mem_getVisaIdsForActors indexed member live ends

/-- After a teardown that has come to its end, for good: every live visa that concerned the
departed waits for its revoke on every node it lists, and no visa that was stored when the
teardown began lists the departed node. -/
theorem torn_down_unless_lifted {now initialVisaId : Nat} {history : List LifeEvent}
    {begun : Repo codec} {departed : Leaver} {ids : List Nat} {events : List TeardownEvent}
    {final : Teardown codec}
    (reached : run Repo.lifeStep (Repo.init codec now initialVisaId) history = some begun)
    (listed : ids.Perm (departed.ids begun))
    (acks : ∀ event ∈ events, Teardown.OnlyInstallAcks event)
    (unlifted : Meets Teardown.step Teardown.Unlifted (.start begun departed ids) events)
    (ran : run Teardown.step (.start begun departed ids) events = some final)
    (ended : final.todo = []) :
    (∀ id entry, liveEntry begun.now begun.store id = some entry → departed.Concerns entry →
      final.repo.Withdrawn id) ∧
    ∀ node, departed = .node node → ∀ (id : Nat), id ∈ begun.store.visas →
      final.repo.Unlisted node id := by
  have consistent : begun.Consistent :=
    run_preserves (fun _ _ _ consistent stepped => consistent.lifeStep stepped)
      (Repo.consistent_init now initialVisaId) reached
  have inv : Teardown.Inv begun departed ids final :=
    run_preserves_of_meets
      (fun _ _ _ inv met stepped => Teardown.Inv.step inv met.1 met.2 stepped)
      (Teardown.inv_start consistent listed)
      ((meets_of_forall (fun event member _ => acks event member) _).and unlifted) ran
  refine ⟨fun id entry live concerns => ?_, fun node isNode id stored => ?_⟩
  · have member := listed.mem_iff.mpr (Leaver.mem_ids consistent.indexed live concerns)
    rcases inv.pending id member with marked | todo | todo
    · exact inv.withdrawn id marked
    · simp [ended] at todo
    · simp [ended] at todo
  · obtain ⟨entry, found⟩ := HashMap.get_of_mem stored
    rcases inv.cleared node isNode with todo | unlisted
    · simp [ended] at todo
    · exact unlisted id (consistent.unique.stored id entry found)

namespace TeardownTrace

open Sample

/-- A visa is stored and a deny verdict at policy 1 stamps its node. -/
def history : List LifeEvent := RevocationTrace.history.map .running

def denied : Repo .plain :=
  (run Repo.lifeStep (Repo.init .plain 0 0) history).getD (Repo.init .plain 0 0)

/-- The actor at one end of the visa leaves. -/
def source : Leaver := .actors [.v4 1]

/-- The visa is marked and found to be referenced; then a verdict on it is recorded. -/
def events (verdict : RepoOp) : List TeardownEvent :=
  [.own, .own, .other (.call verdict .applied)]

def ended (verdict : RepoOp) : Teardown .plain :=
  (run Teardown.step (.start denied source [1]) (events verdict)).getD (.start denied source [1])

theorem concerned :
    ∃ entry, liveEntry denied.now denied.store 1 = some entry ∧ source.Concerns entry := by
  obtain ⟨entry, live⟩ := Option.isSome_iff_exists.mp
    (show (liveEntry denied.now denied.store 1).isSome = true by decide +kernel)
  have ends : ∀ entry ∈ liveEntry denied.now denied.store 1,
      IpAddr.v4 1 ∈ entry.metadata.endpoints := by decide +kernel
  exact ⟨entry, live, .v4 1, List.mem_singleton_self _, ends entry live⟩

end TeardownTrace

open TeardownTrace in
/-- An allow at policy 2 returns the departed actor's visa to its node. -/
theorem departed_visa_revived :
    ¬ ∀ (codec : VisaCodec) (now initialVisaId : Nat) (history : List LifeEvent)
      (begun : Repo codec) (departed : Leaver) (ids : List Nat) (events : List TeardownEvent)
      (final : Teardown codec),
      run Repo.lifeStep (Repo.init codec now initialVisaId) history = some begun →
      ids.Perm (departed.ids begun) →
      (∀ event ∈ events, Teardown.OnlyInstallAcks event) →
      run Teardown.step (.start begun departed ids) events = some final →
      final.todo = [] →
      (∀ id entry, liveEntry begun.now begun.store id = some entry → departed.Concerns entry →
        final.repo.Withdrawn id) ∧
      ∀ node, departed = .node node → ∀ (id : Nat), id ∈ begun.store.visas →
        final.repo.Unlisted node id := by
  intro always
  obtain ⟨withdrawn, -⟩ := always .plain 0 0 history denied source [1]
    (events (.recordAllowVerdict 1 2)) (ended (.recordAllowVerdict 1 2))
    (run_eq_some_getD (by decide +kernel) _) (by decide +kernel)
    (by simp [events, Teardown.OnlyInstallAcks, RepoEvent.OnlyInstallAcks])
    (run_eq_some_getD (by decide +kernel) _) (by decide +kernel)
  obtain ⟨entry, live, concerns⟩ := concerned
  have revived : ((liveEntry (ended (.recordAllowVerdict 1 2)).repo.now
      (ended (.recordAllowVerdict 1 2)).repo.store 1).bind fun entry =>
        entry.nodeStates[Sample.node]?).map (·.state) = some .pendingInstall := by
    decide +kernel
  simp only [Option.map_eq_some_iff, Option.bind_eq_some_iff] at revived
  obtain ⟨ns, ⟨after, isLive, listed⟩, isInstall⟩ := revived
  cases isInstall.symm.trans (withdrawn 1 entry live concerns after isLive Sample.node ns listed)

open TeardownTrace in
/-- A further deny leaves the visa withdrawn. -/
theorem departed_visa_withdrawn : (ended (.recordDenyVerdict 1 2)).repo.Withdrawn 1 := by
  obtain ⟨entry, live, concerns⟩ := concerned
  exact (@torn_down_unless_lifted .plain 0 0 history denied source [1]
    (events (.recordDenyVerdict 1 2)) (ended (.recordDenyVerdict 1 2))
    (run_eq_some_getD (by decide +kernel) _) (by decide +kernel)
    (by simp [events, Teardown.OnlyInstallAcks, RepoEvent.OnlyInstallAcks])
    ⟨trivial, fun _ _ => ⟨trivial, fun _ _ => ⟨fun _ _ lifts => lifts, fun _ _ => trivial⟩⟩⟩
    (run_eq_some_getD (by decide +kernel) _) (by decide +kernel)).1 1 entry live concerns

end VisaService
