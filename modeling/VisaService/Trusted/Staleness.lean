import VisaService.Trusted.Refresh

/-!
# Sources that are not stale

A source that is current for an actor should have been queried after its last notification
and its last flush. A pass that overtakes another one writes an older copy of the actor back
after the newer pass has committed, and the write asks for neither generation nor revision.

Main results: `overtaken_pass_hides_staleness` and `current_source_fresh`.
-/
namespace VisaService

open Lib

/-- The actor stays connected, and its session is not renewed. -/
def RefreshEvent.Continuous : RefreshEvent → Prop
  | .remove | .forget | .connect _ | .loadForRenewal | .renew _ _ _ _ => False
  | _ => True

namespace Refresher

variable {state next : Refresher}

/-- The tick is after the last notification and the last flush of the source. -/
def Since (state : Refresher) (source : String) (tick : Nat) : Prop :=
  (∀ notice, state.notified[source]? = some notice → notice < tick) ∧
    ∀ flush, state.flushed[source]? = some flush → flush < tick

/-- What the captured revision and generation say about a query that started at the tick. -/
def Caught (state : Refresher) (source : String) (revision generation tick : Nat) : Prop :=
  ((state.mgr.record state.addr source).generation = generation →
    ∀ notice, state.notified[source]? = some notice → notice < tick) ∧
  (state.mgr.services[source]? = some revision →
    ∀ flush, state.flushed[source]? = some flush → flush < tick)

variable {source : String}

theorem Since.caught {tick : Nat} (since : state.Since source tick) (revision generation : Nat) :
    state.Caught source revision generation tick :=
  ⟨fun _ => since.1, fun _ => since.2⟩

/-- A stale source whose revision and generation were captured. -/
structure Captured (state : Refresher) (source : String) (revision generation : Nat) : Prop where
  stale : ¬ state.mgr.Current state.addr source
  observed : generation ≤ (state.mgr.record state.addr source).generation
  below : revision < state.mgr.revisionCounter

/-- A commit that a pass has still to make for attributes that came with `origin`. -/
structure Pending (state : Refresher) (origin : HashMap String Nat) (source : String)
    (revision generation : Nat) : Prop where
  observed : generation ≤ (state.mgr.record state.addr source).generation
  below : revision < state.mgr.revisionCounter
  caught : revision = revisionNever ∨
    ∃ tick, origin[source]? = some tick ∧ state.Caught source revision generation tick

/-- Before it writes, a pass has changed only what it has queried. -/
structure Working (state : Refresher) (stored : StoredActor) (pass : Pass) (todo : List String) :
    Prop where
  loadedAt : pass.loadedAt = state.writes
  distinct : todo.Nodup
  captured : ∀ (source : String) (revision generation : Nat),
    pass.stale[source]? = some (revision, generation) → state.Captured source revision generation
  fresh : ∀ source : String, pass.stale[source]? = none → state.mgr.Current state.addr source →
    pass.origin[source]? = stored.origin[source]? ∨
      ∃ tick, pass.origin[source]? = some tick ∧ state.Since source tick
  pending : ∀ source revision generation, (source, revision, generation) ∈ pass.outcome.revisions →
    state.Pending pass.origin source revision generation ∧ source ∉ todo

/-- What holds of a pass in flight when there is no other. -/
def PassOk (state : Refresher) (stored : StoredActor) (pass : Pass) : Prop :=
  pass.loaded.zprAddr = some state.addr ∧
  match pass.phase with
  | .loaded =>
    pass.loadedAt = state.writes ∧ pass.origin = stored.origin ∧ pass.stale = ∅ ∧
      pass.outcome.revisions = []
  | .capturing todo =>
    pass.loadedAt = state.writes ∧ pass.origin = stored.origin ∧ pass.outcome.revisions = [] ∧
      (∀ source revision, (source, revision) ∈ todo →
        ¬ state.mgr.Current state.addr source ∧ revision < state.mgr.revisionCounter) ∧
      ∀ (source : String) (revision generation : Nat),
        pass.stale[source]? = some (revision, generation) →
          state.Captured source revision generation
  | .asking todo => Working state stored pass todo
  | .waiting source since todo =>
    Working state stored pass (source :: todo) ∧
      match pass.stale[source]? with
      | some (revision, generation) => state.Caught source revision generation since
      | none => state.mgr.Current state.addr source → state.Since source since
  | .persisting => Working state stored pass []
  | .committing todo =>
    pass.actor.zprAddr = some state.addr →
      ∀ source revision generation, (source, revision, generation) ∈ todo →
        state.Pending stored.origin source revision generation
  | .returned _ => True

/-- Besides the passes. -/
structure Tracked (state : Refresher) (stored : StoredActor) : Prop where
  isStored : state.stored = some stored
  isAddr : stored.actor.zprAddr = some state.addr
  served : ∀ (source : String) (revision : Nat), state.mgr.services[source]? = some revision →
    revisionNever < revision ∧ revision < state.mgr.revisionCounter
  recorded : ∀ (source : String) (revision : Nat),
    (state.mgr.record state.addr source).revision = some revision →
      revision < state.mgr.revisionCounter
  past : ∀ source : String, state.Since source state.ticks
  fresh : ∀ source, state.mgr.Current state.addr source →
    ∃ tick, stored.origin[source]? = some tick ∧ state.Since source tick

/-- At most one pass is in flight. -/
structure Alone (state : Refresher) (stored : StoredActor) : Prop where
  ok : ∀ (place : Nat) (pass : Pass), state.passes[place]? = some pass → pass.phase.Running →
    state.PassOk stored pass
  single : ∀ (place other : Nat) (pass rival : Pass), state.passes[place]? = some pass →
    state.passes[other]? = some rival → pass.phase.Running → rival.phase.Running → place = other

/-! ### Notifications and flushes -/

theorem flush_cases (acted : state.act (.flush source) = some next) :
    source ∈ state.mgr.services ∧ next = { state with
      mgr := { state.mgr with
        services := state.mgr.services.insert source state.mgr.revisionCounter
        revisionCounter := state.mgr.revisionCounter + 1 }
      flushed := state.flushed.insert source state.ticks } := by
  simp only [act, TrustedServicesMgr.flushOne] at acted
  by_cases configured : source ∈ state.mgr.services
  · simp only [configured, if_true, Option.some.injEq] at acted
    exact ⟨configured, acted.symm⟩
  · simp only [configured, if_false, reduceCtorEq] at acted

/-- What a notification or a flush may do. -/
structure Later (state next : Refresher) : Prop where
  addr : next.addr = state.addr
  writes : next.writes = state.writes
  counter : state.mgr.revisionCounter ≤ next.mgr.revisionCounter
  generation : ∀ source, (state.mgr.record state.addr source).generation ≤
    (next.mgr.record state.addr source).generation
  current : ∀ source, next.mgr.Current state.addr source → state.mgr.Current state.addr source
  since : ∀ source tick, state.Since source tick → next.mgr.Current state.addr source →
    next.Since source tick
  caught : ∀ source revision generation tick, state.Caught source revision generation tick →
    generation ≤ (state.mgr.record state.addr source).generation →
    revision < state.mgr.revisionCounter → next.Caught source revision generation tick

theorem Later.tick (later : Later state next) (ticks : Nat) : Later state { next with ticks } :=
  { later with }

variable {stored : StoredActor} {pass : Pass}

theorem Captured.later {revision generation : Nat} (later : Later state next)
    (captured : state.Captured source revision generation) :
    next.Captured source revision generation where
  stale current := captured.stale (later.current source (later.addr ▸ current))
  observed := by
    rw [later.addr]
    exact captured.observed.trans (later.generation source)
  below := captured.below.trans_le later.counter

theorem Pending.later {origin : HashMap String Nat} {revision generation : Nat}
    (later : Later state next) (pending : state.Pending origin source revision generation) :
    next.Pending origin source revision generation where
  observed := by
    rw [later.addr]
    exact pending.observed.trans (later.generation source)
  below := pending.below.trans_le later.counter
  caught := pending.caught.imp id fun ⟨tick, isOrigin, caught⟩ =>
    ⟨tick, isOrigin, later.caught _ _ _ _ caught pending.observed pending.below⟩

theorem Working.later {todo : List String} (later : Later state next)
    (working : Working state stored pass todo) : Working next stored pass todo where
  loadedAt := working.loadedAt.trans later.writes.symm
  distinct := working.distinct
  captured source revision generation found :=
    (working.captured source revision generation found).later later
  fresh source unasked current := by
    rw [later.addr] at current
    refine (working.fresh source unasked (later.current source current)).imp id ?_
    rintro ⟨tick, isOrigin, since⟩
    exact ⟨tick, isOrigin, later.since source tick since current⟩
  pending source revision generation member :=
    (working.pending source revision generation member).imp (Pending.later later) id

theorem PassOk.later (later : Later state next) (ok : state.PassOk stored pass) :
    next.PassOk stored pass := by
  obtain ⟨policy, actor, expired, stale, outcome, phase, loaded, loadedAt, incarnation, asked,
    origin⟩ := pass
  obtain ⟨isAddr, ok⟩ := ok
  refine ⟨isAddr.trans (congrArg some later.addr.symm), ?_⟩
  cases phase with
  | loaded => exact ⟨ok.1.trans later.writes.symm, ok.2⟩
  | capturing todo =>
    obtain ⟨loadedAt, origin, none, unread, captured⟩ := ok
    refine ⟨loadedAt.trans later.writes.symm, origin, none, fun source revision member => ?_,
      fun source revision generation found => (captured _ _ _ found).later later⟩
    obtain ⟨stale, below⟩ := unread source revision member
    exact ⟨fun current => stale (later.current source (later.addr ▸ current)),
      below.trans_le later.counter⟩
  | asking todo | persisting => exact ok.later later
  | waiting source since todo =>
    obtain ⟨working, asked⟩ := ok
    refine ⟨working.later later, ?_⟩
    cases isStale : stale[source]? with
    | none =>
      simp only [isStale] at asked ⊢
      intro current
      rw [later.addr] at current
      exact later.since source since (asked (later.current source current)) current
    | some entry =>
      simp only [isStale] at asked ⊢
      have captured := working.captured source entry.1 entry.2 isStale
      exact later.caught _ _ _ _ asked captured.observed captured.below
  | committing todo =>
    intro isTarget source revision generation member
    exact (ok (later.addr ▸ isTarget) source revision generation member).later later
  | returned result => trivial

/-- Nothing changes for the actor's record, the sources and the bookkeeping of them. -/
structure Still (state next : Refresher) : Prop where
  addr : next.addr = state.addr
  writes : next.writes = state.writes
  record : ∀ source, next.mgr.record state.addr source = state.mgr.record state.addr source
  services : next.mgr.services = state.mgr.services
  counter : next.mgr.revisionCounter = state.mgr.revisionCounter
  notified : next.notified = state.notified
  flushed : next.flushed = state.flushed

theorem Still.since (still : Still state next) {tick : Nat} :
    next.Since source tick ↔ state.Since source tick := by
  unfold Since
  rw [still.notified, still.flushed]

theorem Still.current (still : Still state next) :
    next.mgr.Current state.addr source ↔ state.mgr.Current state.addr source := by
  unfold TrustedServicesMgr.Current
  rw [still.record, still.services]

theorem Still.later (still : Still state next) : Later state next where
  addr := still.addr
  writes := still.writes
  counter := still.counter.ge
  generation source := by rw [still.record]
  current source current := still.current.mp current
  since source tick since _ := still.since.mpr since
  caught source revision generation tick caught _ _ := by
    unfold Caught
    rw [still.addr, still.record, still.services, still.notified, still.flushed]
    exact caught

theorem later_of_notify (acted : state.act (.notify source) = some next) :
    Later state next := by
  cases acted
  have record := state.mgr.record_forgetSourceRevision state.addr source
  have cleared :
      ¬ (state.mgr.forgetSourceRevision state.addr source).Current state.addr source := by
    rintro ⟨revision, -, recorded⟩
    rw [record, if_pos rfl] at recorded
    cases recorded
  refine ⟨rfl, rfl, le_rfl, fun other => ?_, fun other current => ?_,
    fun other tick since current => ?_,
    fun other revision generation tick caught observed below => ?_⟩
  · rw [record]
    split
    next same =>
      subst same
      exact Nat.le_succ _
    · exact le_rfl
  · by_cases same : source = other
    · subst same
      exact absurd current cleared
    · obtain ⟨revision, serves, recorded⟩ := current
      rw [record, if_neg same] at recorded
      exact ⟨revision, serves, recorded⟩
  · by_cases same : source = other
    · subst same
      exact absurd current cleared
    · refine ⟨fun notice isNotice => since.1 notice ?_, since.2⟩
      rwa [HashMap.get_insert, if_neg same] at isNotice
  · refine ⟨fun same notice isNotice => ?_, caught.2⟩
    by_cases own : source = other
    · -- The generation is past the one that was observed.
      subst own
      rw [record, if_pos rfl] at same
      change _ + 1 = generation at same
      omega
    · rw [record, if_neg own] at same
      rw [HashMap.get_insert, if_neg own] at isNotice
      exact caught.1 same notice isNotice

theorem later_of_flush (tracked : Tracked state stored)
    (acted : state.act (.flush source) = some next) : Later state next := by
  obtain ⟨configured, rfl⟩ := flush_cases acted
  have unrecorded : ¬ TrustedServicesMgr.Current { state.mgr with
      services := state.mgr.services.insert source state.mgr.revisionCounter
      revisionCounter := state.mgr.revisionCounter + 1 } state.addr source := by
    rintro ⟨revision, serves, recorded⟩
    rw [HashMap.get_insert, if_pos rfl] at serves
    cases serves
    exact (tracked.recorded source _ recorded).false
  refine ⟨rfl, rfl, Nat.le_succ _, fun other => le_rfl, fun other current => ?_,
    fun other tick since current => ?_,
    fun other revision generation tick caught observed below => ?_⟩
  · by_cases same : source = other
    · subst same
      exact absurd current unrecorded
    · obtain ⟨revision, serves, recorded⟩ := current
      rw [HashMap.get_insert, if_neg same] at serves
      exact ⟨revision, serves, recorded⟩
  · by_cases same : source = other
    · subst same
      exact absurd current unrecorded
    · refine ⟨since.1, fun flush isFlush => since.2 flush ?_⟩
      rwa [HashMap.get_insert, if_neg same] at isFlush
  · refine ⟨caught.1, fun serves flush isFlush => ?_⟩
    by_cases own : source = other
    · -- The revision is past the one that was captured.
      subst own
      rw [HashMap.get_insert, if_pos rfl] at serves
      cases serves
      exact absurd below (Nat.lt_irrefl _)
    · rw [HashMap.get_insert, if_neg own] at serves isFlush
      exact caught.2 serves flush isFlush

/-! ### Keeping track -/

theorem Tracked.later {written : StoredActor} (later : Later state next)
    (isStored : next.stored = some written)
    (isAddr : written.actor.zprAddr = some state.addr)
    (fresh : ∀ source, state.mgr.Current state.addr source →
      ∃ tick, written.origin[source]? = some tick ∧ state.Since source tick)
    (served : ∀ (source : String) (revision : Nat), next.mgr.services[source]? = some revision →
      revisionNever < revision ∧ revision < next.mgr.revisionCounter)
    (recorded : ∀ (source : String) (revision : Nat),
      (next.mgr.record state.addr source).revision = some revision →
        revision < next.mgr.revisionCounter)
    (past : ∀ source : String, next.Since source next.ticks) : Tracked next written where
  isStored := isStored
  isAddr := isAddr.trans (congrArg some later.addr.symm)
  served := served
  recorded := by
    rw [later.addr]
    exact recorded
  past := past
  fresh source current := by
    rw [later.addr] at current
    obtain ⟨tick, isOrigin, since⟩ := fresh source (later.current source current)
    exact ⟨tick, isOrigin, later.since source tick since current⟩

theorem Since.mono {first second : Nat} (since : state.Since source first) (le : first ≤ second) :
    state.Since source second :=
  ⟨fun notice isNotice => (since.1 notice isNotice).trans_le le,
    fun flush isFlush => (since.2 flush isFlush).trans_le le⟩

theorem Tracked.still {written : StoredActor} (tracked : Tracked state stored)
    (still : Still state next) (ticks : next.ticks = state.ticks + 1)
    (isStored : next.stored = some written) (isAddr : written.actor.zprAddr = some state.addr)
    (fresh : ∀ source, state.mgr.Current state.addr source →
      ∃ tick, written.origin[source]? = some tick ∧ state.Since source tick) :
    Tracked next written := by
  refine .later still.later isStored isAddr fresh ?_ ?_ fun source => ?_
  · rw [still.services, still.counter]
    exact tracked.served
  · intro source revision
    rw [still.record, still.counter]
    exact tracked.recorded source revision
  · rw [still.since, ticks]
    exact (tracked.past source).mono (Nat.le_succ _)

theorem Alone.later (alone : Alone state stored) (later : Later state next)
    (samePasses : next.passes = state.passes) : Alone next stored where
  ok place pass found running := by
    rw [samePasses] at found
    exact (alone.ok place pass found running).later later
  single place other pass rival := by
    rw [samePasses]
    exact alone.single place other pass rival

theorem Alone.setPass {other : StoredActor} {after : Pass} {place : Nat}
    (alone : Alone state stored)
    (found : state.passes[place]? = some pass) (running : pass.phase.Running)
    (passes : next.passes = state.passes.set place after)
    (ok : after.phase.Running → next.PassOk other after) : Alone next other := by
  have only (rival : Nat) (isRival : Pass) (isFound : next.passes[rival]? = some isRival)
      (alsoRuns : isRival.phase.Running) : rival = place ∧ isRival = after := by
    rw [passes] at isFound
    by_cases own : rival = place
    · subst own
      have bound := (List.getElem?_eq_some_iff.mp found).1
      rw [List.getElem?_set_self bound] at isFound
      exact ⟨rfl, (Option.some.inj isFound).symm⟩
    · rw [List.getElem?_set_ne (Ne.symm own)] at isFound
      exact absurd (alone.single rival place isRival pass isFound found alsoRuns running) own
  refine ⟨fun rival isRival isFound alsoRuns => ?_,
    fun first second one two isOne isTwo runsOne runsTwo => ?_⟩
  · obtain ⟨-, rfl⟩ := only rival isRival isFound alsoRuns
    exact ok alsoRuns
  · exact (only first one isOne runsOne).1.trans (only second two isTwo runsTwo).1.symm

/-! ### Steps of a pass -/

section PassSteps

variable {place : Nat}

theorem kept_of_setPass (tracked : Tracked state stored) (alone : Alone state stored)
    (found : state.passes[place]? = some pass) (running : pass.phase.Running) {after : Pass}
    (ok : after.phase.Running → state.PassOk stored after) :
    Tracked { state.setPass place after with ticks := state.ticks + 1 } stored ∧
      Alone { state.setPass place after with ticks := state.ticks + 1 } stored := by
  have still : Still state { state.setPass place after with ticks := state.ticks + 1 } :=
    ⟨rfl, rfl, fun _ => rfl, rfl, rfl, rfl, rfl⟩
  exact ⟨tracked.still still rfl tracked.isStored tracked.isAddr tracked.fresh,
    alone.setPass found running rfl fun runs => (ok runs).later still.later⟩

variable {revision : Nat} {source : String}

theorem captured_of_stale (tracked : Tracked state stored)
    (stale : (source, revision) ∈ state.mgr.staleSourcesForActor state.addr) :
    ¬ state.mgr.Current state.addr source ∧ revision < state.mgr.revisionCounter := by
  obtain ⟨serves, differs⟩ := TrustedServicesMgr.mem_staleSourcesForActor.mp stale
  refine ⟨?_, (tracked.served source revision serves).2⟩
  rintro ⟨other, servesOther, recorded⟩
  rw [serves] at servesOther
  cases servesOther
  exact differs recorded

theorem Working.receive {since : Nat} {todo : List String}
    (working : Working state stored pass (source :: todo))
    (asked : match pass.stale[source]? with
      | some (revision, generation) => state.Caught source revision generation since
      | none => state.mgr.Current state.addr source → state.Since source since)
    (reply : Except ServiceError (List Attribute)) :
    Working state stored (pass.receive state.now source since todo reply) todo := by
  obtain ⟨absent, distinct⟩ := List.nodup_cons.mp working.distinct
  -- A reply is about its own source; an error drops the origin of that one.
  have elsewhere (other : String) (apart : source ≠ other) :
      (pass.receive state.now source since todo reply).origin[other]? = pass.origin[other]? := by
    unfold Pass.receive
    cases reply with
    | ok tsAttrs => exact (HashMap.get_insert ..).trans (if_neg apart)
    | error failure =>
      cases pass.stale[source]? with
      | none => rfl
      | some entry => exact (HashMap.get_erase ..).trans (if_neg apart)
  refine ⟨working.loadedAt, distinct, working.captured, fun other unasked current => ?_,
    fun other revision generation member => ?_⟩
  · by_cases own : source = other
    · subst own
      change pass.stale[source]? = none at unasked
      simp only [unasked] at asked
      cases reply with
      | ok tsAttrs => exact .inr ⟨since, by simp [Pass.receive], asked current⟩
      | error failure =>
        have same : (pass.receive state.now source since todo (.error failure)).origin =
            pass.origin := by simp [Pass.receive, unasked]
        rw [same]
        exact working.fresh source unasked current
    · rw [elsewhere other own]
      exact working.fresh other unasked current
  · change _ ∈ (applyReply ..).2.revisions at member
    rw [applyReply_revisions, List.mem_append] at member
    rcases member with old | new
    · obtain ⟨pending, notHere⟩ := working.pending other revision generation old
      obtain ⟨apart, notLater⟩ := not_or.mp (List.mem_cons.not.mp notHere)
      refine ⟨⟨pending.observed, pending.below, ?_⟩, notLater⟩
      rw [elsewhere other (Ne.symm apart)]
      exact pending.caught
    · cases isStale : pass.stale[source]? with
      | none => simp [isStale] at new
      | some entry =>
        obtain ⟨revision', generation'⟩ := entry
        have captured := working.captured source revision' generation' isStale
        simp only [isStale] at asked new
        cases reply with
        | ok tsAttrs =>
          cases List.mem_singleton.mp new
          exact ⟨{ captured with caught := .inr ⟨since, by simp [Pass.receive], asked⟩ }, absent⟩
        | error failure =>
          cases List.mem_singleton.mp new
          exact ⟨⟨captured.observed, Nat.zero_lt_of_lt captured.below, .inl rfl⟩, absent⟩

theorem Advances.ok {after : Pass} (advances : Advances state pass after)
    (tracked : Tracked state stored) (ok : state.PassOk stored pass) :
    after.phase.Running → state.PassOk stored after := by
  obtain ⟨isAddr, ok⟩ := ok
  cases advances with
  | readStale isPhase isLoaded expired =>
    simp only [isPhase] at ok
    cases isLoaded.symm.trans isAddr
    obtain ⟨loadedAt, origin, noStale, noRevisions⟩ := ok
    refine fun _ => ⟨isAddr, loadedAt, origin, noRevisions, fun source revision stale =>
      captured_of_stale tracked stale, fun source revision generation found => ?_⟩
    change pass.stale[source]? = _ at found
    simp [noStale] at found
  | readGeneration isPhase isLoaded =>
    simp only [isPhase] at ok
    cases isLoaded.symm.trans isAddr
    obtain ⟨loadedAt, origin, noRevisions, unread, captured⟩ := ok
    refine fun _ => ⟨isAddr, loadedAt, origin, noRevisions,
      fun other revision member => unread other revision (List.mem_cons_of_mem _ member),
      fun other newer generation found => ?_⟩
    rcases HashMap.of_get_insert found with ⟨rfl, ⟨⟩⟩ | ⟨-, old⟩
    · obtain ⟨stale, below⟩ := unread _ _ List.mem_cons_self
      exact ⟨stale, le_rfl, below⟩
    · exact captured other newer generation old
  | collect isPhase distinct =>
    simp only [isPhase] at ok
    obtain ⟨loadedAt, origin, noRevisions, -, captured⟩ := ok
    refine fun _ => ⟨isAddr, loadedAt, distinct, captured, fun source _ _ => .inl (by rw [origin]),
      fun source revision generation member => ?_⟩
    change _ ∈ pass.outcome.revisions at member
    rw [noRevisions] at member
    cases member
  | @ask source todo isPhase =>
    simp only [isPhase] at ok
    refine fun _ => ⟨isAddr, { ok with }, ?_⟩
    -- Whatever has happened so far was before the query.
    have since := tracked.past source
    change match pass.stale[source]? with
      | some (revision, generation) => state.Caught source revision generation state.ticks
      | none => state.mgr.Current state.addr source → state.Since source state.ticks
    cases pass.stale[source]? with
    | none => exact fun _ => since
    | some entry => exact since.caught entry.1 entry.2
  | answer isPhase reply =>
    simp only [isPhase] at ok
    exact fun _ => ⟨isAddr, ok.1.receive ok.2 reply⟩
  | finish isPhase =>
    simp only [isPhase] at ok
    exact fun _ => ⟨isAddr, { ok with }⟩
  | leave running result => exact False.elim

variable (tracked : Tracked state stored)
include tracked

theorem fresh_of_working (working : Working state stored pass [])
    (current : state.mgr.Current state.addr source) :
    ∃ tick, pass.origin[source]? = some tick ∧ state.Since source tick := by
  cases isStale : pass.stale[source]? with
  | some entry =>
    exact absurd current (working.captured source entry.1 entry.2 isStale).stale
  | none =>
    rcases working.fresh source isStale current with same | fresh
    · rw [same]
      exact tracked.fresh source current
    · exact fresh

variable (alone : Alone state stored)
include alone

theorem kept_of_write
    (found : state.passes[place]? = some pass) (isPhase : pass.phase = .persisting)
    {written : StoredActor} (isOrigin : written.origin = pass.origin)
    (isAddr : written.actor.zprAddr = some state.addr) {next : Refresher}
    (isStored : next.stored = some written) (still : Still state { next with writes := state.writes })
    (ticks : next.ticks = state.ticks + 1) (passes : next.passes = state.passes.set place
      { pass with phase := .committing pass.outcome.revisions }) :
    Tracked next written ∧ Alone next written := by
  have running : pass.phase.Running := by rw [isPhase]; trivial
  obtain ⟨isLoaded, working⟩ := alone.ok place pass found running
  simp only [isPhase] at working
  have kept : Tracked { next with writes := state.writes } written :=
    tracked.still still ticks isStored isAddr fun source current =>
      isOrigin ▸ fresh_of_working tracked working current
  refine ⟨{ kept with }, alone.setPass found running passes fun _ =>
    ⟨isLoaded.trans (congrArg some still.addr.symm), fun _ source revision generation member => ?_⟩⟩
  have pending := (working.pending source revision generation member).1.later still.later
  exact isOrigin ▸ { pending with }

theorem kept_of_persist
    (found : state.passes[place]? = some pass) (isPhase : pass.phase = .persisting)
    (taken : Bool) :
    ∃ after, Tracked { state.persist place pass taken with ticks := state.ticks + 1 } after ∧
      Alone { state.persist place pass taken with ticks := state.ticks + 1 } after := by
  have running : pass.phase.Running := by rw [isPhase]; trivial
  have ok := alone.ok place pass found running
  have ends (failure : Except ServiceError Bool) :
      (({ pass with phase := .returned failure } : Pass).phase.Running →
        state.PassOk stored { pass with phase := .returned failure }) := False.elim
  unfold persist
  cases isChanged : pass.outcome.changed with
  | true =>
    cases isTarget : pass.actor.zprAddr with
    | none => exact ⟨stored, kept_of_setPass tracked alone found running (ends _)⟩
    | some target =>
      -- A reply may change the address of the copy; then another record is written.
      by_cases own : target = state.addr
      · subst own
        simp only [ne_eq, not_true_eq_false, if_false]
        cases isWritten : state.updateActor
            (restampServices pass.policy state.now pass.actor) pass.origin taken with
        | error failure => exact ⟨stored, kept_of_setPass tracked alone found running (ends _)⟩
        | ok written =>
          obtain ⟨-, rfl⟩ := updateActor_ok isWritten
          exact ⟨_, kept_of_write tracked alone found isPhase rfl
            ((restampServices_zprAddr ..).trans isTarget) rfl
            ⟨rfl, rfl, fun _ => rfl, rfl, rfl, rfl, rfl⟩
            rfl rfl⟩
      · simp only [ne_eq, own, not_false_eq_true, if_true]
        cases taken with
        | false => exact ⟨stored, kept_of_setPass tracked alone found running (ends _)⟩
        | true =>
          refine ⟨stored, kept_of_setPass tracked alone found running fun _ => ⟨ok.1, ?_⟩⟩
          intro isOwn
          exact absurd (Option.some.inj (isTarget.symm.trans isOwn)) own
  | false =>
    cases isTarget : pass.actor.zprAddr with
    | none => exact ⟨stored, kept_of_setPass tracked alone found running (ends _)⟩
    | some target =>
      have working := ok.2
      simp only [isPhase] at working
      simp only [working.loadedAt.symm, if_true, tracked.isStored, Option.map_some]
      refine ⟨{ stored with origin := pass.origin }, kept_of_write tracked alone found isPhase rfl ?_
        rfl ⟨rfl, rfl, fun _ => rfl, rfl, rfl, rfl, rfl⟩ rfl rfl⟩
      exact tracked.isAddr

/-- A commit that lands: the source was not notified since its generation was captured. -/
theorem kept_of_landed (found : state.passes[place]? = some pass) {todo : List (String × Nat × Nat)}
    (isPhase : pass.phase = .committing ((source, revision, (state.mgr.record state.addr
      source).generation) :: todo))
    (isTarget : pass.actor.zprAddr = some state.addr) (recordedBy : HashMap String Nat) :
    let written : RevisionRecord :=
      { state.mgr.record state.addr source with revision := some revision }
    let after : Refresher := { state with
      mgr := state.mgr.setRecord state.addr source written, recordedBy }
    let moved := after.setPass place { pass with phase := .committing todo }
    Tracked { moved with ticks := state.ticks + 1 } stored ∧
      Alone { moved with ticks := state.ticks + 1 } stored := by
  intro written after moved
  have running : pass.phase.Running := by rw [isPhase]; trivial
  obtain ⟨isLoaded, pending⟩ := alone.ok place pass found running
  simp only [isPhase] at pending
  replace pending := pending isTarget
  have own := pending source revision _ List.mem_cons_self
  have record (other : String) : after.mgr.record state.addr other =
      if source = other then written else state.mgr.record state.addr other :=
    TrustedServicesMgr.record_setRecord written other
  have generations (other : String) : (after.mgr.record state.addr other).generation =
      (state.mgr.record state.addr other).generation := by
    rw [record]
    split
    next same => rw [← same]
    · rfl
  refine ⟨{ tracked with recorded := fun other newer recorded => ?_, past := fun other =>
    (tracked.past other).mono (Nat.le_succ _), fresh := fun other current => ?_ },
    alone.setPass found running rfl fun _ => ⟨isLoaded, fun _ other newer generation member => ?_⟩⟩
  · change (after.mgr.record state.addr other).revision = some newer at recorded
    rw [record] at recorded
    split at recorded
    · cases recorded
      exact own.below
    · exact tracked.recorded other newer recorded
  · obtain ⟨newer, serves, recorded⟩ := current
    change state.mgr.services[other]? = some newer at serves
    change (after.mgr.record state.addr other).revision = some newer at recorded
    rw [record] at recorded
    split at recorded
    next same =>
      subst same
      cases recorded
      -- The service's revision is not the one that stands for "never".
      rcases own.caught with never | ⟨tick, isTick, caught⟩
      · exact absurd (tracked.served source revision serves).1 (never ▸ Nat.lt_irrefl _)
      · exact ⟨tick, isTick, caught.1 rfl, caught.2 serves⟩
    · exact tracked.fresh other ⟨newer, serves, recorded⟩
  · have still := pending other newer generation (List.mem_cons_of_mem _ member)
    refine ⟨still.observed.trans (generations other).ge, still.below, still.caught.imp id ?_⟩
    rintro ⟨tick, isTick, caught⟩
    exact ⟨tick, isTick, fun same => caught.1 ((generations other).symm.trans same), caught.2⟩

theorem kept_of_dropped (found : state.passes[place]? = some pass) {entry : String × Nat × Nat}
    {todo : List (String × Nat × Nat)} (isPhase : pass.phase = .committing (entry :: todo))
    {mgr : TrustedServicesMgr} (recordedBy : HashMap String Nat)
    (record : ∀ other, mgr.record state.addr other = state.mgr.record state.addr other)
    (services : mgr.services = state.mgr.services)
    (counter : mgr.revisionCounter = state.mgr.revisionCounter) :
    let after : Refresher := { state with mgr, recordedBy }
    let moved := after.setPass place { pass with phase := .committing todo }
    Tracked { moved with ticks := state.ticks + 1 } stored ∧
      Alone { moved with ticks := state.ticks + 1 } stored := by
  intro after moved
  have running : pass.phase.Running := by rw [isPhase]; trivial
  obtain ⟨isLoaded, pending⟩ := alone.ok place pass found running
  simp only [isPhase] at pending
  have still : Still state { moved with ticks := state.ticks + 1 } :=
    ⟨rfl, rfl, record, services, counter, rfl, rfl⟩
  have ok : state.PassOk stored { pass with phase := .committing todo } :=
    ⟨isLoaded, fun isTarget source revision generation member =>
      pending isTarget source revision generation (List.mem_cons_of_mem _ member)⟩
  exact ⟨tracked.still still rfl tracked.isStored tracked.isAddr tracked.fresh,
    alone.setPass found running rfl fun _ => ok.later still.later⟩

theorem kept_of_commit
    (found : state.passes[place]? = some pass) (acted : state.commit place pass = some next) :
    Tracked { next with ticks := state.ticks + 1 } stored ∧
      Alone { next with ticks := state.ticks + 1 } stored := by
  unfold commit at acted
  split at acted
  next target isPhase isTarget =>
    cases acted
    have running : pass.phase.Running := by rw [isPhase]; trivial
    exact kept_of_setPass tracked alone found running False.elim
  next source revision generation todo target isPhase isTarget =>
    simp only [TrustedServicesMgr.recordRevisionAtGeneration, Option.some.injEq] at acted
    subst acted
    by_cases landed : (state.mgr.record target source).generation = generation
    · subst landed
      simp only [ne_eq, not_true_eq_false, if_false]
      by_cases own : target = state.addr
      · subst own
        exact kept_of_landed tracked alone found isPhase isTarget _
      · exact kept_of_dropped tracked alone found isPhase _
          (TrustedServicesMgr.record_setRecord_of_ne own _) rfl rfl
    · simp only [ne_eq, landed, not_false_eq_true, if_true]
      exact kept_of_dropped tracked alone found isPhase _
        (TrustedServicesMgr.record_setRecord_self state.addr) rfl rfl
  · cases acted

omit alone

theorem kept_of_load (idle : ∀ pass ∈ state.passes, ¬ pass.phase.Running) {policy : Policy}
    (acted : state.act (.load policy) = some next) :
    Tracked { next with ticks := state.ticks + 1 } stored ∧
      Alone { next with ticks := state.ticks + 1 } stored := by
  simp only [act, tracked.isStored, Option.map_some, Option.some.injEq] at acted
  subst acted
  refine ⟨tracked.still ⟨rfl, rfl, fun _ => rfl, rfl, rfl, rfl, rfl⟩ rfl rfl tracked.isAddr
    tracked.fresh, ?_⟩
  -- Only the new pass is in flight.
  have only {place : Nat} {pass started : Pass}
      (found : (state.passes ++ [started])[place]? = some pass) (running : pass.phase.Running) :
      place = state.passes.length ∧ pass = started := by
    rcases lt_or_ge place state.passes.length with before | after
    · rw [List.getElem?_append_left before] at found
      exact absurd running (idle pass (List.mem_of_getElem? found))
    · rw [List.getElem?_append_right after] at found
      rw [List.getElem?_singleton] at found
      split at found
      next isHead =>
        exact ⟨Nat.le_antisymm (Nat.sub_eq_zero_iff_le.mp isHead) after, (Option.some.inj found).symm⟩
      · cases found
  refine ⟨fun place pass found running => ?_,
    fun place other pass rival found alsoFound running alsoRunning =>
      (only found running).1.trans (only alsoFound alsoRunning).1.symm⟩
  obtain ⟨-, rfl⟩ := only found running
  exact ⟨tracked.isAddr, rfl, rfl, rfl, rfl⟩

theorem kept_of_stepPass (alone : Alone state stored)
    (found : state.passes[place]? = some pass) {event : RefreshEvent}
    (acted : state.stepPass place pass event = some next) :
    ∃ after, Tracked { next with ticks := state.ticks + 1 } after ∧
      Alone { next with ticks := state.ticks + 1 } after := by
  rcases stepPass_cases acted with ⟨after, advances, rfl⟩ | ⟨taken, isPhase, rfl⟩ | ⟨-, commits⟩
  · have running : pass.phase.Running := by
      cases advances with
      | leave running _ => exact running
      | _ => simp only [*]; trivial
    exact ⟨stored, kept_of_setPass tracked alone found running
      (advances.ok tracked (alone.ok place pass found running))⟩
  · exact kept_of_persist tracked alone found isPhase taken
  · exact ⟨stored, kept_of_commit tracked alone found commits⟩

end PassSteps

/-! ### Runs without overlapping passes -/

/-- A pass starts only when no other is in flight. -/
def Serial (state : Refresher) : RefreshEvent → Prop
  | .load _ => ∀ pass ∈ state.passes, ¬ pass.phase.Running
  | _ => True

instance (state : Refresher) (event : RefreshEvent) : Decidable (state.Serial event) :=
  match event with
  | .load _ => inferInstanceAs (Decidable (∀ _ ∈ _, _))
  | .readStale _ | .readGeneration _ | .collect _ _ | .ask _ | .answer _ _ | .persist _ _
  | .commit _ | .notify _ | .flush _ | .elapse _ | .remove | .forget | .connect _
  | .loadForRenewal | .renew _ _ _ _ => isTrue trivial

theorem past_insert {ticks : HashMap String Nat} {other : String} {now : Nat}
    (past : ∀ tick, ticks[other]? = some tick → tick < now) (tick : Nat)
    (isTick : (ticks.insert source now)[other]? = some tick) : tick < now + 1 := by
  rcases HashMap.of_get_insert isTick with ⟨-, rfl⟩ | ⟨-, old⟩
  · exact Nat.lt_succ_self _
  · exact (past tick old).trans (Nat.lt_succ_self _)

/-- The record and the pass in flight agree with the bookkeeping. -/
def Kept (state : Refresher) : Prop := ∃ stored, Tracked state stored ∧ Alone state stored

theorem Kept.step (kept : state.Kept) {event : RefreshEvent} (continuous : event.Continuous)
    (serial : state.Serial event) (stepped : state.step event = some next) : next.Kept := by
  obtain ⟨stored, tracked, alone⟩ := kept
  obtain ⟨acted, isActed, rfl⟩ := Option.map_eq_some_iff.mp stepped
  cases event with
  | load policy => exact ⟨stored, kept_of_load tracked serial isActed⟩
  | notify source =>
    have later := (later_of_notify isActed).tick (state.ticks + 1)
    cases isActed
    refine ⟨stored, Tracked.later later tracked.isStored tracked.isAddr tracked.fresh tracked.served
      (fun other revision recorded => ?_) (fun other => ?_), alone.later later rfl⟩
    · change ((state.mgr.forgetSourceRevision state.addr source).record state.addr other).revision =
        some revision at recorded
      rw [TrustedServicesMgr.record_forgetSourceRevision] at recorded
      split at recorded
      · cases recorded
      · exact tracked.recorded other revision recorded
    · exact ⟨past_insert (tracked.past other).1, fun flush isFlush =>
        (tracked.past other).2 flush isFlush |>.trans (Nat.lt_succ_self _)⟩
  | flush source =>
    have later := (later_of_flush tracked isActed).tick (state.ticks + 1)
    obtain ⟨configured, rfl⟩ := flush_cases isActed
    have counted : revisionNever < state.mgr.revisionCounter := by
      obtain ⟨old, served⟩ := HashMap.get_of_mem configured
      have between := tracked.served source old served
      exact between.1.trans between.2
    refine ⟨stored, Tracked.later later tracked.isStored tracked.isAddr tracked.fresh
      (fun other revision serves => ?_)
      (fun other revision recorded => (tracked.recorded other revision recorded).trans
        (Nat.lt_succ_self _))
      (fun other => ?_), alone.later later rfl⟩
    · rcases HashMap.of_get_insert serves with ⟨-, rfl⟩ | ⟨-, served⟩
      · exact ⟨counted, Nat.lt_succ_self _⟩
      · have old := tracked.served other revision served
        exact ⟨old.1, old.2.trans (Nat.lt_succ_self _)⟩
    · exact ⟨fun notice isNotice => (tracked.past other).1 notice isNotice |>.trans
        (Nat.lt_succ_self _), past_insert (tracked.past other).2⟩
  | elapse nanos =>
    cases isActed
    have still : Still state { state with now := state.now + nanos, ticks := state.ticks + 1 } :=
      ⟨rfl, rfl, fun _ => rfl, rfl, rfl, rfl, rfl⟩
    exact ⟨stored, tracked.still still rfl tracked.isStored tracked.isAddr tracked.fresh,
      alone.later still.later rfl⟩
  | remove => exact continuous.elim
  | forget => exact continuous.elim
  | connect actor => exact continuous.elim
  | loadForRenewal => exact continuous.elim
  | renew place env outcomes taken => exact continuous.elim
  | _ =>
    obtain ⟨pass, found, moved⟩ := Option.bind_eq_some_iff.mp isActed
    exact kept_of_stepPass tracked alone found moved

theorem kept_init {addr : IpAddr} {mgr : TrustedServicesMgr} {actor : Actor}
    (isAddr : actor.zprAddr = some addr)
    (served : ∀ (source : String) (revision : Nat), mgr.services[source]? = some revision →
      revisionNever < revision ∧ revision < mgr.revisionCounter)
    (unrecorded : ∀ source, (mgr.record addr source).revision = none) :
    (init addr mgr actor).Kept := by
  refine ⟨⟨actor, ∅⟩, ⟨rfl, isAddr, served, fun source revision recorded => ?_, fun source => ?_,
    fun source current => ?_⟩, ⟨fun place pass found => ?_, fun place other pass rival found => ?_⟩⟩
  · exact absurd ((unrecorded source).symm.trans recorded) nofun
  · exact ⟨fun notice isNotice => by simp [init] at isNotice,
      fun flush isFlush => by simp [init] at isFlush⟩
  · obtain ⟨revision, -, recorded⟩ := current
    exact absurd ((unrecorded source).symm.trans recorded) nofun
  · simp [init] at found
  · simp [init] at found

/-- While the actor stays connected, a source that is not listed as stale was last queried, with
the reply the stored attributes come from, after its last notification and its last flush. This
holds as long as passes for the actor do not overlap. -/
theorem current_source_fresh {addr : IpAddr} {mgr : TrustedServicesMgr} {actor : Actor}
    (isAddr : actor.zprAddr = some addr)
    (served : ∀ (source : String) (revision : Nat), mgr.services[source]? = some revision →
      revisionNever < revision ∧ revision < mgr.revisionCounter)
    (unrecorded : ∀ source, (mgr.record addr source).revision = none)
    {events : List RefreshEvent} {final : Refresher}
    (continuous : ∀ event ∈ events, event.Continuous)
    (serial : Meets step Serial (init addr mgr actor) events)
    (ran : run step (init addr mgr actor) events = some final) {source : String}
    (configured : source ∈ final.mgr.services)
    (unlisted : ∀ revision, (source, revision) ∉ final.mgr.staleSourcesForActor final.addr) :
    ∃ stored tick, final.stored = some stored ∧ stored.origin[source]? = some tick ∧
      final.Since source tick := by
  have always : Meets step (fun _ event => event.Continuous) (init addr mgr actor) events :=
    meets_of_forall (fun event member _ => continuous event member) _
  have kept : final.Kept := run_preserves_of_meets
    (fun state event next kept met stepped => Kept.step kept met.2 met.1 stepped)
    (kept_init isAddr served unrecorded) (serial.and always) ran
  obtain ⟨stored, tracked, -⟩ := kept
  obtain ⟨tick, isOrigin, since⟩ := tracked.fresh source
    (TrustedServicesMgr.current_iff.mpr ⟨configured, unlisted⟩)
  exact ⟨stored, tick, tracked.isStored, isOrigin, since⟩

end Refresher

/-! ### Two passes for one actor -/

namespace StalenessSample

def addr : IpAddr := .v6 0xfd5a5052000000000000000000000001

def source : String := "hr"

def mgr : TrustedServicesMgr where
  services := (∅ : HashMap String Nat).insert source 1
  actorRevisions := ∅
  revisionCounter := 2

def actor : Actor where
  attrs := (∅ : HashMap String Attribute).insert Key.zprAddr
    (.internal 0 Key.zprAddr ["fd5a:5052::1"])
  identityKeys := []
  zprAddr := some addr

def policy : Policy := ⟨1, none, [], []⟩

def clearance (level : String) : Attribute := ⟨"user.clearance", [level], 1000, source⟩

def start : Refresher := .init addr mgr actor

def after (events : List RefreshEvent) : Refresher := (run Refresher.step start events).getD start

def queries (pass : Nat) : List RefreshEvent :=
  [.load policy, .readStale pass, .readGeneration pass, .collect pass .ascending, .ask pass]

def finishes (pass : Nat) (level : String) : List RefreshEvent :=
  [.answer pass (.ok [clearance level]), .ask pass, .persist pass true, .commit pass, .commit pass]

/-- The source changes while the first pass waits for it; a second pass catches up, and then
the first one gets its reply. -/
def overlapping : List RefreshEvent :=
  queries 0 ++ [.notify source] ++ queries 1 ++ finishes 1 "none" ++ finishes 0 "secret"

def consecutive : List RefreshEvent :=
  queries 0 ++ [.notify source] ++ finishes 0 "secret" ++ queries 1 ++ finishes 1 "none"

theorem mgr_served (name : String) (revision : Nat) (serves : mgr.services[name]? = some revision) :
    revisionNever < revision ∧ revision < mgr.revisionCounter := by
  rcases HashMap.of_get_insert serves with ⟨-, rfl⟩ | ⟨-, before⟩
  · decide
  · simp at before

theorem mgr_unrecorded (name : String) : (mgr.record addr name).revision = none := by
  simp [TrustedServicesMgr.record, mgr, RevisionRecord.empty]

theorem continuous_overlapping : ∀ event ∈ overlapping, event.Continuous := by
  simp [overlapping, queries, finishes, RefreshEvent.Continuous]

theorem continuous_consecutive : ∀ event ∈ consecutive, event.Continuous := by
  simp [consecutive, queries, finishes, RefreshEvent.Continuous]

end StalenessSample

open StalenessSample in
/-- The reply of a query that started before the notification is written over the newer one,
under the record of the pass that was notified. -/
theorem overtaken_pass_hides_staleness :
    ¬ ∀ (addr : IpAddr) (mgr : TrustedServicesMgr) (actor : Actor),
      actor.zprAddr = some addr →
      (∀ (source : String) (revision : Nat), mgr.services[source]? = some revision →
        revisionNever < revision ∧ revision < mgr.revisionCounter) →
      (∀ source, (mgr.record addr source).revision = none) →
      ∀ (events : List RefreshEvent) (final : Refresher),
        (∀ event ∈ events, event.Continuous) →
        run Refresher.step (.init addr mgr actor) events = some final →
        ∀ source : String, source ∈ final.mgr.services →
          (∀ revision, (source, revision) ∉ final.mgr.staleSourcesForActor final.addr) →
          ∃ stored tick, final.stored = some stored ∧ stored.origin[source]? = some tick ∧
            final.Since source tick := by
  intro fresh
  have ran : run Refresher.step start overlapping = some (after overlapping) :=
    run_eq_some_getD (by decide +kernel) start
  have current : (after overlapping).mgr.Current (after overlapping).addr source :=
    ⟨1, by decide +kernel, by decide +kernel⟩
  obtain ⟨configured, unlisted⟩ := TrustedServicesMgr.current_iff.mp current
  obtain ⟨stored, tick, isStored, isOrigin, since⟩ := fresh addr mgr actor rfl mgr_served
    mgr_unrecorded overlapping _ continuous_overlapping ran source configured unlisted
  -- The query started at tick 4, the notification came at tick 5.
  have isTick : ((after overlapping).stored.bind fun stored => stored.origin[source]?) = some 4 := by
    decide +kernel
  rw [isStored, Option.bind_some, isOrigin] at isTick
  cases isTick
  exact absurd (since.1 5 (by decide +kernel)) (by decide)

open StalenessSample in
/-- Two passes one after the other, the source changing during the first. -/
theorem consecutive_passes_fresh :
    ∃ stored tick, (after consecutive).stored = some stored ∧ stored.origin[source]? = some tick ∧
      (after consecutive).Since source tick := by
  have ran : run Refresher.step start consecutive = some (after consecutive) :=
    run_eq_some_getD (by decide +kernel) start
  have current : (after consecutive).mgr.Current (after consecutive).addr source :=
    ⟨1, by decide +kernel, by decide +kernel⟩
  obtain ⟨configured, unlisted⟩ := TrustedServicesMgr.current_iff.mp current
  exact Refresher.current_source_fresh rfl mgr_served mgr_unrecorded continuous_consecutive
    (by decide +kernel) ran configured unlisted

end VisaService
