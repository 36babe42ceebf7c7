import VisaService.Trusted.Staleness

/-!
# Records of an earlier actor at the address

A disconnect removes the actor's record and then forgets its revisions, generations included.
A pass that is still in flight for that actor has captured a generation of the forgotten
records; the records of the next actor at the address start again from generation zero, so its
commit may land there.

Main results: `departed_pass_records` and `records_of_current_actor`.
-/
namespace VisaService

open Lib

namespace Refresher

variable {state next : Refresher} {pass : Pass} {place : Nat}

/-! ### Whose records are in effect -/

/-- A pass of the actors numbered `incarnation` has queried the source. -/
def Queried (state : Refresher) (incarnation : Nat) (source : String) : Prop :=
  ∃ pass ∈ state.passes, pass.incarnation = incarnation ∧ source ∈ pass.asked

/-- A commit for an earlier actor does not land, unless the records are about to be forgotten,
and no actor connects before they are. -/
def Timely (state : Refresher) : RefreshEvent → Prop
  | .commit place => ∀ pass ∈ state.passes[place]?, state.Lands pass →
    pass.incarnation = state.incarnation ∨ 0 < state.leaving
  | .connect _ => state.leaving = 0
  | _ => True

instance (state : Refresher) (pass : Pass) : Decidable (state.Lands pass) :=
  match isPhase : pass.phase with
  | .committing ((source, _, generation) :: _) =>
    decidable_of_iff (pass.actor.zprAddr = some state.addr ∧
      (state.mgr.record state.addr source).generation = generation) (by simp only [Lands, isPhase])
  | .committing [] | .loaded | .capturing _ | .asking _ | .waiting _ _ _ | .persisting
  | .returned _ => isFalse (by simp only [Lands, isPhase, not_false_eq_true])

instance (state : Refresher) (event : RefreshEvent) : Decidable (state.Timely event) :=
  match event with
  | .commit _ => inferInstanceAs (Decidable (∀ _ ∈ _, _ → _))
  | .connect _ => inferInstanceAs (Decidable (_ = 0))
  | .load _ | .readStale _ | .readGeneration _ | .collect _ _ | .ask _ | .answer _ _
  | .persist _ _ | .notify _ | .flush _ | .elapse _ | .remove | .forget | .loadForRenewal
  | .renew _ _ _ _ => isTrue trivial

/-- The records in effect are those of the present actor. -/
structure Own (state : Refresher) : Prop where
  sourced : ∀ pass ∈ state.passes, pass.Sourced
  gone : 0 < state.leaving → state.stored = none
  recorded : state.leaving = 0 → ∀ source revision,
    (state.mgr.record state.addr source).revision = some revision →
      state.recordedBy[source]? = some state.incarnation ∧ state.Queried state.incarnation source

theorem Moves.queried (moves : Moves state next place pass)
    (found : state.passes[place]? = some pass) {incarnation : Nat} {source : String}
    (queried : state.Queried incarnation source) : next.Queried incarnation source := by
  obtain ⟨after, follows, isPasses⟩ := moves.passes
  obtain ⟨asker, member, isIncarnation, asked⟩ := queried
  obtain ⟨other, isOther⟩ := List.mem_iff_getElem?.mp member
  unfold Queried
  rw [isPasses]
  by_cases own : place = other
  · subst own
    cases found.symm.trans isOther
    have bound := (List.getElem?_eq_some_iff.mp found).1
    exact ⟨after, List.mem_set bound _, follows.incarnation.trans isIncarnation,
      follows.asked source asked⟩
  · rw [← List.getElem?_set_ne own] at isOther
    exact ⟨asker, List.mem_of_getElem? isOther, isIncarnation, asked⟩

theorem Moves.sourced (moves : Moves state next place pass)
    (found : state.passes[place]? = some pass) (sourced : ∀ pass ∈ state.passes, pass.Sourced) :
    ∀ pass ∈ next.passes, pass.Sourced := by
  obtain ⟨after, follows, isPasses⟩ := moves.passes
  intro other member
  rw [isPasses] at member
  rcases List.mem_or_eq_of_mem_set member with old | rfl
  · exact sourced other old
  · exact follows.sourced (sourced pass (List.mem_of_getElem? found))

theorem Own.moves (own : state.Own) (found : state.passes[place]? = some pass)
    (moves : Moves state next place pass)
    (record : ∀ source, next.mgr.record state.addr source = state.mgr.record state.addr source)
    (recordedBy : next.recordedBy = state.recordedBy) : next.Own where
  sourced := moves.sourced found own.sourced
  gone leaving := moves.gone (own.gone (moves.leaving ▸ leaving))
  recorded leaving source revision recorded := by
    rw [moves.addr, record] at recorded
    obtain ⟨isBy, queried⟩ := own.recorded (moves.leaving ▸ leaving) source revision recorded
    rw [recordedBy, moves.incarnation]
    exact ⟨isBy, moves.queried found queried⟩

theorem Own.commit (own : state.Own) (found : state.passes[place]? = some pass)
    (timely : state.Lands pass → pass.incarnation = state.incarnation ∨ 0 < state.leaving)
    (acted : state.commit place pass = some next) : next.Own := by
  obtain ⟨moves, ⟨record, recordedBy⟩ | ⟨source, revision, lands, asked, record, recordedBy⟩⟩ :=
    commit_cases acted
  · exact own.moves found moves record recordedBy
  · refine ⟨moves.sourced found own.sourced, fun leaving => moves.gone
      (own.gone (moves.leaving ▸ leaving)), fun leaving other newer recorded => ?_⟩
    rw [moves.leaving] at leaving
    rw [moves.addr, record] at recorded
    rw [recordedBy, moves.incarnation, HashMap.get_insert]
    by_cases same : source = other
    · subst same
      have isPresent := (timely lands).resolve_right (leaving ▸ Nat.lt_irrefl 0)
      have member := List.mem_of_getElem? found
      exact ⟨by rw [if_pos rfl, isPresent],
        moves.queried found ⟨pass, member, isPresent, asked (own.sourced pass member)⟩⟩
    · rw [if_neg same] at recorded ⊢
      obtain ⟨isBy, queried⟩ := own.recorded leaving other newer recorded
      exact ⟨isBy, moves.queried found queried⟩

theorem Own.act (own : state.Own) {event : RefreshEvent} (timely : state.Timely event)
    (acted : state.act event = some next) : next.Own := by
  cases event with
  | load policy =>
    obtain ⟨stored, -, rfl⟩ := Option.map_eq_some_iff.mp acted
    refine ⟨fun pass member => ?_, own.gone, fun leaving source revision recorded => ?_⟩
    · rcases List.mem_append.mp member with old | new
      · exact own.sourced pass old
      · cases List.mem_singleton.mp new
        exact ⟨by simp [RefreshOutcome.empty], trivial⟩
    · obtain ⟨isBy, pass, member, queried⟩ := own.recorded leaving source revision recorded
      exact ⟨isBy, pass, List.mem_append_left _ member, queried⟩
  | notify source =>
    cases acted
    refine ⟨own.sourced, own.gone, fun leaving other revision recorded => ?_⟩
    rw [TrustedServicesMgr.record_forgetSourceRevision] at recorded
    split at recorded
    · cases recorded
    · exact own.recorded leaving other revision recorded
  | flush source =>
    obtain ⟨-, rfl⟩ := flush_cases acted
    exact { own with }
  | elapse nanos =>
    cases acted
    exact { own with }
  | remove =>
    cases acted
    exact ⟨own.sourced, fun _ => rfl, by simp⟩
  | forget =>
    simp only [Refresher.act] at acted
    split at acted
    next leaves =>
      cases acted
      refine ⟨own.sourced, fun _ => own.gone leaves, fun _ source revision recorded => ?_⟩
      rw [TrustedServicesMgr.record_forgetActorRevisions] at recorded
      cases recorded
    · cases acted
  | connect actor =>
    simp only [Refresher.act] at acted
    split at acted
    · cases acted
      exact ⟨own.sourced, fun leaves => absurd timely leaves.ne', own.recorded⟩
    · cases acted
  | loadForRenewal =>
    obtain ⟨stored, -, rfl⟩ := Option.map_eq_some_iff.mp acted
    exact { own with }
  | renew turn env outcomes taken =>
    obtain ⟨renewal, -, renewed⟩ := Option.bind_eq_some_iff.mp acted
    rcases renew_cases renewed with rfl | ⟨actor, stored, -, isStored, rfl⟩
    · exact { own with }
    · exact { own with gone := fun leaves => by cases isStored.symm.trans (own.gone leaves) }
  | commit place =>
    obtain ⟨pass, found, moved⟩ := Option.bind_eq_some_iff.mp acted
    -- Only here a revision is recorded.
    exact own.commit found (timely pass found) moved
  | _ =>
    obtain ⟨pass, found, moved⟩ := Option.bind_eq_some_iff.mp acted
    obtain ⟨moves, mgr, recordedBy⟩ := moves_stepPass moved (by simp)
    exact own.moves found moves (fun source => by rw [mgr]) recordedBy

theorem Own.step (own : state.Own) {event : RefreshEvent} (timely : state.Timely event)
    (stepped : state.step event = some next) : next.Own := by
  obtain ⟨acted, isActed, rfl⟩ := Option.map_eq_some_iff.mp stepped
  have kept := own.act timely isActed
  exact { kept with }

/-- Whichever actors follow each other at the address: as long as no commit of an earlier actor
meets the generation it has captured, and no actor connects before the revisions are forgotten,
every record in effect is by a pass of the actor that is connected, and every source that is not
listed as stale has been queried by one. -/
theorem records_of_current_actor {addr : IpAddr} {mgr : TrustedServicesMgr} {actor : Actor}
    (unrecorded : ∀ source, (mgr.record addr source).revision = none)
    {events : List RefreshEvent} {final : Refresher}
    (timely : Meets step Timely (init addr mgr actor) events)
    (ran : run step (init addr mgr actor) events = some final) {stored : StoredActor}
    (connected : final.stored = some stored) (source : String) :
    (∀ revision, (final.mgr.record final.addr source).revision = some revision →
      final.recordedBy[source]? = some final.incarnation) ∧
    (source ∈ final.mgr.services →
      (∀ revision, (source, revision) ∉ final.mgr.staleSourcesForActor final.addr) →
      ∃ pass ∈ final.passes, pass.incarnation = final.incarnation ∧ source ∈ pass.asked) := by
  have start : (init addr mgr actor).Own :=
    ⟨nofun, fun leaves => absurd leaves (Nat.lt_irrefl 0), fun _ source revision recorded =>
      absurd ((unrecorded source).symm.trans recorded) nofun⟩
  have own : final.Own := run_preserves_of_meets
    (fun state event next own timely stepped => Own.step own timely stepped) start timely ran
  have stays : final.leaving = 0 := by
    by_contra leaves
    exact absurd (connected.symm.trans (own.gone (Nat.pos_of_ne_zero leaves))) nofun
  refine ⟨fun revision recorded => (own.recorded stays source revision recorded).1,
    fun configured unlisted => ?_⟩
  obtain ⟨revision, -, recorded⟩ := TrustedServicesMgr.current_iff.mpr ⟨configured, unlisted⟩
  exact (own.recorded stays source revision recorded).2

end Refresher

/-! ### A pass that outlives its actor -/

namespace ReuseSample

open StalenessSample

def visitor : Actor := { actor with
  attrs := actor.attrs.insert Key.cn (.internal 0 Key.cn ["visitor"]) }

/-- The source knows nothing about the first actor; the commit is still to come. -/
def asked (pass : Nat) : List RefreshEvent :=
  queries pass ++ [.answer pass (.ok []), .ask pass, .persist pass true]

def replaced : List RefreshEvent := [.remove, .forget, .connect visitor]

/-- The pass for the first actor commits when the visitor has connected. -/
def outlived : List RefreshEvent := asked 0 ++ replaced ++ [.commit 0]

/-- It commits before; the visitor's own pass follows. -/
def ordered : List RefreshEvent := asked 0 ++ [.commit 0] ++ replaced ++ asked 1 ++ [.commit 1]

end ReuseSample

open StalenessSample ReuseSample in
/-- The pass of the first actor, which captured generation zero, commits for the visitor: the
source is current although no pass of the visitor has asked it. -/
theorem departed_pass_records :
    ¬ ∀ (addr : IpAddr) (mgr : TrustedServicesMgr) (actor : Actor),
      (∀ source, (mgr.record addr source).revision = none) →
      ∀ (events : List RefreshEvent) (final : Refresher),
        run Refresher.step (.init addr mgr actor) events = some final →
        ∀ stored, final.stored = some stored → ∀ source : String,
          (∀ revision, (final.mgr.record final.addr source).revision = some revision →
            final.recordedBy[source]? = some final.incarnation) ∧
          (source ∈ final.mgr.services →
            (∀ revision, (source, revision) ∉ final.mgr.staleSourcesForActor final.addr) →
            ∃ pass ∈ final.passes, pass.incarnation = final.incarnation ∧ source ∈ pass.asked) := by
  intro own
  have ran : run Refresher.step start outlived = some (after outlived) :=
    run_eq_some_getD (by decide +kernel) start
  have isSome : (after outlived).stored.isSome := by decide +kernel
  obtain ⟨stored, connected⟩ := Option.isSome_iff_exists.mp isSome
  have current : (after outlived).mgr.Current (after outlived).addr source :=
    ⟨1, by decide +kernel, by decide +kernel⟩
  obtain ⟨configured, unlisted⟩ := TrustedServicesMgr.current_iff.mp current
  have queried := (own addr mgr actor mgr_unrecorded outlived _ ran stored connected source).2
    configured unlisted
  exact absurd queried (by decide +kernel)

open StalenessSample ReuseSample in
/-- The first pass commits before its actor departs; the visitor's own pass asks again. -/
theorem visitor_asks_again :
    ∃ pass ∈ (after ordered).passes, pass.incarnation = (after ordered).incarnation ∧
      source ∈ pass.asked := by
  have ran : run Refresher.step start ordered = some (after ordered) :=
    run_eq_some_getD (by decide +kernel) start
  have isSome : (after ordered).stored.isSome := by decide +kernel
  obtain ⟨stored, connected⟩ := Option.isSome_iff_exists.mp isSome
  have current : (after ordered).mgr.Current (after ordered).addr source :=
    ⟨1, by decide +kernel, by decide +kernel⟩
  obtain ⟨configured, unlisted⟩ := TrustedServicesMgr.current_iff.mp current
  exact (Refresher.records_of_current_actor mgr_unrecorded (by decide +kernel) ran connected
    source).2 configured unlisted

end VisaService
