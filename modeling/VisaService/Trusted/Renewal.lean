import VisaService.Trusted.Refresh

/-!
# A renewal among refresh passes

A renewal and a refresh pass both load the actor, wait for remote answers and write the whole
actor back, without a lock and without looking whether the record was written in between. A
pass that was loaded before the renewal's write and is written after it puts the old session
back.

Main results: `refresh_undoes_renewal` and `renewal_stays`.
-/
namespace VisaService

open Lib

/-- What a renewal proves: policy instance, authorities and identity. -/
def Key.session : List String := [Key.vinst, Key.deviceAuthority, Key.userAuthority]

def Actor.sessionKeys (actor : Actor) : List String := Key.session ++ actor.identityKeys

def Actor.SameSession (actor other : Actor) : Prop :=
  actor.identityKeys = other.identityKeys ∧
    ∀ key ∈ actor.sessionKeys, actor.attrs[key]? = other.attrs[key]?

theorem Actor.SameSession.refl (actor : Actor) : actor.SameSession actor := ⟨rfl, fun _ _ => rfl⟩

theorem Actor.SameSession.trans {first second third : Actor} (one : first.SameSession second)
    (two : second.SameSession third) : first.SameSession third :=
  ⟨one.1.trans two.1, fun key member =>
    (one.2 key member).trans (two.2 key (by rwa [sessionKeys, ← one.1]))⟩

def PassPhase.Succeeded : PassPhase → Prop
  | .returned (.ok _) => True
  | _ => False

instance PassPhase.decidableSucceeded (phase : PassPhase) : Decidable phase.Succeeded :=
  match phase with
  | .returned (.ok _) => isTrue trivial
  | .returned (.error _) | .loaded | .capturing _ | .asking _ | .waiting _ _ _ | .persisting
  | .committing _ => isFalse id

def RefreshEvent.Stays : RefreshEvent → Prop
  | .remove | .forget | .connect _ => False
  | _ => True

/-! ### What leaves the session alone -/

/-- What a reply adds to the actor. -/
def replyAttrs (source : String) (startingAuthority : Option String) :
    Except ServiceError (List Attribute) → List Attribute
  | .ok tsAttrs => tsAttrs ++ (deriveUserAuthority source tsAttrs startingAuthority).toList
  | .error _ => []

/-- What the source vouches for in the session it vends again, unexpired, and it vends nothing
else there. -/
def Actor.Spared (actor : Actor) (now : Nat) (source : String) (startingAuthority : Option String)
    (reply : Except ServiceError (List Attribute)) : Prop :=
  (∀ attr ∈ actor.attributes, attr.source = source → attr.key ∈ actor.sessionKeys →
      attr ∈ replyAttrs source startingAuthority reply ∧ attr.isExpired now = false) ∧
    ∀ attr ∈ replyAttrs source startingAuthority reply, attr.key ∈ actor.sessionKeys →
      actor.attrs[attr.key]? = some attr
  deriving Decidable

section Spared

variable {actor next : Actor} {attr : Attribute} {key : String}

theorem Actor.mem_attributes :
    attr ∈ actor.attributes ↔ ∃ key : String, actor.attrs[key]? = some attr := by
  simp [attributes]

theorem Actor.sameSession_addAttribute (added : actor.addAttribute attr = .ok next)
    (spared : attr.key ∈ actor.sessionKeys → actor.attrs[attr.key]? = some attr) :
    actor.SameSession next := by
  refine ⟨?_, fun key member => ?_⟩
  · unfold addAttribute at added
    split at added <;> split at added <;> cases added <;> rfl
  · rw [addAttribute_get added]
    split
    next isKey => exact isKey ▸ spared (isKey ▸ member)
    · rfl

theorem Actor.sameSession_removeAttribute (spared : key ∉ actor.sessionKeys) :
    actor.SameSession (actor.removeAttribute key) := by
  obtain ⟨-, notIdentity⟩ := not_or.mp (List.mem_append.not.mp spared)
  unfold removeAttribute
  split
  · refine ⟨(List.filter_eq_self.mpr fun other member => ?_).symm, fun other member => ?_⟩
    · exact decide_eq_true fun same => notIdentity (same ▸ member)
    · rw [HashMap.get_erase, if_neg]
      rintro rfl
      exact spared member
  · exact .refl actor

theorem Actor.SameSession.sessionKeys (same : actor.SameSession next) :
    next.sessionKeys = actor.sessionKeys := by
  rw [Actor.sessionKeys, ← same.1, Actor.sessionKeys]

theorem sameSession_addVended {vended : List Attribute}
    (spared : ∀ attr ∈ vended, attr.key ∈ actor.sessionKeys → actor.attrs[attr.key]? = some attr) :
    actor.SameSession (addVended actor vended).1 := by
  induction vended generalizing actor with
  | nil => exact .refl actor
  | cons first rest ih =>
    obtain ⟨own, others⟩ := List.forall_mem_cons.mp spared
    unfold addVended
    split
    next next added =>
      have same := Actor.sameSession_addAttribute added own
      refine same.trans (ih fun attr member isKey => ?_)
      rw [same.sessionKeys] at isKey
      rw [← same.2 attr.key isKey]
      exact others attr member isKey
    · exact ih others

theorem sameSession_pruneFromSource {source : String} {pred : Attribute → Bool}
    (spared : ∀ attr ∈ actor.attributes, attr.source = source → pred attr = true →
      attr.key ∉ actor.sessionKeys) :
    actor.SameSession (pruneFromSource actor source pred).1 := by
  have removes : ∀ (keys : List String) (actor : Actor),
      (∀ key ∈ keys, key ∉ actor.sessionKeys) →
        actor.SameSession (keys.foldl Actor.removeAttribute actor) := by
    intro keys
    induction keys with
    | nil => exact fun actor _ => .refl actor
    | cons key rest ih =>
      intro actor apart
      obtain ⟨own, others⟩ := List.forall_mem_cons.mp apart
      have same := Actor.sameSession_removeAttribute own
      exact same.trans (ih _ (same.sessionKeys ▸ others))
  refine removes _ actor fun key member => ?_
  obtain ⟨attr, isAttr, rfl⟩ := List.mem_map.mp member
  obtain ⟨isAttr, ofSource⟩ := List.mem_filter.mp isAttr
  obtain ⟨ofSource, matching⟩ := Bool.and_eq_true_iff.mp ofSource
  exact spared attr isAttr (beq_iff_eq.mp ofSource) matching

theorem sameSession_applyReply {now : Nat} {source : String} {staleRev : Option (Nat × Nat)}
    {startingAuthority : Option String} {reply : Except ServiceError (List Attribute)}
    (outcome : RefreshOutcome) (spared : actor.Spared now source startingAuthority reply) :
    actor.SameSession
      (applyReply now source staleRev startingAuthority reply actor outcome).1 := by
  obtain ⟨held, vended⟩ := spared
  cases reply with
  | error failure =>
    cases staleRev with
    | none => exact .refl actor
    | some revision =>
      refine sameSession_pruneFromSource fun attr member ofSource _ isKey => ?_
      simpa [replyAttrs] using (held attr member ofSource isKey).1
  | ok tsAttrs =>
    have same := sameSession_addVended vended
    generalize isAdded : (addVended actor (replyAttrs source startingAuthority (.ok tsAttrs))).1 =
      added at same
    -- what the source has in the session is vended again, whether the actor had it or not
    have again {attr : Attribute} (member : attr ∈ added.attributes)
        (ofSource : attr.source = source) (isKey : attr.key ∈ added.sessionKeys) :
        attr ∈ replyAttrs source startingAuthority (.ok tsAttrs) ∧ attr.isExpired now = false := by
      rw [same.sessionKeys] at isKey
      obtain ⟨key, found⟩ := Actor.mem_attributes.mp member
      rw [← isAdded] at found
      rcases addVended_get found with new | old
      · exact held attr (Actor.mem_attributes.mpr ⟨_, vended attr new isKey⟩) ofSource isKey
      · exact held attr (Actor.mem_attributes.mpr ⟨key, old⟩) ofSource isKey
    subst isAdded
    cases staleRev with
    | none =>
      refine same.trans (sameSession_pruneFromSource fun attr member ofSource expired isKey => ?_)
      exact absurd expired (by rw [(again member ofSource isKey).2]; simp)
    | some revision =>
      refine same.trans (sameSession_pruneFromSource fun attr member ofSource gone isKey => ?_)
      have returned : ((replyAttrs source startingAuthority (.ok tsAttrs)).map
          Attribute.key).contains attr.key = true :=
        List.contains_iff_mem.mpr (List.mem_map_of_mem (again member ofSource isKey).1)
      cases gone.symm.trans (congrArg not returned)

theorem sameSession_restampServices (policy : Policy) (now : Nat)
    (spared : Key.services ∉ actor.identityKeys) :
    actor.SameSession (restampServices policy now actor) := by
  unfold restampServices
  dsimp only
  split
  · exact .refl actor
  refine ⟨?_, fun key member => ?_⟩
  · unfold Actor.setServices
    split <;> rfl
  · rw [Actor.setServices_get, if_neg]
    rintro rfl
    rcases List.mem_append.mp member with session | identity
    · simp [Key.session, Key.services, Key.vinst, Key.deviceAuthority, Key.userAuthority]
        at session
    · exact spared identity

end Spared

namespace Refresher

variable {state next : Refresher} {pass : Pass} {place : Nat}

/-- A source that is gone does not reply. -/
def replyOf (state : Refresher) (source : String) (reply : Except ServiceError (List Attribute)) :
    Except ServiceError (List Attribute) :=
  if source ∈ state.mgr.services then reply else .error (.trustedServiceNotFound source)

/-- No pass writes over a renewal that it has not seen, and the sources that it asks have no part
in the session. -/
def Retains (state : Refresher) : RefreshEvent → Prop
  | .answer place reply => ∀ pass ∈ state.passes[place]?, ∀ source ∈ pass.queried,
    pass.actor.Spared state.now source pass.startingAuthority (state.replyOf source reply)
  | .persist place _ => ∀ pass ∈ state.passes[place]?, pass.outcome.changed = true →
    ∀ renewal ∈ state.renewed,
      renewal.2 ≤ pass.loadedAt ∧ Key.services ∉ pass.actor.identityKeys
  | _ => True

instance (state : Refresher) (event : RefreshEvent) : Decidable (state.Retains event) :=
  match event with
  | .answer .. => inferInstanceAs (Decidable (∀ _ ∈ _, ∀ _ ∈ _, _))
  | .persist .. => inferInstanceAs (Decidable (∀ _ ∈ _, _ → ∀ _ ∈ _, _))
  | .load _ | .readStale _ | .readGeneration _ | .collect _ _ | .ask _ | .commit _
  | .notify _ | .flush _ | .elapse _ | .remove | .forget | .connect _ | .loadForRenewal
  | .renew _ _ _ _ => isTrue trivial

/-- The stored actor, and the copies loaded since, are of the last renewal's session. -/
structure Renewed (state : Refresher) : Prop where
  past : ∀ pass ∈ state.passes, pass.loadedAt ≤ state.writes
  stored : ∀ renewal ∈ state.renewed, renewal.2 ≤ state.writes ∧
    ∃ actor ∈ state.storedActor, renewal.1.SameSession actor
  copies : ∀ renewal ∈ state.renewed, ∀ pass ∈ state.passes, renewal.2 ≤ pass.loadedAt →
    renewal.1.SameSession pass.actor

theorem Moves.of_mem (moves : Moves state next place pass)
    (found : state.passes[place]? = some pass)
    (quiet : pass.queried = none) {after : Pass} (member : after ∈ next.passes) :
    ∃ before ∈ state.passes, after.actor = before.actor ∧ after.loadedAt = before.loadedAt := by
  obtain ⟨moved, follows, isPasses⟩ := moves.passes
  rw [isPasses] at member
  rcases List.mem_or_eq_of_mem_set member with old | rfl
  · exact ⟨after, old, rfl, rfl⟩
  · exact ⟨pass, List.mem_of_getElem? found, follows.actor quiet, follows.loadedAt⟩

theorem Renewed.moves (renewed : state.Renewed) (moves : Moves state next place pass)
    (found : state.passes[place]? = some pass) (quiet : pass.queried = none)
    (retains : pass.phase = .persisting → pass.outcome.changed = true →
      ∀ renewal ∈ state.renewed,
        renewal.2 ≤ pass.loadedAt ∧ Key.services ∉ pass.actor.identityKeys) :
    next.Renewed := by
  have grows : state.writes ≤ next.writes := by
    rcases moves.stored with ⟨-, writes⟩ | ⟨-, -, -, -, writes⟩
    · exact writes.ge
    · exact writes ▸ Nat.le_succ _
  refine ⟨fun after member => ?_, fun renewal isRenewal => ?_,
    fun renewal isRenewal after member since => ?_⟩
  · obtain ⟨before, isBefore, -, loadedAt⟩ := moves.of_mem found quiet member
    exact loadedAt ▸ (renewed.past before isBefore).trans grows
  · rw [moves.renewed] at isRenewal
    obtain ⟨written, actor, isActor, same⟩ := renewed.stored renewal isRenewal
    refine ⟨written.trans grows, ?_⟩
    rcases moves.stored with ⟨isStored, -⟩ | ⟨-, isPhase, isChanged, isStored, -⟩
    · exact ⟨actor, isStored ▸ isActor, same⟩
    · obtain ⟨since, spared⟩ := retains isPhase isChanged renewal isRenewal
      have ofPass := renewed.copies renewal isRenewal pass (List.mem_of_getElem? found) since
      exact ⟨_, isStored, ofPass.trans (sameSession_restampServices _ _ spared)⟩
  · rw [moves.renewed] at isRenewal
    obtain ⟨before, isBefore, isActor, loadedAt⟩ := moves.of_mem found quiet member
    rw [isActor]
    exact renewed.copies renewal isRenewal before isBefore (loadedAt ▸ since)

/-- A reply that spares the session leaves the copy in it. -/
theorem Renewed.answer (renewed : state.Renewed) (found : state.passes[place]? = some pass)
    {source : String} {reply : Except ServiceError (List Attribute)} {since : Nat}
    {todo : List String}
    (spared : pass.actor.Spared state.now source pass.startingAuthority reply) :
    (state.setPass place (pass.receive state.now source since todo reply)).Renewed := by
  have member := List.mem_of_getElem? found
  refine ⟨fun after isAfter => ?_, renewed.stored, fun renewal isRenewal after isAfter since => ?_⟩
  · rcases List.mem_or_eq_of_mem_set isAfter with old | rfl
    · exact renewed.past after old
    · exact renewed.past pass member
  · rcases List.mem_or_eq_of_mem_set isAfter with old | rfl
    · exact renewed.copies renewal isRenewal after old since
    · exact (renewed.copies renewal isRenewal pass member since).trans
        (sameSession_applyReply _ spared)

theorem Renewed.act (renewed : state.Renewed) {event : RefreshEvent} (stays : event.Stays)
    (retains : state.Retains event) (acted : state.act event = some next) : next.Renewed := by
  cases event with
  | load policy =>
    obtain ⟨stored, isStored, rfl⟩ := Option.map_eq_some_iff.mp acted
    refine ⟨fun pass member => ?_, renewed.stored, fun renewal isRenewal pass member since => ?_⟩
    · rcases List.mem_append.mp member with old | new
      · exact renewed.past pass old
      · cases List.mem_singleton.mp new
        exact le_rfl
    · rcases List.mem_append.mp member with old | new
      · exact renewed.copies renewal isRenewal pass old since
      · cases List.mem_singleton.mp new
        obtain ⟨-, actor, isActor, same⟩ := renewed.stored renewal isRenewal
        have isLoaded : actor = stored.actor := by
          simpa [storedActor, isStored, eq_comm] using isActor
        exact isLoaded ▸ same
  | notify source | elapse nanos =>
    cases acted
    exact { renewed with }
  | flush source =>
    simp only [Refresher.act] at acted
    split at acted
    · cases acted
      exact { renewed with }
    · cases acted
  | remove | forget | connect actor => exact stays.elim
  | loadForRenewal =>
    obtain ⟨stored, -, rfl⟩ := Option.map_eq_some_iff.mp acted
    exact { renewed with }
  | renew turn env outcomes taken =>
    obtain ⟨renewal, -, isRenewed⟩ := Option.bind_eq_some_iff.mp acted
    rcases renew_cases isRenewed with rfl | ⟨actor, stored, -, -, rfl⟩
    · exact { renewed with }
    · refine ⟨fun pass member => (renewed.past pass member).trans (Nat.le_succ _),
        fun written isWritten => ?_, fun written isWritten pass member since => ?_⟩
      · cases isWritten
        exact ⟨le_rfl, actor, rfl, .refl actor⟩
      · -- No pass has been loaded since.
        cases isWritten
        exact absurd (since.trans (renewed.past pass member)) (Nat.not_succ_le_self _)
  | answer turn reply =>
    obtain ⟨pass, found, moved⟩ := Option.bind_eq_some_iff.mp acted
    simp only [stepPass] at moved
    split at moved <;> cases moved
    next source since todo isPhase =>
      exact renewed.answer found (retains pass found source (by rw [Pass.queried, isPhase]; rfl))
  | persist turn taken =>
    obtain ⟨pass, found, moved⟩ := Option.bind_eq_some_iff.mp acted
    refine renewed.moves (moves_stepPass moved (by simp)).1 found ?_ fun _ => retains pass found
    simp only [stepPass] at moved
    split at moved <;> cases moved
    next isPhase => rw [Pass.queried, isPhase]
  | commit turn =>
    obtain ⟨pass, found, moved⟩ := Option.bind_eq_some_iff.mp acted
    refine renewed.moves (commit_cases moved).1 found ?_ fun isPhase => ?_
    · unfold Pass.queried
      split
      next isPhase => simp [stepPass, commit, isPhase] at moved
      · rfl
    · simp [stepPass, commit, isPhase] at moved
  | _ =>
    obtain ⟨pass, found, moved⟩ := Option.bind_eq_some_iff.mp acted
    refine renewed.moves (moves_stepPass moved (by simp)).1 found ?_ fun isPhase => ?_
    · unfold Pass.queried
      split
      next isPhase => simp [stepPass, isPhase] at moved
      · rfl
    · simp [stepPass, isPhase] at moved

/-- Any number of passes and renewals of a connected actor take turns: as long as a pass that
writes after a renewal was loaded after it, and the sources that are asked have no part in the
session, the stored actor carries the policy instance, the authorities and the identity that the
last successful renewal committed. -/
theorem renewal_stays {addr : IpAddr} {mgr : TrustedServicesMgr} {actor : Actor}
    {events : List RefreshEvent} {final : Refresher} (stays : ∀ event ∈ events, event.Stays)
    (retains : Meets step Retains (init addr mgr actor) events)
    (ran : run step (init addr mgr actor) events = some final) {committed : Actor} {writes : Nat}
    (isRenewed : final.renewed = some (committed, writes)) :
    ∃ stored, final.stored = some stored ∧ committed.SameSession stored.actor := by
  have start : (init addr mgr actor).Renewed := ⟨nofun, nofun, nofun⟩
  have always : Meets step (fun _ event => event.Stays) (init addr mgr actor) events :=
    meets_of_forall (fun event member _ => stays event member) _
  have renewed : final.Renewed := run_preserves_of_meets
    (fun state event next renewed met stepped => by
      obtain ⟨acted, isActed, rfl⟩ := Option.map_eq_some_iff.mp stepped
      have kept := Renewed.act renewed met.2 met.1 isActed
      exact { kept with })
    start (retains.and always) ran
  obtain ⟨-, stored, isStored, same⟩ := renewed.stored _ isRenewed
  obtain ⟨record, isRecord, rfl⟩ := Option.map_eq_some_iff.mp isStored
  exact ⟨record, isRecord, same⟩

end Refresher

/-! ### One pass and one renewal -/

namespace RenewalSample

open ReauthSample

def addr : IpAddr := (IpAddr.parse heldAddr).getD (.v4 0)

def mgr : TrustedServicesMgr where
  services := (∅ : HashMap String Nat).insert "hr" 1
  actorRevisions := ∅
  revisionCounter := 2

def start : Refresher := .init addr mgr connected

def after (events : List RefreshEvent) : Refresher := (run Refresher.step start events).getD start

def queries : List RefreshEvent :=
  [.load policy, .readStale 0, .readGeneration 0, .collect 0 .ascending, .ask 0]

/-- `hr` vends a new title for the user, and the pass returns. -/
def finishes : List RefreshEvent :=
  [.answer 0 (.ok [department, ⟨"user.title", ["lead"], 1000, "hr"⟩]), .ask 0, .persist 0 true,
    .commit 0, .commit 0]

def renews : List RefreshEvent := [.loadForRenewal, .renew 0 (env [department]) [credential] true]

/-- The renewal falls between query and reply. -/
def interleaved : List RefreshEvent := queries ++ renews ++ finishes

def ordered : List RefreshEvent := renews ++ queries ++ finishes

theorem stays_interleaved : ∀ event ∈ interleaved, event.Stays := by
  simp [interleaved, queries, renews, finishes, RefreshEvent.Stays]

theorem stays_ordered : ∀ event ∈ ordered, event.Stays := by
  simp [ordered, queries, renews, finishes, RefreshEvent.Stays]

end RenewalSample

open RenewalSample in
/-- The pass has loaded the actor before the renewal and writes that copy after it: the policy
instance that the renewal committed is gone, and all calls have returned successfully. -/
theorem refresh_undoes_renewal :
    ¬ ∀ (addr : IpAddr) (mgr : TrustedServicesMgr) (actor : Actor) (events : List RefreshEvent)
      (final : Refresher), (∀ event ∈ events, event.Stays) →
      run Refresher.step (.init addr mgr actor) events = some final →
      (∀ pass ∈ final.passes, pass.phase.Succeeded) →
      (∀ renewal ∈ final.renewals, renewal.finished = true) →
      ∀ (committed : Actor) (writes : Nat), final.renewed = some (committed, writes) →
        ∃ stored, final.stored = some stored ∧ committed.SameSession stored.actor := by
  intro stays
  have ran : run Refresher.step start interleaved = some (after interleaved) :=
    run_eq_some_getD (by decide +kernel) start
  have isSome : (after interleaved).renewed.isSome := by decide +kernel
  obtain ⟨renewal, isRenewed⟩ := Option.isSome_iff_exists.mp isSome
  obtain ⟨stored, isStored, same⟩ := stays _ _ _ interleaved _ stays_interleaved ran
    (by decide +kernel) (by decide +kernel) renewal.1 renewal.2 isRenewed
  have vinst := same.2 Key.vinst (by simp [Actor.sessionKeys, Key.session])
  -- The renewal stamped instance 2; the copy of the pass has none.
  have committedVinst : ((after interleaved).renewed.bind fun renewal =>
      renewal.1.single Key.vinst) = some "2" := by decide +kernel
  have storedVinst : ((after interleaved).stored.bind fun stored =>
      stored.actor.single Key.vinst) = none := by decide +kernel
  rw [isRenewed, Option.bind_some, Actor.single, vinst] at committedVinst
  rw [isStored, Option.bind_some, Actor.single] at storedVinst
  cases committedVinst.symm.trans storedVinst

open RenewalSample in
/-- The pass that starts after the renewal writes the renewed session back. -/
theorem ordered_refresh_keeps_renewal :
    ∃ committed writes stored, (after ordered).renewed = some (committed, writes) ∧
      (after ordered).stored = some stored ∧ committed.SameSession stored.actor := by
  have ran : run Refresher.step start ordered = some (after ordered) :=
    run_eq_some_getD (by decide +kernel) start
  have isSome : (after ordered).renewed.isSome := by decide +kernel
  obtain ⟨renewal, isRenewed⟩ := Option.isSome_iff_exists.mp isSome
  obtain ⟨stored, kept⟩ := Refresher.renewal_stays stays_ordered (by decide +kernel) ran isRenewed
  exact ⟨renewal.1, renewal.2, stored, isRenewed, kept⟩

end VisaService
