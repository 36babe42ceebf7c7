import VisaService.Lib.Run
import VisaService.Trusted.Manager
import VisaService.Connection.Reauthorize

/-!
# Refreshing the attributes of an actor

A refresh pass loads the actor, finds the sources that are stale for it or vouch for an
expired attribute, queries them one after the other, writes the actor back and commits the
revisions it has caught up with. It works on its own copy, so other passes, renewals of the
session, notifications, flushes and the actor's departure may fall between any two of its steps.
`Refresher` is the part of the visa service that concerns the actors at one address.

The fields marked as bookkeeping are not in the source: they say where attributes and records
come from.
-/
namespace VisaService

open Lib

/-! ### What a reply does to the actor -/

/-- The services of an actor whose role is fixed. -/
def Policy.joinServicesForRole (policy : Policy) (now : Nat) (attrs : List Attribute)
    (isNode : Bool) : HashSet String :=
  let matching := policy.matchJoinPolicies now attrs
  let isNodePolicy := fun jp : JPolicy => jp.flags.contains .isNode
  if isNode && !matching.any isNodePolicy then ∅
  else
    Std.ExtTreeSet.ofList ((matching.filter fun jp => isNode || !isNodePolicy jp).flatMap
      fun jp => jp.services.getD []) compare

def Actor.attributes (actor : Actor) : List Attribute := actor.attrs.toList.map Prod.snd

/-- Recompute the services that the attributes grant. -/
def restampServices (policy : Policy) (now : Nat) (actor : Actor) : Actor :=
  let claims := actor.attributes.filter fun attr => !Key.policyStamped.contains attr.key
  let services := policy.joinServicesForRole now claims actor.isNode
  if services = Std.ExtTreeSet.ofList actor.services compare then actor
  else actor.setServices now services

/-- Remove the attributes of the source that match; whether there were any. -/
def pruneFromSource (actor : Actor) (source : String) (pred : Attribute → Bool) :
    Actor × Bool :=
  let stale := (actor.attributes.filter fun attr => attr.source == source && pred attr).map
    Attribute.key
  (stale.foldl Actor.removeAttribute actor, !stale.isEmpty)

/-- Add what a service vended, skipping what the actor does not take; whether it took any. -/
def addVended (actor : Actor) : List Attribute → Actor × Bool
  | [] => (actor, false)
  | attr :: rest =>
    match actor.addAttribute attr with
    | .ok next => ((addVended next rest).1, true)
    | .error _ => addVended actor rest

structure RefreshOutcome where
  changed : Bool
  /-- Source, revision and observed generation of each commit to make. -/
  revisions : List (String × Nat × Nat)
  indeterminate : List String

def RefreshOutcome.empty : RefreshOutcome := ⟨false, [], []⟩

/-- One round of the loop over the sources. `staleRev` is the captured revision and generation
of a stale source. -/
def applyReply (now : Nat) (source : String) (staleRev : Option (Nat × Nat))
    (startingAuthority : Option String) (reply : Except ServiceError (List Attribute))
    (actor : Actor) (outcome : RefreshOutcome) : Actor × RefreshOutcome :=
  match reply, staleRev with
  | .ok tsAttrs, staleRev =>
    let tsAttrs := tsAttrs ++ (deriveUserAuthority source tsAttrs startingAuthority).toList
    let returned := tsAttrs.map Attribute.key
    let (actor, added) := addVended actor tsAttrs
    match staleRev with
    | some (revision, generation) =>
      let (actor, pruned) := pruneFromSource actor source fun attr => !returned.contains attr.key
      (actor, { outcome with
        changed := outcome.changed || added || pruned
        revisions := outcome.revisions ++ [(source, revision, generation)] })
    | none =>
      let (actor, pruned) := pruneFromSource actor source (Attribute.isExpired now)
      (actor, { outcome with changed := outcome.changed || added || pruned })
  | .error _, some (_, generation) =>
    let (actor, pruned) := pruneFromSource actor source fun _ => true
    (actor,
      { changed := outcome.changed || pruned
        revisions := outcome.revisions ++ [(source, revisionNever, generation)]
        indeterminate := outcome.indeterminate ++ [source] })
  | .error _, none => (actor, outcome)

theorem applyReply_revisions (now : Nat) (source : String) (staleRev : Option (Nat × Nat))
    (startingAuthority : Option String) (reply : Except ServiceError (List Attribute))
    (actor : Actor) (outcome : RefreshOutcome) :
    (applyReply now source staleRev startingAuthority reply actor outcome).2.revisions =
      outcome.revisions ++ match staleRev, reply with
        | some (revision, generation), .ok _ => [(source, revision, generation)]
        | some (_, generation), .error _ => [(source, revisionNever, generation)]
        | none, _ => [] := by
  cases reply with
  | ok tsAttrs | error failure => cases staleRev <;> simp [applyReply]

theorem addVended_get {actor : Actor} {vended : List Attribute} {key : String} {attr : Attribute}
    (found : (addVended actor vended).1.attrs[key]? = some attr) :
    attr ∈ vended ∨ actor.attrs[key]? = some attr := by
  induction vended generalizing actor with
  | nil => exact .inr found
  | cons first rest ih =>
    simp only [addVended] at found
    split at found
    next next added =>
      rcases ih found with member | already
      · exact .inl (List.mem_cons_of_mem _ member)
      · rw [Actor.addAttribute_get added] at already
        split at already
        · cases already
          exact .inl List.mem_cons_self
        · exact .inr already
    · exact (ih found).imp_left (List.mem_cons_of_mem _)

theorem restampServices_zprAddr (policy : Policy) (now : Nat) (actor : Actor) :
    (restampServices policy now actor).zprAddr = actor.zprAddr := by
  simp only [restampServices, Actor.setServices]
  split
  · rfl
  · split <;> rfl

/-! ### Passes and renewals -/

inductive PassPhase where
  | loaded
  /-- The generations of these sources are still to be read. -/
  | capturing (todo : List (String × Nat))
  | asking (todo : List String)
  /-- A query is in flight; the tick it started at. -/
  | waiting (source : String) (since : Nat) (todo : List String)
  | persisting
  | committing (todo : List (String × Nat × Nat))
  | returned (result : Except ServiceError Bool)

/-- A call of `refresh_and_persist_actor`. -/
structure Pass where
  policy : Policy
  actor : Actor
  expired : HashSet String
  stale : HashMap String (Nat × Nat)
  outcome : RefreshOutcome
  phase : PassPhase
  /-- Bookkeeping: the copy that was loaded, how often the record had been written then, which
  of the actors at the address it was, the sources that were queried, and for each source the
  tick at which the query started that the copy's attributes come from. -/
  loaded : Actor
  loadedAt : Nat
  incarnation : Nat
  asked : List String
  origin : HashMap String Nat

def PassPhase.Running : PassPhase → Prop
  | .returned _ => False
  | _ => True

instance PassPhase.decidableRunning (phase : PassPhase) : Decidable phase.Running :=
  match phase with
  | .returned _ => isFalse id
  | .loaded | .capturing _ | .asking _ | .waiting _ _ _ | .persisting | .committing _ =>
    isTrue trivial

/-- The user authority as of the start of the pass. -/
def Pass.startingAuthority (pass : Pass) : Option String :=
  pass.loaded.attrs[Key.userAuthority]?.bind fun attr => attr.value.head?

/-- A call of `reauthorize_actor`, after it has loaded the actor. -/
structure Renewal where
  loaded : Actor
  finished : Bool

structure StoredActor where
  actor : Actor
  /-- Bookkeeping: as in `Pass`. -/
  origin : HashMap String Nat

structure Refresher where
  addr : IpAddr
  now : Nat
  mgr : TrustedServicesMgr
  stored : Option StoredActor
  passes : List Pass
  renewals : List Renewal
  /-- How many disconnects have still to forget the revisions. -/
  leaving : Nat
  /-- Bookkeeping: steps taken, writes of the record, departures from the address, ticks of
  the last notification and the last flush of each source. -/
  ticks : Nat
  writes : Nat
  incarnation : Nat
  notified : HashMap String Nat
  flushed : HashMap String Nat
  /-- Bookkeeping: whose pass recorded the revision of each source. -/
  recordedBy : HashMap String Nat
  /-- Bookkeeping: what the last renewal wrote, and the number of writes then. -/
  renewed : Option (Actor × Nat)

inductive RefreshEvent where
  | load (policy : Policy)
  | readStale (pass : Nat)
  | readGeneration (pass : Nat)
  | collect (pass : Nat) (order : SetOrder String)
  | ask (pass : Nat)
  | answer (pass : Nat) (reply : Except ServiceError (List Attribute))
  /-- `taken`: the database takes the write. -/
  | persist (pass : Nat) (taken : Bool)
  | commit (pass : Nat)
  | notify (source : String)
  | flush (source : String)
  | elapse (nanos : Nat)
  /-- A disconnect removes the record of the actor. -/
  | remove
  /-- After that, it forgets the actor's revisions. -/
  | forget
  | connect (actor : Actor)
  | loadForRenewal
  | renew (renewal : Nat) (env : AuthEnv) (outcomes : List BlobOutcome) (taken : Bool)

def RefreshEvent.pass : RefreshEvent → Option Nat
  | .readStale pass | .readGeneration pass | .collect pass _ | .ask pass | .answer pass _
  | .persist pass _ | .commit pass => some pass
  | _ => none

namespace Pass

/-- The copy of the actor with what the source replied. -/
def receive (pass : Pass) (now : Nat) (source : String) (since : Nat) (todo : List String)
    (reply : Except ServiceError (List Attribute)) : Pass :=
  let next := applyReply now source pass.stale[source]? pass.startingAuthority reply pass.actor
    pass.outcome
  { pass with
    actor := next.1
    outcome := next.2
    phase := .asking todo
    origin :=
      match reply, pass.stale[source]? with
      | .ok _, _ => pass.origin.insert source since
      | .error _, some _ => pass.origin.erase source
      | .error _, none => pass.origin }

/-- What the call returns once everything is committed. -/
def result (pass : Pass) (addr : IpAddr) : Except ServiceError Bool :=
  if pass.outcome.indeterminate.isEmpty then .ok pass.outcome.changed
  else .error (.refreshIndeterminate
    (s!"actor {addr.display} could not be refreshed from source(s): " ++
      ", ".intercalate pass.outcome.indeterminate))

end Pass

namespace Refresher

/-- An actor has connected at the address and nothing has been recorded for it. -/
def init (addr : IpAddr) (mgr : TrustedServicesMgr) (actor : Actor) : Refresher where
  addr := addr
  now := 0
  mgr := mgr
  stored := some ⟨actor, ∅⟩
  passes := []
  renewals := []
  leaving := 0
  ticks := 0
  writes := 0
  incarnation := 0
  notified := ∅
  flushed := ∅
  recordedBy := ∅
  renewed := none

def setPass (state : Refresher) (place : Nat) (pass : Pass) : Refresher :=
  { state with passes := state.passes.set place pass }

/-- `update_actor` at the address: the actor has to be there, in the same role. -/
def updateActor (state : Refresher) (actor : Actor) (origin : HashMap String Nat)
    (taken : Bool) : Except StoreError Refresher :=
  match state.stored with
  | none => .error (.notFound s!"update called on non-existant actor: {state.addr.display}")
  | some stored =>
    if stored.actor.isNode ≠ actor.isNode then
      let role := if actor.isNode then "node" else "adapter"
      .error (.invalidData
        s!"update fails since {role} actor not already in {role} role: {state.addr.display}")
    else if taken then
      .ok { state with stored := some ⟨actor, origin⟩, writes := state.writes + 1 }
    else .error .redis

/-- The end of the refresh: the actor is written back if it changed. A pass that changes
nothing confirms what is stored if that is what it loaded. -/
def persist (state : Refresher) (place : Nat) (pass : Pass) (taken : Bool) : Refresher :=
  let committed : Pass := { pass with phase := .committing pass.outcome.revisions }
  let failed (failure : StoreError) : Pass :=
    { pass with phase := .returned (.error (.store failure)) }
  match pass.outcome.changed, pass.actor.zprAddr with
  | true, none =>
    state.setPass place (failed (.missingRequired "attempt to update actor with no ZPR address"))
  | true, some target =>
    if target ≠ state.addr then
      -- The write concerns another record.
      state.setPass place (if taken then committed else failed .redis)
    else
      match state.updateActor (restampServices pass.policy state.now pass.actor) pass.origin
          taken with
      | .ok written => written.setPass place committed
      | .error failure => state.setPass place (failed failure)
  | false, none => state.setPass place { pass with phase := .returned (.ok false) }
  | false, some _ =>
    let confirmed := if state.writes = pass.loadedAt then
      state.stored.map fun stored => { stored with origin := pass.origin } else state.stored
    { state with stored := confirmed }.setPass place committed

def commit (state : Refresher) (place : Nat) (pass : Pass) : Option Refresher :=
  match pass.phase, pass.actor.zprAddr with
  | .committing [], some target =>
    some (state.setPass place { pass with phase := .returned (pass.result target) })
  | .committing ((source, revision, generation) :: todo), some target =>
    let (landed, mgr) := state.mgr.recordRevisionAtGeneration target source revision generation
    let recordedBy := if landed ∧ target = state.addr then
      state.recordedBy.insert source pass.incarnation else state.recordedBy
    some ({ state with mgr, recordedBy }.setPass place { pass with phase := .committing todo })
  | _, _ => none

def stepPass (state : Refresher) (place : Nat) (pass : Pass) : RefreshEvent → Option Refresher
  | .readStale _ =>
    match pass.phase, pass.loaded.zprAddr with
    | .loaded, some addr =>
      let expired := (pass.loaded.attributes.filter (Attribute.isExpired state.now)).map
        Attribute.source
      some (state.setPass place { pass with
        expired := Std.ExtTreeSet.ofList expired compare
        phase := .capturing (state.mgr.staleSourcesForActor addr) })
    | .loaded, none => some (state.setPass place { pass with phase := .returned (.ok false) })
    | _, _ => none
  | .readGeneration _ =>
    match pass.phase, pass.loaded.zprAddr with
    | .capturing ((source, revision) :: todo), some addr =>
      let generation := state.mgr.invalidationGeneration addr source
      some (state.setPass place { pass with
        stale := pass.stale.insert source (revision, generation), phase := .capturing todo })
    | _, _ => none
  | .collect _ order =>
    match pass.phase with
    | .capturing [] =>
      let sources := Std.ExtTreeSet.ofList (pass.expired.toList ++ pass.stale.keys) compare
      some (state.setPass place { pass with phase := .asking (order.list sources) })
    | _ => none
  | .ask _ =>
    match pass.phase with
    | .asking [] => some (state.setPass place { pass with phase := .persisting })
    | .asking (source :: todo) =>
      some (state.setPass place { pass with
        phase := .waiting source state.ticks todo, asked := source :: pass.asked })
    | _ => none
  | .answer _ reply =>
    match pass.phase with
    | .waiting source since todo =>
      let reply := if source ∈ state.mgr.services then reply
        else .error (.trustedServiceNotFound source)
      some (state.setPass place (pass.receive state.now source since todo reply))
    | _ => none
  | .persist _ taken =>
    match pass.phase with
    | .persisting => some (state.persist place pass taken)
    | _ => none
  | .commit _ => state.commit place pass
  | _ => none

def renew (state : Refresher) (place : Nat) (renewal : Renewal) (env : AuthEnv)
    (outcomes : List BlobOutcome) (taken : Bool) : Option Refresher :=
  if renewal.finished then none
  else
    let renewals := state.renewals.set place { renewal with finished := true }
    match reauthorizeActor env renewal.loaded state.addr outcomes with
    | .error _ => some { state with renewals }
    | .ok renewed =>
      let origin := (state.stored.map StoredActor.origin).getD ∅
      match state.updateActor renewed origin taken with
      | .error _ => some { state with renewals }
      | .ok written => some { written with renewals, renewed := some (renewed, written.writes) }

/-- One step, apart from the count of steps. -/
def act (state : Refresher) (event : RefreshEvent) : Option Refresher :=
  match event with
  | .load policy =>
    state.stored.map fun stored =>
      let pass : Pass :=
        { policy, actor := stored.actor, expired := ∅, stale := ∅, outcome := .empty
          phase := .loaded, loaded := stored.actor, loadedAt := state.writes
          incarnation := state.incarnation, asked := [], origin := stored.origin }
      { state with passes := state.passes ++ [pass] }
  | .notify source =>
    some { state with
      mgr := state.mgr.forgetSourceRevision state.addr source
      notified := state.notified.insert source state.ticks }
  | .flush source =>
    match state.mgr.flushOne source with
    | .ok mgr => some { state with mgr, flushed := state.flushed.insert source state.ticks }
    | .error _ => none
  | .elapse nanos => some { state with now := state.now + nanos }
  | .remove =>
    some { state with
      stored := none
      leaving := state.leaving + 1
      incarnation := state.incarnation + 1 }
  | .forget =>
    if 0 < state.leaving then
      some { state with
        mgr := state.mgr.forgetActorRevisions state.addr
        leaving := state.leaving - 1 }
    else none
  | .connect actor =>
    if state.stored.isNone ∧ actor.zprAddr = some state.addr then
      some { state with stored := some ⟨actor, ∅⟩, writes := state.writes + 1 }
    else none
  | .loadForRenewal =>
    state.stored.map fun stored =>
      { state with renewals := state.renewals ++ [⟨stored.actor, false⟩] }
  | .renew place env outcomes taken =>
    state.renewals[place]?.bind fun renewal => state.renew place renewal env outcomes taken
  | event =>
    event.pass.bind fun place =>
      state.passes[place]?.bind fun pass => state.stepPass place pass event

def step (state : Refresher) (event : RefreshEvent) : Option Refresher :=
  (state.act event).map fun next => { next with ticks := state.ticks + 1 }

/-! ### What is written -/

variable {state next : Refresher}

theorem updateActor_ok {actor : Actor} {origin : HashMap String Nat} {taken : Bool}
    (written : state.updateActor actor origin taken = .ok next) :
    (∃ stored, state.stored = some stored) ∧
      next = { state with stored := some ⟨actor, origin⟩, writes := state.writes + 1 } := by
  unfold updateActor at written
  split at written
  · cases written
  next stored isStored =>
    split at written
    · cases written
    · split at written
      · cases written
        exact ⟨⟨stored, isStored⟩, rfl⟩
      · cases written

/-- A renewal fails, or writes its actor over the stored one. -/
theorem renew_cases {place : Nat} {renewal : Renewal} {env : AuthEnv}
    {outcomes : List BlobOutcome} {taken : Bool}
    (acted : state.renew place renewal env outcomes taken = some next) :
    let renewals := state.renewals.set place { renewal with finished := true }
    next = { state with renewals } ∨
      ∃ renewed stored, reauthorizeActor env renewal.loaded state.addr outcomes = .ok renewed ∧
        state.stored = some stored ∧
        next = { state with
          renewals, stored := some ⟨renewed, stored.origin⟩, writes := state.writes + 1
          renewed := some (renewed, state.writes + 1) } := by
  unfold renew at acted
  split at acted
  · cases acted
  split at acted
  · cases acted
    exact .inl rfl
  next renewed isRenewed =>
    dsimp only at acted
    split at acted
    · cases acted
      exact .inl rfl
    next written isWritten =>
      obtain ⟨⟨stored, isStored⟩, rfl⟩ := updateActor_ok isWritten
      cases acted
      refine .inr ⟨renewed, stored, isRenewed, isStored, ?_⟩
      simp only [isStored, Option.map_some, Option.getD_some]

end Refresher

/-! ### What a step of a pass does -/

/-- A pass commits only what it has queried. -/
structure Pass.Sourced (pass : Pass) : Prop where
  revisions : ∀ entry ∈ pass.outcome.revisions, entry.1 ∈ pass.asked
  phase : match pass.phase with
    | .waiting source _ _ => source ∈ pass.asked
    | .committing todo => ∀ entry ∈ todo, entry.1 ∈ pass.asked
    | _ => True

def Pass.queried (pass : Pass) : Option String :=
  match pass.phase with
  | .waiting source _ _ => some source
  | _ => none

/-- What no step of a pass takes back; its copy of the actor changes with a reply only. -/
structure Pass.Follows (pass after : Pass) : Prop where
  actor : pass.queried = none → after.actor = pass.actor
  loadedAt : after.loadedAt = pass.loadedAt
  incarnation : after.incarnation = pass.incarnation
  asked : ∀ source ∈ pass.asked, source ∈ after.asked
  sourced : pass.Sourced → after.Sourced

/-- Phases in which a pass neither waits nor commits. -/
def PassPhase.Quiet : PassPhase → Prop
  | .waiting _ _ _ | .committing _ => False
  | _ => True

theorem Pass.follows_quiet (pass : Pass) (expired : HashSet String)
    (stale : HashMap String (Nat × Nat)) {phase : PassPhase} (quiet : phase.Quiet) :
    pass.Follows { pass with expired, stale, phase } := by
  refine ⟨fun _ => rfl, rfl, rfl, fun _ => id, fun sourced => ⟨sourced.revisions, ?_⟩⟩
  cases phase with
  | waiting source since todo | committing todo => exact quiet.elim
  | _ => trivial

theorem Pass.mem_receive {pass : Pass} {now since : Nat} {source : String} {todo : List String}
    {reply : Except ServiceError (List Attribute)} {entry : String × Nat × Nat}
    (member : entry ∈ (pass.receive now source since todo reply).outcome.revisions) :
    entry ∈ pass.outcome.revisions ∨ entry.1 = source := by
  change _ ∈ (applyReply ..).2.revisions at member
  rw [applyReply_revisions, List.mem_append] at member
  refine member.imp id fun new => ?_
  cases isStale : pass.stale[source]? with
  | none => simp [isStale] at new
  | some captured =>
    rw [isStale] at new
    cases reply with
    | ok tsAttrs | error failure => rw [List.mem_singleton.mp new]

namespace Refresher

variable {state next : Refresher} {pass : Pass} {place : Nat}

def storedActor (state : Refresher) : Option Actor := state.stored.map StoredActor.actor

/-- A step of a pass moves that pass only, and at most writes the record that is there. -/
structure Moves (state next : Refresher) (place : Nat) (pass : Pass) : Prop where
  passes : ∃ after, pass.Follows after ∧ next.passes = state.passes.set place after
  addr : next.addr = state.addr
  stored : next.storedActor = state.storedActor ∧ next.writes = state.writes ∨
    state.stored.isSome ∧ pass.phase = .persisting ∧ pass.outcome.changed = true ∧
      next.storedActor = some (restampServices pass.policy state.now pass.actor) ∧
      next.writes = state.writes + 1
  leaving : next.leaving = state.leaving
  incarnation : next.incarnation = state.incarnation
  renewed : next.renewed = state.renewed

theorem Moves.gone (moves : Moves state next place pass) (gone : state.stored = none) :
    next.stored = none := by
  rcases moves.stored with ⟨same, -⟩ | ⟨isSome, -⟩
  · simpa [storedActor, gone] using same
  · simp [gone] at isSome

theorem moves_setPass {after : Pass} (follows : pass.Follows after) :
    Moves state (state.setPass place after) place pass :=
  ⟨⟨after, follows, rfl⟩, rfl, .inl ⟨rfl, rfl⟩, rfl, rfl, rfl⟩

/-- The write of the actor records no revision. -/
theorem moves_persist (isPhase : pass.phase = .persisting) (taken : Bool) :
    Moves state (state.persist place pass taken) place pass ∧
      (state.persist place pass taken).mgr = state.mgr ∧
      (state.persist place pass taken).recordedBy = state.recordedBy := by
  have committed : pass.Follows { pass with phase := .committing pass.outcome.revisions } :=
    ⟨fun _ => rfl, rfl, rfl, fun _ => id, fun sourced => ⟨sourced.revisions, sourced.revisions⟩⟩
  have ended (result : Except ServiceError Bool) :
      pass.Follows { pass with phase := .returned result } := pass.follows_quiet _ _ trivial
  unfold persist
  split
  · exact ⟨moves_setPass (ended _), rfl, rfl⟩
  next target isChanged isTarget =>
    split
    · split
      · exact ⟨moves_setPass committed, rfl, rfl⟩
      · exact ⟨moves_setPass (ended _), rfl, rfl⟩
    · split
      next written isWritten =>
        obtain ⟨⟨stored, isStored⟩, rfl⟩ := updateActor_ok isWritten
        refine ⟨⟨⟨_, committed, rfl⟩, rfl, .inr ⟨?_, isPhase, isChanged, rfl, rfl⟩, rfl, rfl, rfl⟩,
          rfl, rfl⟩
        rw [isStored]
        rfl
      · exact ⟨moves_setPass (ended _), rfl, rfl⟩
  · exact ⟨moves_setPass (ended _), rfl, rfl⟩
  · refine ⟨⟨⟨_, committed, rfl⟩, rfl, .inl ⟨?_, rfl⟩, rfl, rfl, rfl⟩, rfl, rfl⟩
    -- At most the bookkeeping of the record changes.
    simp only [storedActor, setPass]
    split
    · rw [Option.map_map]
      rfl
    · rfl

/-- A step that concerns only the pass: what becomes of it. -/
inductive Advances (state : Refresher) (pass : Pass) : Pass → Prop
  | readStale {addr : IpAddr} (isPhase : pass.phase = .loaded)
      (isLoaded : pass.loaded.zprAddr = some addr) (expired : HashSet String) :
      Advances state pass { pass with
        expired, phase := .capturing (state.mgr.staleSourcesForActor addr) }
  | readGeneration {addr : IpAddr} {source : String} {revision : Nat} {todo : List (String × Nat)}
      (isPhase : pass.phase = .capturing ((source, revision) :: todo))
      (isLoaded : pass.loaded.zprAddr = some addr) :
      Advances state pass { pass with
        stale := pass.stale.insert source (revision, state.mgr.invalidationGeneration addr source)
        phase := .capturing todo }
  | collect {sources : List String} (isPhase : pass.phase = .capturing [])
      (distinct : sources.Nodup) : Advances state pass { pass with phase := .asking sources }
  | ask {source : String} {todo : List String} (isPhase : pass.phase = .asking (source :: todo)) :
      Advances state pass { pass with
        phase := .waiting source state.ticks todo, asked := source :: pass.asked }
  | answer {source : String} {since : Nat} {todo : List String}
      (isPhase : pass.phase = .waiting source since todo)
      (reply : Except ServiceError (List Attribute)) :
      Advances state pass (pass.receive state.now source since todo reply)
  | finish (isPhase : pass.phase = .asking []) :
      Advances state pass { pass with phase := .persisting }
  | leave (running : pass.phase.Running) (result : Except ServiceError Bool) :
      Advances state pass { pass with phase := .returned result }

/-- Everything a pass can do. -/
theorem stepPass_cases {event : RefreshEvent}
    (acted : state.stepPass place pass event = some next) :
    (∃ after, Advances state pass after ∧ next = state.setPass place after) ∨
      (∃ taken, pass.phase = .persisting ∧ next = state.persist place pass taken) ∨
      ((∃ other, event = .commit other) ∧ state.commit place pass = some next) := by
  cases event with
  | persist _ taken =>
    simp only [stepPass] at acted
    split at acted <;> cases acted
    next isPhase => exact .inr (.inl ⟨taken, isPhase, rfl⟩)
  | commit other => exact .inr (.inr ⟨⟨other, rfl⟩, acted⟩)
  | readStale _ =>
    simp only [stepPass] at acted
    split at acted <;> cases acted
    next isPhase isLoaded => exact .inl ⟨_, .readStale isPhase isLoaded _, rfl⟩
    next isPhase _ => exact .inl ⟨_, .leave (isPhase ▸ trivial) _, rfl⟩
  | readGeneration _ =>
    simp only [stepPass] at acted
    split at acted <;> cases acted
    next isPhase isLoaded => exact .inl ⟨_, .readGeneration isPhase isLoaded, rfl⟩
  | collect _ order =>
    simp only [stepPass] at acted
    split at acted <;> cases acted
    next isPhase => exact .inl ⟨_, .collect isPhase (order.nodup_list _), rfl⟩
  | ask _ =>
    simp only [stepPass] at acted
    split at acted <;> cases acted
    next isPhase => exact .inl ⟨_, .finish isPhase, rfl⟩
    next isPhase => exact .inl ⟨_, .ask isPhase, rfl⟩
  | answer _ reply =>
    simp only [stepPass] at acted
    split at acted <;> cases acted
    next isPhase => exact .inl ⟨_, .answer isPhase _, rfl⟩
  | _ => cases acted

theorem Advances.follows {after : Pass} (advances : Advances state pass after) :
    pass.Follows after := by
  cases advances with
  | ask isPhase =>
    refine ⟨fun _ => rfl, rfl, rfl, fun _ => List.mem_cons_of_mem _,
      fun sourced => ⟨?_, List.mem_cons_self⟩⟩
    exact fun entry member => List.mem_cons_of_mem _ (sourced.revisions entry member)
  | answer isPhase reply =>
    refine ⟨fun quiet => ?_, rfl, rfl, fun _ => id, fun sourced => ⟨fun entry member => ?_, trivial⟩⟩
    · rw [Pass.queried, isPhase] at quiet
      cases quiet
    have asked := sourced.phase
    simp only [isPhase] at asked
    rcases Pass.mem_receive member with old | own
    · exact sourced.revisions entry old
    · exact own ▸ asked
  | _ => exact pass.follows_quiet _ _ trivial

theorem moves_stepPass {event : RefreshEvent} (acted : state.stepPass place pass event = some next)
    (noCommit : ∀ other, event ≠ .commit other) :
    Moves state next place pass ∧ next.mgr = state.mgr ∧ next.recordedBy = state.recordedBy := by
  rcases stepPass_cases acted with ⟨after, advances, rfl⟩ | ⟨taken, isPhase, rfl⟩ | ⟨⟨_, rfl⟩, -⟩
  · exact ⟨moves_setPass advances.follows, rfl, rfl⟩
  · exact moves_persist isPhase taken
  · exact absurd rfl (noCommit _)

/-- The next commit of the pass lands in the records of the actor at the address. -/
def Lands (state : Refresher) (pass : Pass) : Prop :=
  match pass.phase with
  | .committing ((source, _, generation) :: _) =>
    pass.actor.zprAddr = some state.addr ∧
      (state.mgr.record state.addr source).generation = generation
  | _ => False

/-- A commit records nothing, or one revision of a source that the pass has asked. -/
theorem commit_cases (acted : state.commit place pass = some next) :
    Moves state next place pass ∧
      (((∀ source, next.mgr.record state.addr source = state.mgr.record state.addr source) ∧
          next.recordedBy = state.recordedBy) ∨
        ∃ source revision, state.Lands pass ∧ (pass.Sourced → source ∈ pass.asked) ∧
          (∀ other, next.mgr.record state.addr other =
            if source = other then
              { state.mgr.record state.addr source with revision := some revision }
            else state.mgr.record state.addr other) ∧
          next.recordedBy = state.recordedBy.insert source pass.incarnation) := by
  unfold commit at acted
  split at acted
  · cases acted
    exact ⟨moves_setPass (pass.follows_quiet _ _ trivial), .inl ⟨fun _ => rfl, rfl⟩⟩
  next source revision generation todo target isPhase isTarget =>
    have asked (sourced : pass.Sourced) : ∀ entry ∈ (source, revision, generation) :: todo,
        entry.1 ∈ pass.asked := by
      have phase := sourced.phase
      simpa only [isPhase] using phase
    have follows : pass.Follows { pass with phase := .committing todo } :=
      ⟨fun _ => rfl, rfl, rfl, fun _ => id, fun sourced => ⟨sourced.revisions, fun entry member =>
        asked sourced entry (List.mem_cons_of_mem _ member)⟩⟩
    simp only [TrustedServicesMgr.recordRevisionAtGeneration, Option.some.injEq] at acted
    subst acted
    refine ⟨⟨⟨_, follows, rfl⟩, rfl, .inl ⟨rfl, rfl⟩, rfl, rfl, rfl⟩, ?_⟩
    by_cases landed : (state.mgr.record target source).generation = generation
    · subst landed
      simp only [ne_eq, not_true_eq_false, if_false, true_and, setPass]
      by_cases own : target = state.addr
      · subst own
        refine .inr ⟨source, revision, ?_, fun sourced => asked sourced _ List.mem_cons_self,
          TrustedServicesMgr.record_setRecord _, if_pos rfl⟩
        simp only [Lands, isPhase]
        exact ⟨isTarget, trivial⟩
      · exact .inl ⟨TrustedServicesMgr.record_setRecord_of_ne own _, if_neg own⟩
    · simp only [ne_eq, landed, not_false_eq_true, if_true, Bool.false_eq_true, false_and, if_false,
        setPass]
      exact .inl ⟨TrustedServicesMgr.record_setRecord_self state.addr, trivial⟩
  · cases acted

end Refresher

end VisaService
