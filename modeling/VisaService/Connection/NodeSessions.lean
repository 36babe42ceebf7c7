import VisaService.Trusted.Refresh

/-!
# Handles of a node

A node that authenticates or opens gets a handle that is bound to a session, and the handle is
live as long as the stored actor carries its session. But every call that changes the actor writes
it as a whole, from a copy that it has loaded earlier: a refresh pass writes the session back that
it has read, and so may bring an old handle back to life. `NodeSessions` is what concerns the node
at one address, with the calls that are under way.

Main results: `old_handle_revived` and `handles_bound`.
-/
namespace VisaService

open Lib

def Key.zprSession : String := "zpr.session"

/-- The session that a handle made from the actor is bound to. -/
def Actor.session (actor : Actor) : Option String :=
  actor.attrs[Key.zprSession]?.bind Attribute.getSingleValue

def stampNewSession (actor : Actor) (now : Nat) (session : String) : Actor :=
  stampAttribute actor now Key.zprSession session

@[simp] theorem stampNewSession_session (actor : Actor) (now : Nat) (session : String) :
    (stampNewSession actor now session).session = some session := by
  simp [Actor.session, stampNewSession, stampAttribute_get, Attribute.internal,
    Attribute.getSingleValue]

theorem restampServices_session (policy : Policy) (now : Nat) (actor : Actor) :
    (restampServices policy now actor).session = actor.session := by
  have kept : (restampServices policy now actor).attrs[Key.zprSession]? =
      actor.attrs[Key.zprSession]? := by
    simp only [restampServices]
    split
    · rfl
    · rw [Actor.setServices_get, if_neg (by decide)]
  rw [Actor.session, kept, Actor.session]

/-! ### The calls -/

inductive NodeCallKind where
  | authenticate (reconnect : Bool)
  | open
  /-- `refresh_and_persist_actor`. -/
  | refresh
  deriving DecidableEq, Repr

inductive NodeCallPhase where
  | loaded
  /-- The copy has a new session. -/
  | stamped
  /-- The copy with the new session is stored. -/
  | written
  deriving DecidableEq, Repr

structure NodeCall where
  kind : NodeCallKind
  phase : NodeCallPhase
  loaded : Actor
  copy : Actor
  outcome : RefreshOutcome
  /-- Bookkeeping: which write of a session at the address was that of the call. -/
  wroteAt : Option Nat

def NodeCall.startingAuthority (call : NodeCall) : Option String :=
  call.loaded.attrs[Key.userAuthority]?.bind fun attr => attr.value.head?

structure NodeSessions where
  addr : IpAddr
  now : Nat
  stored : Option Actor
  calls : HashMap Nat NodeCall
  /-- The sessions of the handles that were returned, the latest first. -/
  handles : List (Option String)
  /-- Bookkeeping: the node was disconnected after the latest handle was returned. -/
  disconnected : Bool
  /-- Bookkeeping: the session ids that were drawn. -/
  drawn : HashSet String
  /-- Bookkeeping: how often a new session was written or the record removed, and how often it
  had been with the write of the call that has completed last. -/
  writes : Nat
  latestAt : Nat

inductive NodeEvent where
  | elapse (nanos : Nat)
  /-- The credentials are accepted and policy approves the actor; a random session is drawn. -/
  | authenticate (id : Nat) (reconnect : Bool) (actor : Actor) (session : String)
  | loadForOpen (id : Nat)
  | loadForRefresh (id : Nat)
  /-- The node reports another substrate address in an open. -/
  | updateSubstrate (id : Nat) (substrate : String) (taken : Bool)
  | stamp (id : Nat) (session : String)
  /-- A trusted service replies to a refresh pass. -/
  | answer (id : Nat) (source : String) (staleRev : Option (Nat × Nat))
      (reply : Except ServiceError (List Attribute))
  /-- `taken`: the database takes the write. -/
  | persist (id : Nat) (policy : Policy) (taken : Bool)
  /-- An authenticate or an open returns its handle. -/
  | complete (id : Nat)
  | fail (id : Nat)
  | disconnect

namespace NodeSessions

def init (addr : IpAddr) (stored : Option Actor) : NodeSessions where
  addr := addr
  now := 0
  stored := stored
  calls := ∅
  handles := []
  disconnected := false
  drawn := ∅
  writes := 0
  latestAt := 0

/-- `node_is_live` of a handle that is bound to the session. -/
def nodeIsLive (host : NodeSessions) (session : Option String) : Bool :=
  match host.stored with
  | some actor => actor.isNode && actor.session == session
  | none => false

/-- The handles that were returned before another one was, or before the node was
disconnected. -/
def superseded (host : NodeSessions) : List (Option String) :=
  if host.disconnected then host.handles else host.handles.tail

/-- The handle of the latest completed authenticate or open, if the node was not disconnected
since. -/
def latest (host : NodeSessions) : Option (Option String) :=
  if host.disconnected then none else host.handles.head?

def setCall (host : NodeSessions) (id : Nat) (call : NodeCall) : NodeSessions :=
  { host with calls := host.calls.insert id call }

def endCall (host : NodeSessions) (id : Nat) : NodeSessions :=
  { host with calls := host.calls.erase id }

def updateActor (host : NodeSessions) (actor : Actor) (taken : Bool) :
    Except StoreError NodeSessions :=
  match actor.zprAddr with
  | none => .error (.missingRequired "attempt to update actor with no ZPR address")
  | some target =>
    -- A write at another address concerns another record.
    if target ≠ host.addr then if taken then .ok host else .error .redis
    else
      match host.stored with
      | none => .error (.notFound s!"update called on non-existant actor: {host.addr.display}")
      | some stored =>
        if stored.isNode ≠ actor.isNode then
          let role := if actor.isNode then "node" else "adapter"
          .error (.invalidData
            s!"update fails since {role} actor not already in {role} role: {host.addr.display}")
        else if taken then .ok { host with stored := some actor }
        else .error .redis

/-- `ActorMgr::add_node` as far as the actor goes. A fresh node replaces whatever is stored. -/
def addNode (host : NodeSessions) (actor : Actor) (reconnect taken : Bool) :
    Except StoreError NodeSessions :=
  if reconnect then host.updateActor actor taken
  else if taken then .ok { host with stored := some actor }
  else .error .redis

/-- The call has written its session, `here` or at another address. -/
def wrote (host : NodeSessions) (id : Nat) (call : NodeCall) (here : Bool) : NodeSessions :=
  if here then
    { host with writes := host.writes + 1 }.setCall id
      { call with phase := .written, wroteAt := some (host.writes + 1) }
  else host.setCall id { call with phase := .written }

def removed (host : NodeSessions) : NodeSessions :=
  { host with stored := none, disconnected := true, writes := host.writes + 1 }

/-- The call writes its copy. A refresh pass ends with it, and one that changed nothing does
not write. -/
def persist (host : NodeSessions) (id : Nat) (call : NodeCall) (policy : Policy)
    (taken : Bool) : Option NodeSessions :=
  match call.kind, call.phase with
  | .authenticate reconnect, .stamped =>
    match host.addNode call.copy reconnect taken with
    | .ok written =>
      some (written.wrote id call (!reconnect || call.copy.zprAddr == some host.addr))
    | .error _ => some (host.endCall id)
  | .open, .stamped =>
    match host.updateActor call.copy taken with
    | .ok written => some (written.wrote id call (call.copy.zprAddr == some host.addr))
    | .error _ => some (host.endCall id)
  | .refresh, .loaded =>
    if call.outcome.changed then
      match host.updateActor (restampServices policy host.now call.copy) taken with
      | .ok written => some (written.endCall id)
      | .error _ => some (host.endCall id)
    else some (host.endCall id)
  | _, _ => none

/-- The substrate address of the copy is written before the new session is. -/
def updateSubstrate (host : NodeSessions) (id : Nat) (call : NodeCall) (substrate : String)
    (taken : Bool) : Option NodeSessions :=
  match call.kind, call.phase with
  | .open, .loaded =>
    match call.copy.addAttribute (.internal host.now Key.substrateAddr [substrate]) with
    | .error _ => some (host.endCall id)
    | .ok copy =>
      match host.updateActor copy taken with
      | .ok written => some (written.setCall id { call with copy })
      | .error _ => some (host.endCall id)
  | _, _ => none

/-- The failure of an authenticate that has added the node removes the node again. -/
def fail (host : NodeSessions) (id : Nat) (call : NodeCall) : NodeSessions :=
  match call.kind, call.phase with
  | .authenticate _, .written => (host.endCall id).removed
  | _, _ => host.endCall id

def load (host : NodeSessions) (id : Nat) (kind : NodeCallKind) : Option NodeSessions :=
  host.stored.bind fun actor =>
    if id ∉ host.calls ∧ actor.isNode then
      some (host.setCall id ⟨kind, .loaded, actor, actor, .empty, none⟩)
    else none

def step (host : NodeSessions) : NodeEvent → Option NodeSessions
  | .elapse nanos => some { host with now := host.now + nanos }
  | .authenticate id reconnect actor session =>
    if id ∉ host.calls ∧ session ∉ host.drawn ∧ actor.isNode ∧ actor.zprAddr = some host.addr then
      let copy := stampNewSession actor host.now session
      some ({ host with drawn := host.drawn.insert session }.setCall id
        ⟨.authenticate reconnect, .stamped, actor, copy, .empty, none⟩)
    else none
  | .loadForOpen id => host.load id .open
  | .loadForRefresh id => host.load id .refresh
  | .updateSubstrate id substrate taken =>
    host.calls[id]?.bind fun call => host.updateSubstrate id call substrate taken
  | .stamp id session =>
    host.calls[id]?.bind fun call =>
      if call.kind = .open ∧ call.phase = .loaded ∧ session ∉ host.drawn then
        let copy := stampNewSession call.copy host.now session
        some ({ host with drawn := host.drawn.insert session }.setCall id
          { call with phase := .stamped, copy })
      else none
  | .answer id source staleRev reply =>
    host.calls[id]?.bind fun call =>
      if call.kind = .refresh ∧ call.phase = .loaded then
        let (copy, outcome) := applyReply host.now source staleRev call.startingAuthority reply
          call.copy call.outcome
        some (host.setCall id { call with copy, outcome })
      else none
  | .persist id policy taken =>
    host.calls[id]?.bind fun call => host.persist id call policy taken
  | .complete id =>
    host.calls[id]?.bind fun call =>
      if call.phase = .written then
        some { host.endCall id with
          handles := call.copy.session :: host.handles, disconnected := false
          latestAt := call.wroteAt.getD host.latestAt }
      else none
  | .fail id => host.calls[id]?.map (host.fail id)
  | .disconnect => some host.removed

/-- The stored actor has the session of the copy. -/
def Matches (host : NodeSessions) (copy : Actor) : Prop :=
  ∀ actor ∈ host.stored, copy.session = actor.session
  deriving Decidable

/-- What is written without a new session has the session of the stored actor, and calls complete
in the order in which they have written theirs. -/
def Orderly (host : NodeSessions) : NodeEvent → Prop
  | .updateSubstrate id _ _ => ∀ call ∈ host.calls[id]?, host.Matches call.copy
  | .persist id _ _ => ∀ call ∈ host.calls[id]?, call.kind = .refresh → host.Matches call.copy
  | .complete id => ∀ call ∈ host.calls[id]?, call.wroteAt.any (host.latestAt ≤ ·) = true
  | _ => True

instance decidableOrderly (host : NodeSessions) (event : NodeEvent) :
    Decidable (host.Orderly event) :=
  match event with
  | .updateSubstrate .. | .complete _ => inferInstanceAs (Decidable (∀ _ ∈ _, _))
  | .persist .. => inferInstanceAs (Decidable (∀ _ ∈ _, _ → _))
  | .elapse _ | .authenticate _ _ _ _ | .loadForOpen _ | .loadForRefresh _ | .stamp _ _
  | .answer _ _ _ _ | .fail _ | .disconnect => isTrue trivial

/-! ### The invariant -/

def Drawn (host : NodeSessions) (session : Option String) : Prop :=
  ∃ value ∈ host.drawn, session = some value

/-- Sessions of calls that have stamped one are new, and no two calls have the same. Of those that
were written here the last is live, as long as the record is there. -/
structure Inv (host : NodeSessions) : Prop where
  behind : host.latestAt ≤ host.writes
  gone : ∀ session ∈ host.superseded, host.nodeIsLive session = false
  current : ∀ session, host.latest = some session →
    (host.nodeIsLive session = true ↔ host.latestAt = host.writes)
  handles : ∀ session ∈ host.handles, host.Drawn session
  calls : ∀ (id : Nat) (call : NodeCall), host.calls[id]? = some call → call.phase ≠ .loaded →
    host.Drawn call.copy.session ∧ call.copy.session ∉ host.handles
  wrote : ∀ (id : Nat) (call : NodeCall), host.calls[id]? = some call →
    ∀ time ∈ call.wroteAt, call.phase = .written ∧ time ≤ host.writes ∧
      (host.nodeIsLive call.copy.session = true ↔ time = host.writes)
  nodes : ∀ (id : Nat) (call : NodeCall), host.calls[id]? = some call → call.kind ≠ .refresh →
    call.copy.isNode = true
  distinct : ∀ (id other : Nat) (call second : NodeCall), host.calls[id]? = some call →
    host.calls[other]? = some second → call.phase ≠ .loaded → second.phase ≠ .loaded →
    call.copy.session = second.copy.session → id = other

theorem inv_init (addr : IpAddr) (stored : Option Actor) : (init addr stored).Inv := by
  constructor <;> simp [init, superseded, latest]

variable {host next : NodeSessions} {id : Nat} {call : NodeCall}

theorem mem_handles_of_superseded {session : Option String}
    (member : session ∈ host.superseded) : session ∈ host.handles := by
  unfold superseded at member
  split at member
  · exact member
  · exact List.mem_of_mem_tail member

theorem mem_handles_of_latest {session : Option String} (isLatest : host.latest = some session) :
    session ∈ host.handles := by
  unfold latest at isLatest
  split at isLatest
  · cases isLatest
  · exact List.mem_of_head? isLatest

theorem superseded_or_latest {session : Option String} (member : session ∈ host.handles) :
    session ∈ host.superseded ∨ host.latest = some session := by
  unfold superseded latest
  split
  · exact .inl member
  · cases isHandles : host.handles with
    | nil => simp [isHandles] at member
    | cons first rest =>
      rw [isHandles] at member
      exact (List.mem_cons.mp member).symm.imp id fun same => congrArg some same.symm

/-- A session that is live is none of the earlier handles. -/
theorem nodeIsLive_other {session other : Option String} (live : host.nodeIsLive session = true)
    (apart : session ≠ other) : host.nodeIsLive other = false := by
  unfold nodeIsLive at live ⊢
  split at live
  next actor isStored =>
    obtain ⟨-, same⟩ := Bool.and_eq_true_iff.mp live
    simp [beq_iff_eq.mp same, apart]
  · cases live

/-- A change of calls that stamps and writes no session. -/
theorem Inv.withCalls (inv : host.Inv) {calls : HashMap Nat NodeCall}
    (kept : ∀ (id : Nat) (call : NodeCall), calls[id]? = some call →
      host.calls[id]? = some call ∨ call.phase = .loaded ∧ call.wroteAt = none ∧
        (call.kind ≠ .refresh → call.copy.isNode = true)) : { host with calls }.Inv := by
  have before {id : Nat} {call : NodeCall} (isCall : calls[id]? = some call)
      (stamped : call.phase ≠ .loaded) : host.calls[id]? = some call :=
    (kept id call isCall).resolve_right fun loaded => stamped loaded.1
  refine { inv with calls := ?_, wrote := ?_, nodes := ?_, distinct := ?_ }
  · exact fun id call isCall stamped => inv.calls id call (before isCall stamped) stamped
  · intro id call isCall time isTime
    rcases kept id call isCall with old | ⟨-, unwritten, -⟩
    · exact inv.wrote id call old time isTime
    · rw [unwritten] at isTime
      cases isTime
  · intro id call isCall
    exact (kept id call isCall).elim (inv.nodes id call) fun loaded => loaded.2.2
  · exact fun id other call second isCall isSecond stamped also =>
      inv.distinct id other call second (before isCall stamped) (before isSecond also) stamped also

theorem Inv.endCall (inv : host.Inv) (id : Nat) : (host.endCall id).Inv :=
  inv.withCalls fun _ _ isCall => .inl (HashMap.of_get_erase isCall).2

theorem Inv.setLoaded (inv : host.Inv) (loaded : call.phase = .loaded)
    (unwritten : call.wroteAt = none) (node : call.kind ≠ .refresh → call.copy.isNode = true) :
    (host.setCall id call).Inv := by
  refine inv.withCalls fun other second isSecond => ?_
  rcases HashMap.of_get_insert isSecond with ⟨-, rfl⟩ | ⟨-, isSecond⟩
  · exact .inr ⟨loaded, unwritten, node⟩
  · exact .inl isSecond

theorem Inv.unwritten (inv : host.Inv) (isCall : host.calls[id]? = some call)
    (unfinished : call.phase ≠ .written) : call.wroteAt = none :=
  Option.eq_none_iff_forall_not_mem.mpr fun time isTime =>
    unfinished (inv.wrote id call isCall time isTime).1

theorem Inv.setStamped (inv : host.Inv) {session : String} (undrawn : session ∉ host.drawn)
    (isSession : call.copy.session = some session) (unwritten : call.wroteAt = none)
    (node : call.copy.isNode = true) :
    ({ host with drawn := host.drawn.insert session }.setCall id call).Inv := by
  -- nothing has the new session yet
  have fresh {other : Option String} (drawn : host.Drawn other) : other ≠ some session := by
    rintro rfl
    obtain ⟨value, member, isValue⟩ := drawn
    cases isValue
    exact undrawn member
  have stillDrawn {other : Option String} (drawn : host.Drawn other) :
      ∃ value ∈ host.drawn.insert session, other = some value := by
    obtain ⟨value, member, isValue⟩ := drawn
    exact ⟨value, Std.ExtTreeSet.mem_insert.mpr (.inr member), isValue⟩
  constructor
  case behind => exact inv.behind
  case gone => exact inv.gone
  case current => exact inv.current
  case handles => exact fun handle member => stillDrawn (inv.handles handle member)
  case calls =>
    intro other second isSecond isStamped
    rcases HashMap.of_get_insert isSecond with ⟨-, rfl⟩ | ⟨-, isSecond⟩
    · rw [isSession]
      refine ⟨⟨session, Std.ExtTreeSet.mem_insert_self, rfl⟩, fun member => ?_⟩
      exact fresh (inv.handles _ member) rfl
    · obtain ⟨drawn, unminted⟩ := inv.calls other second isSecond isStamped
      exact ⟨stillDrawn drawn, unminted⟩
  case wrote =>
    intro other second isSecond time isTime
    rcases HashMap.of_get_insert isSecond with ⟨-, rfl⟩ | ⟨-, isSecond⟩
    · rw [unwritten] at isTime
      cases isTime
    · exact inv.wrote other second isSecond time isTime
  case nodes =>
    intro other second isSecond kind
    rcases HashMap.of_get_insert isSecond with ⟨-, rfl⟩ | ⟨-, isSecond⟩
    · exact node
    · exact inv.nodes other second isSecond kind
  case distinct =>
    intro one other first second isFirst isSecond firstStamped secondStamped same
    rcases HashMap.of_get_insert isFirst with ⟨isOne, isNew⟩ | ⟨-, wasFirst⟩ <;>
      rcases HashMap.of_get_insert isSecond with ⟨isOther, isNewToo⟩ | ⟨-, wasSecond⟩
    · exact isOne.trans isOther.symm
    · rw [isNew, isSession] at same
      exact absurd same.symm (fresh (inv.calls other second wasSecond secondStamped).1)
    · rw [isNewToo, isSession] at same
      exact absurd same (fresh (inv.calls one first wasFirst firstStamped).1)
    · exact inv.distinct one other first second wasFirst wasSecond firstStamped secondStamped same

variable {actor : Actor} {taken : Bool}

theorem Inv.rewrite (inv : host.Inv) {old : Actor} (isStored : host.stored = some old)
    (role : old.isNode = actor.isNode) (session : actor.session = old.session) :
    { host with stored := some actor }.Inv := by
  have sameLive (handle : Option String) :
      { host with stored := some actor }.nodeIsLive handle = host.nodeIsLive handle := by
    simp only [nodeIsLive, isStored, role, session]
  refine { inv with gone := ?_, current := ?_, wrote := ?_ }
  · exact fun handle member => (sameLive handle).trans (inv.gone handle member)
  · intro handle isLatest
    rw [sameLive]
    exact inv.current handle isLatest
  · intro id call isCall time isTime
    rw [sameLive]
    exact inv.wrote id call isCall time isTime

theorem updateActor_ok (updated : host.updateActor actor taken = .ok next) :
    next = host ∧ actor.zprAddr ≠ some host.addr ∨
      actor.zprAddr = some host.addr ∧ ∃ old, host.stored = some old ∧ old.isNode = actor.isNode ∧
        next = { host with stored := some actor } := by
  unfold updateActor at updated
  split at updated
  · cases updated
  next target isTarget =>
  split at updated
  next elsewhere =>
    split at updated <;> cases updated
    exact .inl ⟨rfl, by simp [isTarget, elsewhere]⟩
  next here =>
  split at updated
  · cases updated
  next old isStored =>
    split at updated
    · cases updated
    next role =>
      split at updated <;> cases updated
      exact .inr ⟨not_not.mp here ▸ isTarget, old, isStored, not_not.mp role, rfl⟩

theorem Inv.updateActor (inv : host.Inv) (updated : host.updateActor actor taken = .ok next)
    (same : host.Matches actor) :
    next.Inv := by
  rcases updateActor_ok updated with ⟨rfl, -⟩ | ⟨-, old, isStored, role, rfl⟩
  · exact inv
  · exact inv.rewrite isStored role (same old isStored)

variable (inv : host.Inv)
include inv

/-- The call is in another phase, with the session that it had. -/
theorem Inv.advance (isCall : host.calls[id]? = some call) (stamped : call.phase ≠ .loaded)
    {stored : Option Actor} {writes : Nat} {wroteAt : Option Nat}
    (behind : host.latestAt ≤ writes)
    (gone : ∀ session ∈ host.superseded, { host with stored }.nodeIsLive session = false)
    (current : ∀ session, host.latest = some session →
      ({ host with stored }.nodeIsLive session = true ↔ host.latestAt = writes))
    (own : ∀ time ∈ wroteAt, time ≤ writes ∧
      ({ host with stored }.nodeIsLive call.copy.session = true ↔ time = writes))
    (others : ∀ (other : Nat) (second : NodeCall), id ≠ other →
      host.calls[other]? = some second → ∀ time ∈ second.wroteAt, time ≤ writes ∧
        ({ host with stored }.nodeIsLive second.copy.session = true ↔ time = writes)) :
    ({ host with stored, writes }.setCall id { call with phase := .written, wroteAt }).Inv := by
  -- every call that has a session now had it before
  have before {other : Nat} {second : NodeCall}
      (isSecond : (host.calls.insert id { call with phase := .written, wroteAt })[other]? =
        some second) :
      ∃ earlier, host.calls[other]? = some earlier ∧
        (second.phase ≠ .loaded → earlier.phase ≠ .loaded) ∧ earlier.copy = second.copy ∧
        earlier.kind = second.kind := by
    rcases HashMap.of_get_insert isSecond with ⟨rfl, rfl⟩ | ⟨-, isSecond⟩
    · exact ⟨call, isCall, fun _ => stamped, rfl, rfl⟩
    · exact ⟨second, isSecond, fun stamped => stamped, rfl, rfl⟩
  refine ⟨behind, gone, current, inv.handles, ?_, ?_, ?_, ?_⟩
  · intro other second isSecond isStamped
    obtain ⟨earlier, isEarlier, wasStamped, same, -⟩ := before isSecond
    exact same ▸ inv.calls other earlier isEarlier (wasStamped isStamped)
  · intro other second isSecond time isTime
    rcases HashMap.of_get_insert isSecond with ⟨-, rfl⟩ | ⟨apart, isSecond⟩
    · exact ⟨rfl, own time isTime⟩
    · exact ⟨(inv.wrote other second isSecond time isTime).1,
        others other second apart isSecond time isTime⟩
  · intro other second isSecond kind
    obtain ⟨earlier, isEarlier, -, same, sameKind⟩ := before isSecond
    exact same ▸ inv.nodes other earlier isEarlier (sameKind ▸ kind)
  · intro one other first second isFirst isSecond firstStamped secondStamped same
    obtain ⟨earlier, isEarlier, wasStamped, sameFirst, -⟩ := before isFirst
    obtain ⟨also, isAlso, alsoStamped, sameSecond, -⟩ := before isSecond
    exact inv.distinct one other earlier also isEarlier isAlso (wasStamped firstStamped)
      (alsoStamped secondStamped) (by rw [sameFirst, sameSecond, same])

theorem Inv.wroteElsewhere (isCall : host.calls[id]? = some call)
    (stamped : call.phase = .stamped) : (host.wrote id call false).Inv := by
  have unwritten := inv.unwritten isCall (by rw [stamped]; decide)
  refine inv.advance isCall (by rw [stamped]; decide) inv.behind inv.gone inv.current ?_ ?_
  · rw [unwritten]
    exact fun time isTime => by cases isTime
  · exact fun other second _ isSecond time isTime =>
      (inv.wrote other second isSecond time isTime).2

/-- The session that is written last is live, and no other is. -/
theorem Inv.wroteHere (isCall : host.calls[id]? = some call) (stamped : call.phase = .stamped)
    (kind : call.kind ≠ .refresh) :
    ({ host with stored := some call.copy }.wrote id call true).Inv := by
  have isStamped : call.phase ≠ .loaded := by rw [stamped]; decide
  obtain ⟨-, unminted⟩ := inv.calls id call isCall isStamped
  have live : { host with stored := some call.copy }.nodeIsLive call.copy.session = true := by
    simp [nodeIsLive, inv.nodes id call isCall kind]
  have behind := inv.behind
  change ({ host with stored := some call.copy, writes := host.writes + 1 }.setCall id
    { call with phase := .written, wroteAt := some (host.writes + 1) }).Inv
  refine inv.advance isCall isStamped (by omega) ?_ ?_ ?_ ?_
  · intro session member
    refine nodeIsLive_other live ?_
    rintro rfl
    exact unminted (mem_handles_of_superseded member)
  · intro session isLatest
    have apart : call.copy.session ≠ session := by
      rintro rfl
      exact unminted (mem_handles_of_latest isLatest)
    exact iff_of_false (by simp [nodeIsLive_other live apart]) (by omega)
  · intro time isTime
    cases isTime
    exact ⟨le_rfl, iff_of_true live rfl⟩
  · intro other second apart isSecond time isTime
    obtain ⟨isWritten, early, -⟩ := inv.wrote other second isSecond time isTime
    have apart : call.copy.session ≠ second.copy.session := fun same => apart
      (inv.distinct id other call second isCall isSecond isStamped (by rw [isWritten]; decide) same)
    exact ⟨by omega, iff_of_false (by simp [nodeIsLive_other live apart]) (by omega)⟩

theorem Inv.complete (isCall : host.calls[id]? = some call) {time : Nat}
    (isTime : call.wroteAt = some time) (later : host.latestAt ≤ time) :
    { host.endCall id with
      handles := call.copy.session :: host.handles, disconnected := false
      latestAt := call.wroteAt.getD host.latestAt }.Inv := by
  obtain ⟨isWritten, early, live⟩ := inv.wrote id call isCall time isTime
  have isStamped : call.phase ≠ .loaded := by rw [isWritten]; decide
  obtain ⟨drawn, unminted⟩ := inv.calls id call isCall isStamped
  rw [isTime, Option.getD_some]
  refine ⟨early, fun session (member : session ∈ host.handles) => ?_, ?_, ?_, ?_, ?_, ?_, ?_⟩
  · -- an earlier handle is not live, with the session of this call or with that of a later one
    rcases Nat.eq_or_lt_of_le early with isLast | overtaken
    · refine nodeIsLive_other (live.mpr isLast) ?_
      rintro rfl
      exact unminted member
    · rcases superseded_or_latest member with older | isLatest
      · exact inv.gone session older
      · exact Bool.eq_false_iff.mpr fun isLive =>
          absurd ((inv.current session isLatest).mp isLive) (by omega)
  · intro session isLatest
    cases isLatest
    exact live
  · intro session member
    rcases List.mem_cons.mp member with rfl | earlier
    · exact drawn
    · exact inv.handles session earlier
  · intro other second isSecond stamped
    obtain ⟨apart, isSecond⟩ := HashMap.of_get_erase isSecond
    obtain ⟨isDrawn, unmintedToo⟩ := inv.calls other second isSecond stamped
    refine ⟨isDrawn, fun member => ?_⟩
    rcases List.mem_cons.mp member with same | earlier
    · exact apart (inv.distinct id other call second isCall isSecond isStamped stamped same.symm)
    · exact unmintedToo earlier
  · exact fun other second isSecond => inv.wrote other second (HashMap.of_get_erase isSecond).2
  · exact fun other second isSecond => inv.nodes other second (HashMap.of_get_erase isSecond).2
  · intro one other first second isFirst isSecond
    exact inv.distinct one other first second (HashMap.of_get_erase isFirst).2
      (HashMap.of_get_erase isSecond).2

theorem Inv.removed : host.removed.Inv where
  behind := Nat.le_succ_of_le inv.behind
  gone _ _ := rfl
  current _ isLatest := by cases isLatest
  handles := inv.handles
  calls := inv.calls
  wrote id call isCall time isTime := by
    obtain ⟨isWritten, early, -⟩ := inv.wrote id call isCall time isTime
    refine ⟨isWritten, Nat.le_succ_of_le early,
      iff_of_false (by simp [nodeIsLive, NodeSessions.removed]) ?_⟩
    exact (Nat.lt_succ_of_le early).ne
  nodes := inv.nodes
  distinct := inv.distinct

/-! ### One step, every run -/

theorem Inv.load {kind : NodeCallKind}
    (loaded : host.load id kind = some next) : next.Inv := by
  obtain ⟨actor, isStored, started⟩ := Option.bind_eq_some_iff.mp loaded
  obtain ⟨⟨-, isNode⟩, isNext⟩ := Option.ite_none_right_eq_some.mp started
  cases isNext
  exact inv.setLoaded rfl rfl fun _ => isNode

omit inv in
theorem isNode_of_role {one other : Actor}
    (same : one.attrs[Key.role]? = other.attrs[Key.role]?) : one.isNode = other.isNode := by
  rw [Actor.isNode, Actor.single, same, ← Actor.single, ← Actor.isNode]

omit inv in
theorem stampNewSession_isNode (actor : Actor) (now : Nat) (session : String) :
    (stampNewSession actor now session).isNode = actor.isNode :=
  isNode_of_role ((stampAttribute_get _ _ _ _ _).trans (if_neg (by decide)))

theorem Inv.updateSubstrate (isCall : host.calls[id]? = some call)
    {substrate : String} (same : host.Matches call.copy)
    (updated : host.updateSubstrate id call substrate taken = some next) : next.Inv := by
  unfold NodeSessions.updateSubstrate at updated
  split at updated
  next isOpen isLoaded =>
    have unwritten := inv.unwritten isCall (by rw [isLoaded]; decide)
    split at updated
    · cases updated
      exact inv.endCall id
    next copy added =>
      -- the substrate address is neither the session nor the role
      have others {key : String} (apart : Key.substrateAddr ≠ key) :
          copy.attrs[key]? = call.copy.attrs[key]? :=
        (Actor.addAttribute_get added key).trans (if_neg apart)
      have kept : copy.session = call.copy.session := by
        rw [Actor.session, others (by decide), Actor.session]
      have node : copy.isNode = true :=
        (isNode_of_role (others (by decide))).trans (inv.nodes id call isCall (by simp [isOpen]))
      split at updated
      next written wrote =>
        cases updated
        refine (inv.updateActor wrote fun actor isStored => ?_).setLoaded isLoaded unwritten
          fun _ => node
        exact kept.trans (same actor isStored)
      · cases updated
        exact inv.endCall id
  · cases updated

theorem Inv.persist (isCall : host.calls[id]? = some call) {policy : Policy}
    (same : call.kind = .refresh → host.Matches call.copy)
    (persisted : host.persist id call policy taken = some next) : next.Inv := by
  -- a session that is written at another address leaves this record alone
  have updates {written : NodeSessions} (stamped : call.phase = .stamped)
      (kind : call.kind ≠ .refresh) (wrote : host.updateActor call.copy taken = .ok written) :
      (written.wrote id call (call.copy.zprAddr == some host.addr)).Inv := by
    rcases updateActor_ok wrote with ⟨rfl, elsewhere⟩ | ⟨here, old, -, -, rfl⟩
    · rw [beq_false_of_ne elsewhere]
      exact inv.wroteElsewhere isCall stamped
    · rw [here, beq_self_eq_true]
      exact inv.wroteHere isCall stamped kind
  unfold NodeSessions.persist at persisted
  split at persisted
  next reconnect isKind isStamped =>
    have kind : call.kind ≠ .refresh := by simp [isKind]
    split at persisted
    next written wrote =>
      cases persisted
      unfold addNode at wrote
      cases reconnect with
      | true => exact updates isStamped kind wrote
      | false =>
        split at wrote
        next again => cases again
        · split at wrote <;> cases wrote
          exact inv.wroteHere isCall isStamped kind
    · cases persisted
      exact inv.endCall id
  next isOpen isStamped =>
    split at persisted
    next written wrote =>
      cases persisted
      exact updates isStamped (by simp [isOpen]) wrote
    · cases persisted
      exact inv.endCall id
  next isRefresh isLoaded =>
    split at persisted
    · split at persisted
      next written wrote =>
        cases persisted
        refine Inv.endCall (inv.updateActor wrote fun actor isStored => ?_) id
        exact (restampServices_session _ _ _).trans (same isRefresh actor isStored)
      · cases persisted
        exact inv.endCall id
    · cases persisted
      exact inv.endCall id
  · cases persisted

theorem Inv.step {event : NodeEvent} (orderly : host.Orderly event)
    (stepped : host.step event = some next) : next.Inv := by
  cases event with
  | elapse nanos =>
    cases stepped
    exact { inv with }
  | authenticate id reconnect actor session =>
    obtain ⟨⟨-, undrawn, isNode, -⟩, isNext⟩ := Option.ite_none_right_eq_some.mp stepped
    cases isNext
    exact inv.setStamped undrawn (stampNewSession_session _ _ _) rfl
      ((stampNewSession_isNode _ _ _).trans isNode)
  | loadForOpen id | loadForRefresh id => exact inv.load stepped
  | updateSubstrate id substrate taken =>
    obtain ⟨call, isCall, updated⟩ := Option.bind_eq_some_iff.mp stepped
    exact inv.updateSubstrate isCall (orderly call isCall) updated
  | stamp id session =>
    obtain ⟨call, isCall, stamped⟩ := Option.bind_eq_some_iff.mp stepped
    obtain ⟨⟨isOpen, isLoaded, undrawn⟩, isNext⟩ := Option.ite_none_right_eq_some.mp stamped
    have unwritten := inv.unwritten isCall (by rw [isLoaded]; decide)
    cases isNext
    exact inv.setStamped undrawn (stampNewSession_session _ _ _) unwritten
      ((stampNewSession_isNode _ _ _).trans (inv.nodes id call isCall (by simp [isOpen])))
  | answer id source staleRev reply =>
    obtain ⟨call, isCall, answered⟩ := Option.bind_eq_some_iff.mp stepped
    obtain ⟨⟨isRefresh, isLoaded⟩, isNext⟩ := Option.ite_none_right_eq_some.mp answered
    have unwritten := inv.unwritten isCall (by rw [isLoaded]; decide)
    cases isNext
    exact inv.setLoaded isLoaded unwritten fun kind => absurd isRefresh kind
  | persist id policy taken =>
    obtain ⟨call, isCall, persisted⟩ := Option.bind_eq_some_iff.mp stepped
    exact inv.persist isCall (orderly call isCall) persisted
  | complete id =>
    obtain ⟨call, isCall, completed⟩ := Option.bind_eq_some_iff.mp stepped
    obtain ⟨-, isNext⟩ := Option.ite_none_right_eq_some.mp completed
    cases isNext
    -- Calls complete in the order of their writes.
    obtain ⟨time, isTime, later⟩ := (Option.any_eq_true _ _).mp (orderly call isCall)
    exact inv.complete isCall isTime (of_decide_eq_true later)
  | fail id =>
    obtain ⟨call, isCall, rfl⟩ := Option.map_eq_some_iff.mp stepped
    unfold NodeSessions.fail
    split
    · exact (inv.endCall id).removed
    · exact inv.endCall id
  | disconnect =>
    cases stepped
    exact inv.removed

omit inv

/-- In every orderly run, a handle is not live once a later authenticate or open has completed
or the node was disconnected. The handle of the latest one is live, as long as the node was not
disconnected since, exactly if its session is the last that was written. -/
theorem handles_bound {addr : IpAddr} {stored : Option Actor} {events : List NodeEvent}
    {final : NodeSessions} (orderly : Meets step Orderly (init addr stored) events)
    (ran : run step (init addr stored) events = some final) :
    (∀ session ∈ final.superseded, final.nodeIsLive session = false) ∧
      ∀ session, final.latest = some session →
        (final.nodeIsLive session = true ↔ final.latestAt = final.writes) := by
  have inv : final.Inv := run_preserves_of_meets
    (fun _ _ _ inv orderly stepped => inv.step orderly stepped) (inv_init addr stored) orderly ran
  exact ⟨inv.gone, inv.current⟩

end NodeSessions

namespace NodeSessionSample

open NodeSessions

def nodeAddr : IpAddr := .v6 0xfd5a5052000000000000000000000010

def node : Actor where
  attrs := .ofList [(Key.role, .internal 0 Key.role [roleNode])] compare
  identityKeys := []
  zprAddr := some nodeAddr

def policy : Policy where
  vinst := 1
  version := some 1
  joinPolicies := []
  identityAttrKeys := []

def authenticated : List NodeEvent :=
  [.authenticate 1 false node "first", .persist 1 policy true, .complete 1]

def opened : List NodeEvent :=
  [.loadForOpen 2, .stamp 2 "second", .persist 2 policy true, .complete 2]

/-- A pass takes an attribute from a trusted service. -/
def refreshed (loadEarlier : Bool) : List NodeEvent :=
  let load : List NodeEvent := [.loadForRefresh 3]
  let rest : List NodeEvent :=
    [.answer 3 "inventory" none (.ok [⟨"device.rack", ["7"], 60 * nanosPerSec, "inventory"⟩]),
      .persist 3 policy true]
  if loadEarlier then load ++ opened ++ rest else opened ++ load ++ rest

def after (events : List NodeEvent) : NodeSessions :=
  (run step (init nodeAddr none) events).getD (init nodeAddr none)

/-- The pass has loaded the actor when the node opens. -/
def overtaken : List NodeEvent := authenticated ++ refreshed true

def inOrder : List NodeEvent := authenticated ++ refreshed false

end NodeSessionSample

namespace NodeSessions

open NodeSessionSample in
/-- After the pass the handle from before the open is live and the one of the open is not. -/
theorem old_handle_revived :
    ¬ ∀ (addr : IpAddr) (stored : Option Actor) (events : List NodeEvent)
      (final : NodeSessions), run step (init addr stored) events = some final →
      (∀ session ∈ final.superseded, final.nodeIsLive session = false) ∧
        ∀ session, final.latest = some session → final.nodeIsLive session = true := by
  intro always
  have ran : run step (init nodeAddr none) overtaken = some (after overtaken) :=
    run_eq_some_getD (by decide +kernel) _
  obtain ⟨gone, -⟩ := always nodeAddr none overtaken (after overtaken) ran
  revert gone
  decide +kernel

open NodeSessionSample in
theorem handles_bound_in_order :
    (after inOrder).superseded = [some "first"] ∧ (after inOrder).latest = some (some "second") ∧
      (after inOrder).nodeIsLive (some "first") = false ∧
      (after inOrder).nodeIsLive (some "second") = true := by
  have ran : run step (init nodeAddr none) inOrder = some (after inOrder) :=
    run_eq_some_getD (by decide +kernel) _
  have older : (after inOrder).superseded = [some "first"] := by decide +kernel
  have newest : (after inOrder).latest = some (some "second") := by decide +kernel
  obtain ⟨gone, current⟩ := handles_bound (by decide +kernel) ran
  exact ⟨older, newest, gone _ (older ▸ List.mem_singleton_self _),
    (current _ newest).mpr (by decide +kernel)⟩

end NodeSessions

end VisaService
