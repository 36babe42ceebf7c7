import VisaService.Assembly.Addresses
import VisaService.Lib.Desk

/-!
# Connects side by side

A connect settles the address of its actor and writes the record later; between the two, and
between the writes, other connects go on. `Lobby` is the site with the connects under way.

Main results: `occupied_only_superseded` and `printer_evicted`.

What an advancing connect can do to the records is said once (`Writes`). Whoever waits to store a
node has found the address free or with a holder it may supersede (`Entitled`), and this stays so.
-/
namespace VisaService

open Lib

variable {codec : VisaCodec}

/-! ### Connects under way -/

/-- The call that began a fresh connect. -/
inductive Entry where
  | authenticate (requested : IpAddr) (overLink : Bool)
  | authorizeConnect (via : IpAddr)
  deriving DecidableEq

/-- The node that asks for another actor is stored. -/
def Entry.hasDock (entry : Entry) (site : Site codec) : Bool :=
  match entry with
  | .authenticate _ _ => true
  | .authorizeConnect via => site.asm.actors[via]?.any Actor.isNode

/-- How far a connect has come. -/
inductive Phase where
  | authorized
  /-- The old state of the node has been torn down. -/
  | cleared
  | stored
  | ended
  deriving DecidableEq

structure Connect where
  entry : Entry
  actor : Actor
  addr : IpAddr
  phase : Phase

namespace Connect

/-- The address to give back when an authentication fails. -/
def changes (connect : Connect) : Site.AuthenticateUndo :=
  ⟨if NetMgr.isManagedAddress connect.addr then some connect.addr else none, none, none⟩

/-- What the connect does until other calls can come between. -/
def advance (connect : Connect) (site : Site codec) (answer : ConnectAnswer) :
    Phase × Site codec :=
  match connect.entry, connect.phase with
  | _, .ended => (.ended, site)
  | .authenticate requested overLink, .authorized =>
    if connect.addr ≠ requested ∧ overLink = true then (.ended, site.undo connect.changes)
    else if connect.actor.getCn.isNone then (.ended, site.undo connect.changes)
    else
      match site.resetNodeState connect.addr with
      | (.error _, site) => (.ended, site.undo connect.changes)
      | (.ok _, site) => (.cleared, site)
  | .authenticate _ _, .cleared =>
    match site.addNode answer connect.actor connect.addr false with
    | (.error _, site) => (.ended, site.undo connect.changes)
    | (.ok _, site) => (.stored, site)
  | .authenticate _ _, .stored =>
    (.ended, (site.joinNode answer connect.actor connect.addr
      { connect.changes with actorMgrAddNode := some connect.addr }).2)
  | .authorizeConnect _, .stored =>
    (.ended, (site.enforceDenylistAfterPersist answer.denylistFails connect.actor).2)
  | .authorizeConnect via, _ =>
    if connect.actor.isNode then
      match site.addLinkedNode answer connect.actor connect.addr with
      | (.error .newNodeFailed, site) => (.ended, site.releaseAddr connect.addr)
      | (.error .existingNodeFailed, site) => (.ended, site)
      | (.ok _, site) => (.stored, site)
    else
      match site.addAdapterViaNode answer connect.actor connect.addr via with
      | (.error _, site) => (.ended, site.releaseAddr connect.addr)
      | (.ok _, site) => (.stored, site)

end Connect

structure Lobby (codec : VisaCodec) where
  site : Site codec
  connects : List Connect

inductive LobbyEvent where
  | authorize (login : Login) (answer : ConnectAnswer) (entry : Entry)
  | advance (place : Nat) (answer : ConnectAnswer)

namespace Lobby

def step (lobby : Lobby codec) : LobbyEvent → Option (Lobby codec)
  | .authorize login answer entry =>
    if entry.hasDock lobby.site then
      match (lobby.site.answering answer.base).settle login answer.lookupFails with
      | (.error _, site) => some { lobby with site }
      | (.ok (actor, addr), site) =>
        some ⟨site, lobby.connects ++ [⟨entry, actor, addr, .authorized⟩]⟩
    else none
  | .advance place answer =>
    match lobby.connects[place]? with
    | none => none
    | some connect =>
      let (phase, site) := connect.advance (lobby.site.answering answer.base) answer
      some ⟨site, lobby.connects.set place { connect with phase }⟩

end Lobby

/-- The records that are written are written. -/
def LobbyEvent.WritesWhole : LobbyEvent → Prop
  | .authorize _ _ _ => True
  | .advance _ answer => answer.write = .done

/-! ### What happens to the records -/

namespace Site

variable {site next : Site codec} {login : Login} {answer : ConnectAnswer} {actor : Actor}
  {addr : IpAddr}

/-- Records go, and none is written. -/
structure Fewer (site next : Site codec) : Prop where
  vsAddr : next.asm.vsAddr = site.asm.vsAddr
  actors : ∀ (addr : IpAddr) (actor : Actor), next.asm.actors[addr]? = some actor →
    site.asm.actors[addr]? = some actor

variable {mid : Site codec}

theorem Fewer.refl (site : Site codec) : Fewer site site := ⟨rfl, fun _ _ => id⟩

theorem Fewer.trans (first : Fewer site mid) (second : Fewer mid next) : Fewer site next :=
  ⟨second.vsAddr.trans first.vsAddr, fun addr actor found =>
    first.actors addr actor (second.actors addr actor found)⟩

theorem fewer_of_shrinks (shrinks : Assembly.Shrinks site.asm next.asm) : Fewer site next :=
  { shrinks with }

theorem fewer_releaseAddr (site : Site codec) (addr : IpAddr) : Fewer site (site.releaseAddr addr) :=
  fewer_of_shrinks (Assembly.shrinks_releaseAddr site.asm addr)

theorem fewer_removeBoth (site : Site codec) (addr : IpAddr) :
    Fewer site ((site.removeNode addr).removeActor addr) := by
  have removed : Fewer site (site.removeNode addr) := by
    unfold Site.removeNode
    split
    · exact .refl site
    · exact fewer_of_shrinks (Assembly.shrinks_removeNode site.asm addr)
  exact removed.trans (fewer_of_shrinks (Assembly.shrinks_removeActor _ addr))

theorem fewer_undo (site : Site codec) (changes : AuthenticateUndo) :
    Fewer site (site.undo changes) :=
  undo_keeps .refl .trans (fun _ _ => ⟨rfl, fun _ _ => id⟩) (fun site addr _ =>
    fewer_removeBoth site addr) fewer_releaseAddr site

theorem fewer_resetNodeState (site : Site codec) (addr : IpAddr) :
    Fewer site (site.resetNodeState addr).2 := by
  rcases site.resetNodeState_cases addr with ⟨-, isDone⟩ | ⟨-, docked, _, _, _, -, isDone, -⟩
  · rw [isDone]
    exact .refl site
  · rw [isDone]
    have fewer := Assembly.shrinks.removeDepartedAdapters site.asm docked
    exact { fewer with }

theorem fewer_enforce (site : Site codec) (denylistFails : Bool) (actor : Actor) :
    Fewer site (site.enforceDenylistAfterPersist denylistFails actor).2 := by
  rcases site.enforce_cases denylistFails actor with isDone | ⟨-, -, ⟨isDone, -⟩ | ⟨addr, -, isDone⟩⟩
  · rw [isDone]
    exact .refl site
  · rw [isDone]
    exact .refl site
  · rw [isDone]
    exact fewer_of_shrinks (Assembly.shrinks.disconnect site.asm addr)

theorem Docks.fewer {docked : Site codec} (docks : Docks addr site docked) : Fewer site docked :=
  ⟨docks.sameVs, fun _ _ found => docks.actors ▸ found⟩

theorem fewer_joinNode (site : Site codec) (answer : ConnectAnswer) (actor : Actor)
    (addr : IpAddr) (changes : AuthenticateUndo) :
    Fewer site (site.joinNode answer actor addr changes).2 := by
  unfold joinNode
  split
  next failed isFailed =>
    exact (dockVisaService_docks isFailed).1.fewer.trans (fewer_undo failed changes)
  next docked isDocked =>
    have docks := (dockVisaService_docks isDocked).1.fewer
    have routed : Fewer site { docked with router := docked.router.insert addr } :=
      { docks with }
    dsimp only
    split
    · exact routed.trans (fewer_undo _ _)
    · exact routed.trans (fewer_enforce _ _ actor)

/-- The record of the actor is written at its address, or records go. Only a node and the visa
service are written over somebody else. -/
structure Writes (actor : Actor) (addr : IpAddr) (site next : Site codec) : Prop where
  vsAddr : next.asm.vsAddr = site.asm.vsAddr
  actors : ∀ (other : IpAddr) (new : Actor), next.asm.actors[other]? = some new →
    site.asm.actors[other]? = some new ∨ other = addr ∧ new = actor ∧
      (actor.isNode = true ∨ isVisaService addr actor = true ∨ addr ∉ site.asm.actors)

theorem Fewer.writes (fewer : Fewer site next) : Writes actor addr site next :=
  ⟨fewer.vsAddr, fun other new found => .inl (fewer.actors other new found)⟩

theorem Writes.fewer (writes : Writes actor addr site mid) (fewer : Fewer mid next) :
    Writes actor addr site next :=
  ⟨fewer.vsAddr.trans writes.vsAddr, fun other new found =>
    writes.actors other new (fewer.actors other new found)⟩

theorem withRecord_writes
    (allowed : actor.isNode = true ∨ isVisaService addr actor = true ∨ addr ∉ site.asm.actors) :
    Writes actor addr site (site.withRecord addr actor) := by
  refine ⟨rfl, fun other new found => ?_⟩
  rcases HashMap.of_get_insert found with ⟨isAddr, rfl⟩ | ⟨-, before⟩
  · exact .inr ⟨isAddr, rfl, allowed⟩
  · exact .inl before

theorem fewer_withoutRecord (site : Site codec) (addr : IpAddr) :
    Fewer site (site.withoutRecord addr) := by
  exact ⟨rfl, fun _ _ found => (HashMap.of_get_erase found).2⟩

theorem Stores.writes {result : Except ServiceError Unit} {reconnect : Bool}
    (stores : Stores answer actor addr reconnect site result next) (isNode : actor.isNode = true) :
    Writes actor addr site next := by
  have written : Writes actor addr site (site.withRecord addr actor) := withRecord_writes (.inl isNode)
  cases stores with
  | unwritten => exact (Fewer.refl site).writes
  | cleared => exact (fewer_withoutRecord site addr).writes
  | unlisted => exact written
  | listed => exact { written with }

theorem addNode_writes (site : Site codec) (answer : ConnectAnswer) (actor : Actor)
    (addr : IpAddr) : Writes actor addr site (site.addNode answer actor addr false).2 := by
  rcases site.addNode_cases answer actor addr false with
    ⟨failure, isDone, -⟩ | ⟨isNode, base, result, next, isDone, stores, ⟨again, -⟩ | ⟨-, -, rfl⟩⟩
  · rw [isDone]
    exact (Fewer.refl site).writes
  · cases again
  · rw [isDone]
    have stored := stores.writes isNode
    exact { stored with }

theorem addLinkedNode_writes (site : Site codec) (answer : ConnectAnswer) (actor : Actor)
    (addr : IpAddr) : Writes actor addr site (site.addLinkedNode answer actor addr).2 := by
  have adds := addNode_writes { site with router := site.router.insert addr } answer actor addr
  have unrouted {left : Site codec} (writes : Writes actor addr
      { site with router := site.router.insert addr } left) : Writes actor addr site
      { left with router := left.router.erase addr } := { writes with }
  unfold addLinkedNode
  dsimp only
  split
  · exact (Fewer.refl site).writes
  split
  · split <;> exact (Fewer.refl site).writes
  split
  next failed isFailed =>
    rw [isFailed] at adds
    exact unrouted adds
  next stored isStored =>
    rw [isStored] at adds
    split
    · exact (unrouted adds).fewer (fewer_removeBoth _ addr)
    · exact { adds with }

theorem addAdapterViaNode_writes (site : Site codec) {answer : ConnectAnswer} (actor : Actor)
    (addr via : IpAddr) (whole : answer.write = .done) :
    Writes actor addr site (site.addAdapterViaNode answer actor addr via).2 := by
  rcases site.addAdapterViaNode_cases answer actor addr via with ⟨failure, isDone, -⟩ |
      ⟨failure, isDone, -⟩ | ⟨failure, isDone, partly⟩ |
      ⟨-, allowed, ⟨failure, isDone, -⟩ | ⟨isDone, -⟩⟩
  · rw [isDone]
    exact (Fewer.refl site).writes
  · rw [isDone]
    exact (fewer_withoutRecord site addr).writes
  · cases whole.symm.trans partly
  · rw [isDone]
    exact withRecord_writes (.inr allowed)
  · rw [isDone]
    have written : Writes actor addr site (site.withRecord addr actor) :=
      withRecord_writes (.inr allowed)
    exact { written with }

end Site

/-! ### One step -/

namespace Connect

/-- The next thing the connect does is to write the record. -/
def writesNow (connect : Connect) : Bool :=
  match connect.entry, connect.phase with
  | _, .ended => false
  | _, .stored => false
  | .authenticate _ _, .authorized => false
  | .authenticate _ _, .cleared => true
  | .authorizeConnect _, _ => true

/-- The connect is of a node whose record is still to be written. -/
def Waits (connect : Connect) : Prop :=
  connect.actor.isNode = true ∧ connect.phase ≠ .stored ∧ connect.phase ≠ .ended

variable {connect : Connect}

theorem not_stored_of_writesNow (writes : connect.writesNow = true) :
    connect.phase ≠ .stored := by
  intro stored
  unfold writesNow at writes
  rw [stored] at writes
  cases writes

theorem not_ended_of_writesNow (writes : connect.writesNow = true) :
    connect.phase ≠ .ended := by
  intro ended
  unfold writesNow at writes
  rw [ended] at writes
  cases writes

theorem advance_fewer (writes : connect.writesNow = false) (site : Site codec)
    (answer : ConnectAnswer) :
    Site.Fewer site (connect.advance site answer).2 := by
  unfold writesNow at writes
  unfold advance
  split
  · exact .refl site
  · split
    · exact Site.fewer_undo site _
    split
    · exact Site.fewer_undo site _
    have resets := Site.fewer_resetNodeState site connect.addr
    split
    next failed isFailed =>
      rw [isFailed] at resets
      exact resets.trans (Site.fewer_undo failed _)
    next reset isReset =>
      rw [isReset] at resets
      exact resets
  next isEntry isPhase =>
    rw [isEntry, isPhase] at writes
    cases writes
  · exact Site.fewer_joinNode site answer _ _ _
  · exact Site.fewer_enforce site _ _
  next isEntry notEnded notStored =>
    rw [isEntry] at writes
    split at writes
    next ended => exact absurd ended notEnded
    next stored => exact absurd stored notStored
    next wasEntry _ => cases wasEntry
    · cases writes
    · cases writes

theorem advance_writes (writes : connect.writesNow = true) (site : Site codec)
    {answer : ConnectAnswer} (whole : answer.write = .done) :
    Site.Writes connect.actor connect.addr site (connect.advance site answer).2 ∧
      ((connect.advance site answer).1 = .stored ∨ (connect.advance site answer).1 = .ended) := by
  unfold writesNow at writes
  unfold advance
  split
  next isPhase =>
    rw [isPhase] at writes
    cases writes
  next isEntry isPhase =>
    rw [isEntry, isPhase] at writes
    cases writes
  -- What fails after the write is undone, which only takes records away.
  · have adds := Site.addNode_writes site answer connect.actor connect.addr
    split
    next failed isFailed =>
      rw [isFailed] at adds
      exact ⟨adds.fewer (Site.fewer_undo failed _), .inr rfl⟩
    next stored isStored =>
      rw [isStored] at adds
      exact ⟨adds, .inl rfl⟩
  next isPhase =>
    rw [isPhase] at writes
    cases writes
  next isPhase =>
    rw [isPhase] at writes
    cases writes
  next via isEntry _ _ =>
    split
    · have adds := Site.addLinkedNode_writes site answer connect.actor connect.addr
      split
      next failed isFailed =>
        rw [isFailed] at adds
        exact ⟨adds.fewer (Site.fewer_releaseAddr failed _), .inr rfl⟩
      next failed isFailed =>
        rw [isFailed] at adds
        exact ⟨adds, .inr rfl⟩
      next stored isStored =>
        rw [isStored] at adds
        exact ⟨adds, .inl rfl⟩
    · have adds := Site.addAdapterViaNode_writes site connect.actor connect.addr via whole
      split
      next failed isFailed =>
        rw [isFailed] at adds
        exact ⟨adds.fewer (Site.fewer_releaseAddr failed _), .inr rfl⟩
      next stored isStored =>
        rw [isStored] at adds
        exact ⟨adds, .inl rfl⟩

/-- A connect that does not write has written, or is of a node that has its address still. -/
theorem waits_of_advance {site : Site codec} {answer : ConnectAnswer}
    (waits : { connect with phase := (connect.advance site answer).1 }.Waits)
    (whole : answer.write = .done) : connect.writesNow = false ∧ connect.Waits := by
  obtain ⟨isNode, notStored, notEnded⟩ := waits
  have writes : connect.writesNow = false := by
    by_contra now
    rcases (advance_writes (Bool.not_eq_false _ ▸ now) site whole).2 with stored | ended
    · exact notStored stored
    · exact notEnded ended
  refine ⟨writes, isNode, fun stored => notEnded ?_, fun ended => notEnded ?_⟩
  · dsimp only
    unfold advance
    rw [stored]
    cases connect.entry <;> rfl
  · dsimp only
    unfold advance
    rw [ended]

end Connect

/-! ### Runs -/

/-- Who may be written over a stored actor: a node of the same name over a node, and the visa
service at its own address. -/
def MaySupersede (vsAddr addr : IpAddr) (holder new : Actor) : Prop :=
  (holder.isNode = true ∧ new.isNode = true ∧ holder.getCn.isSome = true ∧
    holder.getCn = new.getCn) ∨
  new.getCn = some vsCn ∧ (addr = vsAddr ∨ addr = vsZprAddr)

namespace Lobby

variable {lobby next : Lobby codec} {event : LobbyEvent}

/-- Whoever waits to store a node may supersede the actor at the address, if there is one. -/
def Entitled (lobby : Lobby codec) : Prop :=
  ∀ (place : Nat) (connect : Connect), lobby.connects[place]? = some connect → connect.Waits →
    ∀ holder, lobby.site.asm.actors[connect.addr]? = some holder →
      MaySupersede lobby.site.asm.vsAddr connect.addr holder connect.actor

/-- The pool does not hand out the address of a stored actor, and whoever waits to store a node
where a record is written may supersede the actor that is written. -/
def Undisputed (lobby : Lobby codec) : LobbyEvent → Prop
  | .authorize login _ _ =>
    login.actor.zprAddr = none → ∀ addr net,
      lobby.site.asm.net.getNextZprAddr (if login.actor.isNode then .node else .adapter)
        login.draws = (.ok addr, net) → addr ∉ lobby.site.asm.actors
  | .advance place _ =>
    ∀ connect, lobby.connects[place]? = some connect → connect.writesNow = true →
      ∀ (elsewhere : Nat) (other : Connect), elsewhere ≠ place →
        lobby.connects[elsewhere]? = some other → other.Waits → other.addr = connect.addr →
          MaySupersede lobby.site.asm.vsAddr connect.addr connect.actor other.actor

/-- A stored actor keeps its record, departs, or is superseded. -/
def OnlySuperseded (site next : Site codec) : Prop :=
  ∀ (addr : IpAddr) (holder new : Actor), site.asm.actors[addr]? = some holder →
    next.asm.actors[addr]? = some new →
      new = holder ∨ MaySupersede site.asm.vsAddr addr holder new

theorem advance_cases {place : Nat} {answer : ConnectAnswer}
    (stepped : step lobby (.advance place answer) = some next) :
    ∃ connect, lobby.connects[place]? = some connect ∧
      next.site = (connect.advance (lobby.site.answering answer.base) answer).2 ∧
      next.connects = lobby.connects.set place { connect with
        phase := (connect.advance (lobby.site.answering answer.base) answer).1 } := by
  simp only [step] at stepped
  split at stepped
  · cases stepped
  next connect isConnect =>
    cases stepped
    exact ⟨connect, isConnect, rfl, rfl⟩

/-- An authorization writes no record, and whoever is authorized has found the address free or
may supersede the holder. -/
theorem authorize_cases {login : Login} {answer : ConnectAnswer} {entry : Entry}
    (stepped : step lobby (.authorize login answer entry) = some next) :
    next.site.asm.actors = lobby.site.asm.actors ∧
      next.site.asm.vsAddr = lobby.site.asm.vsAddr ∧
      (next.connects = lobby.connects ∨ ∃ actor addr,
        next.connects = lobby.connects ++ [⟨entry, actor, addr, .authorized⟩] ∧
        (lobby.Undisputed (.authorize login answer entry) →
          ∀ holder, lobby.site.asm.actors[addr]? = some holder →
            MaySupersede lobby.site.asm.vsAddr addr holder actor)) := by
  simp only [step] at stepped
  split at stepped
  · split at stepped
    next failure site settled =>
      cases stepped
      rw [Site.settle_error settled]
      exact ⟨rfl, rfl, .inl rfl⟩
    next actor addr site settled =>
      cases stepped
      rcases Site.settle_ok settled with ⟨-, rfl, rfl, ways⟩ | ⟨noPreset, -, net, handed, rfl⟩
      · refine ⟨rfl, rfl, .inr ⟨login.actor, addr, rfl, fun _ holder found => ?_⟩⟩
        rcases ways with ⟨known, isKnown, retakes⟩ | ⟨isFree, -⟩
        · cases isKnown.symm.trans found
          simp only [mayRetake, Site.authEnv, Bool.or_eq_true, Bool.and_eq_true, beq_iff_eq,
            reduceCtorEq, false_or] at retakes
          rcases retakes with ⟨⟨⟨holderNode, isNode⟩, hasCn⟩, sameCn⟩ | ⟨⟨atVs, -⟩, isVs⟩
          · exact .inl ⟨holderNode, isNode, hasCn, sameCn⟩
          · exact .inr ⟨isVs, .inl atVs⟩
        · exact absurd (HashMap.mem_of_get found) isFree
      · refine ⟨rfl, rfl, .inr ⟨_, addr, rfl, fun undisputed holder found => ?_⟩⟩
        exact absurd (HashMap.mem_of_get found) (undisputed noPreset addr net handed)
  · cases stepped

theorem entitled_step (entitled : lobby.Entitled) (whole : event.WritesWhole)
    (undisputed : lobby.Undisputed event) (stepped : step lobby event = some next) :
    next.Entitled := by
  intro place connect isConnect waits holder found
  cases event with
  | authorize login answer entry =>
    obtain ⟨actors, vsAddr, connects⟩ := authorize_cases stepped
    rw [actors] at found
    rw [vsAddr]
    rcases connects with connects | ⟨actor, addr, connects, may⟩
    · rw [connects] at isConnect
      exact entitled place connect isConnect waits holder found
    · rw [connects, List.getElem?_append] at isConnect
      split at isConnect
      · exact entitled place connect isConnect waits holder found
      · obtain rfl := List.mem_singleton.mp (List.mem_of_getElem? isConnect)
        exact may undisputed holder found
  | advance turn answer =>
    obtain ⟨writer, isWriter, isSite, connects⟩ := advance_cases stepped
    rw [connects] at isConnect
    rw [isSite] at found ⊢
    rcases Desk.get_set isConnect with ⟨rfl, rfl⟩ | ⟨elsewhere, isConnect⟩
    · obtain ⟨still, waited⟩ := Connect.waits_of_advance waits whole
      have fewer := Connect.advance_fewer still (lobby.site.answering answer.base) answer
      rw [fewer.vsAddr]
      exact entitled place writer isWriter waited holder (fewer.actors _ _ found)
    · cases now : writer.writesNow with
      | false =>
        have fewer := Connect.advance_fewer now (lobby.site.answering answer.base) answer
        rw [fewer.vsAddr]
        exact entitled place connect isConnect waits holder (fewer.actors _ _ found)
      | true =>
        have writes := (Connect.advance_writes now (lobby.site.answering answer.base) whole).1
        rw [writes.vsAddr]
        rcases writes.actors _ _ found with found | ⟨same, rfl, -⟩
        · exact entitled place connect isConnect waits holder found
        · have may := undisputed writer isWriter now place connect elsewhere isConnect waits same
          rw [same]
          exact may

theorem onlySuperseded_of_entitled (entitled : lobby.Entitled) (whole : event.WritesWhole)
    (stepped : step lobby event = some next) : OnlySuperseded lobby.site next.site := by
  intro addr holder new held found
  cases event with
  | authorize login answer entry =>
    rw [(authorize_cases stepped).1, held] at found
    exact .inl (Option.some.inj found).symm
  | advance turn answer =>
    obtain ⟨writer, isWriter, isSite, -⟩ := advance_cases stepped
    rw [isSite] at found
    cases now : writer.writesNow with
    | false =>
      have fewer := Connect.advance_fewer now (lobby.site.answering answer.base) answer
      exact .inl (Option.some.inj ((fewer.actors _ _ found).symm.trans held))
    | true =>
      have writes := (Connect.advance_writes now (lobby.site.answering answer.base) whole).1
      rcases writes.actors _ _ found with found | ⟨rfl, rfl, isNode | isVs | isFree⟩
      · exact .inl (Option.some.inj (found.symm.trans held))
      · refine .inr (entitled turn writer isWriter ⟨isNode, ?_, ?_⟩ holder held)
        · exact Connect.not_stored_of_writesNow now
        · exact Connect.not_ended_of_writesNow now
      · simp only [isVisaService, Bool.and_eq_true, beq_iff_eq] at isVs
        exact .inr (.inr ⟨isVs.1, .inr isVs.2⟩)
      · exact absurd (HashMap.mem_of_get held) isFree

/-- Over any interleaving of connects, a stored actor is replaced only by one that may
supersede it. -/
theorem occupied_only_superseded {start : Lobby codec} {events : List LobbyEvent}
    (idle : start.connects = []) (whole : ∀ any ∈ event :: events, any.WritesWhole)
    (undisputed : Meets step Undisputed start events)
    (reached : run step start events = some lobby) (stepped : step lobby event = some next) :
    OnlySuperseded lobby.site next.site := by
  have nobody : start.Entitled := by
    intro place connect isConnect
    rw [idle] at isConnect
    cases isConnect
  have wholeRun : Meets step (fun (_ : Lobby codec) event => event.WritesWhole) start events :=
    meets_of_forall (fun any member _ => whole any (List.mem_cons_of_mem event member)) start
  have entitled : lobby.Entitled :=
    run_preserves_of_meets (fun _ _ _ entitled both stepped =>
      entitled_step entitled both.1 both.2 stepped) nobody (wholeRun.and undisputed) reached
  exact onlySuperseded_of_entitled entitled (whole event List.mem_cons_self) stepped

end Lobby

/-! ### A node and an adapter with one address -/

namespace LobbySample

open SiteSample Lobby

def sharedAddr : IpAddr := .v6 0xfd5a5052000000000000000000000020

def empty : Lobby VisaCodec.plain := ⟨vacant, []⟩

def gatewayAsks : LobbyEvent :=
  .authorize (login "gateway" roleNode (some gatewayAddr)) fine (.authenticate gatewayAddr false)

def goesOn (place : Nat) : LobbyEvent := .advance place fine

/-- The gateway connects. A printer behind it and a relay are both authorized; the printer is
stored, and the relay has torn down what it had. -/
def raced : List LobbyEvent :=
  [gatewayAsks, goesOn 0, goesOn 0, goesOn 0,
    .authorize (login "printer" roleAdapter (some sharedAddr)) fine (.authorizeConnect gatewayAddr),
    .authorize (login "relay" roleNode (some sharedAddr)) fine (.authenticate sharedAddr false),
    goesOn 1, goesOn 1, goesOn 2]

def after (events : List LobbyEvent) : Lobby VisaCodec.plain :=
  (run step empty events).getD empty

/-- The relay is written over the printer. -/
theorem printer_evicted :
    ¬ ∀ (codec : VisaCodec) (start lobby next : Lobby codec) (events : List LobbyEvent)
        (event : LobbyEvent), start.connects = [] → (∀ any ∈ event :: events, any.WritesWhole) →
      run step start events = some lobby → step lobby event = some next →
        OnlySuperseded lobby.site next.site := by
  intro always
  have ran : run step empty raced = some (after raced) := run_eq_some_getD (by decide +kernel) _
  obtain ⟨next, stepped⟩ := Option.isSome_iff_exists.mp
    (show (step (after raced) (goesOn 2)).isSome = true by decide +kernel)
  have whole : ∀ any ∈ goesOn 2 :: raced, any.WritesWhole := by
    simp [raced, goesOn, gatewayAsks, LobbyEvent.WritesWhole, fine]
  have superseded := always _ empty _ next raced (goesOn 2) rfl whole ran stepped
  obtain ⟨printer, isPrinter⟩ := Option.isSome_iff_exists.mp
    (show ((after raced).site.asm.actors[sharedAddr]?).isSome = true by decide +kernel)
  have printerIs : ∀ holder ∈ (after raced).site.asm.actors[sharedAddr]?,
      holder.isNode = false ∧ holder.getCn = some "printer" := by decide +kernel
  have relayIs : ∀ next ∈ step (after raced) (goesOn 2),
      (next.site.asm.actors[sharedAddr]?.bind Actor.getCn) = some "relay" := by decide +kernel
  obtain ⟨relay, isRelay, relayName⟩ := Option.bind_eq_some_iff.mp (relayIs next stepped)
  obtain ⟨isAdapter, printerName⟩ := printerIs printer isPrinter
  rcases superseded sharedAddr printer relay isPrinter isRelay with
    rfl | ⟨holderNode, -⟩ | ⟨isVs, -⟩
  · exact absurd (printerName.symm.trans relayName) (by decide)
  · rw [isAdapter] at holderNode
    cases holderNode
  · exact absurd (relayName.symm.trans isVs) (by decide)

def served : Lobby VisaCodec.plain :=
  ⟨(after [gatewayAsks, goesOn 0, goesOn 0, goesOn 0]).site, []⟩

/-- The gateway connects from the start, and is about to be stored again. -/
def again : List LobbyEvent := [gatewayAsks, goesOn 0]

/-- The gateway's address is pre-set, and there is no other connect. -/
theorem again_undisputed : Meets step Undisputed served again := by
  have single : ∀ next ∈ step served gatewayAsks, next.connects.length ≤ 1 := by decide +kernel
  refine ⟨nofun, fun next stepped => ⟨?_, fun _ _ => trivial⟩⟩
  intro _ _ _ elsewhere other apart isOther
  have bound := (List.getElem?_eq_some_iff.mp isOther).1
  have few := single next stepped
  omega

/-- The gateway supersedes its own record. -/
theorem gateway_superseded :
    ∃ lobby next, run step served again = some lobby ∧ step lobby (goesOn 0) = some next ∧
      gatewayAddr ∈ lobby.site.asm.actors ∧ gatewayAddr ∈ next.site.asm.actors ∧
      OnlySuperseded lobby.site next.site := by
  have ran : run step served again = some ((run step served again).getD served) :=
    run_eq_some_getD (by decide +kernel) _
  obtain ⟨next, stepped⟩ := Option.isSome_iff_exists.mp
    (show (step ((run step served again).getD served) (goesOn 0)).isSome = true by decide +kernel)
  have stays : ∀ next ∈ step ((run step served again).getD served) (goesOn 0),
      gatewayAddr ∈ next.site.asm.actors := by decide +kernel
  have whole : ∀ any ∈ goesOn 0 :: again, any.WritesWhole := by
    simp [again, goesOn, gatewayAsks, LobbyEvent.WritesWhole, fine]
  exact ⟨_, next, ran, stepped, by decide +kernel, stays next stepped,
    occupied_only_superseded rfl whole again_undisputed ran stepped⟩

end LobbySample

end VisaService
