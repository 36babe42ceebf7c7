import VisaService.Assembly.Handlers
import VisaService.Assembly.Obligations

/-!
# Addresses of stored actors

An address of a pool that a stored actor holds is in use, so that the pool does not hand it
out again. Addresses go back when a connect fails or is undone, when an actor is disconnected,
with the adapters of a node that departs or starts afresh, and with the nodes that a startup
culls. The adapters and the culled nodes keep their address when the removal of their record
fails; the other places release it whatever became of the record.

Main result: `Site.addresses_held`, over all histories with startups.
-/
namespace VisaService

open Lib NetMgr

variable {codec : VisaCodec}

/-! ### Held addresses -/

namespace Assembly

/-- Whoever is stored at an address of a pool has it in use. Nobody is docked at itself. -/
structure Held (asm : Assembly codec) : Prop where
  net : asm.net.Wf
  inUse : ∀ addr ∈ asm.actors, isPoolAddress addr = true → asm.net.InUse addr
  apart : ∀ addr, isPoolAddress addr = true → ¬ asm.connections.Holds addr addr

variable {asm next : Assembly codec} {addr : IpAddr}

theorem Held.of_fewer (held : asm.Held) (net : next.net = asm.net)
    (actors : ∀ addr ∈ next.actors, addr ∈ asm.actors)
    (connections : ∀ addr, next.connections.Holds addr addr → asm.connections.Holds addr addr) :
    next.Held where
  net := net ▸ held.net
  inUse addr stored pool := net ▸ held.inUse addr (actors addr stored) pool
  apart addr pool holds := held.apart addr pool (connections addr holds)

theorem Held.of_same (held : asm.Held) (net : next.net = asm.net)
    (actors : next.actors = asm.actors) (connections : next.connections = asm.connections) :
    next.Held :=
  held.of_fewer net (fun _ => actors ▸ id) fun _ => connections ▸ id

theorem Held.insert (held : asm.Held)
    (ready : isPoolAddress addr = true → asm.net.InUse addr) (actor : Actor) :
    Held { asm with actors := asm.actors.insert addr actor } where
  net := held.net
  inUse other stored pool := by
    rw [Std.ExtTreeMap.mem_insert, Std.compare_eq_iff_eq] at stored
    rcases stored with rfl | stored
    · exact ready pool
    · exact held.inUse other stored pool
  apart := held.apart

theorem Held.releaseAddr (held : asm.Held)
    (free : isPoolAddress addr = true → addr ∉ asm.actors) :
    (asm.releaseAddr addr).Held := by
  obtain ⟨net, isReleased, same | released⟩ := asm.releaseAddr_cases addr
  · rw [isReleased]
    exact held.of_same same rfl rfl
  · rw [isReleased]
    obtain ⟨wf, inUse⟩ := releaseZprAddr_inUse held.net released
    refine ⟨wf, fun other stored pool => (inUse other).mpr ⟨held.inUse other stored pool, ?_⟩,
      held.apart⟩
    rintro rfl
    exact free pool stored

theorem removeActor_net : (asm.removeActorByZprAddr addr).2.net = asm.net := by
  rcases asm.removeActor_cases addr with ⟨-, isKept⟩ | ⟨-, _, _, _, isRemoved, -⟩
  · rw [isKept]
  · rw [isRemoved]

theorem Held.removeActor (held : asm.Held) : (asm.removeActorByZprAddr addr).2.Held :=
  have fewer := shrinks_removeActor asm addr
  held.of_fewer removeActor_net (fun _ => fewer.mem) fun addr => fewer.connections addr addr

theorem Held.removeDepartedAdapters (held : asm.Held) (addrs : List IpAddr) :
    (asm.removeDepartedAdapters addrs).2.Held :=
  removeDepartedAdapters_keeps held (fun _ _ _ _ held => held.removeActor) fun now addr _ gone held =>
    have forgets : (now.forgetRevisions addr).Held := held.of_same rfl rfl rfl
    forgets.releaseAddr fun _ => gone

theorem Held.removeDisconnected (held : asm.Held) : (asm.removeDisconnected addr).Held := by
  obtain ⟨trusted, isRemoved⟩ := asm.removeDisconnected_eq addr
  have removes : (asm.removeActorByZprAddr addr).2.Held := held.removeActor
  rw [isRemoved]
  exact removes.of_same rfl rfl rfl

theorem not_mem_removeDisconnected (removes : asm.answer.removal addr ≠ .kept) :
    addr ∉ (asm.removeDisconnected addr).actors := by
  obtain ⟨trusted, isRemoved⟩ := asm.removeDisconnected_eq addr
  rw [isRemoved]
  exact not_mem_removeActor removes

theorem Held.finishDisconnect (held : asm.Held)
    (free : isPoolAddress addr = true → addr ∉ asm.actors) (departed : List IpAddr) :
    (asm.finishDisconnect addr departed).Held :=
  Held.releaseAddr (held.of_same rfl rfl rfl) free

theorem Held.disconnect (held : asm.Held)
    (removes : isPoolAddress addr = true → asm.answer.removal addr ≠ .kept) :
    (asm.disconnect addr).2.Held := by
  have first : (asm.removeDisconnected addr).Held := held.removeDisconnected
  have gone (pool : isPoolAddress addr = true) :
      addr ∉ (asm.removeDisconnected addr).actors := not_mem_removeDisconnected (removes pool)
  rcases asm.disconnect_cases addr with
    ⟨isDone, -⟩ | ⟨-, -, isDone⟩ | ⟨-, -, docked, departed, left, -, isLeft, ended⟩
  · rw [isDone]
    exact held
  · rw [isDone]
    exact first.finishDisconnect gone _
  · have leaves := first.removeDepartedAdapters docked
    have fewer := shrinks.removeDepartedAdapters (asm.removeDisconnected addr) docked
    rw [isLeft] at leaves fewer
    rcases ended with ⟨-, isDone⟩ | ⟨-, isDone⟩
    · rw [isDone]
      exact leaves
    · rw [isDone]
      have cleared : Held { left.removeNode addr with
          visas := (left.removeNode addr).visas.removeVisasForNode asm.answer.redis addr } :=
        leaves.of_fewer rfl (fun _ => id) fun addr =>
          (shrinks_removeNode left _).connections addr addr
      exact cleared.finishDisconnect (fun pool stored => gone pool (fewer.mem stored)) _

end Assembly

/-! ### Settling an address -/

namespace Site

variable {site next : Site codec} {login : Login} {answer : ConnectAnswer} {actor : Actor}
  {addr : IpAddr}

theorem settleAddress_ok {env : AuthEnv} {preset : Actor} {source : String} {addr : IpAddr}
    (isPreset : preset.zprAddr = some addr)
    (settled : settleAddress env preset source none = .ok actor) :
    actor = preset ∧
      ((∃ holder, env.holderOf addr = .ok (some holder) ∧
          mayRetake env preset holder addr none = true) ∨
        env.holderOf addr = .ok none ∧ env.isManagedAddress addr = false ∧
          (addr = env.vsAddr → preset.getCn = some vsCn)) := by
  unfold settleAddress at settled
  rw [isPreset] at settled
  dsimp only at settled
  split at settled
  · cases settled
  next holder isHolder =>
    split at settled
    next retakes =>
      cases settled
      exact ⟨rfl, .inl ⟨holder, isHolder, retakes⟩⟩
    · cases settled
  next isFree =>
    split at settled
    · cases settled
    next inRange =>
      split at settled
      · cases settled
      next unmanaged =>
        cases settled
        refine ⟨rfl, .inr ⟨isFree, Bool.eq_false_iff.mpr unmanaged, fun isVs => ?_⟩⟩
        by_contra notVs
        simp [isVs, notVs] at inRange

variable {lookupFails reconnect : Bool} {changes : AuthenticateUndo} {asm : Assembly codec}
variable {addrs : List IpAddr} {node via : IpAddr}

theorem settle_ok (settled : site.settle login lookupFails = (.ok (actor, addr), next)) :
    (login.actor.zprAddr = some addr ∧ next = site ∧ actor = login.actor ∧
      ((∃ holder, site.asm.actors[addr]? = some holder ∧
          mayRetake (site.authEnv login.env lookupFails) login.actor holder addr none = true) ∨
        addr ∉ site.asm.actors ∧ isManagedAddress addr = false ∧
          (addr = site.asm.vsAddr → login.actor.getCn = some vsCn))) ∨
    login.actor.zprAddr = none ∧ actor = login.actor.withZprAddr login.env.now addr ∧
      ∃ net, site.asm.net.getNextZprAddr (if login.actor.isNode then .node else .adapter)
          login.draws = (.ok addr, net) ∧
        next = { site with asm := { site.asm with net } } := by
  unfold settle at settled
  split at settled
  next preset isPreset =>
    split at settled
    · cases settled
    next kept isKept =>
      cases settled
      obtain ⟨same, ways⟩ := settleAddress_ok isPreset isKept
      refine .inl ⟨isPreset, rfl, same, ?_⟩
      have reads {found : Option Actor}
          (isFound : (site.authEnv login.env lookupFails).holderOf addr = .ok found) :
          site.asm.actors[addr]? = found := by
        simp only [authEnv] at isFound
        split at isFound <;> cases isFound
        rfl
      rcases ways with ⟨holder, isHolder, retakes⟩ | ⟨isFree, unmanaged, onlyVs⟩
      · exact .inl ⟨holder, reads isHolder, retakes⟩
      · refine .inr ⟨fun stored => ?_, unmanaged, onlyVs⟩
        obtain ⟨holder, found⟩ := HashMap.get_of_mem stored
        cases found.symm.trans (reads isFree)
  next noPreset =>
    dsimp only at settled
    split at settled
    · cases settled
    next handed =>
      cases settled
      exact .inr ⟨noPreset, rfl, _, handed, rfl⟩

theorem settle_error {failure : ServiceError}
    (settled : site.settle login lookupFails = (.error failure, next)) : next = site := by
  unfold settle at settled
  split at settled
  · split at settled <;> cases settled
    rfl
  · dsimp only at settled
    split at settled
    next failed =>
      cases settled
      rw [getNextZprAddr_error failed]
    · cases settled

/-- An authentication fails before it has an address, or gives the address back, or goes on to
the database. -/
theorem authenticate_cases (site : Site codec) (login : Login) (answer : ConnectAnswer)
    (reconnect : Bool) (requested : IpAddr) (overLink : Bool) :
    ∃ result next, site.authenticate login answer reconnect requested overLink = (result, next) ∧
      (next = site ∨ ∃ actor addr settled taken,
        site.settle login answer.lookupFails = (.ok (actor, addr), settled) ∧
        (∀ other, taken = some other → other = addr) ∧
        (next = settled.undo ⟨taken, none, none⟩ ∨
          settled.admitNode answer actor addr reconnect ⟨taken, none, none⟩ = (result, next))) := by
  unfold authenticate
  split
  next failure failed isFailed => exact ⟨_, _, rfl, .inl (settle_error isFailed)⟩
  next actor addr settled isSettled =>
    have taken (other : IpAddr)
        (isTaken : (if isManagedAddress addr then some addr else none) = some other) :
        other = addr := by
      simp only [Option.ite_none_right_eq_some, Option.some.injEq] at isTaken
      exact isTaken.2.symm
    dsimp only
    split
    · exact ⟨_, _, rfl, .inr ⟨actor, addr, settled, _, isSettled, taken, .inl rfl⟩⟩
    · split
      · exact ⟨_, _, rfl, .inr ⟨actor, addr, settled, _, isSettled, taken, .inl rfl⟩⟩
      · exact ⟨_, _, rfl, .inr ⟨actor, addr, settled, _, isSettled, taken, .inr rfl⟩⟩

/-- The settled address may be stored, and one from the pool is new. -/
structure Ready (login : Login) (addr : IpAddr) (site next : Site codec) : Prop where
  held : next.asm.Held
  inUse : isPoolAddress addr = true → next.asm.net.InUse addr
  actors : next.asm.actors = site.asm.actors
  answer : next.asm.answer = site.asm.answer
  isNew : isPoolAddress addr = true → login.actor.zprAddr = none → addr ∉ site.asm.actors

theorem ready_of_settle_ok (held : site.asm.Held)
    (settled : site.settle login lookupFails = (.ok (actor, addr), next)) :
    Ready login addr site next := by
  rcases settle_ok settled with ⟨isPreset, rfl, -, ways⟩ | ⟨-, -, net, handed, rfl⟩
  · refine ⟨held, fun pool => ?_, rfl, rfl, fun _ noPreset => ?_⟩
    · rcases ways with ⟨holder, found, -⟩ | ⟨-, unmanaged, -⟩
      · exact held.inUse addr (HashMap.mem_of_get found) pool
      · rw [isManaged_of_isPool pool] at unmanaged
        cases unmanaged
    · rw [isPreset] at noPreset
      cases noPreset
  · obtain ⟨wf, free, inUse⟩ := getNextZprAddr_inUse held.net net handed
    refine ⟨⟨wf, fun other stored pool => ?_, held.apart⟩, fun _ => (inUse addr).mpr (.inr rfl),
      rfl, rfl, fun pool _ stored => free (held.inUse addr stored pool)⟩
    exact (inUse other).mpr (.inl (held.inUse other stored pool))

/-! ### What a connect leaves -/

/-- Where the attempt gives the address up, no record is left at it: the record was written
wholly or not at all, what follows the write of a node's record does not fail, and a removal
does not leave it. -/
structure WholeNode (answer : ConnectAnswer) (addr : IpAddr) : Prop where
  write : answer.write ≠ .partly
  node : answer.write = .done → answer.nodeFails = false ∧ answer.seenFails = false
  removal : answer.base.removal addr ≠ .kept

structure WholeAdapter (answer : ConnectAnswer) (addr : IpAddr) : Prop where
  write : answer.write ≠ .partly
  dock : answer.write = .done → answer.dockFails = false
  removal : answer.base.removal addr ≠ .kept

/-- A step of a connect at an address: addresses stay held, and an unsuccessful step has left
no record. -/
structure Steps (addr : IpAddr) (failed : Prop) (site next : Site codec) : Prop where
  held : next.asm.Held
  answer : next.asm.answer = site.asm.answer
  inUse : isPoolAddress addr = true → next.asm.net.InUse addr
  absent : failed → isPoolAddress addr = true → addr ∉ next.asm.actors

/-- The attempt starts out at an address at which nobody is stored, if it is one of a pool. -/
structure Vacant (addr : IpAddr) (site : Site codec) : Prop where
  held : site.asm.Held
  inUse : isPoolAddress addr = true → site.asm.net.InUse addr
  absent : isPoolAddress addr = true → addr ∉ site.asm.actors

theorem Vacant.unmoved (vacant : site.Vacant addr) (failed : Prop) : Steps addr failed site site :=
  ⟨vacant.held, rfl, vacant.inUse, fun _ => vacant.absent⟩

theorem Vacant.withoutRecord (vacant : site.Vacant addr) (failed : Prop) :
    Steps addr failed site (site.withoutRecord addr) :=
  ⟨vacant.held.of_fewer rfl (fun _ member => (HashMap.mem_erase.mp member).1) fun _ => id, rfl,
    vacant.inUse, fun _ _ member => (HashMap.mem_erase.mp member).2 rfl⟩

theorem Vacant.withRecord (vacant : site.Vacant addr) {failed : Prop}
    (succeeds : isPoolAddress addr = true → ¬ failed) :
    Steps addr failed site (site.withRecord addr actor) :=
  ⟨vacant.held.insert vacant.inUse actor, rfl, vacant.inUse, fun failed pool =>
    absurd failed (succeeds pool)⟩

theorem Stores.steps {result : Except ServiceError Unit}
    (stores : Stores answer actor addr reconnect site result next) (vacant : site.Vacant addr)
    (whole : isPoolAddress addr = true → WholeNode answer addr) :
    Steps addr (result ≠ .ok ()) site next := by
  cases stores with
  | unwritten => exact vacant.unmoved _
  | cleared => exact vacant.withoutRecord _
  | unlisted _ fails =>
    refine vacant.withRecord fun pool _ => ?_
    rcases fails with partly | ⟨written, nodeFails⟩
    · exact (whole pool).write partly
    · cases ((whole pool).node written).1.symm.trans nodeFails
  | listed _ written _ seen =>
    have steps : Steps addr (result ≠ .ok ()) site (site.withRecord addr actor) :=
      vacant.withRecord fun pool failed => failed (seen.mpr ((whole pool).node written).2)
    exact { steps with }

/-- A node with an address of the pool cannot reconnect, since its address is new. -/
theorem addNode_steps (vacant : site.Vacant addr)
    (whole : isPoolAddress addr = true → reconnect = false → WholeNode answer addr) :
    Steps addr ((site.addNode answer actor addr reconnect).1 ≠ .ok ()) site
        (site.addNode answer actor addr reconnect).2 ∧
      ((site.addNode answer actor addr reconnect).1 = .ok () →
        isPoolAddress addr = true → reconnect = false) := by
  rcases site.addNode_cases answer actor addr reconnect with
    ⟨failure, isDone, -⟩ | ⟨-, base, result, next, isDone, stores, ways⟩
  · rw [isDone]
    exact ⟨vacant.unmoved _, nofun⟩
  · rw [isDone]
    rcases ways with ⟨-, rfl, holder, found, -⟩ | ⟨rfl, -, rfl⟩
    · have unoccupied (pool : isPoolAddress addr = true) : False :=
        vacant.absent pool (HashMap.mem_of_get found)
      exact ⟨stores.steps vacant fun pool => (unoccupied pool).elim, fun _ pool =>
        (unoccupied pool).elim⟩
    · have dropped : (site.withoutState addr).Vacant addr :=
        { vacant with held := vacant.held.of_fewer rfl (fun _ => id) fun _ holds =>
          (Rows.holds_erase.mp holds).2 }
      have steps := stores.steps dropped fun pool => whole pool rfl
      exact ⟨{ steps with }, fun _ _ => rfl⟩

/-! ### Undoing -/

theorem removeNode_actors (node : IpAddr) :
    (site.removeNode node).asm.actors = site.asm.actors ∧
      (site.removeNode node).asm.net = site.asm.net ∧
      (site.removeNode node).asm.answer = site.asm.answer ∧
      ∀ other addr, (site.removeNode node).asm.connections.Holds other addr →
        site.asm.connections.Holds other addr := by
  unfold removeNode
  split
  · exact ⟨rfl, rfl, rfl, fun _ _ => id⟩
  · exact ⟨rfl, rfl, rfl, (Assembly.shrinks_removeNode site.asm node).connections⟩

theorem removeBoth_steps (held : site.asm.Held)
    (inUse : isPoolAddress addr = true → site.asm.net.InUse addr)
    (removes : isPoolAddress addr = true → site.asm.answer.removal addr ≠ .kept) :
    Steps addr True site ((site.removeNode addr).removeActor addr) := by
  obtain ⟨actors, net, answer, connections⟩ := site.removeNode_actors addr
  have first : (site.removeNode addr).asm.Held :=
    held.of_fewer net (fun _ member => actors ▸ member) fun other => connections other other
  have sameNet : ((site.removeNode addr).removeActor addr).asm.net = site.asm.net :=
    Assembly.removeActor_net.trans net
  exact ⟨first.removeActor, (Assembly.shrinks_removeActor _ addr).answer.trans answer,
    fun pool => sameNet ▸ inUse pool,
    fun _ pool => Assembly.not_mem_removeActor (answer ▸ removes pool)⟩

theorem undo_keeps {keeps : Site codec → Site codec → Prop} (refl : ∀ site, keeps site site)
    (trans : ∀ {first second third}, keeps first second → keeps second third → keeps first third)
    (unroute : ∀ (site : Site codec) (addr : IpAddr),
      keeps site { site with router := site.router.erase addr })
    (remove : ∀ (site : Site codec) (addr : IpAddr), changes.actorMgrAddNode = some addr →
      keeps site ((site.removeNode addr).removeActor addr))
    (release : ∀ (site : Site codec) (addr : IpAddr), keeps site (site.releaseAddr addr))
    (site : Site codec) : keeps site (site.undo changes) := by
  obtain ⟨taken, stored, routed⟩ := changes
  have released (site : Site codec) : keeps site (site.undo ⟨taken, none, none⟩) := by
    cases taken with
    | none => exact refl site
    | some addr => exact release site addr
  have removed (site : Site codec) : keeps site (site.undo ⟨taken, stored, none⟩) := by
    cases stored with
    | none => exact released site
    | some addr => exact trans (remove site addr rfl) (released _)
  cases routed with
  | none => exact removed site
  | some addr => exact trans (unroute site addr) (removed _)

/-- What an authentication undoes concerns its own address. -/
structure Tracks (addr : IpAddr) (changes : AuthenticateUndo) : Prop where
  taken : ∀ taken, changes.takenZprAddr = some taken → taken = addr
  stored : ∀ stored, changes.actorMgrAddNode = some stored → stored = addr

theorem undo_unrouted (site : Site codec) (taken stored routed : Option IpAddr) :
    ∃ router, site.undo ⟨taken, stored, routed⟩ = { site with router }.undo ⟨taken, stored, none⟩ := by
  cases routed with
  | none => exact ⟨site.router, rfl⟩
  | some node => exact ⟨site.router.erase node, rfl⟩

theorem undo_held (tracks : Tracks addr changes) (held : site.asm.Held)
    (inUse : isPoolAddress addr = true → site.asm.net.InUse addr)
    (absent : changes.actorMgrAddNode = none → isPoolAddress addr = true →
      addr ∉ site.asm.actors)
    (removes : changes.actorMgrAddNode ≠ none → isPoolAddress addr = true →
      site.asm.answer.removal addr ≠ .kept) :
    (site.undo changes).asm.Held := by
  -- The router does not matter; the records go before the address.
  obtain ⟨taken, stored, routed⟩ := changes
  obtain ⟨router, isUndone⟩ := site.undo_unrouted taken stored routed
  have released {left : Site codec} (leftHeld : left.asm.Held)
      (gone : isPoolAddress addr = true → addr ∉ left.asm.actors) :
      (left.undo ⟨taken, none, none⟩).asm.Held := by
    cases taken with
    | none => exact leftHeld
    | some node =>
      obtain rfl := tracks.taken node rfl
      exact leftHeld.releaseAddr gone
  rw [isUndone]
  cases stored with
  | none => exact @released { site with router } held (absent rfl)
  | some node =>
    obtain rfl := tracks.stored node rfl
    have gone := @removeBoth_steps _ { site with router } node held inUse (removes nofun)
    exact released gone.held (gone.absent trivial)

theorem disconnect_held (held : site.asm.Held)
    (removes : isPoolAddress addr = true → site.asm.answer.removal addr ≠ .kept) :
    (site.disconnect addr).2.asm.Held := held.disconnect removes

theorem enforce_held {denylistFails : Bool} (held : site.asm.Held)
    (isAddr : actor.zprAddr = some addr)
    (removes : isPoolAddress addr = true → site.asm.answer.removal addr ≠ .kept) :
    (site.enforceDenylistAfterPersist denylistFails actor).2.asm.Held := by
  rcases site.enforce_cases denylistFails actor with isDone | ⟨-, -, ⟨isDone, -⟩ | ⟨own, isOwn, isDone⟩⟩
  · rw [isDone]
    exact held
  · rw [isDone]
    exact held
  · cases isOwn.symm.trans isAddr
    rw [isDone]
    exact disconnect_held held removes

/-! ### Authentication of nodes -/

theorem removeDepartedAdapters_inUse (wf : asm.net.Wf) {addr : IpAddr} (inUse : asm.net.InUse addr)
    (notListed : addr ∉ addrs) :
    (asm.removeDepartedAdapters addrs).2.net.InUse addr := by
  have kept := @Assembly.removeDepartedAdapters_keeps _ asm
    (fun now => now.net.Wf ∧ now.net.InUse addr) addrs ⟨wf, inUse⟩
    (fun now other _ _ kept => by rwa [Assembly.removeActor_net]) fun now other listed _ kept => by
      obtain ⟨net, isReleased, rfl | released⟩ := (now.forgetRevisions other).releaseAddr_cases other
      · rw [isReleased]
        exact kept
      · rw [isReleased]
        obtain ⟨wf, inUse⟩ := releaseZprAddr_inUse kept.1 released
        refine ⟨wf, (inUse addr).mpr ⟨kept.2, ?_⟩⟩
        rintro rfl
        exact notListed listed
  exact kept.2

theorem resetNodeState_vacant (vacant : site.Vacant addr) :
    (site.resetNodeState addr).2.Vacant addr ∧
      (site.resetNodeState addr).2.asm.answer = site.asm.answer := by
  rcases site.resetNodeState_cases addr with
    ⟨-, isDone⟩ | ⟨-, docked, result, visas, router, isDocked, isDone, -⟩
  · rw [isDone]
    exact ⟨vacant, rfl⟩
  · rw [isDone]
    have left := vacant.held.removeDepartedAdapters docked
    have fewer := Assembly.shrinks.removeDepartedAdapters site.asm docked
    refine ⟨⟨left.of_same rfl rfl rfl, fun pool => ?_, fun pool stored =>
      vacant.absent pool (fewer.mem stored)⟩, fewer.answer⟩
    refine removeDepartedAdapters_inUse vacant.held.net (vacant.inUse pool) fun listed => ?_
    rw [isDocked, SetOrder.mem_list] at listed
    exact vacant.held.apart addr pool (Rows.mem_row.mp listed)

theorem Held.dock (held : asm.Held) (apart : isPoolAddress addr = true → node ≠ addr) :
    (asm.dock node addr).Held where
  net := held.net
  inUse := held.inUse
  apart other pool holds := by
    rcases (Rows.holds_add ..).mp holds with ⟨rfl, rfl⟩ | holds
    · exact apart pool rfl
    · exact held.apart other pool holds

theorem Docks.held {docked : Site codec} (docks : Docks node site docked) (held : site.asm.Held) :
    docked.asm.Held ∧ docked.asm.net = site.asm.net := by
  rcases docks.asm with same | same <;> rw [same]
  · exact ⟨held, rfl⟩
  · exact ⟨Held.dock held fun pool => absurd pool (by decide), rfl⟩

theorem joinNode_held (held : site.asm.Held)
    (inUse : isPoolAddress addr = true → site.asm.net.InUse addr)
    (isAddr : actor.zprAddr = some addr) (tracks : Tracks addr changes)
    (stored : changes.actorMgrAddNode = some addr)
    (removes : isPoolAddress addr = true → site.asm.answer.removal addr ≠ .kept) :
    (site.joinNode answer actor addr changes).2.asm.Held := by
  unfold joinNode
  split
  next failed isFailed =>
    have docks := (dockVisaService_docks isFailed).1
    obtain ⟨docked, sameNet⟩ := docks.held held
    exact undo_held tracks docked (fun pool => sameNet ▸ inUse pool)
      (fun none => nomatch stored.symm.trans none) fun _ pool => docks.sameAnswer ▸ removes pool
  next dockedSite isDocked =>
    have docks := (dockVisaService_docks isDocked).1
    obtain ⟨docked, sameNet⟩ := docks.held held
    have removesLater (pool : isPoolAddress addr = true) :
        dockedSite.asm.answer.removal addr ≠ .kept := docks.sameAnswer ▸ removes pool
    dsimp only
    split
    · refine undo_held ?_ docked (fun pool => sameNet ▸ inUse pool) ?_ fun _ => removesLater
      · split
        · exact tracks
        · exact { tracks with }
      · split <;> exact fun none => nomatch stored.symm.trans none
    · exact enforce_held docked isAddr removesLater

theorem admitNode_held (vacant : site.Vacant addr) (isAddr : actor.zprAddr = some addr)
    (tracks : Tracks addr changes) (unstored : changes.actorMgrAddNode = none)
    (isAnswer : site.asm.answer = answer.base)
    (whole : isPoolAddress addr = true → reconnect = false → WholeNode answer addr) :
    (site.admitNode answer actor addr reconnect changes).2.asm.Held := by
  have resets : (if reconnect then ((.ok (), site) : Except ServiceError Unit × Site codec)
        else site.resetNodeState addr).2.Vacant addr ∧
      (if reconnect then ((.ok (), site) : Except ServiceError Unit × Site codec)
        else site.resetNodeState addr).2.asm.answer = site.asm.answer := by
    split
    · exact ⟨vacant, rfl⟩
    · exact resetNodeState_vacant vacant
  -- Undoing before the node is stored only releases an address at which nobody is.
  have undone {failed : Site codec} (held : failed.asm.Held)
      (inUse : isPoolAddress addr = true → failed.asm.net.InUse addr)
      (absent : isPoolAddress addr = true → addr ∉ failed.asm.actors) :
      (failed.undo changes).asm.Held :=
    undo_held tracks held inUse (fun _ => absent) fun stored => absurd unstored stored
  unfold admitNode
  split
  next failed isFailed =>
    rw [isFailed] at resets
    exact undone resets.1.held resets.1.inUse resets.1.absent
  next ready isReady =>
    rw [isReady] at resets
    obtain ⟨steps, isFresh⟩ := @addNode_steps _ ready answer actor addr reconnect resets.1 whole
    split
    next failed isFailed =>
      rw [isFailed] at steps
      exact undone steps.held steps.inUse (steps.absent nofun)
    next stored isStored =>
      rw [isStored] at steps isFresh
      refine joinNode_held steps.held steps.inUse isAddr
        ⟨tracks.taken, fun _ same => (Option.some.inj same).symm⟩ rfl fun pool => ?_
      rw [steps.answer, resets.2, isAnswer]
      exact (whole pool (isFresh rfl pool)).removal

/-- An actor with a pre-set address does not have one of a pool, and the records of the others
do not stay behind when their address is given up. -/
def Returns (site : Site codec) : SiteEvent → Prop
  | .authenticate login answer reconnect _ _ =>
    ∀ actor addr next,
      (site.answering answer.base).settle login answer.lookupFails = (.ok (actor, addr), next) →
        isPoolAddress addr = true → login.actor.zprAddr = none ∧
          (reconnect = false → WholeNode answer addr)
  | .authorizeConnect login answer _ =>
    ∀ actor addr next,
      (site.answering answer.base).settle login answer.lookupFails = (.ok (actor, addr), next) →
        isPoolAddress addr = true → login.actor.zprAddr = none ∧
          if actor.isNode then WholeNode answer addr else WholeAdapter answer addr
  | .disconnect answer addr => isPoolAddress addr = true → answer.removal addr ≠ .kept

theorem zprAddr_of_settle_ok (settled : site.settle login lookupFails = (.ok (actor, addr), next)) :
    actor.zprAddr = some addr := by
  rcases settle_ok settled with ⟨isPreset, -, rfl, -⟩ | ⟨-, rfl, -⟩
  · exact isPreset
  · rfl

theorem Ready.vacant (ready : Ready login addr site next)
    (pooled : isPoolAddress addr = true → login.actor.zprAddr = none) :
    next.Vacant addr :=
  ⟨ready.held, ready.inUse, fun pool => ready.actors ▸ ready.isNew pool (pooled pool)⟩

theorem authenticate_held {overLink : Bool} {requested : IpAddr} (held : site.asm.Held)
    (isAnswer : site.asm.answer = answer.base) (returns : ∀ actor addr next,
      site.settle login answer.lookupFails = (.ok (actor, addr), next) →
        isPoolAddress addr = true → login.actor.zprAddr = none ∧
          (reconnect = false → WholeNode answer addr)) :
    (site.authenticate login answer reconnect requested overLink).2.asm.Held := by
  obtain ⟨result, next, isDone, rfl | ⟨actor, addr, settled, taken, isSettled, isAddr, ways⟩⟩ :=
    site.authenticate_cases login answer reconnect requested overLink <;> rw [isDone]
  · exact held
  have ready := ready_of_settle_ok held isSettled
  have vacant : settled.Vacant addr :=
    ready.vacant fun pool => (returns actor addr settled isSettled pool).1
  have tracks : Tracks addr ⟨taken, none, none⟩ := ⟨isAddr, nofun⟩
  rcases ways with rfl | isNext
  · exact undo_held tracks vacant.held vacant.inUse (fun _ => vacant.absent)
      fun stored => absurd rfl stored
  · have admits := admitNode_held vacant (zprAddr_of_settle_ok isSettled) tracks rfl
      (ready.answer.trans isAnswer) fun pool => (returns actor addr settled isSettled pool).2
    rwa [isNext] at admits

/-! ### Connects over a node -/

theorem addLinkedNode_steps (vacant : site.Vacant addr)
    (isAnswer : site.asm.answer = answer.base)
    (whole : isPoolAddress addr = true → WholeNode answer addr) :
    Steps addr ((site.addLinkedNode answer actor addr).1 ≠ .ok ()) site
      (site.addLinkedNode answer actor addr).2 := by
  unfold addLinkedNode
  dsimp only
  split
  · exact vacant.unmoved _
  split
  · split <;> exact vacant.unmoved _
  have entered : { site with router := site.router.insert addr }.Vacant addr :=
    { vacant with }
  obtain ⟨steps, -⟩ := @addNode_steps _ { site with router := site.router.insert addr } answer
    actor addr false entered fun pool _ => whole pool
  split
  next failed isFailed =>
    rw [isFailed] at steps
    exact { steps with absent := fun _ => steps.absent nofun }
  next stored isStored =>
    rw [isStored] at steps
    split
    · have removes (pool : isPoolAddress addr = true) :
          stored.asm.answer.removal addr ≠ .kept := by
        rw [steps.answer]
        exact isAnswer ▸ (whole pool).removal
      have gone := @removeBoth_steps _ { stored with router := stored.router.erase addr } addr
        steps.held steps.inUse removes
      exact ⟨gone.held, gone.answer.trans steps.answer, gone.inUse, fun _ => gone.absent trivial⟩
    · exact { steps with absent := fun failed => absurd rfl failed }

theorem addAdapterViaNode_steps (vacant : site.Vacant addr) (viaStored : via ∈ site.asm.actors)
    (whole : isPoolAddress addr = true → WholeAdapter answer addr) :
    Steps addr ((site.addAdapterViaNode answer actor addr via).1 ≠ .ok ()) site
      (site.addAdapterViaNode answer actor addr via).2 := by
  rcases site.addAdapterViaNode_cases answer actor addr via with ⟨failure, isDone, -⟩ |
      ⟨failure, isDone, -⟩ | ⟨failure, isDone, partly⟩ |
      ⟨written, -, ⟨failure, isDone, dockFails⟩ | ⟨isDone, -⟩⟩
  · rw [isDone]
    exact vacant.unmoved _
  · rw [isDone]
    exact vacant.withoutRecord _
  · rw [isDone]
    exact vacant.withRecord fun pool _ => (whole pool).write partly
  · rw [isDone]
    refine vacant.withRecord fun pool _ => ?_
    cases ((whole pool).dock written).symm.trans dockFails
  · rw [isDone]
    have added : (site.withRecord addr actor).asm.Held := vacant.held.insert vacant.inUse actor
    refine ⟨Held.dock added fun pool same => ?_, rfl, vacant.inUse, fun failed => absurd rfl failed⟩
    exact vacant.absent pool (same ▸ viaStored)

theorem authorizeConnect_held (held : site.asm.Held) (isAnswer : site.asm.answer = answer.base)
    (viaStored : via ∈ site.asm.actors) (returns : ∀ actor addr next,
      site.settle login answer.lookupFails = (.ok (actor, addr), next) →
        isPoolAddress addr = true → login.actor.zprAddr = none ∧
          if actor.isNode then WholeNode answer addr else WholeAdapter answer addr) :
    (site.authorizeConnect login answer via).2.asm.Held := by
  unfold authorizeConnect
  split
  next failure failed isFailed =>
    rw [settle_error isFailed]
    exact held
  next actor addr settled isSettled =>
    have ready := ready_of_settle_ok held isSettled
    have vacant : settled.Vacant addr :=
      ready.vacant fun pool => (returns actor addr settled isSettled pool).1
    have isAddr := zprAddr_of_settle_ok isSettled
    have sameAnswer : settled.asm.answer = answer.base := ready.answer.trans isAnswer
    split
    next isNode =>
      -- Where the address is given back, no record may be left at it.
      have whole (pool : isPoolAddress addr = true) : WholeNode answer addr := by
        simpa only [isNode, if_true] using (returns actor addr settled isSettled pool).2
      have steps := @addLinkedNode_steps _ settled answer actor addr vacant sameAnswer whole
      split
      next failed isFailed =>
        rw [isFailed] at steps
        exact steps.held.releaseAddr (steps.absent nofun)
      next failed isFailed =>
        rw [isFailed] at steps
        exact steps.held
      next stored isStored =>
        rw [isStored] at steps
        refine enforce_held steps.held isAddr fun pool => ?_
        rw [steps.answer, sameAnswer]
        exact (whole pool).removal
    next isAdapter =>
      have whole (pool : isPoolAddress addr = true) : WholeAdapter answer addr := by
        simpa only [isAdapter, if_false, Bool.false_eq_true] using
          (returns actor addr settled isSettled pool).2
      have steps := @addAdapterViaNode_steps _ settled answer actor addr via vacant
        (ready.actors ▸ viaStored) whole
      split
      next failed isFailed =>
        rw [isFailed] at steps
        exact steps.held.releaseAddr (steps.absent nofun)
      next stored isStored =>
        rw [isStored] at steps
        refine enforce_held steps.held isAddr fun pool => ?_
        rw [steps.answer, sameAnswer]
        exact (whole pool).removal

theorem held_step {event : SiteEvent} (held : site.asm.Held) (returns : site.Returns event)
    (stepped : site.step event = some next) : next.asm.Held := by
  have answering (answer : Answer) : (site.answering answer).asm.Held :=
    held.of_same rfl rfl rfl
  cases event with
  | authenticate login answer reconnect requested overLink =>
    cases stepped
    exact authenticate_held (answering answer.base) rfl returns
  | authorizeConnect login answer via =>
    simp only [step, Option.ite_none_right_eq_some] at stepped
    obtain ⟨isNode, isNext⟩ := stepped
    cases isNext
    obtain ⟨node, found, -⟩ := Option.any_eq_true .. |>.mp isNode
    exact authorizeConnect_held (answering answer.base) rfl (HashMap.mem_of_get found) returns
  | disconnect answer addr =>
    cases stepped
    exact disconnect_held (answering answer) returns

/-! ### Startup -/

theorem takeAddrs_inUse {net after : NetMgr} (wf : net.Wf) (taken : takeAddrs addrs net = .ok after)
    :
    after.Wf ∧ (∀ addr, net.InUse addr → after.InUse addr) ∧
      ∀ addr ∈ addrs, isPoolAddress addr = true → after.InUse addr := by
  induction addrs generalizing net with
  | nil =>
    cases taken
    exact ⟨wf, fun _ => id, nofun⟩
  | cons addr rest ih =>
    unfold takeAddrs at taken
    split at taken
    next managed =>
      split at taken
      · cases taken
      next net isTaken =>
        obtain ⟨wf, inUse⟩ := takeZprAddr_inUse wf isTaken
        obtain ⟨afterWf, keeps, takes⟩ := ih wf taken
        refine ⟨afterWf, fun other used => keeps other ((inUse other).mpr (.inl used)), ?_⟩
        intro other member pool
        rcases List.mem_cons.mp member with rfl | member
        · exact keeps other ((inUse other).mpr (.inr rfl))
        · exact takes other member pool
    next unmanaged =>
      obtain ⟨afterWf, keeps, takes⟩ := ih wf taken
      refine ⟨afterWf, keeps, fun other member pool => ?_⟩
      rcases List.mem_cons.mp member with rfl | member
      · exact absurd (isManaged_of_isPool pool) unmanaged
      · exact takes other member pool

theorem teardownCulledNode_held (held : site.asm.Held) (culled : CulledNode) :
    (site.teardownCulledNode culled).asm.Held := by
  have left := held.removeDepartedAdapters culled.adapterAddrs
  unfold teardownCulledNode
  dsimp only
  generalize isCleared : ({ (site.asm.removeDepartedAdapters culled.adapterAddrs).2 with
      visas := _ } : Assembly codec) = cleared
  have clearedHeld : cleared.Held := by
    subst isCleared
    exact left.of_same rfl rfl rfl
  have removes : (cleared.removeActorByZprAddr culled.nodeAddr).2.Held := clearedHeld.removeActor
  split
  next failed isFailed =>
    rw [isFailed] at removes
    exact removes
  next gone isGone =>
    rw [isGone] at removes
    split
    · exact removes
    · have dropped : (gone.removeNode culled.nodeAddr).Held :=
        removes.of_fewer rfl (fun _ => id) fun addr =>
          (Assembly.shrinks_removeNode gone culled.nodeAddr).connections addr addr
      have absent : culled.nodeAddr ∉ gone.actors := Assembly.not_mem_of_removeActor_ok isGone
      exact dropped.releaseAddr fun _ => absent

theorem selfAuthorize_held (held : site.asm.Held) (self : Login) :
    (site.selfAuthorize self).asm.Held := by
  unfold selfAuthorize
  split
  next failed isFailed =>
    rw [settle_error isFailed]
    exact held
  next actor addr settled isSettled =>
    have ready := ready_of_settle_ok held isSettled
    exact ready.held.insert ready.inUse actor

theorem restart_held {stale : IpAddr → Bool} {self : Login}
    (apart : ∀ addr, isPoolAddress addr = true → ¬ site.asm.connections.Holds addr addr)
    (restarts : site.restart stale self = some next) : next.asm.Held := by
  unfold restart at restarts
  split at restarts
  · cases restarts
  next listed isListed =>
    split at restarts
    · cases restarts
    next net isTaken =>
      obtain ⟨wf, -, takes⟩ := takeAddrs_inUse wf_newV6 isTaken
      have started (table : HashMap IpAddr IpAddr) : (site.started net table).asm.Held := by
        refine ⟨wf, fun addr stored pool => takes addr ?_ pool, apart⟩
        obtain ⟨actor, found⟩ := HashMap.get_of_mem stored
        exact Assembly.mem_listActors isListed found
      have torn (culled : List CulledNode) {start : Site codec} (held : start.asm.Held) :
          (culled.foldl teardownCulledNode start).asm.Held := by
        induction culled generalizing start with
        | nil => exact held
        | cons node rest ih => exact ih (teardownCulledNode_held held node)
      dsimp only at restarts
      split at restarts
      · cases restarts
      · cases restarts
        refine selfAuthorize_held ?_ self
        exact torn _ (started _)

end Site

/-! ### Histories -/

inductive HostEvent where
  | online (event : SiteEvent)
  | restart (answer : Answer) (stale : IpAddr → Bool) (self : Login)

namespace Site

def hostStep (site : Site codec) : HostEvent → Option (Site codec)
  | .online event => site.step event
  | .restart answer stale self => (site.answering answer).restart stale self

/-- Startups need no condition. -/
def HostReturns (site : Site codec) : HostEvent → Prop
  | .online event => site.Returns event
  | .restart _ _ _ => True

/-- Nobody is connected, and the pools are the configured ones. -/
structure Unoccupied (site : Site codec) : Prop where
  actors : site.asm.actors = ∅
  connections : site.asm.connections = ∅
  net : site.asm.net.Wf

theorem Unoccupied.held {site : Site codec} (unoccupied : site.Unoccupied) : site.asm.Held where
  net := unoccupied.net
  inUse addr stored := by simp [unoccupied.actors] at stored
  apart addr _ holds := by
    rw [unoccupied.connections] at holds
    exact Rows.not_holds_empty addr addr holds

/-- Where addresses are given up only without a record, the address of a stored actor is
never free, and none that is handed out is held. -/
theorem addresses_held {start final : Site codec} {events : List HostEvent}
    (unoccupied : start.Unoccupied) (returns : Meets hostStep HostReturns start events)
    (ran : run hostStep start events = some final) :
    (∀ addr ∈ final.asm.actors, isPoolAddress addr = true → final.asm.net.InUse addr) ∧
      ∀ (role : Role) (draws : List (BitVec 64)) (addr : IpAddr) (net : NetMgr),
        final.asm.net.getNextZprAddr role draws = (.ok addr, net) → addr ∉ final.asm.actors := by
  have kept : final.asm.Held := by
    refine @run_preserves_of_meets _ _ hostStep HostReturns (fun site => site.asm.Held)
      (fun site event next held returns stepped => ?_) start final events unoccupied.held returns ran
    cases event with
    | online event => exact held_step held returns stepped
    | restart answer stale self =>
      exact @restart_held _ (site.answering answer) next stale self held.apart stepped
  refine ⟨kept.inUse, fun role draws addr net handed stored => ?_⟩
  obtain ⟨wf, free, inUse⟩ := getNextZprAddr_inUse kept.net net handed
  have pool := isPool_of_inUse wf ((inUse addr).mpr (.inr rfl))
  exact free (kept.inUse addr stored pool)

/-! ### A printer that cannot be docked -/

open SiteSample

/-- The printer's record is stored when the write to the connections of its node fails, and
the connect gives its address back. -/
def undocked : List HostEvent :=
  [.online (gatewayJoins fine false), .online (printerJoins { fine with dockFails := true })]

def hostAfter (events : List HostEvent) : Site VisaCodec.plain :=
  (run hostStep vacant events).getD vacant

theorem vacant_unoccupied : vacant.Unoccupied := ⟨rfl, rfl, ⟨rfl, rfl⟩⟩

theorem stored_address_free :
    ¬ ∀ (codec : VisaCodec) (start final : Site codec) (events : List HostEvent),
      start.Unoccupied → run hostStep start events = some final →
      ∀ addr ∈ final.asm.actors, isPoolAddress addr = true → final.asm.net.InUse addr := by
  intro always
  have ran : run hostStep vacant undocked = some (hostAfter undocked) :=
    run_eq_some_getD (by decide +kernel) _
  have inUse := always _ vacant _ undocked vacant_unoccupied ran printerAddr (by decide +kernel)
    (by decide +kernel)
  exact absurd inUse (by decide +kernel)

/-- The printer is docked, and the visa service restarts. -/
def orderly : List HostEvent :=
  [.online (gatewayJoins fine false), .online (printerJoins fine),
    .restart fine.base (fun _ => false) (login vsCn roleAdapter (some vsZprAddr))]

theorem fine_wholeNode (addr : IpAddr) : WholeNode fine addr :=
  ⟨nofun, fun _ => ⟨rfl, rfl⟩, nofun⟩

theorem fine_wholeAdapter (addr : IpAddr) : WholeAdapter fine addr :=
  ⟨nofun, fun _ => rfl, nofun⟩

/-- The gateway's address is pre-set and not of a pool. -/
theorem gatewayJoins_returns (site : Site VisaCodec.plain) :
    site.Returns (gatewayJoins fine false) := by
  intro actor addr next settled pool
  rcases settle_ok settled with ⟨isPreset, -⟩ | ⟨noPreset, -⟩
  · cases isPreset
    cases pool
  · cases noPreset

theorem printerJoins_returns (site : Site VisaCodec.plain) : site.Returns (printerJoins fine) := by
  intro actor addr next settled pool
  refine ⟨rfl, ?_⟩
  split
  · exact fine_wholeNode addr
  · exact fine_wholeAdapter addr

theorem printer_keeps_address :
    printerAddr ∈ (hostAfter orderly).asm.actors ∧
      ∀ addr ∈ (hostAfter orderly).asm.actors, isPoolAddress addr = true →
        (hostAfter orderly).asm.net.InUse addr := by
  have ran : run hostStep vacant orderly = some (hostAfter orderly) :=
    run_eq_some_getD (by decide +kernel) _
  have returns : Meets hostStep HostReturns vacant orderly := by
    refine meets_of_forall (fun event member site => ?_) _
    simp only [orderly, List.mem_cons, List.not_mem_nil, or_false] at member
    rcases member with rfl | rfl | rfl
    · exact gatewayJoins_returns site
    · exact printerJoins_returns site
    · trivial
  exact ⟨by decide +kernel, (addresses_held vacant_unoccupied returns ran).1⟩

end Site

end VisaService
