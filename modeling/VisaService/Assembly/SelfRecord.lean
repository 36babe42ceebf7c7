import VisaService.Assembly.Addresses
import VisaService.Assembly.Denylist
import VisaService.Assembly.DockingRuns

/-!
# The visa service's own record

The visa service has an actor record of its own at a fixed address, and is docked at a node like
an adapter. `Service` is the site with the sweeps under way, call by call.

Main results: `own_record_stays` and `own_record_removed`.

A step keeps the record at the fixed address, or writes it again for the visa service
(`Site.KeepsSelf`). The sweeps decide on what they have read earlier: as long as what they read
about the fixed address is about the visa service, they do not aim at it (`Spares`).
-/
namespace VisaService

open Lib Prog

variable {codec : VisaCodec}

/-! ### Sites -/

namespace Site

variable {site mid next : Site codec} {addr : IpAddr} {actor : Actor} {answer : ConnectAnswer}
  {login : Login}

/-- The record at the fixed address is the same, and no node is stored there. -/
structure KeepsSelf (site next : Site codec) : Prop where
  vsAddr : next.asm.vsAddr = site.asm.vsAddr
  record : next.asm.actors[vsZprAddr]? = site.asm.actors[vsZprAddr]?
  nodes : vsZprAddr ∈ next.nodes → vsZprAddr ∈ site.nodes

theorem KeepsSelf.refl (site : Site codec) : KeepsSelf site site := ⟨rfl, rfl, id⟩

theorem KeepsSelf.trans (first : KeepsSelf site mid) (second : KeepsSelf mid next) :
    KeepsSelf site next :=
  ⟨second.vsAddr.trans first.vsAddr, second.record.trans first.record,
    fun listed => first.nodes (second.nodes listed)⟩

theorem keepsSelf_releaseAddr (site : Site codec) (addr : IpAddr) :
    KeepsSelf site (site.releaseAddr addr) := by
  refine ⟨(Assembly.shrinks_releaseAddr site.asm addr).vsAddr, ?_, id⟩
  change (site.asm.releaseAddr addr).actors[vsZprAddr]? = _
  rw [Assembly.releaseAddr_actors]

theorem keepsSelf_removeBoth (site : Site codec) (apart : addr ≠ vsZprAddr) :
    KeepsSelf site ((site.removeNode addr).removeActor addr) := by
  have removed : KeepsSelf site (site.removeNode addr) := by
    unfold Site.removeNode
    split
    · exact .refl site
    · exact ⟨rfl, rfl, fun listed => (HashSet.mem_erase.mp listed).1⟩
  exact removed.trans ⟨(Assembly.shrinks_removeActor _ addr).vsAddr,
    Assembly.removeActor_of_ne apart, id⟩

variable {changes : AuthenticateUndo}

theorem keepsSelf_undo (site : Site codec)
    (stored : ∀ stored, changes.actorMgrAddNode = some stored → stored ≠ vsZprAddr) :
    KeepsSelf site (site.undo changes) :=
  undo_keeps .refl .trans (fun _ _ => ⟨rfl, rfl, id⟩) (fun site addr isStored =>
    keepsSelf_removeBoth site (stored addr isStored)) keepsSelf_releaseAddr site

theorem keepsSelf_resetNodeState (isVs : site.asm.vsAddr = vsZprAddr) (addr : IpAddr) :
    KeepsSelf site (site.resetNodeState addr).2 := by
  rcases site.resetNodeState_cases addr with ⟨-, isDone⟩ | ⟨-, docked, _, _, _, -, isDone, -⟩
  · rw [isDone]
    exact .refl site
  · rw [isDone]
    exact ⟨(Assembly.shrinks.removeDepartedAdapters site.asm docked).vsAddr,
      Assembly.removeDepartedAdapters_of_spared (.inr isVs.symm), id⟩

theorem keepsSelf_disconnect (isVs : site.asm.vsAddr = vsZprAddr) (apart : addr ≠ vsZprAddr) :
    KeepsSelf site (site.disconnect addr).2 where
  vsAddr := (Assembly.shrinks.disconnect site.asm addr).vsAddr
  record := Assembly.disconnect_of_spared apart (.inr isVs.symm)
  nodes listed := by
    simp only [Site.disconnect] at listed
    split at listed
    · exact (HashSet.mem_erase.mp listed).1
    · exact listed

/-- The visa service's name is never denied, and nobody else has its address. -/
theorem keepsSelf_enforce (isVs : site.asm.vsAddr = vsZprAddr) (denylistFails : Bool)
    (isAddr : actor.zprAddr = some addr) (named : addr = vsZprAddr → actor.getCn = some vsCn) :
    KeepsSelf site (site.enforceDenylistAfterPersist denylistFails actor).2 := by
  rcases site.enforce_cases denylistFails actor with
    isDone | ⟨notVs, -, ⟨isDone, -⟩ | ⟨own, isOwn, isDone⟩⟩
  · rw [isDone]
    exact .refl site
  · rw [isDone]
    exact .refl site
  · cases isOwn.symm.trans isAddr
    rw [isDone]
    exact keepsSelf_disconnect isVs fun same => notVs (named same)

theorem keepsSelf_withRecord (site : Site codec) (apart : addr ≠ vsZprAddr) :
    KeepsSelf site (site.withRecord addr actor) :=
  ⟨rfl, (HashMap.get_insert ..).trans (if_neg apart), id⟩

theorem keepsSelf_withoutRecord (site : Site codec) (apart : addr ≠ vsZprAddr) :
    KeepsSelf site (site.withoutRecord addr) :=
  ⟨rfl, (HashMap.get_erase ..).trans (if_neg apart), id⟩

theorem Stores.keepsSelf {result : Except ServiceError Unit} {reconnect : Bool}
    (stores : Stores answer actor addr reconnect site result next) (apart : addr ≠ vsZprAddr) :
    KeepsSelf site next := by
  cases stores with
  | unwritten => exact .refl site
  | cleared => exact keepsSelf_withoutRecord site apart
  | unlisted => exact keepsSelf_withRecord site apart
  | listed =>
    refine (keepsSelf_withRecord site apart).trans ⟨rfl, rfl, fun listed => ?_⟩
    exact (HashSet.mem_insert.mp listed).resolve_left (Ne.symm apart)

theorem keepsSelf_addNode (site : Site codec) (answer : ConnectAnswer) (actor : Actor)
    (apart : actor.isNode = true → addr ≠ vsZprAddr) (reconnect : Bool) :
    KeepsSelf site (site.addNode answer actor addr reconnect).2 := by
  rcases site.addNode_cases answer actor addr reconnect with
    ⟨failure, isDone, -⟩ | ⟨isNode, base, result, next, isDone, stores, ways⟩
  · rw [isDone]
    exact .refl site
  · rw [isDone]
    have stored : KeepsSelf base next := stores.keepsSelf (apart isNode)
    rcases ways with ⟨-, rfl, -⟩ | ⟨-, -, rfl⟩
    · exact stored
    · have dropped : KeepsSelf site (site.withoutState addr) :=
        ⟨rfl, rfl, fun listed => (HashSet.mem_erase.mp listed).1⟩
      exact dropped.trans stored

theorem Docks.keepsSelf {docked : Site codec} (docks : Docks addr site docked) :
    KeepsSelf site docked :=
  ⟨docks.sameVs, by rw [docks.actors], by rw [docks.nodes]; exact id⟩

theorem keepsSelf_joinNode (isVs : site.asm.vsAddr = vsZprAddr) (answer : ConnectAnswer)
    (isAddr : actor.zprAddr = some addr) (apart : addr ≠ vsZprAddr)
    (stored : ∀ stored, changes.actorMgrAddNode = some stored → stored ≠ vsZprAddr) :
    KeepsSelf site (site.joinNode answer actor addr changes).2 := by
  unfold joinNode
  split
  next failed isFailed =>
    exact (dockVisaService_docks isFailed).1.keepsSelf.trans (keepsSelf_undo failed stored)
  next docked isDocked =>
    have docks := (dockVisaService_docks isDocked).1.keepsSelf
    have routed : KeepsSelf site { docked with router := docked.router.insert addr } :=
      { docks with }
    dsimp only
    split
    · refine routed.trans (keepsSelf_undo _ ?_)
      split <;> exact stored
    · exact routed.trans (keepsSelf_enforce (routed.vsAddr.trans isVs) _ isAddr
        fun same => absurd same apart)

/-- At the address of the visa service, only an adapter can be at hand, and it is not added. -/
theorem keepsSelf_admitNode (isVs : site.asm.vsAddr = vsZprAddr) (answer : ConnectAnswer)
    (isAddr : actor.zprAddr = some addr) (apart : actor.isNode = true → addr ≠ vsZprAddr)
    (reconnect : Bool) (unstored : changes.actorMgrAddNode = none) :
    KeepsSelf site (site.admitNode answer actor addr reconnect changes).2 := by
  have undone (left : Site codec) : KeepsSelf left (left.undo changes) :=
    keepsSelf_undo left fun stored isStored => nomatch unstored.symm.trans isStored
  have resets : KeepsSelf site (if reconnect then
      ((.ok (), site) : Except ServiceError Unit × Site codec) else site.resetNodeState addr).2 := by
    split
    · exact .refl site
    · exact keepsSelf_resetNodeState isVs addr
  unfold admitNode
  split
  next failed isFailed =>
    rw [isFailed] at resets
    exact resets.trans (undone failed)
  next ready isReady =>
    rw [isReady] at resets
    have adds := keepsSelf_addNode ready answer actor apart reconnect
    split
    next failed isFailed =>
      rw [isFailed] at adds
      exact (resets.trans adds).trans (undone failed)
    next stored isStored =>
      have isNode : actor.isNode = true := by
        rcases ready.addNode_cases answer actor addr reconnect with ⟨_, isDone, -⟩ | ⟨isNode, -⟩
        · cases isDone.symm.trans isStored
        · exact isNode
      rw [isStored] at adds
      have joined := resets.trans adds
      refine joined.trans (keepsSelf_joinNode (joined.vsAddr.trans isVs) answer isAddr
        (apart isNode) fun stored isStored => ?_)
      exact Option.some.inj isStored ▸ apart isNode

theorem keepsSelf_addLinkedNode (site : Site codec) (answer : ConnectAnswer) (actor : Actor)
    (apart : addr ≠ vsZprAddr) : KeepsSelf site (site.addLinkedNode answer actor addr).2 := by
  have adds := keepsSelf_addNode { site with router := site.router.insert addr } answer actor
    (fun _ => apart) false
  have rerouted {left : Site codec} (kept : KeepsSelf
      { site with router := site.router.insert addr } left) (router : HashSet IpAddr) :
      KeepsSelf site { left with router } := { kept with }
  unfold addLinkedNode
  dsimp only
  split
  · exact .refl site
  split
  · split <;> exact .refl site
  split
  next failed isFailed =>
    rw [isFailed] at adds
    exact rerouted adds _
  next stored isStored =>
    rw [isStored] at adds
    split
    · exact (rerouted adds _).trans (keepsSelf_removeBoth _ apart)
    · exact rerouted adds stored.router

/-! ### Connects -/

/-- The visa service has its record at the fixed address, which is no node's. -/
structure Self (site : Site codec) : Prop where
  vsAddr : site.asm.vsAddr = vsZprAddr
  record : ∃ vs, site.asm.actors[vsZprAddr]? = some vs ∧ vs.getCn = some vsCn
  nodes : vsZprAddr ∉ site.nodes

theorem Self.keeps (self : site.Self) (keeps : KeepsSelf site next) : next.Self :=
  ⟨keeps.vsAddr.trans self.vsAddr, keeps.record ▸ self.record, fun listed =>
    self.nodes (keeps.nodes listed)⟩

theorem keepsSelf_settle {lookupFails : Bool}
    {result : Except ServiceError (Actor × IpAddr)}
    (settled : site.settle login lookupFails = (result, next)) : KeepsSelf site next := by
  cases result with
  | error failure =>
    rw [settle_error settled]
    exact .refl site
  | ok pair =>
    rcases settle_ok settled with ⟨-, rfl, -⟩ | ⟨-, -, net, -, rfl⟩
    · exact .refl next
    · exact ⟨rfl, rfl, id⟩

/-- Who is given the address of the visa service has it pre-set, since the pools do not contain
it, and is an adapter. -/
def SettlesApart (site : Site codec) (login : Login) (answer : ConnectAnswer) : Prop :=
  ∀ actor next,
    (site.answering answer.base).settle login answer.lookupFails = (.ok (actor, vsZprAddr), next) →
      login.actor.zprAddr = some vsZprAddr ∧ actor.isNode = false

theorem named_of_settle {lookupFails : Bool} (isVs : site.asm.vsAddr = vsZprAddr)
    (preset : login.actor.zprAddr = some vsZprAddr) (adapter : actor.isNode = false)
    (settled : site.settle login lookupFails = (.ok (actor, vsZprAddr), next)) :
    actor.getCn = some vsCn := by
  rcases settle_ok settled with ⟨-, -, rfl, ways⟩ | ⟨noPreset, -⟩
  · rcases ways with ⟨holder, -, retakes⟩ | ⟨-, -, onlyVs⟩
    · simp only [mayRetake, adapter, Bool.and_false, Bool.false_and, Bool.or_false, Bool.or_eq_true,
        Bool.and_eq_true, beq_iff_eq, reduceCtorEq, false_or] at retakes
      exact retakes.2
    · exact onlyVs isVs.symm
  · cases preset.symm.trans noPreset

theorem keepsSelf_authenticate {reconnect overLink : Bool} {requested : IpAddr}
    (isVs : site.asm.vsAddr = vsZprAddr)
    (apart : ∀ actor next, site.settle login answer.lookupFails = (.ok (actor, vsZprAddr), next) →
      actor.isNode = false) :
    KeepsSelf site (site.authenticate login answer reconnect requested overLink).2 := by
  obtain ⟨result, next, isDone, rfl | ⟨actor, addr, ready, taken, settled, -, ways⟩⟩ :=
    site.authenticate_cases login answer reconnect requested overLink <;> rw [isDone]
  · exact .refl next
  have settles := keepsSelf_settle settled
  rcases ways with rfl | isNext
  · exact settles.trans (keepsSelf_undo ready nofun)
  have notVs (isNode : actor.isNode = true) : addr ≠ vsZprAddr := by
    rintro rfl
    rw [apart actor ready settled] at isNode
    cases isNode
  have admits : KeepsSelf ready (ready.admitNode answer actor addr reconnect ⟨taken, none, none⟩).2 :=
    keepsSelf_admitNode (settles.vsAddr.trans isVs) answer (zprAddr_of_settle_ok settled) notVs _ rfl
  rw [isNext] at admits
  exact settles.trans admits

/-- The adapter of the visa service supersedes its own record. -/
theorem self_addAdapterViaNode {via : IpAddr} (self : site.Self) (whole : answer.write = .done)
    (named : addr = vsZprAddr → actor.getCn = some vsCn) :
    (site.addAdapterViaNode answer actor addr via).2.Self := by
  have added : (site.withRecord addr actor).Self := by
    by_cases same : addr = vsZprAddr
    · subst same
      exact ⟨self.vsAddr, ⟨actor, (HashMap.get_insert ..).trans (if_pos rfl), named rfl⟩, self.nodes⟩
    · exact self.keeps (keepsSelf_withRecord site same)
  rcases site.addAdapterViaNode_cases answer actor addr via with ⟨failure, isDone, -⟩ |
      ⟨failure, isDone, cleared⟩ | ⟨failure, isDone, -⟩ | ⟨-, -, ⟨failure, isDone, -⟩ | ⟨isDone, -⟩⟩
  · rw [isDone]
    exact self
  · cases whole.symm.trans cleared
  · rw [isDone]
    exact added
  · rw [isDone]
    exact added
  · rw [isDone]
    exact { added with }

theorem self_authorizeConnect {via : IpAddr} (self : site.Self) (whole : answer.write = .done)
    (apart : ∀ actor next, site.settle login answer.lookupFails = (.ok (actor, vsZprAddr), next) →
      login.actor.zprAddr = some vsZprAddr ∧ actor.isNode = false) :
    (site.authorizeConnect login answer via).2.Self := by
  unfold authorizeConnect
  split
  next settled => exact self.keeps (keepsSelf_settle settled)
  next actor addr ready settled =>
    have ready_self := self.keeps (keepsSelf_settle settled)
    have named (same : addr = vsZprAddr) : actor.getCn = some vsCn := by
      subst same
      obtain ⟨preset, adapter⟩ := apart actor ready settled
      exact named_of_settle self.vsAddr preset adapter settled
    have enforced {left : Site codec} (self : left.Self) :
        (left.enforceDenylistAfterPersist answer.denylistFails actor).2.Self :=
      self.keeps (keepsSelf_enforce self.vsAddr _ (zprAddr_of_settle_ok settled) named)
    split
    next isNode =>
      have notVs : addr ≠ vsZprAddr := by
        rintro rfl
        rw [(apart actor ready settled).2] at isNode
        cases isNode
      have adds := ready_self.keeps (keepsSelf_addLinkedNode ready answer actor notVs)
      split
      next failed isFailed =>
        rw [isFailed] at adds
        exact adds.keeps (keepsSelf_releaseAddr failed addr)
      next failed isFailed =>
        rw [isFailed] at adds
        exact adds
      next stored isStored =>
        rw [isStored] at adds
        exact enforced adds
    · have adds := @self_addAdapterViaNode _ ready addr actor answer via ready_self whole named
      split
      next failed isFailed =>
        rw [isFailed] at adds
        exact adds.keeps (keepsSelf_releaseAddr failed addr)
      next stored isStored =>
        rw [isStored] at adds
        exact enforced adds

end Site

/-! ### Sweeps -/

/-- The record of the visa service, whose credentials last until the given time. -/
structure Actor.IsSelf (horizon : Nat) (actor : Actor) : Prop where
  named : actor.getCn = some vsCn
  lasts : ∀ expiry gate, actor.getAuthenticationExpirationWithGate = some (expiry, gate) →
    horizon ≤ expiry

/-- It is not yet that time, and the record at the fixed address is that of the visa service. -/
def SweepCall.Honest (horizon : Nat) : {β : Type} → SweepCall β → β → Prop
  | _, .clock, reply => reply < horizon
  | _, .getActor addr, reply =>
    addr = vsZprAddr → ∀ actor, reply = .ok (some actor) → actor.IsSelf horizon
  | _, _, _ => True

/-- The sweep does not aim at the visa service. -/
def Spares (horizon : Nat) {α : Type} (post : α → Prop) (prog : SweepProg α) : Prop :=
  Obeys (fun made => ¬ made.Targets vsZprAddr) (fun made reply => made.Honest horizon reply) post
    prog

section Spares

variable {α β : Type} {horizon : Nat} {post : β → Prop}

theorem spares_bind {first : α → Prop} {prog : SweepProg α} {rest : α → SweepProg β}
    (spares : Spares horizon first prog)
    (next : ∀ value, first value → Spares horizon post (rest value)) :
    Spares horizon post (prog >>= rest) := obeys_bind spares next

theorem spares_lift_bind {made : SweepCall α} {rest : α → SweepProg β}
    (apart : ¬ made.Targets vsZprAddr)
    (next : ∀ reply, made.Honest horizon reply → Spares horizon post (rest reply)) :
    Spares horizon post (lift made >>= rest) := obeys_lift_bind apart next

def Apart {Item : Type} (addrOf : Item → IpAddr) (items : List Item) : Prop :=
  ∀ item ∈ items, addrOf item ≠ vsZprAddr

theorem spares_of_makes {prog : SweepProg β}
    (makes : Makes (fun call => call.Within (· ≠ vsZprAddr)) prog) :
    Spares horizon (fun _ => True) prog :=
  obeys_of_makes (makes_imp (fun _ within target => within.1 vsZprAddr target rfl) makes)

theorem exempt {addr : IpAddr} {actor : Actor}
    (honest : (SweepCall.getActor addr).Honest horizon (.ok (some actor))) (isVs : addr = vsZprAddr) :
    isVisaService addr actor = true := by
  simp [isVisaService, (honest isVs actor rfl).named, isVs]

theorem spares_sweepExpiredAuths : Spares horizon (fun _ => True) sweepExpiredAuths := by
  refine spares_lift_bind (fun target => target.elim) fun reply _ => ?_
  match reply with
  | .error _ => trivial
  | .ok addrs =>
    refine spares_lift_bind (fun target => target.elim) fun now early => ?_
    -- the visa service has not expired
    refine spares_bind (obeys_collectExpired (fun _ target => target.elim)
      (fun _ target => target.elim) (fun _ entry => entry.addr ≠ vsZprAddr)
      (fun addr actor expiry gate _ honest expires expired _ isVs => ?_) addrs (by simp) _) ?_
    · have lasts := (honest isVs actor rfl).lasts expiry gate expires
      exact absurd (Nat.lt_of_lt_of_le early lasts) (Nat.not_lt.mpr expired)
    · rintro ⟨byNode, stats⟩ apart
      exact spares_of_makes (within_revokeExpired apart stats)

theorem spares_sweepReauthObligations :
    Spares horizon (fun _ => True) sweepReauthObligations := by
  refine spares_lift_bind (fun target => target.elim) fun reply _ => ?_
  match reply with
  | .error _ => trivial
  | .ok obligations =>
    dsimp only
    split
    · trivial
    refine spares_lift_bind (fun target => target.elim) fun reply _ => ?_
    match reply with
    | .error _ => trivial
    | .ok addrs =>
      refine spares_bind (obeys_loadEntries (fun _ target => target.elim)
        (fun _ target => target.elim) (fun entry => entry.addr ≠ vsZprAddr)
        (fun addr actor _ honest counts _ isVs => ?_) addrs (by simp)) fun entries apart => ?_
      · rw [exempt honest isVs] at counts
        cases counts
      have prunes := makes_imp (fun _ free => free vsZprAddr)
        (pruneObligations_aims entries obligations [] ⟨obligations.length, 0, 0, 0, 0⟩)
      refine spares_bind (obeys_of_makes prunes) ?_
      rintro ⟨unmet, stats⟩ -
      exact spares_of_makes (@within_enforceUnmet (· ≠ vsZprAddr) entries apart unmet stats)

theorem spares_sweepDenylistedActors : Spares horizon (fun _ => True) sweepDenylistedActors := by
  refine spares_lift_bind (fun target => target.elim) fun reply _ => ?_
  match reply with
  | .error _ => trivial
  | .ok denied =>
    dsimp only
    split
    · trivial
    refine spares_lift_bind (fun target => target.elim) fun reply _ => ?_
    match reply with
    | .error _ => trivial
    | .ok addrs =>
      refine spares_bind (obeys_matchDenied (fun _ target => target.elim)
        (fun _ target => target.elim) (fun entry => entry.addr ≠ vsZprAddr)
        (fun addr actor cn _ honest isDenied _ isVs => ?_) addrs (by simp) _) ?_
      · unfold deniedCn at isDenied
        rw [if_pos (exempt honest isVs)] at isDenied
        cases isDenied
      rintro ⟨found, stats⟩ apart
      have fewer {keep : DeniedEntry → Bool} : Apart DeniedEntry.addr (found.filter keep) :=
        fun entry member => apart entry (List.mem_of_mem_filter member)
      refine spares_bind
        (spares_of_makes (@within_disconnectDenied (· ≠ vsZprAddr) _ fewer [] stats)) ?_
      rintro ⟨gone, stats⟩ -
      refine spares_of_makes (within_revokeDenied (fun batch isBatch entry member => ?_) _)
      obtain ⟨source, isSource, -, rfl⟩ := mem_batchEntries isBatch member
      exact fewer source isSource

theorem spares_prog (sweep : Sweep) : Spares horizon (fun _ => True) sweep.prog := by
  cases sweep with
  | expiredAuths => exact spares_bind spares_sweepExpiredAuths fun _ _ => trivial
  | reauthObligations => exact spares_bind spares_sweepReauthObligations fun _ _ => trivial
  | denylistedActors => exact spares_bind spares_sweepDenylistedActors fun _ _ => trivial

end Spares

/-! ### The service -/

/-- The site, and what is left of the sweeps under way. -/
structure Service (codec : VisaCodec) where
  site : Site codec
  sweeps : List (SweepProg Unit)

inductive ServiceEvent where
  | authenticate (login : Login) (answer : ConnectAnswer) (reconnect : Bool) (requested : IpAddr)
      (overLink : Bool)
  | authorizeConnect (login : Login) (answer : ConnectAnswer) (via : IpAddr)
  /-- A live node names an actor that has left; `aaaDock` is what the AAA table says of it. -/
  | notifyDisconnect (caller target : IpAddr) (aaaDock : Option IpAddr) (answer : Answer)
  | startSweep (sweep : Sweep)
  | sweepCall (place : Nat) (answer : Answer)
  /-- A policy install has the attributes of a stored actor fetched again. -/
  | refreshActor (addr : IpAddr) (actor : Actor)
  /-- A policy install disconnects a stored node that is no longer approved. -/
  | disconnectInvalid (node : IpAddr) (answer : Answer)
  | addObligation (vinst deadline : Nat)
  | setDenied (denied : HashSet String)
  | tick (nanos : Nat)

namespace Site

/-- A call of a sweep; a disconnect concerns the node records, too. -/
def exec (site : Site codec) {β : Type} (call : SweepCall β) : β × Site codec :=
  match call with
  | .disconnect addr => site.disconnect addr
  | call => ((call.exec site.asm).1, { site with asm := (call.exec site.asm).2 })

/-- `notify_disconnect`: the caller is live, and the target is the caller itself or docked at
it. -/
def notifyDisconnect (site : Site codec) (caller target : IpAddr) (aaaDock : Option IpAddr) :
    Site codec :=
  if !site.asm.actors[caller]?.any Actor.isNode then site
  else if target = caller ∨ site.asm.connectionTable[target]? = some caller ∨
      aaaDock = some caller then (site.disconnect target).2
  else site

/-- The role and the name of the actor stay. -/
def refreshActor (site : Site codec) (addr : IpAddr) (actor : Actor) : Site codec :=
  match site.asm.actors[addr]? with
  | none => site
  | some holder =>
    if holder.getCn = actor.getCn ∧ holder.isNode = actor.isNode then
      { site with asm := { site.asm with actors := site.asm.actors.insert addr actor } }
    else site

end Site

namespace Service

def step (service : Service codec) : ServiceEvent → Option (Service codec)
  | .authenticate login answer reconnect requested overLink =>
    some { service with
      site := ((service.site.answering answer.base).authenticate login answer reconnect requested
        overLink).2 }
  | .authorizeConnect login answer via =>
    if service.site.asm.actors[via]?.any Actor.isNode then
      some { service with
        site := ((service.site.answering answer.base).authorizeConnect login answer via).2 }
    else none
  | .notifyDisconnect caller target aaaDock answer =>
    some { service with
      site := (service.site.answering answer).notifyDisconnect caller target aaaDock }
  | .startSweep sweep => some { service with sweeps := service.sweeps ++ [sweep.prog] }
  | .sweepCall place answer =>
    match service.sweeps[place]? with
    | some (.call made next) =>
      let (reply, site) := (service.site.answering answer).exec made
      some ⟨site, service.sweeps.set place (next reply)⟩
    | _ => none
  | .refreshActor addr actor => some { service with site := service.site.refreshActor addr actor }
  | .disconnectInvalid node answer =>
    if node ∈ service.site.nodes then
      some { service with site := ((service.site.answering answer).disconnect node).2 }
    else none
  | .addObligation vinst deadline =>
    some { service with site := { service.site with asm := { service.site.asm with
      obligations := service.site.asm.obligations.insert vinst deadline } } }
  | .setDenied denied =>
    some { service with site := { service.site with asm := { service.site.asm with denied } } }
  | .tick nanos =>
    some { service with site := { service.site with asm := { service.site.asm with
      visas := { service.site.asm.visas with now := service.site.asm.visas.now + nanos } } } }

/-- The record of an adapter that connects is written. -/
def Whole : ServiceEvent → Prop
  | .authorizeConnect _ answer _ => answer.write = .done
  | _ => True

/-- No node is admitted at the address of the visa service, no notice names it, and when a sweep
makes a call the credentials of the visa service have not expired. -/
def Respects (horizon : Nat) (service : Service codec) : ServiceEvent → Prop
  | .authenticate login answer _ _ _ => service.site.SettlesApart login answer
  | .authorizeConnect login answer _ => service.site.SettlesApart login answer
  | .notifyDisconnect _ target _ _ => target ≠ vsZprAddr
  | .sweepCall _ _ => service.site.asm.visas.now < horizon ∧
      ∀ vs, service.site.asm.actors[vsZprAddr]? = some vs → vs.IsSelf horizon
  | _ => True

variable {service next : Service codec} {horizon : Nat}

structure Inv (horizon : Nat) (service : Service codec) : Prop where
  self : service.site.Self
  sweeps : ∀ left ∈ service.sweeps, Spares horizon (fun _ => True) left

end Service

namespace Site

variable {site : Site codec}

theorem Self.answering (self : site.Self) (answer : Answer) : (site.answering answer).Self :=
  { self with }

theorem keepsSelf_exec (isVs : site.asm.vsAddr = vsZprAddr) {β : Type} {call : SweepCall β}
    (apart : ¬ call.Targets vsZprAddr) : KeepsSelf site (site.exec call).2 := by
  rcases call.exec_cases site.asm with ⟨target, aims⟩ | ⟨_, _, _, isDone⟩
  · cases call with
    | disconnect addr => exact keepsSelf_disconnect isVs apart
    | removeActor addr =>
      exact ⟨(Assembly.shrinks_removeActor site.asm addr).vsAddr, Assembly.removeActor_of_ne apart,
        id⟩
    | _ => exact aims.elim
  · cases call with
    | disconnect addr => exact keepsSelf_disconnect isVs apart
    | _ =>
      simp only [exec, isDone]
      exact ⟨rfl, rfl, id⟩

theorem exec_honest {horizon : Nat} (early : site.asm.visas.now < horizon)
    (lasting : ∀ vs, site.asm.actors[vsZprAddr]? = some vs → vs.IsSelf horizon) {β : Type}
    (call : SweepCall β) : call.Honest horizon (site.exec call).1 := by
  cases call with
  | clock => exact early
  | getActor addr =>
    intro isVs actor replied
    simp only [exec, SweepCall.exec, Assembly.getActorByZprAddr] at replied
    split at replied
    · cases replied
    · exact lasting actor (isVs ▸ Except.ok.inj replied)
  | _ => trivial

theorem self_refreshActor (self : site.Self) (addr : IpAddr) (actor : Actor) :
    (site.refreshActor addr actor).Self := by
  unfold refreshActor
  split
  · exact self
  next holder found =>
    split
    next same =>
      refine ⟨self.vsAddr, ?_, self.nodes⟩
      obtain ⟨vs, isVs, named⟩ := self.record
      by_cases own : addr = vsZprAddr
      · subst own
        cases found.symm.trans isVs
        exact ⟨actor, (HashMap.get_insert ..).trans (if_pos rfl), same.1 ▸ named⟩
      · exact ⟨vs, ((HashMap.get_insert ..).trans (if_neg own)).trans isVs, named⟩
    · exact self

end Site

namespace Service

variable {service next : Service codec} {horizon : Nat}

theorem inv_step {event : ServiceEvent} (inv : service.Inv horizon) (whole : Whole event)
    (respects : service.Respects horizon event) (stepped : step service event = some next) :
    next.Inv horizon := by
  have self := inv.self
  cases event with
  | authenticate login answer reconnect requested overLink =>
    cases stepped
    have answering := self.answering answer.base
    refine ⟨answering.keeps (Site.keepsSelf_authenticate answering.vsAddr ?_), inv.sweeps⟩
    exact fun actor next settled => (respects actor next settled).2
  | authorizeConnect login answer via =>
    simp only [step] at stepped
    split at stepped
    · cases stepped
      exact ⟨Site.self_authorizeConnect (self.answering answer.base) whole respects, inv.sweeps⟩
    · cases stepped
  | notifyDisconnect caller target aaaDock answer =>
    cases stepped
    refine ⟨?_, inv.sweeps⟩
    have answering := self.answering answer
    unfold Site.notifyDisconnect
    split
    · exact answering
    · split
      · exact answering.keeps (Site.keepsSelf_disconnect answering.vsAddr respects)
      · exact answering
  | startSweep sweep =>
    cases stepped
    refine ⟨self, fun left member => ?_⟩
    rcases List.mem_append.mp member with before | new
    · exact inv.sweeps left before
    · rw [List.mem_singleton.mp new]
      exact spares_prog sweep
  | sweepCall place answer =>
    simp only [step] at stepped
    split at stepped
    next β made rest found =>
      cases stepped
      -- The rest of the sweep spares the visa service if it gets an honest reply.
      obtain ⟨apart, others⟩ := inv.sweeps _ (List.mem_of_getElem? found)
      have answering := self.answering answer
      have honest := @Site.exec_honest _ (service.site.answering answer) horizon respects.1
        respects.2 β made
      refine ⟨answering.keeps (Site.keepsSelf_exec answering.vsAddr apart), fun left member => ?_⟩
      rcases List.mem_or_eq_of_mem_set member with before | rfl
      · exact inv.sweeps left before
      · exact others _ honest
    · cases stepped
  | refreshActor addr actor =>
    cases stepped
    exact ⟨Site.self_refreshActor self addr actor, inv.sweeps⟩
  | disconnectInvalid node answer =>
    simp only [step] at stepped
    split at stepped
    next listed =>
      cases stepped
      have answering := self.answering answer
      refine ⟨answering.keeps (Site.keepsSelf_disconnect answering.vsAddr ?_), inv.sweeps⟩
      rintro rfl
      exact self.nodes listed
    · cases stepped
  | addObligation vinst deadline | setDenied denied | tick nanos =>
    cases stepped
    exact ⟨{ self with }, inv.sweeps⟩

/-- The visa service has authorized itself, and no sweep has begun. -/
structure Started (service : Service codec) : Prop where
  self : service.site.Self
  idle : service.sweeps = []

/-- The record is there in every state that is reached. -/
theorem own_record_stays {start final : Service codec} {events : List ServiceEvent}
    (started : start.Started) (whole : ∀ event ∈ events, Whole event)
    (respects : Meets step (Respects horizon) start events)
    (ran : Lib.run step start events = some final) :
    ∃ vs, final.site.asm.actors[vsZprAddr]? = some vs ∧ vs.getCn = some vsCn := by
  have inv : start.Inv horizon := by
    refine ⟨started.self, fun left member => ?_⟩
    rw [started.idle] at member
    cases member
  have wholeRun : Meets step (fun (_ : Service codec) event => Whole event) start events :=
    meets_of_forall (fun event member _ => whole event member) start
  exact (run_preserves_of_meets (fun _ _ _ inv both stepped => inv_step inv both.1 both.2 stepped)
    inv (wholeRun.and respects) ran).self.record

end Service

/-! ### The node of the visa service -/

namespace ServiceSample

open SiteSample Service

/-- The visa service has authorized itself. -/
def ready : Service VisaCodec.plain := ⟨Site.selfStored, []⟩

theorem ready_started : ready.Started where
  self := by
    refine ⟨rfl, ⟨_, (HashMap.get_insert ..).trans (if_pos rfl), by decide +kernel⟩, ?_⟩
    exact Std.ExtTreeSet.not_mem_empty
  idle := rfl

/-- The gateway connects, and the visa service is taken to be docked at it. -/
def gatewayJoins : ServiceEvent :=
  .authenticate (login "gateway" roleNode (some gatewayAddr)) fine false gatewayAddr false

def leaves (target : IpAddr) : ServiceEvent := .notifyDisconnect gatewayAddr target none fine.base

def after (events : List ServiceEvent) : Service VisaCodec.plain :=
  (Lib.run step ready events).getD ready

/-- The visa service is in scope of its node's notices. -/
theorem own_record_removed :
    ¬ ∀ (codec : VisaCodec) (start final : Service codec) (events : List ServiceEvent),
      start.Started → (∀ event ∈ events, Whole event) → Lib.run step start events = some final →
        ∃ vs, final.site.asm.actors[vsZprAddr]? = some vs ∧ vs.getCn = some vsCn := by
  intro always
  have ran : Lib.run step ready [gatewayJoins, leaves vsZprAddr] =
      some (after [gatewayJoins, leaves vsZprAddr]) := run_eq_some_getD (by decide +kernel) _
  obtain ⟨vs, found, -⟩ := always _ ready _ _ ready_started
    (by simp [gatewayJoins, leaves, Whole]) ran
  have gone : (after [gatewayJoins, leaves vsZprAddr]).site.asm.actors[vsZprAddr]? = none := by
    decide +kernel
  cases gone.symm.trans found

/-- The gateway connects and leaves, and a sweep begins. -/
def calm : List ServiceEvent := [gatewayJoins, leaves gatewayAddr, .startSweep .expiredAuths]

def looksOn : List ServiceEvent := [.sweepCall 0 fine.base, .sweepCall 0 fine.base]

theorem gatewayJoins_respects (service : Service VisaCodec.plain) (horizon : Nat) :
    service.Respects horizon gatewayJoins := by
  intro actor next settled
  rcases Site.settle_ok settled with ⟨isPreset, -⟩ | ⟨noPreset, -⟩
  · cases isPreset
  · cases noPreset

theorem looksOn_respects : Meets step (Respects (10 * nanosPerSec)) (after calm) looksOn := by
  have lasting {service : Service VisaCodec.plain}
      (early : service.site.asm.visas.now < 10 * nanosPerSec)
      (endless : ∀ vs ∈ service.site.asm.actors[vsZprAddr]?,
        vs.getCn = some vsCn ∧ vs.getAuthenticationExpirationWithGate = none) :
      service.Respects (10 * nanosPerSec) (.sweepCall 0 fine.base) :=
    ⟨early, fun vs found => ⟨(endless vs found).1, fun _ _ expires =>
      nomatch (endless vs found).2.symm.trans expires⟩⟩
  have later : ∀ next ∈ step (after calm) (.sweepCall 0 fine.base),
      next.site.asm.visas.now < 10 * nanosPerSec ∧ ∀ vs ∈ next.site.asm.actors[vsZprAddr]?,
        vs.getCn = some vsCn ∧ vs.getAuthenticationExpirationWithGate = none := by
    decide +kernel
  refine ⟨lasting (by decide +kernel) (by decide +kernel), fun next stepped =>
    ⟨lasting (later next stepped).1 (later next stepped).2, fun _ _ => trivial⟩⟩

theorem own_record_kept :
    ∃ vs, (after (calm ++ looksOn)).site.asm.actors[vsZprAddr]? = some vs ∧
      vs.getCn = some vsCn := by
  have ran : Lib.run step ready (calm ++ looksOn) = some (after (calm ++ looksOn)) :=
    run_eq_some_getD (by decide +kernel) _
  have ranFirst : Lib.run step ready calm = some (after calm) :=
    run_eq_some_getD (by decide +kernel) _
  have apart : gatewayAddr ≠ vsZprAddr := by decide
  have respects : Meets step (Respects (10 * nanosPerSec)) ready (calm ++ looksOn) := by
    refine meets_append.mpr ⟨⟨gatewayJoins_respects _ _, fun _ _ => ⟨apart, fun _ _ =>
      ⟨trivial, fun _ _ => trivial⟩⟩⟩, fun mid reached => ?_⟩
    cases ranFirst.symm.trans reached
    exact looksOn_respects
  exact own_record_stays ready_started (by simp [calm, looksOn, gatewayJoins, leaves, Whole])
    respects ran

end ServiceSample

end VisaService
