import VisaService.Assembly.Docking

/-!
# The docking table over whole runs

The operations keep `Docked` when the database does not fail, except where they concern the
visa service's own adapter: the teardown of a node spares it, and the fresh connect of that
node drops the stored connections but not the table; and when it connects itself it may be
docked at another node.

Main result: `Site.docking_tracked`.
-/
namespace VisaService

open Lib

variable {codec : VisaCodec}

/-- The database does not fail; the event queue may be closed, and a link may be unknown or
not installable. -/
structure ConnectAnswer.Fine (answer : ConnectAnswer) : Prop where
  base : answer.base.Fine
  lookup : answer.lookupFails = false
  write : answer.write = .done
  drop : answer.dropFails = false
  node : answer.nodeFails = false
  seen : answer.seenFails = false
  dock : answer.dockFails = false
  vsLookup : answer.vsLookupFails = false
  denylist : answer.denylistFails = false
  link : answer.link.persistFails = false

/-- The database does not fail. -/
def SiteEvent.Fine : SiteEvent → Prop
  | .authenticate _ answer _ _ _ => answer.Fine
  | .authorizeConnect _ answer _ => answer.Fine
  | .disconnect answer _ => answer.Fine

namespace Site

variable {site next : Site codec} {changing : IpAddr → Prop} {addr : IpAddr} {login : Login}
  {answer : ConnectAnswer} {actor : Actor}

/-! ### Undoing -/

theorem Docked.removeBoth (docked : site.Docked fun node => changing node ∨ node = addr)
    (fine : site.asm.answer.Fine) :
    ((site.removeNode addr).removeActor addr).Docked changing ∧
      addr ∉ ((site.removeNode addr).removeActor addr).asm.actors := by
  obtain ⟨dropped, unlisted, undocked⟩ := docked.removeNode fun node routed _ => routed
  have isDropped : site.removeNode addr =
      { site with asm := site.asm.removeNode addr, nodes := site.nodes.erase addr } := by
    unfold Site.removeNode
    rw [fine.node, if_neg Bool.false_ne_true]
  obtain ⟨removed, isOk, isRemoved⟩ := @removed_of_fine _ (site.asm.removeNode addr) fine addr
  have absent : addr ∉ removed.actors := isRemoved.not_mem
  rw [isDropped]
  unfold Site.removeActor
  dsimp only
  rw [isOk]
  have gone : Docked (fun node => changing node ∨ node = addr)
      { site with asm := removed, nodes := site.nodes.erase addr } :=
    (dropped.removed isRemoved).mono fun node changes => changes.elim id .inr
  refine ⟨gone.departed ⟨fun ⟨actor, isActor, _⟩ => absent (HashMap.mem_of_get isActor), unlisted,
    fun other isDock => undocked other (isRemoved.found isDock).2⟩, absent⟩

variable {reconnect : Bool} {taken : Option IpAddr}

theorem Docked.undo_taken (docked : site.Quiet)
    (isAddr : ∀ other, taken = some other → other = addr)
    (free : NetMgr.isPoolAddress addr = true → addr ∈ site.asm.actors → site.NodeAt addr) :
    (site.undo ⟨taken, none, none⟩).Quiet := by
  cases taken with
  | none => exact docked
  | some other =>
    obtain rfl := isAddr other rfl
    exact docked.releaseAddr free

theorem Docked.undo_stored {routed : Option IpAddr}
    (docked : site.Docked fun node => False ∨ node = addr) (fine : site.asm.answer.Fine)
    (isAddr : ∀ other, taken = some other → other = addr)
    (isRouted : ∀ other, routed = some other → other = addr) :
    (site.undo ⟨taken, some addr, routed⟩).Quiet := by
  cases routed with
  | none =>
    obtain ⟨quiet, absent⟩ := docked.removeBoth fine
    exact Docked.undo_taken quiet isAddr fun _ stored => absurd stored absent
  | some other =>
    obtain rfl := isRouted other rfl
    have rerouted : Docked (fun node => False ∨ node = other)
        { site with router := site.router.erase other } :=
      docked.reroute fun _ routed differs => HashSet.mem_erase.mpr ⟨routed, differs⟩
    obtain ⟨quiet, absent⟩ := rerouted.removeBoth fine
    exact Docked.undo_taken quiet isAddr fun _ stored => absurd stored absent

theorem Docked.enforce {denylistFails : Bool} (docked : site.Quiet)
    (fine : site.asm.answer.Fine) :
    (site.enforceDenylistAfterPersist denylistFails actor).2.Quiet := by
  rcases site.enforce_cases denylistFails actor with isDone | ⟨-, -, ⟨isDone, -⟩ | ⟨addr, -, isDone⟩⟩
  · rw [isDone]
    exact docked
  · rw [isDone]
    exact docked
  · rw [isDone]
    exact docked.disconnect fine

/-! ### Authentication of nodes -/

/-- The adapters docked at the node are gone, and it is not in the router. -/
structure Reset (addr : IpAddr) (site next : Site codec) : Prop where
  docked : next.Docked fun node => False ∨ node = addr
  undocked : ∀ other : IpAddr, next.asm.connectionTable[other]? ≠ some addr
  answer : next.asm.answer = site.asm.answer
  actor : next.asm.actors[addr]? = site.asm.actors[addr]?
  nodes : next.nodes = site.nodes

theorem resetNodeState_reset (docked : site.Quiet) (fine : site.asm.answer.Fine)
    (nodeOnly : addr ∈ site.asm.actors → site.NodeAt addr)
    (apart : site.asm.connectionTable[vsZprAddr]? ≠ some addr) :
    (∃ failure failed, site.resetNodeState addr = (.error failure, failed) ∧
      failed.Quiet ∧ failed.asm.actors[addr]? = site.asm.actors[addr]?) ∨
    ∃ ready, site.resetNodeState addr = (.ok (), ready) ∧ Reset addr site ready := by
  unfold resetNodeState
  rw [fine.adapters, if_neg Bool.false_ne_true]
  dsimp only
  generalize isDocks : site.asm.answer.order.list (site.asm.connections[addr]?.getD ∅) = docks
  have isDock {other : IpAddr} : other ∈ docks ↔ site.asm.connectionTable[other]? = some addr := by
    rw [← isDocks, SetOrder.mem_list, Rows.mem_row, docked.table]
  obtain ⟨kept, undocks⟩ := docked.removeDepartedAdapters fine fun other member =>
    docked.leaf (isDock.mp member)
  have notDocked : addr ∉ docks := fun member =>
    (docked.leaf (isDock.mp member)).notNode (nodeOnly (docked.stored addr addr (isDock.mp member)).1)
  have sameActor := undocks.actors addr notDocked
  have undocked (other : IpAddr) :
      (site.asm.removeDepartedAdapters docks).2.connectionTable[other]? ≠ some addr := by
    intro found
    obtain ⟨found, onlyVs⟩ := undocks.table other addr found
    rw [onlyVs (isDock.mpr found), docked.vsAddr] at found
    exact apart found
  split
  next cleared failure isFailed =>
    exact .inl ⟨_, _, rfl, kept.of_same rfl rfl rfl rfl rfl rfl rfl, sameActor⟩
  next cleared isCleared =>
    refine .inr ⟨_, rfl, ?_, undocked, undocks.answer, sameActor, rfl⟩
    have entered := kept.enter addr
    have rerouted := @Docked.reroute _ _ _ _ entered (site.router.erase addr)
      fun _ routed differs => HashSet.mem_erase.mpr ⟨routed, differs⟩
    exact rerouted.of_same rfl rfl rfl rfl rfl rfl rfl

/-- All records of the node are in place, apart from the router. -/
structure Stored (addr : IpAddr) (site next : Site codec) : Prop where
  docked : next.Docked fun node => False ∨ node = addr
  isNode : next.NodeAt addr
  listed : addr ∈ next.nodes
  answer : next.asm.answer = site.asm.answer

theorem addNode_stored (fine : answer.Fine) (docked : site.Docked fun node => False ∨ node = addr)
    (undocked : reconnect = false → ∀ other : IpAddr, site.asm.connectionTable[other]? ≠ some addr)
    (own : actor.zprAddr = some addr) (notVs : addr ≠ vsZprAddr)
    (free : actor.isNode = true → (addr ∈ site.asm.actors →
      site.NodeAt addr) ∧ NetMgr.isAdapterAddress addr = false) :
    (∃ failure, site.addNode answer actor addr reconnect = (.error failure, site) ∧
      (reconnect = false → actor.isNode = false)) ∨
    ∃ stored, site.addNode answer actor addr reconnect = (.ok (), stored) ∧
      Stored addr site stored ∧ stored.router = site.router := by
  rcases site.addNode_cases answer actor addr reconnect with
    ⟨failure, isFailed, ways⟩ | ⟨isNode, base, result, stored, isStored, stores, ways⟩
  · refine .inl ⟨failure, isFailed, fun fresh => ?_⟩
    rcases ways with again | drops | notNode
    · cases fresh.symm.trans again
    · cases fine.drop.symm.trans drops
    · exact notNode
  obtain ⟨nodeOnly, apart⟩ := free isNode
  have records {connections : Rows IpAddr IpAddr} {nodes : HashSet IpAddr} :=
    @Docked.record _ site _ addr actor docked own (fun _ => ⟨notVs, apart, nodeOnly⟩)
      (fun isAdapter => nomatch isNode.symm.trans isAdapter) connections (nodes.insert addr)
  have listed {nodes : HashSet IpAddr} : addr ∈ nodes.insert addr := HashSet.mem_insert.mpr (.inl rfl)
  cases stores with
  | unwritten _ fails | cleared _ fails => exact absurd fine.write fails
  | unlisted _ fails =>
    rcases fails with partly | ⟨-, nodeFails⟩
    · cases fine.write.symm.trans partly
    · cases fine.node.symm.trans nodeFails
  | listed _ _ _ seen =>
    obtain rfl := seen.mpr fine.seen
    rcases ways with ⟨-, rfl, -⟩ | ⟨rfl, -, rfl⟩
    · obtain ⟨kept, arrives, -⟩ := @records base.asm.connections base.nodes (fun _ _ => .rfl)
        fun node differs => by rw [HashSet.mem_insert, or_iff_right differs]
      exact .inr ⟨_, isStored, ⟨kept, arrives.mpr isNode, listed, rfl⟩, rfl⟩
    · have sameDocks (node other : IpAddr) :
          Rows.Holds (site.asm.connections.erase addr) node other ↔
            site.asm.connections.Holds node other := by
        refine Rows.holds_erase.trans ⟨And.right, fun holds => ⟨?_, holds⟩⟩
        rintro rfl
        exact undocked rfl other ((docked.table other node).mpr holds)
      obtain ⟨kept, arrives, -⟩ := @records _ (site.nodes.erase addr) sameDocks
        fun node differs => by
          rw [HashSet.mem_insert, HashSet.mem_erase, or_iff_right differs, and_iff_left differs]
      exact .inr ⟨_, isStored, ⟨kept, arrives.mpr isNode, listed, rfl⟩, rfl⟩

theorem Stored.dockVisaService (stored : Stored addr next site) (fine : answer.Fine) :
    ∃ docked, site.dockVisaService answer addr = (.ok (), docked) ∧ Stored addr next docked := by
  unfold Site.dockVisaService
  rw [fine.vsLookup, fine.dock, if_neg Bool.false_ne_true]
  split
  · exact ⟨_, rfl, stored⟩
  next vs isVs =>
    split
    · exact ⟨_, rfl, stored⟩
    next noDock =>
      rw [stored.docked.vsAddr] at isVs
      have adapter : vs.isNode = false := Bool.eq_false_iff.mpr fun isNode =>
        stored.docked.vsAdapter ⟨vs, isVs, isNode⟩
      have undocked : site.asm.connectionTable[vsZprAddr]? = none := by
        simpa [Assembly.getDockingNodeForActor, adapter, stored.docked.own _ vs isVs] using noDock
      refine ⟨_, rfl, ?_, stored.isNode, stored.listed, stored.answer⟩
      refine stored.docked.dock (HashMap.mem_of_get isVs) stored.docked.vsAdapter
        (.inr stored.isNode) fun other found => ?_
      cases found.symm.trans undocked

theorem Stored.joinNode (stored : Stored addr next site) (fine : answer.Fine)
    (isAnswer : next.asm.answer = answer.base) (isAddr : ∀ other, taken = some other →
      other = addr) :
    (site.joinNode answer actor addr ⟨taken, some addr, none⟩).2.Quiet := by
  obtain ⟨docked, isDocked, stored⟩ := stored.dockVisaService fine
  have fineBase : docked.asm.answer.Fine := stored.answer.trans isAnswer ▸ fine.base
  have routed : Docked (fun node => False ∨ node = addr)
      { docked with router := docked.router.insert addr } :=
    stored.docked.reroute fun node isRouted _ => HashSet.mem_insert.mpr (.inr isRouted)
  unfold Site.joinNode
  rw [isDocked]
  dsimp only
  split
  · split
    · exact routed.undo_stored fineBase isAddr nofun
    · exact routed.undo_stored fineBase isAddr fun other same => (Option.some.inj same).symm
  · refine Docked.enforce ?_ fineBase
    exact routed.arrived stored.isNode stored.listed (HashSet.mem_insert.mpr (.inl rfl))

/-- The settled address of a node, at which no adapter is stored. -/
structure NodeReady (actor : Actor) (addr : IpAddr) (site : Site codec) : Prop where
  docked : site.Quiet
  own : actor.zprAddr = some addr
  notVs : addr ≠ vsZprAddr
  nodeOnly : addr ∈ site.asm.actors → site.NodeAt addr
  apart : actor.isNode = true → NetMgr.isAdapterAddress addr = false
  adapter : actor.isNode = false → addr ∉ site.asm.actors

theorem Settled.nodeReady (settled : Settled (fun _ => False) actor addr site next)
    (notVs : addr ≠ vsZprAddr) : NodeReady actor addr next := by
  obtain ⟨docked, ⟨net, rfl⟩, own, node, adapter⟩ := settled
  refine ⟨docked, own, notVs, fun stored => ?_, fun isNode => (node isNode notVs).2,
    fun isAdapter => (adapter isAdapter).1 notVs⟩
  cases isNode : actor.isNode with
  | true => exact (node isNode notVs).1 stored
  | false => exact absurd stored ((adapter isNode).1 notVs)

theorem NodeReady.admitNode (ready : NodeReady actor addr site) (fine : answer.Fine)
    (isAnswer : site.asm.answer = answer.base) (isAddr : ∀ other, taken = some other → other = addr)
    (spared : reconnect = false → site.asm.connectionTable[vsZprAddr]? ≠ some addr) :
    (site.admitNode answer actor addr reconnect ⟨taken, none, none⟩).2.Quiet := by
  have fineBase : site.asm.answer.Fine := isAnswer ▸ fine.base
  have nodeAt {other : Site codec} (same : other.asm.actors[addr]? = site.asm.actors[addr]?)
      (stored : addr ∈ other.asm.actors) : other.NodeAt addr := by
    obtain ⟨holder, found⟩ := HashMap.get_of_mem stored
    obtain ⟨actor, isActor, isNode⟩ := ready.nodeOnly (HashMap.mem_of_get (same.symm.trans found))
    exact ⟨actor, same.trans isActor, isNode⟩
  unfold Site.admitNode
  cases reconnect with
  | true =>
    rw [if_pos rfl]
    dsimp only
    rcases addNode_stored fine (ready.docked.enter addr) (fun fresh : true = false => nomatch fresh)
        ready.own ready.notVs fun isNode => ⟨ready.nodeOnly, ready.apart isNode⟩ with
      ⟨failure, isFailed, -⟩ | ⟨stored, isStored, isDone, -⟩
    · rw [isFailed]
      exact ready.docked.undo_taken isAddr fun _ => ready.nodeOnly
    · rw [isStored]
      exact isDone.joinNode fine isAnswer isAddr
  | false =>
    rw [if_neg Bool.false_ne_true]
    rcases resetNodeState_reset ready.docked fineBase ready.nodeOnly (spared rfl) with
      ⟨failure, failed, isFailed, quiet, sameActor⟩ | ⟨cleared, isCleared, reset⟩
    · rw [isFailed]
      exact quiet.undo_taken isAddr fun _ => nodeAt sameActor
    · rw [isCleared]
      dsimp only
      rcases addNode_stored fine reset.docked (fun _ => reset.undocked) ready.own ready.notVs
          fun isNode => ⟨nodeAt reset.actor, ready.apart isNode⟩ with
        ⟨failure, isFailed, isAdapter⟩ | ⟨stored, isStored, isDone, -⟩
      · -- An actor that is not a node has a new address.
        have absent := ready.adapter (isAdapter rfl)
        have notNode : ¬ site.NodeAt addr := fun ⟨_, found, _⟩ => absent (HashMap.mem_of_get found)
        have leaf : cleared.Leaf addr := by
          refine ⟨fun ⟨holder, found, isNode⟩ => ?_, ?_, reset.undocked⟩
          · exact notNode ⟨holder, reset.actor.symm.trans found, isNode⟩
          · exact reset.nodes ▸ (ready.docked.leaf_of_not_node notNode).unlisted
        rw [isFailed]
        exact (reset.docked.departed leaf).undo_taken isAddr fun _ => nodeAt reset.actor
      · rw [isStored]
        exact isDone.joinNode fine (reset.answer.trans isAnswer) isAddr

theorem Docked.authenticate {overLink : Bool} {requested : IpAddr}
    (docked : site.Quiet) (fine : answer.Fine)
    (isAnswer : site.asm.answer = answer.base)
    (apart : ∀ actor addr next, site.settle login answer.lookupFails = (.ok (actor, addr), next) →
      addr ≠ vsZprAddr ∧ (reconnect = false → site.asm.connectionTable[vsZprAddr]? ≠ some addr)) :
    (site.authenticate login answer reconnect requested overLink).2.Quiet := by
  obtain ⟨result, next, isDone, rfl | ⟨actor, addr, after, taken, isSettled, isAddr, ways⟩⟩ :=
    site.authenticate_cases login answer reconnect requested overLink <;> rw [isDone]
  · exact docked
  have settled := docked.settle isSettled
  obtain ⟨notVs, spared⟩ := apart actor addr after isSettled
  have ready := settled.nodeReady notVs
  obtain ⟨net, rfl⟩ := settled.same
  rcases ways with rfl | isNext
  · exact ready.docked.undo_taken isAddr fun _ => ready.nodeOnly
  · have admits := @NodeReady.admitNode _ _ _ _ _ reconnect _ ready fine isAnswer isAddr spared
    rwa [isNext] at admits

/-! ### Connects over a node -/

/-- A node that the router does not know has nobody docked at it. -/
theorem NodeReady.addLinkedNode (ready : NodeReady actor addr site) (fine : answer.Fine)
    (isNode : actor.isNode = true) (isAnswer : site.asm.answer = answer.base) :
    ∃ result next, site.addLinkedNode answer actor addr = (result, next) ∧
      next.Quiet ∧ (result = .ok () → next.asm.answer = site.asm.answer) ∧
      (addr ∈ next.asm.actors → next.NodeAt addr) := by
  have unmoved (result : Except AddLinkedNodeError Unit) :
      ∃ outcome next, (result, site) = (outcome, next) ∧ next.Quiet ∧
        (outcome = .ok () → next.asm.answer = site.asm.answer) ∧
        (addr ∈ next.asm.actors → next.NodeAt addr) :=
    ⟨_, _, rfl, ready.docked, fun _ => rfl, ready.nodeOnly⟩
  unfold Site.addLinkedNode
  dsimp only
  split
  · exact unmoved _
  split
  · split <;> exact unmoved _
  next unrouted =>
    have undocked (other : IpAddr) : site.asm.connectionTable[other]? ≠ some addr := by
      intro found
      have isNode := (ready.docked.node other addr found).resolve_left id
      exact unrouted ((ready.docked.known addr isNode).resolve_left id).2
    have routed : Docked (fun node => False ∨ node = addr)
        { site with router := site.router.insert addr } :=
      (ready.docked.enter addr).reroute fun node isRouted _ => HashSet.mem_insert.mpr (.inr isRouted)
    rcases addNode_stored fine routed (fun _ => undocked) ready.own ready.notVs
        fun isNode => ⟨ready.nodeOnly, ready.apart isNode⟩ with
      ⟨failure, -, isAdapter⟩ | ⟨stored, isStored, isDone, sameRouter⟩
    · rw [isNode] at isAdapter
      cases isAdapter rfl
    · rw [isStored]
      dsimp only
      split
      · have fineBase : stored.asm.answer.Fine := isDone.answer.trans isAnswer ▸ fine.base
        have rerouted : Docked (fun node => False ∨ node = addr)
            { stored with router := stored.router.erase addr } :=
          isDone.docked.reroute fun _ routed differs => HashSet.mem_erase.mpr ⟨routed, differs⟩
        obtain ⟨quiet, absent⟩ := rerouted.removeBoth fineBase
        exact ⟨_, _, rfl, quiet, nofun, fun member => absurd member absent⟩
      · refine ⟨_, _, rfl, isDone.docked.arrived isDone.isNode isDone.listed ?_,
          fun _ => isDone.answer, fun _ => isDone.isNode⟩
        rw [sameRouter]
        exact HashSet.mem_insert.mpr (.inl rfl)

theorem Docked.insertAdapter (docked : site.Quiet) (isAdapter : actor.isNode = false)
    (own : actor.zprAddr = some addr) (notNode : ¬ site.NodeAt addr)
    (inUse : NetMgr.isPoolAddress addr = true → site.asm.net.InUse addr) :
    let stored : Site codec :=
      { site with asm := { site.asm with actors := site.asm.actors.insert addr actor } }
    stored.Quiet ∧ ∀ other, stored.NodeAt other ↔ site.NodeAt other := by
  intro stored
  obtain ⟨kept, here, others⟩ := (docked.enter addr).record own
    (fun isNode => by rw [isAdapter] at isNode; cases isNode) (fun _ => ⟨notNode, inUse⟩)
    (fun _ _ => .rfl) fun _ _ => .rfl
  have nodeAt (other : IpAddr) : stored.NodeAt other ↔ site.NodeAt other := by
    by_cases same : other = addr
    · subst same
      rw [isAdapter] at here
      exact ⟨fun isNode => Bool.noConfusion (here.mp isNode), fun isNode => absurd isNode notNode⟩
    · exact others other same
  have leaf := docked.leaf_of_not_node notNode
  exact ⟨kept.departed { leaf with notNode := fun isNode => notNode ((nodeAt addr).mp isNode) }, nodeAt⟩

/-- The visa service is stored again when it is stored already, another adapter is not. -/
theorem Settled.addAdapterViaNode {via : IpAddr}
    (settled : Settled (fun _ => False) actor addr site next) (isAdapter : actor.isNode = false)
    (fine : answer.Fine) (isNode : site.NodeAt via)
    (once : addr = vsZprAddr → ∀ node, site.asm.connectionTable[vsZprAddr]? = some node → node = via) :
    ∃ result after, next.addAdapterViaNode answer actor addr via = (result, after) ∧
      after.Quiet ∧ after.asm.answer = site.asm.answer ∧
      (result ≠ .ok () → NetMgr.isPoolAddress addr = true → addr ∉ after.asm.actors) := by
  obtain ⟨docked, ⟨net, rfl⟩, own, -, adapter⟩ := settled
  obtain ⟨isNew, inUse, isVs⟩ := adapter isAdapter
  have notNode : ¬ site.NodeAt addr := by
    by_cases atVs : addr = vsZprAddr
    · exact atVs ▸ docked.vsAdapter
    · exact fun ⟨_, found, _⟩ => isNew atVs (HashMap.mem_of_get found)
  obtain ⟨stored, nodeAt⟩ := docked.insertAdapter isAdapter own notNode inUse
  unfold Site.addAdapterViaNode Assembly.addActor
  rw [fine.write, fine.dock]
  dsimp only
  split
  next failure asm isFailed =>
    refine ⟨_, _, rfl, ?_⟩
    split at isFailed
    next occupied =>
      cases isFailed
      refine ⟨docked, rfl, fun _ pool => isNew ?_⟩
      rintro rfl
      exact absurd pool (by decide)
    · cases isFailed
  next asm isAdded =>
    split at isAdded
    · cases isAdded
    cases isAdded
    rw [if_neg Bool.false_ne_true]
    refine ⟨_, _, rfl, ?_, rfl, fun failed => absurd rfl failed⟩
    refine stored.dock (Std.ExtTreeMap.mem_insert_self)
      (fun isNode => notNode ((nodeAt addr).mp isNode)) (.inr ((nodeAt via).mpr isNode))
      fun other found => ?_
    -- Nobody else is docked at a new address.
    by_cases atVs : addr = vsZprAddr
    · exact once atVs other (atVs ▸ found)
    · exact absurd (docked.stored addr other found).1 (isNew atVs)

theorem Docked.authorizeConnect {via : IpAddr} (docked : site.Quiet)
    (fine : answer.Fine) (isAnswer : site.asm.answer = answer.base) (isNode : site.NodeAt via)
    (apart : ∀ actor addr next,
      site.settle login answer.lookupFails = (.ok (actor, addr), next) → addr = vsZprAddr →
        actor.isNode = false ∧
          ∀ node, site.asm.connectionTable[vsZprAddr]? = some node → node = via) :
    (site.authorizeConnect login answer via).2.Quiet := by
  unfold Site.authorizeConnect
  split
  next failure failed isFailed =>
    rw [settle_error isFailed]
    exact docked
  next actor addr next isSettled =>
    have settled := docked.settle isSettled
    have once := apart actor addr next isSettled
    have sameAnswer : next.asm.answer = answer.base := by
      obtain ⟨net, rfl⟩ := settled.same
      exact isAnswer
    split
    next joins =>
      have ready : NodeReady actor addr next := settled.nodeReady fun atVs => by
        rw [(once atVs).1] at joins
        cases joins
      obtain ⟨result, after, isResult, quiet, answers, nodeOnly⟩ :=
        ready.addLinkedNode fine joins sameAnswer
      rw [isResult]
      split
      next failed isFailed =>
        cases isFailed
        exact quiet.releaseAddr fun _ => nodeOnly
      next failed isFailed =>
        cases isFailed
        exact quiet
      next stored isStored =>
        cases isStored
        exact quiet.enforce ((answers rfl).trans sameAnswer ▸ fine.base)
    next isAdapter =>
      obtain ⟨result, after, isResult, quiet, answers, absent⟩ := settled.addAdapterViaNode
        (Bool.eq_false_iff.mpr isAdapter) fine isNode fun atVs => (once atVs).2
      rw [isResult]
      split
      next failed isFailed =>
        cases isFailed
        exact quiet.releaseAddr fun pool stored => absurd stored (absent nofun pool)
      next stored isStored =>
        cases isStored
        exact quiet.enforce (answers.trans isAnswer ▸ fine.base)

/-! ### Runs -/

/-- No node connects at the address of the visa service, or afresh while the visa service is
docked at it; the visa service connects through the node at which it is docked, if any. -/
def DocksOnce (site : Site codec) : SiteEvent → Prop
  | .authenticate login answer reconnect _ _ =>
    ∀ actor addr next,
      (site.answering answer.base).settle login answer.lookupFails = (.ok (actor, addr), next) →
        addr ≠ vsZprAddr ∧
          (reconnect = false → site.asm.connectionTable[vsZprAddr]? ≠ some addr)
  | .authorizeConnect login answer via =>
    ∀ actor addr next,
      (site.answering answer.base).settle login answer.lookupFails = (.ok (actor, addr), next) →
        addr = vsZprAddr → actor.isNode = false ∧
          ∀ node, site.asm.connectionTable[vsZprAddr]? = some node → node = via
  | .disconnect _ _ => True

theorem docked_step {event : SiteEvent} (docked : site.Quiet) (fine : event.Fine)
    (once : site.DocksOnce event) (stepped : site.step event = some next) :
    next.Quiet := by
  have answering (answer : Answer) : (site.answering answer).Quiet :=
    docked.of_same rfl rfl rfl rfl rfl rfl rfl
  cases event with
  | authenticate login answer reconnect requested overLink =>
    cases stepped
    exact (answering answer.base).authenticate fine rfl once
  | authorizeConnect login answer via =>
    simp only [step, Option.ite_none_right_eq_some] at stepped
    obtain ⟨isNode, isNext⟩ := stepped
    cases isNext
    exact (answering answer.base).authorizeConnect fine rfl (Option.any_eq_true .. |>.mp isNode) once
  | disconnect answer addr =>
    cases stepped
    exact (answering answer).disconnect fine

/-- Nobody is docked, and at most the visa service is stored, at its usual address. -/
structure Idle (site : Site codec) : Prop where
  vsAddr : site.asm.vsAddr = vsZprAddr
  net : site.asm.net.Wf
  actors : ∀ (addr : IpAddr) (actor : Actor), site.asm.actors[addr]? = some actor →
    addr = vsZprAddr ∧ actor.zprAddr = some addr ∧ actor.isNode = false
  table : site.asm.connectionTable = ∅
  connections : site.asm.connections = ∅
  nodes : site.nodes = ∅

theorem Idle.docked (idle : site.Idle) : site.Quiet := by
  have notNode (addr : IpAddr) : ¬ site.NodeAt addr := by
    rintro ⟨actor, found, isNode⟩
    rw [(idle.actors addr actor found).2.2] at isNode
    cases isNode
  have undocked (addr node : IpAddr) : site.asm.connectionTable[addr]? ≠ some node := by
    rw [idle.table]
    simp
  refine ⟨idle.vsAddr, idle.net, fun addr actor found => (idle.actors addr actor found).2.1,
    notNode _, fun addr stored _ pool => ?_, fun addr isNode => absurd isNode (notNode addr),
    fun addr node => ⟨fun isDock => absurd isDock (undocked addr node), fun holds => ?_⟩,
    fun addr node isDock => absurd isDock (undocked addr node),
    fun addr node isDock => absurd isDock (undocked addr node),
    fun addr isNode => absurd isNode (notNode addr), fun node listed => ?_⟩
  · obtain ⟨actor, found⟩ := HashMap.get_of_mem stored
    rw [(idle.actors addr actor found).1] at pool
    exact absurd pool (by decide)
  · rw [idle.connections] at holds
    exact absurd holds (Rows.not_holds_empty node addr)
  · rw [idle.nodes] at listed
    exact absurd listed Std.ExtTreeSet.not_mem_empty

/-! ### Reading the table back -/

theorem get_foldl_insert (addrs : List IpAddr) (table : HashMap IpAddr IpAddr) (node addr : IpAddr) :
    (addrs.foldl (fun table addr => table.insert addr node) table)[addr]? =
      if addr ∈ addrs then some node else table[addr]? := by
  induction addrs generalizing table with
  | nil => simp
  | cons other rest ih =>
    rw [List.foldl_cons, ih, HashMap.get_insert]
    by_cases listed : addr ∈ rest
    · simp [listed]
    · simp [listed, eq_comm]

/-- Nothing is culled, and each adapter is docked where the stored connections say. -/
theorem refreshNodes_of_recent {stale : IpAddr → Bool} {nodes : List IpAddr}
    (reads : site.asm.answer.adaptersFail = false)
    (recent : ∀ node ∈ nodes, node ∈ site.asm.actors ∧ stale node = false)
    (unique : ∀ one two addr, site.asm.connections.Holds one addr →
      site.asm.connections.Holds two addr → one = two)
    (culled : List CulledNode) (table : HashMap IpAddr IpAddr) :
    ∃ after, site.refreshNodes stale nodes (culled, table) = (culled, after) ∧ ∀ addr : IpAddr,
      (∀ node ∈ nodes, site.asm.connections.Holds node addr → after[addr]? = some node) ∧
      ((∀ node ∈ nodes, ¬ site.asm.connections.Holds node addr) → after[addr]? = table[addr]?) := by
  induction nodes generalizing table with
  | nil => exact ⟨table, rfl, fun addr => ⟨nofun, fun _ => rfl⟩⟩
  | cons node rest ih =>
    obtain ⟨stored, seen⟩ := recent node List.mem_cons_self
    have goesOn : ¬ (node ∉ site.asm.actors ∨ stale node = true) := by
      rw [seen]
      simp [stored]
    obtain ⟨after, isAfter, docks⟩ := ih (fun other member =>
      recent other (List.mem_cons_of_mem _ member))
      ((site.dockedAt node).foldl (fun table addr => table.insert addr node) table)
    refine ⟨after, ?_, fun addr => ?_⟩
    · unfold refreshNodes
      rw [if_neg goesOn]
      exact isAfter
    have here : addr ∈ site.dockedAt node ↔ site.asm.connections.Holds node addr := by
      unfold dockedAt
      rw [reads, if_neg Bool.false_ne_true, SetOrder.mem_list, Rows.mem_row]
    obtain ⟨later, never⟩ := docks addr
    rw [get_foldl_insert] at never
    refine ⟨fun dock member holds => ?_, fun nowhere => ?_⟩
    · by_cases listed : ∃ other ∈ rest, site.asm.connections.Holds other addr
      · obtain ⟨other, inRest, holdsOther⟩ := listed
        obtain rfl := unique dock other addr holds holdsOther
        exact later dock inRest holdsOther
      · have listed : ∀ other ∈ rest, ¬ site.asm.connections.Holds other addr :=
          fun other inRest holds => listed ⟨other, inRest, holds⟩
        have isNode : dock = node :=
          (List.mem_cons.mp member).resolve_right fun inRest => listed dock inRest holds
        subst isNode
        rw [never listed, if_pos (here.mpr holds)]
    · rw [never fun other inRest => nowhere other (List.mem_cons_of_mem _ inRest),
        if_neg fun docked => nowhere node List.mem_cons_self (here.mp docked)]

theorem Docked.refreshState (docked : site.Quiet) {stale : IpAddr → Bool}
    (reads : site.asm.answer.adaptersFail = false)
    (recent : ∀ node ∈ site.nodes, stale node = false) :
    site.refreshState stale = ([], site.asm.connectionTable) := by
  have isNode (node : IpAddr) (listed : node ∈ site.nodes) : site.NodeAt node :=
    (docked.records node listed).resolve_left id
  obtain ⟨after, isAfter, docks⟩ := @refreshNodes_of_recent _ site stale
    (site.asm.answer.order.list site.nodes) reads
    (fun node member => by
      rw [SetOrder.mem_list] at member
      obtain ⟨actor, found, -⟩ := isNode node member
      exact ⟨HashMap.mem_of_get found, recent node member⟩)
    (fun one two addr holdsOne holdsTwo => by
      rw [← docked.table] at holdsOne holdsTwo
      exact Option.some.inj (holdsOne.symm.trans holdsTwo)) [] ∅
  unfold Site.refreshState
  rw [isAfter]
  congr 1
  refine Std.ExtTreeMap.ext_getElem? fun addr => ?_
  obtain ⟨somewhere, nowhere⟩ := docks addr
  cases isDock : site.asm.connectionTable[addr]? with
  | some node =>
    have known := (docked.known node ((docked.node addr node isDock).resolve_left id)).resolve_left id
    exact somewhere node (SetOrder.mem_list _ |>.mpr known.1) ((docked.table addr node).mp isDock)
  | none =>
    rw [nowhere fun node _ holds => by
      rw [← docked.table, isDock] at holds
      cases holds]
    simp

open SiteSample

/-- The visa service has authorized itself. -/
def selfStored : Site VisaCodec.plain :=
  { vacant with asm := { vacant.asm with
      actors := (∅ : HashMap IpAddr Actor).insert vsZprAddr
        (SiteSample.actor vsCn roleAdapter (some vsZprAddr)) } }

theorem selfStored_idle : selfStored.Idle := by
  refine ⟨rfl, ⟨rfl, rfl⟩, fun addr holder found => ?_, rfl, rfl, rfl⟩
  have found : ((∅ : HashMap IpAddr Actor).insert vsZprAddr
      (SiteSample.actor vsCn roleAdapter (some vsZprAddr)))[addr]? = some holder := found
  rcases HashMap.of_get_insert found with ⟨rfl, rfl⟩ | ⟨-, before⟩
  · exact ⟨rfl, rfl, by decide +kernel⟩
  · simp at before

theorem fine_fine : fine.Fine :=
  ⟨⟨rfl, fun _ => rfl, rfl, rfl, rfl, fun _ => rfl⟩, rfl, rfl, rfl, rfl, rfl, rfl, rfl, rfl, rfl⟩

/-- The gateway gets the visa service docked, and then connects afresh. -/
def anew : List SiteEvent := [gatewayJoins fine false, gatewayJoins fine false]

/-- The gateway connects, a printer through it, and the gateway reconnects. -/
def steady : List SiteEvent := [gatewayJoins fine false, printerJoins fine, gatewayJoins fine true]

theorem gatewayJoins_docksOnce {site : Site VisaCodec.plain}
    (apart : reconnect = false → site.asm.connectionTable[vsZprAddr]? ≠ some gatewayAddr) :
    site.DocksOnce (gatewayJoins fine reconnect) := by
  intro actor addr next settled
  rcases settle_ok settled with ⟨isPreset, -⟩ | ⟨noPreset, -⟩
  · cases isPreset
    exact ⟨by decide, apart⟩
  · cases noPreset

theorem printerJoins_docksOnce {site : Site VisaCodec.plain} (docked : site.Quiet) :
    site.DocksOnce (printerJoins fine) := by
  intro actor addr next settled atVs
  rcases settle_ok settled with ⟨isPreset, -⟩ | ⟨-, -, net, handed, -⟩
  · cases isPreset
  · obtain ⟨wf, -, inUse⟩ := NetMgr.getNextZprAddr_inUse docked.net net handed
    have pool := NetMgr.isPool_of_inUse wf ((inUse addr).mpr (.inr rfl))
    rw [atVs] at pool
    exact absurd pool (by decide)

theorem steady_docksOnce : Meets step DocksOnce selfStored steady := by
  have first : selfStored.DocksOnce (gatewayJoins fine false) :=
    gatewayJoins_docksOnce fun _ => by decide +kernel
  have isFine : (gatewayJoins fine false).Fine := fine_fine
  refine ⟨first, fun next stepped => ⟨?_, fun _ _ => ⟨gatewayJoins_docksOnce nofun, fun _ _ =>
    trivial⟩⟩⟩
  exact printerJoins_docksOnce (docked_step selfStored_idle.docked isFine first stepped)

end Site

end VisaService
