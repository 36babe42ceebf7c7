import VisaService.Assembly.Addresses

/-!
# The docking table and the stored connections

Who is docked where is recorded twice: in memory, by adapter, and in the database, by node.
`Docked` says that the two agree, and that stored adapters are docked at nodes with all their
records. An operation at a node keeps it apart from what it says about that node, and restores
the rest when it ends: `Docked.arrived` with the node in place, `Docked.departed` without it.
-/
namespace VisaService

open Lib NetMgr

variable {codec : VisaCodec}

/-! ### The invariant -/

namespace Site

def NodeAt (site : Site codec) (addr : IpAddr) : Prop :=
  ∃ actor, site.asm.actors[addr]? = some actor ∧ actor.isNode = true

/-- The table agrees with the stored connections. What is said about nodes is not said about
those at which an operation is going on. -/
structure Docked (changing : IpAddr → Prop) (site : Site codec) : Prop where
  vsAddr : site.asm.vsAddr = vsZprAddr
  net : site.asm.net.Wf
  own : ∀ (addr : IpAddr) (actor : Actor), site.asm.actors[addr]? = some actor →
    actor.zprAddr = some addr
  vsAdapter : ¬ site.NodeAt vsZprAddr
  /-- An adapter has the address of its pool in use. -/
  inUse : ∀ addr ∈ site.asm.actors, ¬ site.NodeAt addr → isPoolAddress addr = true →
    site.asm.net.InUse addr
  apart : ∀ addr, site.NodeAt addr → isAdapterAddress addr = false
  table : ∀ addr node : IpAddr, site.asm.connectionTable[addr]? = some node ↔
    site.asm.connections.Holds node addr
  stored : ∀ addr node : IpAddr, site.asm.connectionTable[addr]? = some node →
    addr ∈ site.asm.actors ∧ ¬ site.NodeAt addr
  node : ∀ addr node : IpAddr, site.asm.connectionTable[addr]? = some node →
    changing node ∨ site.NodeAt node
  known : ∀ node, site.NodeAt node → changing node ∨ node ∈ site.nodes ∧ node ∈ site.router
  records : ∀ node ∈ site.nodes, changing node ∨ site.NodeAt node

/-- Nobody is a node at the address or docked at it. -/
structure Leaf (site : Site codec) (addr : IpAddr) : Prop where
  notNode : ¬ site.NodeAt addr
  unlisted : addr ∉ site.nodes
  undocked : ∀ other : IpAddr, site.asm.connectionTable[other]? ≠ some addr

/-- No operation is going on. -/
abbrev Quiet (site : Site codec) : Prop := site.Docked fun _ => False

variable {site next : Site codec} {changing : IpAddr → Prop} {addr : IpAddr}

theorem Docked.mono {more : IpAddr → Prop} (docked : site.Docked changing)
    (weaker : ∀ node, changing node → more node) : site.Docked more :=
  { docked with
    node := fun addr node found => (docked.node addr node found).imp_left (weaker node)
    known := fun node isNode => (docked.known node isNode).imp_left (weaker node)
    records := fun node listed => (docked.records node listed).imp_left (weaker node) }

theorem Docked.enter (docked : site.Docked changing) (addr : IpAddr) :
    site.Docked fun node => changing node ∨ node = addr :=
  docked.mono fun _ => .inl

variable (docked : site.Docked fun node => changing node ∨ node = addr)
include docked

theorem Docked.ended
    (isDocked : ∀ other : IpAddr, site.asm.connectionTable[other]? = some addr → site.NodeAt addr)
    (isKnown : site.NodeAt addr → addr ∈ site.nodes ∧ addr ∈ site.router)
    (isRecorded : addr ∈ site.nodes → site.NodeAt addr) : site.Docked changing := by
  refine { docked with
    node := fun other node found => ?_
    known := fun node isNode => ?_
    records := fun node listed => ?_ }
  · rcases docked.node other node found with (changes | rfl) | isNode
    · exact .inl changes
    · exact .inr (isDocked other found)
    · exact .inr isNode
  · rcases docked.known node isNode with (changes | rfl) | known
    · exact .inl changes
    · exact .inr (isKnown isNode)
    · exact .inr known
  · rcases docked.records node listed with (changes | rfl) | isNode
    · exact .inl changes
    · exact .inr (isRecorded listed)
    · exact .inr isNode

theorem Docked.arrived
    (isNode : site.NodeAt addr) (listed : addr ∈ site.nodes) (routed : addr ∈ site.router) :
    site.Docked changing :=
  docked.ended (fun _ _ => isNode) (fun _ => ⟨listed, routed⟩) fun _ => isNode

theorem Docked.departed (leaf : site.Leaf addr) : site.Docked changing :=
  docked.ended (fun other found => absurd found (leaf.undocked other))
    (fun isNode => absurd isNode leaf.notNode) fun listed => absurd listed leaf.unlisted

omit docked

theorem Docked.leaf (docked : site.Quiet) {node : IpAddr}
    (found : site.asm.connectionTable[addr]? = some node) : site.Leaf addr where
  notNode := (docked.stored addr node found).2
  unlisted listed :=
    (docked.records addr listed).elim id (docked.stored addr node found).2
  undocked other isDock :=
    (docked.node other addr isDock).elim id (docked.stored addr node found).2

theorem Docked.leaf_of_not_node (docked : site.Quiet)
    (notNode : ¬ site.NodeAt addr) : site.Leaf addr where
  notNode := notNode
  unlisted listed := (docked.records addr listed).elim id notNode
  undocked other isDock := (docked.node other addr isDock).elim id notNode

theorem Docked.of_same (docked : site.Docked changing) (vsAddr : next.asm.vsAddr = site.asm.vsAddr)
    (net : next.asm.net = site.asm.net) (actors : next.asm.actors = site.asm.actors)
    (table : next.asm.connectionTable = site.asm.connectionTable)
    (connections : next.asm.connections = site.asm.connections) (nodes : next.nodes = site.nodes)
    (router : next.router = site.router) : next.Docked changing := by
  have sameNode (addr : IpAddr) : next.NodeAt addr ↔ site.NodeAt addr := by
    unfold NodeAt
    rw [actors]
  obtain ⟨vs, wf, own, vsAdapter, inUse, apart, docks, stored, node, known, records⟩ := docked
  constructor <;> simp only [vsAddr, net, actors, table, connections, nodes, router, sameNode] <;>
    assumption

/-- Only the records of one address change, and docks only get fewer. -/
theorem Docked.touch (docked : site.Docked fun node => changing node ∨ node = addr)
    (vsAddr : next.asm.vsAddr = site.asm.vsAddr) (net : next.asm.net = site.asm.net)
    (others : ∀ other : IpAddr, other ≠ addr → next.asm.actors[other]? = site.asm.actors[other]?)
    (own : ∀ actor : Actor, next.asm.actors[addr]? = some actor → actor.zprAddr = some addr)
    (notVs : addr = vsZprAddr → ¬ next.NodeAt addr)
    (inUse : addr ∈ next.asm.actors → ¬ next.NodeAt addr → isPoolAddress addr = true →
      site.asm.net.InUse addr)
    (apart : next.NodeAt addr → isAdapterAddress addr = false)
    (docks : ∀ other node : IpAddr, next.asm.connectionTable[other]? = some node →
      site.asm.connectionTable[other]? = some node)
    (table : ∀ other node : IpAddr, next.asm.connectionTable[other]? = some node ↔
      next.asm.connections.Holds node other)
    (stored : ∀ node : IpAddr, next.asm.connectionTable[addr]? = some node →
      addr ∈ next.asm.actors ∧ ¬ next.NodeAt addr)
    (nodes : ∀ node, node ≠ addr → (node ∈ next.nodes ↔ node ∈ site.nodes))
    (router : ∀ node, node ≠ addr → node ∈ site.router → node ∈ next.router) :
    next.Docked fun node => changing node ∨ node = addr := by
  have nodeAt {other : IpAddr} (differs : other ≠ addr) : next.NodeAt other ↔ site.NodeAt other := by
    unfold NodeAt
    rw [others other differs]
  have member {other : IpAddr} (differs : other ≠ addr) :
      other ∈ next.asm.actors ↔ other ∈ site.asm.actors := by
    simp only [Std.ExtTreeMap.mem_iff_isSome_getElem?, others other differs]
  -- Each field holds at the address by a hypothesis, and elsewhere because it did.
  refine ⟨vsAddr.trans docked.vsAddr, net ▸ docked.net, fun other actor isActor => ?_,
    fun isNode => ?_, fun other isStored notNode pool => ?_, fun other isNode => ?_, table,
    fun other node isDock => ?_, fun other node isDock => ?_, fun node isNode => ?_,
    fun node listed => ?_⟩
  · by_cases same : other = addr
    · subst same
      exact own actor isActor
    · exact docked.own other actor ((others other same).symm.trans isActor)
  · by_cases same : vsZprAddr = addr
    · exact notVs same.symm (same ▸ isNode)
    · exact docked.vsAdapter ((nodeAt same).mp isNode)
  · rw [net]
    by_cases same : other = addr
    · subst same
      exact inUse isStored notNode pool
    · exact docked.inUse other ((member same).mp isStored)
        (fun isNode => notNode ((nodeAt same).mpr isNode)) pool
  · by_cases same : other = addr
    · subst same
      exact apart isNode
    · exact docked.apart other ((nodeAt same).mp isNode)
  · by_cases same : other = addr
    · subst same
      exact stored node isDock
    · obtain ⟨isStored, notNode⟩ := docked.stored other node (docks other node isDock)
      exact ⟨(member same).mpr isStored, fun isNode => notNode ((nodeAt same).mp isNode)⟩
  · by_cases same : node = addr
    · exact .inl (.inr same)
    · exact (docked.node other node (docks other node isDock)).imp_right (nodeAt same).mpr
  · by_cases same : node = addr
    · exact .inl (.inr same)
    · exact (docked.known node ((nodeAt same).mp isNode)).imp_right fun ⟨listed, routed⟩ =>
        ⟨(nodes node same).mpr listed, router node same routed⟩
  · by_cases same : node = addr
    · exact .inl (.inr same)
    · exact (docked.records node ((nodes node same).mp listed)).imp_right (nodeAt same).mpr

/-! ### Removals -/

/-- What is left when the record of an actor is removed without failures. -/
structure Removed (addr : IpAddr) (asm removed : Assembly codec) : Prop where
  vsAddr : removed.vsAddr = asm.vsAddr
  answer : removed.answer = asm.answer
  net : removed.net = asm.net
  actors : removed.actors = asm.actors.erase addr
  table : ∀ other : IpAddr, removed.connectionTable[other]? =
    if addr = other then none else asm.connectionTable[other]?
  connections : ∀ node other : IpAddr, removed.connections.Holds node other ↔
    asm.connections.Holds node other ∧ ¬ (addr = other ∧ asm.connectionTable[addr]? = some node)

theorem removed_of_fine {asm : Assembly codec} (fine : asm.answer.Fine) (addr : IpAddr) :
    ∃ removed, asm.removeActorByZprAddr addr = (.ok (), removed) ∧ Removed addr asm removed := by
  unfold Assembly.removeActorByZprAddr
  rw [fine.removes addr]
  dsimp only
  split
  next noDock =>
    refine ⟨_, rfl, rfl, rfl, rfl, rfl, fun other => ?_, fun node other => ?_⟩
    · dsimp only
      split
      next same =>
        rw [← same]
        exact noDock
      · rfl
    · simp [noDock]
  next dock isDock =>
    refine ⟨_, rfl, rfl, rfl, rfl, rfl, fun other => HashMap.get_erase .., fun node other => ?_⟩
    dsimp only
    rw [fine.unlists, if_neg Bool.false_ne_true, Rows.holds_drop, isDock, Option.some.injEq]
    tauto

section Removed

variable {removed : Assembly codec} {node other : IpAddr}

theorem Removed.forgets {asm : Assembly codec} (isRemoved : Removed addr asm removed) :
    Removed addr asm (removed.forgetRevisions addr) :=
  { isRemoved with }

theorem Removed.not_mem {asm : Assembly codec} (isRemoved : Removed addr asm removed) :
    addr ∉ removed.actors := by
  rw [isRemoved.actors]
  exact fun member => (HashMap.mem_erase.mp member).2 rfl

theorem Removed.found {asm : Assembly codec} (isRemoved : Removed addr asm removed)
    (isDock : removed.connectionTable[other]? = some node) :
    other ≠ addr ∧ asm.connectionTable[other]? = some node := by
  rw [isRemoved.table] at isDock
  split at isDock
  · cases isDock
  next differs => exact ⟨Ne.symm differs, isDock⟩

theorem Removed.nodeAt (isRemoved : Removed addr site.asm removed) :
    NodeAt { site with asm := removed } other ↔ site.NodeAt other ∧ other ≠ addr := by
  unfold NodeAt
  rw [isRemoved.actors, HashMap.get_erase]
  by_cases same : addr = other
  · simp [same]
  · simp [same, Ne.symm same]

theorem Removed.leaf (isRemoved : Removed addr site.asm removed) (leaf : site.Leaf other) :
    Leaf { site with asm := removed } other :=
  ⟨fun isNode => leaf.notNode (isRemoved.nodeAt.mp isNode).1, leaf.unlisted,
    fun docked isDock => leaf.undocked docked (isRemoved.found isDock).2⟩

end Removed

theorem Docked.removed (docked : site.Docked changing) {removed : Assembly codec}
    (isRemoved : Removed addr site.asm removed) :
    Docked (fun node => changing node ∨ node = addr) { site with asm := removed } := by
  have entered := docked.enter addr
  have found (other : IpAddr) : removed.actors[other]? =
      if addr = other then none else site.asm.actors[other]? :=
    isRemoved.actors ▸ HashMap.get_erase ..
  have notNode : ¬ NodeAt { site with asm := removed } addr := fun isNode =>
    (isRemoved.nodeAt.mp isNode).2 rfl
  refine entered.touch isRemoved.vsAddr isRemoved.net
    (fun other differs => (found other).trans (if_neg (Ne.symm differs))) (fun actor isActor => ?_)
    (fun _ => notNode) (fun stored => absurd stored isRemoved.not_mem)
    (fun isNode => absurd isNode notNode) (fun other node isDock => (isRemoved.found isDock).2)
    (fun other node => ?_) (fun node isDock => absurd rfl (isRemoved.found isDock).1)
    (fun _ _ => .rfl) fun _ _ => id
  · rw [found, if_pos rfl] at isActor
    cases isActor
  · rw [isRemoved.table, isRemoved.connections, ← docked.table]
    by_cases same : addr = other
    · subst same
      simp
    · simp [same]

theorem Docked.releaseAddr (docked : site.Docked changing)
    (free : isPoolAddress addr = true → addr ∈ site.asm.actors → site.NodeAt addr) :
    (site.releaseAddr addr).Docked changing := by
  unfold Site.releaseAddr
  obtain ⟨net, isReleased, same | released⟩ := site.asm.releaseAddr_cases addr
  · rw [isReleased]
    exact docked.of_same rfl same rfl rfl rfl rfl rfl
  · rw [isReleased]
    obtain ⟨wf, inUse⟩ := releaseZprAddr_inUse docked.net released
    refine { docked with net := wf, inUse := fun other stored notNode pool => ?_ }
    refine (inUse other).mpr ⟨docked.inUse other stored notNode pool, ?_⟩
    rintro rfl
    exact notNode (free pool stored)

/-- What the removal of adapters leaves of the docks. -/
structure Undocks (addrs : List IpAddr) (asm left : Assembly codec) : Prop where
  table : ∀ other node : IpAddr, left.connectionTable[other]? = some node →
    asm.connectionTable[other]? = some node ∧ (other ∈ addrs → other = asm.vsAddr)
  answer : left.answer = asm.answer
  actors : ∀ other : IpAddr, other ∉ addrs → left.actors[other]? = asm.actors[other]?

theorem Docked.removeDepartedAdapters {addrs : List IpAddr} (docked : site.Docked changing)
    (fine : site.asm.answer.Fine) (leaves : ∀ addr ∈ addrs, site.Leaf addr) :
    Docked changing { site with asm := (site.asm.removeDepartedAdapters addrs).2 } ∧
      Undocks addrs site.asm (site.asm.removeDepartedAdapters addrs).2 := by
  induction addrs generalizing site with
  | nil => exact ⟨docked, ⟨fun _ _ isDock => ⟨isDock, nofun⟩, rfl, fun _ _ => rfl⟩⟩
  | cons addr rest ih =>
    have others : ∀ addr ∈ rest, site.Leaf addr := fun other member =>
      leaves other (List.mem_cons_of_mem _ member)
    unfold Assembly.removeDepartedAdapters
    split
    next isVs =>
      obtain ⟨kept, table, answer, actors⟩ := ih docked fine others
      refine ⟨kept, fun other node isDock => ?_, answer, fun other absent => ?_⟩
      · obtain ⟨isDock, onlyVs⟩ := table other node isDock
        refine ⟨isDock, fun member => ?_⟩
        rcases List.mem_cons.mp member with rfl | member
        · exact isVs
        · exact onlyVs member
      · exact actors other fun member => absent (List.mem_cons_of_mem _ member)
    · obtain ⟨removed, isOk, isRemoved⟩ := removed_of_fine fine addr
      obtain ⟨net, isReleased, -⟩ := (removed.forgetRevisions addr).releaseAddr_cases addr
      have released : Docked (fun node => changing node ∨ node = addr)
          { site with asm := (removed.forgetRevisions addr).releaseAddr addr } :=
        (docked.removed isRemoved.forgets).releaseAddr fun _ stored => absurd stored isRemoved.not_mem
      rw [isOk]
      dsimp only
      rw [isReleased] at released ⊢
      have stillLeaf {other : IpAddr} (leaf : site.Leaf other) :
          Leaf { site with asm := { removed.forgetRevisions addr with net } } other :=
        have left := isRemoved.leaf leaf
        { left with }
      obtain ⟨kept, table, answer, actors⟩ :=
        ih (released.departed (stillLeaf (leaves addr List.mem_cons_self)))
          (isRemoved.answer ▸ fine) fun other member => stillLeaf (others other member)
      refine ⟨kept, fun other node isDock => ?_, answer.trans isRemoved.answer,
        fun other absent => ?_⟩
      · obtain ⟨isDock, onlyVs⟩ := table other node isDock
        obtain ⟨differs, isDock⟩ := isRemoved.found isDock
        refine ⟨isDock, fun member => isRemoved.vsAddr ▸ onlyVs ?_⟩
        exact (List.mem_cons.mp member).resolve_left differs
      · obtain ⟨differs, absent⟩ := not_or.mp (List.mem_cons.not.mp absent)
        refine (actors other absent).trans ?_
        change removed.actors[other]? = _
        rw [isRemoved.actors, HashMap.get_erase, if_neg (Ne.symm differs)]

theorem Docked.removeNode (docked : site.Docked fun node => changing node ∨ node = addr)
    {router : HashSet IpAddr} (routed : ∀ node ∈ site.router, node ≠ addr → node ∈ router) :
    let gone : Site codec :=
      { asm := site.asm.removeNode addr, nodes := site.nodes.erase addr, router := router }
    gone.Docked (fun node => changing node ∨ node = addr) ∧ addr ∉ gone.nodes ∧
      ∀ other : IpAddr, gone.asm.connectionTable[other]? ≠ some addr := by
  have found {other node : IpAddr} := @Assembly.get_removeNode _ site.asm addr other node
  refine ⟨docked.touch rfl rfl (fun _ _ => rfl) (docked.own addr) (fun same => same ▸ docked.vsAdapter)
    (docked.inUse addr) (docked.apart addr) (fun other node isDock => (found.mp isDock).1)
    (fun other node => ?_) (fun node isDock => docked.stored addr node (found.mp isDock).1)
    (fun node differs => ?_) fun node differs isRouted => routed node isRouted differs,
    fun member => (HashSet.mem_erase.mp member).2 rfl, fun other isDock => (found.mp isDock).2 rfl⟩
  · rw [found, docked.table, and_comm]
    exact Rows.holds_erase.symm
  · exact HashSet.mem_erase.trans (and_iff_left differs)

theorem Docked.finishDisconnect {asm : Assembly codec} {nodes router : HashSet IpAddr}
    (docked : Docked changing ⟨asm, nodes, router⟩) (absent : addr ∉ asm.actors)
    (departed : List IpAddr) : Docked changing ⟨asm.finishDisconnect addr departed, nodes, router⟩ :=
  have revoked : Docked changing ⟨{ asm with
      visas := asm.visas.removeVisasForActors asm.answer.redis departed }, nodes, router⟩ :=
    docked.of_same rfl rfl rfl rfl rfl rfl rfl
  revoked.releaseAddr fun _ stored => absurd stored absent

theorem Docked.disconnect (docked : site.Quiet) (fine : site.asm.answer.Fine) :
    (site.disconnect addr).2.Quiet := by
  obtain ⟨removed, isOk, isRemoved⟩ := removed_of_fine fine addr
  replace isRemoved := isRemoved.forgets
  have isFirst : site.asm.removeDisconnected addr = removed.forgetRevisions addr := by
    unfold Assembly.removeDisconnected
    rw [isOk]
  have first := docked.removed isRemoved
  unfold Site.disconnect
  rcases site.asm.disconnect_cases addr with ⟨-, fails⟩ | ⟨reads, isAdapter, isDone⟩ |
      ⟨reads, isNode, docks, departed, left, isDocks, isLeft, ended⟩
  · rw [fine.reads] at fails
    cases fails
  -- An adapter goes alone; a node goes with the adapters that are docked at it.
  · have wasAdapter : ¬ site.NodeAt addr := by
      rintro ⟨actor, isActor, isNode⟩
      simp [isActor, isNode] at isAdapter
    have notAny : site.asm.actors[addr]?.any Actor.isNode = false := by
      cases isActor : site.asm.actors[addr]? with
      | none => rfl
      | some actor => simpa [isActor] using isAdapter
    have left : Quiet { site with asm := removed.forgetRevisions addr } :=
      first.departed (isRemoved.leaf (docked.leaf_of_not_node wasAdapter))
    rw [isDone, isFirst]
    simp only [notAny, Bool.and_false, Bool.false_and, Bool.false_eq_true, if_false]
    exact left.finishDisconnect isRemoved.not_mem _
  · rw [isFirst, fine.adapters, if_neg Bool.false_ne_true] at isDocks
    have leaves : ∀ other ∈ docks,
        Leaf { site with asm := removed.forgetRevisions addr } other := by
      intro other member
      rw [isDocks, SetOrder.mem_list, Rows.mem_row, ← first.table] at member
      exact isRemoved.leaf (docked.leaf (isRemoved.found member).2)
    obtain ⟨kept, undocks⟩ := first.removeDepartedAdapters (isRemoved.answer ▸ fine) leaves
    have fewer := Assembly.shrinks.removeDepartedAdapters (removed.forgetRevisions addr) docks
    dsimp only at kept
    rw [isFirst] at isLeft
    rw [isLeft] at kept fewer
    have isGone : addr ∉ left.actors := fun stored => isRemoved.not_mem (fewer.mem stored)
    obtain ⟨dropped, unlisted, undocked⟩ := @Docked.removeNode _ { site with asm := left } _ addr
      kept (site.router.erase addr) fun node routed differs =>
        HashSet.mem_erase.mpr ⟨routed, differs⟩
    rcases ended with ⟨fails, -⟩ | ⟨-, isDone⟩
    · rw [fine.node] at fails
      cases fails
    · have quiet := dropped.departed ⟨fun ⟨actor, isActor, _⟩ =>
        isGone (HashMap.mem_of_get isActor), unlisted, undocked⟩
      rw [isDone]
      simp only [reads, isNode, fine.node, Bool.not_false, Bool.and_self, if_true]
      apply Docked.finishDisconnect
      · exact quiet.of_same rfl rfl rfl rfl rfl rfl rfl
      · exact isGone

/-! ### Arrivals -/

variable {login : Login} {answer : ConnectAnswer} {actor : Actor}

theorem isNode_withZprAddr (actor : Actor) (now : Nat) (addr : IpAddr) :
    (actor.withZprAddr now addr).isNode = actor.isNode := by
  have same : (actor.withZprAddr now addr).attrs[Key.role]? = actor.attrs[Key.role]? :=
    (HashMap.get_insert ..).trans (if_neg (by decide))
  simp only [Actor.isNode, Actor.single, same]

/-- Who may be stored at a settled address: for a node another node or nobody, for an adapter
nobody, apart from the visa service itself. -/
structure Settled (changing : IpAddr → Prop) (actor : Actor) (addr : IpAddr)
    (site next : Site codec) : Prop where
  docked : next.Docked changing
  same : ∃ net, next = { site with asm := { site.asm with net } }
  own : actor.zprAddr = some addr
  node : actor.isNode = true → addr ≠ vsZprAddr →
    (addr ∈ site.asm.actors → site.NodeAt addr) ∧ isAdapterAddress addr = false
  adapter : actor.isNode = false → (addr ≠ vsZprAddr → addr ∉ site.asm.actors) ∧
    (isPoolAddress addr = true → next.asm.net.InUse addr) ∧
    (addr = vsZprAddr → isVisaService addr actor = true)

theorem Docked.settle (docked : site.Docked changing) {lookupFails : Bool}
    (settled : site.settle login lookupFails = (.ok (actor, addr), next)) :
    Settled changing actor addr site next := by
  have isAddr := zprAddr_of_settle_ok settled
  rcases settle_ok settled with ⟨-, rfl, rfl, ways⟩ | ⟨-, isActor, net, handed, rfl⟩
  · refine ⟨docked, ⟨_, rfl⟩, isAddr, fun isNode notVs => ?_, fun isAdapter => ?_⟩
    · rcases ways with ⟨holder, found, retakes⟩ | ⟨absent, unmanaged, -⟩
      · have holderNode : next.NodeAt addr := by
          refine ⟨holder, found, ?_⟩
          simp [mayRetake, authEnv, docked.vsAddr, notVs] at retakes
          exact retakes.1.1.1
        exact ⟨fun _ => holderNode, docked.apart addr holderNode⟩
      · refine ⟨fun stored => absurd stored absent, Bool.eq_false_iff.mpr fun inAdapters => ?_⟩
        rw [isManaged_of_isPool (isPool_of_isAdapter inAdapters)] at unmanaged
        cases unmanaged
    · rcases ways with ⟨holder, found, retakes⟩ | ⟨absent, unmanaged, onlyVs⟩
      · simp [mayRetake, authEnv, docked.vsAddr, isAdapter] at retakes
        obtain ⟨⟨isVs, -⟩, isCn⟩ := retakes
        refine ⟨fun notVs => absurd isVs notVs, fun pool => ?_, fun _ => ?_⟩
        · rw [isVs] at pool
          exact absurd pool (by decide)
        · simp [isVisaService, isVs, isCn]
      · refine ⟨fun _ => absent, fun pool => ?_, fun isVs => ?_⟩
        · rw [isManaged_of_isPool pool] at unmanaged
          cases unmanaged
        · simp [isVisaService, isVs, onlyVs (isVs.trans docked.vsAddr.symm)]
  · obtain ⟨wf, free, inUse⟩ := getNextZprAddr_inUse docked.net net handed
    have isRole := getNextZprAddr_role docked.net handed
    have pool : isPoolAddress addr = true :=
      isPool_of_inUse wf ((inUse addr).mpr (.inr rfl))
    have sameRole : login.actor.isNode = actor.isNode := by
      rw [isActor, isNode_withZprAddr]
    rw [sameRole] at isRole
    -- An adapter at the address would have it in use.
    have nodeOnly (stored : addr ∈ site.asm.actors) : site.NodeAt addr := by
      by_contra notNode
      exact free (docked.inUse addr stored notNode pool)
    refine ⟨?_, ⟨net, rfl⟩, isAddr, fun isNode _ => ⟨nodeOnly, ?_⟩, fun isAdapter => ⟨?_, ?_, ?_⟩⟩
    · refine { docked with net := wf, inUse := fun other stored notNode pool => ?_ }
      exact (inUse other).mpr (.inl (docked.inUse other stored notNode pool))
    · exact Bool.eq_false_iff.mpr fun inAdapters => by simp [isNode, isRole] at inAdapters
    · intro _ stored
      have inAdapters := isRole.mpr (by rw [isAdapter]; rfl)
      rw [docked.apart addr (nodeOnly stored)] at inAdapters
      cases inAdapters
    · exact fun _ => (inUse addr).mpr (.inr rfl)
    · intro isVs
      rw [isVs] at pool
      exact absurd pool (by decide)

theorem Docked.record (docked : site.Docked fun node => changing node ∨ node = addr)
    (own : actor.zprAddr = some addr)
    (node : actor.isNode = true → addr ≠ vsZprAddr ∧ isAdapterAddress addr = false ∧
      (addr ∈ site.asm.actors → site.NodeAt addr))
    (adapter : actor.isNode = false → ¬ site.NodeAt addr ∧
      (isPoolAddress addr = true → site.asm.net.InUse addr))
    {connections : Rows IpAddr IpAddr} {nodes : HashSet IpAddr}
    (sameDocks : ∀ node other, connections.Holds node other ↔ site.asm.connections.Holds node other)
    (sameNodes : ∀ node, node ≠ addr → (node ∈ nodes ↔ node ∈ site.nodes)) :
    let stored : Site codec :=
      { asm := { site.asm with connections, actors := site.asm.actors.insert addr actor }
        nodes := nodes
        router := site.router }
    (stored.Docked fun node => changing node ∨ node = addr) ∧
      (stored.NodeAt addr ↔ actor.isNode = true) ∧
      ∀ other, other ≠ addr → (stored.NodeAt other ↔ site.NodeAt other) := by
  intro stored
  have found (other : IpAddr) : stored.asm.actors[other]? =
      if addr = other then some actor else site.asm.actors[other]? := HashMap.get_insert ..
  have here : stored.NodeAt addr ↔ actor.isNode = true := by
    unfold NodeAt
    rw [found, if_pos rfl]
    simp
  have nodeAt (other : IpAddr) (differs : other ≠ addr) :
      stored.NodeAt other ↔ site.NodeAt other := by
    unfold NodeAt
    rw [found, if_neg (Ne.symm differs)]
  have adapterHere (notNode : ¬ stored.NodeAt addr) : actor.isNode = false :=
    Bool.eq_false_iff.mpr fun isNode => notNode (here.mpr isNode)
  refine ⟨docked.touch rfl rfl (fun other differs => (found other).trans (if_neg (Ne.symm differs)))
    (fun other isOther => ?_) (fun same isNode => (node (here.mp isNode)).1 same)
    (fun _ notNode => (adapter (adapterHere notNode)).2) (fun isNode => (node (here.mp isNode)).2.1)
    (fun _ _ => id) (fun other node => (docked.table other node).trans (sameDocks node other).symm)
    (fun dock isDock => ?_) sameNodes fun _ _ => id, here, nodeAt⟩
  · rw [found, if_pos rfl] at isOther
    cases isOther
    exact own
  · obtain ⟨isStored, notNode⟩ := docked.stored addr dock isDock
    exact ⟨Std.ExtTreeMap.mem_insert_self, fun isNode => notNode ((node (here.mp isNode)).2.2 isStored)⟩

theorem Docked.dock (docked : site.Docked changing) {node : IpAddr} (stored : addr ∈ site.asm.actors)
    (notNode : ¬ site.NodeAt addr) (isNode : changing node ∨ site.NodeAt node)
    (once : ∀ other, site.asm.connectionTable[addr]? = some other → other = node) :
    Docked changing { site with asm := site.asm.dock node addr } := by
  have found (other : IpAddr) : (site.asm.dock node addr).connectionTable[other]? =
      if addr = other then some node else site.asm.connectionTable[other]? := HashMap.get_insert ..
  refine { docked with
    table := fun other dock => ?_
    stored := fun other dock isDock => ?_
    node := fun other dock isDock => ?_ }
  · have holds : (site.asm.dock node addr).connections.Holds dock other ↔
        (dock = node ∧ other = addr) ∨ site.asm.connections.Holds dock other := Rows.holds_add ..
    rw [found, holds, ← docked.table]
    by_cases same : addr = other
    · subst same
      simp only [if_true, Option.some.injEq, and_true]
      exact ⟨fun isDock => .inl isDock.symm, fun ways => ways.elim Eq.symm fun isDock =>
        (once dock isDock).symm⟩
    · simp [same, Ne.symm same]
  · rw [found] at isDock
    split at isDock
    next same => exact same ▸ ⟨stored, notNode⟩
    · exact docked.stored other dock isDock
  · rw [found] at isDock
    split at isDock
    next same =>
      cases isDock
      exact isNode
    · exact docked.node other dock isDock

/-- A node may be missing from the router while an operation is going on at it. -/
theorem Docked.reroute (docked : site.Docked fun node => changing node ∨ node = addr)
    {router : HashSet IpAddr} (routed : ∀ node ∈ site.router, node ≠ addr → node ∈ router) :
    Docked (fun node => changing node ∨ node = addr) { site with router } := by
  refine { docked with known := fun node isNode => ?_ }
  by_cases same : node = addr
  · exact .inl (.inr same)
  · exact (docked.known node isNode).imp_right fun ⟨listed, isRouted⟩ =>
      ⟨listed, routed node isRouted same⟩

end Site

end VisaService
