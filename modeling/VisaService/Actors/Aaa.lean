import VisaService.Visa.Request
import VisaService.Eval.Actor
import VisaService.Lib.Run

/-!
# AAA addresses

An adapter that has yet to authenticate uses an AAA address, from a network that is numbered by
the ZPR address of its node. When the node asks for a visa from such an address to an
authentication service, the address is registered as docked at the node; later the table says
which node the answers go to, and which node may disconnect it.

Main results: `aaa_exclusive` and `address_moved`.
-/
namespace VisaService

open Lib

/-! ### Networks -/

structure Ipv6Net where
  addr : BitVec 128
  prefixLen : Nat
  deriving DecidableEq

/-- The number that the addresses of the network begin with. -/
def Ipv6Net.number (net : Ipv6Net) : Nat := net.addr.toNat / 2 ^ (128 - net.prefixLen)

/-- The crate `ipnet`, as it is documented. -/
class IpNet where
  contains : Ipv6Net → BitVec 128 → Bool
  contains_iff (net : Ipv6Net) (bits : BitVec 128) :
    contains net bits = true ↔ bits.toNat / 2 ^ (128 - net.prefixLen) = net.number

/-- There is such a crate. -/
instance IpNet.documented : IpNet :=
  ⟨fun net bits => bits.toNat / 2 ^ (128 - net.prefixLen) = net.number, fun _ _ =>
    decide_eq_true_iff⟩

def Ipv6Net.contains [IpNet] (net : Ipv6Net) : IpAddr → Bool
  | .v6 bits => IpNet.contains net bits
  | .v4 _ => false

/-- `Ipv6Addr::from` eight segments. -/
def ipv6OfSegments (segments : List (BitVec 16)) : BitVec 128 :=
  BitVec.ofNat 128 (segments.foldl (fun bits segment => bits * 2 ^ 16 + segment.toNat) 0)

def aaaNetSegments : List (BitVec 16) := [0xfd5a, 0x5052, 0, 0x0aaa, 0, 0, 0, 0]

def aaaNet : Ipv6Net := ⟨ipv6OfSegments aaaNetSegments, 64⟩

def nodeAaaPrefixLen : Nat := 88

/-- The low 24 bits of the node's address. -/
def nodeIdForNode : IpAddr → BitVec 32
  | .v4 bits => bits &&& 0x00ffffff
  | .v6 bits => bits.setWidth 32 &&& 0x00ffffff

def aaaNetworkForNode (node : IpAddr) : Ipv6Net :=
  let nodeId := nodeIdForNode node
  let segments := (aaaNetSegments.set 4 ((nodeId >>> 8).setWidth 16)).set 5
    ((nodeId <<< 8).setWidth 16)
  ⟨ipv6OfSegments segments, nodeAaaPrefixLen⟩

theorem nodeIdForNode_lt (node : IpAddr) : (nodeIdForNode node).toNat < 2 ^ 24 := by
  have mask (bits : BitVec 32) : (bits &&& 0x00ffffff).toNat < 2 ^ 24 := by
    rw [BitVec.toNat_and]
    exact Nat.lt_of_le_of_lt Nat.and_le_right (by decide)
  cases node with
  | v4 bits => exact mask bits
  | v6 bits => exact mask _

theorem aaaNetworkForNode_number (node : IpAddr) :
    (aaaNetworkForNode node).number = aaaNet.number * 2 ^ 24 + (nodeIdForNode node).toNat := by
  have small := nodeIdForNode_lt node
  generalize isId : nodeIdForNode node = nodeId at small
  have high : ((nodeId >>> 8).setWidth 16).toNat = nodeId.toNat / 2 ^ 8 := by
    rw [BitVec.toNat_setWidth, BitVec.toNat_ushiftRight, Nat.shiftRight_eq_div_pow]
    omega
  have low : ((nodeId <<< 8).setWidth 16).toNat = nodeId.toNat % 2 ^ 8 * 2 ^ 8 := by
    rw [BitVec.toNat_setWidth, BitVec.toNat_shiftLeft, Nat.shiftLeft_eq]
    omega
  simp only [aaaNetworkForNode, isId, Ipv6Net.number, nodeAaaPrefixLen, ipv6OfSegments,
    aaaNetSegments, aaaNet, List.set_cons_succ, List.set_cons_zero, List.foldl_cons,
    List.foldl_nil, high, low, BitVec.toNat_ofNat, BitVec.reduceToNat]
  omega

/-- Two networks have an address in common only if the nodes have the same number. -/
theorem nodeId_eq_of_contains [IpNet] {node other addr : IpAddr}
    (first : (aaaNetworkForNode node).contains addr = true)
    (second : (aaaNetworkForNode other).contains addr = true) :
    nodeIdForNode node = nodeIdForNode other := by
  cases addr with
  | v4 bits => cases first
  | v6 bits =>
    simp only [Ipv6Net.contains, IpNet.contains_iff, aaaNetworkForNode_number] at first second
    have sameLen : (aaaNetworkForNode node).prefixLen = (aaaNetworkForNode other).prefixLen := rfl
    rw [sameLen] at first
    exact BitVec.eq_of_toNat_eq (Nat.add_left_cancel (first.symm.trans second))

theorem aaaNet_contains [IpNet] {node addr : IpAddr}
    (inside : (aaaNetworkForNode node).contains addr = true) : aaaNet.contains addr = true := by
  cases addr with
  | v4 bits => cases inside
  | v6 bits =>
    have small := nodeIdForNode_lt node
    simp only [Ipv6Net.contains, IpNet.contains_iff, aaaNetworkForNode_number] at inside ⊢
    simp only [aaaNetworkForNode, nodeAaaPrefixLen] at inside
    change bits.toNat / 2 ^ 64 = aaaNet.number
    omega

/-! ### The table -/

/-- The live nodes, and the docking node of each adapter that has authenticated. -/
structure Fabric where
  nodes : HashSet IpAddr
  connectionTable : HashMap IpAddr IpAddr

structure AaaTable where
  now : Nat
  /-- The docking node of an AAA address, and when the entry expires. -/
  entries : HashMap IpAddr (IpAddr × Nat)
  /-- Bookkeeping: the registrations so far, address and node. -/
  registered : List (IpAddr × IpAddr)

/-- A side of a flow: a stored actor, or one fabricated for an AAA address. -/
inductive Party where
  | stored (actor : Actor)
  | anonymous (addr : IpAddr) (expiration : Nat)

def defaultAnonAuthExpiration : Nat := 4 * 60 * 60 * nanosPerSec

namespace AaaTable

def registerAaa (table : AaaTable) (addr node : IpAddr) (expiry : Nat) : AaaTable :=
  { table with
    entries := table.entries.insert addr (node, expiry)
    registered := (addr, node) :: table.registered }

/-- The node of an entry that has not expired; one that has is evicted. -/
def getDockingNodeForAaa (table : AaaTable) (addr : IpAddr) : Option IpAddr × AaaTable :=
  match table.entries[addr]? with
  | some (node, expiry) =>
    if table.now < expiry then (some node, table)
    else (none, { table with entries := table.entries.erase addr })
  | none => (none, table)

/-- The missing side of a request, if it is an anonymous one. -/
def tryAaaActor [IpNet] (table : AaaTable) (job : VisaRequestJob) (anonAddr candidateAddr : IpAddr)
    (missingSource : Bool) (expiration : Nat)
    (hasAuthServices : IpAddr → Except ServiceError Bool) :
    Except DenyCode (Option Party) × AaaTable :=
  if missingSource then
    if !(aaaNetworkForNode job.requestingNode).contains anonAddr then (.ok none, table)
    else
      match hasAuthServices candidateAddr with
      | .ok true =>
        (.ok (some (.anonymous anonAddr expiration)),
          table.registerAaa anonAddr job.requestingNode expiration)
      | .ok false => (.error .destNotFound, table)
      | .error _ => (.error .destNotFound, table)
  else
    match table.getDockingNodeForAaa anonAddr with
    | (none, table) => (.ok none, table)
    | (some _, table) => (.ok (some (.anonymous anonAddr expiration)), table)

def resolveActorsOrDeny [IpNet] (table : AaaTable) (job : VisaRequestJob)
    (sourceActor destActor : Option Actor) (hasAuthServices : IpAddr → Except ServiceError Bool) :
    Except DenyCode (Party × Party) × AaaTable :=
  let expiration := table.now + defaultAnonAuthExpiration
  let source := job.packetDesc.fiveTuple.sourceAddr
  let dest := job.packetDesc.fiveTuple.destAddr
  match sourceActor, destActor with
  | some sourceActor, some destActor => (.ok (.stored sourceActor, .stored destActor), table)
  | none, none => (.error .sourceNotFound, table)
  | none, some destActor =>
    match table.tryAaaActor job source dest true expiration hasAuthServices with
    | (.error code, table) => (.error code, table)
    | (.ok none, table) => (.error .sourceNotFound, table)
    | (.ok (some actor), table) => (.ok (actor, .stored destActor), table)
  | some sourceActor, none =>
    match table.tryAaaActor job dest source false expiration hasAuthServices with
    | (.error code, table) => (.error code, table)
    | (.ok none, table) => (.error .destNotFound, table)
    | (.ok (some actor), table) => (.ok (.stored sourceActor, actor), table)

/-- The connection table comes first, which an anonymous actor is not in. -/
def resolveDockingNode (table : AaaTable) (fabric : Fabric) (party : Party) (addr : IpAddr) :
    Option IpAddr × AaaTable :=
  let dock := match party with
    | .stored actor =>
      if actor.isNode then actor.zprAddr
      else actor.zprAddr.bind fun addr => fabric.connectionTable[addr]?
    | .anonymous addr _ => fabric.connectionTable[addr]?
  match dock with
  | some node => (some node, table)
  | none => table.getDockingNodeForAaa addr

/-- The targets that a live node may disconnect: itself, an adapter docked at it, and an AAA
actor docked at it. -/
def inScope (table : AaaTable) (fabric : Fabric) (caller target : IpAddr) : Bool × AaaTable :=
  if target = caller then (true, table)
  else if fabric.connectionTable[target]? = some caller then (true, table)
  else
    let (dock, table) := table.getDockingNodeForAaa target
    (dock == some caller, table)

end AaaTable

inductive AaaEvent where
  /-- What the database answers for the two sides, and about authentication services. -/
  | visaRequest (job : VisaRequestJob) (sourceActor destActor : Option Actor)
      (hasAuthServices : IpAddr → Except ServiceError Bool)
  | resolve (party : Party) (addr : IpAddr)
  | notifyDisconnect (caller target : IpAddr)
  | tick (nanos : Nat)

/-- Requests and notices come from live nodes. -/
def AaaTable.step [IpNet] (fabric : Fabric) (table : AaaTable) : AaaEvent → Option AaaTable
  | .visaRequest job sourceActor destActor hasAuthServices =>
    if job.requestingNode ∈ fabric.nodes then
      some (table.resolveActorsOrDeny job sourceActor destActor hasAuthServices).2
    else none
  | .resolve party addr => some (table.resolveDockingNode fabric party addr).2
  | .notifyDisconnect caller target =>
    if caller ∈ fabric.nodes then some (table.inScope fabric caller target).2 else none
  | .tick nanos => some { table with now := table.now + nanos }

/-! ### What a step does -/

namespace AaaTable

variable {fabric : Fabric} {table next : AaaTable} {addr node : IpAddr}

/-- Entries go, and time passes. -/
structure Fades (table next : AaaTable) : Prop where
  entries : ∀ (addr : IpAddr) (entry : IpAddr × Nat), next.entries[addr]? = some entry →
    table.entries[addr]? = some entry
  registered : next.registered = table.registered

theorem Fades.refl (table : AaaTable) : Fades table table := ⟨fun _ _ => id, rfl⟩

theorem fades_getDockingNodeForAaa (table : AaaTable) (addr : IpAddr) :
    Fades table (table.getDockingNodeForAaa addr).2 := by
  unfold getDockingNodeForAaa
  split
  · split
    · exact .refl table
    · exact ⟨fun _ _ found => (HashMap.of_get_erase found).2, rfl⟩
  · exact .refl table

theorem fades_resolveDockingNode (table : AaaTable) (party : Party) (addr : IpAddr) :
    Fades table (table.resolveDockingNode fabric party addr).2 := by
  unfold resolveDockingNode
  dsimp only
  split
  · exact .refl table
  · exact fades_getDockingNodeForAaa table addr

theorem fades_inScope (table : AaaTable) (caller target : IpAddr) :
    Fades table (table.inScope fabric caller target).2 := by
  unfold inScope
  split
  · exact .refl table
  · split
    · exact .refl table
    · exact fades_getDockingNodeForAaa table target

theorem mem_entries_of_dock (docked : (table.getDockingNodeForAaa addr).1 = some node) :
    ∃ expiry, table.entries[addr]? = some (node, expiry) := by
  unfold getDockingNodeForAaa at docked
  split at docked
  next holder expiry found =>
    split at docked
    · cases docked
      exact ⟨expiry, found⟩
    · cases docked
  · cases docked

variable [IpNet]

/-- An address of the requesting node's network is registered for it, or nothing is. -/
theorem tryAaaActor_effects (table : AaaTable) (job : VisaRequestJob)
    (anonAddr candidateAddr : IpAddr) (missingSource : Bool) (expiration : Nat)
    (hasAuthServices : IpAddr → Except ServiceError Bool) :
    Fades table (table.tryAaaActor job anonAddr candidateAddr missingSource expiration
        hasAuthServices).2 ∨
      (aaaNetworkForNode job.requestingNode).contains anonAddr = true ∧
        (table.tryAaaActor job anonAddr candidateAddr missingSource expiration
          hasAuthServices).2 = table.registerAaa anonAddr job.requestingNode expiration := by
  unfold tryAaaActor
  split
  · split
    · exact .inl (.refl table)
    next inside =>
      split
      · exact .inr ⟨by simpa using inside, rfl⟩
      · exact .inl (.refl table)
      · exact .inl (.refl table)
  · left
    have fades := fades_getDockingNodeForAaa table anonAddr
    split
    next after isAfter =>
      rw [isAfter] at fades
      exact fades
    next node after isAfter =>
      rw [isAfter] at fades
      exact fades

theorem step_cases {event : AaaEvent} (stepped : step fabric table event = some next) :
    Fades table next ∨ ∃ addr node expiry, node ∈ fabric.nodes ∧
      (aaaNetworkForNode node).contains addr = true ∧ next = table.registerAaa addr node expiry := by
  cases event with
  | visaRequest job sourceActor destActor hasAuthServices =>
    simp only [step] at stepped
    split at stepped
    next live =>
      cases stepped
      have effects (anonAddr candidateAddr : IpAddr) (missingSource : Bool)
          {result : Except DenyCode (Option Party)} {after : AaaTable}
          (tried : table.tryAaaActor job anonAddr candidateAddr missingSource
            (table.now + defaultAnonAuthExpiration) hasAuthServices = (result, after)) :
          Fades table after ∨ ∃ addr node expiry, node ∈ fabric.nodes ∧
            (aaaNetworkForNode node).contains addr = true ∧
              after = table.registerAaa addr node expiry := by
        have ways := tryAaaActor_effects table job anonAddr candidateAddr missingSource
          (table.now + defaultAnonAuthExpiration) hasAuthServices
        rw [tried] at ways
        exact ways.imp_right fun ⟨inside, isAfter⟩ => ⟨anonAddr, job.requestingNode, _, live,
          inside, isAfter⟩
      unfold resolveActorsOrDeny
      dsimp only
      split
      · exact .inl (.refl table)
      · exact .inl (.refl table)
      · split
        next tried => exact effects _ _ _ tried
        next tried => exact effects _ _ _ tried
        next tried => exact effects _ _ _ tried
      · split
        next tried => exact effects _ _ _ tried
        next tried => exact effects _ _ _ tried
        next tried => exact effects _ _ _ tried
    · cases stepped
  | resolve party addr =>
    cases stepped
    exact .inl (fades_resolveDockingNode table party addr)
  | notifyDisconnect caller target =>
    simp only [step] at stepped
    split at stepped
    · cases stepped
      exact .inl (fades_inScope table caller target)
    · cases stepped
  | tick nanos =>
    cases stepped
    exact .inl ⟨fun _ _ => id, rfl⟩

/-! ### Runs -/

/-- What is registered is of the network of its node, and every entry has been registered. -/
structure Owned (fabric : Fabric) (table : AaaTable) : Prop where
  registered : ∀ addr node, (addr, node) ∈ table.registered →
    node ∈ fabric.nodes ∧ (aaaNetworkForNode node).contains addr = true
  entries : ∀ (addr node : IpAddr) (expiry : Nat), table.entries[addr]? = some (node, expiry) →
    (addr, node) ∈ table.registered

theorem Owned.fades (owned : table.Owned fabric) (fades : Fades table next) :
    next.Owned fabric :=
  ⟨fun addr node listed => owned.registered addr node (fades.registered ▸ listed),
    fun addr node expiry found =>
      fades.registered ▸ owned.entries addr node expiry (fades.entries addr _ found)⟩

theorem Owned.registerAaa (owned : table.Owned fabric) (live : node ∈ fabric.nodes)
    (inside : (aaaNetworkForNode node).contains addr = true) (expiry : Nat) :
    (table.registerAaa addr node expiry).Owned fabric := by
  refine ⟨fun other holder listed => ?_, fun other holder until_ found => ?_⟩
  · rcases List.mem_cons.mp listed with same | listed
    · cases same
      exact ⟨live, inside⟩
    · exact owned.registered other holder listed
  · simp only [AaaTable.registerAaa] at found
    rcases HashMap.of_get_insert found with ⟨rfl, ⟨⟩⟩ | ⟨-, before⟩
    · exact List.mem_cons_self
    · exact List.mem_cons_of_mem _ (owned.entries other holder until_ before)

theorem owned_step {event : AaaEvent} (owned : table.Owned fabric)
    (stepped : step fabric table event = some next) : next.Owned fabric := by
  rcases step_cases stepped with fades | ⟨addr, node, expiry, live, inside, rfl⟩
  · exact owned.fades fades
  · exact owned.registerAaa live inside expiry

/-- The addresses belong to the nodes that registered them. -/
structure Exclusive (fabric : Fabric) (table : AaaTable) : Prop where
  /-- A registered address is in no other node's network. -/
  networks : ∀ addr node, (addr, node) ∈ table.registered → ∀ other ∈ fabric.nodes,
    (aaaNetworkForNode other).contains addr = true → other = node
  /-- The entry of an address does not move while it lasts. -/
  stays : ∀ event next, step fabric table event = some next →
    ∀ addr node other, (table.getDockingNodeForAaa addr).1 = some node →
      (next.getDockingNodeForAaa addr).1 = some other → other = node
  docks : ∀ addr node, (addr, node) ∈ table.registered → ∀ expiration other,
    (table.resolveDockingNode fabric (.anonymous addr expiration) addr).1 = some other →
      other = node
  scope : ∀ addr node, (addr, node) ∈ table.registered → ∀ caller ∈ fabric.nodes,
    (table.inScope fabric caller addr).1 = true → caller = node

theorem Owned.dock (owned : table.Owned fabric)
    (docked : (table.getDockingNodeForAaa addr).1 = some node) :
    (addr, node) ∈ table.registered := by
  obtain ⟨expiry, found⟩ := mem_entries_of_dock docked
  exact owned.entries addr node expiry found

end AaaTable

/-- The live nodes have pairwise different numbers. -/
def Fabric.Numbered (fabric : Fabric) : Prop :=
  ∀ node ∈ fabric.nodes, ∀ other ∈ fabric.nodes, nodeIdForNode node = nodeIdForNode other →
    node = other

/-- No live node and no docked adapter has an AAA address. -/
def Fabric.Clear [IpNet] (fabric : Fabric) : Prop :=
  ∀ addr, aaaNet.contains addr = true → addr ∉ fabric.nodes ∧ addr ∉ fabric.connectionTable

namespace AaaTable

variable [IpNet] {fabric : Fabric} {table next : AaaTable}

theorem Owned.unique (owned : table.Owned fabric) (numbered : fabric.Numbered)
    {addr node other : IpAddr} (first : (addr, node) ∈ table.registered)
    (second : (addr, other) ∈ table.registered) : other = node := by
  obtain ⟨live, inside⟩ := owned.registered addr node first
  obtain ⟨otherLive, otherInside⟩ := owned.registered addr other second
  exact numbered other otherLive node live (nodeId_eq_of_contains otherInside inside)

theorem Owned.exclusive (owned : table.Owned fabric) (numbered : fabric.Numbered)
    (clear : fabric.Clear) : table.Exclusive fabric where
  networks addr node listed other live inside :=
    numbered other live node (owned.registered addr node listed).1
      (nodeId_eq_of_contains inside (owned.registered addr node listed).2)
  stays event next stepped addr node other before after := by
    have ownedNext := owned_step owned stepped
    have listed : (addr, node) ∈ next.registered := by
      have was := owned.dock before
      rcases step_cases stepped with fades | ⟨_, _, _, -, -, rfl⟩
      · exact fades.registered ▸ was
      · exact List.mem_cons_of_mem _ was
    exact ownedNext.unique numbered listed (ownedNext.dock after)
  docks addr node listed expiration other resolved := by
    have outside := (clear addr (aaaNet_contains (owned.registered addr node listed).2)).2
    simp only [resolveDockingNode, Std.ExtTreeMap.getElem?_eq_none outside] at resolved
    exact owned.unique numbered listed (owned.dock resolved)
  scope addr node listed caller live inScope := by
    have outside := clear addr (aaaNet_contains (owned.registered addr node listed).2)
    have apart : addr ≠ caller := fun same => outside.1 (same ▸ live)
    simp only [AaaTable.inScope, if_neg apart, Std.ExtTreeMap.getElem?_eq_none outside.2,
      reduceCtorEq, if_false, beq_iff_eq] at inScope
    exact owned.unique numbered listed (owned.dock inScope)

/-- In every state that is reached. -/
theorem aaa_exclusive {start : AaaTable} {events : List AaaEvent} (numbered : fabric.Numbered)
    (clear : fabric.Clear) (fresh : start.entries = ∅ ∧ start.registered = [])
    (ran : run (step fabric) start events = some table) : table.Exclusive fabric := by
  have owned : start.Owned fabric := by
    refine ⟨fun addr node listed => ?_, fun addr node expiry found => ?_⟩
    · rw [fresh.2] at listed
      cases listed
    · rw [fresh.1] at found
      cases found
  exact (run_preserves (fun _ _ _ => owned_step) owned ran).exclusive numbered clear

end AaaTable

/-! ### Two nodes with one network -/

namespace AaaSample

open AaaTable

def gatewayAddr : IpAddr := .v6 0xfd5a505290de00010000000000000010
/-- The low 24 bits are those of the gateway. -/
def twinAddr : IpAddr := .v6 0xfd5a505290de00010000000001000010
def farAddr : IpAddr := .v6 0xfd5a505290de00010000000000000011
def authAddr : IpAddr := .v6 0xfd5a5052adda00010000000000000001
/-- The first address of the gateway's network. -/
def anonAddr : IpAddr := .v6 0xfd5a505200000aaa0000100000000001

def fabric (node other : IpAddr) : Fabric :=
  ⟨((∅ : HashSet IpAddr).insert node).insert other, ∅⟩

def empty : AaaTable := ⟨0, ∅, []⟩

/-- A node asks for a flow from the AAA address to an authentication service. -/
def asks (node : IpAddr) : AaaEvent :=
  .visaRequest ⟨node, ⟨⟨anonAddr, authAddr, 6, 40000, 443⟩, .biDirectional⟩⟩ none
    (some Actor.new) fun _ => .ok true

theorem mem_fabric {node other addr : IpAddr} :
    addr ∈ (fabric node other).nodes ↔ addr = other ∨ addr = node := by
  simp only [fabric, HashSet.mem_insert, Std.ExtTreeSet.not_mem_empty, or_false]

theorem fabric_clear {node other : IpAddr} (first : aaaNet.contains node = false)
    (second : aaaNet.contains other = false) : (fabric node other).Clear := by
  refine fun addr inside => ⟨fun live => ?_, Std.ExtTreeMap.not_mem_empty⟩
  rcases mem_fabric.mp live with rfl | rfl
  · cases inside.symm.trans second
  · cases inside.symm.trans first

def after (node other : IpAddr) (events : List AaaEvent) : AaaTable :=
  (run (step (fabric node other)) empty events).getD empty

/-- The twin takes over the address of the gateway. -/
theorem address_moved :
    ¬ ∀ (fabric : Fabric) (start table : AaaTable) (events : List AaaEvent),
      fabric.Clear → start.entries = ∅ ∧ start.registered = [] →
        run (step fabric) start events = some table → table.Exclusive fabric := by
  intro always
  have ran : run (step (fabric gatewayAddr twinAddr)) empty [asks gatewayAddr] =
      some (after gatewayAddr twinAddr [asks gatewayAddr]) :=
    run_eq_some_getD (by decide +kernel) _
  have exclusive := always (fabric gatewayAddr twinAddr) empty _ _
    (fabric_clear (by decide) (by decide)) ⟨rfl, rfl⟩ ran
  obtain ⟨next, stepped⟩ := Option.isSome_iff_exists.mp
    (show (step (fabric gatewayAddr twinAddr) (after gatewayAddr twinAddr [asks gatewayAddr])
      (asks twinAddr)).isSome = true by decide +kernel)
  have moved : ∀ next ∈ step (fabric gatewayAddr twinAddr)
      (after gatewayAddr twinAddr [asks gatewayAddr]) (asks twinAddr),
      (next.getDockingNodeForAaa anonAddr).1 = some twinAddr := by decide +kernel
  have same := exclusive.stays (asks twinAddr) next stepped anonAddr gatewayAddr twinAddr
    (by decide +kernel) (moved next stepped)
  exact absurd same (by decide)

/-- With a node of another number, the address is the gateway's. -/
theorem gateway_keeps :
    (after gatewayAddr farAddr [asks gatewayAddr]).registered = [(anonAddr, gatewayAddr)] ∧
      (after gatewayAddr farAddr [asks gatewayAddr]).Exclusive (fabric gatewayAddr farAddr) := by
  have ran : run (step (fabric gatewayAddr farAddr)) empty [asks gatewayAddr] =
      some (after gatewayAddr farAddr [asks gatewayAddr]) :=
    run_eq_some_getD (by decide +kernel) _
  have numbered : (fabric gatewayAddr farAddr).Numbered := by
    intro node live other otherLive same
    rcases mem_fabric.mp live with rfl | rfl <;> rcases mem_fabric.mp otherLive with rfl | rfl
    · rfl
    · exact absurd same (by decide)
    · exact absurd same (by decide)
    · rfl
  exact ⟨by decide +kernel, aaa_exclusive numbered (fabric_clear (by decide) (by decide))
    ⟨rfl, rfl⟩ ran⟩

end AaaSample

end VisaService
