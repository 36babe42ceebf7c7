import VisaService.IpAddr
import VisaService.Basic
import VisaService.Eval.Actor

/-!
# Address pools

`NetMgr` hands out ZPR addresses from two networks of 2^64 addresses, one for nodes and one for
adapters. An allocator knows the host numbers in use; a new one is drawn at random.
-/
namespace VisaService

open Lib

/-- `Addr6Allocator`: a /64 network, given by the upper half of its addresses. -/
structure Addr6Allocator where
  net : Nat
  /-- Host numbers in use. -/
  used : HashSet Nat

namespace Addr6Allocator

def contains (alloc : Addr6Allocator) : IpAddr → Bool
  | .v6 bits => decide (bits.toNat / 2 ^ 64 = alloc.net)
  | .v4 _ => false

def hostOf : IpAddr → Nat
  | .v6 bits => bits.toNat % 2 ^ 64
  | .v4 bits => bits.toNat

def addrOf (alloc : Addr6Allocator) (host : Nat) : IpAddr :=
  .v6 (BitVec.ofNat 128 (alloc.net * 2 ^ 64 + host))

/-- The first of the random draws that is not in use. -/
def allocate (alloc : Addr6Allocator) : List (BitVec 64) → Option IpAddr × Addr6Allocator
  | [] => (none, alloc)
  | draw :: draws =>
    if draw.toNat ∈ alloc.used then alloc.allocate draws
    else (some (alloc.addrOf draw.toNat), { alloc with used := alloc.used.insert draw.toNat })

def release (alloc : Addr6Allocator) (addr : IpAddr) : Except ServiceError Addr6Allocator :=
  if hostOf addr ∈ alloc.used then .ok { alloc with used := alloc.used.erase (hostOf addr) }
  else .error (.internal s!"attempted to release unallocated IPv6 address: {addr.display}")

def take (alloc : Addr6Allocator) (addr : IpAddr) : Except ServiceError Addr6Allocator :=
  if hostOf addr ∈ alloc.used then
    .error (.internal s!"attempted to take already allocated IPv6 address: {addr.display}")
  else .ok { alloc with used := alloc.used.insert (hostOf addr) }

def InUse (alloc : Addr6Allocator) (addr : IpAddr) : Prop :=
  alloc.contains addr = true ∧ hostOf addr ∈ alloc.used
  deriving Decidable

variable {alloc after : Addr6Allocator} {addr other : IpAddr}

theorem eq_of_hostOf (inNet : alloc.contains addr = true) (alsoInNet : alloc.contains other = true)
    (same : hostOf addr = hostOf other) : addr = other := by
  cases addr with
  | v4 bits => cases inNet
  | v6 bits =>
    cases other with
    | v4 others => cases alsoInNet
    | v6 others =>
      simp only [contains, decide_eq_true_eq] at inNet alsoInNet
      simp only [hostOf] at same
      refine congrArg IpAddr.v6 (BitVec.eq_of_toNat_eq ?_)
      rw [← Nat.div_add_mod bits.toNat (2 ^ 64), ← Nat.div_add_mod others.toNat (2 ^ 64), inNet,
        alsoInNet, same]

theorem release_inUse (inNet : alloc.contains addr = true) (released : alloc.release addr = .ok after) :
    after.net = alloc.net ∧ ∀ other, after.InUse other ↔ alloc.InUse other ∧ other ≠ addr := by
  unfold release at released
  split at released
  · cases released
    refine ⟨rfl, fun other => ⟨fun ⟨alsoInNet, listed⟩ => ?_, fun ⟨⟨alsoInNet, listed⟩, apart⟩ => ?_⟩⟩
    · simp only [Std.ExtTreeSet.mem_erase, ne_eq, Std.compare_eq_iff_eq] at listed
      exact ⟨⟨alsoInNet, listed.2⟩, fun same => listed.1 (congrArg hostOf same.symm)⟩
    · refine ⟨alsoInNet, ?_⟩
      simp only [Std.ExtTreeSet.mem_erase, ne_eq, Std.compare_eq_iff_eq]
      exact ⟨fun same => apart (eq_of_hostOf alsoInNet inNet same.symm), listed⟩
  · cases released

theorem take_inUse (inNet : alloc.contains addr = true) (taken : alloc.take addr = .ok after) :
    after.net = alloc.net ∧ ∀ other, after.InUse other ↔ alloc.InUse other ∨ other = addr := by
  unfold take at taken
  split at taken
  · cases taken
  cases taken
  refine ⟨rfl, fun other => ⟨fun ⟨alsoInNet, listed⟩ => ?_, ?_⟩⟩
  · simp only [Std.ExtTreeSet.mem_insert, Std.compare_eq_iff_eq] at listed
    exact listed.symm.imp (⟨alsoInNet, ·⟩) fun same => eq_of_hostOf alsoInNet inNet same.symm
  · simp only [InUse, Std.ExtTreeSet.mem_insert, Std.compare_eq_iff_eq]
    rintro (⟨alsoInNet, listed⟩ | rfl)
    · exact ⟨alsoInNet, .inr listed⟩
    · exact ⟨inNet, .inl rfl⟩

theorem contains_addrOf {host : Nat} (bound : alloc.net < 2 ^ 64) (small : host < 2 ^ 64) :
    alloc.contains (alloc.addrOf host) = true ∧ hostOf (alloc.addrOf host) = host := by
  have whole : (BitVec.ofNat 128 (alloc.net * 2 ^ 64 + host)).toNat = alloc.net * 2 ^ 64 + host := by
    rw [BitVec.toNat_ofNat]
    exact Nat.mod_eq_of_lt (by omega)
  constructor
  · simp only [contains, addrOf, whole, decide_eq_true_eq]
    omega
  · simp only [hostOf, addrOf, whole]
    omega

theorem allocate_inUse (bound : alloc.net < 2 ^ 64) {draws : List (BitVec 64)}
    (allocated : alloc.allocate draws = (some addr, after)) :
    after.net = alloc.net ∧ alloc.contains addr = true ∧ ¬ alloc.InUse addr ∧
      ∀ other, after.InUse other ↔ alloc.InUse other ∨ other = addr := by
  induction draws with
  | nil => cases allocated
  | cons draw draws ih =>
    unfold allocate at allocated
    split at allocated
    · exact ih allocated
    next free =>
      cases allocated
      obtain ⟨inNet, isHost⟩ := contains_addrOf bound draw.isLt
      refine ⟨rfl, inNet, fun inUse => free (isHost ▸ inUse.2), fun other => ?_⟩
      simp only [InUse, Std.ExtTreeSet.mem_insert, Std.compare_eq_iff_eq]
      constructor
      · rintro ⟨alsoInNet, same | listed⟩
        · exact .inr (eq_of_hostOf alsoInNet inNet (same ▸ isHost.symm ▸ rfl))
        · exact .inl ⟨alsoInNet, listed⟩
      · rintro (⟨alsoInNet, listed⟩ | rfl)
        · exact ⟨alsoInNet, .inr listed⟩
        · exact ⟨inNet, .inl isHost.symm⟩

theorem allocate_none {draws : List (BitVec 64)} (allocated : alloc.allocate draws = (none, after)) :
    after = alloc := by
  induction draws with
  | nil =>
    cases allocated
    rfl
  | cons draw draws ih =>
    unfold allocate at allocated
    split at allocated
    · exact ih allocated
    · cases allocated

end Addr6Allocator

structure NetMgr where
  nodeAddrs : Addr6Allocator
  adapterAddrs : Addr6Allocator

/-- `ADAPTER_BASE_V6NET`, fd5a:5052:adda:1::/64. -/
def adapterBaseV6net : Nat := 0xfd5a5052adda0001

/-- `NODE_BASE_V6NET`, fd5a:5052:90de:1::/64. -/
def nodeBaseV6net : Nat := 0xfd5a505290de0001

namespace NetMgr

def newV6 : NetMgr := ⟨⟨nodeBaseV6net, ∅⟩, ⟨adapterBaseV6net, ∅⟩⟩

/-- At most 10000 draws are made. -/
def getNextZprAddr (net : NetMgr) (role : Role) (draws : List (BitVec 64)) :
    Except ServiceError IpAddr × NetMgr :=
  let draws := draws.take 10000
  match role with
  | .adapter =>
    match net.adapterAddrs.allocate draws with
    | (some addr, alloc) => (.ok addr, { net with adapterAddrs := alloc })
    | (none, alloc) =>
      (.error (.internal "failed to allocate adapter address"), { net with adapterAddrs := alloc })
  | .node =>
    match net.nodeAddrs.allocate draws with
    | (some addr, alloc) => (.ok addr, { net with nodeAddrs := alloc })
    | (none, alloc) =>
      (.error (.internal "failed to allocate node address"), { net with nodeAddrs := alloc })
  -- a panic in the source; authorization asks for nodes and adapters only
  | .unknown => (.error (.internal "get_next_zpr_addr called with unsupported role"), net)

def onPool (net : NetMgr) (addr : IpAddr) (operation : String)
    (act : Addr6Allocator → Except ServiceError Addr6Allocator) : Except ServiceError NetMgr :=
  if net.adapterAddrs.contains addr then
    (act net.adapterAddrs).map fun alloc => { net with adapterAddrs := alloc }
  else if net.nodeAddrs.contains addr then
    (act net.nodeAddrs).map fun alloc => { net with nodeAddrs := alloc }
  else
    .error (.internal
      s!"attempted to {operation} address {addr.display} not managed by any allocator")

def releaseZprAddr (net : NetMgr) (addr : IpAddr) : Except ServiceError NetMgr :=
  net.onPool addr "release" fun alloc => alloc.release addr

def takeZprAddr (net : NetMgr) (addr : IpAddr) : Except ServiceError NetMgr :=
  net.onPool addr "take" fun alloc => alloc.take addr

/-- 10.128.0.0/22 and 10.192.0.0/22 count as managed, too. -/
def isManagedAddress : IpAddr → Bool
  | .v4 bits =>
    bits.toNat / 2 ^ 10 == 0x0a800000 / 2 ^ 10 || bits.toNat / 2 ^ 10 == 0x0ac00000 / 2 ^ 10
  | .v6 bits => bits.toNat / 2 ^ 64 == adapterBaseV6net || bits.toNat / 2 ^ 64 == nodeBaseV6net

def isPoolAddress : IpAddr → Bool
  | .v6 bits => bits.toNat / 2 ^ 64 == adapterBaseV6net || bits.toNat / 2 ^ 64 == nodeBaseV6net
  | .v4 _ => false

theorem isManaged_of_isPool {addr : IpAddr} (pool : isPoolAddress addr = true) :
    isManagedAddress addr = true := by
  cases addr with
  | v4 bits => cases pool
  | v6 bits => exact pool

def InUse (net : NetMgr) (addr : IpAddr) : Prop :=
  net.adapterAddrs.InUse addr ∨ net.nodeAddrs.InUse addr
  deriving Decidable

/-- The pools are the configured networks. -/
structure Wf (net : NetMgr) : Prop where
  adapters : net.adapterAddrs.net = adapterBaseV6net
  nodes : net.nodeAddrs.net = nodeBaseV6net

variable {net next : NetMgr} {addr : IpAddr}

theorem wf_newV6 : newV6.Wf := ⟨rfl, rfl⟩

theorem Wf.disjoint (wf : net.Wf) (inAdapters : net.adapterAddrs.contains addr = true) :
    net.nodeAddrs.contains addr = false := by
  cases addr with
  | v4 bits => rfl
  | v6 bits =>
    simp only [Addr6Allocator.contains, decide_eq_true_eq, decide_eq_false_iff_not] at *
    rw [inAdapters, wf.adapters, wf.nodes]
    decide

theorem onPool_ok {operation : String} {act : Addr6Allocator → Except ServiceError Addr6Allocator}
    (done : net.onPool addr operation act = .ok next) :
    (net.adapterAddrs.contains addr = true ∧ ∃ after, act net.adapterAddrs = .ok after ∧
        next = { net with adapterAddrs := after }) ∨
      net.adapterAddrs.contains addr = false ∧ net.nodeAddrs.contains addr = true ∧
        ∃ after, act net.nodeAddrs = .ok after ∧ next = { net with nodeAddrs := after } := by
  have map_ok {make : Addr6Allocator → NetMgr} {result : Except ServiceError Addr6Allocator}
      (mapped : result.map make = .ok next) : ∃ after, result = .ok after ∧ next = make after := by
    cases result with
    | error failure => cases mapped
    | ok after =>
      cases mapped
      exact ⟨after, rfl, rfl⟩
  unfold onPool at done
  split at done
  next inAdapters => exact .inl ⟨inAdapters, map_ok done⟩
  next notInAdapters =>
    split at done
    next inNodes => exact .inr ⟨Bool.eq_false_iff.mpr notInAdapters, inNodes, map_ok done⟩
    · cases done

theorem releaseZprAddr_inUse (wf : net.Wf) (released : net.releaseZprAddr addr = .ok next) :
    next.Wf ∧ ∀ other, next.InUse other ↔ net.InUse other ∧ other ≠ addr := by
  unfold InUse
  rcases onPool_ok released with ⟨inAdapters, after, isAfter, rfl⟩ | ⟨out, inNodes, after, isAfter, rfl⟩
  · obtain ⟨sameNet, inUse⟩ := Addr6Allocator.release_inUse inAdapters isAfter
    refine ⟨⟨sameNet.trans wf.adapters, wf.nodes⟩, fun other => ?_⟩
    rw [inUse, or_and_right]
    refine or_congr_right ⟨fun listed => ⟨listed, ?_⟩, And.left⟩
    rintro rfl
    exact absurd listed.1 (Bool.eq_false_iff.mp (wf.disjoint inAdapters))
  · obtain ⟨sameNet, inUse⟩ := Addr6Allocator.release_inUse inNodes isAfter
    refine ⟨⟨wf.adapters, sameNet.trans wf.nodes⟩, fun other => ?_⟩
    rw [inUse, or_and_right]
    refine or_congr_left ⟨fun listed => ⟨listed, ?_⟩, And.left⟩
    rintro rfl
    exact absurd listed.1 (Bool.eq_false_iff.mp out)

theorem takeZprAddr_inUse (wf : net.Wf) (taken : net.takeZprAddr addr = .ok next) :
    next.Wf ∧ ∀ other, next.InUse other ↔ net.InUse other ∨ other = addr := by
  unfold InUse
  rcases onPool_ok taken with ⟨inAdapters, after, isAfter, rfl⟩ | ⟨-, inNodes, after, isAfter, rfl⟩
  · obtain ⟨sameNet, inUse⟩ := Addr6Allocator.take_inUse inAdapters isAfter
    refine ⟨⟨sameNet.trans wf.adapters, wf.nodes⟩, fun other => ?_⟩
    rw [inUse, or_right_comm]
  · obtain ⟨sameNet, inUse⟩ := Addr6Allocator.take_inUse inNodes isAfter
    refine ⟨⟨wf.adapters, sameNet.trans wf.nodes⟩, fun other => ?_⟩
    rw [inUse, or_assoc]

theorem not_inUse_of_release_error {failure : ServiceError} (wf : net.Wf)
    (failed : net.releaseZprAddr addr = .error failure) : ¬ net.InUse addr := by
  unfold releaseZprAddr onPool at failed
  have unused {alloc : Addr6Allocator} {make : Addr6Allocator → NetMgr}
      (failed : (alloc.release addr).map make = .error failure) : ¬ alloc.InUse addr := by
    intro inUse
    simp [Addr6Allocator.release, inUse.2, Except.map] at failed
  split at failed
  next inAdapters =>
    rintro (inUse | inUse)
    · exact unused failed inUse
    · exact absurd inUse.1 (Bool.eq_false_iff.mp (wf.disjoint inAdapters))
  next out =>
    split at failed
    next inNodes =>
      rintro (inUse | inUse)
      · exact out inUse.1
      · exact unused failed inUse
    next outAgain =>
      rintro (inUse | inUse)
      · exact out inUse.1
      · exact outAgain inUse.1

theorem isPool_of_inUse (wf : net.Wf) (inUse : net.InUse addr) : isPoolAddress addr = true := by
  have inPool {alloc : Addr6Allocator} (inNet : alloc.contains addr = true)
      (isNet : alloc.net = adapterBaseV6net ∨ alloc.net = nodeBaseV6net) :
      isPoolAddress addr = true := by
    cases addr with
    | v4 bits => cases inNet
    | v6 bits =>
      simp only [Addr6Allocator.contains, decide_eq_true_eq] at inNet
      simp only [isPoolAddress, inNet, Bool.or_eq_true, beq_iff_eq]
      exact isNet
  rcases inUse with ⟨inNet, -⟩ | ⟨inNet, -⟩
  · exact inPool inNet (.inl wf.adapters)
  · exact inPool inNet (.inr wf.nodes)

theorem isManaged_of_inUse (wf : net.Wf) (inUse : net.InUse addr) :
    isManagedAddress addr = true := isManaged_of_isPool (isPool_of_inUse wf inUse)

variable {draws : List (BitVec 64)} {role : Role}

/-- The address that is handed out was free, and is in use from then on. -/
theorem getNextZprAddr_inUse (wf : net.Wf) (next : NetMgr)
    (handed : net.getNextZprAddr role draws = (.ok addr, next)) :
    next.Wf ∧ ¬ net.InUse addr ∧ ∀ other, next.InUse other ↔ net.InUse other ∨ other = addr := by
  cases role with
  | unknown => cases handed
  | adapter =>
    simp only [getNextZprAddr] at handed
    split at handed
    next found alloc allocated =>
      cases handed
      have bound : net.adapterAddrs.net < 2 ^ 64 := wf.adapters ▸ by decide
      obtain ⟨sameNet, inNet, free, inUse⟩ := Addr6Allocator.allocate_inUse bound allocated
      refine ⟨⟨sameNet.trans wf.adapters, wf.nodes⟩, ?_, fun other => ?_⟩
      · rintro (already | elsewhere)
        · exact free already
        · exact absurd elsewhere.1 (Bool.eq_false_iff.mp (wf.disjoint inNet))
      · unfold InUse
        rw [inUse, or_right_comm]
    · cases handed
  | node =>
    simp only [getNextZprAddr] at handed
    split at handed
    next found alloc allocated =>
      cases handed
      have bound : net.nodeAddrs.net < 2 ^ 64 := wf.nodes ▸ by decide
      obtain ⟨sameNet, inNet, free, inUse⟩ := Addr6Allocator.allocate_inUse bound allocated
      refine ⟨⟨wf.adapters, sameNet.trans wf.nodes⟩, ?_, fun other => ?_⟩
      · rintro (elsewhere | already)
        · exact absurd inNet (Bool.eq_false_iff.mp (wf.disjoint elsewhere.1))
        · exact free already
      · unfold InUse
        rw [inUse, or_assoc]
    · cases handed

def isAdapterAddress : IpAddr → Bool
  | .v6 bits => bits.toNat / 2 ^ 64 == adapterBaseV6net
  | .v4 _ => false

theorem isPool_of_isAdapter (inAdapters : isAdapterAddress addr = true) :
    isPoolAddress addr = true := by
  cases addr with
  | v4 bits => cases inAdapters
  | v6 bits => exact Bool.or_eq_true .. |>.mpr (.inl inAdapters)

theorem getNextZprAddr_role (wf : net.Wf)
    (handed : net.getNextZprAddr role draws = (.ok addr, next)) :
    isAdapterAddress addr = true ↔ role = .adapter := by
  have isAdapter : net.adapterAddrs.contains addr = true ↔ isAdapterAddress addr = true := by
    cases addr with
    | v4 bits => simp [Addr6Allocator.contains, isAdapterAddress]
    | v6 bits => simp [Addr6Allocator.contains, isAdapterAddress, wf.adapters]
  cases role with
  | unknown => cases handed
  | adapter =>
    simp only [getNextZprAddr] at handed
    split at handed
    next found alloc allocated =>
      cases handed
      have bound : net.adapterAddrs.net < 2 ^ 64 := wf.adapters ▸ by decide
      obtain ⟨-, inNet, -⟩ := Addr6Allocator.allocate_inUse bound allocated
      exact ⟨fun _ => rfl, fun _ => isAdapter.mp inNet⟩
    · cases handed
  | node =>
    simp only [getNextZprAddr] at handed
    split at handed
    next found alloc allocated =>
      cases handed
      have bound : net.nodeAddrs.net < 2 ^ 64 := wf.nodes ▸ by decide
      obtain ⟨-, inNet, -⟩ := Addr6Allocator.allocate_inUse bound allocated
      refine ⟨fun inAdapters => ?_, nofun⟩
      exact absurd inNet (Bool.eq_false_iff.mp (wf.disjoint (isAdapter.mpr inAdapters)))
    · cases handed

theorem getNextZprAddr_error {failure : ServiceError}
    (failed : net.getNextZprAddr role draws = (.error failure, next)) : next = net := by
  cases role with
  | unknown =>
    cases failed
    rfl
  | adapter | node =>
    simp only [getNextZprAddr] at failed
    split at failed
    · cases failed
    next allocated =>
      cases failed
      rw [Addr6Allocator.allocate_none allocated]

end NetMgr

end VisaService
