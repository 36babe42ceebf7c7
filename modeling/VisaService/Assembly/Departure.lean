import VisaService.Assembly.State

/-!
# What a departure leaves alone

Removals, releases and disconnects only take away: records, connections, addresses in use.
`Shrinks` collects that; the lemmas after it say which records go.
-/
namespace VisaService

open Lib

variable {codec : VisaCodec}

namespace Assembly

/-- Nothing is added, and what does not belong to departed actors stays as it is. -/
structure Shrinks (asm next : Assembly codec) : Prop where
  vsAddr : next.vsAddr = asm.vsAddr
  handles : next.handles = asm.handles
  obligations : next.obligations = asm.obligations
  denied : next.denied = asm.denied
  answer : next.answer = asm.answer
  revoked : next.revoked = asm.revoked
  listed : next.listed = asm.listed
  actors : ∀ (addr : IpAddr) (actor : Actor), next.actors[addr]? = some actor →
    asm.actors[addr]? = some actor
  connections : ∀ node addr, next.connections.Holds node addr → asm.connections.Holds node addr

variable {asm mid next : Assembly codec} {addr : IpAddr}

theorem Shrinks.refl (asm : Assembly codec) : Shrinks asm asm :=
  ⟨rfl, rfl, rfl, rfl, rfl, rfl, rfl, fun _ _ => id, fun _ _ => id⟩

theorem Shrinks.trans (first : Shrinks asm mid) (second : Shrinks mid next) : Shrinks asm next where
  vsAddr := second.vsAddr.trans first.vsAddr
  handles := second.handles.trans first.handles
  obligations := second.obligations.trans first.obligations
  denied := second.denied.trans first.denied
  answer := second.answer.trans first.answer
  revoked := second.revoked.trans first.revoked
  listed := second.listed.trans first.listed
  actors addr actor found := first.actors addr actor (second.actors addr actor found)
  connections node addr holds := first.connections node addr (second.connections node addr holds)

/-! ### The parts of a disconnect -/

/-- The record goes, possibly with its dock, unless the removal fails and leaves it. -/
theorem removeActor_cases (asm : Assembly codec) (addr : IpAddr) :
    asm.answer.removal addr = .kept ∧
      asm.removeActorByZprAddr addr = (.error (.store .redis), asm) ∨
    asm.answer.removal addr ≠ .kept ∧ ∃ result connectionTable connections,
      asm.removeActorByZprAddr addr = (result,
        { asm with actors := asm.actors.erase addr, connectionTable, connections }) ∧
      (∀ other node : IpAddr, connectionTable[other]? = some node →
        asm.connectionTable[other]? = some node) ∧
      (∀ node other, connections.Holds node other → asm.connections.Holds node other) ∧
      ∀ node other, other ≠ addr → asm.connections.Holds node other →
        connections.Holds node other := by
  unfold removeActorByZprAddr
  cases asm.answer.removal addr with
  | kept => exact .inl ⟨rfl, rfl⟩
  | lost => exact .inr ⟨nofun, _, _, _, rfl, fun _ _ => id, fun _ _ => id, fun _ _ _ => id⟩
  | done =>
    refine .inr ⟨nofun, ?_⟩
    dsimp only
    split
    · exact ⟨_, _, _, rfl, fun _ _ => id, fun _ _ => id, fun _ _ _ => id⟩
    next dock isDock =>
      refine ⟨_, _, _, rfl, fun other node found => ?_, fun node other holds => ?_,
        fun node other differs holds => ?_⟩
      · exact (HashMap.of_get_erase found).2
      · split at holds
        · exact holds
        · exact ((Rows.holds_drop ..).mp holds).1
      · split
        · exact holds
        · exact (Rows.holds_drop ..).mpr ⟨holds, fun same => differs same.2⟩

theorem releaseAddr_cases (asm : Assembly codec) (addr : IpAddr) :
    ∃ net, asm.releaseAddr addr = { asm with net } ∧
      (net = asm.net ∨ asm.net.releaseZprAddr addr = .ok net) := by
  unfold releaseAddr
  split
  · split
    next net released => exact ⟨net, rfl, .inr released⟩
    · exact ⟨_, rfl, .inl rfl⟩
  · exact ⟨_, rfl, .inl rfl⟩

theorem releaseAddr_actors : (asm.releaseAddr addr).actors = asm.actors := by
  obtain ⟨net, isReleased, -⟩ := asm.releaseAddr_cases addr
  rw [isReleased]

theorem removeDisconnected_eq (asm : Assembly codec) (addr : IpAddr) :
    ∃ trusted, asm.removeDisconnected addr =
      { (asm.removeActorByZprAddr addr).2 with trusted } := by
  unfold removeDisconnected
  split
  next isRemoved =>
    rw [isRemoved]
    exact ⟨_, rfl⟩
  next isFailed =>
    rw [isFailed]
    exact ⟨_, rfl⟩

theorem not_mem_removeActor (removes : asm.answer.removal addr ≠ .kept) :
    addr ∉ (asm.removeActorByZprAddr addr).2.actors := by
  rcases asm.removeActor_cases addr with ⟨kept, -⟩ | ⟨-, _, _, _, isRemoved, -⟩
  · exact absurd kept removes
  · rw [isRemoved]
    exact fun member => (HashMap.mem_erase.mp member).2 rfl

theorem not_mem_of_removeActor_ok {result : Unit}
    (removed : asm.removeActorByZprAddr addr = (.ok result, next)) : addr ∉ next.actors := by
  have removes : asm.answer.removal addr ≠ .kept := by
    intro kept
    simp [removeActorByZprAddr, kept] at removed
  have gone := not_mem_removeActor removes
  rwa [removed] at gone

/-- What removing the adapters one by one keeps. An address is released when its record is
gone. -/
theorem removeDepartedAdapters_keeps {holds : Assembly codec → Prop} {addrs : List IpAddr}
    (start : holds asm)
    (remove : ∀ asm, ∀ addr ∈ addrs, addr ≠ asm.vsAddr → holds asm →
      holds (asm.removeActorByZprAddr addr).2)
    (release : ∀ asm, ∀ addr ∈ addrs, addr ∉ asm.actors → holds asm →
      holds ((asm.forgetRevisions addr).releaseAddr addr)) :
    holds (asm.removeDepartedAdapters addrs).2 := by
  induction addrs generalizing asm with
  | nil => exact start
  | cons addr rest ih =>
    have goesOn {left : Assembly codec} (start : holds left) :
        holds (left.removeDepartedAdapters rest).2 :=
      ih start (fun asm other member => remove asm other (List.mem_cons_of_mem _ member))
        fun asm other member => release asm other (List.mem_cons_of_mem _ member)
    unfold removeDepartedAdapters
    split
    · exact goesOn start
    next notVs =>
      have removes := remove asm addr List.mem_cons_self notVs start
      split
      next failed isFailed =>
        rw [isFailed] at removes
        exact goesOn removes
      next removed isRemoved =>
        rw [isRemoved] at removes
        exact goesOn (release _ addr List.mem_cons_self (not_mem_of_removeActor_ok isRemoved) removes)

/-- The ways a disconnect goes: the actor is unknown, an adapter, or a node with the adapters
docked at it. -/
theorem disconnect_cases (asm : Assembly codec) (addr : IpAddr) :
    asm.disconnect addr = (.error (.store .redis), asm) ∧ asm.answer.fails = true ∨
    asm.answer.fails = false ∧ (asm.actors[addr]?.all fun actor => !actor.isNode) = true ∧
      asm.disconnect addr = (.ok (), (asm.removeDisconnected addr).finishDisconnect addr [addr]) ∨
    asm.answer.fails = false ∧ (asm.actors[addr]?.any Actor.isNode) = true ∧
      ∃ docked departed left,
        docked = (if asm.answer.adaptersFail then [] else asm.answer.order.list
          ((asm.removeDisconnected addr).connections[addr]?.getD ∅)) ∧
        (asm.removeDisconnected addr).removeDepartedAdapters docked = (departed, left) ∧
        (asm.answer.nodeFails = true ∧
            asm.disconnect addr = (.error (.store .redis), left) ∨
          asm.answer.nodeFails = false ∧
            let gone := left.removeNode addr
            let cleared := { gone with
              visas := gone.visas.removeVisasForNode asm.answer.redis addr }
            asm.disconnect addr =
              (.ok (), cleared.finishDisconnect addr (addr :: departed))) := by
  unfold disconnect
  cases fails : asm.answer.fails with
  | true => exact .inl ⟨rfl, rfl⟩
  | false =>
    simp only [Bool.false_eq_true, if_false, true_and]
    right
    cases found : asm.actors[addr]? with
    | none => exact .inl ⟨rfl, rfl⟩
    | some actor =>
      cases isNode : actor.isNode with
      | false =>
        left
        simp only [isNode, Bool.false_eq_true, if_false, Option.all_some, Bool.not_false, true_and]
      | true =>
        right
        simp only [isNode, if_true, Option.any_some, true_and]
        refine ⟨_, _, _, rfl, rfl, ?_⟩
        cases asm.answer.nodeFails with
        | true => exact .inl ⟨rfl, rfl⟩
        | false => exact .inr ⟨rfl, rfl⟩

/-- A relation between the states before and after that every part of a disconnect keeps. -/
structure Departing (keeps : Assembly codec → Assembly codec → Prop) : Prop where
  refl : ∀ asm, keeps asm asm
  trans : ∀ {asm mid next}, keeps asm mid → keeps mid next → keeps asm next
  removeActor : ∀ asm addr, keeps asm (asm.removeActorByZprAddr addr).2
  forgetRevisions : ∀ asm addr, keeps asm (asm.forgetRevisions addr)
  releaseAddr : ∀ asm addr, keeps asm (asm.releaseAddr addr)
  withdraw : ∀ asm departed, keeps asm
    { asm with visas := asm.visas.removeVisasForActors asm.answer.redis departed }
  clearNode : ∀ asm redis node, keeps asm { asm.removeNode node with
    visas := (asm.removeNode node).visas.removeVisasForNode redis node }

namespace Departing

variable {keeps : Assembly codec → Assembly codec → Prop} (departing : Departing keeps)
include departing

theorem release (asm : Assembly codec) (addr : IpAddr) :
    keeps asm ((asm.forgetRevisions addr).releaseAddr addr) :=
  departing.trans (departing.forgetRevisions asm addr) (departing.releaseAddr _ addr)

theorem removeDepartedAdapters (asm : Assembly codec) (addrs : List IpAddr) :
    keeps asm (asm.removeDepartedAdapters addrs).2 :=
  removeDepartedAdapters_keeps (departing.refl asm)
    (fun now addr _ _ kept => departing.trans kept (departing.removeActor now addr))
    fun now addr _ _ kept => departing.trans kept (departing.release now addr)

theorem removeDisconnected (asm : Assembly codec) (addr : IpAddr) :
    keeps asm (asm.removeDisconnected addr) := by
  have removes := departing.removeActor asm addr
  unfold Assembly.removeDisconnected
  split
  next removed isRemoved =>
    rw [isRemoved] at removes
    exact departing.trans removes (departing.forgetRevisions removed addr)
  next failed isFailed =>
    rw [isFailed] at removes
    exact removes

theorem finishDisconnect (asm : Assembly codec) (addr : IpAddr) (departed : List IpAddr) :
    keeps asm (asm.finishDisconnect addr departed) :=
  departing.trans (departing.withdraw asm departed) (departing.releaseAddr _ addr)

theorem disconnect (asm : Assembly codec) (addr : IpAddr) : keeps asm (asm.disconnect addr).2 := by
  have removes := departing.removeDisconnected asm addr
  rcases asm.disconnect_cases addr with
    ⟨isDone, -⟩ | ⟨-, -, isDone⟩ | ⟨-, -, docked, departed, left, -, isLeft, ended⟩
  · rw [isDone]
    exact departing.refl asm
  · rw [isDone]
    exact departing.trans removes (departing.finishDisconnect _ addr _)
  · have leaves := departing.removeDepartedAdapters (asm.removeDisconnected addr) docked
    rw [isLeft] at leaves
    have gone : keeps asm left := departing.trans removes leaves
    rcases ended with ⟨-, isDone⟩ | ⟨-, isDone⟩
    · rw [isDone]
      exact gone
    · rw [isDone]
      exact departing.trans gone (departing.trans (departing.clearNode left _ addr)
        (departing.finishDisconnect _ addr _))

end Departing

/-! ### Nothing is added -/

theorem shrinks_removeActor (asm : Assembly codec) (addr : IpAddr) :
    Shrinks asm (asm.removeActorByZprAddr addr).2 := by
  rcases asm.removeActor_cases addr with ⟨-, isKept⟩ | ⟨-, _, _, _, isRemoved, -, fewer, -⟩
  · rw [isKept]
    exact .refl asm
  · rw [isRemoved]
    exact ⟨rfl, rfl, rfl, rfl, rfl, rfl, rfl, fun _ _ found => (HashMap.of_get_erase found).2, fewer⟩

theorem shrinks_releaseAddr (asm : Assembly codec) (addr : IpAddr) :
    Shrinks asm (asm.releaseAddr addr) := by
  obtain ⟨net, isReleased, -⟩ := asm.releaseAddr_cases addr
  rw [isReleased]
  exact ⟨rfl, rfl, rfl, rfl, rfl, rfl, rfl, fun _ _ => id, fun _ _ => id⟩

theorem get_removeNode {asm : Assembly codec} {node addr dock : IpAddr} :
    (asm.removeNode node).connectionTable[addr]? = some dock ↔
      asm.connectionTable[addr]? = some dock ∧ dock ≠ node := by
  simp only [removeNode, Std.ExtTreeMap.getElem?_filter', Option.filter_eq_some_iff,
    decide_eq_true_eq]

theorem shrinks_removeNode (asm : Assembly codec) (node : IpAddr) :
    Shrinks asm (asm.removeNode node) :=
  ⟨rfl, rfl, rfl, rfl, rfl, rfl, rfl, fun _ _ => id, fun _ _ holds => (Rows.holds_erase.mp holds).2⟩

theorem shrinks : Departing (@Shrinks codec) where
  refl := .refl
  trans := .trans
  removeActor := shrinks_removeActor
  forgetRevisions _ _ := ⟨rfl, rfl, rfl, rfl, rfl, rfl, rfl, fun _ _ => id, fun _ _ => id⟩
  releaseAddr := shrinks_releaseAddr
  withdraw _ _ := ⟨rfl, rfl, rfl, rfl, rfl, rfl, rfl, fun _ _ => id, fun _ _ => id⟩
  clearNode asm _ node := (shrinks_removeNode asm node).trans
    ⟨rfl, rfl, rfl, rfl, rfl, rfl, rfl, fun _ _ => id, fun _ _ => id⟩

theorem Shrinks.mem (shrinks : Shrinks asm next) {addr : IpAddr} (stored : addr ∈ next.actors) :
    addr ∈ asm.actors := by
  obtain ⟨actor, found⟩ := HashMap.get_of_mem stored
  exact HashMap.mem_of_get (shrinks.actors addr actor found)

/-! ### Whose record stays -/

variable {node other : IpAddr}

theorem removeActor_of_ne (apart : addr ≠ other) :
    (asm.removeActorByZprAddr addr).2.actors[other]? = asm.actors[other]? := by
  rcases asm.removeActor_cases addr with ⟨-, isKept⟩ | ⟨-, _, _, _, isRemoved, -⟩
  · rw [isKept]
  · rw [isRemoved]
    exact (HashMap.get_erase ..).trans (if_neg apart)

theorem removeDepartedAdapters_of_spared {addrs : List IpAddr}
    (spared : other ∉ addrs ∨ other = asm.vsAddr) :
    (asm.removeDepartedAdapters addrs).2.actors[other]? = asm.actors[other]? := by
  have kept : (asm.removeDepartedAdapters addrs).2.vsAddr = asm.vsAddr ∧
      (asm.removeDepartedAdapters addrs).2.actors[other]? = asm.actors[other]? := by
    refine @removeDepartedAdapters_keeps _ asm
      (fun now => now.vsAddr = asm.vsAddr ∧ now.actors[other]? = asm.actors[other]?) addrs ⟨rfl, rfl⟩
      (fun now addr member notVs same => ?_) fun now addr _ _ same => ?_
    · have apart : addr ≠ other := by
        rintro rfl
        exact spared.elim (fun absent => absent member) (same.1 ▸ notVs)
      exact ⟨(shrinks_removeActor now addr).vsAddr.trans same.1, (removeActor_of_ne apart).trans same.2⟩
    · refine ⟨(shrinks.release now addr).vsAddr.trans same.1, ?_⟩
      rw [releaseAddr_actors]
      exact same.2
  exact kept.2

theorem removeDisconnected_of_ne (apart : addr ≠ other) :
    (asm.removeDisconnected addr).actors[other]? = asm.actors[other]? := by
  obtain ⟨trusted, isRemoved⟩ := asm.removeDisconnected_eq addr
  rw [isRemoved]
  exact removeActor_of_ne apart

theorem disconnect_of_spared (apart : node ≠ other)
    (spared : ¬ asm.connections.Holds node other ∨ other = asm.vsAddr) :
    (asm.disconnect node).2.actors[other]? = asm.actors[other]? := by
  have removes : (asm.removeDisconnected node).actors[other]? = asm.actors[other]? :=
    removeDisconnected_of_ne apart
  have fewer := shrinks.removeDisconnected asm node
  rcases asm.disconnect_cases node with
    ⟨isDone, -⟩ | ⟨-, -, isDone⟩ | ⟨-, -, docked, departed, left, isDocked, isLeft, ended⟩
  · rw [isDone]
  · rw [isDone, finishDisconnect, releaseAddr_actors]
    exact removes
  · have stays : other ∉ docked ∨ other = (asm.removeDisconnected node).vsAddr := by
      refine spared.imp (fun unlisted => ?_) fun isVs => isVs.trans fewer.vsAddr.symm
      rw [isDocked]
      split
      · exact List.not_mem_nil
      · rw [SetOrder.mem_list, Rows.mem_row]
        exact fun holds => unlisted (fewer.connections _ _ holds)
    have leaves : left.actors[other]? = (asm.removeDisconnected node).actors[other]? := by
      have same := removeDepartedAdapters_of_spared stays
      rwa [isLeft] at same
    rcases ended with ⟨-, isDone⟩ | ⟨-, isDone⟩
    · rw [isDone]
      exact leaves.trans removes
    · rw [isDone, finishDisconnect, releaseAddr_actors]
      exact leaves.trans removes

end Assembly

end VisaService
