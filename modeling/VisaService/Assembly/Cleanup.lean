import VisaService.Assembly.Departure
import VisaService.Assembly.Sweeps
import VisaService.Assembly.VisaCleanup
import VisaService.Lib.Run

/-!
# What a departure should leave behind

When an actor leaves, its live visas should be withdrawn, its address returned to the pool and
the revisions recorded for it forgotten. A disconnect sees to all three, for the actor and for
the adapters docked at a node. The sweeps remove the record of an adapter and stop there.

Main results: `swept_adapter_keeps_visa` and `removed_only_if_clean`.
-/
namespace VisaService

open Lib

variable {codec : VisaCodec}

namespace Assembly

/-- Nothing is left of whoever was at the address. -/
structure Clean (addr : IpAddr) (asm : Assembly codec) : Prop where
  visas : ∀ (id : Nat) (entry : VisaEntry),
    liveEntry asm.visas.now asm.visas.store id = some entry → addr ∈ entry.metadata.endpoints →
      ∀ (node : IpAddr) (ns : NodeState), entry.nodeStates[node]? = some ns →
        ns.state = .pendingRevoke
  returned : ¬ asm.net.InUse addr
  forgotten : addr ∉ asm.trusted.actorRevisions

theorem clean_iff {addr : IpAddr} {asm : Assembly codec} :
    asm.Clean addr ↔
      (∀ item ∈ asm.visas.store.visas.toList, item.2.isLive asm.visas.now = true →
        addr ∈ item.2.metadata.endpoints →
          ∀ state ∈ item.2.nodeStates.toList, state.2.state = .pendingRevoke) ∧
      ¬ asm.net.InUse addr ∧ addr ∉ asm.trusted.actorRevisions := by
  constructor
  · rintro ⟨visas, returned, forgotten⟩
    refine ⟨fun item member live ends state isState => ?_, returned, forgotten⟩
    have found := Std.ExtTreeMap.mem_toList_iff_getElem?_eq_some.mp member
    exact visas item.1 item.2 (liveEntry_eq_some.mpr ⟨found, VisaEntry.isLive_iff.mp live⟩) ends
      state.1 state.2 (Std.ExtTreeMap.mem_toList_iff_getElem?_eq_some.mp isState)
  · rintro ⟨visas, returned, forgotten⟩
    refine ⟨fun id entry live ends node ns found => ?_, returned, forgotten⟩
    obtain ⟨stored, unexpired⟩ := liveEntry_eq_some.mp live
    exact visas (id, entry) (Std.ExtTreeMap.mem_toList_iff_getElem?_eq_some.mpr stored)
      (VisaEntry.isLive_iff.mpr unexpired) ends (node, ns)
      (Std.ExtTreeMap.mem_toList_iff_getElem?_eq_some.mpr found)

instance decidableClean (addr : IpAddr) (asm : Assembly codec) : Decidable (asm.Clean addr) :=
  decidable_of_iff _ clean_iff.symm

/-- The indexes of the visa store are exact, and the pools are the configured ones. -/
structure Sound (asm : Assembly codec) : Prop where
  indexed : asm.visas.store.Indexed
  net : asm.net.Wf

/-- Visas, addresses and revisions only go. -/
structure Tidies (asm next : Assembly codec) : Prop where
  visas : asm.visas.Departs next.visas
  wf : asm.net.Wf → next.net.Wf
  net : asm.net.Wf → ∀ addr, next.net.InUse addr → asm.net.InUse addr
  trusted : ∀ addr, addr ∈ next.trusted.actorRevisions → addr ∈ asm.trusted.actorRevisions

variable {asm mid next : Assembly codec} {addr : IpAddr}

theorem Tidies.refl (asm : Assembly codec) : Tidies asm asm :=
  ⟨.refl _, id, fun _ _ => id, fun _ => id⟩

theorem Tidies.trans (one : Tidies asm mid) (two : Tidies mid next) : Tidies asm next where
  visas := one.visas.trans two.visas
  wf wf := two.wf (one.wf wf)
  net wf addr inUse := one.net wf addr (two.net (one.wf wf) addr inUse)
  trusted addr member := one.trusted addr (two.trusted addr member)

theorem Tidies.sound (tidies : Tidies asm next) (sound : asm.Sound) : next.Sound :=
  ⟨tidies.visas.indexed sound.indexed, tidies.wf sound.net⟩

theorem Tidies.clean (tidies : Tidies asm next) (sound : asm.Sound) (clean : asm.Clean addr) :
    next.Clean addr where
  visas id after live ends node ns found := by
    obtain ⟨before, wasLive, lessened⟩ := tidies.visas.liveEntry live
    rw [lessened.metadata] at ends
    rcases lessened.states node ns found with pending | earlier
    · exact pending
    · exact clean.visas id before wasLive ends node ns earlier
  returned inUse := clean.returned (tidies.net sound.net addr inUse)
  forgotten member := clean.forgotten (tidies.trusted addr member)

/-! ### Every operation tidies -/

theorem tidies_releaseAddr (asm : Assembly codec) (addr : IpAddr) :
    Tidies asm (asm.releaseAddr addr) := by
  obtain ⟨net, isReleased, rfl | released⟩ := asm.releaseAddr_cases addr
  · rw [isReleased]
    exact .refl asm
  · rw [isReleased]
    refine ⟨.refl _, fun wf => (NetMgr.releaseZprAddr_inUse wf released).1, ?_, fun _ => id⟩
    exact fun wf other inUse => (((NetMgr.releaseZprAddr_inUse wf released).2 other).mp inUse).1

theorem tidies : Departing (@Tidies codec) where
  refl := .refl
  trans := .trans
  removeActor asm addr := by
    rcases asm.removeActor_cases addr with ⟨-, isKept⟩ | ⟨-, _, _, _, isRemoved, -⟩
    · rw [isKept]
      exact .refl asm
    · rw [isRemoved]
      exact ⟨.refl _, id, fun _ _ => id, fun _ => id⟩
  forgetRevisions _ _ :=
    ⟨.refl _, id, fun _ _ => id, fun _ member => (HashMap.mem_erase.mp member).1⟩
  releaseAddr := tidies_releaseAddr
  withdraw _ _ := ⟨Repo.departs_removeVisasForActors _ _ _, id, fun _ _ => id, fun _ => id⟩
  clearNode _ _ _ := ⟨Repo.departs_removeVisasForNode _ _ _, id, fun _ _ => id, fun _ => id⟩

/-! ### A disconnect cleans up -/

/-- The address is back in the pool and its revisions are forgotten. -/
structure Freed (addr : IpAddr) (asm : Assembly codec) : Prop where
  returned : ¬ asm.net.InUse addr
  forgotten : addr ∉ asm.trusted.actorRevisions

theorem Tidies.freed (tidies : Tidies asm next) (wf : asm.net.Wf) (freed : asm.Freed addr) :
    next.Freed addr :=
  ⟨fun inUse => freed.returned (tidies.net wf addr inUse),
    fun member => freed.forgotten (tidies.trusted addr member)⟩

theorem not_inUse_releaseAddr (wf : asm.net.Wf) : ¬ (asm.releaseAddr addr).net.InUse addr := by
  unfold releaseAddr
  split
  · split
    next net released =>
      exact fun inUse => (((NetMgr.releaseZprAddr_inUse wf released).2 addr).mp inUse).2 rfl
    next failed => exact NetMgr.not_inUse_of_release_error wf failed
  next unmanaged => exact fun inUse => unmanaged (NetMgr.isManaged_of_inUse wf inUse)

theorem not_mem_forgetRevisions : addr ∉ (asm.forgetRevisions addr).trusted.actorRevisions :=
  fun member => (HashMap.mem_erase.mp member).2 rfl

theorem removeActor_fine (fine : asm.answer.Fine) (addr : IpAddr) :
    ∃ removed : Assembly codec, asm.removeActorByZprAddr addr = (.ok (), removed) ∧
      removed.answer = asm.answer ∧ removed.net = asm.net := by
  unfold removeActorByZprAddr
  rw [fine.removes addr]
  dsimp only
  split <;> exact ⟨_, rfl, rfl, rfl⟩

theorem freed_forget_release (wf : asm.net.Wf) :
    ((asm.forgetRevisions addr).releaseAddr addr).Freed addr :=
  ⟨not_inUse_releaseAddr wf,
    fun member => not_mem_forgetRevisions ((tidies_releaseAddr _ addr).trusted addr member)⟩

variable {departed : List IpAddr} {other : IpAddr}

theorem removeDepartedAdapters_fine (fine : asm.answer.Fine) (wf : asm.net.Wf) {addrs : List IpAddr}
    {left : Assembly codec} (removes : asm.removeDepartedAdapters addrs = (departed, left))
    (stored : other ∈ asm.actors) :
    other ∈ left.actors ∨ other ∈ departed ∧ left.Freed other := by
  induction addrs generalizing asm departed with
  | nil =>
    cases removes
    exact .inl stored
  | cons addr rest ih =>
    unfold removeDepartedAdapters at removes
    split at removes
    · exact ih fine wf removes stored
    obtain ⟨removed, isRemoved, sameAnswer, sameNet⟩ := removeActor_fine fine addr
    rw [isRemoved] at removes
    cases removes
    have freed : ((removed.forgetRevisions addr).releaseAddr addr).Freed addr :=
      freed_forget_release (sameNet ▸ wf)
    have nowWf : ((removed.forgetRevisions addr).releaseAddr addr).net.Wf :=
      (tidies.release removed addr).wf (sameNet ▸ wf)
    by_cases own : addr = other
    · subst own
      exact .inr ⟨List.mem_cons_self,
        (tidies.removeDepartedAdapters _ rest).freed nowWf freed⟩
    · have still : other ∈ ((removed.forgetRevisions addr).releaseAddr addr).actors := by
        obtain ⟨actor, found⟩ := HashMap.get_of_mem stored
        have kept := @removeActor_of_ne _ asm addr other own
        rw [isRemoved] at kept
        rw [releaseAddr_actors]
        exact HashMap.mem_of_get (kept.trans found)
      have nowFine : ((removed.forgetRevisions addr).releaseAddr addr).answer.Fine := by
        rw [(shrinks.release removed addr).answer, sameAnswer]
        exact fine
      rcases ih nowFine nowWf rfl still with remains | ⟨departs, isFreed⟩
      · exact .inl remains
      · exact .inr ⟨List.mem_cons_of_mem _ departs, isFreed⟩

theorem visas_finishDisconnect (fine : asm.answer.Fine) (sound : asm.Sound)
    (encodes : ∀ visa, ∃ blob, codec.encode visa = .ok blob) (departs : other ∈ departed) (id : Nat)
    (entry : VisaEntry)
    (live : liveEntry (asm.finishDisconnect addr departed).visas.now (asm.finishDisconnect addr
      departed).visas.store id = some entry)
    (ends : other ∈ entry.metadata.endpoints) (node : IpAddr) (ns : NodeState)
    (found : entry.nodeStates[node]? = some ns) : ns.state = .pendingRevoke := by
  have same : (asm.finishDisconnect addr departed).visas =
      asm.visas.removeVisasForActors asm.answer.redis departed := by
    unfold finishDisconnect releaseAddr
    split
    · split <;> rfl
    · rfl
  rw [same] at live
  exact Repo.withdrawn_removeVisasForActors fine.redis encodes sound.indexed departs live ends
    entry live node ns found

theorem finishDisconnect_clean (sound : asm.Sound) (fine : asm.answer.Fine)
    (encodes : ∀ visa, ∃ blob, codec.encode visa = .ok blob) (departs : other ∈ departed)
    (freed : other = addr ∧ addr ∉ asm.trusted.actorRevisions ∨ asm.Freed other) :
    (asm.finishDisconnect addr departed).Clean other := by
  have tidies := tidies.finishDisconnect asm addr departed
  refine ⟨visas_finishDisconnect fine sound encodes departs, fun inUse => ?_, fun member => ?_⟩
  · rcases freed with ⟨rfl, -⟩ | isFreed
    · refine not_inUse_releaseAddr ?_ inUse
      exact sound.net
    · exact isFreed.returned (tidies.net sound.net other inUse)
  · rcases freed with ⟨rfl, absent⟩ | isFreed
    · exact absent (tidies.trusted _ member)
    · exact isFreed.forgotten (tidies.trusted other member)

/-- Without failures, whoever goes with a disconnect leaves nothing behind. -/
theorem disconnect_clean (fine : asm.answer.Fine) (sound : asm.Sound)
    (encodes : ∀ visa, ∃ blob, codec.encode visa = .ok blob) (stored : other ∈ asm.actors) :
    other ∈ (asm.disconnect addr).2.actors ∨ (asm.disconnect addr).2.Clean other := by
  obtain ⟨removed, isRemoved, sameAnswer, sameNet⟩ := removeActor_fine fine addr
  have isDisconnected : asm.removeDisconnected addr = removed.forgetRevisions addr := by
    rw [removeDisconnected, isRemoved]
  have removes := tidies.removeDisconnected asm addr
  have nowSound := removes.sound sound
  have nowFine : (asm.removeDisconnected addr).answer.Fine := by
    rw [(shrinks.removeDisconnected asm addr).answer]
    exact fine
  have forgotten : addr ∉ (asm.removeDisconnected addr).trusted.actorRevisions := by
    rw [isDisconnected]
    exact not_mem_forgetRevisions
  have kept (apart : other ≠ addr) : other ∈ (asm.removeDisconnected addr).actors := by
    obtain ⟨actor, found⟩ := HashMap.get_of_mem stored
    exact HashMap.mem_of_get ((removeDisconnected_of_ne (Ne.symm apart)).trans found)
  rcases asm.disconnect_cases addr with
    ⟨-, fails⟩ | ⟨-, -, isDone⟩ | ⟨-, -, docked, departed, left, -, isLeft, ended⟩
  · cases fine.reads.symm.trans fails
  · rw [isDone]
    by_cases own : other = addr
    · subst own
      exact .inr (finishDisconnect_clean nowSound nowFine encodes (List.mem_singleton_self _)
        (.inl ⟨rfl, forgotten⟩))
    · left
      rw [finishDisconnect, releaseAddr_actors]
      exact kept own
  -- A node: its docked adapters go with it.
  · rcases ended with ⟨nodeFails, -⟩ | ⟨-, isDone⟩
    · cases fine.node.symm.trans nodeFails
    rw [isDone]
    have leaves := tidies.removeDepartedAdapters (asm.removeDisconnected addr) docked
    rw [isLeft] at leaves
    have clears := tidies.clearNode left asm.answer.redis addr
    have lastSound := clears.sound (leaves.sound nowSound)
    have lastFine : left.answer.Fine := by
      have same := (shrinks.removeDepartedAdapters (asm.removeDisconnected addr) docked).answer
      rw [isLeft] at same
      rw [same]
      exact nowFine
    by_cases own : other = addr
    · subst own
      refine .inr (finishDisconnect_clean lastSound lastFine encodes List.mem_cons_self
        (.inl ⟨rfl, fun member => forgotten ?_⟩))
      exact leaves.trusted _ (clears.trusted _ member)
    · rcases removeDepartedAdapters_fine nowFine nowSound.net isLeft (kept own) with
        remains | ⟨departs, isFreed⟩
      · left
        rw [finishDisconnect, releaseAddr_actors]
        exact remains
      · exact .inr (finishDisconnect_clean lastSound lastFine encodes
          (List.mem_cons_of_mem _ departs)
          (.inr (clears.freed (leaves.sound nowSound).net isFreed)))

end Assembly

/-! ### Whole passes -/

/-- A sweep that removes the record of the address itself finds nothing to clean up. -/
def RemovesClean (addr : IpAddr) {β : Type} (call : SweepCall β) (asm : Assembly codec) : Prop :=
  match call with
  | .removeActor other => other = addr → asm.Clean addr
  | _ => True

theorem tidies_exec {β : Type} (call : SweepCall β) (asm : Assembly codec) :
    asm.Tidies (call.exec asm).2 := by
  rcases call.exec_cases asm with ⟨target, aims⟩ | ⟨_, _, _, isDone⟩
  · cases call with
    | removeActor addr => exact Assembly.tidies.removeActor asm addr
    | disconnect addr => exact Assembly.tidies.disconnect asm addr
    | _ => exact aims.elim
  · rw [isDone]
    exact ⟨.refl _, id, fun _ _ => id, fun _ => id⟩

theorem exec_clean {addr : IpAddr} {β : Type} {call : SweepCall β} {asm : Assembly codec}
    (fine : asm.answer.Fine) (sound : asm.Sound)
    (encodes : ∀ visa, ∃ blob, codec.encode visa = .ok blob) (clean : RemovesClean addr call asm)
    (stored : addr ∈ asm.actors) :
    addr ∈ (call.exec asm).2.actors ∨ (call.exec asm).2.Clean addr := by
  rcases call.exec_cases asm with ⟨target, aims⟩ | ⟨_, _, _, isDone⟩
  · cases call with
    | removeActor other =>
      by_cases own : other = addr
      · exact .inr ((Assembly.tidies.removeActor asm other).clean sound (clean own))
      · obtain ⟨actor, found⟩ := HashMap.get_of_mem stored
        exact .inl (HashMap.mem_of_get ((Assembly.removeActor_of_ne own).trans found))
    | disconnect node => exact Assembly.disconnect_clean fine sound encodes stored
    | _ => exact aims.elim
  · rw [isDone]
    exact .inl stored

namespace SweepPass

/-- The call to be made next, if it removes a record, finds nothing to clean up. -/
def Cleared (addr : IpAddr) (pass : SweepPass codec) : SweepEvent → Prop
  | .call _ => match pass.left with
    | .call made _ => RemovesClean addr made pass.asm
    | _ => True
  | .connect _ _ _ => True

instance decidableRemovesClean (addr : IpAddr) {β : Type} (call : SweepCall β)
    (asm : Assembly codec) : Decidable (RemovesClean addr call asm) :=
  match call with
  | .removeActor _ => inferInstanceAs (Decidable (_ → _))
  | .listActors _ | .getActor _ | .dockingNode _ | .clock | .listObligations
  | .removeObligation _ | .listDenied | .getHandle _ | .revokeAuths _ _ | .requestAuths _ _
  | .disconnect _ => isTrue trivial

instance decidableCleared (addr : IpAddr) (pass : SweepPass codec) (event : SweepEvent) :
    Decidable (pass.Cleared addr event) :=
  match event with
  | .call _ => match pass with
    | ⟨asm, .call made _⟩ => inferInstanceAs (Decidable (RemovesClean addr made asm))
    | ⟨_, .ret _⟩ | ⟨_, .fail _⟩ => isTrue trivial
  | .connect _ _ _ => isTrue trivial

/-- The database does not fail. -/
def NoFailure : SweepEvent → Prop
  | .call answer => answer.Fine
  | .connect _ _ _ => True

/-- What a pass keeps about one address. -/
structure Leaves (addr : IpAddr) (pass : SweepPass codec) : Prop where
  sound : pass.asm.Sound
  clean : addr ∈ pass.asm.actors ∨ pass.asm.Clean addr

theorem leaves_step {addr : IpAddr} {pass next : SweepPass codec} {event : SweepEvent}
    (encodes : ∀ visa, ∃ blob, codec.encode visa = .ok blob) (fine : NoFailure event)
    (leaves : pass.Leaves addr) (cleared : pass.Cleared addr event)
    (stepped : pass.step event = some next) : next.Leaves addr := by
  obtain ⟨asm, left⟩ := pass
  cases event with
  | call answer =>
    cases left with
    | ret value | fail failure => cases stepped
    | call made rest =>
      cases stepped
      have sound : { asm with answer }.Sound := ⟨leaves.sound.indexed, leaves.sound.net⟩
      have tidies := tidies_exec made { asm with answer }
      refine ⟨tidies.sound sound, ?_⟩
      rcases leaves.clean with stored | isClean
      · refine @exec_clean _ addr _ made { asm with answer } fine sound encodes ?_ stored
        cases made with
        | removeActor other =>
          exact fun own => ⟨(cleared own).visas, (cleared own).returned, (cleared own).forgotten⟩
        | _ => trivial
      · exact .inr (tidies.clean sound { isClean with })
  | connect actor other dock =>
    obtain ⟨now, connects, rfl⟩ := Option.map_eq_some_iff.mp stepped
    have kept := leaves.clean.imp_left (Assembly.mem_of_connect connects)
    obtain ⟨-, table, connections, -, rfl⟩ := Assembly.connect_cases connects
    exact ⟨{ leaves.sound with }, kept.imp_right fun isClean => { isClean with }⟩

/-- Every pass of every sweep without failures of the database, in which records are removed
only where there is nothing to clean up or by a disconnect: whoever was stored at the start is
stored, or has left nothing behind. -/
theorem removed_only_if_clean {sweep : Sweep} {asm : Assembly codec} (sound : asm.Sound)
    (encodes : ∀ visa, ∃ blob, codec.encode visa = .ok blob) {addr : IpAddr}
    (stored : addr ∈ asm.actors) {events : List SweepEvent} {final : SweepPass codec}
    (fine : ∀ event ∈ events, NoFailure event)
    (cleared : Meets step (Cleared addr) (start asm sweep) events)
    (ran : run step (start asm sweep) events = some final) :
    addr ∈ final.asm.actors ∨ final.asm.Clean addr := by
  have atStart : (start asm sweep).Leaves addr := ⟨{ sound with }, .inl stored⟩
  have both := cleared.and (meets_of_forall (fun event member _ => fine event member) _)
  exact (run_preserves_of_meets (fun _ _ _ leaves meets => leaves_step encodes meets.2 leaves
    meets.1) atStart both ran).clean

end SweepPass

namespace SweepSample

def entry : VisaEntry where
  visa := Sample.visa
  metadata := { Sample.metadata with fiveTuple := ⟨addr 1, addr 2, 6, 0, 443⟩ }
  deadline := 3600 * nanosPerSec
  nodeStates := (∅ : NodeStates).insert dock ⟨.installed, none⟩

/-- The adapter has a visa, an address of the pool and a recorded revision. -/
def visiting : Assembly VisaCodec.plain :=
  { docked idle 1 "1" with
    visas := { (idle).visas with store := insertEntry .empty 1 entry }
    net := { NetMgr.newV6 with adapterAddrs := ⟨adapterBaseV6net, (∅ : HashSet Nat).insert 1⟩ }
    trusted := (⟨∅, ∅, 0⟩ : TrustedServicesMgr).setRecord (addr 1) "hr" ⟨some 1, 0⟩ }

theorem visiting_sound : visiting.Sound :=
  ⟨Indexed.insertEntry indexed_empty rfl entry, ⟨rfl, rfl⟩⟩

theorem plain_encodes (visa : Visa) : ∃ blob, VisaCodec.plain.encode visa = .ok blob :=
  ⟨visa, rfl⟩

theorem processes_noFailure (count : Nat) : SweepPass.NoFailure (processes count) :=
  ⟨rfl, fun _ => rfl, rfl, rfl, rfl, fun _ => rfl⟩

theorem replicate_noFailure (length count : Nat) :
    ∀ event ∈ List.replicate length (processes count), SweepPass.NoFailure event := by
  intro event member
  rw [List.eq_of_mem_replicate member]
  exact processes_noFailure count

def afterSweep (asm : Assembly VisaCodec.plain) (sweep : Sweep) (calls : Nat) :
    SweepPass VisaCodec.plain :=
  (run SweepPass.step (.start asm sweep) (List.replicate calls (processes 1))).getD
    (.start asm sweep)

def node : Actor where
  attrs := (((∅ : HashMap String Attribute).insert Key.deviceAuthority
    ⟨Key.deviceAuthority, [authorityMethodBootstrap], nanosPerSec, "zpr"⟩).insert Key.cn
    (.internal 0 Key.cn ["rogue"])).insert Key.role (.internal 0 Key.role [roleNode])
  identityKeys := []
  zprAddr := some dock

def rogueDock : Assembly VisaCodec.plain :=
  { visiting with
    actors := visiting.actors.insert dock node
    denied := (∅ : HashSet String).insert "rogue" }

end SweepSample

open SweepSample in
/-- The expiry sweep revokes and removes an adapter; its visa is still installed, its address
in use and the revision recorded. -/
theorem swept_adapter_keeps_visa :
    ¬ ∀ (codec : VisaCodec) (sweep : Sweep) (asm : Assembly codec) (addr : IpAddr)
      (events : List SweepEvent) (final : SweepPass codec), asm.Sound →
      (∀ visa, ∃ blob, codec.encode visa = .ok blob) → addr ∈ asm.actors →
      (∀ event ∈ events, SweepPass.NoFailure event) →
      run SweepPass.step (.start asm sweep) events = some final →
      addr ∈ final.asm.actors ∨ final.asm.Clean addr := by
  intro cleans
  have ran : run SweepPass.step (.start visiting .expiredAuths)
      (List.replicate 8 (processes 1)) = some (afterSweep visiting .expiredAuths 8) :=
    run_eq_some_getD (by decide +kernel) _
  have ends := cleans .plain .expiredAuths visiting (addr 1) _ _ visiting_sound plain_encodes
    (by decide +kernel) (replicate_noFailure 8 1) ran
  revert ends
  decide +kernel

open SweepSample in
/-- The denylist sweep disconnects the docking node, and nothing is left of the adapter. -/
theorem disconnected_adapter_clean :
    addr 1 ∉ (afterSweep rogueDock .denylistedActors 6).asm.actors ∧
      (afterSweep rogueDock .denylistedActors 6).asm.Clean (addr 1) := by
  have gone : addr 1 ∉ (afterSweep rogueDock .denylistedActors 6).asm.actors := by decide +kernel
  have ran : run SweepPass.step (.start rogueDock .denylistedActors)
      (List.replicate 6 (processes 1)) = some (afterSweep rogueDock .denylistedActors 6) :=
    run_eq_some_getD (by decide +kernel) _
  have sound : rogueDock.Sound := { visiting_sound with }
  exact ⟨gone, (SweepPass.removed_only_if_clean sound plain_encodes
    (by decide +kernel) (replicate_noFailure 6 1) (by decide +kernel) ran).resolve_left gone⟩

end VisaService
