import VisaService.Assembly.Departure
import VisaService.Assembly.Sweeps
import VisaService.Lib.Run

/-!
# Whom the denylist sweep removes

The denylist sweep decides about an actor when it has loaded it. The removal comes later, after
the docking node has answered the revocation, and goes by address: whoever is stored at the
address then is removed. The other two sweeps load the actor again before they remove it.
Nodes are disconnected, and their adapters go with them, whatever their name.

Main results: `successor_removed` and `removed_only_if_denied`.
-/
namespace VisaService

open Lib Prog

variable {codec : VisaCodec}

namespace Assembly

variable {asm : Assembly codec} {addr node other : IpAddr}

/-- Admitted by bootstrap under a name that is on the denylist. -/
def Denied (asm : Assembly codec) (addr : IpAddr) (actor : Actor) : Prop :=
  (deniedCn asm.denied addr actor).isSome = true
  deriving Decidable

/-- Whoever is stored at the address is denied. -/
def OnlyDenied (asm : Assembly codec) (addr : IpAddr) : Prop :=
  ∀ actor ∈ asm.actors[addr]?, asm.Denied addr actor
  deriving Decidable

theorem connect_records {asm now : Assembly codec} {actor : Actor} {addr dock : IpAddr}
    (connects : asm.connect actor addr dock = some now) :
    now.denied = asm.denied ∧ ∀ other : IpAddr, now.actors[other]? =
      if addr = other then some actor else asm.actors[other]? := by
  obtain ⟨-, table, connections, -, rfl⟩ := connect_cases connects
  exact ⟨rfl, fun _ => HashMap.get_insert _ _ _ _⟩

end Assembly

/-! ### Which records a call removes -/

def SweepCall.Disconnects (node : IpAddr) : {β : Type} → SweepCall β → Prop
  | _, .disconnect other => other = node
  | _, _ => False

variable {β : Type}

/-- The record at the address goes only through its own removal, its own disconnect or that of
the node it is listed at. -/
theorem SweepCall.removed_cases {call : SweepCall β} {asm : Assembly codec} {addr : IpAddr}
    (stored : addr ∈ asm.actors) (gone : (call.exec asm).2.actors[addr]? = none) :
    call.Targets addr ∨ ∃ node, call.Disconnects node ∧ asm.connections.Holds node addr ∧
      addr ≠ asm.vsAddr := by
  obtain ⟨actor, found⟩ := HashMap.get_of_mem stored
  -- a call that keeps the record has not removed it
  have kept {Claim : Prop} (same : (call.exec asm).2.actors[addr]? = asm.actors[addr]?) :
      Claim := by
    cases found.symm.trans (same.symm.trans gone)
  rcases call.exec_cases asm with ⟨target, aims⟩ | ⟨_, _, _, isDone⟩
  swap
  · exact kept (by rw [isDone])
  cases call with
  | removeActor other =>
    by_cases own : other = addr
    · exact .inl own
    · exact kept (Assembly.removeActor_of_ne own)
  | disconnect other =>
    by_cases own : other = addr
    · exact .inl own
    by_cases docked : asm.connections.Holds other addr ∧ addr ≠ asm.vsAddr
    · exact .inr ⟨other, rfl, docked⟩
    · refine kept (Assembly.disconnect_of_spared own ?_)
      by_cases listed : asm.connections.Holds other addr
      · exact .inr (not_not.mp fun notVs => docked ⟨listed, notVs⟩)
      · exact .inl listed
  | _ => exact aims.elim

theorem SweepCall.exec_shrinks (call : SweepCall β) (asm : Assembly codec) :
    (call.exec asm).2.denied = asm.denied ∧
      ∀ (addr : IpAddr) (actor : Actor), (call.exec asm).2.actors[addr]? = some actor →
        asm.actors[addr]? = some actor := by
  rcases call.exec_cases asm with ⟨target, aims⟩ | ⟨_, _, _, isDone⟩
  · cases call with
    | removeActor other =>
      have shrinks := Assembly.shrinks_removeActor asm other
      exact ⟨shrinks.denied, shrinks.actors⟩
    | disconnect other =>
      have shrinks := Assembly.shrinks.disconnect asm other
      exact ⟨shrinks.denied, shrinks.actors⟩
    | _ => exact aims.elim
  · rw [isDone]
    exact ⟨rfl, fun _ _ => id⟩

/-! ### What the pass aims at -/

/-- The addresses where the pass has found a denied actor, after one more reply. -/
def SweepCall.judge (denied : HashSet String) (judged : List IpAddr) :
    {β : Type} → SweepCall β → β → List IpAddr
  | _, .getActor addr, reply =>
    match reply with
    | .ok (some actor) => if (deniedCn denied addr actor).isSome then addr :: judged else judged
    | _ => judged
  | _, _, _ => judged

/-- The denylist is the one that the service has. -/
def SweepCall.Agrees (denied : HashSet String) : {β : Type} → SweepCall β → β → Prop
  | _, .listDenied, reply => ∀ listed, reply = .ok listed → listed = denied
  | _, _, _ => True

/-- The program removes and disconnects only at addresses where it has found a denied actor. -/
def Aimed {α : Type} (denied : HashSet String) (post : α → List IpAddr → Prop) :
    SweepProg α → List IpAddr → Prop
  | .ret value, judged => post value judged
  | .fail _, _ => True
  | .call made next, judged => (∀ addr, made.Targets addr → addr ∈ judged) ∧
      ∀ reply, made.Agrees denied reply →
        Aimed denied post (next reply) (made.judge denied judged reply)

section Aimed

variable {α β : Type} {denied : HashSet String} {post : β → List IpAddr → Prop}
  {judged : List IpAddr}

variable {prog : SweepProg α} {rest : α → SweepProg β}

theorem aimed_bind {first : α → List IpAddr → Prop} (aimed : Aimed denied first prog judged)
    (next : ∀ value later, first value later → Aimed denied post (rest value) later) :
    Aimed denied post (prog >>= rest) judged := by
  induction prog generalizing judged with
  | ret value => exact next value judged aimed
  | fail failure => trivial
  | call made more ih => exact ⟨aimed.1, fun reply agrees => ih reply (aimed.2 reply agrees)⟩

theorem aimed_lift_bind {made : SweepCall α} (targets : ∀ addr, made.Targets addr → addr ∈ judged)
    (next : ∀ reply, made.Agrees denied reply →
      Aimed denied post (rest reply) (made.judge denied judged reply)) :
    Aimed denied post (lift made >>= rest) judged := ⟨targets, next⟩

theorem aimed_matchDenied (addrs : List IpAddr) {found : List DeniedEntry}
    (among : ∀ entry ∈ found, entry.addr ∈ judged) (stats : DenylistSweepStats) :
    Aimed denied (fun result later => ∀ entry ∈ result.1, entry.addr ∈ later)
      (matchDenied denied addrs found stats) judged := by
  induction addrs generalizing found stats judged with
  | nil => exact among
  | cons addr rest ih =>
    refine aimed_lift_bind (fun _ target => target.elim) fun reply _ => ?_
    match reply with
    | .ok none | .error _ => exact ih among _
    | .ok (some actor) =>
      simp only [SweepCall.judge]
      cases named : deniedCn denied addr actor with
      | none => exact ih among _
      | some cn =>
        simp only [Option.isSome_some, if_true]
        refine aimed_lift_bind (fun _ target => target.elim) fun dock _ => ih (fun entry member => ?_) _
        rcases List.mem_append.mp member with before | new
        · exact List.mem_cons_of_mem _ (among entry before)
        · rw [List.mem_singleton.mp new]
          exact List.mem_cons_self

theorem aimed_of_makes {now : List IpAddr} {post : α → List IpAddr → Prop}
    (makes : Makes (fun call => call.Within (· ∈ judged)) prog) (found : judged ⊆ now)
    (ends : ∀ value later, judged ⊆ later → post value later) :
    Aimed denied post prog now := by
  induction prog generalizing now with
  | ret value => exact ends value now found
  | fail failure => trivial
  | call made next ih =>
    refine ⟨fun addr target => found (makes.1.1 addr target), fun reply _ =>
      ih reply (makes.2 reply) ?_⟩
    have grows : now ⊆ made.judge denied now reply := by
      unfold SweepCall.judge
      split
      · split
        · split
          · exact List.subset_cons_self _ _
          · exact List.Subset.refl _
        · exact List.Subset.refl _
      · exact List.Subset.refl _
    exact List.Subset.trans found grows

theorem aimed_sweepDenylistedActors :
    Aimed denied (fun _ _ => True) sweepDenylistedActors [] := by
  refine aimed_lift_bind (fun _ target => target.elim) fun reply agrees => ?_
  match reply with
  | .error _ => trivial
  | .ok listed =>
    cases agrees listed rfl
    dsimp only
    split
    · trivial
    refine aimed_lift_bind (fun _ target => target.elim) fun reply _ => ?_
    match reply with
    | .error _ => trivial
    | .ok addrs =>
      refine aimed_bind (aimed_matchDenied addrs (by simp) _) ?_
      rintro ⟨found, stats⟩ judged among
      refine aimed_bind (aimed_of_makes (within_disconnectDenied (fun entry member =>
        among entry (List.mem_of_mem_filter member)) [] stats) (List.Subset.refl _)
        fun _ _ grown => grown) ?_
      rintro ⟨gone, stats⟩ later grown
      refine aimed_of_makes (within_revokeDenied (fun batch isBatch entry member => ?_) _)
        (List.Subset.refl _) fun _ _ _ => trivial
      obtain ⟨source, isSource, -, rfl⟩ := mem_batchEntries isBatch member
      exact grown (among source (List.mem_of_mem_filter isSource))

end Aimed

/-! ### A pass among connects and disconnects -/

/-- A record that the pass has removed, and whether it was denied then. -/
structure RemovedRecord where
  addr : IpAddr
  actor : Actor
  denied : Bool

structure DenylistPass (codec : VisaCodec) where
  asm : Assembly codec
  left : SweepProg Unit
  /-- Bookkeeping: where the pass has found a denied actor. -/
  judged : List IpAddr
  /-- Bookkeeping: the records that the pass has removed. -/
  removed : List RemovedRecord

inductive DenylistEvent where
  | sweep (answer : Answer)
  | connect (actor : Actor) (addr dock : IpAddr)
  | disconnect (addr : IpAddr) (answer : Answer)

def Assembly.removedBy (asm next : Assembly codec) : List RemovedRecord :=
  (asm.actors.toList.filter fun (addr, _) => next.actors[addr]?.isNone).map fun (addr, actor) =>
    ⟨addr, actor, decide (asm.Denied addr actor)⟩

namespace DenylistPass

def start (asm : Assembly codec) : DenylistPass codec :=
  ⟨asm, Sweep.denylistedActors.prog, [], []⟩

def step (pass : DenylistPass codec) : DenylistEvent → Option (DenylistPass codec)
  | .sweep answer =>
    match pass.left with
    | .call made next =>
      let (reply, asm) := made.exec { pass.asm with answer }
      some
        { asm
          left := next reply
          judged := made.judge pass.asm.denied pass.judged reply
          removed := pass.removed ++ pass.asm.removedBy asm }
    | _ => none
  | .connect actor addr dock =>
    (pass.asm.connect actor addr dock).map fun asm => { pass with asm }
  | .disconnect addr answer =>
    some { pass with asm := ({ pass.asm with answer }.disconnect addr).2 }

/-- The adapters of a node that the call disconnects are denied. -/
def CascadesDenied {β : Type} (call : SweepCall β) (asm : Assembly codec) : Prop :=
  match call with
  | .disconnect node => ∀ docked ∈ (asm.connections[node]?.getD ∅).toList, docked ≠ asm.vsAddr →
      asm.OnlyDenied docked
  | _ => True

instance {β : Type} (call : SweepCall β) (asm : Assembly codec) :
    Decidable (CascadesDenied call asm) :=
  match call with
  | .disconnect _ => inferInstanceAs (Decidable (∀ _ ∈ _, _ → _))
  | .removeActor _ | .listActors _ | .getActor _ | .dockingNode _ | .clock | .listObligations
  | .removeObligation _ | .listDenied | .getHandle _ | .revokeAuths _ _ | .requestAuths _ _ =>
    isTrue trivial

/-- Only denied actors connect where the pass has found one, and only denied adapters are docked
at a node that the pass disconnects. -/
def Unreused (pass : DenylistPass codec) : DenylistEvent → Prop
  | .sweep _ =>
    match pass with
    | ⟨asm, .call made _, _, _⟩ => CascadesDenied made asm
    | _ => True
  | .connect actor addr _ => addr ∈ pass.judged → pass.asm.Denied addr actor
  | .disconnect _ _ => True

instance (pass : DenylistPass codec) (event : DenylistEvent) : Decidable (pass.Unreused event) :=
  match event with
  | .sweep _ =>
    match pass with
    | ⟨asm, .call made _, _, _⟩ => inferInstanceAs (Decidable (CascadesDenied made asm))
    | ⟨_, .ret _, _, _⟩ | ⟨_, .fail _, _, _⟩ => isTrue trivial
  | .connect .. => inferInstanceAs (Decidable (_ → _))
  | .disconnect _ _ => isTrue trivial

/-- Whoever is stored where the pass has found a denied actor is denied. -/
structure Inv (pass : DenylistPass codec) : Prop where
  aimed : Aimed pass.asm.denied (fun _ _ => True) pass.left pass.judged
  judged : ∀ addr ∈ pass.judged, pass.asm.OnlyDenied addr
  removed : ∀ record ∈ pass.removed, record.denied = true

variable {pass next : DenylistPass codec}

variable {asm : Assembly codec} {β : Type} {made : SweepCall β} {judged : List IpAddr}

theorem onlyDenied_of_fewer {now : Assembly codec} (denied : now.denied = asm.denied)
    (fewer : ∀ (addr : IpAddr) (actor : Actor), now.actors[addr]? = some actor →
      asm.actors[addr]? = some actor) {addr : IpAddr} (only : asm.OnlyDenied addr) :
    now.OnlyDenied addr := by
  intro actor stored
  have before := only actor (fewer addr actor stored)
  unfold Assembly.Denied at before ⊢
  rw [denied]
  exact before

theorem judge_onlyDenied (only : ∀ addr ∈ judged, asm.OnlyDenied addr) :
    ∀ addr ∈ made.judge asm.denied judged (made.exec asm).1, asm.OnlyDenied addr := by
  cases made with
  | getActor other =>
    simp only [SweepCall.judge, SweepCall.exec, Assembly.getActorByZprAddr]
    split
    next actor replied =>
      split at replied
      · cases replied
      split
      next isDenied =>
        intro addr member
        rcases List.mem_cons.mp member with rfl | earlier
        · intro stored isStored
          have same : asm.actors[addr]? = some actor := Except.ok.inj replied
          cases same.symm.trans isStored
          exact isDenied
        · exact only addr earlier
      · exact only
    · exact only
  | _ => exact only

theorem exec_agrees (made : SweepCall β) (asm : Assembly codec) :
    made.Agrees asm.denied (made.exec asm).1 := by
  cases made with
  | listDenied =>
    intro listed replied
    simp only [SweepCall.exec] at replied
    split at replied <;> cases replied
    rfl
  | _ => trivial

theorem removedBy_denied (targets : ∀ addr, made.Targets addr → addr ∈ judged)
    (only : ∀ addr ∈ judged, asm.OnlyDenied addr) (cascades : CascadesDenied made asm) :
    ∀ record ∈ asm.removedBy (made.exec asm).2, record.denied = true := by
  intro record member
  obtain ⟨⟨addr, actor⟩, isGone, rfl⟩ := List.mem_map.mp member
  obtain ⟨isStored, gone⟩ := List.mem_filter.mp isGone
  have stored := Std.ExtTreeMap.mem_toList_iff_getElem?_eq_some.mp isStored
  refine decide_eq_true ?_
  rcases SweepCall.removed_cases (HashMap.mem_of_get stored) (Option.isNone_iff_eq_none.mp gone)
    with target | ⟨node, disconnects, listed, notVs⟩
  · exact only addr (targets addr target) actor stored
  · cases made with
    | disconnect other =>
      cases (show other = node from disconnects)
      refine cascades addr ?_ notVs actor stored
      exact Std.ExtTreeSet.mem_toList.mpr (Rows.mem_row.mpr listed)
    | _ => exact disconnects.elim

theorem Inv.step {event : DenylistEvent} (inv : pass.Inv) (unreused : pass.Unreused event)
    (stepped : pass.step event = some next) : next.Inv := by
  cases event with
  | sweep answer =>
    obtain ⟨asm, left, judged, removed⟩ := pass
    cases left with
    | ret value | fail failure => cases stepped
    | call made rest =>
      cases stepped
      have fewer := made.exec_shrinks { asm with answer }
      -- The step of the pass itself: what it removes was found denied, or is docked at such a node.
      have cascades : CascadesDenied made { asm with answer } := by
        cases made <;> exact unreused
      constructor
      case aimed =>
        have follows := inv.aimed.2 _ (exec_agrees made { asm with answer })
        exact fewer.1.symm ▸ follows
      case judged =>
        intro addr member
        exact onlyDenied_of_fewer fewer.1 fewer.2
          (@judge_onlyDenied _ { asm with answer } _ made judged inv.judged addr member)
      case removed =>
        intro record member
        rcases List.mem_append.mp member with earlier | isNew
        · exact inv.removed record earlier
        · exact @removedBy_denied _ { asm with answer } _ made judged inv.aimed.1 inv.judged
            cascades record isNew
  | connect actor addr dock =>
    obtain ⟨now, connects, rfl⟩ := Option.map_eq_some_iff.mp stepped
    obtain ⟨denied, records⟩ := Assembly.connect_records connects
    refine ⟨denied ▸ inv.aimed, fun other isJudged stored isStored => ?_, inv.removed⟩
    unfold Assembly.Denied
    rw [denied]
    rw [Option.mem_def, records other] at isStored
    split at isStored
    next own =>
      subst own
      cases isStored
      exact unreused isJudged
    · exact inv.judged other isJudged stored isStored
  | disconnect addr answer =>
    cases stepped
    have shrinks := Assembly.shrinks.disconnect { pass.asm with answer } addr
    refine ⟨?_, fun other isJudged => ?_, inv.removed⟩
    · exact shrinks.denied.symm ▸ inv.aimed
    · exact onlyDenied_of_fewer shrinks.denied shrinks.actors (inv.judged other isJudged)

/-- In every interleaving of the pass with connects and disconnects in which nobody else takes
over the address of a denied actor that the pass has found, and only denied adapters are docked
at a node that the pass disconnects: every record that the pass removed was, when it was
removed, that of an actor admitted by bootstrap under a name on the denylist. -/
theorem removed_only_if_denied {asm : Assembly codec} {events : List DenylistEvent}
    {final : DenylistPass codec} (unreused : Meets step Unreused (start asm) events)
    (ran : run step (start asm) events = some final) :
    ∀ record ∈ final.removed, record.denied = true := by
  have initial : (start asm).Inv := by
    refine ⟨?_, by simp [start], by simp [start]⟩
    exact aimed_bind aimed_sweepDenylistedActors fun _ _ _ => trivial
  exact (run_preserves_of_meets (fun _ _ _ inv unreused stepped => inv.step unreused stepped)
    initial unreused ran).removed

end DenylistPass

namespace SweepSample

def named (number : Nat) (cn : String) : Actor :=
  { adapter number "1" with
    attrs := (adapter number "1").attrs.insert Key.cn (.internal 0 Key.cn [cn]) }

def rogueAdapter : Assembly VisaCodec.plain :=
  { idle with
    actors := (∅ : HashMap IpAddr Actor).insert (addr 1) (named 1 "rogue")
    connectionTable := (∅ : HashMap IpAddr IpAddr).insert (addr 1) dock
    connections := (∅ : Rows IpAddr IpAddr).add dock (addr 1)
    denied := (∅ : HashSet String).insert "rogue" }

def sweeps (count : Nat) : List DenylistEvent :=
  List.replicate count (.sweep { (idle).answer with processed := some 1 })

/-- The rogue adapter leaves after the node has revoked it, and another one gets its address
before the pass removes it. -/
def takenOver : List DenylistEvent :=
  sweeps 6 ++ [.disconnect (addr 1) (idle).answer, .connect (named 1 "printer") (addr 1) dock] ++
    sweeps 1

def afterDenylist (events : List DenylistEvent) : DenylistPass VisaCodec.plain :=
  (run DenylistPass.step (.start rogueAdapter) events).getD (.start rogueAdapter)

end SweepSample

namespace DenylistPass

open SweepSample in
/-- The pass has found the rogue adapter, and removes the one that came after it. -/
theorem successor_removed :
    ¬ ∀ (codec : VisaCodec) (asm : Assembly codec) (events : List DenylistEvent)
      (final : DenylistPass codec), run step (start asm) events = some final →
      ∀ record ∈ final.removed, record.denied = true := by
  intro always
  have ran : run step (start rogueAdapter) takenOver = some (afterDenylist takenOver) :=
    run_eq_some_getD (by decide +kernel) _
  have denied := always .plain rogueAdapter takenOver (afterDenylist takenOver) ran
  revert denied
  decide +kernel

open SweepSample in
theorem rogue_removed :
    (afterDenylist (sweeps 7)).removed.map RemovedRecord.addr = [addr 1] ∧
      ∀ record ∈ (afterDenylist (sweeps 7)).removed, record.denied = true := by
  have ran : run step (start rogueAdapter) (sweeps 7) = some (afterDenylist (sweeps 7)) :=
    run_eq_some_getD (by decide +kernel) _
  exact ⟨by decide +kernel, removed_only_if_denied (by decide +kernel) ran⟩

end DenylistPass

end VisaService
