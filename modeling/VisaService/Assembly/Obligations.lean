import VisaService.Lib.Pool
import VisaService.Lib.Run
import VisaService.Assembly.Departure
import VisaService.Assembly.Sweeps

/-!
# Obligations that are pruned too early

An obligation to re-authenticate should go only when every connected actor, the visa service
apart, has authenticated under its policy or a later one. The sweep decides that on the actors
it could load after listing them, so an actor that fails to load does not count, nor one whose
record is written later.

Main results: `late_record_outlives_obligation` and `obligation_kept_until_met`.
-/
namespace VisaService

open Lib Prog

variable {codec : VisaCodec}

/-- The actor has authenticated under the policy or a later one, or is the visa service. -/
def Met (vinst : Nat) (addr : IpAddr) (actor : Actor) : Prop :=
  isVisaService addr actor = true ∨ vinst ≤ actorVinst actor
  deriving Decidable

def AllMet (vinst : Nat) (asm : Assembly codec) : Prop :=
  ∀ (addr : IpAddr) (actor : Actor), asm.actors[addr]? = some actor → Met vinst addr actor

/-- The obligation is pending, or every connected actor meets it. -/
def Enforced (vinst : Nat) (asm : Assembly codec) : Prop :=
  vinst ∈ asm.obligations ∨ AllMet vinst asm

section Covers

variable (vinst : Nat)

/-- While actors are being looked at, a load fails only for one that owes nothing. -/
def LoadsOwing {β : Type} (call : SweepCall β) (asm : Assembly codec) : Prop :=
  match call with
  | .getActor addr => asm.answer.fails = true → asm.listed = true →
    ∀ actor ∈ asm.actors[addr]?, Met vinst addr actor
  | _ => True

/-- What the others do between two calls: those who connect meet the obligation, or it is
pending and nobody is looking. -/
structure Joins (asm now : Assembly codec) : Prop where
  obligations : now.obligations = asm.obligations
  listed : now.listed = asm.listed
  actors : ∀ (addr : IpAddr) (actor : Actor), now.actors[addr]? = some actor →
    asm.actors[addr]? = some actor ∨ Met vinst addr actor ∨
      (vinst ∈ asm.obligations ∧ asm.listed = false)

/-- Whatever the others do, the program keeps the obligation covered. -/
abbrev Covers {α : Type} (post : α → Assembly codec → Prop) (prog : SweepProg α)
    (asm : Assembly codec) : Prop :=
  Safe (fun call asm => SweepCall.exec call asm) (fun call asm => LoadsOwing vinst call asm)
    (Joins vinst) (fun now next => Enforced vinst now → Enforced vinst next)
    (fun result asm => ∃ value, result = .ok value ∧ post value asm) prog asm

end Covers

section Rules

variable {vinst : Nat} {α β : Type} {asm now : Assembly codec}

theorem Joins.covered (joins : Joins vinst asm now) (covered : Enforced vinst asm) :
    Enforced vinst now := by
  rcases covered with pending | met
  · exact .inl (joins.obligations ▸ pending)
  · by_cases pending : vinst ∈ asm.obligations
    · exact .inl (joins.obligations ▸ pending)
    · refine .inr fun addr actor found => ?_
      rcases joins.actors addr actor found with stored | isMet | ⟨isPending, -⟩
      · exact met addr actor stored
      · exact isMet
      · exact absurd isPending pending

theorem Joins.trans {mid : Assembly codec} (one : Joins vinst asm mid) (two : Joins vinst mid now) :
    Joins vinst asm now where
  obligations := two.obligations.trans one.obligations
  listed := two.listed.trans one.listed
  actors addr actor found := by
    rcases two.actors addr actor found with stored | isMet | unseen
    · exact one.actors addr actor stored
    · exact .inr (.inl isMet)
    · rw [one.obligations, one.listed] at unseen
      exact .inr (.inr unseen)

theorem covers_bind {first : α → Assembly codec → Prop} {post : β → Assembly codec → Prop}
    {prog : SweepProg α} {rest : α → SweepProg β} (covers : Covers vinst first prog asm)
    (next : ∀ value (now : Assembly codec), first value now → Covers vinst post (rest value) now) :
    Covers vinst post (prog >>= rest) asm := by
  refine safe_bind (covers.imp fun result now ended => ?_)
  obtain ⟨value, rfl, holds⟩ := ended
  exact next value now holds

end Rules

/-! ### Everything but pruning -/

variable {vinst : Nat}

variable {asm next : Assembly codec}

theorem Assembly.Shrinks.covered (shrinks : asm.Shrinks next) (covered : Enforced vinst asm) :
    Enforced vinst next :=
  covered.imp (fun pending => shrinks.obligations ▸ pending)
    fun met addr actor found => met addr actor (shrinks.actors addr actor found)

theorem covered_exec {β : Type} {call : SweepCall β} (unpruning : Unpruning call)
    (asm : Assembly codec) (covered : Enforced vinst asm) : Enforced vinst (call.exec asm).2 := by
  cases call with
  | removeObligation _ => cases unpruning
  | removeActor addr => exact (Assembly.shrinks_removeActor asm addr).covered covered
  | disconnect addr => exact (Assembly.shrinks.disconnect asm addr).covered covered
  | revokeAuths node addrs =>
    dsimp only [SweepCall.exec, Assembly.revokeAuths]
    split <;> exact covered
  | listActors _ | getActor _ | dockingNode _ | clock | listObligations | listDenied
  | getHandle _ | requestAuths _ _ => exact covered

theorem covers_of_unpruning {α : Type} {prog : SweepProg α}
    (makes : Makes (fun call => Unpruning call) prog) (asm : Assembly codec) :
    Covers vinst (fun _ _ => True) prog asm := by
  have keeps : Makes (fun call => ∀ asm : Assembly codec, Enforced vinst asm →
      Enforced vinst (call.exec asm).2) prog :=
    makes_imp (fun _ unpruning asm => covered_exec unpruning asm) makes
  refine (safe_of_makes keeps asm).imp fun result now _ => ?_
  cases result with
  | ok value => exact ⟨value, rfl, trivial⟩
  | error failure => exact failure.elim

theorem enforceUnmet_unpruning (entries : List ReauthEntry) (unmet : List (Nat × Nat))
    (stats : ReauthSweepStats) :
    Makes (fun call => Unpruning call) (enforceUnmet entries unmet stats) :=
  makes_imp (fun _ within => within.2)
    (@within_enforceUnmet (fun _ => True) entries (fun _ _ => trivial) unmet stats)

/-! ### Looking and pruning -/

section Looking

variable {vinst : Nat} {asm : Assembly codec}

/-- Actors that owe the obligation are still to be loaded, or there is an entry that does. -/
structure Snapshot (vinst : Nat) (rest : List IpAddr) (entries : List ReauthEntry)
    (asm : Assembly codec) : Prop where
  listed : asm.listed = true
  owing : ∀ (addr : IpAddr) (actor : Actor), asm.actors[addr]? = some actor →
    Met vinst addr actor ∨ addr ∈ rest ∨ ∃ entry ∈ entries, entry.vinst < vinst

variable {entries : List ReauthEntry}

variable {rest : List IpAddr} {addr : IpAddr}

theorem Snapshot.joins {now : Assembly codec} (snapshot : Snapshot vinst rest entries asm)
    (joins : Joins vinst asm now) :
    Snapshot vinst rest entries now where
  listed := joins.listed.trans snapshot.listed
  owing addr actor found := by
    rcases joins.actors addr actor found with stored | isMet | ⟨-, unlisted⟩
    · exact snapshot.owing addr actor stored
    · exact .inl isMet
    · cases snapshot.listed.symm.trans unlisted

theorem Snapshot.tail {entries : List ReauthEntry}
    (snapshot : Snapshot vinst (addr :: rest) entries asm) (more : List ReauthEntry)
    (done : ∀ actor, asm.actors[addr]? = some actor →
      Met vinst addr actor ∨ ∃ entry ∈ more, entry.vinst < vinst) :
    Snapshot vinst rest (entries ++ more) asm where
  listed := snapshot.listed
  owing other actor found := by
    rcases snapshot.owing other actor found with isMet | member | ⟨entry, isEntry, owes⟩
    · exact .inl isMet
    · rcases List.mem_cons.mp member with rfl | later
      · rcases done actor found with isMet | ⟨entry, isEntry, owes⟩
        · exact .inl isMet
        · exact .inr (.inr ⟨entry, List.mem_append_right _ isEntry, owes⟩)
      · exact .inr (.inl later)
    · exact .inr (.inr ⟨entry, List.mem_append_left _ isEntry, owes⟩)

theorem Snapshot.skip (snapshot : Snapshot vinst (addr :: rest) entries asm)
    (done : ∀ actor, asm.actors[addr]? = some actor → Met vinst addr actor) :
    Snapshot vinst rest entries asm := by
  have skipped := snapshot.tail [] fun actor found => .inl (done actor found)
  rwa [List.append_nil] at skipped

theorem covers_loadEntries {addrs : List IpAddr} (snapshot : Snapshot vinst addrs entries asm) :
    Covers vinst (Snapshot vinst []) (loadEntries addrs entries) asm := by
  induction addrs generalizing asm entries with
  | nil => exact ⟨entries, rfl, snapshot⟩
  | cons addr rest ih =>
    refine safe_lift_bind fun now joins loads => ⟨id, ?_⟩
    have nowSnapshot := snapshot.joins joins
    dsimp only [SweepCall.exec, Assembly.getActorByZprAddr]
    by_cases fails : now.answer.fails = true
    · -- the actor is skipped, and by assumption owes nothing
      rw [if_pos fails]
      exact ih (nowSnapshot.skip fun actor found => loads fails nowSnapshot.listed actor found)
    · rw [if_neg fails]
      cases isActor : now.actors[addr]? with
      | none => exact ih (nowSnapshot.skip fun actor found => by cases isActor.symm.trans found)
      | some actor =>
        dsimp only
        split
        next exempt =>
          refine ih (nowSnapshot.skip fun other found => ?_)
          cases isActor.symm.trans found
          exact .inl exempt
        next =>
          have counted (dock : Option IpAddr) : Snapshot vinst rest
              (entries ++ [⟨addr, actorVinst actor, actor.isNode, dock⟩]) now := by
            refine nowSnapshot.tail _ fun other found => ?_
            cases isActor.symm.trans found
            rcases Nat.lt_or_ge (actorVinst actor) vinst with owes | meets
            · exact .inr ⟨_, List.mem_singleton_self _, owes⟩
            · exact .inl (.inr meets)
          exact safe_lift_bind fun later joins _ => ⟨id, ih ((counted _).joins joins)⟩

theorem covers_pruneObligations (snapshot : Snapshot vinst [] entries asm)
    (pending unmet : List (Nat × Nat)) (stats : ReauthSweepStats) :
    Covers vinst (fun _ _ => True) (pruneObligations entries pending unmet stats) asm := by
  induction pending generalizing asm unmet stats with
  | nil => exact ⟨_, rfl, trivial⟩
  | cons obligation rest ih =>
    unfold pruneObligations
    split
    next meets =>
      refine safe_lift_bind fun now joins _ => ?_
      have nowSnapshot := snapshot.joins joins
      dsimp only [SweepCall.exec]
      split
      · exact ⟨id, ih nowSnapshot _ _⟩
      have pruned : Snapshot vinst [] entries
          { now with obligations := now.obligations.erase obligation.1 } :=
        { nowSnapshot with }
      refine ⟨fun covered => ?_, ih pruned _ _⟩
      by_cases own : obligation.1 = vinst
      · -- every entry meets the obligation, and so does everybody
        refine .inr fun addr actor found => ?_
        rcases nowSnapshot.owing addr actor found with isMet | none | ⟨entry, isEntry, owes⟩
        · exact isMet
        · cases none
        · have atLeast := of_decide_eq_true (List.all_eq_true.mp meets entry isEntry)
          omega
      · exact covered.imp (fun isPending => HashMap.mem_erase.mpr ⟨isPending, Ne.symm own⟩) id
    next => exact ih snapshot _ _

theorem Assembly.mem_listActors {listed : List IpAddr} {actor : Actor}
    (lists : asm.listActors none = .ok listed) (found : asm.actors[addr]? = some actor) :
    addr ∈ listed := by
  unfold Assembly.listActors at lists
  split at lists
  · cases lists
  · cases lists
    have entry : (addr, actor) ∈ asm.actors.toList :=
      Std.ExtTreeMap.mem_toList_iff_getElem?_eq_some.mpr found
    rw [SetOrder.mem_list, Std.ExtTreeSet.mem_ofList, List.contains_iff_mem]
    exact List.mem_map.mpr ⟨(addr, actor), List.mem_filter.mpr ⟨entry, rfl⟩, rfl⟩

theorem covers_sweepReauthObligations (asm : Assembly codec) :
    Covers vinst (fun _ _ => True) sweepReauthObligations asm := by
  refine safe_lift_bind fun now joins _ => ⟨id, ?_⟩
  generalize (SweepCall.exec SweepCall.listObligations now).1 = reply
  cases reply with
  | error _ => exact ⟨_, rfl, trivial⟩
  | ok obligations =>
    dsimp only
    split
    · exact ⟨_, rfl, trivial⟩
    refine safe_lift_bind fun now joins _ => ⟨id, ?_⟩
    dsimp only [SweepCall.exec]
    cases lists : now.listActors none with
    | error _ => exact ⟨_, rfl, trivial⟩
    | ok listed =>
      have snapshot : Snapshot vinst listed [] { now with listed := true } :=
        ⟨rfl, fun addr actor found => .inr (.inl (Assembly.mem_listActors lists found))⟩
      refine covers_bind (covers_loadEntries snapshot) fun entries now snapshot => ?_
      exact covers_bind (covers_pruneObligations snapshot obligations [] _)
        fun pruned now _ => covers_of_unpruning (enforceUnmet_unpruning entries _ _) now

end Looking

/-! ### Whole passes -/

theorem Assembly.connect_joins {actor : Actor} {addr dock : IpAddr}
    (connects : asm.connect actor addr dock = some next)
    (meets : Met vinst addr actor ∨ vinst ∈ asm.obligations ∧ asm.listed = false) :
    Joins vinst asm next := by
  obtain ⟨-, table, connections, -, rfl⟩ := Assembly.connect_cases connects
  refine ⟨rfl, rfl, fun other stored found => ?_⟩
  rcases HashMap.of_get_insert found with ⟨rfl, rfl⟩ | ⟨-, before⟩
  · exact .inr meets
  · exact .inl before

namespace SweepPass

/-- A load that fails while actors are looked at is of an actor that meets the obligation; an
actor that connects meets it, or it is pending and the actors are not being looked at. -/
def Timely (vinst : Nat) (pass : SweepPass codec) : SweepEvent → Prop
  | .call answer => match pass.left with
    | .call made _ => LoadsOwing vinst made { pass.asm with answer }
    | _ => True
  | .connect actor addr _ =>
    Met vinst addr actor ∨ vinst ∈ pass.asm.obligations ∧ pass.asm.listed = false

instance decidableLoadsOwing {β : Type} (vinst : Nat) (call : SweepCall β) (asm : Assembly codec) :
    Decidable (LoadsOwing vinst call asm) :=
  match call with
  | .getActor _ => inferInstanceAs (Decidable (_ → _ → ∀ _ ∈ _, _))
  | .listActors _ | .dockingNode _ | .clock | .listObligations | .removeObligation _
  | .listDenied | .getHandle _ | .revokeAuths _ _ | .requestAuths _ _ | .removeActor _
  | .disconnect _ => isTrue trivial

instance decidableTimely (vinst : Nat) (pass : SweepPass codec) (event : SweepEvent) :
    Decidable (pass.Timely vinst event) :=
  match event with
  | .call answer => match pass with
    | ⟨asm, .call made _⟩ =>
      inferInstanceAs (Decidable (LoadsOwing vinst made { asm with answer }))
    | ⟨_, .ret _⟩ | ⟨_, .fail _⟩ => isTrue trivial
  | .connect .. => inferInstanceAs (Decidable (_ ∨ _))

/-- What a pass keeps about one obligation. -/
structure Upholds (vinst : Nat) (pass : SweepPass codec) : Prop where
  covered : Enforced vinst pass.asm
  covers : Covers vinst (fun _ _ => True) pass.left pass.asm

theorem upholds_step {vinst : Nat} {pass next : SweepPass codec} {event : SweepEvent}
    (upholds : pass.Upholds vinst) (timely : pass.Timely vinst event)
    (stepped : pass.step event = some next) : next.Upholds vinst := by
  obtain ⟨asm, left⟩ := pass
  cases event with
  | call answer =>
    cases left with
    | ret value | fail failure => cases stepped
    | call made rest =>
      cases stepped
      have same : Joins vinst asm { asm with answer } := ⟨rfl, rfl, fun _ _ => .inl⟩
      obtain ⟨keeps, later⟩ := upholds.covers { asm with answer } same timely
      exact ⟨keeps upholds.covered, later⟩
  | connect actor addr dock =>
    obtain ⟨now, connects, rfl⟩ := Option.map_eq_some_iff.mp stepped
    have joins := Assembly.connect_joins connects timely
    refine ⟨joins.covered upholds.covered, ?_⟩
    exact upholds.covers.stable (fun _ _ _ one two => one.trans two)
      (fun _ _ _ ended _ => ended.imp fun _ ends => ⟨ends.1, trivial⟩) joins

/-- Every pass whose steps are timely: an obligation that was pending at the start is pending,
or every connected actor but the visa service has authenticated under its policy or a later
one. -/
theorem obligation_kept_until_met {vinst : Nat} {asm : Assembly codec}
    (pending : vinst ∈ asm.obligations) {events : List SweepEvent} {final : SweepPass codec}
    (timely : Meets step (Timely vinst) (start asm .reauthObligations) events)
    (ran : run step (start asm .reauthObligations) events = some final) :
    vinst ∈ final.asm.obligations ∨
      ∀ (addr : IpAddr) (actor : Actor), final.asm.actors[addr]? = some actor →
        isVisaService addr actor = true ∨ vinst ≤ actorVinst actor := by
  have atStart : (start asm .reauthObligations).Upholds vinst :=
    ⟨.inl pending, covers_bind (covers_sweepReauthObligations _) fun _ _ _ => ⟨(), rfl, trivial⟩⟩
  exact (run_preserves_of_meets (fun _ _ _ upholds => upholds_step upholds) atStart timely
    ran).covered

end SweepPass

namespace SweepSample

/-- An obligation of the second policy; one adapter has met it. -/
def obliged : Assembly VisaCodec.plain :=
  { docked idle 1 "2" with obligations := (∅ : HashMap Nat Nat).insert 2 100 }

/-- Up to the pruning. A second adapter connects when the actors have been listed, under the
given policy. -/
def lateConnect (vinst : String) : List SweepEvent :=
  [processes 0, processes 0, .connect (adapter 2 vinst) (addr 2) dock] ++
    List.replicate 3 (processes 0)

def afterPruning (vinst : String) : SweepPass VisaCodec.plain :=
  (run SweepPass.step (.start obliged .reauthObligations) (lateConnect vinst)).getD
    (.start obliged .reauthObligations)

end SweepSample

open SweepSample in
/-- The adapter that connects under the first policy is not seen, and the obligation is
removed. -/
theorem late_record_outlives_obligation :
    ¬ ∀ (codec : VisaCodec) (vinst : Nat) (asm : Assembly codec) (events : List SweepEvent)
      (final : SweepPass codec), vinst ∈ asm.obligations →
      run SweepPass.step (.start asm .reauthObligations) events = some final →
      vinst ∈ final.asm.obligations ∨
        ∀ (addr : IpAddr) (actor : Actor), final.asm.actors[addr]? = some actor →
          isVisaService addr actor = true ∨ vinst ≤ actorVinst actor := by
  intro keeps
  have ran : run SweepPass.step (.start obliged .reauthObligations) (lateConnect "1") =
      some (afterPruning "1") :=
    run_eq_some_getD (by decide +kernel) _
  rcases keeps .plain 2 obliged (lateConnect "1") _ (by decide +kernel) ran with pending | met
  · exact absurd pending (by decide +kernel)
  have isSome : ((afterPruning "1").asm.actors[addr 2]?).isSome := by decide +kernel
  have owes : ((afterPruning "1").asm.actors[addr 2]?).all
      fun actor => !isVisaService (addr 2) actor && actorVinst actor < 2 := by decide +kernel
  obtain ⟨actor, found⟩ := Option.isSome_iff_exists.mp isSome
  rw [found] at owes
  have meets := met (addr 2) actor found
  simp only [Option.all_some, Bool.and_eq_true, Bool.not_eq_true', decide_eq_true_eq] at owes
  rcases meets with exempt | recent
  · cases owes.1.symm.trans exempt
  · omega

open SweepSample in
/-- An adapter that connects under the second policy does not owe anything. -/
theorem late_record_meets_obligation :
    2 ∉ (afterPruning "2").asm.obligations ∧ addr 2 ∈ (afterPruning "2").asm.actors ∧
      ∀ (addr : IpAddr) (actor : Actor), (afterPruning "2").asm.actors[addr]? = some actor →
        isVisaService addr actor = true ∨ 2 ≤ actorVinst actor := by
  have pruned : 2 ∉ (afterPruning "2").asm.obligations := by decide +kernel
  have ran : run SweepPass.step (.start obliged .reauthObligations) (lateConnect "2") =
      some (afterPruning "2") :=
    run_eq_some_getD (by decide +kernel) _
  exact ⟨pruned, by decide +kernel, (SweepPass.obligation_kept_until_met (by decide +kernel)
    (by decide +kernel) ran).resolve_left pruned⟩

end VisaService
