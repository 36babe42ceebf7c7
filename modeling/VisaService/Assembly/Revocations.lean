import VisaService.Lib.Pool
import VisaService.Lib.Run
import VisaService.Assembly.Departure
import VisaService.Assembly.Sweeps

/-!
# No removal without a revocation

A sweep should remove an adapter's record only when its docking node has revoked the adapter's
authentication. A node answers a batch with the number of entries it has revoked, counted from
the front. The sweeps of obligations and of the denylist remove just these; the sweep of expired
authentications removes the whole batch. The adapters of a node that a sweep disconnects go
without a revocation of their own.

Main results: `short_count_removes_unrevoked` and `removed_only_if_revoked`.
-/
namespace VisaService

open Lib Prog

variable {codec : VisaCodec}

section Secure

variable (sweep : Sweep) (addr : IpAddr) (dock : Option IpAddr)

/-- The node that is asked to revoke the adapter gets to it, as far as the expiry sweep is
concerned, and no node that lists the adapter is disconnected. -/
def Acknowledged {β : Type} (call : SweepCall β) (asm : Assembly codec) : Prop :=
  match call with
  | .revokeAuths _ addrs => sweep = .expiredAuths → addr ∈ addrs →
    ∀ processed ∈ asm.answer.processed, addr ∈ addrs.take processed
  | .disconnect node => ¬ asm.connections.Holds node addr
  | _ => True

/-- What the others do between two calls. -/
structure Others (asm now : Assembly codec) : Prop where
  stays : ∀ actor ∈ asm.actors[addr]?, actor.isNode = false → now.actors[addr]? = some actor ∧
    now.connectionTable[addr]? = asm.connectionTable[addr]?
  revoked : now.revoked = asm.revoked

def RevokedAt (asm : Assembly codec) : Prop := ∃ node, dock = some node ∧ (node, addr) ∈ asm.revoked

/-- The adapter is stored, or its docking node has revoked it. -/
def Accounted (asm : Assembly codec) : Prop := addr ∈ asm.actors ∨ RevokedAt addr dock asm

/-- Whatever the others do, the program keeps the adapter accounted for. -/
abbrev Secure {α : Type} (post : α → Prop) (prog : SweepProg α) (asm : Assembly codec) : Prop :=
  Safe (fun call asm => SweepCall.exec call asm) (fun call asm => Acknowledged sweep addr call asm)
    (Others addr) (fun now next => Accounted addr dock now → Accounted addr dock next)
    (fun result _ => ∃ value, result = .ok value ∧ post value) prog asm

end Secure

section Rules

variable {sweep : Sweep} {addr node : IpAddr} {dock : Option IpAddr} {α β : Type} {post : β → Prop}
  {asm : Assembly codec}

theorem secure_ret {value : β} (holds : post value) :
    Secure sweep addr dock post (.ret value) asm := ⟨value, rfl, holds⟩

variable {rest : α → SweepProg β}

theorem secure_read {call : SweepCall α} (reads : ∀ asm : Assembly codec, (call.exec asm).2 = asm)
    (next : ∀ now, Others addr asm now →
      Secure sweep addr dock post (rest (call.exec now).1) now) :
    Secure sweep addr dock post (lift call >>= rest) asm :=
  safe_lift_bind fun now relied _ => by
    rw [reads now]
    exact ⟨id, next now relied⟩

theorem secure_bind {first : α → Prop} {prog : SweepProg α}
    (secure : Secure sweep addr dock first prog asm)
    (next : ∀ value (now : Assembly codec), first value → Secure sweep addr dock post (rest value) now)
    :
    Secure sweep addr dock post (prog >>= rest) asm := by
  refine safe_bind (secure.imp fun result now ended => ?_)
  obtain ⟨value, rfl, holds⟩ := ended
  exact next value now holds

theorem RevokedAt.others {now : Assembly codec} (revoked : RevokedAt addr dock asm)
    (others : Others addr asm now) : RevokedAt addr dock now := by
  unfold RevokedAt
  rw [others.revoked]
  exact revoked

/-! ### Removing -/

theorem RevokedAt.exec (revoked : RevokedAt addr dock asm) (made : SweepCall β) :
    RevokedAt addr dock (made.exec asm).2 := by
  obtain ⟨node, isDock, member⟩ := revoked
  refine ⟨node, isDock, ?_⟩
  cases made with
  | removeActor other => exact (Assembly.shrinks_removeActor asm other).revoked ▸ member
  | disconnect other => exact (Assembly.shrinks.disconnect asm other).revoked ▸ member
  | removeObligation vinst =>
    dsimp only [SweepCall.exec]
    split <;> exact member
  | revokeAuths other addrs =>
    dsimp only [SweepCall.exec, Assembly.revokeAuths]
    split
    · exact member
    · exact List.mem_append_right _ member
  | _ => exact member

theorem accounted_exec {made : SweepCall β} (apart : ¬ made.Targets addr)
    (unlisted : Acknowledged sweep addr made asm) (accounted : Accounted addr dock asm) :
    Accounted addr dock (made.exec asm).2 := by
  rcases accounted with stored | revoked
  · left
    obtain ⟨actor, found⟩ := HashMap.get_of_mem stored
    cases made with
    | removeActor other =>
      exact HashMap.mem_of_get ((Assembly.removeActor_of_ne apart).trans found)
    | disconnect node =>
      have kept := Assembly.disconnect_of_spared apart (.inl unlisted)
      exact HashMap.mem_of_get (kept.trans found)
    | removeObligation vinst =>
      dsimp only [SweepCall.exec]
      split <;> exact stored
    | revokeAuths node addrs =>
      dsimp only [SweepCall.exec, Assembly.revokeAuths]
      split <;> exact stored
    | _ => exact stored
  · exact .inr (revoked.exec made)

variable {prog : SweepProg β}

theorem secure_of_makes (makes : Makes (fun call => ¬ call.Targets addr) prog) :
    Secure sweep addr dock (fun _ => True) prog asm := by
  induction prog generalizing asm with
  | ret value => exact secure_ret trivial
  | fail failure => exact failure.elim
  | call made next ih =>
    exact fun now _ acknowledged =>
      ⟨accounted_exec makes.1 acknowledged, ih _ (makes.2 _)⟩

theorem secure_of_within (makes : Makes (fun call => call.Within (· ≠ addr)) prog) :
    Secure sweep addr dock (fun _ => True) prog asm :=
  secure_of_makes (makes_imp (fun _ within target => within.1 addr target rfl) makes)

theorem secure_of_revoked (revoked : RevokedAt addr dock asm) :
    Secure sweep addr dock (fun _ => True) prog asm := by
  induction prog generalizing asm with
  | ret value => exact secure_ret trivial
  | fail failure => exact failure.elim
  | call made next ih =>
    intro now relied _
    have still := (revoked.others relied).exec made
    exact ⟨fun _ => .inr still, ih _ still⟩

theorem secure_removal {addrs : List IpAddr} (revoked : addr ∈ addrs → RevokedAt addr dock asm)
    (removes : Makes (fun call => call.Within (· ∈ addrs)) prog) :
    Secure sweep addr dock (fun _ => True) prog asm := by
  by_cases listed : addr ∈ addrs
  · exact secure_of_revoked (revoked listed)
  · refine secure_of_within (makes_imp (fun _ within => ⟨fun other target => ?_, within.2⟩) removes)
    exact ne_of_mem_of_not_mem (within.1 other target) listed

/-! ### Revoking -/

/-- The adapter is only in the batch of its docking node. -/
def Grouped {α : Type} (addr : IpAddr) (dock : Option IpAddr) (address : α → IpAddr)
    (batches : List (IpAddr × List α)) : Prop :=
  ∀ batch ∈ batches, ∀ entry ∈ batch.2, address entry = addr → dock = some batch.1

/-- A node revokes a batch: what it has processed is revoked. -/
theorem secure_revokeAuths {addrs : List IpAddr} {rest : Except ServiceError Nat → SweepProg β}
    (docked : addr ∈ addrs → dock = some node) (next : ∀ processed (now : Assembly codec),
      (addr ∈ addrs.take processed → RevokedAt addr dock now) →
      (sweep = .expiredAuths → addr ∈ addrs → addr ∈ addrs.take processed) →
      Secure sweep addr dock post (rest (.ok processed)) now)
    (failed : ∀ failure (now : Assembly codec),
      Secure sweep addr dock post (rest (.error failure)) now) :
    Secure sweep addr dock post (lift (.revokeAuths node addrs) >>= rest) asm := by
  refine safe_lift_bind fun now relied allowed => ?_
  dsimp only [SweepCall.exec, Assembly.revokeAuths]
  cases answers : now.answer.processed with
  | none => exact ⟨id, failed _ now⟩
  | some processed =>
    refine ⟨fun accounted => accounted.imp id fun ⟨node, isDock, member⟩ =>
      ⟨node, isDock, List.mem_append_right _ member⟩, next processed _ (fun member => ?_) ?_⟩
    · have isDock := docked (List.mem_of_mem_take member)
      exact ⟨node, isDock, List.mem_append_left _ (List.mem_map.mpr ⟨addr, member, rfl⟩)⟩
    · intro isExpiry member
      exact allowed isExpiry member processed answers

theorem secure_getHandle {rest : Bool → SweepProg β}
    (next : ∀ reply (now : Assembly codec), Secure sweep addr dock post (rest reply) now) :
    Secure sweep addr dock post (lift (.getHandle node) >>= rest) asm :=
  secure_read (fun _ => rfl) fun now _ => next _ now

/-- The expiry sweep removes the whole batch; here the node gets to the adapter. -/
theorem secure_revokeExpired {batches : List (IpAddr × List Expired)}
    (grouped : Grouped addr dock Expired.addr batches) (stats : SweepStats) :
    Secure .expiredAuths addr dock (fun _ => True) (revokeExpired batches stats) asm := by
  induction batches generalizing asm stats with
  | nil => exact secure_ret trivial
  | cons batch rest ih =>
    obtain ⟨node, expired⟩ := batch
    obtain ⟨own, others⟩ := List.forall_mem_cons.mp grouped
    refine secure_getHandle fun reply now => ?_
    cases reply with
    | false => exact ih others _
    | true =>
      refine secure_revokeAuths (fun member => ?_) (fun processed now revoked reaches => ?_)
        fun failure now => ih others _
      · obtain ⟨entry, isEntry, isAddr⟩ := List.mem_map.mp member
        exact own entry isEntry isAddr
      · refine secure_bind (secure_removal (fun member => revoked (reaches rfl member)) ?_)
          fun stats now _ => ih others stats
        exact within_removeExpired (fun entry => List.mem_map_of_mem) _

theorem secure_revokeOverdue {batches : List (IpAddr × List IpAddr)} (required : Nat)
    (grouped : Grouped addr dock id batches) (stats : ReauthSweepStats) :
    Secure sweep addr dock (fun _ => True) (revokeOverdue required batches stats) asm := by
  induction batches generalizing asm stats with
  | nil => exact secure_ret trivial
  | cons batch rest ih =>
    obtain ⟨node, addrs⟩ := batch
    obtain ⟨own, others⟩ := List.forall_mem_cons.mp grouped
    refine secure_getHandle fun reply now => ?_
    cases reply with
    | false => exact ih others _
    | true =>
      refine secure_revokeAuths (fun member => own addr member rfl)
        (fun processed now revoked _ => ?_) fun failure now => ih others _
      exact secure_bind (secure_removal revoked (within_removeOverdue (fun _ => id) _))
        fun stats now _ => ih others stats

theorem secure_revokeDenied {batches : List (IpAddr × List (IpAddr × String))}
    (grouped : Grouped addr dock Prod.fst batches) (stats : DenylistSweepStats) :
    Secure sweep addr dock (fun _ => True) (revokeDenied batches stats) asm := by
  induction batches generalizing asm stats with
  | nil => exact secure_ret trivial
  | cons batch rest ih =>
    obtain ⟨node, entries⟩ := batch
    obtain ⟨own, others⟩ := List.forall_mem_cons.mp grouped
    refine secure_getHandle fun reply now => ?_
    cases reply with
    | false => exact ih others _
    | true =>
      refine secure_revokeAuths (fun member => ?_) (fun processed now revoked _ => ?_)
        fun failure now => ih others _
      · obtain ⟨entry, isEntry, isAddr⟩ := List.mem_map.mp member
        exact own entry isEntry isAddr
      · rw [← List.map_take] at revoked
        exact secure_bind (secure_removal revoked (within_removeDenied
          (fun entry => List.mem_map_of_mem) _)) fun stats now _ => ih others stats

/-! ### Looking for actors -/

variable {actor loaded : Actor}

/-- The adapter as it is before the pass. -/
structure Present (addr : IpAddr) (dock : Option IpAddr) (actor : Actor) (asm : Assembly codec) :
    Prop where
  found : asm.actors[addr]? = some actor
  adapter : actor.isNode = false
  docked : asm.connectionTable[addr]? = dock

theorem Present.others {now : Assembly codec} (present : Present addr dock actor asm)
    (others : Others addr asm now) :
    Present addr dock actor now := by
  obtain ⟨found, docked⟩ := others.stays actor present.found present.adapter
  exact ⟨found, present.adapter, docked.trans present.docked⟩

theorem Present.getActor (present : Present addr dock actor asm)
    (replies : asm.getActorByZprAddr addr = .ok (some loaded)) : loaded = actor := by
  unfold Assembly.getActorByZprAddr at replies
  split at replies
  · cases replies
  · rw [present.found] at replies
    cases replies
    rfl

theorem Present.dockingNode (present : Present addr dock actor asm)
    (isAddr : actor.zprAddr = some addr) :
    asm.getDockingNodeForActor actor = dock := by
  simp [Assembly.getDockingNodeForActor, present.adapter, isAddr, present.docked]

/-- The adapter is listed as one, at its docking node. -/
def Recorded {α : Type} (addr : IpAddr) (dock : Option IpAddr) (address : α → IpAddr)
    (isNode : α → Bool) (dockOf : α → Option IpAddr) (entries : List α) : Prop :=
  ∀ entry ∈ entries, address entry = addr → isNode entry = false ∧ dockOf entry = dock

variable {address : α → IpAddr} {isNode : α → Bool} {dockOf : α → Option IpAddr} {entries : List α}

variable (recorded : Recorded addr dock address isNode dockOf entries)
include recorded

theorem Recorded.filter (keep : α → Bool) :
    Recorded addr dock address isNode dockOf (entries.filter keep) :=
  fun item member => recorded item (List.mem_filter.mp member).1

theorem Recorded.apart :
    ∀ entry ∈ entries.filter isNode, address entry ≠ addr := by
  intro entry member own
  obtain ⟨listed, node⟩ := List.mem_filter.mp member
  rw [(recorded entry listed own).1] at node
  cases node

theorem Recorded.grouped (item : α → β)
    (itemAddr : β → IpAddr) (same : ∀ entry, itemAddr (item entry) = address entry)
    (gone : List IpAddr) :
    Grouped addr dock itemAddr (batchEntries dockOf item gone entries).toList := by
  rintro ⟨node, batch⟩ isBatch value isValue isAddr
  obtain ⟨entry, isEntry, isDock, rfl⟩ := mem_batchEntries isBatch isValue
  rw [← (recorded entry isEntry ((same entry).symm.trans isAddr)).2, isDock]

omit recorded

/-! ### The sweeps -/

theorem secure_listActors {role : Option Role}
    (present : Present addr dock actor asm) {rest : Except ServiceError (List IpAddr) → SweepProg β}
    (next : ∀ reply (now : Assembly codec), Present addr dock actor now →
      Secure sweep addr dock post (rest reply) now) :
    Secure sweep addr dock post (lift (.listActors role) >>= rest) asm :=
  safe_lift_bind fun _ relied _ =>
    have nowPresent := present.others relied
    ⟨id, next _ _ { nowPresent with }⟩

theorem secure_clock {rest : Nat → SweepProg β}
    (next : ∀ time (now : Assembly codec), (∀ actor, Present addr dock actor asm →
      Present addr dock actor now) → Secure sweep addr dock post (rest time) now) :
    Secure sweep addr dock post (lift .clock >>= rest) asm :=
  safe_lift_bind fun _ relied _ => ⟨id, next _ _ fun _ present =>
    have nowPresent := present.others relied
    { nowPresent with }⟩

variable {entries : List ReauthEntry}

theorem secure_enforceOverdue
    (recorded : Recorded addr dock ReauthEntry.addr ReauthEntry.isNode ReauthEntry.dock entries)
    (required : Nat) (stats : ReauthSweepStats) :
    Secure sweep addr dock (fun _ => True) (enforceOverdue entries required stats) asm := by
  have overdue := recorded.filter fun entry => entry.vinst < required
  refine secure_bind (secure_of_within (within_disconnectOverdue overdue.apart [] stats))
    fun gone now _ => ?_
  have grouped := (overdue.filter fun entry => !entry.isNode).grouped ReauthEntry.addr id
    (fun _ => rfl) gone.1
  exact secure_bind (secure_revokeOverdue required grouped _) fun stats now _ => secure_ret trivial

theorem secure_enforceUnmet
    (recorded : Recorded addr dock ReauthEntry.addr ReauthEntry.isNode ReauthEntry.dock entries)
    (unmet : List (Nat × Nat)) (stats : ReauthSweepStats) :
    Secure sweep addr dock (fun _ => True) (enforceUnmet entries unmet stats) asm := by
  have requests {now : Assembly codec} (batches : List (IpAddr × List IpAddr))
      (stats : ReauthSweepStats) :
      Secure sweep addr dock (fun _ => True) (requestPending batches stats) now :=
    secure_of_within (within_requestPending batches stats)
  refine secure_clock fun time now _ => ?_
  dsimp only
  split
  · refine secure_bind (secure_enforceOverdue recorded _ stats) fun gone now _ => ?_
    split
    · exact requests _ _
    · exact secure_ret trivial
  · rw [Prog.pure_eq_ret, Prog.ret_bind]
    split
    · exact requests _ _
    · exact secure_ret trivial

section Sweeping

variable (isAddr : actor.zprAddr = some addr)
include isAddr

/-- A look-up, whose reply describes the adapter. -/
def SweepCall.LooksUp : {β : Type} → SweepCall β → Prop
  | _, .getActor _ | _, .dockingNode _ => True
  | _, _ => False

def SweepCall.Describes (addr : IpAddr) (dock : Option IpAddr) (actor : Actor) :
    {β : Type} → SweepCall β → β → Prop
  | _, .getActor other, reply => other = addr → ∀ loaded, reply = .ok (some loaded) → loaded = actor
  | _, .dockingNode loaded, reply => loaded = actor → reply = dock
  | _, _, _ => True

variable (present : Present addr dock actor asm)
include present

/-- What a look-up finds as long as the adapter is there. -/
theorem secure_of_obeys
    (obeys : Obeys SweepCall.LooksUp (SweepCall.Describes addr dock actor) post prog) :
    Secure sweep addr dock post prog asm := by
  induction prog generalizing asm with
  | ret value => exact secure_ret obeys
  | fail failure => exact failure.elim
  | call made next ih =>
    obtain ⟨looks, replies⟩ := obeys
    intro now relied _
    have nowPresent := present.others relied
    cases made with
    | getActor other =>
      refine ⟨id, ih _ nowPresent (replies _ ?_)⟩
      rintro rfl loaded loads
      exact nowPresent.getActor loads
    | dockingNode loaded =>
      refine ⟨id, ih _ nowPresent (replies _ ?_)⟩
      rintro rfl
      exact nowPresent.dockingNode isAddr
    | _ => exact looks.elim

theorem secure_sweepExpiredAuths :
    Secure .expiredAuths addr dock (fun _ => True) sweepExpiredAuths asm := by
  refine secure_listActors present fun reply now present => ?_
  cases reply with
  | error _ => exact secure_ret trivial
  | ok addrs =>
    refine secure_clock fun time later kept => ?_
    refine secure_bind (secure_of_obeys isAddr (kept actor present)
      (obeys_collectExpired (fun _ => trivial) (fun _ => trivial)
        (fun node entry => entry.addr = addr → dock = some node)
        (fun other loaded _ _ node finds _ _ docks own => ?_) addrs (by simp) _))
      fun found now grouped => secure_revokeExpired grouped _
    exact (docks (finds own loaded rfl)).symm

theorem secure_sweepReauthObligations :
    Secure sweep addr dock (fun _ => True) sweepReauthObligations asm := by
  refine secure_read (fun _ => rfl) fun now relied => ?_
  generalize (SweepCall.exec SweepCall.listObligations now).1 = reply
  cases reply with
  | error _ => exact secure_ret trivial
  | ok obligations =>
    dsimp only
    split
    · exact secure_ret trivial
    refine secure_listActors (present.others relied) fun reply now present => ?_
    cases reply with
    | error _ => exact secure_ret trivial
    | ok listed =>
      refine secure_bind (secure_of_obeys isAddr present
        (obeys_loadEntries (fun _ => trivial) (fun _ => trivial)
          (fun entry => entry.addr = addr → entry.isNode = false ∧ entry.dock = dock)
          (fun other loaded reply finds _ docks own => ?_) listed (by simp)))
        fun entries now recorded => ?_
      · have same := finds own loaded rfl
        exact ⟨same ▸ present.adapter, docks same⟩
      have prunes := makes_imp (fun _ free => free addr)
        (pruneObligations_aims entries obligations [] ⟨obligations.length, 0, 0, 0, 0⟩)
      exact secure_bind (secure_of_makes prunes) fun pruned now _ =>
        secure_enforceUnmet recorded _ _

theorem secure_sweepDenylistedActors :
    Secure sweep addr dock (fun _ => True) sweepDenylistedActors asm := by
  refine secure_read (fun _ => rfl) fun now relied => ?_
  generalize (SweepCall.exec SweepCall.listDenied now).1 = reply
  cases reply with
  | error _ => exact secure_ret trivial
  | ok denied =>
    dsimp only
    split
    · exact secure_ret trivial
    refine secure_listActors (present.others relied) fun reply now present => ?_
    cases reply with
    | error _ => exact secure_ret trivial
    | ok listed =>
      refine secure_bind (secure_of_obeys isAddr present
        (obeys_matchDenied (fun _ => trivial) (fun _ => trivial)
          (fun entry => entry.addr = addr → entry.isNode = false ∧ entry.dock = dock)
          (fun other loaded _ reply finds _ docks own => ?_) listed (by simp) _))
        fun found now recorded => ?_
      · have same := finds own loaded rfl
        exact ⟨same ▸ present.adapter, docks same⟩
      refine secure_bind (secure_of_within (within_disconnectDenied (Recorded.apart recorded) [] _))
        fun gone now _ => ?_
      refine secure_revokeDenied ?_ _
      exact (Recorded.filter recorded _).grouped (fun entry => (entry.addr, entry.cn)) Prod.fst
        (fun _ => rfl) gone.1

theorem secure_prog :
    Secure sweep addr dock (fun _ => True) sweep.prog asm := by
  cases sweep with
  | expiredAuths =>
    exact secure_bind (secure_sweepExpiredAuths isAddr present) fun _ _ _ =>
      secure_ret trivial
  | reauthObligations =>
    exact secure_bind (secure_sweepReauthObligations isAddr present) fun _ _ _ =>
      secure_ret trivial
  | denylistedActors =>
    exact secure_bind (secure_sweepDenylistedActors isAddr present) fun _ _ _ =>
      secure_ret trivial

end Sweeping

end Rules

/-! ### Whole passes -/

theorem Others.trans {addr : IpAddr} {first second third : Assembly codec}
    (one : Others addr first second) (two : Others addr second third) :
    Others addr first third where
  stays actor found adapter := by
    obtain ⟨kept, docked⟩ := one.stays actor found adapter
    obtain ⟨keptOn, dockedOn⟩ := two.stays actor kept adapter
    exact ⟨keptOn, dockedOn.trans docked⟩
  revoked := two.revoked.trans one.revoked

variable {asm next : Assembly codec} {actor : Actor} {other dock : IpAddr}

theorem Assembly.connect_others (connects : asm.connect actor other dock = some next)
    (addr : IpAddr) :
    Others addr asm next := by
  obtain ⟨nodes, table, connections, sameTable, rfl⟩ := Assembly.connect_cases connects
  refine ⟨fun stored found adapter => ?_, rfl⟩
  have apart : other ≠ addr := by
    rintro rfl
    rw [(nodes stored found).1] at adapter
    cases adapter
  exact ⟨(HashMap.get_insert ..).trans ((if_neg apart).trans found), sameTable addr apart⟩

namespace SweepPass

/-- The next call of the pass is acknowledged as far as the adapter is concerned. -/
def Acknowledges (sweep : Sweep) (addr : IpAddr) (pass : SweepPass codec) : SweepEvent → Prop
  | .call answer => match pass.left with
    | .call made _ => Acknowledged sweep addr made { pass.asm with answer }
    | _ => True
  | .connect _ _ _ => True

instance {β : Type} (sweep : Sweep) (addr : IpAddr) (call : SweepCall β) (asm : Assembly codec) :
    Decidable (Acknowledged sweep addr call asm) :=
  match call with
  | .revokeAuths .. => inferInstanceAs (Decidable (_ → _ → ∀ _ ∈ _, _))
  | .disconnect _ => inferInstanceAs (Decidable (¬ _))
  | .listActors _ | .getActor _ | .dockingNode _ | .clock | .listObligations
  | .removeObligation _ | .listDenied | .getHandle _ | .requestAuths _ _ | .removeActor _ =>
    isTrue trivial

instance (sweep : Sweep) (addr : IpAddr) (pass : SweepPass codec) (event : SweepEvent) :
    Decidable (pass.Acknowledges sweep addr event) :=
  match event with
  | .call answer => match pass with
    | ⟨asm, .call made _⟩ =>
      inferInstanceAs (Decidable (Acknowledged sweep addr made { asm with answer }))
    | ⟨_, .ret _⟩ | ⟨_, .fail _⟩ => isTrue trivial
  | .connect _ _ _ => isTrue trivial

/-- What a pass keeps about one adapter. -/
structure Guards (sweep : Sweep) (addr : IpAddr) (dock : Option IpAddr) (pass : SweepPass codec) :
    Prop where
  accounted : Accounted addr dock pass.asm
  secure : Secure sweep addr dock (fun _ => True) pass.left pass.asm

theorem guards_step {sweep : Sweep} {addr : IpAddr} {dock : Option IpAddr}
    {pass next : SweepPass codec} {event : SweepEvent} (guards : pass.Guards sweep addr dock)
    (meets : pass.Acknowledges sweep addr event) (stepped : pass.step event = some next) :
    next.Guards sweep addr dock := by
  obtain ⟨asm, left⟩ := pass
  cases event with
  | call answer =>
    cases left with
    | ret value | fail failure => cases stepped
    | call made rest =>
      cases stepped
      have same : Others addr asm { asm with answer } := ⟨fun _ found _ => ⟨found, rfl⟩, rfl⟩
      obtain ⟨keeps, later⟩ := guards.secure { asm with answer } same meets
      exact ⟨keeps guards.accounted, later⟩
  | connect actor other dock =>
    obtain ⟨now, connects, rfl⟩ := Option.map_eq_some_iff.mp stepped
    have others := Assembly.connect_others connects addr
    refine ⟨guards.accounted.imp (Assembly.mem_of_connect connects) (·.others others), ?_⟩
    exact guards.secure.stable (fun _ _ _ one two => one.trans two) (fun _ _ _ ended _ => ended) others

/-- Every pass of every sweep whose calls are acknowledged: an adapter that was stored at the
start is still stored, or the node it was docked at has revoked it. -/
theorem removed_only_if_revoked {sweep : Sweep} {asm : Assembly codec} {addr : IpAddr}
    {actor : Actor} (found : asm.actors[addr]? = some actor) (adapter : actor.isNode = false)
    (isAddr : actor.zprAddr = some addr) {events : List SweepEvent} {final : SweepPass codec}
    (meets : Meets step (Acknowledges sweep addr) (start asm sweep) events)
    (ran : run step (start asm sweep) events = some final) :
    addr ∈ final.asm.actors ∨
      ∃ node, asm.connectionTable[addr]? = some node ∧ (node, addr) ∈ final.asm.revoked := by
  have atStart : (start asm sweep).Guards sweep addr asm.connectionTable[addr]? :=
    ⟨.inl (HashMap.mem_of_get found), secure_prog isAddr ⟨found, adapter, rfl⟩⟩
  exact (run_preserves_of_meets (fun _ _ _ guards => guards_step guards) atStart meets ran).accounted

end SweepPass

namespace SweepSample

def expired : Assembly VisaCodec.plain := docked (docked idle 1 "1") 2 "1"

theorem expired_second : expired.actors[addr 2]? = some (adapter 2 "1") :=
  (HashMap.get_insert ..).trans (if_pos rfl)

/-- The twelve calls of the expiry sweep over two adapters. -/
def expirySweep (count : Nat) : List SweepEvent := List.replicate 12 (processes count)

def afterExpiry (count : Nat) : SweepPass VisaCodec.plain :=
  (run SweepPass.step (.start expired .expiredAuths) (expirySweep count)).getD
    (.start expired .expiredAuths)

end SweepSample

open SweepSample in
/-- The node revokes the first of two adapters and says so; the sweep removes both. -/
theorem short_count_removes_unrevoked :
    ¬ ∀ (codec : VisaCodec) (sweep : Sweep) (asm : Assembly codec) (addr : IpAddr) (actor : Actor)
      (events : List SweepEvent) (final : SweepPass codec), asm.actors[addr]? = some actor →
      actor.isNode = false → actor.zprAddr = some addr →
      run SweepPass.step (.start asm sweep) events = some final →
      addr ∈ final.asm.actors ∨
        ∃ node, asm.connectionTable[addr]? = some node ∧ (node, addr) ∈ final.asm.revoked := by
  intro revokes
  have ran : run SweepPass.step (.start expired .expiredAuths) (expirySweep 1) =
      some (afterExpiry 1) :=
    run_eq_some_getD (by decide +kernel) _
  rcases revokes .plain .expiredAuths expired (addr 2) (adapter 2 "1") (expirySweep 1) _
    expired_second (by decide +kernel) rfl ran with stored | ended
  · exact absurd stored (by decide +kernel)
  · obtain ⟨node, isDock, revoked⟩ := ended
    have isNode : expired.connectionTable[addr 2]? = some dock := by decide +kernel
    cases isNode.symm.trans isDock
    exact absurd revoked (by decide +kernel)

open SweepSample in
/-- With both revoked, the second adapter goes after its node has revoked it. -/
theorem full_count_revokes_removed :
    addr 2 ∉ (afterExpiry 2).asm.actors ∧
      ∃ node, expired.connectionTable[addr 2]? = some node ∧
        (node, addr 2) ∈ (afterExpiry 2).asm.revoked := by
  have gone : addr 2 ∉ (afterExpiry 2).asm.actors := by decide +kernel
  have ran : run SweepPass.step (.start expired .expiredAuths) (expirySweep 2) =
      some (afterExpiry 2) :=
    run_eq_some_getD (by decide +kernel) _
  exact ⟨gone, (SweepPass.removed_only_if_revoked expired_second (by decide +kernel) rfl
    (by decide +kernel) ran).resolve_left gone⟩

end VisaService
