import VisaService.Actors.Promotion

/-!
# Updates and removals of one actor

`update_actor` and `rm_actor_by_zpr_addr` calls about one address take turns, one database
call at a time. An update looks once whether the actor is stored and in its role, and then
writes; a removal first deletes the record, the attributes and the roles in one call, and then
whatever the actor listed.

Main results: `removal_leaves_ghost` and `removal_leaves_no_key`.
-/
namespace VisaService

open Lib
open Prog (Safe Makes makes_bind makes_each makes_imp safe_of_run lift)

/-! ### Whole, gone and in between -/

namespace ActorDb

/-- Record, attributes and role are all there. -/
structure Complete (db : ActorDb) (addr : IpAddr) : Prop where
  base : addr ∈ db.base
  attrs : addr ∈ db.attrs
  role : addr ∈ db.nodes ∨ addr ∈ db.adapters

/-- `get_actor_by_zpr_addr` answers from the record and `add_actor` finds the address occupied,
but `list_actors`, which reads the role sets, does not list the actor. -/
def Ghost (db : ActorDb) (addr : IpAddr) : Prop :=
  addr ∈ db.base ∧ addr ∉ db.nodes ∧ addr ∉ db.adapters
  deriving Decidable

/-- A complete actor whose entries are all listed. -/
structure Present (db : ActorDb) (addr : IpAddr) : Prop extends db.Complete addr where
  servicesListed : db.ServicesListed addr
  hostsListed : db.HostsListed addr

/-- An actor of which at most listed entries are left. -/
structure Leaving (db : ActorDb) (addr : IpAddr) : Prop extends db.Gone addr where
  servicesListed : db.ServicesListed addr
  hostsListed : db.HostsListed addr

variable {db next : ActorDb} {addr : IpAddr}

theorem Complete.not_ghost (complete : db.Complete addr) : ¬ db.Ghost addr := fun ghost =>
  complete.role.elim ghost.2.1 ghost.2.2

theorem Gone.not_ghost (gone : db.Gone addr) : ¬ db.Ghost addr := fun ghost => gone.base ghost.1

theorem Leaving.fades (leaving : db.Leaving addr) (fades : Fades addr db next) :
    next.Leaving addr where
  toGone := fades.gone leaving.toGone
  servicesListed := fades.servicesListed leaving.servicesListed
  hostsListed := fades.hostsListed leaving.hostsListed

theorem forgotten_leaving (servicesListed : db.ServicesListed addr)
    (hostsListed : db.HostsListed addr) : (db.forgotten addr).Leaving addr where
  toGone := forgotten_gone addr db
  servicesListed := servicesListed
  hostsListed := hostsListed

theorem forgotten_fades (addr : IpAddr) (db : ActorDb) : Fades addr db (db.forgotten addr) :=
  { Fades.refl addr db with gone := fun _ => forgotten_gone addr db }

/-- Only actors with a record are in a role. -/
def RolesLive (db : ActorDb) : Prop := ∀ addr, addr ∈ db.nodes ∨ addr ∈ db.adapters → addr ∈ db.base

theorem RolesLive.removed (live : db.RolesLive) (removed : Removed addr db next) :
    next.RolesLive := by
  intro b role
  rw [removed.nodes, removed.adapters] at role
  rw [removed.base]
  simp only [Std.ExtTreeSet.mem_erase, ne_eq, Std.compare_eq_iff_eq] at role
  exact HashMap.mem_erase.mpr ⟨live b (role.imp And.right And.right),
    role.elim (fun both => Ne.symm both.1) fun both => Ne.symm both.1⟩

theorem RolesLive.added {ctx : WriteContext} {actor : Actor} (live : db.RolesLive)
    (added : Added ctx addr actor db next) : next.RolesLive := by
  intro b role
  rw [added.nodes, added.adapters] at role
  refine added.present.mpr ?_
  by_cases own : b = addr
  · exact .inl own
  · refine .inr (live b ?_)
    cases hSet : actor.roleSet <;> simpa [hSet, sadd, Ne.symm own] using role

end ActorDb

variable {actor : Actor} {addr : IpAddr} {db : ActorDb} {pool : CallPool}

theorem Passes.rolesLive {policyServiceNames : HashSet String} {next : ActorDb}
    (passes : Relation.ReflTransGen (fun db next => ∃ addr, Reclaimed policyServiceNames addr db
      next) db next)
    (live : db.RolesLive) : next.RolesLive := by
  induction passes with
  | refl => exact live
  | tail _ last ih =>
    obtain ⟨addr, reclaimed⟩ := last
    intro b role
    rw [reclaimed.nodes, reclaimed.adapters] at role
    exact reclaimed.mem_base.mpr (ih b role)

theorem rolesLive_history (calls : List RepoCall) : (ActorDb.history calls).RolesLive := by
  refine (history_induct (fun addr role => ?_) (fun db call next _ live change => ?_) calls).2
  · simp [ActorDb.empty] at role
  · cases change with
    | refused => exact live
    | added _ _ added => exact live.added added
    | replaced _ removed added => exact (live.removed removed).added added
    | updated _ _ updated =>
      intro b role
      rw [updated.nodes, updated.adapters] at role
      exact updated.present.mpr (.inr (live b role))
    | removed removed => exact live.removed removed
    | reconciled passes => exact Passes.rolesLive passes live

/-- After any history an actor is completely present or gone. -/
theorem present_or_leaving_history (past : List RepoCall) (addr : IpAddr) :
    (ActorDb.history past).Present addr ∨ (ActorDb.history past).Leaving addr := by
  have records := records_history past
  have servicesListed : (ActorDb.history past).ServicesListed addr :=
    fun name owns => (registry_history past).owned addr name owns
  have hostsListed : (ActorDb.history past).HostsListed addr :=
    fun name holds => ((hosts_history past).listed name addr).mp holds
  by_cases live : addr ∈ (ActorDb.history past).base
  · refine .inl ⟨⟨live, ?_, records.roles addr live⟩, servicesListed, hostsListed⟩
    -- A stored address is stored among the attributes.
    by_contra absent
    have isAddr := records.addr addr live
    simp [ActorDb.storedAddr, ActorDb.attrsOf, Std.ExtTreeMap.getElem?_eq_none absent] at isAddr
  · have role := (rolesLive_history past addr).mt live
    rw [not_or] at role
    exact .inr ⟨⟨live, records.attrsLive addr live, role.1, role.2⟩, servicesListed, hostsListed⟩

/-! ### What an update writes -/

theorem Actor.Wf.attrsIter_ne_nil (wf : actor.Wf) (isAddr : actor.zprAddr = some addr) :
    actor.attrsIter ≠ [] := by
  intro empty
  have stored := wf.addr
  rw [isAddr] at stored
  obtain ⟨attr, found, -⟩ := Option.bind_eq_some_iff.mp stored.symm
  have member := List.mem_map_of_mem (f := Prod.snd)
    (Std.ExtTreeMap.mem_toList_iff_getElem?_eq_some.mpr found)
  change _ ∈ actor.attrsIter at member
  simp [empty] at member

theorem Updated.keeps_present {ctx : WriteContext} {next : ActorDb}
    (updated : Updated ctx addr actor db next) (wf : actor.Wf) (isAddr : actor.zprAddr = some addr)
    (present : db.Present addr) : next.Present addr where
  base := updated.present.mpr (.inl rfl)
  attrs := updated.attrsPresent (wf.attrsIter_ne_nil isAddr)
  role := by
    rw [updated.nodes, updated.adapters]
    exact present.role
  servicesListed name owns := by
    rw [updated.services]
    by_cases kept : name ∈ actor.services
    · exact .inr ⟨rfl, kept⟩
    · -- An entry of a dropped service went to a survivor.
      rw [updated.dropped name kept] at owns
      split at owns
      · exact absurd owns (db.survivor_ne name addr)
      next elsewhere => exact absurd ⟨present.servicesListed name owns, owns⟩ elsewhere
  hostsListed name holds := by
    rw [updated.hostnames.own]
    refine ⟨?_, holds⟩
    by_contra dropped
    rw [updated.hostnames.released name dropped] at holds
    split at holds
    · cases holds
    next elsewhere => exact elsewhere ⟨present.hostsListed name holds, holds⟩

theorem gatherClaimants_roleless (name : String) (excluded : IpAddr)
    (addrs candidates : List IpAddr) :
    Makes DbCall.Roleless (gatherClaimants name excluded addrs candidates) := by
  induction addrs generalizing candidates with
  | nil => trivial
  | cons first rest ih =>
    unfold gatherClaimants
    split
    · exact ih candidates
    refine ⟨trivial, fun claims => ?_⟩
    change Makes _ (if claims = true then _ else _)
    split
    · refine ⟨trivial, fun live => ?_⟩
      change Makes _ (if live = true then _ else _)
      split
      · exact ih (candidates ++ [first])
      · exact ih candidates
    · exact ih candidates

theorem releaseServiceEntry_roleless (addr : IpAddr) (name : String) :
    Makes DbCall.Roleless (releaseServiceEntry addr name) := by
  refine ⟨trivial, fun owner => ?_⟩
  change Makes _ (if owner = some addr then _ else _)
  split
  · refine makes_bind ⟨trivial, fun addrs => ?_⟩ fun found => ?_
    · change Makes _ (gatherClaimants name addr addrs [] >>= _)
      exact makes_bind (gatherClaimants_roleless name addr addrs []) fun _ => trivial
    · cases found with
      | none | some claimant => exact ⟨trivial, fun _ => trivial⟩
  · trivial

theorem writeUpdate_roleless (ctx : WriteContext) (isAddr : actor.zprAddr = some addr) :
    Makes DbCall.Roleless (writeUpdate ctx addr actor) := by
  refine ⟨fun op member set b => ?_, fun _ => ?_⟩
  · rcases List.mem_cons.mp member with rfl | later
    · nofun
    · obtain ⟨attr, -, rfl⟩ := List.mem_map.mp later
      nofun
  change Makes _ (writeBase addr actor ctx.ts >>= _)
  refine makes_bind (makes_roleless (writeBase_makes addr actor ctx.ts)) fun _ =>
    ⟨trivial, fun existing => ?_⟩
  change Makes _ (releaseOwnedServiceEntries addr _ >>= _)
  refine makes_bind (makes_each (releaseServiceEntry_roleless addr) _) fun _ =>
    ⟨trivial, fun _ => ?_⟩
  change Makes _ (Prog.each actor.services (reclaimService addr) >>= _)
  exact makes_bind (makes_each (fun name => makes_roleless (reclaimService_makes name)) _)
    fun _ => makes_roleless (claimHostnamesForActor_makes isAddr ctx.order ctx.policyServiceNames)

def RolesKept (db next : ActorDb) : Prop := next.nodes = db.nodes ∧ next.adapters = db.adapters

theorem DbCall.Roleless.kept {β : Type} {call : DbCall β} (roleless : call.Roleless)
    (db : ActorDb) : RolesKept db (call.exec db).2 := by
  cases call with
  | saddRole set addr => exact roleless.elim
  | atomicPipeline ops =>
    simp only [DbCall.exec]
    induction ops generalizing db with
    | nil => exact ⟨rfl, rfl⟩
    | cons op rest ih =>
      have later := ih (db.pipe op) fun op member => roleless op (List.mem_cons_of_mem _ member)
      have first : RolesKept db (db.pipe op) := by
        cases op with
        | srem set addr => exact absurd rfl (roleless _ List.mem_cons_self set addr)
        | del key => cases key <;> exact ⟨rfl, rfl⟩
        | hsetAttr addr attr => exact ⟨rfl, rfl⟩
      exact ⟨later.1.trans first.1, later.2.trans first.2⟩
  | del key => cases key <;> exact ⟨rfl, rfl⟩
  | hsetNxHost name addr =>
    simp only [DbCall.exec]
    split <;> exact ⟨rfl, rfl⟩
  | hsetNxCtime addr ts =>
    rw [hsetNxCtime_exec]
    exact ⟨rfl, rfl⟩
  | _ => exact ⟨rfl, rfl⟩

/-! ### Calls about one actor -/

abbrev CallTask : Type 1 := Task RepoCall DbCall StoreError

/-- An update or a removal of the given actor. -/
inductive RepoCall.Concerns (addr : IpAddr) : RepoCall → Prop
  | update {ctx : WriteContext} {actor : BuiltActor} (isAddr : actor.1.zprAddr = some addr) :
      Concerns addr (.updateActor ctx actor)
  | removal {order : SetOrder String} : Concerns addr (.rmActorByZprAddr order addr)

def CallTask.Running (task : CallTask) : Prop :=
  match task.rest with
  | .call _ _ => True
  | _ => False

instance (task : CallTask) : Decidable (CallTask.Running task) :=
  match task with
  | ⟨_, .call _ _, _⟩ => isTrue trivial
  | ⟨_, .ret _, _⟩ => isFalse id
  | ⟨_, .fail _, _⟩ => isFalse id

def RepoCall.isUpdate : RepoCall → Bool
  | .updateActor _ _ => true
  | _ => false

/-- An update that has made its two checks and is not finished. -/
def CallTask.Checked (task : CallTask) : Prop :=
  task.label.isUpdate ∧ 2 ≤ task.made ∧ CallTask.Running task
  deriving Decidable

/-- An update that has begun to write and is not finished. -/
def CallTask.Writing (task : CallTask) : Prop :=
  task.label.isUpdate ∧ 3 ≤ task.made ∧ CallTask.Running task
  deriving Decidable

/-- No removal begins while an update is past its checks, and no update writes while another
is writing. -/
@[mk_iff orderly_iff]
structure CallPool.Orderly (pool : CallPool) (turn : Nat) : Prop where
  removal : ∀ mine : CallTask, pool.tasks[turn]? = some mine → mine.label.removal.isSome →
    mine.made = 0 → ∀ other ∈ pool.tasks, ¬ CallTask.Checked other
  update : ∀ mine : CallTask, pool.tasks[turn]? = some mine → mine.label.isUpdate →
    2 ≤ mine.made → ∀ place < pool.tasks.length, place ≠ turn →
      ∀ other, pool.tasks[place]? = some other → ¬ CallTask.Writing other

instance (pool : CallPool) (turn : Nat) : Decidable (pool.Orderly turn) :=
  @decidable_of_iff _ _ (CallPool.orderly_iff pool turn).symm
    (@instDecidableAnd _ _ inferInstance inferInstance)

/-- A call that has not written anything yet, or an update that is over. -/
inductive Waiting (addr : IpAddr) : CallTask → Prop
  | removal (order : SetOrder String) :
      Waiting addr ⟨.rmActorByZprAddr order addr, rmActorByZprAddr order addr, 0⟩
  | update (ctx : WriteContext) (actor : BuiltActor) (isAddr : actor.1.zprAddr = some addr) :
      Waiting addr ⟨.updateActor ctx actor, updateActor ctx actor.1, 0⟩
  | inRole (ctx : WriteContext) (actor : BuiltActor) (isAddr : actor.1.zprAddr = some addr) :
      Waiting addr ⟨.updateActor ctx actor, updateInRole ctx addr actor.1, 1⟩
  | ended (task : CallTask) (isUpdate : task.label.isUpdate) (finished : ¬ CallTask.Running task) :
      Waiting addr task

/-- An update that is about to write. -/
inductive Ready (addr : IpAddr) : CallTask → Prop
  | update (ctx : WriteContext) (actor : BuiltActor) (isAddr : actor.1.zprAddr = some addr) :
      Ready addr ⟨.updateActor ctx actor, writeUpdate ctx addr actor.1, 2⟩

/-- What remains of a removal that has begun. -/
def Cleaning (addr : IpAddr) (task : CallTask) (db : ActorDb) : Prop :=
  task.label.removal.isSome ∧
    Safe DbCall.exec (PromotesLive (fun _ => False) addr) (RemovalRely (fun _ => False) addr)
      (RemovalGuar (fun _ => False) addr) (fun result db => result = .ok () ∧ db.NoKey addr)
      task.rest db

/-- What remains of an update that nobody disturbs. -/
def Finishing (addr : IpAddr) (task : CallTask) (db : ActorDb) : Prop :=
  Safe DbCall.exec (fun _ _ => True) Eq RolesKept (fun _ db => db.Present addr) task.rest db

section Tasks

variable {addr : IpAddr} {db : ActorDb} {label : RepoCall} {β : Type} {c : DbCall β}
variable {rest : β → ActorProg Unit} {made : Nat}

/-- What a waiting call may do: a removal forgets the actor, and an update makes a check. -/
theorem Waiting.step (waiting : Waiting addr ⟨label, .call c rest, made⟩) (db : ActorDb) :
    (label.removal.isSome ∧ made = 0 ∧ (c.exec db).2 = db.forgotten addr ∧
      ∃ order, rest (c.exec db).1 = cleanUpRest order addr) ∨
    (label.isUpdate ∧ (c.exec db).2 = db ∧
      (Waiting addr ⟨label, rest (c.exec db).1, made + 1⟩ ∨
        Ready addr ⟨label, rest (c.exec db).1, made + 1⟩ ∧
          (addr ∈ db.nodes ∨ addr ∈ db.adapters))) := by
  generalize isTask : (⟨label, .call c rest, made⟩ : CallTask) = task at waiting
  cases waiting with
  | removal order =>
    cases isTask
    exact .inl ⟨rfl, rfl, rfl, order, rfl⟩
  | update ctx actor isAddr =>
    unfold updateActor at isTask
    rw [isAddr] at isTask
    cases isTask
    refine .inr ⟨rfl, rfl, .inl ?_⟩
    change Waiting addr ⟨_, if db.has (.base addr) = true then _ else _, 1⟩
    split
    · exact .inRole ctx actor isAddr
    · exact .ended _ rfl id
  | inRole ctx actor isAddr =>
    cases isTask
    refine .inr ⟨rfl, rfl, ?_⟩
    change Waiting addr ⟨_, if decide (addr ∈ db.roleSet actor.1.roleSet) = true then _ else _, 2⟩
      ∨ Ready addr ⟨_, if decide (addr ∈ db.roleSet actor.1.roleSet) = true then _ else _, 2⟩ ∧ _
    split
    next isMember =>
      refine .inr ⟨.update ctx actor isAddr, ?_⟩
      have member := of_decide_eq_true isMember
      cases hSet : actor.1.roleSet with
      | nodes =>
        rw [hSet] at member
        exact .inl member
      | adapters =>
        rw [hSet] at member
        exact .inr member
    · exact .inl (.ended _ rfl id)
  | ended task isUpdate finished =>
    subst isTask
    exact absurd trivial finished

theorem Ready.checked {task : CallTask} (ready : Ready addr task) : CallTask.Checked task := by
  cases ready
  exact ⟨rfl, le_rfl, trivial⟩

theorem Ready.finishing (ready : Ready addr ⟨label, .call c rest, made⟩)
    (present : db.Present addr) : Finishing addr ⟨label, .call c rest, made⟩ db := by
  cases ready with
  | update ctx actor isAddr =>
    obtain ⟨next, ran, updated⟩ := writeUpdate_run ctx isAddr db
    refine safe_of_run (makes_imp (fun _ roleless db => roleless.kept db)
      (writeUpdate_roleless ctx isAddr)) ?_
    change (((writeUpdate ctx addr actor.1).run db).2).Present addr
    rw [ran]
    exact updated.keeps_present actor.2 isAddr present

theorem Cleaning.fades {task : CallTask} {next : ActorDb} (cleaning : Cleaning addr task db)
    (fades : Fades addr db next) : Cleaning addr task next := by
  refine ⟨cleaning.1, cleaning.2.stable RemovalRely.trans (fun result db now post relied => ?_)
    ⟨fun _ => fades, fun _ departs => departs.elim⟩⟩
  exact ⟨post.1, (relied.1 post.2.toGone).noKey post.2⟩

end Tasks

/-! ### Phases of a run -/

/-- The actor is present and nobody is writing. -/
structure Settled (addr : IpAddr) (pool : CallPool) : Prop where
  present : pool.store.Present addr
  tasks : ∀ task ∈ pool.tasks, Waiting addr task ∨ Ready addr task

/-- One update is writing. -/
structure Busy (addr : IpAddr) (pool : CallPool) (writer : Nat) : Prop where
  role : addr ∈ pool.store.nodes ∨ addr ∈ pool.store.adapters
  writes : ∃ task : CallTask, pool.tasks[writer]? = some task ∧ CallTask.Writing task ∧
    Finishing addr task pool.store
  others : ∀ (place : Nat) (task : CallTask), place ≠ writer → pool.tasks[place]? = some task →
    Waiting addr task ∨ Ready addr task

/-- The actor is gone, and the removals that have begun clean up. -/
structure Departed (addr : IpAddr) (pool : CallPool) : Prop where
  leaving : pool.store.Leaving addr
  tasks : ∀ task ∈ pool.tasks, Waiting addr task ∨ Cleaning addr task pool.store

def Phased (addr : IpAddr) (pool : CallPool) : Prop :=
  Settled addr pool ∨ (∃ writer, Busy addr pool writer) ∨ Departed addr pool

section Steps

variable {addr : IpAddr} {pool next : CallPool} {turn : Nat}

theorem phased_of_write {label : RepoCall} {β : Type} {c : DbCall β}
    {rest : β → ActorProg Unit} {made : Nat}
    (found : pool.tasks[turn]? = some ⟨label, .call c rest, made⟩)
    (isStore : next.store = (c.exec pool.store).2)
    (isTasks : next.tasks = pool.tasks.set turn ⟨label, rest (c.exec pool.store).1, made + 1⟩)
    (isUpdate : label.isUpdate) (checked : 2 ≤ made)
    (finishing : Finishing addr ⟨label, .call c rest, made⟩ pool.store)
    (role : addr ∈ pool.store.nodes ∨ addr ∈ pool.store.adapters)
    (others : ∀ (place : Nat) (task : CallTask), place ≠ turn → pool.tasks[place]? = some task →
      Waiting addr task ∨ Ready addr task) : Phased addr next := by
  obtain ⟨kept, later⟩ := finishing pool.store rfl trivial
  have otherNext (place : Nat) (task : CallTask) (apart : place ≠ turn)
      (isTask : next.tasks[place]? = some task) : Waiting addr task ∨ Ready addr task := by
    rw [isTasks] at isTask
    rcases Pool.get_set found isTask with ⟨own, -⟩ | ⟨-, before⟩
    · exact absurd own apart
    · exact others place task apart before
  have mine : next.tasks[turn]? = some ⟨label, rest (c.exec pool.store).1, made + 1⟩ := by
    rw [isTasks, List.getElem?_set_self (List.getElem?_eq_some_iff.mp found).1]
  have roleNext : addr ∈ next.store.nodes ∨ addr ∈ next.store.adapters := by
    rw [isStore, kept.1, kept.2]
    exact role
  rw [← isStore] at later
  by_cases running : CallTask.Running ⟨label, rest (c.exec pool.store).1, made + 1⟩
  · exact .inr (.inl ⟨turn, roleNext,
      ⟨_, mine, ⟨isUpdate, Nat.succ_le_succ checked, running⟩, later⟩, otherNext⟩)
  -- The last write was made.
  refine .inl ⟨?_, fun task member => ?_⟩
  · generalize rest (c.exec pool.store).1 = ending at later running
    cases ending with
    | ret value | fail failure => exact later
    | call c rest => exact absurd trivial running
  · obtain ⟨place, isTask⟩ := List.mem_iff_getElem?.mp member
    by_cases own : place = turn
    · subst own
      rw [mine] at isTask
      cases isTask
      exact .inl (.ended _ isUpdate running)
    · exact otherNext place task own isTask

theorem Settled.step (settled : Settled addr pool) (orderly : pool.Orderly turn)
    (stepped : pool.step turn = some next) : Phased addr next := by
  obtain ⟨label, β, c, rest, made, found, isStore, isTasks⟩ := Pool.step_cases stepped
  have before (place : Nat) (task : CallTask) (_ : place ≠ turn)
      (isTask : pool.tasks[place]? = some task) : Waiting addr task ∨ Ready addr task :=
    settled.tasks task (List.mem_of_getElem? isTask)
  rcases settled.tasks _ (List.mem_of_getElem? found) with waiting | ready
  · rcases waiting.step pool.store with ⟨isRemoval, rfl, forgets, order, isRest⟩ |
      ⟨isUpdate, same, advanced⟩
    · -- The removal begins: no update is past its checks.
      have unchecked := orderly.removal _ found isRemoval rfl
      rw [forgets] at isStore
      have leaving := ActorDb.forgotten_leaving settled.present.servicesListed
        settled.present.hostsListed
      refine .inr (.inr ⟨isStore ▸ leaving, fun task member => ?_⟩)
      obtain ⟨place, isTask⟩ := List.mem_iff_getElem?.mp member
      rw [isTasks] at isTask
      rcases Pool.get_set found isTask with ⟨-, rfl⟩ | ⟨apart, isBefore⟩
      · refine .inr ⟨isRemoval, ?_⟩
        rw [isRest, isStore]
        exact cleanUpRest_safe _ order leaving.toGone leaving.servicesListed leaving.hostsListed
      · rcases before place task apart isBefore with waiting | ready
        · exact .inl waiting
        · exact absurd ready.checked (unchecked task (List.mem_of_getElem? isBefore))
    · rw [same] at isStore
      refine .inl ⟨isStore ▸ settled.present, fun task member => ?_⟩
      obtain ⟨place, isTask⟩ := List.mem_iff_getElem?.mp member
      rw [isTasks] at isTask
      rcases Pool.get_set found isTask with ⟨-, rfl⟩ | ⟨apart, isBefore⟩
      · exact advanced.imp id And.left
      · exact before place task apart isBefore
  · have checked := ready.checked
    exact phased_of_write found isStore isTasks checked.1 checked.2.1
      (ready.finishing settled.present) settled.present.role before

theorem Busy.step {writer : Nat} (busy : Busy addr pool writer) (orderly : pool.Orderly turn)
    (stepped : pool.step turn = some next) : Phased addr next := by
  obtain ⟨label, β, c, rest, made, found, isStore, isTasks⟩ := Pool.step_cases stepped
  obtain ⟨writing, isWriting, writes, finishing⟩ := busy.writes
  by_cases own : turn = writer
  · subst own
    cases found.symm.trans isWriting
    exact phased_of_write found isStore isTasks writes.1 (Nat.le_of_succ_le writes.2.1) finishing
      busy.role busy.others
  · -- Beside the writer only checks are made.
    rcases busy.others turn _ own found with waiting | ready
    · rcases waiting.step pool.store with ⟨isRemoval, rfl, -⟩ | ⟨isUpdate, same, advanced⟩
      · have unchecked := orderly.removal _ found isRemoval rfl _ (List.mem_of_getElem? isWriting)
        exact absurd ⟨writes.1, Nat.le_of_succ_le writes.2.1, writes.2.2⟩ unchecked
      rw [same] at isStore
      have still : next.tasks[writer]? = some writing := by
        rw [isTasks, List.getElem?_set_ne own]
        exact isWriting
      refine .inr (.inl ⟨writer, isStore ▸ busy.role,
        ⟨writing, still, writes, isStore ▸ finishing⟩, fun place task apart isTask => ?_⟩)
      rw [isTasks] at isTask
      rcases Pool.get_set found isTask with ⟨-, rfl⟩ | ⟨-, isBefore⟩
      · exact advanced.imp id And.left
      · exact busy.others place task apart isBefore
    · have checked := ready.checked
      exact absurd writes (orderly.update _ found checked.1 checked.2.1 writer
        (List.getElem?_eq_some_iff.mp isWriting).1 (Ne.symm own) _ isWriting)

theorem Departed.step (departed : Departed addr pool) (stepped : pool.step turn = some next) :
    Departed addr next := by
  obtain ⟨label, β, c, rest, made, found, isStore, isTasks⟩ := Pool.step_cases stepped
  -- What is left of the actor fades; the others go on cleaning.
  have goesOn (fades : Fades addr pool.store next.store)
      (mine : Waiting addr ⟨label, rest (c.exec pool.store).1, made + 1⟩ ∨
        Cleaning addr ⟨label, rest (c.exec pool.store).1, made + 1⟩ next.store) :
      Departed addr next := by
    refine ⟨departed.leaving.fades fades, fun task member => ?_⟩
    obtain ⟨place, isTask⟩ := List.mem_iff_getElem?.mp member
    rw [isTasks] at isTask
    rcases Pool.get_set found isTask with ⟨-, rfl⟩ | ⟨-, before⟩
    · exact mine
    · exact (departed.tasks task (List.mem_of_getElem? before)).imp id fun cleaning =>
        cleaning.fades fades
  rcases departed.tasks _ (List.mem_of_getElem? found) with waiting | ⟨isRemoval, safe⟩
  · rcases waiting.step pool.store with ⟨isRemoval, -, forgets, order, isRest⟩ |
      ⟨isUpdate, same, advanced⟩
    · rw [forgets] at isStore
      have fades : Fades addr pool.store next.store :=
        isStore ▸ ActorDb.forgotten_fades addr pool.store
      have leaving := departed.leaving.fades fades
      refine goesOn fades (.inr ⟨isRemoval, ?_⟩)
      rw [isRest]
      exact cleanUpRest_safe _ order leaving.toGone leaving.servicesListed leaving.hostsListed
    · rw [same] at isStore
      have fades : Fades addr pool.store next.store := isStore ▸ .refl addr pool.store
      rcases advanced with waiting | ⟨-, role⟩
      · exact goesOn fades (.inl waiting)
      · exact (role.elim departed.leaving.nodes departed.leaving.adapters).elim
  · obtain ⟨guaranteed, later⟩ := safe pool.store (.refl pool.store)
      fun _ _ _ departs => departs.elim
    rw [← isStore] at guaranteed later
    exact goesOn guaranteed.fades (.inr ⟨isRemoval, later⟩)

theorem Phased.step (phased : Phased addr pool) (orderly : pool.Orderly turn)
    (stepped : pool.step turn = some next) : Phased addr next := by
  rcases phased with settled | ⟨writer, busy⟩ | departed
  · exact settled.step orderly stepped
  · exact busy.step orderly stepped
  · exact .inr (.inr (departed.step stepped))

end Steps

theorem phased_start {calls : List RepoCall} (concern : ∀ call ∈ calls, call.Concerns addr)
    (start : db.Present addr ∨ db.Leaving addr) :
    Phased addr (CallPool.start db calls) := by
  have waiting : ∀ task ∈ (CallPool.start db calls).tasks, Waiting addr task := by
    intro task isTask
    obtain ⟨call, isCall, rfl⟩ := List.mem_map.mp isTask
    cases concern call isCall with
    | update isAddr => exact .update _ _ isAddr
    | removal => exact .removal _
  rcases start with present | leaving
  · exact .inl ⟨present, fun task isTask => .inl (waiting task isTask)⟩
  · exact .inr (.inr ⟨leaving, fun task isTask => .inl (waiting task isTask)⟩)

theorem Phased.not_ghost (phased : Phased addr pool) :
    ¬ pool.store.Ghost addr := by
  rcases phased with settled | ⟨writer, busy⟩ | departed
  · exact settled.present.not_ghost
  · exact fun ghost => busy.role.elim ghost.2.1 ghost.2.2
  · exact departed.leaving.not_ghost

theorem Waiting.not_removed {task : CallTask} (waiting : Waiting addr task)
    (returned : task.rest = .ret ()) : task.label.removal.isNone := by
  cases waiting with
  | removal order => cases returned
  | update ctx actor isAddr => rfl
  | inRole ctx actor isAddr => rfl
  | ended task isUpdate finished =>
    cases isLabel : task.label with
    | updateActor ctx actor => rfl
    | _ => simp [isLabel, RepoCall.isUpdate] at isUpdate

theorem Phased.noKey (phased : Phased addr pool) (returned : pool.Returned) {task : CallTask}
    (member : task ∈ pool.tasks) (isRemoval : task.label.removal.isSome) :
    pool.store.NoKey addr := by
  have begun : ¬ Waiting addr task := fun waiting => by
    have not := waiting.not_removed (returned task member)
    rw [Option.isNone_iff_eq_none.mp not] at isRemoval
    cases isRemoval
  have unready : ¬ Ready addr task := fun ready => by
    cases ready
    cases isRemoval
  rcases phased with settled | ⟨writer, busy⟩ | departed
  · exact ((settled.tasks task member).elim begun unready).elim
  · obtain ⟨writing, isWriting, writes, -⟩ := busy.writes
    have running := writes.2.2
    unfold CallTask.Running at running
    rw [returned writing (List.mem_of_getElem? isWriting)] at running
    exact running.elim
  · obtain ⟨-, safe⟩ := (departed.tasks task member).resolve_left begun
    rw [returned task member] at safe
    exact safe.2

theorem CallPool.labels_of_run {calls : List RepoCall} {schedule : List Nat}
    (ran : run CallPool.step (CallPool.start db calls) schedule = some pool) :
    pool.tasks.map Task.label = calls := by
  have keeps (pool : CallPool) (turn : Nat) (next : CallPool)
      (same : pool.tasks.map Task.label = calls) (stepped : pool.step turn = some next) :
      next.tasks.map Task.label = calls := (Pool.step_labels stepped).trans same
  have start : (CallPool.start db calls).tasks.map Task.label = calls := by
    simp [CallPool.start, Pool.start, Function.comp_def]
  exact run_preserves keeps start ran

/-- Updates and removals of one actor that begin after any history: as long as no removal
begins between the checks and the end of an update and no two updates write at the same time,
there is no record in no role at any time, and once all calls have returned and there was a
removal among them, no key of the actor is left. -/
theorem removal_leaves_no_key (past calls : List RepoCall) (addr : IpAddr)
    (concern : ∀ call ∈ calls, call.Concerns addr) {schedule : List Nat} {pool : CallPool}
    (ran : run CallPool.step (CallPool.start (ActorDb.history past) calls) schedule = some pool)
    (orderly : Meets CallPool.step CallPool.Orderly
      (CallPool.start (ActorDb.history past) calls) schedule) :
    ¬ pool.store.Ghost addr ∧
      (pool.Returned → ∀ order, .rmActorByZprAddr order addr ∈ calls →
        pool.store.NoKey addr) := by
  have phased : Phased addr pool := run_preserves_of_meets
    (fun pool turn next phased orderly stepped => Phased.step phased orderly stepped)
    (phased_start concern (present_or_leaving_history past addr)) orderly ran
  refine ⟨phased.not_ghost, fun returned order isRemoval => ?_⟩
  rw [← CallPool.labels_of_run ran] at isRemoval
  obtain ⟨task, member, isLabel⟩ := List.mem_map.mp isRemoval
  exact phased.noKey returned member (by rw [isLabel]; rfl)

/-! ### A removal between the checks and the writes of an update -/

/-- A removal ends after every update has begun. -/
def RemovedLast (calls : List RepoCall) (schedule : List Nat) : Prop :=
  ∃ (pre : List Nat) (place : Nat) (post : List Nat) (order : SetOrder String) (addr : IpAddr),
    schedule = pre ++ place :: post ∧ place ∉ post ∧
      calls[place]? = some (.rmActorByZprAddr order addr) ∧
      ∀ other call, calls[other]? = some call → call.isUpdate → other ∈ pre

namespace RemovalSample

open PromotionSample

theorem adapter_wf : (provider first ["ssh"]).Wf := provider_wf first ["ssh"]

def adapter : BuiltActor := ⟨provider first ["ssh"], adapter_wf⟩

def past : List RepoCall := [.addActor context adapter]

def calls : List RepoCall :=
  [.updateActor context adapter, .rmActorByZprAddr .ascending firstAddr]

theorem calls_concern : ∀ call ∈ calls, call.Concerns firstAddr := by
  intro call isCall
  simp only [calls, List.mem_cons, List.not_mem_nil, or_false] at isCall
  rcases isCall with rfl | rfl
  · exact .update (by decide +kernel)
  · exact .removal

def start : CallPool := .start (ActorDb.history past) calls

/-- The update makes its checks, the actor is removed, and the update writes. -/
def between : List Nat :=
  [0, 0, 1, 1, 1, 1, 1, 1, 1, 1, 0, 0, 0, 0, 0, 0, 0, 0, 0, 0, 0, 0]

def ordered : List Nat :=
  [0, 0, 0, 0, 0, 0, 0, 0, 0, 0, 0, 0, 0, 0, 1, 1, 1, 1, 1, 1, 1, 1]

def after (schedule : List Nat) : CallPool := (run CallPool.step start schedule).getD start

end RemovalSample

open RemovalSample PromotionSample in
/-- The writes of an update after the removal leave a record in no role. -/
theorem removal_leaves_ghost :
    ¬ ∀ (past calls : List RepoCall) (addr : IpAddr), (∀ call ∈ calls, call.Concerns addr) →
      ∀ (schedule : List Nat) (pool : CallPool),
        run CallPool.step (CallPool.start (ActorDb.history past) calls) schedule = some pool →
        pool.Returned → RemovedLast calls schedule →
          (pool.store.NoKey addr ∨ pool.store.Complete addr) ∧ ¬ pool.store.Ghost addr := by
  intro safe
  have ran : run CallPool.step RemovalSample.start between =
      some (RemovalSample.after between) :=
    run_eq_some_getD (by decide +kernel) RemovalSample.start
  have last : RemovedLast RemovalSample.calls between := by
    refine ⟨[0, 0, 1, 1, 1, 1, 1, 1, 1], 1, List.replicate 12 0, .ascending, firstAddr, rfl,
      by decide, rfl, fun other call isCall isUpdate => ?_⟩
    match other with
    | 0 => decide
    | 1 =>
      cases isCall
      cases isUpdate
    | other + 2 => cases isCall
  have ghost : (RemovalSample.after between).store.Ghost firstAddr := by decide +kernel
  exact (safe RemovalSample.past RemovalSample.calls firstAddr calls_concern between _ ran
    (by decide +kernel) last).2 ghost

open RemovalSample PromotionSample in
example : ((getActorByZprAddr firstAddr).run (RemovalSample.after between).store).1.isOk ∧
    ¬ ((addActor context adapter.1).run (RemovalSample.after between).store).1.isOk := by
  decide +kernel

open RemovalSample PromotionSample in
theorem removal_after_update : (RemovalSample.after RemovalSample.ordered).store.NoKey firstAddr := by
  have ran : run CallPool.step RemovalSample.start RemovalSample.ordered =
      some (RemovalSample.after RemovalSample.ordered) :=
    run_eq_some_getD (by decide +kernel) RemovalSample.start
  have removed : RepoCall.rmActorByZprAddr .ascending firstAddr ∈ RemovalSample.calls := by
    simp [RemovalSample.calls]
  exact (removal_leaves_no_key RemovalSample.past RemovalSample.calls firstAddr calls_concern ran
    (by decide +kernel)).2 (by decide +kernel) .ascending removed

end VisaService
