import VisaService.Lib.Run
import VisaService.Actors.Departure
import VisaService.Actors.Services
import VisaService.Actors.Hostnames

/-!
# Promotion of claimants under interleaving

Calls about different addresses take turns, one database call at a time. Releasing a service
picks a live claimant and writes it as the owner some calls later; in between the claimant may
have departed, and its own release may already have passed the entry.

Main results: `entry_names_departed` and `no_entry_of_departed`.
-/
namespace VisaService

open Lib
open Prog (Safe Makes makes_bind makes_each makes_imp safe_bind safe_each safe_of_makes lift
  total_bind total_each)

/-! ### Calls about one address -/

def DbOp.About (addr : IpAddr) : DbOp → Prop
  | .del (.base b) => b = addr
  | .del (.attrs b) => b = addr
  | .del (.services b) => b = addr
  | .del (.hostnames b) => b = addr
  | .del (.service _) => True
  | .del (.host _) => True
  | .srem _ b => b = addr
  | .hsetAttr b _ => b = addr

/-- The call writes keys of the given actor only, or drops an entry. -/
def DbCall.About (addr : IpAddr) {β : Type} : DbCall β → Prop
  | .del key => DbOp.About addr (.del key)
  | .saddRole _ b => b = addr
  | .saddServices b _ => b = addr
  | .saddHostnames b _ => b = addr
  | .hsetService _ b => b = addr
  | .hsetNxHost _ b => b = addr
  | .hsetNxCtime b _ => b = addr
  | .hsetBase b _ => b = addr
  | .hsetAttr b _ => b = addr
  | .atomicPipeline ops => ∀ op ∈ ops, op.About addr
  | _ => True

section About

variable {addr other : IpAddr} {db : ActorDb}

theorem keeps_of_base {base : HashMap IpAddr ActorRecord} (same : other ∈ base ↔ other ∈ db.base) :
    Keeps other db { db with base := base } :=
  { Keeps.refl other db with base := same }

theorem keeps_of_attrs {attrs : HashMap IpAddr (HashMap String Attribute)}
    (same : other ∈ attrs ↔ other ∈ db.attrs) : Keeps other db { db with attrs := attrs } :=
  { Keeps.refl other db with attrs := same }

theorem keeps_of_services {services : Rows IpAddr String}
    (same : services[other]? = db.services[other]?) :
    Keeps other db { db with services := services } :=
  { Keeps.refl other db with services := same }

theorem keeps_of_hostnames {hostnames : Rows IpAddr String}
    (same : hostnames[other]? = db.hostnames[other]?) :
    Keeps other db { db with hostnames := hostnames } :=
  { Keeps.refl other db with hostnames := same }

theorem mem_insert_of_ne {V : Type} (table : HashMap IpAddr V) (value : V) (apart : other ≠ addr) :
    other ∈ table.insert addr value ↔ other ∈ table := by
  simp [Ne.symm apart]

theorem mem_erase_of_ne {V : Type} (table : HashMap IpAddr V) (apart : other ≠ addr) :
    other ∈ table.erase addr ↔ other ∈ table := HashMap.mem_erase.trans (and_iff_left apart)

theorem del_keeps {key : ActorKey} (about : DbOp.About addr (.del key)) (apart : other ≠ addr)
    (db : ActorDb) : Keeps other db (db.del key) := by
  cases key with
  | base b =>
    cases about
    exact keeps_of_base (mem_erase_of_ne db.base apart)
  | attrs b =>
    cases about
    exact keeps_of_attrs (mem_erase_of_ne db.attrs apart)
  | services b =>
    cases about
    exact keeps_of_services (by rw [HashMap.get_erase, if_neg (Ne.symm apart)])
  | hostnames b =>
    cases about
    exact keeps_of_hostnames (by rw [HashMap.get_erase, if_neg (Ne.symm apart)])
  | service name => exact dropEntry_keeps other name db
  | host name => exact dropHost_keeps other name db

theorem setBase_keeps (apart : other ≠ addr) (db : ActorDb)
    (change : ActorRecord → ActorRecord) : Keeps other db (db.setBase addr change) :=
  keeps_of_base (mem_insert_of_ne db.base _ apart)

theorem setAttr_keeps (apart : other ≠ addr) (db : ActorDb) (attr : Attribute) :
    Keeps other db (db.setAttr addr attr) :=
  keeps_of_attrs (mem_insert_of_ne db.attrs _ apart)

theorem pipe_keeps {op : DbOp} (about : op.About addr) (apart : other ≠ addr) (db : ActorDb) :
    Keeps other db (db.pipe op) := by
  cases op with
  | del key => exact del_keeps about apart db
  | srem set b =>
    cases about
    cases set with
    | nodes =>
      exact { Keeps.refl other db with
        nodes := by simp [ActorDb.pipe, ActorDb.srem, Ne.symm apart] }
    | adapters =>
      exact { Keeps.refl other db with
        adapters := by simp [ActorDb.pipe, ActorDb.srem, Ne.symm apart] }
  | hsetAttr b attr =>
    cases about
    exact setAttr_keeps apart db attr

theorem pipes_keep {ops : List DbOp} (about : ∀ op ∈ ops, op.About addr) (apart : other ≠ addr)
    (db : ActorDb) : Keeps other db (ops.foldl ActorDb.pipe db) := by
  induction ops generalizing db with
  | nil => exact .refl other db
  | cons op rest ih =>
    have first := pipe_keeps (about op List.mem_cons_self) apart db
    exact first.trans
      (ih (fun later member => about later (List.mem_cons_of_mem _ member)) (db.pipe op))

theorem DbCall.About.keeps {β : Type} {call : DbCall β} (about : call.About addr)
    (apart : other ≠ addr) (db : ActorDb) : Keeps other db (call.exec db).2 := by
  cases call with
  | del key => exact del_keeps about apart db
  | saddRole set b =>
    cases about
    cases set with
    | nodes =>
      exact { Keeps.refl other db with
        nodes := by simp [DbCall.exec, ActorDb.sadd, Ne.symm apart] }
    | adapters =>
      exact { Keeps.refl other db with
        adapters := by simp [DbCall.exec, ActorDb.sadd, Ne.symm apart] }
  | saddServices b name =>
    cases about
    exact keeps_of_services (by rw [Rows.add, HashMap.get_alter, if_neg (Ne.symm apart)])
  | saddHostnames b name =>
    cases about
    exact keeps_of_hostnames (by rw [Rows.add, HashMap.get_alter, if_neg (Ne.symm apart)])
  | hsetService name b =>
    cases about
    -- The call is about `addr`, so the new owner is not `other`.
    refine { Keeps.refl other db with service := fun n owns => .inl ?_ }
    simp only [DbCall.exec, HashMap.get_insert] at owns
    split at owns
    · exact absurd (Option.some.inj owns).symm apart
    · exact owns
  | hsetNxHost name b =>
    cases about
    simp only [DbCall.exec]
    split
    · exact .refl other db
    · refine { Keeps.refl other db with host := fun n holds => ?_ }
      simp only [HashMap.get_insert] at holds
      split at holds
      · exact absurd (Option.some.inj holds).symm apart
      · exact holds
  | hsetNxCtime b ts =>
    cases about
    rw [hsetNxCtime_exec]
    exact setBase_keeps apart db _
  | hsetBase b field =>
    cases about
    exact setBase_keeps apart db _
  | hsetAttr b attr =>
    cases about
    exact setAttr_keeps apart db attr
  | atomicPipeline ops =>
    exact pipes_keep about apart db
  | «exists» key | sismemberRole set b | smembersRole set | sismemberServices b name
  | smembersServices b | smembersHostnames b | scanServices | hgetService name | hgetHost name
  | hgetIdentityKeys b | hgetAttr b key | hgetallAttrs b => exact .refl other db

end About

/-! ### The calls of each function -/

def DbCall.Roleless {β : Type} : DbCall β → Prop
  | .saddRole _ _ => False
  | .atomicPipeline ops => ∀ op ∈ ops, ∀ set addr, op ≠ .srem set addr
  | _ => True

/-- The call writes keys of the given actor, its role apart. -/
def DbCall.Plain (addr : IpAddr) {β : Type} (call : DbCall β) : Prop :=
  call.About addr ∧ call.Roleless

variable {addr : IpAddr}

theorem makes_about {α : Type} {prog : ActorProg α} (makes : Makes (DbCall.Plain addr) prog) :
    Makes (DbCall.About addr) prog :=
  makes_imp (fun _ plain => plain.1) makes

theorem makes_roleless {α : Type} {prog : ActorProg α} (makes : Makes (DbCall.Plain addr) prog) :
    Makes DbCall.Roleless prog :=
  makes_imp (fun _ plain => plain.2) makes

section Makes

variable (addr : IpAddr)

theorem writeBase_makes (actor : Actor) (ts : String) :
    Makes (DbCall.Plain addr) (writeBase addr actor ts) :=
  ⟨⟨rfl, trivial⟩, fun _ => ⟨⟨rfl, trivial⟩, fun _ => ⟨⟨rfl, trivial⟩, fun _ => trivial⟩⟩⟩

theorem releaseOwnedHostEntries_makes (names : List String) :
    Makes (DbCall.Plain addr) (releaseOwnedHostEntries addr names) := by
  refine makes_each (fun name => ?_) names
  refine ⟨⟨trivial, trivial⟩, fun owner => ?_⟩
  change Makes _ (if owner = some addr then _ else _)
  split
  · exact ⟨⟨trivial, trivial⟩, fun _ => trivial⟩
  · trivial

theorem claimHostnames_makes (names conflicts : List String) :
    Makes (DbCall.Plain addr) (claimHostnames addr names conflicts) := by
  induction names generalizing conflicts with
  | nil => trivial
  | cons name rest ih =>
    refine ⟨⟨rfl, trivial⟩, fun claimed => ?_⟩
    change Makes _ (if claimed = true then _ else _)
    split
    · exact ⟨⟨rfl, trivial⟩, fun _ => ih conflicts⟩
    · refine ⟨⟨trivial, trivial⟩, fun owner => ?_⟩
      change Makes _ (if owner = some addr then _ else _)
      split
      · exact ⟨⟨rfl, trivial⟩, fun _ => ih conflicts⟩
      · exact ih (conflicts ++ [name])

variable {addr} {actor : Actor} (isAddr : actor.zprAddr = some addr)

include isAddr in
theorem claimHostnamesForActor_makes (order : SetOrder String)
    (policyServiceNames : HashSet String) :
    Makes (DbCall.Plain addr) (claimHostnamesForActor order actor policyServiceNames) := by
  unfold claimHostnamesForActor
  simp only [isAddr]
  refine ⟨⟨trivial, trivial⟩, fun existing => ?_⟩
  change Makes _ (releaseOwnedHostEntries addr _ >>= _)
  refine makes_bind (releaseOwnedHostEntries_makes addr _) fun _ => ⟨⟨rfl, trivial⟩, fun _ => ?_⟩
  change Makes _ (claimHostnames addr _ _ >>= _)
  exact makes_bind (claimHostnames_makes addr _ _) fun _ => ⟨⟨rfl, trivial⟩, fun _ => trivial⟩

include isAddr in
theorem writeActor_makes (ctx : WriteContext) :
    Makes (DbCall.About addr) (writeActor ctx addr actor) := by
  unfold writeActor
  refine makes_bind (makes_each (fun attr => ?_) _) fun _ => ?_
  · exact ⟨rfl, fun _ => trivial⟩
  refine makes_bind (makes_about (writeBase_makes addr actor ctx.ts)) fun _ => ?_
  refine makes_bind (makes_each (fun name => ?_) _) fun _ => ?_
  · exact ⟨rfl, fun _ => ⟨rfl, fun _ => trivial⟩⟩
  refine makes_bind (makes_about
    (claimHostnamesForActor_makes isAddr ctx.order ctx.policyServiceNames)) fun _ => ?_
  exact ⟨rfl, fun _ => trivial⟩

theorem reclaimService_makes (name : String) :
    Makes (DbCall.Plain addr) (reclaimService addr name) := by
  refine ⟨⟨trivial, trivial⟩, fun owner => ?_⟩
  change Makes _ (if owner.any (· ≠ addr) = true then _ else _)
  split
  · exact ⟨⟨rfl, trivial⟩, fun _ => trivial⟩
  · exact ⟨⟨rfl, trivial⟩, fun _ => ⟨⟨rfl, trivial⟩, fun _ => trivial⟩⟩

end Makes

theorem claimHostnames_total (addr : IpAddr) (names conflicts : List String) :
    Prog.Total (claimHostnames addr names conflicts) := by
  induction names generalizing conflicts with
  | nil => trivial
  | cons name rest ih =>
    intro claimed
    change Prog.Total (if claimed = true then _ else _)
    split
    · exact fun _ => ih conflicts
    · intro owner
      change Prog.Total (if owner = some addr then _ else _)
      split
      · exact fun _ => ih conflicts
      · exact ih (conflicts ++ [name])

theorem releaseOwnedHostEntries_total (addr : IpAddr) (names : List String) :
    Prog.Total (releaseOwnedHostEntries addr names) := by
  refine total_each (fun name => ?_) names
  intro owner
  change Prog.Total (if owner = some addr then _ else _)
  split
  · exact fun _ => trivial
  · trivial

theorem claimHostnamesForActor_total (order : SetOrder String) (actor : Actor)
    (policyServiceNames : HashSet String) :
    Prog.Total (claimHostnamesForActor order actor policyServiceNames) := by
  unfold claimHostnamesForActor
  split
  · trivial
  · intro existing
    change Prog.Total (releaseOwnedHostEntries _ _ >>= _)
    refine total_bind (releaseOwnedHostEntries_total _ _) fun _ _ => ?_
    change Prog.Total (claimHostnames _ _ _ >>= _)
    exact total_bind (claimHostnames_total _ _ _) fun _ _ => trivial

theorem writeActor_total (ctx : WriteContext) (addr : IpAddr) (actor : Actor) :
    Prog.Total (writeActor ctx addr actor) := by
  unfold writeActor
  refine total_bind (total_each (fun attr => ?_) _) fun _ => ?_
  · exact fun _ => trivial
  refine total_bind ?_ fun _ => ?_
  · exact fun _ _ _ => trivial
  refine total_bind (total_each (fun name => ?_) _) fun _ => ?_
  · exact fun _ _ => trivial
  exact total_bind (claimHostnamesForActor_total _ _ _) fun _ _ => trivial

/-- An add at a known address: once the address is claimed nothing fails, and there is nothing
to clean up. -/
theorem addActor_eq (ctx : WriteContext) {actor : Actor} (isAddr : actor.zprAddr = some addr) :
    addActor ctx actor = lift (.hsetNxCtime addr ctx.ts) >>= fun claimed =>
      if claimed then writeActor ctx addr actor
      else .fail (.addressOccupied
        s!"zpr address already held by a live actor: {addr.display}") := by
  unfold addActor addActorWithMode tryAddActor
  simp only [isAddr, Bool.false_eq_true, if_false]
  change Prog.call _ _ = Prog.call _ _
  congr 1
  funext claimed
  cases claimed with
  | false => rfl
  | true => exact Prog.recover_of_total (writeActor_total ctx addr actor) _

/-! ### Every call is safe among the others -/

def RepoCall.address : RepoCall → Option IpAddr
  | .addActor _ actor => actor.1.zprAddr
  | .addActorReplacing _ actor => actor.1.zprAddr
  | .updateActor _ actor => actor.1.zprAddr
  | .rmActorByZprAddr _ addr => some addr
  | .reconcileHostnameClaims _ _ _ => none

/-- `add_actor`, `update_actor` or `rm_actor_by_zpr_addr`. -/
def RepoCall.Single : RepoCall → Prop
  | .addActor _ _ => True
  | .updateActor _ _ => True
  | .rmActorByZprAddr _ _ => True
  | _ => False

/-- One of the calls removes the actor. -/
def Departing (calls : List RepoCall) (addr : IpAddr) : Prop :=
  ∃ order, RepoCall.rmActorByZprAddr order addr ∈ calls

def RepoCall.removal : RepoCall → Option IpAddr
  | .rmActorByZprAddr _ addr => some addr
  | _ => none

theorem departing_iff {calls : List RepoCall} :
    Departing calls addr ↔ some addr ∈ calls.map RepoCall.removal := by
  constructor
  · rintro ⟨order, removed⟩
    exact List.mem_map.mpr ⟨_, removed, rfl⟩
  · intro removed
    obtain ⟨call, isCall, isRemoval⟩ := List.mem_map.mp removed
    cases call with
    | rmActorByZprAddr order own =>
      cases isRemoval
      exact ⟨order, isCall⟩
    | _ => cases isRemoval

instance (calls : List RepoCall) : DecidablePred (Departing calls) := fun _ =>
  decidable_of_iff _ departing_iff.symm

section Safety

variable (departing : IpAddr → Prop)

/-- What a call relies on: nobody disturbs the departing actors, and a removal has its own
actor to itself. -/
def callRely : RepoCall → ActorDb → ActorDb → Prop
  | .rmActorByZprAddr _ addr, db, now =>
    Keeps addr db now ∧ OthersUndisturbed departing addr db now
  | .addActor _ actor, db, now =>
    ∀ addr, actor.1.zprAddr = some addr → OthersUndisturbed departing addr db now
  | .updateActor _ actor, db, now =>
    ∀ addr, actor.1.zprAddr = some addr → OthersUndisturbed departing addr db now
  | _, _, _ => True

/-- What a write guarantees; without an address it makes no call. -/
def writeGuar (addr : Option IpAddr) (db next : ActorDb) : Prop :=
  ∃ own, addr = some own ∧ OthersKept departing own db next

def callGuar : RepoCall → ActorDb → ActorDb → Prop
  | .rmActorByZprAddr _ addr, db, next =>
    OthersKept departing addr db next ∧ Undisturbed addr db next
  | .addActor _ actor, db, next => writeGuar departing actor.1.zprAddr db next
  | .updateActor _ actor, db, next => writeGuar departing actor.1.zprAddr db next
  | _, _, _ => False

def callPost : RepoCall → Except StoreError Unit → ActorDb → Prop
  | .rmActorByZprAddr _ addr, result, db => result = .ok () ∧ db.NoKey addr
  | _, _, _ => True

/-- A claimant that one of the calls removes is written as owner only while it is live. -/
def callAllow (call : RepoCall) {β : Type} (c : DbCall β) (db : ActorDb) : Prop :=
  ∀ addr, call.address = some addr → PromotesLive departing addr c db

instance [DecidablePred departing] (call : RepoCall) (β : Type) (c : DbCall β) (db : ActorDb) :
    Decidable (callAllow departing call c db) :=
  inferInstanceAs (Decidable (∀ addr, call.address = some addr → ∀ owner,
    c.newOwner = some owner → owner ≠ addr → departing owner → owner ∈ db.base))

variable {departing}

variable {addr : IpAddr}

theorem makes_writeGuar {α : Type} {own : Option IpAddr} {prog : ActorProg α}
    (isAddr : own = some addr) (makes : Makes (DbCall.About addr) prog) :
    Makes (fun c => ∀ db, writeGuar departing own db (DbCall.exec c db).2) prog :=
  makes_imp (fun _ about db => ⟨addr, isAddr, fun _ _ apart => about.keeps apart db⟩) makes

theorem addActor_safe (ctx : WriteContext) (actor : BuiltActor) (db : ActorDb) :
    Safe DbCall.exec (callAllow departing (.addActor ctx actor))
      (callRely departing (.addActor ctx actor)) (callGuar departing (.addActor ctx actor))
      (callPost (.addActor ctx actor))
      (addActor ctx actor.1) db := by
  cases isAddr : actor.1.zprAddr with
  | none =>
    have fails : ∃ failure, addActor ctx actor.1 = .fail failure := by
      simp [addActor, addActorWithMode, tryAddActor, isAddr, Prog.recover]
    obtain ⟨failure, isFail⟩ := fails
    rw [isFail]
    trivial
  | some addr =>
    have makes : Makes (DbCall.About addr) (addActor ctx actor.1) := by
      rw [addActor_eq ctx isAddr]
      refine ⟨rfl, fun claimed => ?_⟩
      change Makes _ (if claimed = true then _ else _)
      split
      · exact writeActor_makes isAddr ctx
      · trivial
    exact safe_of_makes (makes_writeGuar isAddr makes) db

theorem releaseServices_safe (ctx : WriteContext) {actor : BuiltActor}
    (isAddr : actor.1.zprAddr = some addr) (names : List String) (db : ActorDb) :
    Safe DbCall.exec (PromotesLive departing addr) (callRely departing (.updateActor ctx actor))
      (writeGuar departing actor.1.zprAddr) (fun result _ => result = .ok ())
      (releaseOwnedServiceEntries addr names) db := by
  refine (safe_each (fun _ _ => True) (fun done name store _ _ => ?_) trivial).imp
    fun _ _ both => both.1
  refine releaseServiceEntry_safe departing (fun _ => True) (fun _ => True)
    (fun _ _ relied => relied addr isAddr)
    (fun db _ => ⟨addr, isAddr, fun other _ _ => .refl other db⟩)
    (fun _ _ _ _ => trivial) (fun _ _ _ => trivial) (fun db claimant _ live chosen => ?_)
    (fun db _ => ?_) trivial
  · exact ⟨⟨addr, isAddr, promotion_keeps live chosen⟩, trivial⟩
  · exact ⟨⟨addr, isAddr, fun other _ _ => dropEntry_keeps other name db⟩, trivial⟩

theorem callAllow_promotesLive (call : RepoCall) (isAddr : call.address = some addr) {β : Type}
    (c : DbCall β) (db : ActorDb) (allowed : callAllow departing call c db) :
    PromotesLive departing addr c db :=
  allowed addr isAddr

theorem writeUpdate_safe (ctx : WriteContext) {actor : BuiltActor}
    (isAddr : actor.1.zprAddr = some addr) (db : ActorDb) :
    Safe DbCall.exec (PromotesLive departing addr) (callRely departing (.updateActor ctx actor))
      (writeGuar departing actor.1.zprAddr) (fun _ _ => True)
      (writeUpdate ctx addr actor.1) db := by
  have within {α : Type} {prog : ActorProg α} (makes : Makes (DbCall.About addr) prog)
      (db : ActorDb) : Safe DbCall.exec (PromotesLive departing addr)
      (callRely departing (.updateActor ctx actor)) (writeGuar departing actor.1.zprAddr)
      (fun _ _ => True) prog db := safe_of_makes (makes_writeGuar isAddr makes) db
  have own {β : Type} {c : DbCall β} (about : c.About addr) (db : ActorDb) :
      writeGuar departing actor.1.zprAddr db (c.exec db).2 :=
    ⟨addr, isAddr, fun _ _ apart => about.keeps apart db⟩
  -- Attributes and base record.
  intro piping _ _
  refine ⟨own ?_ piping, ?_⟩
  · intro op member
    rcases List.mem_cons.mp member with rfl | later
    · rfl
    · obtain ⟨attr, -, rfl⟩ := List.mem_map.mp later
      rfl
  change Safe _ _ _ _ _ (writeBase addr actor.1 ctx.ts >>= _) _
  refine safe_bind ((within (makes_about (writeBase_makes addr actor.1 ctx.ts)) _).imp
    fun result based _ => ?_)
  cases result with
  | error failure => trivial
  | ok done =>
    -- The services that were dropped.
    intro reading _ _
    refine ⟨own (c := .smembersServices addr) trivial reading, ?_⟩
    change Safe _ _ _ _ _ (releaseOwnedServiceEntries addr _ >>= _) _
    refine safe_bind ((releaseServices_safe ctx isAddr _ _).imp ?_)
    rintro result released rfl
    -- The services that are kept, and the hostnames.
    refine within ?_ released
    refine ⟨rfl, fun _ => ?_⟩
    change Makes _ (Prog.each actor.1.services (reclaimService addr) >>= _)
    exact makes_bind (makes_each (fun name => makes_about (reclaimService_makes name)) _) fun _ =>
      makes_about (claimHostnamesForActor_makes isAddr ctx.order ctx.policyServiceNames)

theorem updateActor_safe (ctx : WriteContext) (actor : BuiltActor) (db : ActorDb) :
    Safe DbCall.exec (callAllow departing (.updateActor ctx actor))
      (callRely departing (.updateActor ctx actor)) (callGuar departing (.updateActor ctx actor))
      (callPost (.updateActor ctx actor)) (updateActor ctx actor.1) db := by
  unfold updateActor
  cases isAddr : actor.1.zprAddr with
  | none => trivial
  | some addr =>
    have reads (db : ActorDb) : callGuar departing (.updateActor ctx actor) db db :=
      ⟨addr, isAddr, fun other _ _ => .refl other db⟩
    intro now _ _
    refine ⟨reads now, ?_⟩
    change Safe _ _ _ _ _ (if now.has (.base addr) = true then _ else _) now
    split
    · intro checking _ _
      refine ⟨reads checking, ?_⟩
      change Safe _ _ _ _ _
        (if decide (addr ∈ checking.roleSet actor.1.roleSet) = true then _ else _) checking
      split
      · exact (writeUpdate_safe ctx isAddr checking).mono
          (callAllow_promotesLive (.updateActor ctx actor) isAddr) (fun _ _ relied => relied)
          fun _ _ promised => promised
      · trivial
    · trivial

/-- A removal among calls about other addresses leaves no key of its actor. -/
theorem rmActorByZprAddr_safe (order : SetOrder String) {db : ActorDb}
    (servicesListed : db.ServicesListed addr) (hostsListed : db.HostsListed addr) :
    Safe DbCall.exec (callAllow departing (.rmActorByZprAddr order addr))
      (callRely departing (.rmActorByZprAddr order addr))
      (callGuar departing (.rmActorByZprAddr order addr))
      (callPost (.rmActorByZprAddr order addr)) (rmActorByZprAddr order addr) db := by
  intro now relied _
  have gone := forgotten_gone addr now
  have about : ∀ op ∈ [.del (.base addr), .del (.attrs addr), .srem .nodes addr,
      .srem .adapters addr], DbOp.About addr op := by
    intro op member
    simp only [List.mem_cons, List.not_mem_nil, or_false] at member
    rcases member with rfl | rfl | rfl | rfl <;> rfl
  refine ⟨⟨fun other _ apart => pipes_keep about apart now, fun live => absurd live gone.base⟩, ?_⟩
  have listed := relied.1.servicesListed servicesListed
  have hosts := relied.1.hostsListed hostsListed
  refine (cleanUpRest_safe departing order gone listed hosts).mono
    (callAllow_promotesLive (.rmActorByZprAddr order addr) rfl) (fun store next reliedNext => ?_)
    (fun store next promised => ?_)
  · exact ⟨fun gone => reliedNext.1.fades gone, reliedNext.2⟩
  · exact ⟨promised.others, fun live => absurd live (promised.fades.gone promised.gone).base⟩

end Safety

/-! ### Runs of calls about different addresses -/

/-- Calls that take turns, one database call at a time. -/
abbrev CallPool : Type 1 := Pool RepoCall DbCall StoreError ActorDb

def CallPool.step : CallPool → Nat → Option CallPool := Pool.step DbCall.exec

def CallPool.start (db : ActorDb) (calls : List RepoCall) : CallPool :=
  Pool.start RepoCall.prog db calls

/-- The next call does not write as owner a claimant that one of the calls removes and that is
not live any more. -/
def CallPool.PromotesLive (pool : CallPool) (turn : Nat) : Prop :=
  Pool.Allowed (callAllow (Departing (pool.tasks.map Task.label))) pool turn
  deriving Decidable

section Runs

variable {departing : IpAddr → Prop}

theorem callRely_refl (call : RepoCall) (db : ActorDb) : callRely departing call db db := by
  have others (addr : IpAddr) : OthersUndisturbed departing addr db db := fun other _ _ =>
    (Keeps.refl other db).undisturbed
  cases call with
  | rmActorByZprAddr order addr => exact ⟨.refl addr db, others addr⟩
  | addActor ctx actor | updateActor ctx actor => exact fun addr _ => others addr
  | addActorReplacing ctx actor => trivial
  | reconcileHostnameClaims actorOrder order policyServiceNames => trivial

theorem callRely_trans (call : RepoCall) (first second third : ActorDb)
    (one : callRely departing call first second) (two : callRely departing call second third) :
    callRely departing call first third := by
  cases call with
  | rmActorByZprAddr order addr => exact ⟨one.1.trans two.1, one.2.trans two.2⟩
  | addActor ctx actor => exact fun addr isAddr => (one addr isAddr).trans (two addr isAddr)
  | updateActor ctx actor => exact fun addr isAddr => (one addr isAddr).trans (two addr isAddr)
  | addActorReplacing ctx actor => trivial
  | reconcileHostnameClaims actorOrder order policyServiceNames => trivial

theorem callPost_kept (call : RepoCall) (result : Except StoreError Unit) (db now : ActorDb)
    (post : callPost call result db) (relied : callRely departing call db now) :
    callPost call result now := by
  cases call with
  | rmActorByZprAddr order addr => exact ⟨post.1, (relied.1.fades post.2.toGone).noKey post.2⟩
  | addActor ctx actor | updateActor ctx actor | addActorReplacing ctx actor
  | reconcileHostnameClaims actorOrder order policyServiceNames => trivial

theorem callGuar_keeps {call : RepoCall} {db next : ActorDb} {other : IpAddr}
    (guaranteed : callGuar departing call db next) (departs : departing other)
    (apart : call.address ≠ some other) : Keeps other db next := by
  cases call with
  | rmActorByZprAddr order addr =>
    exact guaranteed.1 other departs fun same => apart (congrArg some same.symm)
  | addActor ctx actor | updateActor ctx actor =>
    obtain ⟨own, isOwn, kept⟩ := guaranteed
    exact kept other departs fun same => apart (isOwn.trans (congrArg some same.symm))
  | addActorReplacing ctx actor => exact guaranteed.elim
  | reconcileHostnameClaims actorOrder order policyServiceNames => exact guaranteed.elim

end Runs

section Pools

variable {calls : List RepoCall}

theorem address_ne (different : calls.Pairwise fun a b => a.address ≠ b.address)
    {mine other : RepoCall} (isMine : mine ∈ calls) (isOther : other ∈ calls)
    (apart : mine ≠ other) : mine.address ≠ other.address := by
  have symm : Std.Symm fun a b : RepoCall => a.address ≠ b.address := ⟨fun _ _ => Ne.symm⟩
  exact different.forall isMine isOther apart

theorem callGuar_compatible (different : calls.Pairwise fun a b => a.address ≠ b.address)
    {mine other : RepoCall} (isMine : mine ∈ calls) (isOther : other ∈ calls)
    (apart : mine ≠ other) {db next : ActorDb}
    (guaranteed : callGuar (Departing calls) mine db next) :
    callRely (Departing calls) other db next := by
  have undisturbed (addr : IpAddr) : OthersUndisturbed (Departing calls) addr db next := by
    rintro third ⟨order, isRemoval⟩ -
    by_cases own : mine = .rmActorByZprAddr order third
    · subst own
      exact guaranteed.2
    · have differ := address_ne different isMine isRemoval own
      exact (callGuar_keeps guaranteed ⟨order, isRemoval⟩ differ).undisturbed
  cases other with
  | rmActorByZprAddr order addr =>
    have differ := address_ne different isMine isOther apart
    exact ⟨callGuar_keeps guaranteed ⟨order, isOther⟩ differ, undisturbed addr⟩
  | addActor ctx actor | updateActor ctx actor => exact fun addr _ => undisturbed addr
  | addActorReplacing ctx actor => trivial
  | reconcileHostnameClaims actorOrder order policyServiceNames => trivial

/-- Every call of the pool is safe from the current database on. -/
structure CallPool.Safe (calls : List RepoCall) (pool : CallPool) : Prop where
  labels : pool.tasks.map Task.label = calls
  safe : pool.AllSafe DbCall.exec (callAllow (Departing calls)) (callRely (Departing calls))
    (callGuar (Departing calls)) callPost

theorem CallPool.Safe.start {db : ActorDb} (single : ∀ call ∈ calls, call.Single)
    (servicesListed : ∀ addr, db.ServicesListed addr) (hostsListed : ∀ addr, db.HostsListed addr) :
    (CallPool.start db calls).Safe calls where
  labels := by simp [CallPool.start, Pool.start, Function.comp_def]
  safe task isTask := by
    obtain ⟨call, isCall, rfl⟩ := List.mem_map.mp isTask
    cases call with
    | rmActorByZprAddr order addr =>
      exact rmActorByZprAddr_safe order (servicesListed addr) (hostsListed addr)
    | addActor ctx actor => exact addActor_safe ctx actor db
    | updateActor ctx actor => exact updateActor_safe ctx actor db
    | addActorReplacing ctx actor => exact (single _ isCall).elim
    | reconcileHostnameClaims actorOrder order policyServiceNames => exact (single _ isCall).elim

theorem CallPool.Safe.step (different : calls.Pairwise fun a b => a.address ≠ b.address)
    {pool next : CallPool} {turn : Nat} (safe : pool.Safe calls) (live : pool.PromotesLive turn)
    (stepped : pool.step turn = some next) : next.Safe calls where
  labels := (Pool.step_labels stepped).trans safe.labels
  safe := by
    have distinct : (pool.tasks.map Task.label).Nodup := by
      rw [safe.labels]
      exact different.imp fun apart same => apart (congrArg RepoCall.address same)
    unfold CallPool.PromotesLive at live
    rw [safe.labels] at live
    refine Pool.step_safe callRely_refl callRely_trans callPost_kept ?_ distinct live safe.safe
      stepped
    intro mine other store now isMine isOther apart guaranteed
    rw [safe.labels] at isMine isOther
    exact callGuar_compatible different isMine isOther apart guaranteed

/-- Calls about different addresses that begin after any history and all return: as long as
every claimant that one of them removes is live when it is written as owner, no `service:`
entry names an actor that one of them removed. -/
theorem no_entry_of_departed (past calls : List RepoCall)
    (single : ∀ call ∈ calls, call.Single)
    (different : calls.Pairwise fun a b => a.address ≠ b.address)
    {schedule : List Nat} {pool : CallPool}
    (ran : run CallPool.step (CallPool.start (ActorDb.history past) calls) schedule = some pool)
    (live : Meets CallPool.step CallPool.PromotesLive
      (CallPool.start (ActorDb.history past) calls) schedule)
    (returned : pool.Returned) {order : SetOrder String} {addr : IpAddr}
    (removed : .rmActorByZprAddr order addr ∈ calls) (name : String) :
    pool.store.service[name]? ≠ some addr := by
  have start : (CallPool.start (ActorDb.history past) calls).Safe calls :=
    .start single (fun addr name owns => (registry_history past).owned addr name owns)
      fun addr name holds => ((hosts_history past).listed name addr).mp holds
  have safe := run_preserves_of_meets
    (fun pool turn next safe live stepped => CallPool.Safe.step different safe live stepped)
    start live ran
  rw [← safe.labels] at removed
  obtain ⟨task, isTask, isLabel⟩ := List.mem_map.mp removed
  have ends := safe.safe task isTask
  rw [returned task isTask, isLabel] at ends
  exact ends.2.service name

end Pools

/-! ### Two providers of one service -/

namespace PromotionSample

def provider (text : String) (services : List String) : Actor where
  attrs := ((∅ : HashMap String Attribute).insert Key.zprAddr
    (.internal 0 Key.zprAddr [text])).insert Key.services (.internal 0 Key.services services)
  identityKeys := []
  zprAddr := IpAddr.parse text

theorem provider_wf (text : String) (services : List String) : (provider text services).Wf where
  keyed key attr found := by
    simp only [provider, HashMap.get_insert] at found
    split at found
    next isServices =>
      cases found
      exact isServices
    · split at found
      next isAddr =>
        cases found
        exact isAddr
      · simp at found
  addr := by
    simp only [provider, HashMap.get_insert]
    rw [if_neg (by decide)]
    rfl

def context : WriteContext := ⟨∅, "noon", .ascending⟩

def first : String := "fd5a:5052::1"
def second : String := "fd5a:5052::2"

def firstAddr : IpAddr := .v6 0xfd5a5052000000000000000000000001
def secondAddr : IpAddr := .v6 0xfd5a5052000000000000000000000002

/-- Both provide `ssh`; the second, added last, owns the entry. -/
def past : List RepoCall :=
  [.addActor context ⟨provider first ["ssh"], provider_wf first ["ssh"]⟩,
    .addActor context ⟨provider second ["ssh"], provider_wf second ["ssh"]⟩]

def calls : List RepoCall :=
  [.rmActorByZprAddr .ascending firstAddr, .rmActorByZprAddr .ascending secondAddr]

/-- The owner chooses the first as its successor, which then departs altogether. -/
def overtaken : List Nat :=
  [1, 1, 1, 1, 1, 1, 1, 0, 0, 0, 0, 0, 0, 1, 1, 1]

/-- The first departs before the owner looks for a successor. -/
def ordered : List Nat :=
  [0, 0, 0, 0, 0, 0, 1, 1, 1, 1, 1, 1, 1, 1]

theorem calls_single : ∀ call ∈ calls, call.Single := by simp [calls, RepoCall.Single]

theorem calls_different : calls.Pairwise fun a b => a.address ≠ b.address := by
  simp [calls, RepoCall.address, firstAddr, secondAddr]

def start : CallPool := .start (ActorDb.history past) calls

def after (schedule : List Nat) : CallPool := (run CallPool.step start schedule).getD start

end PromotionSample

open PromotionSample in
/-- The owner of `ssh` departs and picks the other provider; that one departs altogether
before it is written, and is left as the owner. -/
theorem entry_names_departed :
    ¬ ∀ (past calls : List RepoCall), (∀ call ∈ calls, call.Single) →
      (calls.Pairwise fun a b => a.address ≠ b.address) →
      ∀ (schedule : List Nat) (pool : CallPool),
        run CallPool.step (CallPool.start (ActorDb.history past) calls) schedule = some pool →
        pool.Returned → ∀ (order : SetOrder String) (addr : IpAddr),
          .rmActorByZprAddr order addr ∈ calls → ∀ name : String,
            pool.store.service[name]? ≠ some addr := by
  intro safe
  have ran : run CallPool.step start overtaken = some (after overtaken) :=
    run_eq_some_getD (by decide +kernel) start
  exact safe past calls calls_single calls_different overtaken _ ran (by decide +kernel) .ascending
    firstAddr (by simp [calls]) "ssh" (by decide +kernel)

open PromotionSample in
/-- In the orderly run the entry is dropped with its last provider. -/
theorem entry_dropped_in_order : (after ordered).store.service["ssh"]? ≠ some secondAddr := by
  have ran : run CallPool.step start ordered = some (after ordered) :=
    run_eq_some_getD (by decide +kernel) start
  have removed : RepoCall.rmActorByZprAddr .ascending secondAddr ∈ calls := by simp [calls]
  exact no_entry_of_departed past calls calls_single calls_different ran (by decide +kernel)
    (by decide +kernel) removed "ssh"

end VisaService
