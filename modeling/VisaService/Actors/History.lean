import VisaService.Actors.Effects

/-!
# Histories of the repository

Calls of which no two overlap, from an empty database. `CallChange` says once what a call may
do to the database; every invariant of whole histories is derived from it.

Main results: `after_change` and `history_induct`.
-/
namespace VisaService

open Lib ActorProg

/-! ### Records -/

namespace ActorDb

/-- The address that the stored attributes name. -/
def storedAddr (db : ActorDb) (addr : IpAddr) : Option IpAddr :=
  (db.attrsOf addr)[Key.zprAddr]?.bind fun attr => IpAddr.parse (Actor.firstValue attr)

/-- What holds of the records of connected actors. -/
structure Records (db : ActorDb) : Prop where
  stamped : ∀ (addr : IpAddr) (record : ActorRecord),
    db.base[addr]? = some record → record.ctime.isSome
  roles : ∀ addr ∈ db.base, addr ∈ db.nodes ∨ addr ∈ db.adapters
  attrsLive : ∀ addr, addr ∉ db.base → addr ∉ db.attrs
  keyed : ∀ addr, Keyed (db.attrsOf addr)
  addr : ∀ addr ∈ db.base, db.storedAddr addr = some addr

theorem records_empty : ActorDb.empty.Records where
  stamped addr record found := by simp [ActorDb.empty] at found
  roles addr present := by simp [ActorDb.empty] at present
  attrsLive addr _ := by simp [ActorDb.empty]
  keyed addr key attr found := by simp [ActorDb.empty, attrsOf] at found
  addr addr present := by simp [ActorDb.empty] at present

end ActorDb

/-! ### Loading -/

variable {actor : Actor} {addr b : IpAddr} {db next : ActorDb} {policyServiceNames : HashSet String}

theorem loadAttributes_run (attrs : List Attribute) (wf : actor.Wf) :
    ∃ result, (∀ db, (loadAttributes attrs actor).run db = (result, db)) ∧
      ∀ loaded, result = .ok loaded → loaded.Wf ∧ loaded.identityKeys = actor.identityKeys ∧
        loaded.attrs =
          attrs.foldl (fun table attr => table.insert attr.key attr) actor.attrs := by
  induction attrs generalizing actor with
  | nil =>
    refine ⟨.ok actor, fun _ => rfl, ?_⟩
    rintro loaded ⟨⟩
    exact ⟨wf, rfl, rfl⟩
  | cons attr rest ih =>
    unfold loadAttributes
    split
    next added isAdded =>
      obtain ⟨result, ran, ends⟩ := ih (wf.addAttribute isAdded)
      refine ⟨result, ran, fun loaded isLoaded => ?_⟩
      obtain ⟨built, keys, attrs⟩ := ends loaded isLoaded
      have stored : added.attrs = actor.attrs.insert attr.key attr ∧
          added.identityKeys = actor.identityKeys := by
        unfold Actor.addAttribute at isAdded
        split at isAdded
        · split at isAdded <;> cases isAdded
          exact ⟨rfl, rfl⟩
        · split at isAdded <;> cases isAdded
          exact ⟨rfl, rfl⟩
      exact ⟨built, keys.trans stored.2, by rw [attrs, stored.1]; rfl⟩
    next message =>
      exact ⟨_, fun _ => rfl, fun loaded isLoaded => by cases isLoaded⟩

theorem loadIdentityKeys_run (keys : List String) (wf : actor.Wf) :
    ∃ result, (∀ db, (loadIdentityKeys keys actor).run db = (result, db)) ∧
      ∀ loaded, result = .ok loaded → loaded.Wf ∧ loaded.attrs = actor.attrs ∧
        loaded.identityKeys = actor.identityKeys ++ keys := by
  induction keys generalizing actor with
  | nil =>
    refine ⟨.ok actor, fun _ => rfl, ?_⟩
    rintro loaded ⟨⟩
    exact ⟨wf, rfl, (List.append_nil _).symm⟩
  | cons key rest ih =>
    unfold loadIdentityKeys
    split
    next added isAdded =>
      obtain ⟨result, ran, ends⟩ := ih (wf.addIdentityKey isAdded)
      refine ⟨result, ran, fun loaded isLoaded => ?_⟩
      obtain ⟨built, attrs, keys⟩ := ends loaded isLoaded
      unfold Actor.addIdentityKey at isAdded
      split at isAdded <;> cases isAdded
      refine ⟨built, attrs, ?_⟩
      rw [keys]
      simp
    next message =>
      exact ⟨_, fun _ => rfl, fun loaded isLoaded => by cases isLoaded⟩

namespace ActorDb

/-- What loading finds at an address, whatever else the database holds. -/
def Loads (db : ActorDb) (addr : IpAddr) (actor : Actor) : Prop :=
  (getActorByZprAddr addr).run db = (.ok actor, db)

theorem hgetallAttrs_eq (db : ActorDb) (addr : IpAddr) :
    (db.attrs[addr]?.map fun attrs => attrs.toList.map Prod.snd).getD [] =
      (db.attrsOf addr).toList.map Prod.snd := by
  unfold attrsOf
  cases db.attrs[addr]? <;> simp

theorem getActorByZprAddr_present {attrs : HashMap String Attribute}
    (isAttrs : db.attrsOf addr = attrs) (present : addr ∈ db.base) :
    (getActorByZprAddr addr).run db =
      run (loadAttributes (attrs.toList.map Prod.snd) .new >>= fun actor =>
        Prog.lift (.hgetIdentityKeys addr) >>= fun keys =>
          match keys with
          | none => .fail .serialization
          | some keys => loadIdentityKeys keys actor) db := by
  unfold getActorByZprAddr
  rewrite [run_call (.exists (.base addr)) rfl, if_pos (by simpa [has] using present),
    run_call (.hgetallAttrs addr) rfl, hgetallAttrs_eq, isAttrs]
  rfl

/-- What is loaded depends on the record and the attributes of the actor alone. -/
theorem getActorByZprAddr_run (db : ActorDb) (addr : IpAddr) :
    ∃ result, (getActorByZprAddr addr).run db = (result, db) ∧
      (∀ next : ActorDb, (addr ∈ next.base ↔ addr ∈ db.base) →
        next.attrsOf addr = db.attrsOf addr →
        next.base[addr]?.bind ActorRecord.identityKeys =
          db.base[addr]?.bind ActorRecord.identityKeys →
        (getActorByZprAddr addr).run next = (result, next)) ∧
      (Keyed (db.attrsOf addr) → ∀ actor, result = .ok actor → addr ∈ db.base ∧ actor.Wf ∧
        actor.attrs = db.attrsOf addr ∧
        db.base[addr]?.bind ActorRecord.identityKeys = some actor.identityKeys) := by
  -- All that follows the first call, with its outcome.
  obtain ⟨bareResult, ranAttrs, bareEnds⟩ :=
    loadAttributes_run ((db.attrsOf addr).toList.map Prod.snd) Actor.Wf.new
  by_cases present : addr ∈ db.base
  · cases bareResult with
    | error failure =>
      have fails (next : ActorDb) (sameAttrs : next.attrsOf addr = db.attrsOf addr)
          (there : addr ∈ next.base) :
          (getActorByZprAddr addr).run next = (.error failure, next) :=
        (getActorByZprAddr_present sameAttrs there).trans
          (Prog.run_bind_of_error DbCall.exec (ranAttrs next))
      exact ⟨.error failure, fails db rfl present, fun next same sameAttrs _ =>
        fails next sameAttrs (same.mpr present), fun _ actor isActor => by cases isActor⟩
    | ok bare =>
      obtain ⟨bareWf, noKeys, bareAttrs⟩ := bareEnds bare rfl
      have continues (next : ActorDb) (sameAttrs : next.attrsOf addr = db.attrsOf addr)
          (there : addr ∈ next.base) :
          (getActorByZprAddr addr).run next =
            match next.base[addr]?.bind ActorRecord.identityKeys with
            | none => (.error .serialization, next)
            | some keys => (loadIdentityKeys keys bare).run next := by
        rw [getActorByZprAddr_present sameAttrs there, run_bind (ranAttrs next),
          run_call (.hgetIdentityKeys addr) rfl]
        split <;> simp_all
      cases stored : db.base[addr]?.bind ActorRecord.identityKeys with
      | none =>
        refine ⟨.error .serialization, ?_, fun next same sameAttrs sameKeys => ?_,
          fun _ actor isActor => by cases isActor⟩
        · rw [continues db rfl present, stored]
        · rw [continues next sameAttrs (same.mpr present), sameKeys]
      | some keys =>
        obtain ⟨result, ranKeys, ends⟩ := loadIdentityKeys_run keys bareWf
        refine ⟨result, ?_, fun next same sameAttrs sameKeys => ?_, fun keyed actor isActor => ?_⟩
        · rw [continues db rfl present, stored]
          exact ranKeys db
        · rw [continues next sameAttrs (same.mpr present), sameKeys]
          exact ranKeys next
        · obtain ⟨actorWf, sameAttrs, isKeys⟩ := ends actor isActor
          refine ⟨present, actorWf, ?_, ?_⟩
          · rw [sameAttrs, bareAttrs]
            exact keyed.foldl_values
          · rw [isKeys, noKeys]
            rfl
  · have absent (next : ActorDb) (gone : addr ∉ next.base) : (getActorByZprAddr addr).run next =
        (.error (.notFound s!"actor not found: {addr.display}"), next) := by
      unfold getActorByZprAddr
      rw [run_call (.exists (.base addr)) rfl, if_neg (by simpa [has] using gone)]
      rfl
    exact ⟨_, absent db present, fun next same _ _ => absent next (fun there =>
      present (same.mp there)), fun _ actor isActor => by cases isActor⟩

end ActorDb

/-! ### What a call does -/

/-- One actor's turn in a reconcile pass: the hostnames of its stored attributes are claimed
again. -/
structure Reclaimed (policyServiceNames : HashSet String) (addr : IpAddr) (db next : ActorDb) :
    Prop where
  present : addr ∈ db.base
  base : ∃ losses, next.base =
    (db.setBase addr (ActorField.set (.hostnameConflicts losses))).base
  attrs : next.attrs = db.attrs
  services : next.services = db.services
  service : next.service = db.service
  nodes : next.nodes = db.nodes
  adapters : next.adapters = db.adapters
  hostnames : ∃ actor : Actor, actor.attrs = db.attrsOf addr ∧
    HostnamesClaimed addr (desiredHostnames actor policyServiceNames) db next.host next.hostnames

/-- What a call may do to the database. -/
inductive CallChange (db : ActorDb) : RepoCall → ActorDb → Prop
  | refused {call : RepoCall} : CallChange db call db
  | added {ctx : WriteContext} {actor : BuiltActor} {addr : IpAddr} {next : ActorDb}
      (isAddr : actor.1.zprAddr = some addr) (free : addr ∉ db.base)
      (added : Added ctx addr actor.1 db next) : CallChange db (.addActor ctx actor) next
  | replaced {ctx : WriteContext} {actor : BuiltActor} {addr : IpAddr} {cleared next : ActorDb}
      (isAddr : actor.1.zprAddr = some addr) (removed : Removed addr db cleared)
      (added : Added ctx addr actor.1 cleared next) :
      CallChange db (.addActorReplacing ctx actor) next
  | updated {ctx : WriteContext} {actor : BuiltActor} {addr : IpAddr} {next : ActorDb}
      (isAddr : actor.1.zprAddr = some addr) (present : addr ∈ db.base)
      (updated : Updated ctx addr actor.1 db next) : CallChange db (.updateActor ctx actor) next
  | removed {order : SetOrder String} {addr : IpAddr} {next : ActorDb}
      (removed : Removed addr db next) : CallChange db (.rmActorByZprAddr order addr) next
  | reconciled {actorOrder : SetOrder IpAddr} {order : SetOrder String}
      {policyServiceNames : HashSet String} {next : ActorDb}
      (passes : Relation.ReflTransGen
        (fun db next => ∃ addr, Reclaimed policyServiceNames addr db next) db next) :
      CallChange db (.reconcileHostnameClaims actorOrder order policyServiceNames) next

theorem Added.of_stamped {ctx : WriteContext} {change : ActorRecord → ActorRecord}
    (added : Added ctx addr actor (db.setBase addr change) next) :
    Added ctx addr actor db next where
  record := added.record
  others b other := (added.others b other).trans (db.setBase_others change other)
  attrs := added.attrs
  attrsPresent := added.attrsPresent
  attrsOthers := added.attrsOthers
  hostnames := ⟨added.hostnames.claimed, added.hostnames.released, added.hostnames.own,
    added.hostnames.others⟩
  service := added.service
  services := added.services
  nodes := by
    rw [added.nodes]
    cases actor.roleSet <;> rfl
  adapters := by
    rw [added.adapters]
    cases actor.roleSet <;> rfl

/-- An add is refused, or the address was free. -/
theorem addActor_change (records : db.Records) (ctx : WriteContext) (actor : BuiltActor) :
    CallChange db (.addActor ctx actor) (db.after (.addActor ctx actor)) := by
  cases isAddr : actor.1.zprAddr with
  | none =>
    have same : db.after (.addActor ctx actor) = db := by
      simp [ActorDb.after, RepoCall.prog, addActor, addActorWithMode, tryAddActor, isAddr,
        Prog.recover]
    rw [same]
    exact .refused
  | some addr =>
    by_cases present : (db.base[addr]?.bind ActorRecord.ctime).isSome
    · have refuses : (tryAddActor ctx actor.1 false).run db = (.error (.addressOccupied
          s!"zpr address already held by a live actor: {addr.display}"), db) := by
        simp only [tryAddActor, isAddr, Bool.false_eq_true, if_false]
        rw [run_call (.hsetNxCtime addr ctx.ts) (if_pos present)]
        rfl
      have same : db.after (.addActor ctx actor) = db :=
        congrArg Prod.snd (Prog.run_recover_of_error DbCall.exec refuses)
      rw [same]
      exact .refused
    · have free : addr ∉ db.base := by
        intro member
        obtain ⟨record, found⟩ := HashMap.get_of_mem member
        exact present (by simpa [found] using records.stamped addr record found)
      obtain ⟨next, ran, added⟩ := writeActor_run ctx isAddr
        (db.setBase addr fun record => { record with ctime := some ctx.ts })
      have succeeds : (tryAddActor ctx actor.1 false).run db = (.ok (), next) := by
        simp only [tryAddActor, isAddr, Bool.false_eq_true, if_false]
        rw [run_call (.hsetNxCtime addr ctx.ts) (if_neg present)]
        exact ran
      have isNext : db.after (.addActor ctx actor) = next :=
        congrArg Prod.snd (Prog.run_recover_of_ok DbCall.exec succeeds)
      rw [isNext]
      exact .added isAddr free added.of_stamped

theorem addActorReplacing_change (db : ActorDb) (ctx : WriteContext) (actor : BuiltActor) :
    CallChange db (.addActorReplacing ctx actor) (db.after (.addActorReplacing ctx actor)) := by
  cases isAddr : actor.1.zprAddr with
  | none =>
    have same : db.after (.addActorReplacing ctx actor) = db := by
      simp [ActorDb.after, RepoCall.prog, addActorReplacing, addActorWithMode, tryAddActor,
        isAddr, Prog.recover]
    rw [same]
    exact .refused
  | some addr =>
    obtain ⟨cleared, ranCleanUp, removed⟩ := cleanUp_run ctx.order addr db
    obtain ⟨next, ranWrite, added⟩ := writeActor_run ctx isAddr cleared
    have succeeds : (tryAddActor ctx actor.1 true).run db = (.ok (), next) := by
      simp only [tryAddActor, isAddr, if_true]
      rw [run_bind ranCleanUp, ranWrite]
    have isNext : db.after (.addActorReplacing ctx actor) = next :=
      congrArg Prod.snd (Prog.run_recover_of_ok DbCall.exec succeeds)
    rw [isNext]
    exact .replaced isAddr removed added

/-- An update is refused, or the actor was there. -/
theorem updateActor_change (db : ActorDb) (ctx : WriteContext) (actor : BuiltActor) :
    CallChange db (.updateActor ctx actor) (db.after (.updateActor ctx actor)) := by
  cases isAddr : actor.1.zprAddr with
  | none =>
    have same : db.after (.updateActor ctx actor) = db := by
      simp [ActorDb.after, RepoCall.prog, updateActor, isAddr]
    rw [same]
    exact .refused
  | some addr =>
    have begins : (updateActor ctx actor.1).run db =
        if db.has (.base addr) then (updateInRole ctx addr actor.1).run db
        else (.error (.notFound s!"update called on non-existant actor: {addr.display}"), db) := by
      simp only [updateActor, isAddr]
      rw [run_call (.exists (.base addr)) rfl]
      split <;> rfl
    by_cases present : db.has (.base addr)
    · rw [if_pos present] at begins
      unfold updateInRole at begins
      rw [run_call (.sismemberRole actor.1.roleSet addr) rfl] at begins
      obtain ⟨next, ran, updated⟩ := writeUpdate_run ctx isAddr db
      split at begins
      next inRole =>
        have isNext : db.after (.updateActor ctx actor) = next :=
          congrArg Prod.snd (begins.trans ran)
        rw [isNext]
        exact .updated isAddr (by simpa [ActorDb.has] using present) updated
      next otherRole =>
        have same : db.after (.updateActor ctx actor) = db := congrArg Prod.snd begins
        rw [same]
        exact .refused
    · rw [if_neg present] at begins
      have same : db.after (.updateActor ctx actor) = db := congrArg Prod.snd begins
      rw [same]
      exact .refused

/-! ### Records are kept -/

theorem Removed.attrsOf (removed : Removed addr db next) :
    next.attrsOf b = if addr = b then ∅ else db.attrsOf b := by
  unfold ActorDb.attrsOf
  rw [removed.attrs, HashMap.get_erase]
  split <;> rfl

theorem Removed.present (removed : Removed addr db next) :
    b ∈ next.base ↔ b ∈ db.base ∧ b ≠ addr := by
  rw [removed.base, HashMap.mem_erase]

theorem Written.attrsOf {ctx : WriteContext} (built : actor.Wf)
    (written : Written ctx addr actor ∅ db next) :
    next.attrsOf b = if addr = b then actor.attrs else db.attrsOf b := by
  unfold ActorDb.attrsOf
  split
  next own =>
    subst own
    rw [written.attrs]
    exact Keyed.foldl_values built.keyed
  next other => rw [written.attrsOthers b (Ne.symm other)]

namespace ActorDb.Records

variable {db next : ActorDb} {ctx : WriteContext} {addr : IpAddr} {actor : Actor}

variable (records : db.Records)
include records

theorem removed (removed : Removed addr db next) : next.Records where
  stamped a record found := by
    rw [removed.base] at found
    exact records.stamped a record (HashMap.of_get_erase found).2
  roles a present := by
    obtain ⟨there, other⟩ := removed.present.mp present
    rw [removed.nodes, removed.adapters]
    simp only [Std.ExtTreeSet.mem_erase, ne_eq, Std.compare_eq_iff_eq]
    exact (records.roles a there).imp (fun node => ⟨Ne.symm other, node⟩)
      (fun adapter => ⟨Ne.symm other, adapter⟩)
  attrsLive a absent := by
    rw [removed.attrs, HashMap.mem_erase]
    rintro ⟨attrs, other⟩
    exact records.attrsLive a (fun there => absent (removed.present.mpr ⟨there, other⟩)) attrs
  keyed a := by
    rw [removed.attrsOf]
    split
    · exact fun key attr found => by simp at found
    · exact records.keyed a
  addr a present := by
    obtain ⟨there, other⟩ := removed.present.mp present
    unfold storedAddr
    rw [removed.attrsOf, if_neg (Ne.symm other)]
    exact records.addr a there

theorem written (built : actor.Wf) (isAddr : actor.zprAddr = some addr)
    (written : Written ctx addr actor ∅ db next)
    (roles : ∀ a ∈ next.base, a ∈ next.nodes ∨ a ∈ next.adapters) : next.Records where
  stamped a record found := by
    by_cases own : a = addr
    · subst own
      obtain ⟨wrote, isRecord, stamped, -⟩ := written.record
      cases found.symm.trans isRecord
      exact stamped
    · rw [written.others a own] at found
      exact records.stamped a record found
  roles := roles
  attrsLive a absent := by
    have other : a ≠ addr := fun own => absent (written.present.mpr (.inl own))
    intro attrs
    rw [Std.ExtTreeMap.mem_iff_isSome_getElem?, written.attrsOthers a other,
      ← Std.ExtTreeMap.mem_iff_isSome_getElem?] at attrs
    exact records.attrsLive a (fun there => absent (written.present.mpr (.inr there))) attrs
  keyed a := by
    rw [written.attrsOf built]
    split
    · exact built.keyed
    · exact records.keyed a
  addr a present := by
    unfold storedAddr
    rw [written.attrsOf built]
    split
    next own =>
      subst own
      rw [← built.addr, isAddr]
    next other =>
      exact records.addr a ((written.present.mp present).resolve_left (Ne.symm other))

theorem attrsOf_eq_empty (free : addr ∉ db.base) :
    db.attrsOf addr = ∅ := by
  unfold attrsOf
  rw [Std.ExtTreeMap.getElem?_eq_none (records.attrsLive addr free)]
  rfl

theorem added (built : actor.Wf) (isAddr : actor.zprAddr = some addr)
    (free : addr ∉ db.base) (added : Added ctx addr actor db next) : next.Records := by
  have written := added.toWritten
  rw [records.attrsOf_eq_empty free] at written
  refine records.written built isAddr written fun a present => ?_
  rw [added.nodes, added.adapters]
  rcases written.present.mp present with rfl | there
  · cases actor.roleSet with
    | nodes => exact .inl (by simp [sadd])
    | adapters => exact .inr (by simp [sadd])
  · have roles := records.roles a there
    cases actor.roleSet with
    | nodes => exact roles.imp_left fun node => by simp [sadd, node]
    | adapters => exact roles.imp_right fun adapter => by simp [sadd, adapter]

theorem updated (built : actor.Wf) (isAddr : actor.zprAddr = some addr)
    (present : addr ∈ db.base) (updated : Updated ctx addr actor db next) : next.Records := by
  refine records.written built isAddr updated.toWritten fun a there => ?_
  rw [updated.nodes, updated.adapters]
  refine records.roles a ?_
  rcases updated.present.mp there with rfl | before
  · exact present
  · exact before

end ActorDb.Records

namespace Reclaimed

variable {policyServiceNames : HashSet String} {addr b : IpAddr} {db next : ActorDb}

variable (reclaimed : Reclaimed policyServiceNames addr db next)
include reclaimed

theorem base_get (b : IpAddr) :
    ∃ change : ActorRecord → ActorRecord,
      (∀ record, (change record).ctime = record.ctime ∧
        (change record).identityKeys = record.identityKeys) ∧
      next.base[b]? = db.base[b]?.map change := by
  obtain ⟨losses, isBase⟩ := reclaimed.base
  rw [isBase]
  by_cases own : b = addr
  · subst own
    obtain ⟨record, found⟩ := HashMap.get_of_mem reclaimed.present
    exact ⟨ActorField.set (.hostnameConflicts losses), fun _ => ⟨rfl, rfl⟩, by
      rw [ActorDb.setBase_own, found]; rfl⟩
  · exact ⟨id, fun _ => ⟨rfl, rfl⟩, by rw [ActorDb.setBase_others _ _ own, Option.map_id_fun]; rfl⟩

theorem mem_base :
    b ∈ next.base ↔ b ∈ db.base := by
  obtain ⟨change, -, isBase⟩ := reclaimed.base_get b
  rw [Std.ExtTreeMap.mem_iff_isSome_getElem?, isBase, Option.isSome_map,
    ← Std.ExtTreeMap.mem_iff_isSome_getElem?]

theorem attrsOf :
    next.attrsOf b = db.attrsOf b := by
  unfold ActorDb.attrsOf
  rw [reclaimed.attrs]

theorem identityKeys :
    next.base[b]?.bind ActorRecord.identityKeys = db.base[b]?.bind ActorRecord.identityKeys := by
  obtain ⟨change, keeps, isBase⟩ := reclaimed.base_get b
  rw [isBase]
  cases db.base[b]? with
  | none => rfl
  | some record => exact (keeps record).2

theorem records (records : db.Records) :
    next.Records where
  stamped a record found := by
    obtain ⟨change, keeps, isBase⟩ := reclaimed.base_get a
    rw [isBase] at found
    obtain ⟨old, isOld, rfl⟩ := Option.map_eq_some_iff.mp found
    rw [(keeps old).1]
    exact records.stamped a old isOld
  roles a present := by
    rw [reclaimed.nodes, reclaimed.adapters]
    exact records.roles a (reclaimed.mem_base.mp present)
  attrsLive a absent := by
    rw [reclaimed.attrs]
    exact records.attrsLive a fun there => absent (reclaimed.mem_base.mpr there)
  keyed a := by
    rw [reclaimed.attrsOf]
    exact records.keyed a
  addr a present := by
    unfold ActorDb.storedAddr
    rw [reclaimed.attrsOf]
    exact records.addr a (reclaimed.mem_base.mp present)

end Reclaimed

/-! ### Reconcile passes -/

theorem labelActors_run (addrs : List IpAddr) (listed : List (IpAddr × Option String))
    (db : ActorDb) :
    ∃ labelled, (labelActors addrs listed).run db = (.ok labelled, db) ∧
      labelled.map Prod.fst = listed.map Prod.fst ++ addrs := by
  induction addrs generalizing listed with
  | nil => exact ⟨listed, rfl, (List.append_nil _).symm⟩
  | cons addr rest ih =>
    unfold labelActors
    rw [run_call (.hgetAttr addr Key.cn) rfl]
    obtain ⟨labelled, ran, isListed⟩ := ih (listed ++ [(addr, _)])
    refine ⟨labelled, ran, ?_⟩
    rw [isListed]
    simp

theorem listActors_run (order : SetOrder IpAddr) (db : ActorDb) :
    ∃ listed, (listActors order).run db = (.ok listed, db) ∧
      ∀ addr, addr ∈ listed.map Prod.fst ↔ addr ∈ db.nodes ∨ addr ∈ db.adapters := by
  unfold listActors
  obtain ⟨nodes, ranNodes, isNodes⟩ := labelActors_run (order.list db.nodes) [] db
  obtain ⟨listed, ranAdapters, isListed⟩ := labelActors_run (order.list db.adapters) nodes db
  refine ⟨listed, ?_, fun addr => ?_⟩
  · rw [run_call (.smembersRole .nodes) rfl]
    refine (run_bind ranNodes).trans ?_
    rw [run_call (.smembersRole .adapters) rfl]
    exact ranAdapters
  · rw [isListed, isNodes]
    simp [order.mem_list]

theorem reconcileActor_run (records : db.Records) (order : SetOrder String)
    (policyServiceNames : HashSet String) (addr : IpAddr) :
    ∃ next, (reconcileActor order policyServiceNames addr).run db = (.ok (), next) ∧
      (Reclaimed policyServiceNames addr db next ∨
        next = db ∧ ∀ actor, ¬ db.Loads addr actor) := by
  obtain ⟨result, ran, -, loads⟩ := db.getActorByZprAddr_run addr
  have tried : run (getActorByZprAddr addr).attempt db = (.ok result, db) := by
    refine (Prog.run_attempt DbCall.exec (getActorByZprAddr addr) db).trans ?_
    exact congrArg (fun outcome => (Except.ok outcome.1, outcome.2)) ran
  unfold reconcileActor
  rw [run_bind tried]
  cases result with
  | error failure =>
    refine ⟨db, rfl, .inr ⟨rfl, fun actor loaded => ?_⟩⟩
    cases ran.symm.trans loaded
  | ok actor =>
    obtain ⟨present, built, sameAttrs, -⟩ := loads (records.keyed addr) actor rfl
    have isAddr : actor.zprAddr = some addr := by
      rw [built.addr, sameAttrs]
      exact records.addr addr present
    obtain ⟨host, hostnames, losses, ranClaim, claimed⟩ :=
      claimHostnamesForActor_run order isAddr policyServiceNames db
    exact ⟨_, Prog.run_recover_of_ok DbCall.exec ranClaim, .inl
      ⟨present, ⟨losses, rfl⟩, rfl, rfl, rfl, rfl, rfl, actor, sameAttrs, claimed⟩⟩

/-- Some turns of a reconcile pass. -/
abbrev Passes (policyServiceNames : HashSet String) : ActorDb → ActorDb → Prop :=
  Relation.ReflTransGen fun db next => ∃ addr, Reclaimed policyServiceNames addr db next

theorem Passes.records (passes : Passes policyServiceNames db next) (records : db.Records) :
    next.Records := by
  induction passes with
  | refl => exact records
  | tail _ turn ih =>
    obtain ⟨addr, reclaimed⟩ := turn
    exact reclaimed.records ih

theorem Passes.loads_iff (passes : Passes policyServiceNames db next) (addr : IpAddr)
    (actor : Actor) :
    next.Loads addr actor ↔ db.Loads addr actor := by
  induction passes with
  | refl => rfl
  | @tail middle last _ turn ih =>
    obtain ⟨other, reclaimed⟩ := turn
    rw [← ih]
    obtain ⟨result, ran, same, -⟩ := middle.getActorByZprAddr_run addr
    have after := same last reclaimed.mem_base reclaimed.attrsOf reclaimed.identityKeys
    unfold ActorDb.Loads
    rw [ran, after]
    simp

/-- No name of a policy service is the actor's. -/
def Cleared (policyServiceNames : HashSet String) (addr : IpAddr) (db : ActorDb) : Prop :=
  ∀ name ∈ policyServiceNames, db.host[name]? ≠ some addr

theorem not_desired_of_policy {name : String} (reserved : name ∈ policyServiceNames) :
    name ∉ desiredHostnames actor policyServiceNames := by
  simp [desiredHostnames, reserved]

theorem Passes.cleared (passes : Passes policyServiceNames db next)
    (cleared : Cleared policyServiceNames addr db) : Cleared policyServiceNames addr next := by
  induction passes with
  | refl => exact cleared
  | tail _ turn ih =>
    obtain ⟨other, reclaimed⟩ := turn
    obtain ⟨actor, -, claimed⟩ := reclaimed.hostnames
    intro name reserved
    rw [claimed.released name (not_desired_of_policy reserved)]
    split
    · exact (Option.some_ne_none addr).symm
    · exact ih name reserved

theorem HostnamesClaimed.hostsListed {desired : List String} {host : HashMap String IpAddr}
    {hostnames : Rows IpAddr String} (claimed : HostnamesClaimed addr desired db host hostnames)
    (before : ∀ b, db.HostsListed b) {name : String} (holds : host[name]? = some b) :
    hostnames.Holds b name := by
  by_cases wanted : name ∈ desired
  · by_cases own : b = addr
    · subst own
      exact (claimed.own name).mpr ⟨wanted, holds⟩
    rw [claimed.claimed name wanted] at holds
    have held : db.host[name]? = some b := by
      cases found : db.host[name]? with
      | none =>
        rw [found] at holds
        exact absurd (Option.some.inj holds).symm own
      | some holder => rwa [found] at holds
    exact (claimed.others b name own).mpr (before b name held)
  · rw [claimed.released name wanted] at holds
    split at holds
    · cases holds
    next kept =>
      have other : b ≠ addr := by
        rintro rfl
        exact kept ⟨before b name holds, holds⟩
      exact (claimed.others b name other).mpr (before b name holds)

theorem Passes.hostsListed (passes : Passes policyServiceNames db next)
    (before : ∀ b, db.HostsListed b) :
    ∀ b, next.HostsListed b := by
  induction passes with
  | refl => exact before
  | tail _ turn ih =>
    obtain ⟨other, reclaimed⟩ := turn
    obtain ⟨actor, -, claimed⟩ := reclaimed.hostnames
    exact fun b name holds => claimed.hostsListed ih holds

/-- A listed actor that can be loaded holds no name of a policy service afterwards. -/
theorem reconcileActors_run (order : SetOrder String) (policyServiceNames : HashSet String)
    (listed : List (IpAddr × Option String)) (records : db.Records) :
    ∃ next, run (Prog.each listed fun entry =>
        reconcileActor order policyServiceNames entry.1) db = (.ok (), next) ∧
      Passes policyServiceNames db next ∧
      ((∀ b, db.HostsListed b) → ∀ addr ∈ listed.map Prod.fst, ∀ actor, next.Loads addr actor →
        Cleared policyServiceNames addr next) := by
  induction listed generalizing db with
  | nil => exact ⟨db, rfl, .refl, by simp⟩
  | cons entry rest ih =>
    obtain ⟨first, ranFirst, turn⟩ :=
      reconcileActor_run records order policyServiceNames entry.1
    have begins : Passes policyServiceNames db first := by
      rcases turn with reclaimed | ⟨rfl, -⟩
      · exact .single ⟨entry.1, reclaimed⟩
      · exact .refl
    obtain ⟨next, ranRest, passes, freed⟩ := ih (begins.records records)
    refine ⟨next, (run_bind ranFirst).trans ranRest, begins.trans passes,
      fun hosts addr member actor loads => ?_⟩
    rcases List.mem_cons.mp member with rfl | later
    · rcases turn with reclaimed | ⟨rfl, unloadable⟩
      · -- Its own turn releases every name of the policy that it held.
        obtain ⟨loaded, -, claimed⟩ := reclaimed.hostnames
        refine Passes.cleared passes fun name reserved holds => ?_
        have listed := claimed.hostsListed hosts holds
        exact not_desired_of_policy reserved ((claimed.own name).mp listed).1
      · exact absurd ((passes.loads_iff _ actor).mp loads) (unloadable actor)
    · exact freed (begins.hostsListed hosts) addr later actor loads

theorem reconcileHostnameClaims_run (actorOrder : SetOrder IpAddr) (order : SetOrder String)
    (policyServiceNames : HashSet String) (records : db.Records) :
    ∃ next, (reconcileHostnameClaims actorOrder order policyServiceNames).run db =
        (.ok (), next) ∧
      Passes policyServiceNames db next ∧
      ((∀ b, db.HostsListed b) → ∀ addr ∈ next.base, ∀ actor, next.Loads addr actor →
        Cleared policyServiceNames addr next) := by
  obtain ⟨listed, ranList, isListed⟩ := listActors_run actorOrder db
  obtain ⟨next, ran, passes, freed⟩ :=
    reconcileActors_run order policyServiceNames listed records
  refine ⟨next, (run_bind ranList).trans ran, passes,
    fun hosts addr present actor loads => ?_⟩
  have before : addr ∈ db.base := by
    obtain ⟨result, isRun, -, loaded⟩ := db.getActorByZprAddr_run addr
    have loadsBefore := (passes.loads_iff addr actor).mp loads
    cases isRun.symm.trans loadsBefore
    exact (loaded (records.keyed addr) actor rfl).1
  exact freed hosts addr ((isListed addr).mpr (records.roles addr before)) actor loads

/-! ### Whole histories -/

theorem after_change (records : db.Records) (call : RepoCall) :
    CallChange db call (db.after call) := by
  cases call with
  | addActor ctx actor => exact addActor_change records ctx actor
  | addActorReplacing ctx actor => exact addActorReplacing_change db ctx actor
  | updateActor ctx actor => exact updateActor_change db ctx actor
  | rmActorByZprAddr order addr =>
    obtain ⟨next, ran, removed⟩ := cleanUp_run order addr db
    have isNext : db.after (.rmActorByZprAddr order addr) = next := congrArg Prod.snd ran
    rw [isNext]
    exact .removed removed
  | reconcileHostnameClaims actorOrder order policyServiceNames =>
    obtain ⟨next, ran, passes, -⟩ :=
      reconcileHostnameClaims_run actorOrder order policyServiceNames records
    have isNext : db.after (.reconcileHostnameClaims actorOrder order policyServiceNames) = next :=
      congrArg Prod.snd ran
    rw [isNext]
    exact .reconciled passes

theorem CallChange.records {call : RepoCall} (change : CallChange db call next)
    (records : db.Records) : next.Records := by
  cases change with
  | refused => exact records
  | @added _ actor _ _ isAddr free added => exact records.added actor.2 isAddr free added
  | @replaced _ actor _ _ _ isAddr removed added =>
    have absent := fun there => (removed.present.mp there).2 rfl
    exact (records.removed removed).added actor.2 isAddr absent added
  | @updated _ actor _ _ isAddr present updated =>
    exact records.updated actor.2 isAddr present updated
  | removed removed => exact records.removed removed
  | reconciled passes => exact Passes.records passes records

/-- What holds of the empty database and is kept by every change of a database with proper
records holds after every history. -/
theorem history_induct {inv : ActorDb → Prop} (start : inv .empty)
    (keeps : ∀ db call next, db.Records → inv db → CallChange db call next → inv next)
    (calls : List RepoCall) : (ActorDb.history calls).Records ∧ inv (ActorDb.history calls) := by
  unfold ActorDb.history
  suffices general : ∀ db : ActorDb, db.Records → inv db →
      (calls.foldl ActorDb.after db).Records ∧ inv (calls.foldl ActorDb.after db) from
    general .empty ActorDb.records_empty start
  induction calls with
  | nil => exact fun db records holds => ⟨records, holds⟩
  | cons call rest ih =>
    intro db records holds
    have change := after_change records call
    exact ih _ (change.records records) (keeps db call _ records holds change)

theorem records_history (calls : List RepoCall) : (ActorDb.history calls).Records :=
  (history_induct trivial (fun _ _ _ _ _ _ => trivial) calls).1

end VisaService
