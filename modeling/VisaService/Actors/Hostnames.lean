import VisaService.Actors.History

/-!
# Holders of hostnames

`host:<NAME>` names the one actor that holds a hostname, and each actor lists the names it
holds. Every write of an actor goes through one claim pass that drops the actor's set and
rebuilds it, while the shared index is first claim wins.

Main results: `hosts_history` and `hostnames_held`.
-/
namespace VisaService

open Lib ActorDb

/-- The values of `device.hostname` among the attributes. -/
def vendedHostnames (attrs : HashMap String Attribute) : List String :=
  (attrs[Key.deviceHostname]?.map Attribute.value).getD []

variable {holder : IpAddr} {name : String}

theorem mem_desiredHostnames {actor : Actor} {policyServiceNames : HashSet String} :
    name ∈ desiredHostnames actor policyServiceNames ↔
      name ∈ vendedHostnames actor.attrs ∧ isValidHostnameLabel name = true ∧
        name ∉ policyServiceNames := by
  simp [desiredHostnames, vendedHostnames]

/-- The index is the inverse of the sets, and every listed name is a valid one that its
holder vends. -/
structure ActorDb.Hosts (db : ActorDb) : Prop where
  listed : ∀ name addr, db.host[name]? = some addr ↔ db.hostnames.Holds addr name
  vended : ∀ name addr, db.hostnames.Holds addr name →
    addr ∈ db.base ∧ isValidHostnameLabel name = true ∧
      name ∈ vendedHostnames (db.attrsOf addr)

theorem ActorDb.hosts_empty : empty.Hosts where
  listed name addr := by
    refine iff_of_false ?_ (Rows.not_holds_empty addr name)
    simp [empty]
  vended name addr listed := absurd listed (Rows.not_holds_empty addr name)

/-! ### Each change keeps them in step -/

section Changes

variable {db next : ActorDb} {ctx : WriteContext} {addr : IpAddr} {actor : Actor}

theorem HostnamesClaimed.listed {desired : List String} {host : HashMap String IpAddr}
    {hostnames : Rows IpAddr String}
    (claimed : HostnamesClaimed addr desired db host hostnames) (hosts : db.Hosts)
    (name : String) (b : IpAddr) : host[name]? = some b ↔ hostnames.Holds b name := by
  have before (b : IpAddr) : db.HostsListed b := fun name => (hosts.listed name b).mp
  refine ⟨claimed.hostsListed before, fun listed => ?_⟩
  by_cases own : b = addr
  · subst own
    exact ((claimed.own name).mp listed).2
  · have held := (hosts.listed name b).mpr ((claimed.others b name own).mp listed)
    by_cases wanted : name ∈ desired
    · rw [claimed.claimed name wanted, held]
      rfl
    · rw [claimed.released name wanted, held, if_neg]
      exact fun both => own (Option.some.inj both.2)

theorem ActorDb.Hosts.removed (hosts : db.Hosts) (removed : Removed addr db next) :
    next.Hosts where
  listed name b := by
    rw [removed.hostnames.entry name, removed.hostnames.dropped, Rows.holds_erase,
      ← hosts.listed name b]
    by_cases mine : db.host[name]? = some addr
    · rw [if_pos ⟨(hosts.listed name addr).mp mine, mine⟩, mine]
      refine iff_of_false (Option.some_ne_none b).symm ?_
      exact fun both => both.1 (Option.some.inj both.2).symm
    · rw [if_neg fun both => mine both.2]
      refine ⟨fun held => ⟨?_, held⟩, fun both => both.2⟩
      rintro rfl
      exact mine held
  vended name b listed := by
    rw [removed.hostnames.dropped, Rows.holds_erase] at listed
    obtain ⟨present, valid, vends⟩ := hosts.vended name b listed.2
    rw [removed.attrsOf, if_neg (Ne.symm listed.1)]
    exact ⟨removed.present.mpr ⟨present, listed.1⟩, valid, vends⟩

theorem ActorDb.Hosts.written (hosts : db.Hosts) (built : actor.Wf)
    (written : Written ctx addr actor ∅ db next) : next.Hosts where
  listed := written.hostnames.listed hosts
  vended name b listed := by
    rw [written.attrsOf built]
    by_cases own : b = addr
    · subst own
      have wanted := mem_desiredHostnames.mp ((written.hostnames.own name).mp listed).1
      rw [if_pos rfl]
      exact ⟨written.present.mpr (.inl rfl), wanted.2.1, wanted.1⟩
    · obtain ⟨present, valid, vends⟩ :=
        hosts.vended name b ((written.hostnames.others b name own).mp listed)
      rw [if_neg (Ne.symm own)]
      exact ⟨written.present.mpr (.inr present), valid, vends⟩

theorem ActorDb.Hosts.reclaimed {policyServiceNames : HashSet String} (hosts : db.Hosts)
    (reclaimed : Reclaimed policyServiceNames addr db next) : next.Hosts := by
  obtain ⟨actor, stored, claimed⟩ := reclaimed.hostnames
  refine ⟨claimed.listed hosts, fun name b listed => ?_⟩
  rw [reclaimed.attrsOf, reclaimed.mem_base]
  by_cases own : b = addr
  · subst own
    have wanted := mem_desiredHostnames.mp ((claimed.own name).mp listed).1
    rw [stored] at wanted
    exact ⟨reclaimed.present, wanted.2.1, wanted.1⟩
  · exact hosts.vended name b ((claimed.others b name own).mp listed)

theorem Added.fresh (added : Added ctx addr actor db next) (records : db.Records)
    (free : addr ∉ db.base) : Written ctx addr actor ∅ db next := by
  have written := added.toWritten
  rwa [records.attrsOf_eq_empty free] at written

theorem CallChange.hosts {call : RepoCall} (change : CallChange db call next)
    (records : db.Records) (hosts : db.Hosts) : next.Hosts := by
  cases change with
  | refused => exact hosts
  | @added _ actor _ _ isAddr free added =>
    exact hosts.written actor.2 (added.fresh records free)
  | @replaced _ actor _ _ _ isAddr removed added =>
    have absent := fun there => (removed.present.mp there).2 rfl
    exact (hosts.removed removed).written actor.2
      (added.fresh (records.removed removed) absent)
  | @updated _ actor _ _ isAddr present updated => exact hosts.written actor.2 updated.toWritten
  | removed removed => exact hosts.removed removed
  | reconciled passes =>
    induction passes with
    | refl => exact hosts
    | tail _ turn ih =>
      obtain ⟨addr, reclaimed⟩ := turn
      exact ih.reclaimed reclaimed

end Changes

theorem hosts_history (calls : List RepoCall) : (history calls).Hosts :=
  (history_induct hosts_empty
    (fun _ _ _ records hosts change => change.hosts records hosts) calls).2

/-! ### Losing a name -/

/-- The calls that may take a name from its holder: a removal, a replacement or an update
without the name, and a policy service of that name. -/
def RepoCall.MayRelease (addr : IpAddr) (name : String) : RepoCall → Prop
  | .addActor _ _ => False
  | .addActorReplacing _ actor => actor.1.zprAddr = some addr
  | .updateActor ctx actor => actor.1.zprAddr = some addr ∧
      (name ∉ vendedHostnames actor.1.attrs ∨ name ∈ ctx.policyServiceNames)
  | .rmActorByZprAddr _ departed => departed = addr
  | .reconcileHostnameClaims _ _ policyServiceNames => name ∈ policyServiceNames

theorem HostnamesClaimed.keeps {addr : IpAddr} {desired : List String} {db : ActorDb}
    {host : HashMap String IpAddr} {hostnames : Rows IpAddr String}
    (claimed : HostnamesClaimed addr desired db host hostnames)
    (holds : db.host[name]? = some holder) (wanted : addr = holder → name ∈ desired) :
    host[name]? = some holder := by
  by_cases isWanted : name ∈ desired
  · rw [claimed.claimed name isWanted, holds]
    rfl
  · rw [claimed.released name isWanted, holds, if_neg]
    exact fun both => isWanted (wanted (Option.some.inj both.2).symm)

theorem CallChange.keeps_host {db next : ActorDb} {call : RepoCall}
    (change : CallChange db call next) (hosts : db.Hosts) (holds : db.host[name]? = some holder)
    (kept : ¬ call.MayRelease holder name) :
    next.host[name]? = some holder := by
  have removal {addr : IpAddr} {after : ActorDb} (removed : Removed addr db after)
      (other : addr ≠ holder) : after.host[name]? = some holder := by
    rw [removed.hostnames.entry name, holds, if_neg]
    exact fun both => other (Option.some.inj both.2).symm
  obtain ⟨present, valid, vends⟩ := hosts.vended name holder ((hosts.listed name holder).mp holds)
  cases change with
  | refused => exact holds
  | added isAddr free added =>
    refine added.hostnames.keeps holds fun same => ?_
    subst same
    exact absurd present free
  | replaced isAddr removed added =>
    have other : _ ≠ holder := fun same => kept (isAddr.trans (congrArg some same))
    exact added.hostnames.keeps (removal removed other) fun same => absurd same other
  | updated isAddr there updated =>
    refine updated.hostnames.keeps holds fun same => mem_desiredHostnames.mpr ?_
    rw [same] at isAddr
    have stays := not_or.mp fun drops => kept ⟨isAddr, drops⟩
    exact ⟨not_not.mp stays.1, valid, stays.2⟩
  | removed removed => exact removal removed fun same => kept same
  | @reconciled _ _ policyServiceNames _ passes =>
    -- The holder's stored attributes vend the name in every turn of the pass.
    suffices both : next.host[name]? = some holder ∧
        name ∈ vendedHostnames (next.attrsOf holder) from both.1
    induction passes with
    | refl => exact ⟨holds, vends⟩
    | tail _ turn ih =>
      obtain ⟨addr, reclaimed⟩ := turn
      obtain ⟨actor, stored, claimed⟩ := reclaimed.hostnames
      refine ⟨claimed.keeps ih.1 fun same => mem_desiredHostnames.mpr ?_, ?_⟩
      · rw [stored, same]
        exact ⟨ih.2, valid, kept⟩
      · rw [reclaimed.attrsOf]
        exact ih.2

theorem ActorDb.history_append (calls more : List RepoCall) :
    history (calls ++ more) = more.foldl after (history calls) := by
  simp [history]

/-- A name stays with its holder through calls none of which may release it. -/
theorem host_kept (calls more : List RepoCall)
    (holds : (history calls).host[name]? = some holder)
    (kept : ∀ call ∈ more, ¬ call.MayRelease holder name) :
    (history (calls ++ more)).host[name]? = some holder := by
  induction more generalizing calls with
  | nil => rwa [List.append_nil]
  | cons call rest ih =>
    have change := after_change (records_history calls) call
    have next := change.keeps_host (hosts_history calls) holds (kept call List.mem_cons_self)
    have isNext : (history calls).after call = history (calls ++ [call]) :=
      (history_append calls [call]).symm
    rw [isNext] at next
    have rested := ih (calls ++ [call]) next fun other member =>
      kept other (List.mem_cons_of_mem _ member)
    rwa [List.append_assoc] at rested

/-- After every history of calls that do not overlap: `host:<NAME>` names an actor exactly when
the actor lists the name, is present and the name is a valid label; a name leaves its holder
only through a removal, a replacement or an update of the holder that does not vend it, or for
a policy service; and a reconcile pass leaves no name of the policy with an actor that
loads. -/
theorem hostnames_held (calls : List RepoCall) :
    (∀ name addr, (history calls).host[name]? = some addr ↔
      (history calls).hostnames.Holds addr name ∧
        addr ∈ (history calls).base ∧ isValidHostnameLabel name = true) ∧
    (∀ (more : List RepoCall) (name : String) (holder : IpAddr),
      (history calls).host[name]? = some holder →
      (∀ call ∈ more, ¬ call.MayRelease holder name) →
        (history (calls ++ more)).host[name]? = some holder) ∧
    (∀ (actorOrder : SetOrder IpAddr) (order : SetOrder String)
      (policyServiceNames : HashSet String) (addr : IpAddr) (actor : Actor),
      (history (calls ++ [.reconcileHostnameClaims actorOrder order
        policyServiceNames])).Loads addr actor →
      ∀ name ∈ policyServiceNames, (history (calls ++ [.reconcileHostnameClaims
        actorOrder order policyServiceNames])).host[name]? ≠ some addr) := by
  have hosts := hosts_history calls
  refine ⟨fun name addr => ?_, fun more name holder holds kept => host_kept calls more holds kept,
    fun actorOrder order policyServiceNames addr actor loads => ?_⟩
  · rw [hosts.listed name addr]
    refine ⟨fun listed => ?_, fun all => all.1⟩
    obtain ⟨present, valid, -⟩ := hosts.vended name addr listed
    exact ⟨listed, present, valid⟩
  · obtain ⟨next, ran, passes, freed⟩ := reconcileHostnameClaims_run actorOrder order
      policyServiceNames (records_history calls)
    have isNext : history (calls ++ [.reconcileHostnameClaims actorOrder order
        policyServiceNames]) = next :=
      (history_append calls _).trans (congrArg Prod.snd ran)
    rw [isNext] at loads ⊢
    have present : addr ∈ next.base := by
      obtain ⟨result, isRun, -, loaded⟩ := next.getActorByZprAddr_run addr
      cases isRun.symm.trans loads
      exact (loaded ((passes.records (records_history calls)).keyed addr) actor rfl).1
    exact freed (fun b name => (hosts.listed name b).mp) addr present actor loads

end VisaService
