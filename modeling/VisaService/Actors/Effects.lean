import VisaService.Actors.Repo

/-!
# Functions of the repository without interruption

What a run leaves in the database, function by function. A loop over names is the fold of the
change it makes for one name; each fold lemma says what the entry of every name is afterwards.

Main results: `cleanUp_run`, `writeActor_run` and `writeUpdate_run`.
-/
namespace VisaService

open Lib ActorProg ActorDb

namespace ActorDb

/-- The actor claims the service and is live, and it is not the excluded one. -/
def isClaimant (db : ActorDb) (name : String) (excluded addr : IpAddr) : Bool :=
  decide (addr ≠ excluded) && (db.services[addr]?.any fun row => decide (name ∈ row)) &&
    decide (addr ∈ db.base)

/-- What `find_surviving_claimant` finds. -/
def survivor (db : ActorDb) (name : String) (excluded : IpAddr) : Option IpAddr :=
  leastAddress (db.services.keys.filter (db.isClaimant name excluded))

def released (addr : IpAddr) (db : ActorDb) (name : String) : ActorDb :=
  if db.service[name]? = some addr then
    match db.survivor name addr with
    | some claimant => { db with service := db.service.insert name claimant }
    | none => db.del (.service name)
  else db

def releasedHost (addr : IpAddr) (db : ActorDb) (name : String) : ActorDb :=
  if db.host[name]? = some addr then db.del (.host name) else db

/-- After one service was listed, whose entry is taken depending on its owner. -/
def listed (addr : IpAddr) (takes : Option IpAddr → Bool) (db : ActorDb) (name : String) :
    ActorDb :=
  { db with
    service := if takes db.service[name]? then db.service.insert name addr else db.service
    services := db.services.add addr name }

/-- The actor's `host:` entries are among its hostnames. -/
def HostsListed (db : ActorDb) (addr : IpAddr) : Prop :=
  ∀ name, db.host[name]? = some addr → db.hostnames.Holds addr name

end ActorDb

/-- The order in which claimants are preferred. -/
def byAddressString (a b : IpAddr) : Prop := a.display ≤ b.display

/-! ### Surviving claimants -/

theorem leastAddress_eq_none {addrs : List IpAddr} : leastAddress addrs = none ↔ addrs = [] := by
  cases addrs with
  | nil => simp [leastAddress]
  | cons addr rest =>
    simp only [leastAddress, reduceCtorEq, iff_false]
    split
    · simp
    · split <;> simp

/-- The least address in the order of their texts. -/
theorem leastAddress_spec {addrs : List IpAddr} {least : IpAddr}
    (found : leastAddress addrs = some least) :
    least ∈ addrs ∧ ∀ addr ∈ addrs, byAddressString least addr := by
  induction addrs generalizing least with
  | nil => cases found
  | cons addr rest ih =>
    unfold leastAddress at found
    split at found
    next empty =>
      cases found
      rw [leastAddress_eq_none.mp empty]
      simp [byAddressString]
    next leastRest isLeast =>
      obtain ⟨member, first⟩ := ih isLeast
      split at found
      next smaller =>
        cases found
        refine ⟨List.mem_cons_of_mem _ member, fun other isOther => ?_⟩
        rcases List.mem_cons.mp isOther with rfl | later
        · exact le_of_lt smaller
        · exact first other later
      next notSmaller =>
        cases found
        refine ⟨List.mem_cons_self, fun other isOther => ?_⟩
        rcases List.mem_cons.mp isOther with rfl | later
        · exact le_refl _
        · exact le_trans (not_lt.mp notSmaller) (first other later)

/-- The scan finds the claimants, and writes nothing. -/
theorem gatherClaimants_run (name : String) (excluded : IpAddr) (addrs candidates : List IpAddr)
    (db : ActorDb) :
    (gatherClaimants name excluded addrs candidates).run db =
      (.ok (candidates ++ addrs.filter (db.isClaimant name excluded)), db) := by
  induction addrs generalizing candidates with
  | nil => simp [gatherClaimants]
  | cons addr rest ih =>
    unfold gatherClaimants
    split
    next isExcluded =>
      rw [ih]
      simp [isClaimant, isExcluded]
    next other =>
      rw [run_call (.sismemberServices addr name) rfl]
      split
      next claims =>
        rw [run_call (.exists (.base addr)) rfl]
        split
        next live =>
          have isClaimant : db.isClaimant name excluded addr = true := by
            simp only [isClaimant, claims, Bool.and_true, Bool.and_eq_true,
              decide_eq_true_eq]
            exact ⟨other, of_decide_eq_true live⟩
          simp [ih, isClaimant]
        next gone =>
          have notClaimant : db.isClaimant name excluded addr = false := by
            simp only [isClaimant, Bool.and_eq_false_iff]
            exact .inr (by simpa [has] using gone)
          simp [ih, notClaimant]
      next unclaimed =>
        rw [ih]
        simp [isClaimant, unclaimed]

theorem findSurvivingClaimant_run (name : String) (excluded : IpAddr) (db : ActorDb) :
    (findSurvivingClaimant name excluded).run db = (.ok (db.survivor name excluded), db) := by
  unfold findSurvivingClaimant
  rw [run_call .scanServices rfl,
    run_bind (gatherClaimants_run name excluded _ [] db)]
  rfl

theorem releaseServiceEntry_run (addr : IpAddr) (name : String) (db : ActorDb) :
    (releaseServiceEntry addr name).run db = (.ok (), db.released addr name) := by
  unfold releaseServiceEntry released
  rw [run_call (.hgetService name) rfl]
  split
  next owns =>
    rw [run_bind (findSurvivingClaimant_run name addr db)]
    cases db.survivor name addr with
    | none => rfl
    | some claimant => rfl
  next others => rfl

/-! ### Releasing -/

namespace ActorDb

/-- An actor does not succeed itself. -/
theorem survivor_ne (db : ActorDb) (name : String) (addr : IpAddr) :
    db.survivor name addr ≠ some addr := by
  intro found
  have claimant := (List.mem_filter.mp (leastAddress_spec found).1).2
  simp [isClaimant] at claimant

/-- It does not matter whether the actor that leaves still has a record. -/
theorem survivor_congr (db other : ActorDb) {addr : IpAddr}
    (sameServices : other.services = db.services)
    (sameBase : ∀ b, b ≠ addr → (b ∈ other.base ↔ b ∈ db.base)) (name : String) :
    other.survivor name addr = db.survivor name addr := by
  unfold survivor
  rw [sameServices]
  congr 2
  funext b
  by_cases own : b = addr
  · simp [isClaimant, own]
  · simp [isClaimant, sameServices, sameBase b own]

/-- Only the named entry changes, and only if it is the actor's. -/
theorem released_eq (addr : IpAddr) (db : ActorDb) (name : String) :
    ∃ service, db.released addr name = { db with service := service } ∧
      ∀ n, service[n]? = if n = name ∧ db.service[n]? = some addr then db.survivor n addr
        else db.service[n]? := by
  unfold released
  split
  next owns =>
    split
    next claimant found =>
      refine ⟨_, rfl, fun n => ?_⟩
      rw [HashMap.get_insert]
      by_cases same : name = n
      · subst same
        simp [owns, found]
      · simp [same, Ne.symm (Ne.intro same)]
    next found =>
      refine ⟨_, rfl, fun n => ?_⟩
      rw [HashMap.get_erase]
      by_cases same : name = n
      · subst same
        simp [owns, found]
      · simp [same, Ne.symm (Ne.intro same)]
  next others =>
    refine ⟨_, rfl, fun n => ?_⟩
    split
    next mine =>
      obtain ⟨rfl, owns⟩ := mine
      exact absurd owns others
    · rfl

/-- Each entry of the actor under one of the names goes to the survivor for that name. -/
theorem foldl_released (addr : IpAddr) (names : List String) (db : ActorDb) :
    ∃ service, names.foldl (released addr) db = { db with service := service } ∧
      ∀ n, service[n]? = if n ∈ names ∧ db.service[n]? = some addr then db.survivor n addr
        else db.service[n]? := by
  induction names generalizing db with
  | nil => exact ⟨db.service, rfl, by simp⟩
  | cons name rest ih =>
    obtain ⟨first, isFirst, firstEntry⟩ := released_eq addr db name
    obtain ⟨service, isRest, entry⟩ := ih { db with service := first }
    refine ⟨service, by rw [List.foldl_cons, isFirst, isRest], fun n => ?_⟩
    rw [entry n, firstEntry n]
    -- A name released twice belongs to the survivor the second time.
    have apart := db.survivor_ne n addr
    have same : survivor { db with service := first } n addr = db.survivor n addr := rfl
    by_cases owns : db.service[n]? = some addr <;> by_cases head : n = name <;>
      simp [owns, head, same] <;> grind

theorem foldl_releasedHost (addr : IpAddr) (names : List String) (db : ActorDb) :
    ∃ host, names.foldl (releasedHost addr) db = { db with host := host } ∧
      ∀ n, host[n]? = if n ∈ names ∧ db.host[n]? = some addr then none else db.host[n]? := by
  induction names generalizing db with
  | nil => exact ⟨db.host, rfl, by simp⟩
  | cons name rest ih =>
    rw [List.foldl_cons]
    unfold releasedHost
    split
    next owns =>
      obtain ⟨host, isRest, entry⟩ := ih (db.del (.host name))
      refine ⟨host, isRest, fun n => ?_⟩
      rw [entry n]
      simp only [del, HashMap.get_erase, List.mem_cons]
      grind
    next others =>
      obtain ⟨host, isRest, entry⟩ := ih db
      refine ⟨host, isRest, fun n => ?_⟩
      rw [entry n]
      simp only [List.mem_cons]
      grind

end ActorDb

theorem releaseOwnedServiceEntries_run (addr : IpAddr) (names : List String) (db : ActorDb) :
    (releaseOwnedServiceEntries addr names).run db =
      (.ok (), names.foldl (released addr) db) :=
  Prog.run_each _ (fun name db => releaseServiceEntry_run addr name db) names db

theorem releaseOwnedHostEntries_run (addr : IpAddr) (names : List String) (db : ActorDb) :
    (releaseOwnedHostEntries addr names).run db =
      (.ok (), names.foldl (releasedHost addr) db) := by
  refine Prog.run_each _ (fun name db => ?_) names db
  unfold releasedHost
  change run (Prog.lift (.hgetHost name) >>= _) db = _
  rw [run_call (.hgetHost name) rfl]
  split <;> rfl

/-! ### Removing -/

namespace ActorDb

/-- After the first call of a removal. -/
def forgotten (db : ActorDb) (addr : IpAddr) : ActorDb :=
  { db with
    base := db.base.erase addr
    attrs := db.attrs.erase addr
    nodes := db.nodes.erase addr
    adapters := db.adapters.erase addr }

/-- Every entry of the services that the actor lists goes to the survivor, and with them the
actor's set. -/
structure ServicesReleased (addr : IpAddr) (db : ActorDb) (service : HashMap String IpAddr)
    (services : Rows IpAddr String) : Prop where
  entry : ∀ n, service[n]? =
    if db.services.Holds addr n ∧ db.service[n]? = some addr then db.survivor n addr
    else db.service[n]?
  dropped : services = db.services.erase addr

/-- Likewise for the hostnames, which nobody inherits. -/
structure HostnamesReleased (addr : IpAddr) (db : ActorDb) (host : HashMap String IpAddr)
    (hostnames : Rows IpAddr String) : Prop where
  entry : ∀ n, host[n]? =
    if db.hostnames.Holds addr n ∧ db.host[n]? = some addr then none else db.host[n]?
  dropped : hostnames = db.hostnames.erase addr

end ActorDb

theorem cleanUpServices_run (order : SetOrder String) (addr : IpAddr) (db : ActorDb) :
    ∃ service services, (cleanUpServices order addr).run db =
        (.ok (), { db with service := service, services := services }) ∧
      db.ServicesReleased addr service services := by
  unfold cleanUpServices
  rw [run_call (.exists (.services addr)) rfl]
  split
  next listed =>
    rw [run_call (.smembersServices addr) rfl,
      run_bind (releaseOwnedServiceEntries_run addr _ db)]
    obtain ⟨service, isFold, entry⟩ :=
      foldl_released addr (order.list (db.services[addr]?.getD ∅)) db
    rw [isFold]
    refine ⟨service, db.services.erase addr, rfl, ⟨fun n => ?_, rfl⟩⟩
    rw [entry n]
    simp only [order.mem_list, Rows.mem_row]
  next unlisted =>
    have absent : addr ∉ db.services := by simpa [has] using unlisted
    refine ⟨db.service, db.services, rfl, ⟨fun n => ?_, (HashMap.erase_of_not_mem absent).symm⟩⟩
    simp [Rows.not_holds_of_not_mem absent n]

theorem cleanUpHostnames_run (order : SetOrder String) (addr : IpAddr) (db : ActorDb) :
    ∃ host hostnames, (cleanUpHostnames order addr).run db =
        (.ok (), { db with host := host, hostnames := hostnames }) ∧
      db.HostnamesReleased addr host hostnames := by
  unfold cleanUpHostnames
  rw [run_call (.exists (.hostnames addr)) rfl]
  split
  next listed =>
    rw [run_call (.smembersHostnames addr) rfl,
      run_bind (releaseOwnedHostEntries_run addr _ db)]
    obtain ⟨host, isFold, entry⟩ :=
      foldl_releasedHost addr (order.list (db.hostnames[addr]?.getD ∅)) db
    rw [isFold]
    refine ⟨host, db.hostnames.erase addr, rfl, ⟨fun n => ?_, rfl⟩⟩
    rw [entry n]
    simp only [order.mem_list, Rows.mem_row]
  next unlisted =>
    have absent : addr ∉ db.hostnames := by simpa [has] using unlisted
    refine ⟨db.host, db.hostnames, rfl, ⟨fun n => ?_, (HashMap.erase_of_not_mem absent).symm⟩⟩
    simp [Rows.not_holds_of_not_mem absent n]

/-- A removal leaves nothing of the actor and hands its services on. -/
structure Removed (addr : IpAddr) (db next : ActorDb) : Prop where
  base : next.base = db.base.erase addr
  attrs : next.attrs = db.attrs.erase addr
  nodes : next.nodes = db.nodes.erase addr
  adapters : next.adapters = db.adapters.erase addr
  services : db.ServicesReleased addr next.service next.services
  hostnames : db.HostnamesReleased addr next.host next.hostnames

/-- A removal that is not interrupted. -/
theorem cleanUp_run (order : SetOrder String) (addr : IpAddr) (db : ActorDb) :
    ∃ next, (cleanUp order addr).run db = (.ok (), next) ∧ Removed addr db next := by
  obtain ⟨service, services, ranServices, releasedServices⟩ :=
    cleanUpServices_run order addr (db.forgotten addr)
  obtain ⟨host, hostnames, ranHostnames, releasedHostnames⟩ :=
    cleanUpHostnames_run order addr
      { db.forgotten addr with service := service, services := services }
  refine ⟨{ db.forgotten addr with
      service := service, services := services, host := host, hostnames := hostnames }, ?_,
    ⟨rfl, rfl, rfl, rfl, ⟨fun n => ?_, releasedServices.dropped⟩,
      { releasedHostnames with }⟩⟩
  · unfold cleanUp
    rw [run_call (.atomicPipeline _) rfl]
    change run (cleanUpServices order addr >>= _) (db.forgotten addr) = _
    rw [run_bind ranServices, ranHostnames]
  · -- The base record is gone before the survivors are looked for.
    have same : (db.forgotten addr).survivor n addr = db.survivor n addr :=
      db.survivor_congr (db.forgotten addr) rfl
        (fun b other => HashMap.mem_erase.trans (and_iff_left other)) n
    change service[n]? = _
    rw [releasedServices.entry n, same]
    rfl

/-! ### Hostnames -/

/-- What claiming the desired names leaves: each of them has a holder, the actor's other names
are released, and the actor's set is what it holds. -/
structure HostnamesClaimed (addr : IpAddr) (desired : List String) (db : ActorDb)
    (host : HashMap String IpAddr) (hostnames : Rows IpAddr String) : Prop where
  claimed : ∀ n ∈ desired, host[n]? = some (db.host[n]?.getD addr)
  released : ∀ n, n ∉ desired → host[n]? =
    if db.hostnames.Holds addr n ∧ db.host[n]? = some addr then none else db.host[n]?
  own : ∀ n, hostnames.Holds addr n ↔ n ∈ desired ∧ host[n]? = some addr
  others : ∀ b n, b ≠ addr → (hostnames.Holds b n ↔ db.hostnames.Holds b n)

/-- First claim wins: a name that is taken stays with its holder. -/
theorem claimHostnames_run (addr : IpAddr) (names conflicts : List String) (db : ActorDb) :
    ∃ host hostnames losses, (claimHostnames addr names conflicts).run db =
        (.ok losses, { db with host := host, hostnames := hostnames }) ∧
      (∀ n, host[n]? =
        if n ∈ names then some (db.host[n]?.getD addr) else db.host[n]?) ∧
      ∀ b n, hostnames.Holds b n ↔
        db.hostnames.Holds b n ∨ b = addr ∧ n ∈ names ∧ host[n]? = some addr := by
  induction names generalizing conflicts db with
  | nil => exact ⟨db.host, db.hostnames, conflicts, rfl, by simp, by simp⟩
  | cons name rest ih =>
    unfold claimHostnames
    by_cases taken : name ∈ db.host
    · rw [run_call (.hsetNxHost name addr) (if_pos taken), if_neg Bool.false_ne_true,
        run_call (.hgetHost name) rfl]
      obtain ⟨holder, isHolder⟩ := HashMap.get_of_mem taken
      split
      next mine =>
        rw [run_call (.saddHostnames addr name) rfl]
        obtain ⟨host, hostnames, losses, ran, entry, row⟩ :=
          ih conflicts { db with hostnames := db.hostnames.add addr name }
        refine ⟨host, hostnames, losses, ran, fun n => ?_, fun b n => ?_⟩
        · rw [entry n]
          simp only [List.mem_cons]
          grind
        · have held := entry n
          rw [row b n, Rows.holds_add]
          simp only [List.mem_cons]
          grind
      next lost =>
        obtain ⟨host, hostnames, losses, ran, entry, row⟩ := ih (conflicts ++ [name]) db
        refine ⟨host, hostnames, losses, ran, fun n => ?_, fun b n => ?_⟩
        · rw [entry n]
          simp only [List.mem_cons]
          grind
        · have held := entry n
          rw [row b n]
          simp only [List.mem_cons]
          grind
    · rw [run_call (.hsetNxHost name addr) (if_neg taken), if_pos rfl,
        run_call (.saddHostnames addr name) rfl]
      have free : db.host[name]? = none := Std.ExtTreeMap.getElem?_eq_none taken
      obtain ⟨host, hostnames, losses, ran, entry, row⟩ := ih conflicts
        { db with host := db.host.insert name addr, hostnames := db.hostnames.add addr name }
      refine ⟨host, hostnames, losses, ran, fun n => ?_, fun b n => ?_⟩
      · rw [entry n]
        simp only [HashMap.get_insert, List.mem_cons]
        grind
      · have held := entry n
        simp only [HashMap.get_insert] at held
        rw [row b n, Rows.holds_add]
        simp only [List.mem_cons]
        grind

variable {actor : Actor} {addr b : IpAddr}

/-- What is no longer desired is released before the rest is claimed. -/
theorem claimHostnamesForActor_run (order : SetOrder String) (isAddr : actor.zprAddr = some addr)
    (policyServiceNames : HashSet String) (db : ActorDb) :
    ∃ host hostnames losses,
      (claimHostnamesForActor order actor policyServiceNames).run db =
        (.ok (), { db with host := host, hostnames := hostnames }.setBase addr
          (ActorField.set (.hostnameConflicts losses))) ∧
      HostnamesClaimed addr (desiredHostnames actor policyServiceNames) db host hostnames := by
  unfold claimHostnamesForActor
  simp only [isAddr]
  rw [run_call (.smembersHostnames addr) rfl,
    run_bind (releaseOwnedHostEntries_run addr _ db)]
  obtain ⟨released, isFold, releasedEntry⟩ := foldl_releasedHost addr
    ((order.list (db.hostnames[addr]?.getD ∅)).filter fun name =>
      name ∉ desiredHostnames actor policyServiceNames) db
  rw [isFold, run_call (.del (.hostnames addr)) rfl]
  obtain ⟨host, hostnames, losses, ran, entry, row⟩ := claimHostnames_run addr
    (desiredHostnames actor policyServiceNames) (policyConflicts actor policyServiceNames)
    (del { db with host := released } (.hostnames addr))
  rw [run_bind ran]
  -- Only names that are not desired were released before the claims.
  simp only [List.mem_filter, order.mem_list, Rows.mem_row, decide_eq_true_eq] at releasedEntry
  simp only [del, Rows.holds_erase] at entry row
  refine ⟨host, hostnames, losses, rfl, fun n desired => ?_, fun n undesired => ?_, fun n => ?_,
    fun b n other => ?_⟩
  · rw [entry n, releasedEntry n]
    simp [desired]
  · rw [entry n, releasedEntry n]
    simp [undesired]
  · rw [row addr n]
    simp
  · rw [row b n]
    simp [other]

/-! ### Writing a record -/

/-- A key is left alone, or one of the attributes written under it remains. -/
theorem foldl_insert_get (attrs : List Attribute) (start : HashMap String Attribute)
    (key : String) :
    (attrs.foldl (fun table attr => table.insert attr.key attr) start)[key]? = start[key]? ∧
        (∀ attr ∈ attrs, attr.key ≠ key) ∨
      ∃ attr ∈ attrs, attr.key = key ∧
        (attrs.foldl (fun table attr => table.insert attr.key attr) start)[key]? = some attr := by
  induction attrs generalizing start with
  | nil => exact .inl ⟨rfl, by simp⟩
  | cons first rest ih =>
    rcases ih (start.insert first.key first) with ⟨same, absent⟩ | ⟨attr, member, isKey, found⟩
    · rw [HashMap.get_insert] at same
      by_cases isKey : first.key = key
      · exact .inr ⟨first, List.mem_cons_self, isKey, by simpa [isKey] using same⟩
      · refine .inl ⟨by simpa [isKey] using same, fun attr member => ?_⟩
        rcases List.mem_cons.mp member with rfl | later
        · exact isKey
        · exact absent attr later
    · exact .inr ⟨attr, List.mem_cons_of_mem _ member, isKey, found⟩

/-- Every attribute stands under its own key. -/
def Keyed (table : HashMap String Attribute) : Prop :=
  ∀ (key : String) (attr : Attribute), table[key]? = some attr → attr.key = key

theorem Keyed.mem_values {table : HashMap String Attribute} (keyed : Keyed table)
    {attr : Attribute} : attr ∈ table.toList.map Prod.snd ↔ table[attr.key]? = some attr := by
  simp only [List.mem_map, Prod.exists, exists_eq_right,
    Std.ExtTreeMap.mem_toList_iff_getElem?_eq_some]
  constructor
  · rintro ⟨key, found⟩
    rwa [keyed key attr found]
  · intro found
    exact ⟨attr.key, found⟩

/-- Written one by one, the attributes of a table make up the table. -/
theorem Keyed.foldl_values {table : HashMap String Attribute} (keyed : Keyed table) :
    (table.toList.map Prod.snd).foldl (fun table attr => table.insert attr.key attr)
      (∅ : HashMap String Attribute) = table := by
  refine Std.ExtTreeMap.ext_getElem? fun key => ?_
  rcases foldl_insert_get (table.toList.map Prod.snd) ∅ key with
    ⟨same, absent⟩ | ⟨attr, member, rfl, found⟩
  · rw [same]
    cases found : table[key]? with
    | none => simp
    | some attr =>
      have isKey := keyed key attr found
      subst isKey
      exact absurd rfl (absent attr (keyed.mem_values.mpr found))
  · rw [found, keyed.mem_values.mp member]

namespace ActorDb

/-- The attributes stored for the actor, none where there is no hash. -/
def attrsOf (db : ActorDb) (addr : IpAddr) : HashMap String Attribute := db.attrs[addr]?.getD ∅

/-- Other hashes stay, and the actor has one as soon as an attribute is written. -/
theorem foldl_setAttr (addr : IpAddr) (list : List Attribute) (db : ActorDb) :
    ∃ attrs, list.foldl (fun db attr => db.setAttr addr attr) db = { db with attrs := attrs } ∧
      (∀ b, b ≠ addr → attrs[b]? = db.attrs[b]?) ∧
      attrs[addr]?.getD ∅ =
        list.foldl (fun table attr => table.insert attr.key attr) (db.attrsOf addr) ∧
      (list ≠ [] ∨ addr ∈ db.attrs → addr ∈ attrs) := by
  induction list generalizing db with
  | nil => exact ⟨db.attrs, rfl, fun _ _ => rfl, rfl, by simp⟩
  | cons first rest ih =>
    obtain ⟨attrs, isRest, others, own, present⟩ := ih (db.setAttr addr first)
    refine ⟨attrs, isRest, fun b other => ?_, ?_, fun _ => present (.inr ?_)⟩
    · rw [others b other]
      simp only [setAttr, HashMap.get_insert]
      exact if_neg (Ne.symm other)
    · rw [own, List.foldl_cons]
      simp [attrsOf, setAttr]
    · simp [setAttr]

/-- The actor lists every name, and gets the entries that it takes. -/
theorem foldl_listed (addr : IpAddr) (takes : Option IpAddr → Bool) (names : List String)
    (db : ActorDb) :
    ∃ service services, names.foldl (listed addr takes) db =
        { db with service := service, services := services } ∧
      (∀ n, service[n]? =
        if n ∈ names ∧ takes db.service[n]? then some addr else db.service[n]?) ∧
      ∀ b n, services.Holds b n ↔ db.services.Holds b n ∨ b = addr ∧ n ∈ names := by
  induction names generalizing db with
  | nil => exact ⟨db.service, db.services, rfl, by simp, by simp⟩
  | cons name rest ih =>
    obtain ⟨service, services, isRest, entry, row⟩ := ih (db.listed addr takes name)
    refine ⟨service, services, isRest, fun n => ?_, fun b n => ?_⟩
    · rw [entry n]
      simp only [listed, List.mem_cons]
      by_cases takesIt : takes db.service[name]?
      · simp only [takesIt, if_true, HashMap.get_insert]
        grind
      · simp only [takesIt, Bool.false_eq_true, if_false]
        grind
    · rw [row b n]
      simp only [listed, Rows.holds_add, List.mem_cons]
      tauto

end ActorDb

theorem ActorDb.setBase_setBase (db : ActorDb) (addr : IpAddr)
    (first second : ActorRecord → ActorRecord) :
    (db.setBase addr first).setBase addr second = db.setBase addr (second ∘ first) := by
  have same : (db.base.insert addr (first (db.base[addr]?.getD ⟨none, none, none, none⟩))).insert
      addr (second (first (db.base[addr]?.getD ⟨none, none, none, none⟩))) =
      db.base.insert addr (second (first (db.base[addr]?.getD ⟨none, none, none, none⟩))) := by
    refine Std.ExtTreeMap.ext_getElem? fun b => ?_
    simp only [HashMap.get_insert]
    split <;> rfl
  simp only [setBase, Std.ExtTreeMap.getElem?_insert_self, Option.getD_some, Function.comp_apply,
    same]

/-- The creation time is written once. -/
theorem hsetNxCtime_exec (addr : IpAddr) (ts : String) (db : ActorDb) :
    (DbCall.exec (.hsetNxCtime addr ts) db).2 =
      db.setBase addr fun record => { record with ctime := some (record.ctime.getD ts) } := by
  simp only [DbCall.exec]
  split
  next stamped =>
    obtain ⟨ctime, isCtime⟩ := Option.isSome_iff_exists.mp stamped
    obtain ⟨record, isRecord, hasCtime⟩ := Option.bind_eq_some_iff.mp isCtime
    have same : db.base.insert addr record = db.base := by
      refine Std.ExtTreeMap.ext_getElem? fun b => ?_
      rw [HashMap.get_insert]
      split
      next isAddr => rw [← isAddr, isRecord]
      · rfl
    have kept : { record with ctime := some ctime } = record := by rw [← hasCtime]
    simp [setBase, isRecord, hasCtime, kept, same]
  next unstamped =>
    have unset : (db.base[addr]?.getD ⟨none, none, none, none⟩).ctime = none := by
      cases isRecord : db.base[addr]? with
      | none => rfl
      | some record => simpa [isRecord] using unstamped
    simp [setBase, unset]

/-- What every write leaves in the base record. -/
def writtenRecord (actor : Actor) (ts : String) (record : ActorRecord) : ActorRecord :=
  { record with
    identityKeys := some actor.identityKeys
    ctime := some (record.ctime.getD ts)
    utime := some ts }

theorem writeBase_run (addr : IpAddr) (actor : Actor) (ts : String) (db : ActorDb) :
    (writeBase addr actor ts).run db = (.ok (), db.setBase addr (writtenRecord actor ts)) := by
  unfold writeBase
  rw [run_call (.hsetBase addr _) rfl, run_call (.hsetNxCtime addr ts)
    (Prod.mk.eta).symm, hsetNxCtime_exec]
  change (Except.ok (), setBase _ addr _) = _
  rw [setBase_setBase, setBase_setBase]
  rfl

/-- What adding and updating leave alike: the base record, the attributes and the hostnames. -/
structure Written (ctx : WriteContext) (addr : IpAddr) (actor : Actor)
    (start : HashMap String Attribute) (db next : ActorDb) : Prop where
  record : ∃ record, next.base[addr]? = some record ∧ record.ctime.isSome ∧
    record.identityKeys = some actor.identityKeys
  others : ∀ b, b ≠ addr → next.base[b]? = db.base[b]?
  attrs : next.attrs[addr]?.getD ∅ =
    actor.attrsIter.foldl (fun table attr => table.insert attr.key attr) start
  attrsPresent : actor.attrsIter ≠ [] → addr ∈ next.attrs
  attrsOthers : ∀ b, b ≠ addr → next.attrs[b]? = db.attrs[b]?
  hostnames : HostnamesClaimed addr (desiredHostnames actor ctx.policyServiceNames) db
    next.host next.hostnames

/-- Nobody but the actor becomes stored. -/
theorem Written.present {ctx : WriteContext} {start : HashMap String Attribute} {db next : ActorDb}
    (written : Written ctx addr actor start db next) :
    b ∈ next.base ↔ b = addr ∨ b ∈ db.base := by
  by_cases own : b = addr
  · subst own
    obtain ⟨record, isRecord, -⟩ := written.record
    exact iff_of_true (HashMap.mem_of_get isRecord) (.inl rfl)
  · rw [Std.ExtTreeMap.mem_iff_isSome_getElem?, written.others b own,
      ← Std.ExtTreeMap.mem_iff_isSome_getElem?]
    exact (or_iff_right own).symm

theorem ActorDb.setBase_own (db : ActorDb) (addr : IpAddr) (change : ActorRecord → ActorRecord) :
    (db.setBase addr change).base[addr]? =
      some (change (db.base[addr]?.getD ⟨none, none, none, none⟩)) :=
  Std.ExtTreeMap.getElem?_insert_self

theorem ActorDb.setBase_others (db : ActorDb) (change : ActorRecord → ActorRecord)
    (other : b ≠ addr) :
    (db.setBase addr change).base[b]? = db.base[b]? := by
  simp only [setBase, HashMap.get_insert]
  exact if_neg (Ne.symm other)

theorem written_record (db : ActorDb) (addr : IpAddr) (actor : Actor) (ts : String)
    (losses : List String) :
    ∃ record, ((db.setBase addr (writtenRecord actor ts)).setBase addr
        (ActorField.set (.hostnameConflicts losses))).base[addr]? = some record ∧
      record.ctime.isSome ∧ record.identityKeys = some actor.identityKeys := by
  refine ⟨_, setBase_own _ addr _, ?_⟩
  rw [setBase_own]
  exact ⟨rfl, rfl⟩

theorem written_others (db : ActorDb) (actor : Actor) (ts : String) (losses : List String)
    (other : b ≠ addr) :
    ((db.setBase addr (writtenRecord actor ts)).setBase addr
      (ActorField.set (.hostnameConflicts losses))).base[b]? = db.base[b]? := by
  rw [setBase_others _ _ other, setBase_others _ _ other]

/-- An added actor owns all the services it lists. -/
structure Added (ctx : WriteContext) (addr : IpAddr) (actor : Actor) (db next : ActorDb) : Prop
    extends Written ctx addr actor (db.attrsOf addr) db next where
  service : ∀ n, next.service[n]? = if n ∈ actor.services then some addr else db.service[n]?
  services : ∀ b n, next.services.Holds b n ↔
    db.services.Holds b n ∨ b = addr ∧ n ∈ actor.services
  nodes : next.nodes = (db.sadd actor.roleSet addr).nodes
  adapters : next.adapters = (db.sadd actor.roleSet addr).adapters

/-- An add that is not interrupted. -/
theorem writeActor_run (ctx : WriteContext) (isAddr : actor.zprAddr = some addr) (db : ActorDb) :
    ∃ next, (writeActor ctx addr actor).run db = (.ok (), next) ∧
      Added ctx addr actor db next := by
  obtain ⟨attrs, isAttrs, attrsOthers, attrsOwn, attrsPresent⟩ :=
    db.foldl_setAttr addr actor.attrsIter
  have ranAttrs := Prog.run_each DbCall.exec
    (fun (attr : Attribute) (db : ActorDb) =>
      show run (Prog.lift (.hsetAttr addr attr)) db = (.ok (), db.setAttr addr attr)
        from rfl) actor.attrsIter db
  let started := setBase { db with attrs := attrs } addr (writtenRecord actor ctx.ts)
  have ranServices := Prog.run_each DbCall.exec
    (fun (name : String) (db : ActorDb) =>
      show run (Prog.lift (.hsetService name addr) >>= fun _ =>
        Prog.lift (.saddServices addr name)) db = (.ok (), db.listed addr (fun _ => true) name)
        from rfl) actor.services started
  obtain ⟨service, services, isListed, entry, row⟩ :=
    foldl_listed addr (fun _ => true) actor.services started
  obtain ⟨host, hostnames, losses, ranHostnames, claimed⟩ := claimHostnamesForActor_run ctx.order
    isAddr ctx.policyServiceNames { started with service := service, services := services }
  unfold writeActor
  rw [run_bind ranAttrs, isAttrs, run_bind (writeBase_run addr actor ctx.ts _),
    run_bind ranServices, isListed]
  have taken (n : String) :
      service[n]? = if n ∈ actor.services then some addr else db.service[n]? :=
    (entry n).trans (by simp [started, setBase])
  -- Joining a role set touches nothing else.
  have joins (other : ActorDb) (nodes : other.nodes = db.nodes)
      (adapters : other.adapters = db.adapters) : other.sadd actor.roleSet addr =
      { other with
        nodes := (db.sadd actor.roleSet addr).nodes
        adapters := (db.sadd actor.roleSet addr).adapters } := by
    cases actor.roleSet <;> simp [sadd, ← nodes, ← adapters]
  refine ⟨_, (run_bind ranHostnames).trans (congrArg (Prod.mk (Except.ok ()))
    (joins _ rfl rfl)), ?_⟩
  exact ⟨⟨written_record db addr actor ctx.ts losses,
    fun b other => written_others db actor ctx.ts losses other, attrsOwn,
    fun some => attrsPresent (.inl some), attrsOthers,
    { claimed with }⟩, taken, row, rfl, rfl⟩

/-- An entry is taken unless another actor has it. -/
theorem reclaimService_run (addr : IpAddr) (name : String) (db : ActorDb) :
    (reclaimService addr name).run db =
      (.ok (), db.listed addr (fun owner => !owner.any (· ≠ addr)) name) := by
  unfold reclaimService listed
  rw [run_call (.hgetService name) rfl]
  split
  next taken =>
    have leaves : ¬ (!db.service[name]?.any (· ≠ addr)) = true := by simpa using taken
    simp only [leaves]
    rfl
  next free =>
    have takes : (!db.service[name]?.any (· ≠ addr)) = true := by simpa using free
    simp only [takes, if_true]
    rfl

/-- An update releases the services that the actor dropped, takes those of its services that
nobody has, and leaves the others where they are. -/
structure Updated (ctx : WriteContext) (addr : IpAddr) (actor : Actor) (db next : ActorDb) : Prop
    extends Written ctx addr actor ∅ db next where
  kept : ∀ n ∈ actor.services, next.service[n]? = some (db.service[n]?.getD addr)
  dropped : ∀ n, n ∉ actor.services → next.service[n]? =
    if db.services.Holds addr n ∧ db.service[n]? = some addr then db.survivor n addr
    else db.service[n]?
  services : ∀ b n, next.services.Holds b n ↔
    b ≠ addr ∧ db.services.Holds b n ∨ b = addr ∧ n ∈ actor.services
  nodes : next.nodes = db.nodes
  adapters : next.adapters = db.adapters

/-- An update that is not interrupted. -/
theorem writeUpdate_run (ctx : WriteContext) (isAddr : actor.zprAddr = some addr) (db : ActorDb) :
    ∃ next, (writeUpdate ctx addr actor).run db = (.ok (), next) ∧
      Updated ctx addr actor db next := by
  -- The attributes, in one call.
  obtain ⟨attrs, isAttrs, attrsOthers, attrsOwn, attrsPresent⟩ :=
    (db.del (.attrs addr)).foldl_setAttr addr actor.attrsIter
  have piped : DbCall.exec (.atomicPipeline
      (.del (.attrs addr) :: actor.attrsIter.map (.hsetAttr addr))) db =
      ((), { db with attrs := attrs }) := by
    simp only [DbCall.exec, List.foldl_cons, List.foldl_map]
    exact congrArg (Prod.mk ()) isAttrs
  -- The services that were dropped.
  let started := setBase { db with attrs := attrs } addr (writtenRecord actor ctx.ts)
  let dropped := (ctx.order.list (db.services[addr]?.getD ∅)).filter fun name =>
    name ∉ actor.services
  obtain ⟨released, isReleased, releasedEntry⟩ := foldl_released addr dropped started
  have ranReleased := releaseOwnedServiceEntries_run addr dropped started
  rw [isReleased] at ranReleased
  -- The services that are kept or new.
  let cleared := { started with service := released, services := db.services.erase addr }
  obtain ⟨service, services, isListed, entry, row⟩ := foldl_listed addr
    (fun owner => !owner.any (· ≠ addr)) actor.services cleared
  have ranServices := Prog.run_each DbCall.exec (reclaimService_run addr) actor.services cleared
  rw [isListed] at ranServices
  obtain ⟨host, hostnames, losses, ranHostnames, claimed⟩ := claimHostnamesForActor_run ctx.order
    isAddr ctx.policyServiceNames { started with service := service, services := services }
  unfold writeUpdate
  rw [run_call (.atomicPipeline _) piped,
    run_bind (writeBase_run addr actor ctx.ts _),
    run_call (.smembersServices addr) rfl]
  refine ⟨_, (run_bind ranReleased).trans ((run_call (.del (.services addr))
    rfl).trans ((run_bind ranServices).trans ranHostnames)), ?_⟩
  have attrsOwn' : attrs[addr]?.getD ∅ =
      actor.attrsIter.foldl (fun table attr => table.insert attr.key attr) ∅ := by
    rw [attrsOwn]
    simp [attrsOf, del]
  have attrsOthers' (b : IpAddr) (other : b ≠ addr) : attrs[b]? = db.attrs[b]? := by
    rw [attrsOthers b other]
    simp only [del, HashMap.get_erase]
    exact if_neg (Ne.symm other)
  -- Nothing that survives is affected by the actor's own new record.
  have sameSurvivor (n : String) : started.survivor n addr = db.survivor n addr := by
    refine db.survivor_congr started rfl (fun b other => ?_) n
    simp [started, setBase, Ne.symm other]
  simp only [dropped, List.mem_filter, ctx.order.mem_list, Rows.mem_row, decide_eq_true_eq,
    sameSurvivor] at releasedEntry
  have releasedEntry' (n : String) : released[n]? =
      if (db.services.Holds addr n ∧ n ∉ actor.services) ∧ db.service[n]? = some addr
      then db.survivor n addr else db.service[n]? := releasedEntry n
  have entry' (n : String) : service[n]? =
      if n ∈ actor.services ∧ (!released[n]?.any (· ≠ addr)) = true then some addr
      else released[n]? := entry n
  refine ⟨⟨written_record db addr actor ctx.ts losses,
    fun b other => written_others db actor ctx.ts losses other, attrsOwn',
    fun some => attrsPresent (.inl some), attrsOthers',
    { claimed with }⟩, fun n listed => ?_, fun n unlisted => ?_, fun b n => ?_, rfl, rfl⟩
  · change service[n]? = _
    rw [entry' n, releasedEntry' n]
    cases owner : db.service[n]? with
    | none => simp [listed]
    | some holder =>
      by_cases mine : holder = addr
      · simp [listed, mine]
      · simp [listed, mine]
  · change service[n]? = _
    rw [entry' n, releasedEntry' n]
    simp [unlisted]
  · refine (row b n).trans (or_congr_left ?_)
    exact Rows.holds_erase

end VisaService
