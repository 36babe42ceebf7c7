import VisaService.Lib.Pool
import VisaService.Actors.Effects

/-!
# Departures among other calls

What a removal and a release of services do while other calls take turns with them, one
database call at a time. `Keeps` is what a call about another address leaves of an actor,
`Fades` what is left of an actor that is already gone while somebody cleans up after it.

Main results: `findSurvivingClaimant_safe` and `cleanUpRest_safe`.
-/
namespace VisaService

open Lib
open Prog (Safe safe_bind safe_each lift)

namespace ActorDb

/-- Neither record, attributes nor role are left of the actor. -/
structure Gone (db : ActorDb) (addr : IpAddr) : Prop where
  base : addr ∉ db.base
  attrs : addr ∉ db.attrs
  nodes : addr ∉ db.nodes
  adapters : addr ∉ db.adapters

/-- The actor's `service:` entries are among its services. -/
def ServicesListed (db : ActorDb) (addr : IpAddr) : Prop :=
  ∀ name : String, db.service[name]? = some addr → db.services.Holds addr name

/-- No key is left of the actor, and no entry that points at it. -/
structure NoKey (db : ActorDb) (addr : IpAddr) : Prop extends db.Gone addr where
  services : addr ∉ db.services
  hostnames : addr ∉ db.hostnames
  service : ∀ name : String, db.service[name]? ≠ some addr
  host : ∀ name : String, db.host[name]? ≠ some addr

end ActorDb

/-- What is left of an actor that is gone only gets less. -/
structure Fades (addr : IpAddr) (db next : ActorDb) : Prop where
  gone : db.Gone addr → next.Gone addr
  service : ∀ name : String,
    next.service[name]? = some addr → db.service[name]? = some addr
  host : ∀ name : String, next.host[name]? = some addr → db.host[name]? = some addr
  servicesKey : addr ∉ db.services → addr ∉ next.services
  hostnamesKey : addr ∉ db.hostnames → addr ∉ next.hostnames
  servicesListed : db.ServicesListed addr → next.ServicesListed addr
  hostsListed : db.HostsListed addr → next.HostsListed addr

theorem Fades.refl (addr : IpAddr) (db : ActorDb) : Fades addr db db :=
  ⟨id, fun _ => id, fun _ => id, id, id, id, id⟩

variable {addr claimant : IpAddr} {first second third db next : ActorDb} {departing : IpAddr → Prop}
variable {name : String}

theorem Fades.trans (one : Fades addr first second) (two : Fades addr second third) :
    Fades addr first third :=
  ⟨two.gone ∘ one.gone, fun name => one.service name ∘ two.service name,
    fun name => one.host name ∘ two.host name, two.servicesKey ∘ one.servicesKey,
    two.hostnamesKey ∘ one.hostnamesKey, two.servicesListed ∘ one.servicesListed,
    two.hostsListed ∘ one.hostsListed⟩

/-- Where no key is left, none comes back. -/
theorem Fades.noKey (fades : Fades addr db next) (none : db.NoKey addr) : next.NoKey addr where
  toGone := fades.gone none.toGone
  services := fades.servicesKey none.services
  hostnames := fades.hostnamesKey none.hostnames
  service name owns := none.service name (fades.service name owns)
  host name holds := none.host name (fades.host name holds)

/-- What calls about other addresses leave of an actor. It may be promoted while it is live
and lists the service. -/
structure Keeps (addr : IpAddr) (db next : ActorDb) : Prop where
  base : addr ∈ next.base ↔ addr ∈ db.base
  attrs : addr ∈ next.attrs ↔ addr ∈ db.attrs
  nodes : addr ∈ next.nodes ↔ addr ∈ db.nodes
  adapters : addr ∈ next.adapters ↔ addr ∈ db.adapters
  services : next.services[addr]? = db.services[addr]?
  hostnames : next.hostnames[addr]? = db.hostnames[addr]?
  service : ∀ name : String, next.service[name]? = some addr →
    db.service[name]? = some addr ∨ addr ∈ db.base ∧ db.services.Holds addr name
  host : ∀ name : String, next.host[name]? = some addr → db.host[name]? = some addr

theorem Keeps.refl (addr : IpAddr) (db : ActorDb) : Keeps addr db db :=
  ⟨.rfl, .rfl, .rfl, .rfl, rfl, rfl, fun _ => .inl, fun _ => id⟩

theorem Keeps.holds (keeps : Keeps addr db next) (name : String) :
    next.services.Holds addr name ↔ db.services.Holds addr name := by
  unfold Rows.Holds
  rw [keeps.services]

theorem Keeps.trans (one : Keeps addr first second) (two : Keeps addr second third) :
    Keeps addr first third where
  base := two.base.trans one.base
  attrs := two.attrs.trans one.attrs
  nodes := two.nodes.trans one.nodes
  adapters := two.adapters.trans one.adapters
  services := two.services.trans one.services
  hostnames := two.hostnames.trans one.hostnames
  service name owns := by
    rcases two.service name owns with before | ⟨live, listed⟩
    · exact one.service name before
    · exact .inr ⟨one.base.mp live, (one.holds name).mp listed⟩
  host name holds := one.host name (two.host name holds)

/-- Who is promoted lists the service. -/
theorem Keeps.servicesListed (keeps : Keeps addr db next) (listed : db.ServicesListed addr) :
    next.ServicesListed addr := by
  intro name owns
  rw [keeps.holds]
  exact (keeps.service name owns).elim (listed name) fun both => both.2

theorem Keeps.hostsListed (keeps : Keeps addr db next) (listed : db.HostsListed addr) :
    next.HostsListed addr := by
  intro name holds
  have before := listed name (keeps.host name holds)
  unfold Rows.Holds at before ⊢
  rwa [keeps.hostnames]

/-- An actor that is gone is not promoted. -/
theorem Keeps.fades (keeps : Keeps addr db next) (gone : db.Gone addr) : Fades addr db next where
  gone _ := ⟨keeps.base.not.mpr gone.base, keeps.attrs.not.mpr gone.attrs,
    keeps.nodes.not.mpr gone.nodes, keeps.adapters.not.mpr gone.adapters⟩
  service name owns := (keeps.service name owns).resolve_right fun both => gone.base both.1
  host := keeps.host
  servicesKey absent := by
    rwa [Std.ExtTreeMap.mem_iff_isSome_getElem?, keeps.services,
      ← Std.ExtTreeMap.mem_iff_isSome_getElem?]
  hostnamesKey absent := by
    rwa [Std.ExtTreeMap.mem_iff_isSome_getElem?, keeps.hostnames,
      ← Std.ExtTreeMap.mem_iff_isSome_getElem?]
  servicesListed := keeps.servicesListed
  hostsListed := keeps.hostsListed

/-! ### What the parties rely on -/

/-- While an actor is live, nobody changed its services. -/
def Undisturbed (addr : IpAddr) (db next : ActorDb) : Prop :=
  addr ∈ next.base → addr ∈ db.base ∧ next.services[addr]? = db.services[addr]?

theorem Undisturbed.trans (one : Undisturbed addr first second)
    (two : Undisturbed addr second third) :
    Undisturbed addr first third := by
  intro live
  obtain ⟨before, same⟩ := two live
  obtain ⟨begin, start⟩ := one before
  exact ⟨begin, same.trans start⟩

theorem Keeps.undisturbed (keeps : Keeps addr db next) :
    Undisturbed addr db next := fun live => ⟨keeps.base.mp live, keeps.services⟩

/-- Of the addresses that others are removing, besides the own one. -/
def OthersUndisturbed (departing : IpAddr → Prop) (addr : IpAddr) (db next : ActorDb) : Prop :=
  ∀ other, departing other → other ≠ addr → Undisturbed other db next

def OthersKept (departing : IpAddr → Prop) (addr : IpAddr) (db next : ActorDb) : Prop :=
  ∀ other, departing other → other ≠ addr → Keeps other db next

theorem OthersUndisturbed.trans (one : OthersUndisturbed departing addr first second)
    (two : OthersUndisturbed departing addr second third) :
    OthersUndisturbed departing addr first third :=
  fun other departs apart => (one other departs apart).trans (two other departs apart)

def DbCall.newOwner {β : Type} : DbCall β → Option IpAddr
  | .hsetService _ owner => some owner
  | _ => none

/-- A claimant that somebody is removing is written as owner only while it is live. -/
def PromotesLive (departing : IpAddr → Prop) (addr : IpAddr) {β : Type} (c : DbCall β)
    (db : ActorDb) : Prop :=
  ∀ owner, c.newOwner = some owner → owner ≠ addr → departing owner → owner ∈ db.base

/-- What is known of a claimant that was chosen: it is another actor, and if it is being
removed and still live, it lists the service. -/
def Chosen (departing : IpAddr → Prop) (addr : IpAddr) (name : String) (db : ActorDb)
    (claimant : IpAddr) : Prop :=
  claimant ≠ addr ∧
    (departing claimant → claimant ∈ db.base → db.services.Holds claimant name)

/-- Others may remove the claimant, but as long as it is live they leave its services alone. -/
theorem Chosen.stable (chosen : Chosen departing addr name db claimant)
    (relied : OthersUndisturbed departing addr db next) :
    Chosen departing addr name next claimant := by
  refine ⟨chosen.1, fun departs live => ?_⟩
  obtain ⟨before, same⟩ := relied claimant departs chosen.1 live
  have listed := chosen.2 departs before
  unfold Rows.Holds at listed ⊢
  rwa [same]

/-! ### Looking for a claimant -/

section Search

variable {departing : IpAddr → Prop} {addr : IpAddr} {rely guar : ActorDb → ActorDb → Prop}
variable {holds : ActorDb → Prop}

variable {db : ActorDb}

/-- Whoever is found listed the service when it was asked about, and lists it as long as it is live.
-/
theorem gatherClaimants_safe
    (relies : ∀ db now, rely db now → OthersUndisturbed departing addr db now)
    (reads : ∀ db, holds db → guar db db) (stable : ∀ db now, holds db → rely db now → holds now)
    (name : String) (addrs candidates : List IpAddr) (before : holds db)
    (chosen : ∀ claimant ∈ candidates, Chosen departing addr name db claimant) :
    Safe DbCall.exec (PromotesLive departing addr) rely guar (fun result db => holds db ∧
        ∃ found, result = .ok found ∧
          ∀ claimant ∈ found, Chosen departing addr name db claimant)
      (gatherClaimants name addr addrs candidates) db := by
  induction addrs generalizing candidates db with
  | nil => exact ⟨before, candidates, rfl, chosen⟩
  | cons first rest ih =>
    unfold gatherClaimants
    split
    · exact ih candidates before chosen
    next other =>
      intro now relied _
      have later : ∀ claimant ∈ candidates, Chosen departing addr name now claimant :=
        fun claimant member => (chosen claimant member).stable (relies db now relied)
      have holdsNow := stable db now before relied
      refine ⟨reads now holdsNow, ?_⟩
      change Safe _ _ _ _ _ (if (now.services[first]?.any fun row => decide (name ∈ row)) = true
        then _ else _) now
      split
      next claims =>
        -- It is asked about the record in a second call, before which others may remove it.
        have listed : now.services.Holds first name := by
          simpa [Rows.Holds, Option.any_eq_true] using claims
        intro then_ reliedThen _
        have fresh : Chosen departing addr name then_ first :=
          Chosen.stable ⟨other, fun _ _ => listed⟩ (relies now then_ reliedThen)
        have latest : ∀ claimant ∈ candidates, Chosen departing addr name then_ claimant :=
          fun claimant member => (later claimant member).stable (relies now then_ reliedThen)
        have holdsThen := stable now then_ holdsNow reliedThen
        refine ⟨reads then_ holdsThen, ?_⟩
        change Safe _ _ _ _ _ (if then_.has (.base first) = true then _ else _) then_
        split
        · refine ih (candidates ++ [first]) holdsThen fun claimant member => ?_
          rcases List.mem_append.mp member with old | new
          · exact latest claimant old
          · rw [List.mem_singleton.mp new]
            exact fresh
        · exact ih candidates holdsThen latest
      · exact ih candidates holdsNow later

theorem findSurvivingClaimant_safe
    (relies : ∀ db now, rely db now → OthersUndisturbed departing addr db now)
    (reads : ∀ db, holds db → guar db db) (stable : ∀ db now, holds db → rely db now → holds now)
    (name : String) (before : holds db) :
    Safe DbCall.exec (PromotesLive departing addr) rely guar (fun result db => holds db ∧
        ∃ found, result = .ok found ∧
          ∀ claimant, found = some claimant → Chosen departing addr name db claimant)
      (findSurvivingClaimant name addr) db := by
  intro now relied _
  have holdsNow := stable db now before relied
  refine ⟨reads now holdsNow, ?_⟩
  change Safe _ _ _ _ _ (gatherClaimants name addr now.services.keys [] >>= _) now
  refine safe_bind ((gatherClaimants_safe relies reads stable name _ [] holdsNow
    (by simp)).imp ?_)
  rintro result later ⟨holdsLater, found, rfl, chosen⟩
  exact ⟨holdsLater, leastAddress found, rfl, fun claimant isLeast =>
    chosen claimant (leastAddress_spec isLeast).1⟩

/-- The entry is not the actor's, goes to a claimant or is dropped; each way leads to `done`. -/
theorem releaseServiceEntry_safe (departing : IpAddr → Prop) (holds done : ActorDb → Prop)
    (relies : ∀ db now, rely db now → OthersUndisturbed departing addr db now)
    (reads : ∀ db, holds db → guar db db) (stable : ∀ db now, holds db → rely db now → holds now)
    {name : String} (elsewhere : ∀ db, holds db → db.service[name]? ≠ some addr → done db)
    (promotes : ∀ db claimant, holds db → (departing claimant → claimant ∈ db.base) →
      Chosen departing addr name db claimant →
      guar db { db with service := db.service.insert name claimant } ∧
        done { db with service := db.service.insert name claimant })
    (drops : ∀ db, holds db → guar db (db.del (.service name)) ∧ done (db.del (.service name)))
    (before : holds db) :
    Safe DbCall.exec (PromotesLive departing addr) rely guar
      (fun result db => result = .ok () ∧ done db)
      (releaseServiceEntry addr name) db := by
  intro now relied _
  have holdsNow := stable db now before relied
  refine ⟨reads now holdsNow, ?_⟩
  change Safe _ _ _ _ _ (if now.service[name]? = some addr then _ else _) now
  split
  next owns =>
    refine safe_bind ((findSurvivingClaimant_safe relies reads stable name holdsNow).imp ?_)
    rintro result later ⟨holdsLater, found, rfl, chosen⟩
    cases found with
    | none =>
      intro last reliedLast _
      have dropped := drops last (stable later last holdsLater reliedLast)
      exact ⟨dropped.1, rfl, dropped.2⟩
    | some claimant =>
      intro last reliedLast allowed
      have isChosen := (chosen claimant rfl).stable (relies later last reliedLast)
      have promoted := promotes last claimant (stable later last holdsLater reliedLast)
        (allowed claimant rfl isChosen.1) isChosen
      exact ⟨promoted.1, rfl, promoted.2⟩
  next others => exact ⟨rfl, elsewhere now holdsNow others⟩

end Search

/-- The claimant gets the entry of a service it lists. -/
theorem promotion_keeps (live : departing claimant → claimant ∈ db.base)
    (chosen : Chosen departing addr name db claimant) :
    OthersKept departing addr db { db with service := db.service.insert name claimant } := by
  intro other departs _
  refine ⟨.rfl, .rfl, .rfl, .rfl, rfl, rfl, fun n owns => ?_, fun _ => id⟩
  rcases HashMap.of_get_insert owns with ⟨rfl, rfl⟩ | ⟨-, before⟩
  · exact .inr ⟨live departs, chosen.2 departs (live departs)⟩
  · exact .inl before

theorem dropEntry_keeps (other : IpAddr) (name : String) (db : ActorDb) :
    Keeps other db (db.del (.service name)) := by
  refine ⟨.rfl, .rfl, .rfl, .rfl, rfl, rfl, fun n owns => .inl ?_, fun _ => id⟩
  exact (HashMap.of_get_erase owns).2

/-! ### The rest of a removal -/

section Removal

variable (departing : IpAddr → Prop) (addr : IpAddr)

/-- What a removal relies on once the actor is gone. -/
def RemovalRely (db now : ActorDb) : Prop :=
  (db.Gone addr → Fades addr db now) ∧ OthersUndisturbed departing addr db now

/-- What a removal guarantees once the actor is gone. -/
structure RemovalGuar (db next : ActorDb) : Prop where
  gone : db.Gone addr
  fades : Fades addr db next
  others : OthersKept departing addr db next

variable {departing} {addr}

theorem RemovalRely.refl (db : ActorDb) : RemovalRely departing addr db db :=
  ⟨fun _ => .refl addr db, fun other _ _ => (Keeps.refl other db).undisturbed⟩

theorem RemovalRely.trans (first second third : ActorDb)
    (one : RemovalRely departing addr first second)
    (two : RemovalRely departing addr second third) :
    RemovalRely departing addr first third := by
  refine ⟨fun gone => ?_, one.2.trans two.2⟩
  have faded := one.1 gone
  exact faded.trans (two.1 (faded.gone gone))

variable {db now : ActorDb} {names done : List String} {service : HashMap String IpAddr}

theorem removalGuar_refl (gone : db.Gone addr) :
    RemovalGuar departing addr db db :=
  ⟨gone, .refl addr db, fun other _ _ => .refl other db⟩

/-- While the names are released: all entries of the actor are among them, and none of those
that are done. -/
structure Releasing (addr : IpAddr) (names done : List String) (db : ActorDb) : Prop where
  gone : db.Gone addr
  servicesListed : db.ServicesListed addr
  hostsListed : db.HostsListed addr
  bound : ∀ name : String, db.service[name]? = some addr → name ∈ names
  released : ∀ name ∈ done, db.service[name]? ≠ some addr

/-- Others only take entries away. -/
theorem Releasing.fades (releasing : Releasing addr names done db) (fades : Fades addr db now) :
    Releasing addr names done now where
  gone := fades.gone releasing.gone
  servicesListed := fades.servicesListed releasing.servicesListed
  hostsListed := fades.hostsListed releasing.hostsListed
  bound name owns := releasing.bound name (fades.service name owns)
  released name member owns := releasing.released name member (fades.service name owns)

/-- After the services. -/
structure ServicesFreed (addr : IpAddr) (db : ActorDb) : Prop where
  gone : db.Gone addr
  services : addr ∉ db.services
  service : ∀ name : String, db.service[name]? ≠ some addr
  hostsListed : db.HostsListed addr

theorem ServicesFreed.fades (freed : ServicesFreed addr db) (fades : Fades addr db now) :
    ServicesFreed addr now where
  gone := fades.gone freed.gone
  services := fades.servicesKey freed.services
  service name owns := freed.service name (fades.service name owns)
  hostsListed := fades.hostsListed freed.hostsListed

theorem fades_of_service
    (less : ∀ name : String, service[name]? = some addr → db.service[name]? = some addr) :
    Fades addr db { db with service := service } :=
  ⟨fun gone => { gone with }, less, fun _ => id, id, id,
    fun listed name owns => listed name (less name owns), id⟩

/-- A name is done when the actor's entry under it is gone. -/
theorem Releasing.without {name : String} (releasing : Releasing addr names done db)
    (less : ∀ n : String, service[n]? = some addr → db.service[n]? = some addr ∧ n ≠ name) :
    Fades addr db { db with service := service } ∧
      Releasing addr names (done ++ [name]) { db with service := service } := by
  have fades := fades_of_service fun n owns => (less n owns).1
  refine ⟨fades, { releasing.fades fades with released := fun other isDone owns => ?_ }⟩
  obtain ⟨before, apart⟩ := less other owns
  rcases List.mem_append.mp isDone with old | new
  · exact releasing.released other old before
  · exact apart (List.mem_singleton.mp new)

/-- When every name is done, no entry of the actor is left and its set can go. -/
theorem cleanUpServices_safe (order : SetOrder String) (gone : db.Gone addr)
    (servicesListed : db.ServicesListed addr) (hostsListed : db.HostsListed addr) :
    Safe DbCall.exec (PromotesLive departing addr) (RemovalRely departing addr)
      (RemovalGuar departing addr) (fun result db => result = .ok () ∧ ServicesFreed addr db)
      (cleanUpServices order addr) db := by
  intro now relied _
  have faded := relied.1 gone
  refine ⟨removalGuar_refl (faded.gone gone), ?_⟩
  change Safe _ _ _ _ _ (if now.has (.services addr) = true then _ else _) now
  split
  next exists_ =>
    intro reading reliedReading _
    have fadedReading := faded.trans (reliedReading.1 (faded.gone gone))
    refine ⟨removalGuar_refl (fadedReading.gone gone), ?_⟩
    -- Every entry of the actor is among the names that were read.
    have start : Releasing addr (order.list (reading.services[addr]?.getD ∅)) [] reading :=
      { gone := fadedReading.gone gone
        servicesListed := fadedReading.servicesListed servicesListed
        hostsListed := fadedReading.hostsListed hostsListed
        bound := fun name owns => order.mem_list.mpr (Rows.mem_row.mpr
          (fadedReading.servicesListed servicesListed name owns))
        released := by simp }
    change Safe _ _ _ _ _ (releaseOwnedServiceEntries addr
      (order.list (reading.services[addr]?.getD ∅)) >>= _) reading
    refine safe_bind ((safe_each (Releasing addr
      (order.list (reading.services[addr]?.getD ∅))) ?_ start).imp ?_)
    · -- One name: it was not the actor's, it is handed on, or it is dropped.
      intro done name store member releasing
      refine releaseServiceEntry_safe departing (Releasing addr _ done)
        (Releasing addr _ (done ++ [name])) (fun _ _ relied => relied.2)
        (fun db releasing => removalGuar_refl releasing.gone)
        (fun db now releasing relied => releasing.fades (relied.1 releasing.gone))
        (fun db releasing others => ?_) (fun db claimant releasing live chosen => ?_)
        (fun db releasing => ?_) releasing
      · refine { releasing with released := fun other isDone => ?_ }
        rcases List.mem_append.mp isDone with old | new
        · exact releasing.released other old
        · rw [List.mem_singleton.mp new]
          exact others
      · have less (n : String) (owns : (db.service.insert name claimant)[n]? = some addr) :
            db.service[n]? = some addr ∧ n ≠ name := by
          rcases HashMap.of_get_insert owns with ⟨-, rfl⟩ | ⟨apart, before⟩
          · exact absurd rfl chosen.1
          · exact ⟨before, Ne.symm apart⟩
        obtain ⟨fades, released⟩ := releasing.without less
        exact ⟨⟨releasing.gone, fades, promotion_keeps live chosen⟩, released⟩
      · have less (n : String) (owns : (db.service.erase name)[n]? = some addr) :
            db.service[n]? = some addr ∧ n ≠ name :=
          (HashMap.of_get_erase owns).symm.imp_right Ne.symm
        obtain ⟨fades, released⟩ := releasing.without less
        exact ⟨⟨releasing.gone, fades, fun other _ _ => dropEntry_keeps other name db⟩, released⟩
    · rintro result later ⟨rfl, releasing⟩ last reliedLast _
      have latest := releasing.fades (reliedLast.1 releasing.gone)
      have none (name : String) : last.service[name]? ≠ some addr := fun owns =>
        latest.released name (latest.bound name owns) owns
      have fades : Fades addr last (last.del (.services addr)) :=
        { Fades.refl addr last with
          gone := fun gone => { gone with }
          servicesKey := fun _ there => (HashMap.mem_erase.mp there).2 rfl
          servicesListed := fun _ name owns => absurd owns (none name) }
      refine ⟨⟨latest.gone, fades, fun other _ apart => ?_⟩, rfl, fades.gone latest.gone,
        fun there => (HashMap.mem_erase.mp there).2 rfl, none, latest.hostsListed⟩
      refine { Keeps.refl other last with services := ?_ }
      simp only [DbCall.exec, ActorDb.del, HashMap.get_erase]
      exact if_neg (Ne.symm apart)
  next missing =>
    have absent : addr ∉ now.services := by simpa [ActorDb.has] using missing
    exact ⟨rfl, faded.gone gone, absent, fun name owns => Rows.not_holds_of_not_mem absent name
      (faded.servicesListed servicesListed name owns), faded.hostsListed hostsListed⟩

/-- While the hostnames are released. -/
structure ReleasingHosts (addr : IpAddr) (names done : List String) (db : ActorDb) : Prop where
  freed : ServicesFreed addr db
  bound : ∀ name : String, db.host[name]? = some addr → name ∈ names
  released : ∀ name ∈ done, db.host[name]? ≠ some addr

theorem ReleasingHosts.fades (releasing : ReleasingHosts addr names done db)
    (fades : Fades addr db now) :
    ReleasingHosts addr names done now where
  freed := releasing.freed.fades fades
  bound name holds := releasing.bound name (fades.host name holds)
  released name member holds := releasing.released name member (fades.host name holds)

theorem dropHost_keeps (other : IpAddr) (name : String) (db : ActorDb) :
    Keeps other db (db.del (.host name)) := by
  refine { Keeps.refl other db with host := fun n holds => ?_ }
  simp only [ActorDb.del, HashMap.get_erase] at holds
  split at holds
  · cases holds
  · exact holds

theorem releaseHost_safe (name : String) (releasing : ReleasingHosts addr names done db) :
    Safe DbCall.exec (PromotesLive departing addr) (RemovalRely departing addr)
      (RemovalGuar departing addr)
      (fun result db => result = .ok () ∧ ReleasingHosts addr names (done ++ [name]) db)
      (lift (.hgetHost name) >>= fun owner =>
        if owner = some addr then lift (.del (.host name)) else pure () : ActorProg Unit) db := by
  intro now relied _
  have current := releasing.fades (relied.1 releasing.freed.gone)
  refine ⟨removalGuar_refl current.freed.gone, ?_⟩
  change Safe _ _ _ _ _ (if now.host[name]? = some addr then _ else _) now
  split
  next holds =>
    intro last reliedLast _
    have latest := current.fades (reliedLast.1 current.freed.gone)
    have kept := dropHost_keeps addr name last
    have fades := kept.fades latest.freed.gone
    refine ⟨⟨latest.freed.gone, fades, fun other _ _ => dropHost_keeps other name last⟩, rfl,
      { latest.fades fades with released := fun other isDone held => ?_ }⟩
    rcases List.mem_append.mp isDone with old | new
    · exact latest.released other old (fades.host other held)
    · rw [List.mem_singleton.mp new] at held
      simp [DbCall.exec, ActorDb.del] at held
  next elsewhere =>
    refine ⟨rfl, { current with released := fun other isDone => ?_ }⟩
    rcases List.mem_append.mp isDone with old | new
    · exact current.released other old
    · rw [List.mem_singleton.mp new]
      exact elsewhere

/-- After the hostnames no key is left. -/
theorem cleanUpHostnames_safe (order : SetOrder String) (freed : ServicesFreed addr db) :
    Safe DbCall.exec (PromotesLive departing addr) (RemovalRely departing addr)
      (RemovalGuar departing addr) (fun result db => result = .ok () ∧ db.NoKey addr)
      (cleanUpHostnames order addr) db := by
  intro now relied _
  have freedNow := freed.fades (relied.1 freed.gone)
  refine ⟨removalGuar_refl freedNow.gone, ?_⟩
  change Safe _ _ _ _ _ (if now.has (.hostnames addr) = true then _ else _) now
  split
  next exists_ =>
    intro reading reliedReading _
    have freedReading := freedNow.fades (reliedReading.1 freedNow.gone)
    refine ⟨removalGuar_refl freedReading.gone, ?_⟩
    have start : ReleasingHosts addr (order.list (reading.hostnames[addr]?.getD ∅)) [] reading :=
      { freed := freedReading
        bound := fun name holds => order.mem_list.mpr (Rows.mem_row.mpr
          (freedReading.hostsListed name holds))
        released := by simp }
    change Safe _ _ _ _ _ (releaseOwnedHostEntries addr
      (order.list (reading.hostnames[addr]?.getD ∅)) >>= _) reading
    refine safe_bind ((safe_each (ReleasingHosts addr
      (order.list (reading.hostnames[addr]?.getD ∅)))
      (fun done name store _ releasing => releaseHost_safe name releasing) start).imp ?_)
    rintro result later ⟨rfl, releasing⟩ last reliedLast _
    have latest := releasing.fades (reliedLast.1 releasing.freed.gone)
    have none (name : String) : last.host[name]? ≠ some addr := fun holds =>
      latest.released name (latest.bound name holds) holds
    have fades : Fades addr last (last.del (.hostnames addr)) :=
      { Fades.refl addr last with
        gone := fun gone => { gone with }
        hostnamesKey := fun _ there => (HashMap.mem_erase.mp there).2 rfl
        hostsListed := fun _ name holds => absurd holds (none name) }
    refine ⟨⟨latest.freed.gone, fades, fun other _ apart => ?_⟩, rfl,
      ⟨fades.gone latest.freed.gone, latest.freed.services,
        fun there => (HashMap.mem_erase.mp there).2 rfl, latest.freed.service, none⟩⟩
    refine { Keeps.refl other last with hostnames := ?_ }
    simp only [DbCall.exec, ActorDb.del, HashMap.get_erase]
    exact if_neg (Ne.symm apart)
  next missing =>
    have absent : addr ∉ now.hostnames := by simpa [ActorDb.has] using missing
    exact ⟨rfl, ⟨freedNow.gone, freedNow.services, absent, freedNow.service,
      fun name holds => Rows.not_holds_of_not_mem absent name
        (freedNow.hostsListed name holds)⟩⟩

/-- What follows the first call of a removal. -/
def cleanUpRest (order : SetOrder String) (addr : IpAddr) : ActorProg Unit :=
  cleanUpServices order addr >>= fun _ => cleanUpHostnames order addr

variable (departing) in
/-- Once the record is gone, a removal leaves no key, whatever others do within their bounds. -/
theorem cleanUpRest_safe (order : SetOrder String) (gone : db.Gone addr)
    (servicesListed : db.ServicesListed addr) (hostsListed : db.HostsListed addr) :
    Safe DbCall.exec (PromotesLive departing addr) (RemovalRely departing addr)
      (RemovalGuar departing addr) (fun result db => result = .ok () ∧ db.NoKey addr)
      (cleanUpRest order addr) db := by
  refine safe_bind ((cleanUpServices_safe order gone servicesListed hostsListed).imp ?_)
  rintro result later ⟨rfl, freed⟩
  exact cleanUpHostnames_safe order freed

variable (addr) in
theorem forgotten_gone (db : ActorDb) : (db.forgotten addr).Gone addr where
  base there := (HashMap.mem_erase.mp there).2 rfl
  attrs there := (HashMap.mem_erase.mp there).2 rfl
  nodes there := by simp [ActorDb.forgotten] at there
  adapters there := by simp [ActorDb.forgotten] at there

end Removal

end VisaService
