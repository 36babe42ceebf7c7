import VisaService.Lib.Registry
import VisaService.Actors.History

/-!
# Owners of services

Each connected actor lists services, and `service:<NAME>` names one of the actors that list
it. Where no two calls overlap, base records, services sets and `service:` entries form a
well-formed registry: adding, replacing, updating and removing an actor are steps of that holder.

Main results: `CallChange.acts` and `services_owned`.
-/
namespace VisaService

open Lib ActorDb

def ActorDb.registry (db : ActorDb) : Registry IpAddr String where
  present addr := addr ∈ db.base
  claims addr name := db.services.Holds addr name
  owner name := db.service[name]?

variable {db : ActorDb} {name : String}

theorem ActorDb.isClaimant_iff {excluded addr : IpAddr} :
    db.isClaimant name excluded addr = true ↔ db.registry.Rival excluded name addr := by
  simp only [isClaimant, Bool.and_eq_true, decide_eq_true_eq, Option.any_eq_true,
    Registry.Rival, registry, Rows.Holds]
  tauto

theorem ActorDb.survivor_isSuccessor (db : ActorDb) (name : String) (excluded : IpAddr) :
    Registry.IsSuccessor byAddressString db.registry excluded name
      (db.survivor name excluded) := by
  have listed {addr : IpAddr} (rival : db.registry.Rival excluded name addr) :
      addr ∈ db.services.keys.filter (db.isClaimant name excluded) := by
    obtain ⟨row, isRow, -⟩ := rival.2.2
    exact List.mem_filter.mpr ⟨Std.ExtTreeMap.mem_keys.mpr (HashMap.mem_of_get isRow),
      isClaimant_iff.mpr rival⟩
  cases found : db.survivor name excluded with
  | none =>
    intro addr rival
    have member := listed rival
    rw [leastAddress_eq_none.mp found] at member
    cases member
  | some least =>
    obtain ⟨member, first⟩ := leastAddress_spec found
    exact ⟨isClaimant_iff.mp (List.mem_filter.mp member).2, fun addr rival =>
      first addr (listed rival)⟩

/-! ### Each change is a step of one holder -/

section Acts

variable {db next : ActorDb} {ctx : WriteContext} {addr : IpAddr} {actor : Actor}

theorem Removed.acts (removed : Removed addr db next) (wf : db.registry.Wf) :
    Registry.Acts byAddressString db.registry addr next.registry := by
  have claims (b : IpAddr) (n : String) :
      next.services.Holds b n ↔ b ≠ addr ∧ db.services.Holds b n := by
    rw [removed.services.dropped]
    exact Rows.holds_erase
  refine ⟨fun b other => ?_, fun b n other => ?_, fun n claimed => ?_, fun n _ notOwn => ?_,
    fun n _ owns => ?_, fun n claimed => ?_⟩
  · exact removed.present.trans (and_iff_left other)
  · exact (claims b n).trans (and_iff_right other)
  · exact absurd rfl ((claims addr n).mp claimed).1
  · change next.service[n]? = db.service[n]?
    rw [removed.services.entry n, if_neg fun both => notOwn both.2]
  · have listed : db.services.Holds addr n := wf.owned addr n owns
    have entry : next.service[n]? = db.survivor n addr := by
      rw [removed.services.entry n, if_pos ⟨listed, owns⟩]
    change Registry.IsSuccessor byAddressString db.registry addr n next.service[n]?
    rw [entry]
    exact db.survivor_isSuccessor n addr
  · exact absurd rfl ((claims addr n).mp claimed).1

theorem Added.acts (added : Added ctx addr actor db next) (wf : db.registry.Wf)
    (free : addr ∉ db.base) : Registry.Acts byAddressString db.registry addr next.registry := by
  have unlisted (n : String) : ¬ db.services.Holds addr n := fun listed =>
    free (wf.live addr n listed)
  have claims (n : String) : next.services.Holds addr n ↔ n ∈ actor.services := by
    rw [added.services addr n]
    simp [unlisted n]
  refine ⟨fun b other => ?_, fun b n other => ?_, fun n _ => ?_, fun n unclaimed notOwn => ?_,
    fun n _ owns => ?_, fun n claimed => .inl ?_⟩
  · exact added.present.trans (or_iff_right other)
  · exact (added.services b n).trans (by simp [other, registry])
  · exact added.present.mpr (.inl rfl)
  · exact (added.service n).trans (if_neg ((claims n).not.mp unclaimed))
  · exact absurd (wf.owned addr n owns) (unlisted n)
  · exact (added.service n).trans (if_pos ((claims n).mp claimed))

theorem Updated.acts (updated : Updated ctx addr actor db next) (wf : db.registry.Wf) :
    Registry.Acts byAddressString db.registry addr next.registry := by
  have claims (n : String) : next.services.Holds addr n ↔ n ∈ actor.services := by
    rw [updated.services addr n]
    simp
  refine ⟨fun b other => ?_, fun b n other => ?_, fun n _ => ?_, fun n unclaimed notOwn => ?_,
    fun n unclaimed owns => ?_, fun n claimed => ?_⟩
  · exact updated.present.trans (or_iff_right other)
  · exact (updated.services b n).trans (by simp [other, registry])
  · exact updated.present.mpr (.inl rfl)
  · exact (updated.dropped n ((claims n).not.mp unclaimed)).trans
      (if_neg fun both => notOwn both.2)
  · have entry : next.service[n]? = db.survivor n addr :=
      (updated.dropped n ((claims n).not.mp unclaimed)).trans
        (if_pos ⟨wf.owned addr n owns, owns⟩)
    change Registry.IsSuccessor byAddressString db.registry addr n next.service[n]?
    rw [entry]
    exact db.survivor_isSuccessor n addr
  · have entry : next.service[n]? = some (db.service[n]?.getD addr) :=
      updated.kept n ((claims n).mp claimed)
    cases owner : db.service[n]? with
    | none => exact .inl (by rw [owner] at entry; exact entry)
    | some holder =>
      rw [owner] at entry
      by_cases own : holder = addr
      · exact .inl (own ▸ entry)
      · exact .inr ⟨holder, own, owner, entry⟩

theorem Passes.same_registry {policyServiceNames : HashSet String}
    (passes : Passes policyServiceNames db next) : next.registry = db.registry := by
  induction passes with
  | refl => rfl
  | tail _ turn ih =>
    obtain ⟨addr, reclaimed⟩ := turn
    rw [← ih]
    simp only [registry, reclaimed.mem_base, reclaimed.services, reclaimed.service]

/-- Every call is a step of the one actor it is about, or leaves the registry as it is. -/
theorem CallChange.acts {call : RepoCall} (change : CallChange db call next)
    (wf : db.registry.Wf) :
    next.registry = db.registry ∨
      ∃ addr, Registry.Acts byAddressString db.registry addr next.registry := by
  cases change with
  | refused => exact .inl rfl
  | added isAddr free added => exact .inr ⟨_, added.acts wf free⟩
  | @replaced _ actor addr cleared _ isAddr removed added =>
    have leaves := removed.acts wf
    have gone (n : String) : ¬ cleared.registry.claims addr n := by
      intro claimed
      change cleared.services.Holds addr n at claimed
      rw [removed.services.dropped, Rows.holds_erase] at claimed
      exact claimed.1 rfl
    have absent : addr ∉ cleared.base := fun there => (removed.present.mp there).2 rfl
    refine .inr ⟨addr, leaves.after_leaving gone (added.acts (wf.acts leaves) absent) ?_⟩
    intro n claimed
    refine (added.service n).trans (if_pos ?_)
    exact ((added.services addr n).mp claimed).elim (fun before => absurd before (gone n))
      fun both => both.2
  | updated isAddr present updated => exact .inr ⟨_, updated.acts wf⟩
  | removed removed => exact .inr ⟨_, removed.acts wf⟩
  | reconciled passes => exact .inl (Passes.same_registry passes)

end Acts

theorem ActorDb.registry_empty : empty.registry.Wf where
  live addr name claimed := absurd claimed (Rows.not_holds_empty addr name)
  owned addr name owns := by simp [registry, empty] at owns
  covered addr name claimed := absurd claimed (Rows.not_holds_empty addr name)

theorem registry_history (calls : List RepoCall) : (history calls).registry.Wf := by
  have keeps (db : ActorDb) (call : RepoCall) (next : ActorDb) (_ : db.Records)
      (wf : db.registry.Wf) (change : CallChange db call next) : next.registry.Wf := by
    rcases change.acts wf with same | ⟨addr, acts⟩
    · rw [same]
      exact wf
    · exact wf.acts acts
  exact (history_induct registry_empty keeps calls).2

/-! ### Ownership over histories -/

/-- A refresh leaves the entries of others alone. -/
theorem update_keeps_owner (records : db.Records) (ctx : WriteContext) (actor : BuiltActor)
    {owner : IpAddr} (owns : db.service[name]? = some owner) (other : actor.1.zprAddr ≠ some owner)
      :
    (db.after (.updateActor ctx actor)).service[name]? = some owner := by
  have change := after_change records (.updateActor ctx actor)
  generalize db.after (.updateActor ctx actor) = next at change
  cases change with
  | refused => exact owns
  | updated isAddr present updated =>
    by_cases listed : name ∈ actor.1.services
    · rw [updated.kept name listed, owns]
      rfl
    · rw [updated.dropped name listed, if_neg fun both => ?_]
      · exact owns
      · rw [isAddr, ← both.2] at other
        exact other owns

/-- When the owner departs or drops the service, it goes to the first claimant that is left. -/
theorem owner_handed_on (records : db.Records) (wf : db.registry.Wf) (call : RepoCall)
    {owner : IpAddr} (owns : db.service[name]? = some owner)
    (leaves : owner ∉ (db.after call).base ∨ ¬ (db.after call).services.Holds owner name)
    {claimant : IpAddr} (present : claimant ∈ (db.after call).base)
    (listed : (db.after call).services.Holds claimant name) :
    ∃ heir ∈ (db.after call).base, (db.after call).service[name]? = some heir ∧
      (db.after call).services.Holds heir name ∧ byAddressString heir claimant := by
  have change := after_change records call
  generalize db.after call = next at change leaves present listed ⊢
  have before : db.services.Holds owner name := wf.owned owner name owns
  rcases change.acts wf with same | ⟨addr, acts⟩
  · have after : next.registry.claims owner name := by
      rw [same]
      exact before
    have there : next.registry.present owner := by
      rw [same]
      exact wf.live owner name before
    exact (leaves.elim (fun gone => gone there) fun dropped => dropped after).elim
  · have nextWf := wf.acts acts
    have dropped : ¬ next.registry.claims owner name :=
      leaves.elim (fun gone claims => gone (nextWf.live owner name claims)) id
    -- Nobody else can drop it for the owner.
    have own : addr = owner := by
      by_contra apart
      exact dropped ((acts.claims owner name (Ne.symm apart)).mpr before)
    subst own
    obtain ⟨heir, isHeir, heirPresent, heirClaims, first⟩ :=
      acts.handed_on owns dropped ⟨present, listed⟩
    exact ⟨heir, heirPresent, isHeir, heirClaims, first⟩

/-- After every history of calls that do not overlap: a service has an entry exactly when a
present actor lists it, the entry names such an actor, an update by another actor does not
change it, and when its owner departs or drops the service it moves to the present claimant
with the least address string. -/
theorem services_owned (calls : List RepoCall) :
    (∀ name, name ∈ (history calls).service ↔
      ∃ addr ∈ (history calls).base,
        (history calls).services.Holds addr name) ∧
    (∀ name addr, (history calls).service[name]? = some addr →
      addr ∈ (history calls).base ∧
        (history calls).services.Holds addr name) ∧
    (∀ (ctx : WriteContext) (actor : BuiltActor) (name : String) (owner : IpAddr),
      (history calls).service[name]? = some owner → actor.1.zprAddr ≠ some owner →
        (history (calls ++ [.updateActor ctx actor])).service[name]? = some owner) ∧
    (∀ (call : RepoCall) (name : String) (owner : IpAddr),
      (history calls).service[name]? = some owner →
      owner ∉ (history (calls ++ [call])).base ∨
        ¬ (history (calls ++ [call])).services.Holds owner name →
      ∀ claimant ∈ (history (calls ++ [call])).base,
        (history (calls ++ [call])).services.Holds claimant name →
        ∃ heir ∈ (history (calls ++ [call])).base,
          (history (calls ++ [call])).service[name]? = some heir ∧
          (history (calls ++ [call])).services.Holds heir name ∧
          heir.display ≤ claimant.display) := by
  have wf := registry_history calls
  have records := records_history calls
  have extended (call : RepoCall) :
      history (calls ++ [call]) = (history calls).after call := by
    simp [history]
  refine ⟨fun name => ?_, fun name addr owns => ?_, fun ctx actor name owner owns other => ?_,
    fun call name owner owns leaves claimant present listed => ?_⟩
  · rw [Std.ExtTreeMap.mem_iff_isSome_getElem?, Option.isSome_iff_ne_none]
    exact wf.owned_iff name
  · have claims := wf.owned addr name owns
    exact ⟨wf.live addr name claims, claims⟩
  · rw [extended]
    exact update_keeps_owner records ctx actor owns other
  · rw [extended] at leaves present listed ⊢
    exact owner_handed_on records wf call owns leaves present listed

end VisaService
