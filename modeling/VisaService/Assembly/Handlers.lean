import VisaService.Assembly.Departure
import VisaService.Assembly.Site

/-!
# What the handlers of a connect do

One lemma for each handler that a connect goes through, with all its outcomes. The invariants of
connects are proved from these and do not look into the handlers again.
-/
namespace VisaService

open Lib

variable {codec : VisaCodec}

namespace Site

variable {site next base docked : Site codec} {answer : ConnectAnswer} {actor : Actor}
  {addr node other : IpAddr} {result : Except ServiceError Unit}

/-! ### Records -/

def withRecord (site : Site codec) (addr : IpAddr) (actor : Actor) : Site codec :=
  { site with asm := { site.asm with actors := site.asm.actors.insert addr actor } }

def withoutRecord (site : Site codec) (addr : IpAddr) : Site codec :=
  { site with asm := { site.asm with actors := site.asm.actors.erase addr } }

/-- A node that connects afresh starts without its old state. -/
def withoutState (site : Site codec) (addr : IpAddr) : Site codec :=
  { site with
    asm := { site.asm with connections := site.asm.connections.erase addr }
    nodes := site.nodes.erase addr }

/-- How far the write of a node's records gets. -/
inductive Stores (answer : ConnectAnswer) (actor : Actor) (addr : IpAddr) (reconnect : Bool)
    (base : Site codec) : Except ServiceError Unit → Site codec → Prop
  | unwritten (failure : ServiceError) (fails : answer.write ≠ .done) :
    Stores answer actor addr reconnect base (.error failure) base
  | cleared (failure : ServiceError) (fails : answer.write ≠ .done) (fresh : reconnect = false) :
    Stores answer actor addr reconnect base (.error failure) (base.withoutRecord addr)
  | unlisted (failure : ServiceError)
      (fails : answer.write = .partly ∨ answer.write = .done ∧ answer.nodeFails = true) :
    Stores answer actor addr reconnect base (.error failure) (base.withRecord addr actor)
  | listed (result : Except ServiceError Unit) (written : answer.write = .done)
      (node : answer.nodeFails = false) (seen : result = .ok () ↔ answer.seenFails = false) :
    Stores answer actor addr reconnect base result
      { base.withRecord addr actor with nodes := base.nodes.insert addr }

/-- A reconnect rewrites the record of a node. A fresh connect drops the node's old state
first. -/
theorem addNode_cases (site : Site codec) (answer : ConnectAnswer) (actor : Actor) (addr : IpAddr)
    (reconnect : Bool) :
    (∃ failure, site.addNode answer actor addr reconnect = (.error failure, site) ∧
      (reconnect = true ∨ answer.dropFails = true ∨ actor.isNode = false)) ∨
    actor.isNode = true ∧ ∃ base result next,
      site.addNode answer actor addr reconnect = (result, next) ∧
      Stores answer actor addr reconnect base result next ∧
      (reconnect = true ∧ base = site ∧
          (∃ holder, site.asm.actors[addr]? = some holder ∧ holder.isNode = true) ∨
        reconnect = false ∧ answer.dropFails = false ∧ base = site.withoutState addr) := by
  -- What follows the record is the same either way.
  have ends (base : Site codec) (written : answer.write = .done) : ∃ result next,
      (if answer.nodeFails then (.error (.store .redis), base.withRecord addr actor)
        else if answer.seenFails then (.error (.store .redis),
          { base.withRecord addr actor with nodes := base.nodes.insert addr })
        else (.ok (), { base.withRecord addr actor with nodes := base.nodes.insert addr })) =
        (result, next) ∧
      Stores answer actor addr reconnect base result next := by
    split
    next nodeFails => exact ⟨_, _, rfl, .unlisted _ (.inr ⟨written, nodeFails⟩)⟩
    next nodeDone =>
      split
      next seenFails =>
        exact ⟨_, _, rfl, .listed _ written (by simpa using nodeDone) (by simp [seenFails])⟩
      next seenDone =>
        exact ⟨_, _, rfl, .listed _ written (by simpa using nodeDone) (by simpa using seenDone)⟩
  unfold addNode
  split
  next notNode => exact .inl ⟨_, rfl, .inr (.inr (by simpa using notNode))⟩
  next isNode =>
    have isNode : actor.isNode = true := by simpa using isNode
    unfold persistNode
    cases reconnect with
    | true =>
      rw [if_pos rfl]
      unfold Assembly.updateActor
      cases found : site.asm.actors[addr]? with
      | none => exact .inl ⟨_, rfl, .inl rfl⟩
      | some holder =>
        dsimp only
        by_cases sameRole : holder.isNode = actor.isNode
        · have again : true = true ∧ site = site ∧
              ∃ held, some holder = some held ∧ held.isNode = true :=
            ⟨rfl, rfl, holder, rfl, sameRole.trans isNode⟩
          refine .inr ⟨isNode, site, ?_⟩
          rw [if_neg (not_not_intro sameRole)]
          cases written : answer.write with
          | done =>
            obtain ⟨result, next, isDone, stores⟩ := ends site written
            exact ⟨result, next, isDone, stores, .inl again⟩
          | partly => exact ⟨_, _, rfl, .unlisted _ (.inl written), .inl again⟩
          | unchanged | cleared => exact ⟨_, _, rfl, .unwritten _ (by simp [written]), .inl again⟩
        · rw [if_pos sameRole]
          exact .inl ⟨_, rfl, .inl rfl⟩
    | false =>
      rw [if_neg Bool.false_ne_true]
      cases drops : answer.dropFails with
      | true => exact .inl ⟨_, rfl, .inr (.inl rfl)⟩
      | false =>
        refine .inr ⟨isNode, site.withoutState addr, ?_⟩
        rw [if_neg Bool.false_ne_true]
        unfold Assembly.addActor
        cases written : answer.write with
        | done =>
          obtain ⟨result, next, isDone, stores⟩ := ends (site.withoutState addr) written
          exact ⟨result, next, isDone, stores, .inr ⟨rfl, rfl, rfl⟩⟩
        | partly => exact ⟨_, _, rfl, .unlisted _ (.inl written), .inr ⟨rfl, rfl, rfl⟩⟩
        | unchanged => exact ⟨_, _, rfl, .unwritten _ (by simp [written]), .inr ⟨rfl, rfl, rfl⟩⟩
        | cleared => exact ⟨_, _, rfl, .cleared _ (by simp [written]) rfl, .inr ⟨rfl, rfl, rfl⟩⟩

theorem addAdapterViaNode_cases (site : Site codec) (answer : ConnectAnswer) (actor : Actor)
    (addr via : IpAddr) :
    (∃ failure, site.addAdapterViaNode answer actor addr via = (.error failure, site) ∧
      (answer.write = .done → isVisaService addr actor = false ∧ addr ∈ site.asm.actors)) ∨
    (∃ failure, site.addAdapterViaNode answer actor addr via =
      (.error failure, site.withoutRecord addr) ∧ answer.write = .cleared) ∨
    (∃ failure, site.addAdapterViaNode answer actor addr via =
      (.error failure, site.withRecord addr actor) ∧ answer.write = .partly) ∨
    answer.write = .done ∧ (isVisaService addr actor = true ∨ addr ∉ site.asm.actors) ∧
      ((∃ failure, site.addAdapterViaNode answer actor addr via =
          (.error failure, site.withRecord addr actor) ∧ answer.dockFails = true) ∨
        site.addAdapterViaNode answer actor addr via = (.ok (), { site.withRecord addr actor with
          asm := (site.withRecord addr actor).asm.dock via addr }) ∧ answer.dockFails = false) := by
  unfold addAdapterViaNode Assembly.addActor
  cases answer.write with
  | unchanged => exact .inl ⟨_, rfl, nofun⟩
  | cleared => exact .inr (.inl ⟨_, rfl, rfl⟩)
  | partly => exact .inr (.inr (.inl ⟨_, rfl, rfl⟩))
  | done =>
    dsimp only
    by_cases occupied : isVisaService addr actor = false ∧ addr ∈ site.asm.actors
    · rw [if_pos (by simpa using occupied)]
      exact .inl ⟨_, rfl, fun _ => occupied⟩
    · rw [if_neg (by simpa using occupied)]
      refine .inr (.inr (.inr ⟨rfl, ?_, ?_⟩))
      · by_contra neither
        exact occupied (by simpa using neither)
      · cases answer.dockFails with
        | true => exact .inl ⟨_, rfl, rfl⟩
        | false => exact .inr ⟨rfl, rfl⟩

/-! ### The rest -/

theorem resetNodeState_cases (site : Site codec) (addr : IpAddr) :
    site.asm.answer.adaptersFail = true ∧
      site.resetNodeState addr = (.error (.store .redis), site) ∨
    site.asm.answer.adaptersFail = false ∧ ∃ docked result visas router,
      docked = site.asm.answer.order.list (site.asm.connections[addr]?.getD ∅) ∧
      site.resetNodeState addr = (result, { site with
        asm := { (site.asm.removeDepartedAdapters docked).2 with visas }, router }) ∧
      (result = .ok () ∧ router = site.router.erase addr ∨
        (∃ failure, result = .error failure) ∧ router = site.router) := by
  unfold resetNodeState
  split
  next fails => exact .inl ⟨fails, rfl⟩
  next reads =>
    refine .inr ⟨Bool.eq_false_iff.mpr reads,
      site.asm.answer.order.list (site.asm.connections[addr]?.getD ∅), ?_⟩
    dsimp only
    split
    · exact ⟨_, _, _, rfl, rfl, .inr ⟨⟨_, rfl⟩, rfl⟩⟩
    · exact ⟨_, _, _, rfl, rfl, .inl ⟨rfl, rfl⟩⟩

/-- At most the visa service has been docked at the node. -/
structure Docks (addr : IpAddr) (site docked : Site codec) : Prop where
  asm : docked.asm = site.asm ∨ docked.asm = site.asm.dock addr vsZprAddr
  nodes : docked.nodes = site.nodes

theorem Docks.actors (docks : Docks addr site docked) : docked.asm.actors = site.asm.actors := by
  rcases docks.asm with same | same <;> rw [same]
  rfl

theorem Docks.sameAnswer (docks : Docks addr site docked) : docked.asm.answer = site.asm.answer := by
  rcases docks.asm with same | same <;> rw [same]
  rfl

theorem Docks.sameVs (docks : Docks addr site docked) : docked.asm.vsAddr = site.asm.vsAddr := by
  rcases docks.asm with same | same <;> rw [same]
  rfl

theorem dockVisaService_docks (isDocked : site.dockVisaService answer addr = (result, docked)) :
    Docks addr site docked ∧ (result ≠ .ok () → answer.dockFails = true) := by
  have unmoved {done : Except ServiceError Unit} (isOk : done = .ok ())
      (same : (done, site) = (result, docked)) :
      Docks addr site docked ∧ (result ≠ .ok () → answer.dockFails = true) := by
    cases same
    exact ⟨⟨.inl rfl, rfl⟩, fun failed => absurd isOk failed⟩
  unfold dockVisaService at isDocked
  split at isDocked
  · exact unmoved rfl isDocked
  split at isDocked
  · exact unmoved rfl isDocked
  split at isDocked
  · exact unmoved rfl isDocked
  · split at isDocked
    next fails =>
      cases isDocked
      exact ⟨⟨.inl rfl, rfl⟩, fun _ => fails⟩
    · cases isDocked
      exact ⟨⟨.inr rfl, rfl⟩, fun failed => absurd rfl failed⟩

theorem enforce_cases (site : Site codec) (denylistFails : Bool) (actor : Actor) :
    site.enforceDenylistAfterPersist denylistFails actor = (.ok (), site) ∨
    actor.getCn ≠ some vsCn ∧ (∃ failure,
      (site.enforceDenylistAfterPersist denylistFails actor).1 = .error failure) ∧
      ((site.enforceDenylistAfterPersist denylistFails actor).2 = site ∧ actor.zprAddr = none ∨
        ∃ addr, actor.zprAddr = some addr ∧
          (site.enforceDenylistAfterPersist denylistFails actor).2 = (site.disconnect addr).2) := by
  unfold enforceDenylistAfterPersist
  split
  · split
    · exact .inl rfl
    next cn isCn =>
      split
      · exact .inl rfl
      next notVs =>
        split
        · refine .inr ⟨fun isVs => notVs (Option.some.inj (isCn.symm.trans isVs)), ⟨_, rfl⟩, ?_⟩
          cases own : actor.zprAddr with
          | none => exact .inl ⟨rfl, rfl⟩
          | some addr => exact .inr ⟨addr, rfl, rfl⟩
        · exact .inl rfl
  · exact .inl rfl

end Site

end VisaService
