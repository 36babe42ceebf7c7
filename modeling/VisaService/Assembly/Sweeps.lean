import VisaService.Assembly.State
import VisaService.Lib.Prog

/-!
# The authentication sweeps

Three passes look for connected actors that have to go: those whose authentication has expired,
those that have missed the deadline of a policy's re-authentication, and those that were
admitted under a bootstrap name on the denylist. Adapters are revoked on their docking node in
one batch per node, and removed when the node has answered; nodes are disconnected.

A sweep is a program over the calls it makes to the managers, the database and the nodes.
-/
namespace VisaService

open Lib

/-! ### Calls -/

inductive SweepCall : Type → Type
  | listActors (role : Option Role) : SweepCall (Except ServiceError (List IpAddr))
  | getActor (addr : IpAddr) : SweepCall (Except ServiceError (Option Actor))
  | dockingNode (actor : Actor) : SweepCall (Option IpAddr)
  | clock : SweepCall Nat
  /-- Policy instance and deadline of each pending obligation. -/
  | listObligations : SweepCall (Except ServiceError (List (Nat × Nat)))
  | removeObligation (vinst : Nat) : SweepCall (Except ServiceError Unit)
  | listDenied : SweepCall (Except ServiceError (HashSet String))
  | getHandle (node : IpAddr) : SweepCall Bool
  | revokeAuths (node : IpAddr) (addrs : List IpAddr) : SweepCall (Except ServiceError Nat)
  | requestAuths (node : IpAddr) (addrs : List IpAddr) : SweepCall (Except ServiceError Unit)
  | removeActor (addr : IpAddr) : SweepCall (Except ServiceError Unit)
  | disconnect (addr : IpAddr) : SweepCall (Except ServiceError Unit)

abbrev SweepProg : Type → Type 1 := Prog SweepCall Empty

variable {codec : VisaCodec}

/-- A node revokes the first entries of a batch and answers how many. -/
def Assembly.revokeAuths (asm : Assembly codec) (node : IpAddr) (addrs : List IpAddr) :
    Except ServiceError Nat × Assembly codec :=
  match asm.answer.processed with
  | none => (.error (.internal "connection closed"), asm)
  | some processed =>
    (.ok processed, { asm with
      revoked := (addrs.take processed).map (fun addr => (node, addr)) ++ asm.revoked })

def SweepCall.exec {β : Type} (call : SweepCall β) (asm : Assembly codec) : β × Assembly codec :=
  match call with
  | .listActors role => (asm.listActors role, { asm with listed := true })
  | .getActor addr => (asm.getActorByZprAddr addr, asm)
  | .dockingNode actor => (asm.getDockingNodeForActor actor, asm)
  | .clock => (asm.visas.now, { asm with listed := false })
  | .listObligations =>
    (if asm.answer.fails then .error (.store .redis) else .ok asm.obligations.toList, asm)
  | .removeObligation vinst =>
    if asm.answer.fails then (.error (.store .redis), asm)
    else (.ok (), { asm with obligations := asm.obligations.erase vinst })
  | .listDenied => (if asm.answer.fails then .error (.store .redis) else .ok asm.denied, asm)
  | .getHandle node => (decide (node ∈ asm.handles), asm)
  | .revokeAuths node addrs => asm.revokeAuths node addrs
  | .requestAuths _ _ =>
    (if asm.answer.processed.isNone then .error (.internal "connection closed") else .ok (), asm)
  | .removeActor addr => asm.removeActorByZprAddr addr
  | .disconnect addr => asm.disconnect addr

open Prog (lift)

def pushBatch {α : Type} (byNode : HashMap IpAddr (List α)) (node : IpAddr) (entry : α) :
    HashMap IpAddr (List α) :=
  byNode.insert node (byNode[node]?.getD [] ++ [entry])

/-! ### Expired authentications -/

/-- The first of the credentials that expires soonest, with its key. -/
def Actor.getAuthenticationExpirationWithGate (actor : Actor) : Option (Nat × String) :=
  let credentials := ([Key.deviceAuthority, Key.userAuthority] ++ actor.identityKeys).filterMap
    fun key => actor.attrs[key]?.map fun attr => (attr.expiresAt, key)
  credentials.foldl (fun soonest credential =>
    match soonest with
    | none => some credential
    | some gate => if credential.1 < gate.1 then some credential else some gate) none

structure SweepStats where
  checked : Nat
  revoked : Nat
  deferred : Nat
  deriving DecidableEq, Repr

structure Expired where
  addr : IpAddr
  expiry : Nat
  gate : String

/-- First phase: the expired adapters by docking node. -/
def collectExpired (now : Nat) :
    List IpAddr → HashMap IpAddr (List Expired) → SweepStats →
      SweepProg (HashMap IpAddr (List Expired) × SweepStats)
  | [], byNode, stats => pure (byNode, stats)
  | addr :: rest, byNode, stats => do
    match ← lift (.getActor addr) with
    | .ok none => collectExpired now rest byNode stats
    | .error _ => collectExpired now rest byNode stats
    | .ok (some actor) =>
      let stats := { stats with checked := stats.checked + 1 }
      match actor.getAuthenticationExpirationWithGate with
      | none => collectExpired now rest byNode stats
      | some (expiry, gate) =>
        if now < expiry then collectExpired now rest byNode stats
        else
          match ← lift (.dockingNode actor) with
          | none => collectExpired now rest byNode { stats with deferred := stats.deferred + 1 }
          | some node =>
            collectExpired now rest (pushBatch byNode node ⟨addr, expiry, gate⟩) stats

/-- Remove the adapters of a batch whose expiration is still the same. -/
def removeExpired : List Expired → SweepStats → SweepProg SweepStats
  | [], stats => pure stats
  | entry :: rest, stats => do
    match ← lift (.getActor entry.addr) with
    | .ok none => removeExpired rest stats
    | .error _ => removeExpired rest { stats with deferred := stats.deferred + 1 }
    | .ok (some actor) =>
      if actor.getAuthenticationExpirationWithGate.map Prod.fst ≠ some entry.expiry then
        removeExpired rest stats
      else
        match ← lift (.removeActor entry.addr) with
        | .error _ => removeExpired rest stats
        | .ok _ => removeExpired rest { stats with revoked := stats.revoked + 1 }

/-- Second phase: one revocation per node. The number that the node has processed is not looked
at. -/
def revokeExpired : List (IpAddr × List Expired) → SweepStats → SweepProg SweepStats
  | [], stats => pure stats
  | (node, expired) :: rest, stats => do
    let deferred := { stats with deferred := stats.deferred + expired.length }
    if ← lift (.getHandle node) then
      match ← lift (.revokeAuths node (expired.map Expired.addr)) with
      | .ok _ => do
        let stats ← removeExpired expired stats
        revokeExpired rest stats
      | .error _ => revokeExpired rest deferred
    else revokeExpired rest deferred

def sweepExpiredAuths : SweepProg SweepStats := do
  match ← lift (.listActors (some .adapter)) with
  | .error _ => pure ⟨0, 0, 0⟩
  | .ok entries =>
    let now ← lift .clock
    let (byNode, stats) ← collectExpired now entries ∅ ⟨0, 0, 0⟩
    revokeExpired byNode.toList stats

/-! ### Obligations to re-authenticate -/

/-- `str::parse::<u64>`. -/
def parseU64 (text : String) : Option Nat :=
  let digits := match text.toList with
    | '+' :: rest => rest
    | chars => chars
  if digits.isEmpty || !digits.all Char.isDigit then none
  else
    let value := digits.foldl (fun value digit => value * 10 + (digit.toNat - '0'.toNat)) 0
    if value < 2 ^ 64 then some value else none

/-- The policy instance an actor was last authenticated under. -/
def actorVinst (actor : Actor) : Nat :=
  ((actor.attrs[Key.vinst]?.bind Attribute.getSingleValue).bind parseU64).getD 0

structure ReauthSweepStats where
  obligations : Nat
  pruned : Nat
  requested : Nat
  revoked : Nat
  deferred : Nat
  deriving DecidableEq, Repr

/-- A connected actor as the sweep sees it. -/
structure ReauthEntry where
  addr : IpAddr
  vinst : Nat
  isNode : Bool
  dock : Option IpAddr

/-- The visa service authenticates itself and is exempt. -/
def isVisaService (addr : IpAddr) (actor : Actor) : Bool :=
  actor.getCn == some vsCn && addr == vsZprAddr

def loadEntries : List IpAddr → List ReauthEntry → SweepProg (List ReauthEntry)
  | [], entries => pure entries
  | addr :: rest, entries => do
    match ← lift (.getActor addr) with
    | .ok none => loadEntries rest entries
    | .error _ => loadEntries rest entries
    | .ok (some actor) =>
      if isVisaService addr actor then loadEntries rest entries
      else
        let dock ← lift (.dockingNode actor)
        loadEntries rest (entries ++ [⟨addr, actorVinst actor, actor.isNode, dock⟩])

/-- Remove the obligations that every entry meets; the others are returned. -/
def pruneObligations (entries : List ReauthEntry) :
    List (Nat × Nat) → List (Nat × Nat) → ReauthSweepStats →
      SweepProg (List (Nat × Nat) × ReauthSweepStats)
  | [], unmet, stats => pure (unmet, stats)
  | (vinst, deadline) :: rest, unmet, stats =>
    if entries.all fun entry => vinst ≤ entry.vinst then do
      match ← lift (.removeObligation vinst) with
      | .error _ => pruneObligations entries rest unmet stats
      | .ok _ => pruneObligations entries rest unmet { stats with pruned := stats.pruned + 1 }
    else pruneObligations entries rest (unmet ++ [(vinst, deadline)]) stats

/-- Overdue nodes are looked up again and disconnected. -/
def disconnectOverdue (required : Nat) : List ReauthEntry → List IpAddr → ReauthSweepStats →
    SweepProg (List IpAddr × ReauthSweepStats)
  | [], gone, stats => pure (gone, stats)
  | entry :: rest, gone, stats => do
    match ← lift (.getActor entry.addr) with
    | .ok none => disconnectOverdue required rest gone stats
    | .error _ =>
      disconnectOverdue required rest gone { stats with deferred := stats.deferred + 1 }
    | .ok (some actor) =>
      if required ≤ actorVinst actor then disconnectOverdue required rest gone stats
      else
        match ← lift (.disconnect entry.addr) with
        | .ok _ =>
          disconnectOverdue required rest (gone ++ [entry.addr])
            { stats with revoked := stats.revoked + 1 }
        | .error _ =>
          disconnectOverdue required rest gone { stats with deferred := stats.deferred + 1 }

/-- Entries by docking node, without those of the nodes that have just gone. -/
def batchEntries {α β : Type} (dock : α → Option IpAddr) (item : α → β) (gone : List IpAddr)
    (entries : List α) : HashMap IpAddr (List β) :=
  entries.foldl (fun byNode entry =>
    match dock entry with
    | none => byNode
    | some node => if gone.contains node then byNode else pushBatch byNode node (item entry)) ∅

def countUndocked {α : Type} (dock : α → Option IpAddr) (entries : List α) : Nat :=
  (entries.filter fun entry => (dock entry).isNone).length

/-- Remove the adapters that have not re-authenticated meanwhile. -/
def removeOverdue (required : Nat) : List IpAddr → ReauthSweepStats → SweepProg ReauthSweepStats
  | [], stats => pure stats
  | addr :: rest, stats => do
    match ← lift (.getActor addr) with
    | .ok none => removeOverdue required rest stats
    | .error _ => removeOverdue required rest { stats with deferred := stats.deferred + 1 }
    | .ok (some actor) =>
      if required ≤ actorVinst actor then removeOverdue required rest stats
      else
        match ← lift (.removeActor addr) with
        | .error _ => removeOverdue required rest stats
        | .ok _ => removeOverdue required rest { stats with revoked := stats.revoked + 1 }

/-- Only the first entries that the node has processed are removed. -/
def revokeOverdue (required : Nat) : List (IpAddr × List IpAddr) → ReauthSweepStats →
    SweepProg ReauthSweepStats
  | [], stats => pure stats
  | (node, addrs) :: rest, stats => do
    let deferred := { stats with deferred := stats.deferred + addrs.length }
    if ← lift (.getHandle node) then
      match ← lift (.revokeAuths node addrs) with
      | .ok processed => do
        let short := { stats with deferred := stats.deferred + (addrs.length - processed) }
        let stats ← removeOverdue required (addrs.take processed) short
        revokeOverdue required rest stats
      | .error _ => revokeOverdue required rest deferred
    else revokeOverdue required rest deferred

/-- Ask again for the authentications that are still owed. -/
def requestPending : List (IpAddr × List IpAddr) → ReauthSweepStats → SweepProg ReauthSweepStats
  | [], stats => pure stats
  | (node, addrs) :: rest, stats => do
    if ← lift (.getHandle node) then
      match ← lift (.requestAuths node addrs) with
      | .ok _ => requestPending rest { stats with requested := stats.requested + addrs.length }
      | .error _ => requestPending rest stats
    else requestPending rest stats

/-- First phase: revoke the actors that have missed an overdue deadline. -/
def enforceOverdue (entries : List ReauthEntry) (required : Nat) (stats : ReauthSweepStats) :
    SweepProg (List IpAddr × ReauthSweepStats) := do
  let overdue := entries.filter fun entry => entry.vinst < required
  let (gone, stats) ← disconnectOverdue required (overdue.filter ReauthEntry.isNode) [] stats
  let adapters := overdue.filter fun entry => !entry.isNode
  let undocked := { stats with
    deferred := stats.deferred + countUndocked ReauthEntry.dock adapters }
  let byNode := batchEntries ReauthEntry.dock ReauthEntry.addr gone adapters
  let stats ← revokeOverdue required byNode.toList undocked
  pure (gone, stats)

/-- The passes after the obligations that are met have been pruned. -/
def enforceUnmet (entries : List ReauthEntry) (unmet : List (Nat × Nat))
    (stats : ReauthSweepStats) : SweepProg ReauthSweepStats := do
  let now ← lift .clock
  let overdue := (unmet.filter fun ob => ob.2 * nanosPerSec < now).map Prod.fst
  let (gone, stats) ← match overdue.max? with
    | some required => enforceOverdue entries required stats
    | none => pure ([], stats)
  match (unmet.map Prod.fst).max? with
  | some required =>
    let owing := entries.filter fun entry => entry.vinst < required
    let byNode := batchEntries ReauthEntry.dock ReauthEntry.addr gone owing
    requestPending byNode.toList stats
  | none => pure stats

def sweepReauthObligations : SweepProg ReauthSweepStats := do
  match ← lift .listObligations with
  | .error _ => pure ⟨0, 0, 0, 0, 0⟩
  | .ok obligations =>
    if obligations.isEmpty then pure ⟨0, 0, 0, 0, 0⟩
    else
      let stats : ReauthSweepStats := ⟨obligations.length, 0, 0, 0, 0⟩
      match ← lift (.listActors none) with
      | .error _ => pure stats
      | .ok listed =>
        let entries ← loadEntries listed []
        let (unmet, stats) ← pruneObligations entries obligations [] stats
        enforceUnmet entries unmet stats

/-! ### The denylist -/

structure DenylistSweepStats where
  checked : Nat
  revoked : List (IpAddr × String)
  deferred : Nat
  deriving DecidableEq, Repr

structure DeniedEntry where
  addr : IpAddr
  cn : String
  isNode : Bool
  dock : Option IpAddr

def authorityMethodBootstrap : String := "zpr-bootstrap"

/-- The denied name under which the actor was admitted, if any: the name of an actor without a
bootstrap authority is a mere label. -/
def deniedCn (denied : HashSet String) (addr : IpAddr) (actor : Actor) : Option String :=
  if isVisaService addr actor then none
  else if (actor.attrs[Key.deviceAuthority]?.bind Attribute.getSingleValue) =
      some authorityMethodBootstrap then
    actor.getCn.filter fun cn => decide (cn ∈ denied)
  else none

def matchDenied (denied : HashSet String) :
    List IpAddr → List DeniedEntry → DenylistSweepStats →
      SweepProg (List DeniedEntry × DenylistSweepStats)
  | [], found, stats => pure (found, stats)
  | addr :: rest, found, stats => do
    match ← lift (.getActor addr) with
    | .ok none => matchDenied denied rest found stats
    | .error _ => matchDenied denied rest found stats
    | .ok (some actor) =>
      let stats := { stats with checked := stats.checked + 1 }
      match deniedCn denied addr actor with
      | none => matchDenied denied rest found stats
      | some cn =>
        let dock ← lift (.dockingNode actor)
        matchDenied denied rest (found ++ [⟨addr, cn, actor.isNode, dock⟩]) stats

def disconnectDenied : List DeniedEntry → List IpAddr → DenylistSweepStats →
    SweepProg (List IpAddr × DenylistSweepStats)
  | [], gone, stats => pure (gone, stats)
  | entry :: rest, gone, stats => do
    match ← lift (.disconnect entry.addr) with
    | .ok _ =>
      disconnectDenied rest (gone ++ [entry.addr])
        { stats with revoked := stats.revoked ++ [(entry.addr, entry.cn)] }
    | .error _ => disconnectDenied rest gone { stats with deferred := stats.deferred + 1 }

def removeDenied : List (IpAddr × String) → DenylistSweepStats → SweepProg DenylistSweepStats
  | [], stats => pure stats
  | (addr, cn) :: rest, stats => do
    match ← lift (.removeActor addr) with
    | .error _ => removeDenied rest stats
    | .ok _ => removeDenied rest { stats with revoked := stats.revoked ++ [(addr, cn)] }

/-- Only the first entries that the node has processed are removed. -/
def revokeDenied : List (IpAddr × List (IpAddr × String)) → DenylistSweepStats →
    SweepProg DenylistSweepStats
  | [], stats => pure stats
  | (node, entries) :: rest, stats => do
    let deferred := { stats with deferred := stats.deferred + entries.length }
    if ← lift (.getHandle node) then
      match ← lift (.revokeAuths node (entries.map Prod.fst)) with
      | .ok processed => do
        let short := { stats with deferred := stats.deferred + (entries.length - processed) }
        let stats ← removeDenied (entries.take processed) short
        revokeDenied rest stats
      | .error _ => revokeDenied rest deferred
    else revokeDenied rest deferred

def sweepDenylistedActors : SweepProg DenylistSweepStats := do
  match ← lift .listDenied with
  | .error _ => pure ⟨0, [], 0⟩
  | .ok denied =>
    if denied.isEmpty then pure ⟨0, [], 0⟩
    else
      match ← lift (.listActors none) with
      | .error _ => pure ⟨0, [], 0⟩
      | .ok listed =>
        let (found, stats) ← matchDenied denied listed [] ⟨0, [], 0⟩
        let (gone, stats) ← disconnectDenied (found.filter DeniedEntry.isNode) [] stats
        let adapters := found.filter fun entry => !entry.isNode
        let undocked := { stats with
          deferred := stats.deferred + countUndocked DeniedEntry.dock adapters }
        let byNode := batchEntries DeniedEntry.dock (fun entry => (entry.addr, entry.cn)) gone
          adapters
        revokeDenied byNode.toList undocked

/-! ### What the loops aim at -/

/-- The call removes or disconnects the actor at the address. -/
def SweepCall.Targets (addr : IpAddr) : {β : Type} → SweepCall β → Prop
  | _, .removeActor other => other = addr
  | _, .disconnect other => other = addr
  | _, _ => False

/-- Only one call takes obligations away. -/
def Unpruning {β : Type} : SweepCall β → Prop
  | .removeObligation _ => False
  | _ => True

/-- A call that aims at nobody changes obligations and bookkeeping at most. -/
theorem SweepCall.exec_cases {β : Type} (call : SweepCall β) (asm : Assembly codec) :
    (∃ addr, call.Targets addr) ∨ ∃ obligations revoked listed,
      (call.exec asm).2 = { asm with obligations, revoked, listed } := by
  cases call with
  | removeActor addr | disconnect addr => exact .inl ⟨addr, rfl⟩
  | removeObligation vinst =>
    right
    dsimp only [exec]
    split <;> exact ⟨_, _, _, rfl⟩
  | revokeAuths node addrs =>
    right
    dsimp only [exec, Assembly.revokeAuths]
    split <;> exact ⟨_, _, _, rfl⟩
  | _ => exact .inr ⟨_, _, _, rfl⟩

/-- The call aims only at such addresses, and prunes no obligation. -/
def SweepCall.Within (ok : IpAddr → Prop) {β : Type} (call : SweepCall β) : Prop :=
  (∀ addr, call.Targets addr → ok addr) ∧ Unpruning call

section Batches

variable {α β : Type}

variable {node : IpAddr} {item : α → β} {items : List β} {gone : List IpAddr} {entries : List α}
variable {value : β}

theorem mem_pushBatch {byNode : HashMap IpAddr (List α)} {other : IpAddr} {entry item : α}
    {items : List α} (isBatch : (other, items) ∈ (pushBatch byNode node entry).toList)
    (member : item ∈ items) :
    other = node ∧ item = entry ∨ ∃ before, (other, before) ∈ byNode.toList ∧ item ∈ before := by
  rw [Std.ExtTreeMap.mem_toList_iff_getElem?_eq_some] at isBatch
  rcases HashMap.of_get_insert isBatch with ⟨rfl, rfl⟩ | ⟨-, isBatch⟩
  · rcases List.mem_append.mp member with before | new
    · cases found : byNode[other]? with
      | none => simp [found] at before
      | some earlier =>
        rw [found] at before
        exact .inr ⟨earlier, Std.ExtTreeMap.mem_toList_iff_getElem?_eq_some.mpr found, before⟩
    · exact .inl ⟨rfl, List.mem_singleton.mp new⟩
  · exact .inr ⟨items, Std.ExtTreeMap.mem_toList_iff_getElem?_eq_some.mpr isBatch, member⟩

theorem mem_batches {dock : α → Option IpAddr} (member : value ∈ items)
    {byNode : HashMap IpAddr (List β)}
    (isBatch : (node, items) ∈ (entries.foldl (fun byNode entry =>
      match dock entry with
      | none => byNode
      | some node => if gone.contains node then byNode else pushBatch byNode node (item entry))
      byNode).toList) :
    (∃ entry ∈ entries, dock entry = some node ∧ value = item entry) ∨
      ∃ before, (node, before) ∈ byNode.toList ∧ value ∈ before := by
  induction entries generalizing byNode with
  | nil => exact .inr ⟨items, isBatch, member⟩
  | cons entry rest ih =>
    rcases ih isBatch with ⟨other, isOther, same⟩ | ⟨before, isBefore, inBefore⟩
    · exact .inl ⟨other, List.mem_cons_of_mem _ isOther, same⟩
    dsimp only at isBefore
    split at isBefore
    · exact .inr ⟨before, isBefore, inBefore⟩
    next isDock =>
      split at isBefore
      · exact .inr ⟨before, isBefore, inBefore⟩
      · rcases mem_pushBatch isBefore inBefore with ⟨rfl, same⟩ | earlier
        · exact .inl ⟨entry, List.mem_cons_self, isDock, same⟩
        · exact .inr earlier

/-- What is in a batch comes from an entry with that dock. -/
theorem mem_batchEntries {dock : α → Option IpAddr}
    (isBatch : (node, items) ∈ (batchEntries dock item gone entries).toList)
    (member : value ∈ items) : ∃ entry ∈ entries, dock entry = some node ∧ value = item entry := by
  rcases mem_batches member isBatch with fromEntry | ⟨before, isBefore, -⟩
  · exact fromEntry
  · simp at isBefore

end Batches

section Within

open Prog

variable {ok : IpAddr → Prop} {required : Nat}

theorem within_removeExpired {entries : List Expired} (among : ∀ entry ∈ entries, ok entry.addr)
    (stats : SweepStats) : Makes (fun call => call.Within ok) (removeExpired entries stats) := by
  induction entries generalizing stats with
  | nil => trivial
  | cons entry rest ih =>
    obtain ⟨own, others⟩ := List.forall_mem_cons.mp among
    refine makes_lift_bind ⟨fun _ target => target.elim, trivial⟩ fun reply => ?_
    match reply with
    | .ok none | .error _ => exact ih others _
    | .ok (some actor) =>
      dsimp only
      split
      · exact ih others _
      · refine makes_lift_bind ⟨fun _ target => target ▸ own, trivial⟩ fun reply => ?_
        cases reply <;> exact ih others _

theorem within_revokeExpired {batches : List (IpAddr × List Expired)}
    (among : ∀ batch ∈ batches, ∀ entry ∈ batch.2, ok entry.addr) (stats : SweepStats) :
    Makes (fun call => call.Within ok) (revokeExpired batches stats) := by
  induction batches generalizing stats with
  | nil => trivial
  | cons batch rest ih =>
    obtain ⟨own, others⟩ := List.forall_mem_cons.mp among
    refine makes_lift_bind ⟨fun _ target => target.elim, trivial⟩ fun reply => ?_
    cases reply with
    | false => exact ih others _
    | true =>
      refine makes_lift_bind ⟨fun _ target => target.elim, trivial⟩ fun reply => ?_
      cases reply with
      | error _ => exact ih others _
      | ok _ => exact makes_bind (within_removeExpired own _) fun stats => ih others stats

theorem within_disconnectOverdue {nodes : List ReauthEntry}
    (among : ∀ entry ∈ nodes, ok entry.addr) (gone : List IpAddr) (stats : ReauthSweepStats) :
    Makes (fun call => call.Within ok) (disconnectOverdue required nodes gone stats) := by
  induction nodes generalizing gone stats with
  | nil => trivial
  | cons entry rest ih =>
    obtain ⟨own, others⟩ := List.forall_mem_cons.mp among
    refine makes_lift_bind ⟨fun _ target => target.elim, trivial⟩ fun reply => ?_
    match reply with
    | .ok none | .error _ => exact ih others _ _
    | .ok (some actor) =>
      dsimp only
      split
      · exact ih others _ _
      · refine makes_lift_bind ⟨fun _ target => target ▸ own, trivial⟩ fun reply => ?_
        cases reply <;> exact ih others _ _

theorem within_removeOverdue {addrs : List IpAddr} (among : ∀ addr ∈ addrs, ok addr)
    (stats : ReauthSweepStats) :
    Makes (fun call => call.Within ok) (removeOverdue required addrs stats) := by
  induction addrs generalizing stats with
  | nil => trivial
  | cons addr rest ih =>
    obtain ⟨own, others⟩ := List.forall_mem_cons.mp among
    refine makes_lift_bind ⟨fun _ target => target.elim, trivial⟩ fun reply => ?_
    match reply with
    | .ok none | .error _ => exact ih others _
    | .ok (some actor) =>
      dsimp only
      split
      · exact ih others _
      · refine makes_lift_bind ⟨fun _ target => target ▸ own, trivial⟩ fun reply => ?_
        cases reply <;> exact ih others _

theorem within_revokeOverdue {batches : List (IpAddr × List IpAddr)}
    (among : ∀ batch ∈ batches, ∀ addr ∈ batch.2, ok addr) (stats : ReauthSweepStats) :
    Makes (fun call => call.Within ok) (revokeOverdue required batches stats) := by
  induction batches generalizing stats with
  | nil => trivial
  | cons batch rest ih =>
    obtain ⟨own, others⟩ := List.forall_mem_cons.mp among
    refine makes_lift_bind ⟨fun _ target => target.elim, trivial⟩ fun reply => ?_
    cases reply with
    | false => exact ih others _
    | true =>
      refine makes_lift_bind ⟨fun _ target => target.elim, trivial⟩ fun reply => ?_
      cases reply with
      | error _ => exact ih others _
      | ok processed =>
        exact makes_bind (within_removeOverdue (fun addr member =>
          own addr (List.mem_of_mem_take member)) _) fun stats => ih others stats

theorem within_requestPending (batches : List (IpAddr × List IpAddr)) (stats : ReauthSweepStats) :
    Makes (fun call => call.Within ok) (requestPending batches stats) := by
  induction batches generalizing stats with
  | nil => trivial
  | cons batch rest ih =>
    refine makes_lift_bind ⟨fun _ target => target.elim, trivial⟩ fun reply => ?_
    cases reply with
    | false => exact ih _
    | true =>
      refine makes_lift_bind ⟨fun _ target => target.elim, trivial⟩ fun reply => ?_
      cases reply <;> exact ih _

theorem within_enforceUnmet {entries : List ReauthEntry} (among : ∀ entry ∈ entries, ok entry.addr)
    (unmet : List (Nat × Nat)) (stats : ReauthSweepStats) :
    Makes (fun call => call.Within ok) (enforceUnmet entries unmet stats) := by
  have requests (gone : List IpAddr) (stats : ReauthSweepStats) :
      Makes (fun call => call.Within ok) (match (unmet.map Prod.fst).max? with
        | some required =>
          requestPending (batchEntries ReauthEntry.dock ReauthEntry.addr gone
            (entries.filter fun entry => entry.vinst < required)).toList stats
        | none => pure stats) := by
    split
    · exact within_requestPending _ _
    · trivial
  refine makes_lift_bind ⟨fun _ target => target.elim, trivial⟩ fun now => ?_
  dsimp only
  split
  · refine makes_bind (makes_bind (within_disconnectOverdue (fun entry member => ?_) _ _)
      fun gone => makes_bind (within_revokeOverdue (fun batch isBatch addr member => ?_) _)
        fun _ => trivial) fun found => requests found.1 found.2
    · exact among entry (List.mem_of_mem_filter (List.mem_of_mem_filter member))
    · obtain ⟨entry, isEntry, -, rfl⟩ := mem_batchEntries isBatch member
      exact among entry (List.mem_of_mem_filter (List.mem_of_mem_filter isEntry))
  · exact requests [] stats

theorem pruneObligations_aims (entries : List ReauthEntry) (obligations unmet : List (Nat × Nat))
    (stats : ReauthSweepStats) :
    Makes (fun call => ∀ addr, ¬ call.Targets addr)
      (pruneObligations entries obligations unmet stats) := by
  induction obligations generalizing unmet stats with
  | nil => trivial
  | cons obligation rest ih =>
    unfold pruneObligations
    split
    · refine makes_lift_bind (fun _ target => target) fun reply => ?_
      cases reply <;> exact ih _ _
    · exact ih _ _

theorem within_disconnectDenied {entries : List DeniedEntry}
    (among : ∀ entry ∈ entries, ok entry.addr) (gone : List IpAddr) (stats : DenylistSweepStats) :
    Makes (fun call => call.Within ok) (disconnectDenied entries gone stats) := by
  induction entries generalizing gone stats with
  | nil => trivial
  | cons entry rest ih =>
    obtain ⟨own, others⟩ := List.forall_mem_cons.mp among
    refine makes_lift_bind ⟨fun _ target => target ▸ own, trivial⟩ fun reply => ?_
    cases reply <;> exact ih others _ _

theorem within_removeDenied {entries : List (IpAddr × String)}
    (among : ∀ entry ∈ entries, ok entry.1) (stats : DenylistSweepStats) :
    Makes (fun call => call.Within ok) (removeDenied entries stats) := by
  induction entries generalizing stats with
  | nil => trivial
  | cons entry rest ih =>
    obtain ⟨own, others⟩ := List.forall_mem_cons.mp among
    refine makes_lift_bind ⟨fun _ target => target ▸ own, trivial⟩ fun reply => ?_
    cases reply <;> exact ih others _

theorem within_revokeDenied {batches : List (IpAddr × List (IpAddr × String))}
    (among : ∀ batch ∈ batches, ∀ entry ∈ batch.2, ok entry.1) (stats : DenylistSweepStats) :
    Makes (fun call => call.Within ok) (revokeDenied batches stats) := by
  induction batches generalizing stats with
  | nil => trivial
  | cons batch rest ih =>
    obtain ⟨own, others⟩ := List.forall_mem_cons.mp among
    refine makes_lift_bind ⟨fun _ target => target.elim, trivial⟩ fun reply => ?_
    cases reply with
    | false => exact ih others _
    | true =>
      refine makes_lift_bind ⟨fun _ target => target.elim, trivial⟩ fun reply => ?_
      cases reply with
      | error _ => exact ih others _
      | ok processed =>
        exact makes_bind (within_removeDenied (fun entry member =>
          own entry (List.mem_of_mem_take member)) _) fun stats => ih others stats

end Within

/-! ### What the loops find

As long as the replies to their look-ups are honest, the entries they collect are good. -/

section Finds

open Prog

variable {allowed : ∀ {β : Type}, SweepCall β → Prop} {honest : ∀ {β : Type}, SweepCall β → β → Prop}
  (reads : ∀ addr, allowed (.getActor addr)) (docks : ∀ actor, allowed (.dockingNode actor))
include reads docks

theorem obeys_collectExpired (good : IpAddr → Expired → Prop) {now : Nat}
    (finds : ∀ addr actor expiry gate node, honest (.getActor addr) (.ok (some actor)) →
      actor.getAuthenticationExpirationWithGate = some (expiry, gate) → expiry ≤ now →
      honest (.dockingNode actor) (some node) → good node ⟨addr, expiry, gate⟩)
    (addrs : List IpAddr) {byNode : HashMap IpAddr (List Expired)}
    (found : ∀ batch ∈ byNode.toList, ∀ entry ∈ batch.2, good batch.1 entry) (stats : SweepStats) :
    Obeys allowed honest (fun result => ∀ batch ∈ result.1.toList, ∀ entry ∈ batch.2,
      good batch.1 entry) (collectExpired now addrs byNode stats) := by
  induction addrs generalizing byNode stats with
  | nil => exact found
  | cons addr rest ih =>
    refine obeys_lift_bind (reads addr) fun reply loads => ?_
    match reply with
    | .ok none | .error _ => exact ih found _
    | .ok (some actor) =>
      dsimp only
      split
      · exact ih found _
      next expiry gate expires =>
        split
        · exact ih found _
        next expired =>
          refine obeys_lift_bind (docks actor) fun dock isDock => ?_
          match dock with
          | none => exact ih found _
          | some node =>
            refine ih (fun batch isBatch entry member => ?_) _
            rcases mem_pushBatch isBatch member with ⟨isNode, rfl⟩ | ⟨before, isBefore, member⟩
            · rw [isNode]
              exact finds addr actor expiry gate node loads expires (Nat.le_of_not_lt expired) isDock
            · exact found (batch.1, before) isBefore entry member

theorem obeys_loadEntries (good : ReauthEntry → Prop)
    (finds : ∀ addr actor dock, honest (.getActor addr) (.ok (some actor)) →
      isVisaService addr actor = false → honest (.dockingNode actor) dock →
      good ⟨addr, actorVinst actor, actor.isNode, dock⟩)
    (addrs : List IpAddr) {entries : List ReauthEntry} (found : ∀ entry ∈ entries, good entry) :
    Obeys allowed honest (fun result => ∀ entry ∈ result, good entry)
      (loadEntries addrs entries) := by
  induction addrs generalizing entries with
  | nil => exact found
  | cons addr rest ih =>
    refine obeys_lift_bind (reads addr) fun reply loads => ?_
    match reply with
    | .ok none | .error _ => exact ih found
    | .ok (some actor) =>
      dsimp only
      split
      · exact ih found
      next counts =>
        refine obeys_lift_bind (docks actor) fun dock isDock => ih ?_
        refine List.forall_mem_append.mpr ⟨found, List.forall_mem_singleton.mpr ?_⟩
        exact finds addr actor dock loads (Bool.eq_false_iff.mpr counts) isDock

theorem obeys_matchDenied (good : DeniedEntry → Prop) {denied : HashSet String}
    (finds : ∀ addr actor cn dock, honest (.getActor addr) (.ok (some actor)) →
      deniedCn denied addr actor = some cn → honest (.dockingNode actor) dock →
      good ⟨addr, cn, actor.isNode, dock⟩)
    (addrs : List IpAddr) {entries : List DeniedEntry} (found : ∀ entry ∈ entries, good entry)
    (stats : DenylistSweepStats) :
    Obeys allowed honest (fun result => ∀ entry ∈ result.1, good entry)
      (matchDenied denied addrs entries stats) := by
  induction addrs generalizing entries stats with
  | nil => exact found
  | cons addr rest ih =>
    refine obeys_lift_bind (reads addr) fun reply loads => ?_
    match reply with
    | .ok none | .error _ => exact ih found _
    | .ok (some actor) =>
      dsimp only
      split
      · exact ih found _
      next cn isDenied =>
        refine obeys_lift_bind (docks actor) fun dock isDock => ih ?_ _
        refine List.forall_mem_append.mpr ⟨found, List.forall_mem_singleton.mpr ?_⟩
        exact finds addr actor cn dock loads isDenied isDock

end Finds

/-! ### Passes -/

inductive Sweep where
  | expiredAuths
  | reauthObligations
  | denylistedActors
  deriving DecidableEq, Repr

/-- The sweep without its statistics. -/
def Sweep.prog : Sweep → SweepProg Unit
  | .expiredAuths => sweepExpiredAuths >>= fun _ => pure ()
  | .reauthObligations => sweepReauthObligations >>= fun _ => pure ()
  | .denylistedActors => sweepDenylistedActors >>= fun _ => pure ()

/-- A pass in progress: what is left of it, and the service it works on. -/
structure SweepPass (codec : VisaCodec) where
  asm : Assembly codec
  left : SweepProg Unit

inductive SweepEvent where
  | call (answer : Answer)
  /-- An actor connects: its record is written. -/
  | connect (actor : Actor) (addr dock : IpAddr)

namespace Assembly

/-- Nobody is at the address yet, or a node authenticates again and its record is replaced. -/
def connect (asm : Assembly codec) (actor : Actor) (addr dock : IpAddr) :
    Option (Assembly codec) :=
  if actor.zprAddr = some addr ∧
      ∀ stored ∈ asm.actors[addr]?, stored.isNode = true ∧ actor.isNode = true then
    if actor.isNode then some { asm with actors := asm.actors.insert addr actor }
    else
      some { asm with
        actors := asm.actors.insert addr actor
        connectionTable := asm.connectionTable.insert addr dock
        connections := asm.connections.add dock addr }
  else none

variable {asm next : Assembly codec} {actor : Actor} {addr dock other : IpAddr}

theorem connect_cases (connects : asm.connect actor addr dock = some next) :
    (∀ stored ∈ asm.actors[addr]?, stored.isNode = true ∧ actor.isNode = true) ∧
      ∃ table connections,
        (∀ other, addr ≠ other → table[other]? = asm.connectionTable[other]?) ∧
        next = { asm with
          actors := asm.actors.insert addr actor
          connectionTable := table
          connections } := by
  unfold connect at connects
  split at connects
  next free =>
    refine ⟨free.2, ?_⟩
    split at connects <;> cases connects
    · exact ⟨_, _, fun _ _ => rfl, rfl⟩
    · exact ⟨_, _, fun _ apart => (HashMap.get_insert ..).trans (if_neg apart), rfl⟩
  · cases connects

theorem mem_of_connect (connects : asm.connect actor addr dock = some next)
    (stored : other ∈ asm.actors) : other ∈ next.actors := by
  obtain ⟨-, table, connections, -, rfl⟩ := connect_cases connects
  simp only [Std.ExtTreeMap.mem_insert]
  exact .inr stored

end Assembly

namespace SweepPass

def start (asm : Assembly codec) (sweep : Sweep) : SweepPass codec :=
  ⟨{ asm with revoked := [], listed := false }, sweep.prog⟩

def step (pass : SweepPass codec) : SweepEvent → Option (SweepPass codec)
  | .call answer =>
    match pass.left with
    | .call call next =>
      let (reply, asm) := call.exec { pass.asm with answer }
      some ⟨asm, next reply⟩
    | _ => none
  | .connect actor addr dock =>
    (pass.asm.connect actor addr dock).map fun asm => { pass with asm }

end SweepPass

namespace SweepSample

/-- An address of the node pool. -/
def dock : IpAddr := .v6 0xfd5a505290de00010000000000000001

/-- Addresses of the adapter pool. -/
def addr (number : Nat) : IpAddr := .v6 (0xfd5a5052adda00010000000000000000 + number)

/-- Credentials that expire after a second, under the given policy. -/
def adapter (number : Nat) (vinst : String) : Actor where
  attrs := ((∅ : HashMap String Attribute).insert Key.deviceAuthority
    ⟨Key.deviceAuthority, [authorityMethodBootstrap], nanosPerSec, "zpr"⟩).insert Key.vinst
    (.internal 0 Key.vinst [vinst])
  identityKeys := []
  zprAddr := some (addr number)

def idle : Assembly VisaCodec.plain where
  vsAddr := vsZprAddr
  actors := ∅
  connectionTable := ∅
  connections := ∅
  handles := (∅ : HashSet IpAddr).insert dock
  obligations := ∅
  denied := ∅
  net := .newV6
  trusted := ⟨∅, ∅, 0⟩
  visas := .init .plain (5 * nanosPerSec) 0
  answer := ⟨false, fun _ => .done, false, false, false, fun _ => .applied, .ascending, none⟩
  revoked := []
  listed := false

/-- Everything goes well, and a node gets to the first entries of a batch. -/
def processes (count : Nat) : SweepEvent :=
  .call { (idle).answer with processed := some count }

def docked (asm : Assembly VisaCodec.plain) (number : Nat) (vinst : String) :
    Assembly VisaCodec.plain :=
  { asm with
    actors := asm.actors.insert (addr number) (adapter number vinst)
    connectionTable := asm.connectionTable.insert (addr number) dock
    connections := asm.connections.add dock (addr number) }

end SweepSample

end VisaService
