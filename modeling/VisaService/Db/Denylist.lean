import VisaService.Lib.Desk
import VisaService.Lib.RowIndex

/-!
# The bootstrap denylist, command by command

The denylist is a hash from names to entry ids, next to a counter from which ids are taken. The
commands of different calls may interleave in any way, and a command may fail, before or after it
took effect. Removal resolves the id to a name with one command and deletes by name with another;
an entry that is added for the name in between is deleted in place of the one that was resolved.

Main results: `fresh_entry_removed` and `removes_only_own_entry`.
-/
namespace VisaService

open Lib Prog

namespace BootstrapDenylist

/-- What is stored for a name, as `parse::<u64>` reads it. -/
inductive Stored
  | number (id : Nat)
  | unreadable
  deriving DecidableEq, Repr

structure Store where
  entries : HashMap String Stored
  nextId : Nat

inductive StoreError
  | command
  | invalidData (message : String)
  deriving DecidableEq, Repr

/-- The store commands; the replies of `hgetall` come in the order of the hash. -/
inductive Command : Type → Type
  | hget (cn : String) : Command (Except StoreError (Option Stored))
  | hdel (cn : String) : Command (Except StoreError Unit)
  | incr : Command (Except StoreError Nat)
  | hsetNx (cn : String) (id : Nat) : Command (Except StoreError Bool)
  | hgetall : Command (Except StoreError (List (String × Stored)))
  | del : Command (Except StoreError Unit)

inductive Delivery
  | answered
  /-- The command fails without effect. -/
  | lost
  /-- The command takes effect and its reply is lost. -/
  | unanswered
  deriving DecidableEq, Repr

structure Outcome where
  delivery : Delivery
  order : SetOrder String

/-- INCR counts in signed 64-bit integers. -/
def maxId : Nat := 2 ^ 63 - 1

def Store.list (store : Store) (order : SetOrder String) : List (String × Stored) :=
  (order.list (Std.ExtTreeSet.ofList store.entries.keys compare)).filterMap fun cn =>
    store.entries[cn]?.map (cn, ·)

namespace Command

def apply (order : SetOrder String) : {β : Type} → Command β → Store → β × Store
  | _, hget cn, store => (.ok store.entries[cn]?, store)
  | _, hdel cn, store => (.ok (), { store with entries := store.entries.erase cn })
  | _, incr, store =>
    if store.nextId < maxId then
      (.ok (store.nextId + 1), { store with nextId := store.nextId + 1 })
    else (.error .command, store)
  | _, hsetNx cn id, store =>
    if cn ∈ store.entries then (.ok false, store)
    else (.ok true, { store with entries := store.entries.insert cn (.number id) })
  | _, hgetall, store => (.ok (store.list order), store)
  | _, del, store => (.ok (), { store with entries := ∅ })

def failure : {β : Type} → Command β → β
  | _, hget _ => .error .command
  | _, hdel _ => .error .command
  | _, incr => .error .command
  | _, hsetNx _ _ => .error .command
  | _, hgetall => .error .command
  | _, del => .error .command

def exec (outcome : Outcome) {β : Type} (command : Command β) (store : Store) : β × Store :=
  match outcome.delivery with
  | .answered => command.apply outcome.order store
  | .lost => (command.failure, store)
  | .unanswered => (command.failure, (command.apply outcome.order store).2)

end Command

abbrev DenylistProg (α : Type) := Prog Command StoreError α

/-- The `?` operator on the reply of a command. -/
def ask {γ : Type} (command : Command (Except StoreError γ)) : DenylistProg γ :=
  .call command fun
    | .ok value => .ret value
    | .error failure => .fail failure

/-! ### The calls -/

/-- One more claim with the id that lost the first. -/
def retry (cn : String) (id : Nat) : DenylistProg Nat := do
  if ← ask (.hsetNx cn id) then pure id
  else .fail (.invalidData s!"denylist add for {cn} lost two consecutive claim races")

/-- The claim was lost to a concurrent add, whose id the store keeps. -/
def reread (cn : String) (id : Nat) : DenylistProg Nat := do
  match ← ask (.hget cn) with
  | some (.number stored) => pure stored
  | some .unreadable => .fail (.invalidData s!"denylist entry for {cn} has a non-numeric id")
  | none => retry cn id

def claim (cn : String) (id : Nat) : DenylistProg Nat := do
  if ← ask (.hsetNx cn id) then pure id else reread cn id

def mint (cn : String) : DenylistProg Nat := do
  let id ← ask .incr
  claim cn id

/-- An entry with an unreadable id is dropped and minted again. -/
def remint (cn : String) : DenylistProg Nat := do
  ask (.hdel cn)
  mint cn

def add (cn : String) : DenylistProg Nat := do
  match ← ask (.hget cn) with
  | some (.number id) => pure id
  | some .unreadable => remint cn
  | none => mint cn

/-- Entries with an unreadable id are dropped from the listing. -/
def readable (entries : List (String × Stored)) : List (Nat × String) :=
  entries.filterMap fun
    | (cn, .number id) => some (id, cn)
    | (_, .unreadable) => none

def list : DenylistProg (List (Nat × String)) := do
  return readable (← ask .hgetall)

def cnById (id : Nat) : DenylistProg (Option String) := do
  return ((← list).find? fun entry => entry.1 = id).map (·.2)

def delete (cn : String) : DenylistProg (Option String) := do
  ask (.hdel cn)
  return some cn

def remove (id : Nat) : DenylistProg (Option String) := do
  match ← cnById id with
  | none => return none
  | some cn => delete cn

def clear : DenylistProg Unit := ask .del

inductive Request
  | add (cn : String)
  | remove (id : Nat)
  | clear
  deriving DecidableEq, Repr

inductive Reply
  | added (id : Nat)
  | removed (cn : Option String)
  | cleared
  deriving DecidableEq, Repr

def serve : Request → DenylistProg Reply
  | .add cn => return .added (← add cn)
  | .remove id => return .removed (← remove id)
  | .clear => do
    clear
    return .cleared

abbrev DenylistClient := Client Request Command StoreError Reply

abbrev DenylistDesk := Desk Request Command StoreError Reply Store

def step : DenylistDesk → Nat × Outcome → Option DenylistDesk := Desk.step Command.exec

def start (store : Store) (requests : List Request) : DenylistDesk := .start serve store requests

/-! ### Where a call can be -/

/-- The points of the three calls, named by what is known there. -/
inductive Stage
  | adding (cn : String)
  | reminting (cn : String)
  | minting (cn : String)
  | claiming (cn : String) (id : Nat)
  | rereading (cn : String) (id : Nat)
  | retrying (cn : String) (id : Nat)
  | resolving (id : Nat)
  | deleting (id : Nat) (cn : String)
  | clearing
  | answered (request : Request) (reply : Reply)
  | failed (request : Request) (failure : StoreError)

namespace Stage

def client : Stage → DenylistClient
  | adding cn => ⟨.add cn, add cn >>= fun id => .ret (.added id)⟩
  | reminting cn => ⟨.add cn, remint cn >>= fun id => .ret (.added id)⟩
  | minting cn => ⟨.add cn, mint cn >>= fun id => .ret (.added id)⟩
  | claiming cn id => ⟨.add cn, claim cn id >>= fun id => .ret (.added id)⟩
  | rereading cn id => ⟨.add cn, reread cn id >>= fun id => .ret (.added id)⟩
  | retrying cn id => ⟨.add cn, retry cn id >>= fun id => .ret (.added id)⟩
  | resolving id => ⟨.remove id, remove id >>= fun cn => .ret (.removed cn)⟩
  | deleting id cn => ⟨.remove id, delete cn >>= fun cn => .ret (.removed cn)⟩
  | clearing => ⟨.clear, clear >>= fun _ => .ret .cleared⟩
  | answered request reply => ⟨request, .ret reply⟩
  | failed request failure => ⟨request, .fail failure⟩

def first : Request → Stage
  | .add cn => adding cn
  | .remove id => resolving id
  | .clear => clearing

theorem client_first (request : Request) : (first request).client = ⟨request, serve request⟩ := by
  cases request <;> rfl

/-- The id that the call has taken from the counter and not stored. -/
def held : Stage → Option Nat
  | claiming _ id => some id
  | rereading _ id => some id
  | retrying _ id => some id
  | _ => none

/-- Not about to delete. -/
def Reads : Stage → Prop
  | deleting _ _ => False
  | _ => True

/-- What one command of a call does: to the store, and to what the call holds. -/
inductive Moves : Store → Stage → Store → Stage → Prop
  /-- The command reads, or is lost. -/
  | read {store : Store} {before after : Stage}
      (holds : ∀ id ∈ after.held, id ∈ before.held)
      (resolved : ∀ id cn, after = deleting id cn → store.entries[cn]? = some (.number id)) :
      Moves store before store after
  | count {store : Store} {before after : Stage}
      (holds : ∀ id ∈ after.held, id = store.nextId + 1) (reads : after.Reads) :
      Moves store before { store with nextId := store.nextId + 1 } after
  | erase {store : Store} {before after : Stage} {cn : String}
      (own : ∀ id, before.client.request = .remove id → before = deleting id cn)
      (holds : after.held = none) (reads : after.Reads) :
      Moves store before { store with entries := store.entries.erase cn } after
  | wipe {store : Store} {before after : Stage}
      (own : before.client.request = .clear) (holds : after.held = none) (reads : after.Reads) :
      Moves store before { store with entries := ∅ } after
  | claim {store : Store} {before after : Stage} {cn : String} {id : Nat}
      (own : before = claiming cn id ∨ before = retrying cn id) (free : cn ∉ store.entries)
      (holds : after.held = none) (reads : after.Reads) :
      Moves store before { store with entries := store.entries.insert cn (.number id) } after

/-- An id that an add has just answered is stored for the name. -/
def Told (store : Store) (stage : Stage) : Prop :=
  ∀ cn id, stage = answered (.add cn) (.added id) → store.entries[cn]? = some (.number id)

end Stage

variable {id turn place : Nat} {cn : String} {stages : List Stage} {after before : Stage}

theorem stored_of_listed {store : Store} {order : SetOrder String}
    (listed : ((readable (store.list order)).find? fun entry => entry.1 = id).map (·.2) = some cn) :
    store.entries[cn]? = some (.number id) := by
  obtain ⟨⟨other, name⟩, found, rfl⟩ := Option.map_eq_some_iff.mp listed
  have same : other = id := by simpa using List.find?_some found
  subst same
  obtain ⟨⟨key, stored⟩, isListed, reads⟩ := List.mem_filterMap.mp (List.mem_of_find?_eq_some found)
  obtain ⟨key', -, isStored⟩ := List.mem_filterMap.mp isListed
  obtain ⟨stored', isStored, same⟩ := Option.map_eq_some_iff.mp isStored
  cases same
  cases stored with
  | number id =>
    cases reads
    exact isStored
  | unreadable => cases reads

theorem stored_insert (store : Store) (cn : String) (stored : Stored) :
    (store.entries.insert cn stored)[cn]? = some stored := by
  rw [HashMap.get_insert, if_pos rfl]

namespace Stage

theorem Moves.failed {store next : Store} {before after : Stage}
    (moved : Moves store before next after) (request : Request) (failure : StoreError) :
    Moves store before next (failed request failure) := by
  cases moved with
  | read holds resolved => exact .read nofun nofun
  | count holds reads => exact .count nofun trivial
  | erase own holds reads => exact .erase own rfl trivial
  | wipe own holds reads => exact .wipe own rfl trivial
  | claim own free holds reads => exact .claim own free rfl trivial

variable {stage : Stage} {β : Type} {c : Command β} {rest : β → DenylistProg Reply}

theorem rest_failure (isCall : stage.client.rest = .call c rest) :
    rest c.failure = .fail .command := by
  cases stage <;> cases isCall <;> rfl

/-- The call goes on at another stage with the reply, and the store has moved with it. -/
abbrev Advances (store : Store) (stage : Stage) (rest : β → DenylistProg Reply)
    (reply : β × Store) : Prop :=
  ∃ after, client after = ⟨stage.client.request, rest reply.1⟩ ∧
    Moves store stage reply.2 after ∧ Told reply.2 after

section Answered

variable (order : SetOrder String) (store : Store)

theorem advances_adding (isCall : (adding cn).client.rest = .call c rest) :
    Advances store (adding cn) rest (c.apply order store) := by
  cases isCall
  simp only [Command.apply]
  cases found : store.entries[cn]? with
  | none => exact ⟨minting cn, rfl, .read nofun nofun, nofun⟩
  | some stored =>
    cases stored with
    | number id =>
      refine ⟨answered (.add cn) (.added id), rfl, .read nofun nofun, ?_⟩
      rintro _ _ ⟨⟩
      exact found
    | unreadable => exact ⟨reminting cn, rfl, .read nofun nofun, nofun⟩

theorem advances_minting (isCall : (minting cn).client.rest = .call c rest) :
    Advances store (minting cn) rest (c.apply order store) := by
  cases isCall
  simp only [Command.apply]
  by_cases bounded : store.nextId < maxId
  · rw [if_pos bounded]
    refine ⟨claiming cn (store.nextId + 1), rfl, .count ?_ trivial, nofun⟩
    rintro id ⟨⟩
    rfl
  · -- the counter has run out
    rw [if_neg bounded]
    exact ⟨failed (.add cn) .command, rfl, .read nofun nofun, nofun⟩

theorem advances_claiming (isCall : (claiming cn id).client.rest = .call c rest) :
    Advances store (claiming cn id) rest (c.apply order store) := by
  cases isCall
  simp only [Command.apply]
  by_cases taken : cn ∈ store.entries
  · -- another add was faster
    rw [if_pos taken]
    exact ⟨rereading cn id, rfl, .read (fun _ held => held) nofun, nofun⟩
  · rw [if_neg taken]
    refine ⟨answered (.add cn) (.added id), rfl, .claim (.inl rfl) taken rfl trivial, ?_⟩
    rintro _ _ ⟨⟩
    exact stored_insert store cn _

theorem advances_rereading (isCall : (rereading cn id).client.rest = .call c rest) :
    Advances store (rereading cn id) rest (c.apply order store) := by
  cases isCall
  simp only [Command.apply]
  cases found : store.entries[cn]? with
  | none =>
    -- the faster entry is gone already
    exact ⟨retrying cn id, rfl, .read (fun _ held => held) nofun, nofun⟩
  | some stored =>
    cases stored with
    | number stored =>
      refine ⟨answered (.add cn) (.added stored), rfl, .read nofun nofun, ?_⟩
      rintro _ _ ⟨⟩
      exact found
    | unreadable => exact ⟨failed (.add cn) (.invalidData _), rfl, .read nofun nofun, nofun⟩

theorem advances_retrying (isCall : (retrying cn id).client.rest = .call c rest) :
    Advances store (retrying cn id) rest (c.apply order store) := by
  cases isCall
  simp only [Command.apply]
  by_cases taken : cn ∈ store.entries
  · rw [if_pos taken]
    exact ⟨failed (.add cn) (.invalidData _), rfl, .read nofun nofun, nofun⟩
  · rw [if_neg taken]
    refine ⟨answered (.add cn) (.added id), rfl, .claim (.inr rfl) taken rfl trivial, ?_⟩
    rintro _ _ ⟨⟩
    exact stored_insert store cn _

/-- An id that is not found ends the call; otherwise the name is deleted next. -/
theorem advances_resolving (isCall : (resolving id).client.rest = .call c rest) :
    Advances store (resolving id) rest (c.apply order store) := by
  cases isCall
  let resolved := ((readable (store.list order)).find? fun entry => entry.1 = id).map (·.2)
  change ∃ after, client after = ⟨.remove id, (match resolved with
    | none => .ret none
    | some cn => delete cn) >>= fun cn => .ret (.removed cn)⟩ ∧
    Moves store (resolving id) store after ∧ Told store after
  cases found : resolved with
  | none => exact ⟨answered (.remove id) (.removed none), rfl, .read nofun nofun, nofun⟩
  | some cn =>
    refine ⟨deleting id cn, rfl, .read nofun ?_, nofun⟩
    rintro _ _ ⟨⟩
    exact stored_of_listed found

theorem advances_answered (isCall : stage.client.rest = .call c rest) :
    Advances store stage rest (c.apply order store) := by
  cases stage with
  | adding cn => exact advances_adding order store isCall
  | reminting cn =>
    cases isCall
    exact ⟨minting cn, rfl, .erase nofun rfl trivial, nofun⟩
  | minting cn => exact advances_minting order store isCall
  | claiming cn id => exact advances_claiming order store isCall
  | rereading cn id => exact advances_rereading order store isCall
  | retrying cn id => exact advances_retrying order store isCall
  | resolving id => exact advances_resolving order store isCall
  | deleting id cn =>
    cases isCall
    refine ⟨answered (.remove id) (.removed (some cn)), rfl, .erase (fun other isRequest => ?_) rfl
      trivial, nofun⟩
    cases isRequest
    rfl
  | clearing =>
    cases isCall
    exact ⟨answered .clear .cleared, rfl, .wipe rfl rfl trivial, nofun⟩
  | answered request reply | failed request failure => cases isCall

end Answered

theorem advances (outcome : Outcome) (store : Store) (stage : Stage) (β : Type) (c : Command β)
    (rest : β → DenylistProg Reply) (isCall : stage.client.rest = .call c rest) :
    Advances store stage rest (Command.exec outcome c store) := by
  obtain ⟨delivery, order⟩ := outcome
  obtain ⟨after, isAfter, moved, told⟩ := advances_answered order store isCall
  have fails : client (failed stage.client.request .command) =
      ⟨stage.client.request, rest c.failure⟩ := by
    rw [rest_failure isCall]
    rfl
  cases delivery with
  | answered => exact ⟨after, isAfter, moved, told⟩
  | lost => exact ⟨_, fails, .read nofun nofun, nofun⟩
  | unanswered => exact ⟨_, fails, moved.failed _ _, nofun⟩

theorem eq_answered {stage : Stage} {request : Request} {reply : Reply}
    (isClient : stage.client = ⟨request, .ret reply⟩) : stage = answered request reply := by
  cases stage with
  | answered request reply =>
    cases isClient
    rfl
  | _ => cases isClient

end Stage

/-! ### Ids are unique -/

/-- No id is stored twice, and none is ahead of the counter. -/
structure Store.Sound (store : Store) : Prop where
  bounded : ∀ (cn : String) (id : Nat), store.entries[cn]? = some (.number id) → id ≤ store.nextId
  unique : ∀ (cn other : String) (id : Nat), store.entries[cn]? = some (.number id) →
    store.entries[other]? = some (.number id) → cn = other

/-- An id that a call holds is held by that call alone and stored for no name. -/
structure Holding (store : Store) (held : Nat → Nat → Prop) : Prop where
  sound : store.Sound
  bounded : ∀ place id, held place id → id ≤ store.nextId
  unstored : ∀ place id, held place id →
    ∀ cn : String, store.entries[cn]? ≠ some (.number id)
  distinct : ∀ place other id, held place id → held other id → place = other

namespace Holding

variable {store : Store} {held later : Nat → Nat → Prop}

theorem fewer (holding : Holding store held) {entries : HashMap String Stored}
    (shrinks : ∀ (cn : String) (stored : Stored), entries[cn]? = some stored →
      store.entries[cn]? = some stored)
    (lets : ∀ place id, later place id → held place id) :
    Holding { store with entries } later where
  sound :=
    { bounded := fun cn id found => holding.sound.bounded cn id (shrinks cn _ found)
      unique := fun cn other id found same =>
        holding.sound.unique cn other id (shrinks cn _ found) (shrinks other _ same) }
  bounded place id holds := holding.bounded place id (lets place id holds)
  unstored place id holds cn found :=
    holding.unstored place id (lets place id holds) cn (shrinks cn _ found)
  distinct place other id one two :=
    holding.distinct place other id (lets place id one) (lets other id two)

theorem count (holding : Holding store held) (turn : Nat)
    (takes : ∀ place id, later place id → held place id ∨ place = turn ∧ id = store.nextId + 1) :
    Holding { store with nextId := store.nextId + 1 } later where
  sound :=
    { bounded := fun cn id found => (holding.sound.bounded cn id found).trans (Nat.le_succ _)
      unique := holding.sound.unique }
  bounded place id holds := by
    rcases takes place id holds with old | ⟨-, rfl⟩
    · exact (holding.bounded place id old).trans (Nat.le_succ _)
    · exact le_rfl
  unstored place id holds cn found := by
    rcases takes place id holds with old | ⟨-, rfl⟩
    · exact holding.unstored place id old cn found
    · have bounded := holding.sound.bounded cn _ found
      omega
  distinct place other id one two := by
    rcases takes place id one with old | ⟨rfl, rfl⟩ <;>
      rcases takes other _ two with old' | ⟨rfl, isNew⟩
    · exact holding.distinct place other id old old'
    · have bounded := holding.bounded place id old
      omega
    · have bounded := holding.bounded other _ old'
      omega
    · rfl

theorem claim (holding : Holding store held) {turn id : Nat} {cn : String} (holds : held turn id)
    (lets : ∀ place id, later place id → held place id ∧ place ≠ turn) :
    Holding { store with entries := store.entries.insert cn (.number id) } later where
  sound :=
    { bounded := by
        intro name other found
        rcases HashMap.of_get_insert found with ⟨-, ⟨⟩⟩ | ⟨-, old⟩
        · exact holding.bounded turn id holds
        · exact holding.sound.bounded name other old
      unique := by
        intro name name' other found found'
        rcases HashMap.of_get_insert found with ⟨rfl, ⟨⟩⟩ | ⟨-, old⟩ <;>
          rcases HashMap.of_get_insert found' with ⟨same, isNew⟩ | ⟨-, old'⟩
        · exact same.symm
        · exact absurd old' (holding.unstored turn id holds name')
        · cases isNew
          exact absurd old (holding.unstored turn id holds name)
        · exact holding.sound.unique name name' other old old' }
  bounded place other holds := holding.bounded place other (lets place other holds).1
  unstored place other isHeld name found := by
    obtain ⟨old, apart⟩ := lets place other isHeld
    rcases HashMap.of_get_insert found with ⟨-, ⟨⟩⟩ | ⟨-, before⟩
    · exact apart (holding.distinct place turn id old holds)
    · exact holding.unstored place other old name before
  distinct place other id one two :=
    holding.distinct place other id (lets place id one).1 (lets other id two).1

end Holding

def HeldAt (stages : List Stage) (place id : Nat) : Prop :=
  ∃ stage, stages[place]? = some stage ∧ id ∈ stage.held

theorem heldAt_set (holds : HeldAt (stages.set turn after) place id) :
    place = turn ∧ id ∈ after.held ∨ place ≠ turn ∧ HeldAt stages place id := by
  obtain ⟨stage, found, isHeld⟩ := holds
  rcases Desk.get_set found with ⟨rfl, rfl⟩ | ⟨apart, found⟩
  · exact .inl ⟨rfl, isHeld⟩
  · exact .inr ⟨apart, stage, found, isHeld⟩

theorem Holding.moves {store next : Store} (holding : Holding store (HeldAt stages))
    (found : stages[turn]? = some before) (moved : before.Moves store next after) :
    Holding next (HeldAt (stages.set turn after)) := by
  -- a call that ends up with nothing leaves the others as they are
  have lets (none : after.held = none) (place id : Nat)
      (holds : HeldAt (stages.set turn after) place id) :
      HeldAt stages place id ∧ place ≠ turn := by
    rcases heldAt_set holds with ⟨-, isHeld⟩ | ⟨apart, old⟩
    · rw [none] at isHeld
      cases isHeld
    · exact ⟨old, apart⟩
  cases moved with
  | read holds resolved =>
    refine holding.fewer (fun _ _ same => same) fun place id isHeld => ?_
    rcases heldAt_set isHeld with ⟨rfl, isOwn⟩ | ⟨-, old⟩
    · exact ⟨before, found, holds id isOwn⟩
    · exact old
  | count holds reads =>
    refine holding.count turn fun place id isHeld => ?_
    rcases heldAt_set isHeld with ⟨rfl, isOwn⟩ | ⟨-, old⟩
    · exact .inr ⟨rfl, holds id isOwn⟩
    · exact .inl old
  | erase own holds reads =>
    exact holding.fewer (fun _ _ isStored => (HashMap.of_get_erase isStored).2)
      fun place id isHeld => (lets holds place id isHeld).1
  | wipe own holds reads =>
    refine holding.fewer (fun cn stored isStored => ?_) fun place id isHeld =>
      (lets holds place id isHeld).1
    simp at isStored
  | @claim _ cn id own free holds reads =>
    have isHeld : HeldAt stages turn id := by
      rcases own with rfl | rfl <;> exact ⟨_, found, rfl⟩
    exact holding.claim isHeld (lets holds)

/-! ### What a removal has resolved -/

/-- The name whose entry the next command of a removal deletes. -/
def deletes (client : DenylistClient) : Option String :=
  match client.request, client.rest with
  | .remove _, .call (.hdel cn) _ => some cn
  | _, _ => none

/-- The name for which the next command tries to store an entry. -/
def claims (client : DenylistClient) : Option String :=
  match client.rest with
  | .call (.hsetNx cn _) _ => some cn
  | _ => none

/-- Whoever stores an entry does so for a name that no removal is about to delete. -/
def Careful (desk : DenylistDesk) (event : Nat × Outcome) : Prop :=
  ∀ client ∈ desk.clients[event.1]?, ∀ cn ∈ claims client, cn ∉ desk.store.entries →
    ∀ other ∈ desk.clients, deletes other ≠ some cn
  deriving Decidable

/-- A name that a removal has resolved has the entry of that id, or none. -/
def Resolved (store : Store) (stages : List Stage) : Prop :=
  ∀ (place id : Nat) (cn : String), stages[place]? = some (.deleting id cn) →
    ∀ stored ∈ store.entries[cn]?, stored = .number id

theorem Resolved.moves {desk : DenylistDesk} {next : Store} {outcome : Outcome}
    (resolved : Resolved desk.store stages) (staged : desk.Staged Stage.client stages)
    (careful : Careful desk (turn, outcome)) (found : stages[turn]? = some before)
    (moved : before.Moves desk.store next after) :
    Resolved next (stages.set turn after) := by
  intro place id cn isDeleting
  rcases Desk.get_set isDeleting with ⟨-, rfl⟩ | ⟨apart, isDeleting⟩
  · -- the removal has just resolved its id
    intro stored isStored
    cases moved with
    | read holds isResolved =>
      rw [isResolved id cn rfl] at isStored
      cases isStored
      rfl
    | count holds reads | erase own holds reads | wipe own holds reads
    | claim own free holds reads => exact reads.elim
  · have old := resolved place id cn isDeleting
    cases moved with
    | read holds isResolved => exact old
    | count holds reads => exact old
    | erase own holds reads =>
      exact fun stored isStored => old stored (HashMap.of_get_erase isStored).2
    | wipe own holds reads =>
      intro stored isStored
      simp at isStored
    | @claim _ name other own free holds reads =>
      intro stored isStored
      rcases HashMap.of_get_insert isStored with ⟨rfl, -⟩ | ⟨-, before⟩
      · have isClient : desk.clients[turn]? = some before.client := by
          rw [staged, List.getElem?_map, found]
          rfl
        have isClaim : claims before.client = some cn := by
          rcases own with rfl | rfl <;> rfl
        have pending : (Stage.deleting id cn).client ∈ desk.clients := by
          rw [staged]
          exact List.mem_map_of_mem (List.mem_of_getElem? isDeleting)
        exact absurd rfl (careful before.client isClient cn isClaim free _ pending)
      · exact old stored before

/-! ### Whole runs -/

def Tracked (desk : DenylistDesk) : Prop :=
  ∃ stages, desk.Staged Stage.client stages ∧ Holding desk.store (HeldAt stages)

def Guarded (desk : DenylistDesk) : Prop :=
  ∃ stages, desk.Staged Stage.client stages ∧ Resolved desk.store stages

theorem staged_start (store : Store) (requests : List Request) :
    (start store requests).Staged Stage.client (requests.map Stage.first) := by
  change requests.map _ = (requests.map Stage.first).map Stage.client
  rw [List.map_map]
  exact List.map_congr_left fun request _ => (Stage.client_first request).symm

theorem first_of_start {requests : List Request} {stage : Stage}
    (found : (requests.map Stage.first)[place]? = some stage) :
    ∃ request, stage = Stage.first request := by
  rw [List.getElem?_map, Option.map_eq_some_iff] at found
  obtain ⟨request, -, isFirst⟩ := found
  exact ⟨request, isFirst.symm⟩

theorem tracked_start {store : Store} (sound : store.Sound) (requests : List Request) :
    Tracked (start store requests) := by
  have unheld (place id : Nat) : ¬ HeldAt (requests.map Stage.first) place id := by
    rintro ⟨stage, found, isHeld⟩
    obtain ⟨request, rfl⟩ := first_of_start found
    cases request <;> cases isHeld
  exact ⟨_, staged_start store requests, sound, fun place id holds => absurd holds (unheld place id),
    fun place id holds => absurd holds (unheld place id),
    fun place _ id holds => absurd holds (unheld place id)⟩

theorem guarded_start (store : Store) (requests : List Request) :
    Guarded (start store requests) := by
  refine ⟨_, staged_start store requests, fun place id cn found => ?_⟩
  obtain ⟨request, isFirst⟩ := first_of_start found
  cases request <;> cases isFirst

variable {desk next : DenylistDesk} {event : Nat × Outcome}

theorem step_moves (staged : desk.Staged Stage.client stages)
    (stepped : step desk event = some next) :
    ∃ before after, stages[event.1]? = some before ∧
      (before.Moves desk.store next.store after ∧ after.Told next.store) ∧
      next.Staged Stage.client (stages.set event.1 after) :=
  Desk.step_staged
    (fun store before later after => before.Moves store later after ∧ after.Told later)
    Stage.advances staged stepped

theorem tracked_step (tracked : Tracked desk) (stepped : step desk event = some next) :
    Tracked next := by
  obtain ⟨stages, staged, holding⟩ := tracked
  obtain ⟨before, after, found, ⟨moved, -⟩, staged⟩ := step_moves staged stepped
  exact ⟨_, staged, holding.moves found moved⟩

theorem guarded_step (guarded : Guarded desk) (careful : Careful desk event)
    (stepped : step desk event = some next) : Guarded next := by
  obtain ⟨stages, staged, resolved⟩ := guarded
  obtain ⟨before, after, found, ⟨moved, -⟩, later⟩ := step_moves staged stepped
  exact ⟨_, later, resolved.moves staged careful found moved⟩

theorem removed_own {stored : Stored} {client : DenylistClient} (guarded : Guarded desk)
    (stepped : step desk event = some next) (isClient : desk.clients[event.1]? = some client)
    (isRemove : client.request = .remove id) (isStored : desk.store.entries[cn]? = some stored)
    (gone : next.store.entries[cn]? = none) :
    stored = .number id := by
  obtain ⟨stages, staged, resolved⟩ := guarded
  obtain ⟨before, after, found, ⟨moved, -⟩, -⟩ := step_moves staged stepped
  obtain ⟨stage, found', rfl⟩ := staged.get isClient
  cases found.symm.trans found'
  generalize desk.store = store at *
  generalize next.store = left at *
  cases moved with
  | read holds isResolved | count holds reads => cases isStored.symm.trans gone
  | @erase _ name own holds reads =>
    have isDeleting := own id isRemove
    change (store.entries.erase name)[cn]? = none at gone
    rw [HashMap.get_erase] at gone
    split at gone
    next same =>
      subst same
      exact resolved event.1 id name (isDeleting ▸ found) stored isStored
    · cases isStored.symm.trans gone
  | wipe own holds reads => cases isRemove.symm.trans own
  | @claim _ name other own free holds reads =>
    change (store.entries.insert name (.number other))[cn]? = none at gone
    rw [HashMap.get_insert] at gone
    split at gone
    · cases gone
    · cases isStored.symm.trans gone

/-- No command of a removal deletes an entry with another id. -/
def RemovesOwn (desk : DenylistDesk) (events : List (Nat × Outcome)) : Prop :=
  ∀ earlier event later before after client id (cn : String) stored,
    events = earlier ++ event :: later → run step desk earlier = some before →
    step before event = some after → before.clients[event.1]? = some client →
    client.request = .remove id → before.store.entries[cn]? = some stored →
    after.store.entries[cn]? = none → stored = .number id

def UniqueIds (desk : DenylistDesk) : Prop :=
  ∀ (cn other : String) id, desk.store.entries[cn]? = some (.number id) →
    desk.store.entries[other]? = some (.number id) → cn = other

/-- An id that an add has answered was stored for the name after one of its commands. -/
def AnswersStored (desk : DenylistDesk) (events : List (Nat × Outcome)) (final : DenylistDesk) :
    Prop :=
  ∀ turn cn id, final.clients[turn]? = some ⟨.add cn, .ret (.added id)⟩ →
    ∃ earlier outcome later moment, events = earlier ++ (turn, outcome) :: later ∧
      run step desk (earlier ++ [(turn, outcome)]) = some moment ∧
      moment.store.entries[cn]? = some (.number id)

theorem answers_stored {events : List (Nat × Outcome)} {final : DenylistDesk}
    (staged : ∃ stages, desk.Staged Stage.client stages)
    (open' : desk.clients[turn]? ≠ some ⟨.add cn, .ret (.added id)⟩)
    (ran : run step desk events = some final)
    (answered : final.clients[turn]? = some ⟨.add cn, .ret (.added id)⟩) :
    ∃ earlier outcome later moment, events = earlier ++ (turn, outcome) :: later ∧
      run step desk (earlier ++ [(turn, outcome)]) = some moment ∧
      moment.store.entries[cn]? = some (.number id) := by
  induction events generalizing desk with
  | nil =>
    cases ran
    exact absurd answered open'
  | cons event rest ih =>
    obtain ⟨next, stepped, ran⟩ := run_cons_eq_some.mp ran
    obtain ⟨stages, staged⟩ := staged
    obtain ⟨before, after, found, ⟨-, told⟩, later⟩ := step_moves staged stepped
    by_cases isNow : next.clients[turn]? = some ⟨.add cn, .ret (.added id)⟩
    · -- the answer is given by this command
      obtain ⟨stage, isStage, isClient⟩ := later.get isNow
      rcases Desk.get_set isStage with ⟨rfl, rfl⟩ | ⟨apart, isStage⟩
      · refine ⟨[], event.2, rest, next, rfl, ?_, told cn id (Stage.eq_answered isClient)⟩
        exact run_cons_eq_some.mpr ⟨next, stepped, rfl⟩
      · refine absurd ?_ open'
        rw [staged, List.getElem?_map, isStage]
        exact congrArg some isClient
    · obtain ⟨earlier, outcome, later, moment, rfl, reached, isStored⟩ := ih ⟨_, later⟩ isNow ran
      exact ⟨event :: earlier, outcome, later, moment, rfl,
        run_cons_eq_some.mpr ⟨next, stepped, reached⟩, isStored⟩

/-- Over any interleaving of the commands of any calls, also if commands fail: a removal deletes
only the entry with its own id, no id is stored for two names, and what an add answers was
stored. -/
theorem removes_only_own_entry {store : Store} (sound : store.Sound) (requests : List Request)
    (events : List (Nat × Outcome)) (final : DenylistDesk)
    (careful : Meets step Careful (start store requests) events)
    (ran : run step (start store requests) events = some final) :
    RemovesOwn (start store requests) events ∧ UniqueIds final ∧
      AnswersStored (start store requests) events final := by
  refine ⟨?_, ?_, ?_⟩
  · intro earlier event later before after client id cn stored isEvents reached stepped isClient
      isRemove isStored gone
    subst isEvents
    have guarded : Guarded before :=
      run_preserves_of_meets
        (fun _ _ _ guarded careful stepped => guarded_step guarded careful stepped)
        (guarded_start store requests) (meets_append.mp careful).1 reached
    exact removed_own guarded stepped isClient isRemove isStored gone
  · obtain ⟨stages, -, holding⟩ : Tracked final :=
      run_preserves (fun _ _ _ tracked stepped => tracked_step tracked stepped)
        (tracked_start sound requests) ran
    exact holding.sound.unique
  · intro turn cn id answered
    refine answers_stored ⟨_, staged_start store requests⟩ (fun isNow => ?_) ran answered
    obtain ⟨stage, isStage, isClient⟩ := (staged_start store requests).get isNow
    obtain ⟨request, rfl⟩ := first_of_start isStage
    cases request <;> cases Stage.eq_answered isClient

namespace Sample

def store : Store :=
  { entries := (∅ : HashMap String Stored).insert "laptop-7.zpr" (.number 1), nextId := 1 }

def fine : Outcome := { delivery := .answered, order := .ascending }

/-- The entry is removed by its id, the list is cleared and the laptop is denied again. -/
def requests : List Request := [.remove 1, .clear, .add "laptop-7.zpr"]

/-- The removal resolves its id; the list is cleared and the laptop denied again under the second
id; the removal deletes by name. -/
def raced : List (Nat × Outcome) :=
  [(0, fine), (1, fine), (2, fine), (2, fine), (2, fine), (0, fine)]

theorem sound : store.Sound where
  bounded cn id found := by
    rcases HashMap.of_get_insert found with ⟨-, ⟨⟩⟩ | ⟨-, before⟩
    · exact le_rfl
    · simp at before
  unique cn other id found found' := by
    rcases HashMap.of_get_insert found with ⟨rfl, -⟩ | ⟨-, before⟩
    · rcases HashMap.of_get_insert found' with ⟨same, -⟩ | ⟨-, before⟩
      · exact same.symm
      · simp at before
    · simp at before

end Sample

/-- The entry that a removal deletes may be a new one with another id. -/
theorem fresh_entry_removed :
    ¬ ∀ (store : Store) (_ : store.Sound) (requests : List Request)
      (events : List (Nat × Outcome)) (final : DenylistDesk),
      run step (start store requests) events = some final →
      RemovesOwn (start store requests) events ∧ UniqueIds final ∧
        AnswersStored (start store requests) events final := by
  intro always
  have own := (always Sample.store Sample.sound Sample.requests Sample.raced _
    (run_eq_some_getD (by decide +kernel) (start Sample.store []))).1
  have same := own (Sample.raced.take 5) (0, Sample.fine) []
    ((run step (start Sample.store Sample.requests) (Sample.raced.take 5)).getD
      (start Sample.store []))
    ((run step (start Sample.store Sample.requests) Sample.raced).getD (start Sample.store []))
    (Stage.deleting 1 "laptop-7.zpr").client 1 "laptop-7.zpr" (.number 2) rfl
    (run_eq_some_getD (by decide +kernel) _) rfl rfl rfl (by decide +kernel) (by decide +kernel)
  cases same

/-- The removal ends before the list is cleared and the laptop denied again. -/
theorem laptop_removed_and_denied_again :
    RemovesOwn (start Sample.store Sample.requests)
        [(0, Sample.fine), (0, Sample.fine), (1, Sample.fine), (2, Sample.fine), (2, Sample.fine),
          (2, Sample.fine)] :=
  (removes_only_own_entry Sample.sound Sample.requests
    [(0, Sample.fine), (0, Sample.fine), (1, Sample.fine), (2, Sample.fine), (2, Sample.fine),
      (2, Sample.fine)] _ (by decide +kernel)
    (run_eq_some_getD (by decide +kernel) (start Sample.store []))).1

end BootstrapDenylist

end VisaService
