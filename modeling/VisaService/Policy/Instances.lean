import VisaService.Basic
import VisaService.Lib.Run
import VisaService.Lib.RowIndex

/-!
# Policy instance numbers

Every install gives the policy an instance number. An update takes the number from memory, a start
takes it from the database, and a start with the container that is already current keeps it.
`PolicyHost` is the database with the process on it. A write is applied as a whole or not at all,
but its reply can be lost after it was applied: the update then fails with the new policy stored
and the old one live.

Main results: `instance_wraps` and `instances_increase`.
-/
namespace VisaService

open Lib

abbrev PolicyContainerBytes : Type := List UInt8

/-- `policy:current` together with the containers by their hash. -/
structure PolicyDb where
  phash : Option String
  vinst : Option Nat
  containers : HashMap String PolicyContainerBytes

structure PolicyIdentifier where
  phash : String
  vinst : Nat
  deriving DecidableEq, Repr

/-- Where an install or a start fails. -/
inductive PolicyFault where
  | decode
  | read
  /-- Resolution of the topology, or a trusted service that cannot be built. -/
  | build
  /-- Nothing is written. -/
  | write
  /-- The database has written, and its reply is lost. -/
  | reply
  deriving DecidableEq, Repr

namespace PolicyDb

def getCurrentIdentifier (db : PolicyDb) : Except StoreError (Option PolicyIdentifier) :=
  match db.phash with
  | none => .ok none
  | some phash =>
    match db.vinst with
    | none => .error (.invalidData s!"current policy {phash} has no vinst field")
    | some vinst => .ok (some ⟨phash, vinst⟩)

/-- One pipeline for a new container; the instance number alone when it is the current one. -/
def setCurrentPolicy (hash : PolicyContainerBytes → String) (db : PolicyDb)
    (container : PolicyContainerBytes) (vinst : Nat) : PolicyDb :=
  let phash := hash container
  if db.phash.getD "" = phash ∧ phash ∈ db.containers then { db with vinst := some vinst }
  else ⟨some phash, some vinst, db.containers.insert phash container⟩

end PolicyDb

structure LivePolicy where
  container : PolicyContainerBytes
  vinst : Nat
  deriving DecidableEq

structure PolicyHost where
  db : PolicyDb
  live : Option LivePolicy
  /-- Bookkeeping: the identifiers that were live, the newest first. -/
  history : List PolicyIdentifier

inductive PolicyEvent where
  | updatePolicy (container : PolicyContainerBytes) (fault : Option PolicyFault)
  | newWithInitialPolicy (container : PolicyContainerBytes) (fault : Option PolicyFault)
  | newFromState (fault : Option PolicyFault)

namespace PolicyHost

variable (hash : PolicyContainerBytes → String)

def install (host : PolicyHost) (container : PolicyContainerBytes) (vinst : Nat) : PolicyHost where
  db := host.db.setCurrentPolicy hash container vinst
  live := some ⟨container, vinst⟩
  history := ⟨hash container, vinst⟩ :: host.history

/-- The policy is stored, and the caller does not learn of it. -/
def storeUnanswered (host : PolicyHost) (container : PolicyContainerBytes) (vinst : Nat) :
    PolicyHost :=
  { host with db := host.db.setCurrentPolicy hash container vinst }

/-- The number is one more than that of the live policy, in 64 bits. A failed update leaves
the live policy alone. -/
def updatePolicy (host : PolicyHost) (current : LivePolicy) (container : PolicyContainerBytes)
    (fault : Option PolicyFault) : PolicyHost :=
  let vinst := (current.vinst + 1) % 2 ^ 64
  match fault with
  | none => host.install hash container vinst
  | some .reply => host.storeUnanswered hash container vinst
  | some _ => host

/-- The number of a policy that a process starts with: that of the stored policy if it is the
same container, otherwise the next. -/
def initialVinst (db : PolicyDb) (container : PolicyContainerBytes) : Except StoreError Nat :=
  match db.getCurrentIdentifier with
  | .error failure => .error failure
  | .ok none => .ok 1
  | .ok (some ident) =>
    if ident.phash = hash container then .ok ident.vinst
    else if ident.vinst + 1 < 2 ^ 64 then .ok (ident.vinst + 1)
    else .error (.invalidData "persisted vinst is u64::MAX; cannot advance")

/-- A process that fails to start has no policy. -/
def newWithInitialPolicy (host : PolicyHost) (container : PolicyContainerBytes)
    (fault : Option PolicyFault) : PolicyHost :=
  let stopped : PolicyHost := { host with live := none }
  match initialVinst hash host.db container, fault with
  | .error _, _ => stopped
  | .ok vinst, none => host.install hash container vinst
  | .ok vinst, some .reply => stopped.storeUnanswered hash container vinst
  | .ok _, some _ => stopped

/-- Nothing is written. -/
def newFromState (host : PolicyHost) (fault : Option PolicyFault) : PolicyHost :=
  if fault.isSome then { host with live := none }
  else
    match host.db.phash.bind fun phash => host.db.containers[phash]? with
    | none => { host with live := none }
    | some container =>
      match host.db.getCurrentIdentifier with
      | .error _ => { host with live := none }
      | .ok ident =>
        let vinst := (ident.map PolicyIdentifier.vinst).getD 1
        { host with
          live := some ⟨container, vinst⟩
          history := ⟨hash container, vinst⟩ :: host.history }

/-- Updates need a running process; a start ends the process that was running. -/
def step (host : PolicyHost) : PolicyEvent → Option PolicyHost
  | .updatePolicy container fault =>
    host.live.map fun current => host.updatePolicy hash current container fault
  | .newWithInitialPolicy container fault => some (host.newWithInitialPolicy hash container fault)
  | .newFromState fault => some (host.newFromState hash fault)

/-- A database on which no process runs; what it stores was live before. -/
def stopped (db : PolicyDb) : PolicyHost where
  db := db
  live := none
  history := match db.getCurrentIdentifier with
    | .ok (some ident) => [ident]
    | _ => []

/-- The live number is not the largest when an update takes the next. -/
def Advances (host : PolicyHost) : PolicyEvent → Prop
  | .updatePolicy _ _ => ∀ current ∈ host.live, current.vinst + 1 < 2 ^ 64
  | _ => True

instance (host : PolicyHost) (event : PolicyEvent) : Decidable (host.Advances event) :=
  match event with
  | .updatePolicy _ _ => inferInstanceAs (Decidable (∀ _ ∈ _, _))
  | .newWithInitialPolicy _ _ | .newFromState _ => isTrue trivial

/-! ### The history -/

/-- A later identifier has a larger number, or is of the same container with no smaller one. -/
def Follows (later earlier : PolicyIdentifier) : Prop :=
  earlier.vinst ≤ later.vinst ∧ (earlier.phash ≠ later.phash → earlier.vinst < later.vinst)

def Hashed (db : PolicyDb) : Prop :=
  ∀ phash container, db.containers[phash]? = some container → hash container = phash

/-- The stored identifier follows the newest that was live, which is that of the live policy. -/
structure Inv (host : PolicyHost) : Prop where
  hashed : Hashed hash host.db
  ordered : host.history.Pairwise Follows
  stored : ∀ newest, host.history.head? = some newest →
    ∃ ident, host.db.getCurrentIdentifier = .ok (some ident) ∧ Follows ident newest
  live : ∀ current ∈ host.live,
    host.history.head? = some ⟨hash current.container, current.vinst⟩

variable {hash} {host next : PolicyHost}

theorem Follows.refl (ident : PolicyIdentifier) : Follows ident ident :=
  ⟨Nat.le_refl _, fun apart => absurd rfl apart⟩

theorem Follows.trans {first second third : PolicyIdentifier} (later : Follows third second)
    (earlier : Follows second first) : Follows third first := by
  refine ⟨earlier.1.trans later.1, fun apart => ?_⟩
  by_cases same : first.phash = second.phash
  · exact Nat.lt_of_le_of_lt earlier.1 (later.2 fun also => apart (same.trans also))
  · exact Nat.lt_of_lt_of_le (earlier.2 same) later.1

theorem Inv.ordered_cons (inv : Inv hash host) {ident : PolicyIdentifier}
    (follows : ∀ newest, host.history.head? = some newest → Follows ident newest) :
    (ident :: host.history).Pairwise Follows := by
  refine List.pairwise_cons.mpr ⟨fun earlier member => ?_, inv.ordered⟩
  cases isHistory : host.history with
  | nil =>
    rw [isHistory] at member
    cases member
  | cons newest rest =>
    have first : Follows ident newest := follows newest (by rw [isHistory]; rfl)
    have ordered := inv.ordered
    rw [isHistory] at member ordered
    rcases List.mem_cons.mp member with rfl | older
    · exact first
    · exact first.trans ((List.pairwise_cons.mp ordered).1 earlier older)

/-- What follows the stored identifier follows the newest that was live. -/
theorem Inv.follows_newest (inv : Inv hash host) {ident : PolicyIdentifier}
    (follows : ∀ stored, host.db.getCurrentIdentifier = .ok (some stored) → Follows ident stored)
    (newest : PolicyIdentifier) (isNewest : host.history.head? = some newest) :
    Follows ident newest := by
  obtain ⟨stored, isStored, later⟩ := inv.stored newest isNewest
  exact (follows stored isStored).trans later

theorem setCurrentPolicy_identifier (digest : ∀ container, hash container ≠ "") (db : PolicyDb)
    (container : PolicyContainerBytes) (vinst : Nat) :
    (db.setCurrentPolicy hash container vinst).getCurrentIdentifier =
      .ok (some ⟨hash container, vinst⟩) := by
  unfold PolicyDb.setCurrentPolicy
  dsimp only
  split
  next unchanged =>
    have isHash : db.phash = some (hash container) := by
      cases current : db.phash with
      | none =>
        rw [current] at unchanged
        exact absurd unchanged.1.symm (digest container)
      | some phash =>
        rw [current] at unchanged
        exact congrArg some unchanged.1
    simp only [PolicyDb.getCurrentIdentifier, isHash]
  · rfl

variable {db : PolicyDb}

theorem setCurrentPolicy_hashed (hashed : Hashed hash db) (container : PolicyContainerBytes)
    (vinst : Nat) :
    Hashed hash (db.setCurrentPolicy hash container vinst) := by
  unfold PolicyDb.setCurrentPolicy
  dsimp only
  split
  · exact hashed
  · intro phash stored found
    rcases HashMap.of_get_insert found with ⟨rfl, rfl⟩ | ⟨-, before⟩
    · rfl
    · exact hashed phash stored before

section Writes

variable (digest : ∀ container, hash container ≠ "") (inv : Inv hash host)
  {container : PolicyContainerBytes} {vinst : Nat}
  (follows : ∀ newest, host.history.head? = some newest → Follows ⟨hash container, vinst⟩ newest)
include digest inv follows

theorem Inv.install : Inv hash (host.install hash container vinst) where
  hashed := setCurrentPolicy_hashed inv.hashed container vinst
  ordered := inv.ordered_cons follows
  stored newest isNewest := by
    cases isNewest
    exact ⟨_, setCurrentPolicy_identifier digest host.db container vinst, .refl _⟩
  live current isLive := by
    cases isLive
    rfl

theorem Inv.storeUnanswered : Inv hash (host.storeUnanswered hash container vinst) where
  hashed := setCurrentPolicy_hashed inv.hashed container vinst
  ordered := inv.ordered
  stored newest isNewest :=
    ⟨_, setCurrentPolicy_identifier digest host.db container vinst, follows newest isNewest⟩
  live := inv.live

end Writes

theorem Inv.stop (inv : Inv hash host) : Inv hash { host with live := none } :=
  { inv with live := fun _ isLive => by cases isLive }

theorem Inv.updatePolicy (digest : ∀ container, hash container ≠ "") (inv : Inv hash host)
    {current : LivePolicy} (isLive : host.live = some current) (bound : current.vinst + 1 < 2 ^ 64)
    (container : PolicyContainerBytes) (fault : Option PolicyFault) :
    Inv hash (host.updatePolicy hash current container fault) := by
  have follows (newest : PolicyIdentifier) (isNewest : host.history.head? = some newest) :
      Follows ⟨hash container, (current.vinst + 1) % 2 ^ 64⟩ newest := by
    rw [Nat.mod_eq_of_lt bound]
    cases (inv.live current isLive).symm.trans isNewest
    exact ⟨Nat.le_succ _, fun _ => Nat.lt_succ_self _⟩
  unfold PolicyHost.updatePolicy
  dsimp only
  split
  · exact inv.install digest follows
  · exact inv.storeUnanswered digest follows
  · exact inv

theorem initialVinst_follows {container : PolicyContainerBytes} {vinst : Nat}
    (starts : initialVinst hash db container = .ok vinst) (newest : PolicyIdentifier)
    (stored : db.getCurrentIdentifier = .ok (some newest)) :
    Follows ⟨hash container, vinst⟩ newest := by
  unfold initialVinst at starts
  rw [stored] at starts
  dsimp only at starts
  split at starts
  next same =>
    cases starts
    exact ⟨Nat.le_refl _, fun apart => absurd same apart⟩
  · split at starts
    · cases starts
      exact ⟨Nat.le_succ _, fun _ => Nat.lt_succ_self _⟩
    · cases starts

theorem Inv.newWithInitialPolicy (digest : ∀ container, hash container ≠ "")
    (inv : Inv hash host) (container : PolicyContainerBytes) (fault : Option PolicyFault) :
    Inv hash (host.newWithInitialPolicy hash container fault) := by
  unfold PolicyHost.newWithInitialPolicy
  dsimp only
  split
  · exact inv.stop
  next vinst starts => exact inv.install digest (inv.follows_newest (initialVinst_follows starts))
  next vinst starts =>
    exact inv.stop.storeUnanswered digest (inv.follows_newest (initialVinst_follows starts))
  · exact inv.stop

/-- The stored identifier is that of the container that is found. -/
theorem newFromState_cases (hashed : Hashed hash host.db) (fault : Option PolicyFault) :
    host.newFromState hash fault = { host with live := none } ∨
      ∃ container vinst,
        host.db.getCurrentIdentifier = .ok (some ⟨hash container, vinst⟩) ∧
        host.newFromState hash fault = { host with
          live := some ⟨container, vinst⟩
          history := ⟨hash container, vinst⟩ :: host.history } := by
  unfold PolicyHost.newFromState
  split
  · exact .inl rfl
  split
  · exact .inl rfl
  next container isContainer =>
    obtain ⟨phash, isCurrent, isStored⟩ := Option.bind_eq_some_iff.mp isContainer
    cases hashed phash container isStored
    cases isVinst : host.db.vinst with
    | none =>
      left
      simp only [PolicyDb.getCurrentIdentifier, isCurrent, isVinst]
    | some vinst =>
      refine .inr ⟨container, vinst, ?_, ?_⟩
      · simp only [PolicyDb.getCurrentIdentifier, isCurrent, isVinst]
      · simp only [PolicyDb.getCurrentIdentifier, isCurrent, isVinst, Option.map_some,
          Option.getD_some]

theorem Inv.newFromState (inv : Inv hash host) (fault : Option PolicyFault) :
    Inv hash (host.newFromState hash fault) := by
  rcases newFromState_cases inv.hashed fault with stops | ⟨container, vinst, identified, starts⟩
  · rw [stops]
    exact inv.stop
  rw [starts]
  refine ⟨inv.hashed, inv.ordered_cons (inv.follows_newest fun stored isStored => ?_),
    fun newest isNewest => ?_, fun current isLive => ?_⟩
  · cases identified.symm.trans isStored
    exact .refl _
  · cases isNewest
    exact ⟨_, identified, .refl _⟩
  · cases isLive
    rfl

theorem Inv.step (digest : ∀ container, hash container ≠ "") {event : PolicyEvent}
    (inv : Inv hash host) (advances : host.Advances event)
    (stepped : host.step hash event = some next) : Inv hash next := by
  cases event with
  | updatePolicy container fault =>
    obtain ⟨current, isLive, rfl⟩ := Option.map_eq_some_iff.mp stepped
    exact inv.updatePolicy digest isLive (advances current isLive) container fault
  | newWithInitialPolicy container fault =>
    cases stepped
    exact inv.newWithInitialPolicy digest container fault
  | newFromState fault =>
    cases stepped
    exact inv.newFromState fault

theorem inv_stopped (hashed : Hashed hash db) : Inv hash (stopped db) := by
  refine ⟨hashed, ?_, fun newest isNewest => ?_, fun _ isLive => by cases isLive⟩
  · unfold stopped
    dsimp only
    split
    · exact List.pairwise_singleton _ _
    · exact List.Pairwise.nil
  · unfold stopped at isNewest
    dsimp only at isNewest
    split at isNewest
    next stored identified =>
      cases isNewest
      exact ⟨_, identified, .refl _⟩
    · cases isNewest

/-! ### The stored identifier -/

/-- The last write since the process was started is that of an update whose reply was lost. -/
def unanswered (events : List PolicyEvent) : Bool :=
  events.foldl (fun lost event => match event with
    | .updatePolicy _ none => false
    | .updatePolicy _ (some .reply) => true
    | .updatePolicy _ (some _) => lost
    | .newWithInitialPolicy _ _ | .newFromState _ => false) false

def StoresLive (hash : PolicyContainerBytes → String) (host : PolicyHost) : Prop :=
  ∀ current ∈ host.live,
    host.db.getCurrentIdentifier = .ok (some ⟨hash current.container, current.vinst⟩)

theorem storesLive_install (digest : ∀ container, hash container ≠ "")
    (container : PolicyContainerBytes) (vinst : Nat) :
    StoresLive hash (host.install hash container vinst) := by
  intro current isLive
  cases isLive
  exact setCurrentPolicy_identifier digest host.db container vinst

/-- The number that was stored is not the live one. -/
theorem not_storesLive_unanswered (digest : ∀ container, hash container ≠ "")
    {current : LivePolicy} (isLive : host.live = some current) (bound : current.vinst + 1 < 2 ^ 64)
    (container : PolicyContainerBytes) :
    ¬ StoresLive hash (host.storeUnanswered hash container ((current.vinst + 1) % 2 ^ 64)) := by
  intro stores
  have same := (stores current isLive).symm.trans
    (setCurrentPolicy_identifier digest host.db container _)
  simp only [Nat.mod_eq_of_lt bound, Except.ok.injEq, Option.some.injEq,
    PolicyIdentifier.mk.injEq] at same
  omega

theorem storesLive_stop (host : PolicyHost) : StoresLive hash { host with live := none } := by
  intro current isLive
  cases isLive

theorem storesLive_newWithInitialPolicy (digest : ∀ container, hash container ≠ "")
    (container : PolicyContainerBytes) (fault : Option PolicyFault) :
    StoresLive hash (host.newWithInitialPolicy hash container fault) := by
  unfold PolicyHost.newWithInitialPolicy
  dsimp only
  split
  · exact storesLive_stop host
  · exact storesLive_install digest container _
  · exact storesLive_stop (host.storeUnanswered hash container _)
  · exact storesLive_stop host

theorem storesLive_newFromState (hashed : Hashed hash host.db) (fault : Option PolicyFault) :
    StoresLive hash (host.newFromState hash fault) := by
  rcases newFromState_cases hashed fault with stops | ⟨container, vinst, identified, starts⟩
  · rw [stops]
    exact storesLive_stop host
  · rw [starts]
    intro current isLive
    cases isLive
    exact identified

theorem inv_of_run (digest : ∀ container, hash container ≠ "") (hashed : Hashed hash db)
    {events : List PolicyEvent} (advances : Meets (step hash) Advances (stopped db) events)
    (ran : run (step hash) (stopped db) events = some host) : Inv hash host :=
  run_preserves_of_meets (fun _ _ _ inv => inv.step digest) (inv_stopped hashed) advances ran

theorem storesLive_iff (digest : ∀ container, hash container ≠ "") (hashed : Hashed hash db)
    {events : List PolicyEvent} (advances : Meets (step hash) Advances (stopped db) events)
    (ran : run (step hash) (stopped db) events = some host) (runs : host.live.isSome = true) :
    StoresLive hash host ↔ unanswered events = false := by
  -- only the last event and, if that failed without an effect, the run before it matter
  induction events using List.reverseRecOn generalizing host with
  | nil =>
    cases ran
    cases runs
  | append_singleton events event ih =>
    obtain ⟨before, ranBefore, last⟩ := run_append_eq_some.mp ran
    obtain ⟨_, stepped, ends⟩ := run_cons_eq_some.mp last
    cases ends
    obtain ⟨early, late⟩ := meets_append.mp advances
    simp only [unanswered, List.foldl_append, List.foldl_cons, List.foldl_nil]
    cases event with
    | updatePolicy container fault =>
      obtain ⟨current, isLive, rfl⟩ := Option.map_eq_some_iff.mp stepped
      have bound := (late before ranBefore).1 current isLive
      rcases fault with _ | fault
      · exact iff_of_true (storesLive_install digest container _) rfl
      · cases fault with
        | reply =>
          exact iff_of_false (not_storesLive_unanswered digest isLive bound container) (by simp)
        | decode | read | build | write => exact ih early ranBefore runs
    | newWithInitialPolicy container fault =>
      cases stepped
      exact iff_of_true (storesLive_newWithInitialPolicy digest container fault) rfl
    | newFromState fault =>
      cases stepped
      have hashed := (inv_of_run digest hashed early ranBefore).hashed
      exact iff_of_true (storesLive_newFromState hashed fault) rfl

/-- Every run of installs and starts in which no update finds the largest number: among the
identifiers that were live, a later one has a larger number, or is of the same container with
no smaller one; the live policy has the newest; and its identifier is the stored one unless the
last write is that of an update whose reply was lost. -/
theorem instances_increase (digest : ∀ container, hash container ≠ "") {db : PolicyDb}
    (hashed : Hashed hash db) {events : List PolicyEvent} {final : PolicyHost}
    (advances : Meets (step hash) Advances (stopped db) events)
    (ran : run (step hash) (stopped db) events = some final) :
    final.history.Pairwise (fun later earlier => earlier.vinst ≤ later.vinst ∧
        (earlier.phash ≠ later.phash → earlier.vinst < later.vinst)) ∧
      ∀ current ∈ final.live,
        final.history.head? = some ⟨hash current.container, current.vinst⟩ ∧
          (final.db.getCurrentIdentifier = .ok (some ⟨hash current.container, current.vinst⟩) ↔
            unanswered events = false) := by
  have inv := inv_of_run digest hashed advances ran
  refine ⟨inv.ordered, fun current isLive => ⟨inv.live current isLive, ?_⟩⟩
  rw [← storesLive_iff digest hashed advances ran (Option.isSome_of_mem isLive)]
  constructor
  · intro stored other isOther
    cases isLive.symm.trans isOther
    exact stored
  · exact fun stores => stores current isLive

end PolicyHost

namespace PolicySample

/-- A stand-in for SHA-256 that tells the two containers apart. -/
def hash (container : PolicyContainerBytes) : String := if container.isEmpty then "a" else "b"

theorem hash_digest (container : PolicyContainerBytes) : hash container ≠ "" := by
  unfold hash
  split <;> decide

def db (vinst : Nat) : PolicyDb :=
  ⟨some "a", some vinst, (∅ : HashMap String PolicyContainerBytes).insert "a" []⟩

theorem db_hashed (vinst : Nat) : PolicyHost.Hashed hash (db vinst) := by
  intro phash container found
  rcases HashMap.of_get_insert found with ⟨rfl, rfl⟩ | ⟨-, before⟩
  · rfl
  · simp at before

/-- The process starts from the database, and another container is installed. -/
def events : List PolicyEvent := [.newFromState none, .updatePolicy [0] none]

def after (vinst : Nat) : PolicyHost :=
  (run (PolicyHost.step hash) (.stopped (db vinst)) events).getD (.stopped (db vinst))

end PolicySample

open PolicySample in
/-- An update at the largest number gets the number zero. -/
theorem instance_wraps :
    ¬ ∀ (hash : PolicyContainerBytes → String) (db : PolicyDb) (events : List PolicyEvent)
      (final : PolicyHost), (∀ container, hash container ≠ "") → PolicyHost.Hashed hash db →
      run (PolicyHost.step hash) (.stopped db) events = some final →
      final.history.Pairwise (fun later earlier => earlier.vinst ≤ later.vinst ∧
          (earlier.phash ≠ later.phash → earlier.vinst < later.vinst)) ∧
        ∀ current ∈ final.live,
          final.db.getCurrentIdentifier = .ok (some ⟨hash current.container, current.vinst⟩) ∧
            final.history.head? = some ⟨hash current.container, current.vinst⟩ := by
  intro increases
  have ran : run (PolicyHost.step hash) (.stopped (db (2 ^ 64 - 1))) events =
      some (after (2 ^ 64 - 1)) :=
    run_eq_some_getD (by decide +kernel) _
  have ordered := (increases hash _ events _ hash_digest (db_hashed _) ran).1
  revert ordered
  decide +kernel

open PolicySample in
/-- After five comes six, and is stored. -/
theorem instance_advances :
    (after 5).live = some ⟨[0], 6⟩ ∧
      (after 5).history.Pairwise (fun later earlier => earlier.vinst ≤ later.vinst ∧
        (earlier.phash ≠ later.phash → earlier.vinst < later.vinst)) ∧
      (after 5).db.getCurrentIdentifier = .ok (some ⟨"b", 6⟩) := by
  have ran : run (PolicyHost.step hash) (.stopped (db 5)) events = some (after 5) :=
    run_eq_some_getD (by decide +kernel) _
  have isLive : (after 5).live = some ⟨[0], 6⟩ := by decide +kernel
  obtain ⟨ordered, stored⟩ :=
    PolicyHost.instances_increase hash_digest (db_hashed 5) (by decide +kernel) ran
  exact ⟨isLive, ordered, (stored _ isLive).2.mpr rfl⟩

end VisaService
