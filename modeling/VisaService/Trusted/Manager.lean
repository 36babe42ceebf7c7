import VisaService.Basic

/-!
# Revisions of trusted services

The manager knows the revision of the data that each trusted service currently serves, and for
every actor the revision that its attributes were last refreshed from. A source is stale for
an actor unless the two agree. A targeted notification clears the record of one actor and one
source and advances its generation; a refresh commits only to the generation it observed.
-/
namespace VisaService

open Lib

/-- A revision no service carries. -/
def revisionNever : Nat := 0

structure RevisionRecord where
  revision : Option Nat
  generation : Nat
  deriving DecidableEq, Repr

def RevisionRecord.empty : RevisionRecord := ⟨none, 0⟩

structure TrustedServicesMgr where
  /-- The current revision of each configured service, by source id. -/
  services : HashMap String Nat
  actorRevisions : HashMap IpAddr (HashMap String RevisionRecord)
  /-- The process-wide `REVISION_COUNTER`. -/
  revisionCounter : Nat

namespace TrustedServicesMgr

/-- The record of an actor and a source, the default one if there is none. -/
def record (mgr : TrustedServicesMgr) (addr : IpAddr) (source : String) : RevisionRecord :=
  (mgr.actorRevisions[addr]?.bind fun records => records[source]?).getD .empty

/-- Write the record, creating the entries that lead to it. -/
def setRecord (mgr : TrustedServicesMgr) (addr : IpAddr) (source : String)
    (record : RevisionRecord) : TrustedServicesMgr :=
  let records := (mgr.actorRevisions[addr]?.getD ∅).insert source record
  { mgr with actorRevisions := mgr.actorRevisions.insert addr records }

/-- The sources whose revision is not the recorded one, with their revision. -/
def staleSourcesForActor (mgr : TrustedServicesMgr) (addr : IpAddr) : List (String × Nat) :=
  mgr.services.toList.filter fun (source, revision) =>
    (mgr.record addr source).revision ≠ some revision

def invalidationGeneration (mgr : TrustedServicesMgr) (addr : IpAddr) (source : String) : Nat :=
  (mgr.record addr source).generation

/-- Whether the commit landed, and the manager after it. -/
def recordRevisionAtGeneration (mgr : TrustedServicesMgr) (addr : IpAddr) (source : String)
    (revision observedGeneration : Nat) : Bool × TrustedServicesMgr :=
  let record := mgr.record addr source
  if record.generation ≠ observedGeneration then (false, mgr.setRecord addr source record)
  else (true, mgr.setRecord addr source { record with revision := some revision })

def forgetActorRevisions (mgr : TrustedServicesMgr) (addr : IpAddr) : TrustedServicesMgr :=
  { mgr with actorRevisions := mgr.actorRevisions.erase addr }

def forgetSourceRevision (mgr : TrustedServicesMgr) (addr : IpAddr) (source : String) :
    TrustedServicesMgr :=
  mgr.setRecord addr source ⟨none, (mgr.record addr source).generation + 1⟩

/-- The service takes the next revision. -/
def flushOne (mgr : TrustedServicesMgr) (source : String) :
    Except ServiceError TrustedServicesMgr :=
  if source ∈ mgr.services then
    .ok { mgr with
      services := mgr.services.insert source mgr.revisionCounter
      revisionCounter := mgr.revisionCounter + 1 }
  else .error (.trustedServiceNotFound source)

/-! ### One lemma per operation -/

variable {mgr : TrustedServicesMgr} {addr : IpAddr} {source : String}

@[simp] theorem setRecord_services (record : RevisionRecord) :
    (mgr.setRecord addr source record).services = mgr.services := rfl

theorem record_setRecord (record : RevisionRecord) (other : String) :
    (mgr.setRecord addr source record).record addr other =
      if source = other then record else mgr.record addr other := by
  simp only [setRecord, TrustedServicesMgr.record, HashMap.get_insert, if_true, Option.bind_some]
  split
  · rfl
  · cases mgr.actorRevisions[addr]? <;> simp

theorem record_setRecord_of_ne {other : IpAddr} (apart : addr ≠ other) (record : RevisionRecord)
    (name : String) :
    (mgr.setRecord addr source record).record other name = mgr.record other name := by
  simp only [setRecord, TrustedServicesMgr.record, HashMap.get_insert, if_neg apart]

theorem record_setRecord_self (other : IpAddr) (name : String) :
    (mgr.setRecord addr source (mgr.record addr source)).record other name =
      mgr.record other name := by
  by_cases own : addr = other
  · subst own
    rw [record_setRecord]
    split
    next same => rw [same]
    · rfl
  · exact record_setRecord_of_ne own _ name

variable (mgr addr source) in
theorem record_forgetSourceRevision (other : String) :
    (mgr.forgetSourceRevision addr source).record addr other =
      if source = other then ⟨none, (mgr.record addr source).generation + 1⟩
      else mgr.record addr other :=
  record_setRecord _ other

theorem record_forgetActorRevisions (other : String) :
    (mgr.forgetActorRevisions addr).record addr other = .empty := by
  simp [forgetActorRevisions, record]

theorem mem_staleSourcesForActor {revision : Nat} :
    (source, revision) ∈ mgr.staleSourcesForActor addr ↔
      mgr.services[source]? = some revision ∧
        (mgr.record addr source).revision ≠ some revision := by
  simp [staleSourcesForActor, Std.ExtTreeMap.mem_toList_iff_getElem?_eq_some]

/-- A source is current for an actor if it is configured and not stale. -/
def Current (mgr : TrustedServicesMgr) (addr : IpAddr) (source : String) : Prop :=
  ∃ revision, mgr.services[source]? = some revision ∧
    (mgr.record addr source).revision = some revision

theorem current_iff :
    mgr.Current addr source ↔
      source ∈ mgr.services ∧ ∀ revision, (source, revision) ∉ mgr.staleSourcesForActor addr := by
  constructor
  · rintro ⟨revision, serves, recorded⟩
    refine ⟨HashMap.mem_of_get serves, fun other stale => ?_⟩
    obtain ⟨same, differs⟩ := mem_staleSourcesForActor.mp stale
    rw [serves] at same
    exact differs (same ▸ recorded)
  · rintro ⟨configured, fresh⟩
    obtain ⟨revision, serves⟩ := HashMap.get_of_mem configured
    refine ⟨revision, serves, ?_⟩
    by_contra differs
    exact fresh revision (mem_staleSourcesForActor.mpr ⟨serves, differs⟩)

end TrustedServicesMgr

end VisaService
