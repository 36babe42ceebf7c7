import VisaService.Visa.Request

/-!
# Visa requests against the sweep of a policy update

A request takes a snapshot of the live policy, evaluates the flow under it and stores the
visa some awaits later. A policy install replaces the live policy and queues a
`PolicyUpdated` event, whose handler ends with a sweep: it lists the live visas once and
re-checks those that were last checked under an older policy. A visa that is stored
after the listing but was decided under an older policy is never looked at.
-/
namespace VisaService

open Lib

variable {codec : VisaCodec}

/-! ### The machine -/

inductive RequestPhase where
  /-- Resolving and refreshing the two actors; policy has not been read. -/
  | refreshing
  /-- Evaluating under the policy snapshot of this generation. -/
  | evaluating (vinst : Nat)
  /-- Allowed, waiting for `get_next_visa_id`. -/
  | numbering (draft : VisaDraft)
  /-- Reading the session keys, then storing. -/
  | storing (draft : VisaDraft) (visaId : Nat) (metadata : VisaMetadata)

/-- A request in flight; `arrived` is the generation that was live when it came in. -/
structure VisaRequest where
  job : VisaRequestJob
  arrived : Nat
  phase : RequestPhase

/-- The verdict of a re-check that asks for a write. -/
inductive SweepVerdict where
  | allow
  | deny
  deriving DecidableEq, Repr

def SweepVerdict.op (visaId vinst : Nat) : SweepVerdict → RepoOp
  | .allow => .recordAllowVerdict visaId vinst
  | .deny => .recordDenyVerdict visaId vinst

/-- Where the event worker is in `handle_policy_updated`, with the generation of its
policy snapshot. -/
inductive SweepPhase where
  | idle
  /-- Attributes, nodes, topology and obligations, before the sweep proper. -/
  | preparing (target : Nat)
  /-- The listed visas that are still to be looked at. -/
  | checking (target : Nat) (rest : List (Nat × VisaMetadata))
  /-- A re-check came back. -/
  | judged (target visaId : Nat) (verdict : SweepVerdict) (rest : List (Nat × VisaMetadata))
  /-- The target was still the live policy; the verdict is about to be recorded. -/
  | recording (target visaId : Nat) (verdict : SweepVerdict)
      (rest : List (Nat × VisaMetadata))

structure Reconciler (codec : VisaCodec) where
  repo : Repo codec
  /-- Generation of the live policy. -/
  vinst : Nat
  requests : List VisaRequest
  sweep : SweepPhase
  /-- Generations whose sweep ran to its end. -/
  completed : List Nat

inductive ReconcilerEvent where
  | tick (nanos : Nat)
  | purgeExpired
  /-- Departures, install acknowledgements and revoke acknowledgements. -/
  | background (op : RepoOp)
  | arrive (job : VisaRequestJob)
  | takePolicy (position : Nat)
  | evaluate (position : Nat) (env : FlowEnv)
  | number (position : Nat)
  | store (position : Nat) (ingressKey egressKey : List UInt8)
  | installPolicy
  | policyUpdated
  /-- The handler fails before it gets to the sweep. -/
  | giveUp
  | listVisas
  | check (env : FlowEnv)
  | compare
  | record

/-- The store operations of the rest of the service. -/
def RepoOp.Background : RepoOp → Prop
  | .markVisaRevoked _ => True
  | .transitionNodeVisaState _ _ expected new => expected = .pendingInstall ∧ new = .installed
  | .removeNodeIfPendingRevoke _ _ => True
  | .removeVisa _ => True
  | .clearNodeState _ => True
  | .storeVisa .. | .recordAllowVerdict .. | .recordDenyVerdict .. => False

instance : DecidablePred RepoOp.Background
  | .markVisaRevoked _ | .removeNodeIfPendingRevoke .. | .removeVisa _ | .clearNodeState _ =>
    .isTrue trivial
  | .transitionNodeVisaState .. => inferInstanceAs (Decidable (_ ∧ _))
  | .storeVisa .. | .recordAllowVerdict .. | .recordDenyVerdict .. => .isFalse id

def listVisaMetadata (now : Nat) (inner : VisaStoreInner) : List (Nat × VisaMetadata) :=
  (inner.visas.toList.filter fun (_, entry) => entry.isLive now).map fun (id, entry) =>
    (id, entry.metadata)

namespace Reconciler

def init (codec : VisaCodec) (now initialVisaId vinst : Nat) : Reconciler codec where
  repo := Repo.init codec now initialVisaId
  vinst := vinst
  requests := []
  sweep := .idle
  completed := []

/-- Redis takes every write. -/
def calls (state : Reconciler codec) (op : RepoOp) : Reconciler codec :=
  { state with repo := (state.repo.call op .applied).1 }

def setPhase (state : Reconciler codec) (position : Nat) (request : VisaRequest)
    (phase : RequestPhase) : Reconciler codec :=
  { state with requests := state.requests.set position { request with phase } }

def finish (state : Reconciler codec) (position : Nat) : Reconciler codec :=
  { state with requests := state.requests.eraseIdx position }

def arrive (state : Reconciler codec) (job : VisaRequestJob) : Reconciler codec :=
  { state with
    requests := state.requests ++ [{ job, arrived := state.vinst, phase := .refreshing }] }

def takePolicy (state : Reconciler codec) (position : Nat) : Option (Reconciler codec) :=
  state.requests[position]?.bind fun request =>
    match request.phase with
    | .refreshing => some (state.setPhase position request (.evaluating state.vinst))
    | _ => none

def evaluate (state : Reconciler codec) (position : Nat) (env : FlowEnv) :
    Option (Reconciler codec) :=
  state.requests[position]?.bind fun request =>
    match request.phase with
    | .evaluating vinst =>
      match decideRequest env state.repo.now vinst request.job with
      | .ok (.create draft) => some (state.setPhase position request (.numbering draft))
      -- denied or failed: the request is answered
      | _ => some (state.finish position)
    | _ => none

def number (state : Reconciler codec) (position : Nat) : Option (Reconciler codec) :=
  state.requests[position]?.bind fun request =>
    match request.phase with
    | .numbering draft =>
      let repo := state.repo.getNextVisaId
      some { state.setPhase position request
          (.storing draft repo.nextVisaId (draft.metadata repo.now)) with repo := repo }
    | _ => none

def store (state : Reconciler codec) (position : Nat) (ingressKey egressKey : List UInt8) :
    Option (Reconciler codec) :=
  state.requests[position]?.bind fun request =>
    match request.phase with
    | .storing draft visaId metadata =>
      let op : RepoOp :=
        .storeVisa (draft.visa visaId ingressKey egressKey) metadata .pendingInstall
      (state.repo.claimId op).map fun claimed =>
        { state.finish position with repo := (claimed.call op .applied).1 }
    | _ => none

def listVisas (state : Reconciler codec) : Option (Reconciler codec) :=
  match state.sweep with
  | .preparing target =>
    some { state with
      sweep := .checking target (listVisaMetadata state.repo.now state.repo.store) }
  | _ => none

def check (resolves : IpAddr → Bool) (state : Reconciler codec) (env : FlowEnv) :
    Option (Reconciler codec) :=
  match state.sweep with
  | .checking target [] =>
    some { state with sweep := .idle, completed := target :: state.completed }
  | .checking target ((visaId, metadata) :: rest) =>
    if target ≤ metadata.checkedVinst then some { state with sweep := .checking target rest }
    else
      match recheckVisaAllowed resolves env metadata with
      | .ok .skipUnresolvedActor => some { state with sweep := .checking target rest }
      | .ok .allowSameRoute => some { state with sweep := .judged target visaId .allow rest }
      | .ok .revoke => some { state with sweep := .judged target visaId .deny rest }
      | .error _ => some { state with sweep := .checking target rest }
  | _ => none

def compare (state : Reconciler codec) : Option (Reconciler codec) :=
  match state.sweep with
  | .judged target visaId verdict rest =>
    -- a newer policy is live, and its own sweep will decide
    if state.vinst ≠ target then some { state with sweep := .checking target rest }
    else some { state with sweep := .recording target visaId verdict rest }
  | _ => none

def record (state : Reconciler codec) : Option (Reconciler codec) :=
  match state.sweep with
  | .recording target visaId verdict rest =>
    some { state.calls (verdict.op visaId target) with sweep := .checking target rest }
  | _ => none

def step (resolves : IpAddr → Bool) (state : Reconciler codec) :
    ReconcilerEvent → Option (Reconciler codec)
  | .tick nanos => some { state with repo := { state.repo with now := state.repo.now + nanos } }
  | .purgeExpired => some { state with repo := state.repo.purgeExpired }
  | .background op => if op.Background then some (state.calls op) else none
  | .arrive job => some (state.arrive job)
  | .takePolicy position => state.takePolicy position
  | .evaluate position env => state.evaluate position env
  | .number position => state.number position
  | .store position ingressKey egressKey => state.store position ingressKey egressKey
  | .installPolicy => some { state with vinst := state.vinst + 1 }
  | .policyUpdated =>
    match state.sweep with
    | .idle => some { state with sweep := .preparing state.vinst }
    | _ => none
  | .giveUp =>
    match state.sweep with
    | .preparing _ => some { state with sweep := .idle }
    | _ => none
  | .listVisas => state.listVisas
  | .check env => state.check resolves env
  | .compare => state.compare
  | .record => state.record

end Reconciler

end VisaService
