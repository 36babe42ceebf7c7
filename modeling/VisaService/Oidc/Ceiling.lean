import VisaService.Oidc.Store
import VisaService.Trusted.Refresh

/-!
# How long a user authority lasts

The authority that a login or a renewal stamps expires at the ceiling of the login at the
latest: its authentication time plus the largest age that policy allows, plus the clock skew.
But authorization and refresh passes derive the authority again from what the provider's store
serves, and the store keeps one set of claims for each subject, with the expiry of the token that
was admitted last. So a later login of the same subject in another session extends the authority
of this one.

`OidcHost` has the sessions at one provider. An address belongs to one session at a time: once its
actor is disconnected, another login may get it.

Main results: `ceiling_exceeded` and `authority_within_ceiling`.
-/
namespace VisaService

open Lib

/-! ### The host -/

/-- A login, renewal or refresh pass under way. -/
inductive OidcWork where
  /-- The token of a login has been admitted. -/
  | admitted (outcome : OidcOutcome)
  /-- The login has been authorized and is to be stored. -/
  | authorized (addr : IpAddr) (actor : Actor)
  /-- The token of a renewal has been admitted. -/
  | readmitted (addr : IpAddr) (loaded : Actor) (outcome : OidcOutcome)
  /-- The renewal has been authorized and is to be stored. -/
  | reauthorized (addr : IpAddr) (actor : Actor) (session : SessionAnchors)
  /-- A pass has loaded the actor. `staleRev` is the revision to catch up with; `asks` tells
  whether the provider is asked at all. -/
  | loaded (addr : IpAddr) (actor : Actor) (staleRev : Option Nat) (asks : Bool)
  /-- The pass has its reply. -/
  | answered (addr : IpAddr) (actor : Actor) (outcome : RefreshOutcome)

/-- The address it is for, once it has one. -/
def OidcWork.addr : OidcWork → Option IpAddr
  | .admitted _ => none
  | .authorized addr _ | .readmitted addr _ _ | .reauthorized addr _ _ | .loaded addr _ _ _
  | .answered addr _ _ => some addr

structure OidcHost where
  now : Nat
  revisionCounter : Nat
  svc : OidcTrustedService
  actors : HashMap IpAddr Actor
  /-- The revision of the provider's claims that each actor has caught up with. -/
  revisions : HashMap IpAddr Nat
  work : HashMap Nat OidcWork
  /-- Bookkeeping: the authentication time of the login of each session. -/
  logins : HashMap IpAddr Nat
  /-- Bookkeeping: the authentication time of the token that a subject's claims are from. -/
  admittedAt : HashMap String Nat

inductive OidcEvent where
  | elapse (nanos : Nat)
  /-- A validated token is presented by a connect. -/
  | login (id : Nat) (token : ValidatedToken)
  /-- Policy is asked about the login, with the claims that other credentials have proven. -/
  | authorize (id : Nat) (env : AuthEnv) (endpointCn : String) (unauthd others : List Attribute)
  | renew (id : Nat) (addr : IpAddr) (issuer : String) (token : ValidatedToken) (clock : Nat)
  | reauthorize (id : Nat) (env : AuthEnv) (others : List BlobOutcome)
  | load (id : Nat) (addr : IpAddr)
  | answer (id : Nat) (policy : Policy)
  /-- The work is written. -/
  | store (id : Nat) (policy : Policy)
  | fail (id : Nat)
  | disconnect (addr : IpAddr)
  | flush

def OidcEvent.leaver : OidcEvent → Option IpAddr
  | disconnect addr => some addr
  | _ => none

namespace OidcHost

/-- Policy, pools and the rest of the environment; the one trusted service is the provider. -/
def env (host : OidcHost) (around : AuthEnv) : AuthEnv :=
  { around with
    now := host.now
    trustedServices := [(host.svc.id, host.svc.getAttributesForActor host.now)] }

def setWork (host : OidcHost) (id : Nat) (work : OidcWork) : OidcHost :=
  { host with work := host.work.insert id work }

def endWork (host : OidcHost) (id : Nat) : OidcHost :=
  { host with work := host.work.erase id }

def admitToken (host : OidcHost) (svc : OidcTrustedService) (token : ValidatedToken) : OidcHost :=
  { host with
    svc
    revisionCounter := host.revisionCounter + 1
    admittedAt := host.admittedAt.insert token.sub token.authTime }

def login (host : OidcHost) (id : Nat) (token : ValidatedToken) : OidcHost :=
  match host.svc.authenticateOidcBlob host.now host.revisionCounter token with
  | .error _ => host
  | .ok (outcome, svc) => (host.admitToken svc token).setWork id (.admitted outcome)

def loginClaims (others : List Attribute) (outcome : OidcOutcome) : List Attribute :=
  others ++ outcome.authd

/-- A login that is approved gets an address of its own, and its anchors are recorded. -/
def authorize (host : OidcHost) (id : Nat) (outcome : OidcOutcome) (around : AuthEnv)
    (endpointCn : String) (unauthd others : List Attribute) : Option OidcHost :=
  let env := host.env around
  match authorizeConnectionImpl env endpointCn unauthd (loginClaims others outcome) none with
  | .error _ => some (host.endWork id)
  | .ok approved =>
    match mintIdent env endpointCn approved, approved.zprAddr with
    | .ok actor, some addr =>
      if addr ∈ host.logins then none
      else
        some ({ host with
          svc := host.svc.recordSession host.now addr outcome.session
          logins := host.logins.insert addr outcome.session.authTime }.setWork id
            (.authorized addr actor))
    | _, _ => some (host.endWork id)

def renew (host : OidcHost) (id : Nat) (addr : IpAddr) (loaded : Actor) (issuer : String)
    (token : ValidatedToken) (clock : Nat) : OidcHost :=
  match host.svc.reauthenticateOidcBlob host.now host.revisionCounter clock loaded issuer
      token with
  | .error _ => host
  | .ok (outcome, svc) => (host.admitToken svc token).setWork id (.readmitted addr loaded outcome)

/-- What the credentials of a renewal contribute. -/
def renewalOutcomes (others : List BlobOutcome) (outcome : OidcOutcome) : List BlobOutcome :=
  others ++ [⟨outcome.authd⟩]

def reauthorize (host : OidcHost) (id : Nat) (addr : IpAddr) (loaded : Actor)
    (outcome : OidcOutcome) (around : AuthEnv) (others : List BlobOutcome) : OidcHost :=
  match reauthorizeActor (host.env around) loaded addr (renewalOutcomes others outcome) with
  | .error _ => host.endWork id
  | .ok actor => host.setWork id (.reauthorized addr actor outcome.session)

/-- The provider is asked if the actor has not caught up with it, or has an expired attribute
from it. -/
def load (host : OidcHost) (id : Nat) (addr : IpAddr) (actor : Actor) : OidcHost :=
  let stale := host.revisions[addr]? ≠ some host.svc.revision
  let expired := actor.attributes.any fun attr =>
    attr.isExpired host.now && attr.source == host.svc.id
  host.setWork id (.loaded addr actor (if stale then some host.svc.revision else none)
    (stale || expired))

def identities (policy : Policy) (actor : Actor) : List (String × String) :=
  lookupIdentities policy.lookupIdentityKeys actor.attributes

def answer (host : OidcHost) (id : Nat) (addr : IpAddr) (loaded : Actor) (staleRev : Option Nat)
    (asks : Bool) (policy : Policy) : OidcHost :=
  if asks then
    let reply := host.svc.getAttributesForActor host.now (identities policy loaded)
    let (actor, outcome) := applyReply host.now host.svc.id
      (staleRev.map fun revision => (revision, 0))
      (loaded.attrs[Key.userAuthority]?.bind fun attr => attr.value.head?) reply loaded .empty
    host.setWork id (.answered addr actor outcome)
  else host.setWork id (.answered addr loaded .empty)

/-- A pass writes the actor if it changed, and records the revision it has caught up with. -/
def storeRefreshed (host : OidcHost) (addr : IpAddr) (actor : Actor) (outcome : RefreshOutcome)
    (policy : Policy) : OidcHost :=
  let revisions := outcome.revisions.foldl (fun revisions (_, revision, _) =>
    revisions.insert addr revision) host.revisions
  if outcome.changed then
    match actor.zprAddr with
    | some target =>
      if target ∈ host.actors then
        { host with
          actors := host.actors.insert target (restampServices policy host.now actor)
          revisions }
      else host
    | none => host
  else { host with revisions }

def store (host : OidcHost) (id : Nat) (policy : Policy) : OidcWork → Option OidcHost
  | .authorized addr actor => some ({ host with actors := host.actors.insert addr actor }.endWork id)
  | .reauthorized addr actor session =>
    if addr ∈ host.actors then
      some ({ host with
        actors := host.actors.insert addr actor
        svc := host.svc.recordSession host.now addr session }.endWork id)
    else some (host.endWork id)
  | .answered addr actor outcome =>
    some ((host.storeRefreshed addr actor outcome policy).endWork id)
  | _ => none

/-- The provider keeps the anchors of the session. -/
def disconnect (host : OidcHost) (addr : IpAddr) : OidcHost :=
  { host with
    actors := host.actors.erase addr
    revisions := host.revisions.erase addr
    logins := host.logins.erase addr }

def NoAuthority (claims : List Attribute) : Prop :=
  ∀ attr ∈ claims, attr.key ≠ Key.userAuthority
  deriving Decidable

def step (host : OidcHost) : OidcEvent → Option OidcHost
  | .elapse nanos => some { host with now := host.now + nanos }
  | .login id token => if id ∈ host.work then none else some (host.login id token)
  | .authorize id around endpointCn unauthd others =>
    match host.work[id]? with
    | some (.admitted outcome) =>
      if NoAuthority others then host.authorize id outcome around endpointCn unauthd others
      else none
    | _ => none
  | .renew id addr issuer token clock =>
    if id ∈ host.work then none
    else host.actors[addr]?.map fun loaded => host.renew id addr loaded issuer token clock
  | .reauthorize id around others =>
    match host.work[id]? with
    | some (.readmitted addr loaded outcome) =>
      if NoAuthority (others.flatMap BlobOutcome.authd) then
        some (host.reauthorize id addr loaded outcome around others)
      else none
    | _ => none
  | .load id addr =>
    if id ∈ host.work then none else host.actors[addr]?.map (host.load id addr)
  | .answer id policy =>
    match host.work[id]? with
    | some (.loaded addr loaded staleRev asks) =>
      some (host.answer id addr loaded staleRev asks policy)
    | _ => none
  | .store id policy => host.work[id]?.bind (host.store id policy)
  | .fail id => some (host.endWork id)
  | .disconnect addr => some (host.disconnect addr)
  | .flush =>
    some { host with
      svc := host.svc.flush host.revisionCounter
      revisionCounter := host.revisionCounter + 1 }

/-- What the store serves for the identities was not admitted with a later authentication. -/
def Serves (host : OidcHost) (identities : List (String × String)) (authTime : Nat) : Prop :=
  ∀ identity ∈ identities, some identity.1 = host.svc.mappedSubKey →
    ∀ entry ∈ host.svc.admitted[identity.2]?, host.now < entry.expires →
      ∀ admitted ∈ host.admittedAt[identity.2]?, admitted ≤ authTime
  deriving Decidable

/-- What the store is asked for in the step, and the authentication time of the login of the
session that it is asked for. -/
def lookup (host : OidcHost) : OidcEvent → Option (List (String × String) × Nat)
  | .authorize id around _ _ others =>
    match host.work[id]? with
    | some (.admitted outcome) =>
      some (lookupIdentities around.policy.lookupIdentityKeys
        (withConfigId (host.env around) (loginClaims others outcome)), outcome.session.authTime)
    | _ => none
  | .reauthorize id around others =>
    match host.work[id]? with
    | some (.readmitted _ loaded outcome) =>
      let renewed := (renewalOutcomes others outcome).flatMap BlobOutcome.authd
      some (lookupIdentities around.policy.lookupIdentityKeys
        (withConfigId (host.env around) (carriedClaims loaded renewed ++ renewed)),
        outcome.session.authTime)
    | _ => none
  | .answer id policy =>
    match host.work[id]? with
    | some (.loaded addr loaded _ _) =>
      host.logins[addr]?.map fun authTime => (identities policy loaded, authTime)
    | _ => none
  | _ => none

/-- Whenever the store is asked for a session, it serves claims that were admitted with an
authentication no later than that of the session's login, and nothing is under way for a session
whose actor is disconnected. -/
def Unextended (host : OidcHost) (event : OidcEvent) : Prop :=
  (∀ asked ∈ host.lookup event, host.Serves asked.1 asked.2) ∧
    ∀ addr ∈ event.leaver, ∀ entry ∈ host.work.toList, entry.2.addr ≠ some addr
  deriving Decidable

end OidcHost

/-! ### Where an authority comes from -/

/-- The user authority of the actor, if it has one, ends by then. -/
def Actor.Within (actor : Actor) (limit : Nat) : Prop :=
  ∀ attr, actor.attrs[Key.userAuthority]? = some attr → attr.expiresAt ≤ limit

def ClaimsWithin (claims : List Attribute) (limit : Nat) : Prop :=
  ∀ attr ∈ claims, attr.key = Key.userAuthority → attr.expiresAt ≤ limit

theorem ClaimsWithin.append {first second : List Attribute} {limit : Nat}
    (one : ClaimsWithin first limit) (two : ClaimsWithin second limit) :
    ClaimsWithin (first ++ second) limit := by
  intro attr member
  rcases List.mem_append.mp member with left | right
  · exact one attr left
  · exact two attr right

variable {claims tsAttrs vended : List Attribute} {sourceId endpointCn key : String}
variable {existing : Option String} {attr : Attribute} {now : Nat} {actor loaded : Actor}
variable {addr : IpAddr} {outcomes : List BlobOutcome}

theorem claimsWithin_of_noAuthority (none : OidcHost.NoAuthority claims) (limit : Nat) :
    ClaimsWithin claims limit :=
  fun attr member isAuthority => absurd isAuthority (none attr member)

theorem mem_withVsAddr {env : AuthEnv} (member : attr ∈ withVsAddr env claims)
    (notAddr : attr.key ≠ Key.zprAddr) :
    attr ∈ claims := by
  unfold withVsAddr at member
  simp only at member
  split at member
  · rcases List.mem_append.mp member with already | added
    · exact already
    · exact absurd (congrArg Attribute.key (List.mem_singleton.mp added)) notAddr
  · exact member

theorem approved_authority_mem {hash : Actor → UInt64} {policy : Policy}
    {authenticated : List Attribute} {unauthenticated : Option (List Attribute)}
    (approved : approveConnection hash now policy (some authenticated) unauthenticated = .ok actor)
    (found : actor.attrs[Key.userAuthority]? = some attr) :
    attr ∈ authenticated ∧ attr.key = Key.userAuthority := by
  have committed := approveConnection_attrs approved
    (show Key.userAuthority ≠ Key.actorHash by decide)
  simp only [if_neg (show Key.vinst ≠ Key.userAuthority by decide),
    if_neg (show Key.services ≠ Key.userAuthority by decide),
    if_neg (show Key.role ≠ Key.userAuthority by decide)] at committed
  rw [commitClaims_get (by decide) (by decide), found] at committed
  have last : ((committedClaims now policy authenticated unauthenticated).filter fun attr =>
      attr.key == Key.userAuthority).getLast? = some attr := by
    simpa [Actor.new] using committed.symm
  obtain ⟨member, isAuthority⟩ := List.mem_filter.mp (List.mem_of_getLast? last)
  have key : attr.key = Key.userAuthority := eq_of_beq isAuthority
  refine ⟨?_, key⟩
  unfold committedClaims at member
  simp only at member
  split at member
  · rcases mem_queryClaims.mp member with claimed | ⟨-, isAddr⟩
    · exact claimed
    · rw [key] at isAddr
      exact absurd isAddr (by decide)
  · exact member

/-- Authorization with one trusted service keeps a bound that the claims and the reply have. -/
theorem authorized_within {env : AuthEnv} {unauthd authd : List Attribute}
    {renewalOf : Option IpAddr} {limit : Nat}
    {lookup : List (String × String) → Except ServiceError (List Attribute)}
    (only : env.trustedServices = [(sourceId, lookup)]) (claims : ClaimsWithin authd limit)
    (replies : ∀ tsAttrs, lookup (lookupIdentities env.policy.lookupIdentityKeys
      (withConfigId env authd)) = .ok tsAttrs → ∀ attr ∈ tsAttrs, attr.expiresAt ≤ limit)
    (authorized : authorizeConnectionImpl env endpointCn unauthd authd renewalOf = .ok actor) :
    actor.Within limit := by
  intro attr found
  obtain ⟨approved, isApproved, same⟩ := authorizeConnectionImpl_attrs authorized
  rw [same _ (by decide)] at found
  obtain ⟨member, isAuthority⟩ := approved_authority_mem isApproved found
  have enriched := mem_withVsAddr member (by rw [isAuthority]; decide)
  simp only [enrichedClaims, trustedReplies, only, List.map_cons, List.map_nil] at enriched
  rcases List.mem_append.mp enriched with stamped | pushed
  · rcases List.mem_append.mp stamped with claimed | isConfig
    · exact claims attr claimed isAuthority
    · rw [List.mem_singleton.mp isConfig] at isAuthority
      exact absurd (show Key.configId = Key.userAuthority from isAuthority) (by decide)
  · -- what the service adds: the derived authority and its attributes
    cases reply : lookup (lookupIdentities env.policy.lookupIdentityKeys
        (withConfigId env authd)) with
    | error failure =>
      rw [reply] at pushed
      cases pushed
    | ok tsAttrs =>
      rw [reply] at pushed
      simp only [pushes, List.append_nil] at pushed
      rcases List.mem_append.mp pushed with derived | vended
      · obtain ⟨-, -, first, isFirst, same⟩ :=
          deriveUserAuthority_some (Option.mem_toList.mp derived)
        exact same ▸ replies tsAttrs reply first isFirst
      · exact replies tsAttrs reply attr vended

theorem reauthorized_within {env : AuthEnv} {limit : Nat}
    {lookup : List (String × String) → Except ServiceError (List Attribute)}
    (only : env.trustedServices = [(sourceId, lookup)])
    (claims : ClaimsWithin (carriedClaims loaded (outcomes.flatMap BlobOutcome.authd) ++
      outcomes.flatMap BlobOutcome.authd) limit)
    (replies : ∀ tsAttrs, lookup (lookupIdentities env.policy.lookupIdentityKeys
      (withConfigId env (carriedClaims loaded (outcomes.flatMap BlobOutcome.authd) ++
        outcomes.flatMap BlobOutcome.authd))) = .ok tsAttrs →
      ∀ attr ∈ tsAttrs, attr.expiresAt ≤ limit)
    (committed : reauthorizeActor env loaded addr outcomes = .ok actor) : actor.Within limit := by
  obtain ⟨endpointCn, authorized, isAuthorized, same⟩ := reauthorizeActor_attrs committed
  intro attr found
  rw [same _ (by decide)] at found
  exact authorized_within only claims replies isAuthorized attr found

theorem reauthorizeActor_zprAddr {env : AuthEnv}
    (committed : reauthorizeActor env loaded addr outcomes = .ok actor) :
    actor.zprAddr = some addr := by
  unfold reauthorizeActor at committed
  simp only at committed
  split at committed
  · cases committed
  split at committed
  · cases committed
  split at committed
  · cases committed
  next same =>
    cases committed
    exact not_not.mp same

theorem mintIdent_ok {env : AuthEnv} {approved : Actor}
    (minted : mintIdent env endpointCn approved = .ok actor) :
    actor.attrs[Key.userAuthority]? = approved.attrs[Key.userAuthority]? ∧
      actor.zprAddr = approved.zprAddr := by
  unfold mintIdent at minted
  simp only at minted
  split at minted <;> cases minted
  exact ⟨(HashMap.get_insert _ _ _ _).trans (if_neg (by decide)), rfl⟩

/-! ### What a reply does to the authority -/

theorem Actor.removeAttribute_get {other : String}
    (found : (actor.removeAttribute key).attrs[other]? = some attr) :
    actor.attrs[other]? = some attr := by
  unfold Actor.removeAttribute at found
  split at found
  · exact (HashMap.of_get_erase found).2
  · exact found

theorem Actor.removeAttribute_zprAddr (actor : Actor) (key : String) :
    (actor.removeAttribute key).zprAddr = none ∨
      (actor.removeAttribute key).zprAddr = actor.zprAddr := by
  unfold Actor.removeAttribute
  split
  · by_cases isAddr : key = Key.zprAddr
    · exact .inl (if_pos isAddr)
    · exact .inr (if_neg isAddr)
  · exact .inr rfl

/-- The actor has lost nothing but attributes, the address possibly among them. -/
structure Actor.Reduces (actor reduced : Actor) : Prop where
  attrs : ∀ (key : String) (attr : Attribute), reduced.attrs[key]? = some attr →
    actor.attrs[key]? = some attr
  addr : reduced.zprAddr = none ∨ reduced.zprAddr = actor.zprAddr

theorem reduces_pruneFromSource (actor : Actor) (source : String) (pred : Attribute → Bool) :
    actor.Reduces (pruneFromSource actor source pred).1 := by
  unfold pruneFromSource
  simp only
  generalize (actor.attributes.filter fun attr => attr.source == source && pred attr).map
    Attribute.key = keys
  induction keys generalizing actor with
  | nil => exact ⟨fun _ _ => id, .inr rfl⟩
  | cons key rest ih =>
    have reduced := ih (actor.removeAttribute key)
    refine ⟨fun other attr found => Actor.removeAttribute_get (reduced.attrs other attr found), ?_⟩
    rcases reduced.addr with gone | same
    · exact .inl gone
    · exact (actor.removeAttribute_zprAddr key).imp same.trans same.trans

theorem addVended_zprAddr (noAddr : ∀ attr ∈ vended, attr.key ≠ Key.zprAddr) :
    (addVended actor vended).1.zprAddr = actor.zprAddr := by
  induction vended generalizing actor with
  | nil => rfl
  | cons first rest ih =>
    have later := fun attr (member : attr ∈ rest) => noAddr attr (List.mem_cons_of_mem _ member)
    simp only [addVended]
    split
    next next added =>
      rw [ih later, Actor.addAttribute_zprAddr added, if_neg (noAddr first List.mem_cons_self)]
    · exact ih later

/-- A reply keeps a bound that its attributes have, and does not move the actor. -/
theorem applyReply_within {source : String} {staleRev : Option (Nat × Nat)}
    {startingAuthority : Option String} {reply : Except ServiceError (List Attribute)}
    {outcome : RefreshOutcome} {limit : Nat} (before : actor.Within limit)
    (replies : ∀ tsAttrs, reply = .ok tsAttrs → ∀ attr ∈ tsAttrs,
      attr.expiresAt ≤ limit ∧ attr.key ≠ Key.zprAddr) :
    let next := (applyReply now source staleRev startingAuthority reply actor outcome).1
    next.Within limit ∧ (next.zprAddr = none ∨ next.zprAddr = actor.zprAddr) := by
  have reduced {whole part : Actor} (reduces : whole.Reduces part) (within : whole.Within limit)
      (addr : whole.zprAddr = actor.zprAddr) :
      part.Within limit ∧ (part.zprAddr = none ∨ part.zprAddr = actor.zprAddr) :=
    ⟨fun attr found => within attr (reduces.attrs _ attr found), addr ▸ reduces.addr⟩
  cases reply with
  | error failure =>
    cases staleRev with
    | none => exact ⟨before, .inr rfl⟩
    | some revision => exact reduced (reduces_pruneFromSource _ _ _) before rfl
  | ok tsAttrs =>
    have bounds := replies tsAttrs rfl
    let vended := tsAttrs ++ (deriveUserAuthority source tsAttrs startingAuthority).toList
    -- the derived authority is no later than the attributes it is derived from
    have vendedBounds (attr : Attribute) (member : attr ∈ vended) :
        attr.expiresAt ≤ limit ∧ attr.key ≠ Key.zprAddr := by
      rcases List.mem_append.mp member with served | derived
      · exact bounds attr served
      · obtain ⟨isKey, -, first, isFirst, same⟩ :=
          deriveUserAuthority_some (Option.mem_toList.mp derived)
        exact ⟨same ▸ (bounds first isFirst).1, by rw [isKey]; decide⟩
    have within : (addVended actor vended).1.Within limit := by
      intro attr found
      rcases addVended_get found with member | already
      · exact (vendedBounds attr member).1
      · exact before attr already
    have addr : (addVended actor vended).1.zprAddr = actor.zprAddr :=
      addVended_zprAddr fun attr member => (vendedBounds attr member).2
    cases staleRev with
    | none | some revision => exact reduced (reduces_pruneFromSource _ _ _) within addr

/-! ### The invariant -/

open OidcTrustedService (limit)

/-- Work at an address whose session has this authentication time keeps its ceiling. -/
def OidcWork.Within (age : Nat) (logins : HashMap IpAddr Nat) : OidcWork → Prop
  | .admitted outcome => ClaimsWithin outcome.authd (limit age outcome.session.authTime)
  | .authorized addr actor => actor.zprAddr = some addr ∧
      ∃ authTime, logins[addr]? = some authTime ∧ actor.Within (limit age authTime)
  | .readmitted addr _ outcome => logins[addr]? = some outcome.session.authTime ∧
      ClaimsWithin outcome.authd (limit age outcome.session.authTime) ∧
      ∃ attr ∈ outcome.authd, attr.key = Key.userAuthority
  | .reauthorized addr actor session => actor.zprAddr = some addr ∧
      logins[addr]? = some session.authTime ∧ actor.Within (limit age session.authTime)
  | .loaded addr actor _ _ => actor.zprAddr = some addr ∧
      ∃ authTime, logins[addr]? = some authTime ∧ actor.Within (limit age authTime)
  | .answered addr actor _ => (actor.zprAddr = none ∨ actor.zprAddr = some addr) ∧
      ∃ authTime, logins[addr]? = some authTime ∧ actor.Within (limit age authTime)

theorem OidcWork.Within.kept {age : Nat} {logins later : HashMap IpAddr Nat} {work : OidcWork}
    (within : work.Within age logins) (kept : ∀ addr ∈ work.addr, ∀ time,
      logins[addr]? = some time → later[addr]? = some time) :
    work.Within age later := by
  cases work with
  | admitted outcome => exact within
  | authorized | loaded | answered =>
    obtain ⟨isAddr, time, isLogin, bound⟩ := within
    exact ⟨isAddr, time, kept _ rfl time isLogin, bound⟩
  | readmitted => exact ⟨kept _ rfl _ within.1, within.2⟩
  | reauthorized => exact ⟨within.1, kept _ rfl _ within.2.1, within.2.2⟩

namespace OidcHost

/-- `age` is the largest age that policy allows. -/
structure Inv (age : Nat) (host : OidcHost) : Prop where
  configured : host.svc.maxAuthAgeSeconds = age
  mappings : ∀ mapping ∈ host.svc.mappings, mapping.zplKey ≠ Key.zprAddr
  admitted : ∀ (sub : String) (entry : AdmittedEntry), host.svc.admitted[sub]? = some entry →
    ∃ authTime, host.admittedAt[sub]? = some authTime ∧ ∀ attr ∈ entry.attrs,
      attr.expiresAt ≤ limit age authTime ∧ attr.key ≠ Key.zprAddr
  sessions : ∀ (addr : IpAddr) (anchors : SessionAnchors) (authTime : Nat),
    host.svc.sessions[addr]? = some anchors → host.logins[addr]? = some authTime →
      anchors.authTime = authTime
  actors : ∀ (addr : IpAddr) (actor : Actor), host.actors[addr]? = some actor →
    actor.zprAddr = some addr ∧
      ∃ authTime, host.logins[addr]? = some authTime ∧ actor.Within (limit age authTime)
  work : ∀ (id : Nat) (work : OidcWork), host.work[id]? = some work →
    work.Within age host.logins

variable {age : Nat} {host next : OidcHost} {id : Nat}

variable {work : OidcWork} {addr : IpAddr} {actor loaded : Actor} {authTime bound : Nat}
variable {token : ValidatedToken} {outcome : OidcOutcome} {svc : OidcTrustedService}
variable {around : AuthEnv} {others : List BlobOutcome}

variable (inv : Inv age host)
include inv

theorem Inv.setWork (within : work.Within age host.logins) :
    Inv age (host.setWork id work) := by
  refine { inv with work := fun other second isSecond => ?_ }
  rcases HashMap.of_get_insert isSecond with ⟨-, rfl⟩ | ⟨-, before⟩
  · exact within
  · exact inv.work other second before

theorem Inv.endWork (id : Nat) : Inv age (host.endWork id) := by
  refine { inv with work := fun other second isSecond => inv.work other second ?_ }
  exact (HashMap.of_get_erase isSecond).2

theorem Inv.setActor (isAddr : actor.zprAddr = some addr)
    (isLogin : host.logins[addr]? = some authTime) (within : actor.Within (limit age authTime)) :
    Inv age { host with actors := host.actors.insert addr actor } := by
  refine { inv with actors := fun other second isSecond => ?_ }
  rcases HashMap.of_get_insert isSecond with ⟨rfl, rfl⟩ | ⟨-, before⟩
  · exact ⟨isAddr, authTime, isLogin, within⟩
  · exact inv.actors other second before

theorem Inv.recordSession {anchors : SessionAnchors}
    (isLogin : ∀ authTime, host.logins[addr]? = some authTime → anchors.authTime = authTime)
    (now : Nat) : Inv age { host with svc := host.svc.recordSession now addr anchors } := by
  refine { inv with sessions := fun other held authTime isHeld => ?_ }
  by_cases own : addr = other
  · subst own
    cases (OidcTrustedService.recordSession_self addr anchors).symm.trans isHeld
    exact isLogin authTime
  · exact inv.sessions other held authTime
      (OidcTrustedService.sessionAnchors_of_recordSession own isHeld)

/-- A login at an address that nobody has leaves the logins of the others. -/
theorem Inv.addLogin {anchors : SessionAnchors} (isNew : addr ∉ host.logins)
    (recorded : host.svc.sessions[addr]? = some anchors) :
    Inv age { host with logins := host.logins.insert addr anchors.authTime } := by
  have kept {other : IpAddr} {time : Nat} (isLogin : host.logins[other]? = some time) :
      (host.logins.insert addr anchors.authTime)[other]? = some time := by
    rw [HashMap.get_insert, if_neg, isLogin]
    rintro rfl
    exact isNew (HashMap.mem_of_get isLogin)
  refine { inv with sessions := ?_, actors := ?_, work := ?_ }
  · intro other held authTime isHeld isLogin
    rcases HashMap.of_get_insert isLogin with ⟨rfl, rfl⟩ | ⟨-, before⟩
    · cases recorded.symm.trans isHeld
      rfl
    · exact inv.sessions other held authTime isHeld before
  · intro other actor isActor
    obtain ⟨isAddr, time, isLogin, bound⟩ := inv.actors other actor isActor
    exact ⟨isAddr, time, kept isLogin, bound⟩
  · exact fun id work isWork => (inv.work id work isWork).kept fun _ _ _ => kept

theorem Inv.disconnect (quiet : ∀ entry ∈ host.work.toList, entry.2.addr ≠ some addr) :
    Inv age (host.disconnect addr) := by
  have kept {other : IpAddr} {time : Nat} (apart : addr ≠ other)
      (isLogin : host.logins[other]? = some time) :
      (host.logins.erase addr)[other]? = some time := by
    rw [HashMap.get_erase, if_neg apart, isLogin]
  refine { inv with sessions := ?_, actors := ?_, work := ?_ }
  · exact fun other held authTime isHeld isLogin =>
      inv.sessions other held authTime isHeld (HashMap.of_get_erase isLogin).2
  · intro other actor isActor
    obtain ⟨apart, before⟩ := HashMap.of_get_erase isActor
    obtain ⟨isAddr, time, isLogin, bound⟩ := inv.actors other actor before
    exact ⟨isAddr, time, kept apart isLogin, bound⟩
  · refine fun id work isWork => (inv.work id work isWork).kept fun other isOther _ => kept ?_
    rintro rfl
    exact quiet (id, work) (Std.ExtTreeMap.mem_toList_iff_getElem?_eq_some.mpr isWork) isOther

theorem Inv.admitToken (bounded : age ≠ 0)
    (authenticated : host.svc.authenticateOidcBlob host.now host.revisionCounter token =
      .ok (outcome, svc)) : Inv age (host.admitToken svc token) := by
  obtain ⟨mapped, admitted, -⟩ := OidcTrustedService.authenticateOidcBlob_ok authenticated
  obtain ⟨table, isTable, rfl, rfl⟩ := OidcTrustedService.admit_ok admitted
  refine { inv with admitted := fun sub entry isEntry => ?_ }
  replace isEntry := (HashMap.get_insert _ _ _ _).symm.trans isEntry
  simp only [OidcHost.admitToken, HashMap.get_insert]
  split at isEntry
  next own =>
    cases isEntry
    refine ⟨token.authTime, if_pos own, fun attr member => ?_⟩
    obtain ⟨⟨key, found⟩, isFound, rfl⟩ := List.mem_map.mp member
    obtain ⟨expires, mapping, isMapping, isKey⟩ := OidcTrustedService.mapClaims_mem isTable
      (by simp) (Std.ExtTreeMap.mem_toList_iff_getElem?_eq_some.mp isFound)
    refine ⟨?_, isKey ▸ inv.mappings mapping isMapping⟩
    rw [expires, ← inv.configured]
    exact OidcTrustedService.tokenExpiry_le (inv.configured.symm ▸ bounded) token
  next apart =>
    rw [Std.ExtTreeMap.getElem?_filter'] at isEntry
    rw [if_neg apart]
    exact inv.admitted sub entry (Option.filter_eq_some_iff.mp isEntry).1

/-- The claims of an admitted token: the authority that it stamps, and the subject. -/
theorem Inv.authd (bounded : age ≠ 0)
    (authenticated : host.svc.authenticateOidcBlob host.now host.revisionCounter token =
      .ok (outcome, svc)) :
    outcome.session.authTime = token.authTime ∧
      ClaimsWithin outcome.authd (limit age outcome.session.authTime) ∧
      ∃ attr ∈ outcome.authd, attr.key = Key.userAuthority := by
  obtain ⟨mapped, admitted, rfl⟩ := OidcTrustedService.authenticateOidcBlob_ok authenticated
  obtain ⟨table, isTable, rfl, -⟩ := OidcTrustedService.admit_ok admitted
  have bound := OidcTrustedService.tokenExpiry_le (inv.configured.symm ▸ bounded) token
  rw [inv.configured] at bound
  refine ⟨rfl, fun attr member _ => ?_, _, List.mem_cons_self, rfl⟩
  rcases List.mem_cons.mp member with rfl | isSub
  · exact bound
  · obtain ⟨subKey, -, found⟩ := Option.bind_eq_some_iff.mp (Option.mem_toList.mp isSub)
    obtain ⟨⟨key, other⟩, isFound, rfl⟩ := List.mem_map.mp (List.mem_of_find?_eq_some found)
    obtain ⟨expires, -⟩ := OidcTrustedService.mapClaims_mem isTable (by simp)
      (Std.ExtTreeMap.mem_toList_iff_getElem?_eq_some.mp isFound)
    exact expires ▸ bound

theorem Inv.served {identities : List (String × String)}
    (serves : host.Serves identities authTime) {tsAttrs : List Attribute}
    (served : host.svc.getAttributesForActor host.now identities = .ok tsAttrs) (attr : Attribute)
    (member : attr ∈ tsAttrs) :
    attr.expiresAt ≤ limit age authTime ∧ attr.key ≠ Key.zprAddr := by
  obtain ⟨identity, isIdentity, isSub, entry, isEntry, live, cached⟩ :=
    OidcTrustedService.getAttributesForActor_mem served member
  obtain ⟨admitted, isAdmitted, bounds⟩ := inv.admitted _ entry isEntry
  obtain ⟨bound, notAddr⟩ := bounds attr cached
  have earlier := serves identity isIdentity isSub entry isEntry live admitted isAdmitted
  exact ⟨bound.trans (OidcTrustedService.limit_mono age earlier), notAddr⟩

/-! ### One step, every run -/

theorem Inv.login (bounded : age ≠ 0) (token : ValidatedToken) :
    Inv age (host.login id token) := by
  unfold OidcHost.login
  split
  · exact inv
  next outcome svc authenticated =>
    obtain ⟨-, within, -⟩ := inv.authd bounded authenticated
    exact (inv.admitToken bounded authenticated).setWork within

theorem Inv.authorize {endpointCn : String} {unauthd others : List Attribute}
    (within : ClaimsWithin outcome.authd (limit age outcome.session.authTime))
    (none : NoAuthority others)
    (serves : host.Serves (lookupIdentities around.policy.lookupIdentityKeys
      (withConfigId (host.env around) (loginClaims others outcome))) outcome.session.authTime)
    (authorized : host.authorize id outcome around endpointCn unauthd others = some next) :
    Inv age next := by
  unfold OidcHost.authorize at authorized
  simp only at authorized
  split at authorized
  · cases authorized
    exact inv.endWork id
  next approved isApproved =>
    have approvedWithin : approved.Within (limit age outcome.session.authTime) :=
      authorized_within rfl ((claimsWithin_of_noAuthority none _).append within)
        (fun tsAttrs served attr member => (inv.served serves served attr member).1) isApproved
    split at authorized
    next actor addr minted isAddr =>
      obtain ⟨sameAuthority, sameAddr⟩ := mintIdent_ok minted
      obtain ⟨isNew, isNext⟩ := Option.ite_none_left_eq_some.mp authorized
      cases isNext
      have isLogin : (host.logins.insert addr outcome.session.authTime)[addr]? =
          some outcome.session.authTime := by simp
      have free (time : Nat) (held : host.logins[addr]? = some time) :
          outcome.session.authTime = time := absurd (HashMap.mem_of_get held) isNew
      have recorded := inv.recordSession free host.now
      refine (recorded.addLogin isNew (OidcTrustedService.recordSession_self ..)).setWork ?_
      refine ⟨sameAddr.trans isAddr, _, isLogin, fun attr found => ?_⟩
      exact approvedWithin attr (sameAuthority ▸ found)
    · cases authorized
      exact inv.endWork id

theorem Inv.renew (bounded : age ≠ 0)
    (isActor : host.actors[addr]? = some loaded) (issuer : String) (token : ValidatedToken)
    (clock : Nat) : Inv age (host.renew id addr loaded issuer token clock) := by
  unfold OidcHost.renew
  split
  · exact inv
  next outcome svc renewed =>
    obtain ⟨anchors, isAnchors, -, sameLogin, -, authenticated⟩ :=
      OidcTrustedService.reauthenticateOidcBlob_ok renewed
    obtain ⟨sameTime, within, stamps⟩ := inv.authd bounded authenticated
    -- the token was checked against the anchors of the session
    rw [(inv.actors addr loaded isActor).1] at isAnchors
    obtain ⟨-, authTime, isLogin, -⟩ := inv.actors addr loaded isActor
    refine (inv.admitToken bounded authenticated).setWork ⟨?_, within, stamps⟩
    rw [sameTime, sameLogin, inv.sessions addr anchors authTime isAnchors isLogin]
    exact isLogin

omit inv

theorem claimsWithin_renewal (none : NoAuthority (others.flatMap BlobOutcome.authd))
    (within : ClaimsWithin outcome.authd bound)
    (stamps : ∃ attr ∈ outcome.authd, attr.key = Key.userAuthority) :
    ClaimsWithin (carriedClaims loaded ((renewalOutcomes others outcome).flatMap BlobOutcome.authd)
      ++ (renewalOutcomes others outcome).flatMap BlobOutcome.authd) bound := by
  have renewed : (renewalOutcomes others outcome).flatMap BlobOutcome.authd =
      others.flatMap BlobOutcome.authd ++ outcome.authd := by
    simp [renewalOutcomes]
  rw [renewed]
  refine ClaimsWithin.append (fun attr member isAuthority => ?_)
    ((claimsWithin_of_noAuthority none _).append within)
  -- a renewed key is not carried
  obtain ⟨stamped, isStamped, isKey⟩ := stamps
  have kept := (List.mem_filter.mp member).2
  simp only [Bool.and_eq_true, Bool.not_eq_true', List.contains_eq_mem, decide_eq_false_iff_not]
    at kept
  refine absurd (List.mem_map.mpr ⟨stamped, List.mem_append_right _ isStamped, ?_⟩) kept.1.2
  exact isKey.trans isAuthority.symm

theorem Inv.reauthorize (inv : Inv age host)
    (within : (OidcWork.readmitted addr loaded outcome).Within age host.logins)
    (none : NoAuthority (others.flatMap BlobOutcome.authd))
    (serves : host.Serves (lookupIdentities around.policy.lookupIdentityKeys
      (withConfigId (host.env around)
        (carriedClaims loaded ((renewalOutcomes others outcome).flatMap BlobOutcome.authd) ++
          (renewalOutcomes others outcome).flatMap BlobOutcome.authd))) outcome.session.authTime) :
    Inv age (host.reauthorize id addr loaded outcome around others) := by
  obtain ⟨isLogin, claims, stamps⟩ := within
  unfold OidcHost.reauthorize
  split
  · exact inv.endWork id
  next actor committed =>
    refine inv.setWork ⟨reauthorizeActor_zprAddr committed, isLogin, ?_⟩
    exact reauthorized_within rfl (claimsWithin_renewal none claims stamps)
      (fun tsAttrs served attr member => (inv.served serves served attr member).1) committed

theorem Inv.answer (inv : Inv age host) {staleRev : Option Nat} {asks : Bool} {policy : Policy}
    (within : (OidcWork.loaded addr loaded staleRev asks).Within age host.logins)
    (serves : ∀ authTime, host.logins[addr]? = some authTime →
      host.Serves (identities policy loaded) authTime) :
    Inv age (host.answer id addr loaded staleRev asks policy) := by
  obtain ⟨isAddr, authTime, isLogin, bound⟩ := within
  unfold OidcHost.answer
  split
  · obtain ⟨stays, addrStays⟩ := applyReply_within bound
      fun tsAttrs served attr member => inv.served (serves authTime isLogin) served attr member
    exact inv.setWork ⟨isAddr ▸ addrStays, authTime, isLogin, stays⟩
  · exact inv.setWork ⟨.inr isAddr, authTime, isLogin, bound⟩

theorem restampServices_within {policy : Policy} {now : Nat} (within : actor.Within bound) :
    (restampServices policy now actor).Within bound := by
  intro attr found
  refine within attr ?_
  unfold restampServices at found
  simp only at found
  split at found
  · exact found
  · rwa [Actor.setServices_get, if_neg (by decide)] at found

theorem Inv.storeRefreshed (inv : Inv age host) {outcome : RefreshOutcome}
    (within : (OidcWork.answered addr actor outcome).Within age host.logins) (policy : Policy) :
    Inv age (host.storeRefreshed addr actor outcome policy) := by
  obtain ⟨isAddr, authTime, isLogin, bound⟩ := within
  unfold OidcHost.storeRefreshed
  simp only
  split
  · split
    next target isTarget =>
      -- the pass writes at the address that it has loaded
      have own : target = addr := by
        rcases isAddr with gone | same
        · cases gone.symm.trans isTarget
        · exact Option.some.inj (isTarget.symm.trans same)
      subst own
      split
      · have written := inv.setActor ((restampServices_zprAddr policy host.now actor).trans isTarget)
          isLogin (restampServices_within bound)
        exact { written with }
      · exact inv
    · exact inv
  · exact { inv with }

theorem Inv.store (inv : Inv age host) {policy : Policy} (within : work.Within age host.logins)
    (stored : host.store id policy work = some next) :
    Inv age next := by
  cases work with
  | admitted outcome => cases stored
  | authorized addr actor =>
    cases stored
    obtain ⟨isAddr, authTime, isLogin, bound⟩ := within
    exact (inv.setActor isAddr isLogin bound).endWork id
  | readmitted addr loaded outcome => cases stored
  | reauthorized addr actor session =>
    obtain ⟨isAddr, isLogin, bound⟩ := within
    simp only [OidcHost.store] at stored
    split at stored
    · cases stored
      have recorded := (inv.setActor isAddr isLogin bound).recordSession
        (fun _ held => Option.some.inj (isLogin.symm.trans held)) host.now
      exact recorded.endWork id
    · cases stored
      exact inv.endWork id
  | loaded addr actor staleRev asks => cases stored
  | answered addr actor outcome =>
    cases stored
    exact (inv.storeRefreshed within policy).endWork id

theorem Inv.step {event : OidcEvent} (inv : Inv age host) (bounded : age ≠ 0)
    (unextended : host.Unextended event) (stepped : host.step event = some next) :
    Inv age next := by
  cases event with
  | elapse nanos =>
    cases stepped
    exact { inv with }
  | login id token =>
    obtain ⟨-, isNext⟩ := Option.ite_none_left_eq_some.mp stepped
    cases isNext
    exact inv.login bounded token
  | authorize id around endpointCn unauthd others =>
    simp only [OidcHost.step] at stepped
    split at stepped
    next outcome isWork =>
      obtain ⟨none, authorized⟩ := Option.ite_none_right_eq_some.mp stepped
      -- The store is asked here, and when a renewal is authorized or a pass answered.
      have serves := unextended.1 _ (by simp only [OidcHost.lookup, isWork]; rfl)
      exact inv.authorize (inv.work id _ isWork) none serves authorized
    · cases stepped
  | renew id addr issuer token clock =>
    obtain ⟨-, renewed⟩ := Option.ite_none_left_eq_some.mp stepped
    obtain ⟨loaded, isActor, rfl⟩ := Option.map_eq_some_iff.mp renewed
    exact inv.renew bounded isActor issuer token clock
  | reauthorize id around others =>
    simp only [OidcHost.step] at stepped
    split at stepped
    next addr loaded outcome isWork =>
      obtain ⟨none, isNext⟩ := Option.ite_none_right_eq_some.mp stepped
      cases isNext
      have serves := unextended.1 _ (by simp only [OidcHost.lookup, isWork]; rfl)
      exact inv.reauthorize (inv.work id _ isWork) none serves
    · cases stepped
  | load id addr =>
    obtain ⟨-, isLoaded⟩ := Option.ite_none_left_eq_some.mp stepped
    obtain ⟨actor, isActor, rfl⟩ := Option.map_eq_some_iff.mp isLoaded
    exact inv.setWork (inv.actors addr actor isActor)
  | answer id policy =>
    simp only [OidcHost.step] at stepped
    split at stepped
    next addr loaded staleRev asks isWork =>
      cases stepped
      refine inv.answer (inv.work id _ isWork) fun authTime isLogin => ?_
      exact unextended.1 (identities policy loaded, authTime)
        (by simp only [OidcHost.lookup, isWork, isLogin]; rfl)
    · cases stepped
  | store id policy =>
    obtain ⟨work, isWork, stored⟩ := Option.bind_eq_some_iff.mp stepped
    exact inv.store (inv.work id work isWork) stored
  | fail id =>
    cases stepped
    exact inv.endWork id
  | disconnect addr =>
    cases stepped
    exact inv.disconnect (unextended.2 addr rfl)
  | flush =>
    cases stepped
    refine { inv with admitted := ?_, sessions := ?_ } <;> simp [OidcTrustedService.flush]

/-- A provider that nobody has logged in at. -/
structure Unused (host : OidcHost) : Prop where
  admitted : host.svc.admitted = ∅
  sessions : host.svc.sessions = ∅
  actors : host.actors = ∅
  work : host.work = ∅

/-- In every run in which the store never serves a session what a later authentication has
brought in, no stored user authority outlasts the ceiling of the login of its session. -/
theorem authority_within_ceiling {start final : OidcHost} {events : List OidcEvent}
    (unused : start.Unused) (bounded : start.svc.maxAuthAgeSeconds ≠ 0)
    (mappings : ∀ mapping ∈ start.svc.mappings, mapping.zplKey ≠ Key.zprAddr)
    (unextended : Meets step Unextended start events) (ran : run step start events = some final)
    {addr : IpAddr} {actor : Actor} (stored : final.actors[addr]? = some actor)
    {attr : Attribute} (isAuthority : actor.attrs[Key.userAuthority]? = some attr) :
    ∃ authTime, final.logins[addr]? = some authTime ∧ attr.expiresAt ≤
      authTime + (start.svc.maxAuthAgeSeconds + maxClockSkewSecs) * nanosPerSec := by
  have initial : Inv start.svc.maxAuthAgeSeconds start := by
    refine ⟨rfl, mappings, ?_, ?_, ?_, ?_⟩
    · simp [unused.admitted]
    · simp [unused.sessions]
    · simp [unused.actors]
    · simp [unused.work]
  have inv := run_preserves_of_meets
    (fun _ _ _ inv unextended stepped => inv.step bounded unextended stepped) initial unextended ran
  obtain ⟨-, authTime, isLogin, within⟩ := inv.actors addr actor stored
  exact ⟨authTime, isLogin, within attr isAuthority⟩

end OidcHost

namespace CeilingSample

open OidcHost

def seconds (count : Nat) : Nat := count * nanosPerSec

def laptop : IpAddr := .v6 0xfd5a5052000000000000000000000020
def phone : IpAddr := .v6 0xfd5a5052000000000000000000000021

/-- Logins may be an hour old; claims last for a day. -/
def unused : OidcHost where
  now := 0
  revisionCounter := 2
  svc :=
    { id := "google", issuer := "google.example", maxAuthAgeSeconds := 3600
      mappings := [⟨"sub", "user.sub", .singleValued⟩], expirationSeconds := 86400
      admitted := ∅, sessions := ∅, revision := 1 }
  actors := ∅
  revisions := ∅
  work := ∅
  logins := ∅
  admittedAt := ∅

def policy : Policy where
  vinst := 1
  version := some 1
  joinPolicies := []
  identityAttrKeys := ["user.sub"]

def env (addr : IpAddr) : AuthEnv where
  now := 0
  policy := policy
  trustedServices := []
  vsAddr := .v6 0xfd5a5052000000000000000000000001
  holderOf _ := .ok none
  isZprAddr _ := true
  isManagedAddress _ := true
  getNextZprAddr _ := some addr
  genJwt _ _ := .ok "token"
  hash _ := 0

/-- Alice authenticates at this second and gets a token at once. -/
def authenticated (second : Fin 5000) : ValidatedToken where
  sub := "alice"
  authTime := seconds second
  iat := seconds second
  rawClaims := [("sub", .text "alice")]
  representable := by
    have small : seconds second ≤ 5000 * nanosPerSec :=
      Nat.mul_le_mul_right _ second.isLt.le
    exact small.trans (by decide)

def connects (id : Nat) (second : Fin 5000) (addr : IpAddr) : List OidcEvent :=
  [.login id (authenticated second), .authorize id (env addr) "" [] [], .store id policy]

def refreshes (id : Nat) (addr : IpAddr) : List OidcEvent :=
  [.load id addr, .answer id policy, .store id policy]

/-- Alice logs in again from the phone, and then the laptop is refreshed. -/
def twoSessions : List OidcEvent :=
  connects 1 0 laptop ++ [.elapse (seconds 3000)] ++ connects 2 3000 phone ++ refreshes 3 laptop

def oneSession : List OidcEvent :=
  connects 1 0 laptop ++ [.elapse (seconds 3000)] ++ refreshes 3 laptop

def after (events : List OidcEvent) : OidcHost := (run step unused events).getD unused

def authorityExpiry (host : OidcHost) (addr : IpAddr) : Option Nat :=
  (host.actors[addr]?.bind fun actor => actor.attrs[Key.userAuthority]?).map Attribute.expiresAt

theorem unused_unused : unused.Unused := ⟨rfl, rfl, rfl, rfl⟩

end CeilingSample

namespace OidcHost

open CeilingSample in
/-- The laptop's login was at second 0, so its ceiling is at second 3780. After the refresh its
authority lasts until second 6780, the ceiling of the phone's login. -/
theorem ceiling_exceeded :
    ¬ ∀ (start final : OidcHost) (events : List OidcEvent), start.Unused →
      start.svc.maxAuthAgeSeconds ≠ 0 →
      (∀ mapping ∈ start.svc.mappings, mapping.zplKey ≠ Key.zprAddr) →
      run step start events = some final →
      ∀ (addr : IpAddr) (actor : Actor), final.actors[addr]? = some actor →
      ∀ attr, actor.attrs[Key.userAuthority]? = some attr →
      ∃ authTime, final.logins[addr]? = some authTime ∧ attr.expiresAt ≤
        authTime + (start.svc.maxAuthAgeSeconds + maxClockSkewSecs) * nanosPerSec := by
  intro always
  have ran : run step unused twoSessions = some (after twoSessions) :=
    run_eq_some_getD (by decide +kernel) _
  have extended : authorityExpiry (after twoSessions) laptop = some (seconds 6780) := by
    decide +kernel
  have ownLogin : (after twoSessions).logins[laptop]? = some 0 := by decide +kernel
  obtain ⟨attr, found, isExpiry⟩ := Option.map_eq_some_iff.mp extended
  obtain ⟨actor, stored, isAuthority⟩ := Option.bind_eq_some_iff.mp found
  obtain ⟨authTime, isLogin, within⟩ := always unused (after twoSessions) twoSessions
    unused_unused (by decide) (by decide) ran laptop actor stored attr isAuthority
  cases ownLogin.symm.trans isLogin
  rw [isExpiry] at within
  revert within
  decide

open CeilingSample in
theorem ceiling_kept_by_one_session :
    ∃ attr authTime, (after oneSession).logins[laptop]? = some authTime ∧
      authorityExpiry (after oneSession) laptop = some attr ∧
      attr ≤ authTime + (3600 + maxClockSkewSecs) * nanosPerSec := by
  have ran : run step unused oneSession = some (after oneSession) :=
    run_eq_some_getD (by decide +kernel) _
  have kept : authorityExpiry (after oneSession) laptop = some (seconds 3780) := by
    decide +kernel
  obtain ⟨attr, found, isExpiry⟩ := Option.map_eq_some_iff.mp kept
  obtain ⟨actor, stored, isAuthority⟩ := Option.bind_eq_some_iff.mp found
  obtain ⟨authTime, isLogin, within⟩ := authority_within_ceiling unused_unused (by decide)
    (by decide) (by decide +kernel) ran stored isAuthority
  exact ⟨_, authTime, isLogin, kept, isExpiry ▸ within⟩

end OidcHost

end VisaService
