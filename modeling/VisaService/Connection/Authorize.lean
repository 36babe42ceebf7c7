import VisaService.Eval.Approve

/-!
# Authorizing a connection

`authorize_connection_impl` takes the claims the credentials authenticated, adds what the
trusted services of the policy snapshot vend for them, has the result approved and settles
the actor's address. A fresh connect and the renewal of a session both run through it.

Credential validation, the trusted services, the address pools and the actor database are
read from the environment.
-/
namespace VisaService

open Lib

def vsCn : String := "vs.zpr"

def Key.vsIdent : String := "zpr.vs.bootstrap.ident"

structure AuthEnv where
  now : Nat
  policy : Policy
  /-- The stores of the policy snapshot: source id and lookup, in policy order. -/
  trustedServices :
    List (String × (List (String × String) → Except ServiceError (List Attribute)))
  vsAddr : IpAddr
  /-- `get_actor_by_zpr_addr`. -/
  holderOf : IpAddr → Except StoreError (Option Actor)
  isZprAddr : IpAddr → Bool
  isManagedAddress : IpAddr → Bool
  getNextZprAddr : Role → Option IpAddr
  /-- `gen_jwt` for a subject and a lifetime. -/
  genJwt : String → Nat → Except ServiceError String
  /-- The standard library's default hasher on actors. -/
  hash : Actor → UInt64

/-! ### Trusted services -/

/-- The claims that identify the actor to trusted services, and the authority that scopes
them; attributes that are not single-valued cannot name an identity. -/
def lookupIdentities (lookupKeys : List String) (attrs : List Attribute) :
    List (String × String) :=
  attrs.filterMap fun attr =>
    if lookupKeys.contains attr.key || attr.key == Key.userAuthority then
      attr.getSingleValue.map fun value => (attr.key, value)
    else none

def inUserNamespace (attr : Attribute) : Bool := "user.".toList.isPrefixOf attr.key.toList

/-- A service that vends user attributes is the authority for that user, unless another
one is already or it vends the authority itself. It lasts as long as the first of the
vended user attributes to expire. -/
def deriveUserAuthority (sourceId : String) (tsAttrs : List Attribute)
    (existingAuthority : Option String) : Option Attribute :=
  if existingAuthority.any (· ≠ sourceId) then none
  else if tsAttrs.any fun attr => attr.key == Key.userAuthority then none
  else
    ((tsAttrs.filter inUserNamespace).map Attribute.expiresAt).min?.map fun expires =>
      { key := Key.userAuthority, value := [sourceId], expiresAt := expires, source := sourceId }

/-- The user authority among the claims: the first one wins. -/
def firstAuthority (claims : List Attribute) : Option String :=
  (claims.find? fun attr => attr.key == Key.userAuthority).bind fun attr => attr.value.head?

/-- What one service adds to the claims. -/
def vended (claims : List Attribute) (sourceId : String) (tsAttrs : List Attribute) :
    List Attribute :=
  (deriveUserAuthority sourceId tsAttrs (firstAuthority claims)).toList ++ tsAttrs

/-- Add what the services vend, one after the other. A failed lookup is indeterminate and
fails the connection. -/
def addTrusted (endpointCn : String) (claims : List Attribute) :
    List (String × Except ServiceError (List Attribute)) → Except ServiceError (List Attribute)
  | [] => .ok claims
  | (_, .error failure) :: _ => .error (.attributesIndeterminate endpointCn failure)
  | (sourceId, .ok tsAttrs) :: rest =>
    addTrusted endpointCn (claims ++ vended claims sourceId tsAttrs) rest

/-! ### Addresses -/

/-- An endpoint that authenticated as the visa service gets the visa service's address. -/
def withVsAddr (env : AuthEnv) (claims : List Attribute) : List Attribute :=
  let authenticatedAsVs := claims.any fun attr => attr.key == Key.cn && attr.valueHas vsCn
  let hasAuthdAddr := claims.any fun attr => attr.key == Key.zprAddr
  if authenticatedAsVs && !hasAuthdAddr then
    claims ++ [.internal env.now Key.zprAddr [env.vsAddr.display]]
  else claims

/-- The distinct addresses that trusted services grant the device, sorted. -/
def grantedValues (claims : List Attribute) : List String :=
  (Std.ExtTreeSet.ofList ((claims.filter fun attr => attr.key == Key.deviceZprAddr).flatMap
    Attribute.value) compare).toList

/-- Promote a granted address to the actor's address. The text tells static addresses and
granted ones apart in messages. -/
def honorGrant (env : AuthEnv) (claims : List Attribute) (actor : Actor) :
    Except ServiceError (Actor × String) :=
  if claims.any fun attr => attr.key == Key.deviceZprAddr then
    match grantedValues claims with
    | [value] =>
      match IpAddr.parse value with
      | none =>
        .error (.authenticationFailed
          s!"{Key.deviceZprAddr} grant is not an IP address: '{value}'")
      | some granted =>
        match actor.zprAddr with
        | some pinned =>
          if pinned ≠ granted then
            .error (.authenticationFailed
              (s!"trusted-service grant {Key.deviceZprAddr}={granted.display} disagrees " ++
                s!"with the pre-set zpr address {pinned.display}"))
          else .ok (actor, "static")
        | none =>
          match actor.addAttribute (.internal env.now Key.zprAddr [value]) with
          | .error failure => .error (.attribute failure)
          | .ok actor => .ok (actor, "granted")
    | values =>
      .error (.authenticationFailed
        (s!"{Key.deviceZprAddr} grant must resolve to exactly one address, " ++
          s!"got {values.length} distinct values"))
  else .ok (actor, "static")

/-- Who may have an address that a live actor holds: the session that is being renewed at it,
a node that reconnects, and the visa service itself. -/
def mayRetake (env : AuthEnv) (actor holder : Actor) (addr : IpAddr)
    (renewalOf : Option IpAddr) : Bool :=
  renewalOf == some addr ||
    (holder.isNode && actor.isNode && holder.getCn.isSome && holder.getCn == actor.getCn) ||
    (addr == env.vsAddr && holder.getCn == some vsCn && actor.getCn == some vsCn)

/-- Check a pre-set address, or take one from the pool. -/
def settleAddress (env : AuthEnv) (actor : Actor) (addrSource : String)
    (renewalOf : Option IpAddr) : Except ServiceError Actor :=
  match actor.zprAddr with
  | some addr =>
    match env.holderOf addr with
    | .error failure => .error (.store failure)
    | .ok (some holder) =>
      if mayRetake env actor holder addr renewalOf then .ok actor
      else
        .error (.authenticationFailed
          s!"{addrSource} zpr address already held by a live actor: {addr.display}")
    | .ok none =>
      let isVsSelf := addr == env.vsAddr && actor.getCn == some vsCn
      if !env.isZprAddr addr || (addr == env.vsAddr && !isVsSelf) then
        .error (.authenticationFailed
          s!"{addrSource} zpr address out of range: {addr.display}")
      else if env.isManagedAddress addr then
        .error (.authenticationFailed
          s!"{addrSource} zpr address inside a managed pool: {addr.display}")
      else .ok actor
  | none =>
    match env.getNextZprAddr (if actor.isNode then .node else .adapter) with
    | none => .error (.internal "address assignment failed")
    | some addr =>
      match actor.addAttribute (.internal env.now Key.zprAddr [addr.display]) with
      | .error failure => .error (.attribute failure)
      | .ok actor => .ok actor

/-! ### Authorization -/

/-- The authority attributes the credentials stamped are identity attributes. -/
def registerAuthorities (actor : Actor) : Actor :=
  registerIdentityKeys actor [Key.deviceAuthority, Key.userAuthority]

/-- The claims with the policy version they are judged under. -/
def withConfigId (env : AuthEnv) (claims : List Attribute) : List Attribute :=
  claims ++ [.internal env.now Key.configId [toString (env.policy.version.getD 0)]]

/-- What the trusted services reply about the claims. -/
def trustedReplies (env : AuthEnv) (claims : List Attribute) :
    List (String × Except ServiceError (List Attribute)) :=
  let identities := lookupIdentities env.policy.lookupIdentityKeys claims
  env.trustedServices.map fun (sourceId, lookup) => (sourceId, lookup identities)

def authorizeConnectionImpl (env : AuthEnv) (endpointCn : String)
    (unauthdClaims authdClaims : List Attribute) (renewalOf : Option IpAddr) :
    Except ServiceError Actor :=
  let stamped := withConfigId env authdClaims
  match addTrusted endpointCn stamped (trustedReplies env stamped) with
  | .error failure => .error failure
  | .ok enriched =>
    let claims := withVsAddr env enriched
    match approveConnection env.hash env.now env.policy (some claims) (some unauthdClaims) with
    | .error failure => .error (.eval failure)
    | .ok approved =>
      match honorGrant env claims (registerAuthorities approved) with
      | .error failure => .error failure
      | .ok (actor, addrSource) => settleAddress env actor addrSource renewalOf

/-- `DEFAULT_AUTH_EXPIRATION`, 4 hours. -/
def defaultAuthExpiration : Nat := 4 * 60 * 60 * nanosPerSec

/-- The identity token expires with the first authority of the actor. -/
def vsIdentExpiration (now : Nat) (actor : Actor) : Nat :=
  ([Key.deviceAuthority, Key.userAuthority].filterMap fun key =>
    actor.attrs[key]?.map Attribute.expiresAt).min?.getD (now + defaultAuthExpiration)

/-- Mint the identity token and register it as the first identity key. -/
def mintIdent (env : AuthEnv) (endpointCn : String) (actor : Actor) :
    Except ServiceError Actor :=
  let expires := vsIdentExpiration env.now actor
  let lifetime := if env.now ≤ expires then expires - env.now else defaultAuthExpiration
  let subject := if actor.isNode then s!"node/{endpointCn}" else s!"adapter/{endpointCn}"
  match env.genJwt subject lifetime with
  | .error failure => .error failure
  | .ok token =>
    .ok { actor with
      attrs := actor.attrs.insert Key.vsIdent
        { key := Key.vsIdent, value := [token], expiresAt := expires
          source := Attribute.sourceZpr }
      identityKeys := Key.vsIdent :: actor.identityKeys }

end VisaService
