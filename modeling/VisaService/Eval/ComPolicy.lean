import VisaService.Eval.Join
import VisaService.Visa.PathBinding

/-!
# Communication policies

A communication policy names a service, the ports it is reached at, and conditions on the client
and on the provider of the service. A packet can be read in two ways: as a request to the service
at its destination, or as a reply of the service at its source. The evaluator takes the first
reading if the destination provides the service at that port, and the second one otherwise; the
conditions are then checked for the client and the provider of that reading.

Denials are matched before allowances. An expired attribute cannot satisfy a condition of an
allowance, not even a negative one, and counts like any other for a denial.

## Main results

`eval_request_decides`, `reply_agrees_iff`, `reply_refused`.
-/
namespace VisaService

open Lib

/-! ### Conditions -/

namespace Attribute

def isSingleValue (attr : Attribute) (value : String) : Bool := attr.value == [value]

end Attribute

namespace Actor

def provides (actor : Actor) (serviceId : String) : Bool :=
  actor.attrs[Key.services]?.any (·.valueHas serviceId)

def hasAttributeValue (actor : Actor) (key value : String) : Bool :=
  actor.attrs[key]?.any (·.isSingleValue value)

def hasAttributeValues (actor : Actor) (key : String) (values : List String) : Bool :=
  actor.attrs[key]?.any (·.valueHasAll values)

def hasAnyAttributeValues (actor : Actor) (key : String) (values : List String) : Bool :=
  actor.attrs[key]?.any (·.valueHasAny values)

end Actor

inductive PAttrValue where
  | atom (value : String)
  | set (values : List String)

namespace PAttrValue

def ofList : List String → Option PAttrValue
  | [] => none
  | [value] => some (.atom value)
  | values => some (.set values)

def isEmpty : PAttrValue → Bool
  | .atom value => value.isEmpty
  | .set values => values.isEmpty

def asSlice : PAttrValue → List String
  | .atom value => [value]
  | .set values => values

end PAttrValue

/-- The part of a condition that does not look at the clock. What is not valid in a policy is
indeterminate: it cannot satisfy an allowance, and a denial still fires. -/
def AttrExp.admitsActor (cond : AttrExp) (actor : Actor) (forAllow : Bool) : Bool :=
  match cond.op, PAttrValue.ofList cond.value with
  | .eq, none => !forAllow
  | .eq, some (.set _) => !forAllow
  | .eq, some (.atom value) => actor.hasAttributeValue cond.key value
  | .ne, none => !forAllow
  | .ne, some (.set _) => !forAllow
  | .ne, some (.atom value) => !actor.hasAttributeValue cond.key value
  | .has, none => actor.hasAttributeNamed cond.key
  | .has, some value =>
    if value.isEmpty then actor.hasAttributeNamed cond.key
    else actor.hasAttributeValues cond.key value.asSlice
  | .excludes, none => !forAllow
  | .excludes, some value => !actor.hasAnyAttributeValues cond.key value.asSlice

/-- An expired attribute is indeterminate, which is not the same as absent. -/
def matchConditionToActor (now : Nat) (cond : AttrExp) (actor : Actor) (forAllow : Bool) : Bool :=
  if forAllow && actor.attrs[cond.key]?.any (·.isExpired now) then false
  else cond.admitsActor actor forAllow

/-! ### Scopes -/

inductive ScopeMatchType where
  | forward
  | reverse
  deriving DecidableEq, Repr

inductive ScopePort where
  | port (portNum : UInt16)
  | portRange (low high : UInt16)
  /-- A variant that is not in the schema. -/
  | notInSchema
  deriving DecidableEq, Repr

/-- Every other value of the flag is `noFlag`. -/
inductive ScopeFlag where
  | noFlag
  | udpOneWay
  deriving DecidableEq, Repr

structure Scope where
  protocol : UInt8
  port : ScopePort
  flag : ScopeFlag
  deriving DecidableEq, Repr

/-- The destination port of a request and the source port of a reply have to be those of the
service. In ICMP the source port is the type: a scope with two types has one for the request and
one for the response. -/
def Scope.portMatches (request : PacketDesc) (scope : Scope) (want : ScopeMatchType) : Bool :=
  let isIcmp := request.fiveTuple.l4Protocol == ipProtoIpv6Icmp
  match scope.port with
  | .port allowed =>
    match isIcmp, want with
    | true, .forward => request.fiveTuple.sourcePort == allowed
    | true, .reverse => false
    | false, .forward => request.fiveTuple.destPort == allowed
    | false, .reverse => request.fiveTuple.sourcePort == allowed
  | .portRange low high =>
    match isIcmp, want with
    | true, .forward => request.fiveTuple.sourcePort == low
    | true, .reverse => request.fiveTuple.sourcePort == high
    | false, .forward =>
      decide (low ≤ request.fiveTuple.destPort ∧ request.fiveTuple.destPort ≤ high)
    | false, .reverse =>
      decide (low ≤ request.fiveTuple.sourcePort ∧ request.fiveTuple.sourcePort ≤ high)
  | .notInSchema => false

def scopeMatches (request : PacketDesc) (scope : Scope) (want : ScopeMatchType) : Bool :=
  if scope.protocol ≠ request.fiveTuple.l4Protocol then false
  else if !scope.portMatches request want then false
  else
    let oneWayReply := request.fiveTuple.l4Protocol == ipProtoUdp && want == .reverse &&
      scope.flag == .udpOneWay
    !oneWayReply

/-! ### Policies -/

structure Signal where
  message : String
  service : String
  deriving DecidableEq, Repr

structure ComPolicy where
  allow : Bool
  serviceId : String
  scope : List Scope
  clientConds : List AttrExp
  serviceConds : List AttrExp
  signal : Option Signal
  deriving DecidableEq, Repr

namespace ComPolicy

def scopeMatches (request : PacketDesc) (policy : ComPolicy) (want : ScopeMatchType) : Bool :=
  policy.scope.any fun scope => VisaService.scopeMatches request scope want

def matchConditions (now : Nat) (client server : Actor) (policy : ComPolicy) (forAllow : Bool) :
    Bool :=
  policy.clientConds.all (fun cond => matchConditionToActor now cond client forAllow) &&
    policy.serviceConds.all (fun cond => matchConditionToActor now cond server forAllow)

/-- The packet is a request to the service, as far as ports and provider go. -/
def isRequest (dst : Actor) (request : PacketDesc) (policy : ComPolicy) : Bool :=
  policy.scopeMatches request .forward && dst.provides policy.serviceId

/-- The packet is a reply of the service, as far as ports and provider go. -/
def isReply (src : Actor) (request : PacketDesc) (policy : ComPolicy) : Bool :=
  policy.scopeMatches request .reverse && src.provides policy.serviceId

/-- The direction in which the policy matches. A request whose conditions are not met is not
tried as a reply. -/
def direction (now : Nat) (src dst : Actor) (request : PacketDesc) (policy : ComPolicy)
    (allows : Bool) : Option Direction :=
  if policy.isRequest dst request then
    if policy.matchConditions now src dst allows then some .forward else none
  else if policy.isReply src request then
    if policy.matchConditions now dst src allows then some .reverse else none
  else none

theorem direction_eq_some {now : Nat} {src dst : Actor} {request : PacketDesc} {policy : ComPolicy}
    {allows : Bool} {direction : Direction} :
    policy.direction now src dst request allows = some direction ↔
      direction = .forward ∧ policy.isRequest dst request = true ∧
          policy.matchConditions now src dst allows = true ∨
        direction = .reverse ∧ policy.isRequest dst request = false ∧
          policy.isReply src request = true ∧
          policy.matchConditions now dst src allows = true := by
  unfold ComPolicy.direction
  grind

end ComPolicy

/-- The denials or the allowances that match, in the order of the policy. -/
def matchPolicies (now : Nat) (allows : Bool) (src dst : Actor) (request : PacketDesc)
    (policies : List ComPolicy) : List PolicyMatch :=
  policies.zipIdx.filterMap fun (policy, i) =>
    if allows ≠ policy.allow then none
    else (policy.direction now src dst request allows).map fun direction =>
      ⟨i, direction, policy.signal.map Signal.message⟩

/-! ### The evaluator -/

/-- The parts of a policy that are read to decide on a packet. -/
structure EvalPolicy where
  /-- None without a reader; the list is missing if the policy defines none. -/
  reader : Option (Option (List ComPolicy))
  version : Option Nat
  vinst : Nat
  cpolSources : List String

/-- The actor that stands for an anonymous endpoint at an AAA address. -/
def fabricateAaaActor (now : Nat) (anonAddr : IpAddr) (expiration : Nat) : Actor :=
  let add (actor : Actor) (attr : Attribute) := (actor.addAttribute attr).toOption.getD actor
  let actor := add .new (.internal now Key.zprAddr [anonAddr.display])
  let actor := add actor (.internal now Key.deviceAuthority ["vs_hack_anon_to_auth"])
  let actor := add actor (.internal now Key.role [roleAdapter])
  let actor := add actor
    { Attribute.internal now Key.cn [s!"hack.{anonAddr.display}.zpr"] with expiresAt := expiration }
  (actor.addIdentityKey 0 Key.cn).toOption.getD actor

/-- The actor of a side; an anonymous one was fabricated when its expiration was set. -/
def Party.actor : Party → Actor
  | .stored actor => actor
  | .anonymous addr expiration =>
    fabricateAaaActor (expiration - defaultAnonAuthExpiration) addr expiration

/-- The soonest expiry of the attributes with these keys. -/
def soonestOf (actor : Actor) (keys : List String) (soonest : Nat) : Nat :=
  keys.foldl (fun soonest key =>
    match actor.attrs[key]? with
    | some attr => if attr.expiresAt < soonest then attr.expiresAt else soonest
    | none => soonest) soonest

/-- The expiry of the authentication, if that is sooner. -/
def soonestAuth (actor : Actor) (soonest : Nat) : Nat :=
  match actor.getAuthenticationExpirationWithGate with
  | some (exp, _) => if exp < soonest then exp else soonest
  | none => soonest

namespace EvalPolicy

def comPolicies (policy : EvalPolicy) : List ComPolicy := policy.reader.join.getD []

/-- The keys of the client and of the service conditions. -/
def getConditionKeysForComPolicy (policy : EvalPolicy) (idx : Nat) :
    Option (List String) × Option (List String) :=
  match policy.comPolicies[idx]? with
  | none => (none, none)
  | some com => (some (com.clientConds.map AttrExp.key), some (com.serviceConds.map AttrExp.key))

def computeExpiration (now : Nat) (src dst : Actor) (policy : EvalPolicy) (hit : Hit) :
    Except ServiceError Nat :=
  match policy.getConditionKeysForComPolicy hit.matchIdx with
  | (some clientKeys, some serviceKeys) =>
    let (client, service) := if hit.direction = .forward then (src, dst) else (dst, src)
    -- the services of the provider have selected the policy
    let serviceKeys := serviceKeys ++ [Key.services]
    let soonest := soonestOf client clientKeys (now + Attribute.neverExpires)
    let soonest := soonestOf service serviceKeys soonest
    let soonest := soonestAuth dst (soonestAuth src soonest)
    .ok (if now + maxVisaLifetime < soonest then now + maxVisaLifetime else soonest)
  | _ =>
    .error (.internal s!"no communication policy at index {hit.matchIdx} for allow hit")

/-- What a request finds in the policy at this moment. -/
def view (policy : EvalPolicy) (now : Nat) : PolicyView where
  hasReader := policy.reader.isSome
  hasComPolicies := policy.reader.join.isSome
  matchPolicies allows src dst request :=
    .ok (matchPolicies now allows src.actor dst.actor request policy.comPolicies)
  expiration src dst hit := policy.computeExpiration now src.actor dst.actor hit
  version := policy.version
  vinst := policy.vinst
  cpolSource idx := policy.cpolSources[idx]?

def evalRequest (policy : EvalPolicy) (now : Nat) (src dst : Actor) (request : PacketDesc) :
    Except ServiceError PartialEvalResult :=
  (policy.view now).evalRequest (.stored src) (.stored dst) request

end EvalPolicy

/-! ### Hits -/

/-- The hits are those of the policies of one kind that match, in the order of the policy. -/
structure AreHits (now : Nat) (allows : Bool) (src dst : Actor) (request : PacketDesc)
    (policies : List ComPolicy) (hits : List Hit) : Prop where
  ordered : hits.Pairwise fun one two => one.matchIdx < two.matchIdx
  exactly : ∀ hit, hit ∈ hits ↔ ∃ policy, policies[hit.matchIdx]? = some policy ∧
    policy.allow = allows ∧ policy.direction now src dst request allows = some hit.direction ∧
    hit.signal = policy.signal.map Signal.message ∧ hit.route = none

section Hits

variable {now : Nat} {allows : Bool} {src dst : Actor} {request : PacketDesc}
  {policies : List ComPolicy}

theorem mem_matchPolicies {found : PolicyMatch} :
    found ∈ matchPolicies now allows src dst request policies ↔
      ∃ policy, policies[found.matchIdx]? = some policy ∧ policy.allow = allows ∧
        policy.direction now src dst request allows = some found.direction ∧
        found.signal = policy.signal.map Signal.message := by
  unfold matchPolicies
  simp only [List.mem_filterMap, Prod.exists, List.mem_zipIdx_iff_getElem?]
  constructor
  · rintro ⟨policy, i, member, made⟩
    split at made
    · cases made
    next sameKind =>
      obtain ⟨direction, matched, rfl⟩ := Option.map_eq_some_iff.mp made
      exact ⟨policy, member, (not_not.mp sameKind).symm, matched, rfl⟩
  · rintro ⟨policy, member, sameKind, matched, signal⟩
    refine ⟨policy, found.matchIdx, member, ?_⟩
    rw [if_neg (not_not.mpr sameKind.symm), matched, Option.map_some, ← signal]

theorem matchPolicies_ordered :
    (matchPolicies now allows src dst request policies).Pairwise
      fun one two => one.matchIdx < two.matchIdx := by
  unfold matchPolicies
  have increasing : policies.zipIdx.Pairwise fun one two => one.2 < two.2 := by
    rw [← List.pairwise_map, List.zipIdx_map_snd]
    exact List.pairwise_lt_range'
  refine List.Pairwise.filterMap _ (fun one two before => ?_) increasing
  -- a match carries the position of its policy
  have position (item : ComPolicy × Nat) (found : PolicyMatch)
      (made : (if allows ≠ item.1.allow then none
        else (item.1.direction now src dst request allows).map fun direction =>
          (⟨item.2, direction, item.1.signal.map Signal.message⟩ : PolicyMatch)) = some found) :
      found.matchIdx = item.2 := by
    split at made
    · cases made
    · obtain ⟨direction, -, rfl⟩ := Option.map_eq_some_iff.mp made
      rfl
  intro first isFirst second isSecond
  rw [position one first isFirst, position two second isSecond]
  exact before

theorem areHits_matchPolicies :
    AreHits now allows src dst request policies
      ((matchPolicies now allows src dst request policies).map PolicyMatch.hit) where
  ordered := List.pairwise_map.mpr matchPolicies_ordered
  exactly hit := by
    simp only [List.mem_map, mem_matchPolicies]
    constructor
    · rintro ⟨found, ⟨policy, member, sameKind, matched, signal⟩, rfl⟩
      exact ⟨policy, member, sameKind, matched, signal, rfl⟩
    · rintro ⟨policy, member, sameKind, matched, signal, route⟩
      exact ⟨⟨hit.matchIdx, hit.direction, hit.signal⟩, ⟨policy, member, sameKind, matched, signal⟩,
        by rw [PolicyMatch.hit, ← route]⟩

theorem matchPolicies_eq_nil :
    matchPolicies now allows src dst request policies = [] ↔
      ∀ policy ∈ policies, policy.allow = allows →
        policy.direction now src dst request allows = none := by
  rw [List.eq_nil_iff_forall_not_mem]
  simp only [mem_matchPolicies]
  constructor
  · intro unmatched policy member kind
    by_contra matched
    obtain ⟨direction, isDirection⟩ := Option.ne_none_iff_exists'.mp matched
    obtain ⟨i, found⟩ := List.getElem?_of_mem member
    exact unmatched ⟨i, direction, _⟩ ⟨policy, found, kind, isDirection, rfl⟩
  · rintro unmatched found ⟨policy, isPolicy, kind, isDirection, -⟩
    cases (unmatched policy (List.mem_of_getElem? isPolicy) kind).symm.trans isDirection

end Hits

/-- The result of an evaluation, from the denials and the allowances that match. -/
inductive Decides (denies allows : List Hit) : PartialEvalResult → Prop where
  | deny (matched : denies ≠ []) : Decides denies allows (.deny (.deny denies))
  | allow (first : Hit) (others : List Hit) (undenied : denies = [])
      (matched : allows = first :: others) : Decides denies allows (.allowWithoutRoute first others)
  | noMatch (message : String) (undenied : denies = []) (unmatched : allows = []) :
      Decides denies allows (.deny (.noMatch message))

namespace PartialEvalResult

/-- The indexes of the policies that allow the packet, if it is allowed. -/
def allowedBy : PartialEvalResult → Option (List Nat)
  | .allowWithoutRoute first others => some ((first :: others).map Hit.matchIdx)
  | .deny _ => none

/-- The indexes of the policies that deny the packet, if some do. -/
def deniedBy : PartialEvalResult → Option (List Nat)
  | .deny (.deny hits) => some (hits.map Hit.matchIdx)
  | .deny (.noMatch _) => none
  | .allowWithoutRoute _ _ => none

end PartialEvalResult

variable {others : List Hit}

theorem Decides.of_fewer {denies allows remaining : List Hit} {result : PartialEvalResult}
    {first : Hit} (decides : Decides denies allows result)
    (later : Decides denies remaining (.allowWithoutRoute first others))
    (fewer : remaining ⊆ allows) : ∃ first others, result = .allowWithoutRoute first others := by
  cases later with
  | allow _ _ undenied matched =>
    have member : first ∈ allows := fewer (matched ▸ List.mem_cons_self)
    cases decides with
    | deny denied => exact absurd undenied denied
    | allow first others => exact ⟨first, others, rfl⟩
    | noMatch _ _ unmatched =>
      rw [unmatched] at member
      cases member

theorem EvalPolicy.evalRequest_decides (policy : EvalPolicy) (now : Nat) (src dst : Actor)
    (request : PacketDesc)
    (supported : request.fiveTuple.l4Protocol ∈ [ipProtoTcp, ipProtoUdp, ipProtoIpv6Icmp]) :
    ∃ result, policy.evalRequest now src dst request = .ok result ∧
      Decides ((matchPolicies now false src dst request policy.comPolicies).map PolicyMatch.hit)
        ((matchPolicies now true src dst request policy.comPolicies).map PolicyMatch.hit)
        result := by
  unfold EvalPolicy.evalRequest PolicyView.evalRequest
  rw [if_neg (not_not.mpr supported)]
  match isReader : policy.reader with
  | none | some none => exact ⟨_, by simp [EvalPolicy.view, isReader]; rfl,
      .noMatch _ (by simp [EvalPolicy.comPolicies, isReader, matchPolicies])
        (by simp [EvalPolicy.comPolicies, isReader, matchPolicies])⟩
  | some (some policies) =>
    simp only [EvalPolicy.view, isReader, Party.actor, Option.isSome_some, Bool.not_true,
      Bool.false_eq_true, if_false, Option.join_some]
    cases denies : matchPolicies now false src dst request policy.comPolicies with
    | cons first others => exact ⟨_, rfl, .deny nofun⟩
    | nil =>
      cases allows : matchPolicies now true src dst request policy.comPolicies with
      | cons first others => exact ⟨_, rfl, .allow _ _ rfl rfl⟩
      | nil => exact ⟨_, rfl, .noMatch _ rfl rfl⟩

theorem EvalPolicy.evalRequest_allow {policy : EvalPolicy} {now : Nat} {src dst : Actor}
    {request : PacketDesc} {first : Hit} :
    policy.evalRequest now src dst request = .ok (.allowWithoutRoute first others) ↔
      request.fiveTuple.l4Protocol ∈ [ipProtoTcp, ipProtoUdp, ipProtoIpv6Icmp] ∧
        matchPolicies now false src dst request policy.comPolicies = [] ∧
        (matchPolicies now true src dst request policy.comPolicies).map PolicyMatch.hit =
          first :: others := by
  by_cases supported : request.fiveTuple.l4Protocol ∈ [ipProtoTcp, ipProtoUdp, ipProtoIpv6Icmp]
  · obtain ⟨result, evaluated, decides⟩ := policy.evalRequest_decides now src dst request supported
    rw [evaluated, ← List.map_eq_nil_iff (f := PolicyMatch.hit)]
    constructor
    · intro isAllow
      cases isAllow
      cases decides with
      | allow _ _ undenied matched => exact ⟨supported, undenied, matched⟩
    · rintro ⟨-, undenied, matched⟩
      cases decides with
      | deny denied => exact absurd undenied denied
      | allow _ _ _ isMatched =>
        cases isMatched.symm.trans matched
        rfl
      | noMatch _ _ unmatched => cases unmatched.symm.trans matched
  · constructor
    · intro isAllow
      unfold EvalPolicy.evalRequest PolicyView.evalRequest at isAllow
      rw [if_pos supported] at isAllow
      cases isAllow
    · exact fun allowed => absurd allowed.1 supported

/-! ### A policy for two providers of one service -/

namespace EvalSample

open BindingSample

/-- Administrators may chat, at ports 5000 to 6000. -/
def chat : EvalPolicy where
  reader := some (some [⟨true, "chat", [⟨ipProtoTcp, .portRange 5000 6000, .noFlag⟩],
    [⟨"user.role", .eq, ["admin"]⟩], [], none⟩])
  version := some 1
  vinst := 1
  cpolSources := ["allow user.role:admin users to access chat"]

def chatter (addr : IpAddr) : Actor :=
  (adapter addr).setServices 0 ((∅ : HashSet String).insert "chat")

def laptop : Actor := stampAttribute (chatter laptopAddr) 0 "user.role" "admin"

def printer : Actor := chatter printerAddr

def packet (sourcePort destPort : UInt16) : PacketDesc :=
  ⟨⟨laptopAddr, printerAddr, ipProtoTcp, sourcePort, destPort⟩, .biDirectional⟩

def allowedIn (evaluated : Except ServiceError PartialEvalResult) : Option (List Nat) :=
  evaluated.toOption.bind PartialEvalResult.allowedBy

end EvalSample

/-! ### Expiry -/

/-- The same attributes, more of which have expired. -/
structure Actor.Ages (now later : Nat) (actor aged : Actor) : Prop where
  values : ∀ key : String,
    aged.attrs[key]?.map Attribute.value = actor.attrs[key]?.map Attribute.value
  expires : ∀ (key : String) (attr old : Attribute), actor.attrs[key]? = some attr →
    aged.attrs[key]? = some old → attr.isExpired now = true → old.isExpired later = true

namespace Actor.Ages

variable {now later : Nat} {actor aged : Actor}

variable (ages : Actor.Ages now later actor aged)
include ages

theorem any_values (key : String)
    (test : List String → Bool) :
    aged.attrs[key]?.any (fun attr => test attr.value) =
      actor.attrs[key]?.any fun attr => test attr.value := by
  have mapped (found : Option Attribute) :
      found.any (fun attr => test attr.value) = (found.map Attribute.value).any test := by
    cases found <;> rfl
  rw [mapped, mapped, ages.values]

theorem provides (serviceId : String) :
    aged.provides serviceId = actor.provides serviceId :=
  ages.any_values Key.services (·.contains serviceId)

theorem hasAttributeNamed (key : String) :
    aged.hasAttributeNamed key = actor.hasAttributeNamed key := by
  have isSome (found : Option Attribute) :
      found.isSome = (found.map Attribute.value).isSome := by
    cases found <;> rfl
  have member (some : Actor) : some.hasAttributeNamed key = some.attrs[key]?.isSome := by
    rw [Actor.hasAttributeNamed, Bool.eq_iff_iff]
    simp
  rw [member, member, isSome, isSome actor.attrs[key]?, ages.values]

theorem admitsActor (cond : AttrExp) (forAllow : Bool) :
    cond.admitsActor aged forAllow = cond.admitsActor actor forAllow := by
  have single (value : String) :
      aged.hasAttributeValue cond.key value = actor.hasAttributeValue cond.key value :=
    ages.any_values cond.key (· == [value])
  have all (values : List String) :
      aged.hasAttributeValues cond.key values = actor.hasAttributeValues cond.key values :=
    ages.any_values cond.key fun own => values.all own.contains
  have any (values : List String) :
      aged.hasAnyAttributeValues cond.key values = actor.hasAnyAttributeValues cond.key values :=
    ages.any_values cond.key fun own => values.any own.contains
  unfold AttrExp.admitsActor
  simp only [single, all, any, ages.hasAttributeNamed]

theorem condition_deny (cond : AttrExp) :
    matchConditionToActor later cond aged false = matchConditionToActor now cond actor false := by
  simp only [matchConditionToActor, Bool.false_and, Bool.false_eq_true, if_false, ages.admitsActor]

theorem condition_allow {cond : AttrExp}
    (matched : matchConditionToActor later cond aged true = true) :
    matchConditionToActor now cond actor true = true := by
  unfold matchConditionToActor at matched ⊢
  split at matched
  · cases matched
  next current =>
    rw [ages.admitsActor] at matched
    rw [if_neg, matched]
    -- what had expired before has expired now
    simp only [Bool.true_and, Option.any_eq_true] at current ⊢
    rintro ⟨attr, found, expired⟩
    obtain ⟨old, isOld, -⟩ : ∃ old, aged.attrs[cond.key]? = some old ∧ old.value = attr.value := by
      have sameValue := ages.values cond.key
      rw [found] at sameValue
      exact Option.map_eq_some_iff.mp sameValue
    exact current ⟨old, isOld, ages.expires cond.key attr old found isOld expired⟩

end Actor.Ages

namespace ComPolicy

variable {now later : Nat} {src dst agedSrc agedDst : Actor} {request : PacketDesc}
  {policy : ComPolicy}

theorem matchConditions_deny (agesSrc : src.Ages now later agedSrc)
    (agesDst : dst.Ages now later agedDst) :
    policy.matchConditions later agedSrc agedDst false =
      policy.matchConditions now src dst false := by
  simp only [matchConditions, agesSrc.condition_deny, agesDst.condition_deny]

theorem matchConditions_allow (agesSrc : src.Ages now later agedSrc)
    (agesDst : dst.Ages now later agedDst)
    (matched : policy.matchConditions later agedSrc agedDst true = true) :
    policy.matchConditions now src dst true = true := by
  simp only [matchConditions, Bool.and_eq_true, List.all_eq_true] at matched ⊢
  exact ⟨fun cond member => agesSrc.condition_allow (matched.1 cond member),
    fun cond member => agesDst.condition_allow (matched.2 cond member)⟩

theorem isRequest_aged (agesDst : dst.Ages now later agedDst) :
    policy.isRequest agedDst request = policy.isRequest dst request := by
  rw [isRequest, isRequest, agesDst.provides]

variable (agesSrc : src.Ages now later agedSrc)
include agesSrc

theorem isReply_aged :
    policy.isReply agedSrc request = policy.isReply src request := by
  rw [isReply, isReply, agesSrc.provides]

theorem direction_deny (agesDst : dst.Ages now later agedDst) :
    policy.direction later agedSrc agedDst request false =
      policy.direction now src dst request false := by
  simp only [direction, isRequest_aged agesDst, isReply_aged agesSrc,
    matchConditions_deny agesSrc agesDst, matchConditions_deny agesDst agesSrc]

theorem direction_allow (agesDst : dst.Ages now later agedDst) {direction : Direction}
    (matched : policy.direction later agedSrc agedDst request true = some direction) :
    policy.direction now src dst request true = some direction := by
  rw [direction_eq_some] at matched ⊢
  rw [isRequest_aged agesDst, isReply_aged agesSrc] at matched
  rcases matched with ⟨forward, located, met⟩ | ⟨reverse, other, located, met⟩
  · exact .inl ⟨forward, located, matchConditions_allow agesSrc agesDst met⟩
  · exact .inr ⟨reverse, other, located, matchConditions_allow agesDst agesSrc met⟩

end ComPolicy

section Aged

variable {now later : Nat} {src dst agedSrc agedDst : Actor}

theorem matchPolicies_deny_aged (agesSrc : src.Ages now later agedSrc)
    (agesDst : dst.Ages now later agedDst) (request : PacketDesc) (policies : List ComPolicy) :
    matchPolicies later false agedSrc agedDst request policies =
      matchPolicies now false src dst request policies := by
  simp only [matchPolicies, ComPolicy.direction_deny agesSrc agesDst]

theorem matchPolicies_allow_aged (agesSrc : src.Ages now later agedSrc)
    (agesDst : dst.Ages now later agedDst) (request : PacketDesc) (policies : List ComPolicy) :
    matchPolicies later true agedSrc agedDst request policies ⊆
      matchPolicies now true src dst request policies := by
  intro found member
  obtain ⟨policy, isPolicy, sameKind, matched, signal⟩ := mem_matchPolicies.mp member
  exact mem_matchPolicies.mpr ⟨policy, isPolicy, sameKind,
    ComPolicy.direction_allow agesSrc agesDst matched, signal⟩

end Aged

/-- The result is decided by the policies that match, denials first. With more attributes expired
the denials are the same and no allowance is added, so that what was not allowed stays so. -/
theorem eval_request_decides (policy : EvalPolicy) (now : Nat) (src dst : Actor)
    (request : PacketDesc)
    (supported : request.fiveTuple.l4Protocol ∈ [ipProtoTcp, ipProtoUdp, ipProtoIpv6Icmp]) :
    ∃ result denies allows, policy.evalRequest now src dst request = .ok result ∧
      AreHits now false src dst request policy.comPolicies denies ∧
      AreHits now true src dst request policy.comPolicies allows ∧
      Decides denies allows result ∧
      ∀ (later : Nat) (agedSrc agedDst : Actor), src.Ages now later agedSrc →
        dst.Ages now later agedDst →
        ∃ aged remaining, policy.evalRequest later agedSrc agedDst request = .ok aged ∧
          AreHits later false agedSrc agedDst request policy.comPolicies denies ∧
          AreHits later true agedSrc agedDst request policy.comPolicies remaining ∧
          Decides denies remaining aged ∧ remaining ⊆ allows ∧
          ∀ first others, aged = .allowWithoutRoute first others →
            ∃ first others, result = .allowWithoutRoute first others := by
  obtain ⟨result, evaluated, decides⟩ := policy.evalRequest_decides now src dst request supported
  refine ⟨result, _, _, evaluated, areHits_matchPolicies, areHits_matchPolicies, decides,
    fun later agedSrc agedDst agesSrc agesDst => ?_⟩
  obtain ⟨aged, evaluatedLater, decidesLater⟩ :=
    policy.evalRequest_decides later agedSrc agedDst request supported
  have sameDenies := matchPolicies_deny_aged agesSrc agesDst request policy.comPolicies
  rw [sameDenies] at decidesLater
  have fewer := List.map_subset PolicyMatch.hit
    (matchPolicies_allow_aged agesSrc agesDst request policy.comPolicies)
  refine ⟨aged, _, evaluatedLater, sameDenies ▸ areHits_matchPolicies, areHits_matchPolicies,
    decidesLater, fewer, fun first others isAllow => ?_⟩
  subst isAllow
  exact decides.of_fewer decidesLater fewer

open EvalSample in
/-- The role of the laptop expires; the packet was allowed and is refused then. -/
theorem chat_expires :
    ∃ result, chat.evalRequest 0 laptop printer (packet 40000 5001) = .ok result ∧
      result.allowedBy = some [0] ∧
      ∃ aged, chat.evalRequest (Attribute.neverExpires + 1) laptop printer (packet 40000 5001) =
        .ok aged ∧ aged.allowedBy = none := by
  have ages (actor : Actor) : actor.Ages 0 (Attribute.neverExpires + 1) actor :=
    ⟨fun _ => rfl, fun key attr old found isOld expired => by
      cases found.symm.trans isOld
      exact decide_eq_true (lt_trans (of_decide_eq_true expired) (by decide))⟩
  obtain ⟨result, denies, allows, evaluated, -, -, -, later⟩ :=
    eval_request_decides chat 0 laptop printer (packet 40000 5001) (by decide)
  obtain ⟨aged, remaining, evaluatedLater, -⟩ := later _ _ _ (ages laptop) (ages printer)
  have allowed : allowedIn (chat.evalRequest 0 laptop printer (packet 40000 5001)) = some [0] := by
    decide +kernel
  have refused : allowedIn (chat.evalRequest (Attribute.neverExpires + 1) laptop printer
      (packet 40000 5001)) = none := by decide +kernel
  rw [evaluated] at allowed
  rw [evaluatedLater] at refused
  exact ⟨result, evaluated, allowed, aged, evaluatedLater, refused⟩

/-! ### Replies -/

def PacketDesc.reply (request : PacketDesc) : PacketDesc :=
  { request with
    fiveTuple :=
      { sourceAddr := request.fiveTuple.destAddr
        destAddr := request.fiveTuple.sourceAddr
        l4Protocol := request.fiveTuple.l4Protocol
        sourcePort := request.fiveTuple.destPort
        destPort := request.fiveTuple.sourcePort } }

namespace Decides

variable {denies allows those : List Hit} {result reply : PartialEvalResult}

theorem deniedBy_isSome (decides : Decides denies allows result) :
    result.deniedBy.isSome = true ↔ denies ≠ [] := by
  cases decides with
  | deny matched => simp [PartialEvalResult.deniedBy, matched]
  | allow first others undenied => simp [PartialEvalResult.deniedBy, undenied]
  | noMatch message undenied => simp [PartialEvalResult.deniedBy, undenied]

theorem allowedBy_eq (decides : Decides denies allows result) :
    result.allowedBy =
      if denies = [] ∧ allows ≠ [] then some (allows.map Hit.matchIdx) else none := by
  cases decides with
  | deny matched => simp [PartialEvalResult.allowedBy, matched]
  | allow first others undenied isAllowed => simp [PartialEvalResult.allowedBy, undenied, isAllowed]
  | noMatch message undenied unmatched => simp [PartialEvalResult.allowedBy, undenied, unmatched]

/-- Two packets are treated alike if denials decide both, or if none is denied and the same
policies allow them. -/
theorem agree_iff (decides : Decides denies allows result)
    (decidesReply : Decides others those reply) :
    reply.allowedBy = result.allowedBy ∧
        (reply.deniedBy.isSome = true ↔ result.deniedBy.isSome = true) ↔
      (denies ≠ [] ∧ others ≠ []) ∨ (denies = [] ∧ others = [] ∧
        those.map Hit.matchIdx = allows.map Hit.matchIdx) := by
  rw [decides.deniedBy_isSome, decidesReply.deniedBy_isSome, decides.allowedBy_eq,
    decidesReply.allowedBy_eq]
  by_cases denied : denies = [] <;> by_cases deniedReply : others = []
  · cases those <;> cases allows <;> simp [denied, deniedReply]
  all_goals simp [denied, deniedReply]

end Decides

/-- No scope of the policy is for UDP in one direction. -/
def ComPolicy.TwoWay (policy : ComPolicy) : Prop :=
  ∀ scope ∈ policy.scope, ¬ (scope.protocol = ipProtoUdp ∧ scope.flag = .udpOneWay)
  deriving Decidable

/-- If the policy has the packet as a request and as a reply, its conditions are met in both
readings or in none. -/
def ComPolicy.Unambiguous (now : Nat) (src dst : Actor) (request : PacketDesc)
    (policy : ComPolicy) : Prop :=
  policy.isRequest dst request = true → policy.isReply src request = true →
    policy.matchConditions now dst src policy.allow =
      policy.matchConditions now src dst policy.allow
  deriving Decidable

section Replies

variable {now : Nat} {src dst : Actor} {request : PacketDesc}

theorem scopeMatches_reply {scope : Scope}
    (ported : request.fiveTuple.l4Protocol ∈ [ipProtoTcp, ipProtoUdp])
    (twoWay : ¬ (scope.protocol = ipProtoUdp ∧ scope.flag = .udpOneWay)) :
    scopeMatches request.reply scope .forward = scopeMatches request scope .reverse ∧
      scopeMatches request.reply scope .reverse = scopeMatches request scope .forward := by
  have notIcmp : (request.fiveTuple.l4Protocol == ipProtoIpv6Icmp) = false := by
    rcases List.mem_pair.mp ported with tcp | udp
    · rw [tcp]
      decide
    · rw [udp]
      decide
  unfold scopeMatches Scope.portMatches PacketDesc.reply
  simp only [notIcmp]
  cases scope.port with
  | port allowed => grind
  | portRange low high => grind
  | notInSchema => simp

namespace ComPolicy

variable {policy : ComPolicy}

theorem scopeMatches_reply (ported : request.fiveTuple.l4Protocol ∈ [ipProtoTcp, ipProtoUdp])
    (twoWay : policy.TwoWay) :
    policy.scopeMatches request.reply .forward = policy.scopeMatches request .reverse ∧
      policy.scopeMatches request.reply .reverse = policy.scopeMatches request .forward := by
  have each (scope : Scope) (member : scope ∈ policy.scope) :=
    VisaService.scopeMatches_reply ported (twoWay scope member)
  unfold ComPolicy.scopeMatches
  constructor
  · rw [Bool.eq_iff_iff, List.any_eq_true, List.any_eq_true]
    exact exists_congr fun scope => and_congr_right fun member => by rw [(each scope member).1]
  · rw [Bool.eq_iff_iff, List.any_eq_true, List.any_eq_true]
    exact exists_congr fun scope => and_congr_right fun member => by rw [(each scope member).2]

theorem direction_reply_iff (ported : request.fiveTuple.l4Protocol ∈ [ipProtoTcp, ipProtoUdp])
    (twoWay : policy.TwoWay) :
    (policy.direction now dst src request.reply policy.allow).isSome =
        (policy.direction now src dst request policy.allow).isSome ↔
      policy.Unambiguous now src dst request := by
  obtain ⟨forward, reverse⟩ := scopeMatches_reply ported twoWay
  have asRequest : policy.isRequest src request.reply = policy.isReply src request := by
    rw [isRequest, isReply, forward]
  have asReply : policy.isReply dst request.reply = policy.isRequest dst request := by
    rw [isRequest, isReply, reverse]
  simp only [direction, asRequest, asReply, Unambiguous]
  -- only a policy with both readings takes another one for the reply
  cases isRequest : policy.isRequest dst request <;> cases isReply : policy.isReply src request <;>
    cases policy.matchConditions now dst src policy.allow <;>
    cases policy.matchConditions now src dst policy.allow <;> simp

end ComPolicy

theorem mem_matchIdxs {policies : List ComPolicy} {allows : Bool} {i : Nat} :
    i ∈ ((matchPolicies now allows src dst request policies).map PolicyMatch.hit).map
        Hit.matchIdx ↔
      ∃ policy, policies[i]? = some policy ∧ policy.allow = allows ∧
        (policy.direction now src dst request policy.allow).isSome = true := by
  simp only [List.mem_map, areHits_matchPolicies.exactly, Option.isSome_iff_exists]
  constructor
  · rintro ⟨hit, ⟨policy, found, rfl, matched, -⟩, rfl⟩
    exact ⟨policy, found, rfl, _, matched⟩
  · rintro ⟨policy, found, rfl, direction, matched⟩
    exact ⟨⟨i, direction, policy.signal.map Signal.message, none⟩,
      ⟨policy, found, rfl, matched, rfl, rfl⟩, rfl⟩

/-- The policies of one kind that match the reply are those that match the packet exactly if none
of that kind is ambiguous. -/
theorem matchPolicies_reply_iff (now : Nat) (src dst : Actor) {policies : List ComPolicy}
    (ported : request.fiveTuple.l4Protocol ∈ [ipProtoTcp, ipProtoUdp])
    (twoWay : ∀ policy ∈ policies, policy.TwoWay) (allows : Bool) :
    ((matchPolicies now allows dst src request.reply policies).map PolicyMatch.hit).map
          Hit.matchIdx =
        ((matchPolicies now allows src dst request policies).map PolicyMatch.hit).map
          Hit.matchIdx ↔
      ∀ policy ∈ policies, policy.allow = allows → policy.Unambiguous now src dst request := by
  constructor
  · rintro same policy member rfl
    obtain ⟨i, found⟩ := List.getElem?_of_mem member
    -- the position of the policy is among the matches of both packets or of none
    have both := congrArg (i ∈ ·) same
    simp only [mem_matchIdxs, found, Option.some.injEq, exists_eq_left', true_and] at both
    exact (ComPolicy.direction_reply_iff ported (twoWay _ member)).mp (Bool.eq_iff_iff.mpr both.to_iff)
  · intro clear
    unfold matchPolicies
    simp only [List.map_filterMap]
    refine List.filterMap_congr fun item member => ?_
    have isPolicy : item.1 ∈ policies :=
      List.mem_of_getElem? (List.mem_zipIdx_iff_getElem?.mp member)
    split
    · rfl
    next sameKind =>
      have kind := not_not.mp sameKind
      have same := (ComPolicy.direction_reply_iff ported (twoWay _ isPolicy)).mpr
        (clear _ isPolicy kind.symm)
      rw [← kind] at same
      cases matched : item.1.direction now src dst request allows <;>
        cases matchedReply : item.1.direction now dst src request.reply allows <;>
        simp [matched, matchedReply] at same ⊢
      rfl

end Replies

/-- Some denial has the packet. -/
def EvalPolicy.Denies (policy : EvalPolicy) (now : Nat) (src dst : Actor)
    (request : PacketDesc) : Prop :=
  ∃ com ∈ policy.comPolicies, com.allow = false ∧
    (com.direction now src dst request false).isSome = true

theorem EvalPolicy.denies_iff {policy : EvalPolicy} {now : Nat} {src dst : Actor}
    {request : PacketDesc} :
    policy.Denies now src dst request ↔
      (matchPolicies now false src dst request policy.comPolicies).map PolicyMatch.hit ≠ [] := by
  rw [ne_eq, List.map_eq_nil_iff, matchPolicies_eq_nil, Denies]
  simp only [Option.isSome_iff_ne_none]
  grind

/-- A packet and its reply are allowed by the same policies, and one is denied if the other is,
exactly if denials have both of them or no policy is ambiguous about the packet. -/
theorem reply_agrees_iff (policy : EvalPolicy) (now : Nat) (src dst : Actor) (request : PacketDesc)
    (ported : request.fiveTuple.l4Protocol ∈ [ipProtoTcp, ipProtoUdp])
    (twoWay : ∀ com ∈ policy.comPolicies, com.TwoWay) :
    ∃ result reply, policy.evalRequest now src dst request = .ok result ∧
      policy.evalRequest now dst src request.reply = .ok reply ∧
      (reply.allowedBy = result.allowedBy ∧
          (reply.deniedBy.isSome = true ↔ result.deniedBy.isSome = true) ↔
        (policy.Denies now src dst request ∧ policy.Denies now dst src request.reply) ∨
          ∀ com ∈ policy.comPolicies, com.Unambiguous now src dst request) := by
  have supported : request.fiveTuple.l4Protocol ∈ [ipProtoTcp, ipProtoUdp, ipProtoIpv6Icmp] := by
    rcases List.mem_pair.mp ported with tcp | udp
    · simp [tcp]
    · simp [udp]
  obtain ⟨result, evaluated, decides⟩ := policy.evalRequest_decides now src dst request supported
  obtain ⟨reply, evaluatedReply, decidesReply⟩ :=
    policy.evalRequest_decides now dst src request.reply supported
  refine ⟨result, reply, evaluated, evaluatedReply, ?_⟩
  rw [decides.agree_iff decidesReply, EvalPolicy.denies_iff, EvalPolicy.denies_iff,
    matchPolicies_reply_iff now src dst ported twoWay]
  refine or_congr_right' fun notBoth => ?_
  have sameDenies := matchPolicies_reply_iff now src dst ported twoWay false
  constructor
  · rintro ⟨undenied, undeniedReply, clear⟩ com member
    rw [undenied, undeniedReply] at sameDenies
    cases kind : com.allow with
    | true => exact clear com member kind
    | false => exact sameDenies.mp rfl com member kind
  · intro clear
    have same := sameDenies.mpr fun com member _ => clear com member
    have empty :
        (matchPolicies now false dst src request.reply policy.comPolicies).map PolicyMatch.hit = [] ↔
          (matchPolicies now false src dst request policy.comPolicies).map PolicyMatch.hit = [] := by
      rw [← List.map_eq_nil_iff (f := Hit.matchIdx), same, List.map_eq_nil_iff]
    have undenied := by_contra fun denied => notBoth ⟨denied, fun gone => denied (empty.mp gone)⟩
    exact ⟨undenied, empty.mpr undenied, fun com member _ => clear com member⟩

open EvalSample in
/-- The packet goes from one port of the range to another. Both ends provide the service, and the
reply is taken for a request of the end that is no administrator. -/
theorem reply_refused :
    ¬ ∀ (policy : EvalPolicy) (now : Nat) (src dst : Actor) (request : PacketDesc),
      request.fiveTuple.l4Protocol ∈ [ipProtoTcp, ipProtoUdp] →
      (∀ com ∈ policy.comPolicies, com.TwoWay) →
      ∃ result reply, policy.evalRequest now src dst request = .ok result ∧
        policy.evalRequest now dst src request.reply = .ok reply ∧
        (reply.allowedBy.isSome = true ↔ result.allowedBy.isSome = true) := by
  intro agrees
  obtain ⟨result, reply, evaluated, evaluatedReply, same⟩ :=
    agrees chat 0 laptop printer (packet 5000 5001) (by decide) (by decide)
  have allowed : allowedIn (chat.evalRequest 0 laptop printer (packet 5000 5001)) = some [0] := by
    decide +kernel
  have refused : allowedIn (chat.evalRequest 0 printer laptop (packet 5000 5001).reply) = none := by
    decide +kernel
  rw [evaluated] at allowed
  rw [evaluatedReply] at refused
  have allowed : result.allowedBy = some [0] := allowed
  have refused : reply.allowedBy = none := refused
  rw [allowed, refused] at same
  exact absurd (same.mpr rfl) nofun

open EvalSample in
/-- From a port outside of the range the reply is taken for what it is. -/
theorem reply_allowed :
    ∃ result reply, chat.evalRequest 0 laptop printer (packet 40000 5001) = .ok result ∧
      chat.evalRequest 0 printer laptop (packet 40000 5001).reply = .ok reply ∧
      result.allowedBy = some [0] ∧ reply.allowedBy = some [0] := by
  obtain ⟨result, reply, evaluated, evaluatedReply, exactly⟩ :=
    reply_agrees_iff chat 0 laptop printer (packet 40000 5001) (by decide) (by decide)
  have sameAllows := (exactly.mpr (.inr (by decide +kernel))).1
  have allowed : allowedIn (chat.evalRequest 0 laptop printer (packet 40000 5001)) = some [0] := by
    decide +kernel
  rw [evaluated] at allowed
  exact ⟨result, reply, evaluated, evaluatedReply, allowed, sameAllows.trans allowed⟩

end VisaService
