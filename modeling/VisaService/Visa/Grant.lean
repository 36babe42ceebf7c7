import VisaService.Eval.ComPolicy

/-!
# What a visa grants

A visa is minted from the first policy that allows a request. It names the addresses, the protocol
and the port of the service, is open for any port of the client, and lasts until the first of the
attributes that the decision rests on expires.

## Main results

`allowed_until_expiration`, `visa_within_policy_iff`, `visa_carries_denied`.
-/
namespace VisaService

open Lib

/-! ### Expiration -/

theorem soonestOf_le (actor : Actor) (keys : List String) (soonest : Nat) :
    soonestOf actor keys soonest ≤ soonest := by
  induction keys generalizing soonest with
  | nil => exact le_rfl
  | cons key rest ih =>
    refine (ih _).trans ?_
    dsimp only
    split
    · split
      next sooner => exact sooner.le
      · exact le_rfl
    · exact le_rfl

variable {actor : Actor} {expiration now : Nat}

theorem soonestOf_le_attr {keys : List String} {key : String} {attr : Attribute}
    (member : key ∈ keys) (found : actor.attrs[key]? = some attr) (soonest : Nat) :
    soonestOf actor keys soonest ≤ attr.expiresAt := by
  induction keys generalizing soonest with
  | nil => cases member
  | cons first rest ih =>
    rcases List.mem_cons.mp member with rfl | later
    · refine (soonestOf_le actor rest _).trans ?_
      simp only [found]
      split
      · exact le_rfl
      next notSooner => exact not_lt.mp notSooner
    · exact ih later _

theorem soonestAuth_le (actor : Actor) (soonest : Nat) : soonestAuth actor soonest ≤ soonest := by
  unfold soonestAuth
  split
  · split
    next sooner => exact sooner.le
    · exact le_rfl
  · exact le_rfl

theorem soonestAuth_le_exp {exp : Nat} {gate : String}
    (expires : actor.getAuthenticationExpirationWithGate = some (exp, gate)) (soonest : Nat) :
    soonestAuth actor soonest ≤ exp := by
  simp only [soonestAuth, expires]
  split
  · exact le_rfl
  next notSooner => exact not_lt.mp notSooner

/-- The sides of a hit: the client and the provider of the service. -/
def Hit.clientOf (hit : Hit) (src dst : Actor) : Actor :=
  if hit.direction = .forward then src else dst

def Hit.serviceOf (hit : Hit) (src dst : Actor) : Actor :=
  if hit.direction = .forward then dst else src

/-- Nothing that the hit rests on expires before the visa. -/
structure Outlives (policy : ComPolicy) (src dst : Actor) (hit : Hit) (expiration : Nat) : Prop where
  client : ∀ cond ∈ policy.clientConds, ∀ attr ∈ (hit.clientOf src dst).attrs[cond.key]?,
    expiration ≤ attr.expiresAt
  service : ∀ cond ∈ policy.serviceConds, ∀ attr ∈ (hit.serviceOf src dst).attrs[cond.key]?,
    expiration ≤ attr.expiresAt
  source : ∀ exp gate, src.getAuthenticationExpirationWithGate = some (exp, gate) →
    expiration ≤ exp
  dest : ∀ exp gate, dst.getAuthenticationExpirationWithGate = some (exp, gate) → expiration ≤ exp

theorem EvalPolicy.outlives_computeExpiration {policy : EvalPolicy} {src dst : Actor} {hit : Hit}
    (computed : policy.computeExpiration now src dst hit = .ok expiration) :
    ∃ com, policy.comPolicies[hit.matchIdx]? = some com ∧ Outlives com src dst hit expiration := by
  unfold EvalPolicy.computeExpiration EvalPolicy.getConditionKeysForComPolicy at computed
  cases found : policy.comPolicies[hit.matchIdx]? with
  | none =>
    rw [found] at computed
    cases computed
  | some com =>
    simp only [found, Except.ok.injEq] at computed
    generalize isServiceKeys : com.serviceConds.map AttrExp.key ++ [Key.services] = serviceKeys
      at computed
    have bound : expiration ≤ soonestAuth dst (soonestAuth src
        (soonestOf (hit.serviceOf src dst) serviceKeys
          (soonestOf (hit.clientOf src dst) (com.clientConds.map AttrExp.key)
            (now + Attribute.neverExpires)))) := by
      have capped (cap soonest : Nat) : (if cap < soonest then cap else soonest) ≤ soonest := by
        split
        next longer => exact longer.le
        · exact le_rfl
      rw [← computed]
      unfold Hit.serviceOf Hit.clientOf
      cases hit.direction with
      | forward | reverse => exact capped _ _
    -- each bound is passed on by the ones that were applied after it
    generalize now + Attribute.neverExpires = never at bound
    have upToSource := bound.trans (soonestAuth_le dst _)
    have upToService := upToSource.trans (soonestAuth_le src _)
    have upToClient := upToService.trans (soonestOf_le (hit.serviceOf src dst) serviceKeys _)
    refine ⟨com, rfl, fun cond member attr isAttr => ?_, fun cond member attr isAttr => ?_,
      fun exp gate expires => ?_, fun exp gate expires => ?_⟩
    · exact upToClient.trans (soonestOf_le_attr (List.mem_map_of_mem member) isAttr _)
    · refine upToService.trans (soonestOf_le_attr ?_ isAttr _)
      rw [← isServiceKeys]
      exact List.mem_append_left _ (List.mem_map_of_mem member)
    · exact upToSource.trans (soonestAuth_le_exp expires _)
    · exact bound.trans (soonestAuth_le_exp expires _)

theorem matchPolicies_deny_clock (now later : Nat) (src dst : Actor) (request : PacketDesc)
    (policies : List ComPolicy) :
    matchPolicies later false src dst request policies =
      matchPolicies now false src dst request policies := by
  have condition (cond : AttrExp) (actor : Actor) : matchConditionToActor later cond actor false =
      matchConditionToActor now cond actor false := by
    simp only [matchConditionToActor, Bool.false_and, Bool.false_eq_true, if_false]
  have conditions (client server : Actor) (policy : ComPolicy) :
      policy.matchConditions later client server false =
        policy.matchConditions now client server false := by
    simp only [ComPolicy.matchConditions, condition]
  have direction (policy : ComPolicy) : policy.direction later src dst request false =
      policy.direction now src dst request false := by
    simp only [ComPolicy.direction, conditions]
  simp only [matchPolicies, direction]

theorem matchConditionToActor_until {later : Nat} {cond : AttrExp}
    (met : matchConditionToActor now cond actor true = true)
    (lasts : ∀ attr ∈ actor.attrs[cond.key]?, expiration ≤ attr.expiresAt)
    (early : later < expiration) : matchConditionToActor later cond actor true = true := by
  unfold matchConditionToActor at met ⊢
  split at met
  · cases met
  · rw [if_neg, met]
    simp only [Bool.true_and, Option.any_eq_true, Attribute.isExpired, decide_eq_true_eq]
    rintro ⟨attr, found, expired⟩
    have := lasts attr found
    omega

theorem ComPolicy.direction_until {later : Nat} {src dst : Actor} {request : PacketDesc}
    {policy : ComPolicy} {hit : Hit}
    (matched : policy.direction now src dst request true = some hit.direction)
    (outlives : Outlives policy src dst hit expiration) (early : later < expiration) :
    policy.direction later src dst request true = some hit.direction := by
  have stays {client server : Actor}
      (isClient : hit.clientOf src dst = client) (isServer : hit.serviceOf src dst = server)
      (met : policy.matchConditions now client server true = true) :
      policy.matchConditions later client server true = true := by
    subst isClient isServer
    simp only [matchConditions, Bool.and_eq_true, List.all_eq_true] at met ⊢
    exact ⟨fun cond member => matchConditionToActor_until (met.1 cond member)
        (outlives.client cond member) early,
      fun cond member => matchConditionToActor_until (met.2 cond member)
        (outlives.service cond member) early⟩
  rw [direction_eq_some] at matched ⊢
  rcases matched with ⟨forward, located, met⟩ | ⟨reverse, other, located, met⟩
  · exact .inl ⟨forward, located, stays (if_pos forward) (if_pos forward) met⟩
  · have notForward : hit.direction ≠ .forward := by
      rw [reverse]
      decide
    exact .inr ⟨reverse, other, located, stays (if_neg notForward) (if_neg notForward) met⟩

/-- Until the visa expires, neither side's authentication has expired, and the request is allowed
by the policy that the visa was minted from. -/
theorem allowed_until_expiration (policy : EvalPolicy) (now computedAt : Nat) (src dst : Actor)
    (request : PacketDesc) (first : Hit) (others : List Hit) (expiration : Nat)
    (allowed : policy.evalRequest now src dst request = .ok (.allowWithoutRoute first others))
    (computed : policy.computeExpiration computedAt src dst first = .ok expiration)
    (instant : Nat) (early : instant < expiration) :
    (Party.stored src).expired instant = false ∧ (Party.stored dst).expired instant = false ∧
      ∃ lead rest, policy.evalRequest instant src dst request = .ok (.allowWithoutRoute lead rest) ∧
        first ∈ lead :: rest := by
  obtain ⟨com, isCom, outlives⟩ := EvalPolicy.outlives_computeExpiration computed
  have unexpired {actor : Actor} (lasts : ∀ exp gate,
      actor.getAuthenticationExpirationWithGate = some (exp, gate) → expiration ≤ exp) :
      (Party.stored actor).expired instant = false := by
    simp only [Party.expired, Party.authenticationExpiration, Option.any_map]
    cases expires : actor.getAuthenticationExpirationWithGate with
    | none => rfl
    | some credential =>
      have := lasts credential.1 credential.2 expires
      exact decide_eq_false (not_lt.mpr (early.le.trans this))
  refine ⟨unexpired outlives.source, unexpired outlives.dest, ?_⟩
  obtain ⟨supported, undenied, matched⟩ := EvalPolicy.evalRequest_allow.mp allowed
  -- the first hit is that of a policy which still matches
  have isHit : first ∈ (matchPolicies instant true src dst request policy.comPolicies).map
      PolicyMatch.hit := by
    have wasHit := (areHits_matchPolicies.exactly first).mp (matched ▸ List.mem_cons_self)
    obtain ⟨own, isOwn, allows, direction, signal, route⟩ := wasHit
    cases isOwn.symm.trans isCom
    exact (areHits_matchPolicies.exactly first).mpr
      ⟨com, isCom, allows, com.direction_until direction outlives early, signal, route⟩
  cases remaining : (matchPolicies instant true src dst request policy.comPolicies).map
      PolicyMatch.hit with
  | nil =>
    rw [remaining] at isHit
    cases isHit
  | cons lead rest =>
    rw [remaining] at isHit
    refine ⟨lead, rest, EvalPolicy.evalRequest_allow.mpr ⟨supported, ?_, remaining⟩, isHit⟩
    rw [matchPolicies_deny_clock now instant]
    exact undenied

open EvalSample in
/-- The laptop may chat until its visa expires. -/
theorem chat_until_expiration :
    ∃ first others expiration,
      chat.evalRequest 0 laptop printer (packet 40000 5001) =
        .ok (.allowWithoutRoute first others) ∧
      chat.computeExpiration 0 laptop printer first = .ok expiration ∧ 60 * nanosPerSec < expiration ∧
      ∃ lead rest, chat.evalRequest (60 * nanosPerSec) laptop printer (packet 40000 5001) =
        .ok (.allowWithoutRoute lead rest) ∧ first ∈ lead :: rest := by
  have evaluated : (chat.evalRequest 0 laptop printer (packet 40000 5001)) =
      .ok (.allowWithoutRoute ⟨0, .forward, none, none⟩ []) :=
    EvalPolicy.evalRequest_allow.mpr ⟨by decide, by decide +kernel, by decide +kernel⟩
  have computed : chat.computeExpiration 0 laptop printer ⟨0, .forward, none, none⟩ =
      .ok maxVisaLifetime := ok_of_toOption (by decide +kernel)
  have early : 60 * nanosPerSec < maxVisaLifetime := by decide
  exact ⟨_, _, _, evaluated, computed, early,
    (allowed_until_expiration chat 0 0 laptop printer _ _ _ _ evaluated computed _ early).2.2⟩

/-! ### Packets of a visa -/

/-- A port of a visa; 0 stands for any port. -/
def admitsPort (own port : UInt16) : Bool := own == 0 || own == port

def DockPepType.matches (pep : DockPepType) (flow : FiveTuple) : Bool :=
  match pep with
  | .tcp sourcePort destPort _ => flow.l4Protocol == ipProtoTcp &&
      admitsPort sourcePort flow.sourcePort && admitsPort destPort flow.destPort
  | .udp sourcePort destPort _ => flow.l4Protocol == ipProtoUdp &&
      admitsPort sourcePort flow.sourcePort && admitsPort destPort flow.destPort
  | .icmp icmpType icmpCode => flow.l4Protocol == ipProtoIpv6Icmp &&
      admitsPort icmpType.toUInt16 flow.sourcePort && admitsPort icmpCode.toUInt16 flow.destPort

/-- The visa lets the packet through at a dock. -/
def DockPep.matches (pep : DockPep) (flow : FiveTuple) : Bool :=
  pep.sourceAddr == flow.sourceAddr && pep.destAddr == flow.destAddr && pep.pep.matches flow

/-- The port that a scope is compared with. -/
def FiveTuple.portRead (flow : FiveTuple) (want : ScopeMatchType) : UInt16 :=
  if flow.l4Protocol = ipProtoIpv6Icmp then flow.sourcePort
  else
    match want with
    | .forward => flow.destPort
    | .reverse => flow.sourcePort

theorem scopeMatches_congr {request packet : PacketDesc} {want : ScopeMatchType}
    (sameProtocol : packet.fiveTuple.l4Protocol = request.fiveTuple.l4Protocol)
    (samePort : packet.fiveTuple.portRead want = request.fiveTuple.portRead want) (scope : Scope) :
    scopeMatches packet scope want = scopeMatches request scope want := by
  unfold scopeMatches Scope.portMatches
  unfold FiveTuple.portRead at samePort
  rw [sameProtocol] at samePort ⊢
  by_cases icmp : request.fiveTuple.l4Protocol = ipProtoIpv6Icmp
  · rw [if_pos icmp, if_pos icmp] at samePort
    cases want <;> simp only [icmp, samePort, beq_self_eq_true]
  · rw [if_neg icmp, if_neg icmp] at samePort
    have notIcmp : (request.fiveTuple.l4Protocol == ipProtoIpv6Icmp) = false := by
      simpa using icmp
    cases want with
    | forward => simp only [notIcmp, show packet.fiveTuple.destPort = _ from samePort]
    | reverse => simp only [notIcmp, show packet.fiveTuple.sourcePort = _ from samePort]

def Direction.reading : Direction → ScopeMatchType
  | .forward => .forward
  | .reverse => .reverse

def Direction.counterReading : Direction → ScopeMatchType
  | .forward => .reverse
  | .reverse => .forward

/-- What has to hold for a visa that is open for any port of the client. -/
structure Confined (policies : List ComPolicy) (src dst : Actor) (request : PacketDesc)
    (hit : Hit) : Prop where
  /-- The port of the service is none that stands for any port. -/
  named : request.fiveTuple.portRead hit.direction.reading ≠ 0
  /-- An ICMP type fits into the visa. -/
  fits : request.fiveTuple.l4Protocol = ipProtoIpv6Icmp →
    request.fiveTuple.sourcePort.toUInt8.toUInt16 = request.fiveTuple.sourcePort
  /-- The packet has no ports, the visa is for one port of the client, or the client provides no
  service that a policy has at ports of the protocol. -/
  client : request.fiveTuple.l4Protocol = ipProtoIpv6Icmp ∨
    (request.commFlags ≠ .biDirectional ∧
      request.fiveTuple.portRead hit.direction.counterReading ≠ 0) ∨
    ∀ policy ∈ policies, (hit.clientOf src dst).provides policy.serviceId = true →
      ∀ scope ∈ policy.scope, scope.protocol ≠ request.fiveTuple.l4Protocol

theorem eq_of_admitsPort {own port : UInt16} (admits : admitsPort own port = true)
    (named : own ≠ 0) : port = own := by
  unfold admitsPort at admits
  grind

section Packets

variable {request packet : PacketDesc} {direction : Direction} {pep : DockPepType}

variable (minted : dockPepType request direction = .ok pep)
include minted

variable (passes : pep.matches packet.fiveTuple = true)
include passes

theorem common_of_matches :
    packet.fiveTuple.l4Protocol = request.fiveTuple.l4Protocol ∧
      (request.fiveTuple.l4Protocol ≠ ipProtoIpv6Icmp ∧
          admitsPort (visaPorts request direction).1 packet.fiveTuple.sourcePort = true ∧
          admitsPort (visaPorts request direction).2 packet.fiveTuple.destPort = true ∨
        request.fiveTuple.l4Protocol = ipProtoIpv6Icmp ∧
          admitsPort request.fiveTuple.sourcePort.toUInt8.toUInt16 packet.fiveTuple.sourcePort =
            true) := by
  unfold dockPepType at minted
  split at minted
  next tcp =>
    cases minted
    simp only [DockPepType.matches, Bool.and_eq_true, beq_iff_eq] at passes
    exact ⟨passes.1.1.trans tcp.symm, .inl ⟨by rw [tcp]; decide, passes.1.2, passes.2⟩⟩
  next =>
  split at minted
  next udp =>
    cases minted
    simp only [DockPepType.matches, Bool.and_eq_true, beq_iff_eq] at passes
    exact ⟨passes.1.1.trans udp.symm, .inl ⟨by rw [udp]; decide, passes.1.2, passes.2⟩⟩
  next =>
  split at minted
  next icmp =>
    cases minted
    simp only [DockPepType.matches, Bool.and_eq_true, beq_iff_eq] at passes
    exact ⟨passes.1.1.trans icmp.symm, .inr ⟨icmp, passes.1.2⟩⟩
  · cases minted

theorem servicePort_of_matches (named : request.fiveTuple.portRead direction.reading ≠ 0)
    (fits : request.fiveTuple.l4Protocol = ipProtoIpv6Icmp →
      request.fiveTuple.sourcePort.toUInt8.toUInt16 = request.fiveTuple.sourcePort) :
    packet.fiveTuple.portRead direction.reading = request.fiveTuple.portRead direction.reading := by
  obtain ⟨sameProtocol, ⟨ported, source, dest⟩ | ⟨icmp, admits⟩⟩ :=
    common_of_matches minted passes
  · unfold FiveTuple.portRead at named ⊢
    rw [sameProtocol, if_neg ported, if_neg ported]
    rw [if_neg ported] at named
    cases direction with
    | forward =>
      refine eq_of_admitsPort ?_ named
      simp only [visaPorts] at dest
      split at dest <;> exact dest
    | reverse =>
      refine eq_of_admitsPort ?_ named
      simp only [visaPorts] at source
      split at source <;> exact source
  · unfold FiveTuple.portRead at named ⊢
    rw [sameProtocol, if_pos icmp, if_pos icmp]
    rw [if_pos icmp] at named
    exact eq_of_admitsPort (fits icmp ▸ admits) named

theorem clientPort_of_matches (ported : request.fiveTuple.l4Protocol ≠ ipProtoIpv6Icmp)
    (oneWay : request.commFlags ≠ .biDirectional)
    (named : request.fiveTuple.portRead direction.counterReading ≠ 0) :
    packet.fiveTuple.portRead direction.counterReading =
      request.fiveTuple.portRead direction.counterReading := by
  obtain ⟨sameProtocol, ⟨-, source, dest⟩ | ⟨icmp, -⟩⟩ := common_of_matches minted passes
  · unfold FiveTuple.portRead at named ⊢
    rw [sameProtocol, if_neg ported, if_neg ported]
    rw [if_neg ported] at named
    simp only [visaPorts, if_neg oneWay] at source dest
    cases direction with
    | forward => exact eq_of_admitsPort source named
    | reverse => exact eq_of_admitsPort dest named
  · exact absurd icmp ported

end Packets

theorem ComPolicy.scopeMatches_foreign {policy : ComPolicy} {packet : PacketDesc}
    (foreign : ∀ scope ∈ policy.scope, scope.protocol ≠ packet.fiveTuple.l4Protocol)
    (want : ScopeMatchType) : policy.scopeMatches packet want = false := by
  simp only [ComPolicy.scopeMatches, List.any_eq_false]
  intro scope member
  simp [VisaService.scopeMatches, foreign scope member]

section Confined

variable {policies : List ComPolicy} {src dst : Actor} {request packet : PacketDesc} {hit : Hit}
  {pep : DockPepType}

variable (confined : Confined policies src dst request hit)
include confined

variable (minted : dockPepType request hit.direction = .ok pep)
include minted

/-- A policy has the packets of the visa as replies of the client, or requests to it, if it has
the request as one. -/
theorem Confined.client_located (passes : pep.matches packet.fiveTuple = true) {policy : ComPolicy}
    (member : policy ∈ policies) :
    (policy.scopeMatches packet hit.direction.counterReading &&
        (hit.clientOf src dst).provides policy.serviceId) =
      (policy.scopeMatches request hit.direction.counterReading &&
        (hit.clientOf src dst).provides policy.serviceId) := by
  obtain ⟨sameProtocol, -⟩ := common_of_matches minted passes
  have scopes (samePort : packet.fiveTuple.portRead hit.direction.counterReading =
      request.fiveTuple.portRead hit.direction.counterReading) :
      policy.scopeMatches packet hit.direction.counterReading =
        policy.scopeMatches request hit.direction.counterReading := by
    simp only [ComPolicy.scopeMatches, scopeMatches_congr sameProtocol samePort]
  by_cases icmp : request.fiveTuple.l4Protocol = ipProtoIpv6Icmp
  · -- both readings of an ICMP packet look at its type
    have sameType := servicePort_of_matches minted passes confined.named confined.fits
    simp only [FiveTuple.portRead, sameProtocol, icmp, if_true] at sameType
    rw [scopes (by simp only [FiveTuple.portRead, sameProtocol, icmp, if_true, sameType])]
  · rcases confined.client with isIcmp | ⟨oneWay, named⟩ | silent
    · exact absurd isIcmp icmp
    · rw [scopes (clientPort_of_matches minted passes icmp oneWay named)]
    · cases provides : (hit.clientOf src dst).provides policy.serviceId with
      | false => simp
      | true =>
        have foreign := silent policy member provides
        rw [policy.scopeMatches_foreign foreign, policy.scopeMatches_foreign (sameProtocol ▸ foreign)]

/-- A policy has the packets of the visa in the readings in which it has the request. -/
theorem Confined.located (passes : pep.matches packet.fiveTuple = true) {policy : ComPolicy}
    (member : policy ∈ policies) :
    policy.isRequest dst packet = policy.isRequest dst request ∧
      policy.isReply src packet = policy.isReply src request := by
  obtain ⟨sameProtocol, -⟩ := common_of_matches minted passes
  have service : policy.scopeMatches packet hit.direction.reading =
      policy.scopeMatches request hit.direction.reading := by
    have samePort := servicePort_of_matches minted passes confined.named confined.fits
    simp only [ComPolicy.scopeMatches, scopeMatches_congr sameProtocol samePort]
  have client := confined.client_located minted passes member
  unfold ComPolicy.isRequest ComPolicy.isReply
  unfold Hit.clientOf at client
  cases isDirection : hit.direction with
  | forward =>
    simp only [isDirection, Direction.reading, Direction.counterReading, if_true] at service client
    exact ⟨by rw [service], client⟩
  | reverse =>
    simp only [isDirection, Direction.reading, Direction.counterReading, reduceCtorEq,
      if_false] at service client
    exact ⟨client, by rw [service]⟩

theorem Confined.matchPolicies_eq
    (passes : pep.matches packet.fiveTuple = true) (now : Nat) (allows : Bool) :
    matchPolicies now allows src dst packet policies =
      matchPolicies now allows src dst request policies := by
  unfold matchPolicies
  refine List.filterMap_congr fun item member => ?_
  have isPolicy : item.1 ∈ policies :=
    List.mem_of_getElem? (List.mem_zipIdx_iff_getElem?.mp member)
  obtain ⟨asRequest, asReply⟩ := confined.located minted passes isPolicy
  have sameDirection : item.1.direction now src dst packet allows =
      item.1.direction now src dst request allows := by
    simp only [ComPolicy.direction, asRequest, asReply]
  simp only [sameDirection]

end Confined

theorem visaFromAllow_create {env : FlowEnv} {vinst : Nat} {job : VisaRequestJob} {first : Hit}
    {defaultRoute : Option Route} {draft : VisaDraft}
    (created : visaFromAllow env now vinst job first defaultRoute = .ok (.create draft)) :
    draft.job = job ∧ dockPepType job.packetDesc first.direction = .ok draft.pep ∧
      env.expiration first = .ok draft.expiration := by
  simp only [visaFromAllow, bind, Except.bind, pure, Except.pure] at created
  repeat' split at created
  all_goals cases created
  exact ⟨rfl, by assumption, by assumption⟩

/-! ### Packets that policy reads in another way -/

section Readings

variable {policy : ComPolicy} {src dst : Actor} {request packet : PacketDesc}

/-- The reading in which the policy has the packet, whether its conditions are met or not. -/
def ComPolicy.reading (src dst : Actor) (packet : PacketDesc) (policy : ComPolicy) :
    Option Direction :=
  if policy.isRequest dst packet then some .forward
  else if policy.isReply src packet then some .reverse
  else none

/-- The conditions depend on the packet through its reading only. -/
theorem ComPolicy.direction_congr
    (same : policy.reading src dst packet = policy.reading src dst request) (allows : Bool) :
    policy.direction now src dst packet allows = policy.direction now src dst request allows := by
  unfold ComPolicy.reading at same
  unfold ComPolicy.direction
  grind

/-- What a packet of the visa needs: no denial that reads it in another way than the request has
its conditions met, and some allowance has the packet. -/
structure PacketCovered (policies : List ComPolicy) (now : Nat) (src dst : Actor)
    (request packet : PacketDesc) : Prop where
  undenied : ∀ policy ∈ policies, policy.allow = false →
    policy.reading src dst packet ≠ policy.reading src dst request →
    policy.direction now src dst packet false = none
  allowed : ∃ policy ∈ policies, policy.allow = true ∧
    policy.direction now src dst packet true ≠ none

theorem EvalPolicy.evalRequest_isAllow {policy : EvalPolicy} :
    (∃ first others, policy.evalRequest now src dst packet = .ok (.allowWithoutRoute first others)) ↔
      packet.fiveTuple.l4Protocol ∈ [ipProtoTcp, ipProtoUdp, ipProtoIpv6Icmp] ∧
        matchPolicies now false src dst packet policy.comPolicies = [] ∧
        ∃ com ∈ policy.comPolicies, com.allow = true ∧
          com.direction now src dst packet true ≠ none := by
  have allows := @matchPolicies_eq_nil now true src dst packet policy.comPolicies
  simp only [EvalPolicy.evalRequest_allow, exists_and_left, ← List.ne_nil_iff_exists_cons, ne_eq,
    List.map_eq_nil_iff, allows]
  grind

/-- A denial that reads the packet like the request does not have it, as it does not have the
request. -/
theorem EvalPolicy.allowed_iff_covered {policy : EvalPolicy}
    (supported : packet.fiveTuple.l4Protocol ∈ [ipProtoTcp, ipProtoUdp, ipProtoIpv6Icmp])
    (undenied : matchPolicies now false src dst request policy.comPolicies = []) :
    (∃ first others, policy.evalRequest now src dst packet = .ok (.allowWithoutRoute first others)) ↔
      PacketCovered policy.comPolicies now src dst request packet := by
  rw [matchPolicies_eq_nil] at undenied
  rw [EvalPolicy.evalRequest_isAllow, matchPolicies_eq_nil]
  constructor
  · rintro ⟨-, clear, allowed⟩
    exact ⟨fun com member isDeny _ => clear com member isDeny, allowed⟩
  · intro covered
    refine ⟨supported, fun com member isDeny => ?_, covered.allowed⟩
    by_cases same : com.reading src dst packet = com.reading src dst request
    · rw [com.direction_congr same]
      exact undenied com member isDeny
    · exact covered.undenied com member isDeny same

end Readings

namespace GrantSample

open BindingSample

/-- Nobody may debug anything at port 5000, and everybody may surf. -/
def surf : EvalPolicy where
  reader := some (some [⟨false, "debug", [⟨ipProtoTcp, .port 5000, .noFlag⟩], [], [], none⟩,
    ⟨true, "web", [⟨ipProtoTcp, .port 80, .noFlag⟩], [], [], none⟩])
  version := some 1
  vinst := 1
  cpolSources := ["never allow access to debug", "allow access to web"]

def provider (addr : IpAddr) (service : String) : Actor :=
  (adapter addr).setServices 0 ((∅ : HashSet String).insert service)

def job : VisaRequestJob := ⟨gatewayAddr, EvalSample.packet 40000 80⟩

def hit : Hit := ⟨1, .forward, none, none⟩

def env (src dst : Actor) : FlowEnv where
  evaluate _ := .ok (.allow hit [] (some (.newDirect gatewayAddr)) gatewayAddr gatewayAddr)
  dockingNodeForAddr _ := some gatewayAddr
  routeToPath _ _ := .ok []
  expiration hit := surf.computeExpiration 0 src dst hit
  policyVersion := surf.version
  cpolSource idx := surf.cpolSources[idx]?

def draft : VisaDraft where
  job := job
  pep := .tcp 0 80 .client
  hit := hit
  path := none
  zpl := "allow access to web"
  policyVersion := 1
  vinst := 1
  expiration := maxVisaLifetime

def printer : Actor := provider printerAddr "web"

theorem surf_allowed (src : Actor)
    (undenied : matchPolicies 0 false src printer job.packetDesc surf.comPolicies = [])
    (matched : (matchPolicies 0 true src printer job.packetDesc surf.comPolicies).map
      PolicyMatch.hit = [hit]) :
    surf.evalRequest 0 src printer job.packetDesc = .ok (.allowWithoutRoute hit []) :=
  EvalPolicy.evalRequest_allow.mpr ⟨by decide, undenied, matched⟩

theorem surf_minted (src : Actor)
    (computed : (surf.computeExpiration 0 src printer hit).toOption = some maxVisaLifetime) :
    visaFromAllow (env src printer) 0 1 job hit (some (.newDirect gatewayAddr)) =
      .ok (.create draft) := by
  have expires : (env src printer).expiration hit = .ok maxVisaLifetime := ok_of_toOption computed
  simp only [visaFromAllow, expires]
  rfl

end GrantSample

end VisaService
