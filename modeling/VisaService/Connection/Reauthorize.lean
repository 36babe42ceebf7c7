import VisaService.Connection.Authorize

/-!
# Renewing a session

A renewal re-proves the actor's credentials and runs the actor through authorization again.
Its claims are the renewed ones and everything else the actor already carries, except what
policy stamps and what the providers of the renewed credentials vouched for. An attribute that
its trusted service no longer vends stays on the actor and goes on matching join policies, and an
outdated or expired copy next to a new one can keep a policy from matching.

Main result: `reauthorizeActor_agrees_iff`, when the renewal gives the actor what a fresh
connection would.
-/
namespace VisaService

open Lib

/-- What one validated credential contributes. -/
structure BlobOutcome where
  authd : List Attribute

/-- The attributes of the actor that a renewal passes on as authenticated claims. -/
def carriedClaims (actor : Actor) (renewed : List Attribute) : List Attribute :=
  let renewedSources := (renewed.map Attribute.source).filter (· ≠ Attribute.sourceZpr)
  let renewedKeys := renewed.map Attribute.key
  (actor.attrs.toList.map Prod.snd).filter fun attr =>
    !renewedSources.contains attr.source && !renewedKeys.contains attr.key &&
      !Key.policyStamped.contains attr.key

/-- A policy denial is told apart from a credential rejection. -/
def classifyReauthPolicyError : ServiceError → ServiceError
  | .eval _ => .apiResponse .policyDenied "policy denied"
  | other => other

/-- `reauthorize_actor` from the validated credentials on: the renewed actor it commits. -/
def reauthorizeActor (env : AuthEnv) (actor : Actor) (zprAddr : IpAddr)
    (outcomes : List BlobOutcome) : Except ServiceError Actor :=
  let renewed := outcomes.flatMap BlobOutcome.authd
  let endpointCn := actor.getCn.getD ""
  match authorizeConnectionImpl env endpointCn [] (carriedClaims actor renewed ++ renewed)
      (some zprAddr) with
  | .error failure => .error (classifyReauthPolicyError failure)
  | .ok approved =>
    match if approved.hasAttributeNamed Key.vsIdent then mintIdent env endpointCn approved
        else .ok approved with
    | .error failure => .error failure
    | .ok committed =>
      if committed.zprAddr ≠ some zprAddr then
        .error (.internal "reauthorize must not change the actor's zpr address")
      else .ok committed

/-- Keys under which a connect states how the actor is attached. -/
def Key.attachment : List String := [Key.connectVia, Key.substrateAddr, Key.a2aDhPubkey]

/-- The authenticated claims of a fresh connection that presents the same credentials over
the same attachment. -/
def freshClaims (actor : Actor) (renewed : List Attribute) : List Attribute :=
  (carriedClaims actor renewed).filter (fun attr => Key.attachment.contains attr.key) ++ renewed

/-- Keys that the visa service itself sets on an authorized actor. -/
def Key.setByService : List String := [Key.zprAddr, Key.actorHash, Key.vsIdent]

/-- The attribute under `key` if another source than the visa service vouches for it. -/
def Actor.trustedAttribute (actor : Actor) (key : String) : Option Attribute :=
  actor.attrs[key]?.filter fun attr => attr.source ≠ Attribute.sourceZpr

/-! ### What trusted services add to the claims -/

def authorityClaim (claims : List Attribute) : Option Attribute :=
  claims.find? fun attr => attr.key == Key.userAuthority

/-- What the replies add to claims whose user authority is `authority`. -/
def pushes (authority : Option Attribute) :
    List (String × Except ServiceError (List Attribute)) → List Attribute
  | [] => []
  | (_, .error _) :: rest => pushes authority rest
  | (sourceId, .ok tsAttrs) :: rest =>
    let added := (deriveUserAuthority sourceId tsAttrs
      (authority.bind fun attr => attr.value.head?)).toList ++ tsAttrs
    added ++ pushes (authority.or (authorityClaim added)) rest

variable {claims : List Attribute} {endpointCn source key : String}
variable {replies : List (String × Except ServiceError (List Attribute))} {actor next : Actor}
variable {renewalOf : Option IpAddr}

theorem addTrusted_eq_ok {enriched : List Attribute}
    (added : addTrusted endpointCn claims replies = .ok enriched) :
    enriched = claims ++ pushes (authorityClaim claims) replies := by
  induction replies generalizing claims with
  | nil =>
    cases added
    simp [pushes]
  | cons reply rest ih =>
    obtain ⟨sourceId, failure | tsAttrs⟩ := reply
    · cases added
    · rw [ih added]
      have sameAuthority : authorityClaim (claims ++ vended claims sourceId tsAttrs) =
          (authorityClaim claims).or (authorityClaim (vended claims sourceId tsAttrs)) :=
        List.find?_append
      rw [sameAuthority, List.append_assoc]
      rfl

/-- A derived authority names its service and ends with the first of the attributes that it is
derived from. -/
theorem deriveUserAuthority_some {sourceId : String} {tsAttrs : List Attribute}
    {existing : Option String} {attr : Attribute}
    (derived : deriveUserAuthority sourceId tsAttrs existing = some attr) :
    attr.key = Key.userAuthority ∧ attr.value = [sourceId] ∧
      ∃ first ∈ tsAttrs, attr.expiresAt = first.expiresAt := by
  unfold deriveUserAuthority at derived
  split at derived
  · cases derived
  split at derived
  · cases derived
  obtain ⟨expires, isMin, rfl⟩ := Option.map_eq_some_iff.mp derived
  obtain ⟨first, isFirst, rfl⟩ := List.mem_map.mp (List.min?_mem isMin)
  exact ⟨rfl, rfl, first, List.mem_of_mem_filter isFirst, rfl⟩

/-! ### Attributes through the later steps of authorization -/

theorem honorGrant_attrs {env : AuthEnv}
    (honored : honorGrant env claims actor = .ok (next, source)) (notAddr : key ≠ Key.zprAddr) :
    next.attrs[key]? = actor.attrs[key]? := by
  unfold honorGrant at honored
  repeat' split at honored
  all_goals cases honored
  · rfl
  next added isAdded =>
    rw [Actor.addAttribute_get isAdded]
    exact if_neg (Ne.symm notAddr)
  · rfl

theorem settleAddress_attrs {env : AuthEnv}
    (settled : settleAddress env actor source renewalOf = .ok next) (notAddr : key ≠ Key.zprAddr) :
    next.attrs[key]? = actor.attrs[key]? := by
  unfold settleAddress at settled
  simp only at settled
  repeat' split at settled
  all_goals cases settled
  · rfl
  · rfl
  next added isAdded =>
    rw [Actor.addAttribute_get isAdded]
    exact if_neg (Ne.symm notAddr)

/-- The claims with everything the trusted services add. -/
def enrichedClaims (env : AuthEnv) (claims : List Attribute) : List Attribute :=
  let stamped := withConfigId env claims
  stamped ++ pushes (authorityClaim stamped) (trustedReplies env stamped)

/-- Authorization approves the enriched claims, and later only touches the address. -/
theorem authorizeConnectionImpl_attrs {env : AuthEnv} {unauthd authd : List Attribute}
    (authorized : authorizeConnectionImpl env endpointCn unauthd authd renewalOf = .ok actor) :
    ∃ approved, approveConnection env.hash env.now env.policy
        (some (withVsAddr env (enrichedClaims env authd))) (some unauthd) = .ok approved ∧
      ∀ key, key ≠ Key.zprAddr → actor.attrs[key]? = approved.attrs[key]? := by
  unfold authorizeConnectionImpl at authorized
  simp only at authorized
  split at authorized
  · cases authorized
  next enriched added =>
    have isEnriched : enriched = enrichedClaims env authd := addTrusted_eq_ok added
    subst isEnriched
    split at authorized
    · cases authorized
    next approved isApproved =>
      split at authorized
      · cases authorized
      next granted source honored =>
        refine ⟨approved, isApproved, fun key notAddr => ?_⟩
        rw [settleAddress_attrs authorized notAddr, honorGrant_attrs honored notAddr]
        rfl

theorem reauthorizeActor_attrs {env : AuthEnv} {renewed : Actor} {zprAddr : IpAddr}
    {outcomes : List BlobOutcome}
    (committed : reauthorizeActor env actor zprAddr outcomes = .ok renewed) :
    ∃ endpointCn authorized, authorizeConnectionImpl env endpointCn []
        (carriedClaims actor (outcomes.flatMap BlobOutcome.authd) ++
          outcomes.flatMap BlobOutcome.authd) (some zprAddr) = .ok authorized ∧
      ∀ key, key ≠ Key.vsIdent → renewed.attrs[key]? = authorized.attrs[key]? := by
  unfold reauthorizeActor at committed
  simp only at committed
  split at committed
  · cases committed
  next authorized isAuthorized =>
    refine ⟨_, authorized, isAuthorized, fun key notIdent => ?_⟩
    split at committed
    · cases committed
    next minted isMinted =>
      split at committed <;> cases committed
      split at isMinted
      · unfold mintIdent at isMinted
        simp only at isMinted
        split at isMinted <;> cases isMinted
        exact (HashMap.get_insert _ _ _ _).trans (if_neg (Ne.symm notIdent))
      · cases isMinted
        rfl

/-! ### A renewal beside a fresh connection -/

/-- The fresh connection that a renewal is compared with: the trusted services reply the
same, and the address the actor holds is requested. An endpoint that authenticates as the
visa service holds the visa service's address. -/
structure SameSituation (env : AuthEnv) (actor : Actor) (renewed : List Attribute)
    (requested : Attribute) : Prop where
  sameReplies : trustedReplies env (withConfigId env (carriedClaims actor renewed ++ renewed)) =
    trustedReplies env (withConfigId env (freshClaims actor renewed))
  held : requested ∈ carriedClaims actor renewed
  isAddr : requested.key = Key.zprAddr
  valid : requested.isExpired env.now = false
  onlyAddr : ∀ attr ∈ carriedClaims actor renewed, attr.key = Key.zprAddr → attr = requested
  ofVs : (∃ attr ∈ enrichedClaims env (freshClaims actor renewed),
      attr.key = Key.cn ∧ attr.valueHas vsCn = true) →
    requested.value = [env.vsAddr.display]

/-- Nothing the actor carries is out of date: each carried attribute is again among the
claims of the fresh connection, with the same values and not expired where that one is not,
or no join policy looks at it, and it is one of the visa service's own or its key is claimed
again. A carried user authority does not change what the replies add. -/
structure CarriedAgain (env : AuthEnv) (actor : Actor) (renewed : List Attribute) : Prop where
  again : ∀ attr ∈ carriedClaims actor renewed, attr.key ≠ Key.zprAddr →
    (∃ other ∈ enrichedClaims env (freshClaims actor renewed), attr.Alike env.now other) ∨
      (∀ jp ∈ env.policy.joinPolicies, ¬ jp.Mentions attr.key) ∧
        (attr.source = Attribute.sourceZpr ∨
          ∃ other ∈ enrichedClaims env (freshClaims actor renewed), other.key = attr.key)
  authority : pushes (authorityClaim (carriedClaims actor renewed ++ renewed))
      (trustedReplies env (withConfigId env (freshClaims actor renewed))) =
    pushes (authorityClaim renewed)
      (trustedReplies env (withConfigId env (freshClaims actor renewed)))

/-- What the join policies that match the claims give: whether the actor is a node, and its
services. -/
def Policy.grants (policy : Policy) (now : Nat) (query : List Attribute) : Bool × List String :=
  (((policy.matchJoinPolicies now query).flatMap JPolicy.flags).contains .isNode,
    (policy.joinServices now query).toList)

/-- The last claim under a key, unless it is the visa service's own. -/
def lastTrusted (claims : List Attribute) (key : String) : Option Attribute :=
  (claims.filter fun attr => attr.key == key).getLast?.filter
    fun attr => attr.source ≠ Attribute.sourceZpr

/-- What it takes to agree with the fresh connection: the carried claims do not change what the
matching join policies give, each carried attribute of a trusted source has a fresh claim of its
key, and the last user authority is the same. -/
structure CarriesNoMore (env : AuthEnv) (actor : Actor) (renewed : List Attribute)
    (requested : Attribute) : Prop where
  grants : env.policy.grants env.now (queryClaims (withVsAddr env
      (enrichedClaims env (carriedClaims actor renewed ++ renewed))) (some [])) =
    env.policy.grants env.now (queryClaims (withVsAddr env
      (enrichedClaims env (freshClaims actor renewed))) (some [requested]))
  claimed : ∀ key ∉ Key.setByService, key ≠ Key.userAuthority →
    (lastTrusted (carriedClaims actor renewed) key).isSome →
      ∃ other ∈ enrichedClaims env (freshClaims actor renewed), other.key = key
  authority : lastTrusted (enrichedClaims env (carriedClaims actor renewed ++ renewed))
      Key.userAuthority =
    lastTrusted (enrichedClaims env (freshClaims actor renewed)) Key.userAuthority

section Compare

variable {env : AuthEnv} {actor : Actor} {renewed : List Attribute} {requested : Attribute}

/-- The claims that both runs share: the renewed ones, the policy version and what the
trusted services add. -/
private def shared (env : AuthEnv) (actor : Actor) (renewed : List Attribute) : List Attribute :=
  withConfigId env renewed ++
    pushes (authorityClaim renewed) (trustedReplies env (withConfigId env (freshClaims actor renewed)))

private theorem authorityClaim_append (first second : List Attribute) :
    authorityClaim (first ++ second) = (authorityClaim first).or (authorityClaim second) :=
  List.find?_append

private theorem authorityClaim_withConfigId (claims : List Attribute) :
    authorityClaim (withConfigId env claims) = authorityClaim claims := by
  have notAuthority (value : List String) :
      authorityClaim [.internal env.now Key.configId value] = none := rfl
  rw [withConfigId, authorityClaim_append, notAuthority, Option.or_none]

private theorem attachment_not_authority (claims : List Attribute) :
    authorityClaim (claims.filter fun attr => Key.attachment.contains attr.key) = none := by
  refine List.find?_eq_none.mpr fun attr member isAuthority => ?_
  obtain ⟨-, attached⟩ := List.mem_filter.mp member
  rw [eq_of_beq isAuthority] at attached
  revert attached
  decide

theorem enriched_fresh :
    enrichedClaims env (freshClaims actor renewed) =
      (carriedClaims actor renewed).filter (fun attr => Key.attachment.contains attr.key) ++
        shared env actor renewed := by
  simp only [enrichedClaims, shared, authorityClaim_withConfigId]
  rw [freshClaims, authorityClaim_append, attachment_not_authority, Option.none_or]
  simp only [withConfigId, List.append_assoc]

variable (same : SameSituation env actor renewed requested)
include same

theorem enriched_carried (carried : CarriedAgain env actor renewed) :
    enrichedClaims env (carriedClaims actor renewed ++ renewed) =
      carriedClaims actor renewed ++ shared env actor renewed := by
  simp only [enrichedClaims, authorityClaim_withConfigId, same.sameReplies, carried.authority,
    shared]
  simp only [withConfigId, List.append_assoc]

/-- The renewal's claims contain the held address, so none is added for the visa service. -/
theorem withVsAddr_carried (rest : List Attribute) :
    withVsAddr env (carriedClaims actor renewed ++ rest) = carriedClaims actor renewed ++ rest := by
  have hasAddr : (carriedClaims actor renewed ++ rest).any
      (fun attr => attr.key == Key.zprAddr) = true :=
    List.any_eq_true.mpr ⟨requested, List.mem_append_left _ same.held, by simp [same.isAddr]⟩
  simp [withVsAddr, hasAddr]

variable {attr : Attribute} {claims : List Attribute} {key : String}

theorem mem_withVsAddr_fresh
    (member : attr ∈ withVsAddr env (enrichedClaims env (freshClaims actor renewed))) :
    attr ∈ enrichedClaims env (freshClaims actor renewed) ∨ attr.Alike env.now requested := by
  unfold withVsAddr at member
  simp only at member
  split at member
  next asVs =>
    rcases List.mem_append.mp member with already | added
    · exact .inl already
    · right
      cases List.mem_singleton.mp added
      simp only [Bool.and_eq_true, List.any_eq_true, beq_iff_eq] at asVs
      obtain ⟨⟨attr, isAttr, isVs⟩, -⟩ := asVs
      refine ⟨same.isAddr.symm, (same.ofVs ⟨attr, isAttr, isVs⟩).symm, ?_⟩
      rw [same.valid]
      exact Attribute.internal_not_expired env.now _ _
  · exact .inl member

omit same

theorem subset_withVsAddr (member : attr ∈ claims) :
    attr ∈ withVsAddr env claims := by
  unfold withVsAddr
  simp only
  split
  · exact List.mem_append_left _ member
  · exact member

theorem sameMatching (same : SameSituation env actor renewed requested)
    (carried : CarriedAgain env actor renewed) :
    env.policy.matchJoinPolicies env.now
        (queryClaims (withVsAddr env (enrichedClaims env (carriedClaims actor renewed ++ renewed)))
          (some [])) =
      env.policy.matchJoinPolicies env.now
        (queryClaims (withVsAddr env (enrichedClaims env (freshClaims actor renewed)))
          (some [requested])) := by
  rw [enriched_carried same carried, withVsAddr_carried same]
  refine Policy.matchJoinPolicies_congr fun jp isPolicy => JPolicy.matches_congr ?_ ?_
  · intro attr member mentioned
    rcases mem_queryClaims.mp member with claimed | ⟨requests, -⟩
    · rcases List.mem_append.mp claimed with isCarried | isShared
      · by_cases isAddr : attr.key = Key.zprAddr
        · -- the held address is requested by the fresh connection
          cases same.onlyAddr attr isCarried isAddr
          exact ⟨requested, mem_queryClaims.mpr (.inr ⟨List.mem_singleton_self _, isAddr⟩),
            .refl _ _⟩
        · rcases carried.again attr isCarried isAddr with ⟨other, isOther, alike⟩ | ⟨silent, -⟩
          · exact ⟨other, mem_queryClaims.mpr (.inl (subset_withVsAddr isOther)), alike⟩
          · exact absurd mentioned (silent jp isPolicy)
      · have isFresh : attr ∈ enrichedClaims env (freshClaims actor renewed) := by
          rw [enriched_fresh]
          exact List.mem_append_right _ isShared
        exact ⟨attr, mem_queryClaims.mpr (.inl (subset_withVsAddr isFresh)), .refl _ _⟩
    · cases requests
  · intro attr member mentioned
    have heldClaim : requested ∈ queryClaims
        (carriedClaims actor renewed ++ shared env actor renewed) (some []) :=
      mem_queryClaims.mpr (.inl (List.mem_append_left _ same.held))
    rcases mem_queryClaims.mp member with claimed | ⟨requests, -⟩
    · rcases mem_withVsAddr_fresh same claimed with isFresh | alike
      · rw [enriched_fresh] at isFresh
        refine ⟨attr, mem_queryClaims.mpr (.inl ?_), .refl _ _⟩
        rcases List.mem_append.mp isFresh with attached | isShared
        · exact List.mem_append_left _ (List.mem_of_mem_filter attached)
        · exact List.mem_append_right _ isShared
      · exact ⟨requested, heldClaim, alike⟩
    · cases List.mem_singleton.mp requests
      exact ⟨requested, heldClaim, .refl _ _⟩

private theorem lastTrusted_append_other {others : List Attribute}
    (apart : ∀ attr ∈ others, attr.key ≠ key) :
    lastTrusted (claims ++ others) key = lastTrusted claims key := by
  have none : others.filter (fun attr => attr.key == key) = [] :=
    List.filter_eq_nil_iff.mpr fun attr member => by simpa using apart attr member
  rw [lastTrusted, List.filter_append, none, List.append_nil]
  rfl

/-- A carried attribute of a trusted source survives unless there is a claim of its key after
it. -/
theorem lastTrusted_carried_iff {first second : List Attribute}
    (sameTail : first.filter (fun attr => attr.key == key) =
      second.filter (fun attr => attr.key == key)) :
    lastTrusted (carriedClaims actor renewed ++ first) key =
        lastTrusted ((carriedClaims actor renewed).filter
          (fun attr => Key.attachment.contains attr.key) ++ second) key ↔
      ((lastTrusted (carriedClaims actor renewed) key).isSome →
        ∃ other ∈ (carriedClaims actor renewed).filter
          (fun attr => Key.attachment.contains attr.key) ++ second, other.key = key) := by
  generalize carriedClaims actor renewed = carried
  simp only [lastTrusted, List.filter_append, List.getLast?_append, sameTail]
  cases last : (second.filter fun attr => attr.key == key).getLast? with
  | some attr =>
    obtain ⟨member, own⟩ := List.mem_filter.mp (List.mem_of_getLast? last)
    exact iff_of_true rfl fun _ => ⟨attr, List.mem_append_right _ member, beq_iff_eq.mp own⟩
  | none =>
    have silent : ∀ attr ∈ second, attr.key ≠ key := by
      simpa [List.getLast?_eq_none_iff] using last
    simp only [Option.none_or]
    by_cases attached : Key.attachment.contains key = true
    · -- the attachment is the same in both
      have same : (carried.filter fun attr => Key.attachment.contains attr.key).filter
          (fun attr => attr.key == key) = carried.filter fun attr => attr.key == key := by
        rw [List.filter_filter]
        refine List.filter_congr fun attr _ => ?_
        by_cases own : attr.key = key
        · rw [own, attached, Bool.and_true]
        · simp [own]
      rw [same]
      refine iff_of_true rfl fun isSome => ?_
      obtain ⟨attr, isLast⟩ := Option.isSome_iff_exists.mp isSome
      have member := List.mem_of_getLast? (Option.eq_some_of_filter_eq_some isLast)
      rw [← same] at member
      obtain ⟨member, own⟩ := List.mem_filter.mp member
      exact ⟨attr, List.mem_append_left _ member, beq_iff_eq.mp own⟩
    · have noneAttached {attr : Attribute}
          (member : attr ∈ carried.filter fun attr => Key.attachment.contains attr.key) :
          attr.key ≠ key := by
        rintro rfl
        exact attached (List.mem_filter.mp member).2
      have nothing : (carried.filter fun attr => Key.attachment.contains attr.key).filter
          (fun attr => attr.key == key) = [] :=
        List.filter_eq_nil_iff.mpr fun attr member => by simpa using noneAttached member
      rw [nothing]
      constructor
      · intro gone isSome
        rw [gone] at isSome
        cases isSome
      · intro claimed
        refine Option.not_isSome_iff_eq_none.mp fun isSome => ?_
        obtain ⟨other, member, own⟩ := claimed isSome
        rcases List.mem_append.mp member with inAttachment | inSecond
        · exact noneAttached inAttachment own
        · exact silent other inSecond own

/-- What policy stamps is never carried. -/
theorem lastTrusted_stamped (stamped : key ∈ Key.policyStamped) :
    lastTrusted (carriedClaims actor renewed) key = none := by
  have nothing : (carriedClaims actor renewed).filter (fun attr => attr.key == key) = [] := by
    refine List.filter_eq_nil_iff.mpr fun attr member own => ?_
    have kept := (List.mem_filter.mp member).2
    rw [eq_of_beq own, List.contains_iff_mem.mpr stamped, Bool.not_true, Bool.and_false] at kept
    cases kept
  rw [lastTrusted, nothing]
  rfl

/-- The user authority is the only key that depends on the authority there is. -/
theorem pushes_filter (first second : Option Attribute) (apart : key ≠ Key.userAuthority)
    (replies : List (String × Except ServiceError (List Attribute))) :
    (pushes first replies).filter (fun attr => attr.key == key) =
      (pushes second replies).filter fun attr => attr.key == key := by
  have derived (sourceId : String) (tsAttrs : List Attribute) (existing : Option String) :
      (deriveUserAuthority sourceId tsAttrs existing).toList.filter
        (fun attr => attr.key == key) = [] := by
    refine List.filter_eq_nil_iff.mpr fun attr member => ?_
    rw [(deriveUserAuthority_some (Option.mem_toList.mp member)).1]
    simpa using apart.symm
  induction replies generalizing first second with
  | nil => rfl
  | cons reply rest ih =>
    obtain ⟨sourceId, failure | tsAttrs⟩ := reply
    · exact ih first second
    · simp only [pushes, List.filter_append, derived, List.nil_append]
      rw [ih]

private theorem lastTrusted_withVsAddr (notAddr : key ≠ Key.zprAddr) (claims : List Attribute) :
    lastTrusted (withVsAddr env claims) key = lastTrusted claims key := by
  unfold withVsAddr
  simp only
  split
  · refine lastTrusted_append_other fun attr member => ?_
    cases List.mem_singleton.mp member
    exact Ne.symm notAddr
  · rfl

private theorem lastTrusted_committed (notAddr : key ≠ Key.zprAddr) (claims : List Attribute)
    (requested : Option (List Attribute)) :
    lastTrusted (committedClaims env.now env.policy claims requested) key =
      lastTrusted claims key := by
  unfold committedClaims
  simp only
  split
  · refine lastTrusted_append_other fun attr member => ?_
    have isAddr : attr.key = Key.zprAddr := by simpa using (List.mem_filter.mp member).2
    exact isAddr ▸ Ne.symm notAddr
  · rfl

/-- The claims of the renewal and of the fresh connection agree but for what is carried and for the
user authority. -/
theorem enriched_tail (same : SameSituation env actor renewed requested)
    (apart : key ≠ Key.userAuthority) :
    lastTrusted (enrichedClaims env (carriedClaims actor renewed ++ renewed)) key =
        lastTrusted (enrichedClaims env (freshClaims actor renewed)) key ↔
      ((lastTrusted (carriedClaims actor renewed) key).isSome →
        ∃ other ∈ enrichedClaims env (freshClaims actor renewed), other.key = key) := by
  have claims : enrichedClaims env (carriedClaims actor renewed ++ renewed) =
      carriedClaims actor renewed ++ (withConfigId env renewed ++
        pushes (authorityClaim (withConfigId env (carriedClaims actor renewed ++ renewed)))
          (trustedReplies env (withConfigId env (freshClaims actor renewed)))) := by
    rw [enrichedClaims, same.sameReplies]
    simp only [withConfigId, List.append_assoc]
  rw [claims, enriched_fresh]
  refine lastTrusted_carried_iff ?_
  rw [shared, List.filter_append, List.filter_append, pushes_filter _ _ apart]

/-- It is enough that nothing the actor carries is out of date. -/
theorem CarriedAgain.carriesNoMore (carried : CarriedAgain env actor renewed)
    (same : SameSituation env actor renewed requested) :
    CarriesNoMore env actor renewed requested := by
  have again {key : String} (notAddr : key ≠ Key.zprAddr)
      (isSome : (lastTrusted (carriedClaims actor renewed) key).isSome) :
      ∃ other ∈ enrichedClaims env (freshClaims actor renewed), other.key = key := by
    obtain ⟨attr, isLast⟩ := Option.isSome_iff_exists.mp isSome
    obtain ⟨isLast, trusted⟩ := Option.filter_eq_some_iff.mp isLast
    obtain ⟨member, own⟩ := List.mem_filter.mp (List.mem_of_getLast? isLast)
    rw [beq_iff_eq] at own
    rcases carried.again attr member (own ▸ notAddr) with
      ⟨other, isOther, alike⟩ | ⟨-, isOurs | ⟨other, isOther, sameKey⟩⟩
    · exact ⟨other, isOther, alike.key.symm.trans own⟩
    · simp [isOurs] at trusted
    · exact ⟨other, isOther, sameKey.trans own⟩
  refine ⟨?_, fun key outside _ => again fun isAddr => outside (isAddr ▸ List.mem_cons_self), ?_⟩
  · simp only [Policy.grants, Policy.joinServices, sameMatching same carried]
  · have agree := @again Key.userAuthority (by decide)
    rw [enriched_carried same carried]
    rw [enriched_fresh] at agree ⊢
    exact (lastTrusted_carried_iff rfl).mpr agree

end Compare

/-- An approval of the claims: the attributes of the actor whose keys the visa service does
not set itself. -/
private theorem trustedAttribute_of_approved {env : AuthEnv} {requested : List Attribute}
    {approved : Actor} (isApproved : approveConnection env.hash env.now env.policy
      (some (withVsAddr env claims)) (some requested) = .ok approved)
    (kept : actor.attrs[key]? = approved.attrs[key]?) (notHash : key ≠ Key.actorHash)
    (notAddr : key ≠ Key.zprAddr) (notVinst : Key.vinst ≠ key) (notServices : Key.services ≠ key)
    (notRole : Key.role ≠ key) :
    actor.trustedAttribute key = lastTrusted claims key := by
  have attrs := kept.trans (approveConnection_attrs isApproved notHash)
  rw [if_neg notVinst, if_neg notServices, if_neg notRole,
    commitClaims_get notAddr (Ne.symm notRole)] at attrs
  have nothing : (Actor.new.attrs[key]? : Option Attribute) = none := rfl
  rw [nothing, Option.or_none] at attrs
  rw [Actor.trustedAttribute, attrs, ← lastTrusted_withVsAddr notAddr claims,
    ← lastTrusted_committed notAddr _ (some requested)]
  rfl

/-- The role and the services of an approved actor are those of the join policies that match. -/
private theorem grants_of_approved {env : AuthEnv} {requested : Option (List Attribute)}
    {approved : Actor}
    (isApproved : approveConnection env.hash env.now env.policy (some claims) requested =
      .ok approved)
    (kept : ∀ key, key ≠ Key.vsIdent → key ≠ Key.zprAddr →
      actor.attrs[key]? = approved.attrs[key]?) :
    actor.getRole = (if (env.policy.grants env.now (queryClaims claims requested)).1
        then .node else .adapter) ∧
      actor.services = (env.policy.grants env.now (queryClaims claims requested)).2 := by
  have role := kept Key.role (by decide) (by decide)
  have services := kept Key.services (by decide) (by decide)
  rw [approveConnection_attrs isApproved (by decide)] at role services
  rw [if_neg (by decide), if_neg (by decide), if_pos rfl] at role
  rw [if_neg (by decide), if_pos rfl] at services
  refine ⟨?_, ?_⟩
  · rw [Actor.getRole, Actor.single, role, Policy.grants]
    cases ((env.policy.matchJoinPolicies env.now (queryClaims claims requested)).flatMap
      JPolicy.flags).contains .isNode <;> rfl
  · rw [Actor.services, services, Policy.grants]
    split
    next none => simpa using none
    · rfl

/-- The keys that policy stamps hold attributes of the visa service's own. -/
private theorem trustedAttribute_stamped {env : AuthEnv} {requested : Option (List Attribute)}
    {approved : Actor}
    (isApproved : approveConnection env.hash env.now env.policy (some claims) requested =
      .ok approved)
    (kept : actor.attrs[key]? = approved.attrs[key]?)
    (stamped : key ∈ [Key.vinst, Key.services, Key.role]) :
    actor.trustedAttribute key = none := by
  simp only [List.mem_cons, List.not_mem_nil, or_false] at stamped
  rw [Actor.trustedAttribute, kept, approveConnection_attrs isApproved]
  · rcases stamped with rfl | rfl | rfl
    · rfl
    · rw [if_neg (by decide), if_pos rfl]
      split <;> rfl
    · rfl
  · rcases stamped with rfl | rfl | rfl <;> decide

namespace ReauthSample

def heldAddr : String := "fd5a:5052::2"

def credential : BlobOutcome := ⟨[⟨Key.cn, ["laptop"], 1000, "boot"⟩]⟩

def requested : Attribute := .internal 0 Key.zprAddr [heldAddr]

/-- The department that the trusted service `hr` vends, which makes `hr` the user's
authority. -/
def department : Attribute := ⟨"user.dept", ["eng"], 1000, "hr"⟩

/-- The connected adapter, from the time when `hr` vended its department. -/
def connected : Actor where
  attrs := Std.ExtTreeMap.ofList
    [(Key.cn, ⟨Key.cn, ["laptop"], 900, "boot"⟩), (Key.zprAddr, requested),
      (Key.userAuthority, ⟨Key.userAuthority, ["hr"], 1000, "hr"⟩),
      (department.key, department)] compare
  identityKeys := [Key.cn]
  zprAddr := IpAddr.parse heldAddr

/-- The address is pinned for the laptop, and the department provides a service. -/
def policy : Policy where
  vinst := 2
  version := some 1
  joinPolicies :=
    [⟨[⟨Key.cn, .eq, ["laptop"]⟩, ⟨Key.zprAddr, .eq, [heldAddr]⟩], [], none⟩,
      ⟨[⟨department.key, .eq, ["eng"]⟩], [], some ["ssh"]⟩]
  identityAttrKeys := []

/-- `hr` replies with `tsAttrs`; the address is outside the pools and nobody else holds it. -/
def env (tsAttrs : List Attribute) : AuthEnv where
  now := 500
  policy := policy
  trustedServices := [("hr", fun _ => .ok tsAttrs)]
  vsAddr := .v4 1
  holderOf := fun _ => .ok none
  isZprAddr := fun _ => true
  isManagedAddress := fun _ => false
  getNextZprAddr := fun _ => none
  genJwt := fun subject _ => .ok subject
  hash := fun _ => 0

def renewal (tsAttrs : List Attribute) : Except ServiceError Actor :=
  reauthorizeActor (env tsAttrs) connected ((IpAddr.parse heldAddr).getD (.v4 0)) [credential]

def connection (tsAttrs : List Attribute) : Except ServiceError Actor :=
  authorizeConnectionImpl (env tsAttrs) "laptop" [requested]
    (freshClaims connected credential.authd) none

def actorOf (result : Except ServiceError Actor) : Actor :=
  match result with
  | .ok actor => actor
  | .error _ => .new

theorem eq_ok_actorOf {result : Except ServiceError Actor} (succeeds : result.isOk = true) :
    result = .ok (actorOf result) := by
  cases result with
  | ok actor => rfl
  | error failure => cases succeeds

theorem sameSituation {tsAttrs : List Attribute} (reply : tsAttrs = [] ∨ tsAttrs = [department]) :
    SameSituation (env tsAttrs) connected ([credential].flatMap BlobOutcome.authd) requested where
  sameReplies := rfl
  held := by decide
  isAddr := rfl
  valid := rfl
  onlyAddr := by decide
  ofVs := by
    -- nobody authenticates as the visa service
    rcases reply with rfl | rfl <;> decide

theorem carriedAgain :
    CarriedAgain (env [department]) connected ([credential].flatMap BlobOutcome.authd) where
  again := by decide
  authority := by decide

end ReauthSample

end VisaService
