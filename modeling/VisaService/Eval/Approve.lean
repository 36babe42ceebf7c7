import VisaService.Eval.Join

/-!
# Approving a connection

`approve_connection` matches the authenticated claims, together with a requested `zpr.addr`,
against the join policies. The flags and services of the matching policies decide role and
services; the requested address is committed only if a matching policy pins it by an equality.

Matching looks at the requested address under every operator. A policy that tests the address in
another way therefore still grants its flags and services on the strength of an unauthenticated
claim.
-/
namespace VisaService

open Lib

/-- The expression pins `zpr.addr`: an equality with at least one value, none of them empty. -/
def pinsZprAddr (exp : AttrExp) : Bool :=
  exp.key == Key.zprAddr && exp.op == .eq && !exp.value.isEmpty &&
    exp.value.all fun value => value != ""

def JPolicy.pinsAddr (jp : JPolicy) : Bool := jp.exps.any pinsZprAddr

/-- The claims that join policies are matched against: of the unauthenticated ones only a
requested address. -/
def queryClaims (authenticated : List Attribute) (unauthenticated : Option (List Attribute)) :
    List Attribute :=
  authenticated ++ (unauthenticated.getD []).filter fun attr => attr.key == Key.zprAddr

/-- An invalid claim is dropped. -/
def commitClaim (actor : Actor) (attr : Attribute) : Actor :=
  match actor.addAttribute attr with
  | .ok added => added
  | .error _ => actor

/-- The attribute policy stamps for a role or the policy generation; their values are
always accepted. -/
def stampAttribute (actor : Actor) (now : Nat) (key value : String) : Actor :=
  { actor with attrs := actor.attrs.insert key (.internal now key [value]) }

theorem stampAttribute_get (actor : Actor) (now : Nat) (key value other : String) :
    (stampAttribute actor now key value).attrs[other]? =
      if key = other then some (.internal now key [value]) else actor.attrs[other]? :=
  HashMap.get_insert _ _ _ _

/-- The identity keys the actor carries, appended in policy order. -/
def registerIdentityKeys (actor : Actor) (keys : List String) : Actor :=
  { actor with identityKeys := actor.identityKeys ++ keys.filter actor.hasAttributeNamed }

def toHex (value : UInt64) : String := String.ofList (Nat.toDigits 16 value.toNat)

/-- An actor without any identity key would read as never authenticated. -/
def ensureIdentity (hash : Actor → UInt64) (now : Nat) (actor : Actor) : Actor :=
  if actor.identityKeys.isEmpty then
    if actor.hasAttributeNamed Key.zprAddr then
      { actor with identityKeys := [Key.zprAddr] }
    else
      { stampAttribute actor now Key.actorHash s!"hash:{toHex (hash actor)}" with
        identityKeys := [Key.actorHash] }
  else actor

/-- `hash` is the standard library's default hasher on actors; its algorithm is not
specified. -/
def approveConnection (hash : Actor → UInt64) (now : Nat) (policy : Policy)
    (authenticatedClaims unauthenticatedClaims : Option (List Attribute)) :
    Except EvalError Actor :=
  match authenticatedClaims with
  | none => .error (.attributeMissing "no authenticated claims provided")
  | some authenticated =>
    let query := queryClaims authenticated unauthenticatedClaims
    let matching := policy.matchJoinPolicies now query
    let matchedAddrPin := matching.any JPolicy.pinsAddr
    let flags := matching.flatMap JPolicy.flags
    let committed := (if matchedAddrPin then query else authenticated).foldl commitClaim .new
    let role := if flags.contains .isNode then roleNode else roleAdapter
    let actor := stampAttribute committed now Key.role role
    let actor := actor.setServices now (policy.joinServices now query)
    let actor := stampAttribute actor now Key.vinst (toString policy.vinst)
    let actor := registerIdentityKeys actor policy.lookupIdentityKeys
    .ok (ensureIdentity hash now actor)

/-- Whether policy still agrees with a connected actor: with its role, in both directions, and
with the services it offers. Without a matching join policy only a node has to go. -/
def approveConnected (now : Nat) (policy : Policy) (connected : Actor) : Except EvalError Bool :=
  let matching := policy.matchJoinPolicies now (connected.attrs.toList.map Prod.snd)
  if matching.isEmpty then .ok (!connected.isNode)
  else
    let flags := matching.flatMap JPolicy.flags
    let services := matching.flatMap fun jp => jp.services.getD []
    if flags.contains .isNode ≠ connected.isNode then .ok false
    else .ok (connected.services.all fun service => services.contains service)

variable {unauthenticated : Option (List Attribute)} {now : Nat} {jp : JPolicy} {key : String}

theorem mem_queryClaims {authenticated : List Attribute} {attr : Attribute} :
    attr ∈ queryClaims authenticated unauthenticated ↔
      attr ∈ authenticated ∨ attr ∈ unauthenticated.getD [] ∧ attr.key = Key.zprAddr := by
  simp [queryClaims]

/-- A policy without an expression on `zpr.addr` does not see the unauthenticated claims. -/
theorem matches_query_congr (silent : ¬ jp.Mentions Key.zprAddr) (authenticated : List Attribute)
    (first second : Option (List Attribute)) :
    jp.matches now (queryClaims authenticated first) =
      jp.matches now (queryClaims authenticated second) := by
  have covered (these others : Option (List Attribute)) :
      CoveredBy now jp.Mentions (queryClaims authenticated these)
        (queryClaims authenticated others) := by
    intro attr member mentioned
    rcases mem_queryClaims.mp member with authentic | ⟨-, isAddr⟩
    · exact ⟨attr, mem_queryClaims.mpr (.inl authentic), .refl now attr⟩
    · exact absurd (isAddr ▸ mentioned) silent
  exact JPolicy.matches_congr (covered first second) (covered second first)

/-- If the policies that match with either list of unauthenticated claims have no expression
on `zpr.addr`, the same policies match with both. -/
theorem matches_query_of_silent {authenticated : List Attribute}
    {first second : Option (List Attribute)}
    (silent : jp.matches now (queryClaims authenticated first) = true ∨
      jp.matches now (queryClaims authenticated second) = true → ¬ jp.Mentions Key.zprAddr) :
    jp.matches now (queryClaims authenticated first) =
      jp.matches now (queryClaims authenticated second) := by
  cases onFirst : jp.matches now (queryClaims authenticated first) with
  | true => rw [← onFirst, matches_query_congr (silent (.inl onFirst)) authenticated first second]
  | false =>
    cases onSecond : jp.matches now (queryClaims authenticated second) with
    | false => rfl
    | true =>
      rw [← onFirst, ← onSecond]
      exact matches_query_congr (silent (.inr onSecond)) authenticated first second

theorem JPolicy.mentions_of_pinsAddr (pins : jp.pinsAddr = true) :
    jp.Mentions Key.zprAddr := by
  simp only [JPolicy.pinsAddr, List.any_eq_true, pinsZprAddr, Bool.and_eq_true,
    beq_iff_eq] at pins
  obtain ⟨exp, member, ⟨⟨own, -⟩, -⟩, -⟩ := pins
  exact ⟨exp, member, own⟩

/-- Unauthenticated claims change nothing about an approval, unless a policy that matches
with one of them has an expression on `zpr.addr`. -/
theorem approveConnection_ignores_unauthenticated (hash : Actor → UInt64) (now : Nat)
    (policy : Policy) (authenticated : List Attribute) (first second : List Attribute)
    (silent : ∀ jp ∈ policy.joinPolicies,
      jp.matches now (queryClaims authenticated (some first)) = true ∨
        jp.matches now (queryClaims authenticated (some second)) = true →
      ¬ jp.Mentions Key.zprAddr) :
    approveConnection hash now policy (some authenticated) (some first) =
      approveConnection hash now policy (some authenticated) (some second) := by
  have sameMatching : policy.matchJoinPolicies now (queryClaims authenticated (some first)) =
      policy.matchJoinPolicies now (queryClaims authenticated (some second)) :=
    Policy.matchJoinPolicies_congr fun jp member => matches_query_of_silent (silent jp member)
  -- no matching policy pins the address, so both runs commit the authenticated claims
  have noPin : (policy.matchJoinPolicies now
      (queryClaims authenticated (some second))).any JPolicy.pinsAddr = false := by
    rw [List.any_eq_false]
    intro jp member pins
    obtain ⟨isPolicy, onSecond⟩ := List.mem_filter.mp member
    exact silent jp isPolicy (.inr onSecond) (JPolicy.mentions_of_pinsAddr pins)
  simp only [approveConnection, Policy.joinServices, sameMatching, noPin, Bool.false_eq_true,
    if_false]

/-! ### The attributes of an approved actor -/

/-- Claims whose values are not checked are committed last one wins. -/
theorem commitClaims_get (notAddr : key ≠ Key.zprAddr) (notRole : key ≠ Key.role)
    (claims : List Attribute) (actor : Actor) :
    (claims.foldl commitClaim actor).attrs[key]? =
      (claims.filter fun attr => attr.key == key).getLast?.or actor.attrs[key]? := by
  induction claims generalizing actor with
  | nil => simp
  | cons attr rest ih =>
    rw [List.foldl_cons, ih]
    by_cases own : attr.key = key
    · have committed : (commitClaim actor attr).attrs[key]? = some attr := by
        subst own
        simp [commitClaim, Actor.addAttribute, notAddr, notRole]
      rw [committed, List.filter_cons_of_pos (by simpa using own), List.getLast?_cons]
      cases (rest.filter fun attr => attr.key == key).getLast? <;> rfl
    · have kept : (commitClaim actor attr).attrs[key]? = actor.attrs[key]? := by
        unfold commitClaim
        split
        next added isAdded => rw [Actor.addAttribute_get isAdded, if_neg own]
        · rfl
      rw [kept, List.filter_cons_of_neg (by simpa using own)]

def committedClaims (now : Nat) (policy : Policy) (authenticated : List Attribute)
    (unauthenticated : Option (List Attribute)) : List Attribute :=
  let query := queryClaims authenticated unauthenticated
  if (policy.matchJoinPolicies now query).any JPolicy.pinsAddr then query else authenticated

/-- The attributes of an approved actor: policy's stamps, and otherwise the committed claims.
The hash that stands in for a missing identity is left open. -/
theorem approveConnection_attrs {hash : Actor → UInt64} {policy : Policy}
    {authenticated : List Attribute} {actor : Actor}
    (approved : approveConnection hash now policy (some authenticated) unauthenticated = .ok actor)
    (notHash : key ≠ Key.actorHash) :
    let query := queryClaims authenticated unauthenticated
    actor.attrs[key]? =
      if Key.vinst = key then some (.internal now Key.vinst [toString policy.vinst])
      else if Key.services = key then
        if (policy.joinServices now query).isEmpty then none
        else some (.internal now Key.services (policy.joinServices now query).toList)
      else if Key.role = key then
        some (.internal now Key.role
          [if ((policy.matchJoinPolicies now query).flatMap JPolicy.flags).contains .isNode
            then roleNode else roleAdapter])
      else
        ((committedClaims now policy authenticated unauthenticated).foldl commitClaim
          .new).attrs[key]? := by
  simp only [approveConnection, Except.ok.injEq] at approved
  subst approved
  intro query
  have keptIdentity (stamped : Actor) :
      (ensureIdentity hash now stamped).attrs[key]? = stamped.attrs[key]? := by
    unfold ensureIdentity
    split
    · split
      · rfl
      · exact (stampAttribute_get _ _ _ _ _).trans (if_neg (Ne.symm notHash))
    · rfl
  simp only [keptIdentity, registerIdentityKeys, stampAttribute_get, Actor.setServices_get]
  rfl

namespace ApproveSample

def authenticated : List Attribute := [.internal 0 Key.cn ["relay.zpr.org"]]

def requested (addr : String) : List Attribute := [.internal 0 Key.zprAddr [addr]]

def cnIsRelay : AttrExp := ⟨Key.cn, .eq, ["relay.zpr.org"]⟩

def nodePolicy (exps : List AttrExp) : Policy where
  vinst := 1
  version := some 1
  joinPolicies := [⟨exps, [.isNode], some ["vss"]⟩]
  identityAttrKeys := []

end ApproveSample

open ApproveSample in
/-- A policy that only excludes one address makes the peer a node that requests another one,
and an adapter if it requests none: the claim grants a role that no pin validates. -/
theorem role_granted_by_unauthenticated_addr :
    ¬ ∀ (hash : Actor → UInt64) (now : Nat) (policy : Policy) (authenticated : List Attribute)
      (first second : List Attribute) (one other : Actor),
      (∀ jp ∈ policy.joinPolicies,
        jp.matches now (queryClaims authenticated (some first)) = true ∨
          jp.matches now (queryClaims authenticated (some second)) = true →
        jp.pinsAddr = false) →
      approveConnection hash now policy (some authenticated) (some first) = .ok one →
      approveConnection hash now policy (some authenticated) (some second) = .ok other →
      one.getRole = other.getRole := by
  intro always
  have sameRole := always (fun _ => 0) 0
    (nodePolicy [cnIsRelay, ⟨Key.zprAddr, .ne, ["fd5a:5052::1"]⟩]) authenticated
    (requested "fd5a:5052::2") [] _ _ (by decide) rfl rfl
  revert sameRole
  decide

open ApproveSample in
theorem approveConnection_ignores_addr_of_cn_policy :
    approveConnection (fun _ => 0) 0 (nodePolicy [cnIsRelay]) (some authenticated)
        (some (requested "fd5a:5052::2")) =
      approveConnection (fun _ => 0) 0 (nodePolicy [cnIsRelay]) (some authenticated) (some []) :=
  approveConnection_ignores_unauthenticated _ _ _ _ _ _ (by decide)

end VisaService
