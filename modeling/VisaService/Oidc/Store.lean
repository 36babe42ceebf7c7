import VisaService.Connection.Reauthorize

/-!
# The store of an OIDC provider

An OIDC provider cannot be asked about an identity: the claims come with a validated token.
The store keeps the claims of each subject that was admitted and serves them until they
expire, and it keeps the anchors of every session, against which renewals are checked.
-/
namespace VisaService

open Lib

/-! ### Claims -/

/-- A claim as the token carries it; a number is kept in its display form. -/
inductive ClaimValue where
  | text (value : String)
  | bool (value : Bool)
  | number (display : String)
  | array (items : List ClaimValue)
  | null
  | object

mutual

/-- The value strings of a claim. Null and objects contribute nothing. -/
def claimValues : ClaimValue → List String
  | .text value => [value]
  | .bool value => [toString value]
  | .number display => [display]
  | .array items => claimValuesOf items
  | .null | .object => []

def claimValuesOf : List ClaimValue → List String
  | [] => []
  | item :: rest => claimValues item ++ claimValuesOf rest

end

inductive AttrHint where
  | singleValued
  | multiValued
  | tag
  deriving DecidableEq, Repr

/-- The values of the attribute; a single-valued one needs a first value. -/
def AttrHint.values (hint : AttrHint) (values : List String) : Option (List String) :=
  match hint with
  | .singleValued => values.head?.map fun first => [first]
  | .multiValued => some values
  | .tag => some []

/-- One `returns_attributes` entry of the policy. -/
structure AttrMapping where
  serviceAttrKey : String
  zplKey : String
  hint : AttrHint
  deriving DecidableEq, Repr

/-- The latest representable time, in nanoseconds. -/
def systemTimeMax : Nat := 2 ^ 63 * nanosPerSec - 1

structure ValidatedToken where
  sub : String
  authTime : Nat
  iat : Nat
  rawClaims : List (String × ClaimValue)
  representable : iat ≤ systemTimeMax

/-! ### The store -/

structure AdmittedEntry where
  attrs : List Attribute
  expires : Nat
  deriving DecidableEq, Repr

structure SessionAnchors where
  sub : String
  authTime : Nat
  iat : Nat
  expires : Nat
  deriving DecidableEq, Repr

structure OidcTrustedService where
  id : String
  issuer : String
  /-- 0 for no bound. -/
  maxAuthAgeSeconds : Nat
  mappings : List AttrMapping
  expirationSeconds : Nat
  admitted : HashMap String AdmittedEntry
  sessions : HashMap IpAddr SessionAnchors
  revision : Nat

/-- What a validated token contributes to the claims, and the anchors to record. -/
structure OidcOutcome where
  authd : List Attribute
  session : SessionAnchors

def maxClockSkewSecs : Nat := 180

def checkedAdd (time duration : Nat) : Option Nat :=
  if time + duration ≤ systemTimeMax then some (time + duration) else none

/-- A sum that cannot be represented collapses to `iat`. -/
def computeAuthorityExpiry (iat : Nat) (sessionCeiling : Option Nat) (lifetime : Nat) : Nat :=
  let renewalExpires := (checkedAdd iat lifetime).getD iat
  match sessionCeiling with
  | some ceiling => min renewalExpires ceiling
  | none => renewalExpires

namespace OidcTrustedService

def sessionCeiling (svc : OidcTrustedService) (authTime : Nat) : Option Nat :=
  if svc.maxAuthAgeSeconds = 0 then none
  else checkedAdd authTime ((svc.maxAuthAgeSeconds + maxClockSkewSecs) * nanosPerSec)

def lifetime (svc : OidcTrustedService) : Nat := svc.expirationSeconds * nanosPerSec

def mapAttribute (svc : OidcTrustedService) (tsKey : String) : Option (String × AttrHint) :=
  (svc.mappings.find? fun mapping => mapping.serviceAttrKey == tsKey).map fun mapping =>
    (mapping.zplKey, mapping.hint)

def mappedSubKey (svc : OidcTrustedService) : Option String :=
  (svc.mapAttribute "sub").map Prod.fst

/-- The loop of `admit` over the claims. Claims that map to one key have to agree. -/
def mapClaims (svc : OidcTrustedService) (expires : Nat) :
    List (String × ClaimValue) → HashMap String Attribute →
      Except ServiceError (HashMap String Attribute)
  | [], mapped => .ok mapped
  | (claim, value) :: rest, mapped =>
    match (svc.mapAttribute claim).bind fun (zprKey, hint) =>
        (hint.values (claimValues value)).map fun values => (zprKey, values) with
    | none => svc.mapClaims expires rest mapped
    | some (zprKey, values) =>
      match mapped[zprKey]? with
      | some existing =>
        if existing.value ≠ values then
          .error (.param s!"{svc.id}: two claims disagree on attribute '{zprKey}'")
        else svc.mapClaims expires rest mapped
      | none =>
        svc.mapClaims expires rest (mapped.insert zprKey
          { key := zprKey, value := values, expiresAt := expires, source := svc.id })

/-- Cache the mapped claims of the token's subject. Expired entries are dropped on the way;
`revision` is the next of the process-wide counter. -/
def admitToken (svc : OidcTrustedService) (now revision : Nat) (token : ValidatedToken)
    (expires : Nat) : Except ServiceError (List Attribute × OidcTrustedService) :=
  match svc.mapClaims expires token.rawClaims ∅ with
  | .error failure => .error failure
  | .ok mapped =>
    let attrs := mapped.toList.map Prod.snd
    .ok (attrs, { svc with
      admitted := (svc.admitted.filter fun _ entry => now < entry.expires).insert token.sub
        ⟨attrs, expires⟩
      revision := revision })

def recordSession (svc : OidcTrustedService) (now : Nat) (sessionId : IpAddr)
    (anchors : SessionAnchors) : OidcTrustedService :=
  { svc with
    sessions := (svc.sessions.filter fun _ session => now < session.expires).insert sessionId
      anchors }

def sessionAnchors (svc : OidcTrustedService) (sessionId : IpAddr) : Option SessionAnchors :=
  svc.sessions[sessionId]?

def flush (svc : OidcTrustedService) (revision : Nat) : OidcTrustedService :=
  { svc with admitted := ∅, sessions := ∅, revision := revision }

/-- Merge the attributes of one more admitted identity. -/
def mergeAttrs (svc : OidcTrustedService) :
    List Attribute → HashMap String Attribute → Except ServiceError (HashMap String Attribute)
  | [], merged => .ok merged
  | attr :: rest, merged =>
    match merged[attr.key]? with
    | none => svc.mergeAttrs rest (merged.insert attr.key attr)
    | some first =>
      if first.value ≠ attr.value then
        .error (.param s!"{svc.id}: two admitted identities disagree on attribute '{attr.key}'")
      else svc.mergeAttrs rest merged

/-- The loop over the identities under the subject's key; expired entries are not served. -/
def mergeIdentities (svc : OidcTrustedService) (now : Nat) (subKey : String) :
    List (String × String) → HashMap String Attribute →
      Except ServiceError (HashMap String Attribute)
  | [], merged => .ok merged
  | (key, value) :: rest, merged =>
    match if key = subKey then svc.admitted[value]?.filter (fun entry => now < entry.expires)
        else none with
    | none => svc.mergeIdentities now subKey rest merged
    | some entry =>
      match svc.mergeAttrs entry.attrs merged with
      | .error failure => .error failure
      | .ok next => svc.mergeIdentities now subKey rest next

/-- The cached claims of every admitted subject among the identities, if this service vouched
for the actor. -/
def getAttributesForActor (svc : OidcTrustedService) (now : Nat)
    (identities : List (String × String)) : Except ServiceError (List Attribute) :=
  match svc.mappedSubKey with
  | none => .ok []
  | some subKey =>
    if identities.any fun (key, value) => key == Key.userAuthority && value == svc.id then
      (svc.mergeIdentities now subKey identities ∅).map fun merged => merged.toList.map Prod.snd
    else .ok []

/-- The claims that a validated token contributes: the authority, and the mapped subject. -/
def authdClaims (svc : OidcTrustedService) (expires : Nat) (mapped : List Attribute) :
    List Attribute :=
  { key := Key.userAuthority, value := [svc.id], expiresAt := expires, source := svc.id } ::
    (svc.mappedSubKey.bind fun subKey => mapped.find? fun attr => attr.key == subKey).toList

def tokenExpiry (svc : OidcTrustedService) (token : ValidatedToken) : Nat :=
  computeAuthorityExpiry token.iat (svc.sessionCeiling token.authTime) svc.lifetime

/-- `authenticate_oidc_blob` from the validated token on. -/
def authenticateOidcBlob (svc : OidcTrustedService) (now revision : Nat)
    (token : ValidatedToken) : Except ServiceError (OidcOutcome × OidcTrustedService) :=
  let expires := svc.tokenExpiry token
  match svc.admitToken now revision token expires with
  | .error failure => .error failure
  | .ok (mapped, admitted) =>
    .ok (⟨svc.authdClaims expires mapped, ⟨token.sub, token.authTime, token.iat, expires⟩⟩,
      admitted)

/-- The rejection of a renewal that is not bound to the session. -/
def reject : ServiceError := .apiResponse .authError "authentication rejected"

/-- `reauthenticate_oidc_blob`. The actor is as it was loaded, and `clock` is the time that was
read before the token was validated. -/
def reauthenticateOidcBlob (svc : OidcTrustedService) (now revision clock : Nat) (actor : Actor)
    (issuer : String) (token : ValidatedToken) :
    Except ServiceError (OidcOutcome × OidcTrustedService) :=
  if issuer ≠ svc.issuer then .error reject
  else if (actor.attrs[Key.userAuthority]?.bind Attribute.getSingleValue) ≠ some svc.id then
    .error reject
  else
    match svc.mappedSubKey with
    | none => .error reject
    | some subKey =>
      if (actor.attrs[subKey]?.bind Attribute.getSingleValue) ≠ some token.sub then .error reject
      else
        match actor.zprAddr.bind svc.sessionAnchors with
        | none => .error reject
        | some anchors =>
          if anchors.sub ≠ token.sub then .error reject
          else if anchors.expires ≤ clock then .error reject
          -- the replay guard, and the same login
          else if token.iat ≤ anchors.iat then .error reject
          else if token.authTime ≠ anchors.authTime then .error reject
          else if svc.tokenExpiry token ≤ clock then .error reject
          else svc.authenticateOidcBlob now revision token

/-! ### What the operations guarantee -/

variable {svc after : OidcTrustedService} {now revision clock expires : Nat}
  {token : ValidatedToken} {outcome : OidcOutcome}

theorem admit_ok {mapped : List Attribute}
    (admitted : svc.admitToken now revision token expires = .ok (mapped, after)) :
    ∃ table, svc.mapClaims expires token.rawClaims ∅ = .ok table ∧
      mapped = table.toList.map Prod.snd ∧
      after = { svc with
        admitted := (svc.admitted.filter fun _ entry => now < entry.expires).insert token.sub
          ⟨mapped, expires⟩
        revision := revision } := by
  unfold admitToken at admitted
  split at admitted
  · cases admitted
  next table isTable =>
    cases admitted
    exact ⟨table, isTable, rfl, rfl⟩

theorem authenticateOidcBlob_ok
    (authenticated : svc.authenticateOidcBlob now revision token = .ok (outcome, after)) :
    ∃ mapped, svc.admitToken now revision token (svc.tokenExpiry token) = .ok (mapped, after) ∧
      outcome = ⟨svc.authdClaims (svc.tokenExpiry token) mapped,
        ⟨token.sub, token.authTime, token.iat, svc.tokenExpiry token⟩⟩ := by
  unfold authenticateOidcBlob at authenticated
  simp only at authenticated
  split at authenticated
  · cases authenticated
  next mapped admitted isAdmitted =>
    cases authenticated
    exact ⟨mapped, isAdmitted, rfl⟩

theorem reauthenticateOidcBlob_ok {actor : Actor} {issuer : String}
    (renewed : svc.reauthenticateOidcBlob now revision clock actor issuer token =
      .ok (outcome, after)) :
    ∃ anchors, actor.zprAddr.bind svc.sessionAnchors = some anchors ∧
      token.sub = anchors.sub ∧ token.authTime = anchors.authTime ∧ anchors.iat < token.iat ∧
      svc.authenticateOidcBlob now revision token = .ok (outcome, after) := by
  unfold reauthenticateOidcBlob at renewed
  split at renewed
  · cases renewed
  split at renewed
  · cases renewed
  split at renewed
  · cases renewed
  split at renewed
  · cases renewed
  split at renewed
  · cases renewed
  next anchors isAnchors =>
    split at renewed
    · cases renewed
    next sameSub =>
    split at renewed
    · cases renewed
    split at renewed
    · cases renewed
    next newer =>
    split at renewed
    · cases renewed
    next sameLogin =>
    split at renewed
    · cases renewed
    exact ⟨anchors, isAnchors, (not_not.mp sameSub).symm, not_not.mp sameLogin,
      Nat.lt_of_not_le newer, renewed⟩

/-- The latest time at which an authority of a login may end. -/
def limit (maxAuthAgeSeconds authTime : Nat) : Nat :=
  authTime + (maxAuthAgeSeconds + maxClockSkewSecs) * nanosPerSec

theorem limit_mono (age : Nat) {first second : Nat} (le : first ≤ second) :
    limit age first ≤ limit age second :=
  Nat.add_le_add_right le _

/-- A ceiling that cannot be represented bounds nothing, but is beyond every expiry. -/
theorem computeAuthorityExpiry_le {iat : Nat} (representable : iat ≤ systemTimeMax)
    (authTime age lifetime : Nat) :
    computeAuthorityExpiry iat (checkedAdd authTime age) lifetime ≤ authTime + age := by
  unfold computeAuthorityExpiry checkedAdd
  generalize systemTimeMax = latest at representable
  by_cases fits : authTime + age ≤ latest
  · simp only [if_pos fits]
    exact Nat.min_le_right _ _
  · simp only [if_neg fits]
    split
    · simp only [Option.getD_some]
      omega
    · simp only [Option.getD_none]
      omega

theorem tokenExpiry_le (bounded : svc.maxAuthAgeSeconds ≠ 0) (token : ValidatedToken) :
    svc.tokenExpiry token ≤ limit svc.maxAuthAgeSeconds token.authTime := by
  rw [tokenExpiry, sessionCeiling, if_neg bounded]
  exact computeAuthorityExpiry_le token.representable _ _ _

variable {attr : Attribute} {key : String} {table : HashMap String Attribute}

theorem mapClaims_mem {claims : List (String × ClaimValue)} {mapped : HashMap String Attribute}
    (isTable : svc.mapClaims expires claims mapped = .ok table)
    (holds : ∀ (key : String) (attr : Attribute), mapped[key]? = some attr →
      attr.expiresAt = expires ∧ ∃ mapping ∈ svc.mappings, attr.key = mapping.zplKey)
    (found : table[key]? = some attr) :
    attr.expiresAt = expires ∧ ∃ mapping ∈ svc.mappings, attr.key = mapping.zplKey := by
  induction claims generalizing mapped with
  | nil =>
    cases isTable
    exact holds key attr found
  | cons first rest ih =>
    simp only [mapClaims] at isTable
    split at isTable
    · exact ih isTable holds
    next zprKey values isMapped =>
      split at isTable
      · split at isTable
        · cases isTable
        · exact ih isTable holds
      · refine ih isTable fun other added isAdded => ?_
        rcases HashMap.of_get_insert isAdded with ⟨-, ⟨⟩⟩ | ⟨-, before⟩
        · obtain ⟨⟨mappedKey, hint⟩, found, isKey⟩ := Option.bind_eq_some_iff.mp isMapped
          obtain ⟨mapping, isMapping, same⟩ := Option.map_eq_some_iff.mp found
          obtain ⟨values, -, sameKey⟩ := Option.map_eq_some_iff.mp isKey
          cases same
          cases sameKey
          exact ⟨rfl, mapping, List.mem_of_find?_eq_some isMapping, rfl⟩
        · exact holds other added before

variable {attrs : List Attribute} {merged : HashMap String Attribute}
variable {identities : List (String × String)}

theorem mergeAttrs_mem (isTable : svc.mergeAttrs attrs merged = .ok table)
    (found : table[key]? = some attr) :
    attr ∈ attrs ∨ merged[key]? = some attr := by
  induction attrs generalizing merged with
  | nil =>
    cases isTable
    exact .inr found
  | cons first rest ih =>
    simp only [mergeAttrs] at isTable
    split at isTable
    · rcases ih isTable with member | already
      · exact .inl (List.mem_cons_of_mem _ member)
      · rcases HashMap.of_get_insert already with ⟨-, ⟨⟩⟩ | ⟨-, before⟩
        · exact .inl List.mem_cons_self
        · exact .inr before
    · split at isTable
      · cases isTable
      · exact (ih isTable).imp_left (List.mem_cons_of_mem _)

/-- The attribute is among the claims that are cached for one of the identities. -/
def Cached (svc : OidcTrustedService) (now : Nat) (identities : List (String × String))
    (attr : Attribute) : Prop :=
  ∃ identity ∈ identities, some identity.1 = svc.mappedSubKey ∧
    ∃ entry, svc.admitted[identity.2]? = some entry ∧ now < entry.expires ∧ attr ∈ entry.attrs

theorem mergeIdentities_mem {subKey : String} (isSubKey : svc.mappedSubKey = some subKey)
    (isTable : svc.mergeIdentities now subKey identities merged = .ok table)
    (found : table[key]? = some attr) :
    svc.Cached now identities attr ∨ merged[key]? = some attr := by
  have later {identity : String × String} {rest : List (String × String)}
      (cached : svc.Cached now rest attr) : svc.Cached now (identity :: rest) attr := by
    obtain ⟨other, member, served⟩ := cached
    exact ⟨other, List.mem_cons_of_mem _ member, served⟩
  induction identities generalizing merged with
  | nil =>
    cases isTable
    exact .inr found
  | cons identity rest ih =>
    simp only [mergeIdentities] at isTable
    split at isTable
    · exact (ih isTable).imp_left later
    next entry isEntry =>
      obtain ⟨own, isEntry⟩ := Option.ite_none_right_eq_some.mp isEntry
      obtain ⟨isEntry, live⟩ := Option.filter_eq_some_iff.mp isEntry
      split at isTable
      · cases isTable
      next next isNext =>
        rcases ih isTable with cached | already
        · exact .inl (later cached)
        · refine (mergeAttrs_mem isNext already).imp_left fun member => ?_
          exact ⟨identity, List.mem_cons_self, own ▸ isSubKey.symm, entry, isEntry,
            by simpa using live, member⟩

theorem getAttributesForActor_mem (served : svc.getAttributesForActor now identities = .ok attrs)
    (member : attr ∈ attrs) :
    svc.Cached now identities attr := by
  unfold getAttributesForActor at served
  split at served
  · cases served
    cases member
  next subKey isSubKey =>
    split at served
    · cases merges : svc.mergeIdentities now subKey identities ∅ with
      | error failure =>
        rw [merges] at served
        cases served
      | ok table =>
        rw [merges] at served
        cases served
        obtain ⟨⟨key, found⟩, isFound, rfl⟩ := List.mem_map.mp member
        rcases mergeIdentities_mem isSubKey merges
          (Std.ExtTreeMap.mem_toList_iff_getElem?_eq_some.mp isFound) with cached | already
        · exact cached
        · simp at already
    · cases served
      cases member

@[simp] theorem recordSession_self (sessionId : IpAddr) (anchors : SessionAnchors) :
    (svc.recordSession now sessionId anchors).sessionAnchors sessionId = some anchors := by
  simp [recordSession, sessionAnchors]

/-- Recording another session can only drop anchors. -/
theorem sessionAnchors_of_recordSession {sessionId other : IpAddr} {anchors held : SessionAnchors}
    (apart : sessionId ≠ other)
    (isHeld : (svc.recordSession now sessionId anchors).sessionAnchors other = some held) :
    svc.sessionAnchors other = some held := by
  simp only [sessionAnchors, recordSession, HashMap.get_insert, if_neg apart] at isHeld
  rw [Std.ExtTreeMap.getElem?_filter'] at isHeld
  exact (Option.filter_eq_some_iff.mp isHeld).1

end OidcTrustedService

end VisaService
