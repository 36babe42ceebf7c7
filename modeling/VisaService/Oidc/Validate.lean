import VisaService.Oidc.Store

/-!
# Validating an id token

The checks of `validate_id_token` on an untrusted token, and what they say about the expiry that
the connect computes from an accepted one. The JWT library is a parameter: it decodes the header,
imports the signing key and verifies signature, issuer, audience and `exp`. A mint moment ahead of
the clock is refused beyond the clock skew; an authentication moment ahead of it counts as age
zero, however far ahead it is.

Main results: `ceiling_beyond_policy` and `accepted_token_bounded`.
-/
namespace VisaService

/-- The debug form of the algorithm of a header. -/
inductive JwtAlgorithm where
  | rs256
  | other (name : String)
  deriving DecidableEq, Repr

structure JwtHeader where
  alg : JwtAlgorithm
  kid : Option String

structure JwtValidation where
  audience : String
  issuer : String
  requiredSpecClaims : List String
  leewaySecs : Nat

abbrev Claims := List (String × ClaimValue)

/-- What the JWT library does. -/
structure JwtLib (Jwk Key : Type) where
  decodeHeader : String → Except String JwtHeader
  fromJwk : Jwk → Except String Key
  decode : String → Key → JwtValidation → Except String Claims

structure IdpParams where
  issuer : String
  clientId : String
  allowedDomains : List String
  maxAuthAge : Option Nat
  allowOfflineAccess : Bool
  clockSkew : Nat

inductive NonceExpectation where
  | required (nonce : String)
  | sessionBound

inductive OidcError where
  | signature (detail : String)
  | rejected (detail : String)
  | unknownKid (kid : String)
  | noKeys
  deriving DecidableEq, Repr

/-- What the policy record of the provider has besides the service. -/
structure OidcClient where
  clientId : String
  allowedDomains : List String
  allowOfflineAccess : Bool

def OidcTrustedService.params (svc : OidcTrustedService) (client : OidcClient) : IdpParams where
  issuer := svc.issuer
  clientId := client.clientId
  allowedDomains := client.allowedDomains
  maxAuthAge :=
    if 0 < svc.maxAuthAgeSeconds then some (svc.maxAuthAgeSeconds * nanosPerSec) else none
  allowOfflineAccess := client.allowOfflineAccess
  clockSkew := maxClockSkewSecs * nanosPerSec

/-! ### Claims -/

def ClaimValue.asStr : ClaimValue → Option String
  | .text value => some value
  | _ => none

def ClaimValue.asBool : ClaimValue → Option Bool
  | .bool value => some value
  | _ => none

/-- A number is an unsigned integer if it is displayed by digits only, and fits. -/
def ClaimValue.asU64 : ClaimValue → Option Nat
  | .number display =>
    let digits := display.toList
    let value := digits.foldl (fun value digit => 10 * value + (digit.toNat - '0'.toNat)) 0
    if digits ≠ [] ∧ digits.all Char.isDigit = true ∧ value < 2 ^ 64 then some value else none
  | _ => none

def Claims.str (claims : Claims) (name : String) : Option String :=
  (claims.lookup name).bind ClaimValue.asStr

def Claims.u64 (claims : Claims) (name : String) : Option Nat :=
  (claims.lookup name).bind ClaimValue.asU64

/-! ### Validation -/

/-- The longest duration; a longer sum panics. -/
def durationMax : Nat := 2 ^ 64 * nanosPerSec - 1

def addDurations (first second : Nat) : Option Nat :=
  if first + second ≤ durationMax then some (first + second) else none

section Validate

variable {Jwk Key : Type}

/-- The algorithm is checked before a key is selected, by its id only. -/
def selectKey (lib : JwtLib Jwk Key) (keys : List (Option String × Jwk)) (idToken : String) :
    Except OidcError Key :=
  match lib.decodeHeader idToken with
  | .error failure => .error (.signature s!"header: {failure}")
  | .ok header =>
    match header.alg with
    | .other name =>
      .error (.signature s!"algorithm {name} not in allowlist (RS256 only)")
    | .rs256 =>
      if keys.isEmpty then .error .noKeys
      else
        match header.kid with
        | none => .error (.signature "missing kid")
        | some kid =>
          match keys.lookup (some kid) with
          | none => .error (.unknownKid kid)
          | some jwk =>
            match lib.fromJwk jwk with
            | .error failure => .error (.signature s!"bad JWK: {failure}")
            | .ok key => .ok key

/-- Nonce, subject and domain; an email that is not verified is dropped from the claims. -/
def checkIdentity (params : IdpParams) (nonce : NonceExpectation) (claims : Claims) :
    Except OidcError (String × Claims) :=
  let fresh := match nonce with
    | .required expected => claims.str "nonce" == some expected
    | .sessionBound => true
  if !fresh then .error (.signature "nonce missing or mismatched")
  else
    match claims.str "sub" with
    | none => .error (.signature "sub claim missing or not a string")
    | some sub =>
      let verified := ((claims.lookup "email_verified").bind ClaimValue.asBool).getD false
      let kept := if verified then claims else claims.filter fun claim => claim.1 != "email"
      if params.allowedDomains = ["*"] then .ok (sub, kept)
      else
        match claims.str "hd" with
        | none => .error (.rejected "hd claim absent (consumer account?)")
        | some hd =>
          if params.allowedDomains.contains hd then .ok (sub, kept)
          else .error (.rejected "hd claim not in allowed_domains")

def outOfRange : OidcError := .rejected "auth_time/iat out of representable range"

/-- The times of the token, of which the mint moment must not be in the future. Ages are
differences of naturals, so that an authentication moment in the future has age zero. -/
def checkTimes (params : IdpParams) (now : Nat) (sub : String) (claims : Claims) :
    Option (Except OidcError ValidatedToken) :=
  match claims.u64 "iat" with
  | none => some (.error (.signature "iat claim missing or not a number"))
  | some iatSecs =>
    match (claims.u64 "auth_time").or (if params.allowOfflineAccess then none else some iatSecs) with
    | none => some (.error (.rejected "auth_time required for a renewable session"))
    | some authTimeSecs =>
      let authTime := authTimeSecs * nanosPerSec
      let iat := iatSecs * nanosPerSec
      if systemTimeMax < authTime then some (.error outOfRange)
      else if fits : iat ≤ systemTimeMax then
        let token : ValidatedToken := ⟨sub, authTime, iat, claims, fits⟩
        if params.clockSkew < iat - now then
          some (.error (.rejected "iat is in the future beyond clock-skew leeway"))
        else
          match params.maxAuthAge with
          | none => some (.ok token)
          | some maxAge =>
            let age := now - authTime
            (addDurations maxAge params.clockSkew).map fun allowed =>
              if allowed < age then
                .error (.rejected (s!"authentication is {age / nanosPerSec}s old, " ++
                  s!"max_auth_age is {maxAge / nanosPerSec}s"))
              else .ok token
      else some (.error outOfRange)

/-- `none`: the call panics. -/
def validateIdToken (lib : JwtLib Jwk Key) (keys : List (Option String × Jwk))
    (params : IdpParams) (nonce : NonceExpectation) (now : Nat) (idToken : String) :
    Option (Except OidcError ValidatedToken) :=
  match selectKey lib keys idToken with
  | .error failure => some (.error failure)
  | .ok key =>
    match lib.decode idToken key ⟨params.clientId, params.issuer, ["exp", "aud", "iss", "sub"],
        params.clockSkew / nanosPerSec⟩ with
    | .error failure => some (.error (.signature failure))
    | .ok claims =>
      match checkIdentity params nonce claims with
      | .error failure => some (.error failure)
      | .ok (sub, kept) => checkTimes params now sub kept

end Validate

/-! ### What acceptance guarantees -/

section Accepted

variable {params : IdpParams} {now : Nat} {sub : String} {claims : Claims} {token : ValidatedToken}

theorem checkTimes_ok (accepted : checkTimes params now sub claims = some (.ok token)) :
    token.iat ≤ now + params.clockSkew ∧
      ∀ maxAge, params.maxAuthAge = some maxAge →
        now ≤ token.authTime + maxAge + params.clockSkew := by
  unfold checkTimes at accepted
  split at accepted
  · cases accepted
  next iatSecs isIat =>
    split at accepted
    · cases accepted
    next authTimeSecs isAuthTime =>
      dsimp only at accepted
      split at accepted
      · cases accepted
      split at accepted
      next fits =>
        split at accepted
        · cases accepted
        next timely =>
          split at accepted
          next noBound =>
            cases accepted
            refine ⟨by dsimp only; omega, fun maxAge isBound => ?_⟩
            cases noBound.symm.trans isBound
          next maxAge isBound =>
            simp only [addDurations, Option.map_eq_some_iff, Option.ite_none_right_eq_some,
              Option.some.injEq] at accepted
            obtain ⟨allowed, ⟨-, rfl⟩, accepted⟩ := accepted
            split at accepted
            · cases accepted
            next recent =>
              cases accepted
              refine ⟨by dsimp only; omega, fun other isOther => ?_⟩
              cases isBound.symm.trans isOther
              dsimp only
              omega
      · cases accepted

theorem checkTimes_isSome (sums : ∀ maxAge, params.maxAuthAge = some maxAge →
    (addDurations maxAge params.clockSkew).isSome) :
    (checkTimes params now sub claims).isSome := by
  unfold checkTimes
  split
  · rfl
  split
  · rfl
  dsimp only
  split
  · rfl
  split
  · split
    · rfl
    split
    · rfl
    next maxAge isBound =>
      rw [Option.isSome_map]
      exact sums maxAge isBound
  · rfl

theorem addDurations_skew {seconds : Nat} (isU32 : seconds < 2 ^ 32) :
    addDurations (seconds * nanosPerSec) (maxClockSkewSecs * nanosPerSec) =
      some ((seconds + maxClockSkewSecs) * nanosPerSec) := by
  have fits : (seconds + maxClockSkewSecs) * nanosPerSec ≤ durationMax := by
    calc (seconds + maxClockSkewSecs) * nanosPerSec
        ≤ (2 ^ 32 + maxClockSkewSecs) * nanosPerSec :=
          Nat.mul_le_mul_right _ (Nat.add_le_add_right isU32.le _)
      _ ≤ durationMax := by decide
  rw [Nat.add_mul] at fits ⊢
  exact if_pos fits

variable {Jwk Key : Type} {lib : JwtLib Jwk Key} {keys : List (Option String × Jwk)}
  {nonce : NonceExpectation} {idToken : String}

theorem validateIdToken_cases (lib : JwtLib Jwk Key) (keys : List (Option String × Jwk))
    (params : IdpParams) (nonce : NonceExpectation) (now : Nat) (idToken : String) :
    (∃ failure, validateIdToken lib keys params nonce now idToken = some (.error failure)) ∨
      ∃ sub claims, validateIdToken lib keys params nonce now idToken =
        checkTimes params now sub claims := by
  unfold validateIdToken
  split
  · exact .inl ⟨_, rfl⟩
  split
  · exact .inl ⟨_, rfl⟩
  split
  · exact .inl ⟨_, rfl⟩
  · exact .inr ⟨_, _, rfl⟩

variable {svc : OidcTrustedService} {client : OidcClient}

theorem tokenExpiry_le_lifetime (svc : OidcTrustedService) (token : ValidatedToken) :
    svc.tokenExpiry token ≤ token.iat + svc.lifetime := by
  have renewal : (checkedAdd token.iat svc.lifetime).getD token.iat ≤ token.iat + svc.lifetime := by
    unfold checkedAdd
    generalize systemTimeMax = latest
    split
    · rw [Option.getD_some]
    · rw [Option.getD_none]
      exact Nat.le_add_right _ _
  unfold OidcTrustedService.tokenExpiry computeAuthorityExpiry
  dsimp only
  split
  · exact (Nat.min_le_left _ _).trans renewal
  · exact renewal

/-- The ceiling of a login exists and lies between now and the latest moment policy allows exactly
if the authentication moment is at most the clock skew ahead and the ceiling can be
represented. -/
theorem sessionCeiling_within_iff (bounded : svc.maxAuthAgeSeconds ≠ 0) {authTime : Nat}
    (recent : now ≤ authTime + (svc.maxAuthAgeSeconds + maxClockSkewSecs) * nanosPerSec) :
    (∃ ceiling, svc.sessionCeiling authTime = some ceiling ∧ now ≤ ceiling ∧
        ceiling ≤ now + (svc.maxAuthAgeSeconds + 2 * maxClockSkewSecs) * nanosPerSec) ↔
      authTime ≤ now + maxClockSkewSecs * nanosPerSec ∧
        authTime + (svc.maxAuthAgeSeconds + maxClockSkewSecs) * nanosPerSec ≤ systemTimeMax := by
  have twice : (svc.maxAuthAgeSeconds + 2 * maxClockSkewSecs) * nanosPerSec =
      (svc.maxAuthAgeSeconds + maxClockSkewSecs) * nanosPerSec + maxClockSkewSecs * nanosPerSec := by
    ring
  rw [OidcTrustedService.sessionCeiling, if_neg bounded, checkedAdd, twice]
  simp only [Option.ite_none_right_eq_some, Option.some.injEq]
  constructor
  · rintro ⟨ceiling, ⟨fits, rfl⟩, -, below⟩
    exact ⟨by omega, fits⟩
  · rintro ⟨timely, fits⟩
    exact ⟨_, ⟨fits, rfl⟩, recent, by omega⟩

/-- The configured seconds are 32-bit numbers. An accepted token bounds the expiry that is
computed from it; the ceiling of its login bounds every token of that login, and the last part
says for which tokens the ceiling lies where policy puts it. -/
theorem accepted_token_bounded (isU32 : svc.maxAuthAgeSeconds < 2 ^ 32) :
    (validateIdToken lib keys (svc.params client) nonce now idToken).isSome ∧
      (addDurations (svc.maxAuthAgeSeconds * nanosPerSec)
        (maxClockSkewSecs * nanosPerSec)).isSome ∧
      ∀ token, validateIdToken lib keys (svc.params client) nonce now idToken = some (.ok token) →
        svc.tokenExpiry token ≤ now + maxClockSkewSecs * nanosPerSec + svc.lifetime ∧
        (∀ ceiling, svc.sessionCeiling token.authTime = some ceiling →
          ∀ renewed : ValidatedToken, renewed.authTime = token.authTime →
            svc.tokenExpiry renewed ≤ ceiling) ∧
        (svc.maxAuthAgeSeconds ≠ 0 →
          ((∃ ceiling, svc.sessionCeiling token.authTime = some ceiling ∧ now ≤ ceiling ∧
              ceiling ≤ now + (svc.maxAuthAgeSeconds + 2 * maxClockSkewSecs) * nanosPerSec) ↔
            token.authTime ≤ now + maxClockSkewSecs * nanosPerSec ∧
              token.authTime + (svc.maxAuthAgeSeconds + maxClockSkewSecs) * nanosPerSec ≤
                systemTimeMax)) := by
  have sum := addDurations_skew isU32
  have sums (maxAge : Nat) (isBound : (svc.params client).maxAuthAge = some maxAge) :
      (addDurations maxAge (svc.params client).clockSkew).isSome := by
    obtain ⟨-, same⟩ := Option.ite_none_right_eq_some.mp isBound
    cases same
    exact Option.isSome_of_eq_some sum
  rcases validateIdToken_cases lib keys (svc.params client) nonce now idToken with
    ⟨failure, fails⟩ | ⟨sub, claims, checks⟩
  · rw [fails]
    exact ⟨rfl, Option.isSome_of_eq_some sum, fun token accepted => by cases accepted⟩
  rw [checks]
  refine ⟨checkTimes_isSome sums, Option.isSome_of_eq_some sum, fun token accepted => ?_⟩
  obtain ⟨minted, recent⟩ := checkTimes_ok accepted
  refine ⟨?_, fun ceiling isCeiling renewed sameLogin => ?_, fun bounded => ?_⟩
  · exact (tokenExpiry_le_lifetime svc token).trans (Nat.add_le_add_right minted _)
  · -- the ceiling depends on the authentication moment only, which a renewal keeps
    rw [OidcTrustedService.tokenExpiry, sameLogin, isCeiling]
    exact Nat.min_le_right _ _
  · have aged := recent _ (if_pos (Nat.pos_of_ne_zero bounded))
    rw [Nat.add_assoc] at aged
    exact sessionCeiling_within_iff bounded (Nat.add_mul .. ▸ aged)

end Accepted

namespace ValidateSample

/-- A library that takes the token for the seconds of its authentication moment. -/
def lib : JwtLib Unit Unit where
  decodeHeader _ := .ok ⟨.rs256, some "key"⟩
  fromJwk _ := .ok ()
  decode idToken _ _ := .ok [("auth_time", .number idToken), ("email", .text "a@b.example"),
    ("iat", .number "1000"), ("nonce", .text "nonce"), ("sub", .text "alice")]

def svc : OidcTrustedService where
  id := "google"
  issuer := "https://accounts.google.com"
  maxAuthAgeSeconds := 3600
  mappings := []
  expirationSeconds := 600
  admitted := ∅
  sessions := ∅
  revision := 1

def validate (idToken : String) : Option (Except OidcError ValidatedToken) :=
  validateIdToken lib [(some "key", ())] (svc.params ⟨"client", ["*"], true⟩) (.required "nonce")
    (1000 * nanosPerSec) idToken

def acceptedAt (idToken : String) : Option Nat :=
  (validate idToken).bind fun result => result.toOption.map ValidatedToken.authTime

theorem accepted_of_acceptedAt {idToken : String} {authTime : Nat}
    (isAccepted : acceptedAt idToken = some authTime) :
    ∃ token, validate idToken = some (.ok token) ∧ token.authTime = authTime := by
  obtain ⟨result, validates, isToken⟩ := Option.bind_eq_some_iff.mp isAccepted
  cases result with
  | error failure => cases isToken
  | ok token => exact ⟨token, validates, Option.some.inj isToken⟩

end ValidateSample

open ValidateSample in
/-- At second 1000, an authentication moment at second 87400, one day ahead, is accepted. Policy
allows an hour, but the ceiling of the login is a day later. -/
theorem ceiling_beyond_policy :
    ∃ token, validate "87400" = some (.ok token) ∧
      svc.sessionCeiling token.authTime = some (91180 * nanosPerSec) ∧
      1000 * nanosPerSec + (svc.maxAuthAgeSeconds + 2 * maxClockSkewSecs) * nanosPerSec <
        91180 * nanosPerSec := by
  obtain ⟨token, accepted, isAuthTime⟩ :=
    accepted_of_acceptedAt (by decide +kernel : acceptedAt "87400" = some (87400 * nanosPerSec))
  exact ⟨token, accepted, isAuthTime ▸ by decide, by decide⟩

open ValidateSample in
theorem accepted_token_bounded_recent :
    ∃ token, validate "990" = some (.ok token) ∧
      ∃ ceiling, svc.sessionCeiling token.authTime = some ceiling ∧
        1000 * nanosPerSec ≤ ceiling ∧ ceiling ≤
          1000 * nanosPerSec + (svc.maxAuthAgeSeconds + 2 * maxClockSkewSecs) * nanosPerSec := by
  obtain ⟨token, accepted, isAuthTime⟩ :=
    accepted_of_acceptedAt (by decide +kernel : acceptedAt "990" = some (990 * nanosPerSec))
  have exactly := ((accepted_token_bounded (by decide)).2.2 token accepted).2.2 (by decide)
  exact ⟨token, accepted, exactly.mpr (isAuthTime ▸ by decide)⟩

end VisaService
