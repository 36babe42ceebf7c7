import VisaService.Lib.Run
import VisaService.Oidc.Store

/-!
# Renewals of one OIDC session

A renewal is checked against the anchors of its session when its token has been validated, and
the anchors are advanced to the token when the renewal has succeeded. In between, other renewals
of the session may be checked against the same anchors. `RenewalHost` is the provider's store with
the renewals of one session that are under way.

Main results: `replayed_token_accepted` and `renewals_advance`.
-/
namespace VisaService

open Lib

/-- A call of `reauthorize_actor` whose token has been accepted. -/
structure OidcRenewal where
  token : ValidatedToken
  session : SessionAnchors
  /-- Bookkeeping: the anchors that the token was checked against, and how many renewals had
  succeeded by then. -/
  checkedAgainst : SessionAnchors
  checkedAt : Nat

structure RenewalHost where
  now : Nat
  revisionCounter : Nat
  svc : OidcTrustedService
  addr : IpAddr
  renewals : List OidcRenewal
  /-- Bookkeeping: the tokens of the renewals that succeeded, the newest first. -/
  accepted : List ValidatedToken

inductive RenewalEvent where
  | elapse (nanos : Nat)
  /-- A validated token is presented. The actor is as the call has loaded it, and `clock` is
  the time as the call has read it. -/
  | present (actor : Actor) (issuer : String) (token : ValidatedToken) (clock : Nat)
  /-- The claims are authorized and the actor is written. -/
  | succeed (renewal : Nat)
  | fail (renewal : Nat)
  /-- Another session connects or is renewed. -/
  | recordOther (other : IpAddr) (anchors : SessionAnchors)
  | flush

namespace RenewalHost

def anchors (host : RenewalHost) : Option SessionAnchors := host.svc.sessionAnchors host.addr

/-- A token that is rejected changes nothing. -/
def present (host : RenewalHost) (actor : Actor) (issuer : String) (token : ValidatedToken)
    (clock : Nat) : RenewalHost :=
  match host.svc.reauthenticateOidcBlob host.now host.revisionCounter clock actor issuer token,
      host.anchors with
  | .ok (outcome, svc), some anchors =>
    { host with
      svc := svc
      revisionCounter := host.revisionCounter + 1
      renewals := host.renewals ++ [⟨token, outcome.session, anchors, host.accepted.length⟩] }
  | _, _ => host

def succeed (host : RenewalHost) (place : Nat) (renewal : OidcRenewal) : RenewalHost :=
  { host with
    svc := host.svc.recordSession host.now host.addr renewal.session
    renewals := host.renewals.eraseIdx place
    accepted := renewal.token :: host.accepted }

def step (host : RenewalHost) : RenewalEvent → Option RenewalHost
  | .elapse nanos => some { host with now := host.now + nanos }
  | .present actor issuer token clock =>
    if actor.zprAddr = some host.addr ∧ clock ≤ host.now then
      some (host.present actor issuer token clock)
    else none
  | .succeed place => host.renewals[place]?.map (host.succeed place)
  | .fail place => some { host with renewals := host.renewals.eraseIdx place }
  | .recordOther other anchors =>
    if other = host.addr then none
    else some { host with svc := host.svc.recordSession host.now other anchors }
  | .flush =>
    some { host with
      svc := host.svc.flush host.revisionCounter
      revisionCounter := host.revisionCounter + 1 }

/-- The tokens of the renewals that have succeeded since this one was checked. -/
def acceptedSince (host : RenewalHost) (renewal : OidcRenewal) : List ValidatedToken :=
  host.accepted.take (host.accepted.length - renewal.checkedAt)

/-- Renewals that overlap succeed in the order of their tokens. -/
def Unraced (host : RenewalHost) : RenewalEvent → Prop
  | .succeed place => ∀ renewal ∈ host.renewals[place]?, ∀ token ∈ host.acceptedSince renewal,
      token.iat < renewal.token.iat
  | _ => True

instance decidableUnraced (host : RenewalHost) (event : RenewalEvent) :
    Decidable (host.Unraced event) :=
  match event with
  | .succeed _ => inferInstanceAs (Decidable (∀ _ ∈ _, ∀ _ ∈ _, _))
  | .elapse _ | .present _ _ _ _ | .fail _ | .recordOther _ _ | .flush => isTrue trivial

end RenewalHost

/-! ### What a step does to the anchors -/

/-- What the check of a renewal ensures. -/
structure OidcRenewal.Checked (renewal : OidcRenewal) : Prop where
  sub : renewal.token.sub = renewal.checkedAgainst.sub
  authTime : renewal.token.authTime = renewal.checkedAgainst.authTime
  newer : renewal.checkedAgainst.iat < renewal.token.iat
  session : renewal.session.sub = renewal.token.sub ∧
    renewal.session.authTime = renewal.token.authTime ∧ renewal.session.iat = renewal.token.iat

namespace RenewalHost

variable {host next : RenewalHost}

/-- Nothing is accepted, and nothing is recorded for the session. -/
structure Quiet (host next : RenewalHost) : Prop where
  anchors : ∀ anchors, next.anchors = some anchors → host.anchors = some anchors
  renewals : ∀ renewal ∈ next.renewals, renewal ∈ host.renewals ∨ host.anchors =
    some renewal.checkedAgainst ∧ renewal.checkedAt = host.accepted.length ∧ renewal.Checked
  accepted : next.accepted = host.accepted

theorem Quiet.refl (host : RenewalHost) : Quiet host host :=
  ⟨fun _ => id, fun _ => .inl, rfl⟩

theorem quiet_present {actor : Actor} (ofSession : actor.zprAddr = some host.addr)
    (issuer : String) (token : ValidatedToken) (clock : Nat) :
    Quiet host (host.present actor issuer token clock) := by
  unfold present
  split
  next outcome svc anchors renewed isAnchors =>
    obtain ⟨checked, isChecked, sameSub, sameLogin, newer, authenticated⟩ :=
      OidcTrustedService.reauthenticateOidcBlob_ok renewed
    obtain ⟨mapped, admitted, rfl⟩ := OidcTrustedService.authenticateOidcBlob_ok authenticated
    obtain ⟨table, -, -, rfl⟩ := OidcTrustedService.admit_ok admitted
    -- the anchors of the actor are those of the session
    have same : checked = anchors := by
      rw [ofSession] at isChecked
      exact Option.some.inj (isChecked.symm.trans isAnchors)
    subst same
    refine ⟨fun _ => id, fun renewal member => ?_, rfl⟩
    rcases List.mem_append.mp member with earlier | isNew
    · exact .inl earlier
    · rw [List.mem_singleton.mp isNew]
      exact .inr ⟨isAnchors, rfl, sameSub, sameLogin, newer, rfl, rfl, rfl⟩
  · exact .refl host

/-- The one step that is not quiet is the success of a renewal. -/
theorem step_cases {event : RenewalEvent} (stepped : host.step event = some next) :
    Quiet host next ∨ ∃ place renewal, event = .succeed place ∧
      host.renewals[place]? = some renewal ∧ next = host.succeed place renewal := by
  cases event with
  | elapse nanos =>
    cases stepped
    exact .inl ⟨fun _ => id, fun _ => .inl, rfl⟩
  | present actor issuer token clock =>
    obtain ⟨⟨ofSession, -⟩, isNext⟩ := Option.ite_none_right_eq_some.mp stepped
    cases isNext
    exact .inl (quiet_present ofSession issuer token clock)
  | succeed place =>
    obtain ⟨renewal, isRenewal, rfl⟩ := Option.map_eq_some_iff.mp stepped
    exact .inr ⟨place, renewal, rfl, isRenewal, rfl⟩
  | fail place =>
    cases stepped
    exact .inl ⟨fun _ => id, fun _ member => .inl (List.mem_of_mem_eraseIdx member), rfl⟩
  | recordOther other anchors =>
    obtain ⟨apart, isNext⟩ := Option.ite_none_left_eq_some.mp stepped
    cases isNext
    exact .inl ⟨fun _ => OidcTrustedService.sessionAnchors_of_recordSession apart,
      fun _ => .inl, rfl⟩
  | flush =>
    cases stepped
    refine .inl ⟨fun anchors isAnchors => ?_, fun _ => .inl, rfl⟩
    cases isAnchors

/-! ### Renewals in the order of their tokens -/

/-- Same subject and same authentication as the login, and no older. -/
structure OfLogin (login anchors : SessionAnchors) : Prop where
  sub : anchors.sub = login.sub
  authTime : anchors.authTime = login.authTime
  iat : login.iat ≤ anchors.iat

/-- The anchors are those of the login or of the newest token that was accepted. A renewal under
way is newer than what had been accepted when it was checked. -/
structure Inv (login : SessionAnchors) (host : RenewalHost) : Prop where
  anchors : ∀ anchors, host.anchors = some anchors → OfLogin login anchors ∧
    (∀ token ∈ host.accepted, token.iat ≤ anchors.iat) ∧
    (anchors.iat = login.iat ∨ ∃ token ∈ host.accepted, token.iat = anchors.iat)
  renewals : ∀ renewal ∈ host.renewals, renewal.Checked ∧ OfLogin login renewal.checkedAgainst ∧
    renewal.checkedAt ≤ host.accepted.length ∧
    ∀ token ∈ host.accepted.drop (host.accepted.length - renewal.checkedAt),
      token.iat < renewal.token.iat
  ordered : host.accepted.Pairwise fun later earlier => earlier.iat < later.iat
  accepted : ∀ token ∈ host.accepted, token.sub = login.sub ∧ token.authTime = login.authTime

variable {login : SessionAnchors}

theorem Inv.quiet (inv : Inv login host) (quiet : Quiet host next) : Inv login next where
  anchors anchors isAnchors := by
    rw [quiet.accepted]
    exact inv.anchors anchors (quiet.anchors anchors isAnchors)
  renewals renewal member := by
    rw [quiet.accepted]
    rcases quiet.renewals renewal member with earlier | ⟨isAnchors, isNow, checked⟩
    · exact inv.renewals renewal earlier
    · -- everything accepted so far is as old as the anchors at least
      obtain ⟨ofLogin, newest, -⟩ := inv.anchors _ isAnchors
      rw [isNow]
      exact ⟨checked, ofLogin, Nat.le_refl _, fun token member =>
        Nat.lt_of_le_of_lt (newest token (List.mem_of_mem_drop member)) checked.newer⟩
  ordered := quiet.accepted ▸ inv.ordered
  accepted := quiet.accepted ▸ inv.accepted

theorem Inv.succeed (inv : Inv login host) {place : Nat} {renewal : OidcRenewal}
    (isRenewal : host.renewals[place]? = some renewal)
    (unraced : ∀ token ∈ host.acceptedSince renewal, token.iat < renewal.token.iat) :
    Inv login (host.succeed place renewal) := by
  obtain ⟨checked, ofLogin, -, before⟩ := inv.renewals renewal (List.mem_of_getElem? isRenewal)
  have sub : renewal.token.sub = login.sub := checked.sub.trans ofLogin.sub
  have authTime : renewal.token.authTime = login.authTime := checked.authTime.trans ofLogin.authTime
  -- nothing accepted is as new as the token, whether before the check or since
  have newer (token : ValidatedToken) (member : token ∈ host.accepted) :
      token.iat < renewal.token.iat := by
    rw [← List.take_append_drop (host.accepted.length - renewal.checkedAt) host.accepted] at member
    exact (List.mem_append.mp member).elim (unraced token) (before token)
  constructor
  case anchors =>
    intro anchors isAnchors
    have recorded : renewal.session = anchors :=
      Option.some.inj ((OidcTrustedService.recordSession_self _ _).symm.trans isAnchors)
    subst recorded
    obtain ⟨sameSub, sameTime, sameIat⟩ := checked.session
    refine ⟨⟨sameSub.trans sub, sameTime.trans authTime, ?_⟩, ?_,
      .inr ⟨_, List.mem_cons_self, sameIat.symm⟩⟩
    · rw [sameIat]
      exact ofLogin.iat.trans checked.newer.le
    · rw [sameIat]
      exact List.forall_mem_cons.mpr ⟨Nat.le_refl _, fun token member => (newer token member).le⟩
  case renewals =>
    intro other member
    obtain ⟨checked, ofLogin, early, before⟩ :=
      inv.renewals other (List.mem_of_mem_eraseIdx member)
    refine ⟨checked, ofLogin, Nat.le_succ_of_le early, fun token member => before token ?_⟩
    rwa [show (host.succeed place renewal).accepted = renewal.token :: host.accepted from rfl,
      List.length_cons, Nat.succ_sub early, List.drop_succ_cons] at member
  case ordered => exact List.pairwise_cons.mpr ⟨newer, inv.ordered⟩
  case accepted => exact List.forall_mem_cons.mpr ⟨⟨sub, authTime⟩, inv.accepted⟩

theorem Inv.step {event : RenewalEvent} (inv : Inv login host)
    (unraced : host.Unraced event) (stepped : host.step event = some next) :
    Inv login next ∧ ∀ token ∈ host.accepted, token ∈ next.accepted := by
  rcases step_cases stepped with quiet | ⟨place, renewal, rfl, isRenewal, rfl⟩
  · exact ⟨inv.quiet quiet, fun _ => quiet.accepted ▸ id⟩
  · exact ⟨inv.succeed isRenewal (unraced renewal isRenewal), fun _ => List.mem_cons_of_mem _⟩

/-- If renewals that overlap succeed in the order of their tokens, each accepted token is newer
than those accepted before it, the anchors never get older, and every accepted token has the
subject and the authentication time of the login. -/
theorem renewals_advance {start mid final : RenewalHost} {login : SessionAnchors}
    {first second : List RenewalEvent} (connected : start.anchors = some login)
    (fresh : start.renewals = [] ∧ start.accepted = [])
    (unraced : Meets step Unraced start (first ++ second))
    (ranFirst : run step start first = some mid) (ranSecond : run step mid second = some final) :
    (final.accepted.Pairwise fun later earlier => earlier.iat < later.iat) ∧
      (∀ before ∈ mid.anchors, ∀ after ∈ final.anchors, before.iat ≤ after.iat) ∧
      ∀ token ∈ final.accepted, token.sub = login.sub ∧ token.authTime = login.authTime := by
  obtain ⟨unracedFirst, later⟩ := meets_append.mp unraced
  have initial : Inv login start := by
    refine ⟨fun anchors isAnchors => ?_, by simp [fresh.1], by simp [fresh.2], by simp [fresh.2]⟩
    cases connected.symm.trans isAnchors
    exact ⟨⟨rfl, rfl, Nat.le_refl _⟩, by simp [fresh.2], .inl rfl⟩
  have atMid : Inv login mid := run_preserves_of_meets
    (fun _ _ _ inv unraced stepped => (Inv.step inv unraced stepped).1) initial unracedFirst ranFirst
  -- what is accepted by the middle is among what is accepted at the end
  obtain ⟨atEnd, grows⟩ : Inv login final ∧ ∀ token ∈ mid.accepted, token ∈ final.accepted := by
    refine @run_preserves_of_meets _ _ step Unraced
      (fun host => Inv login host ∧ ∀ token ∈ mid.accepted, token ∈ host.accepted)
      (fun host event next kept unraced stepped => ?_) mid final second ⟨atMid, fun _ => id⟩
      (later mid ranFirst) ranSecond
    obtain ⟨inv, grows⟩ := kept.1.step unraced stepped
    exact ⟨inv, fun token member => grows token (kept.2 token member)⟩
  refine ⟨atEnd.ordered, fun before isBefore after isAfter => ?_, atEnd.accepted⟩
  obtain ⟨ofLogin, newest, -⟩ := atEnd.anchors after isAfter
  rcases (atMid.anchors before isBefore).2.2 with ofStart | ⟨token, member, same⟩
  · exact ofStart ▸ ofLogin.iat
  · exact same ▸ newest token (grows token member)

end RenewalHost

namespace OidcRenewalSample

open RenewalHost

def addr : IpAddr := .v6 0xfd5a5052000000000000000000000020

def seconds (count : Nat) : Nat := count * nanosPerSec

def actor : Actor where
  attrs := .ofList
    [(Key.userAuthority, ⟨Key.userAuthority, ["google"], seconds 400, "google"⟩),
      ("user.sub", ⟨"user.sub", ["alice"], seconds 400, "google"⟩)] compare
  identityKeys := [Key.userAuthority]
  zprAddr := some addr

/-- The login at 100 s, which lasts for 300 s. -/
def login : SessionAnchors := ⟨"alice", seconds 100, seconds 100, seconds 400⟩

def connected : RenewalHost where
  now := seconds 200
  revisionCounter := 2
  svc :=
    { id := "google", issuer := "google.example", maxAuthAgeSeconds := 3600
      mappings := [⟨"sub", "user.sub", .singleValued⟩], expirationSeconds := 300
      admitted := ∅, sessions := .ofList [(addr, login)] compare, revision := 1 }
  addr := addr
  renewals := []
  accepted := []

def minted (second : Fin 1000) : ValidatedToken where
  sub := "alice"
  authTime := seconds 100
  iat := seconds second
  rawClaims := [("sub", .text "alice")]
  representable := by
    have small : seconds second ≤ 1000 * nanosPerSec :=
      Nat.mul_le_mul_right _ second.isLt.le
    exact small.trans (by decide)

def presented (second : Fin 1000) : RenewalEvent :=
  .present actor "google.example" (minted second) (seconds 200)

def after (events : List RenewalEvent) : RenewalHost := (run step connected events).getD connected

/-- Both calls are checked before one of them succeeds. -/
def overlapping : List RenewalEvent := [presented 150, presented 150, .succeed 0, .succeed 0]

def oneByOne : List RenewalEvent := [presented 150, .succeed 0, presented 160, .succeed 0]

end OidcRenewalSample

namespace RenewalHost

open OidcRenewalSample in
/-- Two calls present one token, and both are accepted. -/
theorem replayed_token_accepted :
    ¬ ∀ (start mid final : RenewalHost) (login : SessionAnchors)
      (first second : List RenewalEvent), start.anchors = some login →
      start.renewals = [] ∧ start.accepted = [] →
      run step start first = some mid → run step mid second = some final →
      (final.accepted.Pairwise fun later earlier => earlier.iat ≠ later.iat) ∧
        (∀ before ∈ mid.anchors, ∀ after ∈ final.anchors, before.iat ≤ after.iat) ∧
        ∀ token ∈ final.accepted, token.sub = login.sub ∧ token.authTime = login.authTime := by
  intro always
  have ran : run step connected overlapping = some (after overlapping) :=
    run_eq_some_getD (by decide +kernel) _
  obtain ⟨different, -, -⟩ := always connected connected (after overlapping) login [] overlapping
    (by decide +kernel) ⟨rfl, rfl⟩ rfl ran
  revert different
  decide +kernel

open OidcRenewalSample in
theorem renewals_one_by_one_advance :
    (after oneByOne).accepted.map ValidatedToken.iat = [seconds 160, seconds 150] ∧
      ((after oneByOne).accepted.Pairwise fun later earlier => earlier.iat < later.iat) := by
  have ran : run step connected oneByOne = some (after oneByOne) :=
    run_eq_some_getD (by decide +kernel) _
  exact ⟨by decide +kernel,
    (@renewals_advance _ _ _ login [] _ (by decide +kernel)
      ⟨rfl, rfl⟩ (by decide +kernel) rfl ran).1⟩

end RenewalHost

end VisaService
