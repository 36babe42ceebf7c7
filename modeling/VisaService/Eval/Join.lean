import VisaService.Eval.Actor

/-!
# Join policies

A join policy is a list of attribute expressions with the flags and services it grants. It
matches a list of attributes if every expression is satisfied: each occurrence of the
expression's key has to pass, an expired occurrence fails the policy, and the key has to
occur at all unless the expression is an empty `EXCLUDES`. The matcher walks lists;
`AttrExp.Holds` says the same about the set of attributes in the list.
-/
namespace VisaService

open Lib

inductive AttrOp where
  | eq
  | ne
  | has
  | excludes
  deriving DecidableEq, Repr

structure AttrExp where
  key : String
  op : AttrOp
  value : List String
  deriving DecidableEq, Repr

inductive JFlag where
  | isNode
  | isVs
  | isVsDock
  deriving DecidableEq, Repr

structure JPolicy where
  /-- The source's field `matches`. -/
  exps : List AttrExp
  flags : List JFlag
  services : Option (List String)
  deriving DecidableEq, Repr

/-! ### The matcher -/

def tally (values : List String) : HashMap String Nat :=
  values.foldl (fun counts value => counts.alter value fun count => some (count.getD 0 + 1)) ∅

/-- The values are exactly those of the expression, in any order. -/
def containsExactly (exp : AttrExp) (values : List String) : Bool :=
  decide (values.length = exp.value.length) && decide (tally values = tally exp.value)

def isEmptyValue (exp : AttrExp) : Bool :=
  match exp.value with
  | [] => true
  | first :: _ => first == ""

/-- An unexpired attribute with the expression's key passes. -/
def AttrExp.admits (exp : AttrExp) (attr : Attribute) : Bool :=
  match exp.op with
  | .eq => containsExactly exp attr.value
  | .ne => !containsExactly exp attr.value
  | .has => isEmptyValue exp || attr.valueHasAll exp.value
  | .excludes => !isEmptyValue exp && !attr.valueHasAny exp.value

/-- The inner loop: `none` if it returns early, otherwise whether the key was found. -/
def AttrExp.scan (now : Nat) (exp : AttrExp) : List Attribute → Bool → Option Bool
  | [], found => some found
  | attr :: rest, found =>
    if attr.key = exp.key then
      -- an expired attribute is indeterminate and cannot satisfy any expression
      if attr.isExpired now then none
      else if exp.admits attr then exp.scan now rest true
      else none
    else exp.scan now rest found

def AttrExp.satisfied (now : Nat) (exp : AttrExp) (attrs : List Attribute) : Bool :=
  match exp.scan now attrs false with
  | none => false
  | some true => true
  | some false => exp.op == .excludes && isEmptyValue exp

def JPolicy.matches (now : Nat) (jp : JPolicy) (attrs : List Attribute) : Bool :=
  jp.exps.all fun exp => exp.satisfied now attrs

/-! ### What the matcher decides -/

/-- The meaning of an expression on the attributes in a list. -/
structure AttrExp.Holds (now : Nat) (exp : AttrExp) (attrs : List Attribute) : Prop where
  passes : ∀ attr ∈ attrs, attr.key = exp.key →
    attr.isExpired now = false ∧ exp.admits attr = true
  present : (∃ attr ∈ attrs, attr.key = exp.key) ∨
    exp.op = .excludes ∧ isEmptyValue exp = true

variable {attrs others : List Attribute} {exp : AttrExp} {now : Nat}

theorem AttrExp.scan_eq_none {found : Bool} : exp.scan now attrs found = none ↔
      ∃ attr ∈ attrs, attr.key = exp.key ∧
        (attr.isExpired now = true ∨ exp.admits attr = false) := by
  induction attrs generalizing found with
  | nil => simp [AttrExp.scan]
  | cons attr rest ih =>
    unfold AttrExp.scan
    by_cases own : attr.key = exp.key
    · cases expired : attr.isExpired now <;> cases admits : exp.admits attr <;>
        simp [own, expired, admits, ih]
    · simp [own, ih]

theorem AttrExp.scan_eq_some {found result : Bool}
    (scanned : exp.scan now attrs found = some result) :
    result = true ↔ found = true ∨ ∃ attr ∈ attrs, attr.key = exp.key := by
  induction attrs generalizing found with
  | nil =>
    cases scanned
    simp
  | cons attr rest ih =>
    unfold AttrExp.scan at scanned
    split at scanned
    next own =>
      split at scanned
      · cases scanned
      · split at scanned
        · simp [ih scanned, own]
        · cases scanned
    next other => simp [ih scanned, other]

theorem AttrExp.satisfied_iff :
    exp.satisfied now attrs = true ↔ exp.Holds now attrs := by
  unfold AttrExp.satisfied
  cases scanned : exp.scan now attrs false with
  | none =>
    obtain ⟨attr, member, own, fails⟩ := AttrExp.scan_eq_none.mp scanned
    refine iff_of_false Bool.false_ne_true fun holds => ?_
    obtain ⟨fresh, admits⟩ := holds.passes attr member own
    rcases fails with expired | refused
    · simp [fresh] at expired
    · simp [admits] at refused
  | some result =>
    have passes : ∀ attr ∈ attrs, attr.key = exp.key →
        attr.isExpired now = false ∧ exp.admits attr = true := by
      intro attr member own
      have through : ¬ exp.scan now attrs false = none := by simp [scanned]
      rw [AttrExp.scan_eq_none] at through
      push Not at through
      obtain ⟨fresh, admits⟩ := through attr member own
      exact ⟨by simpa using fresh, by simpa using admits⟩
    have foundIff := AttrExp.scan_eq_some scanned
    cases result with
    | true =>
      refine iff_of_true rfl ⟨passes, .inl ?_⟩
      simpa using foundIff
    | false =>
      have absent : ¬ ∃ attr ∈ attrs, attr.key = exp.key := by simpa using foundIff
      simp only [Bool.and_eq_true, beq_iff_eq]
      exact ⟨fun empty => ⟨passes, .inr empty⟩, fun holds => holds.present.resolve_left absent⟩

def JPolicy.Mentions (jp : JPolicy) (key : String) : Prop := ∃ exp ∈ jp.exps, exp.key = key
  deriving Decidable

/-- Attributes that no expression can tell apart. -/
@[mk_iff]
structure Attribute.Alike (now : Nat) (first second : Attribute) : Prop where
  key : first.key = second.key
  value : first.value = second.value
  expired : first.isExpired now = second.isExpired now

instance (now : Nat) (first second : Attribute) : Decidable (first.Alike now second) :=
  decidable_of_iff _ (Attribute.alike_iff now first second).symm

theorem Attribute.Alike.refl (now : Nat) (attr : Attribute) : attr.Alike now attr := ⟨rfl, rfl, rfl⟩

theorem AttrExp.admits_congr {first second : Attribute} (same : first.value = second.value) :
    exp.admits first = exp.admits second := by
  have sameHas : first.valueHas = second.valueHas := by
    funext value
    simp [Attribute.valueHas, same]
  simp [AttrExp.admits, Attribute.valueHasAll, Attribute.valueHasAny, same, sameHas]

/-- Every attribute of `attrs` with one of the given keys has its like in `others`. -/
def CoveredBy (now : Nat) (keys : String → Prop) (attrs others : List Attribute) : Prop :=
  ∀ attr ∈ attrs, keys attr.key → ∃ other ∈ others, attr.Alike now other

theorem AttrExp.Holds.of_covered (holds : exp.Holds now attrs)
    (forward : CoveredBy now (· = exp.key) attrs others)
    (backward : CoveredBy now (· = exp.key) others attrs) : exp.Holds now others where
  passes other member own := by
    obtain ⟨attr, isAttr, alike⟩ := backward other member own
    obtain ⟨fresh, admits⟩ := holds.passes attr isAttr (alike.key.symm.trans own)
    exact ⟨alike.expired.trans fresh, (AttrExp.admits_congr alike.value).trans admits⟩
  present := by
    refine holds.present.imp_left ?_
    rintro ⟨attr, member, own⟩
    obtain ⟨other, isOther, alike⟩ := forward attr member own
    exact ⟨other, isOther, alike.key.symm.trans own⟩

/-- A policy cannot tell two lists apart that have like attributes under the keys it
mentions. -/
theorem JPolicy.matches_of_covered {jp : JPolicy} (forward : CoveredBy now jp.Mentions attrs others)
    (backward : CoveredBy now jp.Mentions others attrs) (matched : jp.matches now attrs = true) :
    jp.matches now others = true := by
  simp only [JPolicy.matches, List.all_eq_true, AttrExp.satisfied_iff] at matched ⊢
  intro exp member
  refine (matched exp member).of_covered ?_ ?_
  · exact fun attr isAttr own => forward attr isAttr ⟨exp, member, own.symm⟩
  · exact fun attr isAttr own => backward attr isAttr ⟨exp, member, own.symm⟩

theorem JPolicy.matches_congr {jp : JPolicy} (forward : CoveredBy now jp.Mentions attrs others)
    (backward : CoveredBy now jp.Mentions others attrs) :
    jp.matches now attrs = jp.matches now others := by
  rw [Bool.eq_iff_iff]
  exact ⟨JPolicy.matches_of_covered forward backward,
    JPolicy.matches_of_covered backward forward⟩

/-! ### The join part of a policy -/

/-- What connection approval reads of a policy. -/
structure Policy where
  vinst : Nat
  version : Option Nat
  joinPolicies : List JPolicy
  /-- Identity keys declared by the trusted services, in policy order. -/
  identityAttrKeys : List String

namespace Policy

def matchJoinPolicies (policy : Policy) (now : Nat) (attrs : List Attribute) : List JPolicy :=
  policy.joinPolicies.filter fun jp => jp.matches now attrs

/-- The union of the services of every join policy the attributes match. -/
def joinServices (policy : Policy) (now : Nat) (attrs : List Attribute) : HashSet String :=
  Std.ExtTreeSet.ofList
    ((policy.matchJoinPolicies now attrs).flatMap fun jp => jp.services.getD []) compare

/-- The adapter CN, then the keys the policy declares. -/
def lookupIdentityKeys (policy : Policy) : List String :=
  Key.cn :: policy.identityAttrKeys.filter (· ≠ Key.cn)

end Policy

theorem Policy.matchJoinPolicies_congr {policy : Policy}
    (same : ∀ jp ∈ policy.joinPolicies, jp.matches now attrs = jp.matches now others) :
    policy.matchJoinPolicies now attrs = policy.matchJoinPolicies now others := by
  unfold Policy.matchJoinPolicies
  exact List.filter_congr same

end VisaService
