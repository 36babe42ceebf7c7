import Mathlib.Logic.Basic

/-!
# Names with several claimants and one owner

Holders come and go and claim names; of the claimants of a name one is its owner. `Acts` says
what one holder may do in a step: change its own presence and claims, hand on what it owned
and gives up, and take a name it claims only where nobody else has it or on the terms of the
step. Every claimed name then keeps an owner that is present and claims it.
-/
namespace VisaService.Lib

structure Registry (A N : Type) where
  present : A → Prop
  claims : A → N → Prop
  owner : N → Option A

namespace Registry

variable {A N : Type}

structure Wf (registry : Registry A N) : Prop where
  live : ∀ a n, registry.claims a n → registry.present a
  owned : ∀ a n, registry.owner n = some a → registry.claims a n
  covered : ∀ a n, registry.claims a n → registry.owner n ≠ none

/-- A present claimant of the name besides `a`. -/
def Rival (registry : Registry A N) (a : A) (n : N) (b : A) : Prop :=
  b ≠ a ∧ registry.present b ∧ registry.claims b n

/-- The rival that comes first in the given order, if there is one. -/
def IsSuccessor (before : A → A → Prop) (registry : Registry A N) (a : A) (n : N) :
    Option A → Prop
  | some b => registry.Rival a n b ∧ ∀ c, registry.Rival a n c → before b c
  | none => ∀ c, ¬ registry.Rival a n c

/-- A step of holder `a`. -/
structure Acts (before : A → A → Prop) (registry : Registry A N) (a : A)
    (next : Registry A N) : Prop where
  present : ∀ b, b ≠ a → (next.present b ↔ registry.present b)
  claims : ∀ b n, b ≠ a → (next.claims b n ↔ registry.claims b n)
  live : ∀ n, next.claims a n → next.present a
  /-- A name that others own stays theirs unless `a` claims it. -/
  others : ∀ n, ¬ next.claims a n → registry.owner n ≠ some a → next.owner n = registry.owner n
  /-- A name that `a` owned and gives up goes to its successor. -/
  released : ∀ n, ¬ next.claims a n → registry.owner n = some a →
    IsSuccessor before registry a n (next.owner n)
  /-- A name that `a` claims is its own, or stays with its owner. -/
  taken : ∀ n, next.claims a n → next.owner n = some a ∨
    ∃ b, b ≠ a ∧ registry.owner n = some b ∧ next.owner n = some b

variable {a : A} {before : A → A → Prop} {next registry : Registry A N}

theorem Wf.acts (wf : registry.Wf) (acts : Acts before registry a next) : next.Wf where
  live b n claims := by
    by_cases own : b = a
    · subst own
      exact acts.live n claims
    · exact (acts.present b own).mpr (wf.live b n ((acts.claims b n own).mp claims))
  owned b n owns := by
    by_cases claimed : next.claims a n
    · rcases acts.taken n claimed with mine | ⟨c, other, before, after⟩
      · cases mine.symm.trans owns
        exact claimed
      · cases after.symm.trans owns
        exact (acts.claims b n other).mpr (wf.owned b n before)
    · by_cases mine : registry.owner n = some a
      · have successor := acts.released n claimed mine
        rw [owns] at successor
        obtain ⟨⟨other, -, claims⟩, -⟩ := successor
        exact (acts.claims b n other).mpr claims
      · have same := acts.others n claimed mine
        rw [owns] at same
        have other : b ≠ a := fun own => mine (own ▸ same.symm)
        exact (acts.claims b n other).mpr (wf.owned b n same.symm)
  covered b n claims := by
    by_cases claimed : next.claims a n
    · rcases acts.taken n claimed with mine | ⟨c, -, -, after⟩
      · rw [mine]
        exact Option.some_ne_none a
      · rw [after]
        exact Option.some_ne_none c
    · have other : b ≠ a := fun own => claimed (own ▸ claims)
      have before := (acts.claims b n other).mp claims
      by_cases mine : registry.owner n = some a
      · intro unowned
        have successor := acts.released n claimed mine
        rw [unowned] at successor
        exact successor b ⟨other, wf.live b n before, before⟩
      · rw [acts.others n claimed mine]
        exact wf.covered b n before

/-- A holder that left altogether and then takes whatever it claims. -/
theorem Acts.after_leaving {left : Registry A N} (leaves : Acts before registry a left)
    (gone : ∀ n, ¬ left.claims a n) (returns : Acts before left a next)
    (takes : ∀ n, next.claims a n → next.owner n = some a) :
    Acts before registry a next where
  present b other := (returns.present b other).trans (leaves.present b other)
  claims b n other := (returns.claims b n other).trans (leaves.claims b n other)
  live := returns.live
  others n unclaimed notOwn := by
    have same := leaves.others n (gone n) notOwn
    rw [returns.others n unclaimed (same ▸ notOwn), same]
  released n unclaimed own := by
    have successor := leaves.released n (gone n) own
    have notOwn : left.owner n ≠ some a := by
      intro back
      rw [back] at successor
      exact successor.1.1 rfl
    rw [returns.others n unclaimed notOwn]
    exact successor
  taken n claimed := .inl (takes n claimed)

/-- Exactly the names that a present holder claims are owned. -/
theorem Wf.owned_iff (wf : registry.Wf) (n : N) :
    registry.owner n ≠ none ↔ ∃ a, registry.present a ∧ registry.claims a n := by
  constructor
  · intro owned
    obtain ⟨a, isOwner⟩ := Option.ne_none_iff_exists'.mp owned
    have claims := wf.owned a n isOwner
    exact ⟨a, wf.live a n claims, claims⟩
  · rintro ⟨a, -, claims⟩
    exact wf.covered a n claims

/-- When the owner gives a name up, it goes to the first of the claimants that are left. -/
theorem Acts.handed_on (acts : Acts before registry a next) {n : N}
    (owns : registry.owner n = some a) (gone : ¬ next.claims a n) {b : A}
    (claimant : next.present b ∧ next.claims b n) :
    ∃ heir, next.owner n = some heir ∧ next.present heir ∧ next.claims heir n ∧
      before heir b := by
  have other : b ≠ a := fun own => gone (own ▸ claimant.2)
  have rival : registry.Rival a n b :=
    ⟨other, (acts.present b other).mp claimant.1, (acts.claims b n other).mp claimant.2⟩
  have successor := acts.released n gone owns
  cases isHeir : next.owner n with
  | none =>
    rw [isHeir] at successor
    exact absurd rival (successor b)
  | some heir =>
    rw [isHeir] at successor
    obtain ⟨⟨apart, present, claims⟩, first⟩ := successor
    exact ⟨heir, rfl, (acts.present heir apart).mpr present, (acts.claims heir n apart).mpr claims,
      first b rival⟩

end Registry

end VisaService.Lib
