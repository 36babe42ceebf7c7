import Mathlib.Data.List.Basic

/-!
# Runs of a partial step function

A component is a step function `State → Event → Option State`; an event that is
not enabled blocks the run. Whole-run results are obtained from one-step facts by
the two rules below: an invariant kept by every step holds in every state reached,
and an invariant kept by the steps that meet a condition on the state *before* them
holds in every state reached by a run whose steps all meet it.
-/
namespace VisaService.Lib

variable {State Event : Type*} {step : State → Event → Option State}

def run (step : State → Event → Option State) : State → List Event → Option State
  | state, [] => some state
  | state, event :: rest => (step state event).bind fun next => run step next rest

/-- Every step of the run meets `cond` in the state it starts from. -/
def Meets (step : State → Event → Option State) (cond : State → Event → Prop) :
    State → List Event → Prop
  | _, [] => True
  | state, event :: rest =>
    cond state event ∧ ∀ next, step state event = some next → Meets step cond next rest

instance instDecidableMeets {cond : State → Event → Prop}
    [∀ state event, Decidable (cond state event)] :
    ∀ state events, Decidable (Meets step cond state events)
  | _, [] => isTrue trivial
  | state, event :: rest =>
    have (next : State) : Decidable (Meets step cond next rest) := instDecidableMeets next rest
    inferInstanceAs (Decidable (cond state event ∧
      ∀ next, step state event = some next → Meets step cond next rest))

@[simp] theorem run_nil (state : State) : run step state [] = some state := rfl

theorem run_cons (state : State) (event : Event) (rest : List Event) :
    run step state (event :: rest) = (step state event).bind fun next => run step next rest := rfl

variable {cond : State → Event → Prop} {events : List Event} {state : State}

theorem run_cons_eq_some {final : State} {event : Event} {rest : List Event} :
    run step state (event :: rest) = some final ↔
      ∃ next, step state event = some next ∧ run step next rest = some final := by
  simp [run_cons, Option.bind_eq_some_iff]

theorem run_append (state : State) (first second : List Event) :
    run step state (first ++ second) = (run step state first).bind fun mid =>
      run step mid second := by
  induction first generalizing state with
  | nil => rfl
  | cons event rest ih =>
    simp only [List.cons_append, run_cons]
    cases step state event with
    | none => rfl
    | some next => exact ih next

theorem run_append_eq_some {final : State} {first second : List Event} :
    run step state (first ++ second) = some final ↔
      ∃ mid, run step state first = some mid ∧ run step mid second = some final := by
  simp [run_append, Option.bind_eq_some_iff]

/-- A run whose events are all enabled ends in the state that evaluation gives. -/
theorem run_eq_some_getD (enabled : (run step state events).isSome = true) (default : State) :
    run step state events = some ((run step state events).getD default) := by
  obtain ⟨final, ran⟩ := Option.isSome_iff_exists.mp enabled
  simp [ran]

theorem ok_of_toOption {ε α : Type} {outcome : Except ε α} {value : α}
    (succeeds : outcome.toOption = some value) : outcome = .ok value := by
  cases outcome with
  | error failure => cases succeeds
  | ok own =>
    cases succeeds
    rfl

/-- The invariant rule under a step condition. -/
theorem run_preserves_of_meets {cond : State → Event → Prop} {inv : State → Prop}
    (keeps : ∀ state event next, inv state → cond state event →
      step state event = some next → inv next)
    {state final : State} {events : List Event} (holds : inv state)
    (meets : Meets step cond state events) (ran : run step state events = some final) :
    inv final := by
  induction events generalizing state with
  | nil =>
    cases ran
    exact holds
  | cons event rest ih =>
    obtain ⟨next, stepped, ran⟩ := run_cons_eq_some.mp ran
    exact ih (keeps state event next holds meets.1 stepped) (meets.2 next stepped) ran

/-- The invariant rule: what every step keeps, every run keeps. -/
theorem run_preserves {inv : State → Prop}
    (keeps : ∀ state event next, inv state → step state event = some next → inv next)
    {state final : State} {events : List Event} (holds : inv state)
    (ran : run step state events = some final) : inv final := by
  induction events generalizing state with
  | nil =>
    cases ran
    exact holds
  | cons event rest ih =>
    obtain ⟨next, stepped, ran⟩ := run_cons_eq_some.mp ran
    exact ih (keeps state event next holds stepped) ran

theorem meets_of_forall (always : ∀ event ∈ events, ∀ state, cond state event) (state : State) :
    Meets step cond state events := by
  induction events generalizing state with
  | nil => trivial
  | cons event rest ih =>
    exact ⟨always event (by simp) state, fun next _ =>
      ih (fun later member => always later (by simp [member])) next⟩

theorem Meets.and {first second : State → Event → Prop} (one : Meets step first state events)
    (two : Meets step second state events) :
    Meets step (fun state event => first state event ∧ second state event) state events := by
  induction events generalizing state with
  | nil => trivial
  | cons event rest ih =>
    exact ⟨⟨one.1, two.1⟩, fun next stepped => ih (one.2 next stepped) (two.2 next stepped)⟩

theorem meets_append {first second : List Event} :
    Meets step cond state (first ++ second) ↔ Meets step cond state first ∧
      ∀ mid, run step state first = some mid → Meets step cond mid second := by
  induction first generalizing state with
  | nil => simp [Meets]
  | cons event rest ih =>
    simp only [List.cons_append, Meets, ih, and_assoc, run_cons_eq_some]
    constructor
    · rintro ⟨met, later⟩
      exact ⟨met, fun next stepped => (later next stepped).1,
        fun mid ⟨next, stepped, ran⟩ => (later next stepped).2 mid ran⟩
    · rintro ⟨met, later, final⟩
      exact ⟨met, fun next stepped =>
        ⟨later next stepped, fun mid ran => final mid ⟨next, stepped, ran⟩⟩⟩

/-- The exact-condition rule. If steps that meet `cond` keep `inv`, `inv` implies `good`, and a
step from an `inv` state that violates `cond` leads straight to a state that is not `good`,
then all states along a run of legal events are `good` exactly when all its steps meet `cond`. -/
theorem good_along_iff_meets {legal : Event → Prop} {inv good : State → Prop}
    (keeps : ∀ state event next, inv state → legal event → cond state event →
      step state event = some next → inv next)
    (implies : ∀ state, inv state → good state)
    (detects : ∀ state event, inv state → legal event → ¬ cond state event →
      ∃ next, step state event = some next ∧ ¬ good next)
    (holds : inv state) (allLegal : ∀ event ∈ events, legal event) :
    (∀ first rest final, events = first ++ rest → run step state first = some final →
      good final) ↔ Meets step cond state events := by
  induction events generalizing state with
  | nil =>
    simp only [Meets, iff_true]
    intro first rest final split ran
    obtain ⟨rfl, -⟩ := List.append_eq_nil_iff.mp split.symm
    cases ran
    exact implies state holds
  | cons event rest ih =>
    have legalHead : legal event := allLegal event (by simp)
    have legalTail : ∀ later ∈ rest, legal later := fun later member =>
      allLegal later (by simp [member])
    constructor
    · intro along
      have headMeets : cond state event := by
        by_contra violated
        obtain ⟨next, stepped, bad⟩ := detects state event holds legalHead violated
        exact bad (along [event] rest next rfl (by simp [run_cons, stepped]))
      refine ⟨headMeets, fun next stepped => ?_⟩
      have holdsNext := keeps state event next holds legalHead headMeets stepped
      refine (ih holdsNext legalTail).mp fun first tail final split ran => ?_
      exact along (event :: first) tail final (by simp [split])
        (run_cons_eq_some.mpr ⟨next, stepped, ran⟩)
    · rintro ⟨headMeets, tailMeets⟩ first tail final split ran
      cases first with
      | nil =>
        cases ran
        exact implies state holds
      | cons head others =>
        obtain ⟨rfl, rfl⟩ := List.cons.inj split
        obtain ⟨next, stepped, ran⟩ := run_cons_eq_some.mp ran
        have holdsNext := keeps state event next holds legalHead headMeets stepped
        exact (ih holdsNext legalTail).mpr (tailMeets next stepped) others tail final rfl ran

end VisaService.Lib
