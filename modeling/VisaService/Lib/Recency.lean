import Mathlib.Data.List.Basic

/-!
# Recency windows

Of a history of keyed values, newest first, `recency` has the newest value of each key. A window
that moves a key to the front when it recurs, and drops the oldest when it grows beyond its size,
has the front of that list.
-/
namespace VisaService.Lib

variable {K V : Type*} [DecidableEq K]

def recency : List (K × V) → List (K × V)
  | [] => []
  | newest :: older => newest :: (recency older).filter (·.1 ≠ newest.1)

/-- The window after one more value. -/
def touch (size : Nat) (window : List (K × V)) (newest : K × V) : List (K × V) :=
  (newest :: window.filter (·.1 ≠ newest.1)).take size

theorem recency_pairwise (history : List (K × V)) :
    (recency history).Pairwise (·.1 ≠ ·.1) := by
  induction history with
  | nil => exact .nil
  | cons newest older ih =>
    refine .cons (fun other member => ?_) (ih.filter _)
    exact (of_decide_eq_true (List.mem_filter.mp member).2).symm

theorem take_filter_take {key : K} {values : List (K × V)} (distinct : values.Pairwise (·.1 ≠ ·.1))
    (size : Nat) :
    ((values.take (size + 1)).filter (·.1 ≠ key)).take size =
      (values.filter (·.1 ≠ key)).take size := by
  induction values generalizing size with
  | nil => rfl
  | cons first rest ih =>
    obtain ⟨differ, distinct⟩ := List.pairwise_cons.mp distinct
    rw [List.take_succ_cons, List.filter_cons, List.filter_cons]
    split
    · cases size with
      | zero => rfl
      | succ size => rw [List.take_succ_cons, List.take_succ_cons, ih distinct]
    next same =>
      -- no other value has the key
      have others : ∀ other ∈ rest, decide (other.1 ≠ key) = true := by
        intro other member
        rw [decide_eq_true_eq, ne_eq, not_not] at same
        exact decide_eq_true (same ▸ (differ other member).symm)
      rw [List.filter_eq_self.mpr others, List.filter_eq_self.mpr fun other member =>
        others other (List.mem_of_mem_take member), List.take_take, Nat.min_self]

/-- What the window has dropped is not missed later. -/
theorem touch_recency (size : Nat) (newest : K × V) (older : List (K × V)) :
    touch (size + 1) ((recency older).take (size + 1)) newest =
      (recency (newest :: older)).take (size + 1) := by
  rw [touch, recency, List.take_succ_cons, List.take_succ_cons,
    take_filter_take (recency_pairwise older)]

end VisaService.Lib
