import Mathlib.Data.List.Perm.Subperm

/-!
# Following predecessors

A search from a root remembers for every vertex it has come to the vertex before it. `back` is
this memory, as a partial function; `Leads back root ok n v` says that `n` steps back from `v`
lead to the root, over vertices that satisfy `ok` only. Such a way visits no vertex twice
(`Leads.trail`), and a vertex may be given another predecessor whose own way avoids the vertex
(`Leads.redirect`).
-/
namespace VisaService.Lib

variable {V : Type*} {back : V → Option V} {root v w : V} {ok : V → Prop} {n m : Nat}

def Leads (back : V → Option V) (root : V) (ok : V → Prop) : Nat → V → Prop
  | 0, v => v = root ∧ ok v
  | n + 1, v => ok v ∧ ∃ w, back v = some w ∧ Leads back root ok n w

namespace Leads

theorem mono {weaker : V → Prop} (implies : ∀ v, ok v → weaker v) (leads : Leads back root ok n v) :
    Leads back root weaker n v := by
  induction n generalizing v with
  | zero => exact ⟨leads.1, implies v leads.2⟩
  | succ n ih =>
    obtain ⟨holds, w, isBack, onward⟩ := leads
    exact ⟨implies v holds, w, isBack, ih onward⟩

theorem unique {other : V → Prop} (stop : back root = none) (first : Leads back root ok n v)
    (second : Leads back root other m v) : n = m := by
  induction n generalizing v m with
  | zero =>
    cases m with
    | zero => rfl
    | succ m =>
      obtain ⟨-, w, isBack, -⟩ := second
      rw [first.1, stop] at isBack
      cases isBack
  | succ n ih =>
    obtain ⟨-, w, isBack, onward⟩ := first
    cases m with
    | zero =>
      rw [second.1, stop] at isBack
      cases isBack
    | succ m =>
      obtain ⟨-, w', isBack', onward'⟩ := second
      cases isBack.symm.trans isBack'
      rw [ih onward onward']

theorem trail (stop : back root = none) (leads : Leads back root ok n v) :
    ∃ vertices : List V, vertices.length = n + 1 ∧ vertices.Nodup ∧
      ∀ w ∈ vertices, ok w ∧ ∃ j ≤ n, Leads back root ok j w := by
  induction n generalizing v with
  | zero => exact ⟨[v], rfl, by simp, by simpa using ⟨leads.2, leads⟩⟩
  | succ n ih =>
    obtain ⟨holds, w, isBack, onward⟩ := id leads
    obtain ⟨vertices, length, nodup, members⟩ := ih onward
    refine ⟨v :: vertices, by simp [length], List.nodup_cons.mpr ⟨fun member => ?_, nodup⟩, ?_⟩
    · obtain ⟨-, j, small, again⟩ := members v member
      have same := unique stop leads again
      omega
    · intro u member
      rcases List.mem_cons.mp member with rfl | member
      · exact ⟨holds, n + 1, Nat.le_refl _, leads⟩
      · obtain ⟨okU, j, small, leadsU⟩ := members u member
        exact ⟨okU, j, by omega, leadsU⟩

theorem lt_length {vertices : List V} (stop : back root = none)
    (leads : Leads back root (· ∈ vertices) n v) : n < vertices.length := by
  obtain ⟨way, length, nodup, members⟩ := leads.trail stop
  have fits : way.length ≤ vertices.length :=
    (List.subperm_of_subset nodup fun w member => (members w member).1).length_le
  omega

/-- A vertex gets another predecessor, whose own way avoids it. -/
theorem redirect {back' : V → Option V} {u : V}
    (others : ∀ v, v ≠ u → back' v = back v) (isBack : back' u = some w)
    (avoids : Leads back root (· ≠ u) m w) (leads : Leads back root (fun _ => True) n v) :
    ∃ n', Leads back' root (fun _ => True) n' v := by
  have carry {n : Nat} {v : V} (leads : Leads back root (· ≠ u) n v) :
      Leads back' root (fun _ => True) n v := by
    induction n generalizing v with
    | zero => exact ⟨leads.1, trivial⟩
    | succ n ih =>
      obtain ⟨apart, w, isBack, onward⟩ := leads
      exact ⟨trivial, w, (others v apart).trans isBack, ih onward⟩
  induction n generalizing v with
  | zero => exact ⟨0, leads.1, trivial⟩
  | succ n ih =>
    obtain ⟨-, w', isBack', onward⟩ := leads
    by_cases same : v = u
    · subst same
      exact ⟨m + 1, trivial, w, isBack, carry avoids⟩
    · obtain ⟨n', leads'⟩ := ih onward
      exact ⟨n' + 1, trivial, w', (others v same).trans isBack', leads'⟩

end Leads

end VisaService.Lib
