import Mathlib.Data.List.Nodup
import Mathlib.Data.List.Perm.Subperm

/-!
# Simple paths of a multigraph

Vertices and edges are of any type; `joins v e w` says that edge `e` can be followed from `v`
to `w`. A path is the list of its steps, each an edge and the vertex it leads to.
`simplePaths` enumerates the paths without repeated vertices by recursion on the number of
steps. Where the vertices are finitely many and the depth is large enough, it lists exactly the
simple paths, each of them once.
-/
namespace VisaService.Lib

variable {V E : Type*}

/-- Following `steps` from the first vertex leads to the last. -/
inductive Walk (joins : V → E → V → Prop) : V → List (E × V) → V → Prop
  | nil (v : V) : Walk joins v [] v
  | cons {v finish : V} {step : E × V} {rest : List (E × V)} (taken : joins v step.1 step.2)
      (onward : Walk joins step.2 rest finish) : Walk joins v (step :: rest) finish

/-- A walk that visits no vertex twice. -/
structure IsSimplePath (joins : V → E → V → Prop) (start : V) (steps : List (E × V))
    (finish : V) : Prop where
  walk : Walk joins start steps finish
  nodup : (start :: steps.map Prod.snd).Nodup

namespace Walk

variable {joins : V → E → V → Prop}

variable {finish start : V} {steps : List (E × V)}

theorem imp {other : V → E → V → Prop} (walk : Walk joins start steps finish)
    (follows : ∀ v step, step ∈ steps → joins v step.1 step.2 → other v step.1 step.2) :
    Walk other start steps finish := by
  induction walk with
  | nil v => exact .nil v
  | cons taken onward ih =>
    exact .cons (follows _ _ (by simp) taken)
      (ih fun v step member => follows v step (List.mem_cons_of_mem _ member))

theorem snoc {middle : V} {edge : E} (walk : Walk joins start steps middle)
    (taken : joins middle edge finish) :
    Walk joins start (steps ++ [(edge, finish)]) finish := by
  induction walk with
  | nil v => exact .cons taken (.nil finish)
  | cons first onward ih => exact .cons first (ih taken)

theorem eq_of_edges {other : V} {steps' : List (E × V)}
    (leads : ∀ v e w w', joins v e w → joins v e w' → w = w') (walk : Walk joins start steps finish)
    (walk' : Walk joins start steps' other) (same : steps.map Prod.fst = steps'.map Prod.fst) :
    steps = steps' := by
  induction walk generalizing steps' with
  | nil v => exact (List.map_eq_nil_iff.mp same.symm).symm
  | cons taken onward ih =>
    cases walk' with
    | nil => cases same
    | cons taken' onward' =>
      obtain ⟨sameEdge, sameRest⟩ := List.cons.inj same
      have sameStep := Prod.ext sameEdge (leads _ _ _ _ taken (sameEdge ▸ taken'))
      subst sameStep
      rw [ih onward' sameRest]

theorem getLast? (walk : Walk joins start steps finish) :
    (start :: steps.map Prod.snd).getLast? = some finish := by
  induction walk with
  | nil v => rfl
  | cons taken onward ih => rw [List.map_cons, List.getLast?_cons_cons, ih]

theorem finish_mem {step : E × V} {rest : List (E × V)}
    (walk : Walk joins start (step :: rest) finish) :
    finish ∈ (step :: rest).map Prod.snd := by
  induction rest generalizing start step with
  | nil =>
    cases walk with
    | cons taken onward =>
      cases onward
      simp
  | cons next more ih =>
    cases walk with
    | cons taken onward => exact List.mem_cons_of_mem _ (ih onward)

theorem vertex_of_mem {vertices : List V} (closed : ∀ v e w, joins v e w → w ∈ vertices)
    (walk : Walk joins start steps finish) :
    ∀ w ∈ steps.map Prod.snd, w ∈ vertices := by
  induction walk with
  | nil v => simp
  | cons taken onward ih =>
    intro w member
    rcases List.mem_cons.mp member with rfl | later
    · exact closed _ _ _ taken
    · exact ih w later

end Walk

section Enumerate

variable [DecidableEq V] (out : V → List (E × V)) (target : V)

/-- The paths that begin with `step`, keep clear of `visited` and end at the target, with at
most `depth` steps after the first. -/
def through : Nat → List V → E × V → List (List (E × V))
  | depth, visited, step =>
    if step.2 ∈ visited then []
    else if step.2 = target then [[step]]
    else match depth with
      | 0 => []
      | depth + 1 =>
        ((out step.2).flatMap (through depth (step.2 :: visited))).map (step :: ·)

/-- The paths from `start` to the target with at most `depth + 1` steps. -/
def simplePaths (depth : Nat) (start : V) : List (List (E × V)) :=
  (out start).flatMap (through out target depth [start])

variable {out target}

/-- After `step`, `rest` leads to the target over at most `depth` further vertices that are
new and not among `visited`. -/
structure LeadsOn (joins : V → E → V → Prop) (target : V) (depth : Nat) (visited : List V)
    (step : E × V) (rest : List (E × V)) : Prop where
  walk : Walk joins step.2 rest target
  nodup : ((step :: rest).map Prod.snd).Nodup
  clear : ∀ w ∈ (step :: rest).map Prod.snd, w ∉ visited
  short : rest.length ≤ depth

variable {depth : Nat} {joins : V → E → V → Prop} {step : E × V} {visited : List V}

variable {rest steps : List (E × V)} {start : V}

omit [DecidableEq V] in
theorem leadsOn_at_target (atTarget : step.2 = target) (unseen : step.2 ∉ visited) :
    LeadsOn joins target depth visited step rest ↔ rest = [] := by
  constructor
  · rintro ⟨walk, nodup, -, -⟩
    cases rest with
    | nil => rfl
    | cons next more =>
      have again := walk.finish_mem
      rw [← atTarget] at again
      exact absurd again (List.nodup_cons.mp nodup).1
  · rintro rfl
    exact ⟨atTarget ▸ .nil _, by simp, by simpa using unseen, Nat.zero_le depth⟩

omit [DecidableEq V] in
theorem leadsOn_elsewhere (elsewhere : step.2 ≠ target) (unseen : step.2 ∉ visited) :
    LeadsOn joins target (depth + 1) visited step rest ↔
      ∃ next more, rest = next :: more ∧ joins step.2 next.1 next.2 ∧
        LeadsOn joins target depth (step.2 :: visited) next more := by
  constructor
  · rintro ⟨walk, nodup, clear, short⟩
    cases walk with
    | nil v => exact absurd rfl elsewhere
    | @cons _ _ next more taken onward =>
      obtain ⟨fresh, nodup⟩ := List.nodup_cons.mp nodup
      refine ⟨next, more, rfl, taken, onward, nodup, ?_, by simpa using short⟩
      intro w member seen
      rcases List.mem_cons.mp seen with rfl | before
      · exact fresh member
      · exact clear w (List.mem_cons_of_mem _ member) before
  · rintro ⟨next, more, rfl, taken, onward, nodup, clear, short⟩
    refine ⟨.cons taken onward, ?_, ?_, by simpa using short⟩
    · exact List.nodup_cons.mpr ⟨fun again => clear _ again List.mem_cons_self, nodup⟩
    · intro w member
      rcases List.mem_cons.mp member with rfl | later
      · exact unseen
      · exact fun seen => clear w later (List.mem_cons_of_mem _ seen)

theorem mem_through (lists : ∀ v step, step ∈ out v ↔ joins v step.1 step.2) :
    steps ∈ through out target depth visited step ↔
      ∃ rest, steps = step :: rest ∧ LeadsOn joins target depth visited step rest := by
  induction depth generalizing visited step steps with
  | zero =>
    unfold through
    split
    next seen =>
      simp only [List.not_mem_nil, false_iff]
      rintro ⟨rest, -, leads⟩
      exact leads.clear step.2 (by simp) seen
    next unseen =>
      split
      next atTarget => simp [leadsOn_at_target atTarget unseen]
      next elsewhere =>
        simp only [List.not_mem_nil, false_iff]
        rintro ⟨rest, -, walk, -, -, short⟩
        cases List.length_eq_zero_iff.mp (Nat.le_zero.mp short)
        cases walk
        exact elsewhere rfl
  | succ depth ih =>
    unfold through
    split
    next seen =>
      simp only [List.not_mem_nil, false_iff]
      rintro ⟨rest, -, leads⟩
      exact leads.clear step.2 (by simp) seen
    next unseen =>
      split
      next atTarget => simp [leadsOn_at_target atTarget unseen]
      next elsewhere =>
        simp only [List.mem_map, List.mem_flatMap, ih, leadsOn_elsewhere elsewhere unseen]
        constructor
        · rintro ⟨rest, ⟨next, leaves, more, rfl, leads⟩, rfl⟩
          exact ⟨_, rfl, next, more, rfl, (lists _ _).mp leaves, leads⟩
        · rintro ⟨rest, rfl, next, more, rfl, taken, leads⟩
          exact ⟨_, ⟨next, (lists _ _).mpr taken, more, rfl, leads⟩, rfl⟩

/-- With as much depth as there are vertices, exactly the simple paths are listed. -/
theorem mem_simplePaths (lists : ∀ v step, step ∈ out v ↔ joins v step.1 step.2) {vertices : List V}
    (closed : ∀ v e w, joins v e w → w ∈ vertices) (deep : vertices.length ≤ depth)
    (apart : start ≠ target) :
    steps ∈ simplePaths out target depth start ↔ IsSimplePath joins start steps target := by
  simp only [simplePaths, List.mem_flatMap, mem_through lists]
  constructor
  · rintro ⟨step, leaves, rest, rfl, onward, nodup, clear, -⟩
    refine ⟨.cons ((lists _ _).mp leaves) onward, List.nodup_cons.mpr ⟨fun again => ?_, nodup⟩⟩
    exact clear start again List.mem_cons_self
  · rintro ⟨walk, nodup⟩
    obtain ⟨outside, nodup⟩ := List.nodup_cons.mp nodup
    cases walk with
    | nil v => exact absurd rfl apart
    | @cons _ _ step rest taken onward =>
      refine ⟨step, (lists _ _).mpr taken, rest, rfl, onward, nodup, ?_, ?_⟩
      · intro w member seen
        cases List.mem_singleton.mp seen
        exact outside member
      · -- the vertices of the path are distinct members of the list
        have within := (Walk.cons taken onward).vertex_of_mem closed
        have bounded := (List.subperm_of_subset nodup within).length_le
        simp only [List.length_map, List.length_cons] at bounded
        omega

omit [DecidableEq V] in
theorem nodup_flatMap_of_head {paths : E × V → List (List (E × V))} (distinct : steps.Nodup)
    (each : ∀ step ∈ steps, (paths step).Nodup)
    (heads : ∀ step, ∀ path ∈ paths step, path.head? = some step) :
    (steps.flatMap paths).Nodup := by
  refine List.nodup_flatMap.mpr ⟨each, distinct.imp fun apart path first second => apart ?_⟩
  exact Option.some.inj ((heads _ path first).symm.trans (heads _ path second))

theorem head_of_mem_through {path : List (E × V)}
    (member : path ∈ through out target depth visited step) : path.head? = some step := by
  unfold through at member
  split at member
  · cases member
  split at member
  · cases List.mem_singleton.mp member
    rfl
  · cases depth with
    | zero => cases member
    | succ depth =>
      obtain ⟨rest, -, rfl⟩ := List.mem_map.mp member
      rfl

theorem through_nodup (distinct : ∀ v, (out v).Nodup) :
    (through out target depth visited step).Nodup := by
  induction depth generalizing visited step with
  | zero =>
    unfold through
    split
    · exact List.nodup_nil
    · split <;> simp
  | succ depth ih =>
    unfold through
    split
    · exact List.nodup_nil
    · split
      · exact List.nodup_singleton _
      · exact List.Nodup.map List.cons_injective
          (nodup_flatMap_of_head (distinct _) (fun _ _ => ih) fun _ _ => head_of_mem_through)

theorem simplePaths_nodup (distinct : ∀ v, (out v).Nodup) :
    (simplePaths out target depth start).Nodup :=
  nodup_flatMap_of_head (distinct _) (fun _ _ => through_nodup distinct)
    fun _ _ => head_of_mem_through

end Enumerate

end VisaService.Lib
