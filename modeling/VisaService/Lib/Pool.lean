import VisaService.Lib.Prog

/-!
# Programs that take turns

In a pool several programs share a store and take turns, one call at a time, in any order.

`Safe` is the rely-guarantee rule for one of them: whatever the others do within `rely` before
each of its calls, every call that is allowed stays within `guar`, and the program ends in its
postcondition. `step_safe` puts the programs together: a pool stays safe when what each
guarantees is what the others rely on.
-/
namespace VisaService.Lib

namespace Prog

variable {Call : Type → Type} {Err α β γ S : Type}
variable (exec : ∀ {β : Type}, Call β → S → β × S)

section Safe

variable (allow : ∀ {β : Type}, Call β → S → Prop) (rely guar : S → S → Prop)

/-- The others change the store within `rely` before each call; every call that is allowed
changes it within `guar`, and the program ends in `post`. -/
def Safe (post : Except Err α → S → Prop) : Prog Call Err α → S → Prop
  | ret value, store => post (.ok value) store
  | fail failure, store => post (.error failure) store
  | call c next, store => ∀ now, rely store now → allow c now →
      guar now (exec c now).2 ∧ Safe post (next (exec c now).1) (exec c now).2

variable {exec} {allow} {rely guar}

variable {post : Except Err α → S → Prop} {prog : Prog Call Err α} {store : S}
variable {rest : α → Prog Call Err β}

theorem Safe.imp {weaker : Except Err α → S → Prop}
    (weakens : ∀ result store, post result store → weaker result store)
    (safe : Safe exec allow rely guar post prog store) :
    Safe exec allow rely guar weaker prog store := by
  induction prog generalizing store with
  | ret value | fail failure => exact weakens _ _ safe
  | call c next ih =>
    intro now relied allowed
    obtain ⟨guaranteed, later⟩ := safe now relied allowed
    exact ⟨guaranteed, ih _ later⟩

/-- Less may be allowed, others may do less, and less may be promised. -/
theorem Safe.mono {fewer : ∀ {β : Type}, Call β → S → Prop} {stricter looser : S → S → Prop}
    (permits : ∀ {β : Type} (c : Call β) (store : S), fewer c store → allow c store)
    (relies : ∀ store now, stricter store now → rely store now)
    (promises : ∀ store now, guar store now → looser store now)
    (safe : Safe exec allow rely guar post prog store) :
    Safe exec fewer stricter looser post prog store := by
  induction prog generalizing store with
  | ret value | fail failure => exact safe
  | call c next ih =>
    intro now relied allowed
    obtain ⟨guaranteed, later⟩ := safe now (relies store now relied) (permits c now allowed)
    exact ⟨promises _ _ guaranteed, ih _ later⟩

theorem Safe.stable
    (trans : ∀ first second third, rely first second → rely second third → rely first third)
    (kept : ∀ result store now, post result store → rely store now → post result now) {now : S}
    (safe : Safe exec allow rely guar post prog store) (relied : rely store now) :
    Safe exec allow rely guar post prog now := by
  cases prog with
  | ret value | fail failure => exact kept _ _ _ safe relied
  | call c next => exact fun later further => safe later (trans _ _ _ relied further)

theorem safe_bind {post : Except Err β → S → Prop}
    (safe : Safe exec allow rely guar (fun result store => match result with
      | .ok value => Safe exec allow rely guar post (rest value) store
      | .error failure => post (.error failure) store) prog store) :
    Safe exec allow rely guar post (prog >>= rest) store := by
  induction prog generalizing store with
  | ret value | fail failure => exact safe
  | call c next ih =>
    intro now relied allowed
    obtain ⟨guaranteed, later⟩ := safe now relied allowed
    exact ⟨guaranteed, ih _ later⟩

theorem safe_lift_bind {post : Except Err β → S → Prop} {c : Call α}
    (next : ∀ now, rely store now → allow c now → guar now (exec c now).2 ∧
      Safe exec allow rely guar post (rest (exec c now).1) (exec c now).2) :
    Safe exec allow rely guar post (lift c >>= rest) store := next

/-- The loop rule: `inv done` holds after the items in `done`. -/
theorem safe_each {body : γ → Prog Call Err Unit} (inv : List γ → S → Prop) {items : List γ}
    (keeps : ∀ done item store, item ∈ items → inv done store →
      Safe exec allow rely guar (fun result store => result = .ok () ∧ inv (done ++ [item]) store)
        (body item) store) (start : inv [] store) :
    Safe exec allow rely guar (fun result store => result = .ok () ∧ inv items store)
      (each items body) store := by
  suffices general : ∀ (rest done : List γ) (store : S), done ++ rest = items → inv done store →
      Safe exec allow rely guar (fun result store => result = .ok () ∧ inv items store)
        (each rest body) store from general items [] store rfl start
  intro rest
  induction rest with
  | nil =>
    intro done store whole holds
    rw [List.append_nil] at whole
    exact ⟨rfl, whole ▸ holds⟩
  | cons item rest ih =>
    intro done store whole holds
    refine safe_bind ((keeps done item store (by simp [← whole]) holds).imp ?_)
    rintro result later ⟨rfl, holds⟩
    exact ih (done ++ [item]) later (by simpa using whole) holds

theorem safe_of_makes (makes : Makes (fun c => ∀ store, guar store (exec c store).2) prog)
    (store : S) :
    Safe exec allow rely guar (fun _ _ => True) prog store := by
  induction prog generalizing store with
  | ret value => trivial
  | fail failure => trivial
  | call c next ih => exact fun now _ _ => ⟨makes.1 now, ih _ (makes.2 _) _⟩

/-- A program that nobody interrupts is safe if its run ends in the postcondition and its
calls keep within `guar`. -/
theorem safe_of_run (makes : Makes (fun c => ∀ store, guar store (exec c store).2) prog)
    (ends : post (run exec prog store).1 (run exec prog store).2) :
    Safe exec allow Eq guar post prog store := by
  induction prog generalizing store with
  | ret value | fail failure => exact ends
  | call c next ih =>
    rintro now rfl -
    exact ⟨makes.1 store, ih _ (makes.2 _) ends⟩

end Safe

end Prog

/-! ### Pools -/

/-- What is left of one program, and how many calls it has made. -/
structure Task (Label : Type) (Call : Type → Type) (Err : Type) where
  label : Label
  rest : Prog Call Err Unit
  made : Nat

structure Pool (Label : Type) (Call : Type → Type) (Err S : Type) where
  store : S
  tasks : List (Task Label Call Err)

namespace Pool

variable {Label : Type} {Call : Type → Type} {Err S : Type}
variable (exec : ∀ {β : Type}, Call β → S → β × S)

def start (prog : Label → Prog Call Err Unit) (store : S) (labels : List Label) :
    Pool Label Call Err S :=
  { store, tasks := labels.map fun label => ⟨label, prog label, 0⟩ }

def step (pool : Pool Label Call Err S) (turn : Nat) : Option (Pool Label Call Err S) :=
  match pool.tasks[turn]? with
  | some ⟨label, .call c next, made⟩ =>
    some
      { store := (exec c pool.store).2
        tasks := pool.tasks.set turn ⟨label, next (exec c pool.store).1, made + 1⟩ }
  | _ => none

/-- All programs have ended without a failure. -/
def Returned (pool : Pool Label Call Err S) : Prop :=
  ∀ task ∈ pool.tasks, task.rest = .ret ()

instance (prog : Prog Call Err Unit) : Decidable (prog = .ret ()) :=
  match prog with
  | .ret () => isTrue rfl
  | .fail _ => isFalse nofun
  | .call _ _ => isFalse nofun

instance (pool : Pool Label Call Err S) : Decidable pool.Returned :=
  inferInstanceAs (Decidable (∀ task ∈ pool.tasks, task.rest = .ret ()))

variable {exec}

variable {turn : Nat}

theorem step_cases {pool next : Pool Label Call Err S} (stepped : step exec pool turn = some next) :
    ∃ (label : Label) (β : Type) (c : Call β) (rest : β → Prog Call Err Unit) (made : Nat),
      pool.tasks[turn]? = some ⟨label, .call c rest, made⟩ ∧
      next.store = (exec c pool.store).2 ∧
      next.tasks = pool.tasks.set turn ⟨label, rest (exec c pool.store).1, made + 1⟩ := by
  unfold step at stepped
  split at stepped
  next label β c rest made found =>
    cases stepped
    exact ⟨label, β, c, rest, made, found, rfl, rfl⟩
  · cases stepped

theorem get_set {tasks : List (Task Label Call Err)} {place : Nat}
    {before after task : Task Label Call Err} (found : tasks[turn]? = some before)
    (isTask : (tasks.set turn after)[place]? = some task) :
    place = turn ∧ task = after ∨ place ≠ turn ∧ tasks[place]? = some task := by
  by_cases own : place = turn
  · subst own
    have bound := (List.getElem?_eq_some_iff.mp found).1
    rw [List.getElem?_set_self bound] at isTask
    exact .inl ⟨rfl, (Option.some.inj isTask).symm⟩
  · rw [List.getElem?_set_ne (Ne.symm own)] at isTask
    exact .inr ⟨own, isTask⟩

/-- The program whose turn it is may make its next call. -/
def Allowed (allow : Label → ∀ {β : Type}, Call β → S → Prop) (pool : Pool Label Call Err S)
    (turn : Nat) : Prop :=
  ∀ (label : Label) (β : Type) (c : Call β) (rest : β → Prog Call Err Unit) (made : Nat),
    pool.tasks[turn]? = some ⟨label, .call c rest, made⟩ → allow label c pool.store

instance (allow : Label → ∀ {β : Type}, Call β → S → Prop)
    [∀ label (β : Type) (c : Call β) store, Decidable (allow label c store)]
    (pool : Pool Label Call Err S) (turn : Nat) : Decidable (pool.Allowed allow turn) :=
  match found : pool.tasks[turn]? with
  | some ⟨label, .call c _, _⟩ =>
    decidable_of_iff (allow label c pool.store)
      ⟨fun allowed _ _ _ _ _ isTask => by cases found.symm.trans isTask; exact allowed,
        fun allowed => allowed _ _ _ _ _ found⟩
  | some ⟨_, .ret _, _⟩ => isTrue fun _ _ _ _ _ isTask => nomatch found.symm.trans isTask
  | some ⟨_, .fail _, _⟩ => isTrue fun _ _ _ _ _ isTask => nomatch found.symm.trans isTask
  | none => isTrue fun _ _ _ _ _ isTask => nomatch found.symm.trans isTask

section Rule

variable {allow : Label → ∀ {β : Type}, Call β → S → Prop}
variable {rely guar : Label → S → S → Prop} {post : Label → Except Err Unit → S → Prop}

def AllSafe (exec : ∀ {β : Type}, Call β → S → β × S)
    (allow : Label → ∀ {β : Type}, Call β → S → Prop) (rely guar : Label → S → S → Prop)
    (post : Label → Except Err Unit → S → Prop) (pool : Pool Label Call Err S) : Prop :=
  ∀ task ∈ pool.tasks,
    Prog.Safe exec (allow task.label) (rely task.label) (guar task.label) (post task.label)
      task.rest pool.store

variable {pool next : Pool Label Call Err S} {turn : Nat}

theorem step_labels (stepped : step exec pool turn = some next) :
    next.tasks.map Task.label = pool.tasks.map Task.label := by
  obtain ⟨label, β, c, rest, made, found, -, isTasks⟩ := step_cases stepped
  obtain ⟨bound, isTask⟩ := List.getElem?_eq_some_iff.mp found
  rw [isTasks, List.map_set]
  refine List.ext_getElem? fun place => ?_
  by_cases own : turn = place
  · subst own
    rw [List.getElem?_set_self (by simpa using bound), List.getElem?_map, found]
    rfl
  · rw [List.getElem?_set_ne own]

/-- The rule for pools of programs with labels of their own: what each guarantees, the others
rely on. -/
theorem step_safe (refl : ∀ label store, rely label store store)
    (trans : ∀ label first second third, rely label first second → rely label second third →
      rely label first third)
    (kept : ∀ label result store now, post label result store → rely label store now →
      post label result now)
    (compatible : ∀ mine other store now, mine ∈ pool.tasks.map Task.label →
      other ∈ pool.tasks.map Task.label → mine ≠ other → guar mine store now →
      rely other store now) (distinct : (pool.tasks.map Task.label).Nodup)
    (allowed : pool.Allowed allow turn) (safe : pool.AllSafe exec allow rely guar post)
    (stepped : step exec pool turn = some next) : next.AllSafe exec allow rely guar post := by
  obtain ⟨label, β, c, rest, made, found, isStore, isTasks⟩ := step_cases stepped
  have member := List.mem_of_getElem? found
  obtain ⟨guaranteed, later⟩ := safe _ member pool.store (refl label pool.store)
    (allowed label β c rest made found)
  intro task isTask
  rw [isTasks] at isTask
  obtain ⟨place, isPlace⟩ := List.mem_iff_getElem?.mp isTask
  rw [isStore]
  rcases get_set found isPlace with ⟨-, rfl⟩ | ⟨apart, before⟩
  · exact later
  have other : label ≠ task.label := by
    intro same
    have first : (pool.tasks.map Task.label)[turn]? = some label := by
      rw [List.getElem?_map, found]
      rfl
    have second : (pool.tasks.map Task.label)[place]? = some label := by
      rw [List.getElem?_map, before, same]
      rfl
    have bound := (List.getElem?_eq_some_iff.mp second).1
    exact apart ((List.getElem?_inj bound distinct).mp (second.trans first.symm))
  have relied := compatible label task.label _ _ (List.mem_map_of_mem member)
    (List.mem_map_of_mem (List.mem_of_getElem? before)) other guaranteed
  exact (safe task (List.mem_of_getElem? before)).stable (trans task.label)
    (kept task.label) relied

end Rule

end Pool

end VisaService.Lib
