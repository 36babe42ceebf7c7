import Mathlib.Logic.Basic

/-!
# Programs over atomic calls

A program makes calls to a shared store, one after the other, and ends with a value or a
failure. `run` executes it alone; its lemmas follow the constructors of programs.
-/
namespace VisaService.Lib

inductive Prog (Call : Type → Type) (Err α : Type) : Type 1
  | ret (value : α)
  | fail (failure : Err)
  | call {β : Type} (call : Call β) (next : β → Prog Call Err α)

namespace Prog

variable {Call : Type → Type} {Err α β γ S : Type}

def bind : Prog Call Err α → (α → Prog Call Err β) → Prog Call Err β
  | ret value, rest => rest value
  | fail failure, _ => fail failure
  | call c next, rest => call c fun reply => (next reply).bind rest

instance : Monad (Prog Call Err) where
  pure := ret
  bind := bind

def lift (c : Call β) : Prog Call Err β := call c ret

def each : List γ → (γ → Prog Call Err Unit) → Prog Call Err Unit
  | [], _ => ret ()
  | item :: rest, body => body item >>= fun _ => each rest body

/-- Continue with the handler where the program fails. -/
def recover : Prog Call Err α → (Err → Prog Call Err α) → Prog Call Err α
  | ret value, _ => ret value
  | fail failure, handler => handler failure
  | call c next, handler => call c fun reply => (next reply).recover handler

def attempt : Prog Call Err α → Prog Call Err (Except Err α)
  | ret value => ret (.ok value)
  | fail failure => ret (.error failure)
  | call c next => call c fun reply => (next reply).attempt

@[simp] theorem ret_bind (value : α) (rest : α → Prog Call Err β) :
    (ret value >>= rest) = rest value := rfl

@[simp] theorem fail_bind (failure : Err) (rest : α → Prog Call Err β) :
    (fail failure >>= rest) = fail failure := rfl

@[simp] theorem call_bind (c : Call γ) (next : γ → Prog Call Err α)
    (rest : α → Prog Call Err β) :
    (call c next >>= rest) = call c fun reply => next reply >>= rest := rfl

@[simp] theorem lift_bind (c : Call α) (rest : α → Prog Call Err β) :
    (lift c >>= rest) = call c rest := rfl

@[simp] theorem pure_eq_ret (value : α) : (pure value : Prog Call Err α) = ret value := rfl

variable (exec : ∀ {β : Type}, Call β → S → β × S)

/-! ### One program alone -/

/-- Execute the program without interruption. -/
def run : Prog Call Err α → S → Except Err α × S
  | ret value, store => (.ok value, store)
  | fail failure, store => (.error failure, store)
  | call c next, store => run (next (exec c store).1) (exec c store).2

@[simp] theorem run_ret (value : α) (store : S) :
    run exec (ret value : Prog Call Err α) store = (.ok value, store) := rfl

@[simp] theorem run_fail (failure : Err) (store : S) :
    run exec (fail failure : Prog Call Err α) store = (.error failure, store) := rfl

@[simp] theorem run_call (c : Call β) (next : β → Prog Call Err α) (store : S) :
    run exec (call c next) store = run exec (next (exec c store).1) (exec c store).2 := rfl

@[simp] theorem run_lift (c : Call β) (store : S) :
    run exec (lift c : Prog Call Err β) store = (.ok (exec c store).1, (exec c store).2) := rfl

theorem run_bind (prog : Prog Call Err α) (rest : α → Prog Call Err β) (store : S) :
    run exec (prog >>= rest) store =
      match run exec prog store with
      | (.ok value, store) => run exec (rest value) store
      | (.error failure, store) => (.error failure, store) := by
  induction prog generalizing store with
  | ret value => rfl
  | fail failure => rfl
  | call c next ih => exact ih _ _

variable {after store : S} {prog : Prog Call Err α}

variable {rest : α → Prog Call Err β} {value : α} {failure : Err} {handler : Err → Prog Call Err α}

theorem run_bind_of_ok (ran : run exec prog store = (.ok value, after)) :
    run exec (prog >>= rest) store = run exec (rest value) after := by
  rw [run_bind, ran]

theorem run_bind_of_error (ran : run exec prog store = (.error failure, after)) :
    run exec (prog >>= rest) store = (.error failure, after) := by
  rw [run_bind, ran]

theorem run_lift_bind (c : Call β) {rest : β → Prog Call Err α} {reply : β}
    (replies : exec c store = (reply, after)) :
    run exec (lift c >>= rest) store = run exec (rest reply) after := by
  rw [lift_bind, run_call, replies]

theorem run_attempt (prog : Prog Call Err α) (store : S) :
    run exec prog.attempt store = (.ok (run exec prog store).1, (run exec prog store).2) := by
  induction prog generalizing store with
  | ret value => rfl
  | fail failure => rfl
  | call c next ih => exact ih _ _

theorem run_recover (prog : Prog Call Err α) (handler : Err → Prog Call Err α) (store : S) :
    run exec (prog.recover handler) store =
      match run exec prog store with
      | (.ok value, store) => (.ok value, store)
      | (.error failure, store) => run exec (handler failure) store := by
  induction prog generalizing store with
  | ret value => rfl
  | fail failure => rfl
  | call c next ih => exact ih _ _

theorem run_recover_of_ok (ran : run exec prog store = (.ok value, after)) :
    run exec (prog.recover handler) store = (.ok value, after) := by
  rw [run_recover, ran]

theorem run_recover_of_error (ran : run exec prog store = (.error failure, after)) :
    run exec (prog.recover handler) store = run exec (handler failure) after := by
  rw [run_recover, ran]

/-- A loop whose body is a store transformer is the fold of it. -/
theorem run_each {body : γ → Prog Call Err Unit} {effect : S → γ → S}
    (runs : ∀ item store, run exec (body item) store = (.ok (), effect store item))
    (items : List γ) (store : S) :
    run exec (each items body) store = (.ok (), items.foldl effect store) := by
  induction items generalizing store with
  | nil => rfl
  | cons item rest ih =>
    rw [each, run_bind_of_ok exec (runs item store), ih]
    rfl

/-! ### Which calls a program makes -/

/-- Every call the program may make satisfies `ok`. -/
def Makes (ok : ∀ {β : Type}, Call β → Prop) : Prog Call Err α → Prop
  | ret _ => True
  | fail _ => True
  | call c next => ok c ∧ ∀ reply, Makes ok (next reply)

section Makes

variable {ok : ∀ {β : Type}, Call β → Prop}

variable {rest : α → Prog Call Err β}

theorem makes_bind {prog : Prog Call Err α} (first : Makes ok prog)
    (others : ∀ value, Makes ok (rest value)) :
    Makes ok (prog >>= rest) := by
  induction prog with
  | ret value => exact others value
  | fail failure => trivial
  | call c next ih => exact ⟨first.1, fun reply => ih reply (first.2 reply)⟩

theorem makes_lift_bind {c : Call α} (first : ok c) (others : ∀ reply, Makes ok (rest reply)) :
    Makes ok ((lift c : Prog Call Err α) >>= rest) := ⟨first, others⟩

theorem makes_each {body : γ → Prog Call Err Unit} (makes : ∀ item, Makes ok (body item))
    (items : List γ) : Makes ok (each items body) := by
  induction items with
  | nil => trivial
  | cons item rest ih => exact makes_bind (makes item) fun _ => ih

omit exec in
theorem makes_imp {stronger : ∀ {β : Type}, Call β → Prop}
    (implies : ∀ {β : Type} (c : Call β), stronger c → ok c) {prog : Prog Call Err α}
    (makes : Makes stronger prog) : Makes ok prog := by
  induction prog with
  | ret value => trivial
  | fail failure => trivial
  | call c next ih => exact ⟨implies c makes.1, fun reply => ih reply (makes.2 reply)⟩

end Makes

/-- As long as the replies are honest, the program makes allowed calls only, and the value it
ends with satisfies `post`. -/
def Obeys (allowed : ∀ {β : Type}, Call β → Prop) (honest : ∀ {β : Type}, Call β → β → Prop)
    (post : α → Prop) : Prog Call Err α → Prop
  | ret value => post value
  | fail _ => True
  | call c next => allowed c ∧ ∀ reply, honest c reply → Obeys allowed honest post (next reply)

section Obeys

variable {allowed : ∀ {β : Type}, Call β → Prop} {honest : ∀ {β : Type}, Call β → β → Prop}

variable {post : β → Prop} {rest : α → Prog Call Err β}

theorem obeys_bind {first : α → Prop} {prog : Prog Call Err α}
    (obeys : Obeys allowed honest first prog)
    (others : ∀ value, first value → Obeys allowed honest post (rest value)) :
    Obeys allowed honest post (prog >>= rest) := by
  induction prog with
  | ret value => exact others value obeys
  | fail failure => trivial
  | call c next ih =>
    exact ⟨obeys.1, fun reply isHonest => ih reply (obeys.2 reply isHonest)⟩

theorem obeys_lift_bind {c : Call α} (may : allowed c)
    (others : ∀ reply, honest c reply → Obeys allowed honest post (rest reply)) :
    Obeys allowed honest post ((lift c : Prog Call Err α) >>= rest) := ⟨may, others⟩

omit exec in
theorem obeys_of_makes {prog : Prog Call Err α} (makes : Makes allowed prog) :
    Obeys allowed honest (fun _ => True) prog := by
  induction prog with
  | ret value => trivial
  | fail failure => trivial
  | call c next ih => exact ⟨makes.1, fun reply _ => ih reply (makes.2 reply)⟩

end Obeys

/-- The program has no failure of its own. -/
def Total : Prog Call Err α → Prop
  | ret _ => True
  | fail _ => False
  | call _ next => ∀ reply, Total (next reply)

section Total

theorem total_bind {prog : Prog Call Err α} {rest : α → Prog Call Err β} (first : Total prog)
    (others : ∀ value, Total (rest value)) : Total (prog >>= rest) := by
  induction prog with
  | ret value => exact others value
  | fail failure => exact first.elim
  | call c next ih => exact fun reply => ih reply (first reply)

theorem total_each {body : γ → Prog Call Err Unit} (total : ∀ item, Total (body item))
    (items : List γ) : Total (each items body) := by
  induction items with
  | nil => trivial
  | cons item rest ih => exact total_bind (total item) fun _ => ih

theorem recover_of_total {prog : Prog Call Err α} (total : Total prog)
    (handler : Err → Prog Call Err α) : prog.recover handler = prog := by
  induction prog with
  | ret value => rfl
  | fail failure => exact total.elim
  | call c next ih =>
    unfold recover
    congr 1
    exact funext fun reply => ih reply (total reply)

end Total

end Prog

end VisaService.Lib
