import VisaService.Lib.Pool
import VisaService.Lib.Run

/-!
# Requests under way

Each request to a service is served by a program over single commands of a shared store. The
commands of the programs are executed one at a time in any order; the outcome of a command is
chosen with it.

`step_staged` is the rule for reasoning about such a service: when the points a program can be
at are named (`Stage`) and each command leads from one such point to another, the whole desk
is at a list of stages before and after every step.
-/
namespace VisaService.Lib

variable {Request Outcome : Type} {Call : Type → Type} {Err α S : Type}

/-- A request and what is left of the program that serves it. -/
structure Client (Request : Type) (Call : Type → Type) (Err α : Type) where
  request : Request
  rest : Prog Call Err α

structure Desk (Request : Type) (Call : Type → Type) (Err α S : Type) where
  store : S
  clients : List (Client Request Call Err α)

namespace Desk

variable (exec : Outcome → ∀ {β : Type}, Call β → S → β × S)

def start (prog : Request → Prog Call Err α) (store : S) (requests : List Request) :
    Desk Request Call Err α S :=
  { store, clients := requests.map fun request => ⟨request, prog request⟩ }

def step (desk : Desk Request Call Err α S) : Nat × Outcome → Option (Desk Request Call Err α S)
  | (turn, outcome) =>
    match desk.clients[turn]? with
    | some ⟨request, .call c next⟩ =>
      some
        { store := (exec outcome c desk.store).2
          clients := desk.clients.set turn ⟨request, next (exec outcome c desk.store).1⟩ }
    | _ => none

variable {exec}

theorem step_cases {desk next : Desk Request Call Err α S} {turn : Nat} {outcome : Outcome}
    (stepped : step exec desk (turn, outcome) = some next) :
    ∃ (request : Request) (β : Type) (c : Call β) (rest : β → Prog Call Err α),
      desk.clients[turn]? = some ⟨request, .call c rest⟩ ∧
      next.store = (exec outcome c desk.store).2 ∧
      next.clients = desk.clients.set turn ⟨request, rest (exec outcome c desk.store).1⟩ := by
  simp only [step] at stepped
  split at stepped
  next request β c rest found =>
    cases stepped
    exact ⟨request, β, c, rest, found, rfl, rfl⟩
  · cases stepped

theorem get_set {Item : Type} {items : List Item} {turn place : Nat} {after item : Item}
    (isItem : (items.set turn after)[place]? = some item) :
    place = turn ∧ item = after ∨ place ≠ turn ∧ items[place]? = some item := by
  by_cases own : place = turn
  · subst own
    rw [List.getElem?_set_self'] at isItem
    obtain ⟨old, -, isAfter⟩ := Option.map_eq_some_iff.mp isItem
    exact .inl ⟨rfl, isAfter.symm⟩
  · rw [List.getElem?_set_ne (Ne.symm own)] at isItem
    exact .inr ⟨own, isItem⟩

/-! ### Stages -/

section Staged

variable {Stage : Type} (client : Stage → Client Request Call Err α)

def Staged (desk : Desk Request Call Err α S) (stages : List Stage) : Prop :=
  desk.clients = stages.map client

variable {client}

theorem Staged.get {desk : Desk Request Call Err α S} {stages : List Stage} {place : Nat}
    {found : Client Request Call Err α} (staged : desk.Staged client stages)
    (isClient : desk.clients[place]? = some found) :
    ∃ stage, stages[place]? = some stage ∧ client stage = found := by
  unfold Staged at staged
  rw [staged, List.getElem?_map, Option.map_eq_some_iff] at isClient
  exact isClient

/-- If every command leads from a stage to a stage within `moves`, so does every step of the
desk. -/
theorem step_staged (moves : S → Stage → S → Stage → Prop)
    (advances : ∀ (outcome : Outcome) (store : S) (stage : Stage) (β : Type) (c : Call β)
      (rest : β → Prog Call Err α), (client stage).rest = .call c rest →
      ∃ after, client after = ⟨(client stage).request, rest (exec outcome c store).1⟩ ∧
        moves store stage (exec outcome c store).2 after)
    {desk next : Desk Request Call Err α S} {stages : List Stage} {turn : Nat} {outcome : Outcome}
    (staged : desk.Staged client stages) (stepped : step exec desk (turn, outcome) = some next) :
    ∃ before after, stages[turn]? = some before ∧ moves desk.store before next.store after ∧
      next.Staged client (stages.set turn after) := by
  obtain ⟨request, β, c, rest, found, isStore, isClients⟩ := step_cases stepped
  obtain ⟨before, isBefore, isClient⟩ := staged.get found
  obtain ⟨after, isAfter, moved⟩ := advances outcome desk.store before β c rest (by rw [isClient])
  rw [isClient] at isAfter
  refine ⟨before, after, isBefore, isStore ▸ moved, ?_⟩
  unfold Staged at staged ⊢
  rw [isClients, staged, List.map_set, isAfter]

end Staged

end Desk

end VisaService.Lib
