import Mathlib.Logic.Relation

/-!
# Runs of a transition system

A system is given by a partial step function: `step state action` is `none`
where the action is not enabled.  A run takes any finite number of steps, in
any order, and `Runs` additionally asks every action to be allowed in the
state in which it is taken.  Everything about a system's reachable states is
proved with `Runs.invariant`.
-/

namespace Bacs.Foundation

variable {State Action : Type}

def StepsTo (step : State → Action → Option State)
    (allowed : State → Action → Prop) (before after : State) : Prop :=
  ∃ action, allowed before action ∧ step before action = some after

/-- Any number of steps, each by an action that is allowed where it is taken. -/
def Runs (step : State → Action → Option State)
    (allowed : State → Action → Prop) : State → State → Prop :=
  Relation.ReflTransGen (StepsTo step allowed)

/-- Execute a list of actions; `none` if one of them is not enabled. -/
def execute (step : State → Action → Option State) :
    State → List Action → Option State
  | state, [] => some state
  | state, action :: rest =>
      (step state action).bind fun next => execute step next rest

/-- Execute a list of actions as long as each is allowed where it is taken. -/
def executeWhile (step : State → Action → Option State)
    (allowed : State → Action → Prop)
    [∀ state action, Decidable (allowed state action)] :
    State → List Action → Option State
  | state, [] => some state
  | state, action :: rest =>
      if allowed state action then
        (step state action).bind fun next =>
          executeWhile step allowed next rest
      else none

namespace Runs

variable {step : State → Action → Option State}
  {allowed allowed' : State → Action → Prop}

theorem refl (state : State) : Runs step allowed state state :=
  Relation.ReflTransGen.refl

theorem single {before after : State} {action : Action}
    (permitted : allowed before action)
    (taken : step before action = some after) :
    Runs step allowed before after :=
  Relation.ReflTransGen.single ⟨action, permitted, taken⟩

theorem trans {first second third : State}
    (before : Runs step allowed first second)
    (after : Runs step allowed second third) :
    Runs step allowed first third :=
  Relation.ReflTransGen.trans before after

/-- What holds at the start of a run and is preserved by every allowed step
holds in every state reached. -/
theorem invariant {holds : State → Prop} {start final : State}
    (run : Runs step allowed start final) (initially : holds start)
    (preserved : ∀ before action after, holds before →
      allowed before action → step before action = some after →
        holds after) :
    holds final := by
  induction run with
  | refl => exact initially
  | tail _ last induction =>
      obtain ⟨action, permitted, taken⟩ := last
      exact preserved _ action _ induction permitted taken

theorem mono {start final : State}
    (run : Runs step allowed start final)
    (weaker : ∀ state action, allowed state action → allowed' state action) :
    Runs step allowed' start final := by
  induction run with
  | refl => exact refl _
  | tail _ last induction =>
      obtain ⟨action, permitted, taken⟩ := last
      exact trans induction (single (weaker _ action permitted) taken)

/-- What is seen of every step of a run makes a run of its own. -/
theorem map {Seen : Type} (seenStep : Seen → Action → Option Seen)
    (seen : State → Seen) {start final : State}
    (run : Runs step allowed start final)
    (sees : ∀ before action after, step before action = some after →
      seenStep (seen before) action = some (seen after)) :
    Runs seenStep (fun _ _ => True) (seen start) (seen final) := by
  induction run with
  | refl => exact refl _
  | tail _ last induction =>
      obtain ⟨action, _, taken⟩ := last
      exact trans induction (single trivial (sees _ action _ taken))

/-- Executing a list of actions is a run when all actions are allowed
everywhere. -/
theorem of_execute {actions : List Action} {start final : State}
    (permitted : ∀ state, ∀ action ∈ actions, allowed state action)
    (executed : execute step start actions = some final) :
    Runs step allowed start final := by
  induction actions generalizing start with
  | nil =>
      simp only [execute, Option.some.injEq] at executed
      subst final
      exact refl start
  | cons action rest induction =>
      simp only [execute, Option.bind_eq_some_iff] at executed
      obtain ⟨next, taken, remaining⟩ := executed
      have head : Runs step allowed start next :=
        single (permitted start action List.mem_cons_self) taken
      exact trans head (induction
        (fun state other member =>
          permitted state other (List.mem_cons_of_mem _ member)) remaining)

theorem of_executeWhile
    [∀ state action, Decidable (allowed state action)]
    {actions : List Action} {start final : State}
    (executed : executeWhile step allowed start actions = some final) :
    Runs step allowed start final := by
  induction actions generalizing start with
  | nil =>
      simp only [executeWhile, Option.some.injEq] at executed
      subst final
      exact refl start
  | cons action rest induction =>
      simp only [executeWhile] at executed
      split at executed
      · rename_i permitted
        obtain ⟨next, taken, remaining⟩ :=
          Option.bind_eq_some_iff.mp executed
        exact trans (single permitted taken) (induction remaining)
      · cases executed

end Runs

end Bacs.Foundation
