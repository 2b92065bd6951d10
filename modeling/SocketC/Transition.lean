/-
This file is the transition-system library. A machine is a start state and a
partial step function; every choice the environment makes -- which thread runs
next, which descriptor the kernel hands out, which sleeper a signal wakes -- is
part of the action, so "for every interleaving" reads "for every list of
actions". Reachability is defined by runs, and the rules the developments use are
the invariant rule, alone, on top of invariants already known or together with the
actions taken so far, and the composition of runs. A machine can be restricted to the
runs whose steps all meet a condition.
-/

import Mathlib.Tactic

namespace SocketC

/-- A start state and a step function; `none` says that the action is not enabled. -/
structure Machine (State Action : Type) where
  start : State
  step : State → Action → Option State

namespace Machine

variable {State Action : Type} (machine : Machine State Action)

/-- The state after a list of actions, if every one of them is enabled in its turn. -/
def run : State → List Action → Option State
  | state, [] => some state
  | state, action :: rest => (machine.step state action).bind fun next => run next rest

@[simp] theorem run_nil (state : State) : machine.run state [] = some state := rfl

@[simp] theorem run_cons (state : State) (action : Action) (rest : List Action) :
    machine.run state (action :: rest) =
      (machine.step state action).bind fun next => machine.run next rest := rfl

theorem run_append (state : State) (first second : List Action) :
    machine.run state (first ++ second) =
      (machine.run state first).bind fun next => machine.run next second := by
  induction first generalizing state with
  | nil => rfl
  | cons action rest inductionHypothesis =>
    rw [List.cons_append, run_cons, run_cons, Option.bind_assoc]
    exact congrArg _ (funext inductionHypothesis)

/-- One state leads to another when some run joins them. -/
def Leads (first second : State) : Prop := ∃ actions, machine.run first actions = some second

/-- A state is reachable when the start state leads to it. -/
def Reachable (state : State) : Prop := machine.Leads machine.start state

variable {machine}

theorem Leads.refl (state : State) : machine.Leads state state := ⟨[], rfl⟩

theorem Leads.trans {first second third : State} (front : machine.Leads first second)
    (back : machine.Leads second third) : machine.Leads first third := by
  obtain ⟨frontActions, frontRun⟩ := front
  obtain ⟨backActions, backRun⟩ := back
  refine ⟨frontActions ++ backActions, ?_⟩
  rw [run_append, frontRun]
  exact backRun

theorem Leads.of_step {state next : State} (action : Action)
    (taken : machine.step state action = some next) : machine.Leads state next :=
  ⟨[action], by rw [run_cons, taken]; rfl⟩

theorem Leads.step {first second third : State} (front : machine.Leads first second)
    (action : Action) (taken : machine.step second action = some third) :
    machine.Leads first third :=
  front.trans (.of_step action taken)

theorem Reachable.start : machine.Reachable machine.start := Leads.refl _

theorem Reachable.leads {state next : State} (reached : machine.Reachable state)
    (onward : machine.Leads state next) : machine.Reachable next :=
  Leads.trans reached onward

/-- The invariant rule: what holds at a state and survives every step holds in every state
the first one leads to. -/
theorem Leads.invariant {first state : State} (leads : machine.Leads first state)
    (Holds : State → Prop) (initial : Holds first)
    (preserved : ∀ current action next, Holds current →
      machine.step current action = some next → Holds next) :
    Holds state := by
  obtain ⟨actions, ran⟩ := leads
  -- Induction on the run, the first state generalised: one step, then the rest of the run.
  induction actions generalizing first with
  | nil => exact Option.some.inj ran ▸ initial
  | cons action rest inductionHypothesis =>
    rw [run_cons] at ran
    obtain ⟨next, taken, ranRest⟩ := Option.bind_eq_some_iff.mp ran
    exact inductionHypothesis (preserved first action next initial taken) ranRest

theorem Reachable.invariant {state : State} (reached : machine.Reachable state)
    (Holds : State → Prop) (initial : Holds machine.start)
    (preserved : ∀ current action next, Holds current →
      machine.step current action = some next → Holds next) :
    Holds state :=
  Leads.invariant reached Holds initial preserved

/-- The invariant rule with what is already known of the reachable states. -/
theorem Reachable.induction {state : State} (reached : machine.Reachable state)
    (Holds : State → Prop) (initial : Holds machine.start)
    (preserved : ∀ current action next, machine.Reachable current → Holds current →
      machine.step current action = some next → Holds next) :
    Holds state := by
  have both : machine.Reachable state ∧ Holds state := by
    refine reached.invariant (fun state => machine.Reachable state ∧ Holds state)
      ⟨Reachable.start, initial⟩ fun current action next before taken => ?_
    exact ⟨Leads.step before.1 action taken, preserved current action next before.1 before.2 taken⟩
  exact both.2

/-- The invariant rule for what is said of a state and the actions that led to it. -/
theorem run_induction (Holds : List Action → State → Prop) (initial : Holds [] machine.start)
    (preserved : ∀ actions current action next, Holds actions current →
      machine.step current action = some next → Holds (actions ++ [action]) next)
    {actions : List Action} {state : State} (ran : machine.run machine.start actions = some state) :
    Holds actions state := by
  -- Induction on the actions, the last one taken off.
  induction actions using List.reverseRecOn generalizing state with
  | nil => exact Option.some.inj ran ▸ initial
  | append_singleton actions action inductionHypothesis =>
    rw [run_append] at ran
    obtain ⟨current, ranBefore, last⟩ := Option.bind_eq_some_iff.mp ran
    rw [run_cons] at last
    obtain ⟨next, taken, done⟩ := Option.bind_eq_some_iff.mp last
    obtain rfl := Option.some.inj done
    exact preserved actions current action next (inductionHypothesis ranBefore) taken

/-- A number that every step lowers bounds the runs. -/
theorem length_le_of_decreases (measure : State → Nat)
    (decreases : ∀ current action next, machine.step current action = some next →
      measure next < measure current)
    {actions : List Action} {first last : State} (ran : machine.run first actions = some last) :
    actions.length + measure last ≤ measure first := by
  induction actions generalizing first with
  | nil =>
    obtain rfl := Option.some.inj ran
    exact (Nat.zero_add _).le
  | cons action rest inductionHypothesis =>
    rw [run_cons] at ran
    obtain ⟨next, taken, ranRest⟩ := Option.bind_eq_some_iff.mp ran
    have bound := inductionHypothesis ranRest
    have lower := decreases first action next taken
    rw [List.length_cons]
    omega

/-- The machine whose runs are those in which every step meets a condition on its action and the
state before it. -/
def restrict (machine : Machine State Action) (Meets : State → Action → Prop)
    [∀ state action, Decidable (Meets state action)] : Machine State Action where
  start := machine.start
  step := fun state action => if Meets state action then machine.step state action else none

section Restrict

variable {Meets : State → Action → Prop} [∀ state action, Decidable (Meets state action)]

theorem restrict_step {state next : State} {action : Action}
    (taken : (machine.restrict Meets).step state action = some next) :
    Meets state action ∧ machine.step state action = some next :=
  Option.ite_none_right_eq_some.mp taken

theorem Reachable.of_restrict {state : State}
    (reached : (machine.restrict Meets).Reachable state) : machine.Reachable state :=
  reached.invariant machine.Reachable Reachable.start fun _ action _ before taken =>
    Leads.step before action (restrict_step taken).2

end Restrict

/-- The state after a list of actions that are all enabled. -/
def after (machine : Machine State Action) (actions : List Action) : State :=
  (machine.run machine.start actions).getD machine.start

theorem reachable_after (actions : List Action)
    (enabled : (machine.run machine.start actions).isSome) :
    machine.Reachable (machine.after actions) := by
  obtain ⟨state, ran⟩ := Option.isSome_iff_exists.mp enabled
  refine ⟨actions, ?_⟩
  rw [after, ran, Option.getD_some]

theorem run_eq_some_after (actions : List Action)
    (enabled : (machine.run machine.start actions).isSome) :
    machine.run machine.start actions = some (machine.after actions) := by
  obtain ⟨state, ran⟩ := Option.isSome_iff_exists.mp enabled
  rw [after, ran, Option.getD_some]

end Machine

end SocketC
