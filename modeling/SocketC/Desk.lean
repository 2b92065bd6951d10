/-
This file is the library of service desks. A desk has a set of open resources, and
workers who serve one of them at a time: a resource is accepted, one worker begins to
serve it, and the same worker closes it. A scheduler is any machine whose steps do
one of these things to a desk, or nothing that the desk shows; what is proved about
desks then holds for every scheduler: a resource is served by one worker at most, and
only as long as it is open.
-/

import SocketC.Transition

namespace SocketC

/-- The open resources, and what each worker is serving. -/
structure Desk (Worker Resource : Type) where
  opened : Finset Resource
  serving : Worker → Option Resource

/-- What a step of a scheduler does to the desk. -/
inductive DeskEvent (Worker Resource : Type) where
  | accept (resource : Resource)
  | begin (worker : Worker)
  | close (worker : Worker)
  | internal
  /-- The end of the whole system. -/
  | exit
  deriving DecidableEq

namespace Desk

variable {Worker Resource : Type}

/-- What is served is open, and served by one worker. -/
structure Orderly (desk : Desk Worker Resource) : Prop where
  isOpen : ∀ worker resource, desk.serving worker = some resource → resource ∈ desk.opened
  single : ∀ worker other resource, desk.serving worker = some resource →
    desk.serving other = some resource → worker = other

variable [DecidableEq Worker]

/-- If what a worker serves is read off its state, a change of one state changes one entry. -/
theorem serving_update {State : Type} (serves : State → Option Resource) (states : Worker → State)
    (worker : Worker) (state : State) :
    (fun other => serves (Function.update states worker state other)) =
      Function.update (fun other => serves (states other)) worker (serves state) := by
  funext other
  by_cases same : other = worker
  · rw [same, Function.update_self, Function.update_self]
  · rw [Function.update_of_ne same, Function.update_of_ne same]

theorem Orderly.begin {desk : Desk Worker Resource} (orderly : desk.Orderly) {worker : Worker}
    {resource : Resource} (isOpen : resource ∈ desk.opened)
    (unserved : ∀ other, desk.serving other ≠ some resource) :
    ({ desk with serving := Function.update desk.serving worker (some resource) } :
      Desk Worker Resource).Orderly := by
  constructor
  · intro index served found
    by_cases same : index = worker
    · simp only [same, Function.update_self, Option.some.injEq] at found
      exact found ▸ isOpen
    · simp only [Function.update_of_ne same] at found
      exact orderly.isOpen index served found
  · intro index other served found foundOther
    by_cases first : index = worker <;> by_cases second : other = worker
    · rw [first, second]
    · simp only [first, Function.update_self, Option.some.injEq] at found
      simp only [Function.update_of_ne second, ← found] at foundOther
      exact absurd foundOther (unserved other)
    · simp only [second, Function.update_self, Option.some.injEq] at foundOther
      simp only [Function.update_of_ne first, ← foundOther] at found
      exact absurd found (unserved index)
    · simp only [Function.update_of_ne first] at found
      simp only [Function.update_of_ne second] at foundOther
      exact orderly.single index other served found foundOther

variable [DecidableEq Resource]

theorem Orderly.close {desk : Desk Worker Resource} (orderly : desk.Orderly) {worker : Worker}
    {resource : Resource} (here : desk.serving worker = some resource) :
    ({ opened := desk.opened.erase resource
       serving := Function.update desk.serving worker none } : Desk Worker Resource).Orderly := by
  have others {index : Worker} {served : Resource}
      (found : Function.update desk.serving worker none index = some served) :
      index ≠ worker ∧ desk.serving index = some served := by
    by_cases same : index = worker
    · rw [same, Function.update_self] at found
      cases found
    · rw [Function.update_of_ne same] at found
      exact ⟨same, found⟩
  constructor
  · intro index served found
    obtain ⟨different, before⟩ := others found
    refine Finset.mem_erase.mpr ⟨?_, orderly.isOpen index served before⟩
    rintro rfl
    exact different (orderly.single index worker served before here)
  · intro index other served found foundOther
    exact orderly.single index other served (others found).2 (others foundOther).2

/-- The desk before and after an event. -/
inductive Moves (desk : Desk Worker Resource) :
    DeskEvent Worker Resource → Desk Worker Resource → Prop where
  | accept (resource : Resource) (new : resource ∉ desk.opened) :
      Moves desk (.accept resource) { desk with opened := insert resource desk.opened }
  | begin (worker : Worker) (resource : Resource) (free : desk.serving worker = none)
      (isOpen : resource ∈ desk.opened) (unserved : ∀ other, desk.serving other ≠ some resource) :
      Moves desk (.begin worker)
        { desk with serving := Function.update desk.serving worker (some resource) }
  | close (worker : Worker) (resource : Resource) (here : desk.serving worker = some resource) :
      Moves desk (.close worker)
        { opened := desk.opened.erase resource
          serving := Function.update desk.serving worker none }
  | internal : Moves desk .internal desk
  | exit : Moves desk .exit desk

/-! ### What an event says about the desk after it -/

section Events

variable {desk next : Desk Worker Resource} {resource : Resource} {worker : Worker}

theorem Moves.of_accept (moves : Moves desk (.accept resource) next) :
    resource ∉ desk.opened ∧ next.opened = insert resource desk.opened ∧
      next.serving = desk.serving := by
  cases moves with
  | accept _ new => exact ⟨new, rfl, rfl⟩

theorem Moves.of_begin (moves : Moves desk (.begin worker) next) : ∃ resource,
    desk.serving worker = none ∧ (∀ other, desk.serving other ≠ some resource) ∧
      next.opened = desk.opened ∧
      next.serving = Function.update desk.serving worker (some resource) := by
  cases moves with
  | begin _ resource free _ unserved => exact ⟨resource, free, unserved, rfl, rfl⟩

theorem Moves.of_close (moves : Moves desk (.close worker) next) : ∃ resource,
    desk.serving worker = some resource ∧ next.opened = desk.opened.erase resource ∧
      next.serving = Function.update desk.serving worker none := by
  cases moves with
  | close _ resource here => exact ⟨resource, here, rfl, rfl⟩

theorem Moves.of_internal (moves : Moves desk .internal next) : next = desk := by
  cases moves with
  | internal => rfl

theorem Moves.of_exit (moves : Moves desk .exit next) : next = desk := by
  cases moves with
  | exit => rfl

end Events

theorem Orderly.moves {desk next : Desk Worker Resource} {event : DeskEvent Worker Resource}
    (orderly : desk.Orderly) (moves : Moves desk event next) : next.Orderly := by
  cases moves with
  | accept resource new =>
    exact ⟨fun worker served found => Finset.mem_insert_of_mem (orderly.isOpen worker served found),
      orderly.single⟩
  | begin worker resource free isOpen unserved => exact orderly.begin isOpen unserved
  | close worker resource here => exact orderly.close here
  | internal | exit => exact orderly

end Desk

/-- A machine that does the work of a desk. `awaits` says that it waits for a resource to accept. -/
structure Scheduler (Worker Resource : Type) [DecidableEq Worker] [DecidableEq Resource] where
  State : Type
  Action : Type
  machine : Machine State Action
  view : State → Desk Worker Resource
  event : State → Action → DeskEvent Worker Resource
  awaits : State → Bool
  starts : ∀ worker, (view machine.start).serving worker = none
  refines : ∀ state action next, machine.Reachable state → machine.step state action = some next →
    Desk.Moves (view state) (event state action) (view next)

namespace Scheduler

variable {Worker Resource : Type} [DecidableEq Worker] [DecidableEq Resource]

theorem orderly_of_reachable (scheduler : Scheduler Worker Resource) {state : scheduler.State}
    (reached : scheduler.machine.Reachable state) : (scheduler.view state).Orderly := by
  refine reached.induction (fun state => (scheduler.view state).Orderly) ?_
    fun current action next before orderly taken =>
      orderly.moves (scheduler.refines current action next before taken)
  constructor
  · intro worker resource found
    rw [scheduler.starts] at found
    cases found
  · intro worker other resource found
    rw [scheduler.starts] at found
    cases found

end Scheduler

end SocketC
