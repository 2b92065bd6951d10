/-
This file models the semaphores of `unpv22e/my_pxsem_mmap`: a counter, a mutex and a
condition variable in a mapped file. `mysem_wait` sleeps while the counter is zero, and
`mysem_post` signals only if it finds the counter at zero.

That test saves a signal when nobody can be asleep, and it loses one when two threads
are: two posts in a row send one signal, because the second post finds the counter
already raised. The first sleeper wakes and takes one of the two units; the second sleeps
on in front of the other. Two threads are not enough for that, since a thread that posts
has at most one other to wake.

The counter is an `unsigned int` that `mysem_post` increments without a check. A post on
the largest value makes it zero, and the units it stood for are gone.
-/

import SocketC.Transition
import SocketC.Monitor
import Mathlib.Data.UInt

namespace SocketC

open Monitor

/-- Where a thread stands: outside, asleep in `mysem_wait`, or woken there and not yet past
`sem_mutex` again. -/
inductive SemThread where
  | running
  | waits
  | woken
  deriving DecidableEq

/-- `mysem_t` with the threads that use it. `posts` and `passes` count the calls of `mysem_post`
and the successful returns of the two waiting functions. -/
structure Mysem (threads : Nat) where
  count : UInt32
  thread : Fin threads → SemThread
  posts : Nat
  passes : Nat

namespace Mysem

variable {threads : Nat}

/-- A new semaphore with its initial value. -/
def create (value : UInt32) (threads : Nat) : Mysem threads := ⟨value, fun _ => .running, 0, 0⟩

def setThread (sem : Mysem threads) (index : Fin threads) (place : SemThread) : Mysem threads :=
  { sem with thread := Function.update sem.thread index place }

/-- The loop of `mysem_wait` (lines 19-21), up to the next wait. -/
def enter (sem : Mysem threads) (index : Fin threads) : Mysem threads :=
  if sem.count = 0 then sem.setThread index .waits
  else { sem with count := sem.count - 1, passes := sem.passes + 1 }.setThread index .running

/-- `mysem_trywait`: `EAGAIN` changes nothing. -/
def trywait (sem : Mysem threads) : Mysem threads :=
  if 0 < sem.count then { sem with count := sem.count - 1, passes := sem.passes + 1 } else sem

/-- `mysem_post`; `woken` is whom the signal wakes. -/
def post (sem : Mysem threads) (woken : Finset (Fin threads)) : Option (Mysem threads) :=
  let raised := { sem with count := sem.count + 1, posts := sem.posts + 1 }
  if sem.count = 0 then
    if Wakes (fun index => sem.thread index = .waits) woken then
      some { raised with thread := fun index =>
        if index ∈ woken then .woken else sem.thread index }
    else none
  else if woken = ∅ then some raised else none

/-- A call by a thread, or the next event in a wait. -/
inductive Action (threads : Nat) where
  | wait (index : Fin threads)
  | trywait (index : Fin threads)
  | post (index : Fin threads) (woken : Finset (Fin threads))
  /-- A sleeper wakes without a signal. -/
  | wake (index : Fin threads)
  | resume (index : Fin threads)

def step (sem : Mysem threads) : Action threads → Option (Mysem threads)
  | .wait index => if sem.thread index = .running then some (sem.enter index) else none
  | .trywait index => if sem.thread index = .running then some sem.trywait else none
  | .post index woken => if sem.thread index = .running then sem.post woken else none
  | .wake index => if sem.thread index = .waits then some (sem.setThread index .woken) else none
  | .resume index => if sem.thread index = .woken then some (sem.enter index) else none

/-- Any number of threads on a semaphore with any initial value. -/
def machine (value : UInt32) (threads : Nat) : Machine (Mysem threads) (Action threads) where
  start := create value threads
  step := step

/-! ### The counter -/

/-- Some units are in the counter, some are taken, and `2 ^ 32` are lost each time the counter
wraps. -/
def Conserved (value : UInt32) (sem : Mysem threads) : Prop :=
  ∃ wraps, sem.count.toNat + sem.passes + 2 ^ 32 * wraps = value.toNat + sem.posts

theorem toNat_raise (count : UInt32) :
    ∃ wrapped, (count + 1).toNat + 2 ^ 32 * wrapped = count.toNat + 1 := by
  refine ⟨(count.toNat + 1) / 2 ^ 32, ?_⟩
  rw [UInt32.toNat_add]
  exact Nat.mod_add_div _ _

theorem toNat_take {count : UInt32} (available : count ≠ 0) :
    (count - 1).toNat + 1 = count.toNat := by
  have positive : 0 < count.toNat := Nat.pos_of_ne_zero fun zero =>
    available (UInt32.toNat_inj.mp zero)
  have taken := UInt32.toNat_sub_of_le count 1 (UInt32.le_iff_toNat_le.mpr positive)
  have one : (1 : UInt32).toNat = 1 := rfl
  omega

theorem Conserved.take {value : UInt32} {sem : Mysem threads} (conserved : sem.Conserved value)
    (available : sem.count ≠ 0) :
    Conserved value { sem with count := sem.count - 1, passes := sem.passes + 1 } := by
  obtain ⟨wraps, balance⟩ := conserved
  have taken := toNat_take available
  exact ⟨wraps, by dsimp only; omega⟩

theorem Conserved.raise {value : UInt32} {sem : Mysem threads} (conserved : sem.Conserved value)
    (thread : Fin threads → SemThread) :
    Conserved value { sem with count := sem.count + 1, thread, posts := sem.posts + 1 } := by
  obtain ⟨wraps, balance⟩ := conserved
  obtain ⟨wrapped, raised⟩ := toNat_raise sem.count
  exact ⟨wraps + wrapped, by dsimp only; omega⟩

theorem Conserved.enter {value : UInt32} {sem : Mysem threads} (conserved : sem.Conserved value)
    (index : Fin threads) : (sem.enter index).Conserved value := by
  unfold Mysem.enter
  split
  · exact conserved
  · rename_i available
    exact conserved.take available

theorem Conserved.post {value : UInt32} {sem next : Mysem threads} (conserved : sem.Conserved value)
    {woken : Finset (Fin threads)} (posted : sem.post woken = some next) :
    next.Conserved value := by
  unfold Mysem.post at posted
  dsimp only at posted
  split at posted
  · obtain ⟨-, posted⟩ := Option.ite_none_right_eq_some.mp posted
    exact Option.some.inj posted ▸ conserved.raise _
  · obtain ⟨-, posted⟩ := Option.ite_none_right_eq_some.mp posted
    exact Option.some.inj posted ▸ conserved.raise _

theorem Conserved.step {value : UInt32} {sem next : Mysem threads} {action : Action threads}
    (conserved : sem.Conserved value) (taken : sem.step action = some next) :
    next.Conserved value := by
  cases action with
  | wait index | resume index =>
    obtain ⟨-, taken⟩ := Option.ite_none_right_eq_some.mp taken
    exact Option.some.inj taken ▸ conserved.enter index
  | trywait index =>
    obtain ⟨-, taken⟩ := Option.ite_none_right_eq_some.mp taken
    obtain rfl := Option.some.inj taken
    unfold trywait
    split
    · rename_i available
      exact conserved.take (UInt32.pos_iff_ne_zero.mp available)
    · exact conserved
  | post index woken =>
    obtain ⟨-, taken⟩ := Option.ite_none_right_eq_some.mp taken
    exact conserved.post taken
  | wake index =>
    obtain ⟨-, taken⟩ := Option.ite_none_right_eq_some.mp taken
    exact Option.some.inj taken ▸ conserved

theorem conserved_of_reachable {value : UInt32} {sem : Mysem threads}
    (reached : (machine value threads).Reachable sem) : sem.Conserved value :=
  reached.invariant (Conserved value) ⟨0, rfl⟩ fun _ _ _ conserved taken => conserved.step taken

/-- Fewer than `2 ^ 32` units are all accounted for. -/
theorem count_add_passes {value : UInt32} {sem : Mysem threads}
    (reached : (machine value threads).Reachable sem) (few : value.toNat + sem.posts < 2 ^ 32) :
    sem.count.toNat + sem.passes = value.toNat + sem.posts := by
  obtain ⟨wraps, balance⟩ := conserved_of_reachable reached
  omega

/-! ### Two threads -/

/-- The thread sleeps although there is something to take. -/
def Oversleeps (sem : Mysem threads) (index : Fin threads) : Prop :=
  sem.thread index = .waits ∧ 0 < sem.count

/-- A thread oversleeps, and none is on its way out of a wait. -/
def LeftAsleep (sem : Mysem threads) : Prop :=
  (∃ index, sem.Oversleeps index) ∧ ∀ index, sem.thread index ≠ .woken

theorem no_oversleep_enter {sem : Mysem threads} (timely : ∀ index, ¬ sem.Oversleeps index)
    (runs : Fin threads) : ∀ index, ¬ (sem.enter runs).Oversleeps index := by
  rintro index ⟨sleeps, positive⟩
  unfold enter at sleeps positive
  split at sleeps
  · rename_i zero
    rw [if_pos zero] at positive
    exact UInt32.pos_iff_ne_zero.mp positive zero
  · rename_i available
    simp only [setThread] at sleeps
    rcases eq_or_ne index runs with rfl | different
    · rw [Function.update_self] at sleeps
      cases sleeps
    · rw [Function.update_of_ne different] at sleeps
      exact timely index ⟨sleeps, UInt32.pos_iff_ne_zero.mpr available⟩

theorem no_oversleep_post (two : threads ≤ 2) {sem next : Mysem threads}
    (timely : ∀ index, ¬ sem.Oversleeps index) {runs : Fin threads}
    (running : sem.thread runs = .running) {woken : Finset (Fin threads)}
    (posted : sem.post woken = some next) : ∀ index, ¬ next.Oversleeps index := by
  have awake : ¬ sem.thread runs = .waits := by rw [running]; decide
  unfold post at posted
  dsimp only at posted
  split at posted
  · obtain ⟨wakes, posted⟩ := Option.ite_none_right_eq_some.mp posted
    obtain rfl := Option.some.inj posted
    rintro index ⟨sleeps, -⟩
    dsimp only at sleeps
    split at sleeps
    · cases sleeps
    · rename_i notWoken
      exact notWoken (wakes.mem_of_le_two two awake sleeps)
  · rename_i available
    obtain ⟨-, posted⟩ := Option.ite_none_right_eq_some.mp posted
    obtain rfl := Option.some.inj posted
    rintro index ⟨sleeps, -⟩
    exact timely index ⟨sleeps, UInt32.pos_iff_ne_zero.mpr available⟩

theorem no_oversleep_step (two : threads ≤ 2) {sem next : Mysem threads} {action : Action threads}
    (timely : ∀ index, ¬ sem.Oversleeps index) (taken : sem.step action = some next) :
    ∀ index, ¬ next.Oversleeps index := by
  cases action with
  | wait runs | resume runs =>
    obtain ⟨-, taken⟩ := Option.ite_none_right_eq_some.mp taken
    exact Option.some.inj taken ▸ no_oversleep_enter timely runs
  | trywait runs =>
    obtain ⟨-, taken⟩ := Option.ite_none_right_eq_some.mp taken
    obtain rfl := Option.some.inj taken
    rintro index ⟨sleeps, positive⟩
    unfold trywait at sleeps positive
    split at sleeps
    · rename_i available
      exact timely index ⟨sleeps, available⟩
    · rename_i none_left
      rw [if_neg none_left] at positive
      exact none_left positive
  | post runs woken =>
    obtain ⟨running, taken⟩ := Option.ite_none_right_eq_some.mp taken
    exact no_oversleep_post two timely running taken
  | wake runs =>
    obtain ⟨-, taken⟩ := Option.ite_none_right_eq_some.mp taken
    obtain rfl := Option.some.inj taken
    rintro index ⟨sleeps, positive⟩
    simp only [setThread] at sleeps
    rcases eq_or_ne index runs with rfl | different
    · rw [Function.update_self] at sleeps
      cases sleeps
    · rw [Function.update_of_ne different] at sleeps
      exact timely index ⟨sleeps, positive⟩

theorem no_oversleep_of_reachable (two : threads ≤ 2) {value : UInt32} {sem : Mysem threads}
    (reached : (machine value threads).Reachable sem) : ∀ index, ¬ sem.Oversleeps index :=
  reached.invariant (fun sem => ∀ index, ¬ sem.Oversleeps index)
    (fun _ sleeps => by cases sleeps.1) fun _ _ _ timely taken => no_oversleep_step two timely taken

/-! ### Three threads -/

section Scenes

variable (value : UInt32)

/-- Some state with the threads at these places and that counter is reached. -/
def Arises (thread : Fin threads → SemThread) (count : UInt32) : Prop :=
  ∃ sem : Mysem threads, (machine value threads).Reachable sem ∧ sem.thread = thread ∧
    sem.count = count

variable {value} {thread : Fin threads → SemThread} {count : UInt32}

theorem arises_of_step {sem next : Mysem threads} (reached : (machine value threads).Reachable sem)
    (action : Action threads) (taken : sem.step action = some next) :
    Arises value next.thread next.count :=
  ⟨next, Machine.Leads.step reached action taken, rfl, rfl⟩

theorem Arises.trywait (arises : Arises value thread count) (available : count ≠ 0)
    (index : Fin threads) (outside : thread index = .running) :
    Arises value thread (count - 1) := by
  obtain ⟨sem, reached, rfl, rfl⟩ := arises
  have taken : sem.step (.trywait index) =
      some { sem with count := sem.count - 1, passes := sem.passes + 1 } := by
    rw [step, if_pos outside, Mysem.trywait, if_pos (UInt32.pos_iff_ne_zero.mpr available)]
  exact arises_of_step reached _ taken

/-- A thread outside takes everything there is. -/
theorem arises_drained (value : UInt32) (index : Fin threads) :
    Arises value (fun _ : Fin threads => .running) 0 := by
  have drains : ∀ (left : Nat) (count : UInt32), count.toNat = left →
      Arises value (fun _ : Fin threads => SemThread.running) count →
      Arises value (fun _ : Fin threads => .running) 0 := by
    intro left
    induction left with
    | zero =>
      intro count empty arises
      obtain rfl : count = 0 := UInt32.toNat_inj.mp empty
      exact arises
    | succ left inductionHypothesis =>
      intro count held arises
      have available : count ≠ 0 := by
        rintro rfl
        cases held
      have taken := toNat_take available
      exact inductionHypothesis (count - 1) (by omega) (arises.trywait available index rfl)
  exact drains _ value rfl ⟨create value threads, Machine.Reachable.start, rfl, rfl⟩

theorem Arises.wait (arises : Arises value thread 0) (index : Fin threads)
    (outside : thread index = .running) :
    Arises value (Function.update thread index .waits) 0 := by
  obtain ⟨sem, reached, rfl, zero⟩ := arises
  have taken : sem.step (.wait index) = some (sem.setThread index .waits) := by
    rw [step, if_pos outside, enter, if_pos zero]
  exact zero ▸ arises_of_step reached _ taken

/-- A post that finds the counter at zero wakes one sleeper. -/
theorem Arises.post_signals (arises : Arises value thread 0) (index sleeper : Fin threads)
    (outside : thread index = .running) (sleeps : thread sleeper = .waits) :
    Arises value (Function.update thread sleeper .woken) 1 := by
  obtain ⟨sem, reached, rfl, zero⟩ := arises
  have wakes : Wakes (fun other => sem.thread other = .waits) {sleeper} :=
    ⟨fun _ member => Finset.mem_singleton.mp member ▸ sleeps, fun _ =>
      Finset.singleton_nonempty sleeper⟩
  have moved : (fun other => if other ∈ ({sleeper} : Finset (Fin threads)) then SemThread.woken
      else sem.thread other) = Function.update sem.thread sleeper .woken := by
    funext other
    rw [Function.update_apply]
    simp only [Finset.mem_singleton]
  have taken : sem.step (.post index {sleeper}) = some { sem with
      count := sem.count + 1, posts := sem.posts + 1,
      thread := Function.update sem.thread sleeper .woken } := by
    rw [step, if_pos outside, post, if_pos zero, if_pos wakes, moved]
  have after := arises_of_step reached _ taken
  rwa [zero, zero_add] at after

/-- A post that finds the counter raised wakes nobody. -/
theorem Arises.post_silent (arises : Arises value thread count) (raised : count ≠ 0)
    (index : Fin threads) (outside : thread index = .running) :
    Arises value thread (count + 1) := by
  obtain ⟨sem, reached, rfl, rfl⟩ := arises
  have taken : sem.step (.post index ∅) = some { sem with
      count := sem.count + 1, posts := sem.posts + 1 } := by
    rw [step, if_pos outside, post, if_neg raised, if_pos rfl]
  exact arises_of_step reached _ taken

theorem Arises.resume (arises : Arises value thread count) (available : count ≠ 0)
    (index : Fin threads) (woken : thread index = .woken) :
    Arises value (Function.update thread index .running) (count - 1) := by
  obtain ⟨sem, reached, rfl, rfl⟩ := arises
  have taken : sem.step (.resume index) = some ({ sem with
      count := sem.count - 1, passes := sem.passes + 1 }.setThread index .running) := by
    rw [step, if_pos woken, enter, if_neg available]
  exact arises_of_step reached _ taken

end Scenes

/-- With a third thread, a sleeper is left in front of a unit it could take. -/
theorem leftAsleep_of_three (value : UInt32) {first second third : Fin threads}
    (firstSecond : first ≠ second) (firstThird : first ≠ third) (secondThird : second ≠ third) :
    ∃ sem : Mysem threads, (machine value threads).Reachable sem ∧ sem.LeftAsleep := by
  have scene := arises_drained value first
  -- Two threads sleep, and the third posts twice.
  replace scene := scene.wait first rfl
  replace scene := scene.wait second (Function.update_of_ne firstSecond.symm _ _)
  replace scene := scene.post_signals third first
    (by rw [Function.update_of_ne secondThird.symm, Function.update_of_ne firstThird.symm])
    (by rw [Function.update_of_ne firstSecond, Function.update_self])
  replace scene := Arises.post_silent scene (by decide) third
    (by rw [Function.update_of_ne firstThird.symm, Function.update_of_ne secondThird.symm,
      Function.update_of_ne firstThird.symm])
  -- The first one is told and takes a unit; the second one is not.
  replace scene := Arises.resume scene (by decide) first (Function.update_self _ _ _)
  obtain ⟨sem, reached, threadsAre, count⟩ := scene
  refine ⟨sem, reached, ⟨second, ?_, count ▸ by decide⟩, fun index => ?_⟩
  · rw [threadsAre, Function.update_of_ne firstSecond.symm, Function.update_of_ne firstSecond.symm,
      Function.update_self]
  · rw [threadsAre, Function.update_idem]
    simp only [Function.update_apply]
    split
    · decide
    · split <;> decide

/-! ### The counter wraps -/

/-- A thread that does nothing but post. -/
theorem posted (value : UInt32) (index : Fin threads) (count : Nat) :
    ∃ sem : Mysem threads, (machine value threads).Reachable sem ∧
      (∀ other, sem.thread other = .running) ∧ sem.posts = count ∧ sem.passes = 0 := by
  induction count with
  | zero => exact ⟨create value threads, Machine.Reachable.start, fun _ => rfl, rfl, rfl⟩
  | succ count inductionHypothesis =>
    obtain ⟨sem, reached, running, rfl, none_taken⟩ := inductionHypothesis
    have nobody : Wakes (fun other => sem.thread other = .waits) ∅ := by
      refine ⟨fun _ member => absurd member (Finset.notMem_empty _), ?_⟩
      rintro ⟨other, sleeps⟩
      rw [running other] at sleeps
      cases sleeps
    have taken : sem.step (.post index ∅) = some { sem with
        count := sem.count + 1, posts := sem.posts + 1 } := by
      rw [step, if_pos (running index), post]
      by_cases zero : sem.count = 0
      · rw [if_pos zero, if_pos nobody]
        simp only [Finset.notMem_empty, if_false]
      · rw [if_neg zero, if_pos rfl]
    exact ⟨_, Machine.Leads.step reached (.post index ∅) taken, running, rfl, none_taken⟩

/-- With `2 ^ 32` units and none of them taken, the counter is at zero. -/
theorem count_eq_zero_of_full {value : UInt32} {sem : Mysem threads}
    (reached : (machine value threads).Reachable sem) (full : value.toNat + sem.posts = 2 ^ 32)
    (none_taken : sem.passes = 0) : sem.count = 0 := by
  obtain ⟨wraps, balance⟩ := conserved_of_reachable reached
  have bounded := sem.count.toNat_lt
  exact UInt32.toNat_inj.mp (show sem.count.toNat = 0 by omega)

/-- As long as the initial value and the posts together are below `2 ^ 32`, the counter is their
sum less the units taken. When they reach that number, the counter can be back at zero with nothing
taken. A state in which a thread sleeps although there is a unit to take, and nobody is on the way
out of a wait, is reached by some run exactly when three threads use the semaphore. -/
theorem mysem_serves_two_threads (value : UInt32) (threads : Nat) :
    (∀ sem, (machine value threads).Reachable sem → value.toNat + sem.posts < 2 ^ 32 →
        sem.count.toNat + sem.passes = value.toNat + sem.posts) ∧
      (0 < threads → ∃ sem, (machine value threads).Reachable sem ∧
        value.toNat + sem.posts = 2 ^ 32 ∧ sem.passes = 0 ∧ sem.count = 0) ∧
      ((∃ sem, (machine value threads).Reachable sem ∧ sem.LeftAsleep) ↔ 2 < threads) := by
  refine ⟨fun sem reached few => count_add_passes reached few, fun someone => ?_, ?_,
    fun three => ?_⟩
  · obtain ⟨sem, reached, -, posts, none_taken⟩ := posted value ⟨0, someone⟩ (2 ^ 32 - value.toNat)
    have bounded := value.toNat_lt
    have full : value.toNat + sem.posts = 2 ^ 32 := by omega
    exact ⟨sem, reached, full, none_taken, count_eq_zero_of_full reached full none_taken⟩
  · rintro ⟨sem, reached, ⟨index, oversleeps⟩, -⟩
    by_contra few
    exact no_oversleep_of_reachable (Nat.not_lt.mp few) reached index oversleeps
  · have firstSecond : (⟨0, by omega⟩ : Fin threads) ≠ ⟨1, by omega⟩ := by simp
    have firstThird : (⟨0, by omega⟩ : Fin threads) ≠ ⟨2, three⟩ := by simp
    have secondThird : (⟨1, by omega⟩ : Fin threads) ≠ ⟨2, three⟩ := by simp
    exact leftAsleep_of_three value firstSecond firstThird secondThird

end Mysem

end SocketC
