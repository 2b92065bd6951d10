/-
This file is about the read-write lock as a whole: the counters exclude, one writer and no
reader, or readers and no writer, whatever the threads call and also while another thread
destroys the lock.

`pthread_rwlock_destroy` looks at the counters without the mutex and ends the lock some
time later. A thread that takes the lock in between, or that passed the test of `rw_magic`
before, ends up with a destroyed lock. If the threads see to it that this cannot happen,
a lock that was destroyed is held by nobody and waited for by nobody.
-/

import SocketC.RwLock

namespace SocketC.RwLock

open Monitor

variable {threads : Nat}

/-! ### A lock that is destroyed at rest -/

/-- From the first test of `pthread_rwlock_destroy` to its end no other thread does anything with
the lock, and none has passed the test of `rw_magic` before. Threads that wait are no harm: the
tests find them. -/
def Quiet (lock : RwLock threads) : Action threads → Prop
  | .destroy index => ∀ other, other ≠ index →
      (lock.thread other).phase ≠ .tested ∧ ∀ stage, (lock.thread other).phase ≠ .destroying stage
  | _ => ∀ index stage, (lock.thread index).phase ≠ .destroying stage

instance (lock : RwLock threads) (action : Action threads) : Decidable (lock.Quiet action) :=
  match action with
  | .destroy index => inferInstanceAs (Decidable (∀ other, other ≠ index →
      (lock.thread other).phase ≠ .tested ∧ ∀ stage, (lock.thread other).phase ≠ .destroying stage))
  | .call _ | .rdlock _ | .tryrdlock _ | .wrlock _ | .trywrlock _ | .unlock _ _ | .wake _
  | .resume _ | .abandon _ =>
    inferInstanceAs (Decidable (∀ index stage, (lock.thread index).phase ≠ .destroying stage))

/-- What the tests made so far have found. -/
def Found (lock : RwLock threads) : DestroyStage → Prop
  | .readers => lock.refcount = 0
  | .writers => lock.refcount = 0 ∧ lock.nwaitreaders = 0
  | .teardown => lock.refcount = 0 ∧ lock.nwaitreaders = 0 ∧ lock.nwaitwriters = 0

/-- A thread in `pthread_rwlock_destroy` is alone there, and what it has found still holds. A
destroyed lock is out of use. -/
structure AtRest (lock : RwLock threads) : Prop where
  found : ∀ index stage, (lock.thread index).phase = .destroying stage → lock.Found stage
  destroyed : lock.magic = false → lock.Found .teardown ∧
    ∀ index, (lock.thread index).phase = .running

section Destroy

variable {lock next : RwLock threads} {index : Fin threads}

/-- With nobody counted as waiting, every thread is outside the waits. -/
theorem Accounts.outside (accounts : lock.Accounts) (noReader : lock.nwaitreaders = 0)
    (noWriter : lock.nwaitwriters = 0) (index : Fin threads) : (lock.thread index).Outside := by
  have readers := accounts.readers
  have writers := accounts.writers
  have ownRead := weight_le_load RwThread.readWaits lock.thread index
  have ownWrite := weight_le_load RwThread.writeWaits lock.thread index
  exact ⟨by omega, by omega⟩

theorem running_of_outside {thread : RwThread} (outside : thread.Outside)
    (untested : thread.phase ≠ .tested) (calm : ∀ stage, thread.phase ≠ .destroying stage) :
    thread.phase = .running := by
  cases phase : thread.phase with
  | running => rfl
  | tested => exact absurd phase untested
  | destroying stage => exact absurd phase (calm stage)
  | readWait | readWoken =>
    have none := outside.1
    simp only [RwThread.readWaits, phase] at none
    cases none
  | writeWait | writeWoken =>
    have none := outside.2
    simp only [RwThread.writeWaits, phase] at none
    cases none

/-- The next test finds its counter zero, or the thread returns. -/
theorem AtRest.destroyTest (atRest : lock.AtRest) {counter : Int} {stage : DestroyStage}
    (quiet : lock.Quiet (.destroy index))
    (tests : lock.destroyTest (lock.thread index).phase = some (counter, stage)) :
    (lock.setPhase index (if counter = 0 then .destroying stage else .running)).AtRest := by
  have usable : lock.magic = true := by
    by_contra gone
    have running := (atRest.destroyed (Bool.eq_false_of_not_eq_true gone)).2 index
    rw [running] at tests
    cases tests
  refine ⟨fun other found phase => ?_, fun gone => absurd (usable.symm.trans gone) nofun⟩
  rw [setPhase, setThread_phase] at phase
  split at phase
  · obtain ⟨zero, same⟩ : counter = 0 ∧ stage = found := by
      split at phase
      · exact ⟨‹_›, RwPhase.destroying.inj phase⟩
      · cases phase
    subst same
    -- The tests made before still hold, and this one has found zero.
    cases here : (lock.thread index).phase with
    | tested =>
      rw [here] at tests
      cases tests
      exact zero
    | destroying current =>
      have before := atRest.found index current here
      rw [here] at tests
      cases current with
      | readers =>
        cases tests
        exact ⟨before, zero⟩
      | writers =>
        cases tests
        exact ⟨before.1, before.2, zero⟩
      | teardown => cases tests
    | running | readWait | readWoken | writeWait | writeWoken =>
      rw [here] at tests
      cases tests
  · rename_i different
    exact absurd phase ((quiet other different).2 found)

theorem AtRest.teardown (accounts : lock.Accounts) (atRest : lock.AtRest)
    (quiet : lock.Quiet (.destroy index))
    (phase : (lock.thread index).phase = .destroying .teardown) :
    ({ lock.setPhase index .running with magic := false } : RwLock threads).AtRest := by
  have found := atRest.found index .teardown phase
  have running (other : Fin threads) :
      ((lock.setPhase index .running).thread other).phase = .running := by
    rw [setPhase, setThread_phase]
    split
    · rfl
    · rename_i different
      obtain ⟨untested, calm⟩ := quiet other different
      exact running_of_outside (accounts.outside found.2.1 found.2.2 other) untested calm
  refine ⟨fun other stage destroying => ?_, fun _ => ⟨found, running⟩⟩
  exact absurd ((running other).symm.trans destroying) nofun

/-- The lock is in use and nobody is in `pthread_rwlock_destroy`. -/
structure Calm (lock : RwLock threads) : Prop where
  usable : lock.magic = true
  nobody : ∀ index stage, (lock.thread index).phase ≠ .destroying stage

theorem Calm.atRest (calm : lock.Calm) : lock.AtRest :=
  ⟨fun index stage phase => absurd phase (calm.nobody index stage),
    fun gone => absurd (calm.usable.symm.trans gone) nofun⟩

/-- A thread that moves elsewhere changes nothing about that. -/
theorem Calm.move (calm : lock.Calm) {thread : RwThread}
    (moved : next.thread = Function.update lock.thread index thread)
    (magic : next.magic = lock.magic) (elsewhere : ∀ stage, thread.phase ≠ .destroying stage) :
    next.Calm := by
  refine ⟨magic.trans calm.usable, fun other stage => ?_⟩
  rw [moved]
  rcases eq_or_ne other index with rfl | different
  · rw [Function.update_self]
    exact elsewhere stage
  · rw [Function.update_of_ne different]
    exact calm.nobody other stage

theorem Calm.setPhase (calm : lock.Calm) {phase : RwPhase}
    (elsewhere : ∀ stage, phase ≠ .destroying stage) : (lock.setPhase index phase).Calm :=
  calm.move rfl rfl elsewhere

theorem Calm.leaveReadWait (calm : lock.Calm) : (lock.leaveReadWait index).Calm :=
  calm.move rfl rfl nofun

theorem Calm.leaveWriteWait (calm : lock.Calm) : (lock.leaveWriteWait index).Calm :=
  calm.move rfl rfl nofun

theorem Calm.enterRead (calm : lock.Calm) : (lock.enterRead index).Calm := by
  unfold RwLock.enterRead
  split
  · exact calm.move rfl rfl nofun
  · exact calm.move rfl rfl nofun

theorem Calm.enterWrite (calm : lock.Calm) : (lock.enterWrite index).Calm := by
  unfold RwLock.enterWrite
  split
  · exact calm.move rfl rfl nofun
  · exact calm.move rfl rfl nofun

theorem Calm.tryRead (calm : lock.Calm) : (lock.tryRead index).Calm := by
  unfold RwLock.tryRead
  split
  · exact calm.move rfl rfl nofun
  · exact calm.move rfl rfl nofun

theorem Calm.tryWrite (calm : lock.Calm) : (lock.tryWrite index).Calm := by
  unfold RwLock.tryWrite
  split
  · exact calm.move rfl rfl nofun
  · exact calm.move rfl rfl nofun

theorem Calm.release (calm : lock.Calm) : (lock.release index).Calm := by
  have returns (stage : DestroyStage) : (lock.thread index).release.phase ≠ .destroying stage := by
    rw [RwThread.release_phase]
    nofun
  unfold RwLock.release
  split
  · exact calm.move rfl rfl returns
  · split
    · exact calm.move rfl rfl returns
    · exact ⟨calm.usable, calm.nobody⟩

theorem Calm.notify (calm : lock.Calm) {woken : Finset (Fin threads)}
    (notified : lock.notify woken = some next) : next.Calm := by
  unfold RwLock.notify at notified
  split at notified
  · split at notified
    · obtain ⟨-, signalled⟩ := Option.ite_none_right_eq_some.mp notified
      obtain rfl := Option.some.inj signalled
      refine ⟨calm.usable, fun index stage => ?_⟩
      dsimp only
      split
      · nofun
      · exact calm.nobody index stage
    · obtain ⟨-, same⟩ := Option.ite_none_right_eq_some.mp notified
      exact Option.some.inj same ▸ calm
  · obtain ⟨-, notified⟩ := Option.ite_none_right_eq_some.mp notified
    split at notified
    · obtain rfl := Option.some.inj notified
      refine ⟨calm.usable, fun index stage => ?_⟩
      dsimp only [RwThread.wakeReader]
      split
      · nofun
      · exact calm.nobody index stage
    · exact Option.some.inj notified ▸ calm

theorem Calm.unlock (calm : lock.Calm) {woken : Finset (Fin threads)}
    (unlocked : lock.unlock index woken = some next) : next.Calm := by
  unfold RwLock.unlock at unlocked
  split at unlocked
  · exact Option.some.inj unlocked ▸ calm.release
  · exact calm.release.notify unlocked

end Destroy

/-- Nothing but `EINVAL` happens to a lock that was destroyed at rest. -/
theorem AtRest.eq_of_destroyed {lock next : RwLock threads} {action : Action threads}
    (atRest : lock.AtRest) (gone : lock.magic = false) (moves : lock.Moves action next) :
    next = lock := by
  have idle {index : Fin threads} {phase : RwPhase} (here : (lock.thread index).phase = phase) :
      phase = .running := here.symm.trans ((atRest.destroyed gone).2 index)
  cases moves with
  | refused => rfl
  | call index running usable => exact absurd (usable.symm.trans gone) nofun
  | rdlock index tested | tryrdlock index tested | wrlock index tested | trywrlock index tested
  | unlock index woken next tested => exact absurd (idle tested) nofun
  | destroyTest index counter stage tests =>
    rw [(atRest.destroyed gone).2 index] at tests
    cases tests
  | teardown index phase | wakeReader index phase | wakeWriter index phase
  | resumeReader index phase | resumeWriter index phase => exact absurd (idle phase) nofun
  | abandonReader index waits | abandonWriter index waits =>
    rcases waits with phase | phase <;> exact absurd (idle phase) nofun

theorem AtRest.step {lock next : RwLock threads} {action : Action threads}
    (accounts : lock.Accounts) (atRest : lock.AtRest) (quiet : lock.Quiet action)
    (taken : lock.step action = some next) : next.AtRest := by
  have moves := moves_of_step taken
  cases magic : lock.magic with
  | false => exact atRest.eq_of_destroyed magic moves ▸ atRest
  | true =>
    cases moves with
    | refused => exact atRest
    | call index => exact (Calm.setPhase ⟨magic, quiet⟩ (by nofun)).atRest
    | rdlock index => exact (Calm.enterRead ⟨magic, quiet⟩).atRest
    | tryrdlock index => exact (Calm.tryRead ⟨magic, quiet⟩).atRest
    | wrlock index => exact (Calm.enterWrite ⟨magic, quiet⟩).atRest
    | trywrlock index => exact (Calm.tryWrite ⟨magic, quiet⟩).atRest
    | unlock index woken next tested unlocked => exact (Calm.unlock ⟨magic, quiet⟩ unlocked).atRest
    | destroyTest index counter stage tests => exact atRest.destroyTest quiet tests
    | teardown index phase => exact atRest.teardown accounts quiet phase
    | wakeReader index | wakeWriter index => exact (Calm.setPhase ⟨magic, quiet⟩ (by nofun)).atRest
    | resumeReader index => exact (Calm.leaveReadWait ⟨magic, quiet⟩).enterRead.atRest
    | resumeWriter index => exact (Calm.leaveWriteWait ⟨magic, quiet⟩).enterWrite.atRest
    | abandonReader index => exact (Calm.leaveReadWait ⟨magic, quiet⟩).atRest
    | abandonWriter index => exact (Calm.leaveWriteWait ⟨magic, quiet⟩).atRest

/-- A read lock is taken and released, and then another thread destroys the lock. -/
def teardown : List (Action 7) :=
  [.call 0, .rdlock 0, .call 0, .unlock 0 ∅, .call 1, .destroy 1, .destroy 1, .destroy 1,
    .destroy 1]

/-- A thread is past the tests of `pthread_rwlock_destroy` when another one takes a read lock: the
lock is destroyed with its reader. -/
example : (((machine 7).restrict Disciplined).after [Action.call 0, .destroy 0, .destroy 0,
    .destroy 0, .call 1, .rdlock 1, .destroy 0]).magic = false ∧
    ((((machine 7).restrict Disciplined).after [Action.call 0, .destroy 0, .destroy 0,
      .destroy 0, .call 1, .rdlock 1, .destroy 0]).thread 1).Holds := by decide

end SocketC.RwLock
