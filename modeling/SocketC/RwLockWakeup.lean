/-
This file is about the sleepers of the read-write lock. `pthread_rwlock_unlock` signals
a writer only when the lock is free and wakes the readers only when no writer waits, and
a woken thread can be overtaken by a new caller before it has `rw_mutex` again. Two facts
survive every such order: a free lock that a writer waits for has a woken writer, and a
lock open to readers has no sleeping reader. So a free lock is never left to sleepers.

Both facts rest on `rw_nwaitwriters` going down only when a writer takes the lock. A
writer that gives up its wait, by an error or by cancellation, takes itself off the
counter and wakes nobody. The readers that slept because of it then sleep on, although
the lock is open to them.
-/

import SocketC.RwLock

namespace SocketC.RwLock

open Monitor

variable {threads : Nat}

/-! ### Nobody sleeps through a free lock -/

/-- What holds between the critical sections as long as no writer gives up. -/
structure Roused (lock : RwLock threads) : Prop where
  writers : lock.refcount = 0 → 0 < lock.nwaitwriters →
    ∃ index, (lock.thread index).phase = .writeWoken
  readers : 0 ≤ lock.refcount → lock.nwaitwriters = 0 →
    ∀ index, (lock.thread index).phase ≠ .readWait

section Phases

variable {lock next : RwLock threads} {index : Fin threads} {thread : RwThread}

/-- A thread that was not a woken writer can be moved without losing a woken writer, and a
thread that does not fall asleep as a reader adds no sleeping reader. -/
theorem Roused.move (roused : lock.Roused)
    (moved : next.thread = Function.update lock.thread index thread)
    (kept : (lock.thread index).phase ≠ .writeWoken ∨ thread.phase = .writeWoken)
    (writers : next.refcount = 0 → 0 < next.nwaitwriters →
      lock.refcount = 0 ∧ 0 < lock.nwaitwriters)
    (readers : 0 ≤ next.refcount → next.nwaitwriters = 0 →
      0 ≤ lock.refcount ∧ lock.nwaitwriters = 0 ∧ thread.phase ≠ .readWait) : next.Roused := by
  constructor
  · intro free waiting
    obtain ⟨woken, phase⟩ := roused.writers (writers free waiting).1 (writers free waiting).2
    rcases eq_or_ne woken index with rfl | different
    · refine ⟨woken, ?_⟩
      rw [moved, Function.update_self]
      exact kept.resolve_left fun other => other phase
    · exact ⟨woken, by rw [moved, Function.update_of_ne different]; exact phase⟩
  · intro unwritten noWriter other
    obtain ⟨unwrittenBefore, noWriterBefore, awake⟩ := readers unwritten noWriter
    rw [moved]
    rcases eq_or_ne other index with rfl | different
    · rwa [Function.update_self]
    · rw [Function.update_of_ne different]
      exact roused.readers unwrittenBefore noWriterBefore other

end Phases

section Calls

variable {lock next : RwLock threads} {index : Fin threads}

/-- A thread in no wait that goes on outside the waits. -/
theorem Roused.setPhase (roused : lock.Roused) {phase : RwPhase}
    (awake : (lock.thread index).phase ≠ .writeWoken) (stays : phase ≠ .readWait) :
    (lock.setPhase index phase).Roused :=
  roused.move rfl (Or.inl awake) (fun free waiting => ⟨free, waiting⟩)
    fun unwritten noWriter => ⟨unwritten, noWriter, stays⟩

theorem awake_of_outside {thread : RwThread} (outside : thread.Outside) :
    thread.phase ≠ .writeWoken := by
  intro woken
  have none := outside.2
  simp only [RwThread.writeWaits, woken] at none
  cases none

theorem Roused.grantRead (roused : lock.Roused) (outside : (lock.thread index).Outside)
    (unwritten : 0 ≤ lock.refcount) : (lock.grantRead index).Roused := by
  have notWriter := awake_of_outside outside
  refine roused.move rfl (Or.inl notWriter) ?_ ?_
  · intro free _
    have free : lock.refcount + 1 = 0 := free
    omega
  · intro _ noWriter
    exact ⟨unwritten, noWriter, by simp⟩

/-- With the write lock taken there is nothing to claim. -/
theorem roused_grantWrite (lock : RwLock threads) (index : Fin threads) :
    (lock.grantWrite index).Roused where
  writers := fun free => by cases free
  readers := fun unwritten => absurd unwritten (by show ¬ (0 : Int) ≤ -1; decide)

/-- A reader goes to sleep only when the lock is not open to readers. -/
theorem Roused.enterRead (roused : lock.Roused) (outside : (lock.thread index).Outside) :
    (lock.enterRead index).Roused := by
  have notWriter := awake_of_outside outside
  unfold RwLock.enterRead
  split
  · rename_i busy
    refine roused.move rfl (Or.inl notWriter) (fun free waiting => ⟨free, waiting⟩) ?_
    intro unwritten noWriter
    have unwritten : 0 ≤ lock.refcount := unwritten
    have noWriter : lock.nwaitwriters = 0 := noWriter
    unfold ReadBusy at busy
    omega
  · rename_i grants
    exact roused.grantRead outside (not_readBusy_iff.mp grants).1

/-- A writer that arrives, or tests again, takes the lock or goes to sleep behind a holder; the
counter it raises keeps the readers out in both cases. -/
theorem Accounts.roused_enterWrite (accounts : lock.Accounts) :
    (lock.enterWrite index).Roused := by
  unfold RwLock.enterWrite
  split
  · rename_i busy
    have counted := accounts.writers
    constructor
    · exact fun free _ => absurd free busy
    · intro _ noWriter
      have noWriter : lock.nwaitwriters + 1 = 0 := noWriter
      omega
  · exact roused_grantWrite lock index

theorem Roused.leaveReadWait (roused : lock.Roused)
    (waits : (lock.thread index).WaitsToRead) : (lock.leaveReadWait index).Roused := by
  have notWriter : (lock.thread index).phase ≠ .writeWoken := by
    rcases waits with phase | phase <;> rw [phase] <;> decide
  exact roused.move rfl (Or.inl notWriter) (fun free waiting => ⟨free, waiting⟩)
    fun unwritten noWriter => ⟨unwritten, noWriter, by simp⟩

/-- The two wake-ups of `pthread_rwlock_unlock` establish the claim from nothing but right
counters. -/
theorem Accounts.roused_notify (accounts : lock.Accounts) {woken : Finset (Fin threads)}
    (notified : lock.notify woken = some next) : next.Roused := by
  unfold RwLock.notify at notified
  split at notified
  · rename_i waiting
    split at notified
    · obtain ⟨wakes, signalled⟩ := Option.ite_none_right_eq_some.mp notified
      obtain rfl := Option.some.inj signalled
      refine ⟨fun _ _ => ?_, fun _ noWriter => absurd noWriter waiting.ne'⟩
      by_cases asleep : ∃ index, (lock.thread index).phase = .writeWait
      · obtain ⟨index, member⟩ := wakes.2 asleep
        exact ⟨index, by simp only [if_pos member]⟩
      · -- Nobody sleeps, so the writer that is counted is already awake.
        have counted : 0 < load RwThread.writeWaits lock.thread := by
          have := accounts.writers
          omega
        obtain ⟨index, waits⟩ := exists_weight_of_load_pos counted
        refine ⟨index, ?_⟩
        have notWoken : index ∉ woken := fun member => asleep ⟨index, wakes.1 index member⟩
        simp only [if_neg notWoken]
        cases phase : (lock.thread index).phase with
        | writeWoken => rfl
        | writeWait => exact absurd ⟨index, phase⟩ asleep
        | running | tested | readWait | readWoken | destroying =>
          simp only [RwThread.writeWaits, phase] at waits
          omega
    · rename_i held
      obtain ⟨-, same⟩ := Option.ite_none_right_eq_some.mp notified
      obtain rfl := Option.some.inj same
      exact ⟨fun free => absurd free held, fun _ noWriter => absurd noWriter waiting.ne'⟩
  · rename_i noWriter
    obtain ⟨-, notified⟩ := Option.ite_none_right_eq_some.mp notified
    split at notified
    · obtain rfl := Option.some.inj notified
      refine ⟨fun _ waiting => absurd waiting noWriter, fun _ _ index => ?_⟩
      dsimp only [RwThread.wakeReader]
      split
      · simp
      · assumption
    · rename_i noReader
      obtain rfl := Option.some.inj notified
      refine ⟨fun _ waiting => absurd waiting noWriter, fun _ _ index asleep => ?_⟩
      have counted := weight_le_load RwThread.readWaits lock.thread index
      simp only [RwThread.readWaits, asleep] at counted
      have := accounts.readers
      omega

end Calls

/-- A writer does not give up its wait. -/
def Patient (lock : RwLock threads) : Action threads → Prop
  | .abandon index => ¬ (lock.thread index).WaitsToWrite
  | _ => True

instance (lock : RwLock threads) (action : Action threads) : Decidable (lock.Patient action) :=
  match action with
  | .abandon index => inferInstanceAs (Decidable (¬ (lock.thread index).WaitsToWrite))
  | .call _ | .rdlock _ | .tryrdlock _ | .wrlock _ | .trywrlock _ | .unlock _ _ | .destroy _
  | .wake _ | .resume _ => .isTrue trivial

theorem Roused.step {lock next : RwLock threads} {action : Action threads}
    (accounts : lock.Accounts) (roused : lock.Roused) (disciplined : lock.Disciplined action)
    (patient : lock.Patient action) (taken : lock.step action = some next) : next.Roused := by
  cases moves_of_step taken with
  | refused => exact roused
  | call index running =>
    exact roused.setPhase (awake_of_outside (RwThread.outside_of_running running)) nofun
  | rdlock index tested => exact roused.enterRead (RwThread.outside_of_tested tested)
  | tryrdlock index tested =>
    have outside := RwThread.outside_of_tested tested
    unfold tryRead
    split
    · exact roused.setPhase (awake_of_outside outside) nofun
    · rename_i grants
      exact roused.grantRead outside (not_readBusy_iff.mp grants).1
  | wrlock index tested => exact accounts.roused_enterWrite
  | trywrlock index tested =>
    unfold tryWrite
    split
    · exact roused.setPhase (awake_of_outside (RwThread.outside_of_tested tested)) nofun
    · exact roused_grantWrite lock index
  | unlock index woken next tested unlocked =>
    have released := accounts.release (RwThread.outside_of_tested tested) disciplined
    unfold unlock at unlocked
    rw [released.intact, if_neg Bool.false_ne_true] at unlocked
    exact released.roused_notify unlocked
  | destroyTest index counter stage tests =>
    refine roused.setPhase (awake_of_outside (outside_of_destroyTest tests)) ?_
    split <;> nofun
  | teardown index phase =>
    have passed : (lock.setPhase index .running).Roused :=
      roused.setPhase (awake_of_outside (RwThread.outside_of_destroying phase)) nofun
    exact ⟨passed.writers, passed.readers⟩
  | wakeReader index phase => exact roused.setPhase (by rw [phase]; nofun) nofun
  | wakeWriter index phase =>
    exact roused.move rfl (Or.inr rfl) (fun free waiting => ⟨free, waiting⟩)
      fun unwritten noWriter => ⟨unwritten, noWriter, by simp⟩
  | resumeReader index phase =>
    exact (roused.leaveReadWait (Or.inr phase)).enterRead
      (RwThread.outside_of_running (leaveReadWait_phase lock index))
  | resumeWriter index phase =>
    exact (accounts.leaveWriteWait (Or.inr phase)).roused_enterWrite
  | abandonReader index waits => exact roused.leaveReadWait waits
  | abandonWriter index waits => exact absurd waits patient

end SocketC.RwLock
