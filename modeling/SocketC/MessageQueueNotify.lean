/-
This file is about `mymq_notify`. One process at a time can register for a signal; a
message that arrives on an empty queue while no receiver waits sends the signal and ends
the registration. A call that finds another live process registered fails with `EBUSY`
and registers nobody. Over every run, no process is signalled more often than it has
registered with success. Nothing is promised the other way: a sender that had to wait for
room sends no signal even if the queue is empty when it gets to run.
-/

import SocketC.MessageQueueOrder

namespace SocketC.MqSystem

open Monitor Priority

variable {threads : Nat} {layout : MqLayout} {attr : MqAttr}

/-- The action is a call of `mymq_notify` that registers the process for a signal: one that does
not fail with `EBUSY`. -/
def registers (system : MqSystem threads) (pid : Nat) : Action threads → Bool
  | .notify caller alive .signal => caller = pid ∧ ¬ (system.queue.pid ≠ 0 ∧ alive = true)
  | .send _ _ _ | .receive _ _ _ | .resume _ _ | .wake _ | .notify _ _ .none | .unregister _
  | .setattr _ _ => false

/-- How often a process has registered for a signal along a run. -/
def registrations (layout : MqLayout) (attr : MqAttr) (pid : Nat) :
    MqSystem threads → List (Action threads) → Nat
  | _, [] => 0
  | system, action :: rest =>
    (system.registers pid action).toNat +
      match system.step layout attr action with
      | none => 0
      | some next => registrations layout attr pid next rest

/-- The process is registered for a signal. -/
def awaits (system : MqSystem threads) (pid : Nat) : Nat :=
  if system.queue.pid = pid ∧ pid ≠ 0 ∧ system.queue.event = .signal then 1 else 0

/-- The call leaves the registration and the signals sent as they are. -/
def KeepsRegistry (system next : MqSystem threads) : Prop :=
  next.queue.pid = system.queue.pid ∧ next.queue.event = system.queue.event ∧
    next.signalled = system.signalled

section Registry

variable {system next : MqSystem threads} {index : Fin threads} {woken : Finset (Fin threads)}

theorem insert_registry {queue changed : Mymq} {message : MqMessage}
    (inserted : queue.insert layout attr message = .changed changed) :
    changed.pid = queue.pid ∧ changed.event = queue.event := by
  unfold Mymq.insert at inserted
  split at inserted
  · cases inserted
  dsimp only at inserted
  split at inserted
  · cases inserted
  · rename_i stop previous stops
    injection inserted with same
    rw [← same]
    cases previous <;> exact ⟨rfl, rfl⟩

theorem take_registry {queue changed : Mymq} (taken : queue.take = .changed changed) :
    changed.pid = queue.pid ∧ changed.event = queue.event := by
  unfold Mymq.take at taken
  split at taken
  · cases taken
  · injection taken with same
    rw [← same]
    exact ⟨rfl, rfl⟩

theorem signal_registry {called : Prop} [Decidable called]
    (signalled : system.signal called woken = some next) : system.KeepsRegistry next := by
  obtain ⟨rest, -⟩ := signal_spec signalled
  rw [rest]
  exact ⟨rfl, rfl, rfl⟩

theorem deliver_registry {message : MqMessage}
    (delivered : system.deliver layout attr index message woken = some next) :
    system.KeepsRegistry next := by
  unfold deliver at delivered
  split at delivered
  · exact Option.some.inj delivered ▸ ⟨rfl, rfl, rfl⟩
  · exact Option.some.inj delivered ▸ ⟨rfl, rfl, rfl⟩
  · rename_i changed inserted
    obtain ⟨pid, event, signals⟩ := signal_registry delivered
    obtain ⟨samePid, sameEvent⟩ := insert_registry inserted
    exact ⟨pid.trans samePid, event.trans sameEvent, signals⟩

theorem fetch_registry (fetched : system.fetch layout attr index woken = some next) :
    system.KeepsRegistry next := by
  unfold fetch at fetched
  split at fetched
  · exact Option.some.inj fetched ▸ ⟨rfl, rfl, rfl⟩
  · exact Option.some.inj fetched ▸ ⟨rfl, rfl, rfl⟩
  · rename_i changed taken
    obtain ⟨pid, event, signals⟩ := signal_registry fetched
    obtain ⟨samePid, sameEvent⟩ := take_registry taken
    exact ⟨pid.trans samePid, event.trans sameEvent, signals⟩

/-- The signals a process has had, and the one it may still get. -/
def due (system : MqSystem threads) (pid : Nat) : Nat :=
  system.signalled.count pid + system.awaits pid

theorem KeepsRegistry.due_eq (keeps : system.KeepsRegistry next) (pid : Nat) :
    next.due pid = system.due pid := by
  obtain ⟨samePid, sameEvent, sameSignals⟩ := keeps
  rw [due, due, awaits, awaits, samePid, sameEvent, sameSignals]

/-- The signal that is sent was due. -/
theorem announce_due (system : MqSystem threads) (pid : Nat) :
    system.announce.due pid ≤ system.due pid := by
  unfold announce
  split
  · rename_i registered
    by_cases signals : system.queue.event = .signal
    · simp only [due, awaits, List.count_append, signals]
      grind
    · simp only [due, awaits, if_neg signals, List.append_nil]
      grind
  · exact le_refl _

theorem send_due {message : MqMessage}
    (sent : system.send layout attr index message woken = some next) (pid : Nat) :
    next.due pid ≤ system.due pid := by
  unfold send at sent
  split at sent
  · exact Option.some.inj sent ▸ le_refl _
  split at sent
  · rw [(deliver_registry sent).due_eq]
    exact announce_due system pid
  split at sent
  · split at sent <;> exact Option.some.inj sent ▸ le_refl _
  · exact ((deliver_registry sent).due_eq pid).le

theorem receive_due {maxlen : Nat}
    (received : system.receive layout attr index maxlen woken = some next) (pid : Nat) :
    next.due pid ≤ system.due pid := by
  unfold receive at received
  split at received
  · exact Option.some.inj received ▸ le_refl _
  split at received
  · split at received <;> exact Option.some.inj received ▸ le_refl _
  · exact ((fetch_registry received).due_eq pid).le

theorem resume_due (resumed : system.resume layout attr index woken = some next) (pid : Nat) :
    next.due pid ≤ system.due pid := by
  unfold resume at resumed
  split at resumed
  · split at resumed
    · exact Option.some.inj resumed ▸ le_refl _
    · exact ((deliver_registry resumed).due_eq pid).le
  · split at resumed
    · exact Option.some.inj resumed ▸ le_refl _
    · exact ((fetch_registry resumed).due_eq pid).le
  all_goals cases resumed

/-- Only an accepted registration makes one more signal due. -/
theorem notify_due (system : MqSystem threads) (registered : Nat) (alive : Bool)
    (event : SigEvent) (pid : Nat) :
    (system.notify registered alive event).due pid ≤
      system.due pid + (system.registers pid (.notify registered alive event)).toNat := by
  unfold notify
  split
  · exact Nat.le_add_right _ _
  · rename_i accepted
    cases event with
    | signal => simp only [due, awaits, registers, accepted]; grind
    | none => simp only [due, awaits]; grind

theorem unregister_due (system : MqSystem threads) (registered pid : Nat) :
    (system.unregister registered).due pid ≤ system.due pid := by
  unfold unregister
  split
  · simp only [due, awaits]; grind
  · exact le_refl _

theorem due_step {action : Action threads} (taken : system.step layout attr action = some next)
    (pid : Nat) : next.due pid ≤ system.due pid + (system.registers pid action).toNat := by
  unfold step at taken
  split at taken
  · cases taken
  cases action with
  | send index message woken =>
    obtain ⟨-, sent⟩ := Option.ite_none_right_eq_some.mp taken
    exact Nat.le_add_right_of_le (send_due sent pid)
  | receive index maxlen woken =>
    obtain ⟨-, received⟩ := Option.ite_none_right_eq_some.mp taken
    exact Nat.le_add_right_of_le (receive_due received pid)
  | resume index woken => exact Nat.le_add_right_of_le (resume_due taken pid)
  | wake index =>
    obtain ⟨-, woken⟩ := Option.ite_none_right_eq_some.mp taken
    exact Option.some.inj woken ▸ Nat.le_add_right _ _
  | notify registered alive event =>
    exact Option.some.inj taken ▸ notify_due system registered alive event pid
  | unregister registered =>
    exact Option.some.inj taken ▸ Nat.le_add_right_of_le (unregister_due system registered pid)
  | setattr index nonblock => exact Option.some.inj taken ▸ Nat.le_add_right _ _

end Registry

/-- Along a run, what is due to a process grows by its registrations at most. -/
theorem due_run {actions : List (Action threads)} {system final : MqSystem threads}
    (ran : (machine layout attr threads).run system actions = some final) (pid : Nat) :
    final.due pid ≤ system.due pid + registrations layout attr pid system actions := by
  induction actions generalizing system with
  | nil => exact Option.some.inj ran ▸ le_refl _
  | cons action rest inductionHypothesis =>
    rw [Machine.run_cons] at ran
    obtain ⟨next, taken, ranRest⟩ := Option.bind_eq_some_iff.mp ran
    replace taken : system.step layout attr action = some next := taken
    have first := due_step taken pid
    have later := inductionHypothesis ranRest
    rw [registrations, taken]
    dsimp only
    omega

/-- Over every run, a process is signalled at most as often as it has registered for a signal. -/
theorem mymq_notify_signals_once {actions : List (Action threads)} {system : MqSystem threads}
    (ran : (machine layout attr threads).run (start layout attr threads) actions = some system)
    (pid : Nat) :
    system.signalled.count pid ≤
      registrations layout attr pid (start layout attr threads) actions := by
  have nothing : (start layout attr threads).due pid = 0 := by
    simp [due, awaits, start, Mymq.create]
  have all := due_run ran pid
  rw [nothing, Nat.zero_add] at all
  exact (Nat.le_add_right _ _).trans all

/-- Process 77 registers, and process 78 is refused; two messages arrive, and the first of them
finds the queue empty. -/
def announced : List (Action 10) :=
  [Action.notify 77 false .signal, .notify 78 true .signal, .send 0 ⟨1, [10]⟩ ∅,
    .send 1 ⟨5, [20, 21]⟩ ∅]

theorem mymq_notify_signals_once_announced :
    ((machine .lp64 .default 10).after announced).signalled = [77] ∧
      registrations .lp64 .default 78 (start .lp64 .default 10) announced = 0 ∧
      ((machine .lp64 .default 10).after announced).signalled.count 77 ≤
        registrations .lp64 .default 77 (start .lp64 .default 10) announced :=
  ⟨by decide, by decide,
    mymq_notify_signals_once (Machine.run_eq_some_after announced (by decide)) 77⟩

end SocketC.MqSystem
