/-
This file is about the one condition variable of the message queue. Senders that wait for
room and receivers that wait for a message sleep on the same `mqh_wait`, and a signal is
sent only when the queue stops being empty or stops being full. With two threads that is
enough: a thread sleeps only while it has to. With three threads it is not, for a queue
of any size: a receiver's signal can wake another receiver instead of the sender it is
meant for, and no later signal comes.
-/

import SocketC.MessageQueueOrder

namespace SocketC.MqSystem

open Monitor Priority

variable {threads : Nat} {layout : MqLayout} {attr : MqAttr}

/-! ### What a step does to the threads and to the number of messages -/

theorem insert_curmsgs {queue changed : Mymq} {message : MqMessage}
    (inserted : queue.insert layout attr message = .changed changed) :
    changed.curmsgs = queue.curmsgs + 1 := by
  unfold Mymq.insert at inserted
  split at inserted
  · cases inserted
  dsimp only at inserted
  split at inserted
  · cases inserted
  · injection inserted with same
    rw [← same]

theorem take_curmsgs {queue changed : Mymq} (taken : queue.take = .changed changed) :
    changed.curmsgs = queue.curmsgs - 1 := by
  unfold Mymq.take at taken
  split at taken
  · cases taken
  · injection taken with same
    rw [← same]
    rfl

/-- The threads after a signal, if there is one. -/
def Signals (called : Prop) (thread : Fin threads → MqThread) (woken : Finset (Fin threads))
    (after : Fin threads → MqThread) : Prop :=
  called ∧ Wakes (fun index => (thread index).Asleep) woken ∧
      (after = fun index => if index ∈ woken then (thread index).awaken else thread index) ∨
    ¬ called ∧ after = thread

/-- What a step does to the threads and to the number of messages. -/
inductive Moves (attr : MqAttr) (system next : MqSystem threads) : Prop
  | stays (threadsSame : next.thread = system.thread)
      (count : next.queue.curmsgs = system.queue.curmsgs)
  | sleepsToSend (index : Fin threads) (message : MqMessage)
      (full : attr.maxmsg ≤ system.queue.curmsgs)
      (moved : next.thread = Function.update system.thread index (.sendWait message))
      (count : next.queue.curmsgs = system.queue.curmsgs)
  | sleepsToReceive (index : Fin threads) (empty : system.queue.curmsgs = 0)
      (moved : next.thread = Function.update system.thread index .receiveWait)
      (count : next.queue.curmsgs = system.queue.curmsgs)
  | wakes (index : Fin threads)
      (moved : next.thread = Function.update system.thread index (system.thread index).awaken)
      (count : next.queue.curmsgs = system.queue.curmsgs)
  | puts (index : Fin threads) (woken : Finset (Fin threads))
      (room : system.queue.curmsgs < attr.maxmsg)
      (signals : Signals (system.queue.curmsgs = 0)
        (Function.update system.thread index .running) woken next.thread)
      (count : next.queue.curmsgs = system.queue.curmsgs + 1)
  | takes (index : Fin threads) (woken : Finset (Fin threads))
      (some_there : system.queue.curmsgs ≠ 0)
      (signals : Signals (system.queue.curmsgs = attr.maxmsg)
        (Function.update system.thread index .running) woken next.thread)
      (count : next.queue.curmsgs = system.queue.curmsgs - 1)

theorem signals_of_signal {system next : MqSystem threads} {called : Prop} [Decidable called]
    {woken : Finset (Fin threads)} (signalled : system.signal called woken = some next) :
    Signals called system.thread woken next.thread ∧ next.queue = system.queue := by
  unfold signal at signalled
  split at signalled
  · rename_i isCalled
    obtain ⟨wakes, signalled⟩ := Option.ite_none_right_eq_some.mp signalled
    obtain rfl := Option.some.inj signalled
    exact ⟨Or.inl ⟨isCalled, wakes, rfl⟩, rfl⟩
  · rename_i notCalled
    obtain ⟨-, same⟩ := Option.ite_none_right_eq_some.mp signalled
    obtain rfl := Option.some.inj same
    exact ⟨Or.inr ⟨notCalled, rfl⟩, rfl⟩

section Moves

variable {system next : MqSystem threads} {index : Fin threads} {woken : Finset (Fin threads)}

theorem moves_of_deliver {message : MqMessage}
    (keeps : Keeps layout attr system.queue system.history)
    (room : system.queue.curmsgs < attr.maxmsg) (fits : message.data.length ≤ attr.msgsize)
    (delivered : system.deliver layout attr index message woken = some next) :
    system.Moves attr next := by
  obtain ⟨changed, inserted, -, -⟩ := keeps.insert room fits
  rw [deliver, inserted] at delivered
  obtain ⟨signals, queue⟩ := signals_of_signal delivered
  exact .puts index woken room signals (by rw [queue]; exact insert_curmsgs inserted)

theorem moves_of_fetch (keeps : Keeps layout attr system.queue system.history)
    (some_there : system.queue.curmsgs ≠ 0)
    (fetched : system.fetch layout attr index woken = some next) : system.Moves attr next := by
  obtain ⟨changed, taken, -, -⟩ := keeps.take some_there
  rw [fetch, taken] at fetched
  obtain ⟨signals, queue⟩ := signals_of_signal fetched
  exact .takes index woken some_there signals (by rw [queue]; exact take_curmsgs taken)

theorem Moves.congr {other : MqSystem threads} (moves : other.Moves attr next)
    (threadsSame : other.thread = system.thread)
    (count : other.queue.curmsgs = system.queue.curmsgs) : system.Moves attr next := by
  cases moves with
  | stays same sameCount => exact .stays (same.trans threadsSame) (sameCount.trans count)
  | sleepsToSend index message full moved sameCount =>
    exact .sleepsToSend index message (count ▸ full) (threadsSame ▸ moved) (sameCount.trans count)
  | sleepsToReceive index empty moved sameCount =>
    exact .sleepsToReceive index (count ▸ empty) (threadsSame ▸ moved) (sameCount.trans count)
  | wakes index moved sameCount => exact .wakes index (threadsSame ▸ moved) (sameCount.trans count)
  | puts index woken room signals more =>
    rw [count] at room signals more
    exact .puts index woken room (threadsSame ▸ signals) more
  | takes index woken some_there signals less =>
    rw [count] at some_there signals less
    exact .takes index woken some_there (threadsSame ▸ signals) less

theorem moves_of_fail (outside : system.thread index = .running) (error : MqError) :
    system.Moves attr (system.fail index error) :=
  .stays (Function.update_eq_self_iff.mpr outside.symm) rfl

theorem moves_of_send {message : MqMessage} (sound : Sound layout attr system)
    (outside : system.thread index = .running)
    (sent : system.send layout attr index message woken = some next) : system.Moves attr next := by
  unfold send at sent
  split at sent
  · exact Option.some.inj sent ▸ moves_of_fail outside .EMSGSIZE
  rename_i notTooLong
  have fits : message.data.length ≤ attr.msgsize := Nat.not_lt.mp notTooLong
  split at sent
  · rename_i empty
    obtain ⟨sameThreads, sameCount⟩ := announce_queue system
    have room : system.announce.queue.curmsgs < attr.maxmsg := by
      rw [sameCount, empty]
      exact attr.maxmsg_pos
    exact (moves_of_deliver sound.announce.keeps room fits sent).congr sameThreads sameCount
  split at sent
  · rename_i full
    split at sent
    · exact Option.some.inj sent ▸ moves_of_fail outside .EAGAIN
    · obtain rfl := Option.some.inj sent
      exact .sleepsToSend index message full rfl rfl
  · rename_i room
    exact moves_of_deliver sound.keeps (Nat.not_le.mp room) fits sent

theorem moves_of_receive {maxlen : Nat} (sound : Sound layout attr system)
    (outside : system.thread index = .running)
    (received : system.receive layout attr index maxlen woken = some next) :
    system.Moves attr next := by
  unfold receive at received
  split at received
  · exact Option.some.inj received ▸ moves_of_fail outside .EMSGSIZE
  split at received
  · rename_i empty
    split at received
    · exact Option.some.inj received ▸ moves_of_fail outside .EAGAIN
    · obtain rfl := Option.some.inj received
      exact .sleepsToReceive index empty rfl rfl
  · rename_i some_there
    exact moves_of_fetch sound.keeps some_there received

theorem moves_of_resume (sound : Sound layout attr system)
    (resumed : system.resume layout attr index woken = some next) : system.Moves attr next := by
  unfold resume at resumed
  split at resumed
  · rename_i message place
    have fits : message.data.length ≤ attr.msgsize :=
      sound.seated.fits index message (by rw [place]; rfl)
    split at resumed
    · rename_i full
      obtain rfl := Option.some.inj resumed
      exact .sleepsToSend index message full rfl rfl
    · rename_i room
      exact moves_of_deliver sound.keeps (Nat.not_le.mp room) fits resumed
  · split at resumed
    · rename_i empty
      obtain rfl := Option.some.inj resumed
      exact .sleepsToReceive index empty rfl rfl
    · rename_i some_there
      have keeps : Keeps layout attr (system.setNwait (system.queue.nwait - 1)).queue
          system.history := sound.keeps.of_header rfl
      exact (moves_of_fetch keeps some_there resumed).congr rfl rfl
  all_goals cases resumed

theorem moves_of_step {action : Action threads} (sound : Sound layout attr system)
    (taken : system.step layout attr action = some next) : system.Moves attr next := by
  unfold step at taken
  rw [if_neg (not_not.mpr sound.running)] at taken
  cases action with
  | send index message woken =>
    obtain ⟨outside, sent⟩ := Option.ite_none_right_eq_some.mp taken
    exact moves_of_send sound outside sent
  | receive index maxlen woken =>
    obtain ⟨outside, received⟩ := Option.ite_none_right_eq_some.mp taken
    exact moves_of_receive sound outside received
  | resume index woken => exact moves_of_resume sound taken
  | wake index =>
    obtain ⟨-, woken⟩ := Option.ite_none_right_eq_some.mp taken
    obtain rfl := Option.some.inj woken
    exact .wakes index rfl rfl
  | notify pid alive event =>
    obtain rfl := Option.some.inj taken
    unfold notify
    split <;> exact .stays rfl rfl
  | unregister pid =>
    obtain rfl := Option.some.inj taken
    unfold unregister
    split <;> exact .stays rfl rfl
  | setattr index nonblock =>
    obtain rfl := Option.some.inj taken
    exact .stays rfl rfl

end Moves

/-! ### Two threads -/

/-- The thread sleeps although what it waits for is there. -/
def Oversleeps (attr : MqAttr) (system : MqSystem threads) (index : Fin threads) : Prop :=
  match system.thread index with
  | .sendWait _ => system.queue.curmsgs < attr.maxmsg
  | .receiveWait => 0 < system.queue.curmsgs
  | .running | .sendWoken _ | .receiveWoken => False

/-- A sleeper oversleeps, and no thread is on its way out of a wait. -/
def LeftAsleep (attr : MqAttr) (system : MqSystem threads) : Prop :=
  (∃ index, system.Oversleeps attr index) ∧
    ∀ index, (system.thread index).Asleep ∨ system.thread index = .running

theorem not_asleep_awaken (thread : MqThread) : ¬ thread.awaken.Asleep := by
  cases thread <;> exact id

theorem Oversleeps.asleep {system : MqSystem threads} {index : Fin threads}
    (oversleeps : system.Oversleeps attr index) : (system.thread index).Asleep := by
  unfold Oversleeps at oversleeps
  split at oversleeps
  · rename_i place
    rw [place]
    trivial
  · rename_i place
    rw [place]
    trivial
  all_goals exact oversleeps.elim

/-- Whether a thread oversleeps depends on its place and on the number of messages. -/
theorem Oversleeps.of_eq {system next : MqSystem threads} {index : Fin threads}
    (oversleeps : next.Oversleeps attr index) (same : next.thread index = system.thread index)
    (count : next.queue.curmsgs = system.queue.curmsgs) : system.Oversleeps attr index := by
  unfold Oversleeps at oversleeps ⊢
  rwa [same, count] at oversleeps

/-- Of two threads, the one that changes the number of messages wakes the other if that one is
still asleep and was not oversleeping before. -/
theorem Signals.not_asleep {called : Prop} (two : threads ≤ 2)
    {thread after : Fin threads → MqThread} {woken : Finset (Fin threads)} {runs : Fin threads}
    (signals : Signals called (Function.update thread runs .running) woken after)
    (needed : ∀ index, (thread index).Asleep → called) (index : Fin threads) :
    ¬ (after index).Asleep := by
  have awake : ¬ (Function.update thread runs MqThread.running runs).Asleep := by
    rw [Function.update_self]
    exact id
  rcases signals with ⟨-, wakes, rfl⟩ | ⟨notCalled, rfl⟩
  · dsimp only
    split
    · exact not_asleep_awaken _
    · rename_i notWoken
      exact fun sleeps => notWoken (wakes.mem_of_le_two two awake sleeps)
  · intro sleeps
    rcases eq_or_ne index runs with rfl | different
    · exact awake sleeps
    · rw [Function.update_of_ne different] at sleeps
      exact notCalled (needed index sleeps)

theorem Sound.curmsgs_le {system : MqSystem threads} (sound : Sound layout attr system) :
    system.queue.curmsgs ≤ attr.maxmsg := by
  obtain ⟨-, used, frees, -, represents, -⟩ := sound.keeps
  have length := represents.length
  rw [represents.count]
  omega

theorem no_oversleep_step (two : threads ≤ 2) {system next : MqSystem threads}
    (sound : Sound layout attr system) (timely : ∀ index, ¬ system.Oversleeps attr index)
    (moves : system.Moves attr next) : ∀ index, ¬ next.Oversleeps attr index := by
  have le := sound.curmsgs_le
  -- A sleeper that does not oversleep is a sender before a full queue or a receiver before an
  -- empty one, so a change of the number of messages sends the signal it needs.
  have full_or_empty : ∀ index, (system.thread index).Asleep →
      system.queue.curmsgs = attr.maxmsg ∨ system.queue.curmsgs = 0 := by
    intro index sleeps
    have wakesUp := timely index
    unfold Oversleeps at wakesUp
    cases place : system.thread index with
    | sendWait message =>
      rw [place] at wakesUp
      exact Or.inl (le_antisymm le (Nat.not_lt.mp wakesUp))
    | receiveWait =>
      rw [place] at wakesUp
      exact Or.inr (Nat.eq_zero_of_not_pos wakesUp)
    | running | sendWoken message | receiveWoken =>
      rw [place] at sleeps
      exact sleeps.elim
  intro index oversleeps
  cases moves with
  | stays same count => exact timely index (oversleeps.of_eq (congrFun same index) count)
  | sleepsToSend sleeper message full moved count =>
    rcases eq_or_ne index sleeper with rfl | different
    · unfold Oversleeps at oversleeps
      rw [moved, Function.update_self, count] at oversleeps
      exact Nat.not_lt.mpr full oversleeps
    · refine timely index (oversleeps.of_eq ?_ count)
      rw [moved, Function.update_of_ne different]
  | sleepsToReceive sleeper empty moved count =>
    rcases eq_or_ne index sleeper with rfl | different
    · unfold Oversleeps at oversleeps
      rw [moved, Function.update_self, count, empty] at oversleeps
      exact Nat.lt_irrefl 0 oversleeps
    · refine timely index (oversleeps.of_eq ?_ count)
      rw [moved, Function.update_of_ne different]
  | wakes sleeper moved count =>
    rcases eq_or_ne index sleeper with rfl | different
    · have asleep := oversleeps.asleep
      rw [moved, Function.update_self] at asleep
      exact not_asleep_awaken _ asleep
    · refine timely index (oversleeps.of_eq ?_ count)
      rw [moved, Function.update_of_ne different]
  | puts runs woken room signals count =>
    refine signals.not_asleep two (fun other sleeps => ?_) index oversleeps.asleep
    exact (full_or_empty other sleeps).resolve_left room.ne
  | takes runs woken some_there signals count =>
    refine signals.not_asleep two (fun other sleeps => ?_) index oversleeps.asleep
    exact (full_or_empty other sleeps).resolve_right some_there

/-- Two threads: nobody sleeps although what it waits for is there. -/
theorem no_oversleep_of_reachable (two : threads ≤ 2) {system : MqSystem threads}
    (reached : (machine layout attr threads).Reachable system) :
    ∀ index, ¬ system.Oversleeps attr index := by
  refine reached.induction (fun system => ∀ index, ¬ system.Oversleeps attr index)
    (fun _ => id) fun current action next currentReached timely taken => ?_
  have sound := sound_of_reachable currentReached
  exact no_oversleep_step two sound timely (moves_of_step sound taken)

/-! ### Three threads -/

section Scenes

variable (layout : MqLayout) (attr : MqAttr)

/-- Some state with the threads at these places and that many messages is reached, and calls
block. -/
def Arises (thread : Fin threads → MqThread) (count : Nat) : Prop :=
  ∃ system, (machine layout attr threads).Reachable system ∧ system.thread = thread ∧
    system.queue.curmsgs = count ∧ ∀ index, system.nonblock index = false

variable {layout attr} {thread : Fin threads → MqThread} {index : Fin threads} {count : Nat}
  {message : MqMessage}

theorem arises_start : Arises layout attr (fun _ : Fin threads => .running) 0 :=
  ⟨_, Machine.Reachable.start, rfl, rfl, fun _ => rfl⟩

/-- A signal, or none, as the new place of every thread. -/
def signalTo (thread : Fin threads → MqThread) (woken : Finset (Fin threads)) :
    Fin threads → MqThread :=
  fun index => if index ∈ woken then (thread index).awaken else thread index

theorem signal_eq_some {system : MqSystem threads} {called : Prop} [Decidable called]
    {woken : Finset (Fin threads)}
    (legal : called ∧ Wakes (fun index => (system.thread index).Asleep) woken ∨
      ¬ called ∧ woken = ∅) :
    system.signal called woken = some { system with thread := signalTo system.thread woken } := by
  unfold signal
  rcases legal with ⟨isCalled, wakes⟩ | ⟨notCalled, rfl⟩
  · rw [if_pos isCalled, if_pos wakes]
    rfl
  · have unchanged : signalTo system.thread ∅ = system.thread :=
      funext fun index => if_neg (Finset.notMem_empty index)
    rw [if_neg notCalled, if_pos rfl, unchanged]

theorem arises_of_step {system next : MqSystem threads}
    (reached : (machine layout attr threads).Reachable system) (action : Action threads)
    (taken : system.step layout attr action = some next)
    (blocks : ∀ index, next.nonblock index = false) :
    Arises layout attr next.thread next.queue.curmsgs :=
  ⟨next, Machine.Leads.step reached action taken, rfl, rfl, blocks⟩

theorem Arises.receive_sleeps (arises : Arises layout attr thread 0)
    (outside : thread index = .running) :
    Arises layout attr (Function.update thread index .receiveWait) 0 := by
  obtain ⟨system, reached, rfl, empty, blocks⟩ := arises
  have taken : system.step layout attr (.receive index attr.msgsize ∅) =
      some ((system.setNwait (system.queue.nwait + 1)).sleep index .receiveWait) := by
    simp [step, (sound_of_reachable reached).running, receive, outside, empty, blocks]
  exact empty ▸ arises_of_step reached _ taken blocks

theorem Arises.send_sleeps (arises : Arises layout attr thread attr.maxmsg)
    (message : MqMessage) (outside : thread index = .running)
    (fits : message.data.length ≤ attr.msgsize) :
    Arises layout attr (Function.update thread index (.sendWait message)) attr.maxmsg := by
  obtain ⟨system, reached, rfl, full, blocks⟩ := arises
  have taken : system.step layout attr (.send index message ∅) =
      some (system.sleep index (.sendWait message)) := by
    simp [step, (sound_of_reachable reached).running, send, outside, full, blocks,
      attr.maxmsg_pos.ne', Nat.not_lt.mpr fits]
  exact full ▸ arises_of_step reached _ taken blocks

theorem deliver_eq_some {system : MqSystem threads} (index : Fin threads)
    (woken : Finset (Fin threads)) (keeps : Keeps layout attr system.queue system.history)
    (room : system.queue.curmsgs < attr.maxmsg) (fits : message.data.length ≤ attr.msgsize)
    (legal : system.queue.curmsgs = 0 ∧
        Wakes (fun other => (Function.update system.thread index .running other).Asleep) woken ∨
      system.queue.curmsgs ≠ 0 ∧ woken = ∅) :
    ∃ next, system.deliver layout attr index message woken = some next ∧
      next.thread = signalTo (Function.update system.thread index .running) woken ∧
      next.queue.curmsgs = system.queue.curmsgs + 1 ∧ next.nonblock = system.nonblock := by
  obtain ⟨changed, inserted, -, -⟩ := keeps.insert room fits
  refine ⟨{ system.finish index changed (.arrives message) with
    thread := signalTo (Function.update system.thread index .running) woken }, ?_, rfl,
    insert_curmsgs inserted, rfl⟩
  rw [deliver, inserted]
  exact signal_eq_some legal

theorem fetch_eq_some {system : MqSystem threads} (index : Fin threads)
    (woken : Finset (Fin threads)) (keeps : Keeps layout attr system.queue system.history)
    (some_there : system.queue.curmsgs ≠ 0)
    (legal : system.queue.curmsgs = attr.maxmsg ∧
        Wakes (fun other => (Function.update system.thread index .running other).Asleep) woken ∨
      system.queue.curmsgs ≠ attr.maxmsg ∧ woken = ∅) :
    ∃ next, system.fetch layout attr index woken = some next ∧
      next.thread = signalTo (Function.update system.thread index .running) woken ∧
      next.queue.curmsgs = system.queue.curmsgs - 1 ∧ next.nonblock = system.nonblock := by
  obtain ⟨changed, taken, -, -⟩ := keeps.take some_there
  refine ⟨{ system.finish index changed (.departs (system.queue.message layout system.queue.head))
    with thread := signalTo (Function.update system.thread index .running) woken }, ?_, rfl,
    take_curmsgs taken, rfl⟩
  rw [fetch, taken]
  exact signal_eq_some legal

theorem Arises.send_puts (arises : Arises layout attr thread count) (message : MqMessage)
    (outside : thread index = .running) (fits : message.data.length ≤ attr.msgsize)
    (room : count < attr.maxmsg) {woken : Finset (Fin threads)}
    (legal : count = 0 ∧ Wakes (fun index => (thread index).Asleep) woken ∨
      count ≠ 0 ∧ woken = ∅) :
    Arises layout attr (signalTo thread woken) (count + 1) := by
  obtain ⟨system, reached, rfl, rfl, blocks⟩ := arises
  have sound := sound_of_reachable reached
  have place : Function.update system.thread index .running = system.thread :=
    Function.update_eq_self_iff.mpr outside.symm
  by_cases empty : system.queue.curmsgs = 0
  · obtain ⟨sameThreads, sameCount⟩ := announce_queue system
    have sameBlocks : system.announce.nonblock = system.nonblock := by
      unfold announce
      split <;> rfl
    obtain ⟨next, delivered, threadsAfter, countAfter, blocksAfter⟩ :=
      deliver_eq_some index woken sound.announce.keeps (sameCount ▸ room) fits
        (by rw [sameThreads, sameCount, place]; exact legal)
    have taken : system.step layout attr (.send index message woken) = some next := by
      simp [step, sound.running, send, outside, Nat.not_lt.mpr fits, empty, delivered]
    rw [sameThreads, place] at threadsAfter
    rw [sameCount] at countAfter
    exact threadsAfter ▸ countAfter ▸ arises_of_step reached _ taken
      fun other => by rw [blocksAfter, sameBlocks, blocks]
  · obtain ⟨next, delivered, threadsAfter, countAfter, blocksAfter⟩ :=
      deliver_eq_some index woken sound.keeps room fits
        (by rw [place]; exact legal)
    have taken : system.step layout attr (.send index message woken) = some next := by
      simp [step, sound.running, send, outside, Nat.not_lt.mpr fits, empty, Nat.not_le.mpr room,
        delivered]
    rw [place] at threadsAfter
    exact threadsAfter ▸ countAfter ▸ arises_of_step reached _ taken
      fun other => by rw [blocksAfter, blocks]

theorem Arises.resume_takes (arises : Arises layout attr thread count)
    (place : thread index = .receiveWoken) (some_there : count ≠ 0) {woken : Finset (Fin threads)}
    (legal : count = attr.maxmsg ∧
        Wakes (fun other => (Function.update thread index .running other).Asleep) woken ∨
      count ≠ attr.maxmsg ∧ woken = ∅) :
    Arises layout attr (signalTo (Function.update thread index .running) woken) (count - 1) := by
  obtain ⟨system, reached, rfl, rfl, blocks⟩ := arises
  have sound := sound_of_reachable reached
  have keeps : Keeps layout attr (system.setNwait (system.queue.nwait - 1)).queue
      system.history := sound.keeps.of_header rfl
  obtain ⟨next, fetched, threadsAfter, countAfter, blocksAfter⟩ :=
    fetch_eq_some index woken keeps some_there legal
  have taken : system.step layout attr (.resume index woken) = some next := by
    simp [step, sound.running, resume, place, some_there, fetched]
  have after := arises_of_step reached _ taken fun other => by
    rw [blocksAfter]
    exact blocks other
  rw [threadsAfter, countAfter] at after
  exact after

theorem Arises.resume_sleeps (arises : Arises layout attr thread 0)
    (place : thread index = .receiveWoken) :
    Arises layout attr (Function.update thread index .receiveWait) 0 := by
  obtain ⟨system, reached, rfl, empty, blocks⟩ := arises
  have taken : system.step layout attr (.resume index ∅) =
      some (system.sleep index .receiveWait) := by
    simp [step, (sound_of_reachable reached).running, resume, place, empty]
  exact empty ▸ arises_of_step reached _ taken blocks

end Scenes

section Three

/-- Three threads at these places, and the others outside. -/
def cast (first second third : Fin threads) (placeFirst placeSecond placeThird : MqThread) :
    Fin threads → MqThread :=
  fun index => if index = first then placeFirst else if index = second then placeSecond
    else if index = third then placeThird else .running

variable {first second third : Fin threads} {x y z place : MqThread}

theorem cast_first : cast first second third x y z first = x := if_pos rfl

theorem cast_second (distinct : first ≠ second) : cast first second third x y z second = y := by
  rw [cast, if_neg distinct.symm, if_pos rfl]

theorem cast_third (firstThird : first ≠ third) (secondThird : second ≠ third) :
    cast first second third x y z third = z := by
  rw [cast, if_neg firstThird.symm, if_neg secondThird.symm, if_pos rfl]

theorem update_cast_first : Function.update (cast first second third x y z) first place =
    cast first second third place y z := by
  funext index
  simp only [Function.update_apply, cast]
  split <;> rfl

theorem update_cast_second (distinct : first ≠ second) :
    Function.update (cast first second third x y z) second place =
      cast first second third x place z := by
  funext index
  simp only [Function.update_apply, cast]
  grind

theorem update_cast_third (firstThird : first ≠ third) (secondThird : second ≠ third) :
    Function.update (cast first second third x y z) third place =
      cast first second third x y place := by
  funext index
  simp only [Function.update_apply, cast]
  grind

/-- A signal that wakes one sleeper. -/
theorem wakes_singleton {thread : Fin threads → MqThread} (index : Fin threads)
    (sleeps : (thread index).Asleep) : Wakes (fun other => (thread other).Asleep) {index} :=
  ⟨fun _ member => Finset.mem_singleton.mp member ▸ sleeps,
    fun _ => Finset.singleton_nonempty index⟩

theorem signalTo_singleton (thread : Fin threads → MqThread) (index : Fin threads) :
    signalTo thread {index} = Function.update thread index (thread index).awaken := by
  funext other
  rw [signalTo, Function.update_apply]
  by_cases same : other = index
  · subst same
    rw [if_pos (Finset.mem_singleton_self other), if_pos rfl]
  · rw [if_neg (Finset.mem_singleton.not.mpr same), if_neg same]

theorem signalTo_empty (thread : Fin threads → MqThread) : signalTo thread ∅ = thread :=
  funext fun index => if_neg (Finset.notMem_empty index)

/-- A thread outside fills the queue; behind the first message it signals nobody. -/
theorem Arises.fills {thread : Fin threads → MqThread} {index : Fin threads} {count : Nat}
    (arises : Arises layout attr thread count) (more : Nat) (outside : thread index = .running)
    (started : count ≠ 0) (room : count + more ≤ attr.maxmsg) :
    Arises layout attr thread (count + more) := by
  induction more with
  | zero => exact arises
  | succ more inductionHypothesis =>
    have before := inductionHypothesis (by omega)
    have after := before.send_puts ⟨0, []⟩ outside (Nat.zero_le _) (by omega)
      (Or.inr ⟨by omega, rfl⟩)
    rwa [signalTo_empty] at after

/-- With a third thread, a sender is left asleep before a queue that has room. Two receivers
sleep; the sender wakes the first one, fills the queue and goes to sleep. The first receiver's
signal goes to the second one, and the sender is told nothing. -/
theorem leftAsleep_of_three (layout : MqLayout) (attr : MqAttr) (firstSecond : first ≠ second)
    (firstThird : first ≠ third) (secondThird : second ≠ third) :
    ∃ system, (machine layout attr threads).Reachable system ∧ system.LeftAsleep attr := by
  have positive := attr.maxmsg_pos
  have everyoneOutside : (fun _ : Fin threads => MqThread.running) =
      cast first second third .running .running .running := by
    funext index
    simp [cast]
  have scene : Arises layout attr (cast first second third .running .running .running) 0 :=
    everyoneOutside ▸ arises_start
  -- Both receivers find the queue empty.
  replace scene := scene.receive_sleeps cast_first
  rw [update_cast_first] at scene
  replace scene := scene.receive_sleeps (cast_second firstSecond)
  rw [update_cast_second firstSecond] at scene
  -- The first message wakes the first receiver, the others nobody, and then the queue is full.
  replace scene := scene.send_puts ⟨0, []⟩ (cast_third firstThird secondThird)
    (Nat.zero_le _) positive (Or.inl ⟨rfl, wakes_singleton first (by
      rw [cast_first]; trivial)⟩)
  rw [signalTo_singleton, cast_first, update_cast_first] at scene
  replace scene := scene.fills (attr.maxmsg - 1) (cast_third firstThird secondThird)
    Nat.one_ne_zero (by omega)
  rw [show 0 + 1 + (attr.maxmsg - 1) = attr.maxmsg by omega] at scene
  replace scene := scene.send_sleeps ⟨0, []⟩ (cast_third firstThird secondThird)
    (Nat.zero_le _)
  rw [update_cast_third firstThird secondThird] at scene
  -- The first receiver takes a message and wakes the second receiver.
  replace scene := scene.resume_takes cast_first positive.ne' (Or.inl ⟨rfl,
    wakes_singleton second (by
      rw [update_cast_first, cast_second firstSecond]; trivial)⟩)
  rw [signalTo_singleton, update_cast_first, cast_second firstSecond,
    update_cast_second firstSecond] at scene
  by_cases one : attr.maxmsg = 1
  · -- Nothing is left for the second receiver.
    rw [one] at scene
    replace scene := scene.resume_sleeps (cast_second firstSecond)
    rw [update_cast_second firstSecond] at scene
    obtain ⟨system, reached, threadsAre, count, -⟩ := scene
    refine ⟨system, reached, ⟨third, ?_⟩, fun index => ?_⟩
    · rw [Oversleeps, threadsAre, cast_third firstThird secondThird, count]
      exact positive
    · rw [threadsAre, cast]
      grind [MqThread.Asleep]
  · replace scene := scene.resume_takes (cast_second firstSecond) (by omega)
      (Or.inr ⟨by omega, rfl⟩)
    rw [signalTo_empty, update_cast_second firstSecond] at scene
    obtain ⟨system, reached, threadsAre, count, -⟩ := scene
    refine ⟨system, reached, ⟨third, ?_⟩, fun index => ?_⟩
    · rw [Oversleeps, threadsAre, cast_third firstThird secondThird, count]
      show attr.maxmsg - 1 - 1 < attr.maxmsg
      omega
    · rw [threadsAre, cast]
      grind [MqThread.Asleep]

end Three

/-- One condition variable for both directions, signalled only at the ends, serves two threads and
no more: for a queue of any size, a state in which a thread sleeps although what it waits for is
there, and nobody is on the way out of a wait, is reached by some run exactly when three threads
use the queue. -/
theorem mqh_wait_serves_two_threads (layout : MqLayout) (attr : MqAttr) (threads : Nat) :
    (∃ system, (machine layout attr threads).Reachable system ∧ system.LeftAsleep attr) ↔
      2 < threads := by
  constructor
  · rintro ⟨system, reached, ⟨index, oversleeps⟩, -⟩
    by_contra few
    exact no_oversleep_of_reachable (Nat.not_lt.mp few) reached index oversleeps
  · intro three
    have firstSecond : (⟨0, by omega⟩ : Fin threads) ≠ ⟨1, by omega⟩ := by simp
    have firstThird : (⟨0, by omega⟩ : Fin threads) ≠ ⟨2, three⟩ := by simp
    have secondThird : (⟨1, by omega⟩ : Fin threads) ≠ ⟨2, three⟩ := by simp
    exact leftAsleep_of_three layout attr firstSecond firstThird secondThird

end SocketC.MqSystem
