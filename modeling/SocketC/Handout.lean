/-
This file proves that the user-scheduled pool hands descriptors out in the order
in which they were put. The ring keeps no element count, so the invariant is on
the two wrapping indices: both stay below `MAXNCLI`, and the descriptors already
taken followed by those read cyclically from `iget` up to `iput` are the
descriptors put. The put section preserves it unless the advanced index meets
`iget`, and that is exactly when the process ends in `err_quit`.
-/

import SocketC.UserPool

namespace SocketC.UserPool

variable {workers : Nat} {kernel : Finset Nat → Nat → Bool}

/-! ### The indices stay inside the ring -/

/-- Both indices are slots of `clifd`. -/
structure InRing (pool : UserPool workers) : Prop where
  getBound : pool.iget < maxNCli
  putBound : pool.iput < maxNCli

theorem inRing_start (workers : Nat) : (start workers).InRing :=
  ⟨show 0 < maxNCli by decide, show 0 < maxNCli by decide⟩

theorem InRing.moves {pool next : UserPool workers} (inside : pool.InRing)
    (moves : Moves kernel pool next) : next.InRing := by
  cases moves with
  | overflow connfd holding full => exact ⟨inside.getBound, Ring.advance_lt inside.putBound⟩
  | put connfd woken holding room wakes =>
    exact ⟨inside.getBound, Ring.advance_lt inside.putBound⟩
  | take index locks nonempty => exact ⟨Ring.advance_lt inside.getBound, inside.putBound⟩
  | _ => exact ⟨inside.getBound, inside.putBound⟩

theorem inRing_of_reachable {pool : UserPool workers}
    (reached : (machine workers kernel).Reachable pool) : pool.InRing := by
  refine reached.invariant InRing (inRing_start workers) fun current action next inside taken => ?_
  exact inside.moves (moves_of_step taken).2

/-! ### Descriptors leave the ring in the order in which they entered it -/

/-- What the ring contents become in a put that passes the overflow check. -/
theorem queued_put (pool : UserPool workers) (inside : pool.InRing) (connfd : Nat)
    (room : Ring.advance maxNCli pool.iput ≠ pool.iget) :
    Ring.contents (Function.update pool.clifd pool.iput connfd) maxNCli pool.iget
        (Ring.advance maxNCli pool.iput) = pool.queued ++ [connfd] :=
  Ring.contents_put pool.clifd connfd inside.getBound inside.putBound room

/-- The descriptor a worker takes is the first of the ring contents. -/
theorem queued_take (pool : UserPool workers) (inside : pool.InRing)
    (nonempty : pool.iget ≠ pool.iput) :
    pool.queued = pool.clifd pool.iget ::
      Ring.contents pool.clifd maxNCli (Ring.advance maxNCli pool.iget) pool.iput :=
  Ring.contents_take pool.clifd inside.getBound inside.putBound nonempty

/-- The descriptors taken, in the order taken over all workers. -/
def taken (pool : UserPool workers) : List Nat := pool.takes.map Prod.snd

/-- The ring is a first-in first-out queue between the two sections, unless the put section
has called `err_quit`. -/
def Fifo (pool : UserPool workers) : Prop :=
  pool.status ≠ .overflow → pool.taken ++ pool.queued = pool.puts

theorem fifo_start (workers : Nat) : (start workers).Fifo := by
  intro _
  have empty : (start workers).queued = [] :=
    (Ring.contents_eq_nil_iff _ (inRing_start workers).getBound
      (inRing_start workers).putBound).mpr rfl
  rw [empty]
  rfl

theorem Fifo.moves {pool next : UserPool workers} (inside : pool.InRing)
    (running : pool.status = .running) (fifo : pool.Fifo) (moves : Moves kernel pool next) :
    next.Fifo := by
  have before : pool.taken ++ pool.queued = pool.puts := fifo (by rw [running]; decide)
  cases moves with
  | overflow connfd holding full => exact fun noOverflow => absurd rfl noOverflow
  | put connfd woken holding room wakes =>
    intro _
    show pool.taken ++ Ring.contents _ maxNCli pool.iget _ = pool.puts ++ [connfd]
    rw [queued_put pool inside connfd room, ← List.append_assoc, before]
  | take index locks nonempty =>
    intro _
    show (pool.takes ++ [(index, pool.clifd pool.iget)]).map Prod.snd ++
      Ring.contents pool.clifd maxNCli _ pool.iput = pool.puts
    rw [← before, queued_take pool inside nonempty, List.map_append, List.append_assoc]
    rfl
  | _ => exact fun _ => before

theorem fifo_of_reachable {pool : UserPool workers}
    (reached : (machine workers kernel).Reachable pool) : pool.Fifo := by
  refine reached.induction Fifo (fifo_start workers) fun current action next before fifo taken => ?_
  obtain ⟨running, moves⟩ := moves_of_step taken
  exact Fifo.moves (inRing_of_reachable before) running fifo moves

/-- In every reachable state in which the put section has not called `err_quit`, the
descriptors taken by the workers, followed by the ring contents read cyclically from `iget` up
to `iput`, are the descriptors put, in order. -/
theorem handout_fifo (workers : Nat) (kernel : Finset Nat → Nat → Bool)
    (pool : UserPool workers) (reached : (machine workers kernel).Reachable pool)
    (noOverflow : pool.status ≠ .overflow) :
    pool.taken ++ pool.queued = pool.puts :=
  fifo_of_reachable reached noOverflow

/-- Two workers, two connections put, one of them taken by the second worker. -/
def handoutRun : List (Action 2) :=
  [.lock 0, .accept 4, .put {0}, .accept 5, .lock 1, .put ∅, .count 1]

theorem handout_fifo_run :
    ((machine 2 unusedDescriptor).after handoutRun).taken = [4] ∧
      ((machine 2 unusedDescriptor).after handoutRun).taken ++
          ((machine 2 unusedDescriptor).after handoutRun).queued =
        ((machine 2 unusedDescriptor).after handoutRun).puts :=
  ⟨by decide, handout_fifo 2 unusedDescriptor _ (Machine.reachable_after handoutRun (by decide))
    (by decide)⟩

end SocketC.UserPool
