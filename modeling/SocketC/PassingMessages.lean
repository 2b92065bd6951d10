/-
This file shows what a message on the standard error of a child does to the parent of
`unpv13e/server/serv05.c`. The parent takes every byte of it for a child that has become available.
One byte of a child that was available before, or two bytes of a child that was busy, are enough for
`navail` to be larger than the number of available children. The parent then accepts a connection
that it has no child for and exits.

The runs are built in scenes: the first child prints its message, the parent reads it, and then
all children that are marked as available are given a connection.
-/

import SocketC.PassingServer

namespace SocketC.PassingServer

open Monitor Sweep

variable {nchildren : Nat} {limits : MessageLimits} {server next : PassingServer nchildren}

/-! ### Steps of a run -/

theorem reach_child (reached : (machine nchildren limits).Reachable server)
    {index : Fin nchildren} {action : ChildAction} {child : PassedChild} {served lost : List Nat}
    (went : (server.child index).step limits action = some (child, served, lost)) :
    (machine nchildren limits).Reachable { server with
      child := Function.update server.child index child
      served := server.served ++ served
      lost := server.lost ++ lost } := by
  have taken : server.step limits (.child index action) = some { server with
      child := Function.update server.child index child
      served := server.served ++ served
      lost := server.lost ++ lost } := by
    rw [step, went, Option.map_some]
  exact Machine.Leads.step reached (.child index action) taken

/-- `Select` finds a new connection and nothing else. -/
theorem reach_accept (reached : (machine nchildren limits).Reachable server)
    (place : server.place = .select) (available : 0 < server.navail) :
    (machine nchildren limits).Reachable
      { server with place := .accept, rset := fun _ => false, nsel := 1 } := by
  have taken : server.step limits (.select true fun _ => false) =
      some { server with place := .accept, rset := fun _ => false, nsel := 1 } := by
    rw [step, selectStep, if_pos ⟨place, fun _ => available, by simp, by simp⟩,
      marksFrom_eq_zero_iff.mpr fun _ _ => rfl]
    rfl
  exact Machine.Leads.step reached (.select true fun _ => false) taken

/-- The connection is passed to a child. -/
theorem reach_pass (reached : (machine nchildren limits).Reachable server)
    (place : server.place = .select) (available : 0 < server.navail) {index : Fin nchildren}
    (found : server.firstAvailable = some index) (alive : (server.child index).phase ≠ .exited) :
    (machine nchildren limits).Reachable { server with
      place := .select
      rset := fun _ => false
      nsel := 0
      navail := server.navail - 1
      child := Function.update server.child index
        { server.child index with
          status := true
          count := (server.child index).count + 1
          toChild := (server.child index).toChild ++ [server.accepted] }
      accepted := server.accepted + 1 } := by
  refine Machine.Leads.step (reach_accept reached place available) .accept ?_
  show some (acceptStep { server with place := .accept, rset := fun _ => false, nsel := 1 }) = _
  have foundToo : firstAvailable
      { server with place := .accept, rset := fun _ => false, nsel := 1 } = some index := found
  rw [acceptStep, foundToo]
  exact congrArg some (if_neg alive)

/-- No child is available, and `navail` says otherwise. -/
theorem reach_noAvailable (reached : (machine nchildren limits).Reachable server)
    (place : server.place = .select) (available : 0 < server.navail)
    (nobody : server.firstAvailable = none) :
    ∃ last, (machine nchildren limits).Reachable last ∧ last.place = .noAvailable := by
  refine ⟨_, Machine.Leads.step (reach_accept reached place available) .accept rfl, ?_⟩
  have nobodyToo : firstAvailable
      { server with place := .accept, rset := fun _ => false, nsel := 1 } = none := nobody
  rw [acceptStep, nobodyToo]

/-- The parent reads a byte of the first child. -/
theorem reach_read (reached : (machine nchildren limits).Reachable server)
    (place : server.place = .select) (some_child : 0 < nchildren) {left : Nat}
    (written : (server.child ⟨0, some_child⟩).toParent = left + 1) :
    (machine nchildren limits).Reachable { server with
      place := .select
      rset := fun index => decide (index = ⟨0, some_child⟩)
      nsel := 0
      navail := server.navail + 1
      child := Function.update server.child ⟨0, some_child⟩
        { server.child ⟨0, some_child⟩ with status := false, toParent := left } } := by
  have one : marksFrom (fun index => decide (index = (⟨0, some_child⟩ : Fin nchildren))) 0 = 1 := by
    simp [marksFrom, Finset.filter_eq']
  have selected : server.step limits
      (.select false fun index => decide (index = ⟨0, some_child⟩)) = some { server with
        place := .scan 0
        rset := fun index => decide (index = ⟨0, some_child⟩)
        nsel := 1 } := by
    have readable : ∀ index, decide (index = (⟨0, some_child⟩ : Fin nchildren)) = true →
        (server.child index).Readable := by
      intro index isFirst
      rw [of_decide_eq_true isFirst]
      exact Or.inl (by omega)
    rw [step, selectStep, if_pos ⟨place, by simp, readable, by rw [one]; decide⟩, one]
    rfl
  have reachedScan : (machine nchildren limits).Reachable _ :=
    Machine.Leads.step reached (.select false fun index => decide (index = ⟨0, some_child⟩))
      selected
  refine Machine.Leads.step reachedScan .scan ?_
  show scanStep _ 0 = _
  have isSet : decide ((⟨0, some_child⟩ : Fin nchildren) = ⟨0, some_child⟩) = true :=
    decide_eq_true rfl
  rw [scanStep, dif_pos some_child]
  dsimp only
  rw [if_pos isSet, if_pos (by omega), written]
  rfl

theorem firstAvailable_of_load (positive : 0 < load (fun child => (!child.status).toNat)
    server.child) : ∃ index, server.firstAvailable = some index := by
  refine Option.ne_none_iff_exists'.mp fun nobody => ?_
  obtain ⟨index, free⟩ := exists_weight_of_load_pos positive
  rw [busy_of_firstAvailable nobody index] at free
  cases free

theorem firstAvailable_start (some_child : 0 < nchildren) :
    (start nchildren).firstAvailable = some ⟨0, some_child⟩ := by
  obtain ⟨others, rfl⟩ := Nat.exists_eq_add_one.mpr some_child
  rw [firstAvailable, List.finRange_succ]
  rfl

/-! ### Scenes -/

/-- Every child is alive, and `navail` is larger than the number of available children. -/
structure Overdrawn (limits : MessageLimits) (free extra : Nat) (server : PassingServer nchildren) :
    Prop where
  reached : (machine nchildren limits).Reachable server
  place : server.place = .select
  alive : ∀ index, (server.child index).phase ≠ .exited
  frees : load (fun child => (!child.status).toNat) server.child = free
  navail : server.navail = free + extra

theorem overdrawn_start (nchildren : Nat) (limits : MessageLimits) :
    Overdrawn limits nchildren 0 (start nchildren) where
  reached := Machine.Reachable.start
  place := rfl
  alive := fun _ => nofun
  frees := by simp [start, load]
  navail := (add_zero _).symm

theorem alive_update {index : Fin nchildren} {child : PassedChild}
    (alive : ∀ other, (server.child other).phase ≠ .exited) (childAlive : child.phase ≠ .exited)
    (other : Fin nchildren) : (Function.update server.child index child other).phase ≠ .exited := by
  rw [Function.update_apply]
  split
  · exact childAlive
  · exact alive other

/-- A child does something and does not exit. -/
theorem Overdrawn.child {free extra : Nat} (overdrawn : Overdrawn limits free extra server)
    {index : Fin nchildren} {child after : PassedChild} (before : server.child index = child)
    {action : ChildAction} {served lost : List Nat}
    (went : child.step limits action = some (after, served, lost))
    (alive : after.phase ≠ .exited) :
    ∃ next, Overdrawn limits free extra next ∧ next.child index = after := by
  subst before
  refine ⟨_, ⟨reach_child overdrawn.reached went, overdrawn.place,
    alive_update overdrawn.alive alive, ?_, overdrawn.navail⟩, Function.update_self _ _ _⟩
  have moved := load_update (fun child => (!child.status).toNat) server.child index after
  dsimp only at moved ⊢
  rw [(childGoes_of_step went).status] at moved
  rw [Nat.add_right_cancel moved, overdrawn.frees]

/-- A byte of the first child is read. If the child was marked as available before, there is now
one too many. -/
theorem Overdrawn.read {free extra : Nat} (overdrawn : Overdrawn limits free extra server)
    {some_child : 0 < nchildren} {child : PassedChild}
    (before : server.child ⟨0, some_child⟩ = child) {left : Nat}
    (written : child.toParent = left + 1) :
    ∃ next, Overdrawn limits (free + child.status.toNat) (extra + (!child.status).toNat) next ∧
      next.child ⟨0, some_child⟩ = { child with status := false, toParent := left } := by
  subst before
  have moved := load_update (fun child => (!child.status).toNat) server.child ⟨0, some_child⟩
    { server.child ⟨0, some_child⟩ with status := false, toParent := left }
  have frees := overdrawn.frees
  simp only [Bool.not_false, Bool.toNat_true] at moved
  refine ⟨_, ⟨reach_read overdrawn.reached overdrawn.place some_child written, rfl,
    alive_update overdrawn.alive (overdrawn.alive ⟨0, some_child⟩), ?_, ?_⟩, ?_⟩
  · dsimp only
    cases isBusy : (server.child ⟨0, some_child⟩).status <;>
      simp only [isBusy, Bool.not_true, Bool.not_false, Bool.toNat_true, Bool.toNat_false]
        at moved ⊢ <;> omega
  · show server.navail + 1 = _
    rw [overdrawn.navail]
    cases (server.child ⟨0, some_child⟩).status <;>
      simp only [Bool.not_true, Bool.not_false, Bool.toNat_true, Bool.toNat_false] <;> push_cast <;>
      omega
  · dsimp only
    rw [Function.update_self]

/-- A child that is marked as available gets a connection. -/
theorem Overdrawn.pass {free extra : Nat} (overdrawn : Overdrawn limits (free + 1) extra server)
    {index : Fin nchildren} (found : server.firstAvailable = some index) :
    ∃ next, Overdrawn limits free extra next ∧ next.child index =
      { server.child index with
        status := true
        count := (server.child index).count + 1
        toChild := (server.child index).toChild ++ [server.accepted] } := by
  have frees := overdrawn.frees
  have navail := overdrawn.navail
  have available : 0 < server.navail := by omega
  refine ⟨_, ⟨reach_pass overdrawn.reached overdrawn.place available found (overdrawn.alive index),
    rfl, alive_update overdrawn.alive (overdrawn.alive index), ?_, ?_⟩, Function.update_self _ _ _⟩
  · have moved := load_update (fun child => (!child.status).toNat) server.child index
      { server.child index with
        status := true
        count := (server.child index).count + 1
        toChild := (server.child index).toChild ++ [server.accepted] }
    simp only [status_of_firstAvailable found, Bool.not_false, Bool.not_true, Bool.toNat_true,
      Bool.toNat_false] at moved
    dsimp only
    omega
  · dsimp only
    omega

/-- The children are given a connection each until none is left. -/
theorem Overdrawn.exhaust {free extra : Nat} (overdrawn : Overdrawn limits free extra server) :
    ∃ next : PassingServer nchildren, Overdrawn limits 0 extra next := by
  induction free generalizing server with
  | zero => exact ⟨server, overdrawn⟩
  | succ free inductionHypothesis =>
    have some_free : 0 < load (fun child => (!child.status).toNat) server.child := by
      rw [overdrawn.frees]
      exact Nat.succ_pos free
    obtain ⟨index, found⟩ := firstAvailable_of_load some_free
    obtain ⟨next, passed, -⟩ := overdrawn.pass found
    exact inductionHypothesis passed

theorem Overdrawn.noAvailable {free extra : Nat}
    (overdrawn : Overdrawn limits free (extra + 1) server) :
    ∃ last : PassingServer nchildren,
      (machine nchildren limits).Reachable last ∧ last.place = .noAvailable := by
  obtain ⟨last, exhausted⟩ := overdrawn.exhaust
  have navail := exhausted.navail
  refine reach_noAvailable exhausted.reached exhausted.place (by omega) ?_
  refine Option.eq_none_iff_forall_ne_some.mpr fun index found => ?_
  have busy := (load_eq_zero_iff _ _).mp exhausted.frees index
  rw [status_of_firstAvailable found] at busy
  cases busy

/-- One byte of a child that waits for its first connection. -/
theorem noAvailable_of_idle (some_child : 0 < nchildren) (prints : 1 ≤ limits.idle) :
    ∃ last : PassingServer nchildren,
      (machine nchildren limits).Reachable last ∧ last.place = .noAvailable := by
  have failed : PassedChild.step limits ⟨false, 0, [], 0, .readFd, false⟩ (.fails 1) =
      some (⟨false, 0, [], 1, .dying, false⟩, [], []) := if_pos (decide_eq_true prints)
  have first : (start nchildren).child ⟨0, some_child⟩ = ⟨false, 0, [], 0, .readFd, false⟩ := rfl
  obtain ⟨printed, scene, first⟩ :=
    (overdrawn_start nchildren limits).child first failed (by nofun)
  obtain ⟨readOne, scene, -⟩ := scene.read first rfl
  exact scene.noAvailable

/-- Two bytes of a child that has a connection: when the second one is read, the child is already
marked as available. -/
theorem noAvailable_of_busy (some_child : 0 < nchildren) (prints : 2 ≤ limits.busy) :
    ∃ last : PassingServer nchildren,
      (machine nchildren limits).Reachable last ∧ last.place = .noAvailable := by
  obtain ⟨others, rfl⟩ := Nat.exists_eq_add_one.mpr some_child
  have received : PassedChild.step limits ⟨true, 1, [0], 0, .readFd, false⟩ .receive =
      some (⟨true, 1, [], 0, .serving 0, false⟩, [], []) := rfl
  have failed : PassedChild.step limits ⟨true, 1, [], 0, .serving 0, false⟩ (.fails 2) =
      some (⟨true, 1, [], 2, .dying, false⟩, [], [0]) := if_pos (decide_eq_true prints)
  obtain ⟨passed, scene, first⟩ :=
    (overdrawn_start (others + 1) limits).pass (firstAvailable_start some_child)
  obtain ⟨serving, scene, first⟩ := scene.child first received (by nofun)
  obtain ⟨printed, scene, first⟩ := scene.child first failed (by nofun)
  obtain ⟨readOne, scene, first⟩ := scene.read first rfl
  obtain ⟨readTwo, scene, -⟩ := scene.read first rfl
  exact scene.noAvailable

/-! ### What a message does -/

/-- Without children there are no messages. -/
theorem machine_zero (limits : MessageLimits) : machine 0 limits = machine 0 ⟨0, 0⟩ := by
  have same : (step limits : PassingServer 0 → Action 0 → Option (PassingServer 0)) =
      step ⟨0, 0⟩ := by
    funext server action
    cases action with
    | select listen ready => rfl
    | accept => rfl
    | scan => rfl
    | child index action => exact index.elim0
  rw [machine, machine, same]

/-- The parent can come to accept a connection that it has no child for, exactly if a child that
waits for a connection can print one byte before it exits, or a child that was passed one can print
two. -/
theorem serv05_overcounts_iff (nchildren : Nat) (limits : MessageLimits) :
    (∃ server, (machine nchildren limits).Reachable server ∧ server.place = .noAvailable) ↔
      0 < nchildren ∧ (1 ≤ limits.idle ∨ 2 ≤ limits.busy) := by
  constructor
  · rintro ⟨server, reached, place⟩
    constructor
    · by_contra none_there
      obtain rfl : nchildren = 0 := Nat.eq_zero_of_not_pos none_there
      rw [machine_zero] at reached
      exact (books_of_reachable ⟨rfl, Nat.zero_le 1⟩ reached).available place
    · by_contra short
      exact (books_of_reachable ⟨by omega, by omega⟩ reached).available place
  · rintro ⟨some_child, idle | busy⟩
    · exact noAvailable_of_idle some_child idle
    · exact noAvailable_of_busy some_child busy

end SocketC.PassingServer
