/-
This file is about the children of the forking server that have exited and were not
waited for. `SIGCHLD` has one pending bit, so several exits may lead to one call of
`sig_chld`, and the handler waits until `waitpid` finds nobody. A zombie is never
forgotten: the signal is pending, or the handler is running and will call `waitpid`
again. A child that exits after the last `waitpid`, before the handler has returned,
sets the bit once more. Left alone, the handler waits for all of them.
-/

import SocketC.ForkServer

namespace SocketC

/-- `sig_chld` is running, and `waitpid` has not yet reported that no zombie is left. -/
def SigChld.Looking : SigChld → Prop
  | .waitpid | .log _ => True
  | .idle | .leave => False

namespace ForkServer

/-! ### No zombie is forgotten -/

/-- If there is a zombie, the handler is about to be entered or still looking. -/
def Noticed (server : ForkServer) : Prop :=
  server.HasZombie → server.pending = true ∨ server.handler.Looking

theorem zombie_of_update {children : Nat → ForkChild} {index : Nat} (child : Nat)
    {place : ForkChild} (other : place ≠ .zombie)
    (zombie : Function.update children child place index = .zombie) :
    children index = .zombie := by
  by_cases same : index = child
  · rw [same, Function.update_self] at zombie
    exact absurd zombie other
  · rwa [Function.update_of_ne same] at zombie

/-- A child that goes elsewhere adds no zombie. -/
theorem hasZombie_of_childGoes {server : ForkServer} (child : Nat) {place : ForkChild}
    (other : place ≠ .zombie) : (server.childGoes child place).HasZombie → server.HasZombie :=
  fun ⟨index, created, zombie⟩ => ⟨index, created, zombie_of_update child other zombie⟩

theorem not_hasZombie_parentEnds (server : ForkServer) : ¬ server.parentEnds.HasZombie := by
  rintro ⟨index, -, zombie⟩
  change (if server.child index = .zombie then .reaped else server.child index) = .zombie at zombie
  split at zombie
  · cases zombie
  · exact absurd zombie ‹_›

theorem Noticed.childExits {server : ForkServer} (noticed : server.Noticed) (child : Nat) :
    (server.childExits child).Noticed := by
  unfold ForkServer.childExits
  split
  · have other : ForkChild.reaped ≠ .zombie := nofun
    exact fun zombie => noticed (hasZombie_of_childGoes child other zombie)
  · exact fun _ => Or.inl rfl

theorem Noticed.moves {server next : ForkServer} (noticed : server.Noticed)
    (moves : Moves server next) : next.Noticed := by
  cases moves with
  | accept | close => exact noticed
  | fork here =>
    rintro ⟨index, created, zombie⟩
    have other : ForkChild.closeListen ≠ .zombie := nofun
    have before : server.child index = .zombie := zombie_of_update server.forked other zombie
    have different : index ≠ server.forked := by
      rintro rfl
      simp only [Function.update_self, reduceCtorEq] at zombie
    exact noticed ⟨index, Nat.lt_of_le_of_ne (Nat.lt_succ_iff.mp created) different, before⟩
  | parentEnds => exact fun zombie => absurd zombie server.not_hasZombie_parentEnds
  | closeListen child created here =>
    have other : ForkChild.recv ≠ .zombie := nofun
    exact fun zombie => noticed (hasZombie_of_childGoes child other zombie)
  | childGoes child place created before away after later =>
    have other : place ≠ .zombie := by
      rintro rfl
      exact after
    exact fun zombie => noticed (hasZombie_of_childGoes child other zombie)
  | childExits child created before => exact noticed.childExits child
  | enters | reaps | logged => exact fun _ => Or.inr trivial
  | noneLeft here none => exact fun zombie => absurd zombie none
  | handlerReturns here =>
    intro zombie
    obtain pending | looking := noticed zombie
    · exact Or.inl pending
    · rw [here] at looking
      exact looking.elim

theorem noticed_of_reachable {listenfd : Int} {others : Finset Int} {server : ForkServer}
    (reached : (machine listenfd others).Reachable server) : server.Noticed :=
  reached.invariant Noticed (fun ⟨_, created, _⟩ => absurd created (Nat.not_lt_zero _))
    fun _ _ _ noticed taken => noticed.moves (moves_of_step taken)

/-! ### The handler left alone -/

/-- The handler, with nothing else happening. -/
def handling (server : ForkServer) : Machine ForkServer (Option Nat) where
  start := server
  step := handlerStep

/-- The children still to be waited for. -/
def zombies (server : ForkServer) : Finset Nat :=
  {child ∈ Finset.range server.forked | server.child child = .zombie}

theorem mem_zombies {server : ForkServer} {child : Nat} :
    child ∈ server.zombies ↔ child < server.forked ∧ server.child child = .zombie := by
  rw [zombies, Finset.mem_filter, Finset.mem_range]

/-- Waiting for a zombie leaves one less. -/
theorem zombies_childGoes (server : ForkServer) (child : Nat) :
    (server.childGoes child .reaped).zombies = server.zombies.erase child := by
  ext index
  rw [Finset.mem_erase, mem_zombies, mem_zombies, childGoes]
  by_cases same : index = child
  · subst same
    simp
  · simp [same]

/-- From `waitpid`, the handler gets to its end, and no zombie is left. -/
theorem waitpid_leads (first server : ForkServer) (here : server.handler = .waitpid) :
    ∃ next, first.handling.Leads server next ∧ next.handler = .leave ∧
      next.pending = server.pending ∧ ¬ next.HasZombie := by
  -- Induction on the number of zombies: each turn of the loop waits for one.
  induction size : server.zombies.card generalizing server with
  | zero =>
    have none : ¬ server.HasZombie := by
      rintro ⟨child, found⟩
      have member := mem_zombies.mpr found
      rw [Finset.card_eq_zero.mp size] at member
      exact Finset.notMem_empty child member
    refine ⟨{ server with handler := .leave }, .of_step Option.none ?_, rfl, rfl, none⟩
    simp only [handling, handlerStep, here, if_neg none]
  | succ count inductionHypothesis =>
    have nonempty : server.zombies.Nonempty := Finset.card_pos.mp (by omega)
    obtain ⟨child, member⟩ := nonempty
    have found := mem_zombies.mp member
    have reaped : first.handling.Leads server
        { server.childGoes child .reaped with handler := .log child } := by
      refine .of_step (some child) ?_
      simp only [handling, handlerStep, here, if_pos found]
    have logged : first.handling.Leads
        { server.childGoes child .reaped with handler := .log child }
        { server.childGoes child .reaped with handler := .waitpid } :=
      .of_step Option.none rfl
    have fewer : (server.childGoes child .reaped).zombies.card = count := by
      rw [zombies_childGoes, Finset.card_erase_of_mem member]
      omega
    obtain ⟨next, onward, rest⟩ := inductionHypothesis
      { server.childGoes child .reaped with handler := .waitpid } rfl fewer
    exact ⟨next, (reaped.trans logged).trans onward, rest⟩

/-- From `waitpid`, the handler gets back to the interrupted code. -/
theorem returned_leads (first server : ForkServer) (here : server.handler = .waitpid) :
    ∃ next, first.handling.Leads server next ∧ next.handler = .idle ∧
      next.pending = server.pending ∧ ¬ next.HasZombie := by
  obtain ⟨next, leads, leave, pending, none⟩ := waitpid_leads first server here
  have returns : first.handling.Leads next { next with handler := .idle } := by
    refine .of_step Option.none ?_
    simp only [handling, handlerStep, leave]
  exact ⟨_, leads.trans returns, rfl, pending, none⟩

/-- An idle handler is entered if the signal is pending; otherwise there is nothing to do. -/
theorem idle_leads (server current : ForkServer) (idle : current.handler = .idle)
    (noticed : current.Noticed) :
    ∃ next, server.handling.Leads current next ∧ next.handler = .idle ∧ next.pending = false ∧
      ¬ next.HasZombie := by
  cases pending : current.pending with
  | true =>
    have enters : server.handling.Leads current
        { current with pending := false, handler := .waitpid } := by
      refine .of_step Option.none ?_
      simp only [handling, handlerStep, idle, pending, if_true]
    obtain ⟨next, onward, settled⟩ :=
      returned_leads server { current with pending := false, handler := .waitpid } rfl
    exact ⟨next, enters.trans onward, settled⟩
  | false =>
    refine ⟨current, .refl current, idle, pending, fun zombie => ?_⟩
    obtain isPending | looking := noticed zombie
    · rw [pending] at isPending
      cases isPending
    · rw [idle] at looking
      exact looking

/-- A handler in its loop returns first. -/
theorem looking_leads (server current : ForkServer) (here : current.handler = .waitpid) :
    ∃ next, server.handling.Leads current next ∧ next.handler = .idle ∧ next.pending = false ∧
      ¬ next.HasZombie := by
  obtain ⟨between, onward, idle, -, none⟩ := returned_leads server current here
  obtain ⟨next, again, settled⟩ :=
    idle_leads server between idle fun zombie => absurd zombie none
  exact ⟨next, onward.trans again, settled⟩

/-- From any place, the handler gets to a state with no zombie and no signal pending, entered once
more if the signal is pending when it returns. -/
theorem handler_leads (server : ForkServer) (noticed : server.Noticed) :
    ∃ next, server.handling.Leads server next ∧ next.handler = .idle ∧ next.pending = false ∧
      ¬ next.HasZombie := by
  cases here : server.handler with
  | idle => exact idle_leads server server here noticed
  | waitpid => exact looking_leads server server here
  | log child =>
    have logged : server.handling.Leads server { server with handler := .waitpid } := by
      refine .of_step none ?_
      simp only [handling, handlerStep, here]
    obtain ⟨next, onward, settled⟩ :=
      looking_leads server { server with handler := .waitpid } rfl
    exact ⟨next, logged.trans onward, settled⟩
  | leave =>
    have left : server.handling.Leads server { server with handler := .idle } := by
      refine .of_step none ?_
      simp only [handling, handlerStep, here]
    obtain ⟨next, onward, settled⟩ := idle_leads server { server with handler := .idle } rfl
      (noticed.moves (.handlerReturns here))
    exact ⟨next, left.trans onward, settled⟩

/-- In every run of the forking server, with any children exiting at any time: a zombie means that
the signal is pending or the handler still looking, so that there is none when the handler does
not run and no signal is pending; and the handler, left alone, gets there. -/
theorem no_zombie_forgotten (listenfd : Int) (others : Finset Int) (server : ForkServer)
    (reached : (machine listenfd others).Reachable server) :
    (server.HasZombie → server.pending = true ∨ server.handler.Looking) ∧
    (server.handler = .idle → server.pending = false → ¬ server.HasZombie) ∧
    ∃ next, server.handling.Leads server next ∧ next.handler = .idle ∧ next.pending = false ∧
      ¬ next.HasZombie := by
  have noticed := noticed_of_reachable reached
  refine ⟨noticed, fun idle unset zombie => ?_, handler_leads server noticed⟩
  obtain pending | looking := noticed zombie
  · rw [unset] at pending
    cases pending
  · rw [idle] at looking
    exact looking

/-- Two children exit at once and one signal is delivered; the third exits when `waitpid` has
found nobody else, before the handler has returned. -/
def lateExit : List Action :=
  [.accept 4, .fork, .close, .accept 4, .fork, .close, .accept 4, .fork, .close, .failChild 0,
    .failChild 1, .handler none, .handler (some 1), .handler none, .handler (some 0),
    .handler none, .handler none, .failChild 2]

theorem no_zombie_forgotten_run :
    ∃ server, (machine 3 ∅).Reachable server ∧ server.handler = .leave ∧ server.HasZombie ∧
      (server.pending = true ∨ server.handler.Looking) := by
  have reached : (machine 3 ∅).Reachable ((machine 3 ∅).after lateExit) :=
    Machine.reachable_after _ (by decide)
  have zombie : ((machine 3 ∅).after lateExit).HasZombie := ⟨2, by decide, by decide⟩
  exact ⟨_, reached, by decide, zombie, (no_zombie_forgotten 3 ∅ _ reached).1 zombie⟩

end ForkServer

end SocketC
