/-
This file models the preforked server whose parent accepts the connections and passes each of them
to a child over a stream pipe, `unpv13e/server/serv05.c` with `child05.c`. The parent keeps a status
for every child and counts the available ones in `navail`; without an available child it does not
ask `Select` about the listening socket. A child that has closed its connection writes one byte
into its pipe, and the parent then marks it as available again.

The children's standard error is their pipe to the parent, so that a message of a child that exits
on an error goes there too. A child can fail at any of its calls: in `Read_fd`, with a connection
or before it has one, in `web_child`, at the `Close` and at the `Write` of its byte. How long the
messages may be is a parameter of the machine. As long as a child without a connection prints
nothing and one with a connection at most one byte, the books of the parent agree with its children
in every run.
-/

import SocketC.Custody
import SocketC.Monitor
import SocketC.Sweep
import SocketC.Transition

namespace SocketC

open Custody Monitor Sweep

/-! ### The children -/

/-- Where a child stands in `child_main`. -/
inductive ChildPhase where
  /-- In `Read_fd`. -/
  | readFd
  /-- In `web_child`, with this connection. -/
  | serving (connfd : Nat)
  /-- Before `Write`. -/
  | ready
  /-- In `err_doit`, with its message written. -/
  | dying
  | exited
  deriving DecidableEq

/-- The connection a child has in its hands. -/
def ChildPhase.held : ChildPhase → List Nat
  | .serving connfd => [connfd]
  | _ => []

/-- The child is yet to write its byte. -/
def ChildPhase.writes : ChildPhase → Nat
  | .serving _ | .ready => 1
  | _ => 0

/-- A child with its entry of `cptr` and the two directions of its pipe: the connections on their
way to it and the number of bytes on their way back. `owed` says that the entry was marked as
busy and the byte that would undo it is not going to come. -/
structure PassedChild where
  status : Bool
  count : Nat
  toChild : List Nat
  toParent : Nat
  phase : ChildPhase
  owed : Bool
  deriving DecidableEq

/-- How many bytes the children can print before they exit: a child that waits in `Read_fd`, and
one that `Read_fd` has returned to. -/
structure MessageLimits where
  idle : Nat
  busy : Nat

/-- A child at this place can fail with a message of this length. -/
def MessageLimits.allows (limits : MessageLimits) : ChildPhase → Nat → Bool
  | .readFd, message => message ≤ limits.idle
  | .serving _, message | .ready, message => message ≤ limits.busy
  | .dying, _ | .exited, _ => false

/-- The messages are so short that the parent cannot mistake them. -/
structure MessageLimits.Harmless (limits : MessageLimits) : Prop where
  idle : limits.idle = 0
  busy : limits.busy ≤ 1

/-- What a child does. -/
inductive ChildAction where
  /-- `Read_fd` returns. -/
  | receive
  /-- `web_child` returns, and the connection is closed. -/
  | finish
  /-- The byte is written. -/
  | announce
  /-- The call that the child is in ends in `err_sys` or `err_quit`, with a message of this
  length. -/
  | fails (message : Nat)
  /-- `Read_fd` returns without a descriptor (`child05.c`, lines 45-46). -/
  | noDescriptor (message : Nat)
  | exits
  | killed
  deriving DecidableEq

namespace PassedChild

/-- `err_doit`, with a message of this length. -/
def print (child : PassedChild) (message : Nat) : PassedChild :=
  { child with
    toParent := child.toParent + message
    phase := .dying
    owed := child.owed || decide (message < child.phase.writes) }

/-- A step of a child, with the connections it has served and those it has dropped. -/
def step (limits : MessageLimits) (child : PassedChild) :
    ChildAction → Option (PassedChild × List Nat × List Nat)
  | .receive =>
    match child.phase, child.toChild with
    | .readFd, connfd :: rest =>
      some ({ child with toChild := rest, phase := .serving connfd }, [], [])
    | _, _ => none
  | .finish =>
    match child.phase with
    | .serving connfd => some ({ child with phase := .ready }, [connfd], [])
    | _ => none
  | .announce =>
    if child.phase = .ready then
      some ({ child with toParent := child.toParent + 1, phase := .readFd }, [], [])
    else none
  | .fails message =>
    if limits.allows child.phase message then some (child.print message, [], child.phase.held)
    else none
  | .noDescriptor message =>
    match child.phase, child.toChild with
    | .readFd, connfd :: rest =>
      if message ≤ limits.busy then
        some ({ child with toChild := rest, phase := .serving connfd }.print message, [], [connfd])
      else none
    | _, _ => none
  | .exits =>
    if child.phase = .dying then some ({ child with phase := .exited }, [], []) else none
  | .killed =>
    if child.phase = .exited then none
    else
      some ({ child with
        phase := .exited
        owed := child.owed || decide (0 < child.phase.writes) }, [], child.phase.held)

/-- The connections a child is responsible for. -/
def conns (child : PassedChild) : Multiset Nat := ↑(child.toChild ++ child.phase.held)

/-- There is something to read for the parent, or the end of file. -/
def Readable (child : PassedChild) : Prop := 0 < child.toParent ∨ child.phase = .exited

instance (child : PassedChild) : Decidable child.Readable := inferInstanceAs (Decidable (_ ∨ _))

/-- A child is marked as busy as long as something of it is on the way. -/
def Fair (child : PassedChild) : Prop :=
  child.status.toNat =
    child.toChild.length + child.toParent + child.phase.writes + child.owed.toNat

end PassedChild

/-- What a step of a child changes: nothing in its entry of `cptr`, and no connection disappears. -/
structure ChildGoes (limits : MessageLimits) (child next : PassedChild) (served lost : List Nat) :
    Prop where
  status : next.status = child.status
  count : next.count = child.count
  conns : child.conns = ↑(served ++ lost) + next.conns
  fair : limits.Harmless → child.Fair → next.Fair

theorem PassedChild.conns_print (child : PassedChild) (message : Nat) :
    child.conns = ↑child.phase.held + (child.print message).conns := by
  simp only [conns, print, ChildPhase.held, List.append_nil, Multiset.coe_add, Multiset.coe_eq_coe]
  exact List.perm_append_comm

/-- A message of one byte is taken for the byte of `announce`. -/
theorem PassedChild.Fair.print {child : PassedChild} (fair : child.Fair) {message : Nat}
    (short : message ≤ child.phase.writes) : (child.print message).Fair := by
  have writes : child.phase.writes ≤ 1 := by
    cases child.phase <;> simp [ChildPhase.writes]
  have busy := Bool.toNat_le child.status
  unfold PassedChild.Fair at fair
  show child.status.toNat = child.toChild.length + (child.toParent + message) + 0 +
    (child.owed || decide (message < child.phase.writes)).toNat
  by_cases silent : message < child.phase.writes
  · have notOwed : child.owed = false := by
      cases isOwed : child.owed with
      | false => rfl
      | true =>
        rw [isOwed, Bool.toNat_true] at fair
        omega
    rw [notOwed, Bool.toNat_false] at fair
    rw [notOwed, decide_eq_true silent, Bool.or_true, Bool.toNat_true]
    omega
  · rw [decide_eq_false silent, Bool.or_false]
    omega

theorem MessageLimits.Harmless.le_writes {limits : MessageLimits} (harmless : limits.Harmless)
    {phase : ChildPhase} {message : Nat} (allowed : limits.allows phase message) :
    message ≤ phase.writes := by
  have idle := harmless.idle
  have busy := harmless.busy
  cases phase <;> simp only [allows, decide_eq_true_eq, Bool.false_eq_true] at allowed <;>
    simp only [ChildPhase.writes] <;> omega

theorem childGoes_of_step {limits : MessageLimits} {child next : PassedChild}
    {served lost : List Nat} {action : ChildAction}
    (taken : child.step limits action = some (next, served, lost)) :
    ChildGoes limits child next served lost := by
  obtain ⟨status, count, toChild, toParent, phase, owed⟩ := child
  cases action with
  | receive =>
    cases phase <;> cases toChild <;> cases taken
    rename_i connfd rest
    refine ⟨rfl, rfl, ?_, fun _ fair => ?_⟩
    · simp only [PassedChild.conns, ChildPhase.held, List.append_nil, Multiset.coe_nil, zero_add,
        Multiset.coe_eq_coe]
      exact (List.perm_append_singleton connfd rest).symm
    · simp only [PassedChild.Fair, ChildPhase.writes, List.length_cons] at fair ⊢
      omega
  | finish =>
    cases phase <;> cases taken
    rename_i connfd
    refine ⟨rfl, rfl, ?_, fun _ fair => fair⟩
    simp only [PassedChild.conns, ChildPhase.held, List.append_nil, Multiset.coe_add,
      Multiset.coe_eq_coe]
    exact List.perm_append_comm
  | announce =>
    obtain ⟨ready, done⟩ := Option.ite_none_right_eq_some.mp taken
    cases done
    dsimp only at ready
    subst ready
    refine ⟨rfl, rfl, (zero_add _).symm, fun _ fair => ?_⟩
    simp only [PassedChild.Fair, ChildPhase.writes] at fair ⊢
    omega
  | fails message =>
    obtain ⟨allowed, done⟩ := Option.ite_none_right_eq_some.mp taken
    cases done
    exact ⟨rfl, rfl, PassedChild.conns_print _ message,
      fun harmless fair => fair.print (harmless.le_writes allowed)⟩
  | noDescriptor message =>
    cases phase <;> cases toChild <;> try cases taken
    rename_i connfd rest
    obtain ⟨bound, done⟩ := Option.ite_none_right_eq_some.mp taken
    cases done
    refine ⟨rfl, rfl, ?_, fun harmless fair => ?_⟩
    · refine Eq.trans ?_ (PassedChild.conns_print _ message)
      simp only [PassedChild.conns, ChildPhase.held, List.append_nil, Multiset.coe_eq_coe]
      exact (List.perm_append_singleton connfd rest).symm
    · refine PassedChild.Fair.print ?_ (bound.trans harmless.busy)
      simp only [PassedChild.Fair, ChildPhase.writes, List.length_cons] at fair ⊢
      omega
  | exits =>
    obtain ⟨dying, done⟩ := Option.ite_none_right_eq_some.mp taken
    cases done
    dsimp only at dying
    subst dying
    exact ⟨rfl, rfl, (zero_add _).symm, fun _ fair => fair⟩
  | killed =>
    obtain ⟨alive, done⟩ := Option.ite_none_left_eq_some.mp taken
    cases done
    refine ⟨rfl, rfl, ?_, fun _ fair => ?_⟩
    · simp only [PassedChild.conns, ChildPhase.held, List.append_nil, Multiset.coe_add,
        Multiset.coe_eq_coe]
      exact List.perm_append_comm
    · simp only [PassedChild.Fair, ChildPhase.writes] at fair ⊢
      have busy := Bool.toNat_le status
      cases phase <;> cases owed <;> simp at fair ⊢ <;> omega

theorem PassedChild.Fair.card_conns {child : PassedChild} (fair : child.Fair) :
    child.conns.card ≤ 1 ∧ (child.status = false → child.conns = 0 ∧ child.toParent = 0) := by
  have held : child.phase.held.length ≤ child.phase.writes := by
    cases child.phase <;> simp [ChildPhase.held, ChildPhase.writes]
  have busy := Bool.toNat_le child.status
  have card : child.conns.card = child.toChild.length + child.phase.held.length := by
    rw [PassedChild.conns, Multiset.coe_card, List.length_append]
  unfold PassedChild.Fair at fair
  refine ⟨by omega, fun free => ?_⟩
  rw [free, Bool.toNat_false] at fair
  exact ⟨Multiset.card_eq_zero.mp (by omega), by omega⟩

/-! ### The parent -/

/-- Where the parent stands in `main`. -/
inductive ParentPlace where
  /-- Line 44. -/
  | select
  /-- Line 52. -/
  | accept
  /-- Line 71, with this `i`. -/
  | scan (index : Nat)
  /-- In `err_quit`, line 59. -/
  | noAvailable
  /-- In `err_quit`, line 74. -/
  | childTerminated
  /-- Ended by `Write_fd` to a child that has exited. -/
  | brokenPipe
  deriving DecidableEq

/-- The server. The connections are numbered as they are accepted; `served` are those that a child
has finished and `lost` those that were dropped by a child or by the parent. -/
structure PassingServer (nchildren : Nat) where
  place : ParentPlace
  rset : Fin nchildren → Bool
  nsel : Nat
  navail : Int
  child : Fin nchildren → PassedChild
  accepted : Nat
  served : List Nat
  lost : List Nat

namespace PassingServer

variable {nchildren : Nat} {limits : MessageLimits}

/-- After `child_make` of all children. -/
def start (nchildren : Nat) : PassingServer nchildren where
  place := .select
  rset := fun _ => false
  nsel := 0
  navail := nchildren
  child := fun _ => ⟨false, 0, [], 0, .readFd, false⟩
  accepted := 0
  served := []
  lost := []

inductive Action (nchildren : Nat) where
  /-- `Select` returns with the listening socket or without it and with these pipes. -/
  | select (listen : Bool) (ready : Fin nchildren → Bool)
  | accept
  | scan
  | child (index : Fin nchildren) (action : ChildAction)

/-- `Select`, lines 44-47. -/
def selectStep (server : PassingServer nchildren) (listen : Bool) (ready : Fin nchildren → Bool) :
    Option (PassingServer nchildren) :=
  if server.place = .select ∧ (listen = true → 0 < server.navail) ∧
      (∀ index, ready index = true → (server.child index).Readable) ∧
      0 < listen.toNat + marksFrom ready 0 then
    some { server with
      place := if listen then .accept else .scan 0
      rset := ready
      nsel := listen.toNat + marksFrom ready 0 }
  else none

/-- The loop of lines 54-56. -/
def firstAvailable (server : PassingServer nchildren) : Option (Fin nchildren) :=
  (List.finRange nchildren).find? fun index => !(server.child index).status

/-- Where `--nsel == 0` leads. -/
def nextPlace (nsel : Nat) (next : ParentPlace) : ParentPlace :=
  if nsel - 1 = 0 then .select else next

/-- `Accept` and the passing of the connection, lines 51-67. -/
def acceptStep (server : PassingServer nchildren) : PassingServer nchildren :=
  match server.firstAvailable with
  | none =>
    { server with
      place := .noAvailable
      accepted := server.accepted + 1
      lost := server.lost ++ [server.accepted] }
  | some index =>
    let child := server.child index
    if child.phase = .exited then
      { server with
        place := .brokenPipe
        navail := server.navail - 1
        child := Function.update server.child index
          { child with status := true, count := child.count + 1, owed := true }
        accepted := server.accepted + 1
        lost := server.lost ++ [server.accepted] }
    else
      { server with
        place := nextPlace server.nsel (.scan 0)
        nsel := server.nsel - 1
        navail := server.navail - 1
        child := Function.update server.child index
          { child with
            status := true
            count := child.count + 1
            toChild := child.toChild ++ [server.accepted] }
        accepted := server.accepted + 1 }

/-- One turn of the loop of lines 71-80. -/
def scanStep (server : PassingServer nchildren) (index : Nat) : Option (PassingServer nchildren) :=
  if bound : index < nchildren then
    let child := server.child ⟨index, bound⟩
    if server.rset ⟨index, bound⟩ then
      if 0 < child.toParent then
        some { server with
          place := nextPlace server.nsel (.scan (index + 1))
          nsel := server.nsel - 1
          navail := server.navail + 1
          child := Function.update server.child ⟨index, bound⟩
            { child with status := false, toParent := child.toParent - 1 } }
      else if child.phase = .exited then some { server with place := .childTerminated }
      else none
    else some { server with place := .scan (index + 1) }
  else some { server with place := .select }

/-- Any interleaving of the parent and its children, whose messages are at most this long. -/
def step (limits : MessageLimits) (server : PassingServer nchildren) :
    Action nchildren → Option (PassingServer nchildren)
  | .select listen ready => server.selectStep listen ready
  | .accept => if server.place = .accept then some server.acceptStep else none
  | .scan =>
    match server.place with
    | .scan index => server.scanStep index
    | _ => none
  | .child index action =>
    ((server.child index).step limits action).map fun (child, served, lost) =>
      { server with
        child := Function.update server.child index child
        served := server.served ++ served
        lost := server.lost ++ lost }

def machine (nchildren : Nat) (limits : MessageLimits) :
    Machine (PassingServer nchildren) (Action nchildren) where
  start := start nchildren
  step := step limits

variable {server next : PassingServer nchildren}

/-! ### The results of `Select` -/

/-- What is left of the results of `Select` is what `nsel` says, and while the parent looks for it
there is something left. -/
structure Scans (server : PassingServer nchildren) : Prop where
  accept : server.place = .accept → server.nsel = marksFrom server.rset 0 + 1
  scan : ∀ index, server.place = .scan index →
    server.nsel = marksFrom server.rset index ∧ 0 < server.nsel

theorem scans_of_place (notAccept : server.place ≠ .accept)
    (notScan : ∀ index, server.place ≠ .scan index) : server.Scans :=
  ⟨fun place => absurd place notAccept, fun index place => absurd place (notScan index)⟩

/-- The place after a descriptor, when `nsel` counts what is behind it. -/
theorem scans_of_nextPlace {index left : Nat} (counts : server.nsel = left + 1)
    (behind : left = marksFrom server.rset index) (after : PassingServer nchildren)
    (place : after.place = nextPlace server.nsel (.scan index)) (rset : after.rset = server.rset)
    (nsel : after.nsel = server.nsel - 1) : after.Scans := by
  unfold nextPlace at place
  split at place
  · exact scans_of_place (by simp [place]) (by simp [place])
  · rename_i more
    refine ⟨fun accept => by simp [place] at accept, fun other scan => ?_⟩
    rw [place] at scan
    obtain rfl := ParentPlace.scan.inj scan
    rw [nsel, rset]
    omega

theorem Scans.accept_step (scans : server.Scans) (place : server.place = .accept) :
    server.acceptStep.Scans := by
  unfold acceptStep
  split
  · exact scans_of_place (by simp) (by simp)
  · dsimp only
    split
    · exact scans_of_place (by simp) (by simp)
    · exact scans_of_nextPlace (scans.accept place) rfl _ rfl rfl rfl

theorem Scans.scan_step (scans : server.Scans) {index : Nat} (place : server.place = .scan index)
    (taken : server.scanStep index = some next) : next.Scans := by
  obtain ⟨counts, positive⟩ := scans.scan index place
  unfold scanStep at taken
  split at taken
  · rename_i bound
    dsimp only at taken
    split at taken
    · rename_i set
      have behind := marksFrom_of_marked bound set
      split at taken
      · obtain rfl := Option.some.inj taken
        exact scans_of_nextPlace (counts.trans behind) rfl _ rfl rfl rfl
      · obtain ⟨-, done⟩ := Option.ite_none_right_eq_some.mp taken
        obtain rfl := Option.some.inj done
        exact scans_of_place (by simp) (by simp)
    · rename_i clear
      obtain rfl := Option.some.inj taken
      refine ⟨by simp, fun other scan => ?_⟩
      obtain rfl := ParentPlace.scan.inj scan
      rw [← marksFrom_of_unmarked bound (Bool.eq_false_of_not_eq_true clear)]
      exact ⟨counts, positive⟩
  · obtain rfl := Option.some.inj taken
    exact scans_of_place (by simp) (by simp)

theorem scans_select {listen : Bool} {ready : Fin nchildren → Bool}
    (taken : server.selectStep listen ready = some next) : next.Scans := by
  obtain ⟨⟨-, -, -, positive⟩, done⟩ := Option.ite_none_right_eq_some.mp taken
  obtain rfl := Option.some.inj done
  cases listen with
  | true => exact ⟨fun _ => Nat.add_comm _ _, by simp⟩
  | false =>
    refine ⟨by simp, fun index scan => ?_⟩
    obtain rfl := ParentPlace.scan.inj scan
    exact ⟨Nat.zero_add _, positive⟩

/-! ### The books of the parent -/

/-- The connections that nobody has any more. -/
def settled (server : PassingServer nchildren) : Multiset Nat := ↑(server.served ++ server.lost)

/-- No connection is forgotten or doubled. -/
def Kept (server : PassingServer nchildren) : Prop :=
  Owns (server.settled + ∑ index, (server.child index).conns) (Finset.range server.accepted)

/-- What the parent has noted agrees with the children. -/
structure Books (server : PassingServer nchildren) : Prop where
  fair : ∀ index, (server.child index).Fair
  navail : server.navail = load (fun child => (!child.status).toNat) server.child
  counts : load PassedChild.count server.child = server.accepted
  accept : server.place = .accept → 0 < server.navail
  available : server.place ≠ .noAvailable

theorem kept_start (nchildren : Nat) : (start nchildren).Kept := by
  simp [Kept, Owns, settled, start, PassedChild.conns, ChildPhase.held]

theorem books_start (nchildren : Nat) : (start nchildren).Books where
  fair := fun _ => rfl
  navail := by simp [start, load]
  counts := by simp [start, load]
  accept := by simp [start]
  available := by simp [start]

theorem Kept.child (kept : server.Kept) {index : Fin nchildren} {child : PassedChild}
    {served lost : List Nat} (goes : ChildGoes limits (server.child index) child served lost) :
    Kept { server with
      child := Function.update server.child index child
      served := server.served ++ served
      lost := server.lost ++ lost } := by
  have given := sum_eq_give_update PassedChild.conns server.child index child _ goes.conns
  have settledMore : (↑(server.served ++ served ++ (server.lost ++ lost)) : Multiset Nat) =
      server.settled + ↑(served ++ lost) := by
    simp only [settled, ← Multiset.coe_add]
    abel
  unfold Kept at kept ⊢
  rw [given, ← add_assoc, ← settledMore] at kept
  exact kept

theorem fair_update {children : Fin nchildren → PassedChild} {index : Fin nchildren}
    {child : PassedChild} (fair : ∀ other, (children other).Fair) (fairChild : child.Fair)
    (other : Fin nchildren) : (Function.update children index child other).Fair := by
  rw [Function.update_apply]
  split
  · exact fairChild
  · exact fair other

theorem Books.child (harmless : limits.Harmless) (books : server.Books) {index : Fin nchildren}
    {child : PassedChild} {served lost : List Nat}
    (goes : ChildGoes limits (server.child index) child served lost) :
    Books { server with
      child := Function.update server.child index child
      served := server.served ++ served
      lost := server.lost ++ lost } where
  fair := fair_update books.fair (goes.fair harmless (books.fair index))
  navail := by
    have moved := load_update (fun child => (!child.status).toNat) server.child index child
    dsimp only at moved ⊢
    rw [goes.status] at moved
    rw [books.navail, Nat.add_right_cancel moved]
  counts := by
    have moved := load_update PassedChild.count server.child index child
    dsimp only at moved ⊢
    rw [goes.count] at moved
    rw [Nat.add_right_cancel moved, books.counts]
  accept := books.accept
  available := books.available

theorem status_of_firstAvailable {index : Fin nchildren}
    (found : server.firstAvailable = some index) : (server.child index).status = false := by
  have free := List.find?_some found
  exact Bool.not_eq_true' _ ▸ free

theorem busy_of_firstAvailable (none_there : server.firstAvailable = none)
    (index : Fin nchildren) : (server.child index).status = true := by
  have busy := List.find?_eq_none.mp none_there index (List.mem_finRange index)
  simpa using busy

theorem Kept.accept_step (kept : server.Kept) : server.acceptStep.Kept := by
  have fresh : server.accepted ∉ Finset.range server.accepted := Finset.notMem_range_self
  have acquired := Owns.acquire kept fresh
  rw [← Finset.range_add_one] at acquired
  have settledMore : (↑(server.served ++ (server.lost ++ [server.accepted])) : Multiset Nat) =
      server.accepted ::ₘ server.settled := by
    rw [settled, ← List.append_assoc, Multiset.cons_coe, Multiset.coe_eq_coe]
    exact List.perm_append_singleton _ _
  unfold acceptStep
  split
  · unfold Kept settled
    dsimp only
    rw [settledMore, Multiset.cons_add]
    exact acquired
  · rename_i index found
    dsimp only
    split
    · have same := sum_update_same PassedChild.conns server.child index
        { server.child index with
          status := true, count := (server.child index).count + 1, owed := true } rfl
      unfold Kept settled
      dsimp only
      rw [settledMore, Multiset.cons_add, same]
      exact acquired
    · have gained := sum_update_gain PassedChild.conns server.child index
        { server.child index with
          status := true
          count := (server.child index).count + 1
          toChild := (server.child index).toChild ++ [server.accepted] } {server.accepted} (by
        simp only [PassedChild.conns, ← Multiset.coe_add, Multiset.coe_singleton]
        abel)
      unfold Kept
      show Owns (server.settled + _) _
      dsimp only
      rw [gained, Multiset.singleton_add, Multiset.add_cons]
      exact acquired

theorem Books.accept_step (books : server.Books) (place : server.place = .accept) :
    server.acceptStep.Books := by
  have positive := books.accept place
  unfold acceptStep
  split
  · -- With all children busy `navail` would be zero.
    rename_i none_there
    have allBusy : load (fun child => (!child.status).toNat) server.child = 0 :=
      (load_eq_zero_iff _ _).mpr fun index => by
        rw [busy_of_firstAvailable none_there index]
        rfl
    rw [books.navail, allBusy] at positive
    exact absurd positive (lt_irrefl _)
  · rename_i index found
    have free := status_of_firstAvailable found
    have idle := books.fair index
    rw [PassedChild.Fair, free, Bool.toNat_false] at idle
    have taken (child : PassedChild) (busy : child.status = true) :
        (server.navail - 1 : Int) = load (fun child => (!child.status).toNat)
          (Function.update server.child index child) := by
      have moved := load_update (fun child => (!child.status).toNat) server.child index child
      simp only [free, busy, Bool.not_false, Bool.not_true, Bool.toNat_true, Bool.toNat_false]
        at moved
      rw [books.navail]
      omega
    have counted (child : PassedChild) (count : child.count = (server.child index).count + 1) :
        load PassedChild.count (Function.update server.child index child) =
          server.accepted + 1 := by
      have moved := load_update PassedChild.count server.child index child
      have counts := books.counts
      omega
    dsimp only
    split
    · refine ⟨fair_update books.fair ?_, taken _ rfl, counted _ rfl, by simp, by simp⟩
      simp only [PassedChild.Fair, Bool.toNat_true]
      omega
    · refine ⟨fair_update books.fair ?_, taken _ rfl, counted _ rfl, ?_, ?_⟩
      · simp only [PassedChild.Fair, Bool.toNat_true, List.length_append, List.length_singleton]
        omega
      · unfold nextPlace
        split <;> simp
      · unfold nextPlace
        split <;> simp

/-- The turn of the loop at a child whose byte is read. -/
theorem Books.read (books : server.Books) {index : Fin nchildren}
    (written : 0 < (server.child index).toParent) (after : PassingServer nchildren)
    (navail : after.navail = server.navail + 1) (accepted : after.accepted = server.accepted)
    (child : after.child = Function.update server.child index
      { server.child index with
        status := false, toParent := (server.child index).toParent - 1 })
    (elsewhere : after.place ≠ .accept) (available : after.place ≠ .noAvailable) :
    after.Books := by
  have busy := Bool.toNat_le (server.child index).status
  have fair := books.fair index
  unfold PassedChild.Fair at fair
  have one : (server.child index).toParent = 1 ∧ (server.child index).status.toNat = 1 := by omega
  have status : (server.child index).status = true := by
    cases isBusy : (server.child index).status with
    | true => rfl
    | false =>
      rw [isBusy] at one
      cases one.2
  refine ⟨fun other => ?_, ?_, ?_, fun place => absurd place elsewhere, available⟩
  · rw [child]
    refine fair_update books.fair ?_ other
    simp only [PassedChild.Fair, Bool.toNat_false]
    omega
  · have moved := load_update (fun child => (!child.status).toNat) server.child index
      { server.child index with
        status := false, toParent := (server.child index).toParent - 1 }
    simp only [status, Bool.not_false, Bool.not_true, Bool.toNat_true, Bool.toNat_false] at moved
    rw [child, navail, books.navail]
    simp only
    omega
  · have moved := load_update PassedChild.count server.child index
      { server.child index with
        status := false, toParent := (server.child index).toParent - 1 }
    rw [child, accepted, Nat.add_right_cancel moved, books.counts]

/-- A turn of the loop reads one byte or changes the place only. -/
theorem scanStep_cases {index : Nat} (taken : server.scanStep index = some next) :
    (∃ place, next = { server with place := place } ∧ place ≠ .accept ∧ place ≠ .noAvailable) ∨
      ∃ child, 0 < (server.child child).toParent ∧
        next = { server with
          place := nextPlace server.nsel (.scan (index + 1))
          nsel := server.nsel - 1
          navail := server.navail + 1
          child := Function.update server.child child
            { server.child child with
              status := false, toParent := (server.child child).toParent - 1 } } := by
  unfold scanStep at taken
  split at taken
  · rename_i bound
    dsimp only at taken
    split at taken
    · split at taken
      · rename_i written
        exact Or.inr ⟨⟨index, bound⟩, written, (Option.some.inj taken).symm⟩
      · obtain ⟨-, done⟩ := Option.ite_none_right_eq_some.mp taken
        exact Or.inl ⟨_, (Option.some.inj done).symm, by simp, by simp⟩
    · exact Or.inl ⟨_, (Option.some.inj taken).symm, by simp, by simp⟩
  · exact Or.inl ⟨_, (Option.some.inj taken).symm, by simp, by simp⟩

theorem Kept.scan_step (kept : server.Kept) {index : Nat}
    (taken : server.scanStep index = some next) : next.Kept := by
  obtain ⟨place, rfl, -⟩ | ⟨child, written, rfl⟩ := scanStep_cases taken
  · exact kept
  · have same := sum_update_same PassedChild.conns server.child child
      { server.child child with
        status := false, toParent := (server.child child).toParent - 1 } rfl
    unfold Kept
    dsimp only
    rw [same]
    exact kept

theorem Books.scan_step (books : server.Books) {index : Nat}
    (taken : server.scanStep index = some next) : next.Books := by
  obtain ⟨place, rfl, notAccept, available⟩ | ⟨child, written, rfl⟩ := scanStep_cases taken
  · exact ⟨books.fair, books.navail, books.counts, fun accept => absurd accept notAccept, available⟩
  · refine books.read written _ rfl rfl rfl ?_ ?_ <;>
      · dsimp only [nextPlace]
        split <;> simp

/-- The parts of a step of the machine. -/
theorem cases_of_step {action : Action nchildren} (taken : server.step limits action = some next) :
    (∃ listen ready, server.selectStep listen ready = some next) ∨
      (server.place = .accept ∧ next = server.acceptStep) ∨
      (∃ index, server.place = .scan index ∧ server.scanStep index = some next) ∨
      ∃ index child served lost, ChildGoes limits (server.child index) child served lost ∧
        next = { server with
          child := Function.update server.child index child
          served := server.served ++ served
          lost := server.lost ++ lost } := by
  cases action with
  | select listen ready => exact Or.inl ⟨listen, ready, taken⟩
  | accept =>
    obtain ⟨place, done⟩ := Option.ite_none_right_eq_some.mp taken
    exact Or.inr (Or.inl ⟨place, (Option.some.inj done).symm⟩)
  | scan =>
    dsimp only [step] at taken
    split at taken
    · rename_i index place
      exact Or.inr (Or.inr (Or.inl ⟨index, place, taken⟩))
    · cases taken
  | child index action =>
    obtain ⟨⟨child, served, lost⟩, went, done⟩ := Option.map_eq_some_iff.mp taken
    exact Or.inr (Or.inr (Or.inr ⟨index, child, served, lost, childGoes_of_step went, done.symm⟩))

theorem Scans.step (scans : server.Scans) {action : Action nchildren}
    (taken : server.step limits action = some next) : next.Scans := by
  obtain ⟨listen, ready, selected⟩ | ⟨place, rfl⟩ | ⟨index, place, scanned⟩ |
    ⟨index, child, served, lost, -, rfl⟩ := cases_of_step taken
  · exact scans_select selected
  · exact scans.accept_step place
  · exact scans.scan_step place scanned
  · exact ⟨scans.accept, scans.scan⟩

theorem Kept.step (kept : server.Kept) {action : Action nchildren}
    (taken : server.step limits action = some next) : next.Kept := by
  obtain ⟨listen, ready, selected⟩ | ⟨place, rfl⟩ | ⟨index, place, scanned⟩ |
    ⟨index, child, served, lost, goes, rfl⟩ := cases_of_step taken
  · obtain ⟨-, done⟩ := Option.ite_none_right_eq_some.mp selected
    obtain rfl := Option.some.inj done
    exact kept
  · exact kept.accept_step
  · exact kept.scan_step scanned
  · exact kept.child goes

theorem Books.step (harmless : limits.Harmless) (books : server.Books) {action : Action nchildren}
    (taken : server.step limits action = some next) : next.Books := by
  obtain ⟨listen, ready, selected⟩ | ⟨place, rfl⟩ | ⟨index, place, scanned⟩ |
    ⟨index, child, served, lost, goes, rfl⟩ := cases_of_step taken
  · obtain ⟨⟨-, listening, -⟩, done⟩ := Option.ite_none_right_eq_some.mp selected
    obtain rfl := Option.some.inj done
    cases listen with
    | true => exact ⟨books.fair, books.navail, books.counts, fun _ => listening rfl, by simp⟩
    | false => exact ⟨books.fair, books.navail, books.counts, by simp, by simp⟩
  · exact books.accept_step place
  · exact books.scan_step scanned
  · exact books.child harmless goes

theorem kept_of_reachable (reached : (machine nchildren limits).Reachable server) :
    server.Kept ∧ server.Scans :=
  reached.invariant (fun server => server.Kept ∧ server.Scans)
    ⟨kept_start nchildren, scans_of_place (by simp [machine, start]) (by simp [machine, start])⟩
    fun _ _ _ holds taken => ⟨holds.1.step taken, holds.2.step taken⟩

theorem books_of_reachable (harmless : limits.Harmless)
    (reached : (machine nchildren limits).Reachable server) : server.Books :=
  reached.invariant Books (books_start nchildren) fun _ _ _ books taken => books.step harmless taken

theorem load_free_eq_card (children : Fin nchildren → PassedChild) :
    load (fun child => (!child.status).toNat) children =
      (Finset.univ.filter fun index => (children index).status = false).card := by
  rw [load, Finset.card_filter]
  refine Finset.sum_congr rfl fun index _ => ?_
  cases (children index).status <;> rfl

/-- With children that print nothing before they exit, or at most one byte if they were passed a
connection, in every run of the parent and its children: the parent never accepts a connection that
it has no child for; `navail` is the number of children marked as available, and these have nothing
to do and nothing in their pipes; a child has at most one connection; the counts add up to the
connections accepted, each of which is with one child, or served, or dropped; and all that `Select`
has found is looked at before the next `Select`. -/
theorem serv05_books_agree (harmless : limits.Harmless)
    (reached : (machine nchildren limits).Reachable server) :
    server.place ≠ .noAvailable ∧
      server.navail =
        (Finset.univ.filter fun index => (server.child index).status = false).card ∧
      (∀ index, (server.child index).conns.card ≤ 1 ∧
        ((server.child index).status = false →
          (server.child index).conns = 0 ∧ (server.child index).toParent = 0)) ∧
      ∑ index, (server.child index).count = server.accepted ∧
      Exclusive server.settled (fun index => (server.child index).conns)
        (Finset.range server.accepted) ∧
      (∀ index, server.place = .scan index →
        server.nsel = marksFrom server.rset index ∧ 0 < server.nsel) := by
  obtain ⟨kept, scans⟩ := kept_of_reachable reached
  have books := books_of_reachable harmless reached
  refine ⟨books.available, ?_, fun index => (books.fair index).card_conns, books.counts,
    kept.exclusive, scans.scan⟩
  rw [books.navail, load_free_eq_card]

/-- One child; a connection is passed and served, and the child writes its byte. -/
def passedOne : List (Action 1) :=
  [Action.select true (fun _ => false), .accept, .child (Fin.last 0) .receive,
    .child (Fin.last 0) .finish, .child (Fin.last 0) .announce]

theorem serv05_books_agree_passedOne :
    ((machine 1 ⟨0, 1⟩).after passedOne).navail = 0 ∧
      ∑ index, (((machine 1 ⟨0, 1⟩).after passedOne).child index).count = 1 :=
  ⟨by decide, (serv05_books_agree ⟨rfl, le_rfl⟩
    (Machine.reachable_after passedOne (by decide))).2.2.2.1⟩

end PassingServer

end SocketC
