/-
This file is about the descriptor tables of the forking server. A fork copies
whatever the parent holds at that moment, so a connection that the parent forgot to
close would stay open in every later child. The invariant is that the parent holds
the connection it has just accepted and no other, and none when it is about to
accept; a live child holds the connection of its own iteration and no other; and an
ended process holds nothing. Connections are closed by the parent in the order in
which they were accepted, and the numbers are used again.
-/

import SocketC.ForkServer

namespace SocketC

/-! ### Tables and the connections they refer to -/

namespace DescriptorTable

/-- Some descriptor of the table refers to the connection. -/
def Refers (table : DescriptorTable) (connection : Nat) : Prop :=
  ∃ fd, table fd = some (.connection connection)

/-- The table refers to no connection. -/
def Free (table : DescriptorTable) : Prop :=
  ∀ fd connection, table fd ≠ some (.connection connection)

/-- The table refers to this connection, by this descriptor, and to no other. -/
def Holds (table : DescriptorTable) (fd : Int) (connection : Nat) : Prop :=
  ∀ number other, table number = some (.connection other) ↔ number = fd ∧ other = connection

variable {table : DescriptorTable} {fd : Int} {connection : Nat}

theorem Free.not_refers (free : Free table) (connection : Nat) : ¬ Refers table connection :=
  fun ⟨fd, found⟩ => free fd connection found

theorem Holds.found (holds : Holds table fd connection) :
    table fd = some (.connection connection) :=
  (holds fd connection).mpr ⟨rfl, rfl⟩

theorem Holds.refers_iff (holds : Holds table fd connection) (other : Nat) :
    Refers table other ↔ other = connection :=
  ⟨fun ⟨number, found⟩ => ((holds number other).mp found).2, fun same => ⟨fd, same ▸ holds.found⟩⟩

/-- A connection is opened in a table that had none, -/
theorem Free.opens (free : Free table) (fd : Int) (connection : Nat) :
    Holds (Function.update table fd (some (.connection connection))) fd connection := by
  intro number other
  by_cases same : number = fd
  · subst same
    rw [Function.update_self, Option.some.injEq, OpenFile.connection.injEq, eq_comm]
    exact (and_iff_right rfl).symm
  · rw [Function.update_of_ne same]
    exact iff_of_false (free number other) fun both => same both.1

/-- the one it had is closed, -/
theorem Holds.closes (holds : Holds table fd connection) :
    Free (Function.update table fd none) := by
  intro number other found
  by_cases same : number = fd
  · rw [same, Function.update_self] at found
    cases found
  · rw [Function.update_of_ne same] at found
    exact same ((holds number other).mp found).1

/-- or another descriptor is. -/
theorem Holds.closes_other (holds : Holds table fd connection) {closed : Int}
    (different : closed ≠ fd) : Holds (Function.update table closed none) fd connection := by
  intro number other
  by_cases same : number = closed
  · rw [same, Function.update_self]
    exact iff_of_false nofun fun both => different both.1
  · rw [Function.update_of_ne same]
    exact holds number other

end DescriptorTable

namespace ForkServer

open DescriptorTable

/-! ### The invariant -/

/-- What the parent's table refers to, at each of its places, and how many connections it has
accepted, forked for and closed. -/
def ParentTidy (listenfd : Int) (parent : ForkParent) (connfd : Int) (table : DescriptorTable)
    (accepted forked closed : Nat) : Prop :=
  match parent with
  | .accept => Free table ∧ table listenfd = some .other ∧ accepted = closed ∧ forked = closed
  | .fork =>
    Holds table connfd closed ∧ table listenfd = some .other ∧ accepted = closed + 1 ∧
      forked = closed
  | .close =>
    Holds table connfd closed ∧ table listenfd = some .other ∧ accepted = closed + 1 ∧
      forked = closed + 1
  | .ended => Free table

/-- What the table of a child refers to. -/
structure ChildTidy (listenfd : Int) (index : Nat) (place : ForkChild) (connfd : Int)
    (table : DescriptorTable) : Prop where
  live : place.Live → Holds table connfd index
  exited : ¬ place.Live → Free table
  listening : place = .closeListen → table listenfd = some .other

structure Tidy (server : ForkServer) : Prop where
  parent : ParentTidy server.listenfd server.parent server.connfd server.table server.accepted
    server.forked server.closed.length
  child : ∀ index < server.forked, ChildTidy server.listenfd index (server.child index)
    (server.childConnfd index) (server.childTable index)
  closed : server.closed = (List.range server.closed.length).map .connection

/-- The invariant of the parent's table at the place where the parent is. -/
theorem Tidy.parent_at {server : ForkServer} (tidy : server.Tidy) {place : ForkParent}
    (here : server.parent = place) :
    ParentTidy server.listenfd place server.connfd server.table server.accepted server.forked
      server.closed.length :=
  here ▸ tidy.parent

theorem tidy_start (listenfd : Int) (others : Finset Int) : (start listenfd others).Tidy where
  parent := by
    refine ⟨fun fd connection found => ?_, if_pos (Or.inl rfl), rfl, rfl⟩
    simp only [start, Option.ite_none_right_eq_some, Option.some.injEq, reduceCtorEq,
      and_false] at found
  child := fun _ created => absurd created (Nat.not_lt_zero _)
  closed := rfl

theorem childTidy_exited (listenfd : Int) (index : Nat) {place : ForkChild} (connfd : Int)
    (gone : ¬ place.Live) : ChildTidy listenfd index place connfd fun _ => none :=
  ⟨fun live => absurd live gone, fun _ => nofun, fun here => absurd (here ▸ trivial) gone⟩

/-- A place of a child that is neither the first nor the last changes nothing. -/
theorem ChildTidy.goes {listenfd : Int} {index : Nat} {before after : ForkChild} {connfd : Int}
    {table : DescriptorTable} (tidy : ChildTidy listenfd index before connfd table)
    (same : after.Live ↔ before.Live) (later : after ≠ .closeListen) :
    ChildTidy listenfd index after connfd table :=
  ⟨fun live => tidy.live (same.mp live), fun gone => tidy.exited fun live => gone (same.mpr live),
    fun here => absurd here later⟩

/-- After its first step a child has closed the listening socket and kept its connection. -/
theorem ChildTidy.closeListen {listenfd : Int} {index : Nat} {connfd : Int}
    {table : DescriptorTable} (tidy : ChildTidy listenfd index .closeListen connfd table) :
    ChildTidy listenfd index .recv connfd (Function.update table listenfd none) := by
  have holds := tidy.live trivial
  have different : listenfd ≠ connfd := by
    rintro rfl
    have found := holds.found
    rw [tidy.listening rfl] at found
    cases found
  exact ⟨fun _ => holds.closes_other different, fun gone => absurd trivial gone, nofun⟩

/-- Changing one child is a matter of that child alone. -/
theorem childTidy_update {server : ForkServer} (tidy : server.Tidy) {child : Nat}
    {place : ForkChild} {table : DescriptorTable}
    (changed : ChildTidy server.listenfd child place (server.childConnfd child) table)
    (index : Nat) (created : index < server.forked) :
    ChildTidy server.listenfd index (Function.update server.child child place index)
      (server.childConnfd index) (Function.update server.childTable child table index) := by
  by_cases same : index = child
  · subst same
    rw [Function.update_self, Function.update_self]
    exact changed
  · rw [Function.update_of_ne same, Function.update_of_ne same]
    exact tidy.child index created

theorem childTidy_goes {server : ForkServer} (tidy : server.Tidy) {child : Nat}
    (created : child < server.forked) {place : ForkChild}
    (same : place.Live ↔ (server.child child).Live) (later : place ≠ .closeListen)
    (index : Nat) (below : index < server.forked) :
    ChildTidy server.listenfd index (Function.update server.child child place index)
      (server.childConnfd index) (server.childTable index) := by
  have changed := childTidy_update tidy ((tidy.child child created).goes same later) index below
  rwa [Function.update_eq_self] at changed

/-- The last child gets the connection that the parent has just accepted. -/
theorem Tidy.fork {server : ForkServer} (tidy : server.Tidy) (here : server.parent = .fork) :
    ({ server with
        parent := .close
        forked := server.forked + 1
        child := Function.update server.child server.forked .closeListen
        childConnfd := Function.update server.childConnfd server.forked server.connfd
        childTable := Function.update server.childTable server.forked server.table } :
      ForkServer).Tidy := by
  obtain ⟨holds, listening, accepted, forked⟩ := tidy.parent_at here
  refine ⟨⟨holds, listening, accepted, congrArg (· + 1) forked⟩, fun index created => ?_,
    tidy.closed⟩
  show ChildTidy server.listenfd index
    (Function.update server.child server.forked .closeListen index)
    (Function.update server.childConnfd server.forked server.connfd index)
    (Function.update server.childTable server.forked server.table index)
  by_cases last : index = server.forked
  · subst last
    rw [Function.update_self, Function.update_self, Function.update_self]
    exact ⟨fun _ => forked ▸ holds, fun gone => absurd trivial gone, fun _ => listening⟩
  · rw [Function.update_of_ne last, Function.update_of_ne last, Function.update_of_ne last]
    exact tidy.child index (Nat.lt_of_le_of_ne (Nat.lt_succ_iff.mp created) last)

/-- The parent closes the connection that it holds. -/
theorem Tidy.close {server : ForkServer} (tidy : server.Tidy) {file : OpenFile}
    (here : server.parent = .close) (found : server.table server.connfd = some file) :
    ({ server with
        parent := .accept
        table := Function.update server.table server.connfd none
        closed := server.closed ++ [file] } : ForkServer).Tidy := by
  obtain ⟨holds, listening, accepted, forked⟩ := tidy.parent_at here
  have isConnection : file = .connection server.closed.length :=
    Option.some.inj (found.symm.trans holds.found)
  subst isConnection
  have different : server.listenfd ≠ server.connfd := by
    intro same
    rw [← same, listening] at found
    cases found
  have length : (server.closed ++ [OpenFile.connection server.closed.length]).length =
      server.closed.length + 1 := List.length_append
  refine ⟨⟨holds.closes, ?_, ?_, ?_⟩, tidy.child, ?_⟩
  · show Function.update server.table server.connfd none server.listenfd = some .other
    rw [Function.update_of_ne different, listening]
  · rw [length]
    exact accepted
  · rw [length]
    exact forked
  · show server.closed ++ [.connection server.closed.length] = _
    rw [length, List.range_succ, List.map_append, ← tidy.closed]
    rfl

theorem Tidy.parentEnds {server : ForkServer} (tidy : server.Tidy) : server.parentEnds.Tidy := by
  refine ⟨nofun, fun index created => ?_, tidy.closed⟩
  show ChildTidy server.listenfd index
    (if server.child index = .zombie then .reaped else server.child index)
    (server.childConnfd index) (server.childTable index)
  by_cases zombie : server.child index = .zombie
  · rw [if_pos zombie]
    exact (tidy.child index created).goes (zombie ▸ Iff.rfl) nofun
  · rw [if_neg zombie]
    exact tidy.child index created

theorem Tidy.childExits {server : ForkServer} (tidy : server.Tidy) (child : Nat) :
    (server.childExits child).Tidy := by
  have gone (place : ForkChild) (exited : ¬ place.Live) := childTidy_update tidy
    (childTidy_exited server.listenfd child (server.childConnfd child) exited)
  unfold ForkServer.childExits
  split
  · exact ⟨tidy.parent, gone .reaped id, tidy.closed⟩
  · exact ⟨tidy.parent, gone .zombie id, tidy.closed⟩

theorem Tidy.moves {server next : ForkServer} (tidy : server.Tidy) (moves : Moves server next) :
    next.Tidy := by
  cases moves with
  | accept fd here fresh =>
    obtain ⟨free, listening, accepted, forked⟩ := tidy.parent_at here
    have different : server.listenfd ≠ fd := by
      rintro rfl
      rw [listening] at fresh
      cases fresh
    refine ⟨⟨accepted ▸ free.opens fd _, ?_, congrArg (· + 1) accepted, forked⟩, tidy.child,
      tidy.closed⟩
    show Function.update server.table fd _ server.listenfd = some .other
    rw [Function.update_of_ne different, listening]
  | fork here => exact tidy.fork here
  | close file here found => exact tidy.close here found
  | parentEnds => exact tidy.parentEnds
  | closeListen child created here =>
    refine ⟨tidy.parent, childTidy_update tidy ?_, tidy.closed⟩
    have before := tidy.child child created
    rw [here] at before
    exact before.closeListen
  | childGoes child place created before away after later =>
    exact ⟨tidy.parent, childTidy_goes tidy created (iff_of_true after before) later, tidy.closed⟩
  | childExits child created before => exact tidy.childExits child
  | reaps child here created zombie =>
    refine ⟨tidy.parent, childTidy_goes tidy created ?_ nofun, tidy.closed⟩
    rw [zombie]
    exact Iff.rfl
  | enters | noneLeft | logged | handlerReturns => exact ⟨tidy.parent, tidy.child, tidy.closed⟩

theorem tidy_of_reachable {listenfd : Int} {others : Finset Int} {server : ForkServer}
    (reached : (machine listenfd others).Reachable server) : server.Tidy :=
  reached.invariant Tidy (tidy_start listenfd others) fun _ _ _ tidy taken =>
    tidy.moves (moves_of_step taken)

/-! ### Which connections are released -/

/-- No table refers to the connection any more. -/
def Released (server : ForkServer) (connection : Nat) : Prop :=
  ¬ Refers server.table connection ∧
    ∀ index < server.forked, ¬ Refers (server.childTable index) connection

/-- The child of the connection was forked and has exited. -/
def Exited (server : ForkServer) (connection : Nat) : Prop :=
  connection < server.forked ∧ ¬ (server.child connection).Live

/-- The tables of all processes are as they should be: the parent holds no connection when it is
about to accept, a live child holds the one accepted in its own iteration and no other, and a
connection is released when its child has exited and the parent has closed its copy. If the parent
has ended, its copies are closed, and the last connection may have no child. -/
structure Hygienic (server : ForkServer) : Prop where
  accept : server.parent = .accept → ∀ connection, ¬ Refers server.table connection
  iteration : server.parent = .fork → server.accepted = server.forked + 1
  child : ∀ index < server.forked, (server.child index).Live → ∀ connection,
    Refers (server.childTable index) connection ↔ connection = index
  released : server.parent ≠ .ended → ∀ connection < server.accepted,
    server.Released connection ↔
      .connection connection ∈ server.closed ∧ server.Exited connection
  orphaned : server.parent = .ended → ∀ connection < server.accepted,
    server.Released connection ↔ (connection < server.forked → server.Exited connection)

theorem Tidy.mem_closed {server : ForkServer} (tidy : server.Tidy) (connection : Nat) :
    .connection connection ∈ server.closed ↔ connection < server.closed.length := by
  rw [tidy.closed, List.length_map, List.length_range, List.mem_map]
  constructor
  · rintro ⟨other, member, same⟩
    cases same
    exact List.mem_range.mp member
  · exact fun below => ⟨connection, List.mem_range.mpr below, rfl⟩

/-- A child's table refers to its own connection as long as it lives, and to no other. -/
theorem Tidy.child_refers_iff {server : ForkServer} (tidy : server.Tidy) {index : Nat}
    (created : index < server.forked) (connection : Nat) :
    Refers (server.childTable index) connection ↔
      (server.child index).Live ∧ connection = index := by
  by_cases live : (server.child index).Live
  · rw [((tidy.child index created).live live).refers_iff, and_iff_right live]
  · exact iff_of_false (((tidy.child index created).exited live).not_refers connection)
      fun both => live both.1

/-- The parent's table refers to a connection between its `Accept` and its `Close`. -/
theorem Tidy.parent_refers_iff {server : ForkServer} (tidy : server.Tidy)
    (alive : server.parent ≠ .ended) (connection : Nat) :
    Refers server.table connection ↔
      server.closed.length ≤ connection ∧ connection < server.accepted := by
  cases here : server.parent with
  | accept =>
    obtain ⟨free, -, accepted, -⟩ := tidy.parent_at here
    exact iff_of_false (free.not_refers connection) (by omega)
  | fork | close =>
    obtain ⟨holds, -, accepted, -⟩ := tidy.parent_at here
    rw [holds.refers_iff]
    omega
  | ended => exact absurd here alive

theorem Tidy.released_iff {server : ForkServer} (tidy : server.Tidy) (connection : Nat) :
    server.Released connection ↔ ¬ Refers server.table connection ∧
      (connection < server.forked → server.Exited connection) := by
  refine and_congr_right fun _ => ⟨fun unheld created => ⟨created, fun live => ?_⟩, ?_⟩
  · exact unheld connection created ((tidy.child_refers_iff created connection).mpr ⟨live, rfl⟩)
  · intro exited index created refers
    obtain ⟨live, rfl⟩ := (tidy.child_refers_iff created connection).mp refers
    exact (exited created).2 live

/-- The parent closes a copy only after the fork. -/
theorem Tidy.closed_le_forked {server : ForkServer} (tidy : server.Tidy)
    (alive : server.parent ≠ .ended) : server.closed.length ≤ server.forked := by
  cases here : server.parent with
  | accept | fork | close =>
    obtain ⟨-, -, -, forked⟩ := tidy.parent_at here
    omega
  | ended => exact absurd here alive

theorem Tidy.hygienic {server : ForkServer} (tidy : server.Tidy) : server.Hygienic := by
  refine ⟨fun here => ?_, fun here => ?_, fun index created live connection => ?_,
    fun alive connection accepted => ?_, fun ended connection _ => ?_⟩
  · exact (tidy.parent_at here).1.not_refers
  · obtain ⟨-, -, accepted, forked⟩ := tidy.parent_at here
    rw [accepted, forked]
  · rw [tidy.child_refers_iff created, and_iff_right live]
  · rw [tidy.released_iff, tidy.parent_refers_iff alive, tidy.mem_closed]
    have forked := tidy.closed_le_forked alive
    constructor
    · rintro ⟨unheld, exited⟩
      have closed : connection < server.closed.length := by omega
      exact ⟨closed, exited (by omega)⟩
    · rintro ⟨closed, exited⟩
      exact ⟨by omega, fun _ => exited⟩
  · have free : Free server.table := tidy.parent_at ended
    rw [tidy.released_iff, and_iff_right (free.not_refers connection)]

/-- In every run of the forking server, with any clients and in any order of the steps, no process
keeps a connection that it should not keep. -/
theorem descriptor_hygiene (listenfd : Int) (others : Finset Int) (server : ForkServer)
    (reached : (machine listenfd others).Reachable server) : server.Hygienic :=
  (tidy_of_reachable reached).hygienic

/-- Two clients: the second one's connection gets the number of the first one's, the first child
exits before the second is forked, and the second is still in its session. -/
theorem descriptor_hygiene_run :
    ∃ server, (machine 3 ∅).Reachable server ∧ server.accepted = 2 ∧ server.Exited 0 ∧
      (server.child 1).Live ∧ server.Hygienic := by
  have reached : (machine 3 ∅).Reachable ((machine 3 ∅).after
      [.accept 4, .fork, .child 0 .eof true, .close, .accept 4, .child 0 .eof true,
        .child 0 .eof true, .fork, .handler none, .handler (some 0), .handler none, .handler none,
        .handler none, .close, .child 1 .eof true]) :=
    Machine.reachable_after _ (by decide)
  exact ⟨_, reached, by decide, ⟨by decide, by decide⟩, by decide, descriptor_hygiene 3 ∅ _ reached⟩

end ForkServer

end SocketC
