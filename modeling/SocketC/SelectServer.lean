/-
This file models `unpv13e/tcpcliserv/tcpservselect01.c`, the echo server that serves all its clients
from one thread with `Select`. It keeps the descriptors of its clients in the array `client`, with
-1 in the free entries, and in the set `allset` that it asks `Select` about; `maxi` and `maxfd`
bound the two. A turn of the loop accepts at most one client and then goes over the array until it
has met as many descriptors as `Select` has found.

The kernel hands out the lowest descriptor that is not in use, below the process's limit `nofile`.
Descriptors 0, 1 and 2 are in use when the server begins and 3 is the listening socket.

As long as the set has had a place for every new descriptor, the array, the set and the bounds
agree, `Read` is called only on a descriptor that `Select` has found, so that it never waits, and
every client gets back what it sent. The set has as many places as the array has entries, but four
of them are not for clients, and there is no test in front of `FD_SET`: the server calls it with a
descriptor beyond the set before the array is full, and goes on. What that call does to the memory
behind the set is not modelled, and nothing is said about what comes after it.
-/

import SocketC.Lines
import SocketC.Sweep
import SocketC.Transition

namespace SocketC

open Sweep

/-! ### The state -/

/-- A connection: what the client has sent and the server has not read, whether the client has
closed it, all that the client has sent, and all that was written back. -/
structure SelLink where
  incoming : List UInt8
  finished : Bool
  received : List UInt8
  echoed : List UInt8
  deriving DecidableEq

/-- `Read` returns at once. -/
def SelLink.Readable (link : SelLink) : Prop := link.incoming ≠ [] ∨ link.finished = true

instance (link : SelLink) : Decidable link.Readable := inferInstanceAs (Decidable (_ ∨ _))

/-- Where the server stands. -/
inductive SelPlace where
  /-- Line 36. -/
  | select
  /-- Line 40. -/
  | accept
  /-- Line 66, with this `i`. -/
  | scan (index : Nat)
  /-- In `err_sys` of a wrapper. -/
  | failed
  /-- In `err_quit`, line 54. -/
  | tooMany
  deriving DecidableEq

/-- The server and its connections. `setsize` is `FD_SETSIZE`. `opened` are the descriptors in use,
and `closed` are the connections that the server has closed. `beyond` says that `FD_SET` was called
with a descriptor that has no place in the set. -/
structure SelServer (setsize : Nat) where
  place : SelPlace
  client : Fin setsize → Option Nat
  maxi : Int
  maxfd : Nat
  allset : Finset Nat
  rset : Finset Nat
  nready : Nat
  opened : Finset Nat
  link : Nat → SelLink
  closed : List SelLink
  beyond : Bool

namespace SelServer

variable {setsize nofile : Nat}

def listenfd : Nat := 3

/-- `FD_SET`. -/
def fdSet (setsize sockfd : Nat) (set : Finset Nat) : Finset Nat :=
  if sockfd < setsize then insert sockfd set else set

/-- After line 31. -/
def start (setsize : Nat) : SelServer setsize where
  place := .select
  client := fun _ => none
  maxi := -1
  maxfd := listenfd
  allset := fdSet setsize listenfd ∅
  rset := ∅
  nready := 0
  opened := Finset.range (listenfd + 1)
  link := fun _ => ⟨[], false, [], []⟩
  closed := []
  beyond := decide (setsize ≤ listenfd)

/-! ### The turns of the loop -/

inductive Action where
  /-- `Select` returns with these descriptors. -/
  | select (ready : Finset Nat)
  | accept
  /-- A turn of the inner loop; a `Read` in it returns so many bytes, unless it finds the end. -/
  | scan (count : Nat)
  /-- A system call fails. -/
  | fail
  /-- The client of a connection sends. -/
  | sends (sockfd : Nat) (bytes : List UInt8)
  /-- The client of a connection closes it. -/
  | closes (sockfd : Nat)

/-- `Select`, lines 36-37. -/
def selectStep (server : SelServer setsize) (ready : Finset Nat) : Option (SelServer setsize) :=
  if server.place = .select ∧ ready.Nonempty ∧
      ∀ sockfd ∈ ready, sockfd ∈ server.allset ∧ sockfd ≤ server.maxfd ∧
        (sockfd = listenfd ∨ (server.link sockfd).Readable) then
    some { server with
      place := if listenfd ∈ ready then .accept else .scan 0
      rset := ready
      nready := ready.card }
  else none

/-- The descriptor that `accept` returns. -/
def newDescriptor (nofile : Nat) (server : SelServer setsize) : Option Nat :=
  (List.range nofile).find? fun sockfd => decide (sockfd ∉ server.opened)

/-- The loop of lines 48-52. -/
def freeEntry (server : SelServer setsize) : Option (Fin setsize) :=
  (List.finRange setsize).find? fun index => (server.client index).isNone

/-- Where `--nready <= 0` leads. -/
def nextPlace (nready : Nat) (next : SelPlace) : SelPlace :=
  if nready - 1 = 0 then .select else next

/-- Lines 40-63. -/
def acceptStep (nofile : Nat) (server : SelServer setsize) : SelServer setsize :=
  match server.newDescriptor nofile with
  | none => { server with place := .failed }
  | some connfd =>
    match server.freeEntry with
    | none => { server with place := .tooMany }
    | some index =>
      { server with
        place := nextPlace server.nready (.scan 0)
        client := Function.update server.client index (some connfd)
        maxi := max server.maxi index
        maxfd := max server.maxfd connfd
        allset := fdSet setsize connfd server.allset
        nready := server.nready - 1
        opened := insert connfd server.opened
        link := Function.update server.link connfd ⟨[], false, [], []⟩
        beyond := server.beyond || decide (setsize ≤ connfd) }

/-- `Read` has found the end: lines 72-74. -/
def closeClient (server : SelServer setsize) (index : Fin setsize) (sockfd : Nat) :
    SelServer setsize :=
  { server with
    place := nextPlace server.nready (.scan (index + 1))
    client := Function.update server.client index none
    allset := server.allset.erase sockfd
    nready := server.nready - 1
    opened := server.opened.erase sockfd
    closed := server.closed ++ [server.link sockfd] }

/-- `Read` has returned bytes: line 76. -/
def echoClient (server : SelServer setsize) (index : Fin setsize) (sockfd count : Nat) :
    SelServer setsize :=
  let link := server.link sockfd
  { server with
    place := nextPlace server.nready (.scan (index + 1))
    nready := server.nready - 1
    link := Function.update server.link sockfd
      { link with
        incoming := link.incoming.drop count
        echoed := link.echoed ++ link.incoming.take count } }

/-- Lines 66-80. -/
def scanStep (server : SelServer setsize) (index count : Nat) : Option (SelServer setsize) :=
  if bound : index < setsize then
    if (index : Int) ≤ server.maxi then
      match server.client ⟨index, bound⟩ with
      | none => some { server with place := .scan (index + 1) }
      | some sockfd =>
        if sockfd ∈ server.rset then
          let link := server.link sockfd
          if link.incoming = [] then
            if link.finished then some (server.closeClient ⟨index, bound⟩ sockfd) else none
          else if 0 < count ∧ count ≤ min maxLine link.incoming.length then
            some (server.echoClient ⟨index, bound⟩ sockfd count)
          else none
        else some { server with place := .scan (index + 1) }
    else some { server with place := .select }
  else some { server with place := .select }

/-- Something arrives on the connection of a client that has not closed it. -/
def arrive (server : SelServer setsize) (sockfd : Nat) (arrived : SelLink → SelLink) :
    Option (SelServer setsize) :=
  if (∃ index, server.client index = some sockfd) ∧ (server.link sockfd).finished = false then
    some { server with
      link := Function.update server.link sockfd (arrived (server.link sockfd)) }
  else none

def step (nofile : Nat) (server : SelServer setsize) : Action → Option (SelServer setsize)
  | .select ready => server.selectStep ready
  | .accept => if server.place = .accept then some (server.acceptStep nofile) else none
  | .scan count =>
    match server.place with
    | .scan index => server.scanStep index count
    | _ => none
  | .fail =>
    match server.place with
    | .select | .accept | .scan _ => some { server with place := .failed }
    | _ => none
  | .sends sockfd bytes =>
    server.arrive sockfd fun link =>
      { link with incoming := link.incoming ++ bytes, received := link.received ++ bytes }
  | .closes sockfd => server.arrive sockfd fun link => { link with finished := true }

def machine (setsize nofile : Nat) : Machine (SelServer setsize) Action where
  start := start setsize
  step := step nofile

variable {server next : SelServer setsize}

/-- The entries of the array whose descriptor is in a set. -/
def reported (client : Fin setsize → Option Nat) (rset : Finset Nat) (index : Fin setsize) : Bool :=
  (client index).any fun sockfd => decide (sockfd ∈ rset)

theorem reported_of_entry {client : Fin setsize → Option Nat} {rset : Finset Nat}
    {index : Fin setsize} {sockfd : Nat} (entry : client index = some sockfd) :
    reported client rset index = decide (sockfd ∈ rset) := by
  rw [reported, entry, Option.any_some]

theorem reported_of_free {client : Fin setsize → Option Nat} {rset : Finset Nat}
    {index : Fin setsize} (free : client index = none) : reported client rset index = false := by
  rw [reported, free, Option.any_none]

theorem exists_of_reported {client : Fin setsize → Option Nat} {rset : Finset Nat}
    {index : Fin setsize} (isReported : reported client rset index = true) :
    ∃ sockfd ∈ rset, client index = some sockfd := by
  cases entry : client index with
  | none =>
    rw [reported_of_free entry] at isReported
    cases isReported
  | some sockfd =>
    rw [reported_of_entry entry] at isReported
    exact ⟨sockfd, of_decide_eq_true isReported, rfl⟩

/-- What can happen, with what is known when it does. -/
inductive Moves (nofile : Nat) (server : SelServer setsize) : SelServer setsize → Prop
  | select (ready : Finset Nat) (some_ready : ready.Nonempty)
      (each : ∀ sockfd ∈ ready, sockfd ∈ server.allset ∧ sockfd ≤ server.maxfd ∧
        (sockfd = listenfd ∨ (server.link sockfd).Readable)) :
      Moves nofile server { server with
        place := if listenfd ∈ ready then .accept else .scan 0
        rset := ready
        nready := ready.card }
  | accept (connfd : Nat) (index : Fin setsize) (place : server.place = .accept)
      (new : server.newDescriptor nofile = some connfd) (free : server.freeEntry = some index)
      (fits : connfd < setsize) :
      Moves nofile server { server with
        place := nextPlace server.nready (.scan 0)
        client := Function.update server.client index (some connfd)
        maxi := max server.maxi index
        maxfd := max server.maxfd connfd
        allset := insert connfd server.allset
        nready := server.nready - 1
        opened := insert connfd server.opened
        link := Function.update server.link connfd ⟨[], false, [], []⟩ }
  /-- `FD_SET` is called with a descriptor beyond the set. -/
  | strays (connfd : Nat) (new : server.newDescriptor nofile = some connfd)
      (large : setsize ≤ connfd) (next : SelServer setsize) (beyond : next.beyond = true)
      (before : Nat) (place : next.place = nextPlace before (.scan 0)) : Moves nofile server next
  | tooMany (full : server.freeEntry = none) : Moves nofile server { server with place := .tooMany }
  | fail : Moves nofile server { server with place := .failed }
  | skip (index : Fin setsize) (place : server.place = .scan index)
      (unreported : reported server.client server.rset index = false) :
      Moves nofile server { server with place := .scan (index + 1) }
  | done : Moves nofile server { server with place := .select }
  | close (index : Fin setsize) (sockfd : Nat) (place : server.place = .scan index)
      (entry : server.client index = some sockfd) (member : sockfd ∈ server.rset)
      (empty : (server.link sockfd).incoming = []) :
      Moves nofile server (server.closeClient index sockfd)
  | echo (index : Fin setsize) (sockfd count : Nat) (place : server.place = .scan index)
      (entry : server.client index = some sockfd) (member : sockfd ∈ server.rset) :
      Moves nofile server (server.echoClient index sockfd count)
  | sends (sockfd : Nat) (bytes : List UInt8) :
      Moves nofile server { server with
        link := Function.update server.link sockfd
          { server.link sockfd with
            incoming := (server.link sockfd).incoming ++ bytes
            received := (server.link sockfd).received ++ bytes } }
  | closes (sockfd : Nat) :
      Moves nofile server { server with
        link := Function.update server.link sockfd
          { server.link sockfd with finished := true } }

theorem moves_of_accept (place : server.place = .accept) :
    Moves nofile server (server.acceptStep nofile) := by
  unfold acceptStep
  split
  · exact .fail
  · rename_i connfd new
    split
    · rename_i full
      exact .tooMany full
    · rename_i index free
      by_cases fits : connfd < setsize
      · have noted : (server.beyond || decide (setsize ≤ connfd)) = server.beyond := by
          rw [decide_eq_false (Nat.not_le.mpr fits), Bool.or_false]
        rw [fdSet, if_pos fits, noted]
        exact .accept connfd index place new free fits
      · have large := Nat.not_lt.mp fits
        refine .strays connfd new large _ ?_ server.nready rfl
        rw [decide_eq_true large, Bool.or_true]

theorem moves_of_scan {index count : Nat} (place : server.place = .scan index)
    (taken : server.scanStep index count = some next) : Moves nofile server next := by
  unfold scanStep at taken
  split at taken
  · rename_i bound
    split at taken
    · split at taken
      · rename_i free
        obtain rfl := Option.some.inj taken
        exact .skip ⟨index, bound⟩ place (reported_of_free free)
      · rename_i sockfd entry
        dsimp only at taken
        split at taken
        · rename_i member
          split at taken
          · rename_i empty
            obtain ⟨-, done⟩ := Option.ite_none_right_eq_some.mp taken
            obtain rfl := Option.some.inj done
            exact .close ⟨index, bound⟩ sockfd place entry member empty
          · obtain ⟨-, done⟩ := Option.ite_none_right_eq_some.mp taken
            obtain rfl := Option.some.inj done
            exact .echo ⟨index, bound⟩ sockfd count place entry member
        · rename_i absent
          obtain rfl := Option.some.inj taken
          exact .skip ⟨index, bound⟩ place
            ((reported_of_entry entry).trans (decide_eq_false absent))
    · obtain rfl := Option.some.inj taken
      exact .done
  · obtain rfl := Option.some.inj taken
    exact .done

theorem moves_of_step {action : Action} (taken : server.step nofile action = some next) :
    Moves nofile server next := by
  cases action with
  | select ready =>
    obtain ⟨⟨-, some_ready, each⟩, done⟩ := Option.ite_none_right_eq_some.mp taken
    obtain rfl := Option.some.inj done
    exact .select ready some_ready each
  | accept =>
    obtain ⟨place, done⟩ := Option.ite_none_right_eq_some.mp taken
    obtain rfl := Option.some.inj done
    exact moves_of_accept place
  | scan count =>
    dsimp only [step] at taken
    split at taken
    · rename_i index place
      exact moves_of_scan place taken
    · cases taken
  | fail =>
    dsimp only [step] at taken
    split at taken
    · obtain rfl := Option.some.inj taken
      exact .fail
    · obtain rfl := Option.some.inj taken
      exact .fail
    · obtain rfl := Option.some.inj taken
      exact .fail
    · cases taken
  | sends sockfd bytes =>
    obtain ⟨-, done⟩ := Option.ite_none_right_eq_some.mp taken
    obtain rfl := Option.some.inj done
    exact .sends sockfd bytes
  | closes sockfd =>
    obtain ⟨-, done⟩ := Option.ite_none_right_eq_some.mp taken
    obtain rfl := Option.some.inj done
    exact .closes sockfd

/-! ### The array, the sets and their bounds -/

/-- The array, the sets and the bounds agree. -/
structure Table (server : SelServer setsize) : Prop where
  room : listenfd < setsize
  opened : ∀ sockfd, sockfd ∈ server.opened ↔
    sockfd ≤ listenfd ∨ ∃ index, server.client index = some sockfd
  allset : ∀ sockfd, sockfd ∈ server.allset ↔
    sockfd = listenfd ∨ ∃ index, server.client index = some sockfd
  distinct : ∀ first second sockfd, server.client first = some sockfd →
    server.client second = some sockfd → first = second
  range : ∀ index sockfd, server.client index = some sockfd → listenfd < sockfd ∧ sockfd < setsize
  maxfd : ∀ sockfd ∈ server.allset, sockfd ≤ server.maxfd
  maxi : ∀ index sockfd, server.client index = some sockfd → (index : Int) ≤ server.maxi
  maxi_lt : server.maxi < setsize

theorem table_start (room : listenfd < setsize) : (start setsize).Table where
  room := room
  opened := by simp [start]
  allset := by simp [start, fdSet, room]
  distinct := by simp [start]
  range := by simp [start]
  maxfd := by simp [start, fdSet, room]
  maxi := by simp [start]
  maxi_lt := by
    show (-1 : Int) < setsize
    omega

theorem newDescriptor_spec {connfd : Nat} (new : server.newDescriptor nofile = some connfd) :
    connfd < nofile ∧ connfd ∉ server.opened := by
  have unused := List.find?_some new
  exact ⟨List.mem_range.mp (List.mem_of_find?_eq_some new), of_decide_eq_true unused⟩

theorem freeEntry_spec {index : Fin setsize} (free : server.freeEntry = some index) :
    server.client index = none := by
  have isFree := List.find?_some free
  exact Option.isNone_iff_eq_none.mp isFree

/-- The entries after one of them was given a new descriptor. -/
theorem client_update_some {client : Fin setsize → Option Nat} {index other : Fin setsize}
    {connfd sockfd : Nat} (entry : Function.update client index (some connfd) other = some sockfd) :
    other = index ∧ sockfd = connfd ∨ other ≠ index ∧ client other = some sockfd := by
  rw [Function.update_apply] at entry
  split at entry
  · rename_i same
    exact Or.inl ⟨same, (Option.some.inj entry).symm⟩
  · rename_i different
    exact Or.inr ⟨different, entry⟩

theorem client_update_none {client : Fin setsize → Option Nat} {index other : Fin setsize}
    {sockfd : Nat} (entry : Function.update client index none other = some sockfd) :
    other ≠ index ∧ client other = some sockfd := by
  rw [Function.update_apply] at entry
  split at entry
  · cases entry
  · rename_i different
    exact ⟨different, entry⟩

theorem exists_update_some {client : Fin setsize → Option Nat} {index : Fin setsize}
    (free : client index = none) (connfd sockfd : Nat) :
    (∃ other, Function.update client index (some connfd) other = some sockfd) ↔
      sockfd = connfd ∨ ∃ other, client other = some sockfd := by
  constructor
  · rintro ⟨other, entry⟩
    rcases client_update_some entry with ⟨-, same⟩ | ⟨-, before⟩
    · exact Or.inl same
    · exact Or.inr ⟨other, before⟩
  · rintro (rfl | ⟨other, entry⟩)
    · exact ⟨index, Function.update_self ..⟩
    · refine ⟨other, ?_⟩
      rw [Function.update_of_ne, entry]
      rintro rfl
      rw [free] at entry
      cases entry

theorem Table.exists_update_none (table : server.Table) {index : Fin setsize} {closing : Nat}
    (entry : server.client index = some closing) (sockfd : Nat) :
    (∃ other, Function.update server.client index none other = some sockfd) ↔
      sockfd ≠ closing ∧ ∃ other, server.client other = some sockfd := by
  constructor
  · rintro ⟨other, after⟩
    obtain ⟨different, before⟩ := client_update_none after
    refine ⟨?_, other, before⟩
    rintro rfl
    exact different (table.distinct other index sockfd before entry)
  · rintro ⟨different, other, before⟩
    refine ⟨other, ?_⟩
    rw [Function.update_of_ne, before]
    rintro rfl
    rw [entry] at before
    exact different (Option.some.inj before).symm

/-- The array is not full: its descriptors are different, and four are not for clients. -/
theorem Table.exists_freeEntry (table : server.Table) :
    ∃ index, server.freeEntry = some index := by
  have room := table.room
  refine Option.ne_none_iff_exists'.mp fun full => ?_
  have entry (index : Fin setsize) : ∃ sockfd, server.client index = some sockfd := by
    have used := List.find?_eq_none.mp full index (List.mem_finRange index)
    exact Option.ne_none_iff_exists'.mp fun free => used (by rw [free]; rfl)
  choose sockfd entryIs using entry
  have injective : Function.Injective sockfd := fun first second same =>
    table.distinct first second _ (entryIs first) (same ▸ entryIs second)
  have into : ∀ index ∈ (Finset.univ : Finset (Fin setsize)),
      sockfd index ∈ Finset.Ioo listenfd setsize := fun index _ =>
    Finset.mem_Ioo.mpr (table.range index _ (entryIs index))
  have bound := Finset.card_le_card_of_injOn sockfd into injective.injOn
  rw [Finset.card_univ, Fintype.card_fin, Nat.card_Ioo] at bound
  omega

theorem Table.accept (table : server.Table) {connfd : Nat} {index : Fin setsize}
    (new : server.newDescriptor nofile = some connfd) (free : server.freeEntry = some index)
    (fits : connfd < setsize) {after : SelServer setsize}
    (client : after.client = Function.update server.client index (some connfd))
    (maxi : after.maxi = max server.maxi index) (maxfd : after.maxfd = max server.maxfd connfd)
    (allset : after.allset = insert connfd server.allset)
    (opened : after.opened = insert connfd server.opened) : after.Table := by
  have wasFree := freeEntry_spec free
  have unused := (newDescriptor_spec new).2
  rw [table.opened, not_or] at unused
  refine ⟨table.room, fun sockfd => ?_, fun sockfd => ?_, fun first second sockfd => ?_,
    fun other sockfd entry => ?_, fun sockfd member => ?_, fun other sockfd entry => ?_, ?_⟩
  · rw [opened, client, Finset.mem_insert, exists_update_some wasFree, table.opened, or_left_comm]
  · rw [allset, client, Finset.mem_insert, exists_update_some wasFree, table.allset, or_left_comm]
  · rw [client]
    intro firstEntry secondEntry
    rcases client_update_some firstEntry with ⟨rfl, rfl⟩ | ⟨-, firstBefore⟩
    · rcases client_update_some secondEntry with ⟨rfl, -⟩ | ⟨-, secondBefore⟩
      · rfl
      · exact absurd ⟨second, secondBefore⟩ unused.2
    · rcases client_update_some secondEntry with ⟨rfl, rfl⟩ | ⟨-, secondBefore⟩
      · exact absurd ⟨first, firstBefore⟩ unused.2
      · exact table.distinct first second sockfd firstBefore secondBefore
  · rw [client] at entry
    rcases client_update_some entry with ⟨rfl, rfl⟩ | ⟨-, before⟩
    · exact ⟨Nat.lt_of_not_le unused.1, fits⟩
    · exact table.range other sockfd before
  · rw [allset] at member
    rw [maxfd]
    rcases Finset.mem_insert.mp member with rfl | before
    · exact le_max_right _ _
    · exact (table.maxfd sockfd before).trans (le_max_left _ _)
  · rw [client] at entry
    rw [maxi]
    rcases client_update_some entry with ⟨rfl, rfl⟩ | ⟨-, before⟩
    · exact le_max_right _ _
    · exact (table.maxi other sockfd before).trans (le_max_left _ _)
  · rw [maxi]
    exact max_lt table.maxi_lt (Int.ofNat_lt.mpr index.isLt)

theorem Table.close (table : server.Table) {sockfd : Nat} {index : Fin setsize}
    (entry : server.client index = some sockfd) : (server.closeClient index sockfd).Table := by
  have above := (table.range index sockfd entry).1
  refine ⟨table.room, fun other => ?_, fun other => ?_,
    fun first second other firstEntry secondEntry => ?_, fun place other entryAfter => ?_,
    fun other member => ?_, fun place other entryAfter => ?_, table.maxi_lt⟩
  · show other ∈ server.opened.erase sockfd ↔ _ ∨ ∃ place, Function.update _ _ _ place = _
    rw [table.exists_update_none entry, Finset.mem_erase, table.opened]
    constructor
    · rintro ⟨different, small | held⟩
      · exact Or.inl small
      · exact Or.inr ⟨different, held⟩
    · rintro (small | ⟨different, held⟩)
      · exact ⟨by omega, Or.inl small⟩
      · exact ⟨different, Or.inr held⟩
  · show other ∈ server.allset.erase sockfd ↔ _ ∨ ∃ place, Function.update _ _ _ place = _
    rw [table.exists_update_none entry, Finset.mem_erase, table.allset]
    constructor
    · rintro ⟨different, listens | held⟩
      · exact Or.inl listens
      · exact Or.inr ⟨different, held⟩
    · rintro (listens | ⟨different, held⟩)
      · exact ⟨by omega, Or.inl listens⟩
      · exact ⟨different, Or.inr held⟩
  · exact table.distinct first second other (client_update_none firstEntry).2
      (client_update_none secondEntry).2
  · exact table.range place other (client_update_none entryAfter).2
  · exact table.maxfd other (Finset.mem_of_mem_erase member)
  · exact table.maxi place other (client_update_none entryAfter).2

theorem Table.moves (table : server.Table) (moves : Moves nofile server next)
    (within : next.beyond = false) : next.Table := by
  have same {after : SelServer setsize} (client : after.client = server.client)
      (maxi : after.maxi = server.maxi) (maxfd : after.maxfd = server.maxfd)
      (allset : after.allset = server.allset) (opened : after.opened = server.opened) :
      after.Table := by
    obtain ⟨room, openedIs, allsetIs, distinct, range, maxfdIs, maxiIs, maxi_lt⟩ := table
    refine ⟨room, ?_, ?_, ?_, ?_, ?_, ?_, ?_⟩ <;>
      simp only [client, maxi, maxfd, allset, opened] <;> assumption
  cases moves with
  | accept connfd index place new free fits => exact table.accept new free fits rfl rfl rfl rfl rfl
  | strays connfd new large next beyond =>
    exact absurd within (ne_false_of_eq_true beyond)
  | close index sockfd place entry member empty => exact table.close entry
  | _ => exact same rfl rfl rfl rfl rfl

/-! ### The results of `Select` -/

/-- From an index on, what `Select` has found can be read. -/
def Ready (server : SelServer setsize) (index : Nat) : Prop :=
  ∀ entry sockfd, index ≤ entry.val → server.client entry = some sockfd → sockfd ∈ server.rset →
    (server.link sockfd).Readable

/-- What is left of the results of `Select` is what `nready` says, and while the server looks for
it there is something left. -/
structure Turn (server : SelServer setsize) : Prop where
  accept : server.place = .accept → server.rset ⊆ server.allset ∧ server.Ready 0 ∧
    server.nready = marksFrom (reported server.client server.rset) 0 + 1
  scan : ∀ index, server.place = .scan index → server.Ready index ∧
    server.nready = marksFrom (reported server.client server.rset) index ∧ 0 < server.nready

theorem turn_of_place (notAccept : server.place ≠ .accept)
    (notScan : ∀ index, server.place ≠ .scan index) : server.Turn :=
  ⟨fun place => absurd place notAccept, fun index place => absurd place (notScan index)⟩

/-- The place after a descriptor, when `nready` counts what is behind it. -/
theorem turn_of_nextPlace {index before : Nat} (place : next.place = nextPlace before (.scan index))
    (ready : next.Ready index) (nready : next.nready = before - 1)
    (counts : before = marksFrom (reported next.client next.rset) index + 1) : next.Turn := by
  unfold nextPlace at place
  split at place
  · exact turn_of_place (by simp [place]) (by simp [place])
  · rename_i more
    refine ⟨fun accept => by simp [place] at accept, fun other scan => ?_⟩
    rw [place] at scan
    obtain rfl := SelPlace.scan.inj scan
    exact ⟨ready, by omega, by omega⟩

/-- `Select` finds clients at entries of the array, each at one. -/
theorem Table.card_ready (table : server.Table) {ready : Finset Nat}
    (subset : ∀ sockfd ∈ ready, sockfd ∈ server.allset) :
    (ready.erase listenfd).card = marksFrom (reported server.client ready) 0 := by
  symm
  refine Finset.card_bij (fun entry _ => (server.client entry).getD 0) ?_ ?_ ?_
  · intro entry member
    obtain ⟨sockfd, found, entryIs⟩ := exists_of_reported (Finset.mem_filter.mp member).2.2
    rw [entryIs, Option.getD_some, Finset.mem_erase]
    exact ⟨(table.range entry sockfd entryIs).1.ne', found⟩
  · intro first firstMember second secondMember same
    obtain ⟨sockfd, -, firstIs⟩ := exists_of_reported (Finset.mem_filter.mp firstMember).2.2
    obtain ⟨other, -, secondIs⟩ := exists_of_reported (Finset.mem_filter.mp secondMember).2.2
    rw [firstIs, secondIs, Option.getD_some, Option.getD_some] at same
    exact table.distinct first second sockfd firstIs (same ▸ secondIs)
  · intro sockfd member
    obtain ⟨notListen, found⟩ := Finset.mem_erase.mp member
    rcases (table.allset sockfd).mp (subset sockfd found) with listens | ⟨entry, entryIs⟩
    · exact absurd listens notListen
    · refine ⟨entry, Finset.mem_filter.mpr ⟨Finset.mem_univ entry, Nat.zero_le _, ?_⟩, ?_⟩
      · rw [reported_of_entry entryIs, decide_eq_true found]
      · rw [entryIs, Option.getD_some]

theorem Table.turn_select (table : server.Table) {ready : Finset Nat} (some_ready : ready.Nonempty)
    (each : ∀ sockfd ∈ ready, sockfd ∈ server.allset ∧ sockfd ≤ server.maxfd ∧
      (sockfd = listenfd ∨ (server.link sockfd).Readable)) :
    Turn { server with
      place := if listenfd ∈ ready then .accept else .scan 0
      rset := ready
      nready := ready.card } := by
  have subset : ∀ sockfd ∈ ready, sockfd ∈ server.allset := fun sockfd found =>
    (each sockfd found).1
  have isReady : Ready { server with
      place := if listenfd ∈ ready then .accept else .scan 0
      rset := ready
      nready := ready.card } 0 := by
    intro entry sockfd _ entryIs found
    rcases (each sockfd found).2.2 with listens | readable
    · exact absurd listens (table.range entry sockfd entryIs).1.ne'
    · exact readable
  have counts := table.card_ready subset
  by_cases listens : listenfd ∈ ready
  · rw [if_pos listens] at isReady ⊢
    refine ⟨fun _ => ⟨subset, isReady, ?_⟩, by simp⟩
    show ready.card = marksFrom _ 0 + 1
    rw [← counts, Finset.card_erase_add_one listens]
  · rw [if_neg listens] at isReady ⊢
    rw [Finset.erase_eq_of_notMem listens] at counts
    refine ⟨by simp, fun index place => ?_⟩
    obtain rfl := SelPlace.scan.inj place
    exact ⟨isReady, counts, some_ready.card_pos⟩

/-- A new client was not found by this `Select`. -/
theorem Table.turn_accept (table : server.Table) (turn : server.Turn)
    (place : server.place = .accept) {connfd : Nat} {index : Fin setsize}
    (new : server.newDescriptor nofile = some connfd) (free : server.freeEntry = some index)
    {after : SelServer setsize} (placeAfter : after.place = nextPlace server.nready (.scan 0))
    (client : after.client = Function.update server.client index (some connfd))
    (rset : after.rset = server.rset) (nready : after.nready = server.nready - 1)
    (link : after.link = Function.update server.link connfd ⟨[], false, [], []⟩) : after.Turn := by
  obtain ⟨subset, ready, counts⟩ := turn.accept place
  have unused := (newDescriptor_spec new).2
  rw [table.opened, not_or] at unused
  have notFound : connfd ∉ server.rset := by
    intro found
    rcases (table.allset connfd).mp (subset found) with listens | held
    · exact unused.1 listens.le
    · exact unused.2 held
  have same : reported after.client after.rset = reported server.client server.rset := by
    funext entry
    rw [client, rset]
    rcases eq_or_ne entry index with rfl | different
    · rw [reported_of_free (freeEntry_spec free), reported_of_entry (Function.update_self ..),
        decide_eq_false notFound]
    · rw [reported, reported, Function.update_of_ne different]
  refine turn_of_nextPlace placeAfter (fun entry sockfd _ entryIs found => ?_) nready ?_
  · rw [client] at entryIs
    rw [rset] at found
    rcases client_update_some entryIs with ⟨-, rfl⟩ | ⟨-, before⟩
    · exact absurd found notFound
    · rw [link, Function.update_of_ne]
      · exact ready entry sockfd (Nat.zero_le _) before found
      · rintro rfl
        exact notFound found
  · rw [same]
    exact counts

theorem Turn.next_index (turn : server.Turn) {index : Fin setsize} {sockfd : Nat}
    (place : server.place = .scan index) (entry : server.client index = some sockfd)
    (member : sockfd ∈ server.rset) {after : SelServer setsize}
    (placeAfter : after.place = nextPlace server.nready (.scan (index + 1)))
    (rset : after.rset = server.rset) (nready : after.nready = server.nready - 1)
    (client : ∀ other : Fin setsize, index.val + 1 ≤ other.val →
      after.client other = server.client other)
    (links : ∀ other fd, index.val + 1 ≤ other.val → server.client other = some fd →
      after.link fd = server.link fd) : after.Turn := by
  obtain ⟨ready, counts, -⟩ := turn.scan index place
  have marked : reported server.client server.rset index = true := by
    rw [reported_of_entry entry, decide_eq_true member]
  refine turn_of_nextPlace placeAfter (fun other fd later entryIs found => ?_) nready ?_
  · rw [client other later] at entryIs
    rw [rset] at found
    rw [links other fd later entryIs]
    exact ready other fd (Nat.le_of_succ_le later) entryIs found
  · rw [counts, marksFrom_of_marked index.isLt marked, rset]
    congr 1
    refine marksFrom_congr fun other later => ?_
    rw [reported, reported, client other later]

/-- What arrives leaves readable what is readable. -/
theorem Turn.arrive (turn : server.Turn) {sockfd : Nat} {link : SelLink}
    (keeps : (server.link sockfd).Readable → link.Readable) :
    Turn { server with link := Function.update server.link sockfd link } := by
  have ready {index : Nat} (before : server.Ready index) :
      Ready { server with link := Function.update server.link sockfd link } index := by
    intro entry fd later entryIs found
    have readable := before entry fd later entryIs found
    dsimp only
    rw [Function.update_apply]
    split
    · rename_i same
      exact keeps (same ▸ readable)
    · exact readable
  refine ⟨fun place => ?_, fun index place => ?_⟩
  · obtain ⟨subset, before, counts⟩ := turn.accept place
    exact ⟨subset, ready before, counts⟩
  · obtain ⟨before, counts⟩ := turn.scan index place
    exact ⟨ready before, counts⟩

theorem Turn.moves (table : server.Table) (turn : server.Turn)
    (moves : Moves nofile server next) (within : next.beyond = false) : next.Turn := by
  cases moves with
  | select ready some_ready each => exact table.turn_select some_ready each
  | accept connfd index place new free fits =>
    exact table.turn_accept turn place new free rfl rfl rfl rfl rfl
  | strays connfd new large next beyond =>
    exact absurd within (ne_false_of_eq_true beyond)
  | tooMany | fail | done => exact turn_of_place (by simp) (by simp)
  | skip index place unreported =>
    obtain ⟨ready, counts, positive⟩ := turn.scan index place
    refine ⟨by simp, fun other placeAfter => ?_⟩
    obtain rfl := SelPlace.scan.inj placeAfter
    refine ⟨fun entry sockfd later => ready entry sockfd (Nat.le_of_succ_le later), ?_, positive⟩
    rw [counts]
    exact marksFrom_of_unmarked index.isLt unreported
  | close index sockfd place entry member empty =>
    refine turn.next_index place entry member rfl rfl rfl (fun other later => ?_)
      fun _ _ _ _ => rfl
    exact Function.update_of_ne (by rintro rfl; omega) _ _
  | echo index sockfd count place entry member =>
    refine turn.next_index place entry member rfl rfl rfl (fun _ _ => rfl)
      fun other fd later entryIs => ?_
    refine Function.update_of_ne ?_ _ _
    rintro rfl
    have same := table.distinct index other fd entry entryIs
    subst same
    omega
  | sends sockfd bytes =>
    refine turn.arrive (Or.imp_left fun some_there nothing => some_there ?_)
    exact (List.append_eq_nil_iff.mp nothing).1
  | closes sockfd => exact turn.arrive fun _ => Or.inr rfl

/-! ### What the clients get -/

/-- What a client has sent was written back or waits to be read, and a connection is closed
only after all of it was written back. -/
structure Echoes (server : SelServer setsize) : Prop where
  link : ∀ index sockfd, server.client index = some sockfd →
    (server.link sockfd).received = (server.link sockfd).echoed ++ (server.link sockfd).incoming
  closed : ∀ link ∈ server.closed, link.echoed = link.received

/-- One connection changes and stays in order. -/
theorem Echoes.update (echoes : server.Echoes) {sockfd : Nat} {link : SelLink}
    (order : (server.link sockfd).received =
        (server.link sockfd).echoed ++ (server.link sockfd).incoming →
      link.received = link.echoed ++ link.incoming)
    {after : SelServer setsize} (client : after.client = server.client)
    (links : after.link = Function.update server.link sockfd link)
    (closed : after.closed = server.closed) : after.Echoes := by
  refine ⟨fun index fd entry => ?_, closed ▸ echoes.closed⟩
  rw [client] at entry
  have before := echoes.link index fd entry
  rw [links, Function.update_apply]
  split
  · rename_i same
    exact order (same ▸ before)
  · exact before

theorem Echoes.moves (table : server.Table) (echoes : server.Echoes)
    (moves : Moves nofile server next) (within : next.beyond = false) : next.Echoes := by
  cases moves with
  | accept connfd index place new free fits =>
    have unused := (newDescriptor_spec new).2
    rw [table.opened, not_or] at unused
    refine ⟨fun other sockfd entry => ?_, echoes.closed⟩
    dsimp only at entry ⊢
    rcases client_update_some entry with ⟨-, rfl⟩ | ⟨-, before⟩
    · rw [Function.update_self]
      rfl
    · rw [Function.update_of_ne]
      · exact echoes.link other sockfd before
      · rintro rfl
        exact unused.2 ⟨other, before⟩
  | close index sockfd place entry member empty =>
    have order := echoes.link index sockfd entry
    rw [empty, List.append_nil] at order
    refine ⟨fun other fd entryAfter => echoes.link other fd (client_update_none entryAfter).2,
      fun link member => ?_⟩
    rcases List.mem_append.mp member with earlier | new
    · exact echoes.closed link earlier
    · rw [List.mem_singleton.mp new, order]
  | echo index sockfd count place entry member =>
    refine echoes.update (fun order => ?_) rfl rfl rfl
    rw [order, List.append_assoc, List.take_append_drop]
  | sends sockfd bytes =>
    refine echoes.update (fun order => ?_) rfl rfl rfl
    dsimp only
    rw [order, List.append_assoc]
  | closes sockfd =>
    refine echoes.update (fun order => ?_) rfl rfl rfl
    exact order
  | strays connfd new large next beyond =>
    exact absurd within (ne_false_of_eq_true beyond)
  | _ => exact ⟨echoes.link, echoes.closed⟩

/-- A call of `FD_SET` beyond the set is not forgotten. -/
theorem Moves.within (moves : Moves nofile server next) (within : next.beyond = false) :
    server.beyond = false := by
  cases moves with
  | strays connfd new large next beyond =>
    exact absurd within (ne_false_of_eq_true beyond)
  | _ => exact within

theorem keeps_of_reachable (reached : (machine setsize nofile).Reachable server)
    (within : server.beyond = false) : server.Table ∧ server.Turn ∧ server.Echoes := by
  refine reached.invariant
    (fun server => server.beyond = false → server.Table ∧ server.Turn ∧ server.Echoes) ?_ ?_ within
  · intro room
    exact ⟨table_start (Nat.lt_of_not_le (of_decide_eq_false room)),
      turn_of_place (by simp [machine, start]) (by simp [machine, start]),
      by simp [machine, start], by simp [machine, start]⟩
  · intro current action next keeps taken within
    have moves := moves_of_step taken
    obtain ⟨table, turn, echoes⟩ := keeps (moves.within within)
    exact ⟨table.moves moves within, turn.moves table moves within,
      echoes.moves table moves within⟩

/-- In every run, as long as `FD_SET` was not called with a descriptor beyond the set: `allset` has
the listening socket and the descriptors of the array, which are all different and lie below
`FD_SETSIZE`, at `maxi` or below, and at most `maxfd`; at every turn of the inner loop the next
descriptor that `Select` has found can be read without waiting, `nready` is the number of
descriptors found and not yet met, and the loop ends because there are no more of them; and what a
client has sent was written back or waits to be read, all of it written back when the connection is
closed. -/
theorem tcpservselect_serves (reached : (machine setsize nofile).Reachable server)
    (within : server.beyond = false) :
    ((∀ sockfd, sockfd ∈ server.allset ↔
        sockfd = listenfd ∨ ∃ index, server.client index = some sockfd) ∧
      (∀ first second sockfd, server.client first = some sockfd →
        server.client second = some sockfd → first = second) ∧
      ∀ index sockfd, server.client index = some sockfd →
        sockfd < setsize ∧ sockfd ≤ server.maxfd ∧ (index : Int) ≤ server.maxi) ∧
      (∀ index, server.place = .scan index →
        server.nready = marksFrom (reported server.client server.rset) index ∧
        (index : Int) ≤ server.maxi ∧
        ∀ entry sockfd, index ≤ entry.val → server.client entry = some sockfd →
          sockfd ∈ server.rset → (server.link sockfd).Readable) ∧
      (∀ index sockfd, server.client index = some sockfd →
        (server.link sockfd).received =
          (server.link sockfd).echoed ++ (server.link sockfd).incoming) ∧
      ∀ link ∈ server.closed, link.echoed = link.received := by
  obtain ⟨table, turn, echoes⟩ := keeps_of_reachable reached within
  refine ⟨⟨table.allset, table.distinct, fun index sockfd entry => ?_⟩, fun index place => ?_,
    echoes.link, echoes.closed⟩
  · have inSet : sockfd ∈ server.allset := (table.allset sockfd).mpr (Or.inr ⟨index, entry⟩)
    exact ⟨(table.range index sockfd entry).2, table.maxfd sockfd inSet,
      table.maxi index sockfd entry⟩
  · obtain ⟨ready, counts, positive⟩ := turn.scan index place
    obtain ⟨entry, later, isReported⟩ : ∃ entry : Fin setsize, index ≤ entry.val ∧
        reported server.client server.rset entry = true := by
      by_contra! unreported
      rw [counts] at positive
      refine positive.ne' (marksFrom_eq_zero_iff.mpr fun entry later => ?_)
      exact Bool.eq_false_of_not_eq_true (unreported entry later)
    obtain ⟨sockfd, -, entryIs⟩ := exists_of_reported isReported
    have bound := table.maxi entry sockfd entryIs
    exact ⟨counts, by omega, ready⟩

/-- A client connects, sends a byte, gets it back and closes the connection. -/
def oneClient : List Action :=
  [Action.select {listenfd}, .accept, .sends 4 [104], .select {4}, .scan 1, .closes 4, .select {4},
    .scan 0]

theorem tcpservselect_serves_oneClient :
    ((machine 8 16).after oneClient).closed.length = 1 ∧
      ∀ link ∈ ((machine 8 16).after oneClient).closed, link.echoed = link.received :=
  ⟨by decide,
    (tcpservselect_serves (Machine.reachable_after oneClient (by decide)) (by decide)).2.2.2⟩

/-! ### Descriptors beyond the set -/

/-- What is known about the two limits: the process can have a descriptor beyond the set, and the
array was not full before it had one. -/
structure Limited (nofile : Nat) (server : SelServer setsize) : Prop where
  beyond : server.beyond = true → setsize ≤ listenfd ∨ setsize < nofile
  full : server.place = .tooMany → server.beyond = true

theorem limited_start : (start setsize).Limited nofile :=
  ⟨fun beyond => Or.inl (of_decide_eq_true beyond), fun place => by cases place⟩

theorem Limited.elsewhere (limited : server.Limited nofile) (beyond : next.beyond = server.beyond)
    (place : next.place ≠ .tooMany) : next.Limited nofile :=
  ⟨fun strayed => limited.beyond (beyond ▸ strayed), fun full => absurd full place⟩

theorem nextPlace_ne_tooMany (before index : Nat) : nextPlace before (.scan index) ≠ .tooMany := by
  unfold nextPlace
  split <;> simp

theorem Limited.moves (table : server.beyond = false → server.Table)
    (limited : server.Limited nofile) (moves : Moves nofile server next) :
    next.Limited nofile := by
  cases moves with
  | select ready =>
    refine limited.elsewhere rfl ?_
    dsimp only
    split <;> simp
  | accept | close | echo => exact limited.elsewhere rfl (nextPlace_ne_tooMany _ _)
  | strays connfd new large next beyond before place =>
    refine ⟨fun _ => Or.inr (large.trans_lt (newDescriptor_spec new).1), fun full => ?_⟩
    rw [place] at full
    exact absurd full (nextPlace_ne_tooMany _ _)
  | tooMany full =>
    refine ⟨limited.beyond, fun _ => ?_⟩
    cases within : server.beyond with
    | true => rfl
    | false =>
      obtain ⟨index, free⟩ := (table within).exists_freeEntry
      rw [full] at free
      cases free
  | fail | skip | done => exact limited.elsewhere rfl (by simp)
  | sends | closes => exact ⟨limited.beyond, limited.full⟩

theorem limited_of_reachable (reached : (machine setsize nofile).Reachable server) :
    server.Limited nofile :=
  reached.induction (Limited nofile) limited_start fun _ _ _ currentReached limited taken =>
    limited.moves (fun within => (keeps_of_reachable currentReached within).1) (moves_of_step taken)

/-- The server holds the first so many descriptors, which are all in the set, and waits for more
clients. -/
structure Holds (nofile count : Nat) (server : SelServer setsize) : Prop where
  reached : (machine setsize nofile).Reachable server
  place : server.place = .select
  opened : server.opened = Finset.range count
  within : server.beyond = false

theorem Holds.newDescriptor {count : Nat} (holds : Holds nofile count server)
    (more : count < nofile) : server.newDescriptor nofile = some count := by
  rw [SelServer.newDescriptor, List.find?_range_eq_some, holds.opened]
  refine ⟨by simp, List.mem_range.mpr more, fun sockfd below => by simpa using below⟩

/-- The server is about to accept one more client. -/
theorem Holds.accepts {count : Nat} (holds : Holds nofile count server) :
    (machine setsize nofile).Reachable
      { server with place := .accept, rset := {listenfd}, nready := 1 } := by
  have table := (keeps_of_reachable holds.reached holds.within).1
  have listens : listenfd ∈ server.allset := (table.allset listenfd).mpr (Or.inl rfl)
  have taken : server.step nofile (.select {listenfd}) =
      some { server with place := .accept, rset := {listenfd}, nready := 1 } := by
    refine if_pos ⟨holds.place, Finset.singleton_nonempty _, fun sockfd member => ?_⟩
    obtain rfl := Finset.mem_singleton.mp member
    exact ⟨listens, table.maxfd _ listens, Or.inl rfl⟩
  exact Machine.Leads.step holds.reached (.select {listenfd}) taken

/-- One more client, whether the set has a place for it or not. -/
theorem Holds.advance {count : Nat} (holds : Holds nofile count server) (more : count < nofile) :
    ∃ after : SelServer setsize, (machine setsize nofile).Reachable after ∧
      after.place = .select ∧ after.opened = Finset.range (count + 1) ∧
      after.beyond = decide (setsize ≤ count) := by
  obtain ⟨index, free⟩ := (keeps_of_reachable holds.reached holds.within).1.exists_freeEntry
  have new : SelServer.newDescriptor nofile
      { server with place := .accept, rset := {listenfd}, nready := 1 } = some count :=
    holds.newDescriptor more
  have freeToo : freeEntry
      { server with place := .accept, rset := {listenfd}, nready := 1 } = some index := free
  refine ⟨_, Machine.Leads.step holds.accepts .accept rfl, ?_, ?_, ?_⟩
  · simp only [acceptStep, new, freeToo]
    rfl
  · simp only [acceptStep, new, freeToo]
    rw [holds.opened, ← Finset.range_add_one]
  · simp only [acceptStep, new, freeToo]
    rw [holds.within, Bool.false_or]

theorem exists_holds (limit : setsize < nofile) {count : Nat} (begun : listenfd < count)
    (fits : count ≤ setsize) : ∃ server : SelServer setsize, Holds nofile count server := by
  induction count, begun using Nat.le_induction with
  | base =>
    exact ⟨start setsize, Machine.Reachable.start, rfl, rfl, decide_eq_false (Nat.not_le.mpr fits)⟩
  | succ count begun inductionHypothesis =>
    obtain ⟨server, holds⟩ := inductionHypothesis (Nat.le_of_succ_le fits)
    obtain ⟨after, reached, place, opened, beyond⟩ := holds.advance (by omega)
    exact ⟨after, reached, place, opened, beyond.trans (decide_eq_false (Nat.not_le.mpr fits))⟩

/-- The test for too many clients does not fail before `FD_SET` was called with a descriptor beyond
the set. Such a call happens in some run exactly if the process may have more descriptors than the
set has places (or the listening socket has none). -/
theorem tcpservselect_overflows_iff (setsize nofile : Nat) :
    (∀ server : SelServer setsize, (machine setsize nofile).Reachable server →
        server.place = .tooMany → server.beyond = true) ∧
      ((∃ server, (machine setsize nofile).Reachable server ∧ server.beyond = true) ↔
        setsize ≤ listenfd ∨ setsize < nofile) := by
  refine ⟨fun server reached => (limited_of_reachable reached).full, ?_, fun limit => ?_⟩
  · rintro ⟨server, reached, beyond⟩
    exact (limited_of_reachable reached).beyond beyond
  · by_cases room : listenfd < setsize
    · have more : setsize < nofile := limit.resolve_left (Nat.not_le.mpr room)
      obtain ⟨server, holds⟩ := exists_holds more room le_rfl
      obtain ⟨after, reached, -, -, beyond⟩ := holds.advance more
      exact ⟨after, reached, beyond.trans (decide_eq_true le_rfl)⟩
    · exact ⟨start setsize, Machine.Reachable.start, decide_eq_true (Nat.not_lt.mp room)⟩

end SelServer

end SocketC
