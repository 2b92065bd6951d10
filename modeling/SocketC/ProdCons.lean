/-
This file models `unpv22e/pxsem/prodcons4.c`, several producers and several consumers on
one bounded buffer. Three semaphores rule it: `nempty` counts the empty slots, `nstored`
the stored items, and `mutex` guards the counters. A producer that finds all items stored
posts `nstored` once more, so that a consumer can pass and find all items fetched; it
gives its slot back and ends. A consumer that finds all items fetched hands its post of
`nstored` on and ends.

Every semaphore operation is an action, and so is the body of a critical section. The
values stored are the item numbers, and a consumer complains when it fetches another one.

What carries the proofs are three equations, one for each semaphore: its value and what
the threads hold of it add up. They give that a slot is filled only when it is empty and
read only when it is filled, that no state without a step is left but the one where all
threads have ended, and a measure bounds every run.
-/

import SocketC.Transition
import SocketC.Monitor

namespace SocketC

open Monitor

/-- `NBUFF`. -/
def nbuff : Nat := 10

/-! ### The threads -/

/-- Where a producer stands in `produce`. -/
inductive ProducerPlace where
  | needsSlot
  | needsMutex
  | inside
  | leaves
  | announces
  | counts
  | quitsStored
  | quitsEmpty
  | quitsMutex
  | done
  deriving DecidableEq

/-- A producer and its `prodcount`. -/
structure Producer where
  place : ProducerPlace
  count : Nat
  deriving DecidableEq

/-- Where a consumer stands in `consume`. -/
inductive ConsumerPlace where
  | needsItem
  | needsMutex
  | inside
  | leaves
  | frees
  | counts
  | quitsStored
  | quitsMutex
  | done
  deriving DecidableEq

/-- A consumer and its `conscount`. -/
structure Consumer where
  place : ConsumerPlace
  count : Nat
  deriving DecidableEq

/-- The shared structure and the threads. `consumed` are the values fetched, `errors` the values
complained about. -/
structure ProdCons (producers consumers : Nat) where
  buff : Nat → Nat
  nput : Nat
  nputval : Nat
  nget : Nat
  ngetval : Nat
  mutex : Nat
  nempty : Nat
  nstored : Nat
  producer : Fin producers → Producer
  consumer : Fin consumers → Consumer
  consumed : List Nat
  errors : List Nat

namespace ProdCons

variable {producers consumers : Nat}

def start (producers consumers : Nat) : ProdCons producers consumers where
  buff := fun _ => 0
  nput := 0
  nputval := 0
  nget := 0
  ngetval := 0
  mutex := 1
  nempty := nbuff
  nstored := 0
  producer := fun _ => ⟨.needsSlot, 0⟩
  consumer := fun _ => ⟨.needsItem, 0⟩
  consumed := []
  errors := []

/-! ### The steps -/

def goProducer (state : ProdCons producers consumers) (index : Fin producers)
    (place : ProducerPlace) : ProdCons producers consumers :=
  { state with producer :=
    Function.update state.producer index { state.producer index with place } }

def goConsumer (state : ProdCons producers consumers) (index : Fin consumers)
    (place : ConsumerPlace) : ProdCons producers consumers :=
  { state with consumer :=
    Function.update state.consumer index { state.consumer index with place } }

/-- The body of `produce` after both waits (lines 82-84). -/
def store (state : ProdCons producers consumers) : ProdCons producers consumers :=
  { state with
    buff := Function.update state.buff (state.nput % nbuff) state.nputval
    nput := state.nput + 1
    nputval := state.nputval + 1 }

/-- The body of `consume` after both waits (lines 109-113). -/
def fetch (state : ProdCons producers consumers) : ProdCons producers consumers :=
  { state with
    nget := state.nget + 1
    ngetval := state.ngetval + 1
    consumed := state.consumed ++ [state.buff (state.nget % nbuff)]
    errors := state.errors ++
      if state.buff (state.nget % nbuff) ≠ state.ngetval then [state.buff (state.nget % nbuff)]
      else [] }

/-- The next step of a producer. -/
def produce (nitems : Nat) (state : ProdCons producers consumers) (index : Fin producers) :
    Option (ProdCons producers consumers) :=
  match (state.producer index).place with
  | .needsSlot =>
    if 0 < state.nempty then
      some ({ state with nempty := state.nempty - 1 }.goProducer index .needsMutex)
    else none
  | .needsMutex =>
    if 0 < state.mutex then
      some ({ state with mutex := state.mutex - 1 }.goProducer index .inside)
    else none
  | .inside =>
    if state.nput ≥ nitems then some (state.goProducer index .quitsStored)
    else some (state.store.goProducer index .leaves)
  | .leaves => some ({ state with mutex := state.mutex + 1 }.goProducer index .announces)
  | .announces => some ({ state with nstored := state.nstored + 1 }.goProducer index .counts)
  | .counts =>
    some { state with
      producer := Function.update state.producer index
        ⟨.needsSlot, (state.producer index).count + 1⟩ }
  | .quitsStored => some ({ state with nstored := state.nstored + 1 }.goProducer index .quitsEmpty)
  | .quitsEmpty => some ({ state with nempty := state.nempty + 1 }.goProducer index .quitsMutex)
  | .quitsMutex => some ({ state with mutex := state.mutex + 1 }.goProducer index .done)
  | .done => none

/-- The next step of a consumer. -/
def consume (nitems : Nat) (state : ProdCons producers consumers) (index : Fin consumers) :
    Option (ProdCons producers consumers) :=
  match (state.consumer index).place with
  | .needsItem =>
    if 0 < state.nstored then
      some ({ state with nstored := state.nstored - 1 }.goConsumer index .needsMutex)
    else none
  | .needsMutex =>
    if 0 < state.mutex then
      some ({ state with mutex := state.mutex - 1 }.goConsumer index .inside)
    else none
  | .inside =>
    if state.nget ≥ nitems then some (state.goConsumer index .quitsStored)
    else some (state.fetch.goConsumer index .leaves)
  | .leaves => some ({ state with mutex := state.mutex + 1 }.goConsumer index .frees)
  | .frees => some ({ state with nempty := state.nempty + 1 }.goConsumer index .counts)
  | .counts =>
    some { state with
      consumer := Function.update state.consumer index
        ⟨.needsItem, (state.consumer index).count + 1⟩ }
  | .quitsStored => some ({ state with nstored := state.nstored + 1 }.goConsumer index .quitsMutex)
  | .quitsMutex => some ({ state with mutex := state.mutex + 1 }.goConsumer index .done)
  | .done => none

/-- The thread that runs next. -/
inductive Action (producers consumers : Nat) where
  | produce (index : Fin producers)
  | consume (index : Fin consumers)

def step (nitems : Nat) (state : ProdCons producers consumers) :
    Action producers consumers → Option (ProdCons producers consumers)
  | .produce index => state.produce nitems index
  | .consume index => state.consume nitems index

/-- The program with its three arguments. -/
def machine (nitems producers consumers : Nat) :
    Machine (ProdCons producers consumers) (Action producers consumers) where
  start := start producers consumers
  step := step nitems

end ProdCons

/-! ### What the threads hold of the semaphores -/

namespace Producer

/-- The producer is between its wait for `mutex` and its post of it. -/
def holdsMutex (producer : Producer) : Nat :=
  match producer.place with
  | .inside | .leaves | .quitsStored | .quitsEmpty | .quitsMutex => 1
  | .needsSlot | .needsMutex | .announces | .counts | .done => 0

/-- The producer has waited for `nempty` and neither filled the slot nor given it back. -/
def holdsSlot (producer : Producer) : Nat :=
  match producer.place with
  | .needsMutex | .inside | .quitsStored | .quitsEmpty => 1
  | .needsSlot | .leaves | .announces | .counts | .quitsMutex | .done => 0

/-- The producer has stored an item and not yet posted `nstored` for it. -/
def owesStored (producer : Producer) : Nat :=
  match producer.place with
  | .leaves | .announces => 1
  | .needsSlot | .needsMutex | .inside | .counts | .quitsStored | .quitsEmpty | .quitsMutex
  | .done => 0

/-- The producer has posted `nstored` on its way out. -/
def hasReleased (producer : Producer) : Nat :=
  match producer.place with
  | .quitsEmpty | .quitsMutex | .done => 1
  | .needsSlot | .needsMutex | .inside | .leaves | .announces | .counts | .quitsStored => 0

/-- The producer has found all items stored. -/
def quits (producer : Producer) : Nat :=
  match producer.place with
  | .quitsStored | .quitsEmpty | .quitsMutex | .done => 1
  | .needsSlot | .needsMutex | .inside | .leaves | .announces | .counts => 0

/-- The items the producer has stored, counted in `prodcount` or about to be. -/
def stored (producer : Producer) : Nat :=
  producer.count + match producer.place with
    | .leaves | .announces | .counts => 1
    | .needsSlot | .needsMutex | .inside | .quitsStored | .quitsEmpty | .quitsMutex | .done => 0

/-- The steps left to the producer if it stores nothing more. -/
def rank (producer : Producer) : Nat :=
  match producer.place with
  | .leaves => 9
  | .announces => 8
  | .counts => 7
  | .needsSlot => 6
  | .needsMutex => 5
  | .inside => 4
  | .quitsStored => 3
  | .quitsEmpty => 2
  | .quitsMutex => 1
  | .done => 0

end Producer

namespace Consumer

/-- The consumer is between its wait for `mutex` and its post of it. -/
def holdsMutex (consumer : Consumer) : Nat :=
  match consumer.place with
  | .inside | .leaves | .quitsStored | .quitsMutex => 1
  | .needsItem | .needsMutex | .frees | .counts | .done => 0

/-- The consumer has waited for `nstored` and neither fetched an item nor given the post back. -/
def holdsItem (consumer : Consumer) : Nat :=
  match consumer.place with
  | .needsMutex | .inside | .quitsStored => 1
  | .needsItem | .leaves | .frees | .counts | .quitsMutex | .done => 0

/-- The consumer has fetched an item and not yet posted `nempty` for it. -/
def owesEmpty (consumer : Consumer) : Nat :=
  match consumer.place with
  | .leaves | .frees => 1
  | .needsItem | .needsMutex | .inside | .counts | .quitsStored | .quitsMutex | .done => 0

/-- The consumer has found all items fetched. -/
def quits (consumer : Consumer) : Nat :=
  match consumer.place with
  | .quitsStored | .quitsMutex | .done => 1
  | .needsItem | .needsMutex | .inside | .leaves | .frees | .counts => 0

/-- The items the consumer has fetched, counted in `conscount` or about to be. -/
def fetched (consumer : Consumer) : Nat :=
  consumer.count + match consumer.place with
    | .leaves | .frees | .counts => 1
    | .needsItem | .needsMutex | .inside | .quitsStored | .quitsMutex | .done => 0

/-- The steps left to the consumer if it fetches nothing more. -/
def rank (consumer : Consumer) : Nat :=
  match consumer.place with
  | .leaves => 8
  | .frees => 7
  | .counts => 6
  | .needsItem => 5
  | .needsMutex => 4
  | .inside => 3
  | .quitsStored => 2
  | .quitsMutex => 1
  | .done => 0

end Consumer

namespace ProdCons

variable {producers consumers : Nat}

/-! ### The equations of the semaphores -/

/-- The value of each semaphore and what the threads hold of it add up, and the counters count the
items. -/
structure Balanced (nitems : Nat) (state : ProdCons producers consumers) : Prop where
  mutex : state.mutex + load Producer.holdsMutex state.producer +
    load Consumer.holdsMutex state.consumer = 1
  empty : state.nempty + load Producer.holdsSlot state.producer + state.nput +
    load Consumer.owesEmpty state.consumer = nbuff + state.nget
  stored : state.nstored + load Consumer.holdsItem state.consumer +
    load Producer.owesStored state.producer + state.nget =
      state.nput + load Producer.hasReleased state.producer
  puts : load Producer.stored state.producer = state.nput
  gets : load Consumer.fetched state.consumer = state.nget
  allStored : 0 < load Producer.quits state.producer → nitems ≤ state.nput
  allFetched : 0 < load Consumer.quits state.consumer → nitems ≤ state.nget
  nput_le : state.nput ≤ nitems
  nget_le : state.nget ≤ state.nput

theorem balanced_start (nitems : Nat) : (start producers consumers).Balanced nitems := by
  have none_held : ∀ weight : Producer → Nat, weight ⟨.needsSlot, 0⟩ = 0 →
      load weight (start producers consumers).producer = 0 := fun weight => load_const_zero weight _
  have none_taken : ∀ weight : Consumer → Nat, weight ⟨.needsItem, 0⟩ = 0 →
      load weight (start producers consumers).consumer = 0 := fun weight => load_const_zero weight _
  constructor
  · rw [none_held _ rfl, none_taken _ rfl]; rfl
  · rw [none_held _ rfl, none_taken _ rfl]; rfl
  · rw [none_held _ rfl, none_held _ rfl, none_taken _ rfl]; rfl
  · exact none_held _ rfl
  · exact none_taken _ rfl
  · rw [none_held _ rfl]; exact fun absurdity => absurd absurdity (lt_irrefl 0)
  · rw [none_taken _ rfl]; exact fun absurdity => absurd absurdity (lt_irrefl 0)
  · exact Nat.zero_le _
  · exact le_refl _

/-- A producer moves: its own share of every equation has to change as the shared values do. -/
theorem Balanced.moveProducer {nitems : Nat} {state next : ProdCons producers consumers}
    (balanced : state.Balanced nitems) (index : Fin producers) {producer : Producer}
    (moved : next.producer = Function.update state.producer index producer)
    (others : next.consumer = state.consumer) (nget : next.nget = state.nget)
    (mutex : next.mutex + producer.holdsMutex = state.mutex + (state.producer index).holdsMutex)
    (empty : next.nempty + producer.holdsSlot + next.nput =
      state.nempty + (state.producer index).holdsSlot + state.nput)
    (stored : next.nstored + producer.owesStored + state.nput + (state.producer index).hasReleased =
      state.nstored + (state.producer index).owesStored + next.nput + producer.hasReleased)
    (puts : producer.stored + state.nput = (state.producer index).stored + next.nput)
    (quits : producer.quits ≤ (state.producer index).quits ∨ nitems ≤ next.nput)
    (grows : state.nput ≤ next.nput) (bounded : next.nput ≤ nitems) : next.Balanced nitems := by
  have mutexMoved := load_update Producer.holdsMutex state.producer index producer
  have slotMoved := load_update Producer.holdsSlot state.producer index producer
  have owesMoved := load_update Producer.owesStored state.producer index producer
  have releasedMoved := load_update Producer.hasReleased state.producer index producer
  have storedMoved := load_update Producer.stored state.producer index producer
  have quitsMoved := load_update Producer.quits state.producer index producer
  rw [← moved] at mutexMoved slotMoved owesMoved releasedMoved storedMoved quitsMoved
  obtain ⟨mutexBefore, emptyBefore, storedBefore, putsBefore, getsBefore, allStored, allFetched,
    nput_le, nget_le⟩ := balanced
  refine ⟨?_, ?_, ?_, ?_, ?_, ?_, ?_, bounded, by omega⟩
  · rw [others]; omega
  · rw [others]; omega
  · rw [others]; omega
  · omega
  · rw [others]; omega
  · omega
  · rw [others]; omega

/-- The same for a consumer. -/
theorem Balanced.moveConsumer {nitems : Nat} {state next : ProdCons producers consumers}
    (balanced : state.Balanced nitems) (index : Fin consumers) {consumer : Consumer}
    (moved : next.consumer = Function.update state.consumer index consumer)
    (others : next.producer = state.producer) (nput : next.nput = state.nput)
    (mutex : next.mutex + consumer.holdsMutex = state.mutex + (state.consumer index).holdsMutex)
    (empty : next.nempty + consumer.owesEmpty + state.nget =
      state.nempty + (state.consumer index).owesEmpty + next.nget)
    (stored : next.nstored + consumer.holdsItem + next.nget =
      state.nstored + (state.consumer index).holdsItem + state.nget)
    (gets : consumer.fetched + state.nget = (state.consumer index).fetched + next.nget)
    (quits : consumer.quits ≤ (state.consumer index).quits ∨ nitems ≤ next.nget)
    (grows : state.nget ≤ next.nget) (bounded : next.nget ≤ state.nput) : next.Balanced nitems := by
  have mutexMoved := load_update Consumer.holdsMutex state.consumer index consumer
  have owesMoved := load_update Consumer.owesEmpty state.consumer index consumer
  have itemMoved := load_update Consumer.holdsItem state.consumer index consumer
  have fetchedMoved := load_update Consumer.fetched state.consumer index consumer
  have quitsMoved := load_update Consumer.quits state.consumer index consumer
  rw [← moved] at mutexMoved owesMoved itemMoved fetchedMoved quitsMoved
  obtain ⟨mutexBefore, emptyBefore, storedBefore, putsBefore, getsBefore, allStored, allFetched,
    nput_le, nget_le⟩ := balanced
  refine ⟨?_, ?_, ?_, ?_, ?_, ?_, ?_, by omega, by omega⟩
  · rw [others]; omega
  · rw [others]; omega
  · rw [others]; omega
  · rw [others]; omega
  · omega
  · rw [others]; omega
  · omega

/-- A consumer in its critical section with items left finds one stored: it holds a post of
`nstored` for an item, or a producer has quit and all items are stored. -/
theorem Balanced.nget_lt_nput {nitems : Nat} {state : ProdCons producers consumers}
    (balanced : state.Balanced nitems) {index : Fin consumers}
    (inside : (state.consumer index).place = .inside) (left : state.nget < nitems) :
    state.nget < state.nput := by
  have own := weight_le_load Consumer.holdsItem state.consumer index
  simp only [Consumer.holdsItem, inside] at own
  have stored := balanced.stored
  rcases Nat.eq_zero_or_pos (load Producer.hasReleased state.producer) with none_quit | some_quit
  · omega
  · obtain ⟨producer, released⟩ := exists_weight_of_load_pos some_quit
    have share := weight_le_load Producer.quits state.producer producer
    have positive : 0 < (state.producer producer).quits := by
      cases place : (state.producer producer).place <;>
        simp only [Producer.hasReleased, Producer.quits, place] at released ⊢ <;> omega
    have := balanced.allStored (by omega)
    omega

/-- A producer in its critical section finds an empty slot. -/
theorem Balanced.nput_lt {nitems : Nat} {state : ProdCons producers consumers}
    (balanced : state.Balanced nitems) {index : Fin producers}
    (inside : (state.producer index).place = .inside) : state.nput < state.nget + nbuff := by
  have own := weight_le_load Producer.holdsSlot state.producer index
  simp only [Producer.holdsSlot, inside] at own
  have empty := balanced.empty
  omega

theorem Balanced.produce {nitems : Nat} {state next : ProdCons producers consumers}
    (balanced : state.Balanced nitems) {index : Fin producers}
    (taken : state.produce nitems index = some next) : next.Balanced nitems := by
  have nput_le := balanced.nput_le
  unfold ProdCons.produce at taken
  split at taken
  case h_1 place | h_2 place =>
    -- A wait that succeeds.
    obtain ⟨positive, taken⟩ := Option.ite_none_right_eq_some.mp taken
    obtain rfl := Option.some.inj taken
    refine balanced.moveProducer index rfl rfl rfl ?_ ?_ ?_ ?_ ?_ (le_refl _) nput_le
    all_goals
      simp only [goProducer, Producer.holdsMutex, Producer.holdsSlot, Producer.owesStored,
        Producer.hasReleased, Producer.stored, Producer.quits, place] <;> omega
  case h_3 place =>
    split at taken
    · obtain rfl := Option.some.inj taken
      refine balanced.moveProducer index rfl rfl rfl ?_ ?_ ?_ ?_ ?_ (le_refl _) nput_le
      all_goals
        simp only [goProducer, Producer.holdsMutex, Producer.holdsSlot, Producer.owesStored,
          Producer.hasReleased, Producer.stored, Producer.quits, place] <;> omega
    · obtain rfl := Option.some.inj taken
      refine balanced.moveProducer index rfl rfl rfl ?_ ?_ ?_ ?_ ?_ (Nat.le_succ _) ?_
      all_goals
        simp only [goProducer, store, Producer.holdsMutex, Producer.holdsSlot, Producer.owesStored,
          Producer.hasReleased, Producer.stored, Producer.quits, place] <;> omega
  case h_4 place | h_5 place | h_6 place | h_7 place | h_8 place | h_9 place =>
    -- A post, or the increment of `prodcount`.
    obtain rfl := Option.some.inj taken
    refine balanced.moveProducer index rfl rfl rfl ?_ ?_ ?_ ?_ ?_ (le_refl _) nput_le
    all_goals
      simp only [goProducer, Producer.holdsMutex, Producer.holdsSlot, Producer.owesStored,
        Producer.hasReleased, Producer.stored, Producer.quits, place] <;> omega
  case h_10 place => cases taken

theorem Balanced.consume {nitems : Nat} {state next : ProdCons producers consumers}
    (balanced : state.Balanced nitems) {index : Fin consumers}
    (taken : state.consume nitems index = some next) : next.Balanced nitems := by
  have nget_le := balanced.nget_le
  unfold ProdCons.consume at taken
  split at taken
  case h_1 place | h_2 place =>
    obtain ⟨positive, taken⟩ := Option.ite_none_right_eq_some.mp taken
    obtain rfl := Option.some.inj taken
    refine balanced.moveConsumer index rfl rfl rfl ?_ ?_ ?_ ?_ ?_ (le_refl _) nget_le
    all_goals
      simp only [goConsumer, Consumer.holdsMutex, Consumer.holdsItem, Consumer.owesEmpty,
        Consumer.fetched, Consumer.quits, place] <;> omega
  case h_3 place =>
    split at taken
    · obtain rfl := Option.some.inj taken
      refine balanced.moveConsumer index rfl rfl rfl ?_ ?_ ?_ ?_ ?_ (le_refl _) nget_le
      all_goals
        simp only [goConsumer, Consumer.holdsMutex, Consumer.holdsItem, Consumer.owesEmpty,
          Consumer.fetched, Consumer.quits, place] <;> omega
    · rename_i left
      have there := balanced.nget_lt_nput place (Nat.not_le.mp left)
      obtain rfl := Option.some.inj taken
      refine balanced.moveConsumer index rfl rfl rfl ?_ ?_ ?_ ?_ ?_ (Nat.le_succ _) there
      all_goals
        simp only [goConsumer, fetch, Consumer.holdsMutex, Consumer.holdsItem, Consumer.owesEmpty,
          Consumer.fetched, Consumer.quits, place] <;> omega
  case h_4 place | h_5 place | h_6 place | h_7 place | h_8 place =>
    obtain rfl := Option.some.inj taken
    refine balanced.moveConsumer index rfl rfl rfl ?_ ?_ ?_ ?_ ?_ (le_refl _) nget_le
    all_goals
      simp only [goConsumer, Consumer.holdsMutex, Consumer.holdsItem, Consumer.owesEmpty,
        Consumer.fetched, Consumer.quits, place] <;> omega
  case h_9 place => cases taken

theorem balanced_of_reachable {nitems : Nat} {state : ProdCons producers consumers}
    (reached : (machine nitems producers consumers).Reachable state) : state.Balanced nitems := by
  refine reached.invariant (Balanced nitems) (balanced_start nitems)
    fun current action next balanced taken => ?_
  cases action with
  | produce index => exact balanced.produce taken
  | consume index => exact balanced.consume taken

/-! ### The buffer -/

/-- The items that are stored and not fetched are in their slots, and what has been fetched are
the items in order. -/
structure Filled (state : ProdCons producers consumers) : Prop where
  nputval : state.nputval = state.nput
  ngetval : state.ngetval = state.nget
  live : ∀ item, state.nget ≤ item → item < state.nput → state.buff (item % nbuff) = item
  consumed : state.consumed = List.range state.nget
  errors : state.errors = []

theorem filled_start : (start producers consumers).Filled :=
  ⟨rfl, rfl, fun _ _ stored => absurd stored (Nat.not_lt_zero _), rfl, rfl⟩

/-- The slot of the next item is not the slot of an item that is still to be fetched. -/
theorem Filled.store {state : ProdCons producers consumers} (filled : state.Filled)
    (room : state.nput < state.nget + nbuff) : state.store.Filled := by
  refine ⟨congrArg Nat.succ filled.nputval, filled.ngetval, fun item fetched stored => ?_,
    filled.consumed, filled.errors⟩
  have fetched : state.nget ≤ item := fetched
  have stored : item < state.nput + 1 := stored
  show Function.update state.buff (state.nput % nbuff) state.nputval (item % nbuff) = item
  rcases Nat.lt_succ_iff_lt_or_eq.mp stored with earlier | rfl
  · have otherSlot : item % nbuff ≠ state.nput % nbuff := by
      unfold nbuff at room ⊢
      omega
    rw [Function.update_of_ne otherSlot]
    exact filled.live item fetched earlier
  · rw [Function.update_self]
    exact filled.nputval

/-- The item that is fetched is the next one, and there is nothing to complain about. -/
theorem Filled.fetch {state : ProdCons producers consumers} (filled : state.Filled)
    (there : state.nget < state.nput) : state.fetch.Filled := by
  have item : state.buff (state.nget % nbuff) = state.nget :=
    filled.live state.nget (le_refl _) there
  refine ⟨filled.nputval, congrArg Nat.succ filled.ngetval,
    fun later fetched => filled.live later (Nat.le_of_succ_le fetched), ?_, ?_⟩
  · show state.consumed ++ [state.buff (state.nget % nbuff)] = List.range (state.nget + 1)
    rw [item, filled.consumed, List.range_succ]
  · show state.errors ++ (if state.buff (state.nget % nbuff) ≠ state.ngetval then
      [state.buff (state.nget % nbuff)] else []) = []
    rw [item, filled.ngetval, filled.errors, if_neg (not_not.mpr rfl), List.append_nil]

theorem Filled.produce {nitems : Nat} {state next : ProdCons producers consumers}
    (balanced : state.Balanced nitems) (filled : state.Filled) {index : Fin producers}
    (taken : state.produce nitems index = some next) : next.Filled := by
  have other : ∀ {changed : ProdCons producers consumers},
      changed = { state with
        mutex := changed.mutex, nempty := changed.nempty, nstored := changed.nstored,
        producer := changed.producer } → changed.Filled := by
    intro changed same
    rw [same]
    exact ⟨filled.nputval, filled.ngetval, filled.live, filled.consumed, filled.errors⟩
  unfold ProdCons.produce at taken
  split at taken
  case h_1 place | h_2 place =>
    obtain ⟨-, taken⟩ := Option.ite_none_right_eq_some.mp taken
    exact other (Option.some.inj taken ▸ rfl)
  case h_3 place =>
    split at taken
    · exact other (Option.some.inj taken ▸ rfl)
    · obtain rfl := Option.some.inj taken
      have stored := filled.store (balanced.nput_lt place)
      exact ⟨stored.nputval, stored.ngetval, stored.live, stored.consumed, stored.errors⟩
  case h_4 place | h_5 place | h_6 place | h_7 place | h_8 place | h_9 place =>
    exact other (Option.some.inj taken ▸ rfl)
  case h_10 place => cases taken

theorem Filled.consume {nitems : Nat} {state next : ProdCons producers consumers}
    (balanced : state.Balanced nitems) (filled : state.Filled) {index : Fin consumers}
    (taken : state.consume nitems index = some next) : next.Filled := by
  have other : ∀ {changed : ProdCons producers consumers},
      changed = { state with
        mutex := changed.mutex, nempty := changed.nempty, nstored := changed.nstored,
        consumer := changed.consumer } → changed.Filled := by
    intro changed same
    rw [same]
    exact ⟨filled.nputval, filled.ngetval, filled.live, filled.consumed, filled.errors⟩
  unfold ProdCons.consume at taken
  split at taken
  case h_1 place | h_2 place =>
    obtain ⟨-, taken⟩ := Option.ite_none_right_eq_some.mp taken
    exact other (Option.some.inj taken ▸ rfl)
  case h_3 place =>
    split at taken
    · exact other (Option.some.inj taken ▸ rfl)
    · rename_i left
      obtain rfl := Option.some.inj taken
      have fetched := filled.fetch (balanced.nget_lt_nput place (Nat.not_le.mp left))
      exact ⟨fetched.nputval, fetched.ngetval, fetched.live, fetched.consumed, fetched.errors⟩
  case h_4 place | h_5 place | h_6 place | h_7 place | h_8 place =>
    exact other (Option.some.inj taken ▸ rfl)
  case h_9 place => cases taken

theorem filled_of_reachable {nitems : Nat} {state : ProdCons producers consumers}
    (reached : (machine nitems producers consumers).Reachable state) : state.Filled := by
  refine reached.induction Filled filled_start fun current action next currentReached filled
    taken => ?_
  have balanced := balanced_of_reachable currentReached
  cases action with
  | produce index => exact filled.produce balanced taken
  | consume index => exact filled.consume balanced taken

/-- With any number of producers and consumers, in any order of their steps: the items fetched are
all different and in order, nothing is fetched before it is stored, nothing is overwritten before
it is fetched, no more is stored than was asked for, no consumer complains, and at most one thread
is between its wait for `mutex` and its post, so that the body there is one action to the others. -/
theorem prodcons_fetches_in_order {nitems : Nat} {state : ProdCons producers consumers}
    (reached : (machine nitems producers consumers).Reachable state) :
    state.consumed = List.range state.nget ∧ state.errors = [] ∧ state.nget ≤ state.nput ∧
      state.nput ≤ state.nget + nbuff ∧ state.nput ≤ nitems ∧
      load Producer.holdsMutex state.producer + load Consumer.holdsMutex state.consumer ≤ 1 := by
  have balanced := balanced_of_reachable reached
  have filled := filled_of_reachable reached
  have empty := balanced.empty
  have mutex := balanced.mutex
  exact ⟨filled.consumed, filled.errors, balanced.nget_le, by omega, balanced.nput_le, by omega⟩

/-- Two producers and three consumers; the last producer stores an item and the last consumer
fetches it. -/
def oneItem : List (Action 2 3) :=
  List.replicate 5 (.produce (Fin.last 1)) ++ List.replicate 3 (.consume (Fin.last 2))

theorem prodcons_fetches_in_order_oneItem :
    ((machine 4 2 3).after oneItem).nget = 1 ∧ ((machine 4 2 3).after oneItem).errors = [] :=
  ⟨by decide, (prodcons_fetches_in_order (Machine.reachable_after oneItem (by decide))).2.1⟩

/-! ### Every run ends -/

/-- What is left to do: every item still to be stored and fetched costs its thread a round. -/
def remaining (nitems : Nat) (state : ProdCons producers consumers) : Nat :=
  6 * (nitems - state.nput) + 6 * (nitems - state.nget) + load Producer.rank state.producer +
    load Consumer.rank state.consumer

theorem remaining_start (nitems : Nat) :
    (start producers consumers).remaining nitems = 12 * nitems + 6 * producers + 5 * consumers := by
  have producerRank : load Producer.rank (start producers consumers).producer = 6 * producers := by
    simp [load, start, Producer.rank, Nat.mul_comm]
  have consumerRank : load Consumer.rank (start producers consumers).consumer = 5 * consumers := by
    simp [load, start, Consumer.rank, Nat.mul_comm]
  rw [remaining, producerRank, consumerRank]
  simp only [start]
  omega

theorem remaining_moveProducer {nitems : Nat} {state next : ProdCons producers consumers}
    (index : Fin producers) {producer : Producer}
    (moved : next.producer = Function.update state.producer index producer)
    (others : next.consumer = state.consumer) (nget : next.nget = state.nget)
    (lower : producer.rank + 6 * (nitems - next.nput) <
      (state.producer index).rank + 6 * (nitems - state.nput)) :
    next.remaining nitems < state.remaining nitems := by
  have rankMoved := load_update Producer.rank state.producer index producer
  rw [remaining, remaining, moved, others, nget]
  omega

theorem remaining_moveConsumer {nitems : Nat} {state next : ProdCons producers consumers}
    (index : Fin consumers) {consumer : Consumer}
    (moved : next.consumer = Function.update state.consumer index consumer)
    (others : next.producer = state.producer) (nput : next.nput = state.nput)
    (lower : consumer.rank + 6 * (nitems - next.nget) <
      (state.consumer index).rank + 6 * (nitems - state.nget)) :
    next.remaining nitems < state.remaining nitems := by
  have rankMoved := load_update Consumer.rank state.consumer index consumer
  rw [remaining, remaining, moved, others, nput]
  omega

theorem remaining_produce {nitems : Nat} {state next : ProdCons producers consumers}
    {index : Fin producers} (taken : state.produce nitems index = some next) :
    next.remaining nitems < state.remaining nitems := by
  unfold produce at taken
  split at taken
  case h_1 place | h_2 place =>
    obtain ⟨-, taken⟩ := Option.ite_none_right_eq_some.mp taken
    obtain rfl := Option.some.inj taken
    refine remaining_moveProducer index rfl rfl rfl ?_
    simp only [goProducer, Producer.rank, place]
    omega
  case h_3 place =>
    split at taken
    · obtain rfl := Option.some.inj taken
      refine remaining_moveProducer index rfl rfl rfl ?_
      simp only [goProducer, Producer.rank, place]
      omega
    · obtain rfl := Option.some.inj taken
      refine remaining_moveProducer index rfl rfl rfl ?_
      simp only [goProducer, store, Producer.rank, place]
      omega
  case h_4 place | h_5 place | h_6 place | h_7 place | h_8 place | h_9 place =>
    obtain rfl := Option.some.inj taken
    refine remaining_moveProducer index rfl rfl rfl ?_
    simp only [goProducer, Producer.rank, place]
    omega
  case h_10 place => cases taken

theorem remaining_consume {nitems : Nat} {state next : ProdCons producers consumers}
    {index : Fin consumers} (taken : state.consume nitems index = some next) :
    next.remaining nitems < state.remaining nitems := by
  unfold consume at taken
  split at taken
  case h_1 place | h_2 place =>
    obtain ⟨-, taken⟩ := Option.ite_none_right_eq_some.mp taken
    obtain rfl := Option.some.inj taken
    refine remaining_moveConsumer index rfl rfl rfl ?_
    simp only [goConsumer, Consumer.rank, place]
    omega
  case h_3 place =>
    split at taken
    · obtain rfl := Option.some.inj taken
      refine remaining_moveConsumer index rfl rfl rfl ?_
      simp only [goConsumer, Consumer.rank, place]
      omega
    · obtain rfl := Option.some.inj taken
      refine remaining_moveConsumer index rfl rfl rfl ?_
      simp only [goConsumer, fetch, Consumer.rank, place]
      omega
  case h_4 place | h_5 place | h_6 place | h_7 place | h_8 place =>
    obtain rfl := Option.some.inj taken
    refine remaining_moveConsumer index rfl rfl rfl ?_
    simp only [goConsumer, Consumer.rank, place]
    omega
  case h_9 place => cases taken

/-! ### No deadlock -/

/-- No thread has a step. -/
def Stuck (nitems : Nat) (state : ProdCons producers consumers) : Prop :=
  ∀ action, state.step nitems action = none

section Stuck

variable {nitems : Nat} {state : ProdCons producers consumers}

/-- Where a producer is that has no step. -/
theorem Stuck.producer (stuck : state.Stuck nitems) (index : Fin producers) :
    (state.producer index).place = .done ∨
      (state.producer index).place = .needsSlot ∧ state.nempty = 0 ∨
      (state.producer index).place = .needsMutex ∧ state.mutex = 0 := by
  have none_taken : state.produce nitems index = none := stuck (.produce index)
  unfold produce at none_taken
  split at none_taken
  case h_1 place =>
    refine Or.inr (Or.inl ⟨place, ?_⟩)
    by_contra positive
    rw [if_pos (Nat.pos_of_ne_zero positive)] at none_taken
    cases none_taken
  case h_2 place =>
    refine Or.inr (Or.inr ⟨place, ?_⟩)
    by_contra positive
    rw [if_pos (Nat.pos_of_ne_zero positive)] at none_taken
    cases none_taken
  case h_3 place => split at none_taken <;> cases none_taken
  case h_10 place => exact Or.inl place
  all_goals cases none_taken

/-- Where a consumer is that has no step. -/
theorem Stuck.consumer (stuck : state.Stuck nitems) (index : Fin consumers) :
    (state.consumer index).place = .done ∨
      (state.consumer index).place = .needsItem ∧ state.nstored = 0 ∨
      (state.consumer index).place = .needsMutex ∧ state.mutex = 0 := by
  have none_taken : state.consume nitems index = none := stuck (.consume index)
  unfold consume at none_taken
  split at none_taken
  case h_1 place =>
    refine Or.inr (Or.inl ⟨place, ?_⟩)
    by_contra positive
    rw [if_pos (Nat.pos_of_ne_zero positive)] at none_taken
    cases none_taken
  case h_2 place =>
    refine Or.inr (Or.inr ⟨place, ?_⟩)
    by_contra positive
    rw [if_pos (Nat.pos_of_ne_zero positive)] at none_taken
    cases none_taken
  case h_3 place => split at none_taken <;> cases none_taken
  case h_9 place => exact Or.inl place
  all_goals cases none_taken

/-- A thread with no step does not hold `mutex`, so that `mutex` is free. -/
theorem Stuck.mutex (stuck : state.Stuck nitems) (balanced : state.Balanced nitems) :
    state.mutex = 1 := by
  have producersOut : load Producer.holdsMutex state.producer = 0 := by
    refine (load_eq_zero_iff _ _).mpr fun index => ?_
    rcases stuck.producer index with place | ⟨place, -⟩ | ⟨place, -⟩ <;>
      simp only [Producer.holdsMutex, place]
  have consumersOut : load Consumer.holdsMutex state.consumer = 0 := by
    refine (load_eq_zero_iff _ _).mpr fun index => ?_
    rcases stuck.consumer index with place | ⟨place, -⟩ | ⟨place, -⟩ <;>
      simp only [Consumer.holdsMutex, place]
  have mutex := balanced.mutex
  omega

theorem Stuck.producer_place (stuck : state.Stuck nitems) (balanced : state.Balanced nitems)
    (index : Fin producers) : (state.producer index).place = .done ∨
      (state.producer index).place = .needsSlot ∧ state.nempty = 0 := by
  rcases stuck.producer index with place | slot | ⟨-, taken⟩
  · exact Or.inl place
  · exact Or.inr slot
  · rw [stuck.mutex balanced] at taken
    cases taken

theorem Stuck.consumer_place (stuck : state.Stuck nitems) (balanced : state.Balanced nitems)
    (index : Fin consumers) : (state.consumer index).place = .done ∨
      (state.consumer index).place = .needsItem ∧ state.nstored = 0 := by
  rcases stuck.consumer index with place | item | ⟨-, taken⟩
  · exact Or.inl place
  · exact Or.inr item
  · rw [stuck.mutex balanced] at taken
    cases taken

/-- What is left of the equations of `nempty` and `nstored`. -/
theorem Stuck.equations (stuck : state.Stuck nitems) (balanced : state.Balanced nitems) :
    state.nempty + state.nput = nbuff + state.nget ∧
      state.nstored + state.nget = state.nput + load Producer.hasReleased state.producer := by
  have noSlot : load Producer.holdsSlot state.producer = 0 := by
    refine (load_eq_zero_iff _ _).mpr fun index => ?_
    rcases stuck.producer_place balanced index with place | ⟨place, -⟩ <;>
      simp only [Producer.holdsSlot, place]
  have noStored : load Producer.owesStored state.producer = 0 := by
    refine (load_eq_zero_iff _ _).mpr fun index => ?_
    rcases stuck.producer_place balanced index with place | ⟨place, -⟩ <;>
      simp only [Producer.owesStored, place]
  have noItem : load Consumer.holdsItem state.consumer = 0 := by
    refine (load_eq_zero_iff _ _).mpr fun index => ?_
    rcases stuck.consumer_place balanced index with place | ⟨place, -⟩ <;>
      simp only [Consumer.holdsItem, place]
  have noEmpty : load Consumer.owesEmpty state.consumer = 0 := by
    refine (load_eq_zero_iff _ _).mpr fun index => ?_
    rcases stuck.consumer_place balanced index with place | ⟨place, -⟩ <;>
      simp only [Consumer.owesEmpty, place]
  have empty := balanced.empty
  have stored := balanced.stored
  omega

/-- A producer that waits for a slot would face a full buffer, so the consumers would not wait;
they would all have ended, and then there is nothing in the buffer. -/
theorem Stuck.producers_done (stuck : state.Stuck nitems) (balanced : state.Balanced nitems)
    (someConsumer : 0 < consumers) (index : Fin producers) :
    (state.producer index).place = .done := by
  refine (stuck.producer_place balanced index).resolve_right ?_
  rintro ⟨-, none_empty⟩
  obtain ⟨empty, stored⟩ := stuck.equations balanced
  rcases stuck.consumer_place balanced ⟨0, someConsumer⟩ with place | ⟨-, none_stored⟩
  · have share := weight_le_load Consumer.quits state.consumer ⟨0, someConsumer⟩
    simp only [Consumer.quits, place] at share
    have allFetched := balanced.allFetched share
    have nput_le := balanced.nput_le
    unfold nbuff at empty
    omega
  · unfold nbuff at empty
    omega

/-- A producer that has ended has left a post of `nstored` behind, so no consumer waits. -/
theorem Stuck.consumers_done (stuck : state.Stuck nitems) (balanced : state.Balanced nitems)
    (someProducer : 0 < producers) (someConsumer : 0 < consumers) (index : Fin consumers) :
    (state.consumer index).place = .done := by
  refine (stuck.consumer_place balanced index).resolve_right ?_
  rintro ⟨-, none_stored⟩
  obtain ⟨empty, stored⟩ := stuck.equations balanced
  have share := weight_le_load Producer.hasReleased state.producer ⟨0, someProducer⟩
  simp only [Producer.hasReleased, stuck.producers_done balanced someConsumer] at share
  have nget_le := balanced.nget_le
  omega

end Stuck

/-- With at least one producer and one consumer every run ends, however the threads are scheduled:
its length is bounded, and where no thread has a step all threads have returned, the producers'
counts and the consumers' counts both add up to the number of items, and each item was fetched
once. -/
theorem prodcons_completes {nitems : Nat} (someProducer : 0 < producers)
    (someConsumer : 0 < consumers) {actions : List (Action producers consumers)}
    {state : ProdCons producers consumers}
    (ran : (machine nitems producers consumers).run (start producers consumers) actions =
      some state) :
    actions.length ≤ 12 * nitems + 6 * producers + 5 * consumers ∧
      (state.Stuck nitems →
        (∀ index, (state.producer index).place = .done) ∧
        (∀ index, (state.consumer index).place = .done) ∧
        ∑ index, (state.producer index).count = nitems ∧
        ∑ index, (state.consumer index).count = nitems ∧
        state.consumed = List.range nitems) := by
  constructor
  · have bound : actions.length + state.remaining nitems ≤
        (start producers consumers).remaining nitems := by
      refine Machine.length_le_of_decreases (remaining nitems) ?_ ran
      intro current action next taken
      cases action with
      | produce index => exact remaining_produce taken
      | consume index => exact remaining_consume taken
    rw [remaining_start] at bound
    omega
  · intro stuck
    have reached : (machine nitems producers consumers).Reachable state := ⟨actions, ran⟩
    have balanced := balanced_of_reachable reached
    have producersDone := stuck.producers_done balanced someConsumer
    have consumersDone := stuck.consumers_done balanced someProducer someConsumer
    have producerCounts : load Producer.stored state.producer =
        ∑ index, (state.producer index).count :=
      Finset.sum_congr rfl fun index _ => by simp [Producer.stored, producersDone index]
    have consumerCounts : load Consumer.fetched state.consumer =
        ∑ index, (state.consumer index).count :=
      Finset.sum_congr rfl fun index _ => by simp [Consumer.fetched, consumersDone index]
    have producerQuits := weight_le_load Producer.quits state.producer ⟨0, someProducer⟩
    have consumerQuits := weight_le_load Consumer.quits state.consumer ⟨0, someConsumer⟩
    simp only [Producer.quits, producersDone] at producerQuits
    simp only [Consumer.quits, consumersDone] at consumerQuits
    have allStored := balanced.allStored producerQuits
    have allFetched := balanced.allFetched consumerQuits
    have nput_le := balanced.nput_le
    have nget_le := balanced.nget_le
    have nget_eq : state.nget = nitems := by omega
    refine ⟨producersDone, consumersDone, ?_, ?_, ?_⟩
    · rw [← producerCounts, balanced.puts]
      omega
    · rw [← consumerCounts, balanced.gets, nget_eq]
    · rw [(filled_of_reachable reached).consumed, nget_eq]

/-- One producer stores one item and returns, and then one consumer fetches it and returns. -/
def oneByOne : List (Action 1 1) :=
  List.replicate 12 (.produce (Fin.last 0)) ++ List.replicate 11 (.consume (Fin.last 0))

theorem stuck_oneByOne : ((machine 1 1 1).after oneByOne).Stuck 1 := by
  intro action
  cases action with
  | produce index =>
    obtain rfl : index = 0 := Subsingleton.elim index 0
    decide
  | consume index =>
    obtain rfl : index = 0 := Subsingleton.elim index 0
    decide

theorem prodcons_completes_oneByOne :
    oneByOne.length = 23 ∧ ((machine 1 1 1).after oneByOne).consumed = [0] := by
  have ran : (machine 1 1 1).run (start 1 1) oneByOne = some ((machine 1 1 1).after oneByOne) :=
    Machine.run_eq_some_after oneByOne (by decide)
  exact ⟨rfl, ((prodcons_completes Nat.one_pos Nat.one_pos ran).2 stuck_oneByOne).2.2.2.2⟩

end ProdCons

end SocketC
