/-
This file is about the end of the vehicle command client. The main thread leaves its
loop when `g_running` is zero, calls `deinit_context` and returns; the watcher leaves
its own loop when it sees the same flag, which may be much later, and nothing makes
the main thread wait for it. As long as `stop_server` is called only after the
watcher has ended, every call into CraieLib lies between `init_context` and
`deinit_context`, and the watcher has ended when `main` returns.
-/

import SocketC.VehicleClient

namespace SocketC

/-! ### The order of the calls -/

/-- A call that needs the context. -/
def LibraryEvent.IsCall : LibraryEvent → Prop
  | .getAllCraieConfig | .command _ => True
  | .initContext _ | .deinitContext => False

/-- Every call comes after a successful `init_context` and before `deinit_context`. -/
def InOrder (events : List LibraryEvent) : Prop :=
  ∀ front event back, events = front ++ event :: back → event.IsCall →
    .initContext true ∈ front ∧ .deinitContext ∉ front

theorem inOrder_nil : InOrder [] := by
  intro front event back split
  exact absurd split (List.append_ne_nil_of_right_ne_nil front (List.cons_ne_nil event back)).symm

/-- Another event keeps the order if it is no call, or comes at the right time. -/
theorem InOrder.snoc {events : List LibraryEvent} {event : LibraryEvent} (inOrder : InOrder events)
    (timely : event.IsCall → .initContext true ∈ events ∧ .deinitContext ∉ events) :
    InOrder (events ++ [event]) := by
  intro front other back split call
  -- The call is the new event, or it was there before.
  rcases List.eq_nil_or_concat back with rfl | ⟨rest, last, rfl⟩
  · obtain ⟨rfl, same⟩ := List.append_inj' split rfl
    cases same
    exact timely call
  · have longer : events ++ [event] = (front ++ other :: rest) ++ [last] := by
      rw [split, List.concat_eq_append, List.append_assoc, List.cons_append]
    exact inOrder front other rest (List.append_inj' longer rfl).1 call

/-- The main thread is about to return. -/
def ClientMain.Returning : ClientMain → Prop
  | .failed | .returns => True
  | _ => False

/-- A watcher that is in its loop. -/
def Watcher.Going {Contents : Type} (watcher : Watcher Contents) : Prop :=
  watcher ≠ .unborn ∧ watcher ≠ .ended

namespace VehicleClient

variable {Time Contents : Type}

/-- What a shutdown in order has to guarantee. -/
structure Orderly (client : VehicleClient Time Contents) : Prop where
  calls : InOrder client.events
  watcher : client.main.Returning → client.watcher = .unborn ∨ client.watcher = .ended

/-! ### The phases of the main thread -/

/-- What the main thread has done so far. -/
inductive Phase where
  | fresh
  | refused
  | ready
  | serving
  | closing

def phase : ClientMain → Phase
  | .startServer => .fresh
  | .failed => .refused
  | .spawn => .ready
  | .test | .poll | .rest | .stopServer => .serving
  | .log | .returns => .closing

theorem MainGoes.phase_eq {running : Bool} {before after : ClientMain}
    (goes : MainGoes running before after) : phase after = phase before := by
  cases goes <;> rfl

/-- The watcher exists exactly from line 372 on. -/
def Born (client : VehicleClient Time Contents) : Prop :=
  match phase client.main with
  | .fresh | .refused | .ready => client.watcher = .unborn
  | .serving | .closing => client.watcher ≠ .unborn

/-- The library is in use exactly between the two calls, and after the second the watcher has
ended. -/
def Phased (client : VehicleClient Time Contents) : Prop :=
  match phase client.main with
  | .fresh => client.events = []
  | .refused => True
  | .ready | .serving => .initContext true ∈ client.events ∧ .deinitContext ∉ client.events
  | .closing => client.watcher = .ended

theorem phased_iff_ready {client : VehicleClient Time Contents}
    (here : phase client.main = .ready ∨ phase client.main = .serving) :
    client.Phased ↔ .initContext true ∈ client.events ∧ .deinitContext ∉ client.events := by
  unfold Phased
  rcases here with ready | serving
  · rw [ready]
  · rw [serving]

/-! ### The steps -/

theorem WatcherGoes.going {client : VehicleClient Time Contents} [DecidableEq Time]
    {before after : Watcher Contents} (goes : WatcherGoes client before after) :
    before.Going ∧ after ≠ .unborn := by
  cases goes <;> exact ⟨⟨nofun, nofun⟩, nofun⟩

/-- A watcher in its loop tells the phase. -/
theorem Phased.serving {client : VehicleClient Time Contents} (born : client.Born)
    (phased : client.Phased) (going : client.watcher.Going) :
    phase client.main = .serving ∧ .initContext true ∈ client.events ∧
      .deinitContext ∉ client.events := by
  unfold Born at born
  unfold Phased at phased
  cases here : phase client.main with
  | fresh | refused | ready =>
    rw [here] at born
    exact absurd born going.1
  | serving =>
    rw [here] at phased
    exact ⟨rfl, phased⟩
  | closing =>
    rw [here] at phased
    exact absurd phased going.2

/-- The library is ready, and one more event does not change that unless it is the last. -/
theorem ready_snoc {events : List LibraryEvent} {event : LibraryEvent}
    (ready : .initContext true ∈ events ∧ .deinitContext ∉ events)
    (different : event ≠ .deinitContext) :
    .initContext true ∈ events ++ [event] ∧ .deinitContext ∉ events ++ [event] := by
  refine ⟨List.mem_append_left _ ready.1, fun member => ?_⟩
  rcases List.mem_append.mp member with before | last
  · exact ready.2 before
  · exact different (List.mem_singleton.mp last).symm

/-- A step of the watcher that calls nothing keeps the phase. -/
theorem Phased.watch {client next : VehicleClient Time Contents} (born : client.Born)
    (phased : client.Phased) (going : client.watcher.Going) (main : next.main = client.main)
    (events : next.events = client.events) : next.Phased := by
  obtain ⟨serving, ready⟩ := phased.serving born going
  rw [phased_iff_ready (Or.inr (main ▸ serving)), events]
  exact ready

/-- A step of the watcher keeps it born. -/
theorem Born.watch {client next : VehicleClient Time Contents} (born : client.Born)
    (main : next.main = client.main) (before : client.watcher ≠ .unborn)
    (after : next.watcher ≠ .unborn) : next.Born := by
  unfold Born at born ⊢
  rw [main]
  cases here : phase client.main with
  | fresh | refused | ready =>
    rw [here] at born
    exact absurd born before
  | serving | closing => exact after

instance (watcher : Watcher Contents) : Decidable (watcher = .ended) :=
  match watcher with
  | .ended => .isTrue rfl
  | .unborn | .test | .checkExists | .lastWriteTime | .openFile | .parse _ | .process _ _
  | .sleep =>
    .isFalse fun impossible => by cases impossible

/-- The watcher has ended when the main thread calls `stop_server`. -/
def EndsFirst (client : VehicleClient Time Contents) : Action Time Contents → Prop
  | .main _ => client.main = .stopServer → client.watcher = .ended
  | _ => True

instance (client : VehicleClient Time Contents) (action : Action Time Contents) :
    Decidable (EndsFirst client action) :=
  match action with
  | .main _ => inferInstanceAs (Decidable (client.main = .stopServer → client.watcher = .ended))
  | .watch _ | .signal | .change _ => .isTrue trivial

section Runs

variable [DecidableEq Time] [Json.IntConversion] {parse : Contents → Option Json}

theorem Born.moves {client next : VehicleClient Time Contents} {action : Action Time Contents}
    (born : client.Born) (moves : Moves parse client action next) : next.Born := by
  cases moves with
  | initialized here | refused here =>
    unfold Born at born
    rw [here] at born
    exact born
  | spawn ok here => exact nofun
  | mainGoes ok place goes =>
    unfold Born at born ⊢
    rw [← goes.phase_eq] at born
    exact born
  | poll ok here | stopServer ok here =>
    unfold Born at born
    rw [here] at born
    exact born
  | watcherGoes read place goes => exact born.watch rfl goes.going.1.1 goes.going.2
  | loads read version here | garbled read contents here | document read contents doc here
  | processed read state here | command read command rest state here =>
    exact born.watch rfl (by rw [here]; exact nofun) nofun
  | fails | returns | throws | signal | change => exact born

theorem born_of_reachable {client : VehicleClient Time Contents}
    (reached : (machine parse).Reachable client) : client.Born := by
  refine reached.invariant Born rfl fun current action next born taken => ?_
  exact born.moves (moves_of_step taken).2

/-! ### Runs in which the watcher ends first -/

theorem Phased.moves {client next : VehicleClient Time Contents} {action : Action Time Contents}
    (born : client.Born) (phased : client.Phased) (endsFirst : EndsFirst client action)
    (moves : Moves parse client action next) : next.Phased := by
  cases moves with
  | initialized here =>
    unfold Phased at phased
    rw [here] at phased
    have events : client.events ++ [.initContext true] = [.initContext true] := by
      rw [show client.events = [] from phased, List.nil_append]
    refine (phased_iff_ready (Or.inl rfl)).mpr ?_
    rw [call, events, List.mem_singleton, List.mem_singleton]
    exact ⟨rfl, nofun⟩
  | refused here => trivial
  | spawn ok here =>
    have ready := (phased_iff_ready (Or.inl (congrArg phase here))).mp phased
    exact (phased_iff_ready (Or.inr rfl)).mpr ready
  | mainGoes ok place goes =>
    unfold Phased at phased ⊢
    rw [← goes.phase_eq] at phased
    exact phased
  | poll ok here =>
    have ready := (phased_iff_ready (Or.inr (congrArg phase here))).mp phased
    exact (phased_iff_ready (Or.inr rfl)).mpr (ready_snoc ready nofun)
  | stopServer ok here => exact endsFirst here
  | watcherGoes read place goes => exact phased.watch born goes.going.1 rfl rfl
  | loads read version here | garbled read contents here | document read contents doc here
  | processed read state here =>
    exact phased.watch born (by rw [here]; exact ⟨nofun, nofun⟩) rfl rfl
  | command read command rest state here =>
    obtain ⟨serving, ready⟩ := phased.serving born (by rw [here]; exact ⟨nofun, nofun⟩)
    have different : LibraryEvent.command command ≠ .deinitContext := nofun
    refine (phased_iff_ready (Or.inr ?_)).mpr (ready_snoc ready different)
    exact serving
  | fails | returns | throws | signal | change => exact phased

/-- Every call is made while the library is ready. -/
theorem InOrder.moves {client next : VehicleClient Time Contents} {action : Action Time Contents}
    (inOrder : InOrder client.events) (born : client.Born) (phased : client.Phased)
    (moves : Moves parse client action next) : InOrder next.events := by
  cases moves with
  | initialized here | refused here | stopServer ok here => exact inOrder.snoc False.elim
  | poll ok here =>
    have ready := (phased_iff_ready (Or.inr (congrArg phase here))).mp phased
    exact inOrder.snoc fun _ => ready
  | command read command rest state here =>
    have serving := phased.serving born (by rw [here]; exact ⟨nofun, nofun⟩)
    exact inOrder.snoc fun _ => serving.2
  | fails | spawn | mainGoes | returns | watcherGoes | throws | loads | garbled | document
  | processed | signal | change => exact inOrder

theorem phased_of_endsFirst {client : VehicleClient Time Contents}
    (reached : ((machine parse).restrict EndsFirst).Reachable client) :
    client.Phased ∧ InOrder client.events := by
  refine reached.induction (fun client => client.Phased ∧ InOrder client.events)
    ⟨rfl, inOrder_nil⟩ fun current action next before known taken => ?_
  obtain ⟨endsFirst, taken⟩ := Machine.restrict_step taken
  have moves := (moves_of_step taken).2
  have born := born_of_reachable before.of_restrict
  exact ⟨known.1.moves born endsFirst moves, InOrder.moves known.2 born known.1 moves⟩

theorem orderly_of_endsFirst {client : VehicleClient Time Contents}
    (reached : ((machine parse).restrict EndsFirst).Reachable client) : client.Orderly := by
  obtain ⟨phased, inOrder⟩ := phased_of_endsFirst reached
  have born := born_of_reachable reached.of_restrict
  refine ⟨inOrder, fun returning => ?_⟩
  unfold Phased at phased
  unfold Born at born
  cases here : client.main with
  | failed =>
    rw [here] at born
    exact Or.inl born
  | returns =>
    rw [here] at phased
    exact Or.inr phased
  | startServer | spawn | test | poll | rest | stopServer | log =>
    rw [here] at returning
    exact returning.elim

/-- A main thread that calls `stop_server` before the watcher has ended can go on and return
before it. -/
theorem returns_before_watcher {client : VehicleClient Time Contents}
    (reached : (machine parse).Reachable client) (alive : client.ended = none)
    (here : client.main = .stopServer) (going : client.watcher ≠ .ended) :
    ∃ later, (machine parse).Leads client later ∧ ¬ later.Orderly := by
  have born := born_of_reachable reached
  unfold Born at born
  rw [here] at born
  refine ⟨{ client.call .deinitContext with main := .returns }, ⟨[.main true, .main true], ?_⟩, ?_⟩
  · simp only [Machine.run_cons, Machine.run_nil, machine, step, mainStep, call, alive, here,
      if_true, Option.bind_some]
  · intro orderly
    rcases orderly.watcher trivial with unborn | ended
    · exact born unborn
    · exact going ended

/-- In every run in which the main thread calls `stop_server` only after the watcher has ended,
every call into CraieLib comes after `init_context` has succeeded and before `deinit_context`, and
when `main` returns the watcher has ended or was never started. From every reachable state in
which `stop_server` comes first, there is a run in which this fails. -/
theorem shutdown_orderly (parse : Contents → Option Json) :
    (∀ client : VehicleClient Time Contents,
      ((machine parse).restrict EndsFirst).Reachable client → client.Orderly) ∧
    (∀ client : VehicleClient Time Contents, (machine parse).Reachable client →
      client.ended = none → client.main = .stopServer → client.watcher ≠ .ended →
      ∃ later, (machine parse).Leads client later ∧ ¬ later.Orderly) :=
  ⟨fun _ reached => orderly_of_endsFirst reached,
    fun _ reached alive here going => returns_before_watcher reached alive here going⟩

end Runs

section X86

open scoped Json.X86

/-- The client whose files hold documents. -/
def plainClient : Machine (VehicleClient Nat Json) (Action Nat Json) := machine some

/-- A document with points of interest and nothing else. -/
def poiDoc : Json := .object [("poi_list", .array [])]

/-- The client starts, the file appears, and the watcher reads it as far as the first call. -/
def poiRun : List (Action Nat Json) :=
  [.main true, .main true, .change (some ⟨0, poiDoc⟩), .watch none, .watch none, .watch none,
    .watch (some poiDoc), .watch none]

/-- The watcher makes its call and ends on a signal, and then the main thread stops. -/
theorem shutdown_orderly_run :
    ∃ client, (plainClient.restrict EndsFirst).Reachable client ∧ client.main = .returns ∧
      client.events = [.initContext true, .command (.pushPoi (.array [])), .deinitContext] ∧
      client.Orderly := by
  have reached : (plainClient.restrict EndsFirst).Reachable
      ((plainClient.restrict EndsFirst).after (poiRun ++ [Action.watch none, .watch none,
        .watch none, .signal, .watch none, .main true, .main true, .main true])) :=
    Machine.reachable_after _ (by decide)
  exact ⟨_, reached, by decide, rfl, (shutdown_orderly some).1 _ reached⟩

/-- The signal comes while the watcher is in a document: the main thread calls `deinit_context`
and is about to return, and then the watcher makes its call. -/
theorem call_after_deinit :
    ∃ client, plainClient.Reachable client ∧ client.main = .returns ∧
      client.events = [.initContext true, .deinitContext, .command (.pushPoi (.array []))] ∧
      client.watcher ≠ .ended ∧ ¬ client.Orderly := by
  refine ⟨plainClient.after
      (poiRun ++ [Action.signal, .main true, .main true, .main true, .watch none]),
    Machine.reachable_after _ (by decide), by decide, rfl, by decide, fun orderly => ?_⟩
  have order := orderly.calls [.initContext true, .deinitContext] (.command (.pushPoi (.array [])))
    [] rfl trivial
  exact order.2 (List.mem_cons_of_mem _ List.mem_cons_self)

end X86

end VehicleClient

end SocketC
