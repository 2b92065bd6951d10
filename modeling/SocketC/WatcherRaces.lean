/-
This file is about the watcher's races with whoever writes the command file. The
file is looked up four times in one poll, and between any two of them it may be
created, deleted, replaced or rewritten. Only the parsing is inside the `try` block:
a file that disappears between `fs::exists` and `fs::last_write_time` makes the
latter throw, the exception leaves the thread's function, and the process ends. If
the file is there whenever its time is asked for, nothing that happens to it at any
other moment stops the watcher.
-/

import SocketC.ClientShutdown

namespace SocketC

/-- The main thread has left its loop. -/
def ClientMain.Stopping : ClientMain → Prop
  | .stopServer | .log | .returns => True
  | _ => False

namespace VehicleClient

variable {Time Contents : Type}

/-! ### What ends only after the flag is cleared -/

/-- Both loops are left, and `main` returns, only when `g_running` is zero; without `init_context`
there is no watcher. -/
structure Lasting (client : VehicleClient Time Contents) : Prop where
  main : client.main.Stopping → client.running = false
  watcher : client.watcher = .ended → client.running = false
  failure : client.ended = some .failure → client.watcher = .unborn
  joinable : client.ended = some .joinable → client.running = false

theorem lasting_start : (start : VehicleClient Time Contents).Lasting :=
  ⟨False.elim, nofun, nofun, nofun⟩

theorem MainGoes.stopping {running : Bool} {before after : ClientMain}
    (goes : MainGoes running before after) (stopping : after.Stopping) :
    running = false ∨ before.Stopping := by
  cases goes with
  | again | rested => exact stopping.elim
  | leave done => exact Or.inl done
  | logged => exact Or.inr trivial

variable [DecidableEq Time]

theorem WatcherGoes.ended {client : VehicleClient Time Contents} {before after : Watcher Contents}
    (goes : WatcherGoes client before after) (ended : after = .ended) :
    client.running = false := by
  cases goes with
  | leave done => exact done
  | again | absent | present | known | unopened | opened | woken => cases ended

/-! ### A file that is there when its time is asked for -/

instance (watcher : Watcher Contents) : Decidable (watcher = .lastWriteTime) :=
  match watcher with
  | .lastWriteTime => .isTrue rfl
  | .unborn | .test | .checkExists | .openFile | .parse _ | .process _ _ | .sleep | .ended =>
    .isFalse fun impossible => by cases impossible

/-- The file exists when `fs::last_write_time` is called. -/
def FileStays (client : VehicleClient Time Contents) : Action Time Contents → Prop
  | .watch _ => client.watcher = .lastWriteTime → client.file.isSome = true
  | _ => True

instance (client : VehicleClient Time Contents) (action : Action Time Contents) :
    Decidable (FileStays client action) :=
  match action with
  | .watch _ => inferInstanceAs (Decidable (client.watcher = .lastWriteTime → _ = true))
  | .main _ | .signal | .change _ => .isTrue trivial

/-! ### What ends in a run -/

section Runs

variable [Json.IntConversion] {parse : Contents → Option Json}

theorem Lasting.moves {client next : VehicleClient Time Contents} {action : Action Time Contents}
    (lasting : client.Lasting) (born : client.Born) (alive : client.ended = none)
    (moves : Moves parse client action next) : next.Lasting := by
  have unfailed : ¬ client.ended = some .failure := by rw [alive]; exact nofun
  cases moves with
  | initialized here | refused here =>
    exact ⟨False.elim, lasting.watcher, lasting.failure, lasting.joinable⟩
  | fails ok here =>
    unfold Born at born
    rw [here] at born
    exact ⟨lasting.main, lasting.watcher, fun _ => born, nofun⟩
  | spawn ok here =>
    exact ⟨False.elim, nofun, fun failure => absurd failure unfailed, lasting.joinable⟩
  | mainGoes ok place goes =>
    refine ⟨fun stopping => ?_, lasting.watcher, lasting.failure, lasting.joinable⟩
    exact (goes.stopping stopping).elim id lasting.main
  | poll ok here => exact ⟨False.elim, lasting.watcher, lasting.failure, lasting.joinable⟩
  | stopServer ok here =>
    exact ⟨fun _ => lasting.main (by rw [here]; trivial), lasting.watcher, lasting.failure,
      lasting.joinable⟩
  | returns ok here =>
    exact ⟨lasting.main, lasting.watcher, nofun, fun _ => lasting.main (by rw [here]; trivial)⟩
  | watcherGoes read place goes =>
    exact ⟨lasting.main, goes.ended, fun failure => absurd failure unfailed, lasting.joinable⟩
  | throws read here absent => exact ⟨lasting.main, lasting.watcher, nofun, nofun⟩
  | loads | garbled | document | processed | command =>
    exact ⟨lasting.main, nofun, fun failure => absurd failure unfailed, lasting.joinable⟩
  | signal => exact ⟨fun _ => rfl, fun _ => rfl, lasting.failure, fun _ => rfl⟩
  | change file => exact ⟨lasting.main, lasting.watcher, lasting.failure, lasting.joinable⟩

theorem lasting_of_reachable {client : VehicleClient Time Contents}
    (reached : (machine parse).Reachable client) : client.Lasting := by
  refine reached.induction Lasting lasting_start fun current action next before lasting taken => ?_
  obtain ⟨alive, moves⟩ := moves_of_step taken
  exact lasting.moves (born_of_reachable before) alive moves

/-- A watcher in its loop can always take its next step; opening the file may fail. -/
theorem watch_enabled {client : VehicleClient Time Contents} (alive : client.ended = none)
    (going : client.watcher.Going) : ((machine parse).step client (.watch none)).isSome := by
  simp only [machine, step, alive, if_true]
  unfold watchStep
  split
  · exact absurd ‹_› going.1
  · exact absurd ‹_› going.2
  all_goals first | rfl | (split <;> first | rfl | (split <;> rfl))

/-! ### Runs in which the file stays -/

/-- No exception has left the watcher, and as long as `g_running` is set the process lives and
the watcher, once started, is in its loop and able to go on. -/
structure Survives (parse : Contents → Option Json) (client : VehicleClient Time Contents) :
    Prop where
  caught : client.ended ≠ some .exception
  polls : client.watcher ≠ .unborn → client.running = true →
    client.ended = none ∧ client.watcher ≠ .ended ∧
      ∃ read, ((machine parse).step client (.watch read)).isSome

theorem caught_of_fileStays {client : VehicleClient Time Contents}
    (reached : ((machine parse).restrict FileStays).Reachable client) :
    client.ended ≠ some .exception := by
  refine reached.invariant (fun client => client.ended ≠ some .exception) nofun
    fun current action next caught taken => ?_
  obtain ⟨stays, taken⟩ := Machine.restrict_step taken
  cases (moves_of_step taken).2 with
  | throws read here absent =>
    have present := stays here
    rw [absent] at present
    cases present
  | fails | returns => exact nofun
  | initialized | refused | spawn | mainGoes | poll | stopServer | watcherGoes | loads | garbled
  | document | processed | command | signal | change => exact caught

theorem survives_of_fileStays {client : VehicleClient Time Contents}
    (reached : ((machine parse).restrict FileStays).Reachable client) : Survives parse client := by
  have caught := caught_of_fileStays reached
  have lasting := lasting_of_reachable reached.of_restrict
  refine ⟨caught, fun born running => ?_⟩
  have cleared : ¬ client.running = false := by rw [running]; exact nofun
  have alive : client.ended = none := by
    cases ended : client.ended with
    | none => rfl
    | some reason =>
      cases reason with
      | failure => exact absurd (lasting.failure ended) born
      | exception => exact absurd ended caught
      | joinable => exact absurd (lasting.joinable ended) cleared
  have going : client.watcher.Going := ⟨born, fun ended => cleared (lasting.watcher ended)⟩
  exact ⟨alive, going.2, none, watch_enabled alive going⟩

/-- In every run in which the file exists whenever its modification time is asked for, no
exception leaves the watcher, and it goes on as long as `g_running` is set, whatever is done to
the file between its steps. In every reachable state in which the time of an absent file is about
to be asked for, the watcher's next step ends the process. -/
theorem watcher_survives (parse : Contents → Option Json) :
    (∀ client : VehicleClient Time Contents,
      ((machine parse).restrict FileStays).Reachable client → Survives parse client) ∧
    (∀ client : VehicleClient Time Contents, (machine parse).Reachable client →
      client.ended = none → client.watcher = .lastWriteTime → client.file = none → ∀ read,
        ∃ next, (machine parse).step client (.watch read) = some next ∧
          next.ended = some .exception) := by
  refine ⟨fun _ reached => survives_of_fileStays reached, fun client _ alive here absent read => ?_⟩
  refine ⟨{ client with ended := some .exception }, ?_, rfl⟩
  simp only [machine, step, watchStep, alive, here, absent, if_true]

end Runs

section X86

open scoped Json.X86

/-- The file is deleted after its time was read, comes back with other contents and is replaced
again while the watcher parses it. -/
theorem watcher_survives_run :
    ∃ client, (plainClient.restrict FileStays).Reachable client ∧ client.watcher = .sleep ∧
      client.running = true ∧ Survives some client := by
  have reached : (plainClient.restrict FileStays).Reachable
      ((plainClient.restrict FileStays).after [.main true, .main true, .change (some ⟨0, poiDoc⟩),
        .watch none, .watch none, .watch none, .change none, .watch none,
        .change (some ⟨1, .null⟩), .watch none, .watch none, .watch none, .watch (some .null),
        .change (some ⟨2, poiDoc⟩), .watch none, .change none, .watch none]) :=
    Machine.reachable_after _ (by decide)
  exact ⟨_, reached, rfl, by decide, (watcher_survives some).1 _ reached⟩

/-- The file is there for `fs::exists` and deleted before `fs::last_write_time`. -/
theorem deleted_file_ends_process :
    ∃ client, plainClient.Reachable client ∧ client.running = true ∧
      client.ended = some .exception ∧ ¬ Survives some client := by
  have ended : (plainClient.after [.main true, .main true, .change (some ⟨0, poiDoc⟩), .watch none,
      .watch none, .change none, .watch none]).ended = some .exception := by decide
  exact ⟨_, Machine.reachable_after _ (by decide), by decide, ended,
    fun survives => survives.caught ended⟩

end X86

end VehicleClient

end SocketC
