/-
This file models the process of the vehicle command client, `main.cpp`: the main
thread with its poll loop, the watcher thread in `watch_json_command_file`, the
signal handler that clears `g_running`, and whoever else creates, replaces or
deletes the command file. The file is absent or has a modification time and
contents; what reading an opened file delivers is up to the action, because the
file may be rewritten meanwhile.

The history of the calls into CraieLib is part of the state. An exception that
leaves the watcher's function ends the process, and so does the destructor of
`watchThread` at the end of `main`, since the thread is neither joined nor
detached.
-/

import SocketC.Transition
import SocketC.VehicleCommands

namespace SocketC

/-! ### The state -/

/-- The command file as it stands at some moment. -/
structure FileVersion (Time Contents : Type) where
  time : Time
  contents : Contents

/-- A call into CraieLib. -/
inductive LibraryEvent where
  | initContext (ok : Bool)
  | getAllCraieConfig
  /-- One of the calls of `process_json_commands`. -/
  | command (command : Command)
  | deinitContext

/-- Where the main thread stands. -/
inductive ClientMain where
  /-- Line 365: `start_server`. -/
  | startServer
  /-- Lines 366-368: `init_context` has failed, and `main` returns. -/
  | failed
  /-- Line 372: about to create the watcher thread. -/
  | spawn
  /-- Line 377: the test of `g_running`. -/
  | test
  /-- Line 378: `poll_server_state`. -/
  | poll
  /-- Lines 379-380: the events and the sleep. -/
  | rest
  /-- Line 384: `stop_server`. -/
  | stopServer
  /-- Lines 385-386: the last log entry. -/
  | log
  /-- Line 388: `main` returns and destroys `watchThread`. -/
  | returns
  deriving DecidableEq

/-- Where the watcher thread stands. -/
inductive Watcher (Contents : Type) where
  | unborn
  /-- Line 163: the test of `g_running`. -/
  | test
  /-- Line 164: `fs::exists`. -/
  | checkExists
  /-- Line 165: `fs::last_write_time`. -/
  | lastWriteTime
  /-- Line 173: the file is opened. -/
  | openFile
  /-- Line 180: `json::parse` on a stream that delivers these contents. -/
  | parse (contents : Contents)
  /-- Line 181: in `process_json_commands`, with these calls still to make and this state to
  leave behind. -/
  | process (commands : List Command) (state : CommandState)
  /-- Line 188. -/
  | sleep
  /-- The function has returned. -/
  | ended

/-- How the process ends. -/
inductive ClientEnd where
  /-- `return EXIT_FAILURE`. -/
  | failure
  /-- `std::terminate`, because an exception has left `watch_json_command_file`. -/
  | exception
  /-- `std::terminate` in the destructor of `watchThread`. -/
  | joinable
  deriving DecidableEq

/-- The client process and its command file. `running` is `g_running`, `lastWriteTime` and
`firstRun` are the watcher's variables, and `parsed` holds the contents that were last handed to
`json::parse`. -/
structure VehicleClient (Time Contents : Type) where
  running : Bool
  main : ClientMain
  watcher : Watcher Contents
  file : Option (FileVersion Time Contents)
  firstRun : Bool
  lastWriteTime : Option Time
  commandState : CommandState
  parsed : Option Contents
  events : List LibraryEvent
  ended : Option ClientEnd

namespace VehicleClient

variable {Time Contents : Type}

/-- The process at line 365. -/
def start : VehicleClient Time Contents where
  running := true
  main := .startServer
  watcher := .unborn
  file := none
  firstRun := true
  lastWriteTime := none
  commandState := .start
  parsed := none
  events := []
  ended := none

/-! ### The actions -/

/-- A call into CraieLib enters the history. -/
def call (client : VehicleClient Time Contents) (event : LibraryEvent) :
    VehicleClient Time Contents :=
  { client with events := client.events ++ [event] }

/-- The next step of the main thread, with the result of `init_context` where it is called. -/
def mainStep (ok : Bool) (client : VehicleClient Time Contents) :
    Option (VehicleClient Time Contents) :=
  match client.main with
  | .startServer =>
    some { client.call (.initContext ok) with main := if ok then .spawn else .failed }
  | .failed => some { client with ended := some .failure }
  | .spawn => some { client with watcher := .test, main := .test }
  | .test =>
    if client.running then some { client with main := .poll }
    else some { client with main := .stopServer }
  | .poll => some { client.call .getAllCraieConfig with main := .rest }
  | .rest => some { client with main := .test }
  | .stopServer => some { client.call .deinitContext with main := .log }
  | .log => some { client with main := .returns }
  | .returns => some { client with ended := some .joinable }

variable [DecidableEq Time] (parse : Contents → Option Json)

/-- The watcher has to load the file: lines 165-169. -/
def mustLoad (firstRun : Bool) (lastWriteTime : Option Time) (writeTime : Time) : Bool :=
  firstRun || some writeTime ≠ lastWriteTime

/-- The next step of the watcher; `read` is what opening the file gives, nothing where it fails,
and else the contents that the stream delivers. -/
def watchStep [Json.IntConversion] (read : Option Contents) (client : VehicleClient Time Contents) :
    Option (VehicleClient Time Contents) :=
  match client.watcher with
  | .unborn | .ended => none
  | .test =>
    if client.running then some { client with watcher := .checkExists }
    else some { client with watcher := .ended }
  | .checkExists =>
    if client.file.isSome then some { client with watcher := .lastWriteTime }
    else some { client with watcher := .sleep }
  | .lastWriteTime =>
    match client.file with
    | none => some { client with ended := some .exception }
    | some version =>
      if mustLoad client.firstRun client.lastWriteTime version.time then
        some { client with
          firstRun := false
          lastWriteTime := some version.time
          watcher := .openFile }
      else some { client with watcher := .sleep }
  | .openFile =>
    match read with
    | none => some { client with watcher := .test }
    | some contents =>
      if client.file.isSome then some { client with watcher := .parse contents } else none
  | .parse contents =>
    match parse contents with
    | none => some { client with parsed := some contents, watcher := .sleep }
    | some doc =>
      let processed := processJsonCommands client.commandState doc
      some { client with
        parsed := some contents
        watcher := .process processed.commands processed.state }
  | .process [] state => some { client with commandState := state, watcher := .sleep }
  | .process (command :: rest) state =>
    some { client.call (.command command) with watcher := .process rest state }
  | .sleep => some { client with watcher := .test }

/-- What may happen next: a step of one of the threads, a signal, or a change of the file by
another process. -/
inductive Action (Time Contents : Type) where
  | main (ok : Bool)
  | watch (read : Option Contents)
  | signal
  | change (file : Option (FileVersion Time Contents))

/-- One action of a process that has not ended. -/
def step [Json.IntConversion] (client : VehicleClient Time Contents)
    (action : Action Time Contents) : Option (VehicleClient Time Contents) :=
  if client.ended = none then
    match action with
    | .main ok => client.mainStep ok
    | .watch read => client.watchStep parse read
    | .signal => some { client with running := false }
    | .change file => some { client with file := file }
  else none

/-- The client with a parser of the contents, which gives a document or throws. -/
def machine [Json.IntConversion] :
    Machine (VehicleClient Time Contents) (Action Time Contents) where
  start := start
  step := step parse

/-! ### Everything one step can do -/

/-- The steps of the main thread that call nothing and end nothing. -/
inductive MainGoes (running : Bool) : ClientMain → ClientMain → Prop where
  | again (more : running = true) : MainGoes running .test .poll
  | leave (done : running = false) : MainGoes running .test .stopServer
  | rested : MainGoes running .rest .test
  | logged : MainGoes running .log .returns

/-- The steps of the watcher that change nothing but its place. -/
inductive WatcherGoes (client : VehicleClient Time Contents) :
    Watcher Contents → Watcher Contents → Prop where
  | again (more : client.running = true) : WatcherGoes client .test .checkExists
  | leave (done : client.running = false) : WatcherGoes client .test .ended
  | absent (none : client.file = none) : WatcherGoes client .checkExists .sleep
  | present (some : client.file.isSome = true) : WatcherGoes client .checkExists .lastWriteTime
  | known (version : FileVersion Time Contents) (found : client.file = some version)
      (same : mustLoad client.firstRun client.lastWriteTime version.time = false) :
      WatcherGoes client .lastWriteTime .sleep
  | unopened : WatcherGoes client .openFile .test
  | opened (contents : Contents) (some : client.file.isSome = true) :
      WatcherGoes client .openFile (.parse contents)
  | woken : WatcherGoes client .sleep .test

/-- The effects of a step, with the action they belong to. -/
inductive Moves [Json.IntConversion] (client : VehicleClient Time Contents) :
    Action Time Contents → VehicleClient Time Contents → Prop where
  | initialized (here : client.main = .startServer) :
      Moves client (.main true) { client.call (.initContext true) with main := .spawn }
  | refused (here : client.main = .startServer) :
      Moves client (.main false) { client.call (.initContext false) with main := .failed }
  | fails (ok : Bool) (here : client.main = .failed) :
      Moves client (.main ok) { client with ended := some .failure }
  | spawn (ok : Bool) (here : client.main = .spawn) :
      Moves client (.main ok) { client with watcher := .test, main := .test }
  | mainGoes (ok : Bool) (place : ClientMain) (goes : MainGoes client.running client.main place) :
      Moves client (.main ok) { client with main := place }
  | poll (ok : Bool) (here : client.main = .poll) :
      Moves client (.main ok) { client.call .getAllCraieConfig with main := .rest }
  | stopServer (ok : Bool) (here : client.main = .stopServer) :
      Moves client (.main ok) { client.call .deinitContext with main := .log }
  | returns (ok : Bool) (here : client.main = .returns) :
      Moves client (.main ok) { client with ended := some .joinable }
  | watcherGoes (read : Option Contents) (place : Watcher Contents)
      (goes : WatcherGoes client client.watcher place) :
      Moves client (.watch read) { client with watcher := place }
  | throws (read : Option Contents) (here : client.watcher = .lastWriteTime)
      (absent : client.file = none) :
      Moves client (.watch read) { client with ended := some .exception }
  | loads (read : Option Contents) (version : FileVersion Time Contents)
      (here : client.watcher = .lastWriteTime) (found : client.file = some version)
      (changed : mustLoad client.firstRun client.lastWriteTime version.time = true) :
      Moves client (.watch read) { client with
        firstRun := false
        lastWriteTime := some version.time
        watcher := .openFile }
  | garbled (read : Option Contents) (contents : Contents) (here : client.watcher = .parse contents)
      (unparsed : parse contents = none) :
      Moves client (.watch read) { client with parsed := some contents, watcher := .sleep }
  | document (read : Option Contents) (contents : Contents) (doc : Json)
      (here : client.watcher = .parse contents) (parsed : parse contents = some doc) :
      Moves client (.watch read) { client with
        parsed := some contents
        watcher := .process (processJsonCommands client.commandState doc).commands
          (processJsonCommands client.commandState doc).state }
  | processed (read : Option Contents) (state : CommandState)
      (here : client.watcher = .process [] state) :
      Moves client (.watch read) { client with commandState := state, watcher := .sleep }
  | command (read : Option Contents) (command : Command) (rest : List Command)
      (state : CommandState)
      (here : client.watcher = .process (command :: rest) state) :
      Moves client (.watch read)
        { client.call (.command command) with watcher := .process rest state }
  | signal : Moves client .signal { client with running := false }
  | change (file : Option (FileVersion Time Contents)) :
      Moves client (.change file) { client with file := file }

variable {parse} [Json.IntConversion]

theorem moves_of_mainStep {client next : VehicleClient Time Contents} {ok : Bool}
    (taken : client.mainStep ok = some next) : Moves parse client (.main ok) next := by
  unfold mainStep at taken
  split at taken
  · rename_i here
    cases ok with
    | true => exact Option.some.inj taken ▸ .initialized here
    | false => exact Option.some.inj taken ▸ .refused here
  · exact Option.some.inj taken ▸ .fails ok ‹_›
  · exact Option.some.inj taken ▸ .spawn ok ‹_›
  · rename_i here
    split at taken
    · rename_i more
      exact Option.some.inj taken ▸ .mainGoes ok _ (here ▸ .again more)
    · rename_i done
      have stopped := Bool.eq_false_of_not_eq_true done
      exact Option.some.inj taken ▸ .mainGoes ok _ (here ▸ .leave stopped)
  · exact Option.some.inj taken ▸ .poll ok ‹_›
  · rename_i here
    exact Option.some.inj taken ▸ .mainGoes ok _ (here ▸ .rested)
  · exact Option.some.inj taken ▸ .stopServer ok ‹_›
  · rename_i here
    exact Option.some.inj taken ▸ .mainGoes ok _ (here ▸ .logged)
  · exact Option.some.inj taken ▸ .returns ok ‹_›

theorem moves_of_watchStep {client next : VehicleClient Time Contents} {read : Option Contents}
    (taken : client.watchStep parse read = some next) :
    Moves parse client (.watch read) next := by
  unfold watchStep at taken
  split at taken
  · cases taken
  · cases taken
  · rename_i here
    split at taken
    · rename_i more
      exact Option.some.inj taken ▸ .watcherGoes read _ (here ▸ .again more)
    · rename_i done
      exact Option.some.inj taken ▸
        .watcherGoes read _ (here ▸ .leave (Bool.eq_false_of_not_eq_true done))
  · rename_i here
    split at taken
    · rename_i present
      exact Option.some.inj taken ▸ .watcherGoes read _ (here ▸ .present present)
    · rename_i absent
      rw [Option.isSome_iff_ne_none, not_not] at absent
      exact Option.some.inj taken ▸ .watcherGoes read _ (here ▸ .absent absent)
  · rename_i here
    split at taken
    · exact Option.some.inj taken ▸ .throws read here ‹_›
    · rename_i version found
      split at taken
      · exact Option.some.inj taken ▸ .loads read version here found ‹_›
      · rename_i same
        exact Option.some.inj taken ▸
          .watcherGoes read _ (here ▸ .known version found (Bool.eq_false_of_not_eq_true same))
  · rename_i here
    split at taken
    · exact Option.some.inj taken ▸ .watcherGoes none _ (here ▸ .unopened)
    · rename_i contents
      simp only [Option.ite_none_right_eq_some, Option.some.injEq] at taken
      obtain ⟨found, rfl⟩ := taken
      exact .watcherGoes (some contents) _ (here ▸ .opened contents found)
  · rename_i contents here
    split at taken
    · exact Option.some.inj taken ▸ .garbled read contents here ‹_›
    · rename_i doc parsed
      exact Option.some.inj taken ▸ .document read contents doc here parsed
  · rename_i state here
    exact Option.some.inj taken ▸ .processed read state here
  · rename_i command rest state here
    exact Option.some.inj taken ▸ .command read command rest state here
  · rename_i here
    exact Option.some.inj taken ▸ .watcherGoes read _ (here ▸ .woken)

theorem moves_of_step {client next : VehicleClient Time Contents} {action : Action Time Contents}
    (taken : (machine parse).step client action = some next) :
    client.ended = none ∧ Moves parse client action next := by
  simp only [machine, step] at taken
  split at taken
  · rename_i alive
    refine ⟨alive, ?_⟩
    cases action with
    | main ok => exact moves_of_mainStep taken
    | watch read => exact moves_of_watchStep taken
    | signal => exact Option.some.inj taken ▸ .signal
    | change file => exact Option.some.inj taken ▸ .change file
  · cases taken

end VehicleClient

end SocketC
