/-
This file is about what the watcher makes of a sequence of polls. A poll is one turn
of the loop in `watch_json_command_file` during which the file does not change: it
sees the file absent, or with a modification time and contents, and opening it may
fail. What the polls leave behind is `firstRun`, `lastWriteTime` and the contents
last handed to `json::parse`.

A poll is first shown to be what the watcher of the process does between two tests of
`g_running`. The time of a version is stored before the file is opened, so a version
whose first poll cannot open it is not tried again; that is the only way in which an
update is lost.
-/

import SocketC.VehicleClient

namespace SocketC

/-! ### Polls -/

/-- What one turn of the watcher's loop finds. -/
structure FilePoll (Time Contents : Type) where
  file : Option (FileVersion Time Contents)
  opens : Bool

/-- What the watcher carries from one turn to the next. -/
structure WatchMemory (Time Contents : Type) where
  firstRun : Bool
  lastWriteTime : Option Time
  parsed : Option Contents

variable {Time Contents : Type}

/-- What opening the file gives during the poll. -/
def FilePoll.read (seen : FilePoll Time Contents) : Option Contents :=
  if seen.opens then seen.file.map FileVersion.contents else none

/-- Line 159: the watcher before its first turn. -/
def WatchMemory.start : WatchMemory Time Contents := ⟨true, none, none⟩

/-- The watcher's variables in the process. -/
def VehicleClient.memory (client : VehicleClient Time Contents) : WatchMemory Time Contents :=
  ⟨client.firstRun, client.lastWriteTime, client.parsed⟩

variable [DecidableEq Time]

namespace WatchMemory

/-- Lines 165-169: this version has to be loaded. -/
def MustLoad (memory : WatchMemory Time Contents) (version : FileVersion Time Contents) : Prop :=
  VehicleClient.mustLoad memory.firstRun memory.lastWriteTime version.time = true

instance (memory : WatchMemory Time Contents) (version : FileVersion Time Contents) :
    Decidable (memory.MustLoad version) :=
  inferInstanceAs (Decidable (_ = true))

theorem mustLoad_iff {memory : WatchMemory Time Contents} {version : FileVersion Time Contents} :
    memory.MustLoad version ↔
      memory.firstRun = true ∨ memory.lastWriteTime ≠ some version.time := by
  simp only [MustLoad, VehicleClient.mustLoad, Bool.or_eq_true, decide_eq_true_eq, ne_comm]

/-- One turn of the loop: the time is stored before the file is opened. -/
def poll (memory : WatchMemory Time Contents) (seen : FilePoll Time Contents) :
    WatchMemory Time Contents :=
  match seen.file with
  | none => memory
  | some version =>
    if memory.MustLoad version then
      { firstRun := false
        lastWriteTime := some version.time
        parsed := if seen.opens then some version.contents else memory.parsed }
    else memory

/-- What a sequence of polls leaves behind. -/
def after (polls : List (FilePoll Time Contents)) : WatchMemory Time Contents :=
  polls.foldl poll start

theorem after_append (polls more : List (FilePoll Time Contents)) :
    after (polls ++ more) = more.foldl poll (after polls) := List.foldl_append

theorem poll_absent {memory : WatchMemory Time Contents} {seen : FilePoll Time Contents}
    (absent : seen.file = none) : memory.poll seen = memory := by
  simp only [poll, absent]

theorem poll_known {memory : WatchMemory Time Contents} {seen : FilePoll Time Contents}
    {version : FileVersion Time Contents} (found : seen.file = some version)
    (known : ¬ memory.MustLoad version) : memory.poll seen = memory := by
  simp only [poll, found, if_neg known]

theorem poll_loads {memory : WatchMemory Time Contents} {seen : FilePoll Time Contents}
    {version : FileVersion Time Contents} (found : seen.file = some version)
    (loads : memory.MustLoad version) :
    memory.poll seen =
      ⟨false, some version.time, if seen.opens then some version.contents else memory.parsed⟩ := by
  simp only [poll, found, if_pos loads]

end WatchMemory

/-! ### A poll is what the watcher of the process does in one turn -/

namespace VehicleClient

/-- The watcher is about to test `g_running`, which is set. -/
structure Polling (client : VehicleClient Time Contents) : Prop where
  alive : client.ended = none
  running : client.running = true
  test : client.watcher = .test

variable [Json.IntConversion] (parse : Contents → Option Json)

/-- The process as long as only the watcher runs and opening the file gives the same. -/
def watching (read : Option Contents) : Machine (VehicleClient Time Contents) Unit where
  start := start
  step := fun client _ => step parse client (.watch read)

variable {parse}

theorem leads_of_watching {read : Option Contents} {client next : VehicleClient Time Contents}
    (leads : (watching parse read).Leads client next) : (machine parse).Leads client next :=
  leads.invariant ((machine parse).Leads client) (.refl client) fun _ _ _ before taken =>
    before.step (.watch read) taken

/-- One step of the watcher of a live process. -/
theorem watching_leads {read : Option Contents} {client next : VehicleClient Time Contents}
    (alive : client.ended = none) (taken : client.watchStep parse read = some next) :
    (watching parse read).Leads client next := by
  refine .of_step () ?_
  simp only [watching, step, alive, if_true]
  exact taken

theorem woken_leads {read : Option Contents} {client : VehicleClient Time Contents}
    (alive : client.ended = none) (here : client.watcher = .sleep) :
    (watching parse read).Leads client { client with watcher := .test } :=
  watching_leads alive (by simp only [watchStep, here])

/-- The calls of `process_json_commands` change neither the variables nor the file. -/
theorem process_leads {read : Option Contents} (commands : List Command) (state : CommandState)
    (client : VehicleClient Time Contents) (alive : client.ended = none)
    (here : client.watcher = .process commands state) :
    ∃ events, (watching parse read).Leads client
      { client with events := events, commandState := state, watcher := .test } := by
  -- Induction on the calls still to make.
  induction commands generalizing client with
  | nil =>
    have processed : (watching parse read).Leads client
        { client with commandState := state, watcher := .sleep } :=
      watching_leads alive (by simp only [watchStep, here])
    exact ⟨client.events, processed.trans (woken_leads alive rfl)⟩
  | cons command rest inductionHypothesis =>
    have called : (watching parse read).Leads client
        { client.call (.command command) with watcher := .process rest state } :=
      watching_leads alive (by simp only [watchStep, here])
    obtain ⟨events, onward⟩ :=
      inductionHypothesis { client.call (.command command) with watcher := .process rest state }
        alive rfl
    exact ⟨events, called.trans onward⟩

/-- Parsing hands the contents to `json::parse`, whatever comes of it. -/
theorem parse_leads {read : Option Contents} (contents : Contents)
    (client : VehicleClient Time Contents) (alive : client.ended = none)
    (here : client.watcher = .parse contents) :
    ∃ events state, (watching parse read).Leads client
      { client with
        parsed := some contents
        events := events
        commandState := state
        watcher := .test } := by
  cases parsed : parse contents with
  | none =>
    have caught : (watching parse read).Leads client
        { client with parsed := some contents, watcher := .sleep } :=
      watching_leads alive (by simp only [watchStep, here, parsed])
    exact ⟨client.events, client.commandState, caught.trans (woken_leads alive rfl)⟩
  | some doc =>
    have processing : (watching parse read).Leads client
        { client with
          parsed := some contents
          watcher := .process (processJsonCommands client.commandState doc).commands
            (processJsonCommands client.commandState doc).state } :=
      watching_leads alive (by simp only [watchStep, here, parsed])
    obtain ⟨events, onward⟩ := process_leads _ _
      { client with
        parsed := some contents
        watcher := .process (processJsonCommands client.commandState doc).commands
          (processJsonCommands client.commandState doc).state } alive rfl
    exact ⟨events, _, processing.trans onward⟩

/-- Once the time is stored, the contents are parsed if the file can be opened. -/
theorem open_leads {seen : FilePoll Time Contents} {version : FileVersion Time Contents}
    (found : seen.file = some version) (client : VehicleClient Time Contents)
    (alive : client.ended = none) (file : client.file = seen.file)
    (here : client.watcher = .openFile) :
    ∃ events state, (watching parse seen.read).Leads client
      { client with
        parsed := if seen.opens then some version.contents else client.parsed
        events := events
        commandState := state
        watcher := .test } := by
  by_cases opens : seen.opens = true
  · have opened : (watching parse seen.read).Leads client
        { client with watcher := .parse version.contents } :=
      watching_leads alive (by simp [watchStep, FilePoll.read, here, file, found, opens])
    rw [if_pos opens]
    obtain ⟨events, state, onward⟩ := parse_leads version.contents
      { client with watcher := .parse version.contents } alive rfl
    exact ⟨events, state, opened.trans onward⟩
  · have unopened : (watching parse seen.read).Leads client { client with watcher := .test } :=
      watching_leads alive (by simp [watchStep, FilePoll.read, here, opens])
    rw [if_neg opens]
    exact ⟨client.events, client.commandState, unopened⟩

/-- From one test of `g_running` to the next, the watcher does one poll. -/
theorem poll_leads (parse : Contents → Option Json) {client : VehicleClient Time Contents}
    (polling : client.Polling) (seen : FilePoll Time Contents) (here : client.file = seen.file) :
    ∃ next, (watching parse seen.read).Leads client next ∧ next.Polling ∧
      next.memory = client.memory.poll seen := by
  obtain ⟨alive, running, test⟩ := polling
  have tested : (watching parse seen.read).Leads client { client with watcher := .checkExists } :=
    watching_leads alive (by simp only [watchStep, test, running, if_true])
  cases found : seen.file with
  | none =>
    have absent : (watching parse seen.read).Leads { client with watcher := .checkExists }
        { client with watcher := .sleep } :=
      watching_leads alive (by simp [watchStep, here, found])
    refine ⟨_, (tested.trans absent).trans (woken_leads alive rfl), ⟨alive, running, rfl⟩, ?_⟩
    rw [WatchMemory.poll_absent found]
    rfl
  | some version =>
    have present : (watching parse seen.read).Leads { client with watcher := .checkExists }
        { client with watcher := .lastWriteTime } :=
      watching_leads alive (by simp [watchStep, here, found])
    by_cases load : client.memory.MustLoad version
    · have stored : (watching parse seen.read).Leads { client with watcher := .lastWriteTime }
          { client with
            firstRun := false
            lastWriteTime := some version.time
            watcher := .openFile } := by
        refine watching_leads alive ?_
        simp only [watchStep, here, found]
        exact if_pos load
      obtain ⟨events, state, onward⟩ := open_leads found
        { client with
          firstRun := false
          lastWriteTime := some version.time
          watcher := .openFile } alive here rfl
      refine ⟨_, ((tested.trans present).trans stored).trans onward, ⟨alive, running, rfl⟩, ?_⟩
      rw [WatchMemory.poll_loads found load]
      rfl
    · have known : (watching parse seen.read).Leads { client with watcher := .lastWriteTime }
          { client with watcher := .sleep } := by
        refine watching_leads alive ?_
        simp only [watchStep, here, found]
        exact if_neg load
      refine ⟨_, ((tested.trans present).trans known).trans (woken_leads alive rfl),
        ⟨alive, running, rfl⟩, ?_⟩
      rw [WatchMemory.poll_known found load]
      rfl

/-- Every sequence of polls is one the process can go through. -/
theorem polls_reachable (parse : Contents → Option Json) (polls : List (FilePoll Time Contents)) :
    ∃ client, (machine parse).Reachable client ∧ client.Polling ∧
      client.memory = WatchMemory.after polls := by
  induction polls using List.reverseRecOn with
  | nil =>
    have begun : (machine parse).Reachable
        { (start : VehicleClient Time Contents).call (.initContext true) with
          main := .test
          watcher := .test } :=
      ⟨[.main true, .main true], rfl⟩
    exact ⟨_, begun, ⟨rfl, rfl, rfl⟩, rfl⟩
  | append_singleton polls seen inductionHypothesis =>
    obtain ⟨client, reached, polling, remembered⟩ := inductionHypothesis
    have changed : (machine parse).step client (.change seen.file) =
        some { client with file := seen.file } := by
      simp only [machine, step, polling.alive, if_true]
    have waiting : Polling { client with file := seen.file } :=
      ⟨polling.alive, polling.running, polling.test⟩
    obtain ⟨next, leads, polled, poll⟩ := poll_leads parse waiting seen rfl
    refine ⟨next, (reached.leads (.of_step _ changed)).leads (leads_of_watching leads), polled, ?_⟩
    rw [poll, WatchMemory.after_append, ← remembered]
    rfl

end VehicleClient

/-! ### Updates -/

namespace WatchMemory

/-- Different contents always have different modification times. -/
def Timed (polls : List (FilePoll Time Contents)) : Prop :=
  ∀ seen ∈ polls, ∀ other ∈ polls, ∀ version ∈ seen.file, ∀ older ∈ other.file,
    version.time = older.time → version.contents = older.contents

/-- At the end of every poll at which the file exists and could be opened, the contents last
parsed are those of the version the poll saw. -/
def Current (polls : List (FilePoll Time Contents)) : Prop :=
  ∀ front seen, front ++ [seen] <+: polls → ∀ version ∈ seen.file, seen.opens = true →
    (after (front ++ [seen])).parsed = some version.contents

/-- The poll has to load a version with other contents than those parsed last, and cannot open
the file. -/
structure Missed (memory : WatchMemory Time Contents) (seen : FilePoll Time Contents)
    (version : FileVersion Time Contents) : Prop where
  found : version ∈ seen.file
  load : memory.MustLoad version
  closed : seen.opens = false
  new : memory.parsed ≠ some version.contents

/-- The polls see the file with this time, or absent. -/
def Unchanged (time : Time) (polls : List (FilePoll Time Contents)) : Prop :=
  ∀ seen ∈ polls, ∀ version ∈ seen.file, version.time = time

/-- A version that was missed cannot be opened later, unless another one is seen first. -/
def StaysClosed (polls : List (FilePoll Time Contents)) : Prop :=
  ∀ front seen middle later, front ++ seen :: middle ++ [later] <+: polls →
    ∀ version, (after front).Missed seen version → Unchanged version.time middle →
      ∀ again ∈ later.file, again.time = version.time → later.opens = false

theorem poll_missed {memory : WatchMemory Time Contents} {seen : FilePoll Time Contents}
    {version : FileVersion Time Contents} (missed : memory.Missed seen version) :
    memory.poll seen = ⟨false, some version.time, memory.parsed⟩ := by
  rw [poll_loads missed.found missed.load, missed.closed]
  rfl

/-- A version whose time is stored is not looked at again. -/
theorem foldl_unchanged {polls : List (FilePoll Time Contents)} {time : Time}
    (unchanged : Unchanged time polls) (parsed : Option Contents) :
    polls.foldl poll ⟨false, some time, parsed⟩ = ⟨false, some time, parsed⟩ := by
  induction polls with
  | nil => rfl
  | cons seen rest inductionHypothesis =>
    have same : (⟨false, some time, parsed⟩ : WatchMemory Time Contents).poll seen =
        ⟨false, some time, parsed⟩ := by
      cases found : seen.file with
      | none => exact poll_absent found
      | some version =>
        refine poll_known found ?_
        rw [mustLoad_iff, unchanged seen List.mem_cons_self version found]
        simp
    rw [List.foldl_cons, same]
    exact inductionHypothesis fun other member => unchanged other (List.mem_cons_of_mem _ member)

/-- What is known of the version whose time is stored: there is none, it was parsed last, or it
was missed and no other one was seen since. -/
inductive Accounted (polls : List (FilePoll Time Contents)) (memory : WatchMemory Time Contents) :
    Prop where
  | nothing (first : memory.firstRun = true)
  | parsed (seen : FilePoll Time Contents) (member : seen ∈ polls)
      (version : FileVersion Time Contents) (found : version ∈ seen.file)
      (stored : memory.lastWriteTime = some version.time)
      (contents : memory.parsed = some version.contents)
  | missed (front : List (FilePoll Time Contents)) (seen : FilePoll Time Contents)
      (middle : List (FilePoll Time Contents)) (split : polls = front ++ seen :: middle)
      (version : FileVersion Time Contents) (missed : (after front).Missed seen version)
      (unchanged : Unchanged version.time middle)
      (stored : memory.lastWriteTime = some version.time)

/-- A poll that loads nothing keeps the account, because it sees the stored time or no file. -/
theorem Accounted.append {polls : List (FilePoll Time Contents)}
    {memory : WatchMemory Time Contents} (accounted : memory.Accounted polls)
    {seen : FilePoll Time Contents} (known : ∀ version ∈ seen.file, ¬ memory.MustLoad version) :
    memory.Accounted (polls ++ [seen]) := by
  cases accounted with
  | nothing first => exact .nothing first
  | parsed other member version found stored contents =>
    exact .parsed other (List.mem_append_left _ member) version found stored contents
  | missed front other middle split version missed unchanged stored =>
    refine .missed front other (middle ++ [seen]) (by rw [split]; simp) version missed ?_ stored
    intro between member again found
    obtain earlier | last := List.mem_append.mp member
    · exact unchanged between earlier again found
    · rw [List.mem_singleton] at last
      subst last
      have same := known again found
      rw [mustLoad_iff, not_or, not_not] at same
      exact Option.some.inj (same.2.symm.trans stored)

theorem accounted_after (polls : List (FilePoll Time Contents)) :
    (after polls).Accounted polls := by
  -- Induction on the polls made so far, the last one taken off.
  induction polls using List.reverseRecOn with
  | nil => exact .nothing rfl
  | append_singleton polls seen inductionHypothesis =>
    rw [after_append, List.foldl_cons, List.foldl_nil]
    cases found : seen.file with
    | none =>
      rw [poll_absent found]
      exact inductionHypothesis.append (by simp [found])
    | some version =>
      by_cases load : (after polls).MustLoad version
      · have member : seen ∈ polls ++ [seen] := by simp
        cases opens : seen.opens with
        | true =>
          rw [poll_loads found load, opens]
          exact .parsed seen member version found rfl rfl
        | false =>
          by_cases same : (after polls).parsed = some version.contents
          · rw [poll_loads found load, opens]
            exact .parsed seen member version found rfl same
          · have missed : (after polls).Missed seen version := ⟨found, load, opens, same⟩
            rw [poll_missed missed]
            exact .missed polls seen [] rfl version missed (by simp [Unchanged]) rfl
      · rw [poll_known found load]
        refine inductionHypothesis.append fun other seenOther => ?_
        rwa [Option.some.inj (seenOther.symm.trans found)]

theorem current_of_staysClosed {polls : List (FilePoll Time Contents)} (timed : Timed polls)
    (closed : StaysClosed polls) : Current polls := by
  intro front seen initial version found opened
  have earlier : front <+: polls := (List.prefix_append _ _).trans initial
  rw [after_append, List.foldl_cons, List.foldl_nil]
  by_cases load : (after front).MustLoad version
  · rw [poll_loads found load, if_pos opened]
  · rw [poll_known found load]
    rw [mustLoad_iff, not_or, not_not] at load
    cases accounted_after front with
    | nothing first => exact absurd first load.1
    | parsed other member older seenOlder stored contents =>
      have same : version.time = older.time := Option.some.inj (load.2.symm.trans stored)
      rw [contents, timed seen (initial.subset (by simp)) other (earlier.subset member) version
        found older seenOlder same]
    | missed begun other middle split older missed unchanged stored =>
      have same : version.time = older.time := Option.some.inj (load.2.symm.trans stored)
      have shut := closed begun other middle seen (split ▸ initial) older missed unchanged version
        found same
      rw [shut] at opened
      cases opened

theorem staysClosed_of_current {polls : List (FilePoll Time Contents)} (timed : Timed polls)
    (current : Current polls) : StaysClosed polls := by
  intro front seen middle later initial version missed unchanged again found same
  by_contra opened
  rw [Bool.not_eq_false] at opened
  have parsed := current (front ++ seen :: middle) later initial again found opened
  have kept : Unchanged version.time (middle ++ [later]) := by
    intro between member other seenOther
    obtain earlier | last := List.mem_append.mp member
    · exact unchanged between earlier other seenOther
    · rw [List.mem_singleton.mp last] at seenOther
      rw [Option.some.inj (seenOther.symm.trans found), same]
  rw [List.append_assoc, List.cons_append, after_append, List.foldl_cons, poll_missed missed,
    foldl_unchanged kept] at parsed
  have sameContents : again.contents = version.contents :=
    timed later (initial.subset (by simp)) seen (initial.subset (by simp)) again found version
      missed.found same
  exact missed.new (sameContents ▸ parsed)

/-- In every sequence of polls in which contents and times go together, no update is lost exactly
when no version is missed by the first poll that sees it and could be opened by a later one. -/
theorem updates_parsed_iff (polls : List (FilePoll Time Contents)) (timed : Timed polls) :
    Current polls ↔ StaysClosed polls :=
  ⟨staysClosed_of_current timed, current_of_staysClosed timed⟩

/-- A version is loaded, the next one cannot be opened as long as it is there, and then the file
is gone. -/
theorem updates_parsed_unopened :
    Current ([⟨some ⟨0, 7⟩, true⟩, ⟨some ⟨1, 8⟩, false⟩, ⟨some ⟨1, 8⟩, false⟩, ⟨none, true⟩] :
      List (FilePoll Nat Nat)) := by
  refine (updates_parsed_iff _ (by simp [Timed])).mpr ?_
  rintro front seen middle later ⟨back, split⟩ version - - again found -
  -- Only the first poll can open a file, and it is not a later one.
  have member : later ∈ ([⟨some ⟨1, 8⟩, false⟩, ⟨some ⟨1, 8⟩, false⟩, ⟨none, true⟩] :
      List (FilePoll Nat Nat)) := by
    cases front with
    | nil => rw [← (List.cons.inj split).2]; simp
    | cons first front => rw [← (List.cons.inj split).2]; simp
  simp only [List.mem_cons, List.not_mem_nil, or_false] at member
  obtain rfl | rfl | rfl := member
  · rfl
  · rfl
  · cases found

/-- The file cannot be opened by the first poll and can by the second: it is not parsed. -/
theorem unopened_update_lost :
    Timed ([⟨some ⟨0, 7⟩, false⟩, ⟨some ⟨0, 7⟩, true⟩] : List (FilePoll Nat Nat)) ∧
      ¬ Current ([⟨some ⟨0, 7⟩, false⟩, ⟨some ⟨0, 7⟩, true⟩] : List (FilePoll Nat Nat)) := by
  refine ⟨by simp [Timed], fun current => ?_⟩
  have parsed := current [⟨some ⟨0, 7⟩, false⟩] ⟨some ⟨0, 7⟩, true⟩ List.prefix_rfl ⟨0, 7⟩ rfl rfl
  cases parsed

end WatchMemory

end SocketC
