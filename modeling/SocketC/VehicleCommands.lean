/-
This file models `process_json_commands` of the vehicle command client,
`main.cpp`. The function goes through eight sections in order. All but the second
compare one key of the document with the document processed before and issue a
command when it has changed; the second pushes the points of interest whenever they
are there. Only at its end does the function remember the document. A conversion
that throws leaves the function, and the watcher catches the exception: what was
issued stays issued, and the document is not remembered.
-/

import SocketC.Json

namespace SocketC

open Json (TypeError IntConversion)

/-! ### Keys and commands -/

/-- The keys whose change triggers a command. -/
inductive Key where
  | drivingState
  | resetCraieConfig
  | startPairingTablet
  | tabletDisplayMode
  | textSummary
  | image
  | llm
  deriving DecidableEq

def Key.name : Key → String
  | .drivingState => "driving_state"
  | .resetCraieConfig => "reset_craie_config"
  | .startPairingTablet => "start_pairing_tablet"
  | .tabletDisplayMode => "tablet_display_mode"
  | .textSummary => "text_summary"
  | .image => "image"
  | .llm => "llm"

/-- A call of the vehicle library. The two pushes of JSON send the text of the value. -/
inductive Command where
  | setDrivingState (value : Int)
  | pushPoi (value : Json)
  | resetCraieConfig
  | startPairingTablet
  | requestEvent (mode : Int)
  | pushSummary (text : String) (seatId : Int)
  | pushImage (name path : String)
  | pushLlm (value : Json)

/-- The key that triggers the command. -/
def Command.key : Command → Option Key
  | .setDrivingState _ => some .drivingState
  | .pushPoi _ => none
  | .resetCraieConfig => some .resetCraieConfig
  | .startPairingTablet => some .startPairingTablet
  | .requestEvent _ => some .tabletDisplayMode
  | .pushSummary _ _ => some .textSummary
  | .pushImage _ _ => some .image
  | .pushLlm _ => some .llm

/-! ### The sections -/

/-- `previousState` and `hasPrevious`. -/
structure CommandState where
  previousState : Json
  hasPrevious : Bool

/-- The state before the first document. -/
def CommandState.start : CommandState := ⟨.null, false⟩

/-- `json_changed`. -/
def jsonChanged (state : CommandState) (doc : Json) (key : String) : Bool :=
  if state.hasPrevious then
    match state.previousState.lookup key, doc.lookup key with
    | none, _ => true
    | some _, none => false
    | some old, some new => !new.equals old
  else false

/-- A section either issues commands or throws. -/
abbrev CommandSection := CommandState → Json → Except TypeError (List Command)

/-- A section that looks at its key when the key has changed. -/
def changeSection (key : Key) (emit : Json → Except TypeError (List Command)) : CommandSection :=
  fun state doc =>
    if jsonChanged state doc key.name then
      match doc.lookup key.name with
      | some value => emit value
      | none => .ok []
    else .ok []

/-- Lines 36-42. -/
def drivingStateSection [IntConversion] : CommandSection :=
  changeSection .drivingState fun value => do
    let v ← value.getInt
    return [.setDrivingState v]

/-- Lines 46-60. -/
def poiListSection : CommandSection := fun _ doc =>
  match doc.lookup "poi_list" with
  | some value => .ok [.pushPoi value]
  | none => .ok []

/-- Lines 64-71. -/
def resetCraieConfigSection [IntConversion] : CommandSection :=
  changeSection .resetCraieConfig fun value => do
    let v ← value.getInt
    return if v ≠ 0 then [.resetCraieConfig] else []

/-- Lines 74-81. -/
def startPairingTabletSection [IntConversion] : CommandSection :=
  changeSection .startPairingTablet fun value => do
    let v ← value.getInt
    return if v ≠ 0 then [.startPairingTablet] else []

/-- Lines 84-90. -/
def tabletDisplayModeSection [IntConversion] : CommandSection :=
  changeSection .tabletDisplayMode fun value => do
    let v ← value.getInt
    return [.requestEvent v]

/-- Lines 98-107, with the value of the key. -/
def pushSummary [IntConversion] (value : Json) : Except TypeError (List Command) :=
  match value.lookup "text", value.lookup "seat_id" with
  | some text, some seatId => do
    let summary ← text.getString
    let seat ← seatId.getInt
    return [.pushSummary summary seat]
  | _, _ => .ok []

/-- Lines 93-109. -/
def textSummarySection [IntConversion] : CommandSection := changeSection .textSummary pushSummary

/-- The part of a path behind its last `/` or `\`. -/
def imageName (path : String) : String :=
  String.ofList (path.toList.reverse.takeWhile fun c => c ≠ '/' ∧ c ≠ '\\').reverse

/-- Lines 114-134, with the value of the key. -/
def pushImage : Json → Except TypeError (List Command)
  | .string path => .ok [.pushImage (imageName path) path]
  | _ => .ok []

/-- Lines 113-136. -/
def imageSection : CommandSection := changeSection .image pushImage

/-- Lines 139-152. -/
def llmSection : CommandSection :=
  changeSection .llm fun value => .ok [.pushLlm value]

/-- The sections in the order of the source. -/
def commandSections [IntConversion] : List CommandSection :=
  [drivingStateSection, poiListSection, resetCraieConfigSection, startPairingTabletSection,
    tabletDisplayModeSection, textSummarySection, imageSection, llmSection]

/-- The keys that trigger the sections, in the same order; the second is not triggered. -/
def commandKeys : List (Option Key) :=
  [some .drivingState, none, some .resetCraieConfig, some .startPairingTablet,
    some .tabletDisplayMode, some .textSummary, some .image, some .llm]

/-! ### Documents -/

/-- The commands issued by the sections up to the first one that throws, and its exception. -/
def runSections (state : CommandState) (doc : Json) :
    List CommandSection → List Command × Option TypeError
  | [] => ([], none)
  | part :: rest =>
    match part state doc with
    | .error error => ([], some error)
    | .ok commands =>
      let later := runSections state doc rest
      (commands ++ later.1, later.2)

/-- What processing a document does. -/
structure Processed where
  commands : List Command
  error : Option TypeError
  state : CommandState

section Sequence

variable [IntConversion]

/-- `process_json_commands`, called by the watcher, which catches what it throws. -/
def processJsonCommands (state : CommandState) (doc : Json) : Processed :=
  match runSections state doc commandSections with
  | (commands, some error) => ⟨commands, some error, state⟩
  | (commands, none) => ⟨commands, none, ⟨doc, true⟩⟩

/-- The state after some documents. -/
def stateAfter (docs : List Json) : CommandState :=
  docs.foldl (fun state doc => (processJsonCommands state doc).state) .start

/-- The command of a key is issued. -/
def Issues (state : CommandState) (doc : Json) (key : Key) : Prop :=
  ∃ command ∈ (processJsonCommands state doc).commands, command.key = some key

instance (state : CommandState) (doc : Json) (key : Key) : Decidable (Issues state doc key) :=
  inferInstanceAs (Decidable (∃ command ∈ _, _ = _))

/-! ### Lemmas -/

theorem stateAfter_snoc (docs : List Json) (doc : Json) :
    stateAfter (docs ++ [doc]) = (processJsonCommands (stateAfter docs) doc).state := by
  rw [stateAfter, List.foldl_append]
  rfl

/-- A document that is processed to the end is remembered. -/
theorem state_of_completed {state : CommandState} {doc : Json}
    (completed : (processJsonCommands state doc).error = none) :
    (processJsonCommands state doc).state = ⟨doc, true⟩ := by
  unfold processJsonCommands at completed ⊢
  split
  · rename_i commands error ran
    rw [ran] at completed
    nomatch completed
  · rfl

/-- A document that throws changes nothing. -/
theorem state_of_thrown {state : CommandState} {doc : Json}
    (thrown : (processJsonCommands state doc).error ≠ none) :
    (processJsonCommands state doc).state = state := by
  unfold processJsonCommands at thrown ⊢
  split
  · rfl
  · rename_i commands ran
    rw [ran] at thrown
    exact absurd rfl thrown

theorem commands_processJsonCommands (state : CommandState) (doc : Json) :
    (processJsonCommands state doc).commands = (runSections state doc commandSections).1 := by
  unfold processJsonCommands
  split <;> rename_i ran <;> rw [ran]

theorem error_processJsonCommands (state : CommandState) (doc : Json) :
    (processJsonCommands state doc).error = (runSections state doc commandSections).2 := by
  unfold processJsonCommands
  split <;> rename_i ran <;> rw [ran]

end Sequence

end SocketC
