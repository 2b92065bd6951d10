/-
This file states what `process_json_commands` is for: the commands it issues for a
document are the difference between the document and the one before, key by key in
the order of the source, and the points of interest on top. The difference is
defined here on its own, from the two documents alone. For a sequence of documents
that are all processed to the end, each is compared with its predecessor, so what
happens to one key does not depend on any other, and a document that is read again
changes nothing.

The two requests that a flag triggers should be sent for an integer other than zero.
The code sends them for what `get<int>` does not turn into zero. So it leaves out the
multiples of 2^32, and sends the request for `true` and for fractions like 1.5. The
sections issue exactly the difference when no flag changes to such a value.
-/

import SocketC.CommandRepeats

namespace SocketC

open Json (TypeError IntConversion)

/-! ### The difference of two documents -/

/-- The value differs from what the key had in the document before, if there is one. -/
def Differs (before : Option Json) (name : String) (value : Json) : Bool :=
  match before with
  | none => false
  | some doc =>
    match doc.lookup name with
    | none => true
    | some old => !value.equals old

/-- A condition on the value of a key. -/
abbrev Guard := Key → Json → Bool

/-- The guard of a key: what its value must be for the command to be issued. -/
def Key.guard : Guard
  | .resetCraieConfig, value | .startPairingTablet, value => value.isNonzeroInteger
  | .textSummary, value => (value.lookup "text").isSome && (value.lookup "seat_id").isSome
  | .image, value => value.isString
  | .drivingState, _ | .tabletDisplayMode, _ | .llm, _ => true

/-- The name of a key; the points of interest have no key that triggers them. -/
def tagName : Option Key → String
  | some key => key.name
  | none => "poi_list"

/-- The key of a flag. -/
def Key.IsFlag (key : Key) : Prop := key = .resetCraieConfig ∨ key = .startPairingTablet

/-- The key is in the document, differs from the document before and passes the condition. -/
def Wanted (guard : Guard) (before : Option Json) (doc : Json) (key : Key) : Prop :=
  ∃ value, doc.lookup key.name = some value ∧ Differs before key.name value = true ∧
    guard key value = true

theorem wanted_congr_guard {guard other : Guard} {before : Option Json} {doc : Json} {key : Key}
    (same : ∀ value, doc.lookup key.name = some value → Differs before key.name value = true →
      guard key value = other key value) :
    Wanted guard before doc key ↔ Wanted other before doc key := by
  constructor
  · rintro ⟨value, lookup, differs, guarded⟩
    exact ⟨value, lookup, differs, same value lookup differs ▸ guarded⟩
  · rintro ⟨value, lookup, differs, guarded⟩
    exact ⟨value, lookup, differs, (same value lookup differs).symm ▸ guarded⟩

/-! ### The document before -/

/-- The document that the state remembers. -/
def CommandState.remembered (state : CommandState) : Option Json :=
  if state.hasPrevious then some state.previousState else none

theorem jsonChanged_eq_differs {state : CommandState} {doc value : Json} {name : String}
    (found : doc.lookup name = some value) :
    jsonChanged state doc name = Differs state.remembered name value := by
  unfold jsonChanged CommandState.remembered Differs
  cases state.hasPrevious with
  | false => rfl
  | true =>
    simp only [if_true, found]
    cases state.previousState.lookup name <;> rfl

/-- The document before the one at an index. -/
def documentBefore (docs : List Json) : Nat → Option Json
  | 0 => none
  | i + 1 => docs[i]?

theorem documentBefore_map (docs : List Json) (i : Nat) {Value : Type} (view : Json → Value) :
    (documentBefore docs i).map view = match i with
      | 0 => none
      | i + 1 => docs[i]?.map view := by
  cases i <;> rfl

/-- The key is in the document, and absent from the one before or different there. -/
theorem wanted_documentBefore_iff (guard : Guard) (docs : List Json) (i : Nat) (doc : Json)
    (key : Key) :
    Wanted guard (documentBefore docs i) doc key ↔
      1 ≤ i ∧ ∃ before value, docs[i - 1]? = some before ∧ doc.lookup key.name = some value ∧
        (before.lookup key.name = none ∨
          ∃ old, before.lookup key.name = some old ∧ value.equals old = false) ∧
        guard key value = true := by
  have differs_iff : ∀ before value, Differs (some before) key.name value = true ↔
      before.lookup key.name = none ∨
        ∃ old, before.lookup key.name = some old ∧ value.equals old = false := by
    intro before value
    simp only [Differs]
    cases before.lookup key.name with
    | none => exact iff_of_true rfl (Or.inl rfl)
    | some old => simp only [Bool.not_eq_true', reduceCtorEq, Option.some.injEq,
        exists_eq_left', false_or]
  cases i with
  | zero => exact iff_of_false (fun ⟨_, _, differs, _⟩ => nomatch differs) nofun
  | succ i =>
    rw [Nat.add_sub_cancel]
    constructor
    · rintro ⟨value, lookup, differs, guarded⟩
      cases found : docs[i]? with
      | none =>
        rw [documentBefore, found] at differs
        cases differs
      | some before =>
        rw [documentBefore, found] at differs
        exact ⟨Nat.succ_pos i, before, value, rfl, lookup, (differs_iff before value).mp differs,
          guarded⟩
    · rintro ⟨-, before, value, found, lookup, differs, guarded⟩
      refine ⟨value, lookup, ?_, guarded⟩
      rw [documentBefore, found]
      exact (differs_iff before value).mpr differs

/-! ### The commands of a document -/

/-- The commands of one key, among those for distinct keys. -/
theorem filter_filterMap_key {issue : Option Key → Option Command}
    (own : ∀ tag command, issue tag = some command → command.key = tag) (tag : Option Key)
    {tags : List (Option Key)} (distinct : tags.Nodup) :
    (tags.filterMap issue).filter (·.key = tag) =
      if tag ∈ tags then (issue tag).toList else [] := by
  induction tags with
  | nil => rfl
  | cons first rest inductionHypothesis =>
    obtain ⟨fresh, distinctRest⟩ := List.nodup_cons.mp distinct
    have later := inductionHypothesis distinctRest
    by_cases same : first = tag
    · subst same
      rw [if_neg fresh] at later
      rw [if_pos List.mem_cons_self]
      cases issued : issue first with
      | none => rw [List.filterMap_cons_none issued, later]; rfl
      | some command =>
        rw [List.filterMap_cons_some issued, List.filter_cons,
          if_pos (decide_eq_true (own first command issued)), later]
        rfl
    · have skip : tag ∈ first :: rest ↔ tag ∈ rest := by
        rw [List.mem_cons]
        exact or_iff_right (Ne.symm same)
      simp only [skip]
      cases issued : issue first with
      | none => rw [List.filterMap_cons_none issued, later]
      | some command =>
        have other : ¬ decide (command.key = tag) = true := by
          rw [own first command issued, decide_eq_true_eq]
          exact same
        rw [List.filterMap_cons_some issued, List.filter_cons, if_neg other, later]

section Differences

variable [IntConversion]

/-- What the code tests of the value, in place of the guard. -/
def Key.test : Guard
  | .resetCraieConfig, value | .startPairingTablet, value =>
    match value.getInt with
    | .ok v => v ≠ 0
    | .error _ => false
  | .textSummary, value => (value.lookup "text").isSome && (value.lookup "seat_id").isSome
  | .image, value => value.isString
  | .drivingState, _ | .tabletDisplayMode, _ | .llm, _ => true

/-- The command of a key with this value; nothing for a value of the wrong type. -/
def Key.command : Key → Json → Option Command
  | .drivingState, value => value.getInt.toOption.map .setDrivingState
  | .resetCraieConfig, _ => some .resetCraieConfig
  | .startPairingTablet, _ => some .startPairingTablet
  | .tabletDisplayMode, value => value.getInt.toOption.map .requestEvent
  | .textSummary, value => do
    let text ← value.lookup "text"
    let seatId ← value.lookup "seat_id"
    return .pushSummary (← text.getString.toOption) (← seatId.getInt.toOption)
  | .image, value => value.getString.toOption.map fun path => .pushImage (imageName path) path
  | .llm, value => some (.pushLlm value)

/-- The command for one key of a document. -/
def diffCommand (guard : Guard) (before : Option Json) (doc : Json) (tag : Option Key) :
    Option Command := do
  let value ← doc.lookup (tagName tag)
  match tag with
  | none => return .pushPoi value
  | some key => if Differs before key.name value && guard key value then key.command value else none

/-- The commands for a document. -/
def diffCommands (guard : Guard) (before : Option Json) (doc : Json) : List Command :=
  commandKeys.filterMap (diffCommand guard before doc)

theorem Key.key_command {key : Key} {value : Json} {command : Command}
    (issued : key.command value = some command) : command.key = some key := by
  cases key with
  | drivingState | tabletDisplayMode | image =>
    obtain ⟨v, -, rfl⟩ := Option.map_eq_some_iff.mp issued
    rfl
  | resetCraieConfig | startPairingTablet | llm =>
    cases issued
    rfl
  | textSummary =>
    simp only [Key.command, Option.bind_eq_bind, Option.bind_eq_some_iff] at issued
    obtain ⟨text, -, seatId, -, summary, -, seat, -, same⟩ := issued
    cases same
    rfl

theorem key_diffCommand {guard : Guard} {before : Option Json} {doc : Json} {tag : Option Key}
    {command : Command} (issued : diffCommand guard before doc tag = some command) :
    command.key = tag := by
  obtain ⟨value, -, issued⟩ := Option.bind_eq_some_iff.mp issued
  cases tag with
  | none =>
    cases issued
    rfl
  | some key =>
    simp only [Option.ite_none_right_eq_some] at issued
    exact Key.key_command issued.2

/-! ### A section issues its part of the difference -/

/-- What the code behind a changed key returns, if it returns: the command when its test holds,
and else nothing. -/
def Emits (key : Key) (value : Json) (result : Except TypeError (List Command)) : Prop :=
  ∀ commands, result = .ok commands →
    (key.test value = true ∧ ∃ command, key.command value = some command ∧ commands = [command]) ∨
      (key.test value = false ∧ commands = [])

/-- A section that issues one command for every number. -/
theorem emits_number {key : Key} {value : Json} {command : Int → Command}
    (unguarded : key.test value = true)
    (own : key.command value = value.getInt.toOption.map command) :
    Emits key value (do let v ← value.getInt; return [command v]) := by
  intro commands returned
  refine Or.inl ⟨unguarded, ?_⟩
  cases converted : value.getInt with
  | error error =>
    rw [converted] at returned
    cases returned
  | ok v =>
    rw [converted] at returned own
    cases returned
    exact ⟨command v, own, rfl⟩

/-- A section that issues its command for every number but zero. -/
theorem emits_flag {key : Key} {value : Json} {command : Command}
    (guarded : ∀ v, value.getInt = .ok v → key.test value = decide (v ≠ 0))
    (own : key.command value = some command) :
    Emits key value (do let v ← value.getInt; return if v ≠ 0 then [command] else []) := by
  intro commands returned
  cases converted : value.getInt with
  | error error =>
    rw [converted] at returned
    cases returned
  | ok v =>
    rw [converted] at returned
    rw [guarded v converted]
    cases returned
    by_cases zero : v = 0
    · exact Or.inr ⟨by simp only [zero, ne_eq, not_true, decide_false], if_neg (not_not.mpr zero)⟩
    · exact Or.inl ⟨decide_eq_true zero, command, own, if_pos zero⟩

theorem Key.IsFlag.test_eq {key : Key} (flag : key.IsFlag) {value : Json} {v : Int}
    (converted : value.getInt = .ok v) : key.test value = decide (v ≠ 0) := by
  rcases flag with rfl | rfl
  · simp only [Key.test, converted]
  · simp only [Key.test, converted]

theorem emits_pushSummary (value : Json) : Emits .textSummary value (pushSummary value) := by
  intro commands returned
  unfold pushSummary at returned
  simp only [Key.test, Key.command]
  cases foundText : value.lookup "text" with
  | none =>
    rw [foundText] at returned
    cases returned
    exact Or.inr ⟨rfl, rfl⟩
  | some text =>
    cases foundSeat : value.lookup "seat_id" with
    | none =>
      rw [foundText, foundSeat] at returned
      cases returned
      exact Or.inr ⟨rfl, rfl⟩
    | some seatId =>
      rw [foundText, foundSeat] at returned
      refine Or.inl ⟨rfl, ?_⟩
      cases string : text.getString with
      | error error =>
        simp only [string] at returned
        cases returned
      | ok summary =>
        cases number : seatId.getInt with
        | error error =>
          simp only [string, number] at returned
          cases returned
        | ok seat =>
          simp only [string, number] at returned
          cases returned
          exact ⟨_, by simp only [Option.bind_eq_bind, Option.bind_some, string, number]; rfl, rfl⟩

theorem emits_pushImage (value : Json) : Emits .image value (pushImage value) := by
  intro commands returned
  cases value with
  | string path =>
    cases returned
    exact Or.inl ⟨rfl, _, rfl, rfl⟩
  | null | boolean | numberUnsigned | numberInteger | numberFloat | array | object =>
    cases returned
    exact Or.inr ⟨rfl, rfl⟩

theorem emits_pushLlm (value : Json) : Emits .llm value (.ok [.pushLlm value]) := by
  intro commands returned
  cases returned
  exact Or.inl ⟨rfl, _, rfl, rfl⟩

/-- A section that returns has issued its part of the difference, and nothing is missing from it
because of a value of the wrong type. -/
def SectionDiffers (part : CommandSection) (tag : Option Key) : Prop :=
  ∀ state doc commands, part state doc = .ok commands →
    commands = (diffCommand Key.test state.remembered doc tag).toList ∧
      ∀ key, tag = some key → Wanted Key.test state.remembered doc key →
        (diffCommand Key.test state.remembered doc tag).isSome

theorem diffCommand_of_found {guard : Guard} {before : Option Json} {doc value : Json} {key : Key}
    (found : doc.lookup key.name = some value) :
    diffCommand guard before doc (some key) =
      if Differs before key.name value && guard key value then key.command value else none := by
  simp only [diffCommand, tagName, found, Option.bind_eq_bind, Option.bind_some]

theorem diffCommand_of_absent {guard : Guard} {before : Option Json} {doc : Json}
    {tag : Option Key} (absent : doc.lookup (tagName tag) = none) :
    diffCommand guard before doc tag = none := by
  simp only [diffCommand, absent, Option.bind_eq_bind, Option.bind_none]

theorem sectionDiffers_changeSection {key : Key} {emit : Json → Except TypeError (List Command)}
    (emits : ∀ value, Emits key value (emit value)) :
    SectionDiffers (changeSection key emit) (some key) := by
  intro state doc commands returned
  unfold changeSection at returned
  cases found : doc.lookup key.name with
  | none =>
    rw [found] at returned
    refine ⟨?_, ?_⟩
    · rw [diffCommand_of_absent found]
      split at returned <;> exact (Except.ok.inj returned).symm
    · rintro _ ⟨⟩ ⟨value, present, -⟩
      exact absurd (found.symm.trans present) nofun
  | some value =>
    rw [found, jsonChanged_eq_differs found] at returned
    rw [diffCommand_of_found found]
    cases differs : Differs state.remembered key.name value with
    | false =>
      rw [differs] at returned
      refine ⟨(Except.ok.inj returned).symm, ?_⟩
      rintro _ ⟨⟩ ⟨other, present, changed, -⟩
      rw [found, Option.some.injEq] at present
      rw [← present, differs] at changed
      cases changed
    | true =>
      rw [differs] at returned
      rcases emits value commands returned with
        ⟨guarded, command, own, rfl⟩ | ⟨unguarded, rfl⟩
      · rw [guarded, own]
        exact ⟨rfl, fun _ _ _ => rfl⟩
      · rw [unguarded]
        refine ⟨rfl, ?_⟩
        rintro _ ⟨⟩ ⟨other, present, -, guarded⟩
        rw [found, Option.some.injEq] at present
        rw [← present, unguarded] at guarded
        cases guarded

theorem sectionDiffers_poiListSection : SectionDiffers poiListSection none := by
  intro state doc commands returned
  refine ⟨?_, nofun⟩
  unfold poiListSection at returned
  cases found : doc.lookup "poi_list" with
  | none =>
    rw [found] at returned
    rw [diffCommand_of_absent found]
    exact (Except.ok.inj returned).symm
  | some value =>
    rw [found] at returned
    cases returned
    simp only [diffCommand, tagName, found, Option.bind_eq_bind, Option.bind_some]
    rfl

theorem sections_differ : List.Forall₂ SectionDiffers commandSections commandKeys := by
  refine .cons (sectionDiffers_changeSection fun _ => emits_number rfl rfl) <|
    .cons sectionDiffers_poiListSection <|
    .cons (sectionDiffers_changeSection fun _ =>
      emits_flag (fun _ => Key.IsFlag.test_eq (Or.inl rfl)) rfl) <|
    .cons (sectionDiffers_changeSection fun _ =>
      emits_flag (fun _ => Key.IsFlag.test_eq (Or.inr rfl)) rfl) <|
    .cons (sectionDiffers_changeSection fun _ => emits_number rfl rfl) <|
    .cons (sectionDiffers_changeSection emits_pushSummary) <|
    .cons (sectionDiffers_changeSection emits_pushImage) <|
    .cons (sectionDiffers_changeSection emits_pushLlm) .nil

/-! ### A document that is processed to the end issues the difference -/

theorem runSections_differ {parts : List CommandSection} {tags : List (Option Key)}
    (differ : List.Forall₂ SectionDiffers parts tags) (state : CommandState) (doc : Json)
    (completed : (runSections state doc parts).2 = none) :
    (runSections state doc parts).1 = tags.filterMap (diffCommand Key.test state.remembered doc) ∧
      ∀ key, some key ∈ tags → Wanted Key.test state.remembered doc key →
        (diffCommand Key.test state.remembered doc (some key)).isSome := by
  induction differ with
  | nil => exact ⟨rfl, nofun⟩
  | @cons part tag parts tags sectionDiffers rest inductionHypothesis =>
    cases returned : part state doc with
    | error error =>
      simp only [runSections, returned] at completed
      cases completed
    | ok commands =>
      simp only [runSections, returned] at completed ⊢
      obtain ⟨own, present⟩ := sectionDiffers state doc commands returned
      obtain ⟨later, laterPresent⟩ := inductionHypothesis completed
      refine ⟨?_, fun key member wanted => ?_⟩
      · rw [later, own]
        cases issued : diffCommand Key.test state.remembered doc tag with
        | none => rw [List.filterMap_cons_none issued]; rfl
        | some command => rw [List.filterMap_cons_some issued]; rfl
      · rcases List.mem_cons.mp member with first | behind
        · exact first ▸ present key first.symm wanted
        · exact laterPresent key behind wanted

theorem commands_eq_diff {state : CommandState} {doc : Json}
    (completed : (processJsonCommands state doc).error = none) :
    (processJsonCommands state doc).commands = diffCommands Key.test state.remembered doc := by
  rw [error_processJsonCommands] at completed
  rw [commands_processJsonCommands]
  exact (runSections_differ sections_differ state doc completed).1

theorem issues_iff_wanted {state : CommandState} {doc : Json}
    (completed : (processJsonCommands state doc).error = none) (key : Key) :
    Issues state doc key ↔ Wanted Key.test state.remembered doc key := by
  have issued := commands_eq_diff completed
  rw [error_processJsonCommands] at completed
  have present := (runSections_differ sections_differ state doc completed).2
  constructor
  · rintro ⟨command, member, keyed⟩
    rw [issued, diffCommands, List.mem_filterMap] at member
    obtain ⟨tag, -, found⟩ := member
    have own := key_diffCommand found
    rw [keyed] at own
    obtain ⟨value, lookup, guarded⟩ := Option.bind_eq_some_iff.mp (own ▸ found)
    simp only [Option.ite_none_right_eq_some, Bool.and_eq_true] at guarded
    exact ⟨value, lookup, guarded.1⟩
  · intro wanted
    obtain ⟨command, found⟩ :=
      Option.isSome_iff_exists.mp (present key (mem_commandKeys key) wanted)
    refine ⟨command, ?_, key_diffCommand found⟩
    rw [issued]
    exact List.mem_filterMap.mpr ⟨some key, mem_commandKeys key, found⟩

/-! ### Sequences of documents -/

/-- Every document of the sequence is processed without an exception. -/
def AllComplete (docs : List Json) : Prop :=
  ∀ i doc, docs[i]? = some doc →
    (processJsonCommands (stateAfter (docs.take i)) doc).error = none

/-- The commands issued while the document at an index is processed. -/
def commandsAt (docs : List Json) (i : Nat) : List Command :=
  match docs[i]? with
  | some doc => (processJsonCommands (stateAfter (docs.take i)) doc).commands
  | none => []

/-- In a sequence of documents that are all processed to the end, each finds the one before it
remembered. -/
theorem AllComplete.remembered {docs : List Json} (complete : AllComplete docs) {i : Nat}
    (within : i ≤ docs.length) :
    (stateAfter (docs.take i)).remembered = documentBefore docs i := by
  cases i with
  | zero => rfl
  | succ i =>
    have found : docs[i]? = some docs[i] := List.getElem?_eq_getElem within
    rw [stateAfter_take_succ found, state_of_completed (complete i _ found), documentBefore, found]
    rfl

theorem commandsAt_of_found {docs : List Json} {i : Nat} {doc : Json}
    (found : docs[i]? = some doc) :
    commandsAt docs i = (processJsonCommands (stateAfter (docs.take i)) doc).commands := by
  simp only [commandsAt, found]

theorem AllComplete.commandsAt_eq {docs : List Json} (complete : AllComplete docs) {i : Nat}
    {doc : Json} (found : docs[i]? = some doc) :
    commandsAt docs i = diffCommands Key.test (documentBefore docs i) doc := by
  have within : i < docs.length := (List.getElem?_eq_some_iff.mp found).1
  rw [commandsAt_of_found found, commands_eq_diff (complete i doc found),
    complete.remembered (le_of_lt within)]

theorem AllComplete.issued_iff {docs : List Json} (complete : AllComplete docs) {i : Nat}
    {doc : Json} (found : docs[i]? = some doc) (key : Key) :
    (∃ command ∈ commandsAt docs i, command.key = some key) ↔
      Wanted Key.test (documentBefore docs i) doc key := by
  have within : i < docs.length := (List.getElem?_eq_some_iff.mp found).1
  have issued := issues_iff_wanted (complete i doc found) key
  rw [complete.remembered (le_of_lt within), Issues] at issued
  rw [commandsAt_of_found found, issued]

/-! ### One key at a time -/

theorem filter_diffCommands (guard : Guard) (before : Option Json) (doc : Json)
    (tag : Option Key) :
    (diffCommands guard before doc).filter (·.key = tag) =
      (diffCommand guard before doc tag).toList := by
  have distinct : commandKeys.Nodup := by decide
  have member : tag ∈ commandKeys := by
    cases tag with
    | none => decide
    | some key => exact mem_commandKeys key
  rw [diffCommands, filter_filterMap_key (fun _ _ => key_diffCommand) tag distinct, if_pos member]

/-- The command of a key depends on nothing but the key in the two documents. -/
theorem diffCommand_congr {guard : Guard} {before otherBefore : Option Json} {doc other : Json}
    {tag : Option Key}
    (sameBefore : before.map (·.lookup (tagName tag)) = otherBefore.map (·.lookup (tagName tag)))
    (same : doc.lookup (tagName tag) = other.lookup (tagName tag)) :
    diffCommand guard before doc tag = diffCommand guard otherBefore other tag := by
  have differs : ∀ value,
      Differs before (tagName tag) value = Differs otherBefore (tagName tag) value := by
    intro value
    unfold Differs
    cases before with
    | none =>
      cases otherBefore with
      | none => rfl
      | some _ => cases sameBefore
    | some before =>
      cases otherBefore with
      | none => cases sameBefore
      | some otherBefore =>
        simp only [Option.map_some, Option.some.injEq] at sameBefore
        simp only [sameBefore]
  cases tag with
  | none => simp only [diffCommand, same]
  | some key =>
    simp only [tagName] at differs
    simp only [diffCommand, same, differs]

/-- Two sequences that agree on a key issue the same commands of that key. -/
theorem AllComplete.agree {docs others : List Json} (complete : AllComplete docs)
    (othersComplete : AllComplete others) {tag : Option Key}
    (agree : ∀ i : Nat, docs[i]?.map (·.lookup (tagName tag)) =
      others[i]?.map (·.lookup (tagName tag))) (i : Nat) :
    (commandsAt docs i).filter (·.key = tag) = (commandsAt others i).filter (·.key = tag) := by
  have here := agree i
  have before : (documentBefore docs i).map (·.lookup (tagName tag)) =
      (documentBefore others i).map (·.lookup (tagName tag)) := by
    rw [documentBefore_map, documentBefore_map]
    cases i with
    | zero => rfl
    | succ i => exact agree i
  cases found : docs[i]? with
  | none =>
    rw [found, Option.map_none, eq_comm, Option.map_eq_none_iff] at here
    simp only [commandsAt, found, here]
  | some doc =>
    rw [found, Option.map_some, eq_comm, Option.map_eq_some_iff] at here
    obtain ⟨other, foundOther, same⟩ := here
    rw [complete.commandsAt_eq found, othersComplete.commandsAt_eq foundOther,
      filter_diffCommands, filter_diffCommands, diffCommand_congr before same.symm]

/-- A document does not differ from itself. -/
theorem diffCommands_self (guard : Guard) (doc : Json) :
    diffCommands guard (some doc) doc = (doc.lookup "poi_list").toList.map .pushPoi := by
  have silent : ∀ key, diffCommand guard (some doc) doc (some key) = none := by
    intro key
    cases found : doc.lookup key.name with
    | none => exact diffCommand_of_absent found
    | some value =>
      rw [diffCommand_of_found found]
      simp only [Differs, found, Json.equals_self, Bool.not_true, Bool.false_and,
        Bool.false_eq_true, if_false]
  have push : diffCommand guard (some doc) doc none = (doc.lookup "poi_list").map .pushPoi := by
    simp only [diffCommand, tagName]
    cases doc.lookup "poi_list" <;> rfl
  simp only [diffCommands, commandKeys, List.filterMap_cons, silent, push, List.filterMap_nil]
  cases doc.lookup "poi_list" <;> rfl

/-! ### The flags -/

/-- Where the flags change, they change to values that the code reads as what they are. -/
def PlainFlags (docs : List Json) : Prop :=
  ∀ i doc, docs[i]? = some doc → ∀ key : Key, key.IsFlag → ∀ value,
    doc.lookup key.name = some value → Differs (documentBefore docs i) key.name value = true →
    value.Plain

/-- A flag that changes in a document processed to the end is a number or a boolean. -/
theorem AllComplete.converts {docs : List Json} (complete : AllComplete docs) {i : Nat}
    {doc value : Json} (found : docs[i]? = some doc) {key : Key} (flag : key.IsFlag)
    (lookup : doc.lookup key.name = some value)
    (differs : Differs (documentBefore docs i) key.name value = true) :
    ∃ v, value.getInt = .ok v := by
  have within : i < docs.length := (List.getElem?_eq_some_iff.mp found).1
  rw [← complete.remembered (le_of_lt within), ← jsonChanged_eq_differs lookup] at differs
  rcases value.getInt_cases with ⟨-, v, converted⟩ | ⟨mistyped, -⟩
  · exact ⟨v, converted⟩
  · refine absurd ⟨differs, value, lookup, ?_⟩
      ((completes_iff _ doc).mp (complete i doc found) key)
    rcases flag with rfl | rfl
    · exact mistyped
    · exact mistyped

/-- The code's test of a changed flag is the guard exactly when the flag is plain. -/
theorem AllComplete.guard_eq_test_iff {docs : List Json} (complete : AllComplete docs) {i : Nat}
    {doc value : Json} (found : docs[i]? = some doc) {key : Key} (flag : key.IsFlag)
    (lookup : doc.lookup key.name = some value)
    (differs : Differs (documentBefore docs i) key.name value = true) :
    key.guard value = key.test value ↔ value.Plain := by
  obtain ⟨v, converted⟩ := complete.converts found flag lookup differs
  rw [flag.test_eq converted, ← Json.plain_iff converted]
  rcases flag with rfl | rfl
  · rfl
  · rfl

theorem Key.isFlag_or_guard (key : Key) :
    key.IsFlag ∨ ∀ value : Json, key.guard value = key.test value := by
  cases key with
  | resetCraieConfig => exact Or.inl (Or.inl rfl)
  | startPairingTablet => exact Or.inl (Or.inr rfl)
  | drivingState | tabletDisplayMode | textSummary | image | llm => exact Or.inr fun _ => rfl

/-- Where all flags are plain, guard and test are the same for everything that changes. -/
theorem PlainFlags.guard_eq_test {docs : List Json} (plain : PlainFlags docs)
    (complete : AllComplete docs) {i : Nat} {doc value : Json} (found : docs[i]? = some doc)
    {key : Key} (lookup : doc.lookup key.name = some value)
    (differs : Differs (documentBefore docs i) key.name value = true) :
    key.guard value = key.test value := by
  rcases key.isFlag_or_guard with flag | same
  · exact (complete.guard_eq_test_iff found flag lookup differs).mpr
      (plain i doc found key flag value lookup differs)
  · exact same value

theorem diffCommands_congr_guard {guard other : Guard} {before : Option Json} {doc : Json}
    (same : ∀ (key : Key) (value : Json), doc.lookup key.name = some value →
      Differs before key.name value = true → guard key value = other key value) :
    diffCommands guard before doc = diffCommands other before doc := by
  refine List.filterMap_congr fun tag _ => ?_
  cases tag with
  | none => rfl
  | some key =>
    cases found : doc.lookup key.name with
    | none => rw [diffCommand_of_absent found, diffCommand_of_absent found]
    | some value =>
      rw [diffCommand_of_found found, diffCommand_of_found found]
      cases differs : Differs before key.name value with
      | false => rfl
      | true => rw [same key value found differs]

/-- If the commands of the flags are issued as their guards say, the flags that change are
plain. -/
theorem AllComplete.plainFlags {docs : List Json} (complete : AllComplete docs)
    (asGuarded : ∀ i doc, docs[i]? = some doc → ∀ key : Key,
      (∃ command ∈ commandsAt docs i, command.key = some key) ↔
        Wanted Key.guard (documentBefore docs i) doc key) : PlainFlags docs := by
  intro i doc found key flag value lookup differs
  refine (complete.guard_eq_test_iff found flag lookup differs).mp ?_
  have wanted_iff (guard : Guard) :
      Wanted guard (documentBefore docs i) doc key ↔ guard key value = true := by
    constructor
    · rintro ⟨other, present, -, guarded⟩
      rw [lookup, Option.some.injEq] at present
      exact present ▸ guarded
    · exact fun guarded => ⟨value, lookup, differs, guarded⟩
  have same := (asGuarded i doc found key).symm.trans (complete.issued_iff found key)
  rw [wanted_iff, wanted_iff] at same
  exact Bool.eq_iff_iff.mpr same

/-! ### The main result -/

/-- For every sequence of documents processed without an exception: the commands issued for a
document are the difference from the document before, and the command of a key is among them
exactly when there is a document before, the key is in the document, is absent from the one before
or different there, and its guard holds, exactly if the flags that change are plain. In any case,
two such sequences that agree on a key issue the same commands of it at the same documents, and a
document that follows itself issues at most the push of the points of interest. -/
theorem commands_are_diff (docs : List Json) (complete : AllComplete docs) :
    ((∀ i doc, docs[i]? = some doc →
      commandsAt docs i = diffCommands Key.guard (documentBefore docs i) doc ∧
      ∀ key : Key, (∃ command ∈ commandsAt docs i, command.key = some key) ↔
        1 ≤ i ∧ ∃ before value, docs[i - 1]? = some before ∧ doc.lookup key.name = some value ∧
          (before.lookup key.name = none ∨
            ∃ old, before.lookup key.name = some old ∧ value.equals old = false) ∧
          key.guard value = true) ↔ PlainFlags docs) ∧
    (∀ others tag, AllComplete others →
      (∀ i : Nat, docs[i]?.map (·.lookup (tagName tag)) =
        others[i]?.map (·.lookup (tagName tag))) →
      ∀ i, (commandsAt docs i).filter (·.key = tag) =
        (commandsAt others i).filter (·.key = tag)) ∧
    (∀ i doc, docs[i]? = some doc → docs[i + 1]? = some doc →
      commandsAt docs (i + 1) = (doc.lookup "poi_list").toList.map .pushPoi) := by
  refine ⟨⟨fun asGuarded => ?_, fun plain i doc found => ⟨?_, fun key => ?_⟩⟩, ?_, ?_⟩
  · refine complete.plainFlags fun i doc found key => ?_
    rw [(asGuarded i doc found).2 key, wanted_documentBefore_iff]
  · rw [complete.commandsAt_eq found]
    exact diffCommands_congr_guard fun key value lookup differs =>
      (plain.guard_eq_test complete found lookup differs).symm
  · rw [complete.issued_iff found, ← wanted_documentBefore_iff]
    exact wanted_congr_guard fun value lookup differs =>
      (plain.guard_eq_test complete found lookup differs).symm
  · exact fun others tag othersComplete same => complete.agree othersComplete same
  · intro i doc found again
    rw [complete.commandsAt_eq again, documentBefore, found, diffCommands_self]

end Differences

section X86

open scoped Json.X86

/-- A document with a driving state, points of interest and a flag. -/
def touringDoc : Json :=
  .object [("driving_state", .numberUnsigned 2), ("poi_list", .array []),
    ("reset_craie_config", .numberUnsigned 1)]

theorem diffCommands_touring :
    diffCommands Key.guard (some (drivingDoc 1)) touringDoc =
      [.setDrivingState 2, .pushPoi (.array []), .resetCraieConfig] := by
  have driving : diffCommand Key.guard (some (drivingDoc 1)) touringDoc (some .drivingState) =
      some (.setDrivingState 2) := by
    have found : touringDoc.lookup Key.drivingState.name = some (.numberUnsigned 2) := rfl
    rw [diffCommand_of_found found]
    simp [Differs, Key.name, Key.guard, Key.command, drivingDoc, Json.lookup, Json.equals,
      Json.getInt, Json.toInt32, Except.toOption]
  have push : diffCommand Key.guard (some (drivingDoc 1)) touringDoc none =
      some (.pushPoi (.array [])) := rfl
  have reset : diffCommand Key.guard (some (drivingDoc 1)) touringDoc (some .resetCraieConfig) =
      some .resetCraieConfig := rfl
  have silent (key : Key) (noDriving : key ≠ .drivingState) (noReset : key ≠ .resetCraieConfig) :
      diffCommand Key.guard (some (drivingDoc 1)) touringDoc (some key) = none := by
    refine diffCommand_of_absent ?_
    cases key with
    | drivingState => exact absurd rfl noDriving
    | resetCraieConfig => exact absurd rfl noReset
    | _ => rfl
  simp only [diffCommands, commandKeys, List.filterMap_cons, List.filterMap_nil, driving, push,
    reset, silent, ne_eq, reduceCtorEq, not_false_eq_true]

theorem commands_are_diff_touring :
    AllComplete [drivingDoc 1, touringDoc, touringDoc] ∧
      commandsAt [drivingDoc 1, touringDoc, touringDoc] 1 =
        [.setDrivingState 2, .pushPoi (.array []), .resetCraieConfig] ∧
      commandsAt [drivingDoc 1, touringDoc, touringDoc] 2 = [.pushPoi (.array [])] := by
  have complete : AllComplete [drivingDoc 1, touringDoc, touringDoc] := by
    intro i doc found
    match i, found with
    | 0, found => exact Option.some.inj found ▸ rfl
    | 1, found => exact Option.some.inj found ▸ rfl
    | 2, found => exact Option.some.inj found ▸ rfl
  have plain : PlainFlags [drivingDoc 1, touringDoc, touringDoc] := by
    intro i doc found key flag value lookup _
    have member := List.mem_of_getElem? found
    simp only [List.mem_cons, List.not_mem_nil, or_false] at member
    rcases flag with rfl | rfl <;> rcases member with rfl | rfl | rfl <;> cases lookup <;>
      exact Or.inr (by decide)
  have difference := commands_are_diff _ complete
  exact ⟨complete, (difference.1.mpr plain 1 touringDoc rfl).1.trans diffCommands_touring,
    difference.2.2 1 touringDoc rfl rfl⟩

/-- A document with a flag. -/
def resetDoc (value : Json) : Json := .object [("reset_craie_config", value)]

/-- The flag changes to the integer 2^32, and the request is not sent. -/
theorem reset_flag_truncated :
    AllComplete [.object [], resetDoc (.numberUnsigned 4294967296)] ∧
      commandsAt [.object [], resetDoc (.numberUnsigned 4294967296)] 1 = [] ∧
      diffCommands Key.guard (some (.object [])) (resetDoc (.numberUnsigned 4294967296)) =
        [.resetCraieConfig] := by
  refine ⟨?_, rfl, rfl⟩
  intro i doc found
  match i, found with
  | 0, found => exact Option.some.inj found ▸ rfl
  | 1, found => exact Option.some.inj found ▸ rfl

end X86

end SocketC
