/-
This file says what the sections of `process_json_commands` do, in terms of the
document and the one remembered: for which values a section throws, for which it
issues its command, and from that, by going through the sections in order, which
documents are processed to the end and which commands a document issues.
-/

import SocketC.VehicleCommands

namespace SocketC

open Json (TypeError IntConversion)

/-! ### The order of the sections -/

/-- The keys of the sections before the one of a key. -/
def tagsBefore (tags : List (Option Key)) (key : Key) : List (Option Key) :=
  tags.takeWhile (· ≠ some key)

theorem tagsBefore_cons_self (tags : List (Option Key)) (key : Key) :
    tagsBefore (some key :: tags) key = [] := by
  simp only [tagsBefore, List.takeWhile_cons, ne_eq, not_true, decide_false, Bool.false_eq_true,
    if_false]

theorem tagsBefore_cons_of_ne {tag : Option Key} {key : Key} (different : tag ≠ some key)
    (tags : List (Option Key)) :
    tagsBefore (tag :: tags) key = tag :: tagsBefore tags key := by
  simp only [tagsBefore, List.takeWhile_cons, ne_eq, different, not_false_eq_true, decide_true,
    if_true]

/-- The section of one key stands before that of another. -/
def Key.Before (other key : Key) : Prop := some other ∈ tagsBefore commandKeys key

instance (other key : Key) : Decidable (other.Before key) :=
  inferInstanceAs (Decidable (some other ∈ tagsBefore commandKeys key))

theorem mem_commandKeys (key : Key) : some key ∈ commandKeys := by
  cases key <;> decide

/-- Of two keys one stands before the other. -/
theorem Key.before_or_before {other key : Key} (different : other ≠ key) :
    other.Before key ∨ key.Before other := by
  cases other <;> cases key <;> first | exact absurd rfl different | decide

/-! ### Which sections throw and which issue a command -/

/-- A value for which the section of the key throws. -/
def Key.Mistyped : Key → Json → Prop
  | .drivingState, value | .resetCraieConfig, value | .startPairingTablet, value
  | .tabletDisplayMode, value => value.isNumeric = false
  | .textSummary, value => ∃ text seatId, value.lookup "text" = some text ∧
      value.lookup "seat_id" = some seatId ∧ (text.isString = false ∨ seatId.isNumeric = false)
  | .image, _ | .llm, _ => False

/-- The key has changed, to a value of the wrong type. -/
def Throws (state : CommandState) (doc : Json) (key : Key) : Prop :=
  jsonChanged state doc key.name = true ∧ ∃ value, doc.lookup key.name = some value ∧
    key.Mistyped value

/-- A result that is an exception for the bad values, and else commands of the key, some exactly
for the good values. -/
def Follows (key : Key) (result : Except TypeError (List Command)) (Bad Good : Prop) : Prop :=
  (Bad ∧ ∃ error, result = .error error) ∨
    (¬ Bad ∧ ∃ commands, result = .ok commands ∧ (∀ command ∈ commands, command.key = some key) ∧
      (commands ≠ [] ↔ Good))

theorem follows_silent {key : Key} {Bad Good : Prop} (harmless : ¬ Bad) (useless : ¬ Good) :
    Follows key (.ok []) Bad Good :=
  Or.inr ⟨harmless, [], rfl, nofun, iff_of_false (absurd rfl) useless⟩

theorem follows_single {key : Key} {command : Command} {Bad Good : Prop} (harmless : ¬ Bad)
    (useful : Good) (own : command.key = some key) : Follows key (.ok [command]) Bad Good := by
  refine Or.inr ⟨harmless, [command], rfl, fun other member => ?_, iff_of_true nofun useful⟩
  rw [List.mem_singleton.mp member, own]

variable [IntConversion]

/-- A value for which the section of the key issues its command. -/
def Key.Sendable : Key → Json → Prop
  | .drivingState, value | .tabletDisplayMode, value => value.isNumeric = true
  | .resetCraieConfig, value | .startPairingTablet, value => ∃ v, value.getInt = .ok v ∧ v ≠ 0
  | .textSummary, value => ∃ text seatId, value.lookup "text" = some text ∧
      value.lookup "seat_id" = some seatId ∧ text.isString = true ∧ seatId.isNumeric = true
  | .image, value => value.isString = true
  | .llm, _ => True

/-- The key has changed, to a value that its command is issued for. -/
def Sends (state : CommandState) (doc : Json) (key : Key) : Prop :=
  jsonChanged state doc key.name = true ∧ ∃ value, doc.lookup key.name = some value ∧
    key.Sendable value

/-- A section whose value is converted to `int` first. -/
theorem follows_getInt {key : Key} {value : Json} {emit : Int → List Command} {Good : Prop}
    (emits : ∀ v, value.isNumeric = true → value.getInt = .ok v →
      Follows key (.ok (emit v)) (value.isNumeric = false) Good) :
    Follows key (do let v ← value.getInt; return emit v) (value.isNumeric = false) Good := by
  rcases value.getInt_cases with ⟨numeric, v, converted⟩ | ⟨mistyped, error, thrown⟩
  · rw [converted]
    exact emits v numeric converted
  · rw [thrown]
    exact Or.inl ⟨mistyped, error, rfl⟩

/-- A section that issues one command for every number. -/
theorem follows_number {key : Key} {value : Json} {command : Int → Command}
    (own : ∀ v, (command v).key = some key) :
    Follows key (do let v ← value.getInt; return [command v]) (value.isNumeric = false)
      (value.isNumeric = true) := by
  refine follows_getInt fun v numeric _ => follows_single ?_ numeric (own v)
  rw [numeric]
  nofun

/-- A section that issues its command for every number but zero. -/
theorem follows_flag {key : Key} {value : Json} {command : Command}
    (own : command.key = some key) :
    Follows key (do let v ← value.getInt; return if v ≠ 0 then [command] else [])
      (value.isNumeric = false) (∃ v, value.getInt = .ok v ∧ v ≠ 0) := by
  refine follows_getInt fun v numeric converted => ?_
  have harmless : ¬ value.isNumeric = false := by
    rw [numeric]
    nofun
  by_cases zero : v = 0
  · rw [if_neg (not_not.mpr zero)]
    refine follows_silent harmless ?_
    rintro ⟨other, same, nonzero⟩
    rw [converted] at same
    exact nonzero (Except.ok.inj same ▸ zero)
  · rw [if_pos zero]
    exact follows_single harmless ⟨v, converted, zero⟩ own

/-- The section of the text summary, when both fields are there. -/
theorem follows_fields (text seatId : Json) :
    Follows .textSummary
      (do
        let summary ← text.getString
        let seat ← seatId.getInt
        return [Command.pushSummary summary seat])
      (text.isString = false ∨ seatId.isNumeric = false)
      (text.isString = true ∧ seatId.isNumeric = true) := by
  rcases text.getString_cases with ⟨isString, summary, string⟩ | ⟨mistyped, error, thrown⟩
  · rcases seatId.getInt_cases with ⟨isNumeric, seat, number⟩ | ⟨mistyped, error, thrown⟩
    · rw [string, number]
      refine follows_single ?_ ⟨isString, isNumeric⟩ rfl
      rw [isString, isNumeric]
      rintro (impossible | impossible) <;> nomatch impossible
    · rw [string, thrown]
      exact Or.inl ⟨Or.inr mistyped, error, rfl⟩
  · rw [thrown]
    exact Or.inl ⟨Or.inl mistyped, error, rfl⟩

theorem follows_pushSummary (value : Json) :
    Follows .textSummary (pushSummary value) (Key.textSummary.Mistyped value)
      (Key.textSummary.Sendable value) := by
  by_cases complete : ∃ text seatId, value.lookup "text" = some text ∧
      value.lookup "seat_id" = some seatId
  · obtain ⟨text, seatId, foundText, foundSeat⟩ := complete
    have fields := follows_fields text seatId
    simpa only [pushSummary, Key.Mistyped, Key.Sendable, foundText, foundSeat, Option.some.injEq,
      exists_and_left, exists_eq_left'] using fields
  · have missing : pushSummary value = .ok [] := by
      unfold pushSummary
      split
      · rename_i text seatId foundText foundSeat
        exact absurd ⟨text, seatId, foundText, foundSeat⟩ complete
      · rfl
    rw [missing]
    refine follows_silent ?_ ?_
    · rintro ⟨text, seatId, foundText, foundSeat, -⟩
      exact complete ⟨text, seatId, foundText, foundSeat⟩
    · rintro ⟨text, seatId, foundText, foundSeat, -⟩
      exact complete ⟨text, seatId, foundText, foundSeat⟩

theorem follows_pushImage (value : Json) :
    Follows .image (pushImage value) (Key.image.Mistyped value) (Key.image.Sendable value) := by
  cases value with
  | string path => exact follows_single id rfl rfl
  | null | boolean | numberUnsigned | numberInteger | numberFloat | array | object =>
    exact follows_silent id nofun

/-- A section that looks at its key when the key has changed throws and issues as its value
says. -/
theorem follows_changeSection {key : Key} {emit : Json → Except TypeError (List Command)}
    (emits : ∀ value, Follows key (emit value) (key.Mistyped value) (key.Sendable value))
    (state : CommandState) (doc : Json) :
    Follows key (changeSection key emit state doc) (Throws state doc key)
      (Sends state doc key) := by
  unfold changeSection
  split
  · rename_i changed
    split
    · rename_i value found
      have same := emits value
      simpa only [Throws, Sends, changed, found, Option.some.injEq, exists_eq_left', true_and]
        using same
    · rename_i absent
      refine follows_silent ?_ ?_
      · rintro ⟨-, value, found, -⟩
        exact absurd (absent.symm.trans found) nofun
      · rintro ⟨-, value, found, -⟩
        exact absurd (absent.symm.trans found) nofun
  · rename_i unchanged
    exact follows_silent (fun throws => unchanged throws.1) fun sends => unchanged sends.1

/-- What is known of a section: it follows its key, or it has no key, issues no command of any
key and never throws. -/
def SectionOf (part : CommandSection) : Option Key → Prop
  | some key => ∀ state doc,
      Follows key (part state doc) (Throws state doc key) (Sends state doc key)
  | none => ∀ state doc, ∃ commands, part state doc = .ok commands ∧
      ∀ command ∈ commands, command.key = none

theorem sectionOf_poiListSection : SectionOf poiListSection none := by
  intro state doc
  unfold poiListSection
  split
  · refine ⟨_, rfl, fun command member => ?_⟩
    rw [List.mem_singleton.mp member]
    rfl
  · exact ⟨[], rfl, nofun⟩

theorem sections_follow : List.Forall₂ SectionOf commandSections commandKeys := by
  refine .cons (follows_changeSection fun _ => follows_number fun _ => rfl) <|
    .cons sectionOf_poiListSection <| .cons (follows_changeSection fun _ => follows_flag rfl) <|
    .cons (follows_changeSection fun _ => follows_flag rfl) <|
    .cons (follows_changeSection fun _ => follows_number fun _ => rfl) <|
    .cons (follows_changeSection follows_pushSummary) <|
    .cons (follows_changeSection follows_pushImage) <|
    .cons (follows_changeSection fun _ => follows_single id trivial rfl) .nil

/-! ### What a document issues -/

/-- The values a section throws for are not those it issues a command for. -/
theorem not_sendable_of_mistyped {key : Key} {value : Json} (mistyped : key.Mistyped value) :
    ¬ key.Sendable value := by
  have unconverted (unnumeric : value.isNumeric = false) :
      ¬ ∃ v, value.getInt = .ok v ∧ v ≠ 0 := by
    rintro ⟨v, converted, -⟩
    rcases value.getInt_cases with ⟨numeric, -⟩ | ⟨-, error, thrown⟩
    · exact absurd (numeric.symm.trans unnumeric) nofun
    · exact absurd (converted.symm.trans thrown) nofun
  cases key with
  | drivingState => exact fun numeric => absurd (numeric.symm.trans mistyped) nofun
  | resetCraieConfig => exact unconverted mistyped
  | startPairingTablet => exact unconverted mistyped
  | tabletDisplayMode => exact fun numeric => absurd (numeric.symm.trans mistyped) nofun
  | textSummary =>
    obtain ⟨text, seatId, foundText, foundSeat, wrong⟩ := mistyped
    rintro ⟨other, another, sameText, sameSeat, isString, isNumeric⟩
    rw [foundText, Option.some.injEq] at sameText
    rw [foundSeat, Option.some.injEq] at sameSeat
    rcases wrong with unstring | unnumeric
    · exact absurd ((sameText ▸ isString).symm.trans unstring) nofun
    · exact absurd ((sameSeat ▸ isNumeric).symm.trans unnumeric) nofun
  | image => exact mistyped.elim
  | llm => exact mistyped.elim

theorem not_sends_of_throws {state : CommandState} {doc : Json} {key : Key}
    (throws : Throws state doc key) : ¬ Sends state doc key := by
  obtain ⟨-, value, found, mistyped⟩ := throws
  rintro ⟨-, other, same, sendable⟩
  rw [found, Option.some.injEq] at same
  exact not_sendable_of_mistyped mistyped (same ▸ sendable)

/-- A section with a key throws or returns commands of its key; without one, it returns. -/
theorem SectionOf.run {part : CommandSection} {tag : Option Key} (sectionOf : SectionOf part tag)
    (state : CommandState) (doc : Json) :
    (∃ key error, tag = some key ∧ Throws state doc key ∧ part state doc = .error error) ∨
      (∀ key, tag = some key → ¬ Throws state doc key) ∧ ∃ commands,
        part state doc = .ok commands ∧ ∀ key,
          (∃ command ∈ commands, command.key = some key) ↔
            tag = some key ∧ Sends state doc key := by
  cases tag with
  | none =>
    obtain ⟨commands, returned, keyless⟩ := sectionOf state doc
    refine Or.inr ⟨nofun, commands, returned, fun key => iff_of_false ?_ nofun⟩
    rintro ⟨command, member, keyed⟩
    rw [keyless command member] at keyed
    nomatch keyed
  | some key =>
    rcases sectionOf state doc with
      ⟨throws, error, thrown⟩ | ⟨quiet, commands, returned, own, some_⟩
    · exact Or.inl ⟨key, error, rfl, throws, thrown⟩
    · refine Or.inr ⟨fun other same => Option.some.inj same ▸ quiet, commands, returned,
        fun other => ⟨?_, ?_⟩⟩
      · rintro ⟨command, member, keyed⟩
        have same := (own command member).symm.trans keyed
        exact ⟨same, Option.some.inj same ▸ some_.mp (List.ne_nil_of_mem member)⟩
      · rintro ⟨same, sends⟩
        rw [Option.some.injEq] at same
        obtain ⟨command, member⟩ := List.exists_mem_of_ne_nil _ (some_.mpr (same ▸ sends))
        exact ⟨command, member, same ▸ own command member⟩

/-- The sections run to the end when no section throws. -/
theorem runSections_completes {parts : List CommandSection} {tags : List (Option Key)}
    (follow : List.Forall₂ SectionOf parts tags) (state : CommandState) (doc : Json) :
    (runSections state doc parts).2 = none ↔
      ∀ key, some key ∈ tags → ¬ Throws state doc key := by
  induction follow with
  | nil => exact iff_of_true rfl nofun
  | cons sectionOf rest inductionHypothesis =>
    rcases sectionOf.run state doc with
      ⟨key, error, rfl, throws, thrown⟩ | ⟨quiet, commands, returned, -⟩
    · simp only [runSections, thrown]
      refine iff_of_false nofun fun never => ?_
      exact never key List.mem_cons_self throws
    · simp only [runSections, returned, inductionHypothesis, List.mem_cons, or_imp,
        forall_and]
      exact ⟨fun never => ⟨fun key same => quiet key same.symm, never⟩, And.right⟩

/-- A section's command is issued when the section issues it and no section before it throws. -/
theorem runSections_issues {parts : List CommandSection} {tags : List (Option Key)}
    (follow : List.Forall₂ SectionOf parts tags) (state : CommandState) (doc : Json) (key : Key) :
    (∃ command ∈ (runSections state doc parts).1, command.key = some key) ↔
      some key ∈ tags ∧ Sends state doc key ∧
        ∀ other, some other ∈ tagsBefore tags key → ¬ Throws state doc other := by
  induction follow with
  | nil => exact iff_of_false nofun nofun
  | @cons part tag parts tags sectionOf rest inductionHypothesis =>
    rcases sectionOf.run state doc with
      ⟨thrower, error, rfl, throws, thrown⟩ | ⟨quiet, commands, returned, issued⟩
    · simp only [runSections, thrown]
      refine iff_of_false (fun ⟨_, member, _⟩ => nomatch member) ?_
      rintro ⟨-, sends, before⟩
      by_cases same : some thrower = some key
      · exact not_sends_of_throws (Option.some.inj same ▸ throws) sends
      · rw [tagsBefore_cons_of_ne same] at before
        exact before thrower List.mem_cons_self throws
    · have split : (∃ command ∈ (runSections state doc (part :: parts)).1,
            command.key = some key) ↔
          (tag = some key ∧ Sends state doc key) ∨
            ∃ command ∈ (runSections state doc parts).1, command.key = some key := by
        rw [← issued key]
        simp only [runSections, returned, List.mem_append, or_and_right, exists_or]
      rw [split, inductionHypothesis]
      by_cases same : tag = some key
      · rw [same, tagsBefore_cons_self]
        constructor
        · rintro (⟨-, sends⟩ | ⟨-, sends, -⟩)
          · exact ⟨List.mem_cons_self, sends, nofun⟩
          · exact ⟨List.mem_cons_self, sends, nofun⟩
        · exact fun ⟨_, sends, _⟩ => Or.inl ⟨rfl, sends⟩
      · rw [tagsBefore_cons_of_ne same]
        constructor
        · rintro (⟨impossible, -⟩ | ⟨member, sends, before⟩)
          · exact absurd impossible same
          · refine ⟨List.mem_cons_of_mem _ member, sends, fun other found => ?_⟩
            rcases List.mem_cons.mp found with first | later
            · exact quiet other first.symm
            · exact before other later
        · rintro ⟨member, sends, before⟩
          refine Or.inr ⟨(List.mem_cons.mp member).resolve_left (Ne.symm same), sends, ?_⟩
          exact fun other later => before other (List.mem_cons_of_mem _ later)

/-- A document is processed to the end exactly when no key has changed to a value of the wrong
type. -/
theorem completes_iff (state : CommandState) (doc : Json) :
    (processJsonCommands state doc).error = none ↔ ∀ key, ¬ Throws state doc key := by
  rw [error_processJsonCommands, runSections_completes sections_follow]
  exact ⟨fun never key => never key (mem_commandKeys key), fun never key _ => never key⟩

/-- The command of a key is issued exactly when the key has changed to a value that it is issued
for, and no key before it to one of the wrong type. -/
theorem issues_iff (state : CommandState) (doc : Json) (key : Key) :
    Issues state doc key ↔
      Sends state doc key ∧ ∀ other : Key, other.Before key → ¬ Throws state doc other := by
  rw [Issues, commands_processJsonCommands, runSections_issues sections_follow]
  exact and_iff_right (mem_commandKeys key)

end SocketC
