/-
This file is about commands that are issued twice. A document is remembered only
when it has been processed to its end. When a section throws after another section
has issued its command, the document is forgotten with the command sent, and the
same document, read again, issues it again.

There is a second way. Values are compared with the document before, and equal numbers
of different types need not equal the same numbers: a `double` can equal two integers
of more than 53 bits. A key that goes from the `double` to the one and then to the
other keeps a value equal to the first and still counts as changed at the end.

As long as no changed key of the wrong type comes behind a changed key whose command is
issued, and equality among the values of a key is consistent, no command is repeated
unless its key has been changed or removed in between. Either condition is needed.
-/

import SocketC.CommandSections

namespace SocketC

open Json (IntConversion)

/-! ### Changes over several documents -/

/-- The key is gone from the document, or has a value there that differs from the first one. -/
def Altered (first doc : Json) (key : Key) : Prop :=
  doc.lookup key.name = none ∨
    ∃ old new, first.lookup key.name = some old ∧ doc.lookup key.name = some new ∧
      new.equals old = false

/-- The key has the value in one of the documents. -/
def Occurs (docs : List Json) (key : Key) (value : Json) : Prop :=
  ∃ doc ∈ docs, doc.lookup key.name = some value

/-- Of the values that a key has in the documents, two that equal a third equal each other. -/
def Consistent (docs : List Json) : Prop :=
  ∀ key old middle new, Occurs docs key old → Occurs docs key middle → Occurs docs key new →
    middle.equals old = true → new.equals old = true → new.equals middle = true

/-- Documents whose integers have at most 53 bits are consistent. -/
theorem consistent_of_exact {docs : List Json}
    (exact : ∀ key value, Occurs docs key value → value.Exact) : Consistent docs := by
  intro key old middle new occursOld occursMiddle occursNew middleEquals newEquals
  have exactOld := exact key old occursOld
  have exactMiddle := exact key middle occursMiddle
  have exactNew := exact key new occursNew
  have middleSame := (Json.equals_iff_canonical exactMiddle exactOld).mp middleEquals
  have newSame := (Json.equals_iff_canonical exactNew exactOld).mp newEquals
  exact (Json.equals_iff_canonical exactNew exactMiddle).mpr (newSame.trans middleSame.symm)

/-- A key that is not altered has an equal value. -/
theorem equals_of_not_altered {first doc value : Json} {key : Key}
    (here : first.lookup key.name = some value) (kept : ¬ Altered first doc key) :
    ∃ new, doc.lookup key.name = some new ∧ new.equals value = true := by
  cases found : doc.lookup key.name with
  | none => exact absurd (Or.inl found) kept
  | some new =>
    refine ⟨new, rfl, ?_⟩
    by_contra differs
    exact kept (Or.inr ⟨value, new, here, found, Bool.eq_false_of_not_eq_true differs⟩)

theorem not_altered_self {doc value : Json} {key : Key} (here : doc.lookup key.name = some value) :
    ¬ Altered doc doc key := by
  rintro (absent | ⟨old, new, foundOld, foundNew, differs⟩)
  · exact absurd (here.symm.trans absent) nofun
  · rw [foundOld, Option.some.injEq] at foundNew
    rw [foundNew, Json.equals_self] at differs
    nomatch differs

/-- The value of a key that the state remembers. -/
def Remembers (state : CommandState) (key : Key) (value : Json) : Prop :=
  state.hasPrevious = true ∧ state.previousState.lookup key.name = some value

/-- A value that equals the remembered one has not changed. -/
theorem Remembers.jsonChanged_eq {state : CommandState} {key : Key} {old new doc : Json}
    (remembers : Remembers state key old) (found : doc.lookup key.name = some new) :
    jsonChanged state doc key.name = !new.equals old := by
  obtain ⟨previous, remembered⟩ := remembers
  simp only [jsonChanged, previous, if_true, remembered, found]

/-! ### Documents of the examples -/

/-- A document with a request for the language model. -/
def llmDoc (value : Json) : Json := .object [("llm", value)]

theorem lookup_llmDoc (value : Json) (key : Key) :
    (llmDoc value).lookup key.name = if key = .llm then some value else none := by
  cases key <;> rfl

/-- An empty document, and then three requests. -/
def threeRequests (old middle new : Json) : List Json :=
  [.object [], llmDoc old, llmDoc middle, llmDoc new]

/-- A document with a driving state. -/
def drivingDoc (value : BitVec 64) : Json := .object [("driving_state", .numberUnsigned value)]

/-- A document with a driving state and a display mode that is a string. -/
def mistypedDoc : Json :=
  .object [("driving_state", .numberUnsigned 2), ("tablet_display_mode", .string "map")]

section Sequences

variable [IntConversion]

/-- A command that is issued for one document and again for a later one has seen its key removed
or changed in between, or in the later one. -/
def NoRepeat (docs : List Json) : Prop :=
  ∀ key i j first later, i < j → docs[i]? = some first → docs[j]? = some later →
    Issues (stateAfter (docs.take i)) first key → Issues (stateAfter (docs.take j)) later key →
    ∃ k doc, i < k ∧ k ≤ j ∧ docs[k]? = some doc ∧ Altered first doc key

/-! ### Documents in order -/

/-- A key that has changed to a value of the wrong type comes behind no key that has changed to a
value its command is issued for, unless another such key comes before both. -/
def Orderly (state : CommandState) (doc : Json) : Prop :=
  ∀ sender thrower : Key, sender.Before thrower → Sends state doc sender →
    Throws state doc thrower → ∃ earlier : Key, earlier.Before sender ∧ Throws state doc earlier

/-- Every document of the sequence is orderly when its turn comes. -/
def AllOrderly (docs : List Json) : Prop :=
  ∀ i doc, docs[i]? = some doc → Orderly (stateAfter (docs.take i)) doc

/-- An orderly document that issues a command of a key is processed to the end. -/
theorem Orderly.completes {state : CommandState} {doc : Json} {key : Key}
    (orderly : Orderly state doc) (issues : Issues state doc key) :
    (processJsonCommands state doc).error = none := by
  obtain ⟨sends, quiet⟩ := (issues_iff state doc key).mp issues
  refine (completes_iff state doc).mpr fun thrower throws => ?_
  have different : thrower ≠ key := by
    intro same
    exact not_sends_of_throws (same ▸ throws) sends
  rcases Key.before_or_before different with before | behind
  · exact quiet thrower before throws
  · obtain ⟨earlier, before, throws⟩ := orderly key thrower behind sends throws
    exact quiet earlier before throws

/-- A document that is not orderly issues a command of a key and then throws. -/
theorem issues_of_not_orderly {state : CommandState} {doc : Json}
    (disorderly : ¬ Orderly state doc) :
    (processJsonCommands state doc).error ≠ none ∧ ∃ key, Issues state doc key := by
  simp only [Orderly, not_forall, exists_prop, not_exists, not_and] at disorderly
  obtain ⟨sender, thrower, -, sends, throws, none⟩ := disorderly
  refine ⟨fun completed => ?_, sender, (issues_iff state doc sender).mpr ⟨sends, none⟩⟩
  exact (completes_iff state doc).mp completed thrower throws

/-- A command is issued only for a key that the document has and that has changed. -/
theorem changed_of_issues {state : CommandState} {doc : Json} {key : Key}
    (issues : Issues state doc key) :
    jsonChanged state doc key.name = true ∧ ∃ value, doc.lookup key.name = some value := by
  obtain ⟨⟨changed, value, found, -⟩, -⟩ := (issues_iff state doc key).mp issues
  exact ⟨changed, value, found⟩

theorem stateAfter_take_succ {docs : List Json} {i : Nat} {doc : Json}
    (found : docs[i]? = some doc) :
    stateAfter (docs.take (i + 1)) =
      (processJsonCommands (stateAfter (docs.take i)) doc).state := by
  rw [List.take_add_one, found]
  exact stateAfter_snoc (docs.take i) doc

/-! ### What is remembered of a key -/

/-- After a document the old value of a key is remembered or the new one, as the document is
processed to the end or not. -/
theorem Remembers.processed {state : CommandState} {key : Key} {old new doc : Json}
    (remembers : Remembers state key old) (found : doc.lookup key.name = some new) :
    Remembers (processJsonCommands state doc).state key old ∨
      Remembers (processJsonCommands state doc).state key new := by
  by_cases completed : (processJsonCommands state doc).error = none
  · rw [state_of_completed completed]
    exact Or.inr ⟨rfl, found⟩
  · rw [state_of_thrown completed]
    exact Or.inl remembers

/-- From a document that was processed to the end on, a value that equals its value of the key is
remembered as long as the documents keep such values. -/
theorem remembers_while_kept {docs : List Json} {key : Key} {i j : Nat} {first value : Json}
    (found : docs[i]? = some first)
    (completed : (processJsonCommands (stateAfter (docs.take i)) first).error = none)
    (here : first.lookup key.name = some value) (after : i < j)
    (kept : ∀ k doc, i < k → k < j → docs[k]? = some doc → ¬ Altered first doc key)
    (within : j ≤ docs.length) :
    ∃ remembered, Remembers (stateAfter (docs.take j)) key remembered ∧
      Occurs docs key remembered ∧ remembered.equals value = true := by
  -- Induction on the end of the stretch, from the document behind the first one.
  induction j, after using Nat.le_induction with
  | base =>
    refine ⟨value, ?_, ⟨first, List.mem_of_getElem? found, here⟩, value.equals_self⟩
    rw [stateAfter_take_succ found, state_of_completed completed]
    exact ⟨rfl, here⟩
  | succ j after inductionHypothesis =>
    obtain ⟨remembered, remembers, occurs, same⟩ := inductionHypothesis
      (fun k doc later before => kept k doc later (Nat.lt_succ_of_lt before))
      (Nat.le_of_succ_le within)
    have inside : docs[j]? = some docs[j] := List.getElem?_eq_getElem within
    obtain ⟨new, foundNew, newSame⟩ :=
      equals_of_not_altered here (kept j _ after (Nat.lt_succ_self j) inside)
    rw [stateAfter_take_succ inside]
    rcases remembers.processed foundNew with still | now
    · exact ⟨remembered, still, occurs, same⟩
    · exact ⟨new, now, ⟨docs[j], List.mem_of_getElem? inside, foundNew⟩, newSame⟩

theorem noRepeat_of_allOrderly {docs : List Json} (orderly : AllOrderly docs)
    (consistent : Consistent docs) : NoRepeat docs := by
  intro key i j first later after found foundLater issues issuesLater
  by_contra unaltered
  obtain ⟨-, value, here⟩ := changed_of_issues issues
  have kept : ∀ k doc, i < k → k ≤ j → docs[k]? = some doc → ¬ Altered first doc key :=
    fun k doc lower upper at_ altered => unaltered ⟨k, doc, lower, upper, at_, altered⟩
  have within : j < docs.length := (List.getElem?_eq_some_iff.mp foundLater).1
  have completed := (orderly i first found).completes issues
  obtain ⟨remembered, remembers, occurs, same⟩ := remembers_while_kept found completed here after
    (fun k doc lower upper => kept k doc lower (le_of_lt upper)) (le_of_lt within)
  obtain ⟨new, foundNew, newSame⟩ :=
    equals_of_not_altered here (kept j later after le_rfl foundLater)
  have equal : new.equals remembered = true :=
    consistent key value remembered new ⟨first, List.mem_of_getElem? found, here⟩ occurs
      ⟨later, List.mem_of_getElem? foundLater, foundNew⟩ same newSame
  have changed := (changed_of_issues issuesLater).1
  rw [remembers.jsonChanged_eq foundNew, equal] at changed
  nomatch changed

/-! ### Neither condition can be dropped -/

/-- A document that is not orderly, processed twice, repeats a command. -/
theorem repeats_of_not_orderly {docs : List Json} {doc : Json}
    (disorderly : ¬ Orderly (stateAfter docs) doc) : ¬ NoRepeat (docs ++ [doc, doc]) := by
  obtain ⟨thrown, key, issues⟩ := issues_of_not_orderly disorderly
  intro noRepeat
  have first : (docs ++ [doc, doc]).take docs.length = docs := List.take_left
  have second : (docs ++ [doc, doc]).take (docs.length + 1) = docs ++ [doc] := by
    rw [List.take_append, List.take_of_length_le (Nat.le_succ _), Nat.add_sub_cancel_left]
    rfl
  have unchanged : stateAfter (docs ++ [doc]) = stateAfter docs := by
    rw [stateAfter_snoc, state_of_thrown thrown]
  have atFirst : (docs ++ [doc, doc])[docs.length]? = some doc := by
    rw [List.getElem?_append_right le_rfl, Nat.sub_self]
    rfl
  have atSecond : (docs ++ [doc, doc])[docs.length + 1]? = some doc := by
    rw [List.getElem?_append_right (Nat.le_add_right _ 1), Nat.add_sub_cancel_left]
    rfl
  obtain ⟨k, other, lower, upper, found, altered⟩ :=
    noRepeat key docs.length (docs.length + 1) doc doc (Nat.lt_succ_self _) atFirst atSecond
      (by rw [first]; exact issues) (by rw [second, unchanged]; exact issues)
  have last : k = docs.length + 1 := le_antisymm upper lower
  rw [last, atSecond, Option.some.injEq] at found
  rw [← found] at altered
  obtain ⟨-, value, here⟩ := changed_of_issues issues
  exact not_altered_self here altered

theorem llmDoc_completes (state : CommandState) (value : Json) :
    (processJsonCommands state (llmDoc value)).error = none := by
  refine (completes_iff state _).mpr ?_
  rintro key ⟨-, found, lookup, mistyped⟩
  rw [lookup_llmDoc] at lookup
  obtain ⟨rfl, -⟩ := Option.ite_none_right_eq_some.mp lookup
  exact mistyped

theorem llmDoc_issues {state : CommandState} {value : Json}
    (changed : jsonChanged state (llmDoc value) Key.llm.name = true) :
    Issues state (llmDoc value) .llm := by
  refine (issues_iff state _ .llm).mpr ⟨⟨changed, value, rfl, trivial⟩, fun other _ throws => ?_⟩
  exact (completes_iff state _).mp (llmDoc_completes state value) other throws

theorem emptyDoc_completes (state : CommandState) :
    (processJsonCommands state (.object [])).error = none := by
  refine (completes_iff state _).mpr ?_
  rintro key ⟨-, found, lookup, -⟩
  nomatch lookup

theorem threeRequests_complete {old middle new : Json} (state : CommandState) {i : Nat} {doc : Json}
    (found : (threeRequests old middle new)[i]? = some doc) :
    (processJsonCommands state doc).error = none := by
  have member := List.mem_of_getElem? found
  simp only [threeRequests, List.mem_cons, List.not_mem_nil, or_false] at member
  rcases member with rfl | rfl | rfl | rfl
  · exact emptyDoc_completes state
  all_goals exact llmDoc_completes state _

theorem orderly_of_completes {state : CommandState} {doc : Json}
    (completed : (processJsonCommands state doc).error = none) : Orderly state doc :=
  fun _ thrower _ _ throws => absurd throws ((completes_iff state doc).mp completed thrower)

/-- Two values that equal a third and not each other: the request is sent for the third value and
again when the one takes the place of the other. -/
theorem repeats_of_inconsistent {old middle new : Json} (middleEquals : middle.equals old = true)
    (newEquals : new.equals old = true) (differ : new.equals middle = false) :
    AllOrderly (threeRequests old middle new) ∧ ¬ NoRepeat (threeRequests old middle new) := by
  refine ⟨fun i doc found => orderly_of_completes (threeRequests_complete _ found), ?_⟩
  intro noRepeat
  have state (taken : List Json) (doc : Json)
      (completed : (processJsonCommands (stateAfter taken) doc).error = none) :
      stateAfter (taken ++ [doc]) = ⟨doc, true⟩ := by
    rw [stateAfter_snoc, state_of_completed completed]
  have afterEmpty : stateAfter [.object []] = ⟨.object [], true⟩ :=
    state [] (.object []) (emptyDoc_completes _)
  have afterMiddle : stateAfter [.object [], llmDoc old, llmDoc middle] = ⟨llmDoc middle, true⟩ :=
    state [.object [], llmDoc old] (llmDoc middle) (llmDoc_completes _ _)
  have first : Issues (stateAfter [.object []]) (llmDoc old) .llm := by
    rw [afterEmpty]
    exact llmDoc_issues rfl
  have second :
      Issues (stateAfter [.object [], llmDoc old, llmDoc middle]) (llmDoc new) .llm := by
    rw [afterMiddle]
    refine llmDoc_issues ?_
    rw [Remembers.jsonChanged_eq ⟨rfl, rfl⟩ rfl, differ]
    rfl
  obtain ⟨k, doc, lower, upper, found, altered⟩ :=
    noRepeat .llm 1 3 _ _ (by decide) rfl rfl first second
  have equals : ∃ value, doc.lookup Key.llm.name = some value ∧ value.equals old = true := by
    obtain rfl | rfl : k = 2 ∨ k = 3 := by omega
    · exact ⟨middle, Option.some.inj found ▸ rfl, middleEquals⟩
    · exact ⟨new, Option.some.inj found ▸ rfl, newEquals⟩
  obtain ⟨value, lookup, same⟩ := equals
  rcases altered with absent | ⟨before, after, foundBefore, foundAfter, differs⟩
  · exact absurd (lookup.symm.trans absent) nofun
  · rw [lookup, Option.some.injEq] at foundAfter
    cases foundBefore
    rw [← foundAfter, same] at differs
    nomatch differs

/-- The integers 2^53 and 2^53 + 1 are one `double`. -/
example : (Json.numberUnsigned (2 ^ 53)).equals (.numberFloat (2 ^ 53)) = true ∧
    (Json.numberUnsigned (2 ^ 53 + 1)).equals (.numberFloat (2 ^ 53)) = true ∧
    (Json.numberUnsigned (2 ^ 53 + 1)).equals (.numberUnsigned (2 ^ 53)) = false := by decide

/-- In every sequence of orderly documents with consistent values no command is repeated without a
change of its key. Neither condition can be dropped: behind every such sequence, a document that
is not orderly, read twice, repeats a command, and values that are not consistent repeat one in
orderly documents. -/
theorem commands_not_repeated (docs : List Json) (orderly : AllOrderly docs)
    (consistent : Consistent docs) :
    NoRepeat docs ∧
      (∀ doc, ¬ Orderly (stateAfter docs) doc → ¬ NoRepeat (docs ++ [doc, doc])) ∧
      ∀ old middle new : Json, middle.equals old = true → new.equals old = true →
        new.equals middle = false →
        AllOrderly (threeRequests old middle new) ∧ ¬ NoRepeat (threeRequests old middle new) :=
  ⟨noRepeat_of_allOrderly orderly consistent,
    fun _ disorderly => repeats_of_not_orderly disorderly,
    fun _ _ _ middleEquals newEquals differ =>
      repeats_of_inconsistent middleEquals newEquals differ⟩

end Sequences

section X86

open scoped Json.X86

theorem commands_not_repeated_driving :
    Issues (stateAfter [drivingDoc 1]) (drivingDoc 2) .drivingState ∧
      NoRepeat [drivingDoc 1, drivingDoc 2, drivingDoc 2] := by
  refine ⟨by decide, (commands_not_repeated _ (fun i doc found => ?_) ?_).1⟩
  · refine orderly_of_completes ?_
    match i, found with
    | 0, found => exact Option.some.inj found ▸ rfl
    | 1, found => exact Option.some.inj found ▸ rfl
    | 2, found => exact Option.some.inj found ▸ rfl
  · refine consistent_of_exact ?_
    rintro key value ⟨doc, member, found⟩
    simp only [List.mem_cons, List.not_mem_nil, or_false] at member
    rcases member with rfl | rfl | rfl <;> cases key <;> cases found <;>
      simp only [Json.Exact] <;> decide

/-- The driving state is set, the display mode throws, and the same document sets the driving
state again. -/
theorem mistyped_document_repeats :
    Issues (stateAfter [drivingDoc 1]) mistypedDoc .drivingState ∧
      (processJsonCommands (stateAfter [drivingDoc 1]) mistypedDoc).error =
        some ⟨302, "type must be number, but is string"⟩ ∧
      Issues (stateAfter [drivingDoc 1, mistypedDoc]) mistypedDoc .drivingState ∧
      ¬ NoRepeat [drivingDoc 1, mistypedDoc, mistypedDoc] := by
  have issues : Issues (stateAfter [drivingDoc 1]) mistypedDoc .drivingState := by decide
  have thrown : (processJsonCommands (stateAfter [drivingDoc 1]) mistypedDoc).error =
      some ⟨302, "type must be number, but is string"⟩ := by decide
  have disorderly : ¬ Orderly (stateAfter [drivingDoc 1]) mistypedDoc := by
    intro orderly
    rw [orderly.completes issues] at thrown
    nomatch thrown
  have repeats : ¬ NoRepeat ([drivingDoc 1] ++ [mistypedDoc, mistypedDoc]) :=
    repeats_of_not_orderly disorderly
  exact ⟨issues, thrown, by decide, repeats⟩

end X86

end SocketC
