/-
This file is the library of interleavings. A list is a merge of a family of lists
when its items can be attributed to the members of the family so that the items of
each member, read in order, are that member's list: nothing is lost, nothing is
there twice, and each member's order is kept.
-/

import Mathlib.Tactic

namespace SocketC

variable {Source Item : Type} [DecidableEq Source]

/-- The items attributed to one source, in order. -/
def attributed (tagged : List (Source × Item)) (source : Source) : List Item :=
  (tagged.filter fun entry => entry.1 = source).map Prod.snd

/-- `merged` is an interleaving of the lists of all sources. -/
def Merges (sources : Source → List Item) (merged : List Item) : Prop :=
  ∃ tagged : List (Source × Item), tagged.map Prod.snd = merged ∧ attributed tagged = sources

theorem merges_nil : Merges (fun _ : Source => ([] : List Item)) [] :=
  ⟨[], rfl, rfl⟩

theorem attributed_snoc (tagged : List (Source × Item)) (source : Source) (item : Item) :
    attributed (tagged ++ [(source, item)]) =
      Function.update (attributed tagged) source (attributed tagged source ++ [item]) := by
  funext other
  by_cases same : other = source
  · subst same
    simp only [attributed, Function.update_self, List.filter_append, List.map_append,
      List.filter_cons, decide_true, if_true, List.filter_nil, List.map_cons, List.map_nil]
  · have different : ¬ source = other := fun equal => same equal.symm
    simp only [attributed, Function.update_of_ne same, List.filter_append, List.filter_cons,
      different, decide_false, Bool.false_eq_true, if_false, List.filter_nil, List.append_nil]

/-- The next item of one source goes to the end of the merge. -/
theorem Merges.snoc {sources : Source → List Item} {merged : List Item}
    (merges : Merges sources merged) (source : Source) (item : Item) :
    Merges (Function.update sources source (sources source ++ [item])) (merged ++ [item]) := by
  obtain ⟨tagged, items, attribution⟩ := merges
  refine ⟨tagged ++ [(source, item)], ?_, ?_⟩
  · rw [List.map_append, items]
    rfl
  · rw [attributed_snoc, attribution]

end SocketC
