/-
This file is the library of singly linked lists in a store. A store gives every node its
successor; a segment is a way through the store that visits a list of nodes and arrives
at a last one, and a list that ends is a segment that arrives at the null node. What a
program does to such lists is to change successors: a change at a node that is not
visited changes nothing, and linking a new node in after a predecessor, or before the
first node, inserts it into the list visited.
-/

import Mathlib.Tactic

namespace SocketC.Linked

variable {Node : Type}

/-- From `first`, following the successors, the nodes visited are these, none of them null,
and the way arrives at `last`. -/
def Segment (null : Node) (next : Node → Node) : Node → List Node → Node → Prop
  | first, [], last => first = last
  | first, node :: rest, last =>
    first = node ∧ node ≠ null ∧ Segment null next (next node) rest last

/-- The list that starts at `first` has these nodes and ends. -/
def Chain (null : Node) (next : Node → Node) (first : Node) (nodes : List Node) : Prop :=
  Segment null next first nodes null

variable {null : Node} {next other : Node → Node} {first middle last node : Node}
  {nodes front back : List Node}

theorem segment_append_iff :
    Segment null next first (front ++ back) last ↔
      ∃ middle, Segment null next first front middle ∧ Segment null next middle back last := by
  induction front generalizing first with
  | nil => exact ⟨fun way => ⟨first, rfl, way⟩, fun ⟨_, same, way⟩ => same ▸ way⟩
  | cons node front inductionHypothesis =>
    constructor
    · rintro ⟨rfl, real, way⟩
      obtain ⟨middle, frontWay, backWay⟩ := inductionHypothesis.mp way
      exact ⟨middle, ⟨rfl, real, frontWay⟩, backWay⟩
    · rintro ⟨middle, ⟨rfl, real, frontWay⟩, backWay⟩
      exact ⟨rfl, real, inductionHypothesis.mpr ⟨middle, frontWay, backWay⟩⟩

/-- A way depends on the successors of the nodes it visits only. -/
theorem Segment.congr (way : Segment null next first nodes last)
    (same : ∀ node ∈ nodes, other node = next node) : Segment null other first nodes last := by
  induction nodes generalizing first with
  | nil => exact way
  | cons node rest inductionHypothesis =>
    obtain ⟨rfl, real, wayRest⟩ := way
    refine ⟨rfl, real, ?_⟩
    rw [same first List.mem_cons_self]
    exact inductionHypothesis wayRest fun later member =>
      same later (List.mem_cons_of_mem first member)

theorem Chain.eq_nil_iff (chain : Chain null next first nodes) : nodes = [] ↔ first = null := by
  cases nodes with
  | nil => exact iff_of_true rfl chain
  | cons node rest =>
    obtain ⟨rfl, real, -⟩ := chain
    exact iff_of_false (List.cons_ne_nil _ _) real

/-- The list of a non-null first node starts with that node. -/
theorem Chain.exists_cons (chain : Chain null next first nodes) (real : first ≠ null) :
    ∃ rest, nodes = first :: rest ∧ Chain null next (next first) rest := by
  cases nodes with
  | nil => exact absurd chain real
  | cons node rest =>
    obtain ⟨rfl, -, chainRest⟩ := chain
    exact ⟨rest, rfl, chainRest⟩

theorem Chain.cons (chain : Chain null next (next node) nodes) (real : node ≠ null) :
    Chain null next node (node :: nodes) :=
  ⟨rfl, real, chain⟩

variable [DecidableEq Node]

theorem Segment.update (way : Segment null next first nodes last) (outside : node ∉ nodes)
    (successor : Node) : Segment null (Function.update next node successor) first nodes last := by
  refine way.congr fun visited member => Function.update_of_ne ?_ _ _
  rintro rfl
  exact outside member

/-- Bending the successor of the last node visited changes where the way arrives. -/
theorem Segment.redirect (way : Segment null next first (front ++ [node]) last)
    (unrepeated : node ∉ front) (successor : Node) :
    Segment null (Function.update next node successor) first (front ++ [node]) successor := by
  obtain ⟨middle, frontWay, rfl, real, -⟩ := segment_append_iff.mp way
  refine segment_append_iff.mpr ⟨middle, frontWay.update unrepeated successor, rfl, real, ?_⟩
  exact Function.update_self _ _ _

/-- A new node in front of the whole list. -/
theorem Chain.push (chain : Chain null next first nodes) (real : node ≠ null)
    (fresh : node ∉ nodes) :
    Chain null (Function.update next node first) node (node :: nodes) := by
  refine Chain.cons ?_ real
  rw [Function.update_self]
  exact chain.update fresh first

/-- A new node after a predecessor: the new node takes over the predecessor's successor, and the
predecessor's successor becomes the new node. -/
theorem Chain.insert_after {predecessor : Node}
    (chain : Chain null next first (front ++ [predecessor] ++ back)) (real : node ≠ null)
    (fresh : node ∉ front ++ [predecessor] ++ back)
    (distinct : (front ++ [predecessor] ++ back).Nodup)
    (arrives : Segment null next first (front ++ [predecessor]) middle)
    (goesOn : Segment null next middle back null) :
    Chain null (Function.update (Function.update next node middle) predecessor node) first
      (front ++ [predecessor] ++ node :: back) := by
  rw [List.append_assoc, List.nodup_append] at distinct
  have unrepeated : predecessor ∉ front := fun member =>
    distinct.2.2 predecessor member predecessor List.mem_cons_self rfl
  have notBehind : predecessor ∉ back := (List.nodup_cons.mp distinct.2.1).1
  have different : node ≠ predecessor := by
    rintro rfl
    exact fresh (by simp)
  have freshFront : node ∉ front ++ [predecessor] := fun member =>
    fresh (List.mem_append_left back member)
  have freshBack : node ∉ back := fun member =>
    fresh (List.mem_append_right (front ++ [predecessor]) member)
  refine segment_append_iff.mpr ⟨node, (arrives.update freshFront middle).redirect unrepeated node,
    rfl, real, ?_⟩
  rw [Function.update_of_ne different, Function.update_self]
  exact (goesOn.update freshBack middle).update notBehind node

end SocketC.Linked
