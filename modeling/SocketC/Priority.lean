/-
This file is the library of stable priority queues. Items have a priority in a linear
order; a new item goes behind all items of its own or a higher priority and in front of
the others. The queue stays sorted, and among the items of one priority the order is
that of their arrival: the new item is the last of its priority, and the items of the
other priorities are as they were.

The queue is one way to keep the items. What it is for is said without it: items wait in
the order of their arrival, and the next to leave is the oldest of those with the highest
priority. The first item of the queue is that one.
-/

import Mathlib.Tactic
import Mathlib.Data.List.TakeWhile

namespace SocketC.Priority

variable {Item Rank : Type} [LinearOrder Rank] (rank : Item → Rank)

/-- The items a new item of a rank goes behind. -/
def ahead (bar : Rank) (items : List Item) : List Item :=
  items.takeWhile fun item => bar ≤ rank item

/-- The items a new item of a rank goes before. -/
def behind (bar : Rank) (items : List Item) : List Item :=
  items.dropWhile fun item => bar ≤ rank item

def enqueue (item : Item) (items : List Item) : List Item :=
  ahead rank (rank item) items ++ item :: behind rank (rank item) items

/-- No item is ahead of one with a higher priority. -/
def Sorted (items : List Item) : Prop := items.Pairwise fun first second => rank second ≤ rank first

/-- The items of one priority, in order. -/
def ofRank (bar : Rank) (items : List Item) : List Item := items.filter fun item => rank item = bar

variable {rank} {items : List Item} {bar : Rank}

theorem ahead_append_behind (rank : Item → Rank) (bar : Rank) (items : List Item) :
    ahead rank bar items ++ behind rank bar items = items :=
  List.takeWhile_append_dropWhile

theorem le_of_mem_ahead {item : Item} (member : item ∈ ahead rank bar items) : bar ≤ rank item := by
  simpa using List.mem_takeWhile_imp member

/-- In a sorted queue everything behind has a lower priority. -/
theorem lt_of_mem_behind (sorted : Sorted rank items) {item : Item}
    (member : item ∈ behind rank bar items) : rank item < bar := by
  induction items with
  | nil => cases member
  | cons head rest inductionHypothesis =>
    obtain ⟨below, sortedRest⟩ := List.pairwise_cons.mp sorted
    unfold behind at member
    rw [List.dropWhile_cons] at member
    split at member
    · exact inductionHypothesis sortedRest member
    · rename_i lower
      have headLower : rank head < bar := by simpa using lower
      rcases List.mem_cons.mp member with rfl | later
      · exact headLower
      · exact (below item later).trans_lt headLower

theorem Sorted.enqueue (sorted : Sorted rank items) (item : Item) :
    Sorted rank (enqueue rank item items) := by
  have split : Sorted rank (ahead rank (rank item) items ++ behind rank (rank item) items) := by
    rwa [ahead_append_behind]
  obtain ⟨sortedAhead, sortedBehind, across⟩ := List.pairwise_append.mp split
  refine List.pairwise_append.mpr ⟨sortedAhead, List.pairwise_cons.mpr ⟨?_, sortedBehind⟩, ?_⟩
  · exact fun later member => (lt_of_mem_behind sorted member).le
  · intro first memberAhead second member
    rcases List.mem_cons.mp member with rfl | memberBehind
    · exact le_of_mem_ahead memberAhead
    · exact across first memberAhead second memberBehind

theorem Sorted.tail {item : Item} (sorted : Sorted rank (item :: items)) : Sorted rank items :=
  (List.pairwise_cons.mp sorted).2

/-- The new item is the last of its priority, and no other priority notices it. -/
theorem ofRank_enqueue (sorted : Sorted rank items) (item : Item) (bar : Rank) :
    ofRank rank bar (enqueue rank item items) =
      ofRank rank bar items ++ ofRank rank bar [item] := by
  have split := congrArg (ofRank rank bar) (ahead_append_behind rank (rank item) items)
  unfold ofRank at split ⊢
  rw [List.filter_append] at split
  rw [Priority.enqueue, List.filter_append, ← List.singleton_append, List.filter_append]
  by_cases same : rank item = bar
  · -- Nothing behind the item has its priority.
    have nothing : (behind rank (rank item) items).filter (fun later => rank later = bar) = [] := by
      refine List.filter_eq_nil_iff.mpr fun later member => ?_
      have lower := lt_of_mem_behind sorted member
      simpa using (same ▸ lower).ne
    rw [nothing, List.append_nil] at split ⊢
    rw [split]
  · have absent : [item].filter (fun later => rank later = bar) = [] := by simp [same]
    rw [absent, List.nil_append, List.append_nil, split]

theorem perm_enqueue (item : Item) (items : List Item) :
    (enqueue rank item items).Perm (item :: items) := by
  rw [Priority.enqueue]
  refine List.perm_middle.trans ?_
  rw [ahead_append_behind]

theorem ahead_map {Other : Type} (function : Other → Item) (bar : Rank) (items : List Other) :
    ahead rank bar (items.map function) =
      (ahead (fun item => rank (function item)) bar items).map function := by
  rw [ahead, ahead, List.takeWhile_map]
  rfl

theorem behind_map {Other : Type} (function : Other → Item) (bar : Rank) (items : List Other) :
    behind rank bar (items.map function) =
      (behind (fun item => rank (function item)) bar items).map function := by
  rw [behind, behind, List.dropWhile_map]
  rfl

/-! ### The queue as a sorted view of those who wait -/

variable (rank)

/-- The queue after the items have arrived in their order. -/
def ranked (waiting : List Item) : List Item :=
  waiting.foldl (fun items item => enqueue rank item items) []

/-- The item is the oldest of those with the highest priority, and these are the others. -/
def Leaves (waiting : List Item) (item : Item) (rest : List Item) : Prop :=
  ∃ front back, waiting = front ++ item :: back ∧ rest = front ++ back ∧
    (∀ earlier ∈ front, rank earlier < rank item) ∧ ∀ later ∈ back, rank later ≤ rank item

/-- Something that happens to a priority queue. -/
inductive Event (Item : Type) where
  | arrives (item : Item)
  | departs (item : Item)

/-- After the events, the items that wait, in the order of their arrival. -/
inductive Replays : List (Event Item) → List Item → Prop
  | nil : Replays [] []
  | arrives {events : List (Event Item)} {waiting : List Item} (before : Replays events waiting)
      (item : Item) : Replays (events ++ [.arrives item]) (waiting ++ [item])
  | departs {events : List (Event Item)} {waiting rest : List Item} {item : Item}
      (before : Replays events waiting) (leaves : Leaves rank waiting item rest) :
      Replays (events ++ [.departs item]) rest

variable {rank}

theorem ranked_append_singleton (waiting : List Item) (item : Item) :
    ranked rank (waiting ++ [item]) = enqueue rank item (ranked rank waiting) := by
  rw [ranked, List.foldl_append]
  rfl

theorem sorted_ranked (waiting : List Item) : Sorted rank (ranked rank waiting) := by
  induction waiting using List.reverseRecOn with
  | nil => exact List.Pairwise.nil
  | append_singleton waiting item inductionHypothesis =>
    rw [ranked_append_singleton]
    exact inductionHypothesis.enqueue item

theorem ofRank_ranked (rank : Item → Rank) (waiting : List Item) (bar : Rank) :
    ofRank rank bar (ranked rank waiting) = ofRank rank bar waiting := by
  induction waiting using List.reverseRecOn with
  | nil => rfl
  | append_singleton waiting item inductionHypothesis =>
    rw [ranked_append_singleton, ofRank_enqueue (sorted_ranked waiting), inductionHypothesis]
    exact (List.filter_append _ _).symm

theorem perm_ranked (waiting : List Item) : (ranked rank waiting).Perm waiting := by
  induction waiting using List.reverseRecOn with
  | nil => exact List.Perm.nil
  | append_singleton waiting item inductionHypothesis =>
    rw [ranked_append_singleton]
    exact (perm_enqueue item _).trans ((inductionHypothesis.cons item).trans
      (List.perm_append_singleton item waiting).symm)

theorem ofRank_cons_self (item : Item) (items : List Item) :
    ofRank rank (rank item) (item :: items) = item :: ofRank rank (rank item) items := by
  rw [ofRank, List.filter_cons_of_pos (by simp)]
  rfl

/-- Where a list has something of the priority of another sorted list's first item, that item is
at most as high as the first one of the list. -/
theorem rank_le_of_ofRank_eq {item other : Item} {items others : List Item}
    (sorted : Sorted rank (other :: others))
    (same : ofRank rank (rank item) (item :: items) = ofRank rank (rank item) (other :: others)) :
    rank item ≤ rank other := by
  rw [ofRank_cons_self] at same
  have member : item ∈ ofRank rank (rank item) (other :: others) := same ▸ List.mem_cons_self
  rcases List.mem_cons.mp (List.mem_filter.mp member).1 with rfl | later
  · exact le_refl _
  · exact (List.pairwise_cons.mp sorted).1 item later

/-- A sorted list is determined by what it has of each priority. -/
theorem eq_of_ofRank_eq {first second : List Item} (sortedFirst : Sorted rank first)
    (sortedSecond : Sorted rank second)
    (same : ∀ bar, ofRank rank bar first = ofRank rank bar second) : first = second := by
  induction first generalizing second with
  | nil =>
    cases second with
    | nil => rfl
    | cons other others =>
      have impossible := same (rank other)
      rw [ofRank_cons_self] at impossible
      cases impossible
  | cons item items inductionHypothesis =>
    cases second with
    | nil =>
      have impossible := same (rank item)
      rw [ofRank_cons_self] at impossible
      cases impossible
    | cons other others =>
      have equalRank : rank item = rank other :=
        le_antisymm (rank_le_of_ofRank_eq sortedSecond (same _))
          (rank_le_of_ofRank_eq sortedFirst (same _).symm)
      have heads := same (rank item)
      rw [ofRank_cons_self, equalRank, ofRank_cons_self] at heads
      obtain rfl := (List.cons.inj heads).1
      refine congrArg (List.cons item) (inductionHypothesis sortedFirst.tail sortedSecond.tail ?_)
      intro bar
      have whole := same bar
      unfold ofRank at whole ⊢
      by_cases counted : rank item = bar
      · rw [List.filter_cons_of_pos (by simpa using counted),
          List.filter_cons_of_pos (by simpa using counted)] at whole
        exact (List.cons.inj whole).2
      · rwa [List.filter_cons_of_neg (by simpa using counted),
          List.filter_cons_of_neg (by simpa using counted)] at whole

/-- The first item of the queue is the next to leave, and the rest of the queue is the queue of
the others. -/
theorem leaves_of_ranked_eq_cons {waiting queue : List Item} {item : Item}
    (queued : ranked rank waiting = item :: queue) :
    ∃ rest, Leaves rank waiting item rest ∧ ranked rank rest = queue := by
  have sorted : Sorted rank (item :: queue) := queued ▸ sorted_ranked waiting
  have highest : ∀ other ∈ waiting, rank other ≤ rank item := by
    intro other member
    have inQueue : other ∈ item :: queue := queued ▸ (perm_ranked waiting).mem_iff.mpr member
    rcases List.mem_cons.mp inQueue with rfl | later
    · exact le_refl _
    · exact (List.pairwise_cons.mp sorted).1 other later
  -- Of the item's own priority, it is the oldest.
  have oldest := ofRank_ranked rank waiting (rank item)
  rw [queued, ofRank_cons_self] at oldest
  obtain ⟨front, back, rfl, lower, -, same⟩ := List.filter_eq_cons_iff.mp oldest.symm
  have lower : ∀ earlier ∈ front, rank earlier ≠ rank item := fun earlier member => by
    simpa using lower earlier member
  refine ⟨front ++ back, ⟨front, back, rfl, rfl, fun earlier member => ?_, fun later member => ?_⟩,
    ?_⟩
  · exact lt_of_le_of_ne (highest earlier (by simp [member])) (lower earlier member)
  · exact highest later (by simp [member])
  · refine eq_of_ofRank_eq (sorted_ranked _) sorted.tail fun bar => ?_
    have whole := ofRank_ranked rank (front ++ item :: back) bar
    rw [queued] at whole
    rw [ofRank_ranked]
    unfold ofRank at whole ⊢
    rw [List.filter_append] at whole ⊢
    by_cases counted : rank item = bar
    · have none_before : front.filter (fun earlier => rank earlier = bar) = [] :=
        List.filter_eq_nil_iff.mpr fun earlier member => by
          simpa [← counted] using lower earlier member
      rw [none_before, List.nil_append] at whole ⊢
      rw [List.filter_cons_of_pos (by simpa using counted),
        List.filter_cons_of_pos (by simpa using counted)] at whole
      exact (List.cons.inj whole).2.symm
    · rw [List.filter_cons_of_neg (by simpa using counted),
        List.filter_cons_of_neg (by simpa using counted)] at whole
      exact whole.symm

end SocketC.Priority
