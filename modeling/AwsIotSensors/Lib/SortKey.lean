import Mathlib.Data.List.Sort
import Mathlib.Tactic

/-!
# Lists under a sort key

The items of a table under one partition key: one for each sort key, the greatest key
first.  `put` stores an item in its place, and over the one with its key.

What a query for the first items in this order answers can be told by properties of
the answer (`Newest`).  Only one answer has them (`newest_iff_eq_take`).
-/

namespace SortKey

variable {α κ : Type} [LinearOrder κ] (key : α → κ)

/-- The greatest key comes first, and each key once. -/
def Descending (items : List α) : Prop :=
  items.Pairwise fun first second => key second < key first

/-- Storing an item: the one with its key is replaced. -/
def put (item : α) (items : List α) : List α :=
  (items.filter fun other => key other ≠ key item).orderedInsert
    (fun first second => key second ≤ key first) item

/-- The answer has the items with the greatest keys, at most so many of them: its items
are stored ones in order, and none is left out that is greater or that there was room
for. -/
structure Newest (limit : ℕ) (items answer : List α) : Prop where
  stored : ∀ item ∈ answer, item ∈ items
  sorted : Descending key answer
  bounded : answer.length ≤ limit
  omitted : ∀ item ∈ items, item ∉ answer →
    answer.length = limit ∧ ∀ shown ∈ answer, key item < key shown

variable {key} {item : α} {items answer : List α} {limit : ℕ}

/-! ## Storing -/

/-- The first items have the properties of an answer. -/
theorem newest_take (hitems : Descending key items) (limit : ℕ) :
    Newest key limit items (items.take limit) := by
  refine ⟨fun item hitem => List.mem_of_mem_take hitem, ?_, List.length_take_le .., ?_⟩
  · exact List.Pairwise.sublist (List.take_sublist ..) hitems
  · intro item hitem hnot
    rw [← List.take_append_drop limit items, List.mem_append] at hitem
    have hdropped : item ∈ items.drop limit := hitem.resolve_left hnot
    have hlength : limit < items.length := by
      by_contra hle
      rw [List.drop_eq_nil_of_le (not_lt.mp hle)] at hdropped
      cases hdropped
    refine ⟨List.length_take_of_le hlength.le, ?_⟩
    intro shown hshown
    rw [Descending, ← List.take_append_drop limit items, List.pairwise_append] at hitems
    exact hitems.2.2 shown hshown item hdropped

/-- What comes first in a list has the greatest key. -/
theorem Newest.head_eq {first second : α} {rest answer : List α}
    (hitems : Descending key (first :: rest))
    (hanswer : Newest key limit (first :: rest) (second :: answer)) : second = first := by
  rcases List.mem_cons.mp (hanswer.stored second (List.mem_cons_self ..)) with hsame | hlater
  · exact hsame
  · have hlt : key second < key first := (List.pairwise_cons.mp hitems).1 second hlater
    by_cases hshown : first ∈ second :: answer
    · rcases List.mem_cons.mp hshown with hsame | hbehind
      · exact hsame.symm
      · exact absurd hlt ((List.pairwise_cons.mp hanswer.sorted).1 first hbehind).asymm
    · have hgreater := (hanswer.omitted first (List.mem_cons_self ..) hshown).2 second
        (List.mem_cons_self ..)
      exact absurd hlt hgreater.asymm

theorem Newest.tail {first : α} {rest answer : List α}
    (hitems : Descending key (first :: rest))
    (hanswer : Newest key (limit + 1) (first :: rest) (first :: answer)) :
    Newest key limit rest answer := by
  obtain ⟨hfirst, hrest⟩ := List.pairwise_cons.mp hitems
  obtain ⟨hbelow, hsorted⟩ := List.pairwise_cons.mp hanswer.sorted
  refine ⟨?_, hsorted, Nat.le_of_succ_le_succ hanswer.bounded, ?_⟩
  · intro item hitem
    rcases List.mem_cons.mp (hanswer.stored item (List.mem_cons_of_mem _ hitem)) with rfl | hlater
    · exact absurd (hbelow item hitem) (lt_irrefl _)
    · exact hlater
  · intro item hitem hnot
    have hne : item ≠ first := by
      rintro rfl
      exact absurd (hfirst item hitem) (lt_irrefl _)
    have homitted : item ∉ first :: answer := by
      rw [List.mem_cons, not_or]
      exact ⟨hne, hnot⟩
    obtain ⟨hlength, hgreater⟩ := hanswer.omitted item (List.mem_cons_of_mem _ hitem) homitted
    exact ⟨Nat.succ_injective hlength,
      fun shown hshown => hgreater shown (List.mem_cons_of_mem _ hshown)⟩

/-- **There is only one answer**: the first items of a list in order. -/
theorem eq_take_of_newest (hitems : Descending key items)
    (hanswer : Newest key limit items answer) : answer = items.take limit := by
  induction items generalizing limit answer with
  | nil =>
      rw [List.take_nil, List.eq_nil_iff_forall_not_mem]
      intro item hitem
      cases hanswer.stored item hitem
  | cons first rest ih =>
      cases limit with
      | zero => exact List.eq_nil_of_length_eq_zero (Nat.le_zero.mp hanswer.bounded)
      | succ limit =>
          cases answer with
          | nil =>
              -- there would have been room for the first item
              have hroom := (hanswer.omitted first (List.mem_cons_self ..) List.not_mem_nil).1
              cases hroom
          | cons second answer =>
              obtain rfl := hanswer.head_eq hitems
              rw [List.take_succ_cons, ← ih (List.pairwise_cons.mp hitems).2 (hanswer.tail hitems)]

theorem newest_iff_eq_take (hitems : Descending key items) :
    Newest key limit items answer ↔ answer = items.take limit := by
  constructor
  · exact eq_take_of_newest hitems
  · rintro rfl
    exact newest_take hitems limit

end SortKey
