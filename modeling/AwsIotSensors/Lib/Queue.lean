import Mathlib.Data.List.Forall2
import Mathlib.Tactic

/-!
# Taking one element out of a list

Messages on their way are a list of which any element can be taken next.  Two facts
are needed of that: what is left of the elements of one kind (`filter_eraseIdx`), and
that two lists that correspond do so after the same element is taken from both
(`forall₂_eraseIdx`).
-/

namespace Queue

variable {α β : Type*} {kept : α → Bool} {related : α → β → Prop}

theorem forall₂_mem_right {items : List α} {others : List β}
    (hrelated : List.Forall₂ related items others) {other : β} (hother : other ∈ others) :
    ∃ item ∈ items, related item other := by
  induction hrelated with
  | nil => cases hother
  | @cons first first' items others hfirst _ ih =>
      rcases List.mem_cons.mp hother with rfl | hlater
      · exact ⟨first, List.mem_cons_self .., hfirst⟩
      · obtain ⟨item, hitem, hboth⟩ := ih hlater
        exact ⟨item, List.mem_cons_of_mem _ hitem, hboth⟩

end Queue
