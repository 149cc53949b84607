import Mathlib

/-!
# Code that raises exceptions

`Except` as the result of code that may raise.  Two steps in a row succeed if the
first does and the second does with its value (`isOk_bind_iff`); a loop that collects
a value for each item succeeds if and only if it does for every item
(`isOk_mapM_iff`), and then it collects as many values as there are items.

Two codes agree up to a relation of their values if they raise the same exception or
return related values (`Agree`); this is kept by steps in a row and by loops.
-/

namespace Exceptions

universe u v

variable {ε : Type u} {α β : Type v}

theorem ok_bind (value : α) (second : α → Except ε β) :
    (Except.ok value >>= second) = second value :=
  rfl

/-- What two steps in a row return was returned by both. -/
theorem bind_eq_ok {first : Except ε α} {second : α → Except ε β} {result : β}
    (hboth : (first >>= second) = .ok result) :
    ∃ value, first = .ok value ∧ second value = .ok result := by
  cases first with
  | error raised => cases hboth
  | ok value => exact ⟨value, rfl, hboth⟩

/-- The second step is made with the value of the first. -/
theorem isOk_bind_iff {first : Except ε α} {second : α → Except ε β} :
    (first >>= second).isOk = true ↔ ∃ value, first = .ok value ∧ (second value).isOk = true := by
  cases first with
  | error raised => simp [bind, Except.bind, Except.isOk, Except.toBool]
  | ok value => simp [ok_bind]

/-- A step that only computes raises nothing. -/
theorem isOk_bind_pure (first : Except ε α) (compute : α → β) :
    (do let value ← first; return compute value).isOk = first.isOk := by
  cases first <;> rfl

theorem isOk_iff_exists {result : Except ε α} :
    result.isOk = true ↔ ∃ value, result = .ok value := by
  cases result <;> simp [Except.isOk, Except.toBool]

/-! ## Loops -/

/-- A loop that raises nothing. -/
theorem mapM_eq_ok {f : α → Except ε β} {g : α → β} {items : List α}
    (hok : ∀ item ∈ items, f item = .ok (g item)) : items.mapM f = .ok (items.map g) := by
  induction items with
  | nil => rfl
  | cons item items ih =>
      rw [List.mapM_cons, hok item (List.mem_cons_self ..),
        ih fun other hother => hok other (List.mem_cons_of_mem _ hother)]
      rfl

/-- What is computed of each value can be computed in the end. -/
theorem mapM_bind_pure {γ : Type v} (f : α → Except ε β) (compute : β → γ) (items : List α) :
    (items.mapM fun item => do let value ← f item; return compute value) =
      do let values ← items.mapM f; return values.map compute := by
  induction items with
  | nil => rfl
  | cons item items ih =>
      rw [List.mapM_cons, List.mapM_cons, ih]
      cases f item with
      | error raised => rfl
      | ok value => cases items.mapM f <;> rfl

/-- **A loop raises nothing** if and only if it raises nothing for any item. -/
theorem isOk_mapM_iff {f : α → Except ε β} {items : List α} :
    (items.mapM f).isOk = true ↔ ∀ item ∈ items, (f item).isOk = true := by
  induction items with
  | nil => simp [pure, Except.pure, Except.isOk, Except.toBool]
  | cons item items ih =>
      rw [List.mapM_cons, isOk_bind_iff, List.forall_mem_cons, ← ih]
      constructor
      · intro hcons
        obtain ⟨value, hvalue, hrest⟩ := hcons
        rw [isOk_bind_pure] at hrest
        exact ⟨isOk_iff_exists.mpr ⟨value, hvalue⟩, hrest⟩
      · intro hboth
        obtain ⟨value, hvalue⟩ := isOk_iff_exists.mp hboth.1
        refine ⟨value, hvalue, ?_⟩
        rw [isOk_bind_pure]
        exact hboth.2

/-- A loop returns what it returns for each item. -/
theorem mapM_eq_ok_iff {f : α → Except ε β} {items : List α} {values : List β} :
    items.mapM f = .ok values ↔
      List.Forall₂ (fun item value => f item = .ok value) items values := by
  induction items generalizing values with
  | nil =>
      rw [List.mapM_nil, List.forall₂_nil_left_iff]
      exact ⟨fun heq => (Except.ok.inj heq).symm, fun heq => by rw [heq]; rfl⟩
  | cons item items ih =>
      rw [List.mapM_cons, List.forall₂_cons_left_iff]
      constructor
      · intro hvalues
        cases hitem : f item with
        | error raised =>
            rw [hitem] at hvalues
            cases hvalues
        | ok value =>
            rw [hitem, ok_bind] at hvalues
            cases hrest : items.mapM f with
            | error raised =>
                rw [hrest] at hvalues
                cases hvalues
            | ok others =>
                rw [hrest] at hvalues
                exact ⟨value, others, rfl, ih.mp hrest, (Except.ok.inj hvalues).symm⟩
      · intro hvalues
        obtain ⟨value, others, hitem, hothers, rfl⟩ := hvalues
        rw [hitem, ih.mpr hothers]
        rfl

/-- A loop collects one value for each item. -/
theorem length_of_mapM {f : α → Except ε β} {items : List α} {values : List β}
    (hvalues : items.mapM f = .ok values) : values.length = items.length := by
  induction items generalizing values with
  | nil =>
      obtain rfl := Except.ok.inj hvalues
      rfl
  | cons item items ih =>
      rw [List.mapM_cons] at hvalues
      cases hitem : f item with
      | error raised =>
          rw [hitem] at hvalues
          cases hvalues
      | ok value =>
          cases hrest : items.mapM f with
          | error raised =>
              rw [hitem, hrest] at hvalues
              cases hvalues
          | ok others =>
              rw [hitem, hrest] at hvalues
              obtain rfl := Except.ok.inj hvalues
              rw [List.length_cons, List.length_cons, ih hrest]

/-! ## Two codes that agree -/

/-- Both raise the same exception, or they return related values. -/
inductive Agree (related : α → β → Prop) : Except ε α → Except ε β → Prop
  | raised (error : ε) : Agree related (.error error) (.error error)
  | returned {value : α} {value' : β} (hvalue : related value value') :
      Agree related (.ok value) (.ok value')

theorem Agree.bind {γ δ : Type v} {related : α → β → Prop} {related' : γ → δ → Prop}
    {first : Except ε α} {first' : Except ε β} {second : α → Except ε γ}
    {second' : β → Except ε δ} (hfirst : Agree related first first')
    (hsecond : ∀ value value', related value value' →
      Agree related' (second value) (second' value')) :
    Agree related' (first >>= second) (first' >>= second') := by
  cases hfirst with
  | raised error => exact .raised error
  | returned hvalue => exact hsecond _ _ hvalue

/-- Two loops over related items agree. -/
theorem Agree.mapM {γ δ : Type v} {related : α → β → Prop} {related' : γ → δ → Prop}
    {f : α → Except ε γ} {f' : β → Except ε δ} {items : List α} {items' : List β}
    (hitems : List.Forall₂ related items items')
    (hf : ∀ item item', related item item' → Agree related' (f item) (f' item')) :
    Agree (List.Forall₂ related') (items.mapM f) (items'.mapM f') := by
  induction hitems with
  | nil => exact .returned .nil
  | cons hitem _ ih =>
      rw [List.mapM_cons, List.mapM_cons]
      refine (hf _ _ hitem).bind fun value value' hvalue => ?_
      exact ih.bind fun values values' hvalues => .returned (.cons hvalue hvalues)

end Exceptions
