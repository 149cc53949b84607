import Mathlib.Tactic

/-!
# Tables of named slots

A fixed number of slots, each of which may carry a name and may be live.  A new
entry goes to the lowest slot that is not live and overwrites what was left
there; an entry is removed through the lowest slot that carries its name, live
or not.  A slot that was filled and not granted keeps its name.

The set of live names follows the entries (`liveNames_fill`,
`liveNames_release`) as long as every live slot is the lowest one of its name
(`FirstOfName`), which filling keeps when no live name is filled again
(`FirstOfName.fill`).
-/

namespace SlotTable

/-! ## Places -/

/-- The places where a test holds. -/
def places {size : ℕ} (test : Fin size → Bool) : Finset (Fin size) :=
  Finset.univ.filter fun i => test i = true

theorem mem_places {size : ℕ} {test : Fin size → Bool} {i : Fin size} :
    i ∈ places test ↔ test i = true := by
  simp [places]

/-- There is no place if and only if looking for the lowest one fails. -/
theorem places_eq_empty_iff {size : ℕ} {test : Fin size → Bool} :
    places test = ∅ ↔ Fin.find? test = none := by
  rw [Fin.find?_eq_none_iff, Finset.eq_empty_iff_forall_notMem]
  simp only [mem_places, Bool.not_eq_true]

/-! ## Slots -/

/-- A slot: the name it carries and whether it is live. -/
structure Slot (Name : Type*) where
  name : Option Name
  live : Bool
deriving DecidableEq

/-- A table of `size` slots. -/
abbrev Table (size : ℕ) (Name : Type*) := Fin size → Slot Name

variable {size : ℕ} {Name : Type*}

/-- A slot that carries no name. -/
def Slot.empty : Slot Name := ⟨none, false⟩

/-- The lowest slot that is not live. -/
def firstFree (table : Table size Name) : Option (Fin size) :=
  Fin.find? fun i => !(table i).live

/-- The names of the live slots. -/
def liveNames (table : Table size Name) : Set Name :=
  {name | ∃ i, (table i).live = true ∧ (table i).name = some name}

/-- Every live slot is the lowest one that carries its name. -/
def FirstOfName (table : Table size Name) : Prop :=
  ∀ i name, (table i).live = true → (table i).name = some name →
    ∀ j < i, (table j).name ≠ some name

/-- Every live slot carries a name. -/
def LiveNamed (table : Table size Name) : Prop :=
  ∀ i, (table i).live = true → ∃ name, (table i).name = some name

/-- Put a name into the lowest free slot, live if it is granted. -/
def fill (table : Table size Name) (name : Name) (granted : Bool) : Table size Name :=
  match firstFree table with
  | some i => Function.update table i ⟨some name, granted⟩
  | none => table

theorem firstFree_eq_some_iff {table : Table size Name} {i : Fin size} :
    firstFree table = some i ↔ (table i).live = false ∧ ∀ j < i, (table j).live = true := by
  simp [firstFree]

theorem firstFree_eq_none_iff {table : Table size Name} :
    firstFree table = none ↔ ∀ i, (table i).live = true := by
  simp [firstFree]

theorem fill_of_firstFree {table : Table size Name} {i : Fin size}
    (hfree : firstFree table = some i) (name : Name) (granted : Bool) :
    fill table name granted = Function.update table i ⟨some name, granted⟩ := by
  simp only [fill, hfree]

theorem fill_of_full {table : Table size Name} (hfull : firstFree table = none) (name : Name)
    (granted : Bool) : fill table name granted = table := by
  simp only [fill, hfull]

/-- Filling does not touch a live slot. -/
theorem fill_apply_of_live {table : Table size Name} {i : Fin size}
    (hlive : (table i).live = true) (name : Name) (granted : Bool) :
    fill table name granted i = table i := by
  cases hfree : firstFree table with
  | none => rw [fill_of_full hfree]
  | some j =>
      have hdead : (table j).live = false := (firstFree_eq_some_iff.mp hfree).1
      have hne : i ≠ j := by
        intro heq
        subst heq
        simp [hdead] at hlive
      rw [fill_of_firstFree hfree, Function.update_of_ne hne]

/-- Overwriting a slot changes the live names by the two contents of that slot. -/
theorem mem_liveNames_update {table : Table size Name} {i : Fin size} {slot : Slot Name}
    {name : Name} :
    name ∈ liveNames (Function.update table i slot) ↔
      (slot.live = true ∧ slot.name = some name) ∨
        ∃ j, j ≠ i ∧ (table j).live = true ∧ (table j).name = some name := by
  constructor
  · intro hmem
    obtain ⟨j, hlive, hname⟩ := hmem
    by_cases hj : j = i
    · subst hj
      rw [Function.update_self] at hlive hname
      exact Or.inl ⟨hlive, hname⟩
    · rw [Function.update_of_ne hj] at hlive hname
      exact Or.inr ⟨j, hj, hlive, hname⟩
  · rintro (⟨hlive, hname⟩ | ⟨j, hj, hlive, hname⟩)
    · exact ⟨i, by simpa using hlive, by simpa using hname⟩
    · exact ⟨j, by rwa [Function.update_of_ne hj], by rwa [Function.update_of_ne hj]⟩

/-! ## Filling -/

/-- Filling a slot adds the name to the live names if it is granted, and leaves
them as they were if not. -/
theorem liveNames_fill {table : Table size Name} {i : Fin size}
    (hfree : firstFree table = some i) (name : Name) (granted : Bool) :
    liveNames (fill table name granted) =
      if granted then insert name (liveNames table) else liveNames table := by
  have hdead : (table i).live = false := (firstFree_eq_some_iff.mp hfree).1
  have hothers : ∀ other, (∃ j, j ≠ i ∧ (table j).live = true ∧ (table j).name = some other) ↔
      other ∈ liveNames table := by
    intro other
    constructor
    · intro hexists
      obtain ⟨j, -, hlive, hname⟩ := hexists
      exact ⟨j, hlive, hname⟩
    · intro hmem
      obtain ⟨j, hlive, hname⟩ := hmem
      refine ⟨j, ?_, hlive, hname⟩
      intro hj
      subst hj
      simp [hdead] at hlive
  rw [fill_of_firstFree hfree]
  ext other
  rw [mem_liveNames_update, hothers]
  cases granted
  · simp
  · simp [eq_comm]

/-- Filling keeps `FirstOfName` when the name is not live already: the slots
below the lowest free one are all live, and every other slot stays as it was. -/
theorem FirstOfName.fill {table : Table size Name} (hfirst : FirstOfName table) {name : Name}
    (hnew : name ∉ liveNames table) (granted : Bool) :
    FirstOfName (fill table name granted) := by
  cases hfree : firstFree table with
  | none => rwa [fill_of_full hfree]
  | some i =>
      rw [fill_of_firstFree hfree]
      obtain ⟨hdead, hbelow⟩ := firstFree_eq_some_iff.mp hfree
      intro k other hlive hk j hjk hj
      by_cases hki : k = i
      · subst hki
        -- the slots below the new entry are live, so that none of them has its name
        rw [Function.update_self] at hk
        obtain rfl : name = other := Option.some.inj hk
        rw [Function.update_of_ne hjk.ne] at hj
        exact hnew ⟨j, hbelow j hjk, hj⟩
      · rw [Function.update_of_ne hki] at hlive hk
        by_cases hji : j = i
        · subst hji
          -- a live entry above the new one has another name
          rw [Function.update_self] at hj
          obtain rfl : name = other := Option.some.inj hj
          exact hnew ⟨k, hlive, hk⟩
        · rw [Function.update_of_ne hji] at hj
          exact hfirst k other hlive hk j hjk hj

/-! ## Releasing -/

variable [DecidableEq Name]

/-- The lowest slot that carries a name. -/
def firstNamed (table : Table size Name) (name : Name) : Option (Fin size) :=
  Fin.find? fun i => (table i).name == some name

/-- Empty the lowest slot that carries the name. -/
def release (table : Table size Name) (name : Name) : Table size Name :=
  match firstNamed table name with
  | some i => Function.update table i Slot.empty
  | none => table

theorem firstNamed_eq_some_iff {table : Table size Name} {name : Name} {i : Fin size} :
    firstNamed table name = some i ↔
      (table i).name = some name ∧ ∀ j < i, (table j).name ≠ some name := by
  simp [firstNamed]

theorem firstNamed_eq_none_iff {table : Table size Name} {name : Name} :
    firstNamed table name = none ↔ ∀ i, (table i).name ≠ some name := by
  simp [firstNamed]

theorem release_of_firstNamed {table : Table size Name} {name : Name} {i : Fin size}
    (hnamed : firstNamed table name = some i) :
    release table name = Function.update table i Slot.empty := by
  simp only [release, hnamed]

/-- Releasing a name does not touch a slot of another name. -/
theorem release_apply_of_ne {table : Table size Name} {i : Fin size} {name : Name}
    (hname : (table i).name ≠ some name) : release table name i = table i := by
  cases hnamed : firstNamed table name with
  | none => simp only [release, hnamed]
  | some j =>
      have hcarries : (table j).name = some name := (firstNamed_eq_some_iff.mp hnamed).1
      have hne : i ≠ j := by
        intro heq
        subst heq
        exact hname hcarries
      rw [release_of_firstNamed hnamed, Function.update_of_ne hne]

theorem FirstOfName.firstNamed_eq {table : Table size Name} (hfirst : FirstOfName table)
    {i : Fin size} {name : Name} (hlive : (table i).live = true)
    (hname : (table i).name = some name) : firstNamed table name = some i :=
  firstNamed_eq_some_iff.mpr ⟨hname, hfirst i name hlive hname⟩

/-- Releasing a name takes exactly it out of the live names. -/
theorem liveNames_release {table : Table size Name} (hfirst : FirstOfName table) (name : Name) :
    liveNames (release table name) = liveNames table \ {name} := by
  cases hnamed : firstNamed table name with
  | none =>
      have habsent : name ∉ liveNames table := fun ⟨i, _, hname⟩ =>
        firstNamed_eq_none_iff.mp hnamed i hname
      simp only [release, hnamed]
      exact (Set.sdiff_singleton_eq_self habsent).symm
  | some i =>
      ext other
      rw [release_of_firstNamed hnamed, mem_liveNames_update, Set.mem_sdiff,
        Set.mem_singleton_iff]
      constructor
      · rintro (⟨hlive, -⟩ | ⟨j, hj, hlive, hname⟩)
        · simp [Slot.empty] at hlive
        · refine ⟨⟨j, hlive, hname⟩, ?_⟩
          -- a live slot of the released name is the lowest one that carries it
          intro heq
          subst heq
          exact hj (Option.some.inj ((hfirst.firstNamed_eq hlive hname).symm.trans hnamed))
      · intro hmem
        obtain ⟨⟨j, hlive, hname⟩, hne⟩ := hmem
        refine Or.inr ⟨j, ?_, hlive, hname⟩
        intro hj
        subst hj
        exact hne (Option.some.inj (hname.symm.trans (firstNamed_eq_some_iff.mp hnamed).1))

omit [DecidableEq Name] in
/-- An emptied slot is not live, so the other slots stay as they were. -/
theorem live_of_live_release {table : Table size Name} {i k : Fin size}
    (hlive : (Function.update table i Slot.empty k).live = true) :
    k ≠ i ∧ (table k).live = true := by
  have hk : k ≠ i := by
    intro hk
    subst hk
    simp [Slot.empty] at hlive
  rw [Function.update_of_ne hk] at hlive
  exact ⟨hk, hlive⟩

theorem FirstOfName.release {table : Table size Name} (hfirst : FirstOfName table)
    (name : Name) : FirstOfName (release table name) := by
  cases hnamed : firstNamed table name with
  | none => simpa only [SlotTable.release, hnamed] using hfirst
  | some i =>
      rw [release_of_firstNamed hnamed]
      intro k other hlive hk j hjk hj
      obtain ⟨hki, hlive⟩ := live_of_live_release hlive
      rw [Function.update_of_ne hki] at hk
      by_cases hji : j = i
      · subst hji
        simp [Slot.empty] at hj
      · rw [Function.update_of_ne hji] at hj
        exact hfirst k other hlive hk j hjk hj

theorem LiveNamed.release {table : Table size Name} (hnamed : LiveNamed table) (name : Name) :
    LiveNamed (release table name) := by
  cases hfirst : firstNamed table name with
  | none => simpa only [SlotTable.release, hfirst] using hnamed
  | some i =>
      rw [release_of_firstNamed hfirst]
      intro k hlive
      obtain ⟨hki, hlive⟩ := live_of_live_release hlive
      rw [Function.update_of_ne hki]
      exact hnamed k hlive

/-! ## Releasing all names -/

/-- The slots that carry a name. -/
def carriers (table : Table size Name) (name : Name) : Finset (Fin size) :=
  places fun i => (table i).name == some name

theorem mem_carriers {table : Table size Name} {name : Name} {i : Fin size} :
    i ∈ carriers table name ↔ (table i).name = some name := by
  rw [carriers, mem_places, beq_iff_eq]

theorem carriers_eq_empty_iff {table : Table size Name} {name : Name} :
    carriers table name = ∅ ↔ firstNamed table name = none :=
  places_eq_empty_iff

/-- Releasing a name takes one of its slots, and none of another name. -/
theorem card_carriers_release (table : Table size Name) (name other : Name) :
    (carriers (release table name) other).card =
      (carriers table other).card - if name = other then 1 else 0 := by
  cases hnamed : firstNamed table name with
  | none =>
      simp only [release, hnamed]
      split
      · next heq => rw [← heq, carriers_eq_empty_iff.mpr hnamed, Finset.card_empty]
      · rfl
  | some i =>
      have hslots : carriers (release table name) other = (carriers table other).erase i := by
        ext j
        rw [release_of_firstNamed hnamed, Finset.mem_erase, mem_carriers, mem_carriers]
        by_cases hj : j = i
        · simp [hj, Slot.empty]
        · simp [hj]
      have hcarries : (table i).name = some name := (firstNamed_eq_some_iff.mp hnamed).1
      rw [hslots]
      split
      · next heq =>
          rw [Finset.card_erase_of_mem (mem_carriers.mpr (hcarries.trans (congrArg some heq)))]
      · next hne =>
          have hnotMem : i ∉ carriers table other := fun hmem =>
            hne (Option.some.inj (hcarries.symm.trans (mem_carriers.mp hmem)))
          rw [Finset.erase_eq_of_notMem hnotMem, Nat.sub_zero]

theorem card_carriers_foldl_release (table : Table size Name) (names : List Name)
    (other : Name) :
    (carriers (names.foldl release table) other).card =
      (carriers table other).card - names.count other := by
  induction names generalizing table with
  | nil => rfl
  | cons name rest ih =>
      rw [List.foldl_cons, ih, card_carriers_release, List.count_cons, Nat.sub_sub, Nat.add_comm]
      simp only [beq_iff_eq]

theorem LiveNamed.foldl_release {table : Table size Name} (hnamed : LiveNamed table)
    (names : List Name) : LiveNamed (names.foldl SlotTable.release table) := by
  induction names generalizing table with
  | nil => exact hnamed
  | cons name rest ih => exact ih (hnamed.release name)

/-- **Emptying.**  If every name is released as often as slots carry it, in whatever
order, no slot is left with a name, and none is live. -/
theorem foldl_release_eq_empty {table : Table size Name} (hnamed : LiveNamed table)
    {names : List Name} (hall : ∀ name, (carriers table name).card ≤ names.count name) :
    names.foldl release table = fun _ => Slot.empty := by
  have hnone : ∀ i, ((names.foldl release table) i).name = none := by
    intro i
    rw [Option.eq_none_iff_forall_ne_some]
    intro name hname
    have hcard := card_carriers_foldl_release table names name
    rw [Nat.sub_eq_zero_of_le (hall name), Finset.card_eq_zero] at hcard
    exact Finset.notMem_empty i (hcard ▸ mem_carriers.mpr hname)
  funext i
  have hdead : ((names.foldl release table) i).live = false := by
    by_contra hlive
    obtain ⟨name, hname⟩ := hnamed.foldl_release names i (by simpa using hlive)
    rw [hnone i] at hname
    cases hname
  rw [Slot.empty, ← hnone i, ← hdead]

/-- The names of the slots, in order. -/
def names (table : Table size Name) : List Name :=
  (List.finRange size).filterMap fun i => (table i).name

omit [DecidableEq Name] in
theorem length_names_le (table : Table size Name) : (names table).length ≤ size :=
  (List.length_filterMap_le ..).trans (List.length_finRange).le

theorem count_names (table : Table size Name) (name : Name) :
    (names table).count name = (carriers table name).card := by
  rw [names, List.count_filterMap, List.countP_eq_length_filter, carriers, places,
    Finset.card_def, Finset.filter_val, Fin.univ_def, Multiset.filter_coe, Multiset.coe_card]
  simp only [Bool.decide_eq_true]

/-! ## Counting -/

omit [DecidableEq Name] in
/-- A full table whose live slots all have names of their own has as many live
names as slots. -/
theorem ncard_liveNames_of_full {table : Table size Name} (hfirst : FirstOfName table)
    (hnamed : LiveNamed table) (hfull : firstFree table = none) :
    (liveNames table).ncard = size := by
  have hlive : ∀ i, (table i).live = true := firstFree_eq_none_iff.mp hfull
  choose nameOf hnameOf using fun i => hnamed i (hlive i)
  have hinjective : Function.Injective nameOf := by
    intro i j heq
    by_contra hne
    -- the upper one of two slots of the same name would not be the first
    rcases lt_or_gt_of_ne hne with hlt | hlt
    · exact hfirst j _ (hlive j) (hnameOf j) i hlt (heq ▸ hnameOf i)
    · exact hfirst i _ (hlive i) (hnameOf i) j hlt (heq ▸ hnameOf j)
  have hrange : liveNames table = Set.range nameOf := by
    ext name
    constructor
    · intro hmem
      obtain ⟨i, -, hname⟩ := hmem
      exact ⟨i, Option.some.inj ((hnameOf i).symm.trans hname)⟩
    · intro hmem
      obtain ⟨i, rfl⟩ := hmem
      exact ⟨i, hlive i, hnameOf i⟩
  rw [hrange, Set.ncard_range_of_injective hinjective, Nat.card_fin]

end SlotTable
