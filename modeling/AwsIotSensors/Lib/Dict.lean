import Mathlib

/-!
# Dictionaries that keep their order

A dictionary is a list of entries with different keys.  A key that is set again keeps
its place, a new one goes to the end; what is found under the keys then changes at
that key only (`get_set`).  Since the keys are different it does not matter from
which end an entry is looked for (`lookup_reverse`).
-/

/-- A dictionary. -/
structure Dict (Key Value : Type*) where
  entries : List (Key × Value)
  nodup : (entries.map Prod.fst).Nodup

namespace Dict

variable {Key Value : Type*} [BEq Key] [LawfulBEq Key]

/-- The value under a key. -/
def get (dict : Dict Key Value) (key : Key) : Option Value :=
  dict.entries.lookup key

/-- The entries after a key is set. -/
def setEntry (key : Key) (value : Value) : List (Key × Value) → List (Key × Value)
  | [] => [(key, value)]
  | entry :: rest =>
      if entry.1 == key then (key, value) :: rest else entry :: setEntry key value rest

theorem mem_keys_setEntry {key other : Key} {value : Value} {entries : List (Key × Value)} :
    other ∈ (setEntry key value entries).map Prod.fst ↔
      other = key ∨ other ∈ entries.map Prod.fst := by
  induction entries with
  | nil => simp [setEntry]
  | cons entry rest ih =>
      by_cases hkey : entry.1 = key
      · simp [setEntry, hkey]
      · rw [setEntry, if_neg (by simpa using hkey), List.map_cons, List.mem_cons, ih, List.map_cons,
          List.mem_cons]
        exact or_left_comm

theorem nodup_setEntry {key : Key} {value : Value} {entries : List (Key × Value)}
    (hnodup : (entries.map Prod.fst).Nodup) :
    ((setEntry key value entries).map Prod.fst).Nodup := by
  induction entries with
  | nil => simp [setEntry]
  | cons entry rest ih =>
      obtain ⟨hentry, hrest⟩ := List.nodup_cons.mp hnodup
      by_cases hkey : entry.1 = key
      · rw [setEntry, if_pos (beq_of_eq hkey), List.map_cons, ← hkey]
        exact hnodup
      · rw [setEntry, if_neg (by simpa using hkey), List.map_cons]
        refine List.nodup_cons.mpr ⟨?_, ih hrest⟩
        rw [mem_keys_setEntry, not_or]
        exact ⟨hkey, hentry⟩

/-- Set a key. -/
def set (dict : Dict Key Value) (key : Key) (value : Value) : Dict Key Value :=
  ⟨setEntry key value dict.entries, nodup_setEntry dict.nodup⟩

theorem lookup_cons_of_ne {key name : Key} {held : Value} {rest : List (Key × Value)}
    (hne : key ≠ name) : ((name, held) :: rest).lookup key = rest.lookup key := by
  rw [List.lookup_cons, beq_false_of_ne hne]

theorem lookup_setEntry (key other : Key) (value : Value) (entries : List (Key × Value)) :
    (setEntry key value entries).lookup other =
      if other == key then some value else entries.lookup other := by
  induction entries with
  | nil =>
      by_cases hother : other = key <;> simp [setEntry, hother]
  | cons entry rest ih =>
      obtain ⟨name, held⟩ := entry
      by_cases hkey : name = key
      · subst hkey
        rw [setEntry, if_pos (beq_self_eq_true name)]
        by_cases hother : other = name
        · rw [hother, List.lookup_cons_self, if_pos (beq_self_eq_true name)]
        · rw [lookup_cons_of_ne hother, lookup_cons_of_ne hother, if_neg (by simpa using hother)]
      · rw [setEntry, if_neg (by simpa using hkey)]
        by_cases hsame : other = name
        · subst hsame
          rw [List.lookup_cons_self, List.lookup_cons_self, if_neg (by simpa using hkey)]
        · rw [lookup_cons_of_ne hsame, lookup_cons_of_ne hsame, ih]

/-- **Setting a key** changes what is found under that key. -/
theorem get_set [DecidableEq Key] (dict : Dict Key Value) (key : Key) (value : Value) :
    (dict.set key value).get = Function.update dict.get key (some value) := by
  funext other
  rw [get, set, lookup_setEntry, Function.update_apply]
  simp only [beq_iff_eq]
  rfl

/-- What is computed of each value is found under its key. -/
theorem lookup_map {Other : Type*} (compute : Value → Other) (key : Key)
    (entries : List (Key × Value)) :
    (entries.map fun entry => (entry.1, compute entry.2)).lookup key =
      (entries.lookup key).map compute := by
  induction entries with
  | nil => rfl
  | cons entry rest ih =>
      obtain ⟨name, held⟩ := entry
      by_cases hkey : key = name
      · subst hkey
        simp
      · rw [List.map_cons, lookup_cons_of_ne hkey, lookup_cons_of_ne hkey, ih]

/-- Different keys are found from both ends. -/
theorem lookup_reverse {entries : List (Key × Value)} (hnodup : (entries.map Prod.fst).Nodup)
    (key : Key) : entries.reverse.lookup key = entries.lookup key := by
  induction entries with
  | nil => rfl
  | cons entry rest ih =>
      obtain ⟨hentry, hrest⟩ := List.nodup_cons.mp hnodup
      obtain ⟨name, held⟩ := entry
      rw [List.reverse_cons, List.lookup_append, ih hrest]
      by_cases hkey : key = name
      · subst hkey
        have hnone : rest.lookup key = none := by
          rw [List.lookup_eq_none_iff]
          intro other hother
          have hne : key ≠ other.1 := by
            intro hsame
            exact hentry (List.mem_map.mpr ⟨other, hother, hsame.symm⟩)
          simpa using hne
        simp [hnone]
      · rw [lookup_cons_of_ne hkey, lookup_cons_of_ne hkey, List.lookup_nil, Option.or_none]

/-- Every entry is found under its key. -/
theorem lookup_of_mem {entries : List (Key × Value)} (hnodup : (entries.map Prod.fst).Nodup)
    {entry : Key × Value} (hmem : entry ∈ entries) : entries.lookup entry.1 = some entry.2 := by
  induction entries with
  | nil => cases hmem
  | cons other rest ih =>
      obtain ⟨hother, hrest⟩ := List.nodup_cons.mp hnodup
      obtain ⟨name, held⟩ := other
      rcases List.mem_cons.mp hmem with rfl | hlater
      · exact List.lookup_cons_self
      · have hne : entry.1 ≠ name := by
          intro hsame
          exact hother (List.mem_map.mpr ⟨entry, hlater, hsame⟩)
        rw [lookup_cons_of_ne hne, ih hrest hlater]

/-- What holds of all entries holds of all that is found. -/
theorem forall_entries_iff (dict : Dict Key Value) (holds : Key → Value → Prop) :
    (∀ entry ∈ dict.entries, holds entry.1 entry.2) ↔
      ∀ key value, dict.get key = some value → holds key value := by
  constructor
  · intro hall key value hget
    obtain ⟨before, after, hentries, -⟩ := List.lookup_eq_some_iff.mp hget
    exact hall (key, value) (by simp [hentries])
  · intro hall entry hentry
    exact hall entry.1 entry.2 (lookup_of_mem dict.nodup hentry)

end Dict
