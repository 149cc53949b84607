import Mathlib.Tactic

/-!
# C strings in a flat memory

A memory maps addresses to `char`s, and a C string is what stands between an
address and the first NUL from there on.  Nothing but the NUL says where a
string ends, so a string that is copied over its neighbour's first `char`, or
whose own NUL is overwritten, changes what is read from the other.

* `CStringAt memory address text`: the C string that starts at `address` is `text`;
* `strcpy`: the writes of the C function, the terminator included;
* `cstringAt_strcpy`, `cstringAt_strcpy_of_disjoint`: the copy is read back, and
  a string that shares no cell with the writes is kept.

A Lean `Char` stands for one C `char`.
-/

namespace CString

/-- The terminator of a C string. -/
def nul : Char := '\x00'

/-- The contents of a C string: `char`s other than NUL. -/
structure Text where
  chars : List Char
  nul_notMem : nul ∉ chars
deriving DecidableEq

/-- The text of a literal without NUL. -/
def Text.ofString (literal : String) (h : nul ∉ literal.toList := by decide) : Text :=
  ⟨literal.toList, h⟩

/-- The text as a `String`, to be printed by `%s`. -/
def Text.toString (text : Text) : String :=
  String.ofList text.chars

/-- `strlen`. -/
def strlen (text : Text) : ℕ :=
  text.chars.length

/-- A byte-addressed memory. -/
abbrev Memory := ℕ → Char

/-- The C string that starts at `address` is exactly `chars`.  This is the
comparison `strcmp` makes: `char` by `char`, up to the terminator. -/
def ReadsAs (memory : Memory) : ℕ → List Char → Prop
  | address, [] => memory address = nul
  | address, char :: rest => memory address = char ∧ ReadsAs memory (address + 1) rest

instance ReadsAs.decidable (memory : Memory) :
    ∀ address chars, Decidable (ReadsAs memory address chars)
  | address, [] => inferInstanceAs (Decidable (memory address = nul))
  | address, char :: rest =>
      have := ReadsAs.decidable memory (address + 1) rest
      inferInstanceAs (Decidable (memory address = char ∧ _))

/-- The C string that starts at `address` is `text`. -/
def CStringAt (memory : Memory) (address : ℕ) (text : Text) : Prop :=
  ReadsAs memory address text.chars

instance (memory : Memory) (address : ℕ) (text : Text) :
    Decidable (CStringAt memory address text) :=
  inferInstanceAs (Decidable (ReadsAs memory address text.chars))

/-- `strcmp(address, text) == 0`. -/
def strcmpEq (memory : Memory) (address : ℕ) (text : Text) : Bool :=
  decide (CStringAt memory address text)

/-- What `%s` prints: the `char`s from `address` up to the first NUL, if that is one of
the first `limit` cells. -/
def cstringWithin (memory : Memory) : ℕ → ℕ → Option (List Char)
  | _, 0 => none
  | address, limit + 1 =>
      if memory address = nul then some []
      else (cstringWithin memory (address + 1) limit).map fun rest => memory address :: rest

/-- The writes of `strcpy(dst, chars)`, in order: the `char`s and a NUL. -/
def strcpyWrites : ℕ → List Char → List (ℕ × Char)
  | dst, [] => [(dst, nul)]
  | dst, char :: rest => (dst, char) :: strcpyWrites (dst + 1) rest

/-- The memory after a list of writes. -/
def store (memory : Memory) (writes : List (ℕ × Char)) : Memory :=
  writes.foldl (fun current write => Function.update current write.1 write.2) memory

/-- `strcpy(dst, text)`. -/
def strcpy (memory : Memory) (dst : ℕ) (text : Text) : Memory :=
  store memory (strcpyWrites dst text.chars)

/-! ## Reading -/

theorem ReadsAs.unique {memory : Memory} {address : ℕ} {first second : List Char}
    (hfirst : ReadsAs memory address first) (hsecond : ReadsAs memory address second)
    (hnul₁ : nul ∉ first) (hnul₂ : nul ∉ second) : first = second := by
  induction first generalizing address second with
  | nil =>
      cases second with
      | nil => rfl
      | cons char rest =>
          -- the terminator of the first text would be a `char` of the second
          have hchar : char = nul := hsecond.1.symm.trans hfirst
          exact absurd (List.mem_cons.mpr (Or.inl hchar.symm)) hnul₂
  | cons char rest ih =>
      cases second with
      | nil =>
          have hchar : char = nul := hfirst.1.symm.trans hsecond
          exact absurd (List.mem_cons.mpr (Or.inl hchar.symm)) hnul₁
      | cons other more =>
          have hchar : char = other := hfirst.1.symm.trans hsecond.1
          have hrest : rest = more :=
            ih hfirst.2 hsecond.2 (fun h => hnul₁ (List.mem_cons_of_mem _ h))
              fun h => hnul₂ (List.mem_cons_of_mem _ h)
          rw [hchar, hrest]

/-- At most one C string starts at an address. -/
theorem CStringAt.unique {memory : Memory} {address : ℕ} {first second : Text}
    (hfirst : CStringAt memory address first) (hsecond : CStringAt memory address second) :
    first = second := by
  obtain ⟨chars₁, hnul₁⟩ := first
  obtain ⟨chars₂, hnul₂⟩ := second
  have hchars : chars₁ = chars₂ := ReadsAs.unique hfirst hsecond hnul₁ hnul₂
  subst hchars
  rfl

/-- Reading depends on the cells up to the terminator only. -/
theorem ReadsAs.congr {memory other : Memory} {address : ℕ} {chars : List Char}
    (hreads : ReadsAs memory address chars)
    (hagree : ∀ cell, address ≤ cell → cell ≤ address + chars.length →
      other cell = memory cell) :
    ReadsAs other address chars := by
  induction chars generalizing address with
  | nil => exact (hagree address le_rfl (Nat.le_add_right _ _)).trans hreads
  | cons char rest ih =>
      refine ⟨(hagree address le_rfl (Nat.le_add_right _ _)).trans hreads.1,
        ih hreads.2 fun cell hlow hhigh => hagree cell (by omega) ?_⟩
      simp only [List.length_cons]
      omega

/-- A C string ends with a NUL. -/
theorem ReadsAs.terminator {memory : Memory} {address : ℕ} {chars : List Char}
    (hreads : ReadsAs memory address chars) : memory (address + chars.length) = nul := by
  induction chars generalizing address with
  | nil => exact hreads
  | cons char rest ih =>
      have hrest := ih hreads.2
      rwa [Nat.add_assoc, Nat.add_comm 1] at hrest

/-- The string that starts at an address is found, if it ends soon enough. -/
theorem cstringWithin_of_readsAs {memory : Memory} {address limit : ℕ} {chars : List Char}
    (hreads : ReadsAs memory address chars) (hnul : nul ∉ chars) (hlimit : chars.length < limit) :
    cstringWithin memory address limit = some chars := by
  induction chars generalizing address limit with
  | nil =>
      obtain ⟨limit, rfl⟩ := Nat.exists_eq_succ_of_ne_zero hlimit.ne'
      have hend : memory address = nul := hreads
      rw [cstringWithin, if_pos hend]
  | cons char rest ih =>
      obtain ⟨limit, rfl⟩ := Nat.exists_eq_succ_of_ne_zero (Nat.ne_zero_of_lt hlimit)
      obtain ⟨hchar, hrest⟩ := hreads
      obtain ⟨hfirst, hnul⟩ := List.ne_and_not_mem_of_not_mem_cons hnul
      have hfound := ih hrest hnul (Nat.lt_of_succ_lt_succ hlimit)
      rw [cstringWithin, hchar, if_neg hfirst.symm, hfound]
      rfl

/-! ## Writing -/

theorem mem_strcpyWrites {dst : ℕ} {chars : List Char} {write : ℕ × Char}
    (hmem : write ∈ strcpyWrites dst chars) :
    dst ≤ write.1 ∧ write.1 ≤ dst + chars.length := by
  induction chars generalizing dst with
  | nil =>
      obtain rfl := List.mem_singleton.mp hmem
      simp
  | cons head rest ih =>
      rcases List.mem_cons.mp hmem with rfl | hrest
      · exact ⟨le_rfl, Nat.le_add_right _ _⟩
      · have := ih hrest
        simp only [List.length_cons]
        omega

/-- The terminator is the last write, `strlen` cells after the start. -/
theorem terminator_mem_strcpyWrites (dst : ℕ) (chars : List Char) :
    (dst + chars.length, nul) ∈ strcpyWrites dst chars := by
  induction chars generalizing dst with
  | nil => simp [strcpyWrites]
  | cons char rest ih =>
      have hrest := ih (dst + 1)
      rw [show dst + 1 + rest.length = dst + (char :: rest).length by
        simp only [List.length_cons]; omega] at hrest
      exact List.mem_cons_of_mem _ hrest

theorem store_apply_of_notMem {memory : Memory} {writes : List (ℕ × Char)} {cell : ℕ}
    (hcell : ∀ write ∈ writes, write.1 ≠ cell) : store memory writes cell = memory cell := by
  induction writes generalizing memory with
  | nil => rfl
  | cons write rest ih =>
      have hrest : ∀ later ∈ rest, later.1 ≠ cell := fun later hlater =>
        hcell later (List.mem_cons_of_mem _ hlater)
      have hhead : cell ≠ write.1 := (hcell write (List.mem_cons_self ..)).symm
      calc store memory (write :: rest) cell
          = store (Function.update memory write.1 write.2) rest cell := rfl
        _ = Function.update memory write.1 write.2 cell := ih hrest
        _ = memory cell := Function.update_of_ne hhead _ _

/-- A cell outside `[dst, dst + strlen]` is left alone by `strcpy`. -/
theorem strcpy_apply_of_outside {memory : Memory} {dst cell : ℕ} {text : Text}
    (houtside : cell < dst ∨ dst + strlen text < cell) :
    strcpy memory dst text cell = memory cell := by
  refine store_apply_of_notMem fun write hwrite heq => ?_
  have hrange := mem_strcpyWrites hwrite
  unfold strlen at houtside
  omega

theorem readsAs_store (memory : Memory) (dst : ℕ) (chars : List Char) :
    ReadsAs (store memory (strcpyWrites dst chars)) dst chars := by
  induction chars generalizing memory dst with
  | nil => simp [ReadsAs, strcpyWrites, store]
  | cons char rest ih =>
      refine ⟨?_, ih (Function.update memory dst char) (dst + 1)⟩
      -- the later writes are to higher addresses
      have hlater : ∀ write ∈ strcpyWrites (dst + 1) rest, write.1 ≠ dst := by
        intro write hwrite heq
        have := mem_strcpyWrites hwrite
        omega
      calc store memory (strcpyWrites dst (char :: rest)) dst
          = store (Function.update memory dst char) (strcpyWrites (dst + 1) rest) dst := rfl
        _ = Function.update memory dst char dst := store_apply_of_notMem hlater
        _ = char := Function.update_self ..

/-- What `strcpy` wrote is read back. -/
theorem cstringAt_strcpy (memory : Memory) (dst : ℕ) (text : Text) :
    CStringAt (strcpy memory dst text) dst text :=
  readsAs_store memory dst text.chars

/-- A string that shares no cell with the copy is kept. -/
theorem cstringAt_strcpy_of_disjoint {memory : Memory} {dst address : ℕ} {text kept : Text}
    (hkept : CStringAt memory address kept)
    (hdisjoint : address + strlen kept < dst ∨ dst + strlen text < address) :
    CStringAt (strcpy memory dst text) address kept := by
  refine ReadsAs.congr hkept fun cell hlow hhigh => strcpy_apply_of_outside ?_
  unfold strlen at hdisjoint ⊢
  omega

end CString
