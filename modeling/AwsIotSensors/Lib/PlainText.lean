import Mathlib

/-!
# Plain texts: blanks, separators, decimal numerals

A text is the list of its `char`s.

* `trim` removes blanks at both ends, and gives a text without blanks back from
  any indentation (`trim_indented`);
* what stands before the first occurrence of a separator is determined
  (`append_cons_inj`), so a printed number is read off up to any `char` that
  cannot be part of it (`repr_append_inj`), and so are all parts of a joined text
  (`intercalate_inj`);
* an output is split into lines again, each line into those that it contains
  (`linesOf_putLines`);
* a number is determined by its digits in any base up to 16 (`toDigits_inj`);
* `readNat` reads a decimal numeral, and dropping its last `k` digits divides by
  `10 ^ k` (`readNat_take`).
-/

namespace PlainText

/-! ## Blanks -/

/-- An ASCII blank. -/
def isBlank (char : Char) : Bool :=
  [' ', '\t', '\n', '\x0b', '\x0c', '\r'].contains char

/-- The text without the blanks at its two ends. -/
def trim (text : List Char) : List Char :=
  (text.dropWhile isBlank).rdropWhile isBlank

theorem dropWhile_blanks_append {blanks text : List Char} (hblanks : ∀ char ∈ blanks, isBlank char)
    (htext : ∀ char ∈ text, ¬ isBlank char) :
    (blanks ++ text).dropWhile isBlank = text := by
  rw [List.dropWhile_append_of_pos hblanks]
  cases text with
  | nil => rfl
  | cons char rest => exact List.dropWhile_cons_of_neg (htext char (List.mem_cons_self ..))

/-- A text without blanks is what `trim` leaves of it between blanks. -/
theorem trim_indented {before text later : List Char} (hbefore : ∀ char ∈ before, isBlank char)
    (htext : ∀ char ∈ text, ¬ isBlank char) (hlater : ∀ char ∈ later, isBlank char) :
    trim (before ++ text ++ later) = text := by
  unfold trim List.rdropWhile
  cases text with
  | nil =>
      have hall : ∀ char ∈ before ++ [] ++ later, isBlank char := by
        simpa [or_imp, forall_and] using ⟨hbefore, hlater⟩
      rw [List.dropWhile_eq_nil_iff.mpr hall]
      rfl
  | cons char rest =>
      have hhead : (before ++ char :: rest ++ later).dropWhile isBlank = char :: rest ++ later := by
        rw [List.append_assoc, List.dropWhile_append_of_pos hbefore]
        exact List.dropWhile_cons_of_neg (htext char (List.mem_cons_self ..))
      rw [hhead, List.reverse_append, dropWhile_blanks_append (by simpa using hlater)
        (fun char hmem => htext char (List.mem_reverse.mp hmem)), List.reverse_reverse]

theorem trim_of_notBlank {text : List Char} (htext : ∀ char ∈ text, ¬ isBlank char) :
    trim text = text := by
  have hindented : trim ([] ++ text ++ []) = text := trim_indented (by simp) htext (by simp)
  simpa using hindented

/-! ## Separators -/

/-- What stands before the first separator, and what after it, is determined. -/
theorem append_cons_inj {α : Type*} {sep : α} {first second rest₁ rest₂ : List α}
    (hfirst : sep ∉ first) (hsecond : sep ∉ second)
    (heq : first ++ sep :: rest₁ = second ++ sep :: rest₂) :
    first = second ∧ rest₁ = rest₂ := by
  induction first generalizing second with
  | nil =>
      cases second with
      | nil => exact ⟨rfl, List.tail_eq_of_cons_eq heq⟩
      | cons char second =>
          -- the second text would start with the separator
          exact absurd (List.mem_cons.mpr (Or.inl (List.head_eq_of_cons_eq heq))) hsecond
  | cons char first ih =>
      cases second with
      | nil => exact absurd (List.mem_cons.mpr (Or.inl (List.head_eq_of_cons_eq heq).symm)) hfirst
      | cons char' second =>
          obtain ⟨rfl, htail⟩ := List.cons.inj heq
          obtain ⟨hsame, hrest⟩ := ih (fun h => hfirst (List.mem_cons_of_mem _ h))
            (fun h => hsecond (List.mem_cons_of_mem _ h)) htail
          exact ⟨by rw [hsame], hrest⟩

/-- Parts without the separator are determined by what they are joined to. -/
theorem intercalate_inj {α : Type*} [DecidableEq α] {sep : α} {first second : List (List α)}
    (hfirst : ∀ part ∈ first, sep ∉ part) (hsecond : ∀ part ∈ second, sep ∉ part)
    (hfirst' : first ≠ []) (hsecond' : second ≠ [])
    (heq : List.intercalate [sep] first = List.intercalate [sep] second) : first = second := by
  have hsplit := congrArg (List.splitOn sep) heq
  rwa [List.splitOn_intercalate sep hfirst hfirst',
    List.splitOn_intercalate sep hsecond hsecond'] at hsplit

/-! ## Beginnings -/

/-- A text that begins with one of two texts, neither of which begins with the other, does
not begin with the other. -/
theorem dropPrefix_eq_none {start other text : List Char} (hbegins : other <+: text)
    (hclash : ¬ start <+: other ∧ ¬ other <+: start) : text.dropPrefix? start = none := by
  rw [Option.eq_none_iff_forall_ne_some]
  intro rest hrest
  obtain ⟨front, hline, hfront⟩ := List.dropPrefix?_eq_some_iff.mp hrest
  obtain rfl := eq_of_beq hfront
  rcases List.prefix_or_prefix_of_prefix (hline ▸ List.prefix_append ..) hbegins with hle | hle
  · exact hclash.1 hle
  · exact hclash.2 hle

/-! ## Lines -/

/-- The lines of an output, and what stands behind the last newline. -/
def linesOf (output : List Char) : List (List Char) :=
  output.splitOn '\n'

/-- What `puts` makes of some lines. -/
def putLines (lines : List (List Char)) : List Char :=
  lines.flatMap fun line => line ++ ['\n']

theorem linesOf_append (first second : List Char) :
    linesOf (first ++ '\n' :: second) = linesOf first ++ linesOf second :=
  List.splitOnP_append_cons first second (beq_self_eq_true '\n')

theorem linesOf_of_notMem {line : List Char} (hline : '\n' ∉ line) : linesOf line = [line] := by
  apply List.splitOnP_eq_singleton
  intro char hmem
  rw [beq_eq_false_iff_ne]
  intro heq
  exact hline (heq ▸ hmem)

theorem linesOf_putLines (lines : List (List Char)) :
    linesOf (putLines lines) = lines.flatMap linesOf ++ [[]] := by
  induction lines with
  | nil => rfl
  | cons line lines ih =>
      calc linesOf (putLines (line :: lines))
          = linesOf (line ++ '\n' :: putLines lines) := by simp [putLines]
        _ = linesOf line ++ (lines.flatMap linesOf ++ [[]]) := by rw [linesOf_append, ih]
        _ = (line :: lines).flatMap linesOf ++ [[]] := by
            rw [List.flatMap_cons, List.append_assoc]

/-! ## Numerals -/

/-- A printed number consists of the digits of its base. -/
theorem exists_of_mem_toDigits {char : Char} {base value : ℕ} (hbase : 1 < base)
    (hmem : char ∈ Nat.toDigits base value) : ∃ digit < base, char = Nat.digitChar digit := by
  induction value using Nat.strong_induction_on with
  | _ value ih =>
      rcases Nat.lt_or_ge value base with hlt | hle
      · rw [Nat.toDigits_of_lt_base hlt, List.mem_singleton] at hmem
        exact ⟨value, hlt, hmem⟩
      · rw [Nat.toDigits_of_base_le hbase hle, List.mem_append, List.mem_singleton] at hmem
        rcases hmem with hmore | hlast
        · exact ih (value / base) (Nat.div_lt_self (by omega) hbase) hmore
        · exact ⟨value % base, Nat.mod_lt _ (by omega), hlast⟩

theorem digitChar_inj {first second : ℕ} (hfirst : first < 16) (hsecond : second < 16)
    (heq : Nat.digitChar first = Nat.digitChar second) : first = second := by
  have hall : ∀ first < 16, ∀ second < 16,
      Nat.digitChar first = Nat.digitChar second → first = second := by decide
  exact hall first hfirst second hsecond heq

/-- Up to base 16, a number is determined by its digits. -/
theorem toDigits_inj {base : ℕ} (hbase : 1 < base) (hsixteen : base ≤ 16) {first second : ℕ}
    (heq : Nat.toDigits base first = Nat.toDigits base second) : first = second := by
  induction first using Nat.strong_induction_on generalizing second with
  | _ first ih =>
      rcases Nat.lt_or_ge first base with hlt₁ | hle₁ <;>
        rcases Nat.lt_or_ge second base with hlt₂ | hle₂
      · rw [Nat.toDigits_of_lt_base hlt₁, Nat.toDigits_of_lt_base hlt₂] at heq
        exact digitChar_inj (by omega) (by omega) (List.singleton_inj.mp heq)
      · -- one digit against at least two
        rw [Nat.toDigits_of_lt_base hlt₁, Nat.toDigits_of_base_le hbase hle₂] at heq
        have hlength := congrArg List.length heq
        have hpos := Nat.length_toDigits_pos (b := base) (n := second / base)
        simp only [List.length_append, List.length_singleton] at hlength
        omega
      · rw [Nat.toDigits_of_base_le hbase hle₁, Nat.toDigits_of_lt_base hlt₂] at heq
        have hlength := congrArg List.length heq
        have hpos := Nat.length_toDigits_pos (b := base) (n := first / base)
        simp only [List.length_append, List.length_singleton] at hlength
        omega
      · rw [Nat.toDigits_of_base_le hbase hle₁, Nat.toDigits_of_base_le hbase hle₂] at heq
        obtain ⟨hmore, hlast⟩ := List.append_inj' heq rfl
        have hquotient := ih (first / base) (Nat.div_lt_self (by omega) hbase) hmore
        have hremainder : first % base = second % base :=
          digitChar_inj (lt_of_lt_of_le (Nat.mod_lt _ (by omega)) hsixteen)
            (lt_of_lt_of_le (Nat.mod_lt _ (by omega)) hsixteen) (List.singleton_inj.mp hlast)
        rw [← Nat.div_add_mod first base, ← Nat.div_add_mod second base, hquotient, hremainder]

/-- A printed natural number consists of digits. -/
theorem isDigit_of_mem_natRepr {char : Char} {value : ℕ} (hmem : char ∈ value.repr.toList) :
    char.isDigit := by
  rw [Nat.toList_repr] at hmem
  exact Nat.isDigit_of_mem_toDigits (by decide) (by decide) hmem

/-- A printed number consists of digits and a sign. -/
theorem notMem_repr {char : Char} (hdigit : ¬ char.isDigit) (hsign : char ≠ '-') (value : ℤ) :
    char ∉ value.repr.toList := by
  intro hmem
  cases value with
  | ofNat n => exact hdigit (isDigit_of_mem_natRepr hmem)
  | negSucc n =>
      rw [Int.repr, String.toList_append, List.mem_append] at hmem
      rcases hmem with hminus | hdigits
      · exact hsign (List.mem_singleton.mp hminus)
      · exact hdigit (isDigit_of_mem_natRepr hdigits)

/-- A printed number is read off up to a `char` that cannot be part of it. -/
theorem repr_append_inj (char : Char) (hdigit : ¬ char.isDigit) (hsign : char ≠ '-')
    {first second : ℤ} {rest₁ rest₂ : List Char}
    (heq : first.repr.toList ++ char :: rest₁ = second.repr.toList ++ char :: rest₂) :
    first = second ∧ rest₁ = rest₂ := by
  obtain ⟨hrepr, hrest⟩ := append_cons_inj (notMem_repr hdigit hsign first)
    (notMem_repr hdigit hsign second) heq
  exact ⟨Int.repr_injective (String.toList_inj.mp hrepr), hrest⟩

/-- The number that a text of digits denotes. -/
def readNat (text : List Char) : Option ℕ :=
  if text ≠ [] ∧ text.all Char.isDigit then some (Nat.ofDigitChars 10 text 0) else none

/-- Digits denote less than a power of ten. -/
theorem ofDigitChars_lt {digits : List Char} (hdigits : ∀ char ∈ digits, char.isDigit) :
    Nat.ofDigitChars 10 digits 0 < 10 ^ digits.length := by
  induction digits with
  | nil => simp
  | cons char digits ih =>
      obtain ⟨hchar, hrest⟩ := List.forall_mem_cons.mp hdigits
      have hdigit : char.toNat - '0'.toNat ≤ 9 := by
        have hle := (Char.isDigit_iff_toNat.mp hchar).2
        have hzero : '0'.toNat = 48 := rfl
        have hnine : '9'.toNat = 57 := rfl
        omega
      rw [Nat.ofDigitChars_cons, Nat.ofDigitChars_eq_ofDigitChars_zero, List.length_cons]
      calc 10 ^ digits.length * (10 * 0 + (char.toNat - '0'.toNat)) + Nat.ofDigitChars 10 digits 0
          < 10 ^ digits.length * (char.toNat - '0'.toNat) + 10 ^ digits.length := by
            rw [Nat.mul_zero, Nat.zero_add]
            exact Nat.add_lt_add_left (ih hrest) _
        _ = 10 ^ digits.length * (char.toNat - '0'.toNat + 1) := (Nat.mul_succ _ _).symm
        _ ≤ 10 ^ digits.length * 10 := Nat.mul_le_mul_left _ (by omega)

/-- A numeral without its last `k` digits is read as the quotient by `10 ^ k`,
with leading zeros as well. -/
theorem readNat_take {text : List Char} {value k : ℕ} (hread : readNat text = some value)
    (hlength : k < text.length) :
    readNat (text.take (text.length - k)) = some (value / 10 ^ k) := by
  unfold readNat at hread ⊢
  split at hread
  · next hdigits =>
      obtain rfl := Option.some.inj hread
      have hall : ∀ char ∈ text, char.isDigit := List.all_eq_true.mp hdigits.2
      have hkept : text.take (text.length - k) ≠ [] ∧
          (text.take (text.length - k)).all Char.isDigit := by
        refine ⟨?_, List.all_eq_true.mpr fun char hmem => hall char (List.mem_of_mem_take hmem)⟩
        rw [← List.length_pos_iff, List.length_take]
        omega
      -- the digits that go denote less than the power
      have hgone : Nat.ofDigitChars 10 (text.drop (text.length - k)) 0 < 10 ^ k := by
        have hlt := ofDigitChars_lt fun char hmem =>
          hall char (List.mem_of_mem_drop (i := text.length - k) hmem)
        rwa [List.length_drop, Nat.sub_sub_self hlength.le] at hlt
      have hdropped : (text.drop (text.length - k)).length = k := by
        rw [List.length_drop, Nat.sub_sub_self hlength.le]
      rw [if_pos hkept]
      conv_rhs => rw [← List.take_append_drop (text.length - k) text]
      rw [Nat.ofDigitChars_append, Nat.ofDigitChars_eq_ofDigitChars_zero
        (l := text.drop (text.length - k)), hdropped,
        Nat.mul_add_div (by positivity), Nat.div_eq_of_lt hgone, Nat.add_zero]
  · cases hread

end PlainText
