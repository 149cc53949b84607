import Mathlib

/-!
# JSON documents

A reader for JSON texts (RFC 8259).  Numbers are read exactly, as rationals; of
strings the escapes are checked but not resolved, so that a string is known by
the text between its quotes.

`value depth` reads one value of at most `depth` levels, and `parse` a whole
text, for which its length is enough (`value_of_value`).  A text is put together
from parts through `Reads` and `ReadsMembers`, which say what a part is read as
wherever it stands: `reads_decimal` for numbers, `readsMembers_last`,
`readsMembers_cons` and `reads_object` for objects, `parse_of_reads` for the
whole.  The result of a part may be that it is not a value: then the whole is not
a document.
-/

namespace Json

/-- A JSON value. -/
inductive Value
  | null
  | bool (value : Bool)
  | number (value : ℚ)
  | string (raw : String)
  | array (elements : List Value)
  | object (members : List (String × Value))

/-- What a reader has read, and what is left of the text. -/
abbrev Parser (α : Type) := List Char → Option (α × List Char)

/-- JSON white space. -/
def isBlank (char : Char) : Bool :=
  char == ' ' || char == '\t' || char == '\n' || char == '\r'

/-- The text after its leading blanks. -/
def skipBlanks (text : List Char) : List Char :=
  text.dropWhile isBlank

/-! ## Numbers -/

/-- One digit or more. -/
def digits : Parser (List Char) := fun text =>
  if text.takeWhile Char.isDigit = [] then none
  else some (text.takeWhile Char.isDigit, text.dropWhile Char.isDigit)

/-- The number that digits denote. -/
def natural (digits : List Char) : ℕ :=
  Nat.ofDigitChars 10 digits 0

/-- An integer part: a single `0`, or digits that do not start with `0`. -/
def integer : Parser (List Char) := fun text =>
  match digits text with
  | some ('0' :: _ :: _, _) => none
  | read => read

/-- A fraction, if there is a point. -/
def fraction : Parser (List Char)
  | '.' :: rest => digits rest
  | text => some ([], text)

/-- An exponent, if there is an `e`. -/
def exponent : Parser ℤ := fun text =>
  match text with
  | [] => some (0, [])
  | char :: rest =>
      if char == 'e' || char == 'E' then
        match rest with
        | '-' :: rest => (digits rest).map fun (read, rest) => (-(natural read : ℤ), rest)
        | '+' :: rest => (digits rest).map fun (read, rest) => (natural read, rest)
        | rest => (digits rest).map fun (read, rest) => (natural read, rest)
      else some (0, text)

/-- A number without a sign. -/
def unsigned : Parser ℚ := fun text => do
  let (whole, rest) ← integer text
  let (decimals, rest) ← fraction rest
  let (power, rest) ← exponent rest
  some (natural (whole ++ decimals) / 10 ^ decimals.length * 10 ^ power, rest)

/-- A number. -/
def number : Parser ℚ
  | '-' :: rest => (unsigned rest).map fun (read, rest) => (-read, rest)
  | text => unsigned text

/-! ## Strings -/

/-- A hexadecimal digit. -/
def isHexDigit (char : Char) : Bool :=
  char.isDigit || ('a' ≤ char && char ≤ 'f') || ('A' ≤ char && char ≤ 'F')

/-- The rest of a string after its opening quote, as it is written. -/
def stringBody : Parser (List Char)
  | [] => none
  | '"' :: rest => some ([], rest)
  | '\\' :: 'u' :: a :: b :: c :: d :: rest =>
      if [a, b, c, d].all isHexDigit then
        (stringBody rest).map fun (read, rest) => ('\\' :: 'u' :: a :: b :: c :: d :: read, rest)
      else none
  | '\\' :: char :: rest =>
      if "\"\\/bfnrt".toList.contains char then
        (stringBody rest).map fun (read, rest) => ('\\' :: char :: read, rest)
      else none
  | char :: rest =>
      if char < ' ' then none
      else (stringBody rest).map fun (read, rest) => (char :: read, rest)

/-! ## Values -/

/-- The three literal names. -/
def literal : Parser Value := fun text =>
  if "true".toList <+: text then some (.bool true, text.drop 4)
  else if "false".toList <+: text then some (.bool false, text.drop 5)
  else if "null".toList <+: text then some (.null, text.drop 4)
  else none

/-- The elements of an array up to its closing bracket, at most `count` of them. -/
def elements (item : Parser Value) : ℕ → Parser (List Value)
  | 0, _ => none
  | count + 1, text => do
      let (first, rest) ← item text
      match skipBlanks rest with
      | ',' :: rest =>
          let (more, rest) ← elements item count rest
          some (first :: more, rest)
      | ']' :: rest => some ([first], rest)
      | _ => none

/-- A name, a colon and a value. -/
def member (item : Parser Value) : Parser (String × Value) := fun text =>
  match skipBlanks text with
  | '"' :: rest => do
      let (name, rest) ← stringBody rest
      match skipBlanks rest with
      | ':' :: rest =>
          let (read, rest) ← item rest
          some ((String.ofList name, read), rest)
      | _ => none
  | _ => none

/-- The members of an object up to its closing brace, at most `count` of them. -/
def members (item : Parser Value) : ℕ → Parser (List (String × Value))
  | 0, _ => none
  | count + 1, text => do
      let (first, rest) ← member item text
      match skipBlanks rest with
      | ',' :: rest =>
          let (more, rest) ← members item count rest
          some (first :: more, rest)
      | '}' :: rest => some ([first], rest)
      | _ => none

/-- A value of at most `depth` levels, after blanks. -/
def value : ℕ → Parser Value
  | 0, _ => none
  | depth + 1, text =>
      match skipBlanks text with
      | '{' :: rest =>
          match skipBlanks rest with
          | '}' :: rest => some (.object [], rest)
          | _ => (members (value depth) rest.length rest).map fun (read, rest) =>
              (.object read, rest)
      | '[' :: rest =>
          match skipBlanks rest with
          | ']' :: rest => some (.array [], rest)
          | _ => (elements (value depth) rest.length rest).map fun (read, rest) =>
              (.array read, rest)
      | '"' :: rest => (stringBody rest).map fun (read, rest) =>
          (.string (String.ofList read), rest)
      | text => (literal text).or ((number text).map fun (read, rest) => (.number read, rest))

/-- The value of a whole text. -/
def parse (text : List Char) : Option Value :=
  match value text.length text with
  | some (read, rest) => if skipBlanks rest = [] then some read else none
  | none => none

/-! ## Depth

A reader never gives back more text than it was given, so a value cannot have
more levels than `char`s. -/

/-- What is left is no longer than the text. -/
def Shrinks {α : Type} (parser : Parser α) : Prop :=
  ∀ text read rest, parser text = some (read, rest) → rest.length ≤ text.length

theorem length_skipBlanks_le (text : List Char) : (skipBlanks text).length ≤ text.length :=
  (List.dropWhile_sublist _).length_le

theorem digits_shrinks : Shrinks digits := by
  intro text read rest hread
  unfold digits at hread
  split at hread
  · simp at hread
  · obtain ⟨-, rfl⟩ := Prod.mk.inj (Option.some.inj hread)
    exact (List.dropWhile_sublist _).length_le

theorem integer_shrinks : Shrinks integer := by
  intro text read rest hread
  unfold integer at hread
  split at hread
  · simp at hread
  · exact digits_shrinks text read rest hread

theorem fraction_shrinks : Shrinks fraction := by
  intro text read rest hread
  unfold fraction at hread
  split at hread
  · next later => exact (digits_shrinks later read rest hread).trans (by simp)
  · obtain ⟨-, rfl⟩ := Prod.mk.inj (Option.some.inj hread)
    exact le_rfl

theorem exponent_shrinks : Shrinks exponent := by
  intro text read rest hread
  cases text with
  | nil =>
      obtain ⟨-, rfl⟩ := Prod.mk.inj (Option.some.inj hread)
      exact le_rfl
  | cons char text =>
      simp only [exponent] at hread
      split at hread
      · -- all three forms end with digits
        split at hread <;>
          obtain ⟨⟨found, left⟩, hfound, heq⟩ := Option.map_eq_some_iff.mp hread <;>
          obtain ⟨-, rfl⟩ := Prod.mk.inj heq <;>
          have hle := digits_shrinks _ _ _ hfound <;>
          simp only [List.length_cons] at * <;> omega
      · obtain ⟨-, rfl⟩ := Prod.mk.inj (Option.some.inj hread)
        exact le_rfl

theorem unsigned_shrinks : Shrinks unsigned := by
  intro text read rest hread
  simp only [unsigned, Option.bind_eq_bind, Option.bind_eq_some_iff] at hread
  obtain ⟨⟨whole, rest₁⟩, hwhole, ⟨decimals, rest₂⟩, hdecimals, ⟨power, rest₃⟩, hpower, heq⟩ :=
    hread
  obtain ⟨-, rfl⟩ := Prod.mk.inj (Option.some.inj heq)
  calc rest₃.length
      ≤ rest₂.length := exponent_shrinks _ _ _ hpower
    _ ≤ rest₁.length := fraction_shrinks _ _ _ hdecimals
    _ ≤ text.length := integer_shrinks _ _ _ hwhole

theorem number_shrinks : Shrinks number := by
  intro text read rest hread
  unfold number at hread
  split at hread
  · obtain ⟨⟨found, left⟩, hfound, heq⟩ := Option.map_eq_some_iff.mp hread
    obtain ⟨-, rfl⟩ := Prod.mk.inj heq
    exact (unsigned_shrinks _ _ _ hfound).trans (by simp)
  · exact unsigned_shrinks text read rest hread

theorem stringBody_shrinks : Shrinks stringBody := by
  intro text
  fun_induction stringBody text with
  | case1 => simp
  | case2 rest => simp
  | case3 a b c d rest hhex ih =>
      intro read left hread
      obtain ⟨⟨found, later⟩, hfound, heq⟩ := Option.map_eq_some_iff.mp hread
      obtain ⟨-, rfl⟩ := Prod.mk.inj heq
      have hle := ih found later hfound
      simp only [List.length_cons]
      omega
  | case4 => simp
  | case5 char rest hescape hsome ih =>
      intro read left hread
      obtain ⟨⟨found, later⟩, hfound, heq⟩ := Option.map_eq_some_iff.mp hread
      obtain ⟨-, rfl⟩ := Prod.mk.inj heq
      have hle := ih found later hfound
      simp only [List.length_cons]
      omega
  | case6 => simp
  | case7 => simp
  | case8 char rest hquote hescape hbackslash hcontrol ih =>
      intro read left hread
      obtain ⟨⟨found, later⟩, hfound, heq⟩ := Option.map_eq_some_iff.mp hread
      obtain ⟨-, rfl⟩ := Prod.mk.inj heq
      have hle := ih found later hfound
      simp only [List.length_cons]
      omega

theorem literal_shrinks : Shrinks literal := by
  intro text read rest hread
  unfold literal at hread
  split at hread
  · obtain ⟨-, rfl⟩ := Prod.mk.inj (Option.some.inj hread)
    simp
  · split at hread
    · obtain ⟨-, rfl⟩ := Prod.mk.inj (Option.some.inj hread)
      simp
    · split at hread
      · obtain ⟨-, rfl⟩ := Prod.mk.inj (Option.some.inj hread)
        simp
      · simp at hread

section Items

variable {item other : Parser Value} {bound : ℕ}

theorem member_shrinks (hitem : Shrinks item) : Shrinks (member item) := by
  intro text read rest hread
  unfold member at hread
  split at hread
  · next body hbody =>
      simp only [Option.bind_eq_bind, Option.bind_eq_some_iff] at hread
      obtain ⟨⟨name, rest₁⟩, hname, hread⟩ := hread
      dsimp only at hread
      split at hread
      · next after hafter =>
          simp only [Option.bind_eq_some_iff] at hread
          obtain ⟨⟨found, rest₂⟩, hfound, heq⟩ := hread
          dsimp only at heq
          obtain ⟨-, rfl⟩ := Prod.mk.inj (Option.some.inj heq)
          have htext := length_skipBlanks_le text
          have hrest := length_skipBlanks_le rest₁
          have hstring := stringBody_shrinks _ _ _ hname
          have hvalue := hitem _ _ _ hfound
          rw [hbody, List.length_cons] at htext
          rw [hafter, List.length_cons] at hrest
          omega
      · simp at hread
  · simp at hread

theorem members_shrinks (hitem : Shrinks item) (count : ℕ) : Shrinks (members item count) := by
  induction count with
  | zero => simp [Shrinks, members]
  | succ count ih =>
      intro text read rest hread
      simp only [members, Option.bind_eq_bind, Option.bind_eq_some_iff] at hread
      obtain ⟨⟨first, rest₁⟩, hfirst, hread⟩ := hread
      have hmember := member_shrinks hitem _ _ _ hfirst
      have hskip := length_skipBlanks_le rest₁
      dsimp only at hread
      split at hread
      · next rest₂ hrest₂ =>
          simp only [Option.bind_eq_some_iff] at hread
          obtain ⟨⟨more, rest₃⟩, hmore, heq⟩ := hread
          dsimp only at heq
          obtain ⟨-, rfl⟩ := Prod.mk.inj (Option.some.inj heq)
          have hlater := ih _ _ _ hmore
          rw [hrest₂, List.length_cons] at hskip
          omega
      · next rest₂ hrest₂ =>
          obtain ⟨-, rfl⟩ := Prod.mk.inj (Option.some.inj hread)
          rw [hrest₂, List.length_cons] at hskip
          omega
      · simp at hread

theorem elements_shrinks (hitem : Shrinks item) (count : ℕ) : Shrinks (elements item count) := by
  induction count with
  | zero => simp [Shrinks, elements]
  | succ count ih =>
      intro text read rest hread
      simp only [elements, Option.bind_eq_bind, Option.bind_eq_some_iff] at hread
      obtain ⟨⟨first, rest₁⟩, hfirst, hread⟩ := hread
      have hvalue := hitem _ _ _ hfirst
      have hskip := length_skipBlanks_le rest₁
      dsimp only at hread
      split at hread
      · next rest₂ hrest₂ =>
          simp only [Option.bind_eq_some_iff] at hread
          obtain ⟨⟨more, rest₃⟩, hmore, heq⟩ := hread
          dsimp only at heq
          obtain ⟨-, rfl⟩ := Prod.mk.inj (Option.some.inj heq)
          have hlater := ih _ _ _ hmore
          rw [hrest₂, List.length_cons] at hskip
          omega
      · next rest₂ hrest₂ =>
          obtain ⟨-, rfl⟩ := Prod.mk.inj (Option.some.inj hread)
          rw [hrest₂, List.length_cons] at hskip
          omega
      · simp at hread

/-- The second reader agrees with the first on what the first reads of texts up to
a length. -/
def Agrees (item other : Parser Value) (bound : ℕ) : Prop :=
  ∀ text read, text.length ≤ bound → item text = some read → other text = some read

theorem member_agrees (hagrees : Agrees item other bound) {text : List Char}
    (htext : text.length ≤ bound) {read : (String × Value) × List Char}
    (hread : member item text = some read) : member other text = some read := by
  unfold member at hread ⊢
  split at hread
  · next body hbody =>
      simp only [Option.bind_eq_bind, Option.bind_eq_some_iff] at hread
      obtain ⟨⟨name, rest₁⟩, hname, hread⟩ := hread
      dsimp only at hread
      split at hread
      · next after hafter =>
          simp only [Option.bind_eq_some_iff] at hread
          obtain ⟨⟨found, rest₂⟩, hfound, heq⟩ := hread
          have hlength : after.length ≤ bound := by
            have hskip := length_skipBlanks_le text
            have hrest := length_skipBlanks_le rest₁
            have hstring := stringBody_shrinks _ _ _ hname
            rw [hbody, List.length_cons] at hskip
            rw [hafter, List.length_cons] at hrest
            omega
          simp only [Option.bind_eq_bind, hname, Option.bind_some, hafter,
            hagrees after _ hlength hfound]
          exact heq
      · simp at hread
  · simp at hread

theorem members_agrees (hitem : Shrinks item) (hagrees : Agrees item other bound) {count : ℕ}
    {text : List Char} (htext : text.length ≤ bound) {read : List (String × Value) × List Char}
    (hread : members item count text = some read) : members other count text = some read := by
  induction count generalizing text read with
  | zero => simp [members] at hread
  | succ count ih =>
      simp only [members, Option.bind_eq_bind, Option.bind_eq_some_iff] at hread ⊢
      obtain ⟨⟨first, rest₁⟩, hfirst, hread⟩ := hread
      refine ⟨(first, rest₁), member_agrees hagrees htext hfirst, ?_⟩
      dsimp only at hread ⊢
      split at hread
      · next rest₂ hrest₂ =>
          simp only [Option.bind_eq_some_iff] at hread
          obtain ⟨⟨more, rest₃⟩, hmore, heq⟩ := hread
          have hlength : rest₂.length ≤ bound := by
            have hmember := member_shrinks hitem _ _ _ hfirst
            have hskip := length_skipBlanks_le rest₁
            rw [hrest₂, List.length_cons] at hskip
            omega
          simp only [ih hlength hmore, Option.bind_some]
          exact heq
      · next rest₂ hrest₂ => simpa only [hrest₂] using hread
      · simp at hread

theorem elements_agrees (hitem : Shrinks item) (hagrees : Agrees item other bound) {count : ℕ}
    {text : List Char} (htext : text.length ≤ bound) {read : List Value × List Char}
    (hread : elements item count text = some read) : elements other count text = some read := by
  induction count generalizing text read with
  | zero => simp [elements] at hread
  | succ count ih =>
      simp only [elements, Option.bind_eq_bind, Option.bind_eq_some_iff] at hread ⊢
      obtain ⟨⟨first, rest₁⟩, hfirst, hread⟩ := hread
      refine ⟨(first, rest₁), hagrees text _ htext hfirst, ?_⟩
      dsimp only at hread ⊢
      split at hread
      · next rest₂ hrest₂ =>
          simp only [Option.bind_eq_some_iff] at hread
          obtain ⟨⟨more, rest₃⟩, hmore, heq⟩ := hread
          have hlength : rest₂.length ≤ bound := by
            have hvalue := hitem _ _ _ hfirst
            have hskip := length_skipBlanks_le rest₁
            rw [hrest₂, List.length_cons] at hskip
            omega
          simp only [ih hlength hmore, Option.bind_some]
          exact heq
      · next rest₂ hrest₂ => simpa only [hrest₂] using hread
      · simp at hread

end Items

theorem value_shrinks (depth : ℕ) : Shrinks (value depth) := by
  induction depth with
  | zero => simp [Shrinks, value]
  | succ depth ih =>
      intro text read rest hread
      have hskip := length_skipBlanks_le text
      unfold value at hread
      split at hread
      · next body hbody =>
          rw [hbody, List.length_cons] at hskip
          split at hread
          · next left hleft =>
              obtain ⟨-, rfl⟩ := Prod.mk.inj (Option.some.inj hread)
              have hbody := length_skipBlanks_le body
              rw [hleft, List.length_cons] at hbody
              omega
          · obtain ⟨⟨found, left⟩, hfound, heq⟩ := Option.map_eq_some_iff.mp hread
            obtain ⟨-, rfl⟩ := Prod.mk.inj heq
            have hle := members_shrinks ih _ _ _ _ hfound
            omega
      · next body hbody =>
          rw [hbody, List.length_cons] at hskip
          split at hread
          · next left hleft =>
              obtain ⟨-, rfl⟩ := Prod.mk.inj (Option.some.inj hread)
              have hbody := length_skipBlanks_le body
              rw [hleft, List.length_cons] at hbody
              omega
          · obtain ⟨⟨found, left⟩, hfound, heq⟩ := Option.map_eq_some_iff.mp hread
            obtain ⟨-, rfl⟩ := Prod.mk.inj heq
            have hle := elements_shrinks ih _ _ _ _ hfound
            omega
      · next body hbody =>
          rw [hbody, List.length_cons] at hskip
          obtain ⟨⟨found, left⟩, hfound, heq⟩ := Option.map_eq_some_iff.mp hread
          obtain ⟨-, rfl⟩ := Prod.mk.inj heq
          have hle := stringBody_shrinks _ _ _ hfound
          omega
      · rcases Option.or_eq_some_iff.mp hread with hliteral | ⟨-, hnumber⟩
        · exact (literal_shrinks _ _ _ hliteral).trans hskip
        · obtain ⟨⟨found, left⟩, hfound, heq⟩ := Option.map_eq_some_iff.mp hnumber
          obtain ⟨-, rfl⟩ := Prod.mk.inj heq
          exact (number_shrinks _ _ _ hfound).trans hskip

/-- **Depth does not matter**: what is read at some depth is read at any larger one,
and at any depth that is at least the length of the text. -/
theorem value_of_value {depth more : ℕ} {text : List Char} {read : Value × List Char}
    (hread : value depth text = some read) (hmore : depth ≤ more ∨ text.length ≤ more) :
    value more text = some read := by
  induction depth generalizing more text read with
  | zero => simp [value] at hread
  | succ depth ih =>
      have hskip := length_skipBlanks_le text
      cases more with
      | zero =>
          -- there is nothing to be read
          obtain rfl : text = [] := List.eq_nil_of_length_eq_zero (by omega)
          simp [value, skipBlanks, literal, number, unsigned, integer, digits] at hread
      | succ more =>
          unfold value at hread ⊢
          split at hread
          · next body hbody =>
              rw [hbody, List.length_cons] at hskip
              have hagrees : Agrees (value depth) (value more) body.length :=
                fun part _ hpart hfound => ih hfound (by omega)
              split at hread
              · next left hleft => simpa only [hbody, hleft] using hread
              · obtain ⟨found, hfound, heq⟩ := Option.map_eq_some_iff.mp hread
                simp only [members_agrees (value_shrinks depth) hagrees le_rfl hfound,
                  Option.map_some]
                exact congrArg some heq
          · next body hbody =>
              rw [hbody, List.length_cons] at hskip
              have hagrees : Agrees (value depth) (value more) body.length :=
                fun part _ hpart hfound => ih hfound (by omega)
              split at hread
              · next left hleft => simpa only [hbody, hleft] using hread
              · obtain ⟨found, hfound, heq⟩ := Option.map_eq_some_iff.mp hread
                simp only [elements_agrees (value_shrinks depth) hagrees le_rfl hfound,
                  Option.map_some]
                exact congrArg some heq
          · next body hbody => simpa only [hbody] using hread
          · exact hread

/-! ## Where a value stands -/

/-- All blanks. -/
def Blanks (text : List Char) : Prop :=
  ∀ char ∈ text, isBlank char = true

instance (text : List Char) : Decidable (Blanks text) :=
  List.decidableBAll _ text

/-- What may follow a value: nothing, a blank, a comma or a closing bracket. -/
def Stops (rest : List Char) : Prop :=
  ∀ char ∈ rest.head?, isBlank char = true ∨ char = ',' ∨ char = ']' ∨ char = '}'

theorem stops_nil : Stops [] := by simp [Stops]

theorem stops_blanks_append {blanks rest : List Char} (hblanks : Blanks blanks)
    (hrest : Stops rest) : Stops (blanks ++ rest) := by
  cases blanks with
  | nil => exact hrest
  | cons char blanks =>
      have hchar : isBlank char = true := hblanks char (List.mem_cons_self ..)
      simp [Stops, hchar]

theorem skipBlanks_append {blanks : List Char} (hblanks : Blanks blanks) (rest : List Char) :
    skipBlanks (blanks ++ rest) = skipBlanks rest :=
  List.dropWhile_append_of_pos hblanks

theorem skipBlanks_cons {char : Char} (hchar : isBlank char = false) (rest : List Char) :
    skipBlanks (char :: rest) = char :: rest :=
  List.dropWhile_cons_of_neg (by simp [hchar])

/-- The text is read as the value, wherever it stands and however deep the reader
may go beyond `depth`; `none` means that it is not read as a value. -/
def Reads (depth : ℕ) (text : List Char) (result : Option Value) : Prop :=
  ∀ more rest, depth ≤ more → Stops rest →
    value more (text ++ rest) = result.map fun read => (read, rest)

theorem Reads.of_eq {depth : ℕ} {text : List Char} {result other : Option Value}
    (htext : Reads depth text result) (heq : result = other) : Reads depth text other :=
  heq ▸ htext

/-- Blanks before a value are skipped. -/
theorem Reads.blanks {depth : ℕ} {text blanks : List Char} {result : Option Value}
    (htext : Reads depth text result) (hblanks : Blanks blanks) :
    Reads depth (blanks ++ text) result := by
  intro more rest hmore hrest
  rw [← htext more rest hmore hrest]
  cases more with
  | zero => rfl
  | succ more => rw [value, value, List.append_assoc, skipBlanks_append hblanks]

/-- The value of a text that is read as a whole. -/
theorem parse_of_reads {depth : ℕ} {text : List Char} {result : Option Value}
    (htext : Reads depth text result) : parse text = result := by
  have hvalue := htext (max depth text.length) [] (Nat.le_max_left ..) stops_nil
  rw [List.append_nil] at hvalue
  unfold parse
  cases result with
  | none =>
      -- what is not read at a larger depth is not read at this one
      cases hread : value text.length text with
      | none => rfl
      | some read =>
          rw [value_of_value hread (Or.inl (Nat.le_max_right ..))] at hvalue
          simp at hvalue
  | some read =>
      rw [value_of_value hvalue (Or.inr le_rfl)]
      simp [skipBlanks]

/-! ## Reading numbers -/

theorem Stops.not_digit {rest : List Char} (hrest : Stops rest) :
    ∀ char ∈ rest.head?, char.isDigit = false := by
  intro char hchar
  rcases hrest char hchar with hblank | rfl | rfl | rfl
  · simp only [isBlank, Bool.or_eq_true, beq_iff_eq] at hblank
    rcases hblank with ((rfl | rfl) | rfl) | rfl <;> rfl
  · rfl
  · rfl
  · rfl

theorem digits_append {run rest : List Char} (hrun : run ≠ [])
    (hdigits : ∀ char ∈ run, char.isDigit = true)
    (hrest : ∀ char ∈ rest.head?, char.isDigit = false) :
    digits (run ++ rest) = some (run, rest) := by
  have hstop : rest.takeWhile Char.isDigit = [] ∧ rest.dropWhile Char.isDigit = rest := by
    cases rest with
    | nil => exact ⟨rfl, rfl⟩
    | cons char rest =>
        have hchar : char.isDigit = false := hrest char rfl
        simp [hchar]
  unfold digits
  rw [List.takeWhile_append_of_pos hdigits, List.dropWhile_append_of_pos hdigits, hstop.1,
    hstop.2, List.append_nil, if_neg hrun]

theorem digits_eq_none {text : List Char} (htext : ∀ char ∈ text.head?, char.isDigit = false) :
    digits text = none := by
  cases text with
  | nil => rfl
  | cons char rest =>
      have hchar : char.isDigit = false := htext char rfl
      simp [digits, hchar]

/-- An integer part. -/
structure Whole (run : List Char) : Prop where
  nonempty : run ≠ []
  isDigit : ∀ char ∈ run, char.isDigit = true
  noLeadingZero : ∀ rest, run = '0' :: rest → rest = []

theorem integer_append {run rest : List Char} (hrun : Whole run)
    (hrest : ∀ char ∈ rest.head?, char.isDigit = false) :
    integer (run ++ rest) = some (run, rest) := by
  unfold integer
  rw [digits_append hrun.nonempty hrun.isDigit hrest]
  split
  · next heq =>
      obtain ⟨rfl, -⟩ := Prod.mk.inj (Option.some.inj heq)
      exact absurd (hrun.noLeadingZero _ rfl) (by simp)
  · rfl

/-- The decimals after a point, or nothing. -/
def pointed (decimals : List Char) : List Char :=
  if decimals = [] then [] else '.' :: decimals

theorem fraction_pointed {decimals rest : List Char}
    (hdecimals : ∀ char ∈ decimals, char.isDigit = true) (hrest : Stops rest) :
    fraction (pointed decimals ++ rest) = some (decimals, rest) := by
  unfold pointed
  split
  · next hnone =>
      subst hnone
      rw [List.nil_append]
      unfold fraction
      split
      · next hpoint => exact absurd (hrest '.' rfl) (by decide)
      · rfl
  · next hsome => exact digits_append hsome hdecimals hrest.not_digit

theorem exponent_of_stops {rest : List Char} (hrest : Stops rest) :
    exponent rest = some (0, rest) := by
  cases rest with
  | nil => rfl
  | cons char rest =>
      have hchar : (char == 'e' || char == 'E') = false := by
        rcases hrest char rfl with hblank | rfl | rfl | rfl
        · simp only [isBlank, Bool.or_eq_true, beq_iff_eq] at hblank
          rcases hblank with ((rfl | rfl) | rfl) | rfl <;> rfl
        · rfl
        · rfl
        · rfl
      simp only [exponent, hchar, Bool.false_eq_true, if_false]

/-- The text of a number without exponent. -/
def decimalText (negative : Bool) (whole decimals : List Char) : List Char :=
  (if negative then ['-'] else []) ++ (whole ++ pointed decimals)

/-- The number it denotes. -/
def decimalValue (negative : Bool) (whole decimals : List Char) : ℚ :=
  (if negative then -1 else 1) * (natural (whole ++ decimals) / 10 ^ decimals.length)

theorem unsigned_append {whole decimals rest : List Char} (hwhole : Whole whole)
    (hdecimals : ∀ char ∈ decimals, char.isDigit = true) (hrest : Stops rest) :
    unsigned (whole ++ pointed decimals ++ rest) =
      some ((natural (whole ++ decimals) : ℚ) / 10 ^ decimals.length, rest) := by
  have hpoint : ∀ char ∈ (pointed decimals ++ rest).head?, char.isDigit = false := by
    unfold pointed
    split
    · exact hrest.not_digit
    · simp
  unfold unsigned
  rw [List.append_assoc, integer_append hwhole hpoint]
  simp only [Option.bind_eq_bind, Option.bind_some, fraction_pointed hdecimals hrest,
    exponent_of_stops hrest, zpow_zero, mul_one]

theorem number_decimal {negative : Bool} {whole decimals rest : List Char}
    (hwhole : Whole whole) (hdecimals : ∀ char ∈ decimals, char.isDigit = true)
    (hrest : Stops rest) :
    number (decimalText negative whole decimals ++ rest) =
      some (decimalValue negative whole decimals, rest) := by
  have hunsigned := unsigned_append hwhole hdecimals hrest
  cases negative with
  | true =>
      simp only [decimalText, decimalValue, if_true, List.cons_append, List.nil_append, number,
        hunsigned, Option.map_some, neg_one_mul]
  | false =>
      simp only [decimalText, decimalValue, Bool.false_eq_true, if_false, List.nil_append,
        one_mul]
      -- an integer part does not start with a minus sign
      obtain ⟨first, run, rfl⟩ := List.exists_cons_of_ne_nil hwhole.nonempty
      have hfirst : first ≠ '-' := by
        intro heq
        exact absurd (hwhole.isDigit first (List.mem_cons_self ..)) (by simp [heq])
      rw [← hunsigned]
      unfold number
      split
      · next heq => exact absurd (List.head_eq_of_cons_eq heq) hfirst
      · rfl

/-- The head of a text that is read as a number, if it is read at all. -/
def NumberHead (char : Char) : Prop :=
  isBlank char = false ∧ char ≠ '{' ∧ char ≠ '[' ∧ char ≠ '"' ∧ char ≠ 't' ∧ char ≠ 'f' ∧
    char ≠ 'n'

instance (char : Char) : Decidable (NumberHead char) :=
  inferInstanceAs (Decidable (_ ∧ _))

theorem numberHead_of_isDigit {char : Char} (hchar : char.isDigit = true) : NumberHead char := by
  refine ⟨?_, ?_, ?_, ?_, ?_, ?_, ?_⟩
  · by_contra hblank
    simp only [isBlank, Bool.not_eq_false, Bool.or_eq_true, beq_iff_eq] at hblank
    rcases hblank with ((rfl | rfl) | rfl) | rfl <;> exact absurd hchar (by decide)
  all_goals
    rintro rfl
    exact absurd hchar (by decide)

theorem literal_of_numberHead {char : Char} (hhead : NumberHead char) (rest : List Char) :
    literal (char :: rest) = none := by
  obtain ⟨-, -, -, -, ht, hf, hn⟩ := hhead
  simp [literal, ht.symm, hf.symm, hn.symm]

theorem value_of_head {char : Char} {text : List Char} {depth : ℕ}
    (hblank : isBlank char = false) (hbrace : char ≠ '{') (hbracket : char ≠ '[')
    (hquote : char ≠ '"') :
    value (depth + 1) (char :: text) = (literal (char :: text)).or
      ((number (char :: text)).map fun (read, rest) => (.number read, rest)) := by
  rw [value, skipBlanks_cons hblank]
  split
  · next heq => exact absurd (List.head_eq_of_cons_eq heq) hbrace
  · next heq => exact absurd (List.head_eq_of_cons_eq heq) hbracket
  · next heq => exact absurd (List.head_eq_of_cons_eq heq) hquote
  · rfl

/-- What `number` makes of a text with such a head is what the text is read as. -/
theorem reads_number {char : Char} {text : List Char} {result : Option ℚ}
    (hhead : NumberHead char)
    (hnumber : ∀ rest, Stops rest →
      number (char :: (text ++ rest)) = result.map fun read => (read, rest)) :
    Reads 1 (char :: text) (result.map .number) := by
  intro more rest hmore hrest
  obtain ⟨more, rfl⟩ : ∃ less, more = less + 1 := ⟨more - 1, by omega⟩
  have hliteral := literal_of_numberHead hhead (text ++ rest)
  obtain ⟨hblank, hbrace, hbracket, hquote, -⟩ := hhead
  rw [List.cons_append, value_of_head hblank hbrace hbracket hquote, hliteral,
    hnumber rest hrest, Option.none_or]
  cases result <;> rfl

/-- A number without exponent is read as the number it denotes. -/
theorem reads_decimal (negative : Bool) {whole decimals : List Char} (hwhole : Whole whole)
    (hdecimals : ∀ char ∈ decimals, char.isDigit = true) :
    Reads 1 (decimalText negative whole decimals)
      (some (.number (decimalValue negative whole decimals))) := by
  have hnumber : ∀ rest, Stops rest → number (decimalText negative whole decimals ++ rest) =
      (some (decimalValue negative whole decimals)).map fun read => (read, rest) :=
    fun rest hrest => number_decimal hwhole hdecimals hrest
  obtain ⟨first, run, hrun⟩ := List.exists_cons_of_ne_nil hwhole.nonempty
  have hfirst : first.isDigit = true := hwhole.isDigit first (by simp [hrun])
  cases negative with
  | true => exact reads_number (by decide) hnumber
  | false =>
      have htext : decimalText false whole decimals = first :: (run ++ pointed decimals) := by
        simp [decimalText, hrun]
      rw [htext] at hnumber ⊢
      exact reads_number (numberHead_of_isDigit hfirst) hnumber

/-- A number needs a digit before the point. -/
theorem reads_point (negative : Bool) (text : List Char) :
    Reads 1 ((if negative then ['-'] else []) ++ '.' :: text) none := by
  have hunsigned : ∀ rest, unsigned ('.' :: rest) = none := by
    intro rest
    have hdigits : digits ('.' :: rest) = none := digits_eq_none (by simp)
    simp [unsigned, integer, hdigits]
  cases negative with
  | true =>
      have hnumber : ∀ rest, Stops rest → number ('-' :: ('.' :: text ++ rest)) =
          (none : Option ℚ).map fun read => (read, rest) := by
        intro rest _
        rw [number, List.cons_append, hunsigned]
        rfl
      exact reads_number (by decide) hnumber
  | false =>
      have hnumber : ∀ rest, Stops rest → number ('.' :: (text ++ rest)) =
          (none : Option ℚ).map fun read => (read, rest) :=
        fun rest _ => hunsigned (text ++ rest)
      exact reads_number (by decide) hnumber

/-! ## Printed numbers -/

/-- A printed natural number starts with `0` only if it is 0. -/
theorem head_toDigits_ne_zero {n : ℕ} (hn : n ≠ 0) : (Nat.toDigits 10 n).head? ≠ some '0' := by
  induction n using Nat.strong_induction_on with
  | _ n ih =>
      rcases Nat.lt_or_ge n 10 with hlt | hge
      · rw [Nat.toDigits_of_lt_base hlt]
        simpa using hn
      · have hquotient := ih (n / 10) (Nat.div_lt_self (by omega) (by decide)) (by omega)
        rw [Nat.toDigits_of_base_le (by decide) hge,
          List.head?_append_of_ne_nil _ Nat.toDigits_ne_nil]
        exact hquotient

/-- A printed natural number is an integer part. -/
theorem whole_toDigits (n : ℕ) : Whole (Nat.toDigits 10 n) := by
  refine ⟨Nat.toDigits_ne_nil, ?_, ?_⟩
  · intro char hchar
    exact Nat.isDigit_of_mem_toDigits (by decide) (by decide) hchar
  · intro rest heq
    by_cases hn : n = 0
    · subst hn
      exact (List.cons.inj heq).2.symm
    · exact absurd (by rw [heq]; rfl) (head_toDigits_ne_zero hn)

theorem natural_append (first second : List Char) :
    natural (first ++ second) = 10 ^ second.length * natural first + natural second := by
  unfold natural
  rw [Nat.ofDigitChars_append, Nat.ofDigitChars_eq_ofDigitChars_zero]

theorem natural_toDigits (n : ℕ) : natural (Nat.toDigits 10 n) = n :=
  Nat.ofDigitChars_ten_toDigits

/-- The last `k` digits of a number, zeros included. -/
def padded : ℕ → ℕ → List Char
  | 0, _ => []
  | k + 1, n => padded k (n / 10) ++ [Nat.digitChar (n % 10)]

theorem length_padded (k n : ℕ) : (padded k n).length = k := by
  induction k generalizing n with
  | zero => rfl
  | succ k ih => rw [padded, List.length_append, ih, List.length_singleton]

theorem isDigit_of_mem_padded {k n : ℕ} {char : Char} (hmem : char ∈ padded k n) :
    char.isDigit = true := by
  induction k generalizing n with
  | zero => simp [padded] at hmem
  | succ k ih =>
      rw [padded, List.mem_append, List.mem_singleton] at hmem
      rcases hmem with hmore | rfl
      · exact ih hmore
      · rw [Nat.isDigit_digitChar, decide_eq_true_eq]
        exact Nat.mod_lt _ (by decide)

theorem natural_padded (k n : ℕ) : natural (padded k n) = n % 10 ^ k := by
  induction k generalizing n with
  | zero => simp [padded, natural, Nat.mod_one]
  | succ k ih =>
      have hlast : natural [Nat.digitChar (n % 10)] = n % 10 := by
        rw [← Nat.toDigits_of_lt_base (Nat.mod_lt n (by decide)), natural_toDigits]
      calc natural (padded (k + 1) n)
          = 10 * natural (padded k (n / 10)) + natural [Nat.digitChar (n % 10)] := by
            rw [padded, natural_append, List.length_singleton, pow_one]
        _ = n % 10 + 10 * (n / 10 % 10 ^ k) := by rw [ih, hlast, Nat.add_comm]
        _ = n % 10 ^ (k + 1) := by rw [pow_succ', Nat.mod_mul]

/-- A printed integer is read as itself. -/
theorem reads_int (n : ℤ) : Reads 1 n.repr.toList (some (.number n)) := by
  have hnone : ∀ char ∈ ([] : List Char), char.isDigit = true := by simp
  cases n with
  | ofNat n =>
      have htext := reads_decimal false (whole_toDigits n) hnone
      simpa [decimalText, decimalValue, pointed, natural_toDigits, Int.repr] using htext
  | negSucc n =>
      have htext := reads_decimal true (whole_toDigits (n + 1)) hnone
      have hrepr : (Int.negSucc n).repr.toList = '-' :: Nat.toDigits 10 (n + 1) := by
        simp [Int.repr, String.toList_append]
      rw [hrepr, Int.cast_negSucc]
      simpa [decimalText, decimalValue, pointed, natural_toDigits] using htext

/-- A number printed with `k` decimals is read as itself. -/
theorem reads_fixed (negative : Bool) {k : ℕ} (hk : 0 < k) (n : ℕ) :
    Reads 1 ((if negative then ['-'] else []) ++
        (Nat.toDigits 10 (n / 10 ^ k) ++ '.' :: padded k n))
      (some (.number ((if negative then -1 else 1) * (n / 10 ^ k)))) := by
  have hdigits : ∀ char ∈ padded k n, char.isDigit = true := fun char => isDigit_of_mem_padded
  have htext := reads_decimal negative (whole_toDigits (n / 10 ^ k)) hdigits
  have hpointed : pointed (padded k n) = '.' :: padded k n := by
    unfold pointed
    rw [if_neg]
    intro hnil
    have hlength := length_padded k n
    rw [hnil, List.length_nil] at hlength
    omega
  have hvalue : natural (Nat.toDigits 10 (n / 10 ^ k) ++ padded k n) = n := by
    rw [natural_append, length_padded, natural_toDigits, natural_padded]
    exact Nat.div_add_mod n (10 ^ k)
  rwa [decimalText, decimalValue, hpointed, hvalue, length_padded] at htext

/-! ## Reading objects -/

/-- The text between two quotes is read as it is written. -/
def Written (body : List Char) : Prop :=
  ∀ rest, stringBody (body ++ '"' :: rest) = some (body, rest)

/-- A name without quotes, backslashes and control characters. -/
def PlainName (name : List Char) : Prop :=
  ∀ char ∈ name, char ≠ '"' ∧ char ≠ '\\' ∧ ¬ char < ' '

instance (name : List Char) : Decidable (PlainName name) :=
  List.decidableBAll _ name

theorem PlainName.written {name : List Char} (hname : PlainName name) : Written name := by
  intro rest
  induction name with
  | nil => rfl
  | cons char name ih =>
      obtain ⟨⟨hquote, hbackslash, hcontrol⟩, hrest⟩ := List.forall_mem_cons.mp hname
      rw [List.cons_append, stringBody.eq_5 _ _ hquote (fun _ _ _ _ _ heq => absurd heq hbackslash)
        (fun _ _ heq => absurd heq hbackslash), if_neg hcontrol, ih hrest]
      rfl

/-- The text of a member: blanks, the quoted name, blanks, a colon, the value. -/
def memberText (before name between text : List Char) : List Char :=
  before ++ '"' :: (name ++ '"' :: (between ++ ':' :: text))

theorem member_memberText {depth more : ℕ} {before name between text rest : List Char}
    {result : Option Value} (hbefore : Blanks before) (hname : Written name)
    (hbetween : Blanks between) (htext : Reads depth text result) (hmore : depth ≤ more)
    (hrest : Stops rest) :
    member (value more) (memberText before name between text ++ rest) =
      result.map fun read => ((String.ofList name, read), rest) := by
  simp only [memberText, List.append_assoc, List.cons_append]
  unfold member
  rw [skipBlanks_append hbefore, skipBlanks_cons (by decide)]
  simp only [hname _, Option.bind_eq_bind, Option.bind_some]
  rw [skipBlanks_append hbetween, skipBlanks_cons (by decide)]
  simp only [htext more rest hmore hrest]
  cases result <;> rfl

/-- The text is read as the members of an object, its closing brace included. -/
structure ReadsMembers (depth count : ℕ) (text : List Char)
    (result : Option (List (String × Value))) : Prop where
  fits : count ≤ text.length
  opens : ∀ rest, ∃ tail, skipBlanks (text ++ rest) = '"' :: tail
  reads : ∀ more most rest, depth ≤ more → count ≤ most →
    members (value more) most (text ++ rest) = result.map fun read => (read, rest)

theorem opens_memberText {before : List Char} (hbefore : Blanks before)
    (name between text rest : List Char) :
    ∃ tail, skipBlanks (memberText before name between text ++ rest) = '"' :: tail := by
  simp only [memberText, List.append_assoc, List.cons_append]
  exact ⟨_, by rw [skipBlanks_append hbefore, skipBlanks_cons (by decide)]⟩

theorem readsMembers_last_of_written {depth : ℕ} {before name between text after : List Char}
    {result : Option Value} (hbefore : Blanks before) (hname : Written name)
    (hbetween : Blanks between) (htext : Reads depth text result) (hafter : Blanks after) :
    ReadsMembers depth 1 (memberText before name between text ++ (after ++ ['}']))
      (result.map fun read => [(String.ofList name, read)]) := by
  refine ⟨?_, ?_, ?_⟩
  · simp only [List.length_append, List.length_singleton]
    omega
  · intro rest
    rw [List.append_assoc]
    exact opens_memberText hbefore ..
  · intro more most rest hmore hmost
    obtain ⟨most, rfl⟩ : ∃ less, most = less + 1 := ⟨most - 1, by omega⟩
    have hstops : Stops (after ++ '}' :: rest) :=
      stops_blanks_append hafter (by simp [Stops])
    have hmember := member_memberText hbefore hname hbetween htext hmore hstops
    rw [members, List.append_assoc, List.append_assoc, List.singleton_append, hmember]
    cases result with
    | none => rfl
    | some read =>
        simp only [Option.map_some, Option.bind_eq_bind, Option.bind_some]
        rw [skipBlanks_append hafter, skipBlanks_cons (by decide)]
        rfl

theorem readsMembers_cons_of_written {depth count : ℕ}
    {before name between text after others : List Char}
    {result : Option Value} {later : Option (List (String × Value))} (hbefore : Blanks before)
    (hname : Written name) (hbetween : Blanks between) (htext : Reads depth text result)
    (hafter : Blanks after) (hothers : ReadsMembers depth count others later) :
    ReadsMembers depth (count + 1)
      (memberText before name between text ++ (after ++ ',' :: others))
      (result.bind fun read => later.map fun more => (String.ofList name, read) :: more) := by
  refine ⟨?_, ?_, ?_⟩
  · have hfits := hothers.fits
    simp only [List.length_append, List.length_cons]
    omega
  · intro rest
    rw [List.append_assoc]
    exact opens_memberText hbefore ..
  · intro more most rest hmore hmost
    obtain ⟨most, rfl⟩ : ∃ less, most = less + 1 := ⟨most - 1, by omega⟩
    have hstops : Stops (after ++ ',' :: (others ++ rest)) :=
      stops_blanks_append hafter (by simp [Stops])
    have hmember := member_memberText hbefore hname hbetween htext hmore hstops
    rw [members, List.append_assoc, List.append_assoc, List.cons_append, hmember]
    cases result with
    | none => rfl
    | some read =>
        simp only [Option.map_some, Option.bind_eq_bind, Option.bind_some]
        rw [skipBlanks_append hafter, skipBlanks_cons (by decide)]
        simp only [hothers.reads more most rest hmore (by omega)]
        cases later <;> rfl

/-- The last member of an object, under a plain name. -/
theorem readsMembers_last {depth : ℕ} {before name between text after : List Char}
    {result : Option Value} (hbefore : Blanks before) (hname : PlainName name)
    (hbetween : Blanks between) (htext : Reads depth text result) (hafter : Blanks after) :
    ReadsMembers depth 1 (memberText before name between text ++ (after ++ ['}']))
      (result.map fun read => [(String.ofList name, read)]) :=
  readsMembers_last_of_written hbefore hname.written hbetween htext hafter

/-- A member of an object before others, under a plain name. -/
theorem readsMembers_cons {depth count : ℕ} {before name between text after others : List Char}
    {result : Option Value} {later : Option (List (String × Value))} (hbefore : Blanks before)
    (hname : PlainName name) (hbetween : Blanks between) (htext : Reads depth text result)
    (hafter : Blanks after) (hothers : ReadsMembers depth count others later) :
    ReadsMembers depth (count + 1)
      (memberText before name between text ++ (after ++ ',' :: others))
      (result.bind fun read => later.map fun more => (String.ofList name, read) :: more) :=
  readsMembers_cons_of_written hbefore hname.written hbetween htext hafter hothers

/-- An object is read as the members between its braces. -/
theorem reads_object {depth count : ℕ} {text : List Char}
    {result : Option (List (String × Value))} (htext : ReadsMembers depth count text result) :
    Reads (depth + 1) ('{' :: text) (result.map .object) := by
  intro more rest hmore _
  obtain ⟨more, rfl⟩ : ∃ less, more = less + 1 := ⟨more - 1, by omega⟩
  obtain ⟨tail, hopens⟩ := htext.opens rest
  have hcount : count ≤ (text ++ rest).length := by
    have hfits := htext.fits
    rw [List.length_append]
    omega
  rw [List.cons_append, value, skipBlanks_cons (by decide)]
  simp only [hopens, htext.reads more _ rest (by omega) hcount]
  cases result <;> rfl

end Json
