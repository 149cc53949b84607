import AwsIotSensors.Lib.Json

/-!
# Strings, arrays and documents of JSON

`Lib.Json` leaves the escapes of a string as they are written.  Here they are
resolved, to UTF-16 code units as in a browser, where one `char` may take a pair of
surrogates: `resolve` is what a quoted text stands for, and a `Document` is a value
in which all strings are resolved.

A writer is verified against this reader part by part, through `Decodes`: a quoted
text in ASCII with the five kinds of escapes (`decodes_quoted`), arrays and objects
with the separators `", "` and `": "` (`decodes_array`, `decodes_object`), and the
whole (`read_of_decodes`).
-/

namespace Json

/-! ## UTF-16 -/

/-- The code units of a `char`. -/
def utf16 (char : Char) : List ℕ :=
  if char.toNat < 0x10000 then [char.toNat]
  else
    [0xd800 + (char.toNat - 0x10000) / 0x400, 0xdc00 + (char.toNat - 0x10000) % 0x400]

/-- The `char`s of some code units; there are none for a surrogate without its other
half. -/
def ofUtf16 : List ℕ → Option (List Char)
  | [] => some []
  | unit :: rest =>
      if unit < 0xd800 ∨ 0xe000 ≤ unit then (ofUtf16 rest).map (Char.ofNat unit :: ·)
      else
        match rest with
        | [] => none
        | low :: rest =>
            if unit < 0xdc00 ∧ 0xdc00 ≤ low ∧ low < 0xe000 then
              (ofUtf16 rest).map
                (Char.ofNat (0x10000 + (unit - 0xd800) * 0x400 + (low - 0xdc00)) :: ·)
            else none

/-- A `char` is read back from its units. -/
theorem ofUtf16_utf16_append (char : Char) (rest : List ℕ) :
    ofUtf16 (utf16 char ++ rest) = (ofUtf16 rest).map (char :: ·) := by
  have hvalid : char.toNat < 0xd800 ∨ 0xdfff < char.toNat ∧ char.toNat < 0x110000 := char.valid
  unfold utf16
  split
  · have hsingle : char.toNat < 0xd800 ∨ 0xe000 ≤ char.toNat := by omega
    rw [List.singleton_append, ofUtf16.eq_def]
    dsimp only
    rw [if_pos hsingle, Char.ofNat_toNat]
  · next hlarge =>
    -- the two surrogates are put together again
    have hhigh : ¬ (0xd800 + (char.toNat - 0x10000) / 0x400 < 0xd800 ∨
        0xe000 ≤ 0xd800 + (char.toNat - 0x10000) / 0x400) := by omega
    have hpair : 0xd800 + (char.toNat - 0x10000) / 0x400 < 0xdc00 ∧
        0xdc00 ≤ 0xdc00 + (char.toNat - 0x10000) % 0x400 ∧
        0xdc00 + (char.toNat - 0x10000) % 0x400 < 0xe000 := by omega
    have hsum : 0x10000 + (0xd800 + (char.toNat - 0x10000) / 0x400 - 0xd800) * 0x400 +
        (0xdc00 + (char.toNat - 0x10000) % 0x400 - 0xdc00) = char.toNat := by omega
    simp only [List.cons_append, List.nil_append]
    rw [ofUtf16, if_neg hhigh, if_pos hpair, hsum, Char.ofNat_toNat]

/-! ## Escapes -/

/-- The number that hexadecimal digits denote. -/
def hexValue (digits : List Char) : ℕ :=
  digits.foldl (fun value digit => 16 * value +
    if digit.isDigit then digit.toNat - 48
    else if 'a' ≤ digit then digit.toNat - 87 else digit.toNat - 55) 0

/-- The `char` that a letter stands for behind a backslash. -/
def unescape : Char → Char
  | 'b' => '\x08'
  | 'f' => '\x0c'
  | 'n' => '\n'
  | 'r' => '\r'
  | 't' => '\t'
  | char => char

/-- The code units that the text between two quotes stands for. -/
def units : List Char → List ℕ
  | '\\' :: 'u' :: a :: b :: c :: d :: rest => hexValue [a, b, c, d] :: units rest
  | '\\' :: char :: rest => utf16 (unescape char) ++ units rest
  | char :: rest => utf16 char ++ units rest
  | [] => []

/-- What the text between two quotes stands for. -/
def resolve (raw : List Char) : Option (List Char) :=
  ofUtf16 (units raw)

/-- Four hexadecimal digits. -/
def hex4 (unit : ℕ) : List Char :=
  [Nat.digitChar (unit / 4096 % 16), Nat.digitChar (unit / 256 % 16),
    Nat.digitChar (unit / 16 % 16), Nat.digitChar (unit % 16)]

/-- One `char` in ASCII: the quote, the backslash and five control characters have an
escape of their own, and the others outside of ASCII are written by their units. -/
def escaped (char : Char) : List Char :=
  match char with
  | '"' => ['\\', '"']
  | '\\' => ['\\', '\\']
  | '\x08' => ['\\', 'b']
  | '\x0c' => ['\\', 'f']
  | '\n' => ['\\', 'n']
  | '\r' => ['\\', 'r']
  | '\t' => ['\\', 't']
  | _ =>
      if ' ' ≤ char ∧ char ≤ '~' then [char]
      else (utf16 char).flatMap fun unit => '\\' :: 'u' :: hex4 unit

/-- A text in quotes. -/
def quoted (text : List Char) : List Char :=
  '"' :: (text.flatMap escaped ++ ['"'])

theorem isHexDigit_digitChar {digit : ℕ} (hdigit : digit < 16) :
    isHexDigit (Nat.digitChar digit) = true := by
  interval_cases digit <;> decide

theorem hexValue_hex4 {unit : ℕ} (hunit : unit < 65536) : hexValue (hex4 unit) = unit := by
  have hdigit (digit : ℕ) (hlt : digit < 16) : (if (Nat.digitChar digit).isDigit then
        (Nat.digitChar digit).toNat - 48
      else if 'a' ≤ Nat.digitChar digit then (Nat.digitChar digit).toNat - 87
      else (Nat.digitChar digit).toNat - 55) = digit := by
    interval_cases digit <;> decide
  simp only [hexValue, hex4, List.foldl_cons, List.foldl_nil]
  rw [hdigit _ (Nat.mod_lt _ (by decide)), hdigit _ (Nat.mod_lt _ (by decide)),
    hdigit _ (Nat.mod_lt _ (by decide)), hdigit _ (Nat.mod_lt _ (by decide))]
  omega

theorem lt_of_mem_utf16 {char : Char} {unit : ℕ} (hmem : unit ∈ utf16 char) : unit < 65536 := by
  have hvalid : char.toNat < 0xd800 ∨ 0xdfff < char.toNat ∧ char.toNat < 0x110000 := char.valid
  unfold utf16 at hmem
  split at hmem
  · obtain rfl := List.mem_singleton.mp hmem
    assumption
  · simp only [List.mem_cons, List.not_mem_nil, or_false] at hmem
    omega

/-! ## Reading escaped texts -/

/-- The part of a string is taken as it is written, and stands for the units. -/
structure ReadsUnits (part : List Char) (units : List ℕ) : Prop where
  body : ∀ rest, stringBody (part ++ rest) =
    (stringBody rest).map fun (read, rest) => (part ++ read, rest)
  units : ∀ rest, Json.units (part ++ rest) = units ++ Json.units rest

theorem ReadsUnits.append {first second : List Char} {units units' : List ℕ}
    (hfirst : ReadsUnits first units) (hsecond : ReadsUnits second units') :
    ReadsUnits (first ++ second) (units ++ units') := by
  refine ⟨?_, ?_⟩
  · intro rest
    rw [List.append_assoc, hfirst.body, hsecond.body]
    cases stringBody rest <;> simp
  · intro rest
    rw [List.append_assoc, hfirst.units, hsecond.units, List.append_assoc]

theorem readsUnits_nil : ReadsUnits [] [] := by
  refine ⟨?_, fun _ => rfl⟩
  intro rest
  cases hrest : stringBody rest <;> simp [hrest]

theorem readsUnits_flatMap {α : Type*} {write : α → List Char} {unitsOf : α → List ℕ}
    {items : List α} (hwrite : ∀ item ∈ items, ReadsUnits (write item) (unitsOf item)) :
    ReadsUnits (items.flatMap write) (items.flatMap unitsOf) := by
  induction items with
  | nil => exact readsUnits_nil
  | cons item items ih =>
      obtain ⟨hitem, hitems⟩ := List.forall_mem_cons.mp hwrite
      exact hitem.append (ih hitems)

/-- A backslash and a letter. -/
theorem readsUnits_short {char : Char} (hchar : "\"\\/bfnrt".toList.contains char = true) :
    ReadsUnits ['\\', char] (utf16 (unescape char)) := by
  have hu : char ≠ 'u' := by
    rintro rfl
    exact absurd hchar (by decide)
  refine ⟨?_, ?_⟩
  · intro rest
    rw [List.cons_append, List.singleton_append,
      stringBody.eq_4 char rest (fun _ _ _ _ _ heq => absurd heq hu), if_pos hchar]
    rfl
  · intro rest
    rw [List.cons_append, List.singleton_append,
      units.eq_2 char rest (fun _ _ _ _ _ heq => absurd heq hu)]

/-- A backslash, `u` and four digits. -/
theorem readsUnits_hex4 {unit : ℕ} (hunit : unit < 65536) :
    ReadsUnits ('\\' :: 'u' :: hex4 unit) [unit] := by
  have hall : (hex4 unit).all isHexDigit = true := by
    have hdigit (number : ℕ) : isHexDigit (Nat.digitChar (number % 16)) = true :=
      isHexDigit_digitChar (Nat.mod_lt _ (by decide))
    simp [hex4, hdigit]
  have hvalue := hexValue_hex4 hunit
  unfold hex4 at hall hvalue ⊢
  refine ⟨?_, ?_⟩
  · intro rest
    simp only [List.cons_append, List.nil_append]
    rw [stringBody, if_pos hall]
  · intro rest
    simp only [List.cons_append, List.nil_append]
    rw [units, hvalue]

/-- A `char` without an escape. -/
theorem readsUnits_char {char : Char} (hquote : char ≠ '"') (hbackslash : char ≠ '\\')
    (hcontrol : ¬ char < ' ') : ReadsUnits [char] (utf16 char) := by
  refine ⟨?_, ?_⟩
  · intro rest
    rw [List.singleton_append, stringBody.eq_5 char rest hquote
      (fun _ _ _ _ _ heq => absurd heq hbackslash) (fun _ _ heq => absurd heq hbackslash),
      if_neg hcontrol]
    rfl
  · intro rest
    rw [List.singleton_append, units.eq_3 char rest
      (fun _ _ _ _ _ heq => absurd heq hbackslash) (fun _ _ heq => absurd heq hbackslash)]

theorem readsUnits_escaped (char : Char) : ReadsUnits (escaped char) (utf16 char) := by
  unfold escaped
  split
  · exact readsUnits_short (by decide)
  · exact readsUnits_short (by decide)
  · exact readsUnits_short (by decide)
  · exact readsUnits_short (by decide)
  · exact readsUnits_short (by decide)
  · exact readsUnits_short (by decide)
  · exact readsUnits_short (by decide)
  · next hquote hbackslash _ _ _ _ _ =>
    split
    · next hprintable => exact readsUnits_char hquote hbackslash hprintable.1.not_gt
    · have hhex : ∀ unit ∈ utf16 char, ReadsUnits ('\\' :: 'u' :: hex4 unit) [unit] :=
        fun unit hmem => readsUnits_hex4 (lt_of_mem_utf16 hmem)
      have hunits := readsUnits_flatMap hhex
      rwa [List.flatMap_singleton'] at hunits

/-- The escaped text can stand between quotes. -/
theorem written_escaped (text : List Char) : Written (text.flatMap escaped) := by
  intro rest
  rw [(readsUnits_flatMap fun char _ => readsUnits_escaped char).body]
  simp [stringBody]

/-- **Escaping loses nothing**, whatever `char`s a text has. -/
theorem resolve_escaped (text : List Char) : resolve (text.flatMap escaped) = some text := by
  have hunits := (readsUnits_flatMap fun char (_ : char ∈ text) => readsUnits_escaped char).units []
  rw [List.append_nil] at hunits
  rw [resolve, hunits, units, List.append_nil]
  induction text with
  | nil => rfl
  | cons char text ih =>
      have hrest := (readsUnits_flatMap fun char (_ : char ∈ text) =>
        readsUnits_escaped char).units []
      rw [List.append_nil] at hrest
      rw [List.flatMap_cons, ofUtf16_utf16_append, ih hrest]
      rfl

/-! ## Printable texts -/

/-- The `char` is printable in ASCII. -/
def isPrintable (char : Char) : Bool :=
  ' ' ≤ char && char ≤ '~'

theorem printable_hex4 (unit : ℕ) : (hex4 unit).all isPrintable := by
  have hdigit (number : ℕ) : isPrintable (Nat.digitChar (number % 16)) = true := by
    have hlt : number % 16 < 16 := Nat.mod_lt _ (by decide)
    interval_cases number % 16 <;> decide
  simp [hex4, hdigit]

theorem printable_escaped (char : Char) : (escaped char).all isPrintable := by
  unfold escaped
  split
  · decide
  · decide
  · decide
  · decide
  · decide
  · decide
  · decide
  · split
    · next hprintable =>
      rw [List.all_cons, List.all_nil, Bool.and_true, isPrintable, Bool.and_eq_true]
      exact ⟨decide_eq_true hprintable.1, decide_eq_true hprintable.2⟩
    · rw [List.all_flatMap, List.all_eq_true]
      intro unit _
      rw [List.all_cons, List.all_cons, printable_hex4]
      decide

theorem printable_quoted (text : List Char) : (quoted text).all isPrintable := by
  have htext : (text.flatMap escaped).all isPrintable := by
    rw [List.all_flatMap, List.all_eq_true]
    exact fun char _ => printable_escaped char
  rw [quoted, List.all_cons, List.all_append, htext]
  decide

theorem printable_intercalate {texts : List (List Char)}
    (htexts : ∀ text ∈ texts, text.all isPrintable) :
    (List.intercalate [',', ' '] texts).all isPrintable := by
  induction texts with
  | nil => rfl
  | cons text texts ih =>
      obtain ⟨htext, hrest⟩ := List.forall_mem_cons.mp htexts
      cases texts with
      | nil => rwa [List.intercalate_singleton]
      | cons text' texts =>
          rw [List.intercalate_cons_cons, List.all_append, List.all_append, htext, ih hrest]
          decide

/-! ## Documents -/

/-- A value with its strings resolved. -/
inductive Document
  | null
  | bool (value : Bool)
  | number (value : ℚ)
  | string (text : List Char)
  | array (elements : List Document)
  | object (members : List (List Char × Document))

mutual

/-- The document of a value. -/
def Value.resolve : Value → Option Document
  | .null => some .null
  | .bool value => some (.bool value)
  | .number value => some (.number value)
  | .string raw => (Json.resolve raw.toList).map .string
  | .array elements => (resolveElements elements).map .array
  | .object members => (resolveMembers members).map .object

/-- The documents of the elements of an array. -/
def resolveElements : List Value → Option (List Document)
  | [] => some []
  | value :: rest => value.resolve.bind fun first => (resolveElements rest).map (first :: ·)

/-- The names and documents of the members of an object. -/
def resolveMembers : List (String × Value) → Option (List (List Char × Document))
  | [] => some []
  | (raw, value) :: rest => (Json.resolve raw.toList).bind fun name =>
      value.resolve.bind fun first => (resolveMembers rest).map ((name, first) :: ·)

end

/-- Read a whole text as a document. -/
def read (text : List Char) : Option Document :=
  (parse text).bind Value.resolve

/-- The text is read as the document wherever it stands. -/
def Decodes (text : List Char) (document : Document) : Prop :=
  ∃ depth value, Reads depth text (some value) ∧ value.resolve = some document

theorem read_of_decodes {text : List Char} {document : Document}
    (hdecodes : Decodes text document) : read text = some document := by
  obtain ⟨depth, value, hreads, hresolve⟩ := hdecodes
  rw [read, parse_of_reads hreads, Option.bind_some, hresolve]

theorem Reads.mono {depth deeper : ℕ} {text : List Char} {result : Option Value}
    (htext : Reads depth text result) (hle : depth ≤ deeper) : Reads deeper text result :=
  fun more rest hmore hrest => htext more rest (hle.trans hmore) hrest

/-! ## Writing single values -/

theorem decodes_literal {char : Char} {text : List Char} {value : Value} {document : Document}
    (hblank : isBlank char = false) (hbrace : char ≠ '{') (hbracket : char ≠ '[')
    (hquote : char ≠ '"')
    (hliteral : ∀ rest, literal (char :: (text ++ rest)) = some (value, rest))
    (hresolve : value.resolve = some document) : Decodes (char :: text) document := by
  refine ⟨1, value, ?_, hresolve⟩
  intro more rest hmore _
  obtain ⟨more, rfl⟩ : ∃ less, more = less + 1 := ⟨more - 1, by omega⟩
  rw [List.cons_append, value_of_head hblank hbrace hbracket hquote, hliteral]
  rfl

theorem decodes_null : Decodes "null".toList .null :=
  decodes_literal (by decide) (by decide) (by decide) (by decide) (fun _ => rfl) rfl

theorem decodes_true : Decodes "true".toList (.bool true) :=
  decodes_literal (by decide) (by decide) (by decide) (by decide) (fun _ => rfl) rfl

theorem decodes_false : Decodes "false".toList (.bool false) :=
  decodes_literal (by decide) (by decide) (by decide) (by decide) (fun _ => rfl) rfl

/-- A text in quotes is read as itself. -/
theorem decodes_quoted (text : List Char) : Decodes (quoted text) (.string text) := by
  refine ⟨1, .string (String.ofList (text.flatMap escaped)), ?_, ?_⟩
  · intro more rest hmore _
    obtain ⟨more, rfl⟩ : ∃ less, more = less + 1 := ⟨more - 1, by omega⟩
    rw [quoted, List.cons_append, List.append_assoc, List.singleton_append, value,
      skipBlanks_cons (by decide)]
    simp only [written_escaped text rest, Option.map_some]
  · rw [Value.resolve, String.toList_ofList, resolve_escaped, Option.map_some]

/-! ## Writing arrays and objects -/

/-- The texts of the elements, between brackets. -/
def arrayText (elements : List (List Char)) : List Char :=
  '[' :: (List.intercalate [',', ' '] elements ++ [']'])

/-- A quoted name, a colon and the text of the value. -/
def entryText (entry : List Char × List Char) : List Char :=
  quoted entry.1 ++ ':' :: ' ' :: entry.2

/-- The names and the texts of the members, between braces. -/
def objectText (members : List (List Char × List Char)) : List Char :=
  '{' :: (List.intercalate [',', ' '] (members.map entryText) ++ ['}'])

theorem blanks_space : Blanks [' '] := by
  decide

theorem printable_arrayText {elements : List (List Char)}
    (helements : ∀ text ∈ elements, text.all isPrintable) :
    (arrayText elements).all isPrintable := by
  rw [arrayText, List.all_cons, List.all_append, printable_intercalate helements]
  decide

theorem printable_objectText {members : List (List Char × List Char)}
    (hmembers : ∀ entry ∈ members, entry.2.all isPrintable) :
    (objectText members).all isPrintable := by
  have htexts : ∀ text ∈ members.map entryText, text.all isPrintable := by
    rw [List.forall_mem_map]
    intro entry hentry
    rw [entryText, List.all_append, printable_quoted, List.all_cons, List.all_cons,
      hmembers entry hentry]
    decide
  rw [objectText, List.all_cons, List.all_append, printable_intercalate htexts]
  decide

/-- The text is read as the elements of an array, its closing bracket included. -/
structure ReadsElements (depth count : ℕ) (text : List Char) (read : List Value) : Prop where
  fits : count ≤ text.length
  opens : ∀ rest tail, skipBlanks (text ++ rest) ≠ ']' :: tail
  reads : ∀ more most rest, depth ≤ more → count ≤ most →
    elements (value more) most (text ++ rest) = some (read, rest)

/-- No value begins with a closing bracket. -/
theorem Reads.opens {depth : ℕ} {text rest tail : List Char} {read : Value}
    (htext : Reads depth text (some read)) (hrest : Stops rest) :
    skipBlanks (text ++ rest) ≠ ']' :: tail := by
  intro heq
  have hvalue := htext (depth + 1) rest (Nat.le_succ _) hrest
  have hnone : value (depth + 1) (']' :: tail) = none := by
    rw [value_of_head (by decide) (by decide) (by decide) (by decide)]
    rfl
  have hskip : value (depth + 1) (text ++ rest) = value (depth + 1) (']' :: tail) := by
    rw [value, value, heq, skipBlanks_cons (by decide)]
  rw [hskip, hnone] at hvalue
  cases hvalue

theorem readsElements_last {depth : ℕ} {text : List Char} {read : Value}
    (htext : Reads depth text (some read)) :
    ReadsElements depth 1 (text ++ [']']) [read] := by
  refine ⟨by simp, ?_, ?_⟩
  · intro rest tail
    rw [List.append_assoc]
    exact htext.opens (by simp [Stops])
  · intro more most rest hmore hmost
    obtain ⟨most, rfl⟩ : ∃ less, most = less + 1 := ⟨most - 1, by omega⟩
    have hvalue := htext more (']' :: rest) hmore (by simp [Stops])
    rw [elements, List.append_assoc, List.singleton_append, hvalue]
    rfl

theorem readsElements_cons {depth count : ℕ} {text others : List Char} {read : Value}
    {later : List Value} (htext : Reads depth text (some read))
    (hothers : ReadsElements depth count others later) :
    ReadsElements depth (count + 1) (text ++ ',' :: others) (read :: later) := by
  refine ⟨?_, ?_, ?_⟩
  · have hfits := hothers.fits
    rw [List.length_append, List.length_cons]
    omega
  · intro rest tail
    rw [List.append_assoc]
    exact htext.opens (by simp [Stops])
  · intro more most rest hmore hmost
    obtain ⟨most, rfl⟩ : ∃ less, most = less + 1 := ⟨most - 1, by omega⟩
    have hvalue := htext more (',' :: (others ++ rest)) hmore (by simp [Stops])
    rw [elements, List.append_assoc, List.cons_append, hvalue]
    simp only [Option.map_some, Option.bind_eq_bind, Option.bind_some]
    rw [skipBlanks_cons (by decide)]
    simp only [hothers.reads more most rest hmore (by omega)]
    rfl

/-- Blanks before the first element are skipped. -/
theorem ReadsElements.blanks {depth count : ℕ} {text blanks : List Char} {read : List Value}
    (htext : ReadsElements depth count text read) (hblanks : Blanks blanks) :
    ReadsElements depth count (blanks ++ text) read := by
  refine ⟨?_, ?_, ?_⟩
  · have hfits := htext.fits
    rw [List.length_append]
    omega
  · intro rest tail
    rw [List.append_assoc, skipBlanks_append hblanks]
    exact htext.opens rest tail
  · intro more most rest hmore hmost
    have hread := htext.reads more most rest hmore hmost
    have hvalue : ∀ text, value more (blanks ++ text) = value more text := by
      intro text
      cases more with
      | zero => rfl
      | succ more => rw [value, value, skipBlanks_append hblanks]
    cases most with
    | zero => exact hread
    | succ most =>
        rw [elements] at hread ⊢
        rwa [List.append_assoc, hvalue]

theorem ReadsElements.mono {depth deeper count : ℕ} {text : List Char} {read : List Value}
    (htext : ReadsElements depth count text read) (hle : depth ≤ deeper) :
    ReadsElements deeper count text read :=
  ⟨htext.fits, htext.opens, fun more most rest hmore hmost =>
    htext.reads more most rest (hle.trans hmore) hmost⟩

theorem ReadsMembers.mono {depth deeper count : ℕ} {text : List Char}
    {result : Option (List (String × Value))} (htext : ReadsMembers depth count text result)
    (hle : depth ≤ deeper) : ReadsMembers deeper count text result :=
  ⟨htext.fits, htext.opens, fun more most rest hmore hmost =>
    htext.reads more most rest (hle.trans hmore) hmost⟩

/-- An array is read as the elements between its brackets. -/
theorem reads_array {depth count : ℕ} {text : List Char} {read : List Value}
    (htext : ReadsElements depth count text read) :
    Reads (depth + 1) ('[' :: text) (some (.array read)) := by
  intro more rest hmore _
  obtain ⟨more, rfl⟩ : ∃ less, more = less + 1 := ⟨more - 1, by omega⟩
  have hcount : count ≤ (text ++ rest).length := by
    have hfits := htext.fits
    rw [List.length_append]
    omega
  rw [List.cons_append, value, skipBlanks_cons (by decide)]
  split
  · next heq => exact absurd (List.head_eq_of_cons_eq heq) (by decide)
  · next heq =>
    obtain rfl := List.tail_eq_of_cons_eq heq
    split
    · next tail heq' => exact absurd heq' (htext.opens rest tail)
    · rw [htext.reads more _ rest (by omega) hcount]
      rfl
  · next heq => exact absurd (List.head_eq_of_cons_eq heq) (by decide)
  · next hbracket _ => exact absurd rfl (hbracket _)

/-- The elements of an array that is not empty. -/
theorem readsElements_intercalate {texts : List (List Char)} {documents : List Document}
    (hdecodes : List.Forall₂ Decodes texts documents) (hne : texts ≠ []) :
    ∃ depth count values, ReadsElements depth count
        (List.intercalate [',', ' '] texts ++ [']']) values ∧
      resolveElements values = some documents := by
  induction hdecodes with
  | nil => exact absurd rfl hne
  | @cons text document texts documents htext htexts ih =>
      obtain ⟨depth, value, hreads, hresolve⟩ := htext
      cases htexts with
      | nil =>
          refine ⟨depth, 1, [value], ?_, ?_⟩
          · rw [List.intercalate_singleton]
            exact readsElements_last hreads
          · rw [resolveElements, hresolve]
            rfl
      | cons htext' htexts' =>
          obtain ⟨depth', count, values, hothers, hresolve'⟩ := ih (List.cons_ne_nil _ _)
          have hblanked := hothers.blanks blanks_space
          refine ⟨max depth depth', count + 1, value :: values, ?_, ?_⟩
          · have hcons := readsElements_cons (hreads.mono (Nat.le_max_left depth depth'))
              (hblanked.mono (Nat.le_max_right depth depth'))
            rw [List.intercalate_cons_cons]
            simpa only [List.append_assoc, List.cons_append, List.nil_append] using hcons
          · rw [resolveElements, hresolve, hresolve']
            rfl

/-- **An array** is read as the documents of its elements. -/
theorem decodes_array {texts : List (List Char)} {documents : List Document}
    (hdecodes : List.Forall₂ Decodes texts documents) :
    Decodes (arrayText texts) (.array documents) := by
  by_cases hne : texts = []
  · subst hne
    obtain rfl := List.forall₂_nil_left_iff.mp hdecodes
    refine ⟨1, .array [], ?_, rfl⟩
    intro more rest hmore _
    obtain ⟨more, rfl⟩ : ∃ less, more = less + 1 := ⟨more - 1, by omega⟩
    have htext : arrayText [] ++ rest = '[' :: ']' :: rest := rfl
    rw [htext, value, skipBlanks_cons (by decide)]
    simp only [skipBlanks_cons (by decide : isBlank ']' = false)]
    rfl
  · obtain ⟨depth, count, values, hreads, hresolve⟩ := readsElements_intercalate hdecodes hne
    exact ⟨depth + 1, .array values, reads_array hreads, by rw [Value.resolve, hresolve]; rfl⟩

/-- The member is written with its name, and its text is read as its document. -/
def DecodesEntry (entry : List Char × List Char) (member : List Char × Document) : Prop :=
  entry.1 = member.1 ∧ Decodes entry.2 member.2

theorem memberText_entryText (before : List Char) (entry : List Char × List Char) :
    memberText before (entry.1.flatMap escaped) [] (' ' :: entry.2) =
      before ++ entryText entry := by
  simp [memberText, entryText, quoted]

/-- The members of an object that is not empty. -/
theorem readsMembers_intercalate {entries : List (List Char × List Char)}
    {documents : List (List Char × Document)}
    (hdecodes : List.Forall₂ DecodesEntry entries documents) (hne : entries ≠ [])
    {before : List Char} (hbefore : Blanks before) :
    ∃ depth count values, ReadsMembers depth count
        (before ++ List.intercalate [',', ' '] (entries.map entryText) ++ ['}']) (some values) ∧
      resolveMembers values = some documents := by
  have hnone : Blanks [] := by decide
  induction hdecodes generalizing before with
  | nil => exact absurd rfl hne
  | @cons entry member entries members hentry hentries ih =>
      obtain ⟨name, text⟩ := entry
      obtain ⟨name', document⟩ := member
      obtain ⟨rfl, depth, value, hreads, hresolve⟩ := hentry
      have hname : resolve (String.ofList (name.flatMap escaped)).toList = some name := by
        rw [String.toList_ofList, resolve_escaped]
      have hvalue := hreads.blanks blanks_space
      cases hentries with
      | nil =>
          have hlast := readsMembers_last_of_written hbefore (written_escaped name) hnone hvalue
            hnone
          refine ⟨depth, 1, [(String.ofList (name.flatMap escaped), value)], ?_, ?_⟩
          · rw [List.singleton_append, memberText_entryText before (name, text)] at hlast
            simpa using hlast
          · rw [resolveMembers, hname, Option.bind_some, hresolve]
            rfl
      | cons hentry' hentries' =>
          obtain ⟨depth', count, values, hothers, hresolve'⟩ :=
            ih (List.cons_ne_nil _ _) blanks_space
          have hcons := readsMembers_cons_of_written hbefore (written_escaped name) hnone
            (hvalue.mono (Nat.le_max_left depth depth')) hnone
            (hothers.mono (Nat.le_max_right depth depth'))
          refine ⟨max depth depth', count + 1,
            (String.ofList (name.flatMap escaped), value) :: values, ?_, ?_⟩
          · rw [List.singleton_append, memberText_entryText before (name, text)] at hcons
            rw [List.map_cons, List.map_cons, List.intercalate_cons_cons]
            simpa [List.append_assoc] using hcons
          · rw [resolveMembers, hname, Option.bind_some, hresolve, Option.bind_some, hresolve']
            rfl

/-- **An object** is read as the documents of its members, under their names. -/
theorem decodes_object {entries : List (List Char × List Char)}
    {documents : List (List Char × Document)}
    (hdecodes : List.Forall₂ DecodesEntry entries documents) :
    Decodes (objectText entries) (.object documents) := by
  by_cases hne : entries = []
  · subst hne
    obtain rfl := List.forall₂_nil_left_iff.mp hdecodes
    refine ⟨1, .object [], ?_, rfl⟩
    intro more rest hmore _
    obtain ⟨more, rfl⟩ : ∃ less, more = less + 1 := ⟨more - 1, by omega⟩
    have htext : objectText [] ++ rest = '{' :: '}' :: rest := rfl
    rw [htext, value, skipBlanks_cons (by decide)]
    simp only [skipBlanks_cons (by decide : isBlank '}' = false)]
    rfl
  · obtain ⟨depth, count, values, hreads, hresolve⟩ :=
      readsMembers_intercalate hdecodes hne (by decide : Blanks [])
    exact ⟨depth + 1, .object values, reads_object hreads, by rw [Value.resolve, hresolve]; rfl⟩

end Json
