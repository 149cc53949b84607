import Mathlib

/-!
# What a browser shows of an HTML source

A browser reads a source from left to right: an `&` may begin a character
reference, a `<` may open a tag or a comment, and everything else is text.  What
it makes of references and of markup is not followed up here but given by a
`Browser`; of that only the general is used, that a reference stands for less than
it is written with, and what the five references stand for that escape a text.

A reader sees the `words` of the text: the amount of white space does not count.
`visible_eq_words_iff` is the main fact: a source is shown as it is written, and not
taken for markup, if and only if none of its `&` begins a reference and none of its
`<` opens a tag or a comment (`Plain`).
-/

namespace Html

/-- A text, as the list of its `char`s. -/
abbrev Text := List Char

/-- HTML white space. -/
def isSpace (char : Char) : Bool :=
  [' ', '\t', '\n', '\x0c', '\r'].contains char

/-- The words of a text. -/
def words (text : Text) : List Text :=
  (text.splitOnP isSpace).filter (· ≠ [])

/-- The letters of a text. -/
def letters (text : Text) : Text :=
  text.filter fun char => !isSpace char

/-- Whether a `<` opens a tag, a declaration or a comment: what stands behind it. -/
def opensMarkup : Text → Bool
  | '!' :: _ => true
  | '?' :: _ => true
  | '/' :: _ :: _ => true
  | char :: _ => char.isAlpha
  | [] => false

/-- A browser: what it takes for a character reference behind an `&`, with the text
it stands for and the number of `char`s it takes, and the text it finds from a `<`
on that opens markup. -/
structure Browser where
  reference : Text → Option (Text × ℕ)
  markup : Text → Text
  /-- a reference stands for no more than it is written with -/
  length_le : ∀ rest shown taken, reference rest = some (shown, taken) → shown.length ≤ taken
  /-- it is written without white space -/
  noSpace : ∀ rest shown taken, reference rest = some (shown, taken) →
    taken ≤ rest.length ∧ ∀ char ∈ rest.take taken, isSpace char = false
  amp : ∀ rest, reference ("amp;".toList ++ rest) = some (['&'], 4)
  lt : ∀ rest, reference ("lt;".toList ++ rest) = some (['<'], 3)
  gt : ∀ rest, reference ("gt;".toList ++ rest) = some (['>'], 3)
  quot : ∀ rest, reference ("#34;".toList ++ rest) = some (['"'], 4)
  apos : ∀ rest, reference ("#39;".toList ++ rest) = some (['\''], 4)

/-- A part of a source: text, or markup up to the end. -/
inductive Piece
  | text (shown : Text)
  | markup (rest : Text)

/-- The part is markup. -/
def Piece.isMarkup : Piece → Bool
  | .text _ => false
  | .markup _ => true

/-- What is shown of a part. -/
def Browser.shown (browser : Browser) : Piece → Text
  | .text shown => shown
  | .markup rest => browser.markup rest

/-- The parts of a source, after so many `char`s that belong to a reference. -/
def Browser.pieces (browser : Browser) : ℕ → Text → List Piece
  | _, [] => []
  | skipped + 1, _ :: rest => browser.pieces skipped rest
  | 0, char :: rest =>
      if char = '&' then
        match browser.reference rest with
        | some (shown, taken) => .text shown :: browser.pieces taken rest
        | none => .text [char] :: browser.pieces 0 rest
      else if char = '<' ∧ opensMarkup rest = true then [.markup rest]
      else .text [char] :: browser.pieces 0 rest

variable (browser : Browser)

/-- The text of a source. -/
def Browser.text (source : Text) : Text :=
  (browser.pieces 0 source).flatMap browser.shown

/-- What a reader sees of a source. -/
def Browser.visible (source : Text) : List Text :=
  words (browser.text source)

/-- There is markup in the source. -/
def Browser.findsMarkup (source : Text) : Bool :=
  (browser.pieces 0 source).any Piece.isMarkup

/-- No `&` begins a reference and no `<` opens markup. -/
def Browser.Plain (browser : Browser) : Text → Prop
  | [] => True
  | char :: rest =>
      (char = '&' → browser.reference rest = none) ∧
        (char = '<' → opensMarkup rest = false) ∧ browser.Plain rest

/-! ## Words and letters -/

theorem flatten_splitOnP (text : Text) : (text.splitOnP isSpace).flatten = letters text := by
  induction text with
  | nil => rfl
  | cons char text ih =>
      rw [List.splitOnP_cons_eq_if_modifyHead]
      cases hspace : isSpace char with
      | true => simpa [letters, hspace] using ih
      | false =>
          obtain ⟨first, others, hsplit⟩ :=
            List.exists_cons_of_ne_nil (List.splitOnP_ne_nil isSpace text)
          rw [hsplit, List.flatten_cons] at ih
          simp [letters, hspace, hsplit, ih]

/-- The words are made of the letters. -/
theorem flatten_words (text : Text) : (words text).flatten = letters text := by
  rw [← flatten_splitOnP, words]
  induction text.splitOnP isSpace with
  | nil => rfl
  | cons word others ih =>
      by_cases hempty : word = []
      · simpa [hempty] using ih
      · simpa [hempty] using ih

theorem words_append_space {char : Char} (hspace : isSpace char = true) (first second : Text) :
    words (first ++ char :: second) = words first ++ words second := by
  unfold words
  rw [List.splitOnP_append_cons first second hspace, List.filter_append]

/-- White space has no words. -/
theorem words_spaces {spaces : Text} (hspaces : ∀ char ∈ spaces, isSpace char = true) :
    words spaces = [] := by
  induction spaces with
  | nil => rfl
  | cons char spaces ih =>
      obtain ⟨hchar, hrest⟩ := List.forall_mem_cons.mp hspaces
      have hsplit := words_append_space hchar [] spaces
      rw [List.nil_append] at hsplit
      rw [hsplit, ih hrest]
      rfl

/-- White space around a text does not count. -/
theorem words_indented {before after : Text} (hbefore : ∀ char ∈ before, isSpace char = true)
    (hafter : ∀ char ∈ after, isSpace char = true) (text : Text) :
    words (before ++ text ++ after) = words text := by
  have hleft : words (before ++ (text ++ after)) = words (text ++ after) := by
    induction before with
    | nil => rfl
    | cons char before ih =>
        obtain ⟨hchar, hrest⟩ := List.forall_mem_cons.mp hbefore
        have hsplit := words_append_space hchar [] (before ++ (text ++ after))
        rw [List.nil_append] at hsplit
        rw [List.cons_append, hsplit, ih hrest]
        rfl
  rw [List.append_assoc, hleft]
  cases after with
  | nil => rw [List.append_nil]
  | cons char after =>
      obtain ⟨hchar, hrest⟩ := List.forall_mem_cons.mp hafter
      rw [words_append_space hchar, words_spaces hrest, List.append_nil]

/-! ## Plain sources -/

variable {browser}

theorem pieces_of_plain {source : Text} (hplain : browser.Plain source) :
    browser.pieces 0 source = source.map fun char => .text [char] := by
  induction source with
  | nil => rfl
  | cons char rest ih =>
      obtain ⟨hreference, hmarkup, hrest⟩ := hplain
      rw [Browser.pieces, List.map_cons, ih hrest]
      by_cases hamp : char = '&'
      · rw [if_pos hamp, hreference hamp]
      · rw [if_neg hamp, if_neg]
        intro hboth
        rw [hmarkup hboth.1] at hboth
        exact absurd hboth.2 (by simp)

/-- A plain source is text. -/
theorem text_of_plain {source : Text} (hplain : browser.Plain source) :
    browser.text source = source := by
  rw [Browser.text, pieces_of_plain hplain, List.flatMap_map]
  exact List.flatMap_singleton' source

theorem findsMarkup_of_plain {source : Text} (hplain : browser.Plain source) :
    browser.findsMarkup source = false := by
  rw [Browser.findsMarkup, pieces_of_plain hplain]
  simp [Piece.isMarkup]

/-- A source without `&` and `<` is plain. -/
theorem plain_of_notMem {source : Text} (hamp : '&' ∉ source) (hlt : '<' ∉ source) :
    browser.Plain source := by
  induction source with
  | nil => trivial
  | cons char rest ih =>
      rw [List.mem_cons, not_or] at hamp hlt
      exact ⟨fun heq => absurd heq.symm hamp.1, fun heq => absurd heq.symm hlt.1,
        ih hamp.2 hlt.2⟩

/-! ## Escaped sources -/

/-- The source is shown as the text, whatever stands behind it. -/
def Browser.Shows (browser : Browser) (source text : Text) : Prop :=
  ∀ rest, browser.pieces 0 (source ++ rest) =
    (text.map fun char => .text [char]) ++ browser.pieces 0 rest

theorem shows_char {char : Char} (hamp : char ≠ '&') (hlt : char ≠ '<') :
    browser.Shows [char] [char] := by
  intro rest
  rw [List.singleton_append, Browser.pieces, if_neg hamp, if_neg fun hboth => hlt hboth.1]
  rfl

theorem pieces_length_append (skipped rest : Text) :
    browser.pieces skipped.length (skipped ++ rest) = browser.pieces 0 rest := by
  induction skipped with
  | nil => rfl
  | cons char skipped ih => exact ih

/-- A reference is shown as the `char` it stands for. -/
theorem shows_reference {char : Char} {name : Text}
    (hreference : ∀ rest, browser.reference (name ++ rest) = some ([char], name.length)) :
    browser.Shows ('&' :: name) [char] := by
  intro rest
  rw [List.cons_append, Browser.pieces, if_pos rfl, hreference rest]
  simp only [pieces_length_append]
  rfl

theorem Browser.Shows.append {source source' text text' : Text}
    (hfirst : browser.Shows source text) (hsecond : browser.Shows source' text') :
    browser.Shows (source ++ source') (text ++ text') := by
  intro rest
  rw [List.append_assoc, hfirst, hsecond, List.map_append, List.append_assoc]

/-- A text is shown if every `char` is written so that it is shown. -/
theorem shows_flatMap {write : Char → Text} {text : Text}
    (hwrite : ∀ char ∈ text, browser.Shows (write char) [char]) :
    browser.Shows (text.flatMap write) text := by
  induction text with
  | nil => exact fun _ => rfl
  | cons char text ih =>
      obtain ⟨hchar, htext⟩ := List.forall_mem_cons.mp hwrite
      exact hchar.append (ih htext)

theorem text_of_shows {source text : Text} (hshows : browser.Shows source text) :
    browser.text source = text := by
  have hpieces := hshows []
  rw [List.append_nil] at hpieces
  rw [Browser.text, hpieces, Browser.pieces, List.append_nil, List.flatMap_map]
  exact List.flatMap_singleton' text

theorem findsMarkup_of_shows {source text : Text} (hshows : browser.Shows source text) :
    browser.findsMarkup source = false := by
  have hpieces := hshows []
  rw [List.append_nil] at hpieces
  rw [Browser.findsMarkup, hpieces, Browser.pieces]
  simp [Piece.isMarkup]

/-! ## Other sources have markup or show fewer letters -/

theorem length_letters_le (text : Text) : (letters text).length ≤ text.length :=
  List.length_filter_le _ _

theorem letters_append (first second : Text) :
    letters (first ++ second) = letters first ++ letters second :=
  List.filter_append _ _

theorem length_letters_cons (char : Char) (rest : Text) :
    (letters (char :: rest)).length = (letters [char]).length + (letters rest).length := by
  rw [← List.singleton_append, letters_append, List.length_append]

theorem length_letters_shown (shown : Text) (others : List Piece) :
    (letters ((.text shown :: others : List Piece).flatMap browser.shown)).length =
      (letters shown).length + (letters (others.flatMap browser.shown)).length := by
  rw [List.flatMap_cons, letters_append, List.length_append, Browser.shown]

/-- Without markup, what is shown has no more letters than the source behind a
reference. -/
theorem length_letters_pieces_le (browser : Browser) {skipped : ℕ} {source : Text}
    (hmarkup : (browser.pieces skipped source).any Piece.isMarkup = false)
    (hlength : skipped ≤ source.length)
    (hskipped : ∀ char ∈ source.take skipped, isSpace char = false) :
    (letters ((browser.pieces skipped source).flatMap browser.shown)).length + skipped ≤
      (letters source).length := by
  induction source generalizing skipped with
  | nil =>
      obtain rfl : skipped = 0 := Nat.le_zero.mp hlength
      rfl
  | cons char rest ih =>
      rw [length_letters_cons]
      cases skipped with
      | succ skipped =>
          rw [List.take_succ_cons, List.forall_mem_cons] at hskipped
          rw [Browser.pieces] at hmarkup ⊢
          have hrest := ih hmarkup (Nat.le_of_succ_le_succ hlength) hskipped.2
          have hone : (letters [char]).length = 1 := by simp [letters, hskipped.1]
          omega
      | zero =>
          rw [Browser.pieces] at hmarkup ⊢
          split at hmarkup
          · next hamp =>
              subst hamp
              rw [if_pos rfl]
              split at hmarkup
              · next shown taken hreference =>
                  have hshown := browser.length_le rest shown taken hreference
                  obtain ⟨htaken, hspaces⟩ := browser.noSpace rest shown taken hreference
                  have hrest := ih hmarkup htaken hspaces
                  have hle := length_letters_le shown
                  rw [length_letters_shown]
                  omega
              · have hrest := ih hmarkup (Nat.zero_le _) (by simp)
                rw [length_letters_shown]
                omega
          · next hamp =>
              rw [if_neg hamp]
              split at hmarkup
              · exact absurd hmarkup (by simp [Piece.isMarkup])
              · next hopens =>
                  rw [if_neg hopens]
                  have hrest := ih hmarkup (Nat.zero_le _) (by simp)
                  rw [length_letters_shown]
                  omega

/-- A source without markup that is not plain shows fewer letters than it has. -/
theorem length_letters_text_lt {source : Text} (hmarkup : browser.findsMarkup source = false)
    (hnot : ¬ browser.Plain source) :
    (letters (browser.text source)).length < (letters source).length := by
  unfold Browser.findsMarkup at hmarkup
  unfold Browser.text
  induction source with
  | nil => exact absurd trivial hnot
  | cons char rest ih =>
      rw [length_letters_cons]
      rw [Browser.pieces] at hmarkup ⊢
      split at hmarkup
      · next hamp =>
          subst hamp
          rw [if_pos rfl]
          split at hmarkup
          · -- the reference itself is not shown
            next shown taken hreference =>
              have hshown := browser.length_le rest shown taken hreference
              obtain ⟨htaken, hspaces⟩ := browser.noSpace rest shown taken hreference
              have hrest := length_letters_pieces_le browser hmarkup htaken hspaces
              have hle := length_letters_le shown
              have hone : (letters ['&']).length = 1 := rfl
              rw [length_letters_shown]
              omega
          · next hreference =>
              have hplain : ¬ browser.Plain rest := fun hplain =>
                hnot ⟨fun _ => hreference, fun heq => absurd heq (by decide), hplain⟩
              have hrest := ih hmarkup hplain
              rw [length_letters_shown]
              omega
      · next hamp =>
          rw [if_neg hamp]
          split at hmarkup
          · exact absurd hmarkup (by simp [Piece.isMarkup])
          · next hopens =>
              rw [if_neg hopens]
              have hno : char = '<' → opensMarkup rest = false := by
                intro hlt
                by_contra htrue
                exact hopens ⟨hlt, by simpa using htrue⟩
              have hplain : ¬ browser.Plain rest := fun hplain =>
                hnot ⟨fun heq => absurd heq hamp, hno, hplain⟩
              have hrest := ih hmarkup hplain
              rw [length_letters_shown]
              omega

/-- **A source is taken as it is written**, and not for markup, if and only if it is
plain. -/
theorem visible_eq_words_iff (source : Text) :
    browser.visible source = words source ∧ browser.findsMarkup source = false ↔
      browser.Plain source := by
  constructor
  · intro ⟨hvisible, hmarkup⟩
    by_contra hnot
    have hletters : letters (browser.text source) = letters source := by
      rw [← flatten_words, ← flatten_words]
      exact congrArg List.flatten hvisible
    have hlt := length_letters_text_lt hmarkup hnot
    rw [hletters] at hlt
    exact absurd hlt (lt_irrefl _)
  · intro hplain
    refine ⟨?_, findsMarkup_of_plain hplain⟩
    rw [Browser.visible, text_of_plain hplain]

/-! ## A small browser -/

/-- The references that escape a text. -/
def fiveReferences : Text → Option (Text × ℕ)
  | 'a' :: 'm' :: 'p' :: ';' :: _ => some (['&'], 4)
  | 'l' :: 't' :: ';' :: _ => some (['<'], 3)
  | 'g' :: 't' :: ';' :: _ => some (['>'], 3)
  | '#' :: '3' :: '4' :: ';' :: _ => some (['"'], 4)
  | '#' :: '3' :: '9' :: ';' :: _ => some (['\''], 4)
  | _ => none

/-- The text outside of tags; first, whether a tag is open. -/
def outsideTags : Bool → Text → Text
  | _, [] => []
  | true, '>' :: rest => outsideTags false rest
  | true, _ :: rest => outsideTags true rest
  | false, '<' :: rest => outsideTags true rest
  | false, char :: rest => char :: outsideTags false rest

/-- A browser that knows five references, and of markup only tags. -/
def smallBrowser : Browser where
  reference := fiveReferences
  markup := outsideTags true
  length_le := by
    intro rest shown taken hreference
    unfold fiveReferences at hreference
    split at hreference <;> cases hreference
    all_goals decide
  noSpace := by
    intro rest shown taken hreference
    unfold fiveReferences at hreference
    split at hreference <;> cases hreference
    all_goals simp [isSpace]
  amp := fun _ => rfl
  lt := fun _ => rfl
  gt := fun _ => rfl
  quot := fun _ => rfl
  apos := fun _ => rfl

end Html
