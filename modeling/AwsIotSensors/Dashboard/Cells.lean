import AwsIotSensors.Dashboard.Polling
import AwsIotSensors.Lib.Html

/-!
# The two renderings of a message

A message gets its row in two ways: the template writes `str(value)`, escaped, and
the script assigns to `innerHTML` what came as JSON.  The rows are compared as a
reader sees them in a browser (`SameCells`).

A cell of the template always shows the text it was made of (`visible_cell`), since
that is escaped.  The script escapes nothing, and writes booleans, `null` and absent
values its own way, so that the rows agree if and only if the message has a number
or a plain string for every metric: `rowAgrees_iff`.
-/

namespace AwsIotSensors.Dashboard

open Html

variable (browser : Browser)

/-- The cells read the same, and nothing in them is taken for markup. -/
def SameCells (first second : List Markup) : Prop :=
  first.map browser.visible = second.map browser.visible ∧
    ∀ content ∈ first ++ second, browser.findsMarkup content = false

/-- A number or a string in which no `&` begins a reference and no `<` opens markup. -/
def IsPlain : Option Value → Prop
  | some (.decimal text) => browser.Plain text
  | some (.string text) => browser.Plain text
  | some (.bool _) => False
  | some .null => False
  | none => False

variable (clock : ℤ → HourMinute)

/-- The row that the script builds of the answer of the server agrees with the one
that the template renders of the same message. -/
def RowAgrees (database : Database) (sensor : Name) (metrics : List Name) (tab : Tab) : Prop :=
  ∃ data message messages row,
    sensorMetric (fun seconds => .ok (clock seconds)) database sensor = .ok data ∧
    retrieveValues (fun seconds => .ok (clock seconds)) database sensor.text =
      .ok (message :: messages) ∧
    (updateTable tab data).rows = row :: tab.rows ∧
    SameCells browser row (templateRow metrics message)

variable {browser}

/-! ## The cells of the template -/

theorem shows_escape (text : Text) : browser.Shows (escape text) text := by
  apply shows_flatMap
  intro char _
  unfold escapeChar
  split
  · exact shows_reference browser.amp
  · exact shows_reference browser.lt
  · exact shows_reference browser.gt
  · exact shows_reference browser.apos
  · exact shows_reference browser.quot
  · next hamp hlt _ _ _ => exact shows_char hamp hlt

theorem shows_spaces {spaces : Text} (hspaces : ∀ char ∈ spaces, isSpace char = true) :
    browser.Shows spaces spaces := by
  have hshows : browser.Shows (spaces.flatMap fun char => [char]) spaces := by
    apply shows_flatMap
    intro char hmem
    have hspace := hspaces char hmem
    refine shows_char ?_ ?_
    · rintro rfl
      exact absurd hspace (by decide)
    · rintro rfl
      exact absurd hspace (by decide)
  rwa [List.flatMap_singleton'] at hshows

theorem isSpace_of_mem_indentation {width : ℕ} :
    ∀ char ∈ '\n' :: List.replicate width ' ', isSpace char = true := by
  intro char hmem
  rcases List.mem_cons.mp hmem with rfl | hblank
  · rfl
  · rw [List.eq_of_mem_replicate hblank]
    rfl

/-- A cell shows its text, indented. -/
theorem shows_cell (text : Text) :
    browser.Shows (cell (escape text))
      (('\n' :: List.replicate 25 ' ') ++ text ++ ('\n' :: List.replicate 21 ' ')) :=
  ((shows_spaces isSpace_of_mem_indentation).append (shows_escape text)).append
    (shows_spaces isSpace_of_mem_indentation)

/-- **A cell of the template reads as the text it was made of.** -/
theorem visible_cell (text : Text) : browser.visible (cell (escape text)) = words text := by
  rw [Browser.visible, text_of_shows (shows_cell text)]
  exact words_indented isSpace_of_mem_indentation isSpace_of_mem_indentation text

/-- It holds no markup. -/
theorem findsMarkup_cell (text : Text) : browser.findsMarkup (cell (escape text)) = false :=
  findsMarkup_of_shows (shows_cell text)

/-- What the template writes of a value. -/
def printedText : Option Value → Text
  | some value => str value
  | none => []

theorem printed_eq_escape (value : Option Value) : printed value = escape (printedText value) := by
  cases value with
  | none => rfl
  | some value => rfl

/-! ## The cells of the script -/

/-- A text without `&` and `<` reads as no other words than its own. -/
theorem visible_ne {source text : Text} (hamp : '&' ∉ source) (hlt : '<' ∉ source)
    (hwords : words source ≠ words text) : browser.visible source ≠ words text := by
  have hplain : browser.Plain source := plain_of_notMem hamp hlt
  rw [((visible_eq_words_iff source).mpr hplain).1]
  exact hwords

/-- One value: its two cells read the same if and only if it is a plain text. -/
theorem cell_agrees_iff (value : Option Value) :
    browser.visible (innerHTML (value.map Value.json)) = browser.visible (cell (printed value)) ∧
        browser.findsMarkup (innerHTML (value.map Value.json)) = false ↔
      IsPlain browser value := by
  rw [printed_eq_escape, visible_cell]
  rcases value with _ | (text | text | (_ | _) | _)
  · have hdiffers : browser.visible "undefined".toList ≠ words [] :=
      visible_ne (by decide) (by decide) (by decide)
    exact iff_of_false (fun hsame => hdiffers hsame.1) id
  · exact visible_eq_words_iff text
  · exact visible_eq_words_iff text
  · have hdiffers : browser.visible "false".toList ≠ words "False".toList :=
      visible_ne (by decide) (by decide) (by decide)
    exact iff_of_false (fun hsame => hdiffers hsame.1) id
  · have hdiffers : browser.visible "true".toList ≠ words "True".toList :=
      visible_ne (by decide) (by decide) (by decide)
    exact iff_of_false (fun hsame => hdiffers hsame.1) id
  · -- the script leaves the cell of a null empty
    have hdiffers : browser.visible [] ≠ words "None".toList :=
      visible_ne (by decide) (by decide) (by decide)
    exact iff_of_false (fun hsame => hdiffers hsame.1) id

/-- Numerals, with the letters of `E+7` and `NaN`, are plain, and so are times. -/
theorem plain_of_numeral {text : Text}
    (hnumeral : ∀ char ∈ text, char.isAlphanum ∨ char ∈ ['+', '-', '.', ':']) :
    browser.Plain text := by
  apply plain_of_notMem
  · intro hmem
    exact absurd (hnumeral _ hmem) (by decide)
  · intro hmem
    exact absurd (hnumeral _ hmem) (by decide)

theorem isPlain_strftime (time : HourMinute) :
    IsPlain browser (some (.string time.strftime)) := by
  apply plain_of_numeral
  intro char hmem
  rcases isDigit_of_mem_strftime hmem with hdigit | rfl
  · exact Or.inl (by simp [Char.isAlphanum, hdigit])
  · exact Or.inr (by decide)

/-- Two rows over the same columns, cell by cell. -/
theorem sameCells_iff (metrics : List Name) (message : Message) :
    SameCells browser (scriptRow metrics message.json) (templateRow metrics message) ↔
      ∀ key ∈ columns metrics, IsPlain browser (message key) := by
  have htemplate : ∀ content ∈ templateRow metrics message,
      browser.findsMarkup content = false := by
    intro content hmem
    obtain ⟨key, -, rfl⟩ := List.mem_map.mp hmem
    rw [printed_eq_escape]
    exact findsMarkup_cell _
  unfold SameCells
  rw [List.forall_mem_append, and_iff_left htemplate, scriptRow, templateRow, List.map_map,
    List.map_map, List.map_inj_left, List.forall_mem_map, ← forall₂_and]
  exact forall₂_congr fun key _ => cell_agrees_iff (message key)

/-! ## The main statement -/

variable {clock} {database : Database} {sensor : Name} {metrics : List Name} {tab : Tab}
  {newest : Measurement} {older : List Measurement} {time : Text}

/-- What the script and the template make of the newest measurement. -/
theorem rowAgrees_iff_sameCells
    (hstored : database sensor.text = (newest :: older).map Measurement.item)
    (hsensor : newest.message "sensor".toList = some (.string sensor.text))
    (hshape : WellShaped sensor metrics tab) (htop : topTime tab = some time)
    (hdiffers : (newest.time clock).strftime ≠ time) :
    RowAgrees browser clock database sensor metrics tab ↔
      SameCells browser (scriptRow metrics (newest.data clock))
        (templateRow metrics (newest.shown clock)) := by
  have hanswer : sensorMetric (fun seconds => .ok (clock seconds)) database sensor =
      .ok (newest.data clock) :=
    sensorMetric_eq clock hstored
  have hvalues : retrieveValues (fun seconds => .ok (clock seconds)) database sensor.text =
      .ok (newest.shown clock :: (older.take 19).map (Measurement.shown clock)) :=
    retrieveValues_eq clock hstored
  have hname : newest.data clock "sensor".toList = some (.string sensor.text) := by
    rw [Measurement.data, Message.json, shown_of_ne clock (by decide), hsensor]
    rfl
  have hminute : jsString (newest.data clock timestampKey) ≠ time := by
    rw [data_timestamp]
    exact hdiffers
  have hrows : (updateTable tab (newest.data clock)).rows =
      scriptRow metrics (newest.data clock) :: tab.rows := by
    rw [updateTable_of_new hshape hname htop hminute]
  constructor
  · rintro ⟨data, message, messages, row, hdata, hmessages, hrow, hsame⟩
    obtain rfl := Except.ok.inj (hanswer.symm.trans hdata)
    obtain ⟨rfl, -⟩ := List.cons.inj (Except.ok.inj (hvalues.symm.trans hmessages))
    obtain ⟨rfl, -⟩ := List.cons.inj (hrows.symm.trans hrow)
    exact hsame
  · intro hsame
    exact ⟨_, _, _, _, hanswer, hvalues, hrows, hsame⟩

/-- **When the two renderings of a message agree.**  The row that `updateTable`
builds of the last measurement shows, cell by cell, what the template shows of it,
and no markup is found in either row, if and only if the message has a number or a
plain string for every metric. -/
theorem rowAgrees_iff (browser : Browser) (clock : ℤ → HourMinute)
    (hstored : database sensor.text = (newest :: older).map Measurement.item)
    (hsensor : newest.message "sensor".toList = some (.string sensor.text))
    (hshape : WellShaped sensor metrics tab) (htop : topTime tab = some time)
    (hdiffers : (newest.time clock).strftime ≠ time) :
    RowAgrees browser clock database sensor metrics tab ↔
      ∀ metric ∈ metrics, IsPlain browser (newest.shown clock metric.text) := by
  have htime : IsPlain browser (newest.shown clock timestampKey) := by
    rw [shown_timestamp]
    exact isPlain_strftime _
  rw [rowAgrees_iff_sameCells hstored hsensor hshape htop hdiffers]
  calc SameCells browser (scriptRow metrics (newest.data clock))
        (templateRow metrics (newest.shown clock))
      ↔ ∀ key ∈ columns metrics, IsPlain browser (newest.shown clock key) :=
        sameCells_iff metrics (newest.shown clock)
    _ ↔ ∀ metric ∈ metrics, IsPlain browser (newest.shown clock metric.text) := by
        rw [columns, List.forall_mem_cons, and_iff_right htime, List.forall_mem_map]

/-! ## A message in bold -/

/-- The tab of `air-sensor`, as it is rendered at noon. -/
def tabAtNoon : Tab where
  sensor := airSensor
  head := (columns airMetrics).map fun key => cell (escape key)
  rows := [templateRow airMetrics (atNoon.shown utc)]
  current := airMetrics.map fun metric =>
    (metric.text, printed (atNoon.shown utc metric.text))

theorem wellShaped_tabAtNoon : WellShaped airSensor airMetrics tabAtNoon :=
  ⟨rfl, rfl, by decide, rfl⟩

/-- A measurement at one o'clock. -/
def atOne : Measurement := airMeasurement 46800000 "21.5" "41"

theorem rowAgrees_iff_atOne :
    RowAgrees smallBrowser utc (databaseOf airSensor [atOne, atNoon]) airSensor airMetrics
        tabAtNoon ↔
      ∀ metric ∈ airMetrics, IsPlain smallBrowser (atOne.shown utc metric.text) :=
  rowAgrees_iff smallBrowser utc (databaseOf_self _) (by decide) wellShaped_tabAtNoon
    (show topTime tabAtNoon = some "12:00".toList by decide) (by decide)

/-- The same with a string for a temperature. -/
def inBold : Measurement where
  ms := 46800000
  message := Function.update atOne.message "temperature".toList
    (some (.string "<b>5</b>".toList))
  four_digits := by decide

/-- The script takes the tags of a string for tags. -/
theorem exists_not_rowAgrees :
    ¬ ∀ (browser : Browser) (clock : ℤ → HourMinute) (database : Database) (sensor : Name)
        (metrics : List Name) (tab : Tab) (newest : Measurement) (older : List Measurement)
        (time : Text),
      database sensor.text = (newest :: older).map Measurement.item →
      newest.message "sensor".toList = some (.string sensor.text) →
      WellShaped sensor metrics tab → topTime tab = some time →
      (newest.time clock).strftime ≠ time →
      RowAgrees browser clock database sensor metrics tab := by
  intro hclaim
  have hstored : databaseOf airSensor [inBold, atNoon] airSensor.text =
      [inBold, atNoon].map Measurement.item := databaseOf_self _
  have htop : topTime tabAtNoon = some "12:00".toList := by decide
  have hagrees := hclaim smallBrowser utc (databaseOf airSensor [inBold, atNoon]) airSensor
    airMetrics tabAtNoon inBold [atNoon] _ hstored (by decide) wellShaped_tabAtNoon htop (by decide)
  rw [rowAgrees_iff_sameCells hstored (by decide) wellShaped_tabAtNoon htop (by decide)] at hagrees
  exact absurd hagrees.1 (by decide)

end AwsIotSensors.Dashboard
