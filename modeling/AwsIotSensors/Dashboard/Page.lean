import AwsIotSensors.Dashboard.Database

/-!
# A sensor's tab in the page

The tab of one sensor, as `index.html` renders it on the server and as
`updateTable` of `main.js` changes it in the browser.  A cell is kept as the
markup that was written into it.

The template writes `str(value)`, escaped and indented; the script gets the
message as JSON, in which `DecimalEncoder` has made a text of every `Decimal`,
and assigns to `innerHTML`.  `updateTable_of_isNew` and `updateTable_of_new` say
what a response does to a tab of the right shape (`WellShaped`).
-/

namespace AwsIotSensors.Dashboard

open Exceptions PlainText

/-- HTML source. -/
abbrev Markup := Text

/-- A `char` of the sensor and metric names: these are used as keys, as `id`s and
in selectors. -/
def isNameChar (char : Char) : Bool :=
  char.isAlphanum || char == '_' || char == '-'

/-- A name of a sensor or of a metric, as in the dictionary `sensors`. -/
structure Name where
  text : Text
  valid : text.all isNameChar
deriving DecidableEq

/-- The name written as a literal. -/
def Name.ofString (literal : String) (h : literal.toList.all isNameChar := by decide) : Name :=
  ⟨literal.toList, h⟩

theorem name_eq_of_text {first second : Name} (htext : first.text = second.text) :
    first = second := by
  cases first
  cases second
  simpa using htext

/-- A content tab: the head row, the body rows, and the elements `current-<metric>`. -/
structure Tab where
  sensor : Name
  head : List Markup
  rows : List (List Markup)
  current : List (Text × Markup)
deriving DecidableEq

/-! ## The template -/

/-- `str(value)`. -/
def str : Value → Text
  | .decimal text => text
  | .string text => text
  | .bool true => "True".toList
  | .bool false => "False".toList
  | .null => "None".toList

/-- The escaping of one `char`. -/
def escapeChar (char : Char) : Markup :=
  match char with
  | '&' => "&amp;".toList
  | '<' => "&lt;".toList
  | '>' => "&gt;".toList
  | '\'' => "&#39;".toList
  | '"' => "&#34;".toList
  | _ => [char]

/-- The autoescaping of the template engine. -/
def escape (text : Text) : Markup :=
  text.flatMap escapeChar

/-- A value in double braces; an absent one renders as nothing. -/
def printed : Option Value → Markup
  | some value => escape (str value)
  | none => []

/-- The content of a table cell of the template: a line of its own. -/
def cell (content : Markup) : Markup :=
  ('\n' :: List.replicate 25 ' ') ++ content ++ ('\n' :: List.replicate 21 ' ')

/-- The columns of the table: the timestamp and the metrics. -/
def columns (metrics : List Name) : List Text :=
  timestampKey :: metrics.map Name.text

/-- The row of a message. -/
def templateRow (metrics : List Name) (message : Message) : List Markup :=
  (columns metrics).map fun key => cell (printed (message key))

/-- The part of `index.html` for one sensor.  Its queries are numbered from
`first` on, and query number `k` sees the table `views k`: one
`DB.retrieve_value` for each metric, then one `DB.retrieve_values`. -/
def renderTab (fromtimestamp : ℤ → Except PyError HourMinute) (views : ℕ → Database)
    (first : ℕ) (sensor : Name) (metrics : List Name) : Except PyError Tab := do
  let current ← metrics.zipIdx.mapM fun (metric, k) => do
    let value ← retrieveValueOf fromtimestamp (views (first + k)) sensor.text metric.text
    return (metric.text, printed (some value))
  let measures ← retrieveValues fromtimestamp (views (first + metrics.length)) sensor.text
  return {
    sensor
    head := (columns metrics).map fun key => cell (escape key)
    rows := measures.map (templateRow metrics)
    current }

/-- The dictionary `sensors` of `landing_handler`. -/
def sensors : List (Name × List Name) :=
  [(.ofString "air-sensor", [.ofString "temperature", .ofString "humidity"]),
    (.ofString "riot-test-1", [.ofString "temperature", .ofString "humidity"]),
    (.ofString "riot-test-2", [.ofString "temperature", .ofString "humidity"])]

/-- The first sensor of the dictionary. -/
def airSensor : Name := .ofString "air-sensor"

/-- The metrics of `air-sensor`. -/
def airMetrics : List Name := [.ofString "temperature", .ofString "humidity"]

/-! ## The script -/

/-- A JSON value, other than a number or a nested one. -/
inductive JsValue
  | string (text : Text)
  | bool (value : Bool)
  | null
deriving DecidableEq

/-- `DecimalEncoder`, and the parser in the browser. -/
def Value.json : Value → JsValue
  | .decimal text => .string text
  | .string text => .string text
  | .bool value => .bool value
  | .null => .null

/-- A JSON object; an absent property is `undefined`. -/
abbrev Json := Text → Option JsValue

/-- The JSON of a message. -/
def Message.json (message : Message) : Json :=
  fun key => (message key).map Value.json

/-- `sensor_metric`, the route `/<sensor>/last`. -/
def sensorMetric (fromtimestamp : ℤ → Except PyError HourMinute) (database : Database)
    (sensor : Name) : Except PyError Json := do
  return Message.json (← retrieveValue fromtimestamp database sensor.text)

/-- `String(value)`. -/
def jsString : Option JsValue → Text
  | none => "undefined".toList
  | some .null => "null".toList
  | some (.bool true) => "true".toList
  | some (.bool false) => "false".toList
  | some (.string text) => text

/-- What `innerHTML = value` makes of a cell. -/
def innerHTML : Option JsValue → Markup
  | some .null => []
  | value => jsString value

/-- What jQuery's `.html(value)` makes of an element: `undefined` only reads it,
and `false`, like `null`, leaves it empty. -/
def html (value : Option JsValue) (before : Markup) : Markup :=
  match value with
  | none => before
  | some .null => []
  | some (.bool false) => []
  | some (.bool true) => "true".toList
  | some (.string text) => text

/-- `isNew`: whether the top row already has the timestamp of the data, or
nothing if the script fails because it finds no cell. -/
def isNew (tab : Tab) (data : Json) : Option Bool :=
  tab.rows.flatten.head?.map fun oldTimestamp =>
    trim oldTimestamp == jsString (data timestampKey)

/-- `updateHeader`. -/
def updateHeader (current : List (Text × Markup)) (metric : Text) (value : Option JsValue) :
    List (Text × Markup) :=
  current.map fun entry => if entry.1 = metric then (entry.1, html value entry.2) else entry

/-- The loop of `updateTable` over the columns, on the cloned row: the row it
fills in, if it has a cell for each column, and the header. -/
def fillRow (data : Json) : List Markup → List Markup → List (Text × Markup) →
    Option (List Markup) × List (Text × Markup)
  | [], row, current => (some row, current)
  | _ :: _, [], current => (none, current)
  | column :: head, _ :: row, current =>
      let metric := trim column
      let (filled, current) := fillRow data head row (updateHeader current metric (data metric))
      (filled.map (innerHTML (data metric) :: ·), current)

/-- `updateTable`, on the tab of one sensor: data of another sensor selects
nothing in it, and the script fails without a row to clone.  The selectors of the
script search the whole `div` of the sensor; what is written into the header and
the cells is taken not to build a table of its own there. -/
def updateTable (tab : Tab) (data : Json) : Tab :=
  if jsString (data "sensor".toList) ≠ tab.sensor.text then tab
  else
    match isNew tab data, tab.rows.head? with
    | some false, some row =>
        match fillRow data tab.head row tab.current with
        | (some row, current) => { tab with rows := row :: tab.rows, current }
        | (none, current) => { tab with current }
    | _, _ => tab

/-! ## Names and times are plain -/

theorem notBlank_of_isNameChar {char : Char} (hname : isNameChar char) : ¬ isBlank char := by
  intro hblank
  simp only [isBlank, List.contains_eq_mem, decide_eq_true_eq] at hblank
  fin_cases hblank <;> exact absurd hname (by decide)

theorem escapeChar_of_isNameChar {char : Char} (hname : isNameChar char) :
    escapeChar char = [char] := by
  unfold escapeChar
  split <;> first | rfl | exact absurd hname (by decide)

theorem escape_of_plain {text : Text} (hplain : ∀ char ∈ text, escapeChar char = [char]) :
    escape text = text := by
  calc escape text
      = text.flatMap fun char => [char] := List.flatMap_congr hplain
    _ = text := List.flatMap_singleton' text

/-- The script reads a text without blanks back from a cell of the template. -/
theorem trim_cell {text : Text} (htext : ∀ char ∈ text, ¬ isBlank char) :
    trim (cell text) = text := by
  apply trim_indented _ htext
  · simp [isBlank]
  · simp [isBlank]

theorem notBlank_of_mem_strftime {time : HourMinute} {char : Char} (hmem : char ∈ time.strftime) :
    ¬ isBlank char := by
  rcases isDigit_of_mem_strftime hmem with hdigit | rfl
  · exact notBlank_of_isNameChar (by simp [isNameChar, Char.isAlphanum, hdigit])
  · decide

theorem escape_strftime (time : HourMinute) : escape time.strftime = time.strftime := by
  apply escape_of_plain
  intro char hmem
  rcases isDigit_of_mem_strftime hmem with hdigit | rfl
  · exact escapeChar_of_isNameChar (by simp [isNameChar, Char.isAlphanum, hdigit])
  · rfl

theorem isNameChar_of_mem_columns {metrics : List Name} {key : Text}
    (hkey : key ∈ columns metrics) : ∀ char ∈ key, isNameChar char := by
  rcases List.mem_cons.mp hkey with rfl | hmetric
  · exact List.all_eq_true.mp (show timestampKey.all isNameChar by decide)
  · obtain ⟨metric, -, rfl⟩ := List.mem_map.mp hmetric
    exact List.all_eq_true.mp metric.valid

/-- The script finds the name of a column in its head cell. -/
theorem trim_head {metrics : List Name} {key : Text} (hkey : key ∈ columns metrics) :
    trim (cell (escape key)) = key := by
  have hname := isNameChar_of_mem_columns hkey
  rw [escape_of_plain fun char hmem => escapeChar_of_isNameChar (hname char hmem)]
  exact trim_cell fun char hmem => notBlank_of_isNameChar (hname char hmem)

/-! ## What a response does -/

/-- The row that the script builds of a message. -/
def scriptRow (metrics : List Name) (data : Json) : List Markup :=
  (columns metrics).map fun key => innerHTML (data key)

/-- The time in the top row, as the script reads it. -/
def topTime (tab : Tab) : Option Text :=
  tab.rows.flatten.head?.map trim

/-- The head row and the width of the rows are those of the metrics, and each
metric has its element in the header. -/
structure WellShaped (sensor : Name) (metrics : List Name) (tab : Tab) : Prop where
  sensor_eq : tab.sensor = sensor
  head_eq : tab.head = (columns metrics).map fun key => cell (escape key)
  width : ∀ row ∈ tab.rows, row.length = (columns metrics).length
  current_keys : tab.current.map Prod.fst = metrics.map Name.text

theorem html_html (value : Option JsValue) (before : Markup) :
    html value (html value before) = html value before := by
  rcases value with _ | (text | (_ | _) | _) <;> rfl

theorem html_of_some (value : JsValue) (before : Markup) :
    html (some value) before = html (some value) [] := by
  rcases value with text | (_ | _) | _ <;> rfl

/-- The header after the loop over some columns. -/
theorem foldl_updateHeader (data : Json) (keys : List Text) (current : List (Text × Markup)) :
    keys.foldl (fun header key => updateHeader header key (data key)) current =
      current.map fun entry =>
        if entry.1 ∈ keys then (entry.1, html (data entry.1) entry.2) else entry := by
  induction keys generalizing current with
  | nil => simp
  | cons key keys ih =>
      rw [List.foldl_cons, ih, updateHeader, List.map_map]
      apply List.map_congr_left
      intro entry _
      obtain ⟨metric, before⟩ := entry
      by_cases hkey : metric = key
      · -- a column that comes twice is written twice
        by_cases hmem : key ∈ keys <;> simp [hkey, hmem, html_html]
      · simp [hkey]

/-- The loop fills in every column of a row that is wide enough. -/
theorem fillRow_eq {metrics : List Name} (data : Json) {keys : List Text}
    (hkeys : ∀ key ∈ keys, key ∈ columns metrics) {row : List Markup}
    (hlength : row.length = keys.length) (current : List (Text × Markup)) :
    fillRow data (keys.map fun key => cell (escape key)) row current =
      (some (keys.map fun key => innerHTML (data key)),
        keys.foldl (fun header key => updateHeader header key (data key)) current) := by
  induction keys generalizing row current with
  | nil =>
      obtain rfl := List.length_eq_zero_iff.mp hlength
      rfl
  | cons key keys ih =>
      cases row with
      | nil => simp at hlength
      | cons old row =>
          have hrest := ih (fun other hother => hkeys other (List.mem_cons_of_mem _ hother))
            (Nat.succ.inj hlength) (updateHeader current key (data key))
          simp only [List.map_cons, fillRow, trim_head (hkeys key (List.mem_cons_self ..)), hrest]
          rfl

variable {sensor : Name} {metrics : List Name} {tab : Tab} {data : Json} {time : Text}

/-- A response with the time of the top row changes nothing. -/
theorem updateTable_of_isNew (htop : topTime tab = some time)
    (htime : jsString (data timestampKey) = time) : updateTable tab data = tab := by
  have hseen : isNew tab data = some true := by
    unfold topTime at htop
    obtain ⟨old, hold, rfl⟩ := Option.map_eq_some_iff.mp htop
    simp [isNew, hold, htime]
  unfold updateTable
  split
  · rfl
  · rw [hseen]

/-- A response with another time gets a row of its own and fills the header. -/
theorem updateTable_of_new (hshape : WellShaped sensor metrics tab)
    (hsensor : data "sensor".toList = some (.string sensor.text)) (htop : topTime tab = some time)
    (htime : jsString (data timestampKey) ≠ time) :
    updateTable tab data =
      { tab with
        rows := scriptRow metrics data :: tab.rows
        current := tab.current.map fun entry => (entry.1, html (data entry.1) entry.2) } := by
  unfold topTime at htop
  obtain ⟨old, hold, rfl⟩ := Option.map_eq_some_iff.mp htop
  have hnew : isNew tab data = some false := by
    simp [isNew, hold, htime.symm]
  have hsame : ¬ jsString (data "sensor".toList) ≠ tab.sensor.text := by
    rw [hsensor, hshape.sensor_eq]
    exact not_not.mpr rfl
  cases hrows : tab.rows with
  | nil => simp [hrows] at hold
  | cons row rows =>
      have hwidth : row.length = (columns metrics).length :=
        hshape.width row (by simp [hrows])
      have hfill := fillRow_eq data (fun _ hkey => hkey) hwidth tab.current
      have hheader : (columns metrics).foldl
            (fun header key => updateHeader header key (data key)) tab.current =
          tab.current.map fun entry => (entry.1, html (data entry.1) entry.2) := by
        rw [foldl_updateHeader]
        apply List.map_congr_left
        intro entry hentry
        have hkey : entry.1 ∈ columns metrics := by
          apply List.mem_cons_of_mem
          rw [← hshape.current_keys]
          exact List.mem_map_of_mem hentry
        rw [if_pos hkey]
      rw [updateTable, if_neg hsame, hnew, hrows, hshape.head_eq]
      simp only [List.head?_cons, hfill, hheader, scriptRow]

/-- The script reads its own timestamp cell back. -/
theorem topTime_of_scriptRow {rows : List (List Markup)} {time : HourMinute}
    (hrows : tab.rows = scriptRow metrics data :: rows)
    (htime : data timestampKey = some (.string time.strftime)) :
    topTime tab = some time.strftime := by
  have hcell : innerHTML (data timestampKey) = time.strftime := by
    rw [htime]
    rfl
  simp [topTime, hrows, scriptRow, columns, hcell,
    trim_of_notBlank fun char hmem => notBlank_of_mem_strftime hmem]

theorem WellShaped.updateTable_of_new (hshape : WellShaped sensor metrics tab) :
    WellShaped sensor metrics
      { tab with
        rows := scriptRow metrics data :: tab.rows
        current := tab.current.map fun entry => (entry.1, html (data entry.1) entry.2) } where
  sensor_eq := hshape.sensor_eq
  head_eq := hshape.head_eq
  width := by
    intro row hrow
    rcases List.mem_cons.mp hrow with rfl | hold
    · simp [scriptRow]
    · exact hshape.width row hold
  current_keys := by
    rw [← hshape.current_keys, List.map_map]
    rfl

/-! ## What the template renders -/

/-- The message has a value for every metric. -/
def HasMetrics (metrics : List Name) (measurement : Measurement) : Prop :=
  ∀ metric ∈ metrics, (measurement.message metric.text).isSome

instance (metrics : List Name) (measurement : Measurement) :
    Decidable (HasMetrics metrics measurement) :=
  inferInstanceAs (Decidable (∀ _ ∈ _, _))

theorem isSome_shown (clock : ℤ → HourMinute) {measurement : Measurement}
    (hmetrics : HasMetrics metrics measurement) {metric : Name} (hmetric : metric ∈ metrics) :
    (measurement.shown clock metric.text).isSome := by
  by_cases hkey : metric.text = timestampKey
  · rw [hkey, shown_timestamp]
    rfl
  · rw [shown_of_ne clock hkey]
    exact hmetrics metric hmetric

/-- **What the server renders.**  Each metric shows the newest measurement at its
own query, and the rows are those of the last query. -/
theorem renderTab_eq (clock : ℤ → HourMinute) (views : ℕ → Database) (first : ℕ)
    (sensor : Name) (newest : ℕ → Measurement) (older : ℕ → List Measurement)
    (hviews : ∀ k ≤ metrics.length,
      views (first + k) sensor.text = (newest k :: older k).map Measurement.item)
    (hmetrics : ∀ k ≤ metrics.length, ∀ measurement ∈ newest k :: older k,
      HasMetrics metrics measurement) :
    renderTab (fun seconds => .ok (clock seconds)) views first sensor metrics =
      .ok {
        sensor
        head := (columns metrics).map fun key => cell (escape key)
        rows := ((newest metrics.length :: older metrics.length).take 20).map fun measurement =>
          templateRow metrics (measurement.shown clock)
        current := metrics.zipIdx.map fun entry =>
          (entry.1.text, printed ((newest entry.2).shown clock entry.1.text)) } := by
  have hcurrent : (metrics.zipIdx.mapM fun entry => do
        let value ← retrieveValueOf (fun seconds => .ok (clock seconds)) (views (first + entry.2))
          sensor.text entry.1.text
        return (entry.1.text, printed (some value))) =
      Except.ok (metrics.zipIdx.map fun entry =>
        (entry.1.text, printed ((newest entry.2).shown clock entry.1.text))) := by
    apply mapM_eq_ok
    intro entry hentry
    obtain ⟨metric, k⟩ := entry
    obtain ⟨-, hk, hmetric⟩ := List.mem_zipIdx hentry
    have hle : k ≤ metrics.length := by omega
    have hmem : metric ∈ metrics := hmetric ▸ List.getElem_mem ..
    obtain ⟨value, hvalue, hretrieved⟩ := retrieveValueOf_eq clock (hviews k hle)
      fun measurement hstored => isSome_shown clock (hmetrics k hle measurement hstored) hmem
    simp only [hretrieved, hvalue]
    rfl
  have hrows := retrieveValues_eq clock (hviews metrics.length le_rfl)
  unfold renderTab
  rw [hcurrent, hrows]
  simp [bind, Except.bind, pure, Except.pure, Function.comp_def]

end AwsIotSensors.Dashboard
