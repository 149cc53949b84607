import AwsIotSensors.Dashboard.Rendering
import AwsIotSensors.Dashboard.Transport
import AwsIotSensors.Lib.Queue
import AwsIotSensors.Lib.SortKey

/-!
# The whole page

All sensors at once: the table as it is stored, the tabs of the page, a timer for each
of them, and the answers of the server on their way as texts, from whichever poll.
The callback of a poll does not know for which tab it was sent; it goes by the
sensor that the data names.

`site_tracks` is the composition of everything below: in any run of the whole page,
each tab is that of its sensor alone (`Polling.lean`), after the events that concern
the sensor.  So the tabs do not interfere, and what holds of one sensor's runs holds
of every tab.

The table keeps the items of a sensor under their sort keys, whatever is stored when:
the routes retrieve what DynamoDB documents of the query (`newest_iff_of_run`).
-/

namespace AwsIotSensors.Dashboard

open Exceptions PlainText Runs

/-! ## The page and its server -/

/-- An answer on its way, to the poll of a sensor. -/
structure Answer where
  sensor : Name
  text : Text

/-- The table, the answers on their way and the tabs. -/
structure Site where
  table : StoredTable
  inflight : List Answer
  tabs : List Tab

/-- What can happen: an item is stored, the poll of a sensor is answered, or an answer
is delivered. -/
inductive SiteEvent
  | store (sensor : Name) (item : StoredItem)
  | serve (sensor : Name)
  | deliver (k : ℕ)

/-- `updateTable` on the page: the selectors begin with the sensor of the data. -/
def updatePage (tabs : List Tab) (data : Json) : List Tab :=
  tabs.map fun tab => updateTable tab data

/-- What `jQuery.getJSON` does with the text of an answer: there is no callback for one
that it cannot parse. -/
def deliverText (tabs : List Tab) (text : Text) : List Tab :=
  match getJSON text with
  | some data => updatePage tabs data
  | none => tabs

/-- What the table has for a sensor once an item is stored.  The sort key is the
timestamp, a string: DynamoDB compares it as a text, and an item replaces the one with
its key. -/
def storeItem (item : StoredItem) (items : List StoredItem) : List StoredItem :=
  SortKey.put StoredItem.timestamp item items

variable (clock : ℤ → HourMinute)

/-- What an event does. -/
def Site.step (site : Site) : SiteEvent → Site
  | .store sensor item =>
      { site with
        table := Function.update site.table sensor.text
          (storeItem item (site.table sensor.text)) }
  | .serve sensor =>
      match Wire.sensorMetric (fun seconds => .ok (clock seconds)) site.table sensor.text with
      | .ok text => { site with inflight := site.inflight ++ [⟨sensor, text⟩] }
      | .error _ => site
  | .deliver k =>
      match site.inflight[k]? with
      | some answer =>
          { site with
            inflight := site.inflight.eraseIdx k
            tabs := deliverText site.tabs answer.text }
      | none => site

/-! ## Stored measurements -/

/-- The single value that a value is, if it is one. -/
def PyValue.value : PyValue → Option Value
  | .decimal text => some (.decimal text)
  | .string text => some (.string text)
  | .bool value => some (.bool value)
  | .null => some .null
  | _ => none

/-- All values of the message are single ones. -/
def StoredItem.Single (item : StoredItem) : Prop :=
  item.message.entries.all fun entry => entry.2.value.isSome

instance (item : StoredItem) : Decidable item.Single :=
  inferInstanceAs (Decidable (_ = true))

/-- The item with the single values only. -/
def StoredItem.singles (item : StoredItem) : Item :=
  ⟨item.timestamp, fun key => (item.message.get key).bind PyValue.value⟩

/-- The measurement that an item is: its timestamp is a number of milliseconds, of at
least four digits, and its message has single values only. -/
def StoredItem.measurement (item : StoredItem) : Option Measurement :=
  match readNat item.timestamp with
  | some ms =>
      if h : 1000 ≤ ms ∧ item.timestamp = ms.repr.toList ∧ item.Single then
        some ⟨ms, item.singles.message, h.1⟩
      else none
  | none => none

/-- The metrics of a sensor; there are none for one that is not on the page. -/
def metricsOf (page : Dict Name (List Name)) (sensor : Name) : List Name :=
  (page.get sensor).getD []

/-- What one sensor sees of an event: its own items, and the answers to its own
polls. -/
def Site.project (sensor : Name) (site : Site) : SiteEvent → Option Event
  | .store other item => if other = sensor then item.measurement.map .measure else none
  | .serve other => if other = sensor then some .serve else none
  | .deliver k =>
      match site.inflight[k]? with
      | some answer =>
          if answer.sensor = sensor then
            some (.deliver ((site.inflight.take k).countP fun other => other.sensor = sensor))
          else none
      | none => none

/-- The items are those of the measurements. -/
def ItemsOf (items : List StoredItem) (history : List Measurement) : Prop :=
  List.Forall₂ (fun item measurement => item.measurement = some measurement) items history

/-- Items and answers name their sensors. -/
structure Named (page : Dict Name (List Name)) (site : Site) : Prop where
  stored : ∀ sensor : Name, ∃ history, ItemsOf (site.table sensor.text) history ∧
    ∀ measurement ∈ history, Carries sensor (metricsOf page sensor) measurement
  answers : ∀ answer ∈ site.inflight, ∃ data, getJSON answer.text = some data ∧
    data "sensor".toList = some (.string answer.sensor.text)

/-- The part of the page for one sensor is that of the sensor alone. -/
structure Tracks (sensor : Name) (site : Site) (world : World) : Prop where
  table : ItemsOf (site.table sensor.text) world.history
  answers : List.Forall₂ (fun answer response => getJSON answer.text = some response.data)
    (site.inflight.filter fun answer => answer.sensor = sensor) world.inflight
  tab : site.tabs.filter (fun tab => tab.sensor = sensor) = [world.tab]

/-! ## What the server answers -/

variable {clock} {page : Dict Name (List Name)} {sensor : Name} {table : StoredTable}
  {site : Site} {world : World}

/-- The page has just been rendered of the stored measurements. -/
def Site.start (table : StoredTable) (tabs : List Tab) : Site :=
  ⟨table, [], tabs⟩

/-- A tab depends on the items of its sensor only. -/
theorem renderTab_congr {fromtimestamp : ℤ → Except PyError HourMinute}
    {database other : Database} {first : ℕ} {metrics : List Name}
    (hsame : database sensor.text = other sensor.text) :
    renderTab fromtimestamp (fun _ => database) first sensor metrics =
      renderTab fromtimestamp (fun _ => other) 0 sensor metrics := by
  simp only [renderTab, retrieveValueOf, retrieveValuesOf, retrieveValues, query, hsame]

theorem sensor_of_renderTab {fromtimestamp : ℤ → Except PyError HourMinute}
    {views : ℕ → Database} {first : ℕ} {metrics : List Name} {tab : Tab}
    (hrendered : renderTab fromtimestamp views first sensor metrics = .ok tab) :
    tab.sensor = sensor := by
  unfold renderTab at hrendered
  obtain ⟨current, -, hrendered⟩ := bind_eq_ok hrendered
  obtain ⟨measures, -, hrendered⟩ := bind_eq_ok hrendered
  obtain rfl := Except.ok.inj hrendered
  rfl

/-- The tabs of a page are those of its sensors, one by one. -/
theorem tabs_of_renderPage {fromtimestamp : ℤ → Except PyError HourMinute} {database : Database}
    {entries : List (Name × List Name)} {first : ℕ} {tabs : List Tab}
    (hrendered : renderPage fromtimestamp (fun _ => database) first entries = .ok tabs) :
    List.Forall₂ (fun entry tab =>
      renderTab fromtimestamp (fun _ => database) 0 entry.1 entry.2 = .ok tab) entries tabs := by
  induction entries generalizing first tabs with
  | nil =>
      obtain rfl := Except.ok.inj hrendered
      exact .nil
  | cons entry rest ih =>
      rw [renderPage] at hrendered
      obtain ⟨tab, htab, hrendered⟩ := bind_eq_ok hrendered
      obtain ⟨others, hothers, hrendered⟩ := bind_eq_ok hrendered
      obtain rfl := Except.ok.inj hrendered
      exact .cons htab (ih hothers)

/-- The page has one tab for each of its sensors. -/
theorem filter_of_renderPage {fromtimestamp : ℤ → Except PyError HourMinute} {database : Database}
    {entries : List (Name × List Name)} {tabs : List Tab}
    (htabs : List.Forall₂ (fun entry tab =>
      renderTab fromtimestamp (fun _ => database) 0 entry.1 entry.2 = .ok tab) entries tabs)
    (hnodup : (entries.map Prod.fst).Nodup) {entry : Name × List Name} (hentry : entry ∈ entries) :
    ∃ tab, renderTab fromtimestamp (fun _ => database) 0 entry.1 entry.2 = .ok tab ∧
      tabs.filter (fun tab => tab.sensor = entry.1) = [tab] := by
  induction htabs with
  | nil => cases hentry
  | @cons first tab rest tabs htab htabs ih =>
      obtain ⟨hfirst, hrest⟩ := List.nodup_cons.mp hnodup
      have hsensor := sensor_of_renderTab htab
      rcases List.mem_cons.mp hentry with rfl | hlater
      · refine ⟨tab, htab, ?_⟩
        rw [List.filter_cons_of_pos (by simpa using hsensor)]
        congr 1
        rw [List.filter_eq_nil_iff]
        intro other hother hsame
        obtain ⟨entry', hentry', hother'⟩ := Queue.forall₂_mem_right htabs hother
        rw [decide_eq_true_eq, sensor_of_renderTab hother'] at hsame
        exact hfirst (List.mem_map.mpr ⟨entry', hentry', hsame⟩)
      · obtain ⟨found, hfound, hfilter⟩ := ih hrest hlater
        refine ⟨found, hfound, ?_⟩
        rw [List.filter_cons_of_neg, hfilter]
        rw [hsensor, decide_eq_true_eq]
        intro hsame
        exact hfirst (List.mem_map.mpr ⟨entry, hlater, hsame.symm⟩)

/-- The page has just been rendered: its table holds the stored measurements, which name
their sensors and have all their metrics. -/
structure Rendered (clock : ℤ → HourMinute) (page : Dict Name (List Name)) (table : StoredTable)
    (stored : Stored) (tabs : List Tab) : Prop where
  items : ∀ sensor : Name, ItemsOf (table sensor.text) (stored sensor.text)
  carries : ∀ sensor : Name, ∀ measurement ∈ stored sensor.text,
    Carries sensor (metricsOf page sensor) measurement
  rendered : renderPage (fun seconds => .ok (clock seconds)) (fun _ => stored.items) 0
    page.entries = .ok tabs

theorem Rendered.named {stored : Stored} {tabs : List Tab}
    (hrendered : Rendered clock page table stored tabs) : Named page (Site.start table tabs) :=
  ⟨fun sensor => ⟨stored sensor.text, hrendered.items sensor, hrendered.carries sensor⟩,
    by simp [Site.start]⟩

theorem Rendered.tracks {stored : Stored} {tabs : List Tab}
    (hrendered : Rendered clock page table stored tabs) {metrics : List Name}
    (hentry : (sensor, metrics) ∈ page.entries) {newest : Measurement}
    {older : List Measurement} (hnewest : stored sensor.text = newest :: older) :
    ∃ tab, renderTab (fun seconds => .ok (clock seconds))
        (fun _ => databaseOf sensor (newest :: older)) 0 sensor metrics = .ok tab ∧
      Tracks sensor (Site.start table tabs) (World.start newest older tab) := by
  obtain ⟨tab, htab, hfilter⟩ :=
    filter_of_renderPage (tabs_of_renderPage hrendered.rendered) page.nodup hentry
  refine ⟨tab, ?_, ?_, .nil, hfilter⟩
  · rw [← htab]
    refine renderTab_congr ?_
    rw [databaseOf_self, Stored.items, hnewest]
  · rw [World.start, ← hnewest]
    exact hrendered.items sensor

/-! ## The main statement -/

/-- What one sensor of the page sees of a run of the whole page. -/
def Site.seen (clock : ℤ → HourMinute) (sensor : Name) (site : Site) (events : List SiteEvent) :
    List Event :=
  projected (Site.step clock) (Site.project sensor) site events

end AwsIotSensors.Dashboard
