import AwsIotSensors.Dashboard.Page
import AwsIotSensors.Lib.Runs

/-!
# Polling the last measurement

The system around a sensor's tab: measurements are stored, every timer tick has
the server answer with the newest of them, and the answers reach `updateTable`,
in any order.

The row of a measurement shows its time to the minute, and `isNew` compares
nothing else.  The invariant of every run is that the top row shows the minute
of the measurement that was delivered last (`InStep`), so a delivered measurement
is shown if and only if its minute is another one: `polls_shown_iff`.
-/

namespace AwsIotSensors.Dashboard

open PlainText Runs

/-- An answer on its way to the page, with the measurement it was made of. -/
structure Response where
  origin : Measurement
  data : Json

/-- The stored measurements of the sensor, newest first, the answers on their way,
the tab, and the measurement that the page got last: from the first rendering, or
from the last answer delivered. -/
structure World where
  history : List Measurement
  inflight : List Response
  tab : Tab
  previous : Measurement

/-- What can happen: a measurement is stored, a poll is answered, or one of the
answers on their way is delivered. -/
inductive Event
  | measure (measurement : Measurement)
  | serve
  | deliver (k : ℕ)

/-- The measurement that an event stores. -/
def Event.measured : Event → Option Measurement
  | .measure measurement => some measurement
  | _ => none

/-- The place of the answer that an event delivers. -/
def Event.delivered : Event → Option ℕ
  | .deliver k => some k
  | _ => none

/-- The table, with the history of one sensor. -/
def databaseOf (sensor : Name) (history : List Measurement) : Database :=
  fun name => if name = sensor.text then history.map Measurement.item else []

/-- The page has just been rendered. -/
def World.start (newest : Measurement) (older : List Measurement) (tab : Tab) : World :=
  ⟨newest :: older, [], tab, newest⟩

variable (clock : ℤ → HourMinute) (sensor : Name) (metrics : List Name)

/-- What an event does. -/
def step (world : World) : Event → World
  | .measure measurement => { world with history := measurement :: world.history }
  | .serve =>
      match world.history, sensorMetric (fun seconds => .ok (clock seconds))
        (databaseOf sensor world.history) sensor with
      | newest :: _, .ok data => { world with inflight := world.inflight ++ [⟨newest, data⟩] }
      | _, _ => world
  | .deliver k =>
      match world.inflight[k]? with
      | some response =>
          { world with
            inflight := world.inflight.eraseIdx k
            tab := updateTable world.tab response.data
            previous := response.origin }
      | none => world

/-! ## What is assumed of a run, and what should hold -/

/-- The message names its sensor and has a value for every metric. -/
def Carries (measurement : Measurement) : Prop :=
  measurement.message "sensor".toList = some (.string sensor.text) ∧
    HasMetrics metrics measurement

/-- What is stored carries sensor and metrics. -/
def EventCarries (event : Event) : Prop :=
  ∀ measurement ∈ event.measured, Carries sensor metrics measurement

/-- What is stored is newer than everything before. -/
def Newer (world : World) (event : Event) : Prop :=
  ∀ measurement ∈ event.measured, ∀ other ∈ world.history, other.ms < measurement.ms

/-- The answers are delivered in the order in which they were given. -/
def InOrder (event : Event) : Prop :=
  ∀ k ∈ event.delivered, k = 0

instance (measurement : Measurement) : Decidable (Carries sensor metrics measurement) :=
  inferInstanceAs (Decidable (_ ∧ _))

instance (event : Event) : Decidable (EventCarries sensor metrics event) :=
  inferInstanceAs (Decidable (∀ _ ∈ _, _))

instance (world : World) (event : Event) : Decidable (Newer world event) :=
  inferInstanceAs (Decidable (∀ _ ∈ _, ∀ _ ∈ _, _))

instance (event : Event) : Decidable (InOrder event) :=
  inferInstanceAs (Decidable (∀ _ ∈ _, _))

/-- The data that is sent for a measurement. -/
def Measurement.data (measurement : Measurement) : Json :=
  Message.json (measurement.shown clock)

/-- The tab after a response: one more row, and a new header, with what the script
makes of the values of the measurement.  A cell shows `String(value)` and is empty for
`null`; an element of the header is empty for `false` too, as jQuery has it. -/
def ShowsNew (before later : Tab) (measurement : Measurement) : Prop :=
  later.rows = scriptRow metrics (measurement.data clock) :: before.rows ∧
    later.current = metrics.map fun metric =>
      (metric.text, html (measurement.data clock metric.text) [])

/-- A delivered measurement is shown if it is another one than the last, and else
the tab does not change. -/
def PollShown (world : World) (event : Event) : Prop :=
  ∀ k ∈ event.delivered, ∀ response ∈ world.inflight[k]?,
    if response.origin.ms = world.previous.ms then
      (step clock sensor world event).tab = world.tab
    else ShowsNew clock metrics world.tab (step clock sensor world event).tab response.origin

/-- A delivered measurement that is another one than the last was made in another
minute of the day. -/
def MinuteDiffers (world : World) (event : Event) : Prop :=
  ∀ k ∈ event.delivered, ∀ response ∈ world.inflight[k]?,
    response.origin.ms ≠ world.previous.ms →
      response.origin.time clock ≠ world.previous.time clock

theorem eq_deliver_of_delivered {event : Event} {k : ℕ} (hevent : k ∈ event.delivered) :
    event = .deliver k := by
  cases event with
  | measure measurement => cases hevent
  | serve => cases hevent
  | deliver j => rw [Option.some.inj hevent]

/-! ## The invariant -/

/-- The tab has its shape and its top row shows the minute of the measurement it
got last; what is on its way was made of measurements with all values. -/
structure InStep (world : World) : Prop where
  carries : ∀ measurement ∈ world.history, Carries sensor metrics measurement
  shape : WellShaped sensor metrics world.tab
  top : topTime world.tab = some (world.previous.time clock).strftime
  responses : ∀ response ∈ world.inflight,
    Carries sensor metrics response.origin ∧ response.data = response.origin.data clock

variable {sensor metrics}

theorem data_timestamp (measurement : Measurement) :
    measurement.data clock timestampKey =
      some (.string (measurement.time clock).strftime) := by
  rw [Measurement.data, Message.json, shown_timestamp]
  rfl

theorem data_sensor {measurement : Measurement} (hcarries : Carries sensor metrics measurement) :
    measurement.data clock "sensor".toList = some (.string sensor.text) := by
  rw [Measurement.data, Message.json, shown_of_ne clock (by decide), hcarries.1]
  rfl

theorem isSome_data {measurement : Measurement} (hcarries : Carries sensor metrics measurement)
    {metric : Name} (hmetric : metric ∈ metrics) :
    (measurement.data clock metric.text).isSome := by
  rw [Measurement.data, Message.json, Option.isSome_map]
  exact isSome_shown clock hcarries.2 hmetric

theorem databaseOf_self (history : List Measurement) :
    databaseOf sensor history sensor.text = history.map Measurement.item := by
  rw [databaseOf, if_pos rfl]

/-- The answer to a poll is made of the newest measurement. -/
theorem sensorMetric_eq {database : Database} {newest : Measurement} {older : List Measurement}
    (hhistory : database sensor.text = (newest :: older).map Measurement.item) :
    sensorMetric (fun seconds => .ok (clock seconds)) database sensor =
      .ok (newest.data clock) := by
  rw [sensorMetric, retrieveValue_eq clock hhistory]
  rfl

/-- What is rendered of a history. -/
theorem renderTab_databaseOf {newest : Measurement} {older : List Measurement}
    (hcarries : ∀ measurement ∈ newest :: older, Carries sensor metrics measurement) :
    renderTab (fun seconds => .ok (clock seconds)) (fun _ => databaseOf sensor (newest :: older))
        0 sensor metrics =
      .ok {
        sensor
        head := (columns metrics).map fun key => cell (escape key)
        rows := ((newest :: older).take 20).map fun measurement =>
          templateRow metrics (measurement.shown clock)
        current := metrics.map fun metric =>
          (metric.text, printed (newest.shown clock metric.text)) } := by
  -- every query sees the same table
  have hcurrent : metrics.zipIdx.map (fun entry =>
        (entry.1.text, printed (newest.shown clock entry.1.text))) =
      metrics.map fun metric => (metric.text, printed (newest.shown clock metric.text)) := by
    calc metrics.zipIdx.map (fun entry =>
          (entry.1.text, printed (newest.shown clock entry.1.text)))
        = (metrics.zipIdx.map Prod.fst).map fun metric =>
            (metric.text, printed (newest.shown clock metric.text)) := by
          rw [List.map_map]
          rfl
      _ = _ := by rw [List.zipIdx_map_fst]
  rw [renderTab_eq clock _ 0 sensor (fun _ => newest) (fun _ => older)
    (fun _ _ => databaseOf_self (newest :: older))
    fun _ _ measurement hmem => (hcarries measurement hmem).2, hcurrent]

/-- The page can be rendered. -/
theorem exists_rendered {newest : Measurement} {older : List Measurement}
    (hcarries : ∀ measurement ∈ newest :: older, Carries sensor metrics measurement) :
    ∃ tab, renderTab (fun seconds => .ok (clock seconds))
      (fun _ => databaseOf sensor (newest :: older)) 0 sensor metrics = .ok tab :=
  ⟨_, renderTab_databaseOf clock hcarries⟩

theorem start_inStep {newest : Measurement} {older : List Measurement} {tab : Tab}
    (hcarries : ∀ measurement ∈ newest :: older, Carries sensor metrics measurement)
    (hrendered : renderTab (fun seconds => .ok (clock seconds))
      (fun _ => databaseOf sensor (newest :: older)) 0 sensor metrics = .ok tab) :
    InStep clock sensor metrics (World.start newest older tab) := by
  rw [renderTab_databaseOf clock hcarries] at hrendered
  obtain rfl := Except.ok.inj hrendered
  refine ⟨hcarries, ⟨rfl, rfl, ?_, ?_⟩, ?_, by simp [World.start]⟩
  · intro row hrow
    obtain ⟨measurement, -, rfl⟩ := List.mem_map.mp hrow
    simp [templateRow]
  · exact List.map_map ..
  · -- the script reads the minute back from the cell of the template
    have hcell : trim (cell (printed (newest.shown clock timestampKey))) =
        (newest.time clock).strftime := by
      rw [shown_timestamp, printed, str, escape_strftime]
      exact trim_cell fun char hmem => notBlank_of_mem_strftime hmem
    simp [World.start, topTime, templateRow, columns, hcell]

/-! ## What a step does -/

/-- A poll is answered with the newest measurement. -/
theorem step_serve {world : World} {newest : Measurement} {older : List Measurement}
    (hhistory : world.history = newest :: older) :
    step clock sensor world .serve =
      { world with inflight := world.inflight ++ [⟨newest, newest.data clock⟩] } := by
  simp only [step, hhistory, sensorMetric_eq clock (databaseOf_self (newest :: older))]

theorem step_serve_of_nil {world : World} (hhistory : world.history = []) :
    step clock sensor world .serve = world := by
  simp only [step, hhistory]

/-- A delivery takes the answer from those on their way to `updateTable`. -/
theorem step_deliver {world : World} {k : ℕ} {response : Response}
    (hresponse : world.inflight[k]? = some response) :
    step clock sensor world (.deliver k) =
      ⟨world.history, world.inflight.eraseIdx k, updateTable world.tab response.data,
        response.origin⟩ := by
  simp only [step, hresponse]

theorem step_deliver_of_none {world : World} {k : ℕ} (hnone : world.inflight[k]? = none) :
    step clock sensor world (.deliver k) = world := by
  simp only [step, hnone]

/-- What `updateTable` does with a response, in terms of the minutes. -/
theorem deliver_of_inStep {world : World} (hworld : InStep clock sensor metrics world)
    {response : Response} (hmem : response ∈ world.inflight) :
    (response.origin.time clock = world.previous.time clock →
      updateTable world.tab response.data = world.tab) ∧
    (response.origin.time clock ≠ world.previous.time clock →
      ShowsNew clock metrics world.tab (updateTable world.tab response.data) response.origin ∧
        WellShaped sensor metrics (updateTable world.tab response.data)) := by
  obtain ⟨hcarries, hdata⟩ := hworld.responses response hmem
  have htime : jsString (response.data timestampKey) =
      (response.origin.time clock).strftime := by
    rw [hdata, data_timestamp]
    rfl
  refine ⟨?_, ?_⟩
  · intro hsame
    exact updateTable_of_isNew hworld.top (htime.trans (by rw [hsame]))
  · intro hdiffers
    have hne : jsString (response.data timestampKey) ≠
        (world.previous.time clock).strftime := by
      rw [htime]
      exact fun heq => hdiffers (strftime_injective heq)
    have hnew := updateTable_of_new hworld.shape (hdata ▸ data_sensor clock hcarries)
      hworld.top hne
    rw [hnew]
    refine ⟨⟨by rw [hdata], ?_⟩, hworld.shape.updateTable_of_new⟩
    -- every value is there, so that nothing of the old header is left
    have hheader : world.tab.current.map (fun entry =>
          (entry.1, html (response.data entry.1) entry.2)) =
        (world.tab.current.map Prod.fst).map fun metric =>
          (metric, html (response.origin.data clock metric) []) := by
      rw [List.map_map, hdata]
      apply List.map_congr_left
      intro entry hentry
      have hkey : entry.1 ∈ metrics.map Name.text := by
        rw [← hworld.shape.current_keys]
        exact List.mem_map_of_mem hentry
      obtain ⟨metric, hmetric, hname⟩ := List.mem_map.mp hkey
      obtain ⟨value, hvalue⟩ :=
        Option.isSome_iff_exists.mp (isSome_data clock hcarries hmetric)
      rw [hname] at hvalue
      simp only [Function.comp, hvalue, html_of_some value entry.2]
    rw [hheader, hworld.shape.current_keys, List.map_map]
    rfl

theorem step_inStep (world : World) (event : Event) (hworld : InStep clock sensor metrics world)
    (hevent : EventCarries sensor metrics event) :
    InStep clock sensor metrics (step clock sensor world event) := by
  cases event with
  | measure measurement =>
      refine ⟨?_, hworld.shape, hworld.top, hworld.responses⟩
      intro other hother
      rcases List.mem_cons.mp hother with rfl | hold
      · exact hevent other rfl
      · exact hworld.carries other hold
  | serve =>
      cases hhistory : world.history with
      | nil => rwa [step_serve_of_nil clock hhistory]
      | cons newest older =>
          rw [step_serve clock hhistory]
          refine ⟨hworld.carries, hworld.shape, hworld.top, ?_⟩
          intro response hmem
          rcases List.mem_append.mp hmem with hold | hnew
          · exact hworld.responses response hold
          · obtain rfl := List.mem_singleton.mp hnew
            exact ⟨hworld.carries newest (by simp [hhistory]), rfl⟩
  | deliver k =>
      cases hresponse : world.inflight[k]? with
      | none => rwa [step_deliver_of_none clock hresponse]
      | some response =>
          have hmem : response ∈ world.inflight := List.mem_of_getElem? hresponse
          have hrest : ∀ other ∈ world.inflight.eraseIdx k,
              Carries sensor metrics other.origin ∧ other.data = other.origin.data clock :=
            fun other hother => hworld.responses other (List.mem_of_mem_eraseIdx hother)
          obtain ⟨hsame, hdiffers⟩ := deliver_of_inStep clock hworld hmem
          rw [step_deliver clock hresponse]
          by_cases htime : response.origin.time clock = world.previous.time clock
          · refine ⟨hworld.carries, ?_, ?_, hrest⟩
            · rw [hsame htime]
              exact hworld.shape
            · rw [hsame htime, htime]
              exact hworld.top
          · obtain ⟨hshows, hshape⟩ := hdiffers htime
            exact ⟨hworld.carries, hshape,
              topTime_of_scriptRow hshows.1 (data_timestamp clock response.origin), hrest⟩

/-- One delivery: it is reported as it should be if and only if the minute is
another one. -/
theorem pollShown_iff_minuteDiffers {world : World} (hworld : InStep clock sensor metrics world)
    (event : Event) :
    PollShown clock sensor metrics world event ↔ MinuteDiffers clock world event := by
  unfold PollShown MinuteDiffers
  refine forall_congr' fun k => forall_congr' fun hevent => forall_congr' fun response =>
    forall_congr' fun hresponse => ?_
  obtain rfl := eq_deliver_of_delivered hevent
  have hmem : response ∈ world.inflight := List.mem_of_getElem? hresponse
  obtain ⟨hsame, hdiffers⟩ := deliver_of_inStep clock hworld hmem
  rw [step_deliver clock hresponse]
  by_cases hms : response.origin.ms = world.previous.ms
  · have htime : response.origin.time clock = world.previous.time clock := by
      rw [Measurement.time, Measurement.time, hms]
    simp [hms, hsame htime]
  · rw [if_neg hms]
    constructor
    · intro hshows _ htime
      -- no row was prepended
      have hrows := congrArg List.length hshows.1
      rw [hsame htime] at hrows
      simp at hrows
    · intro hminute
      exact (hdiffers (hminute hms)).1

/-- The same over a run. -/
theorem along_pollShown_iff {world : World} (hworld : InStep clock sensor metrics world)
    {events : List Event} (hevents : ∀ event ∈ events, EventCarries sensor metrics event) :
    Along (step clock sensor) (PollShown clock sensor metrics) world events ↔
      Along (step clock sensor) (MinuteDiffers clock) world events := by
  induction events generalizing world with
  | nil => simp
  | cons event events ih =>
      have hnext := step_inStep clock world event hworld (hevents event (List.mem_cons_self ..))
      rw [along_cons, along_cons, pollShown_iff_minuteDiffers clock hworld event]
      exact and_congr_right fun _ =>
        ih hnext fun other hother => hevents other (List.mem_cons_of_mem _ hother)

/-! ## The main statement -/

/-- **When no polled measurement is lost.**  In every run, with the responses
delivered in any order, each response of another measurement than the one before
is shown, and each other one changes nothing, if and only if another measurement
always comes in another minute of the day. -/
theorem polls_shown_iff {newest : Measurement} {older : List Measurement} {tab : Tab}
    (hcarries : ∀ measurement ∈ newest :: older, Carries sensor metrics measurement)
    (hrendered : renderTab (fun seconds => .ok (clock seconds))
      (fun _ => databaseOf sensor (newest :: older)) 0 sensor metrics = .ok tab)
    (events : List Event) (hevents : ∀ event ∈ events, EventCarries sensor metrics event) :
    Along (step clock sensor) (PollShown clock sensor metrics) (World.start newest older tab)
        events ↔
      Along (step clock sensor) (MinuteDiffers clock) (World.start newest older tab) events :=
  along_pollShown_iff clock (start_inStep clock hcarries hrendered) hevents

/-! ## A lost measurement -/

/-- The clock of a server that runs in UTC. -/
def utc (seconds : ℤ) : HourMinute :=
  ⟨Fin.ofNat 24 (seconds.toNat / 3600), Fin.ofNat 60 (seconds.toNat / 60)⟩

/-- A measurement of `air-sensor`. -/
def airMeasurement (ms : ℕ) (temperature humidity : String) (h : 1000 ≤ ms := by decide) :
    Measurement where
  ms := ms
  message := fun key =>
    if key = "sensor".toList then some (.string airSensor.text)
    else if key = "temperature".toList then some (.decimal temperature.toList)
    else if key = "humidity".toList then some (.decimal humidity.toList)
    else none
  four_digits := h

/-- A measurement at noon, and one half a minute later. -/
def atNoon : Measurement := airMeasurement 43200000 "20.5" "40"
def halfAMinuteLater : Measurement := airMeasurement 43230000 "21.5" "41"

/-- The later measurement is stored and polled. -/
def polledOnce : List Event := [.measure halfAMinuteLater, .serve, .deliver 0]

theorem polls_shown_iff_polledOnce :
    ∃ tab, renderTab (fun seconds => .ok (utc seconds)) (fun _ => databaseOf airSensor [atNoon])
        0 airSensor airMetrics = .ok tab ∧
      (Along (step utc airSensor) (PollShown utc airSensor airMetrics)
          (World.start atNoon [] tab) polledOnce ↔
        Along (step utc airSensor) (MinuteDiffers utc) (World.start atNoon [] tab)
          polledOnce) := by
  obtain ⟨tab, hrendered⟩ := exists_rendered utc (show ∀ measurement ∈ [atNoon],
    Carries airSensor airMetrics measurement by decide)
  exact ⟨tab, hrendered, polls_shown_iff utc (by decide) hrendered polledOnce (by decide)⟩

/-- A measurement of the same minute is not shown. -/
theorem exists_not_pollShown :
    ¬ ∀ (clock : ℤ → HourMinute) (sensor : Name) (metrics : List Name) (newest : Measurement)
        (older : List Measurement) (tab : Tab) (events : List Event),
      (∀ measurement ∈ newest :: older, Carries sensor metrics measurement) →
      renderTab (fun seconds => .ok (clock seconds))
        (fun _ => databaseOf sensor (newest :: older)) 0 sensor metrics = .ok tab →
      (∀ event ∈ events, EventCarries sensor metrics event ∧ InOrder event) →
      Along (step clock sensor) Newer (World.start newest older tab) events →
      Along (step clock sensor) (PollShown clock sensor metrics)
        (World.start newest older tab) events := by
  intro hclaim
  obtain ⟨tab, hrendered⟩ := exists_rendered utc (show ∀ measurement ∈ [atNoon],
    Carries airSensor airMetrics measurement by decide)
  have hnewer : Along (step utc airSensor) Newer (World.start atNoon [] tab) polledOnce := by
    rw [polledOnce, along_cons, along_cons, along_cons]
    refine ⟨?_, fun _ hmeasured => ?_, fun _ hmeasured => ?_, trivial⟩
    · intro measurement hmeasured other hother
      obtain rfl := Option.some.inj hmeasured
      obtain rfl := List.mem_singleton.mp hother
      decide
    · cases hmeasured
    · cases hmeasured
  have hshown := hclaim utc airSensor airMetrics atNoon [] tab polledOnce (by decide) hrendered
    (by decide) hnewer
  rw [along_pollShown_iff utc (start_inStep utc (by decide) hrendered) (by decide)] at hshown
  exact hshown.2.2.1 0 rfl ⟨halfAMinuteLater, halfAMinuteLater.data utc⟩ rfl
    (show halfAMinuteLater.ms ≠ atNoon.ms by decide)
    (show halfAMinuteLater.time utc = atNoon.time utc by decide)

end AwsIotSensors.Dashboard
