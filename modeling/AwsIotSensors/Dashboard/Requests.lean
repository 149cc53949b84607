import AwsIotSensors.Dashboard.Rendering

/-!
# Which requests are answered

The three routes of `app.py`.  All of them retrieve the newest items of sensors, and
three operations of that are partial: `fromtimestamp` has a range, the metric of a
message is looked up as it is, and the first of the values is taken whether there is
one or not.  An exception in any of them is the end of the whole answer.

`answer_succeeds_iff` says which requests are answered for a table whose timestamps
are in milliseconds: the route of the values whenever the timestamps are in range,
that of the last value if there is one as well, and the page only if every sensor
it displays has data and every message of it has all metrics.
-/

namespace AwsIotSensors.Dashboard

open Exceptions PlainText

variable (fromtimestamp : ℤ → Except PyError HourMinute) (database : Database)

/-- `sensor`, the route `/<sensor>/`. -/
def Route.sensor (sensor : Text) : Except PyError (List Json) := do
  return (← retrieveValues fromtimestamp database sensor).map Message.json

/-- `sensor_metric`, the route `/<sensor>/last`, for any text in the place of the
sensor. -/
def Route.sensorMetric (sensor : Text) : Except PyError Json := do
  return Message.json (← retrieveValue fromtimestamp database sensor)

/-- A request to the server. -/
inductive Request
  | landing
  | sensor (sensor : Text)
  | sensorMetric (sensor : Text)

/-- What the server sends. -/
inductive Reply
  | page (tabs : List Tab)
  | list (messages : List Json)
  | object (message : Json)

/-- The answer to a request, or the exception that the client sees as an error. -/
def answer : Request → Except PyError Reply
  | .landing => do return .page (← landingHandler fromtimestamp fun _ => database)
  | .sensor sensor => do return .list (← Route.sensor fromtimestamp database sensor)
  | .sensorMetric sensor => do
      return .object (← Route.sensorMetric fromtimestamp database sensor)

/-! ## What an answer needs -/

/-- The items of the table have timestamps in milliseconds, of at least four digits. -/
def AllTimed : Prop :=
  ∀ sensor, ∀ item ∈ database sensor, item.Timed

/-- The times of the newest items of the sensor are in the range of `fromtimestamp`. -/
def InRange (sensor : Text) : Prop :=
  ∀ item ∈ query database sensor, (fromtimestamp item.seconds).isOk = true

/-- The message has the metric, once its timestamp is there. -/
def Item.Contains (item : Item) (metric : Text) : Prop :=
  metric = timestampKey ∨ (item.message metric).isSome

/-- The sensor has items if it has metrics, and each of the newest ones has all of
them and a time in range. -/
structure Displayable (sensor : Name) (metrics : List Name) : Prop where
  nonempty : metrics ≠ [] → query database sensor.text ≠ []
  contains : ∀ item ∈ query database sensor.text, ∀ metric ∈ metrics, item.Contains metric.text
  inRange : InRange fromtimestamp database sensor.text

/-- What the answer to a request needs. -/
def Answerable : Request → Prop
  | .landing => ∀ entry ∈ sensors, Displayable fromtimestamp database entry.1 entry.2
  | .sensor sensor => InRange fromtimestamp database sensor
  | .sensorMetric sensor =>
      query database sensor ≠ [] ∧ InRange fromtimestamp database sensor

variable {fromtimestamp database}

/-! ## What is retrieved -/

theorem timed_of_mem_query (htimed : AllTimed database) {sensor : Text} {item : Item}
    (hitem : item ∈ query database sensor) : item.Timed :=
  htimed sensor item (List.mem_of_mem_take hitem)

theorem isOk_stamp_iff {item : Item} (htimed : item.Timed) :
    (stamp fromtimestamp item).isOk = true ↔ (fromtimestamp item.seconds).isOk = true := by
  rw [stamp_of_timed fromtimestamp htimed, isOk_bind_pure]

theorem isOk_valueOf_iff {metric : Text} {message : Message} :
    (valueOf metric message).isOk = true ↔ (message metric).isSome := by
  unfold valueOf
  cases message metric <;> simp [Except.isOk, Except.toBool]

theorem isOk_firstItem_iff {α : Type} {items : List α} :
    (firstItem items).isOk = true ↔ items ≠ [] := by
  cases items <;> simp [firstItem, Except.isOk, Except.toBool]

/-- The first of the values is there if the loop succeeds and has run. -/
theorem isOk_firstItem_mapM_iff {α : Type} {f : Item → Except PyError α} {items : List Item} :
    (do firstItem (← items.mapM f)).isOk = true ↔
      items ≠ [] ∧ ∀ item ∈ items, (f item).isOk = true := by
  rw [isOk_bind_iff, ← isOk_mapM_iff, isOk_iff_exists]
  constructor
  · intro hfirst
    obtain ⟨values, hvalues, hsome⟩ := hfirst
    refine ⟨?_, values, hvalues⟩
    rintro rfl
    obtain rfl := Except.ok.inj hvalues
    exact absurd rfl (isOk_firstItem_iff.mp hsome)
  · intro hboth
    obtain ⟨hne, values, hvalues⟩ := hboth
    refine ⟨values, hvalues, isOk_firstItem_iff.mpr ?_⟩
    rwa [← List.length_pos_iff, length_of_mapM hvalues, List.length_pos_iff]

/-- The route of the values needs times in range. -/
theorem isOk_retrieveValues_iff (htimed : AllTimed database) (sensor : Text) :
    (retrieveValues fromtimestamp database sensor).isOk = true ↔
      InRange fromtimestamp database sensor := by
  rw [retrieveValues, isOk_mapM_iff]
  exact forall₂_congr fun item hitem => isOk_stamp_iff (timed_of_mem_query htimed hitem)

theorem isOk_retrieveValue_iff (htimed : AllTimed database) (sensor : Text) :
    (retrieveValue fromtimestamp database sensor).isOk = true ↔
      query database sensor ≠ [] ∧ InRange fromtimestamp database sensor := by
  rw [retrieveValue, retrieveValues, isOk_firstItem_mapM_iff]
  refine and_congr_right fun _ => ?_
  exact forall₂_congr fun item hitem => isOk_stamp_iff (timed_of_mem_query htimed hitem)

/-- The metric of an item is found if its time is in range and the message has it. -/
theorem isOk_valueOf_stamp_iff {item : Item} (htimed : item.Timed) (metric : Text) :
    (do valueOf metric (← stamp fromtimestamp item)).isOk = true ↔
      (fromtimestamp item.seconds).isOk = true ∧ item.Contains metric := by
  rw [stamp_of_timed fromtimestamp htimed]
  simp only [bind_assoc, pure_bind]
  rw [isOk_bind_iff]
  simp only [isOk_valueOf_iff, isSome_update_timestamp]
  rw [isOk_iff_exists, exists_and_right]
  rfl

theorem isOk_retrieveValueOf_iff (htimed : AllTimed database) (sensor metric : Text) :
    (retrieveValueOf fromtimestamp database sensor metric).isOk = true ↔
      query database sensor ≠ [] ∧
        (∀ item ∈ query database sensor, item.Contains metric) ∧
        InRange fromtimestamp database sensor := by
  rw [retrieveValueOf, retrieveValuesOf, isOk_firstItem_mapM_iff]
  refine and_congr_right fun _ => ?_
  rw [InRange, ← forall₂_and]
  refine forall₂_congr fun item hitem => ?_
  rw [isOk_valueOf_stamp_iff (timed_of_mem_query htimed hitem), and_comm]

/-! ## The page -/

/-- **A tab is rendered** if and only if its sensor is displayable. -/
theorem isOk_renderTab_iff (htimed : AllTimed database) (first : ℕ) (sensor : Name)
    (metrics : List Name) :
    (renderTab fromtimestamp (fun _ => database) first sensor metrics).isOk = true ↔
      Displayable fromtimestamp database sensor metrics := by
  have hcurrent : (∀ entry ∈ metrics.zipIdx,
        (retrieveValueOf fromtimestamp database sensor.text entry.1.text).isOk = true) ↔
      ∀ metric ∈ metrics,
        (retrieveValueOf fromtimestamp database sensor.text metric.text).isOk = true := by
    conv_rhs => rw [← List.zipIdx_map_fst 0 metrics]
    rw [List.forall_mem_map]
  unfold renderTab
  rw [isOk_bind_iff]
  simp only [isOk_bind_pure]
  rw [exists_and_right, ← isOk_iff_exists, isOk_mapM_iff]
  simp only [isOk_bind_pure]
  rw [hcurrent, isOk_retrieveValues_iff htimed]
  simp only [isOk_retrieveValueOf_iff htimed]
  constructor
  · intro hboth
    obtain ⟨hmetrics, hrange⟩ := hboth
    refine ⟨?_, ?_, hrange⟩
    · intro hne
      obtain ⟨metric, hmetric⟩ := List.exists_mem_of_ne_nil metrics hne
      exact (hmetrics metric hmetric).1
    · intro item hitem metric hmetric
      exact (hmetrics metric hmetric).2.1 item hitem
  · intro hdisplayable
    refine ⟨?_, hdisplayable.inRange⟩
    intro metric hmetric
    exact ⟨hdisplayable.nonempty (List.ne_nil_of_mem hmetric),
      fun item hitem => hdisplayable.contains item hitem metric hmetric, hdisplayable.inRange⟩

/-- **A page is rendered** if and only if all its sensors are displayable: one that is
not takes the tabs of the others away. -/
theorem isOk_renderPage_iff (htimed : AllTimed database) (first : ℕ)
    (page : List (Name × List Name)) :
    (renderPage fromtimestamp (fun _ => database) first page).isOk = true ↔
      ∀ entry ∈ page, Displayable fromtimestamp database entry.1 entry.2 := by
  induction page generalizing first with
  | nil => simp [renderPage, Except.isOk, Except.toBool]
  | cons entry rest ih =>
      obtain ⟨sensor, metrics⟩ := entry
      rw [renderPage, isOk_bind_iff]
      simp only [isOk_bind_pure]
      rw [exists_and_right, ← isOk_iff_exists, isOk_renderTab_iff htimed, ih, List.forall_mem_cons]

/-! ## The main statement -/

/-- **Which requests are answered.**  With the timestamps in milliseconds, a request
raises no exception if and only if the newest items have what its answer needs. -/
theorem answer_succeeds_iff (htimed : AllTimed database) (request : Request) :
    (answer fromtimestamp database request).isOk = true ↔
      Answerable fromtimestamp database request := by
  cases request with
  | landing =>
      rw [answer, isOk_bind_pure]
      exact isOk_renderPage_iff htimed 0 sensors
  | sensor sensor =>
      rw [answer, Route.sensor, isOk_bind_pure, isOk_bind_pure]
      exact isOk_retrieveValues_iff htimed sensor
  | sensorMetric sensor =>
      rw [answer, Route.sensorMetric, isOk_bind_pure, isOk_bind_pure]
      exact isOk_retrieveValue_iff htimed sensor

/-! ## A page that is rendered, and one that is not -/

/-- An item of `air-sensor`. -/
def mildDay : Item where
  timestamp := "1559383200000".toList
  message := fun key =>
    if key = "temperature".toList then some (.decimal "20.5".toList)
    else if key = "humidity".toList then some (.decimal "40".toList)
    else none

/-- A table with an item of each of these sensors. -/
def someSensors (names : List Text) : Database :=
  fun sensor => if names.any fun name => name = sensor then [mildDay] else []

theorem eq_mildDay_of_mem {names : List Text} {sensor : Text} {item : Item}
    (hitem : item ∈ someSensors names sensor) : item = mildDay := by
  unfold someSensors at hitem
  split at hitem
  · exact List.mem_singleton.mp hitem
  · cases hitem

theorem allTimed_someSensors (names : List Text) : AllTimed (someSensors names) := by
  intro sensor item hitem
  rw [eq_mildDay_of_mem hitem]
  decide

theorem mildDay_contains :
    ∀ entry ∈ sensors, ∀ metric ∈ entry.2, metric.text = timestampKey ∨
      (mildDay.message metric.text).isSome := by
  decide

/-- The page is rendered if all its sensors have data. -/
theorem answer_succeeds_iff_everySensor :
    (answer (fun seconds => .ok (utc seconds))
      (someSensors (sensors.map fun entry => entry.1.text)) .landing).isOk = true := by
  apply (answer_succeeds_iff (allTimed_someSensors _) .landing).mpr
  intro entry hentry
  have hitems : query (someSensors (sensors.map fun entry => entry.1.text)) entry.1.text =
      [mildDay] := by
    have hnamed : ((sensors.map fun entry => entry.1.text).any fun name =>
        name = entry.1.text) = true := by
      rw [List.any_eq_true]
      exact ⟨_, List.mem_map_of_mem hentry, decide_eq_true rfl⟩
    rw [query, someSensors, if_pos hnamed]
    rfl
  refine ⟨?_, ?_, ?_⟩
  · rw [hitems]
    exact fun _ => List.cons_ne_nil _ _
  · intro item hitem metric hmetric
    rw [hitems] at hitem
    rw [List.mem_singleton.mp hitem]
    exact mildDay_contains entry hentry metric hmetric
  · exact fun _ _ => rfl

/-- A table with an item of `air-sensor` only. -/
def onlyAirSensor : Database := someSensors [airSensor.text]

/-- Two sensors without data take the page away, and with it the tab of the third. -/
theorem exists_not_answered :
    ¬ ∀ (clock : ℤ → HourMinute) (database : Database) (request : Request),
      AllTimed database →
      (∀ sensor, ∀ item ∈ database sensor, ∀ key, ∀ value ∈ item.message key,
        ∃ text, value = .decimal text) →
      (answer (fun seconds => .ok (clock seconds)) database request).isOk = true := by
  intro hclaim
  have hdecimals : ∀ sensor, ∀ item ∈ onlyAirSensor sensor, ∀ key, ∀ value ∈ item.message key,
      ∃ text, value = .decimal text := by
    intro sensor item hitem key value hvalue
    rw [eq_mildDay_of_mem hitem] at hvalue
    unfold mildDay at hvalue
    dsimp only at hvalue
    split at hvalue
    · exact ⟨_, (Option.some.inj hvalue).symm⟩
    · split at hvalue
      · exact ⟨_, (Option.some.inj hvalue).symm⟩
      · cases hvalue
  have hpage := hclaim utc onlyAirSensor .landing (allTimed_someSensors _) hdecimals
  exact absurd hpage (by decide)

end AwsIotSensors.Dashboard
