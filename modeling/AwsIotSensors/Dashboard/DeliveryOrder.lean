import AwsIotSensors.Dashboard.Polling

/-!
# The order of the rows

A poll is sent every ten seconds, whatever became of the one before, and its
answer is prepended unless the top row shows its minute: nothing orders answers
that overtake each other.

`ordered_iff` is exact.  When the measurements fall into different minutes, the
rows of a run are strictly newest first, without repetition, and under the header
of the newest, in every state if and only if no answer is delivered after one of
a newer measurement.  The invariant is `Faithful`: the rows show a list of
stored measurements, newest first, that starts with the one delivered last.
-/

namespace AwsIotSensors.Dashboard

open PlainText Runs

variable (clock : ℤ → HourMinute) (sensor : Name) (metrics : List Name)

/-! ## What should hold, and when it does -/

/-- The row is that of the measurement, from the template or from the script. -/
def RowShows (row : List Markup) (measurement : Measurement) : Prop :=
  row = templateRow metrics (measurement.shown clock) ∨
    row = scriptRow metrics (measurement.data clock)

/-- The header has the values of the measurement, as the template or the script writes
them: `null` is `None` from the template and leaves the element empty from the script, as
`false` does there. -/
def HeaderShows (current : List (Text × Markup)) (measurement : Measurement) : Prop :=
  ∀ entry ∈ current, entry.2 = printed (measurement.shown clock entry.1) ∨
    entry.2 = html (measurement.data clock entry.1) []

/-- The first measurement is the newer one, and of another minute of the day. -/
def NewerMinute (newer older : Measurement) : Prop :=
  older.ms < newer.ms ∧ newer.time clock ≠ older.time clock

/-- The rows show stored measurements, strictly newest first, and the header shows
the newest of them. -/
def Ordered (world : World) : Prop :=
  ∃ shown : List Measurement, (∀ measurement ∈ shown, measurement ∈ world.history) ∧
    List.Forall₂ (RowShows clock metrics) world.tab.rows shown ∧
    (shown.Pairwise fun newer older => older.ms < newer.ms) ∧
    ∀ newest ∈ shown.head?, HeaderShows clock world.tab.current newest

/-- What is stored is newer than everything before, and of another minute. -/
def FreshMinute (world : World) (event : Event) : Prop :=
  ∀ measurement ∈ event.measured, ∀ other ∈ world.history, NewerMinute clock measurement other

/-- No answer is delivered after one of a newer measurement. -/
def NotOlder (world : World) (event : Event) : Prop :=
  ∀ k ∈ event.delivered, ∀ response ∈ world.inflight[k]?,
    world.previous.ms ≤ response.origin.ms

instance (newer older : Measurement) : Decidable (NewerMinute clock newer older) :=
  inferInstanceAs (Decidable (_ ∧ _))

/-! ## Minutes identify measurements -/

variable {clock} {sensor} {metrics}

theorem eq_of_time_eq {history : List Measurement} (hminutes : history.Pairwise (NewerMinute clock))
    {first second : Measurement} (hfirst : first ∈ history) (hsecond : second ∈ history)
    (htime : first.time clock = second.time clock) : first = second := by
  induction history with
  | nil => cases hfirst
  | cons newest older ih =>
      obtain ⟨hnewest, holder⟩ := List.pairwise_cons.mp hminutes
      rcases List.mem_cons.mp hfirst with rfl | hfirst'
      · rcases List.mem_cons.mp hsecond with rfl | hsecond'
        · rfl
        · exact absurd htime (hnewest second hsecond').2
      · rcases List.mem_cons.mp hsecond with rfl | hsecond'
        · exact absurd htime.symm (hnewest first hfirst').2
        · exact ih holder hfirst' hsecond'

/-- The first cell of a row shows the minute. -/
theorem RowShows.top {row : List Markup} {measurement : Measurement}
    (hrow : RowShows clock metrics row measurement) :
    row.head?.map trim = some (measurement.time clock).strftime := by
  have hblank : ∀ char ∈ (measurement.time clock).strftime, ¬ isBlank char :=
    fun char hmem => notBlank_of_mem_strftime hmem
  rcases hrow with rfl | rfl
  · have hcell : printed (measurement.shown clock timestampKey) =
        (measurement.time clock).strftime := by
      rw [shown_timestamp, printed, str, escape_strftime]
    simp [templateRow, columns, hcell, trim_cell hblank]
  · have hcell : innerHTML (measurement.data clock timestampKey) =
        (measurement.time clock).strftime := by
      rw [data_timestamp]
      rfl
    simp [scriptRow, columns, hcell, trim_of_notBlank hblank]

/-- Two stored measurements that one row shows are the same. -/
theorem RowShows.unique {history : List Measurement}
    (hminutes : history.Pairwise (NewerMinute clock)) {row : List Markup}
    {first second : Measurement} (hfirst : RowShows clock metrics row first)
    (hsecond : RowShows clock metrics row second) (hmem : first ∈ history)
    (hmem' : second ∈ history) : first = second := by
  apply eq_of_time_eq hminutes hmem hmem'
  apply strftime_injective
  exact Option.some.inj (hfirst.top.symm.trans hsecond.top)

/-! ## The invariant -/

/-- The rows show a list of stored measurements, newest first, that starts with
the one delivered last, which the header shows. -/
structure Faithful (clock : ℤ → HourMinute) (sensor : Name) (metrics : List Name)
    (world : World) : Prop where
  inStep : InStep clock sensor metrics world
  minutes : world.history.Pairwise (NewerMinute clock)
  origins : ∀ response ∈ world.inflight, response.origin ∈ world.history
  shown : ∃ rest : List Measurement,
    (∀ measurement ∈ world.previous :: rest, measurement ∈ world.history) ∧
    List.Forall₂ (RowShows clock metrics) world.tab.rows (world.previous :: rest) ∧
    ((world.previous :: rest).Pairwise fun newer older => older.ms < newer.ms)
  header : HeaderShows clock world.tab.current world.previous

theorem Faithful.ordered {world : World} (hworld : Faithful clock sensor metrics world) :
    Ordered clock metrics world := by
  obtain ⟨rest, hmem, hrows, hsorted⟩ := hworld.shown
  refine ⟨world.previous :: rest, hmem, hrows, hsorted, ?_⟩
  intro newest hnewest
  obtain rfl := Option.some.inj hnewest
  exact hworld.header

theorem start_faithful {newest : Measurement} {older : List Measurement} {tab : Tab}
    (hcarries : ∀ measurement ∈ newest :: older, Carries sensor metrics measurement)
    (hrendered : renderTab (fun seconds => .ok (clock seconds))
      (fun _ => databaseOf sensor (newest :: older)) 0 sensor metrics = .ok tab)
    (hminutes : (newest :: older).Pairwise (NewerMinute clock)) :
    Faithful clock sensor metrics (World.start newest older tab) := by
  refine ⟨start_inStep clock hcarries hrendered, hminutes, by simp [World.start], ?_, ?_⟩
  all_goals
    rw [renderTab_databaseOf clock hcarries] at hrendered
    obtain rfl := Except.ok.inj hrendered
  · refine ⟨older.take 19, ?_, ?_, ?_⟩
    · intro measurement hmem
      exact List.mem_of_mem_take (show measurement ∈ (newest :: older).take 20 from hmem)
    · have hrows : List.Forall₂ (RowShows clock metrics)
          (((newest :: older).take 20).map fun measurement =>
            templateRow metrics (measurement.shown clock)) ((newest :: older).take 20) := by
        rw [List.forall₂_map_left_iff]
        exact List.forall₂_same.mpr fun measurement _ => Or.inl rfl
      exact hrows
    · have hsorted : (newest :: older).Pairwise fun newer older => older.ms < newer.ms :=
        hminutes.imp fun hnewer => hnewer.1
      exact hsorted.take (i := 20)
  · intro entry hentry
    obtain ⟨metric, -, rfl⟩ := List.mem_map.mp hentry
    exact Or.inl rfl

/-- An answer that is not older than the last keeps the order. -/
theorem deliver_faithful {world : World} {k : ℕ} (hworld : Faithful clock sensor metrics world)
    {response : Response} (hresponse : world.inflight[k]? = some response)
    (hnotOlder : world.previous.ms ≤ response.origin.ms) :
    Faithful clock sensor metrics (step clock sensor world (.deliver k)) := by
  have hmem : response ∈ world.inflight := List.mem_of_getElem? hresponse
  have hstored := hworld.origins response hmem
  have hnext := step_inStep clock world (.deliver k) hworld.inStep
    fun _ hmeasured => by cases hmeasured
  obtain ⟨hsame, hdiffers⟩ := deliver_of_inStep clock hworld.inStep hmem
  obtain ⟨rest, hrest, hrows, hsorted⟩ := hworld.shown
  have horigins : ∀ other ∈ world.inflight.eraseIdx k, other.origin ∈ world.history :=
    fun other hother => hworld.origins other (List.mem_of_mem_eraseIdx hother)
  rw [step_deliver clock hresponse] at hnext ⊢
  by_cases htime : response.origin.time clock = world.previous.time clock
  · -- the measurement is the one that is shown already
    have heq : response.origin = world.previous :=
      eq_of_time_eq hworld.minutes hstored (hrest _ (List.mem_cons_self ..)) htime
    refine ⟨hnext, hworld.minutes, horigins, ⟨rest, ?_⟩, ?_⟩
    · rw [heq, hsame htime]
      exact ⟨hrest, hrows, hsorted⟩
    · rw [heq, hsame htime]
      exact hworld.header
  · obtain ⟨⟨hrows', hcurrent⟩, -⟩ := hdiffers htime
    have hnewer : world.previous.ms < response.origin.ms := by
      apply lt_of_le_of_ne hnotOlder
      intro hms
      exact htime (by rw [Measurement.time, Measurement.time, hms])
    refine ⟨hnext, hworld.minutes, horigins, ⟨world.previous :: rest, ?_, ?_, ?_⟩, ?_⟩
    · intro measurement hmeasurement
      rcases List.mem_cons.mp hmeasurement with rfl | hold
      · exact hstored
      · exact hrest measurement hold
    · rw [hrows']
      exact List.Forall₂.cons (Or.inr rfl) hrows
    · apply List.pairwise_cons.mpr
      refine ⟨?_, hsorted⟩
      intro measurement hmeasurement
      rcases List.mem_cons.mp hmeasurement with rfl | hold
      · exact hnewer
      · exact ((List.pairwise_cons.mp hsorted).1 measurement hold).trans hnewer
    · rw [hcurrent]
      intro entry hentry
      obtain ⟨metric, -, rfl⟩ := List.mem_map.mp hentry
      exact Or.inr rfl

theorem step_faithful (world : World) (event : Event)
    (hworld : Faithful clock sensor metrics world) (hcarries : EventCarries sensor metrics event)
    (hfresh : FreshMinute clock world event) (hnotOlder : NotOlder world event) :
    Faithful clock sensor metrics (step clock sensor world event) := by
  have hnext := step_inStep clock world event hworld.inStep hcarries
  cases event with
  | measure measurement =>
      obtain ⟨rest, hrest, hrows, hsorted⟩ := hworld.shown
      refine ⟨hnext, ?_, ?_, ⟨rest, ?_, hrows, hsorted⟩, hworld.header⟩
      · apply List.pairwise_cons.mpr
        exact ⟨hfresh measurement rfl, hworld.minutes⟩
      · intro response hmem
        exact List.mem_cons_of_mem _ (hworld.origins response hmem)
      · intro other hother
        exact List.mem_cons_of_mem _ (hrest other hother)
  | serve =>
      cases hhistory : world.history with
      | nil => rwa [step_serve_of_nil clock hhistory]
      | cons newest older =>
          rw [step_serve clock hhistory] at hnext ⊢
          refine ⟨hnext, hworld.minutes, ?_, hworld.shown, hworld.header⟩
          intro response hmem
          rcases List.mem_append.mp hmem with hold | hnew
          · exact hworld.origins response hold
          · obtain rfl := List.mem_singleton.mp hnew
            simp [hhistory]
  | deliver k =>
      cases hresponse : world.inflight[k]? with
      | none => rwa [step_deliver_of_none clock hresponse]
      | some response =>
          exact deliver_faithful hworld hresponse (hnotOlder k rfl response hresponse)

/-- An answer that is older than the last breaks the order: its row comes on top
of that of the last. -/
theorem notOlder_of_ordered {world : World} {event : Event}
    (hworld : Faithful clock sensor metrics world)
    (hnext : Ordered clock metrics (step clock sensor world event)) : NotOlder world event := by
  intro k hk response hresponse
  obtain rfl := eq_deliver_of_delivered hk
  by_contra hlt
  have hmem : response ∈ world.inflight := List.mem_of_getElem? hresponse
  have hstored := hworld.origins response hmem
  obtain ⟨rest, hrest, hrows, -⟩ := hworld.shown
  have htime : response.origin.time clock ≠ world.previous.time clock := by
    intro htime
    have heq := eq_of_time_eq hworld.minutes hstored (hrest _ (List.mem_cons_self ..)) htime
    exact hlt (by rw [heq])
  obtain ⟨⟨hrows', -⟩, -⟩ := (deliver_of_inStep clock hworld.inStep hmem).2 htime
  obtain ⟨shown, hshown, hshows, hsorted, -⟩ := hnext
  rw [step_deliver clock hresponse] at hshown hshows
  simp only [hrows'] at hshows
  -- the two top rows show the two measurements, and nothing else
  cases hrow : world.tab.rows with
  | nil => simp [hrow] at hrows
  | cons top rows =>
      rw [hrow] at hrows hshows
      cases hshows with
      | cons hfirst hothers =>
          cases hothers with
          | cons hsecond _ =>
              have hnewer := (List.pairwise_cons.mp hsorted).1 _ (List.mem_cons_self ..)
              obtain rfl := RowShows.unique hworld.minutes hfirst (Or.inr rfl)
                (hshown _ (List.mem_cons_self ..)) hstored
              obtain rfl := RowShows.unique hworld.minutes hsecond (List.forall₂_cons.mp hrows).1
                (hshown _ (List.mem_cons_of_mem _ (List.mem_cons_self ..)))
                (hrest _ (List.mem_cons_self ..))
              exact hlt hnewer.le

/-- Along a run from a faithful state, order and condition go together. -/
theorem forall_ordered_iff {world : World} (hworld : Faithful clock sensor metrics world)
    {events : List Event} (hcarries : ∀ event ∈ events, EventCarries sensor metrics event)
    (hfresh : Along (step clock sensor) (FreshMinute clock) world events) :
    (∀ before later, events = before ++ later →
        Ordered clock metrics (after (step clock sensor) world before)) ↔
      Along (step clock sensor) NotOlder world events := by
  induction events generalizing world with
  | nil =>
      constructor
      · intro _
        trivial
      · intro _ before later heq
        rw [(List.append_eq_nil_iff.mp heq.symm).1]
        exact hworld.ordered
  | cons event events ih =>
      have hevent := hcarries event (List.mem_cons_self ..)
      have hothers : ∀ other ∈ events, EventCarries sensor metrics other :=
        fun other hother => hcarries other (List.mem_cons_of_mem _ hother)
      constructor
      · intro hordered
        have hnotOlder := notOlder_of_ordered hworld (hordered [event] events rfl)
        have hnext := step_faithful world event hworld hevent hfresh.1 hnotOlder
        refine ⟨hnotOlder, (ih hnext hothers hfresh.2).mp ?_⟩
        intro before later heq
        exact hordered (event :: before) later (by rw [heq, List.cons_append])
      · intro hnotOlder before later heq
        have hnext := step_faithful world event hworld hevent hfresh.1 hnotOlder.1
        cases before with
        | nil => exact hworld.ordered
        | cons first before =>
            obtain ⟨rfl, hrest⟩ := List.cons.inj heq
            exact (ih hnext hothers hfresh.2).mpr hnotOlder.2 before later hrest

/-! ## The main statement -/

/-- **When the rows stay in order.**  With measurements of different minutes, the
rows are in every state of the run strictly newest first, and the header shows
the newest, if and only if no answer is delivered after one of a newer
measurement. -/
theorem ordered_iff {newest : Measurement} {older : List Measurement} {tab : Tab}
    (hcarries : ∀ measurement ∈ newest :: older, Carries sensor metrics measurement)
    (hrendered : renderTab (fun seconds => .ok (clock seconds))
      (fun _ => databaseOf sensor (newest :: older)) 0 sensor metrics = .ok tab)
    (hminutes : (newest :: older).Pairwise (NewerMinute clock))
    (events : List Event) (hevents : ∀ event ∈ events, EventCarries sensor metrics event)
    (hfresh : Along (step clock sensor) (FreshMinute clock) (World.start newest older tab)
      events) :
    (∀ before later, events = before ++ later →
        Ordered clock metrics (after (step clock sensor) (World.start newest older tab)
          before)) ↔
      Along (step clock sensor) NotOlder (World.start newest older tab) events :=
  forall_ordered_iff (start_faithful hcarries hrendered hminutes) hevents hfresh

/-- Measurements one and two minutes after noon. -/
def oneMinuteLater : Measurement := airMeasurement 43260000 "21.5" "41"
def twoMinutesLater : Measurement := airMeasurement 43320000 "22.5" "42"

/-- Two polls are answered in order, and the second answer is delivered first. -/
def overtaken : List Event :=
  [.measure oneMinuteLater, .serve, .measure twoMinutesLater, .serve, .deliver 1, .deliver 0]

theorem fresh_overtaken (tab : Tab) :
    Along (step utc airSensor) (FreshMinute utc) (World.start atNoon [] tab) overtaken := by
  have hfresh (measurement : Measurement) (world : World) (hall : ∀ other ∈ world.history,
      NewerMinute utc measurement other) : FreshMinute utc world (.measure measurement) := by
    intro stored hstored
    obtain rfl := Option.some.inj hstored
    exact hall
  have hother (event : Event) (world : World) (hnone : event.measured = none) :
      FreshMinute utc world event := by
    intro stored hstored
    rw [hnone] at hstored
    cases hstored
  rw [overtaken, along_cons, along_cons, along_cons, along_cons, along_cons, along_cons]
  refine ⟨hfresh _ _ ?_, hother _ _ rfl, hfresh _ _ ?_, hother _ _ rfl, hother _ _ rfl,
    hother _ _ rfl, trivial⟩
  · show ∀ other ∈ [atNoon], NewerMinute utc oneMinuteLater other
    decide
  · show ∀ other ∈ [oneMinuteLater, atNoon], NewerMinute utc twoMinutesLater other
    decide

theorem ordered_iff_overtaken :
    ∃ tab, renderTab (fun seconds => .ok (utc seconds)) (fun _ => databaseOf airSensor [atNoon])
        0 airSensor airMetrics = .ok tab ∧
      ((∀ before later, overtaken = before ++ later →
          Ordered utc airMetrics (after (step utc airSensor) (World.start atNoon [] tab)
            before)) ↔
        Along (step utc airSensor) NotOlder (World.start atNoon [] tab) overtaken) := by
  obtain ⟨tab, hrendered⟩ := exists_rendered utc (show ∀ measurement ∈ [atNoon],
    Carries airSensor airMetrics measurement by decide)
  exact ⟨tab, hrendered, ordered_iff (by decide) hrendered (by decide) overtaken (by decide)
    (fresh_overtaken tab)⟩

/-- An overtaken answer puts an older row on top. -/
theorem exists_not_ordered :
    ¬ ∀ (clock : ℤ → HourMinute) (sensor : Name) (metrics : List Name) (newest : Measurement)
        (older : List Measurement) (tab : Tab) (events : List Event),
      (∀ measurement ∈ newest :: older, Carries sensor metrics measurement) →
      renderTab (fun seconds => .ok (clock seconds))
        (fun _ => databaseOf sensor (newest :: older)) 0 sensor metrics = .ok tab →
      (newest :: older).Pairwise (NewerMinute clock) →
      (∀ event ∈ events, EventCarries sensor metrics event) →
      Along (step clock sensor) (FreshMinute clock) (World.start newest older tab) events →
      Ordered clock metrics (after (step clock sensor) (World.start newest older tab)
        events) := by
  intro hclaim
  obtain ⟨tab, hrendered⟩ := exists_rendered utc (show ∀ measurement ∈ [atNoon],
    Carries airSensor airMetrics measurement by decide)
  have hfresh := fresh_overtaken tab
  have hordered (before later : List Event) (heq : overtaken = before ++ later) :
      Ordered utc airMetrics (after (step utc airSensor) (World.start atNoon [] tab) before) := by
    apply hclaim utc airSensor airMetrics atNoon [] tab before (by decide) hrendered (by decide)
    · intro event hmem
      have hall : ∀ event ∈ overtaken, EventCarries airSensor airMetrics event := by decide
      exact hall event (by rw [heq]; exact List.mem_append_left _ hmem)
    · rw [heq, along_append] at hfresh
      exact hfresh.1
  rw [forall_ordered_iff (start_faithful (by decide) hrendered (by decide)) (by decide)
    hfresh] at hordered
  have hlast := hordered.2.2.2.2.2.1 0 rfl ⟨oneMinuteLater, oneMinuteLater.data utc⟩ rfl
  exact absurd hlast (show ¬ twoMinutesLater.ms ≤ oneMinuteLater.ms by decide)

end AwsIotSensors.Dashboard
