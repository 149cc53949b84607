import AwsIotSensors.Dashboard.Polling

/-!
# One rendering against a changing table

`index.html` makes, for each sensor, one query for each metric and one more for
the rows, and measurements are stored meanwhile.  The queries of a rendering are
numbered, and `inserts k` is what is stored just before query number `k`.

The page is always produced.  A sensor's tab shows one measurement, in the header
and in its first row, if nothing is stored for that sensor after its first query
and before its last (`Quiet`): `page_consistent`.
-/

namespace AwsIotSensors.Dashboard

open PlainText

/-- The stored measurements of each sensor, newest first. -/
abbrev Stored := Text → List Measurement

/-- What is stored for which sensor, just before each query. -/
abbrev Inserts := ℕ → List (Text × Measurement)

/-- A new measurement is stored. -/
def Stored.insert (stored : Stored) (entry : Text × Measurement) : Stored :=
  Function.update stored entry.1 (entry.2 :: stored entry.1)

/-- What query number `k` sees. -/
def Stored.atQuery (initial : Stored) (inserts : Inserts) : ℕ → Stored
  | 0 => (inserts 0).foldl Stored.insert initial
  | k + 1 => (inserts (k + 1)).foldl Stored.insert (initial.atQuery inserts k)

/-- The items of the measurements. -/
def Stored.items (stored : Stored) : Database :=
  fun sensor => (stored sensor).map Measurement.item

/-- The loop of `index.html` over the sensors, whose first query has the number
`first`. -/
def renderPage (fromtimestamp : ℤ → Except PyError HourMinute) (views : ℕ → Database) :
    ℕ → List (Name × List Name) → Except PyError (List Tab)
  | _, [] => .ok []
  | first, (sensor, metrics) :: rest => do
      let tab ← renderTab fromtimestamp views first sensor metrics
      let tabs ← renderPage fromtimestamp views (first + metrics.length + 1) rest
      return tab :: tabs

/-- `landing_handler`. -/
def landingHandler (fromtimestamp : ℤ → Except PyError HourMinute) (views : ℕ → Database) :
    Except PyError (List Tab) :=
  renderPage fromtimestamp views 0 sensors

/-- The number of queries that a part of the page makes. -/
def queries (page : List (Name × List Name)) : ℕ :=
  (page.map fun entry => entry.2.length + 1).sum

/-! ## What should hold, and when it does -/

/-- There is data for every sensor of the page, and every message has all metrics
of its sensor. -/
structure Supplied (page : List (Name × List Name)) (initial : Stored) (inserts : Inserts) :
    Prop where
  nonempty : ∀ entry ∈ page, initial entry.1.text ≠ []
  metrics : ∀ entry ∈ page, ∀ measurement ∈ initial entry.1.text,
    HasMetrics entry.2 measurement
  inserted : ∀ entry ∈ page, ∀ k, ∀ insert ∈ inserts k, insert.1 = entry.1.text →
    HasMetrics entry.2 insert.2

/-- One stored measurement gives all values of the header and the first row. -/
def Consistent (clock : ℤ → HourMinute) (stored : Stored) (sensor : Name) (metrics : List Name)
    (tab : Tab) : Prop :=
  ∃ measurement ∈ stored sensor.text,
    tab.current = metrics.map (fun metric =>
      (metric.text, printed (measurement.shown clock metric.text))) ∧
    tab.rows.head? = some (templateRow metrics (measurement.shown clock))

/-- Nothing is stored for the sensor between its first query and its last. -/
def Quiet (inserts : Inserts) (first : ℕ) (sensor : Name) (metrics : List Name) : Prop :=
  ∀ k < metrics.length, ∀ insert ∈ inserts (first + k + 1), insert.1 ≠ sensor.text

/-! ## What the queries see -/

theorem insert_eq_or (stored : Stored) (entry : Text × Measurement) (sensor : Text) :
    stored.insert entry sensor = stored sensor ∧ entry.1 ≠ sensor ∨
      stored.insert entry sensor = entry.2 :: stored sensor ∧ entry.1 = sensor := by
  by_cases hsensor : entry.1 = sensor
  · right
    subst hsensor
    exact ⟨Function.update_self .., rfl⟩
  · left
    exact ⟨Function.update_of_ne (Ne.symm hsensor) _ _, hsensor⟩

theorem foldl_insert_of_ne {stored : Stored} {entries : List (Text × Measurement)} {sensor : Text}
    (hother : ∀ entry ∈ entries, entry.1 ≠ sensor) :
    entries.foldl Stored.insert stored sensor = stored sensor := by
  induction entries generalizing stored with
  | nil => rfl
  | cons entry entries ih =>
      rw [List.foldl_cons, ih fun other hmem => hother other (List.mem_cons_of_mem _ hmem)]
      exact Function.update_of_ne (hother entry (List.mem_cons_self ..)).symm _ _

/-- Storing measurements with all metrics keeps a sensor supplied. -/
theorem foldl_insert_supplied {stored : Stored} {entries : List (Text × Measurement)}
    {sensor : Text} {metrics : List Name} (hnonempty : stored sensor ≠ [])
    (hmetrics : ∀ measurement ∈ stored sensor, HasMetrics metrics measurement)
    (hentries : ∀ entry ∈ entries, entry.1 = sensor → HasMetrics metrics entry.2) :
    entries.foldl Stored.insert stored sensor ≠ [] ∧
      ∀ measurement ∈ entries.foldl Stored.insert stored sensor,
        HasMetrics metrics measurement := by
  induction entries generalizing stored with
  | nil => exact ⟨hnonempty, hmetrics⟩
  | cons entry entries ih =>
      have hrest : ∀ other ∈ entries, other.1 = sensor → HasMetrics metrics other.2 :=
        fun other hmem => hentries other (List.mem_cons_of_mem _ hmem)
      rcases insert_eq_or stored entry sensor with ⟨hsame, -⟩ | ⟨hnew, hsensor⟩
      · apply ih _ _ hrest
        · rwa [hsame]
        · rwa [hsame]
      · apply ih _ _ hrest
        · simp [hnew]
        · rw [hnew]
          intro measurement hmem
          rcases List.mem_cons.mp hmem with rfl | hold
          · exact hentries entry (List.mem_cons_self ..) hsensor
          · exact hmetrics measurement hold

variable {page : List (Name × List Name)} {initial : Stored} {inserts : Inserts} {sensor : Name}
  {metrics : List Name}

theorem Supplied.atQuery (hsupplied : Supplied page initial inserts)
    (hentry : (sensor, metrics) ∈ page) (k : ℕ) :
    initial.atQuery inserts k sensor.text ≠ [] ∧
      ∀ measurement ∈ initial.atQuery inserts k sensor.text, HasMetrics metrics measurement := by
  induction k with
  | zero =>
      exact foldl_insert_supplied (hsupplied.nonempty _ hentry) (hsupplied.metrics _ hentry)
        (hsupplied.inserted _ hentry 0)
  | succ k ih =>
      exact foldl_insert_supplied ih.1 ih.2 (hsupplied.inserted _ hentry (k + 1))

/-- Between its queries a quiet sensor does not change. -/
theorem Quiet.atQuery_eq {first : ℕ} (hquiet : Quiet inserts first sensor metrics)
    (initial : Stored) {k : ℕ} (hk : k ≤ metrics.length) :
    initial.atQuery inserts (first + k) sensor.text =
      initial.atQuery inserts first sensor.text := by
  induction k with
  | zero => rfl
  | succ k ih =>
      rw [← ih (by omega)]
      exact foldl_insert_of_ne (hquiet k (by omega))

/-! ## One sensor, and the page -/

theorem renderTab_consistent (clock : ℤ → HourMinute) (hsupplied : Supplied page initial inserts)
    (hentry : (sensor, metrics) ∈ page) (first : ℕ) :
    ∃ tab, renderTab (fun seconds => .ok (clock seconds))
        (fun k => (initial.atQuery inserts k).items) first sensor metrics = .ok tab ∧
      (Quiet inserts first sensor metrics →
        Consistent clock (initial.atQuery inserts (first + metrics.length)) sensor metrics
          tab) := by
  have hviews (k : ℕ) : ∃ newest older,
      initial.atQuery inserts (first + k) sensor.text = newest :: older :=
    List.exists_cons_of_ne_nil (hsupplied.atQuery hentry (first + k)).1
  choose newest older hviews using hviews
  refine ⟨_, renderTab_eq clock _ first sensor newest older
    (fun k _ => by rw [Stored.items, hviews]) fun k _ => hviews k ▸
      (hsupplied.atQuery hentry (first + k)).2, fun hquiet => ?_⟩
  -- all queries see the same newest measurement
  have hsame (k : ℕ) (hk : k ≤ metrics.length) : newest k = newest metrics.length := by
    have hcons := (hquiet.atQuery_eq initial hk).trans
      (hquiet.atQuery_eq initial le_rfl).symm
    rw [hviews, hviews] at hcons
    exact List.head_eq_of_cons_eq hcons
  refine ⟨newest metrics.length, by simp [hviews], ?_, rfl⟩
  have hcurrent : metrics.zipIdx.map (fun entry =>
        (entry.1.text, printed ((newest entry.2).shown clock entry.1.text))) =
      (metrics.zipIdx.map Prod.fst).map fun metric =>
        (metric.text, printed ((newest metrics.length).shown clock metric.text)) := by
    rw [List.map_map]
    apply List.map_congr_left
    intro entry hmem
    obtain ⟨metric, k⟩ := entry
    obtain ⟨-, hk, -⟩ := List.mem_zipIdx hmem
    rw [hsame k (by omega)]
    rfl
  rw [hcurrent, List.zipIdx_map_fst]

theorem renderPage_consistent (clock : ℤ → HourMinute) (hsupplied : Supplied page initial inserts)
    {rest : List (Name × List Name)} (hrest : ∀ entry ∈ rest, entry ∈ page) (first : ℕ) :
    ∃ tabs, renderPage (fun seconds => .ok (clock seconds))
        (fun k => (initial.atQuery inserts k).items) first rest = .ok tabs ∧
      ∀ before sensor metrics later, rest = before ++ (sensor, metrics) :: later →
        Quiet inserts (first + queries before) sensor metrics →
        ∃ tab ∈ tabs[before.length]?, Consistent clock
          (initial.atQuery inserts (first + queries before + metrics.length)) sensor metrics
          tab := by
  induction rest generalizing first with
  | nil => exact ⟨[], rfl, by simp⟩
  | cons entry rest ih =>
      obtain ⟨sensor, metrics⟩ := entry
      obtain ⟨tab, htab, hconsistent⟩ := renderTab_consistent clock hsupplied
        (hrest _ (List.mem_cons_self ..)) first
      obtain ⟨tabs, htabs, hothers⟩ := ih
        (fun other hmem => hrest other (List.mem_cons_of_mem _ hmem))
        (first + metrics.length + 1)
      refine ⟨tab :: tabs, ?_, ?_⟩
      · rw [renderPage, htab, htabs]
        rfl
      · intro before sensor' metrics' later heq hquiet
        cases before with
        | nil =>
            obtain ⟨hhead, -⟩ := List.cons.inj heq
            obtain ⟨rfl, rfl⟩ := Prod.mk.inj hhead
            exact ⟨tab, rfl, hconsistent hquiet⟩
        | cons other before =>
            obtain ⟨rfl, htail⟩ := List.cons.inj heq
            have hqueries : first + queries ((sensor, metrics) :: before) =
                first + metrics.length + 1 + queries before := by
              simp only [queries, List.map_cons, List.sum_cons]
              omega
            rw [hqueries] at hquiet ⊢
            exact hothers before sensor' metrics' later htail hquiet

/-! ## The main statement -/

/-- **When a rendered tab is consistent.**  The page is produced for every
interleaving of inserts with its queries, and the tab of a sensor shows one and
the same measurement in its header and its first row if nothing is stored for
that sensor between its first query and its last. -/
theorem page_consistent (clock : ℤ → HourMinute) (page : List (Name × List Name))
    (initial : Stored) (inserts : Inserts) (hsupplied : Supplied page initial inserts) :
    ∃ tabs, renderPage (fun seconds => .ok (clock seconds))
        (fun k => (initial.atQuery inserts k).items) 0 page = .ok tabs ∧
      ∀ before sensor metrics later, page = before ++ (sensor, metrics) :: later →
        Quiet inserts (queries before) sensor metrics →
        ∃ tab ∈ tabs[before.length]?, Consistent clock
          (initial.atQuery inserts (queries before + metrics.length)) sensor metrics tab := by
  obtain ⟨tabs, htabs, hconsistent⟩ :=
    renderPage_consistent clock hsupplied (fun _ hentry => hentry) 0
  refine ⟨tabs, htabs, ?_⟩
  simpa only [Nat.zero_add] using hconsistent

/-- An item of `air-sensor` is stored just before its first query, and one of another
sensor between its queries. -/
def storedAround : Inserts
  | 0 => [(airSensor.text, halfAMinuteLater)]
  | 1 => [("riot-test-1".toList, halfAMinuteLater)]
  | _ => []

theorem hasMetrics_of_storedAround :
    ∀ entry ∈ sensors, ∀ k, ∀ insert ∈ storedAround k, HasMetrics entry.2 insert.2 := by
  intro entry hentry k insert hinsert
  have hinserted : insert.2 = halfAMinuteLater := by
    match k with
    | 0 => rw [List.mem_singleton.mp hinsert]
    | 1 => rw [List.mem_singleton.mp hinsert]
    | k + 2 => cases hinsert
  rw [hinserted]
  revert hentry
  revert entry
  decide

/-- The landing page is rendered while items are stored. -/
theorem page_consistent_landing :
    ∃ tabs, landingHandler (fun seconds => .ok (utc seconds))
        (fun k => (Stored.atQuery (fun _ => [atNoon]) storedAround k).items) = .ok tabs ∧
      ∃ tab ∈ tabs[0]?, Consistent utc (Stored.atQuery (fun _ => [atNoon]) storedAround 2)
        airSensor airMetrics tab := by
  have hquiet : Quiet storedAround 0 airSensor airMetrics := by
    intro k hk insert hinsert
    match k, hk with
    | 0, _ =>
        rw [List.mem_singleton.mp hinsert]
        decide
    | 1, _ => cases hinsert
  obtain ⟨tabs, htabs, hconsistent⟩ :=
    page_consistent utc sensors (fun _ => [atNoon]) storedAround
      ⟨by simp, by decide, fun entry hentry k insert hinsert _ =>
        hasMetrics_of_storedAround entry hentry k insert hinsert⟩
  exact ⟨tabs, htabs, hconsistent [] airSensor airMetrics _ rfl hquiet⟩

/-- A measurement is stored between the query for the temperature and the query
for the humidity. -/
def storedMeanwhile : Inserts
  | 1 => [(airSensor.text, halfAMinuteLater)]
  | _ => []

/-- The header then has the temperature of one measurement and the humidity of
another. -/
theorem exists_not_consistent :
    ¬ ∀ (clock : ℤ → HourMinute) (page : List (Name × List Name)) (initial : Stored)
        (inserts : Inserts), Supplied page initial inserts →
      ∃ tabs, renderPage (fun seconds => .ok (clock seconds))
          (fun k => (initial.atQuery inserts k).items) 0 page = .ok tabs ∧
        ∀ before sensor metrics later, page = before ++ (sensor, metrics) :: later →
          ∃ tab ∈ tabs[before.length]?, Consistent clock
            (initial.atQuery inserts (queries before + metrics.length)) sensor metrics tab := by
  intro hclaim
  have hsupplied : Supplied [(airSensor, airMetrics)] (fun _ => [atNoon]) storedMeanwhile := by
    refine ⟨by simp, by decide, ?_⟩
    intro entry hentry k insert hinsert _
    obtain rfl := List.mem_singleton.mp hentry
    match k with
    | 0 => simp [storedMeanwhile] at hinsert
    | 1 =>
        obtain rfl := List.mem_singleton.mp hinsert
        decide
    | k + 2 => simp [storedMeanwhile] at hinsert
  obtain ⟨tabs, htabs, hconsistent⟩ := hclaim utc _ _ _ hsupplied
  have hviews : ∀ k ≤ airMetrics.length,
      ((Stored.atQuery (fun _ => [atNoon]) storedMeanwhile (0 + k)).items) airSensor.text =
        ((if k = 0 then atNoon else halfAMinuteLater) ::
          (if k = 0 then [] else [atNoon])).map Measurement.item := by
    intro k hk
    match k, hk with
    | 0, _ => rfl
    | 1, _ => rfl
    | 2, _ => rfl
  rw [renderPage, renderTab_eq utc _ 0 airSensor _ _ hviews fun k hk => by
    match k, hk with
    | 0, _ => decide
    | 1, _ => decide
    | 2, _ => decide] at htabs
  obtain rfl := Except.ok.inj htabs
  obtain ⟨tab, htab, measurement, hmem, hcurrent, -⟩ :=
    hconsistent [] airSensor airMetrics [] rfl
  obtain rfl := Option.some.inj htab
  have hstored : measurement ∈ [halfAMinuteLater, atNoon] := hmem
  rcases List.mem_cons.mp hstored with rfl | hnoon
  · exact absurd hcurrent (by decide)
  · obtain rfl := List.mem_singleton.mp hnoon
    exact absurd hcurrent (by decide)

end AwsIotSensors.Dashboard
