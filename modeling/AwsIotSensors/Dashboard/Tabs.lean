import AwsIotSensors.Dashboard.Page
import AwsIotSensors.Lib.Dict

/-!
# Which tab is open

`openTab` of `index.html` and the elements it works on: those with an `id`, in the
order of the document, and the links of the tab bar.  It knows nothing of the tab that
is open; it hides all of them, takes the class `is-active` from all links by editing
the texts of their classes, and then opens one.

`openTab_selects` says that the two always agree: after any clicks, the tab of the link
clicked last is displayed and no other, and that link is active and no other.  The
texts of the classes are bounded, however often a link is clicked.
-/

namespace AwsIotSensors.Dashboard

/-- An element with an `id`. -/
structure Element where
  id : Text
  className : Text
  display : Text

/-- The elements with an `id`, and the classes of the links. -/
structure Selection where
  elements : List Element
  links : List Text

/-- The classes in a `class` attribute. -/
def classes (className : Text) : List Text :=
  className.splitOnP fun char => [' ', '\t', '\n', '\x0c', '\r'].contains char

/-- The class is one of those of the attribute. -/
def hasClass (name : String) (className : Text) : Bool :=
  (classes className).contains name.toList

/-- `text.replace(pattern, "")`, for a pattern that is not empty: the first occurrence
goes. -/
def removeFirst (pattern : Text) : Text → Text
  | [] => []
  | char :: rest =>
      if pattern <+: char :: rest then (char :: rest).drop pattern.length
      else char :: removeFirst pattern rest

/-- `link.className.replace(" is-active", "")`. -/
def deactivate (className : Text) : Text :=
  removeFirst " is-active".toList className

/-- `tablinks[i].className = …`, for the links that have the class `tab` at that time;
nothing if there is no such link. -/
def changeLink (change : Text → Text) : ℕ → List Text → Option (List Text)
  | _, [] => none
  | i, link :: rest =>
      if hasClass "tab" link then
        match i with
        | 0 => some (change link :: rest)
        | i + 1 => (changeLink change i rest).map (link :: ·)
      else (changeLink change i rest).map (link :: ·)

/-- The element is one of `document.getElementsByClassName("content-tab")`. -/
def Element.isTab (element : Element) : Bool :=
  hasClass "content-tab" element.className

/-- `x[i].style.display = "none"`, for a tab. -/
def Element.hide (element : Element) : Element :=
  if element.isTab then { element with display := "none".toList } else element

/-- `document.getElementById(tabName).style.display = "block"`; nothing if there is no
such element. -/
def showElement (tabName : Text) : List Element → Option (List Element)
  | [] => none
  | element :: rest =>
      if element.id = tabName then some ({ element with display := "block".toList } :: rest)
      else (showElement tabName rest).map (element :: ·)

/-- `openTab`, as the link at the place `target` calls it; nothing if the script
fails. -/
def openTab (target : ℕ) (tabName : Text) (selection : Selection) : Option Selection := do
  let tabs := selection.elements.filter Element.isTab
  let elements := selection.elements.map Element.hide
  let links ← (List.range tabs.length).foldlM (fun links i => changeLink deactivate i links)
    selection.links
  let elements ← showElement tabName elements
  return { elements, links := links.modify target (· ++ " is-active".toList) }

/-! ## The page -/

/-- The elements of a page, for what its tabs have as `display`. -/
def layout (display : Name → Text) (page : List (Name × List Name)) : List Element :=
  page.flatMap fun entry =>
    ⟨entry.1.text, "content-tab".toList, display entry.1⟩ ::
      entry.2.map fun metric => ⟨"current-".toList ++ metric.text, "title".toList, []⟩

/-- What the template renders: the first tab is open. -/
def Selection.rendered (page : List (Name × List Name)) : Selection where
  elements := layout (fun sensor =>
    if page.head?.map Prod.fst = some sensor then [] else "none".toList) page
  links := page.mapIdx fun k _ => if k = 0 then "tab is-active".toList else "tab ".toList

/-- A click on the link at a place. -/
def click (page : List (Name × List Name)) (selection : Selection) (place : ℕ) :
    Option Selection :=
  match page[place]? with
  | some entry => openTab place entry.1.text selection
  | none => some selection

/-! ## The texts of the classes -/

/-- The classes of a link that is not active. -/
def idle : List Text := ["tab".toList, "tab ".toList]

/-- The classes of a link that is active. -/
def active : List Text := ["tab is-active".toList, "tab  is-active".toList]

theorem hasClass_tab {link : Text} (hlink : link ∈ idle ∨ link ∈ active) :
    hasClass "tab" link = true := by
  have hall : ∀ link ∈ idle ++ active, hasClass "tab" link = true := by decide
  exact hall link (List.mem_append.mpr hlink)

theorem deactivate_mem_idle {link : Text} (hlink : link ∈ idle ∨ link ∈ active) :
    deactivate link ∈ idle := by
  have hall : ∀ link ∈ idle ++ active, deactivate link ∈ idle := by decide
  exact hall link (List.mem_append.mpr hlink)

theorem activate_mem_active {link : Text} (hlink : link ∈ idle) :
    link ++ " is-active".toList ∈ active := by
  have hall : ∀ link ∈ idle, link ++ " is-active".toList ∈ active := by decide
  exact hall link hlink

/-! ## The loop over the links -/

/-- The link that is changed is the one at its place. -/
theorem changeLink_append {change : Text → Text} {before rest : List Text} {link : Text}
    (hbefore : ∀ other ∈ before, hasClass "tab" other = true) (hlink : hasClass "tab" link = true) :
    changeLink change before.length (before ++ link :: rest) =
      some (before ++ change link :: rest) := by
  induction before with
  | nil => simp [changeLink, hlink]
  | cons other before ih =>
      obtain ⟨hother, hrest⟩ := List.forall_mem_cons.mp hbefore
      simp only [List.length_cons, List.cons_append]
      rw [changeLink.eq_def]
      simp only [hother, if_true, ih hrest, Option.map_some]

/-- The loop takes the class from all links. -/
theorem deactivate_all {before rest : List Text} (hbefore : ∀ link ∈ before, link ∈ idle)
    (hrest : ∀ link ∈ rest, link ∈ idle ∨ link ∈ active) :
    (List.range' before.length rest.length).foldlM
        (fun links i => changeLink deactivate i links) (before ++ rest) =
      some (before ++ rest.map deactivate) := by
  induction rest generalizing before with
  | nil => simp
  | cons link rest ih =>
      obtain ⟨hlink, hothers⟩ := List.forall_mem_cons.mp hrest
      have hidle : ∀ other ∈ before ++ [deactivate link], other ∈ idle := by
        intro other hother
        rcases List.mem_append.mp hother with hold | hnew
        · exact hbefore other hold
        · rw [List.mem_singleton.mp hnew]
          exact deactivate_mem_idle hlink
      have hnext := ih hidle hothers
      rw [List.length_append, List.length_singleton, List.append_assoc, List.singleton_append,
        List.append_assoc, List.singleton_append] at hnext
      rw [List.length_cons, List.range'_succ, List.foldlM_cons,
        changeLink_append (fun other hother => hasClass_tab (Or.inl (hbefore other hother)))
          (hasClass_tab hlink)]
      exact hnext

/-! ## The elements -/

/-- The tab of a sensor. -/
def tabElement (display : Name → Text) (sensor : Name) : Element :=
  ⟨sensor.text, "content-tab".toList, display sensor⟩

/-- The element for the current value of a metric. -/
def currentElement (metric : Name) : Element :=
  ⟨"current-".toList ++ metric.text, "title".toList, []⟩

theorem isTab_tabElement (display : Name → Text) (sensor : Name) :
    (tabElement display sensor).isTab = true :=
  show hasClass "content-tab" "content-tab".toList = true by decide

theorem isTab_currentElement (metric : Name) : (currentElement metric).isTab = false :=
  show hasClass "content-tab" "title".toList = false by decide

theorem layout_cons (display : Name → Text) (entry : Name × List Name)
    (rest : List (Name × List Name)) :
    layout display (entry :: rest) =
      tabElement display entry.1 :: (entry.2.map currentElement ++ layout display rest) :=
  rfl

/-- The first loop hides all tabs, and nothing else. -/
theorem hide_layout (display : Name → Text) (page : List (Name × List Name)) :
    (layout display page).map Element.hide = layout (fun _ => "none".toList) page := by
  induction page with
  | nil => rfl
  | cons entry rest ih =>
      have htab : (tabElement display entry.1).hide =
          tabElement (fun _ => "none".toList) entry.1 :=
        if_pos (isTab_tabElement display entry.1)
      have hcurrent : (entry.2.map currentElement).map Element.hide =
          entry.2.map currentElement := by
        rw [List.map_map]
        refine List.map_congr_left fun metric _ => ?_
        rw [Function.comp, Element.hide, if_neg (ne_true_of_eq_false (isTab_currentElement metric))]
      rw [layout_cons, layout_cons, List.map_cons, List.map_append, ih, htab, hcurrent]

theorem length_tabs_layout (display : Name → Text) (page : List (Name × List Name)) :
    ((layout display page).filter Element.isTab).length = page.length := by
  induction page with
  | nil => rfl
  | cons entry rest ih =>
      have hcurrent : (entry.2.map currentElement).filter Element.isTab = [] := by
        rw [List.filter_eq_nil_iff, List.forall_mem_map]
        exact fun metric _ => ne_true_of_eq_false (isTab_currentElement metric)
      rw [layout_cons, List.filter_cons_of_pos (isTab_tabElement display entry.1),
        List.filter_append, hcurrent, List.nil_append, List.length_cons, ih, List.length_cons]

/-- No metric has the name of a sensor as the `id` of its element. -/
def DistinctIds (page : List (Name × List Name)) : Prop :=
  ∀ entry ∈ page, ∀ other ∈ page, ∀ metric ∈ other.2,
    entry.1.text ≠ "current-".toList ++ metric.text

instance (page : List (Name × List Name)) : Decidable (DistinctIds page) :=
  inferInstanceAs (Decidable (∀ _ ∈ _, ∀ _ ∈ _, ∀ _ ∈ _, _))

theorem showElement_append {tabName : Text} {before rest : List Element}
    (hbefore : ∀ element ∈ before, element.id ≠ tabName) :
    showElement tabName (before ++ rest) = (showElement tabName rest).map (before ++ ·) := by
  induction before with
  | nil => simp
  | cons element before ih =>
      obtain ⟨helement, hothers⟩ := List.forall_mem_cons.mp hbefore
      rw [List.cons_append, showElement, if_neg helement, ih hothers, Option.map_map]
      rfl

theorem layout_congr {display other : Name → Text} {page : List (Name × List Name)}
    (hsame : ∀ entry ∈ page, display entry.1 = other entry.1) :
    layout display page = layout other page := by
  refine List.flatMap_congr fun entry hentry => ?_
  rw [hsame entry hentry]

/-- The tab with the name is the one that is displayed. -/
theorem showElement_layout {display : Name → Text} {page : List (Name × List Name)}
    (hnodup : (page.map Prod.fst).Nodup) (hids : DistinctIds page) {entry : Name × List Name}
    (hentry : entry ∈ page) :
    showElement entry.1.text (layout display page) =
      some (layout (Function.update display entry.1 "block".toList) page) := by
  induction page with
  | nil => cases hentry
  | cons first rest ih =>
      obtain ⟨hfirst, hrest⟩ := List.nodup_cons.mp hnodup
      have hids' : DistinctIds rest := fun sensor hsensor other hother =>
        hids sensor (List.mem_cons_of_mem _ hsensor) other (List.mem_cons_of_mem _ hother)
      rw [layout_cons, layout_cons]
      by_cases hsame : entry.1 = first.1
      · have hothers : ∀ other ∈ rest, display other.1 =
            Function.update display entry.1 "block".toList other.1 := by
          intro other hother
          rw [Function.update_of_ne]
          intro heq
          exact hfirst (List.mem_map.mpr ⟨other, hother, heq.trans hsame⟩)
        rw [showElement, if_pos (show (tabElement display first.1).id = entry.1.text by
          rw [hsame]; rfl), layout_congr hothers, ← hsame]
        congr 2
        rw [tabElement, tabElement, Function.update_self]
      · have hlater : entry ∈ rest := (List.mem_cons.mp hentry).resolve_left
          fun heq => hsame (congrArg Prod.fst heq)
        have hname : (tabElement display first.1).id ≠ entry.1.text := by
          intro htext
          exact hsame (name_eq_of_text htext.symm)
        have hcurrent : ∀ element ∈ first.2.map currentElement, element.id ≠ entry.1.text := by
          intro element helement
          obtain ⟨metric, hmetric, rfl⟩ := List.mem_map.mp helement
          exact (hids entry hentry first (List.mem_cons_self ..) metric hmetric).symm
        rw [showElement, if_neg hname, showElement_append hcurrent, ih hrest hids' hlater]
        have htab : tabElement (Function.update display entry.1 "block".toList) first.1 =
            tabElement display first.1 := by
          rw [tabElement, tabElement, Function.update_of_ne (Ne.symm hsame)]
        rw [htab]
        rfl

/-! ## The invariant -/

/-- The tab at the place is displayed and no other, and its link is active and no
other. -/
structure Selected (page : List (Name × List Name)) (place : ℕ) (selection : Selection) :
    Prop where
  elements : ∃ display, selection.elements = layout display page ∧
    ∀ k entry, page[k]? = some entry → (display entry.1 ≠ "none".toList ↔ k = place)
  length : selection.links.length = page.length
  links : ∀ k link, selection.links[k]? = some link →
    if k = place then link ∈ active else link ∈ idle

/-- Different places have different sensors. -/
theorem place_eq {page : List (Name × List Name)} (hnodup : (page.map Prod.fst).Nodup)
    {k place : ℕ} {entry entry' : Name × List Name} (hentry : page[k]? = some entry)
    (hentry' : page[place]? = some entry') : entry.1 = entry'.1 ↔ k = place := by
  have hkey : (page.map Prod.fst)[k]? = some entry.1 := by
    rw [List.getElem?_map, hentry, Option.map_some]
  have hkey' : (page.map Prod.fst)[place]? = some entry'.1 := by
    rw [List.getElem?_map, hentry', Option.map_some]
  constructor
  · intro hsame
    obtain ⟨hlt, -⟩ := List.getElem?_eq_some_iff.mp hkey
    exact (List.getElem?_inj hlt hnodup).mp (by rw [hkey, hkey', hsame])
  · intro hplace
    rw [hplace, hkey'] at hkey
    exact (Option.some.inj hkey).symm

theorem rendered_selected {page : List (Name × List Name)} (hnodup : (page.map Prod.fst).Nodup)
    (hne : page ≠ []) : Selected page 0 (Selection.rendered page) := by
  obtain ⟨first, rest, rfl⟩ := List.exists_cons_of_ne_nil hne
  refine ⟨⟨fun sensor => if (first :: rest).head?.map Prod.fst = some sensor then []
    else "none".toList, rfl, ?_⟩, List.length_mapIdx, ?_⟩
  · intro k entry hentry
    have hplace := place_eq hnodup hentry (show (first :: rest)[0]? = some first from rfl)
    rw [← hplace]
    by_cases hsame : first.1 = entry.1
    · simp [hsame]
    · simp [hsame, Ne.symm hsame]
  · intro k link hlink
    simp only [Selection.rendered, List.getElem?_mapIdx, Option.map_eq_some_iff] at hlink
    obtain ⟨entry, -, rfl⟩ := hlink
    by_cases hk : k = 0
    · rw [if_pos hk, if_pos hk]
      decide
    · rw [if_neg hk, if_neg hk]
      decide

/-- **One click** opens the tab of the link, whichever was open. -/
theorem openTab_selected {page : List (Name × List Name)} (hnodup : (page.map Prod.fst).Nodup)
    (hids : DistinctIds page) {place target : ℕ} {selection : Selection}
    (hselected : Selected page place selection) {entry : Name × List Name}
    (hentry : page[target]? = some entry) :
    ∃ next, openTab target entry.1.text selection = some next ∧ Selected page target next := by
  obtain ⟨display, helements, -⟩ := hselected.elements
  have hlinks : ∀ link ∈ selection.links, link ∈ idle ∨ link ∈ active := by
    intro link hlink
    obtain ⟨k, hk⟩ := List.mem_iff_getElem?.mp hlink
    have hcase := hselected.links k link hk
    split at hcase
    · exact Or.inr hcase
    · exact Or.inl hcase
  have hloop : (List.range selection.links.length).foldlM
      (fun links i => changeLink deactivate i links) selection.links =
        some (selection.links.map deactivate) := by
    have hall := @deactivate_all [] selection.links (by simp) hlinks
    rwa [List.length_nil, ← List.range_eq_range'] at hall
  have hshow := @showElement_layout (fun _ => "none".toList) page hnodup hids entry
    (List.mem_of_getElem? hentry)
  refine ⟨⟨layout (Function.update (fun _ => "none".toList) entry.1 "block".toList) page,
    (selection.links.map deactivate).modify target (· ++ " is-active".toList)⟩, ?_, ?_, ?_, ?_⟩
  · rw [openTab, helements]
    simp only [length_tabs_layout, hide_layout]
    rw [← hselected.length, hloop, hshow]
    rfl
  · refine ⟨_, rfl, ?_⟩
    intro k entry' hentry'
    rw [← place_eq hnodup hentry' hentry]
    by_cases hsame : entry'.1 = entry.1
    · rw [hsame, Function.update_self]
      simp
    · rw [Function.update_of_ne hsame]
      simp [hsame]
  · rw [List.length_modify, List.length_map, hselected.length]
  · intro k link hlink
    rw [List.getElem?_modify, List.getElem?_map, Option.map_eq_map, Option.map_map,
      Option.map_eq_some_iff] at hlink
    obtain ⟨old, hold, rfl⟩ := hlink
    have hidle : deactivate old ∈ idle :=
      deactivate_mem_idle (hlinks old (List.mem_of_getElem? hold))
    by_cases hk : k = target
    · subst hk
      rw [Function.comp, if_pos rfl, if_pos rfl]
      exact activate_mem_active hidle
    · rw [Function.comp, if_neg (Ne.symm hk), if_neg hk]
      exact hidle

/-! ## The main statement -/

/-- **The open tab.**  After any clicks on the links of the page, the tab of the link
clicked last is displayed and no other, or the first one if there was no click.  That
link is active and no other, all links keep their class `tab`, and their `class`
attributes have never more than 14 characters (the longest is written with 13). -/
theorem openTab_selects {page : List (Name × List Name)} (hnodup : (page.map Prod.fst).Nodup)
    (hids : DistinctIds page) (hne : page ≠ []) {clicks : List ℕ}
    (hclicks : ∀ place ∈ clicks, place < page.length) :
    ∃ selection display, clicks.foldlM (click page) (Selection.rendered page) = some selection ∧
      selection.elements = layout display page ∧ selection.links.length = page.length ∧
      ∀ k entry link, page[k]? = some entry → selection.links[k]? = some link →
        (display entry.1 ≠ "none".toList ↔ k = clicks.getLast?.getD 0) ∧
        (hasClass "is-active" link = true ↔ k = clicks.getLast?.getD 0) ∧
        hasClass "tab" link = true ∧ link.length ≤ 14 := by
  have hrun : ∃ selection, clicks.foldlM (click page) (Selection.rendered page) = some selection ∧
      Selected page (clicks.getLast?.getD 0) selection := by
    induction clicks using List.reverseRecOn with
    | nil => exact ⟨_, rfl, rendered_selected hnodup hne⟩
    | append_singleton clicks place ih =>
        obtain ⟨selection, hselection, hselected⟩ := ih fun other hother =>
          hclicks other (List.mem_append_left _ hother)
        have hlt : place < page.length := hclicks place (by simp)
        have hentry : page[place]? = some page[place] := List.getElem?_eq_getElem hlt
        obtain ⟨next, hnext, hselected'⟩ := openTab_selected hnodup hids hselected hentry
        refine ⟨next, ?_, ?_⟩
        · rw [List.foldlM_append, hselection]
          simp only [Option.bind_eq_bind, Option.bind_some, List.foldlM_cons, List.foldlM_nil,
            click, hentry, hnext]
          rfl
        · rwa [List.getLast?_concat, Option.getD_some]
  obtain ⟨selection, hselection, hselected⟩ := hrun
  obtain ⟨display, helements, hdisplay⟩ := hselected.elements
  refine ⟨selection, display, hselection, helements, hselected.length, ?_⟩
  intro k entry link hentry hlink
  have hclass := hselected.links k link hlink
  refine ⟨hdisplay k entry hentry, ?_⟩
  by_cases hk : k = clicks.getLast?.getD 0
  · rw [if_pos hk] at hclass
    have hall : ∀ link ∈ active, hasClass "is-active" link = true ∧
        hasClass "tab" link = true ∧ link.length ≤ 14 := by
      decide
    obtain ⟨hactive, hboth⟩ := hall link hclass
    exact ⟨iff_of_true hactive hk, hboth⟩
  · rw [if_neg hk] at hclass
    have hall : ∀ link ∈ idle, hasClass "is-active" link = false ∧
        hasClass "tab" link = true ∧ link.length ≤ 14 := by
      decide
    obtain ⟨hactive, hboth⟩ := hall link hclass
    exact ⟨iff_of_false (ne_true_of_eq_false hactive) hk, hboth⟩

theorem openTab_selects_sensors :
    ∃ selection display,
      [1, 2, 2, 0].foldlM (click sensors) (Selection.rendered sensors) = some selection ∧
      selection.elements = layout display sensors ∧ selection.links.length = sensors.length ∧
      ∀ k entry link, sensors[k]? = some entry → selection.links[k]? = some link →
        (display entry.1 ≠ "none".toList ↔ k = 0) ∧
        (hasClass "is-active" link = true ↔ k = 0) ∧
        hasClass "tab" link = true ∧ link.length ≤ 14 :=
  openTab_selects (by decide) (by decide) (by decide) (by decide)

end AwsIotSensors.Dashboard
