import AwsIotSensors.Emcute.Session

/-!
# What a publication is reported as

`on_pub` is called with the topic in the slot of a subscription.  It prints the string
to which the slot points and the topic id, and then the data as it came.

`publication_reported` says where name and id come from: whatever slot is active in
whatever run of names that fit their rows, the line has the name and the id of one
call of `emcute_sub` that the gateway has accepted.  In the runs in which the table
follows the session and no topic is subscribed twice, `session_reported` adds that the
topics of the session are reported by one slot each, and no others.
-/

namespace AwsIotSensors.Emcute

open CString Runs SlotTable

variable (ipv6AddrFromStr : Text → Option Ipv6Addr)

/-! ## The callback -/

/-- The lines `on_pub` prints for a name, an id and the data. -/
def publication (name : List Char) (id : UInt16) (data : List Char) : List String :=
  ["### got publication for topic '" ++ String.ofList name ++ "' [" ++ id.toNat.repr ++ "] ###",
    String.ofList data]

/-- `on_pub`, if the name is a string that ends inside `topics`. -/
def onPub (client : Client) (topic : Topic) (data : List Char) : Option (List String) :=
  topic.name.bind fun address =>
    (cstringWithin client.topics address (numofsubs * topicMaxlen - address)).map fun name =>
      publication name topic.id data

/-- The emCute calls of a run, with their answers. -/
def exchangesOf (entries : List Entry) : List Exchange :=
  (outputs (step ipv6AddrFromStr)
    (fun world entry => (entry.run ipv6AddrFromStr world.client).exchanges)
    World.initial entries).flatten

/-- The slot reports any data under the name. -/
def ReportsAs (client : Client) (i : Fin numofsubs) (name : Text) : Prop :=
  ∀ data, onPub client (client.subscriptions i).topic data =
    some (publication name.chars (client.subscriptions i).topic.id data)

theorem exchangesOf_concat (entries : List Entry) (entry : Entry) :
    exchangesOf ipv6AddrFromStr (entries ++ [entry]) = exchangesOf ipv6AddrFromStr entries ++
      (entry.run ipv6AddrFromStr
        (after (step ipv6AddrFromStr) World.initial entries).client).exchanges := by
  rw [exchangesOf, outputs_concat, List.flatten_concat]
  rfl

/-- A slot that points at its row reports the string that ends there. -/
theorem reportsAs_of_cstringAt {client : Client} {i : Fin numofsubs} {name : Text}
    (hname : (client.subscriptions i).topic.name = some (rowStart i))
    (hshort : strlen name < topicMaxlen) (hreads : CStringAt client.topics (rowStart i) name) :
    ReportsAs client i name := by
  intro data
  -- the string ends in the row of its slot
  have hinside : name.chars.length < numofsubs * topicMaxlen - rowStart i := by
    have hslot := i.isLt
    unfold strlen at hshort
    unfold rowStart numofsubs topicMaxlen at *
    omega
  have hfound := cstringWithin_of_readsAs hreads name.nul_notMem hinside
  simp only [onPub, hname, Option.bind_some, hfound, Option.map_some]

/-- With intact rows, a slot with a name reports under the name it was filled with. -/
theorem reportsAs_of_filledBy {world : World} (hworld : RowsIntact world) {i : Fin numofsubs}
    {name : Text} (hactive : (world.client.subscriptions i).topic.id ≠ 0)
    (hfilledBy : world.filledBy i = some name) : ReportsAs world.client i name := by
  cases hname : (world.client.subscriptions i).topic.name with
  | none => exact absurd (hworld.unnamed i hname) hactive
  | some address =>
      obtain ⟨rfl, stored, hstored, hshort, hreads⟩ := hworld.named i address hname
      obtain rfl := Option.some.inj (hfilledBy.symm.trans hstored)
      exact reportsAs_of_cstringAt hname hshort hreads

theorem publication_injective {id : UInt16} {data : List Char} :
    Function.Injective fun name => publication name id data := by
  intro name other heq
  have hline := (List.cons.inj heq).1
  rw [← String.toList_inj] at hline
  simpa using hline

/-- What a slot reports is what its row carries. -/
theorem reportsAs_iff {world : World} (hworld : RowsIntact world) {i : Fin numofsubs}
    (hactive : (world.client.subscriptions i).topic.id ≠ 0) {name : Text} :
    ReportsAs world.client i name ↔ world.filledBy i = some name := by
  refine ⟨?_, reportsAs_of_filledBy hworld hactive⟩
  intro hreports
  obtain ⟨stored, hfilledBy, -⟩ := hworld.topicsIntact i hactive
  have hstored := reportsAs_of_filledBy hworld hactive hfilledBy
  have hchars : stored.chars = name.chars :=
    publication_injective (Option.some.inj ((hstored []).symm.trans (hreports [])))
  obtain ⟨chars, hnul⟩ := stored
  obtain ⟨chars', hnul'⟩ := name
  obtain rfl : chars = chars' := hchars
  exact hfilledBy

/-! ## Where the names come from -/

/-- The active slot has the callback, and the name and the id of an accepted call. -/
def Granted (world : World) (exchanges : List Exchange) (i : Fin numofsubs) : Prop :=
  (world.client.subscriptions i).cb = some .onPub ∧
    ∃ name flags, world.filledBy i = some name ∧
      ⟨.sub name flags, ⟨.ok, (world.client.subscriptions i).topic.id⟩⟩ ∈ exchanges

theorem Granted.of_same {world later : World} {exchanges more : List Exchange}
    {i : Fin numofsubs} (hgranted : Granted world exchanges i)
    (hslot : later.client.subscriptions i = world.client.subscriptions i)
    (hfilledBy : later.filledBy i = world.filledBy i) (hmore : exchanges ⊆ more) :
    Granted later more i := by
  obtain ⟨hcb, name, flags, hname, hmem⟩ := hgranted
  refine ⟨by rw [hslot, hcb], name, flags, by rw [hfilledBy, hname], ?_⟩
  rw [hslot]
  exact hmore hmem

/-- A call of `cmd_sub` that fills a slot is among its exchanges. -/
theorem exchanges_of_fill {world : World} {entry : Entry} {i : Fin numofsubs} {name : Text}
    (hcommand : entry.command = .sub) (hname : entry.args.head? = some name)
    (hshort : strlen name ≤ topicMaxlen) (hfree : world.client.firstFree = some i) :
    ∃ flags, (entry.run ipv6AddrFromStr world.client).exchanges =
      [⟨.sub name flags, entry.answers 0⟩] := by
  obtain ⟨command, args, answers⟩ := entry
  obtain rfl : command = .sub := hcommand
  obtain ⟨rest, rfl⟩ : ∃ rest, args = name :: rest := List.head?_eq_some_iff.mp hname
  refine ⟨qosOf rest, ?_⟩
  rw [run_sub, cmdSub_of_free answers rest hshort hfree]

/-- A refused call leaves the slot free. -/
theorem accepted_of_active {client : Client} {i : Fin numofsubs} {name : Text} {answer : Answer}
    (hfree : client.firstFree = some i)
    (hactive : (((client.prepare i name).emcuteSub i answer).subscriptions i).topic.id ≠ 0) :
    answer.accepted = true := by
  by_contra hrefused
  rw [subscriptions_emcuteSub_prepare, Function.update_self, if_neg hrefused] at hactive
  have hzero := (Fin.find?_eq_some_iff.mp hfree).1
  exact hactive (by simpa using hzero)

theorem step_granted {world : World} {entry : Entry} {exchanges : List Exchange}
    (hgranted : ∀ i, (world.client.subscriptions i).topic.id ≠ 0 → Granted world exchanges i)
    (i : Fin numofsubs)
    (hactive : ((step ipv6AddrFromStr world entry).client.subscriptions i).topic.id ≠ 0) :
    Granted (step ipv6AddrFromStr world entry)
      (exchanges ++ (entry.run ipv6AddrFromStr world.client).exchanges) i := by
  have hmore : exchanges ⊆ exchanges ++ (entry.run ipv6AddrFromStr world.client).exchanges :=
    List.subset_append_left ..
  cases step_change ipv6AddrFromStr world entry with
  | keep hclient hfilledBy =>
      rw [hclient] at hactive
      exact (hgranted i hactive).of_same (by rw [hclient]) (by rw [hfilledBy]) hmore
  | clear j name hcommand hname haccepted hnamed hclient hfilledBy =>
      have hne : i ≠ j := by
        intro heq
        subst heq
        simp [hclient, Client.clear, Subscription.zero] at hactive
      have hslot : (step ipv6AddrFromStr world entry).client.subscriptions i =
          world.client.subscriptions i := by
        rw [hclient, Client.clear]
        exact Function.update_of_ne hne ..
      rw [hslot] at hactive
      exact (hgranted i hactive).of_same hslot (by rw [hfilledBy]) hmore
  | fill j name flags hcommand hname hshort hfree hclient hfilledBy =>
      have hslots := subscriptions_emcuteSub_prepare world.client j name (entry.answers 0)
      rw [← hclient] at hslots
      by_cases hi : i = j
      · subst hi
        rw [hclient] at hactive
        have haccepted := accepted_of_active hfree hactive
        obtain ⟨flags', hexchanges⟩ :=
          exchanges_of_fill ipv6AddrFromStr hcommand hname hshort hfree
        refine ⟨by rw [hslots, Function.update_self], name, flags', ?_, ?_⟩
        · rw [hfilledBy, Function.update_self]
        · have hok : (entry.answers 0).result = .ok := by
            simpa [Answer.accepted] using haccepted
          rw [hslots, Function.update_self, if_pos haccepted, hexchanges, ← hok]
          exact List.mem_append_right _ (List.mem_singleton_self _)
      · have hslot : (step ipv6AddrFromStr world entry).client.subscriptions i =
            world.client.subscriptions i := by
          rw [hslots, Function.update_of_ne hi]
        rw [hslot] at hactive
        exact (hgranted i hactive).of_same hslot
          (by rw [hfilledBy, Function.update_of_ne hi]) hmore

theorem after_granted (entries : List Entry) (i : Fin numofsubs)
    (hactive : ((after (step ipv6AddrFromStr) World.initial entries).client.subscriptions
      i).topic.id ≠ 0) :
    Granted (after (step ipv6AddrFromStr) World.initial entries)
      (exchangesOf ipv6AddrFromStr entries) i := by
  induction entries using List.reverseRecOn generalizing i with
  | nil => exact absurd rfl hactive
  | append_singleton before entry ih =>
      rw [after_concat] at hactive ⊢
      rw [exchangesOf_concat]
      exact step_granted ipv6AddrFromStr ih i hactive

/-- **What is reported was granted.**  In every run in which the names fit their rows,
the callback of an active slot is `on_pub`, and whatever the data, it prints the name
of a topic that `emcute_sub` has subscribed with exactly the id that it prints. -/
theorem publication_reported (entries : List Entry)
    (hfits : Along (step ipv6AddrFromStr) FitsRow World.initial entries) (i : Fin numofsubs)
    (hactive : ((after (step ipv6AddrFromStr) World.initial entries).client.subscriptions
      i).topic.id ≠ 0) :
    ((after (step ipv6AddrFromStr) World.initial entries).client.subscriptions i).cb =
        some .onPub ∧
      ∃ name flags, ⟨.sub name flags, ⟨.ok,
          ((after (step ipv6AddrFromStr) World.initial entries).client.subscriptions
            i).topic.id⟩⟩ ∈ exchangesOf ipv6AddrFromStr entries ∧
        ReportsAs (after (step ipv6AddrFromStr) World.initial entries).client i name := by
  obtain ⟨hcb, name, flags, hfilledBy, hmem⟩ := after_granted ipv6AddrFromStr entries i hactive
  have hrows := after_rowsIntact ipv6AddrFromStr hfits
  exact ⟨hcb, name, flags, hmem, reportsAs_of_filledBy hrows hactive hfilledBy⟩

/-- A topic that is subscribed again after it was given up. -/
def resubscribed : List Entry :=
  [accepted .sub [hello] 7, accepted .unsub [hello] 0, accepted .sub [hello] 9]

theorem publication_reported_resubscribed :
    ((after (step fun _ => none) World.initial resubscribed).client.subscriptions 0).cb =
        some .onPub ∧
      ∃ name flags, ⟨.sub name flags, ⟨.ok,
          ((after (step fun _ => none) World.initial resubscribed).client.subscriptions
            0).topic.id⟩⟩ ∈ exchangesOf (fun _ => none) resubscribed ∧
        ReportsAs (after (step fun _ => none) World.initial resubscribed).client 0 name :=
  publication_reported (fun _ => none) resubscribed (by decide) 0 (by decide)

/-! ## The topics of the session -/

instance (world : World) (entry : Entry) :
    Decidable (SessionBound ipv6AddrFromStr world entry) :=
  inferInstanceAs (Decidable ((_ → _ → _ → ∀ _, _) ∧ (_ → _ → _ → _)))

/-- Two active slots do not report under the same name if each is the lowest of its name. -/
theorem eq_of_firstOfName {world : World} (hfirst : FirstOfName (tableOf world))
    {i j : Fin numofsubs} {name : Text} (hi : tableOf world i = ⟨some name, true⟩)
    (hj : tableOf world j = ⟨some name, true⟩) : i = j := by
  rcases lt_trichotomy i j with hlt | heq | hlt
  · exact absurd (by rw [hi]) (hfirst j name (by rw [hj]) (by rw [hj]) i hlt)
  · exact heq
  · exact absurd (by rw [hj]) (hfirst i name (by rw [hi]) (by rw [hi]) j hlt)

/-- An active slot reports under the name that the table of named slots has. -/
theorem reportsAs_iff_tableOf {world : World} (hworld : RowsIntact world) {i : Fin numofsubs}
    {name : Text} :
    (world.client.subscriptions i).topic.id ≠ 0 ∧ ReportsAs world.client i name ↔
      tableOf world i = ⟨some name, true⟩ := by
  have hslot : tableOf world i = ⟨some name, true⟩ ↔
      (world.client.subscriptions i).topic.id ≠ 0 ∧ (tableOf world i).name = some name := by
    rw [← live_tableOf]
    cases tableOf world i
    simp [and_comm]
  rw [hslot]
  refine and_congr_right fun hactive => ?_
  rw [reportsAs_iff hworld hactive]
  obtain ⟨stored, -⟩ := liveNamed_tableOf hworld i (live_tableOf.mpr hactive)
  cases hname : (world.client.subscriptions i).topic.name with
  | none => exact absurd (hworld.unnamed i hname) hactive
  | some address => simp [tableOf, hname]

/-- **The topics of the session are reported.**  The names in a run are shorter than
`TOPIC_MAXLEN`, the ids granted are not 0 and no topic is subscribed while the session
holds it (`Regular`), and no `emcute_con` is accepted while a slot is active, nor does a
`cmd_sub` meet a full table without a session (`SessionBound`).  While there is a session,
a topic is then held by the gateway if and only if exactly one active slot reports what is
published on it under its name. -/
theorem session_reported (entries : List Entry)
    (hregular : Along (step ipv6AddrFromStr) Regular World.initial entries)
    (hbound : Along (step ipv6AddrFromStr) (SessionBound ipv6AddrFromStr) World.initial entries)
    {topics : Finset Text}
    (htopics : topics ∈ (after (step ipv6AddrFromStr) World.initial entries).session)
    (name : Text) :
    name ∈ topics ↔
      ∃! i, ((after (step ipv6AddrFromStr) World.initial entries).client.subscriptions
          i).topic.id ≠ 0 ∧
        ReportsAs (after (step ipv6AddrFromStr) World.initial entries).client i name := by
  have hworld := after_inSession ipv6AddrFromStr hregular hbound
  generalize after (step ipv6AddrFromStr) World.initial entries = world at hworld htopics ⊢
  have hfirst : FirstOfName (tableOf world) := by
    refine hworld.first ?_
    rw [htopics]
    rfl
  simp only [reportsAs_iff_tableOf hworld.rows]
  rw [← Finset.mem_coe, ← hworld.agrees topics htopics]
  constructor
  · intro hlive
    obtain ⟨i, hlive, hname⟩ := hlive
    have hslot : tableOf world i = ⟨some name, true⟩ := by
      rw [← hlive, ← hname]
    exact ⟨i, hslot, fun j hj => eq_of_firstOfName hfirst hj hslot⟩
  · intro hunique
    obtain ⟨i, hslot, -⟩ := hunique
    exact ⟨i, by rw [hslot], by rw [hslot]⟩

/-- A connection with two topics, one of which is given up. -/
def connectedTopics : List Entry :=
  [accepted .con [gatewayAddress] 0, accepted .sub [hello] 1,
    accepted .sub [weather] 2, accepted .unsub [hello] 0]

theorem session_reported_connectedTopics :
    weather ∈ ({weather} : Finset Text) ↔
      ∃! i, ((after (step gatewayFromStr) World.initial connectedTopics).client.subscriptions
          i).topic.id ≠ 0 ∧
        ReportsAs (after (step gatewayFromStr) World.initial connectedTopics).client i
          weather :=
  session_reported gatewayFromStr connectedTopics (by decide) (by decide) (by decide) weather

end AwsIotSensors.Emcute
