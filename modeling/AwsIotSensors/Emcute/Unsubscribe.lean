import AwsIotSensors.Emcute.Session

/-!
# Is a reported unsubscription complete?

`cmd_unsub` takes the first slot whose name matches, active or not, and returns.
The name can stand in another active slot: `cmd_sub` never looks for an existing
entry, so a topic can be subscribed into two slots, and a failed `cmd_sub` leaves
its name in a free slot below an active one of the same name.

`unsub_complete_iff` is exact: the reported unsubscriptions of a run are all
complete if and only if each accepted `cmd_unsub` finds its name, among the
active slots, only in the lowest slot that carries it.  A run in which no active
name is subscribed again is such a run (`along_unsubComplete`), by the invariant
`FirstOfName` of the refined table.
-/

namespace AwsIotSensors.Emcute

open CString Runs SlotTable

variable (ipv6AddrFromStr : Text → Option Ipv6Addr)

/-- What `cmd_unsub` prints when it has unsubscribed from a topic. -/
def unsubscribed (name : Text) : String := "Unsubscribed from '" ++ name.toString ++ "'"

/-- If `cmd_unsub` reports that it unsubscribed from a topic, no active slot has
that name afterwards, and every active slot of another name is unchanged. -/
def UnsubComplete (world : World) (entry : Entry) : Prop :=
  entry.command = .unsub → ∀ name ∈ entry.args.head?,
    (entry.run ipv6AddrFromStr world.client).printed = [unsubscribed name] →
      (∀ i, ((step ipv6AddrFromStr world entry).client.subscriptions i).topic.id ≠ 0 →
        ¬ (step ipv6AddrFromStr world entry).client.carries i name) ∧
      (∀ i, (world.client.subscriptions i).topic.id ≠ 0 → ¬ world.client.carries i name →
        (step ipv6AddrFromStr world entry).client.subscriptions i =
          world.client.subscriptions i) ∧
      (step ipv6AddrFromStr world entry).client.topics = world.client.topics

/-- An accepted `cmd_unsub` finds its name, among the active slots, only in the
lowest slot that carries it. -/
def LowestOfName (world : World) (entry : Entry) : Prop :=
  entry.command = .unsub → (entry.answers 0).accepted → ∀ name ∈ entry.args.head?,
    ∀ i, (world.client.subscriptions i).topic.id ≠ 0 → world.client.carries i name →
      ∀ j < i, ¬ world.client.carries j name

theorem firstNamed_eq_some_iff {client : Client} {name : Text} {i : Fin numofsubs} :
    client.firstNamed name = some i ↔
      client.carries i name = true ∧ ∀ j < i, client.carries j name = false := by
  simp [Client.firstNamed]

theorem firstNamed_eq_none_iff {client : Client} {name : Text} :
    client.firstNamed name = none ↔ ∀ i, client.carries i name = false := by
  simp [Client.firstNamed]

theorem notFound_ne_unsubscribed (name : Text) :
    "error: no subscription for topic '" ++ name.toString ++ "' found" ≠ unsubscribed name := by
  unfold unsubscribed
  simp [← String.toList_inj]

theorem failed_ne_unsubscribed (name : Text) :
    "Unsubscription form '" ++ name.toString ++ "' failed" ≠ unsubscribed name := by
  unfold unsubscribed
  simp [← String.toList_inj]

/-- `cmd_unsub` reports success if and only if the name is found and the call is
accepted. -/
theorem printed_unsubscribed_iff (answers : ℕ → Answer) (name : Text) (rest : List Text)
    (client : Client) :
    (cmdUnsub answers (name :: rest) client).printed = [unsubscribed name] ↔
      (client.firstNamed name).isSome = true ∧ (answers 0).accepted = true := by
  cases hnamed : client.firstNamed name with
  | none =>
      rw [cmdUnsub_of_absent _ hnamed]
      constructor
      · intro hreport
        exact absurd (List.cons.inj hreport).1 (notFound_ne_unsubscribed name)
      · intro hboth
        exact absurd hboth.1 (by simp)
  | some i =>
      rw [cmdUnsub_of_named answers rest hnamed]
      cases haccepted : (answers 0).accepted with
      | true => exact ⟨fun _ => ⟨rfl, rfl⟩, fun _ => rfl⟩
      | false =>
          constructor
          · intro hreport
            exact absurd (List.cons.inj hreport).1 (failed_ne_unsubscribed name)
          · intro hboth
            exact absurd hboth.2 (by simp)

theorem carries_clear_of_ne {client : Client} {i j : Fin numofsubs} (hne : j ≠ i) (name : Text) :
    (client.clear i).carries j name = client.carries j name := by
  simp only [Client.carries, Client.clear, Function.update_of_ne hne]

/-- An accepted `cmd_unsub` clears the first slot of its name. -/
theorem client_step_unsub {world : World} {answers : ℕ → Answer} {name : Text}
    (rest : List Text) {i : Fin numofsubs} (hnamed : world.client.firstNamed name = some i)
    (haccepted : (answers 0).accepted) :
    (step ipv6AddrFromStr world ⟨.unsub, name :: rest, answers⟩).client =
      world.client.clear i := by
  simp only [step, Entry.run, cmdUnsub_of_named answers rest hnamed, haccepted, if_true]

/-- The condition of one step: clearing the first slot of the name takes the name
from the active slots exactly when they carried it nowhere else. -/
theorem unsubComplete_iff_lowestOfName (world : World) (entry : Entry) :
    UnsubComplete ipv6AddrFromStr world entry ↔ LowestOfName world entry := by
  obtain ⟨command, args, answers⟩ := entry
  by_cases hcommand : command = .unsub
  swap
  · exact ⟨fun _ h => absurd h hcommand, fun _ h => absurd h hcommand⟩
  subst hcommand
  constructor
  · -- another active slot of the name would survive the clearing
    intro hcomplete _ haccepted name hname k hactive hcarries j hjk hlower
    obtain ⟨rest, rfl⟩ : ∃ rest, args = name :: rest := List.head?_eq_some_iff.mp hname
    obtain ⟨i, hnamed⟩ : ∃ i, world.client.firstNamed name = some i := by
      refine Option.ne_none_iff_exists'.mp fun hnone => ?_
      simp [firstNamed_eq_none_iff.mp hnone k] at hcarries
    have hreport := (printed_unsubscribed_iff answers name rest world.client).mpr
      ⟨by simp [hnamed], haccepted⟩
    have hgone := (hcomplete rfl name rfl hreport).1 k
    have hki : k ≠ i := by
      intro hki
      subst hki
      simp [(firstNamed_eq_some_iff.mp hnamed).2 j hjk] at hlower
    rw [client_step_unsub ipv6AddrFromStr rest hnamed haccepted, carries_clear_of_ne hki] at hgone
    refine hgone ?_ hcarries
    simpa only [Client.clear, Function.update_of_ne hki] using hactive
  · intro hlowest _ name hname hreport
    obtain ⟨rest, rfl⟩ : ∃ rest, args = name :: rest := List.head?_eq_some_iff.mp hname
    obtain ⟨hfound, haccepted⟩ :=
      (printed_unsubscribed_iff answers name rest world.client).mp hreport
    obtain ⟨i, hnamed⟩ := Option.isSome_iff_exists.mp hfound
    obtain ⟨hcarries, -⟩ := firstNamed_eq_some_iff.mp hnamed
    rw [client_step_unsub ipv6AddrFromStr rest hnamed haccepted]
    refine ⟨fun k hactive hk => ?_, fun k _ hother => ?_, rfl⟩
    · have hki : k ≠ i := by
        intro hki
        subst hki
        simp [Client.clear, Subscription.zero] at hactive
      rw [carries_clear_of_ne hki] at hk
      simp only [Client.clear, Function.update_of_ne hki] at hactive
      have hik : k ≤ i := not_lt.mp fun hlt => hlowest rfl haccepted name rfl k hactive hk i hlt
        hcarries
      have hfirst := (firstNamed_eq_some_iff.mp hnamed).2 k (lt_of_le_of_ne hik hki)
      simp [hfirst] at hk
    · -- the cleared slot had the name
      have hki : k ≠ i := by
        intro hki
        subst hki
        exact hother hcarries
      simp only [Client.clear, Function.update_of_ne hki]

/-- **When reported unsubscriptions are complete.**  The unsubscriptions that a
run of the shell reports are all complete if and only if every accepted
`cmd_unsub` of the run finds its name, among the active slots, only in the
lowest slot that carries it. -/
theorem unsub_complete_iff (entries : List Entry) :
    Along (step ipv6AddrFromStr) (UnsubComplete ipv6AddrFromStr) World.initial entries ↔
      Along (step ipv6AddrFromStr) LowestOfName World.initial entries :=
  ⟨fun hcomplete => hcomplete.mono fun world entry =>
      (unsubComplete_iff_lowestOfName ipv6AddrFromStr world entry).mp,
    fun hlowest => hlowest.mono fun world entry =>
      (unsubComplete_iff_lowestOfName ipv6AddrFromStr world entry).mpr⟩

/-- A topic subscribed into two slots is still active in one of them after it was
reported as unsubscribed. -/
theorem exists_not_unsubComplete :
    ¬ ∀ (ipv6AddrFromStr : Text → Option Ipv6Addr) (entries : List Entry),
      (∀ entry ∈ entries, entry.command = .sub ∨ entry.command = .unsub) →
      Along (step ipv6AddrFromStr) (fun _ entry => ShortName entry ∧ GrantsId entry)
        World.initial entries →
        Along (step ipv6AddrFromStr) (UnsubComplete ipv6AddrFromStr) World.initial entries := by
  intro hclaim
  have hcomplete := hclaim (fun _ => none)
    [accepted .sub [hello] 1, accepted .sub [hello] 1, accepted .unsub [hello] 0]
    (by decide) (by decide)
  exact absurd (by decide) ((hcomplete.2.2.1 rfl hello rfl (by decide)).1 1 (by decide))

/-! ## Runs that subscribe no active name again -/

/-- No topic is subscribed whose name an active slot has. -/
def FreshName (world : World) (entry : Entry) : Prop :=
  entry.command = .sub → ∀ name ∈ entry.args.head?, name ∉ heldNames world.client

/-- The invariant: intact rows, and every live slot the lowest of its name. -/
structure OneSlotPerName (world : World) : Prop where
  rows : RowsIntact world
  first : FirstOfName (tableOf world)

theorem OneSlotPerName.lowestOfName {world : World} (hworld : OneSlotPerName world)
    (entry : Entry) : LowestOfName world entry := by
  intro _ _ name _ i hactive hcarries j hj hlower
  exact hworld.first i name (live_tableOf.mpr hactive)
    ((carries_iff hworld.rows i name).mp hcarries) j hj ((carries_iff hworld.rows j name).mp hlower)

theorem step_oneSlotPerName (world : World) (entry : Entry) (hworld : OneSlotPerName world)
    (hguard : ShortName entry ∧ GrantsId entry ∧ FreshName world entry) :
    OneSlotPerName (step ipv6AddrFromStr world entry) := by
  obtain ⟨hshort, hgrants, hfresh⟩ := hguard
  refine ⟨step_rowsIntact ipv6AddrFromStr world entry hworld.rows hshort.fitsRow, ?_⟩
  rw [tableOf_step ipv6AddrFromStr hworld.rows hgrants]
  obtain ⟨command, args, answers⟩ := entry
  cases args with
  | nil => cases command <;> exact hworld.first
  | cons name rest =>
      cases command with
      | sub =>
          rw [tableStep_sub]
          split
          · have hnew := hfresh rfl name rfl
            rw [heldNames_eq_liveNames hworld.rows] at hnew
            exact hworld.first.fill hnew _
          · exact hworld.first
      | unsub =>
          rw [tableStep_unsub]
          split
          · exact hworld.first.release name
          · exact hworld.first
      | con => exact hworld.first
      | discon => exact hworld.first
      | pub => exact hworld.first
      | will => exact hworld.first

/-- A run with short names in which no active name is subscribed again reports
complete unsubscriptions only, whatever the other calls of `emcute_sub` did. -/
theorem along_unsubComplete (entries : List Entry)
    (hguard : Along (step ipv6AddrFromStr) (fun world entry =>
      ShortName entry ∧ GrantsId entry ∧ FreshName world entry) World.initial entries) :
    Along (step ipv6AddrFromStr) (UnsubComplete ipv6AddrFromStr) World.initial entries := by
  rw [along_iff_forall_split]
  rintro before entry later rfl
  have hinitial : OneSlotPerName World.initial :=
    ⟨initial_rowsIntact, fun i name hlive => absurd (live_tableOf.mp hlive) (by decide +revert)⟩
  have hworld := invariant OneSlotPerName hinitial (step_oneSlotPerName ipv6AddrFromStr)
    ((along_append _ _ _).mp hguard).1
  exact (unsubComplete_iff_lowestOfName ipv6AddrFromStr _ entry).mpr (hworld.lowestOfName entry)

end AwsIotSensors.Emcute
