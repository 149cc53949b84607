import AwsIotSensors.Emcute.Rows
import AwsIotSensors.Lib.SlotTable

/-!
# The subscription table as a table of named slots

Read through `tableOf`, the arrays of the shell are a `SlotTable` of 16 slots: a
slot carries the name of the last copy into its row until it is cleared, and it
is live while its topic id is not 0.  `tableOf_step` is the refinement: as long
as the rows are intact and a granted id is not 0, the two search loops of the
source are `firstFree` and `firstNamed`, `cmd_sub` is `fill` and an accepted
`cmd_unsub` is `release`.  `tableOf_after` follows it over a run, in which the rows read
the names of the table (`carries_after`).
-/

namespace AwsIotSensors.Emcute

open CString Runs SlotTable

variable (ipv6AddrFromStr : Text → Option Ipv6Addr)

/-- The table of named slots that the arrays of the shell stand for.  The names are those
that were copied, which are in the rows as long as no name is too long
(`carries_after`). -/
def tableOf (world : World) : SlotTable.Table numofsubs Text := fun i =>
  { name := match (world.client.subscriptions i).topic.name with
      | some _ => world.filledBy i
      | none => none
    live := (world.client.subscriptions i).topic.id != 0 }

/-- What an entry does to the table of named slots. -/
def tableStep (table : SlotTable.Table numofsubs Text) (entry : Entry) :
    SlotTable.Table numofsubs Text :=
  match entry.command, entry.args with
  | .sub, name :: _ =>
      if strlen name ≤ topicMaxlen then fill table name (entry.answers 0).accepted else table
  | .unsub, name :: _ => if (entry.answers 0).accepted then release table name else table
  | _, _ => table

theorem tableStep_sub (table : SlotTable.Table numofsubs Text) (name : Text) (rest : List Text)
    (answers : ℕ → Answer) :
    tableStep table ⟨.sub, name :: rest, answers⟩ =
      if strlen name ≤ topicMaxlen then fill table name (answers 0).accepted else table :=
  rfl

theorem tableStep_unsub (table : SlotTable.Table numofsubs Text) (name : Text)
    (rest : List Text) (answers : ℕ → Answer) :
    tableStep table ⟨.unsub, name :: rest, answers⟩ =
      if (answers 0).accepted then release table name else table :=
  rfl

theorem live_tableOf {world : World} {i : Fin numofsubs} :
    (tableOf world i).live = true ↔ (world.client.subscriptions i).topic.id ≠ 0 := by
  simp [tableOf]

theorem firstFree_tableOf (world : World) :
    SlotTable.firstFree (tableOf world) = world.client.firstFree := by
  unfold SlotTable.firstFree Client.firstFree
  congr 1
  funext i
  simp [tableOf, bne]

/-- With intact rows, comparing the string in the row is comparing names. -/
theorem carries_iff {world : World} (hworld : RowsIntact world) (i : Fin numofsubs)
    (name : Text) :
    world.client.carries i name = true ↔ (tableOf world i).name = some name := by
  unfold Client.carries tableOf
  cases hname : (world.client.subscriptions i).topic.name with
  | none => simp
  | some address =>
      obtain ⟨rfl, stored, hfilledBy, -, hreads⟩ := hworld.named i address hname
      simp only [strcmpEq, decide_eq_true_eq, hfilledBy, Option.some.injEq]
      constructor
      · intro hother
        exact hreads.unique hother
      · intro heq
        rwa [← heq]

theorem firstNamed_tableOf {world : World} (hworld : RowsIntact world) (name : Text) :
    SlotTable.firstNamed (tableOf world) name = world.client.firstNamed name := by
  unfold SlotTable.firstNamed Client.firstNamed
  congr 1
  funext i
  rw [Bool.eq_iff_iff, carries_iff hworld, beq_iff_eq]

/-- The names of the active slots, read from the rows. -/
def heldNames (client : Client) : Set Text :=
  {name | ∃ i, (client.subscriptions i).topic.id ≠ 0 ∧ client.carries i name = true}

theorem heldNames_eq_liveNames {world : World} (hworld : RowsIntact world) :
    heldNames world.client = liveNames (tableOf world) := by
  ext name
  simp only [heldNames, liveNames, Set.mem_ofPred_eq, live_tableOf, carries_iff hworld]

theorem liveNamed_tableOf {world : World} (hworld : RowsIntact world) :
    LiveNamed (tableOf world) := by
  intro i hlive
  obtain ⟨name, hfilledBy, -⟩ := hworld.topicsIntact i (live_tableOf.mp hlive)
  cases hname : (world.client.subscriptions i).topic.name with
  | none => exact absurd (hworld.unnamed i hname) (live_tableOf.mp hlive)
  | some address => exact ⟨name, by simp [tableOf, hname, hfilledBy]⟩

/-! ## The refinement -/

theorem tableOf_of_same {world later : World} (hclient : later.client = world.client)
    (hfilledBy : later.filledBy = world.filledBy) : tableOf later = tableOf world := by
  unfold tableOf
  rw [hclient, hfilledBy]

/-- Filling another slot leaves a slot as it is. -/
theorem tableOf_apply_of_fill {world later : World} {i j : Fin numofsubs} {name : Text}
    {answer : Answer} (hclient : later.client = (world.client.prepare i name).emcuteSub i answer)
    (hfilledBy : later.filledBy = Function.update world.filledBy i (some name)) (hne : j ≠ i) :
    tableOf later j = tableOf world j := by
  have hsubscriptions := subscriptions_emcuteSub_prepare world.client i name answer
  rw [← hclient] at hsubscriptions
  simp only [tableOf, hsubscriptions, hfilledBy, Function.update_of_ne hne]

theorem name_tableOf_of_fill {world later : World} {i : Fin numofsubs} {name : Text}
    {answer : Answer} (hclient : later.client = (world.client.prepare i name).emcuteSub i answer)
    (hfilledBy : later.filledBy = Function.update world.filledBy i (some name)) :
    (tableOf later i).name = some name := by
  have hsubscriptions := subscriptions_emcuteSub_prepare world.client i name answer
  rw [← hclient] at hsubscriptions
  simp only [tableOf, hsubscriptions, hfilledBy, Function.update_self]

theorem tableOf_of_copy {world later : World} {i : Fin numofsubs} {name : Text}
    {answer : Answer} (hfree : world.client.firstFree = some i)
    (hgrants : answer.accepted = true → answer.id ≠ 0)
    (hclient : later.client = (world.client.prepare i name).emcuteSub i answer)
    (hfilledBy : later.filledBy = Function.update world.filledBy i (some name)) :
    tableOf later = fill (tableOf world) name answer.accepted := by
  have hsubscriptions := subscriptions_emcuteSub_prepare world.client i name answer
  rw [← hclient] at hsubscriptions
  rw [← firstFree_tableOf] at hfree
  rw [fill_of_firstFree hfree]
  funext j
  by_cases hj : j = i
  · subst hj
    -- the slot was free, so that it is live exactly if the id is granted
    have hdead := (firstFree_eq_some_iff.mp hfree).1
    rw [Function.update_self]
    simp only [tableOf, hsubscriptions, hfilledBy, Function.update_self] at hdead ⊢
    cases haccepted : answer.accepted with
    | true => simpa [haccepted] using hgrants haccepted
    | false => simpa [haccepted] using hdead
  · rw [Function.update_of_ne hj]
    exact tableOf_apply_of_fill hclient hfilledBy hj

theorem tableOf_of_clear {world later : World} (hworld : RowsIntact world) {i : Fin numofsubs}
    {name : Text} (hnamed : world.client.firstNamed name = some i)
    (hclient : later.client = world.client.clear i) (hfilledBy : later.filledBy = world.filledBy) :
    tableOf later = release (tableOf world) name := by
  rw [← firstNamed_tableOf hworld] at hnamed
  rw [release_of_firstNamed hnamed]
  funext j
  by_cases hj : j = i
  · subst hj
    rw [Function.update_self]
    simp [tableOf, hclient, Client.clear, Subscription.zero, Slot.empty]
  · rw [Function.update_of_ne hj]
    simp only [tableOf, hclient, hfilledBy, Client.clear, Function.update_of_ne hj]

/-- **The shell refines the table of named slots.** -/
theorem tableOf_step {world : World} {entry : Entry} (hworld : RowsIntact world)
    (hgrants : GrantsId entry) :
    tableOf (step ipv6AddrFromStr world entry) = tableStep (tableOf world) entry := by
  have hchange := step_change ipv6AddrFromStr world entry
  obtain ⟨command, args, answers⟩ := entry
  cases hchange with
  | fill i name flags hcommand hname hshort hfree hclient hfilledBy =>
      obtain ⟨rest, rfl⟩ : ∃ rest, args = name :: rest := List.head?_eq_some_iff.mp hname
      obtain rfl : command = .sub := hcommand
      rw [tableStep_sub, if_pos hshort]
      exact tableOf_of_copy hfree (hgrants rfl) hclient hfilledBy
  | clear i name hcommand hname haccepted hnamed hclient hfilledBy =>
      obtain ⟨rest, rfl⟩ : ∃ rest, args = name :: rest := List.head?_eq_some_iff.mp hname
      obtain rfl : command = .unsub := hcommand
      rw [tableStep_unsub, if_pos haccepted]
      exact tableOf_of_clear hworld hnamed hclient hfilledBy
  | keep hclient hfilledBy hsub hunsub =>
      rw [tableOf_of_same hclient hfilledBy]
      cases args with
      | nil => cases command <;> rfl
      | cons name rest =>
          cases command with
          | sub =>
              rw [tableStep_sub]
              rcases (hsub rfl).2 name rfl with hlong | hfull
              · rw [if_neg hlong.not_ge]
              · rw [← firstFree_tableOf] at hfull
                rw [fill_of_full hfull, ite_self]
          | unsub =>
              rw [tableStep_unsub]
              split
              · next haccepted =>
                  have hnone := (hunsub rfl).2 name rfl haccepted
                  rw [← firstNamed_tableOf hworld] at hnone
                  simp only [release, hnone]
              · rfl
          | con => rfl
          | discon => rfl
          | pub => rfl
          | will => rfl

/-- The refinement over a whole run of fitting names and nonzero ids. -/
theorem tableOf_after {entries : List Entry}
    (hfits : Along (step ipv6AddrFromStr) FitsRow World.initial entries)
    (hgrants : ∀ entry ∈ entries, GrantsId entry) :
    tableOf (after (step ipv6AddrFromStr) World.initial entries) =
      after tableStep (tableOf World.initial) entries := by
  have hguard : Along (step ipv6AddrFromStr) (fun world entry => FitsRow world entry ∧
      GrantsId entry) World.initial entries := by
    rw [along_iff_forall_split] at hfits ⊢
    intro before entry later heq
    exact ⟨hfits before entry later heq, hgrants entry (by simp [heq])⟩
  have hrelated := simulation tableStep
    (fun world table => RowsIntact world ∧ tableOf world = table) ⟨initial_rowsIntact, rfl⟩
    (fun world table entry hworld hentry =>
      ⟨step_rowsIntact ipv6AddrFromStr world entry hworld.1 hentry.1, by
        rw [tableOf_step ipv6AddrFromStr hworld.1 hentry.2, hworld.2]⟩) hguard
  exact hrelated.2

/-- In these runs the names of the table are those in the rows: a slot has the name with
which comparing the bytes of its row succeeds, and no other. -/
theorem carries_after {entries : List Entry}
    (hfits : Along (step ipv6AddrFromStr) FitsRow World.initial entries) (i : Fin numofsubs)
    (name : Text) :
    (after (step ipv6AddrFromStr) World.initial entries).client.carries i name = true ↔
      (tableOf (after (step ipv6AddrFromStr) World.initial entries) i).name = some name :=
  carries_iff (after_rowsIntact ipv6AddrFromStr hfits) i name

/-- Two topics are subscribed, of which the first is given up. -/
def givenUp : List Entry :=
  [accepted .sub [hello] 1, accepted .sub [weather] 2, accepted .unsub [hello] 0]

theorem tableOf_after_givenUp :
    tableOf (after (step fun _ => none) World.initial givenUp) =
      after tableStep (tableOf World.initial) givenUp :=
  tableOf_after (fun _ => none) (by decide) (by decide)

end AwsIotSensors.Emcute
