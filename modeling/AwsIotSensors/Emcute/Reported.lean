import AwsIotSensors.Emcute.Unsubscribe

/-!
# Topics reported as subscribed

A slot of the table is free when its topic id is 0, and a successful `emcute_sub`
stores the id the gateway has granted.  MQTT-SN grants the id 0 to topic names
with wildcards, and such a subscription leaves its slot free: the next `cmd_sub`
overwrites its record and its row (`reuses_slot_of_zero`).

As long as no granted id is 0, `reported_kept` holds of every run: a topic that
`cmd_sub` has reported as subscribed stays recorded until a `cmd_unsub` of it
succeeds, its slot is not given away, and a `cmd_unsub` finds it.

There are two invariants.  Every reported topic sits in its slot of the refined table
under its name (`Kept`): that holds of the runs in which no `cmd_sub` finds such a slot
as the lowest free one (`LeavesHeld`), which is all that is needed, and is needed
(`reported_kept_iff`).  If no granted id is 0, the slots are live as well (`Recorded`),
and so none of them is found.
-/

namespace AwsIotSensors.Emcute

open CString Runs SlotTable

variable (ipv6AddrFromStr : Text → Option Ipv6Addr)

/-! ## What has been reported -/

/-- The shell with its reports: the slots and names of the topics that `cmd_sub`
has reported as subscribed and no `cmd_unsub` has ended since. -/
structure Reported where
  world : World
  records : Finset (Fin numofsubs × Text)

/-- The start of `main`. -/
def Reported.initial : Reported := ⟨World.initial, ∅⟩

/-- The command has unsubscribed from the topic. -/
def Outcome.ends (outcome : Outcome) (name : Text) : Bool :=
  outcome.exchanges.any fun exchange =>
    exchange.call == .unsub name && exchange.answer.accepted

/-- The reports after a command. -/
def Outcome.report (outcome : Outcome) (records : Finset (Fin numofsubs × Text)) :
    Finset (Fin numofsubs × Text) :=
  let kept := records.filter fun record => ¬ outcome.ends record.2
  match outcome.copy with
  | some copy => if outcome.ret = 0 then insert (copy.slot, copy.name) kept else kept
  | none => kept

/-- One command. -/
def reportStep (reported : Reported) (entry : Entry) : Reported where
  world := step ipv6AddrFromStr reported.world entry
  records := (entry.run ipv6AddrFromStr reported.world.client).report reported.records

/-! ## What should hold -/

/-- Every reported topic is recorded in a slot under its full name. -/
def AllRecorded (reported : Reported) : Prop :=
  ∀ record ∈ reported.records, ∃ i, reported.world.client.carries i record.2 = true

/-- A `cmd_sub` does not take the slot, and the row, of a reported topic. -/
def SparesRecords (reported : Reported) (entry : Entry) : Prop :=
  ∀ copy ∈ (entry.run ipv6AddrFromStr reported.world.client).copy,
    ∀ record ∈ reported.records, record.1 ≠ copy.slot

/-- A `cmd_unsub` of a reported topic finds it and asks for its end. -/
def FindsRecord (reported : Reported) (entry : Entry) : Prop :=
  entry.command = .unsub → ∀ name ∈ entry.args.head?,
    (∃ record ∈ reported.records, record.2 = name) →
      ((entry.run ipv6AddrFromStr reported.world.client).exchanges.map Exchange.call) =
        [.unsub name]

instance (reported : Reported) : Decidable (AllRecorded reported) :=
  inferInstanceAs (Decidable (∀ _ ∈ _, ∃ _, _))

/-- No `cmd_sub` whose name fits finds the slot of a reported topic as the lowest free
one. -/
def LeavesHeld (reported : Reported) (entry : Entry) : Prop :=
  entry.command = .sub → ∀ name ∈ entry.args.head?, strlen name ≤ topicMaxlen →
    ∀ i ∈ reported.world.client.firstFree, ∀ record ∈ reported.records, record.1 ≠ i

instance (reported : Reported) (entry : Entry) : Decidable (LeavesHeld reported entry) :=
  inferInstanceAs (Decidable (_ → ∀ _ ∈ _, _ → ∀ _ ∈ _, ∀ _ ∈ _, _))

/-! ## The invariants -/

/-- The rows are intact, and every reported topic sits in its slot. -/
structure Kept (reported : Reported) : Prop where
  rows : RowsIntact reported.world
  names : ∀ record ∈ reported.records, (tableOf reported.world record.1).name = some record.2

/-- The rows are intact, and every reported topic sits in its slot, which is live. -/
structure Recorded (reported : Reported) : Prop where
  rows : RowsIntact reported.world
  held : ∀ record ∈ reported.records,
    tableOf reported.world record.1 = ⟨some record.2, true⟩

theorem initial_kept : Kept Reported.initial :=
  ⟨initial_rowsIntact, by simp [Reported.initial]⟩

theorem initial_recorded : Recorded Reported.initial :=
  ⟨initial_rowsIntact, by simp [Reported.initial]⟩

theorem Recorded.kept {reported : Reported} (hreported : Recorded reported) : Kept reported :=
  ⟨hreported.rows, fun record hrecord => by rw [hreported.held record hrecord]⟩

theorem Kept.carries {reported : Reported} (hreported : Kept reported)
    {record : Fin numofsubs × Text} (hrecord : record ∈ reported.records) :
    reported.world.client.carries record.1 record.2 = true := by
  rw [carries_iff hreported.rows, hreported.names record hrecord]

/-- The slot of a live name changes only when the name is unsubscribed. -/
theorem tableStep_apply_of_live {table : SlotTable.Table numofsubs Text} {i : Fin numofsubs}
    {name : Text} (hslot : table i = ⟨some name, true⟩) {entry : Entry}
    (hkept : entry.command = .unsub → (entry.answers 0).accepted →
      entry.args.head? ≠ some name) :
    tableStep table entry i = table i := by
  obtain ⟨command, args, answers⟩ := entry
  cases args with
  | nil => cases command <;> rfl
  | cons other rest =>
      cases command with
      | sub =>
          rw [tableStep_sub]
          split
          · exact fill_apply_of_live (by rw [hslot]) other _
          · rfl
      | unsub =>
          rw [tableStep_unsub]
          split
          · next haccepted =>
              refine release_apply_of_ne ?_
              rw [hslot]
              intro heq
              exact hkept rfl haccepted heq.symm
          · rfl
      | con => rfl
      | discon => rfl
      | pub => rfl
      | will => rfl

/-- An accepted `cmd_unsub` of a recorded name ends the topic. -/
theorem ends_of_carries {client : Client} {i : Fin numofsubs} {name : Text}
    (hcarries : client.carries i name = true) {entry : Entry} (hcommand : entry.command = .unsub)
    (haccepted : (entry.answers 0).accepted) (hname : entry.args.head? = some name) :
    (entry.run ipv6AddrFromStr client).ends name = true := by
  obtain ⟨command, args, answers⟩ := entry
  obtain rfl : command = .unsub := hcommand
  obtain ⟨rest, rfl⟩ : ∃ rest, args = name :: rest := List.head?_eq_some_iff.mp hname
  cases hnamed : client.firstNamed name with
  | none => exact absurd (firstNamed_eq_none_iff.mp hnamed i) (by simp [hcarries])
  | some j => simpa [run_unsub, cmdUnsub_of_named answers rest hnamed, Outcome.ends] using haccepted

/-- What a copy tells of the command that makes it. -/
theorem copy_run {entry : Entry} {client : Client} {copy : Copy}
    (hcopy : (entry.run ipv6AddrFromStr client).copy = some copy) :
    entry.command = .sub ∧ entry.args.head? = some copy.name ∧
      strlen copy.name ≤ topicMaxlen ∧ client.firstFree = some copy.slot := by
  obtain ⟨command, args, answers⟩ := entry
  by_cases hsub : command = .sub
  · subst hsub
    exact ⟨rfl, copy_cmdSub answers args hcopy⟩
  · by_cases hunsub : command = .unsub
    · subst hunsub
      rw [run_unsub, copy_cmdUnsub] at hcopy
      exact absurd hcopy (by simp)
    · rw [(run_of_other ipv6AddrFromStr ⟨command, args, answers⟩ hsub hunsub client).2] at hcopy
      exact absurd hcopy (by simp)

/-- A `cmd_sub` that copies a name reports it if and only if it is accepted. -/
theorem ret_of_copy {entry : Entry} {client : Client} {copy : Copy}
    (hcopy : (entry.run ipv6AddrFromStr client).copy = some copy) :
    (entry.run ipv6AddrFromStr client).ret = 0 ↔ (entry.answers 0).accepted := by
  obtain ⟨hcommand, hname, hshort, hfree⟩ := copy_run ipv6AddrFromStr hcopy
  obtain ⟨command, args, answers⟩ := entry
  obtain rfl : command = .sub := hcommand
  obtain ⟨rest, rfl⟩ : ∃ rest, args = copy.name :: rest := List.head?_eq_some_iff.mp hname
  rw [run_sub, cmdSub_of_free answers rest hshort hfree]
  simp

/-- Where a report after a command comes from. -/
theorem mem_report {outcome : Outcome} {records : Finset (Fin numofsubs × Text)}
    {record : Fin numofsubs × Text} (hrecord : record ∈ outcome.report records) :
    (record ∈ records ∧ outcome.ends record.2 = false) ∨
      ∃ copy, outcome.copy = some copy ∧ outcome.ret = 0 ∧ record = (copy.slot, copy.name) := by
  unfold Outcome.report at hrecord
  cases hcopy : outcome.copy with
  | none =>
      rw [hcopy] at hrecord
      exact Or.inl (by simpa using hrecord)
  | some copy =>
      rw [hcopy] at hrecord
      dsimp only at hrecord
      split at hrecord
      · next hret =>
          rcases Finset.mem_insert.mp hrecord with hnew | hold
          · exact Or.inr ⟨copy, rfl, hret, hnew⟩
          · exact Or.inl (by simpa using hold)
      · exact Or.inl (by simpa using hrecord)

theorem step_kept (reported : Reported) (entry : Entry) (hreported : Kept reported)
    (hentry : ShortName entry ∧ LeavesHeld reported entry) :
    Kept (reportStep ipv6AddrFromStr reported entry) := by
  obtain ⟨hshort, hleaves⟩ := hentry
  refine ⟨step_rowsIntact ipv6AddrFromStr _ entry hreported.rows hshort.fitsRow, ?_⟩
  intro record hrecord
  rw [reportStep]
  have hchange := step_change ipv6AddrFromStr reported.world entry
  rcases mem_report hrecord with ⟨hold, hends⟩ | ⟨copy, hcopy, -, rfl⟩
  · cases hchange with
    | keep hclient hfilledBy hsub hunsub =>
        rw [tableOf_of_same hclient hfilledBy]
        exact hreported.names record hold
    | fill i name flags hcommand hname hfits hfree hclient hfilledBy hsession =>
        rw [tableOf_apply_of_fill hclient hfilledBy
          (hleaves hcommand name hname hfits i hfree record hold)]
        exact hreported.names record hold
    | clear i name hcommand hname haccepted hnamed hclient hfilledBy hsession =>
        rw [tableOf_of_clear hreported.rows hnamed hclient hfilledBy, release_apply_of_ne]
        · exact hreported.names record hold
        · -- a command that unsubscribed from the topic would have ended the report
          rw [hreported.names record hold]
          intro heq
          obtain rfl := Option.some.inj heq
          have hend := ends_of_carries ipv6AddrFromStr (hreported.carries hold) hcommand haccepted
            hname
          simp [hends] at hend
  · obtain ⟨hcommand, hname, hfits, hfree⟩ := copy_run ipv6AddrFromStr hcopy
    cases hchange with
    | keep hclient hfilledBy hsub hunsub =>
        rcases (hsub hcommand).2 copy.name hname with hlong | hfull
        · exact absurd hfits hlong.not_ge
        · exact absurd (hfree.symm.trans hfull) (by simp)
    | fill i name flags _ hname' _ hfree' hclient hfilledBy hsession =>
        obtain rfl := Option.some.inj (hname.symm.trans hname')
        obtain rfl := Option.some.inj (hfree.symm.trans hfree')
        exact name_tableOf_of_fill hclient hfilledBy
    | clear i name hunsub =>
        rw [hcommand] at hunsub
        cases hunsub

theorem step_recorded (reported : Reported) (entry : Entry) (hreported : Recorded reported)
    (hentry : ShortName entry ∧ GrantsId entry) :
    Recorded (reportStep ipv6AddrFromStr reported entry) := by
  obtain ⟨hshort, hgrants⟩ := hentry
  have htable := tableOf_step ipv6AddrFromStr hreported.rows hgrants
  refine ⟨step_rowsIntact ipv6AddrFromStr _ entry hreported.rows hshort.fitsRow, ?_⟩
  intro record hrecord
  rw [reportStep, htable]
  rcases mem_report hrecord with ⟨hold, hends⟩ | ⟨copy, hcopy, hret, rfl⟩
  · have hslot := hreported.held record hold
    rw [tableStep_apply_of_live hslot, hslot]
    -- a command that unsubscribed from the topic would have ended the report
    intro hcommand haccepted hname
    have hend := ends_of_carries ipv6AddrFromStr (hreported.kept.carries hold) hcommand haccepted
      hname
    simp [hends] at hend
  · obtain ⟨hcommand, hname, hfits, hfree⟩ := copy_run ipv6AddrFromStr hcopy
    have haccepted := (ret_of_copy ipv6AddrFromStr hcopy).mp hret
    obtain ⟨command, args, answers⟩ := entry
    obtain rfl : command = .sub := hcommand
    obtain ⟨rest, rfl⟩ : ∃ rest, args = copy.name :: rest := List.head?_eq_some_iff.mp hname
    rw [← firstFree_tableOf] at hfree
    rw [tableStep_sub, if_pos hfits, fill_of_firstFree hfree, Function.update_self, haccepted]

/-! ## One command -/

theorem Kept.allRecorded {reported : Reported} (hreported : Kept reported) :
    AllRecorded reported :=
  fun record hrecord => ⟨record.1, hreported.carries hrecord⟩

theorem Kept.findsRecord {reported : Reported} (hreported : Kept reported)
    (entry : Entry) : FindsRecord ipv6AddrFromStr reported entry := by
  intro hcommand name hname hexists
  obtain ⟨record, hrecord, rfl⟩ := hexists
  obtain ⟨command, args, answers⟩ := entry
  obtain rfl : command = .unsub := hcommand
  obtain ⟨rest, rfl⟩ : ∃ rest, args = record.2 :: rest := List.head?_eq_some_iff.mp hname
  have hcarries := hreported.carries hrecord
  cases hnamed : reported.world.client.firstNamed record.2 with
  | none => exact absurd (firstNamed_eq_none_iff.mp hnamed record.1) (by simp [hcarries])
  | some i => simp [run_unsub, cmdUnsub_of_named answers rest hnamed]

/-- The slot that a `cmd_sub` takes is the lowest free one. -/
theorem sparesRecords_iff {reported : Reported} {entry : Entry} :
    SparesRecords ipv6AddrFromStr reported entry ↔ LeavesHeld reported entry := by
  constructor
  · rintro hspares hcommand name hname hfits i hfree
    obtain ⟨command, args, answers⟩ := entry
    obtain rfl : command = .sub := hcommand
    obtain ⟨rest, rfl⟩ : ∃ rest, args = name :: rest := List.head?_eq_some_iff.mp hname
    refine hspares ⟨i, name⟩ ?_
    rw [run_sub, cmdSub_of_free answers rest hfits hfree]
    rfl
  · intro hleaves copy hcopy
    obtain ⟨hcommand, hname, hfits, hfree⟩ := copy_run ipv6AddrFromStr hcopy
    exact hleaves hcommand copy.name hname hfits copy.slot hfree

/-- The first free slot is not that of a reported topic whose slot is live. -/
theorem Recorded.leavesHeld {reported : Reported} (hreported : Recorded reported)
    (entry : Entry) : LeavesHeld reported entry := by
  intro _ _ _ _ i hfree record hrecord heq
  have hslot := hreported.held record hrecord
  rw [← firstFree_tableOf] at hfree
  have hdead := (firstFree_eq_some_iff.mp hfree).1
  rw [← heq, hslot] at hdead
  cases hdead

/-- A `cmd_sub` that is granted the id 0 leaves its slot free: the next `cmd_sub`
of a short name takes the slot of the topic just reported. -/
theorem reuses_slot_of_zero {reported : Reported} {first second : Entry}
    {copy : Copy} (hcopy : (first.run ipv6AddrFromStr reported.world.client).copy = some copy)
    (haccepted : (first.answers 0).accepted) (hzero : (first.answers 0).id = 0)
    (hcommand : second.command = .sub) {name : Text} (hname : second.args.head? = some name)
    (hshort : strlen name ≤ topicMaxlen) :
    ¬ SparesRecords ipv6AddrFromStr (reportStep ipv6AddrFromStr reported first) second := by
  obtain ⟨hfirst, hfirstName, hfits, hfree⟩ := copy_run ipv6AddrFromStr hcopy
  have hret := (ret_of_copy ipv6AddrFromStr hcopy).mpr haccepted
  have hrecord : (copy.slot, copy.name) ∈ (reportStep ipv6AddrFromStr reported first).records := by
    simp [reportStep, Outcome.report, hcopy, hret]
  have hstill : (step ipv6AddrFromStr reported.world first).client.firstFree = some copy.slot := by
    obtain ⟨command, args, firstAnswers⟩ := first
    obtain rfl : command = .sub := hfirst
    obtain ⟨more, rfl⟩ : ∃ more, args = copy.name :: more :=
      List.head?_eq_some_iff.mp hfirstName
    have hclient : (step ipv6AddrFromStr reported.world
        ⟨.sub, copy.name :: more, firstAnswers⟩).client =
          (reported.world.client.prepare copy.slot copy.name).emcuteSub copy.slot
            (firstAnswers 0) := by
      simp only [step, Entry.run, cmdSub_of_free firstAnswers more hfits hfree]
    have hdead : (reported.world.client.subscriptions copy.slot).topic.id = 0 := by
      rw [← firstFree_tableOf] at hfree
      simpa [tableOf] using (firstFree_eq_some_iff.mp hfree).1
    -- the id 0 is the one that the slot had
    rw [hclient, firstFree_copy_of_same fun _ => hzero.trans hdead.symm]
    exact hfree
  intro hspares
  have hleaves := (sparesRecords_iff ipv6AddrFromStr).mp hspares
  exact hleaves hcommand name hname hshort copy.slot hstill _ hrecord rfl

/-! ## Runs -/

/-- What reported topics are owed in a run: they are recorded, their slots are spared, and
`cmd_unsub` finds them. -/
def RunKeeps (entries : List Entry) : Prop :=
  (∀ before later, entries = before ++ later →
      AllRecorded (after (reportStep ipv6AddrFromStr) Reported.initial before)) ∧
    Along (reportStep ipv6AddrFromStr) (SparesRecords ipv6AddrFromStr) Reported.initial entries ∧
    Along (reportStep ipv6AddrFromStr) (FindsRecord ipv6AddrFromStr) Reported.initial entries

theorem after_kept {entries : List Entry} (hshort : ∀ entry ∈ entries, ShortName entry)
    (hleaves : Along (reportStep ipv6AddrFromStr) LeavesHeld Reported.initial entries) :
    Kept (after (reportStep ipv6AddrFromStr) Reported.initial entries) :=
  invariant Kept initial_kept
    (fun reported entry hreported hentry =>
      step_kept ipv6AddrFromStr reported entry hreported hentry)
    ((along_iff_forall_mem.mpr hshort).and hleaves)

/-- If no `cmd_sub` finds the slot of a reported topic, all reported topics are kept. -/
theorem runKeeps_of_leavesHeld {entries : List Entry}
    (hshort : ∀ entry ∈ entries, ShortName entry)
    (hleaves : Along (reportStep ipv6AddrFromStr) LeavesHeld Reported.initial entries) :
    RunKeeps ipv6AddrFromStr entries := by
  have hkept : ∀ before later, entries = before ++ later →
      Kept (after (reportStep ipv6AddrFromStr) Reported.initial before) := by
    intro before later heq
    subst heq
    refine after_kept ipv6AddrFromStr (fun entry hmem => hshort entry ?_)
      ((along_append ..).mp hleaves).1
    exact List.mem_append_left _ hmem
  refine ⟨?_, ?_, ?_⟩
  · intro before later heq
    exact (hkept before later heq).allRecorded
  · exact hleaves.mono fun _ _ => (sparesRecords_iff ipv6AddrFromStr).mpr
  · rw [along_iff_forall_split]
    intro before entry later heq
    exact (hkept before (entry :: later) heq).findsRecord ipv6AddrFromStr entry

/-- Without a grant of 0 the slots of reported topics are live, so that they are not
found. -/
theorem along_leavesHeld {entries : List Entry} (hshort : ∀ entry ∈ entries, ShortName entry)
    (hgrants : ∀ entry ∈ entries, GrantsId entry) :
    Along (reportStep ipv6AddrFromStr) LeavesHeld Reported.initial entries := by
  rw [along_iff_forall_split]
  intro before entry later heq
  have hrecorded : Recorded (after (reportStep ipv6AddrFromStr) Reported.initial before) := by
    apply invariant Recorded initial_recorded (step_recorded ipv6AddrFromStr)
    apply along_iff_forall_mem.mpr
    intro earlier hmem
    have hmem' : earlier ∈ entries := heq ▸ List.mem_append_left _ hmem
    exact ⟨hshort earlier hmem', hgrants earlier hmem'⟩
  exact hrecorded.leavesHeld entry

/-- **A reported subscription is kept.**  In every run with short topic names in
which no successful `emcute_sub` is granted the id 0, every topic that `cmd_sub`
has reported as subscribed is recorded under its name until a `cmd_unsub` of it
succeeds, no `cmd_sub` takes its slot or row, and every `cmd_unsub` of it finds
it. -/
theorem reported_kept (entries : List Entry) (hshort : ∀ entry ∈ entries, ShortName entry)
    (hgrants : ∀ entry ∈ entries, GrantsId entry) :
    (∀ before later, entries = before ++ later →
        AllRecorded (after (reportStep ipv6AddrFromStr) Reported.initial before)) ∧
      Along (reportStep ipv6AddrFromStr) (SparesRecords ipv6AddrFromStr) Reported.initial
        entries ∧
      Along (reportStep ipv6AddrFromStr) (FindsRecord ipv6AddrFromStr) Reported.initial
        entries :=
  runKeeps_of_leavesHeld ipv6AddrFromStr hshort (along_leavesHeld ipv6AddrFromStr hshort hgrants)

theorem reported_kept_twoTopics :
    (∀ before later, [accepted .sub [hello] 1, accepted .sub [.ofString "b"] 2] =
        before ++ later →
        AllRecorded (after (reportStep fun _ => none) Reported.initial before)) ∧
      Along (reportStep fun _ => none) (SparesRecords fun _ => none) Reported.initial
        [accepted .sub [hello] 1, accepted .sub [.ofString "b"] 2] ∧
      Along (reportStep fun _ => none) (FindsRecord fun _ => none) Reported.initial
        [accepted .sub [hello] 1, accepted .sub [.ofString "b"] 2] :=
  reported_kept (fun _ => none) [accepted .sub [hello] 1, accepted .sub [.ofString "b"] 2]
    (by decide) (by decide)

/-- A wildcard topic is granted the id 0, and the next subscription takes its slot. -/
theorem exists_not_allRecorded :
    ¬ ∀ (ipv6AddrFromStr : Text → Option Ipv6Addr) (entries : List Entry),
      (∀ entry ∈ entries, entry.command = .sub ∨ entry.command = .unsub) →
      (∀ entry ∈ entries, ShortName entry) →
        (∀ before later, entries = before ++ later →
          AllRecorded (after (reportStep ipv6AddrFromStr) Reported.initial before)) ∧
        Along (reportStep ipv6AddrFromStr) (SparesRecords ipv6AddrFromStr) Reported.initial
          entries ∧
        Along (reportStep ipv6AddrFromStr) (FindsRecord ipv6AddrFromStr) Reported.initial
          entries := by
  intro hclaim
  have hkept := (hclaim (fun _ => none)
    [accepted .sub [.ofString "a/#"] 0, accepted .sub [hello] 1] (by decide) (by decide)).1
  exact absurd (hkept [accepted .sub [.ofString "a/#"] 0, accepted .sub [hello] 1] [] (by simp))
    (by decide)

/-- **Exactly when reported subscriptions are kept**, whatever ids are granted: as long as
no `cmd_sub` whose name fits finds the slot of a reported topic as the lowest free one. -/
theorem reported_kept_iff (entries : List Entry) (hshort : ∀ entry ∈ entries, ShortName entry) :
    RunKeeps ipv6AddrFromStr entries ↔
      Along (reportStep ipv6AddrFromStr) LeavesHeld Reported.initial entries := by
  constructor
  · intro hkeeps
    obtain ⟨-, hspares, -⟩ := hkeeps
    exact hspares.mono fun _ _ => (sparesRecords_iff ipv6AddrFromStr).mp
  · exact runKeeps_of_leavesHeld ipv6AddrFromStr hshort

/-- A topic with the id 0 survives a subscription that goes to a lower slot. -/
def lowerSlot : List Entry :=
  [accepted .sub [hello] 1, accepted .sub [.ofString "a/#"] 0, accepted .unsub [hello] 0,
    accepted .sub [.ofString "b"] 2]

theorem reported_kept_iff_lowerSlot : RunKeeps (fun _ => none) lowerSlot :=
  (reported_kept_iff (fun _ => none) lowerSlot (by decide)).mpr (by decide)

end AwsIotSensors.Emcute
