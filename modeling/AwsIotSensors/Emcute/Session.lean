import AwsIotSensors.Emcute.Table

/-!
# The table and the session at the gateway

`cmd_con` always asks for a clean session, in which the gateway holds no
subscriptions, and `cmd_discon` ends the session; neither touches the
subscription table, which only `cmd_sub` and `cmd_unsub` maintain.

`session_agrees_iff` is exact: along a run, the names of the active slots are
the topics the gateway holds whenever the client is connected, and `cmd_sub`
runs out of memory only for 16 topics of the current session, if and only if no
`emcute_con` is accepted while a slot is active and no `cmd_sub` meets a full
table without a session (`SessionBound`).  Between two accepted `emcute_con` the
invariant is `InSession`: the gateway's topics are the live names of the
refined table, each of them in the lowest slot of its name.
-/

namespace AwsIotSensors.Emcute

open CString Runs SlotTable

variable (ipv6AddrFromStr : Text → Option Ipv6Addr)

/-! ## What is assumed of a run -/

/-- Topic names are shorter than `TOPIC_MAXLEN`. -/
def ShortName (entry : Entry) : Prop :=
  entry.command = .sub → ∀ name ∈ entry.args.head?, strlen name < topicMaxlen

/-- No topic is subscribed while it is already subscribed. -/
def FreshTopic (world : World) (entry : Entry) : Prop :=
  entry.command = .sub → ∀ name ∈ entry.args.head?, ∀ topics ∈ world.session, name ∉ topics

/-- Short names, nonzero ids, no topic subscribed twice. -/
def Regular (world : World) (entry : Entry) : Prop :=
  ShortName entry ∧ GrantsId entry ∧ FreshTopic world entry

instance (entry : Entry) : Decidable (ShortName entry) :=
  inferInstanceAs (Decidable (_ → ∀ _ ∈ _, _))

instance (world : World) (entry : Entry) : Decidable (FreshTopic world entry) :=
  inferInstanceAs (Decidable (_ → ∀ _ ∈ _, ∀ _ ∈ _, _))

instance (world : World) (entry : Entry) : Decidable (Regular world entry) :=
  inferInstanceAs (Decidable (_ ∧ _ ∧ _))

theorem ShortName.fitsRow {world : World} {entry : Entry} (hshort : ShortName entry) :
    FitsRow world entry :=
  fun hcommand name hname => Or.inl (hshort hcommand name hname).ne

/-! ## What should hold, and when it does -/

/-- While a session exists, the names of the active slots are its topics. -/
def Agrees (world : World) : Prop :=
  ∀ topics ∈ world.session, heldNames world.client = (topics : Set Text)

/-- The line `cmd_sub` prints when it finds no free slot. -/
def noMemory : String := "error: no memory to store new subscriptions"

/-- `cmd_sub` answers that there is no memory only when 16 topics are subscribed
in the current session. -/
def NoMemoryOnlyWhenFull (world : World) (entry : Entry) : Prop :=
  entry.command = .sub → (entry.run ipv6AddrFromStr world.client).printed = [noMemory] →
    ∃ topics ∈ world.session, topics.card = numofsubs

/-- No `emcute_con` is accepted while a slot is active, and no `cmd_sub` meets a
full table while there is no session. -/
def SessionBound (world : World) (entry : Entry) : Prop :=
  (entry.command = .con → (entry.args.head?.bind ipv6AddrFromStr).isSome →
    (entry.answers 0).accepted → ∀ i, (world.client.subscriptions i).topic.id = 0) ∧
  (entry.command = .sub → entry.args ≠ [] → world.session = none →
    world.client.firstFree ≠ none)

/-! ## How the commands move the session -/

theorem session_con (world : World) (args : List Text) (answers : ℕ → Answer) :
    (step ipv6AddrFromStr world ⟨.con, args, answers⟩).session =
      if (args.head?.bind ipv6AddrFromStr).isSome ∧ (answers 0).accepted then some ∅
      else world.session := by
  cases args with
  | nil => simp [step, Entry.run, cmdCon, Outcome.stop, session]
  | cons address rest =>
      cases haddr : ipv6AddrFromStr address with
      | none => simp [step, Entry.run, cmdCon, haddr, Outcome.stop, session]
      | some addr =>
          cases haccepted : (answers 0).accepted <;>
            simp [step, Entry.run, cmdCon, haddr, session, Exchange.session, haccepted]

theorem session_discon (world : World) (args : List Text) (answers : ℕ → Answer) :
    (step ipv6AddrFromStr world ⟨.discon, args, answers⟩).session =
      if (answers 0).accepted then none else world.session := by
  cases hresult : (answers 0).result <;>
    simp [step, Entry.run, cmdDiscon, session, Exchange.session, Answer.accepted, hresult]

theorem session_pub (world : World) (args : List Text) (answers : ℕ → Answer) :
    (step ipv6AddrFromStr world ⟨.pub, args, answers⟩).session = world.session := by
  simp only [step, Entry.run, cmdPub]
  split
  · split
    · split <;> simp [session, Exchange.session]
    · simp [session, Exchange.session]
  · rfl

theorem session_will (world : World) (args : List Text) (answers : ℕ → Answer) :
    (step ipv6AddrFromStr world ⟨.will, args, answers⟩).session = world.session := by
  simp only [step, Entry.run, cmdWill]
  split
  · split
    · split <;> simp [session, Exchange.session]
    · simp [session, Exchange.session]
  · rfl

theorem session_sub (before : Option (Finset Text)) (name : Text) (flags : Qos)
    (answer : Answer) :
    session before [⟨.sub name flags, answer⟩] =
      if answer.accepted then before.map (insert name) else before := by
  simp [session, Exchange.session]

theorem session_unsub (before : Option (Finset Text)) (name : Text) (answer : Answer) :
    session before [⟨.unsub name, answer⟩] =
      if answer.accepted then before.map (fun topics => topics.erase name) else before := by
  simp [session, Exchange.session]

/-! ## The invariant of a session -/

/-- The rows are intact and, while a session exists, its topics are the live
names of the table, each in the lowest slot of its name. -/
structure InSession (world : World) : Prop where
  rows : RowsIntact world
  agrees : ∀ topics ∈ world.session, liveNames (tableOf world) = (topics : Set Text)
  first : world.session.isSome → FirstOfName (tableOf world)

theorem initial_inSession : InSession World.initial :=
  ⟨initial_rowsIntact, by simp [World.initial], by simp [World.initial]⟩

theorem InSession.heldNames_eq {world : World} (hworld : InSession world) : Agrees world := by
  intro topics htopics
  rw [heldNames_eq_liveNames hworld.rows]
  exact hworld.agrees topics htopics

/-- A command that keeps table and session keeps the invariant. -/
theorem inSession_of_same {world later : World} (hworld : InSession world)
    (hrows : RowsIntact later) (htable : tableOf later = tableOf world)
    (hsession : later.session = world.session) : InSession later := by
  refine ⟨hrows, ?_, ?_⟩
  · rw [hsession, htable]
    exact hworld.agrees
  · rw [hsession, htable]
    exact hworld.first

theorem inSession_of_fill {world later : World} (hworld : InSession world)
    (hrows : RowsIntact later) {i : Fin numofsubs} {name : Text} {flags : Qos} {answer : Answer}
    (hfresh : ∀ topics ∈ world.session, name ∉ topics)
    (hfree : world.client.firstFree = some i)
    (htable : tableOf later = fill (tableOf world) name answer.accepted)
    (hsession : later.session = session world.session [⟨.sub name flags, answer⟩]) :
    InSession later := by
  rw [session_sub] at hsession
  rw [← firstFree_tableOf] at hfree
  cases hbefore : world.session with
  | none =>
      -- without a session nothing is said of the live names
      rw [hbefore, Option.map_none, ite_self] at hsession
      exact ⟨hrows, by simp [hsession], by simp [hsession]⟩
  | some topics =>
      have hlive : liveNames (tableOf world) = (topics : Set Text) :=
        hworld.agrees topics hbefore
      have hnew : name ∉ liveNames (tableOf world) := by
        rw [hlive]
        exact hfresh topics hbefore
      have hfirst : FirstOfName (tableOf world) := hworld.first (by simp [hbefore])
      refine ⟨hrows, ?_, fun _ => htable ▸ hfirst.fill hnew answer.accepted⟩
      rw [htable, liveNames_fill hfree, hlive, hsession, hbefore]
      cases answer.accepted <;> simp

theorem inSession_of_clear {world later : World} (hworld : InSession world)
    (hrows : RowsIntact later) {name : Text} {answer : Answer}
    (haccepted : answer.accepted) (htable : tableOf later = release (tableOf world) name)
    (hsession : later.session = session world.session [⟨.unsub name, answer⟩]) :
    InSession later := by
  rw [session_unsub, if_pos haccepted] at hsession
  cases hbefore : world.session with
  | none =>
      rw [hbefore, Option.map_none] at hsession
      exact ⟨hrows, by simp [hsession], by simp [hsession]⟩
  | some topics =>
      have hfirst : FirstOfName (tableOf world) := hworld.first (by simp [hbefore])
      refine ⟨hrows, ?_, fun _ => htable ▸ hfirst.release name⟩
      rw [htable, liveNames_release hfirst, hworld.agrees topics hbefore, hsession, hbefore]
      simp

/-- A table without active slots agrees with a session without topics. -/
theorem inSession_of_clean {world later : World} (hrows : RowsIntact later)
    (htable : tableOf later = tableOf world) (hsession : later.session = some ∅)
    (hinactive : ∀ i, (world.client.subscriptions i).topic.id = 0) : InSession later := by
  have hdead : ∀ i, (tableOf world i).live ≠ true := fun i hlive =>
    live_tableOf.mp hlive (hinactive i)
  refine ⟨hrows, ?_, fun _ i name hlive => absurd (htable ▸ hlive) (hdead i)⟩
  intro topics htopics
  obtain rfl : ∅ = topics := Option.some.inj (hsession.symm.trans htopics)
  rw [htable, Finset.coe_empty]
  exact Set.eq_empty_of_forall_notMem fun name ⟨i, hlive, _⟩ => hdead i hlive

theorem step_inSession (world : World) (entry : Entry) (hworld : InSession world)
    (hregular : Regular world entry) (hbound : SessionBound ipv6AddrFromStr world entry) :
    InSession (step ipv6AddrFromStr world entry) := by
  obtain ⟨hshort, hgrants, hfresh⟩ := hregular
  have hrows := step_rowsIntact ipv6AddrFromStr world entry hworld.rows hshort.fitsRow
  cases step_change ipv6AddrFromStr world entry with
  | fill i name flags hcommand hname _ hfree hclient hfilledBy hsession =>
      exact inSession_of_fill hworld hrows (hfresh hcommand name hname) hfree
        (tableOf_of_copy hfree (hgrants hcommand) hclient hfilledBy) hsession
  | clear i name hcommand hname haccepted hnamed hclient hfilledBy hsession =>
      exact inSession_of_clear hworld hrows haccepted
        (tableOf_of_clear hworld.rows hnamed hclient hfilledBy) hsession
  | keep hclient hfilledBy hsub hunsub =>
      have htable := tableOf_of_same hclient hfilledBy
      obtain ⟨command, args, answers⟩ := entry
      cases command with
      | sub => exact inSession_of_same hworld hrows htable (hsub rfl).1
      | unsub => exact inSession_of_same hworld hrows htable (hunsub rfl).1
      | pub => exact inSession_of_same hworld hrows htable (session_pub ..)
      | will => exact inSession_of_same hworld hrows htable (session_will ..)
      | discon =>
          have hsession := session_discon ipv6AddrFromStr world args answers
          split at hsession
          · exact ⟨hrows, by simp [hsession], by simp [hsession]⟩
          · exact inSession_of_same hworld hrows htable hsession
      | con =>
          have hsession := session_con ipv6AddrFromStr world args answers
          split at hsession
          · next haccepted =>
              exact inSession_of_clean hrows htable hsession
                (hbound.1 rfl haccepted.1 haccepted.2)
          · exact inSession_of_same hworld hrows htable hsession

theorem after_inSession {entries : List Entry}
    (hregular : Along (step ipv6AddrFromStr) Regular World.initial entries)
    (hbound : Along (step ipv6AddrFromStr) (SessionBound ipv6AddrFromStr) World.initial entries) :
    InSession (after (step ipv6AddrFromStr) World.initial entries) :=
  invariant InSession initial_inSession
    (fun world entry hworld hguard =>
      step_inSession ipv6AddrFromStr world entry hworld hguard.1 hguard.2)
    (hregular.and hbound)

/-! ## Running out of memory -/

/-- `cmd_sub` prints the line if and only if it has a name of at most 64 `char`s
and finds no free slot. -/
theorem printed_noMemory_iff (answers : ℕ → Answer) (args : List Text) (client : Client) :
    (cmdSub answers args client).printed = [noMemory] ↔
      (∃ name ∈ args.head?, strlen name ≤ topicMaxlen) ∧ client.firstFree = none := by
  cases args with
  | nil => simp [cmdSub, Outcome.stop, noMemory]
  | cons name rest =>
      rcases Nat.lt_or_ge topicMaxlen (strlen name) with hlong | hshort
      · rw [cmdSub_of_long hlong]
        simp [Outcome.stop, noMemory, hlong.not_ge]
      · cases hfree : client.firstFree with
        | none =>
            rw [cmdSub_of_full hshort hfree]
            simpa [Outcome.stop, noMemory] using hshort
        | some i =>
            have hother : (cmdSub answers (name :: rest) client).printed ≠ [noMemory] := by
              rw [cmdSub_of_free answers rest hshort hfree]
              split <;> simp [noMemory, ← String.toList_inj]
            simp [hother]

/-- In a session whose topics are the live names, a full table means 16 topics. -/
theorem noMemoryOnlyWhenFull_of_inSession {world : World} {entry : Entry}
    (hworld : InSession world) (hbound : SessionBound ipv6AddrFromStr world entry) :
    NoMemoryOnlyWhenFull ipv6AddrFromStr world entry := by
  obtain ⟨command, args, answers⟩ := entry
  intro hcommand hprinted
  obtain rfl : command = .sub := hcommand
  obtain ⟨⟨name, hname, -⟩, hfull⟩ :=
    (printed_noMemory_iff answers args world.client).mp hprinted
  have hargs : args ≠ [] := by
    intro hargs
    simp [hargs] at hname
  cases hsession : world.session with
  | none => exact absurd hfull (hbound.2 rfl hargs hsession)
  | some topics =>
      refine ⟨topics, rfl, ?_⟩
      rw [← firstFree_tableOf] at hfull
      have hcard := ncard_liveNames_of_full (hworld.first (by simp [hsession]))
        (liveNamed_tableOf hworld.rows) hfull
      rwa [hworld.agrees topics hsession, Set.ncard_coe_finset] at hcard

/-- A command after which the table agrees with the session, and which does not
run out of memory without one, is within the bound. -/
theorem sessionBound_of_agrees {world : World} {entry : Entry} (hrows : RowsIntact world)
    (hshort : ShortName entry) (hnext : Agrees (step ipv6AddrFromStr world entry))
    (hmemory : NoMemoryOnlyWhenFull ipv6AddrFromStr world entry) :
    SessionBound ipv6AddrFromStr world entry := by
  obtain ⟨command, args, answers⟩ := entry
  refine ⟨?_, ?_⟩
  · -- an accepted `emcute_con` starts without topics, so no name may be held
    rintro rfl haddress haccepted i
    by_contra hactive
    have hclient : (step ipv6AddrFromStr world ⟨.con, args, answers⟩).client = world.client :=
      (run_of_other ipv6AddrFromStr ⟨.con, args, answers⟩ (by simp) (by simp)
        world.client).1
    have hsession := session_con ipv6AddrFromStr world args answers
    rw [if_pos ⟨haddress, haccepted⟩] at hsession
    have hnone := hnext ∅ hsession
    rw [hclient, heldNames_eq_liveNames hrows, Finset.coe_empty] at hnone
    obtain ⟨name, hname⟩ := liveNamed_tableOf hrows i (live_tableOf.mpr hactive)
    have hheld : name ∈ liveNames (tableOf world) := ⟨i, live_tableOf.mpr hactive, hname⟩
    simp [hnone] at hheld
  · intro hcommand hargs hnone hfull
    obtain rfl : command = .sub := hcommand
    -- the line would be printed without a session
    obtain ⟨name, rest, rfl⟩ := List.exists_cons_of_ne_nil hargs
    obtain ⟨topics, htopics, -⟩ := hmemory rfl
      ((printed_noMemory_iff answers (name :: rest) world.client).mpr
        ⟨⟨name, rfl, (hshort rfl name rfl).le⟩, hfull⟩)
    simp [hnone] at htopics

/-! ## The main statement -/

/-- **When the table and the session agree.**  In a run with short topic names,
none subscribed twice, the active slots hold at every point the topics of the
current session, and `cmd_sub` runs out of memory only for 16 of them, if and
only if no `emcute_con` is accepted while a slot is active and no `cmd_sub` meets
a full table without a session. -/
theorem session_agrees_iff (entries : List Entry)
    (hregular : Along (step ipv6AddrFromStr) Regular World.initial entries) :
    ((∀ before later, entries = before ++ later →
        Agrees (after (step ipv6AddrFromStr) World.initial before)) ∧
      Along (step ipv6AddrFromStr) (NoMemoryOnlyWhenFull ipv6AddrFromStr) World.initial
        entries) ↔
    Along (step ipv6AddrFromStr) (SessionBound ipv6AddrFromStr) World.initial entries := by
  constructor
  · intro hboth
    obtain ⟨hagrees, hmemory⟩ := hboth
    rw [along_iff_forall_split] at hmemory ⊢
    rintro before entry later rfl
    have hrows := after_rowsIntact ipv6AddrFromStr
      (((along_append _ _ _).mp hregular).1.mono fun _ _ hentry => hentry.1.fitsRow)
    have hshort := (along_iff_forall_split.mp hregular before entry later rfl).1
    have hnext := hagrees (before ++ [entry]) later (by simp)
    rw [after_concat] at hnext
    exact sessionBound_of_agrees ipv6AddrFromStr hrows hshort hnext
      (hmemory before entry later rfl)
  · intro hbound
    refine ⟨?_, ?_⟩
    · intro before later heq
      rw [heq, along_append] at hregular hbound
      exact (after_inSession ipv6AddrFromStr hregular.1 hbound.1).heldNames_eq
    · rw [along_iff_forall_split]
      rintro before entry later rfl
      exact noMemoryOnlyWhenFull_of_inSession ipv6AddrFromStr
        (after_inSession ipv6AddrFromStr ((along_append _ _ _).mp hregular).1
          ((along_append _ _ _).mp hbound).1)
        (along_iff_forall_split.mp hbound before entry later rfl)

/-- Connect, subscribe to a topic, disconnect, and connect again. -/
def reconnected : List Entry :=
  [accepted .con [gatewayAddress] 0, accepted .sub [hello] 1,
    accepted .discon [] 0, accepted .con [gatewayAddress] 0]

theorem session_agrees_iff_reconnected :
    ((∀ before later, reconnected = before ++ later →
        Agrees (after (step gatewayFromStr) World.initial before)) ∧
      Along (step gatewayFromStr) (NoMemoryOnlyWhenFull gatewayFromStr) World.initial
        reconnected) ↔
    Along (step gatewayFromStr) (SessionBound gatewayFromStr) World.initial reconnected :=
  session_agrees_iff gatewayFromStr reconnected (by decide)

/-- After a reconnect the table holds a topic that the new session does not. -/
theorem exists_not_agrees :
    ¬ ∀ (ipv6AddrFromStr : Text → Option Ipv6Addr) (entries : List Entry),
      (∀ entry ∈ entries, entry.command = .con ∨ entry.command = .discon ∨
        entry.command = .sub ∨ entry.command = .unsub) →
      Along (step ipv6AddrFromStr) Regular World.initial entries →
        Agrees (after (step ipv6AddrFromStr) World.initial entries) ∧
          Along (step ipv6AddrFromStr) (NoMemoryOnlyWhenFull ipv6AddrFromStr) World.initial
            entries := by
  intro hclaim
  have hagrees := (hclaim gatewayFromStr reconnected (by decide) (by decide)).1
  have hheld : hello ∈ heldNames (after (step gatewayFromStr) World.initial reconnected).client :=
    ⟨0, by decide, by decide⟩
  rw [hagrees ∅ (by decide)] at hheld
  simp at hheld

end AwsIotSensors.Emcute
