import AwsIotSensors.Emcute.Commands

/-!
# The rows of `topics`

`cmd_sub` accepts names of up to `TOPIC_MAXLEN` = 64 `char`s and copies them,
with the terminator, into a row of 64.  A name of exactly 64 `char`s puts its
terminator on the first cell of the next row (`writes_inRow_iff`): it empties
the neighbour's name, and it loses its own end as soon as the neighbour is
filled.

`topics_intact_iff` says that nothing else can go wrong: in the runs of the shell
in which no name of exactly 64 `char`s reaches the copy, and in no others, every
copy stays in its row and the string in the row of every active slot is the name
that was given for it.  The invariant behind it is `RowsIntact`: every slot with
a name points at its own row, where a string that ends inside the row is the
name of the last copy into it.
-/

namespace AwsIotSensors.Emcute

open CString Runs

variable (ipv6AddrFromStr : Text → Option Ipv6Addr)

/-! ## Runs of the shell -/

/-- The shell with what it cannot see: the session the gateway holds, and the
`argv[1]` of the last `cmd_sub` that chose each slot. -/
structure World where
  client : Client
  session : Option (Finset Text)
  filledBy : Fin numofsubs → Option Text

/-- The start of `main`, before any connection. -/
def World.initial : World := ⟨Client.initial, none, fun _ => none⟩

/-- One command. -/
def step (world : World) (entry : Entry) : World :=
  let outcome := entry.run ipv6AddrFromStr world.client
  { client := outcome.client
    session := session world.session outcome.exchanges
    filledBy := match outcome.copy with
      | some copy => Function.update world.filledBy copy.slot (some copy.name)
      | none => world.filledBy }

/-- A successful `emcute_sub` stores a nonzero topic id. -/
def GrantsId (entry : Entry) : Prop :=
  entry.command = .sub → (entry.answers 0).accepted → (entry.answers 0).id ≠ 0

instance (entry : Entry) : Decidable (GrantsId entry) :=
  inferInstanceAs (Decidable (_ → _ → _))

/-! ## What the commands do to the table -/

theorem run_sub (args : List Text) (answers : ℕ → Answer) (client : Client) :
    Entry.run ipv6AddrFromStr ⟨.sub, args, answers⟩ client = cmdSub answers args client := rfl

theorem run_unsub (args : List Text) (answers : ℕ → Answer) (client : Client) :
    Entry.run ipv6AddrFromStr ⟨.unsub, args, answers⟩ client = cmdUnsub answers args client :=
  rfl

theorem cmdSub_of_long {answers : ℕ → Answer} {name : Text} {rest : List Text} {client : Client}
    (hlong : topicMaxlen < strlen name) :
    cmdSub answers (name :: rest) client =
      .stop client "error: topic name exceeds maximum possible size" := by
  unfold cmdSub
  exact if_pos hlong

theorem cmdSub_of_full {answers : ℕ → Answer} {name : Text} {rest : List Text} {client : Client}
    (hshort : strlen name ≤ topicMaxlen) (hfull : client.firstFree = none) :
    cmdSub answers (name :: rest) client =
      .stop client "error: no memory to store new subscriptions" := by
  have hnot : ¬ strlen name > topicMaxlen := hshort.not_gt
  unfold cmdSub
  dsimp only
  rw [if_neg hnot, hfull]

theorem cmdSub_of_free (answers : ℕ → Answer) {name : Text} (rest : List Text) {client : Client}
    {i : Fin numofsubs} (hshort : strlen name ≤ topicMaxlen) (hfree : client.firstFree = some i) :
    cmdSub answers (name :: rest) client =
      { client := (client.prepare i name).emcuteSub i (answers 0)
        ret := if (answers 0).accepted then 0 else 1
        printed := [if (answers 0).accepted then "Now subscribed to " ++ name.toString
          else "error: unable to subscribe to " ++ name.toString]
        exchanges := [⟨.sub name (qosOf rest), answers 0⟩]
        copy := some ⟨i, name⟩ } := by
  have hnot : ¬ strlen name > topicMaxlen := hshort.not_gt
  unfold cmdSub
  dsimp only
  rw [if_neg hnot, hfree]
  dsimp only
  split
  · rfl
  · rfl

theorem cmdUnsub_of_absent {answers : ℕ → Answer} {name : Text} (rest : List Text)
    {client : Client} (habsent : client.firstNamed name = none) :
    cmdUnsub answers (name :: rest) client =
      .stop client ("error: no subscription for topic '" ++ name.toString ++ "' found") := by
  unfold cmdUnsub
  dsimp only
  rw [habsent]

theorem cmdUnsub_of_named (answers : ℕ → Answer) {name : Text} (rest : List Text)
    {client : Client} {i : Fin numofsubs} (hnamed : client.firstNamed name = some i) :
    cmdUnsub answers (name :: rest) client =
      { client := if (answers 0).accepted then client.clear i else client
        ret := 0
        printed := [if (answers 0).accepted then "Unsubscribed from '" ++ name.toString ++ "'"
          else "Unsubscription form '" ++ name.toString ++ "' failed"]
        exchanges := [⟨.unsub name, answers 0⟩]
        copy := none } := by
  unfold cmdUnsub
  dsimp only
  rw [hnamed]
  dsimp only
  split
  · rfl
  · rfl

/-- The other commands leave the table alone. -/
theorem run_of_other (entry : Entry) (hsub : entry.command ≠ .sub)
    (hunsub : entry.command ≠ .unsub) (client : Client) :
    (entry.run ipv6AddrFromStr client).client = client ∧
      (entry.run ipv6AddrFromStr client).copy = none := by
  unfold Entry.run
  cases hcommand : entry.command with
  | sub => exact absurd hcommand hsub
  | unsub => exact absurd hcommand hunsub
  | con =>
      simp only [cmdCon]
      split
      · exact ⟨rfl, rfl⟩
      · split
        · exact ⟨rfl, rfl⟩
        · split <;> exact ⟨rfl, rfl⟩
  | discon =>
      simp only [cmdDiscon]
      split <;> exact ⟨rfl, rfl⟩
  | pub =>
      simp only [cmdPub]
      split
      · split
        · split <;> exact ⟨rfl, rfl⟩
        · exact ⟨rfl, rfl⟩
      · exact ⟨rfl, rfl⟩
  | will =>
      simp only [cmdWill]
      split
      · split
        · split <;> exact ⟨rfl, rfl⟩
        · exact ⟨rfl, rfl⟩
      · exact ⟨rfl, rfl⟩

/-- **What a command can do to the table.**  It keeps it, or it is a `cmd_sub`
that fills the first free slot, or a `cmd_unsub` that clears the first slot of
its name. -/
inductive Change (world : World) (entry : Entry) (later : World) : Prop
  | keep (hclient : later.client = world.client) (hfilledBy : later.filledBy = world.filledBy)
      (hsub : entry.command = .sub → later.session = world.session ∧
        ∀ name ∈ entry.args.head?, topicMaxlen < strlen name ∨ world.client.firstFree = none)
      (hunsub : entry.command = .unsub → later.session = world.session ∧
        ∀ name ∈ entry.args.head?, (entry.answers 0).accepted →
          world.client.firstNamed name = none)
  | fill (i : Fin numofsubs) (name : Text) (flags : Qos) (hcommand : entry.command = .sub)
      (hname : entry.args.head? = some name) (hshort : strlen name ≤ topicMaxlen)
      (hfree : world.client.firstFree = some i)
      (hclient : later.client = (world.client.prepare i name).emcuteSub i (entry.answers 0))
      (hfilledBy : later.filledBy = Function.update world.filledBy i (some name))
      (hsession : later.session = session world.session [⟨.sub name flags, entry.answers 0⟩])
  | clear (i : Fin numofsubs) (name : Text) (hcommand : entry.command = .unsub)
      (hname : entry.args.head? = some name) (haccepted : (entry.answers 0).accepted)
      (hnamed : world.client.firstNamed name = some i)
      (hclient : later.client = world.client.clear i) (hfilledBy : later.filledBy = world.filledBy)
      (hsession : later.session = session world.session [⟨.unsub name, entry.answers 0⟩])

/-- A handler that stops early changes nothing. -/
theorem step_of_stop {world : World} {entry : Entry} {line : String}
    (hrun : entry.run ipv6AddrFromStr world.client = .stop world.client line) :
    step ipv6AddrFromStr world entry = world := by
  unfold step
  rw [hrun]
  rfl

theorem cmdSub_change (world : World) (args : List Text) (answers : ℕ → Answer) :
    Change world ⟨.sub, args, answers⟩ (step ipv6AddrFromStr world ⟨.sub, args, answers⟩) := by
  cases args with
  | nil => exact .keep rfl rfl (fun _ => ⟨rfl, by simp⟩) (by simp)
  | cons name rest =>
      have hkeep (hreason : topicMaxlen < strlen name ∨ world.client.firstFree = none)
          (hsame : step ipv6AddrFromStr world ⟨.sub, name :: rest, answers⟩ = world) :
          Change world ⟨.sub, name :: rest, answers⟩
            (step ipv6AddrFromStr world ⟨.sub, name :: rest, answers⟩) := by
        rw [hsame]
        exact .keep rfl rfl (fun _ => ⟨rfl, by simpa using hreason⟩) (by simp)
      rcases Nat.lt_or_ge topicMaxlen (strlen name) with hlong | hshort
      · exact hkeep (Or.inl hlong) (step_of_stop _ (cmdSub_of_long hlong))
      · cases hfree : world.client.firstFree with
        | none => exact hkeep (Or.inr hfree) (step_of_stop _ (cmdSub_of_full hshort hfree))
        | some i =>
            have hrun := cmdSub_of_free answers rest hshort hfree
            refine .fill i name (qosOf rest) rfl rfl hshort hfree ?_ ?_ ?_
            all_goals simp only [step, Entry.run, hrun]

theorem cmdUnsub_change (world : World) (args : List Text) (answers : ℕ → Answer) :
    Change world ⟨.unsub, args, answers⟩
      (step ipv6AddrFromStr world ⟨.unsub, args, answers⟩) := by
  cases args with
  | nil => exact .keep rfl rfl (by simp) (fun _ => ⟨rfl, by simp⟩)
  | cons name rest =>
      cases hnamed : world.client.firstNamed name with
      | none =>
          have hsame : step ipv6AddrFromStr world ⟨.unsub, name :: rest, answers⟩ = world :=
            step_of_stop _ (cmdUnsub_of_absent rest hnamed)
          rw [hsame]
          exact .keep rfl rfl (by simp) (fun _ => ⟨rfl, by simpa using fun _ => hnamed⟩)
      | some i =>
          have hstep : step ipv6AddrFromStr world ⟨.unsub, name :: rest, answers⟩ =
              { world with
                client := if (answers 0).accepted then world.client.clear i else world.client
                session := session world.session [⟨.unsub name, answers 0⟩] } := by
            simp only [step, Entry.run, cmdUnsub_of_named answers rest hnamed]
          rw [hstep]
          cases haccepted : (answers 0).accepted with
          | false =>
              -- a refused call changes neither the table nor the session
              refine .keep rfl rfl (by simp) (fun _ => ⟨?_, by simp [haccepted]⟩)
              simp [session, Exchange.session, haccepted]
          | true => exact .clear i name rfl rfl haccepted hnamed rfl rfl rfl

theorem step_change (world : World) (entry : Entry) :
    Change world entry (step ipv6AddrFromStr world entry) := by
  obtain ⟨command, args, answers⟩ := entry
  by_cases hsub : command = .sub
  · subst hsub
    exact cmdSub_change ipv6AddrFromStr world args answers
  · by_cases hunsub : command = .unsub
    · subst hunsub
      exact cmdUnsub_change ipv6AddrFromStr world args answers
    · obtain ⟨hclient, hcopy⟩ :=
        run_of_other ipv6AddrFromStr ⟨command, args, answers⟩ hsub hunsub world.client
      exact .keep hclient (by simp only [step, hcopy]) (fun h => absurd h hsub)
        (fun h => absurd h hunsub)

/-- The slot `cmd_sub` leaves behind. -/
theorem subscriptions_emcuteSub_prepare (client : Client) (i : Fin numofsubs) (name : Text)
    (answer : Answer) :
    ((client.prepare i name).emcuteSub i answer).subscriptions =
      Function.update client.subscriptions i
        ⟨⟨some (rowStart i), if answer.accepted then answer.id
          else (client.subscriptions i).topic.id⟩, some .onPub⟩ := by
  unfold Client.emcuteSub
  split <;> simp [Client.prepare]

theorem topics_emcuteSub_prepare (client : Client) (i : Fin numofsubs) (name : Text)
    (answer : Answer) :
    ((client.prepare i name).emcuteSub i answer).topics =
      strcpy client.topics (rowStart i) name := by
  unfold Client.emcuteSub
  split <;> rfl

/-- A subscription that leaves its slot with the id it has changes no id. -/
theorem ids_copy_of_same {client : Client} {i : Fin numofsubs} {name : Text} {answer : Answer}
    (hsame : answer.accepted → answer.id = (client.subscriptions i).topic.id)
    (j : Fin numofsubs) :
    (((client.prepare i name).emcuteSub i answer).subscriptions j).topic.id =
      (client.subscriptions j).topic.id := by
  rw [subscriptions_emcuteSub_prepare]
  by_cases hj : j = i
  · subst hj
    rw [Function.update_self]
    split
    · next haccepted => exact hsame haccepted
    · rfl
  · rw [Function.update_of_ne hj]

theorem firstFree_copy_of_same {client : Client} {i : Fin numofsubs} {name : Text}
    {answer : Answer} (hsame : answer.accepted → answer.id = (client.subscriptions i).topic.id) :
    ((client.prepare i name).emcuteSub i answer).firstFree = client.firstFree := by
  unfold Client.firstFree
  simp only [ids_copy_of_same hsame]

/-! ## The rows -/

theorem rowStart_disjoint {i j : Fin numofsubs} (hne : i ≠ j) :
    rowStart i + topicMaxlen ≤ rowStart j ∨ rowStart j + topicMaxlen ≤ rowStart i := by
  have hval : i.val ≠ j.val := fun heq => hne (Fin.ext heq)
  unfold rowStart topicMaxlen
  omega

/-- A copy stays in its row. -/
def Copy.InRow (copy : Copy) : Prop :=
  ∀ write ∈ copy.writes,
    rowStart copy.slot ≤ write.1 ∧ write.1 < rowStart copy.slot + topicMaxlen

/-- A copy stays in its row if and only if the name is shorter than the row: its
last write is the terminator. -/
theorem writes_inRow_iff (copy : Copy) : copy.InRow ↔ strlen copy.name < topicMaxlen := by
  constructor
  · intro hinRow
    have hlast := (hinRow _ (terminator_mem_strcpyWrites _ _)).2
    unfold strlen
    simpa using hlast
  · intro hshort write hwrite
    have hrange := mem_strcpyWrites hwrite
    unfold strlen at hshort
    omega

/-- The invariant: a slot with a name points at its own row, which holds the name
of the last copy into it, ended inside the row; a slot without one is not active. -/
structure RowsIntact (world : World) : Prop where
  named : ∀ i address, (world.client.subscriptions i).topic.name = some address →
    address = rowStart i ∧ ∃ name, world.filledBy i = some name ∧
      strlen name < topicMaxlen ∧ CStringAt world.client.topics (rowStart i) name
  unnamed : ∀ i, (world.client.subscriptions i).topic.name = none →
    (world.client.subscriptions i).topic.id = 0

/-- No name of exactly `TOPIC_MAXLEN` `char`s reaches the copy of `cmd_sub`. -/
def FitsRow (world : World) (entry : Entry) : Prop :=
  entry.command = .sub → ∀ name ∈ entry.args.head?,
    strlen name ≠ topicMaxlen ∨ world.client.firstFree = none

instance (world : World) (entry : Entry) : Decidable (FitsRow world entry) :=
  inferInstanceAs (Decidable (_ → ∀ _ ∈ _, _))

theorem initial_rowsIntact : RowsIntact World.initial := by
  refine ⟨?_, ?_⟩
  · intro i address hname
    simp [World.initial, Client.initial, Subscription.zero] at hname
  · intro i _
    rfl

/-- A copy of a short name into a free slot keeps the rows of the others. -/
theorem rowsIntact_of_copy {world later : World} (hworld : RowsIntact world)
    {i : Fin numofsubs} {name : Text} {answer : Answer} (hshort : strlen name < topicMaxlen)
    (hclient : later.client = (world.client.prepare i name).emcuteSub i answer)
    (hfilledBy : later.filledBy = Function.update world.filledBy i (some name)) :
    RowsIntact later := by
  have hsubscriptions := subscriptions_emcuteSub_prepare world.client i name answer
  have htopics := topics_emcuteSub_prepare world.client i name answer
  rw [← hclient] at hsubscriptions htopics
  refine ⟨?_, ?_⟩
  · intro j address hname
    rw [hsubscriptions] at hname
    rw [hfilledBy, htopics]
    by_cases hj : j = i
    · subst hj
      rw [Function.update_self] at hname
      refine ⟨(Option.some.inj hname).symm, name, Function.update_self .., hshort,
        cstringAt_strcpy ..⟩
    · rw [Function.update_of_ne hj] at hname
      obtain ⟨haddress, kept, hkept, hkeptShort, hreads⟩ := hworld.named j address hname
      refine ⟨haddress, kept, by rw [Function.update_of_ne hj, hkept], hkeptShort,
        cstringAt_strcpy_of_disjoint hreads ?_⟩
      -- both strings end inside their rows
      rcases rowStart_disjoint hj with hbelow | habove
      · exact Or.inl (by omega)
      · exact Or.inr (by omega)
  · intro j hname
    rw [hsubscriptions] at hname ⊢
    by_cases hj : j = i
    · subst hj
      simp at hname
    · rw [Function.update_of_ne hj] at hname ⊢
      exact hworld.unnamed j hname

/-- Clearing a slot keeps the rows. -/
theorem rowsIntact_of_clear {world later : World} (hworld : RowsIntact world)
    {i : Fin numofsubs} (hclient : later.client = world.client.clear i)
    (hfilledBy : later.filledBy = world.filledBy) : RowsIntact later := by
  refine ⟨?_, ?_⟩
  · intro j address hname
    rw [hclient] at hname ⊢
    rw [hfilledBy]
    by_cases hj : j = i
    · subst hj
      simp [Client.clear, Subscription.zero] at hname
    · simp only [Client.clear, Function.update_of_ne hj] at hname ⊢
      exact hworld.named j address hname
  · intro j hname
    rw [hclient] at hname ⊢
    by_cases hj : j = i
    · subst hj
      simp [Client.clear, Subscription.zero]
    · simp only [Client.clear, Function.update_of_ne hj] at hname ⊢
      exact hworld.unnamed j hname

theorem rowsIntact_of_same {world later : World} (hworld : RowsIntact world)
    (hclient : later.client = world.client) (hfilledBy : later.filledBy = world.filledBy) :
    RowsIntact later := by
  refine ⟨?_, ?_⟩
  · rw [hclient, hfilledBy]
    exact hworld.named
  · rw [hclient]
    exact hworld.unnamed

theorem step_rowsIntact (world : World) (entry : Entry) (hworld : RowsIntact world)
    (hfits : FitsRow world entry) : RowsIntact (step ipv6AddrFromStr world entry) := by
  cases step_change ipv6AddrFromStr world entry with
  | keep hclient hfilledBy => exact rowsIntact_of_same hworld hclient hfilledBy
  | fill i name flags hcommand hname hshort hfree hclient hfilledBy =>
      have hne : strlen name ≠ topicMaxlen :=
        (hfits hcommand name hname).resolve_right (by simp [hfree])
      exact rowsIntact_of_copy hworld (lt_of_le_of_ne hshort hne) hclient hfilledBy
  | clear i name hcommand hname haccepted hnamed hclient hfilledBy =>
      exact rowsIntact_of_clear hworld hclient hfilledBy

/-- The rows are intact after every run in which no name of exactly 64 `char`s
reaches the copy. -/
theorem after_rowsIntact {entries : List Entry}
    (hfits : Along (step ipv6AddrFromStr) FitsRow World.initial entries) :
    RowsIntact (after (step ipv6AddrFromStr) World.initial entries) :=
  invariant RowsIntact initial_rowsIntact (step_rowsIntact ipv6AddrFromStr) hfits

/-! ## The names of the active slots -/

/-- The C string in the row of every active slot is the `argv[1]` of the `cmd_sub`
that filled the slot. -/
def TopicsIntact (world : World) : Prop :=
  ∀ i, (world.client.subscriptions i).topic.id ≠ 0 →
    ∃ name, world.filledBy i = some name ∧ CStringAt world.client.topics (rowStart i) name

/-- A command that copies a name writes into the row of its slot only. -/
def WritesInRow (world : World) (entry : Entry) : Prop :=
  ∀ copy ∈ (entry.run ipv6AddrFromStr world.client).copy, copy.InRow

theorem RowsIntact.topicsIntact {world : World} (hworld : RowsIntact world) :
    TopicsIntact world := by
  intro i hactive
  cases hname : (world.client.subscriptions i).topic.name with
  | none => exact absurd (hworld.unnamed i hname) hactive
  | some address =>
      obtain ⟨-, name, hfilledBy, -, hreads⟩ := hworld.named i address hname
      exact ⟨name, hfilledBy, hreads⟩

theorem copy_cmdUnsub (answers : ℕ → Answer) (args : List Text) (client : Client) :
    (cmdUnsub answers args client).copy = none := by
  cases args with
  | nil => rfl
  | cons name rest =>
      cases hnamed : client.firstNamed name with
      | none => rw [cmdUnsub_of_absent _ hnamed, Outcome.stop]
      | some i => rw [cmdUnsub_of_named _ _ hnamed]

/-- What `cmd_sub` copies: a name of at most 64 `char`s, into the first free slot. -/
theorem copy_cmdSub (answers : ℕ → Answer) (args : List Text) {client : Client} {copy : Copy}
    (hcopy : (cmdSub answers args client).copy = some copy) :
    args.head? = some copy.name ∧ strlen copy.name ≤ topicMaxlen ∧
      client.firstFree = some copy.slot := by
  cases args with
  | nil => exact absurd hcopy (by simp [cmdSub, Outcome.stop])
  | cons name rest =>
      rcases Nat.lt_or_ge topicMaxlen (strlen name) with hlong | hshort
      · rw [cmdSub_of_long hlong, Outcome.stop] at hcopy
        exact absurd hcopy (by simp)
      · cases hfree : client.firstFree with
        | none =>
            rw [cmdSub_of_full hshort hfree, Outcome.stop] at hcopy
            exact absurd hcopy (by simp)
        | some i =>
            rw [cmdSub_of_free _ _ hshort hfree] at hcopy
            obtain rfl : ⟨i, name⟩ = copy := Option.some.inj hcopy
            exact ⟨rfl, hshort, rfl⟩

/-- A command writes into the row of its slot only if and only if it does not copy
a name of exactly 64 `char`s. -/
theorem writesInRow_iff_fitsRow (world : World) (entry : Entry) :
    WritesInRow ipv6AddrFromStr world entry ↔ FitsRow world entry := by
  obtain ⟨command, args, answers⟩ := entry
  constructor
  · rintro hwrites rfl name hname
    obtain ⟨rest, rfl⟩ : ∃ rest, args = name :: rest := List.head?_eq_some_iff.mp hname
    -- a name that fills the row puts its terminator behind it
    by_contra hnot
    push Not at hnot
    obtain ⟨hfull, hfree⟩ := hnot
    obtain ⟨i, hfree⟩ := Option.ne_none_iff_exists'.mp hfree
    have hcopy : (cmdSub answers (name :: rest) world.client).copy = some ⟨i, name⟩ := by
      rw [cmdSub_of_free answers rest hfull.le hfree]
    have hshort := (writes_inRow_iff ⟨i, name⟩).mp (hwrites ⟨i, name⟩ hcopy)
    exact absurd hfull hshort.ne
  · intro hfits copy hcopy
    by_cases hsub : command = .sub
    · subst hsub
      obtain ⟨hhead, hshort, hfree⟩ := copy_cmdSub answers args hcopy
      have hne : strlen copy.name ≠ topicMaxlen :=
        (hfits rfl copy.name hhead).resolve_right (by simp [hfree])
      rw [writes_inRow_iff]
      exact lt_of_le_of_ne hshort hne
    · by_cases hunsub : command = .unsub
      · subst hunsub
        have hnone := copy_cmdUnsub answers args world.client
        exact absurd (hcopy.symm.trans hnone) (by simp)
      · have hnone := (run_of_other ipv6AddrFromStr ⟨command, args, answers⟩ hsub
          hunsub world.client).2
        exact absurd (hcopy.symm.trans hnone) (by simp)

/-- **When topic names stay intact.**  In a run of the shell, the string in the
row of every active slot is at every point the name given to the `cmd_sub` that
filled it, and no `cmd_sub` writes outside the row of its slot, if and only if
no name of exactly `TOPIC_MAXLEN` `char`s reaches the copy of `cmd_sub`. -/
theorem topics_intact_iff (entries : List Entry) :
    ((∀ before later, entries = before ++ later →
        TopicsIntact (after (step ipv6AddrFromStr) World.initial before)) ∧
      Along (step ipv6AddrFromStr) (WritesInRow ipv6AddrFromStr) World.initial entries) ↔
    Along (step ipv6AddrFromStr) FitsRow World.initial entries := by
  constructor
  · intro hboth
    obtain ⟨-, hwrites⟩ := hboth
    exact hwrites.mono fun world entry => (writesInRow_iff_fitsRow _ world entry).mp
  · intro hfits
    refine ⟨?_, ?_⟩
    · intro before later heq
      rw [heq, along_append] at hfits
      exact (after_rowsIntact _ hfits.1).topicsIntact
    · exact hfits.mono fun world entry => (writesInRow_iff_fitsRow _ world entry).mpr

/-- An entry whose emCute calls are all accepted. -/
def accepted (command : Command) (args : List Text) (id : UInt16) : Entry :=
  ⟨command, args, fun _ => ⟨.ok, id⟩⟩

/-- A short topic name. -/
def hello : Text := .ofString "hello"

/-- Another topic. -/
def weather : Text := .ofString "weather"

/-- A topic name of exactly `TOPIC_MAXLEN` `char`s. -/
def fullRow : Text := ⟨List.replicate topicMaxlen 'a', by decide⟩

/-- A name of 64 `char`s in slot 0 runs on into the name in slot 1. -/
theorem exists_not_topicsIntact :
    ¬ ∀ (ipv6AddrFromStr : Text → Option Ipv6Addr) (entries : List Entry),
      (∀ entry ∈ entries, entry.command = .sub ∨ entry.command = .unsub) →
      Along (step ipv6AddrFromStr) (fun _ entry => GrantsId entry) World.initial entries →
        TopicsIntact (after (step ipv6AddrFromStr) World.initial entries) ∧
          Along (step ipv6AddrFromStr) (WritesInRow ipv6AddrFromStr) World.initial entries := by
  intro hclaim
  have hintact := (hclaim (fun _ => none)
    [accepted .sub [fullRow] 1, accepted .sub [hello] 2] (by decide) (by decide)).1
  obtain ⟨name, hfilledBy, hreads⟩ := hintact 0 (by decide)
  obtain rfl : fullRow = name := Option.some.inj hfilledBy
  exact absurd hreads (by decide)

end AwsIotSensors.Emcute
