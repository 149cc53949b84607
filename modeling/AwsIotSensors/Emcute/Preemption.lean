import AwsIotSensors.Emcute.Publications

/-!
# Publications during a command

The thread of emCute has a higher priority than the shell.  A publication can arrive
between any two statements of a handler, also between two `char`s of a copy, and
`on_pub` is then at its end before the handler goes on.

`Instr` has the statements that change the table, and `instrs` those of a command;
executed to the end they leave what the handler leaves (`client_command`).  For which
slots emCute calls back is its own affair (`Library`); what is used of that is what it
promises (`Library.Documented`).

`reported_at_every_moment` is about all that lies between: whatever statements of
whatever run have been executed, a slot that emCute calls back for reports the name and
the id of one accepted `emcute_sub`.

## Strategy

The statements of `cmd_sub` stay in the record and the row of a free slot, and those of
`cmd_unsub` in the record of one slot (`Instr.Within`).  So the other slots are as they
were (`after_sameAt`).  The slot itself is not called back for in the meantime: `emcute_sub`
is the last statement of `cmd_sub`, and `emcute_unsub` comes before the first of the
`memset`.
-/

namespace AwsIotSensors.Emcute

open CString Runs

variable (ipv6AddrFromStr : Text → Option Ipv6Addr)

/-! ## emCute -/

/-- The part of emCute that decides for which slots it calls back.  Its state is its own;
it changes with the calls that are accepted, and calls that are refused or of another kind
add no slot. -/
structure Library where
  State : Type
  start : State
  /-- An accepted `emcute_sub` on the subscription in a slot. -/
  emcuteSub : State → Fin numofsubs → State
  /-- An accepted `emcute_unsub` on it. -/
  emcuteUnsub : State → Fin numofsubs → State
  /-- A publication may be passed to the callback of the slot. -/
  CallsBack : State → Fin numofsubs → Prop

/-- What emCute promises: it calls back for subscriptions that were accepted, and not once
they are given up. -/
structure Library.Documented (library : Library) : Prop where
  start : ∀ i, ¬ library.CallsBack library.start i
  emcuteSub : ∀ state i j, library.CallsBack (library.emcuteSub state i) j →
    j = i ∨ library.CallsBack state j
  emcuteUnsub : ∀ state i j, library.CallsBack (library.emcuteUnsub state i) j →
    j ≠ i ∧ library.CallsBack state j

variable {library : Library}

/-! ## The statements -/

/-- The table of the shell, and the state of emCute. -/
structure Board (library : Library) where
  client : Client
  emcute : library.State

variable (library) in
/-- The arrays are zeroed before the thread of emCute is created. -/
def Board.initial : Board library := ⟨Client.initial, library.start⟩

/-- A statement that changes the table or the state of emCute. -/
inductive Instr
  /-- `subscriptions[i].cb = on_pub`. -/
  | setCallback (i : Fin numofsubs)
  /-- One `char` of `strcpy`. -/
  | write (cell : ℕ) (char : Char)
  /-- `subscriptions[i].topic.name = topics[i]`. -/
  | setName (i : Fin numofsubs)
  /-- `emcute_sub`, accepted: it stores the id. -/
  | emcuteSub (i : Fin numofsubs) (id : UInt16)
  /-- `emcute_unsub`, accepted. -/
  | emcuteUnsub (i : Fin numofsubs)
  /-- The fields that `memset` zeroes. -/
  | zeroName (i : Fin numofsubs)
  | zeroId (i : Fin numofsubs)
  | zeroCallback (i : Fin numofsubs)
deriving DecidableEq

/-- Another record in a slot. -/
def Board.assign (board : Board library) (i : Fin numofsubs) (sub : Subscription) :
    Board library :=
  { board with client :=
      { board.client with subscriptions := Function.update board.client.subscriptions i sub } }

/-- One statement. -/
def Board.exec (board : Board library) : Instr → Board library
  | .setCallback i => board.assign i { board.client.subscriptions i with cb := some .onPub }
  | .write cell char =>
      { board with client :=
          { board.client with topics := Function.update board.client.topics cell char } }
  | .setName i =>
      let sub := board.client.subscriptions i
      board.assign i ⟨⟨some (rowStart i), sub.topic.id⟩, sub.cb⟩
  | .emcuteSub i id =>
      let sub := board.client.subscriptions i
      { board.assign i ⟨⟨sub.topic.name, id⟩, sub.cb⟩ with
        emcute := library.emcuteSub board.emcute i }
  | .emcuteUnsub i => { board with emcute := library.emcuteUnsub board.emcute i }
  | .zeroName i =>
      let sub := board.client.subscriptions i
      board.assign i ⟨⟨none, sub.topic.id⟩, sub.cb⟩
  | .zeroId i =>
      let sub := board.client.subscriptions i
      board.assign i ⟨⟨sub.topic.name, 0⟩, sub.cb⟩
  | .zeroCallback i => board.assign i { board.client.subscriptions i with cb := none }

/-- The statements of `strcpy(dst, chars)`. -/
def copyInstrs (dst : ℕ) (chars : List Char) : List Instr :=
  (strcpyWrites dst chars).map fun write => .write write.1 write.2

/-- The three assignments of `cmd_sub`. -/
def prepareInstrs (i : Fin numofsubs) (name : Text) : List Instr :=
  .setCallback i :: copyInstrs (rowStart i) name.chars ++ [.setName i]

/-- The `memset` of `cmd_unsub`. -/
def clearInstrs (i : Fin numofsubs) : List Instr := [.zeroName i, .zeroId i, .zeroCallback i]

/-- The statements of `cmd_sub` on a table. -/
def cmdSubInstrs (answers : ℕ → Answer) (args : List Text) (client : Client) : List Instr :=
  match args with
  | [] => []
  | name :: _ =>
      if strlen name > topicMaxlen then []
      else
        match client.firstFree with
        | none => []
        | some i =>
            if (answers 0).accepted then prepareInstrs i name ++ [.emcuteSub i (answers 0).id]
            else prepareInstrs i name

/-- The statements of `cmd_unsub` on a table. -/
def cmdUnsubInstrs (answers : ℕ → Answer) (args : List Text) (client : Client) : List Instr :=
  match args with
  | [] => []
  | name :: _ =>
      match client.firstNamed name with
      | none => []
      | some i => if (answers 0).accepted then .emcuteUnsub i :: clearInstrs i else []

/-- The statements of a command on a table. -/
def instrs (entry : Entry) (client : Client) : List Instr :=
  match entry.command with
  | .sub => cmdSubInstrs entry.answers entry.args client
  | .unsub => cmdUnsubInstrs entry.answers entry.args client
  | _ => []

/-- All statements of a command. -/
def Board.command (board : Board library) (entry : Entry) : Board library :=
  after Board.exec board (instrs entry board.client)

/-! ## The handler as its statements -/

theorem after_copyInstrs (board : Board library) (dst : ℕ) (chars : List Char) :
    after Board.exec board (copyInstrs dst chars) =
      { board with client :=
          { board.client with topics := store board.client.topics (strcpyWrites dst chars) } } := by
  unfold copyInstrs
  induction strcpyWrites dst chars generalizing board with
  | nil => rfl
  | cons write rest ih =>
      rw [List.map_cons, after_cons, ih]
      rfl

theorem after_prepareInstrs (board : Board library) (i : Fin numofsubs) (name : Text) :
    after Board.exec board (prepareInstrs i name) =
      { board with client := board.client.prepare i name } := by
  rw [prepareInstrs, List.cons_append, after_cons, after_concat, after_copyInstrs]
  simp only [Board.exec, Board.assign, Client.prepare, strcpy, Function.update_self,
    Function.update_idem]

theorem after_clearInstrs (board : Board library) (i : Fin numofsubs) :
    after Board.exec board (clearInstrs i) = { board with client := board.client.clear i } := by
  simp only [clearInstrs, after_cons, after_nil, Board.exec, Board.assign, Client.clear,
    Function.update_self, Function.update_idem, Subscription.zero]

/-- **What the statements of a command are**, beside the table that its handler leaves. -/
inductive Statements (client : Client) (entry : Entry) : Prop
  | none (hinstrs : instrs entry client = [])
      (hclient : (entry.run ipv6AddrFromStr client).client = client)
  | copy (i : Fin numofsubs) (name : Text) (flags : Qos) (hcommand : entry.command = .sub)
      (hname : entry.args.head? = some name) (hshort : strlen name ≤ topicMaxlen)
      (hfree : client.firstFree = some i)
      (hinstrs : instrs entry client = if (entry.answers 0).accepted then
        prepareInstrs i name ++ [.emcuteSub i (entry.answers 0).id] else prepareInstrs i name)
      (hclient : (entry.run ipv6AddrFromStr client).client =
        (client.prepare i name).emcuteSub i (entry.answers 0))
      (hexchanges : (entry.run ipv6AddrFromStr client).exchanges =
        [⟨.sub name flags, entry.answers 0⟩])
  | clear (i : Fin numofsubs) (hinstrs : instrs entry client = .emcuteUnsub i :: clearInstrs i)
      (hclient : (entry.run ipv6AddrFromStr client).client = client.clear i)

theorem cmdSub_statements (client : Client) (args : List Text) (answers : ℕ → Answer) :
    Statements ipv6AddrFromStr client ⟨.sub, args, answers⟩ := by
  cases args with
  | nil => exact .none rfl rfl
  | cons name rest =>
      rcases Nat.lt_or_ge topicMaxlen (strlen name) with hlong | hshort
      · refine .none (if_pos hlong) ?_
        rw [run_sub, cmdSub_of_long hlong, Outcome.stop]
      · have hinstrs : instrs ⟨.sub, name :: rest, answers⟩ client =
            match client.firstFree with
            | none => []
            | some i =>
                if (answers 0).accepted then prepareInstrs i name ++ [.emcuteSub i (answers 0).id]
                else prepareInstrs i name := if_neg hshort.not_gt
        cases hfree : client.firstFree with
        | none =>
            refine .none (by rw [hinstrs, hfree]) ?_
            rw [run_sub, cmdSub_of_full hshort hfree, Outcome.stop]
        | some i =>
            refine .copy i name (qosOf rest) rfl rfl hshort hfree (by rw [hinstrs, hfree]) ?_ ?_
            all_goals rw [run_sub, cmdSub_of_free answers rest hshort hfree]

theorem cmdUnsub_statements (client : Client) (args : List Text) (answers : ℕ → Answer) :
    Statements ipv6AddrFromStr client ⟨.unsub, args, answers⟩ := by
  cases args with
  | nil => exact .none rfl rfl
  | cons name rest =>
      have hinstrs : instrs ⟨.unsub, name :: rest, answers⟩ client =
          match client.firstNamed name with
          | none => []
          | some i => if (answers 0).accepted then .emcuteUnsub i :: clearInstrs i else [] := rfl
      cases hnamed : client.firstNamed name with
      | none =>
          refine .none (by rw [hinstrs, hnamed]) ?_
          rw [run_unsub, cmdUnsub_of_absent rest hnamed, Outcome.stop]
      | some i =>
          by_cases haccepted : (answers 0).accepted
          · refine .clear i (by rw [hinstrs, hnamed]; exact if_pos haccepted) ?_
            rw [run_unsub, cmdUnsub_of_named answers rest hnamed]
            exact if_pos haccepted
          · refine .none (by rw [hinstrs, hnamed]; exact if_neg haccepted) ?_
            rw [run_unsub, cmdUnsub_of_named answers rest hnamed]
            exact if_neg haccepted

theorem statements (client : Client) (entry : Entry) :
    Statements ipv6AddrFromStr client entry := by
  obtain ⟨command, args, answers⟩ := entry
  by_cases hsub : command = .sub
  · subst hsub
    exact cmdSub_statements ipv6AddrFromStr client args answers
  · by_cases hunsub : command = .unsub
    · subst hunsub
      exact cmdUnsub_statements ipv6AddrFromStr client args answers
    · have hclient :=
        (run_of_other ipv6AddrFromStr ⟨command, args, answers⟩ hsub hunsub client).1
      refine .none ?_ hclient
      cases command with
      | sub => exact absurd rfl hsub
      | unsub => exact absurd rfl hunsub
      | _ => rfl

/-- **The statements of a command leave the table that its handler leaves.** -/
theorem client_command (board : Board library) (entry : Entry) :
    (board.command entry).client = (entry.run ipv6AddrFromStr board.client).client := by
  unfold Board.command
  cases statements ipv6AddrFromStr board.client entry with
  | none hinstrs hclient => rw [hinstrs, hclient, after_nil]
  | clear i hinstrs hclient =>
      rw [hinstrs, hclient, after_cons, after_clearInstrs]
      rfl
  | copy i name flags hcommand hname hshort hfree hinstrs hclient hexchanges =>
      rw [hinstrs, hclient, Client.emcuteSub]
      split
      · rw [after_concat, after_prepareInstrs]
        rfl
      · rw [after_prepareInstrs]

variable (library) in
theorem client_after_command (entries : List Entry) :
    (after Board.command (Board.initial library) entries).client =
      (after (step ipv6AddrFromStr) World.initial entries).client := by
  induction entries using List.reverseRecOn with
  | nil => rfl
  | append_singleton before entry ih =>
      rw [after_concat, after_concat, client_command ipv6AddrFromStr, ih]
      rfl

/-! ## What the statements leave alone -/

/-- The statement is one on the record or the row of the slot. -/
def Instr.Within (k : Fin numofsubs) : Instr → Prop
  | .write cell _ => rowStart k ≤ cell ∧ cell < rowStart k + topicMaxlen
  | .setCallback i | .setName i | .emcuteSub i _ | .emcuteUnsub i | .zeroName i | .zeroId i
  | .zeroCallback i => i = k

/-- Record and row are the same for the slot, and emCute does not begin to call back for
it. -/
structure SameAt (j : Fin numofsubs) (board later : Board library) : Prop where
  slot : later.client.subscriptions j = board.client.subscriptions j
  callsBack : library.CallsBack later.emcute j → library.CallsBack board.emcute j
  row : ∀ cell, rowStart j ≤ cell → cell < rowStart j + topicMaxlen →
    later.client.topics cell = board.client.topics cell

section SameAt

variable (hdocumented : library.Documented)

include hdocumented

theorem exec_sameAt {board : Board library} {instr : Instr} {j k : Fin numofsubs}
    (hwithin : instr.Within k) (hne : j ≠ k) : SameAt j board (board.exec instr) := by
  cases instr with
  | write cell char =>
      refine ⟨rfl, id, fun other hlow hhigh => Function.update_of_ne ?_ ..⟩
      intro heq
      obtain ⟨hcell, hlast⟩ := hwithin
      rcases rowStart_disjoint hne with hbelow | habove <;> omega
  | emcuteSub i id =>
      obtain rfl : i = k := hwithin
      refine ⟨Function.update_of_ne hne .., ?_, fun _ _ _ => rfl⟩
      intro hcalls
      exact (hdocumented.emcuteSub board.emcute i j hcalls).resolve_left hne
  | emcuteUnsub i =>
      obtain rfl : i = k := hwithin
      refine ⟨rfl, ?_, fun _ _ _ => rfl⟩
      intro hcalls
      exact (hdocumented.emcuteUnsub board.emcute i j hcalls).2
  | setCallback i | setName i | zeroName i | zeroId i | zeroCallback i =>
      obtain rfl : i = k := hwithin
      exact ⟨Function.update_of_ne hne .., id, fun _ _ _ => rfl⟩

theorem after_sameAt {done : List Instr} {j k : Fin numofsubs}
    (hwithin : ∀ instr ∈ done, instr.Within k) (hne : j ≠ k) (board : Board library) :
    SameAt j board (after Board.exec board done) := by
  induction done generalizing board with
  | nil => exact ⟨rfl, id, fun _ _ _ => rfl⟩
  | cons instr rest ih =>
      obtain ⟨hfirst, hrest⟩ := List.forall_mem_cons.mp hwithin
      have hstep : SameAt j board (board.exec instr) := exec_sameAt hdocumented hfirst hne
      have hlater := ih hrest (board.exec instr)
      refine ⟨hlater.slot.trans hstep.slot, ?_, ?_⟩
      · exact fun hcalls => hstep.callsBack (hlater.callsBack hcalls)
      · exact fun cell hlow hhigh => (hlater.row cell hlow hhigh).trans (hstep.row cell hlow hhigh)

end SameAt

theorem within_prepareInstrs {i : Fin numofsubs} {name : Text}
    (hshort : strlen name < topicMaxlen) : ∀ instr ∈ prepareInstrs i name, instr.Within i := by
  intro instr hmem
  simp only [prepareInstrs, copyInstrs, List.cons_append, List.mem_cons, List.mem_append,
    List.mem_map, List.not_mem_nil, or_false] at hmem
  rcases hmem with rfl | ⟨write, hwrite, rfl⟩ | rfl
  · rfl
  · exact (writes_inRow_iff ⟨i, name⟩).mpr hshort write hwrite
  · rfl

theorem within_clearInstrs (i : Fin numofsubs) : ∀ instr ∈ clearInstrs i, instr.Within i := by
  simp [clearInstrs, Instr.Within]

/-- The statements of the shell itself. -/
def Instr.Quiet : Instr → Prop
  | .emcuteSub _ _ | .emcuteUnsub _ => False
  | _ => True

theorem emcute_after {done : List Instr} (hquiet : ∀ instr ∈ done, instr.Quiet)
    (board : Board library) : (after Board.exec board done).emcute = board.emcute := by
  induction done generalizing board with
  | nil => rfl
  | cons instr rest ih =>
      obtain ⟨hfirst, hrest⟩ := List.forall_mem_cons.mp hquiet
      rw [after_cons, ih hrest]
      cases instr with
      | emcuteSub i id => exact hfirst.elim
      | emcuteUnsub i => exact hfirst.elim
      | _ => rfl

theorem quiet_prepareInstrs (i : Fin numofsubs) (name : Text) :
    ∀ instr ∈ prepareInstrs i name, instr.Quiet := by
  intro instr hmem
  simp only [prepareInstrs, copyInstrs, List.cons_append, List.mem_cons, List.mem_append,
    List.mem_map, List.not_mem_nil, or_false] at hmem
  rcases hmem with rfl | ⟨write, -, rfl⟩ | rfl <;> trivial

theorem quiet_clearInstrs (i : Fin numofsubs) : ∀ instr ∈ clearInstrs i, instr.Quiet := by
  simp [clearInstrs, Instr.Quiet]

/-! ## Every moment of a run -/

/-- The slot is active, has the callback, and points at its row, where the name of an
accepted call ends; the id is that of the call. -/
structure Reporting (client : Client) (exchanges : List Exchange) (i : Fin numofsubs) :
    Prop where
  active : (client.subscriptions i).topic.id ≠ 0
  callback : (client.subscriptions i).cb = some .onPub
  pointer : (client.subscriptions i).topic.name = some (rowStart i)
  granted : ∃ name flags,
    ⟨.sub name flags, ⟨.ok, (client.subscriptions i).topic.id⟩⟩ ∈ exchanges ∧
      strlen name < topicMaxlen ∧ CStringAt client.topics (rowStart i) name

theorem Reporting.of_sameAt {board later : Board library} {exchanges more : List Exchange}
    {i : Fin numofsubs} (hreporting : Reporting board.client exchanges i)
    (hsame : SameAt i board later) (hmore : exchanges ⊆ more) :
    Reporting later.client more i := by
  obtain ⟨hactive, hcallback, hpointer, name, flags, hmem, hshort, hreads⟩ := hreporting
  refine ⟨by rw [hsame.slot]; exact hactive, by rw [hsame.slot]; exact hcallback,
    by rw [hsame.slot]; exact hpointer, name, flags, ?_, hshort, ?_⟩
  · rw [hsame.slot]
    exact hmore hmem
  · -- the string ends inside the row
    unfold strlen at hshort
    exact hreads.congr fun cell hlow hhigh => hsame.row cell hlow (by omega)

/-- The slot that an accepted `cmd_sub` has filled. -/
theorem reporting_subscribed {board : Board library} {exchanges : List Exchange} {i : Fin numofsubs}
    {name : Text} {flags : Qos} {id : UInt16} (hshort : strlen name < topicMaxlen)
    (hid : id ≠ 0) (hmem : ⟨.sub name flags, ⟨.ok, id⟩⟩ ∈ exchanges) :
    Reporting (after Board.exec board (prepareInstrs i name ++ [.emcuteSub i id])).client
      exchanges i := by
  rw [after_concat, after_prepareInstrs]
  refine ⟨?_, ?_, ?_, name, flags, ?_, hshort, cstringAt_strcpy ..⟩
  all_goals simp [Board.exec, Board.assign, Client.prepare, hid, hmem]

/-- The slots that emCute calls back for are reporting. -/
def Safe (board : Board library) (exchanges : List Exchange) : Prop :=
  ∀ i, library.CallsBack board.emcute i → Reporting board.client exchanges i

section Safe

variable (hdocumented : library.Documented)

include hdocumented

/-- Statements on one slot are safe while emCute does not call back for it. -/
theorem safe_within {board : Board library} {exchanges more : List Exchange} {k : Fin numofsubs}
    {done : List Instr} (hsafe : Safe board exchanges) (hmore : exchanges ⊆ more)
    (hwithin : ∀ instr ∈ done, instr.Within k)
    (hslot : library.CallsBack (after Board.exec board done).emcute k →
      Reporting (after Board.exec board done).client more k) :
    Safe (after Board.exec board done) more := by
  intro j hcalls
  by_cases hj : j = k
  · subst hj
    exact hslot hcalls
  · have hsame := after_sameAt hdocumented hwithin hj board
    exact (hsafe j (hsame.callsBack hcalls)).of_sameAt hsame hmore

theorem safe_sub {board : Board library} {exchanges more : List Exchange} {i : Fin numofsubs}
    {name : Text} {flags : Qos} {answer : Answer} {done : List Instr}
    (hsafe : Safe board exchanges) (hmore : exchanges ⊆ more)
    (hfree : board.client.firstFree = some i) (hshort : strlen name < topicMaxlen)
    (hgrants : answer.accepted → answer.id ≠ 0) (hmem : ⟨.sub name flags, answer⟩ ∈ more)
    (hdone : done <+: if answer.accepted then prepareInstrs i name ++ [.emcuteSub i answer.id]
      else prepareInstrs i name) :
    Safe (after Board.exec board done) more := by
  have hidle : ¬ library.CallsBack board.emcute i := by
    intro hcalls
    have hzero := (Fin.find?_eq_some_iff.mp hfree).1
    exact (hsafe i hcalls).active (by simpa using hzero)
  -- before its last statement the command does not call emCute
  have hpartial (hbefore : done <+: prepareInstrs i name) :
      Safe (after Board.exec board done) more := by
    refine safe_within hdocumented hsafe hmore (fun instr hinstr =>
      within_prepareInstrs hshort instr (hbefore.subset hinstr)) fun hcalls => absurd ?_ hidle
    rwa [emcute_after fun instr hinstr => quiet_prepareInstrs i name instr
      (hbefore.subset hinstr)] at hcalls
  split at hdone
  · next haccepted =>
      rcases List.prefix_concat_iff.mp hdone with rfl | hbefore
      · have hok : answer.result = .ok := by simpa [Answer.accepted] using haccepted
        have hgranted : ⟨.sub name flags, ⟨.ok, answer.id⟩⟩ ∈ more := by
          rw [← hok]
          exact hmem
        refine safe_within hdocumented hsafe hmore (k := i) ?_ fun _ =>
          reporting_subscribed hshort (hgrants haccepted) hgranted
        intro instr hinstr
        rcases List.mem_append.mp hinstr with hprepare | hlast
        · exact within_prepareInstrs hshort instr hprepare
        · obtain rfl := List.mem_singleton.mp hlast
          rfl
      · exact hpartial hbefore
  · exact hpartial hdone

theorem safe_unsub {board : Board library} {exchanges more : List Exchange} {i : Fin numofsubs}
    {done : List Instr} (hsafe : Safe board exchanges) (hmore : exchanges ⊆ more)
    (hdone : done <+: .emcuteUnsub i :: clearInstrs i) :
    Safe (after Board.exec board done) more := by
  rcases List.prefix_cons_iff.mp hdone with rfl | ⟨rest, rfl, hrest⟩
  · exact fun j hcalls => (hsafe j hcalls).of_sameAt ⟨rfl, id, fun _ _ _ => rfl⟩ hmore
  · refine safe_within hdocumented hsafe hmore (k := i) ?_ fun hcalls => ?_
    · intro instr hinstr
      rcases List.mem_cons.mp hinstr with rfl | hlater
      · rfl
      · exact within_clearInstrs i instr (hrest.subset hlater)
    · -- emCute is not called again once it has let the slot go
      rw [after_cons, emcute_after fun instr hinstr => quiet_clearInstrs i instr
        (hrest.subset hinstr)] at hcalls
      exact absurd rfl (hdocumented.emcuteUnsub board.emcute i i hcalls).1

/-- Every moment of a command is safe. -/
theorem safe_moment {board : Board library} {exchanges : List Exchange} {entry : Entry}
    {done : List Instr} (hsafe : Safe board exchanges)
    (hfits : entry.command = .sub → ∀ name ∈ entry.args.head?,
      strlen name ≠ topicMaxlen ∨ board.client.firstFree = none)
    (hgrants : GrantsId entry) (hdone : done <+: instrs entry board.client) :
    Safe (after Board.exec board done)
      (exchanges ++ (entry.run ipv6AddrFromStr board.client).exchanges) := by
  have hmore : exchanges ⊆ exchanges ++ (entry.run ipv6AddrFromStr board.client).exchanges :=
    List.subset_append_left ..
  cases statements ipv6AddrFromStr board.client entry with
  | none hinstrs hclient =>
      obtain rfl : done = [] := List.prefix_nil.mp (hinstrs ▸ hdone)
      exact fun j hcalls => (hsafe j hcalls).of_sameAt ⟨rfl, id, fun _ _ _ => rfl⟩ hmore
  | clear i hinstrs hclient => exact safe_unsub hdocumented hsafe hmore (hinstrs ▸ hdone)
  | copy i name flags hcommand hname hshort hfree hinstrs hclient hexchanges =>
      have hne : strlen name ≠ topicMaxlen :=
        (hfits hcommand name hname).resolve_right (by simp [hfree])
      have hmem : ⟨.sub name flags, entry.answers 0⟩ ∈
          exchanges ++ (entry.run ipv6AddrFromStr board.client).exchanges := by
        rw [hexchanges]
        exact List.mem_append_right _ (List.mem_singleton_self _)
      exact safe_sub hdocumented hsafe hmore hfree (lt_of_le_of_ne hshort hne)
        (hgrants hcommand) hmem (hinstrs ▸ hdone)

theorem safe_after_command {entries : List Entry}
    (hfits : Along (step ipv6AddrFromStr) FitsRow World.initial entries)
    (hgrants : ∀ entry ∈ entries, GrantsId entry) :
    Safe (after Board.command (Board.initial library) entries)
      (exchangesOf ipv6AddrFromStr entries) := by
  induction entries using List.reverseRecOn with
  | nil => exact fun i hcalls => absurd hcalls (hdocumented.start i)
  | append_singleton before entry ih =>
      obtain ⟨hbefore, hentry⟩ := (along_concat ..).mp hfits
      have hclient := client_after_command ipv6AddrFromStr library before
      have hsafe := ih hbefore fun earlier hmem =>
        hgrants earlier (List.mem_append_left _ hmem)
      rw [after_concat, exchangesOf_concat, ← hclient]
      refine safe_moment ipv6AddrFromStr hdocumented hsafe ?_ (hgrants entry (by simp))
        List.prefix_rfl
      rw [hclient]
      exact hentry

end Safe

/-- **Whenever a publication arrives, what is reported was granted.**  In every run in
which the names fit their rows, after any of the statements of its last command, with any
emCute that does as documented: if it calls back for a slot, the callback is `on_pub`, and
whatever the data, that prints the name of a topic that `emcute_sub` has subscribed with
exactly the id that it prints. -/
theorem reported_at_every_moment (hdocumented : library.Documented) (entries : List Entry)
    (entry : Entry)
    (hfits : Along (step ipv6AddrFromStr) FitsRow World.initial (entries ++ [entry]))
    (hgrants : ∀ command ∈ entries ++ [entry], GrantsId command) {done : List Instr}
    (hdone : done <+: instrs entry (after Board.command (Board.initial library) entries).client)
    {board : Board library}
    (hboard : after Board.exec (after Board.command (Board.initial library) entries) done = board)
    (i : Fin numofsubs) (hcalls : library.CallsBack board.emcute i) :
    (board.client.subscriptions i).cb = some .onPub ∧
      ∃ name flags, ⟨.sub name flags, ⟨.ok, (board.client.subscriptions i).topic.id⟩⟩ ∈
          exchangesOf ipv6AddrFromStr (entries ++ [entry]) ∧
        ReportsAs board.client i name := by
  obtain ⟨hbefore, hentry⟩ := (along_concat ..).mp hfits
  have hclient := client_after_command ipv6AddrFromStr library entries
  have hsafe := safe_after_command ipv6AddrFromStr hdocumented hbefore fun command hmem =>
    hgrants command (List.mem_append_left _ hmem)
  rw [FitsRow, ← hclient] at hentry
  have hmoment := safe_moment ipv6AddrFromStr hdocumented hsafe hentry (hgrants entry (by simp))
    hdone
  rw [hclient, ← exchangesOf_concat, hboard] at hmoment
  obtain ⟨-, hcallback, hpointer, name, flags, hmem, hshort, hreads⟩ := hmoment i hcalls
  exact ⟨hcallback, name, flags, hmem, reportsAs_of_cstringAt hpointer hshort hreads⟩

/-- A list of subscriptions, as emCute keeps one: each of them once. -/
def linkedList : Library where
  State := List (Fin numofsubs)
  start := []
  emcuteSub slots i := List.insert i slots
  emcuteUnsub slots i := slots.filter fun j => j ≠ i
  CallsBack slots i := i ∈ slots

theorem documented_linkedList : linkedList.Documented := by
  refine ⟨fun _ => List.not_mem_nil, ?_, ?_⟩
  · exact fun _ _ _ hmem => List.mem_insert_iff.mp hmem
  · intro slots i j hmem
    obtain ⟨hold, hne⟩ := List.mem_filter.mp hmem
    exact ⟨of_decide_eq_true hne, hold⟩

/-- The statements of a `cmd_sub` up to the third `char` of its copy. -/
def halfCopied : List Instr := (prepareInstrs 1 weather).take 4

/-- The board after them, with another topic subscribed before. -/
def halfCopiedBoard : Board linkedList :=
  after Board.exec (after Board.command (Board.initial linkedList) [accepted .sub [hello] 7])
    halfCopied

theorem reported_at_every_moment_halfCopied :
    (halfCopiedBoard.client.subscriptions 0).cb = some .onPub ∧
      ∃ name flags, ⟨.sub name flags, ⟨.ok, (halfCopiedBoard.client.subscriptions 0).topic.id⟩⟩ ∈
          exchangesOf (fun _ => none)
            ([accepted .sub [hello] 7] ++ [accepted .sub [weather] 9]) ∧
        ReportsAs halfCopiedBoard.client 0 name :=
  reported_at_every_moment (fun _ => none) documented_linkedList [accepted .sub [hello] 7]
    (accepted .sub [weather] 9) (by decide) (by decide) (by decide) rfl 0
    (show (0 : Fin numofsubs) ∈ [0] from List.mem_singleton_self _)

end AwsIotSensors.Emcute
