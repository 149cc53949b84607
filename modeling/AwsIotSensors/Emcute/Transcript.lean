import AwsIotSensors.Emcute.Publications
import AwsIotSensors.Lib.PlainText

/-!
# What the transcript tells

The session at the gateway is nowhere in the program; all that is left of a run is what
was printed, by the commands and, between their lines, by `on_pub`.  `readOutput` is a
reader of this output who knows nothing of the table, the answers or the commands.
`session_of_transcript` says that this is enough: after every run, whatever publications
were reported meanwhile, the session that the output tells is the session at the gateway.

Only four kinds of lines count.  The reader is not misled by the others, whatever is
typed into the shell: no other line of a command begins as one of them does (`Foreign`),
and the line behind the announcement of a publication is its data.  Data of more than one
line could mislead it, if a later one began as a line that counts.

What RIOT's shell prints itself, the prompt and the typed `char`s, is left out, and each
`printf` and `puts` is taken to write its line as a whole.
-/

namespace AwsIotSensors.Emcute

open CString PlainText Runs

variable (ipv6AddrFromStr : Text → Option Ipv6Addr)

/-- The lines that the commands have printed in a run. -/
def transcript (entries : List Entry) : List String :=
  (outputs (step ipv6AddrFromStr)
    (fun world entry => (entry.run ipv6AddrFromStr world.client).printed)
    World.initial entries).flatten

/-! ## The reader -/

/-- What a line says of the session. -/
inductive Note
  | connected
  | disconnected
  | subscribed (name : Text)
  | unsubscribed (name : Text)

/-- The rest of a line that begins with a text. -/
def told (start line : String) : Option (List Char) :=
  line.toList.dropPrefix? start.toList

/-- The name that some `char`s are. -/
def asName (chars : List Char) : Option Text :=
  if hnul : nul ∉ chars then some ⟨chars, hnul⟩ else none

/-- What a line says of the session, if anything. -/
def noteOf (line : String) : Option Note :=
  ((told "Successfully connected to gateway at " line).map fun _ => .connected) <|>
  ((told "Disconnect successful" line).map fun _ => .disconnected) <|>
  ((told "Now subscribed to " line).bind fun name => (asName name).map .subscribed) <|>
  ((told "Unsubscribed from '" line).bind fun rest => (asName rest.dropLast).map .unsubscribed)

/-- The session after a line, as it is read. -/
def readLine (before : Option (Finset Text)) (line : String) : Option (Finset Text) :=
  match noteOf line with
  | some .connected => some ∅
  | some .disconnected => none
  | some (.subscribed name) => before.map (insert name)
  | some (.unsubscribed name) => before.map fun topics => topics.erase name
  | none => before

/-! ## The output -/

/-- What is printed at a time: a line of a command, or what `on_pub` prints for a topic and
some data. -/
inductive Print
  | line (text : String)
  | onPub (name : List Char) (id : UInt16) (data : List Char)

/-- The line of a command. -/
def Print.line? : Print → Option String
  | .line text => some text
  | .onPub .. => none

/-- The texts that are written, each of which is ended by a newline. -/
def Print.texts : Print → List String
  | .line text => [text]
  | .onPub name id data => publication name id data

/-- The whole output. -/
def stdout (prints : List Print) : List Char :=
  putLines ((prints.flatMap Print.texts).map String.toList)

/-- How the announcement of a publication begins. -/
def announcement : String := "### got publication for topic '"

/-- The session as it is read so far, and whether a line of data comes next. -/
structure Reader where
  session : Option (Finset Text)
  beforeData : Bool

/-- Reading one more line. -/
def Reader.next (reader : Reader) (line : List Char) : Reader :=
  if reader.beforeData then ⟨reader.session, false⟩
  else ⟨readLine reader.session (.ofList line), (told announcement (.ofList line)).isSome⟩

/-- The session that an output tells. -/
def readOutput (output : List Char) : Option (Finset Text) :=
  (after Reader.next ⟨none, false⟩ (linesOf output)).session

/-- A publication that does not mislead the reader: the name is one of a typed line, and
behind the first line of the data none begins as a line that counts, or as an
announcement. -/
def Print.Fair : Print → Prop
  | .line _ => True
  | .onPub name _ data => '\n' ∉ name ∧ ∀ line ∈ (linesOf data).tail,
      noteOf (.ofList line) = none ∧ told announcement (.ofList line) = none

instance : ∀ print : Print, Decidable print.Fair
  | .line _ => inferInstanceAs (Decidable True)
  | .onPub _ _ _ => inferInstanceAs (Decidable (_ ∧ ∀ _ ∈ _, _ ∧ _))

/-! ## Lines that do not count -/

/-- No line that begins with the text counts. -/
def Foreign (start : String) : Prop :=
  ∀ counting ∈ ["Successfully connected to gateway at ", "Disconnect successful",
      "Now subscribed to ", "Unsubscribed from '"],
    ¬ counting.toList <+: start.toList ∧ ¬ start.toList <+: counting.toList

instance (start : String) : Decidable (Foreign start) :=
  inferInstanceAs (Decidable (∀ _ ∈ _, _ ∧ _))

theorem told_append (start rest : String) : told start (start ++ rest) = some rest.toList := by
  rw [told, String.toList_append]
  exact List.dropPrefix?_append_of_beq _ (beq_self_eq_true _)

theorem told_eq_none {start other line : String} (hbegins : other.toList <+: line.toList)
    (hclash : ¬ start.toList <+: other.toList ∧ ¬ other.toList <+: start.toList) :
    told start line = none :=
  dropPrefix_eq_none hbegins hclash

theorem noteOf_eq_none {start line : String} (hforeign : Foreign start)
    (hbegins : start.toList <+: line.toList) : noteOf line = none := by
  simp only [Foreign, List.forall_mem_cons] at hforeign
  obtain ⟨hcon, hdiscon, hsub, hunsub, -⟩ := hforeign
  rw [noteOf, told_eq_none hbegins hcon, told_eq_none hbegins hdiscon, told_eq_none hbegins hsub,
    told_eq_none hbegins hunsub]
  rfl

theorem begins_append {start line : String} (hbegins : start.toList <+: line.toList)
    (rest : String) : start.toList <+: (line ++ rest).toList := by
  rw [String.toList_append]
  exact hbegins.trans (List.prefix_append ..)

/-- The line begins as none of those does that count. -/
def Silent (line : String) : Prop :=
  ∃ start : String, Foreign start ∧ start.toList <+: line.toList

theorem silent_of_foreign {line : String} (hforeign : Foreign line) : Silent line :=
  ⟨line, hforeign, List.prefix_rfl⟩

theorem Silent.append {line : String} (hsilent : Silent line) (rest : String) :
    Silent (line ++ rest) := by
  obtain ⟨start, hforeign, hbegins⟩ := hsilent
  exact ⟨start, hforeign, begins_append hbegins rest⟩

theorem readLine_of_silent {line : String} (hsilent : Silent line)
    (before : Option (Finset Text)) : readLine before line = before := by
  obtain ⟨start, hforeign, hbegins⟩ := hsilent
  rw [readLine, noteOf_eq_none hforeign hbegins]

/-! ## Lines that count -/

theorem asName_chars (name : Text) : asName name.chars = some name :=
  dif_pos name.nul_notMem

theorem readLine_connected (before : Option (Finset Text)) (place : String) :
    readLine before ("Successfully connected to gateway at " ++ place) = some ∅ := by
  rw [readLine, noteOf, told_append]
  rfl

theorem readLine_disconnected (before : Option (Finset Text)) :
    readLine before "Disconnect successful" = none := by
  have hcon : told "Successfully connected to gateway at " "Disconnect successful" = none :=
    told_eq_none List.prefix_rfl (by decide)
  have hdiscon := told_append "Disconnect successful" ""
  rw [String.append_empty] at hdiscon
  rw [readLine, noteOf, hcon, hdiscon]
  rfl

theorem readLine_subscribed (before : Option (Finset Text)) (name : Text) :
    readLine before ("Now subscribed to " ++ name.toString) = before.map (insert name) := by
  have hbegins := begins_append (List.prefix_refl "Now subscribed to ".toList) name.toString
  rw [readLine, noteOf, told_eq_none hbegins (by decide), told_eq_none hbegins (by decide),
    told_append, Text.toString, String.toList_ofList]
  simp only [Option.map_none, Option.bind_some, asName_chars, Option.map_some]
  rfl

theorem readLine_unsubscribed (before : Option (Finset Text)) (name : Text) :
    readLine before ("Unsubscribed from '" ++ name.toString ++ "'") =
      before.map fun topics => topics.erase name := by
  have hrest : (name.toString ++ "'").toList.dropLast = name.chars := by
    rw [String.toList_append, Text.toString, String.toList_ofList]
    exact List.dropLast_concat
  have hbegins := begins_append (List.prefix_refl "Unsubscribed from '".toList)
    (name.toString ++ "'")
  rw [String.append_assoc, readLine, noteOf, told_eq_none hbegins (by decide),
    told_eq_none hbegins (by decide), told_eq_none hbegins (by decide), told_append]
  simp only [Option.map_none, Option.bind_none, Option.bind_some, hrest, asName_chars,
    Option.map_some]
  rfl

/-! ## The commands -/

/-- What a command prints tells what its calls do to the session. -/
def Tells (outcome : Outcome) : Prop :=
  ∀ before, after readLine before outcome.printed = session before outcome.exchanges

/-- Silent lines go with calls that leave the session as it is. -/
theorem tells_of_silent {outcome : Outcome} (hprinted : ∀ line ∈ outcome.printed, Silent line)
    (hidle : ∀ exchange ∈ outcome.exchanges, ∀ before, exchange.session before = before) :
    Tells outcome := by
  intro before
  rw [session, after_of_idle hidle,
    after_of_idle fun line hline => readLine_of_silent (hprinted line hline)]

theorem tells_stop (client : Client) {line : String} (hforeign : Foreign line) :
    Tells (.stop client line) :=
  tells_of_silent (by simpa [Outcome.stop] using silent_of_foreign hforeign)
    (by simp [Outcome.stop])

/-- A call that the gateway refuses changes no session. -/
theorem session_of_refused {exchange : Exchange} (hrefused : ¬ exchange.answer.accepted)
    (before : Option (Finset Text)) : exchange.session before = before :=
  if_neg hrefused

theorem tells_cmdCon (answers : ℕ → Answer) (args : List Text) (client : Client) :
    Tells (cmdCon ipv6AddrFromStr answers args client) := by
  simp only [cmdCon]
  split
  · exact tells_stop client (by decide)
  · split
    · exact tells_stop client (by decide)
    · split
      · next haccepted =>
        intro before
        simp only [after_cons, after_nil, readLine_connected, session, Exchange.session,
          haccepted, if_true]
      · next hrefused =>
        have hline : Silent "error: unable to connect to " := silent_of_foreign (by decide)
        exact tells_of_silent (by simpa using hline.append _)
          (by simpa using session_of_refused hrefused)

theorem tells_cmdDiscon (answers : ℕ → Answer) (args : List Text) (client : Client) :
    Tells (cmdDiscon answers args client) := by
  simp only [cmdDiscon]
  split
  · next hresult =>
    have hline : Silent "error: not connected to any broker" := silent_of_foreign (by decide)
    refine tells_of_silent (by simpa using hline) ?_
    simpa using session_of_refused (by simp [Answer.accepted, hresult])
  · next hresult =>
    have hline : Silent "error: unable to disconnect" := silent_of_foreign (by decide)
    refine tells_of_silent (by simpa using hline) ?_
    simpa using session_of_refused (by simp [Answer.accepted, hresult])
  · next hresult =>
    intro before
    simp only [after_cons, after_nil, readLine_disconnected, session, Exchange.session,
      Answer.accepted, hresult]
    rfl

theorem tells_cmdPub (answers : ℕ → Answer) (args : List Text) (client : Client) :
    Tells (cmdPub answers args client) := by
  have hreg (name : Text) (before : Option (Finset Text)) :
      Exchange.session before ⟨.reg name, answers 0⟩ = before := by
    simp [Exchange.session]
  have hpub (name : Text) (id : UInt16) (data : List Char) (flags : Qos)
      (before : Option (Finset Text)) :
      Exchange.session before ⟨.pub name id data flags, answers 1⟩ = before := by
    simp [Exchange.session]
  have hintro (name data : Text) : Silent
      ("pub with topic: " ++ name.toString ++ " and name " ++ data.toString) :=
    (((silent_of_foreign (by decide)).append _).append _).append _
  simp only [cmdPub]
  split
  · split
    · split
      · refine tells_of_silent ?_ (by simp [hreg, hpub])
        have hline : Silent "Published " := silent_of_foreign (by decide)
        simpa using ⟨hintro _ _, ((hline.append _).append _).append _⟩
      · refine tells_of_silent ?_ (by simp [hreg, hpub])
        have hline : Silent "error: unable to publish data to topic " :=
          silent_of_foreign (by decide)
        simpa using ⟨hintro _ _, hline.append _⟩
    · refine tells_of_silent ?_ (by simp [hreg])
      have hline : Silent "error: unable to obtain topic ID" := silent_of_foreign (by decide)
      simpa using ⟨hintro _ _, hline⟩
  · exact tells_stop client (by decide)

theorem tells_cmdSub (answers : ℕ → Answer) (args : List Text) (client : Client) :
    Tells (cmdSub answers args client) := by
  cases args with
  | nil => exact tells_stop client (by decide)
  | cons name rest =>
      rcases Nat.lt_or_ge topicMaxlen (strlen name) with hlong | hshort
      · rw [cmdSub_of_long hlong]
        exact tells_stop client (by decide)
      · cases hfree : client.firstFree with
        | none =>
            rw [cmdSub_of_full hshort hfree]
            exact tells_stop client (by decide)
        | some i =>
            rw [cmdSub_of_free answers rest hshort hfree]
            by_cases haccepted : (answers 0).accepted
            · intro before
              simp only [haccepted, if_true, after_cons, after_nil, readLine_subscribed, session,
                Exchange.session]
            · have hline : Silent "error: unable to subscribe to " :=
                silent_of_foreign (by decide)
              refine tells_of_silent ?_ (by simpa using session_of_refused haccepted)
              simpa [haccepted] using hline.append _

theorem tells_cmdUnsub (answers : ℕ → Answer) (args : List Text) (client : Client) :
    Tells (cmdUnsub answers args client) := by
  cases args with
  | nil => exact tells_stop client (by decide)
  | cons name rest =>
      cases hnamed : client.firstNamed name with
      | none =>
          rw [cmdUnsub_of_absent rest hnamed]
          have hline : Silent "error: no subscription for topic '" :=
            silent_of_foreign (by decide)
          exact tells_of_silent (by simpa [Outcome.stop] using (hline.append _).append _)
            (by simp [Outcome.stop])
      | some i =>
          rw [cmdUnsub_of_named answers rest hnamed]
          by_cases haccepted : (answers 0).accepted
          · intro before
            simp only [haccepted, if_true, after_cons, after_nil, readLine_unsubscribed, session,
              Exchange.session]
          · have hline : Silent "Unsubscription form '" := silent_of_foreign (by decide)
            refine tells_of_silent ?_ (by simpa using session_of_refused haccepted)
            simpa [haccepted] using (hline.append _).append _

theorem tells_cmdWill (answers : ℕ → Answer) (args : List Text) (client : Client) :
    Tells (cmdWill answers args client) := by
  simp only [cmdWill]
  split
  · split
    · split
      · have hline : Silent "Successfully updated last will topic and message" :=
          silent_of_foreign (by decide)
        exact tells_of_silent (by simpa using hline) (by simp [Exchange.session])
      · have hline : Silent "error: unable to update the last will message" :=
          silent_of_foreign (by decide)
        exact tells_of_silent (by simpa using hline) (by simp [Exchange.session])
    · have hline : Silent "error: unable to update the last will topic" :=
        silent_of_foreign (by decide)
      exact tells_of_silent (by simpa using hline) (by simp [Exchange.session])
  · exact tells_stop client (by decide)

/-- **One command.**  Its lines tell what its calls do. -/
theorem tells_run (entry : Entry) (client : Client) :
    Tells (entry.run ipv6AddrFromStr client) := by
  obtain ⟨command, args, answers⟩ := entry
  cases command with
  | con => exact tells_cmdCon ipv6AddrFromStr answers args client
  | discon => exact tells_cmdDiscon answers args client
  | pub => exact tells_cmdPub answers args client
  | sub => exact tells_cmdSub answers args client
  | unsub => exact tells_cmdUnsub answers args client
  | will => exact tells_cmdWill answers args client

/-! ## The lines of the commands -/

/-- A line without a newline that does not begin as an announcement. -/
structure CommandLine (line : String) : Prop where
  whole : '\n' ∉ line.toList
  noAnnouncement : told announcement line = none

/-- What is written before the arguments are. -/
def Opening (start : String) : Prop :=
  '\n' ∉ start.toList ∧
    ¬ announcement.toList <+: start.toList ∧ ¬ start.toList <+: announcement.toList

instance (start : String) : Decidable (Opening start) :=
  inferInstanceAs (Decidable (_ ∧ _ ∧ _))

theorem commandLine_append {start rest : String} (hstart : Opening start)
    (hrest : '\n' ∉ rest.toList) : CommandLine (start ++ rest) := by
  refine ⟨?_, told_eq_none (begins_append List.prefix_rfl rest) hstart.2⟩
  rw [String.toList_append, List.mem_append, not_or]
  exact ⟨hstart.1, hrest⟩

theorem commandLine_of_opening {line : String} (hline : Opening line) : CommandLine line :=
  ⟨hline.1, told_eq_none List.prefix_rfl hline.2⟩

theorem newline_notMem_digits (number : ℕ) : '\n' ∉ Nat.toDigits 10 number := by
  intro hmem
  rw [← Nat.toList_repr] at hmem
  exact absurd (isDigit_of_mem_natRepr hmem) (by decide)

theorem newline_notMem_toString {name : Text} (hname : '\n' ∉ name.chars) :
    '\n' ∉ name.toString.toList := by
  rwa [Text.toString, String.toList_ofList]

/-- No argument has a newline: the shell takes it for the end of the line. -/
def TypedLine (entry : Entry) : Prop :=
  ∀ arg ∈ entry.args, '\n' ∉ arg.chars

instance (entry : Entry) : Decidable (TypedLine entry) :=
  inferInstanceAs (Decidable (∀ _ ∈ _, _))

theorem commandLine_stop {client : Client} {line : String} (hline : Opening line) :
    ∀ printed ∈ (Outcome.stop client line).printed, CommandLine printed := by
  simpa [Outcome.stop] using commandLine_of_opening hline

theorem commandLines_cmdDiscon (answers : ℕ → Answer) (args : List Text) (client : Client) :
    ∀ line ∈ (cmdDiscon answers args client).printed, CommandLine line := by
  simp only [cmdDiscon]
  split
  all_goals simpa using commandLine_of_opening (by decide)

theorem commandLines_cmdWill (answers : ℕ → Answer) (args : List Text) (client : Client) :
    ∀ line ∈ (cmdWill answers args client).printed, CommandLine line := by
  simp only [cmdWill]
  split
  · split
    · split
      · simpa using commandLine_of_opening (by decide)
      · simpa using commandLine_of_opening (by decide)
    · simpa using commandLine_of_opening (by decide)
  · exact commandLine_stop (by decide)

section Arguments

variable {args : List Text} (hargs : ∀ arg ∈ args, '\n' ∉ arg.chars) (answers : ℕ → Answer)
  (client : Client)

include hargs

theorem commandLines_cmdCon :
    ∀ line ∈ (cmdCon ipv6AddrFromStr answers args client).printed, CommandLine line := by
  simp only [cmdCon]
  split
  · exact commandLine_stop (by decide)
  · next address rest =>
    split
    · exact commandLine_stop (by decide)
    · next addr =>
      have hplace (port : UInt16) :
          '\n' ∉ ("[" ++ address.toString ++ "]:" ++ port.toNat.repr).toList := by
        have haddress := newline_notMem_toString (hargs address (List.mem_cons_self ..))
        simp [haddress, newline_notMem_digits]
      split
      · simpa using commandLine_append (by decide) (hplace _)
      · simpa using commandLine_append (by decide) (hplace _)

theorem commandLines_cmdPub :
    ∀ line ∈ (cmdPub answers args client).printed, CommandLine line := by
  simp only [cmdPub]
  split
  · next name data rest =>
    have hname := newline_notMem_toString (hargs name (by simp))
    have hdata := newline_notMem_toString (hargs data (by simp))
    have hintro : CommandLine
        ("pub with topic: " ++ name.toString ++ " and name " ++ data.toString) := by
      rw [String.append_assoc, String.append_assoc]
      exact commandLine_append (by decide) (by simp [hname, hdata])
    have htopic (id : UInt16) : '\n' ∉ (topicShown name id).toList := by
      simp [topicShown, hname, newline_notMem_digits]
    split
    · split
      · have hline : CommandLine ("Published " ++ (strlen data).repr ++ " bytes to topic " ++
            topicShown name (answers 0).id) := by
          rw [String.append_assoc, String.append_assoc]
          exact commandLine_append (by decide) (by simp [htopic, newline_notMem_digits])
        simpa using ⟨hintro, hline⟩
      · simpa using ⟨hintro, commandLine_append (by decide) (htopic _)⟩
    · simpa using ⟨hintro, commandLine_of_opening (by decide)⟩
  · exact commandLine_stop (by decide)

theorem commandLines_cmdSub :
    ∀ line ∈ (cmdSub answers args client).printed, CommandLine line := by
  simp only [cmdSub]
  split
  · exact commandLine_stop (by decide)
  · next name rest =>
    have hname := newline_notMem_toString (hargs name (List.mem_cons_self ..))
    split
    · exact commandLine_stop (by decide)
    · split
      · exact commandLine_stop (by decide)
      · split
        · simpa using commandLine_append (by decide) hname
        · simpa using commandLine_append (by decide) hname

theorem commandLines_cmdUnsub :
    ∀ line ∈ (cmdUnsub answers args client).printed, CommandLine line := by
  cases args with
  | nil => exact commandLine_stop (by decide)
  | cons name rest =>
      have hname := newline_notMem_toString (hargs name (List.mem_cons_self ..))
      have hquoted {start behind : String} (hstart : Opening start)
          (hbehind : '\n' ∉ behind.toList) : CommandLine (start ++ name.toString ++ behind) := by
        rw [String.append_assoc]
        exact commandLine_append hstart (by simp [hname, hbehind])
      cases hnamed : client.firstNamed name with
      | none =>
          have hline : CommandLine ("error: no subscription for topic '" ++ name.toString ++
            "' found") := hquoted (by decide) (by decide)
          rw [cmdUnsub_of_absent rest hnamed]
          simpa [Outcome.stop] using hline
      | some i =>
          have hdone : CommandLine ("Unsubscribed from '" ++ name.toString ++ "'") :=
            hquoted (by decide) (by decide)
          have hfailed : CommandLine ("Unsubscription form '" ++ name.toString ++ "' failed") :=
            hquoted (by decide) (by decide)
          rw [cmdUnsub_of_named answers rest hnamed]
          by_cases haccepted : (answers 0).accepted
          · simpa [haccepted] using hdone
          · simpa [haccepted] using hfailed

end Arguments

theorem commandLines_run {entry : Entry} (htyped : TypedLine entry) (client : Client) :
    ∀ line ∈ (entry.run ipv6AddrFromStr client).printed, CommandLine line := by
  obtain ⟨command, args, answers⟩ := entry
  cases command with
  | con => exact commandLines_cmdCon ipv6AddrFromStr htyped answers client
  | discon => exact commandLines_cmdDiscon answers args client
  | pub => exact commandLines_cmdPub htyped answers client
  | sub => exact commandLines_cmdSub htyped answers client
  | unsub => exact commandLines_cmdUnsub htyped answers client
  | will => exact commandLines_cmdWill answers args client

theorem commandLines_transcript {entries : List Entry}
    (htyped : ∀ entry ∈ entries, TypedLine entry) :
    ∀ line ∈ transcript ipv6AddrFromStr entries, CommandLine line := by
  induction entries using List.reverseRecOn with
  | nil => exact fun line hline => absurd hline List.not_mem_nil
  | append_singleton before entry ih =>
      intro line hline
      rw [transcript, outputs_concat, List.flatten_concat, List.mem_append] at hline
      rcases hline with hold | hnew
      · exact ih (fun earlier hmem => htyped earlier (List.mem_append_left _ hmem)) line hold
      · exact commandLines_run ipv6AddrFromStr (htyped entry (by simp)) _ line hnew

/-! ## Reading the output -/

/-- The lines of the commands tell the session. -/
theorem after_readLine_transcript (entries : List Entry) :
    after readLine none (transcript ipv6AddrFromStr entries) =
      (after (step ipv6AddrFromStr) World.initial entries).session := by
  induction entries using List.reverseRecOn with
  | nil => rfl
  | append_singleton before entry ih =>
      rw [transcript, outputs_concat, List.flatten_concat, after_append, after_concat, step]
      rw [transcript] at ih
      rw [ih]
      exact tells_run ipv6AddrFromStr entry _ _

theorem next_of_commandLine {line : String} (hline : CommandLine line)
    (session : Option (Finset Text)) :
    Reader.next ⟨session, false⟩ line.toList = ⟨readLine session line, false⟩ := by
  simp only [Reader.next, String.ofList_toList, hline.noAnnouncement]
  rfl

/-- Lines of data that do not mislead the reader. -/
theorem after_next_of_fair {lines : List (List Char)} (hlines : ∀ line ∈ lines,
      noteOf (.ofList line) = none ∧ told announcement (.ofList line) = none)
    (session : Option (Finset Text)) :
    after Reader.next ⟨session, false⟩ lines = ⟨session, false⟩ := by
  induction lines with
  | nil => rfl
  | cons line lines ih =>
      obtain ⟨⟨hnote, htold⟩, hrest⟩ := List.forall_mem_cons.mp hlines
      have hnext : Reader.next ⟨session, false⟩ line = ⟨session, false⟩ := by
        simp only [Reader.next, readLine, hnote, htold]
        rfl
      rw [after_cons, hnext, ih hrest]

/-- After an announcement the reader passes over the next line. -/
theorem next_announcement (session : Option (Finset Text)) (rest : String) :
    Reader.next ⟨session, false⟩ (announcement ++ rest).toList = ⟨session, true⟩ := by
  have hsilent : Silent (announcement ++ rest) := (silent_of_foreign (by decide)).append rest
  simp only [Reader.next, String.ofList_toList, readLine_of_silent hsilent, told_append]
  rfl

/-- A publication leaves the session that is read as it is. -/
theorem after_next_publication {name : List Char} {id : UInt16} {data : List Char}
    (hfair : (Print.onPub name id data).Fair) (session : Option (Finset Text)) :
    after Reader.next ⟨session, false⟩
      (((publication name id data).map String.toList).flatMap linesOf) = ⟨session, false⟩ := by
  obtain ⟨hname, hdata⟩ := hfair
  obtain ⟨rest, hfirst, hrest⟩ : ∃ rest : String,
      publication name id data = [announcement ++ rest, .ofList data] ∧ '\n' ∉ rest.toList := by
    refine ⟨.ofList name ++ ("' [" ++ (id.toNat.repr ++ "] ###")), ?_, ?_⟩
    · simp only [publication, announcement, String.append_assoc]
    · simp [hname, newline_notMem_digits]
  have hwhole : '\n' ∉ (announcement ++ rest).toList := by
    rw [String.toList_append, List.mem_append, not_or]
    exact ⟨by decide, hrest⟩
  rw [hfirst, List.map_cons, List.map_singleton, List.flatMap_cons, List.flatMap_singleton,
    linesOf_of_notMem hwhole, String.toList_ofList, List.singleton_append, after_cons,
    next_announcement]
  -- the first line of the data is passed over
  obtain ⟨line, lines, hlines⟩ := List.exists_cons_of_ne_nil (List.splitOnP_ne_nil (· == '\n') data)
  rw [linesOf, List.splitOn, hlines, List.tail_cons] at hdata
  rw [linesOf, List.splitOn, hlines, after_cons]
  exact after_next_of_fair hdata session

theorem after_next_prints {prints : List Print} (hfair : ∀ print ∈ prints, print.Fair)
    (hlines : ∀ line ∈ prints.filterMap Print.line?, CommandLine line)
    (session : Option (Finset Text)) :
    after Reader.next ⟨session, false⟩
        (((prints.flatMap Print.texts).map String.toList).flatMap linesOf) =
      ⟨after readLine session (prints.filterMap Print.line?), false⟩ := by
  induction prints generalizing session with
  | nil => rfl
  | cons print prints ih =>
      obtain ⟨hfirst, hrest⟩ := List.forall_mem_cons.mp hfair
      rw [List.flatMap_cons, List.map_append, List.flatMap_append, after_append]
      cases print with
      | line text =>
          obtain ⟨htext, hlater⟩ := List.forall_mem_cons.mp hlines
          simp only [Print.texts, List.map_singleton, List.flatMap_singleton,
            linesOf_of_notMem htext.whole, after_cons, after_nil, next_of_commandLine htext]
          exact ih hrest hlater (readLine session text)
      | onPub name id data =>
          rw [Print.texts, after_next_publication hfirst]
          exact ih hrest hlines session

/-! ## The main statement -/

/-- **The output tells the session.**  In every run, whatever the gateway answers and
whatever is typed in: if the lines of its commands are printed in order, and publications
are printed anywhere between them, of whatever topics and data that do not mislead the
reader, the session that is read from the output alone is the session at the gateway. -/
theorem session_of_transcript (entries : List Entry) (htyped : ∀ entry ∈ entries, TypedLine entry)
    {prints : List Print} (hfair : ∀ print ∈ prints, print.Fair)
    (hlines : prints.filterMap Print.line? = transcript ipv6AddrFromStr entries) :
    readOutput (stdout prints) =
      (after (step ipv6AddrFromStr) World.initial entries).session := by
  have hcommands : ∀ line ∈ prints.filterMap Print.line?, CommandLine line := by
    rw [hlines]
    exact commandLines_transcript ipv6AddrFromStr htyped
  have hread := after_next_prints hfair hcommands none
  rw [readOutput, stdout, linesOf_putLines, after_concat, hread, hlines,
    after_readLine_transcript]
  rfl

/-- Between the lines of a connection with two topics, a publication whose data looks like
a line that counts. -/
def overheard : List Print :=
  [.line "Successfully connected to gateway at [fd00::1]:1883", .line "Now subscribed to hello",
    .onPub hello.chars 1 "Now subscribed to x".toList, .line "Now subscribed to weather",
    .line "Unsubscribed from 'hello'"]

theorem session_of_transcript_overheard : readOutput (stdout overheard) = some {weather} :=
  (session_of_transcript gatewayFromStr connectedTopics (by decide) (by decide) (by decide)).trans
    (by decide)

end AwsIotSensors.Emcute
