import AwsIotSensors.Emcute.Rows

/-!
# The last will at the gateway

`cmd_will` replaces the last will in two calls, the topic first and then the
message, and a refusal of the second is only printed: the topic it has replaced
stays replaced.

`will_whole_iff` is exact: along a run of the shell the will at the gateway is
always absent or a pair given in one command, and a `cmd_will` that returns 1
leaves it as it was, if and only if every `cmd_will` whose first call alone is
accepted names the topic that the gateway already holds (`KeepsTopic`).  A topic
and a message are kept apart in `Will`, since that is how the gateway receives
them.
-/

namespace AwsIotSensors.Emcute

open CString Runs

variable (ipv6AddrFromStr : Text → Option Ipv6Addr)

/-! ## What the gateway holds -/

/-- The topic and the message of the will the gateway holds. -/
structure Will where
  topic : Option Text
  message : Option Text
deriving DecidableEq

/-- No will. -/
def Will.absent : Will := ⟨none, none⟩

/-- The will of a topic and a message given together. -/
def Will.ofPair (pair : Text × Text) : Will := ⟨some pair.1, some pair.2⟩

/-- The will after an exchange: an accepted `emcute_con` brings its own will or
none, the two updates replace their half, and a refused call changes nothing. -/
def Exchange.will (before : Will) (exchange : Exchange) : Will :=
  if exchange.answer.accepted then
    match exchange.call with
    | .con _ _ given => given.elim Will.absent Will.ofPair
    | .willupdTopic topic => { before with topic := some topic }
    | .willupdMsg message => { before with message := some message }
    | _ => before
  else before

/-- The will after a sequence of exchanges. -/
def will : Will → List Exchange → Will :=
  Runs.after Exchange.will

/-- The shell and the will at the gateway. -/
structure Held where
  client : Client
  will : Will

/-- The start of `main`. -/
def Held.initial : Held := ⟨Client.initial, Will.absent⟩

/-- One command. -/
def willStep (held : Held) (entry : Entry) : Held :=
  let outcome := entry.run ipv6AddrFromStr held.client
  ⟨outcome.client, will held.will outcome.exchanges⟩

/-- The topic and the message given in a command, if both are there. -/
def Entry.givenWill (entry : Entry) : Option (Text × Text) :=
  match entry.command, entry.args with
  | .con, _ :: _ :: topic :: message :: _ => some (topic, message)
  | .will, topic :: message :: _ => some (topic, message)
  | _, _ => none

/-! ## What should hold, and when it does -/

/-- The will is absent, or a topic and a message given together in one of the
commands. -/
def GivenTogether (entries : List Entry) (will : Will) : Prop :=
  will = Will.absent ∨ ∃ entry ∈ entries, ∃ pair ∈ entry.givenWill, will = Will.ofPair pair

/-- A `cmd_will` that returns 1 leaves the will as it was. -/
def FailureKeepsWill (held : Held) (entry : Entry) : Prop :=
  entry.command = .will → (entry.run ipv6AddrFromStr held.client).ret = 1 →
    (willStep ipv6AddrFromStr held entry).will = held.will

/-- If a `cmd_will` updates the topic but not the message, it is the topic that
the gateway already holds. -/
def KeepsTopic (held : Held) (entry : Entry) : Prop :=
  entry.command = .will → ∀ pair ∈ entry.givenWill, (entry.answers 0).accepted →
    ¬ (entry.answers 1).accepted → held.will.topic = some pair.1

/-! ## How the commands move the will -/

/-- `cmd_con` replaces the will if its address is valid and the call accepted. -/
theorem will_con (held : Held) (args : List Text) (answers : ℕ → Answer) :
    (willStep ipv6AddrFromStr held ⟨.con, args, answers⟩).will =
      if (args.head?.bind ipv6AddrFromStr).isSome ∧ (answers 0).accepted then
        (Entry.givenWill ⟨.con, args, answers⟩).elim Will.absent Will.ofPair
      else held.will := by
  cases args with
  | nil => simp [willStep, Entry.run, cmdCon, Outcome.stop, will]
  | cons address rest =>
      cases haddr : ipv6AddrFromStr address with
      | none => simp [willStep, Entry.run, cmdCon, haddr, Outcome.stop, will]
      | some addr =>
          cases haccepted : (answers 0).accepted with
          | false => simp [willStep, Entry.run, cmdCon, haddr, will, Exchange.will, haccepted]
          | true =>
              -- the will of the call is there with the fourth argument
              rcases rest with _ | ⟨port, _ | ⟨topic, _ | ⟨message, more⟩⟩⟩ <;>
                simp [willStep, Entry.run, cmdCon, haddr, will, Exchange.will, haccepted,
                  Entry.givenWill]

/-- `cmd_will` with both arguments replaces the topic, then the message. -/
theorem will_will (held : Held) (topic message : Text) (rest : List Text)
    (answers : ℕ → Answer) :
    (willStep ipv6AddrFromStr held ⟨.will, topic :: message :: rest, answers⟩).will =
      if (answers 0).accepted then
        ⟨some topic, if (answers 1).accepted then some message else held.will.message⟩
      else held.will := by
  cases hfirst : (answers 0).accepted with
  | false => simp [willStep, Entry.run, cmdWill, will, Exchange.will, hfirst]
  | true =>
      cases hsecond : (answers 1).accepted <;>
        simp [willStep, Entry.run, cmdWill, will, Exchange.will, hfirst, hsecond]

/-- A `cmd_will` without both arguments makes no call. -/
theorem will_will_of_usage (held : Held) {args : List Text} {answers : ℕ → Answer}
    (husage : Entry.givenWill ⟨.will, args, answers⟩ = none) :
    (willStep ipv6AddrFromStr held ⟨.will, args, answers⟩).will = held.will := by
  rcases args with _ | ⟨topic, _ | ⟨message, rest⟩⟩
  · rfl
  · rfl
  · simp [Entry.givenWill] at husage

/-- The other commands leave the will alone. -/
theorem will_of_other (held : Held) (entry : Entry) (hcon : entry.command ≠ .con)
    (hwill : entry.command ≠ .will) :
    (willStep ipv6AddrFromStr held entry).will = held.will := by
  obtain ⟨command, args, answers⟩ := entry
  cases command with
  | con => exact absurd rfl hcon
  | will => exact absurd rfl hwill
  | discon =>
      simp only [willStep, Entry.run, cmdDiscon]
      split <;> simp [will, Exchange.will]
  | pub =>
      simp only [willStep, Entry.run, cmdPub]
      split
      · split
        · split <;> simp [will, Exchange.will]
        · simp [will, Exchange.will]
      · rfl
  | sub =>
      simp only [willStep, Entry.run]
      cases args with
      | nil => rfl
      | cons name rest =>
          rcases Nat.lt_or_ge topicMaxlen (strlen name) with hlong | hshort
          · simp [cmdSub_of_long hlong, will, Outcome.stop]
          · cases hfree : held.client.firstFree with
            | none => simp [cmdSub_of_full hshort hfree, will, Outcome.stop]
            | some i => simp [cmdSub_of_free answers rest hshort hfree, will, Exchange.will]
  | unsub =>
      simp only [willStep, Entry.run]
      cases args with
      | nil => rfl
      | cons name rest =>
          cases hnamed : held.client.firstNamed name with
          | none => simp [cmdUnsub_of_absent rest hnamed, will, Outcome.stop]
          | some i => simp [cmdUnsub_of_named answers rest hnamed, will, Exchange.will]

/-- `cmd_will` returns 1 when an argument is missing or a call is refused. -/
theorem ret_will (client : Client) (topic message : Text) (rest : List Text)
    (answers : ℕ → Answer) :
    (cmdWill answers (topic :: message :: rest) client).ret =
      if (answers 0).accepted ∧ (answers 1).accepted then 0 else 1 := by
  cases hfirst : (answers 0).accepted <;> cases hsecond : (answers 1).accepted <;>
    simp [cmdWill, hfirst, hsecond]

/-! ## One command -/

theorem GivenTogether.mono {entries : List Entry} {will : Will}
    (hwill : GivenTogether entries will) (entry : Entry) :
    GivenTogether (entries ++ [entry]) will := by
  rcases hwill with habsent | ⟨earlier, hmem, pair, hpair, hwill⟩
  · exact Or.inl habsent
  · exact Or.inr ⟨earlier, List.mem_append_left _ hmem, pair, hpair, hwill⟩

/-- The pair of a command is given together in it. -/
theorem givenTogether_of_given {entries : List Entry} {entry : Entry} {pair : Text × Text}
    (hpair : entry.givenWill = some pair) :
    GivenTogether (entries ++ [entry]) (Will.ofPair pair) :=
  Or.inr ⟨entry, by simp, pair, hpair, rfl⟩

/-- **A failed `cmd_will` keeps the will** if and only if it keeps the topic. -/
theorem failureKeepsWill_iff (held : Held) (entry : Entry) :
    FailureKeepsWill ipv6AddrFromStr held entry ↔ KeepsTopic held entry := by
  obtain ⟨command, args, answers⟩ := entry
  unfold FailureKeepsWill KeepsTopic
  refine forall_congr' fun hcommand => ?_
  obtain rfl : command = .will := hcommand
  cases hgiven : Entry.givenWill ⟨.will, args, answers⟩ with
  | none => simpa using fun _ => will_will_of_usage ipv6AddrFromStr held hgiven
  | some pair =>
      obtain ⟨topic, message, rest, rfl, rfl⟩ :
          ∃ topic message rest, args = topic :: message :: rest ∧ pair = (topic, message) := by
        rcases args with _ | ⟨topic, _ | ⟨message, rest⟩⟩
        · simp [Entry.givenWill] at hgiven
        · simp [Entry.givenWill] at hgiven
        · exact ⟨topic, message, rest, rfl, (Option.some.inj hgiven).symm⟩
      rw [will_will, Entry.run, ret_will]
      obtain ⟨client, heldTopic, heldMessage⟩ := held
      cases hfirst : (answers 0).accepted <;> cases hsecond : (answers 1).accepted <;>
        simp [eq_comm]

/-- One command keeps the will in one piece, unless it is a `cmd_will` that
changes the topic only. -/
theorem step_givenTogether {entries : List Entry} {held : Held} {entry : Entry}
    (hheld : GivenTogether entries held.will) (hkeeps : KeepsTopic held entry) :
    GivenTogether (entries ++ [entry]) (willStep ipv6AddrFromStr held entry).will := by
  by_cases hcon : entry.command = .con
  · obtain ⟨command, args, answers⟩ := entry
    obtain rfl : command = .con := hcon
    rw [will_con]
    split
    · cases hgiven : Entry.givenWill ⟨.con, args, answers⟩ with
      | none => exact Or.inl rfl
      | some pair => exact givenTogether_of_given hgiven
    · exact hheld.mono _
  · by_cases hwill : entry.command = .will
    · by_cases hret : (entry.run ipv6AddrFromStr held.client).ret = 1
      · -- it fails, and so it leaves the will as it was
        rw [(failureKeepsWill_iff ipv6AddrFromStr held entry).mpr hkeeps hwill hret]
        exact hheld.mono _
      · obtain ⟨command, args, answers⟩ := entry
        obtain rfl : command = .will := hwill
        rcases args with _ | ⟨topic, _ | ⟨message, rest⟩⟩
        · exact absurd rfl hret
        · exact absurd rfl hret
        · rw [Entry.run, ret_will] at hret
          have hboth : (answers 0).accepted ∧ (answers 1).accepted := by
            by_contra hnot
            exact hret (if_neg hnot)
          rw [will_will, if_pos hboth.1, if_pos hboth.2]
          have hpair : Entry.givenWill ⟨.will, topic :: message :: rest, answers⟩ =
              some (topic, message) := rfl
          exact givenTogether_of_given hpair
    · rw [will_of_other ipv6AddrFromStr held entry hcon hwill]
      exact hheld.mono _

/-! ## Runs -/

theorem after_givenTogether (entries : List Entry)
    (hkeeps : Along (willStep ipv6AddrFromStr) KeepsTopic Held.initial entries) :
    GivenTogether entries (after (willStep ipv6AddrFromStr) Held.initial entries).will := by
  induction entries using List.reverseRecOn with
  | nil => exact Or.inl rfl
  | append_singleton entries entry ih =>
      rw [along_concat] at hkeeps
      rw [after_concat]
      exact step_givenTogether ipv6AddrFromStr (ih hkeeps.1) hkeeps.2

/-- **When the will is never a mixture.**  In a run of the shell, the will at the
gateway is after every command absent or given together in one command, and no
`cmd_will` that returns 1 changes it, if and only if every `cmd_will` whose topic
alone is accepted names the topic the gateway holds. -/
theorem will_whole_iff (entries : List Entry) :
    ((∀ before later, entries = before ++ later →
        GivenTogether before (after (willStep ipv6AddrFromStr) Held.initial before).will) ∧
      Along (willStep ipv6AddrFromStr) (FailureKeepsWill ipv6AddrFromStr) Held.initial
        entries) ↔
    Along (willStep ipv6AddrFromStr) KeepsTopic Held.initial entries := by
  constructor
  · intro hboth
    obtain ⟨-, hfailure⟩ := hboth
    exact hfailure.mono fun held entry => (failureKeepsWill_iff _ held entry).mp
  · intro hkeeps
    refine ⟨?_, ?_⟩
    · intro before later heq
      rw [heq, along_append] at hkeeps
      exact after_givenTogether _ _ hkeeps.1
    · exact hkeeps.mono fun held entry => (failureKeepsWill_iff _ held entry).mpr

/-- Connect with a will, then change it with the second update refused. -/
def halfUpdated : List Entry :=
  [accepted .con [gatewayAddress, .ofString "1883", .ofString "gone", .ofString "cable"] 0,
    ⟨.will, [.ofString "lost", .ofString "power"],
      fun k => if k = 0 then ⟨.ok, 0⟩ else ⟨.failed, 0⟩⟩]

/-- The new topic stands with the old message. -/
theorem exists_mixed_will :
    ¬ ∀ (ipv6AddrFromStr : Text → Option Ipv6Addr) (entries : List Entry),
      (∀ entry ∈ entries, entry.command = .con ∨ entry.command = .will) →
        (∀ before later, entries = before ++ later →
          GivenTogether before (after (willStep ipv6AddrFromStr) Held.initial before).will) ∧
        Along (willStep ipv6AddrFromStr) (FailureKeepsWill ipv6AddrFromStr) Held.initial
          entries := by
  intro hclaim
  have hwhole := (hclaim gatewayFromStr halfUpdated (by decide)).1
  rcases hwhole halfUpdated [] (by simp) with habsent | hgiven
  · exact absurd habsent (by decide)
  · exact absurd hgiven (by decide)

end AwsIotSensors.Emcute
