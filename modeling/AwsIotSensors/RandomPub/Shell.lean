import AwsIotSensors.RandomPub.Connection

/-!
# The shell of the publisher

The command table of the two `random_pub` programs has `con`, `pub`, `sub` and
`rand_pub`.  None of them closes a connection that it has not opened itself, and
`emcute_con` is refused while one is open, so a state with an open connection is
a trap: `recoverable_iff` says that the shell can recover exactly from the states
without one.  `shell_recoverable_iff` turns this into the condition on a run.
-/

namespace AwsIotSensors.RandomPub

open CString Emcute Runs

/-- `shell_commands`. -/
inductive ShellCommand
  | con
  | pub
  | sub
  | randPub
deriving DecidableEq

/-- A line entered into the shell.  `rand_pub` is followed for `rounds` rounds. -/
structure Line where
  command : ShellCommand
  args : List Text
  env : Environment
  rounds : ℕ

/-- The program between two commands, and whether a connection is open. -/
structure Shell where
  client : Client
  connected : Bool

/-- The shell after `main` has started it. -/
def Shell.start : Shell := ⟨Client.initial, false⟩

variable (program : Program) (ipv6AddrFromStr : Text → Option Ipv6Addr)

/-- What the handler of a line does, if it returns. -/
def Line.run (line : Line) (client : Client) : Option Outcome :=
  match line.command with
  | .con => some (cmdCon ipv6AddrFromStr line.env.answers line.args client)
  | .pub => some (cmdPub line.env.answers line.args client)
  | .sub => some (cmdSub line.env.answers line.args client)
  | .randPub =>
      match cmdRandPub program ipv6AddrFromStr line.env line.args line.rounds with
      | .running _ => none
      | .returned ret progress => some ⟨client, ret, progress.printed, progress.exchanges, none⟩

/-- The shell after a line. -/
def step (shell : Shell) (line : Line) : Shell :=
  match line.run program ipv6AddrFromStr shell.client with
  | none => shell
  | some outcome => ⟨outcome.client, Emcute.connected shell.connected outcome.exchanges⟩

/-! ## What is assumed of a run, and what should hold -/

/-- The handler returns, and each of its calls is answered within `guard`. -/
def Answered (guard : Bool → Exchange → Prop) (shell : Shell) (line : Line) : Prop :=
  ∃ outcome ∈ line.run program ipv6AddrFromStr shell.client,
    Along Exchange.connected guard shell.connected outcome.exchanges

instance (guard : Bool → Exchange → Prop) [∀ before exchange, Decidable (guard before exchange)]
    (shell : Shell) (line : Line) : Decidable (Answered program ipv6AddrFromStr guard shell line) :=
  inferInstanceAs (Decidable (∃ _ ∈ _, _))

/-- A request is accepted, unless it is an `emcute_con` while a connection is open. -/
def Accepts (before : Bool) (exchange : Exchange) : Prop :=
  exchange.answer.accepted ↔ ¬ (exchange.call.isCon ∧ before)

/-- Whatever valid arguments it gets, a `rand_pub` whose requests are accepted has
its `emcute_con` accepted and publishes. -/
def Publishes (shell : Shell) : Prop :=
  ∀ env args, (program.target ipv6AddrFromStr args).isOk →
    (∀ n, Along Exchange.connected Accepts shell.connected
      (cmdRandPub program ipv6AddrFromStr env args n).progress.exchanges) →
    ∃ n, (∃ exchange ∈ (cmdRandPub program ipv6AddrFromStr env args n).progress.exchanges,
        exchange.call.isCon ∧ exchange.answer.accepted) ∧
      ∃ exchange ∈ (cmdRandPub program ipv6AddrFromStr env args n).progress.exchanges,
        exchange.call.isPub ∧ exchange.answer.accepted

/-- There are lines after which, if all requests are accepted, `rand_pub` works. -/
def Recoverable (shell : Shell) : Prop :=
  ∃ lines, Along (step program ipv6AddrFromStr) (Answered program ipv6AddrFromStr Accepts) shell
      lines ∧
    Publishes program ipv6AddrFromStr (after (step program ipv6AddrFromStr) shell lines)

/-- The line leaves no connection open behind it: the `emcute_con` of a `con` is
refused, and the first request of a `rand_pub` that is refused is an `emcute_con`. -/
def Harmless (line : Line) : Prop :=
  (line.command = .con → (line.args.head?.bind ipv6AddrFromStr).isSome →
    ¬ (line.env.answers 0).accepted) ∧
  (line.command = .randPub → (program.target ipv6AddrFromStr line.args).isOk →
    ∃ k, FirstRefused line.env.answers (4 * k))

/-! ## The connection after each command -/

theorem connected_cmdCon (before : Bool) (answers : ℕ → Answer) (args : List Text)
    (client : Client) :
    connected before (cmdCon ipv6AddrFromStr answers args client).exchanges =
      (before || ((args.head?.bind ipv6AddrFromStr).isSome && (answers 0).accepted)) := by
  cases args with
  | nil => simp [cmdCon, Outcome.stop, connected]
  | cons address rest =>
      cases haddr : ipv6AddrFromStr address with
      | none => simp [cmdCon, haddr, Outcome.stop, connected]
      | some addr =>
          cases haccepted : (answers 0).accepted <;>
            simp [cmdCon, haddr, connected, Exchange.connected, haccepted]

theorem connected_cmdPub (before : Bool) (answers : ℕ → Answer) (args : List Text)
    (client : Client) : connected before (cmdPub answers args client).exchanges = before := by
  unfold cmdPub
  split
  · dsimp only
    split
    · split <;> rfl
    · rfl
  · rfl

theorem connected_cmdSub (before : Bool) (answers : ℕ → Answer) (args : List Text)
    (client : Client) : connected before (cmdSub answers args client).exchanges = before := by
  unfold cmdSub
  split
  · rfl
  · split
    · rfl
    · split
      · rfl
      · dsimp only
        split <;> rfl

/-- From a state without a connection, `rand_pub` leaves none open if and only if
it is stopped by its arguments or by an `emcute_con`. -/
theorem connected_cmdRandPub_iff {env : Environment} {args : List Text} {n ret : ℕ}
    {progress : Progress}
    (hreturned : cmdRandPub program ipv6AddrFromStr env args n = .returned ret progress) :
    connected false progress.exchanges = false ↔
      ((program.target ipv6AddrFromStr args).isOk → ∃ k, FirstRefused env.answers (4 * k)) := by
  cases htarget : program.target ipv6AddrFromStr args with
  | error line =>
      rw [cmdRandPub_of_error program ipv6AddrFromStr htarget] at hreturned
      cases hreturned
      simp [connected, Progress.start, Progress.print, Except.isOk, Except.toBool]
  | ok target =>
      rw [cmdRandPub_of_ok program ipv6AddrFromStr htarget] at hreturned
      obtain ⟨k, r, hr, hfirst, hconnected⟩ := connected_of_returned hreturned
      rw [hconnected]
      simp only [decide_eq_false_iff_not, not_not, Except.isOk, Except.toBool, true_implies]
      constructor
      · intro hzero
        subst hzero
        exact ⟨k, hfirst⟩
      · intro hexists
        obtain ⟨k', hfirst'⟩ := hexists
        have heq := hfirst.unique hfirst'
        omega

/-- If the first answer is not `EMCUTE_OK`, the `emcute_con` is the only call. -/
theorem exchanges_of_refused {env : Environment} (target : Target) {n : ℕ} (hpos : 0 < n)
    (hrefused : ¬ (env.answers 0).accepted) :
    (rounds env target n).progress.exchanges =
      [⟨.con target.gw true none, env.answers 0⟩] := by
  have hfirst : FirstRefused env.answers 0 :=
    ⟨fun i hi => absurd hi (Nat.not_lt_zero i), hrefused⟩
  rcases rounds_cases env target n with ⟨haccepted, -⟩ | ⟨k, -, r, -, hfirst', printed, hrounds⟩
  · exact absurd (haccepted 0 (by omega)) hrefused
  · have hzero : 0 = 4 * k + r := hfirst.unique hfirst'
    obtain rfl : k = 0 := by omega
    obtain rfl : r = 0 := by omega
    rw [hrounds]
    rfl

/-- `rand_pub` does not close a connection that was open before it. -/
theorem connected_cmdRandPub_of_connected {env : Environment} {args : List Text} {n ret : ℕ}
    {progress : Progress}
    (hreturned : cmdRandPub program ipv6AddrFromStr env args n = .returned ret progress)
    (hrefuses : Along Exchange.connected Exchange.RefusesSecondCon true progress.exchanges) :
    connected true progress.exchanges = true := by
  cases htarget : program.target ipv6AddrFromStr args with
  | error line =>
      rw [cmdRandPub_of_error program ipv6AddrFromStr htarget] at hreturned
      cases hreturned
      rfl
  | ok target =>
      rw [cmdRandPub_of_ok program ipv6AddrFromStr htarget] at hreturned
      have hpos : 0 < n := by
        rcases Nat.eq_zero_or_pos n with rfl | hpos
        · cases hreturned
        · exact hpos
      -- the first call is an `emcute_con`, which is refused while a connection is open
      have hrefused : ¬ (env.answers 0).accepted := by
        obtain ⟨rest, hexchanges⟩ := exists_exchanges_eq_cons hreturned
        rw [hexchanges] at hrefuses
        exact hrefuses.1 rfl rfl
      have hexchanges := exchanges_of_refused target hpos hrefused
      rw [hreturned, Control.progress] at hexchanges
      rw [hexchanges]
      rfl

/-! ## Open connections are traps -/

theorem connected_step {shell : Shell} {line : Line} {outcome : Outcome}
    (hrun : line.run program ipv6AddrFromStr shell.client = some outcome) :
    (step program ipv6AddrFromStr shell line).connected =
      connected shell.connected outcome.exchanges := by
  rw [step, hrun]

/-- A returned line keeps an open connection open. -/
theorem step_connected {shell : Shell} {line : Line} (hconnected : shell.connected = true)
    (hanswered : Answered program ipv6AddrFromStr Exchange.RefusesSecondCon shell line) :
    (step program ipv6AddrFromStr shell line).connected = true := by
  obtain ⟨outcome, hrun, hrefuses⟩ := hanswered
  rw [hconnected] at hrefuses
  rw [connected_step program ipv6AddrFromStr hrun, hconnected]
  obtain ⟨command, args, env, n⟩ := line
  cases command with
  | con =>
      obtain rfl := Option.some.inj hrun
      exact connected_cmdCon ipv6AddrFromStr true env.answers args shell.client
  | pub =>
      obtain rfl := Option.some.inj hrun
      exact connected_cmdPub true env.answers args shell.client
  | sub =>
      obtain rfl := Option.some.inj hrun
      exact connected_cmdSub true env.answers args shell.client
  | randPub =>
      simp only [Line.run] at hrun
      split at hrun
      · cases hrun
      · next hreturned =>
          obtain rfl := Option.some.inj hrun
          exact connected_cmdRandPub_of_connected program ipv6AddrFromStr hreturned hrefuses

/-- Without a connection, a returned line opens one unless it is harmless. -/
theorem step_disconnected_iff {shell : Shell} {line : Line} (hshell : shell.connected = false)
    {outcome : Outcome} (hrun : line.run program ipv6AddrFromStr shell.client = some outcome) :
    (step program ipv6AddrFromStr shell line).connected = false ↔
      Harmless program ipv6AddrFromStr line := by
  rw [connected_step program ipv6AddrFromStr hrun, hshell]
  obtain ⟨command, args, env, n⟩ := line
  cases command with
  | con =>
      obtain rfl := Option.some.inj hrun
      rw [connected_cmdCon]
      simp [Harmless]
  | pub =>
      obtain rfl := Option.some.inj hrun
      simp [connected_cmdPub, Harmless]
  | sub =>
      obtain rfl := Option.some.inj hrun
      simp [connected_cmdSub, Harmless]
  | randPub =>
      simp only [Line.run] at hrun
      split at hrun
      · cases hrun
      · next hreturned =>
          obtain rfl := Option.some.inj hrun
          rw [connected_cmdRandPub_iff program ipv6AddrFromStr hreturned]
          simp [Harmless]

theorem after_connected {shell : Shell} {lines : List Line}
    (hconnected : shell.connected = true)
    (hanswered : Along (step program ipv6AddrFromStr)
      (Answered program ipv6AddrFromStr Exchange.RefusesSecondCon) shell lines) :
    (after (step program ipv6AddrFromStr) shell lines).connected = true :=
  invariant (fun shell => shell.connected = true) hconnected
    (fun _ _ hopen hline => step_connected program ipv6AddrFromStr hopen hline) hanswered

/-- Accepting everything includes refusing a second connection. -/
theorem Answered.refusesSecondCon {shell : Shell} {line : Line}
    (hanswered : Answered program ipv6AddrFromStr Accepts shell line) :
    Answered program ipv6AddrFromStr Exchange.RefusesSecondCon shell line := by
  obtain ⟨outcome, hrun, haccepts⟩ := hanswered
  refine ⟨outcome, hrun, haccepts.mono fun before exchange hexchange hcon hbefore haccepted => ?_⟩
  exact hexchange.mp haccepted ⟨hcon, hbefore⟩

/-- With an open connection the `emcute_con` of a `rand_pub` is refused, and
nothing is published. -/
theorem not_publishes_of_connected {shell : Shell} (hconnected : shell.connected = true)
    (hvalid : ∃ args, (program.target ipv6AddrFromStr args).isOk) :
    ¬ Publishes program ipv6AddrFromStr shell := by
  obtain ⟨args, hargs⟩ := hvalid
  intro hpublishes
  cases htarget : program.target ipv6AddrFromStr args with
  | error line => simp [htarget, Except.isOk, Except.toBool] at hargs
  | ok target =>
      have hexchanges (n : ℕ) : (cmdRandPub program ipv6AddrFromStr (acceptsFirst 0) args
            n).progress.exchanges = [] ∨
          (cmdRandPub program ipv6AddrFromStr (acceptsFirst 0) args n).progress.exchanges =
            [⟨.con target.gw true none, ⟨.failed, 1⟩⟩] := by
        rw [cmdRandPub_of_ok program ipv6AddrFromStr htarget]
        rcases Nat.eq_zero_or_pos n with rfl | hpos
        · exact Or.inl rfl
        · exact Or.inr (exchanges_of_refused target hpos (by decide))
      -- with a connection open, the gateway that refuses everything refuses what it should
      obtain ⟨n, ⟨exchange, hmem, -, haccepted⟩, -⟩ := hpublishes (acceptsFirst 0) args hargs
        fun n => by
          rw [hconnected]
          rcases hexchanges n with hnone | hcon
          · rw [hnone]
            trivial
          · rw [hcon]
            exact ⟨by simp [Accepts, Answer.accepted, Call.isCon], trivial⟩
      rcases hexchanges n with hnone | hcon
      · simp [hnone] at hmem
      · rw [hcon] at hmem
        obtain rfl := List.mem_singleton.mp hmem
        simp [Answer.accepted] at haccepted

/-- Without a connection, accepting every request includes those of a round. -/
theorem accepted_of_along_accepts {env : Environment} {target : Target} {asked drawn r : ℕ}
    (hr : r < 4) (haccepts : Along Exchange.connected Accepts false
      ((planOfRound env target asked drawn).take (r + 1))) :
    (env.answers (asked + r)).accepted := by
  have hlength : r < (planOfRound env target asked drawn).length := hr
  rw [List.take_add_one, List.getElem?_eq_getElem hlength, Option.toList_some,
    along_concat] at haccepts
  -- only the first call is an `emcute_con`, and no connection is open before it
  match r with
  | 0 => exact haccepts.2.mpr (by simp)
  | 1 => exact haccepts.2.mpr (by simp [planOfRound, Call.isCon])
  | 2 => exact haccepts.2.mpr (by simp [planOfRound, Call.isCon])
  | 3 => exact haccepts.2.mpr (by simp [planOfRound, Call.isCon])

/-- Without one, the first round of an accepted `rand_pub` publishes. -/
theorem publishes_of_disconnected {shell : Shell} (hshell : shell.connected = false) :
    Publishes program ipv6AddrFromStr shell := by
  intro env args hargs haccepts
  cases htarget : program.target ipv6AddrFromStr args with
  | error line => simp [htarget, Except.isOk, Except.toBool] at hargs
  | ok target =>
      have hfirst := haccepts 1
      refine ⟨1, ?_⟩
      rw [cmdRandPub_of_ok program ipv6AddrFromStr htarget] at hfirst ⊢
      rw [hshell] at hfirst
      rcases rounds_cases env target 1 with ⟨haccepted, printed, hrunning⟩ |
        ⟨k, hk, r, hr, hrefused, printed, hreturned⟩
      · have hcon := haccepted 0 (by decide)
        have hpub := haccepted 2 (by decide)
        rw [hrunning, Control.progress, plan_succ, plan_zero, List.nil_append]
        refine ⟨?_, ?_⟩
        · exact ⟨⟨.con target.gw true none, env.answers 0⟩, by simp [planOfRound], rfl, hcon⟩
        · exact ⟨⟨.pub target.topic (env.answers 1).id
            (payloadOf (env.words 0) (env.words 1)) .qos0, env.answers 2⟩, by simp [planOfRound],
            rfl, hpub⟩
      · -- no call of the first round could be refused
        obtain rfl := Nat.lt_one_iff.mp hk
        rw [hreturned, Control.progress, plan_zero, List.nil_append] at hfirst
        exact absurd (accepted_of_along_accepts hr hfirst) hrefused.2

/-- **The traps.**  The shell can recover if and only if no connection is open. -/
theorem recoverable_iff (hvalid : ∃ args, (program.target ipv6AddrFromStr args).isOk)
    (shell : Shell) :
    Recoverable program ipv6AddrFromStr shell ↔ shell.connected = false := by
  constructor
  · intro hrecoverable
    obtain ⟨lines, hanswered, hpublishes⟩ := hrecoverable
    -- an open connection stays open, whatever lines are entered
    by_contra hopen
    have hconnected := after_connected program ipv6AddrFromStr (by simpa using hopen)
      (hanswered.mono fun _ _ hline => hline.refusesSecondCon)
    exact not_publishes_of_connected program ipv6AddrFromStr hconnected hvalid hpublishes
  · intro hshell
    exact ⟨[], trivial, publishes_of_disconnected program ipv6AddrFromStr hshell⟩

/-! ## The main statement -/

theorem after_disconnected_iff {shell : Shell} (hshell : shell.connected = false)
    {lines : List Line}
    (hanswered : Along (step program ipv6AddrFromStr)
      (Answered program ipv6AddrFromStr Exchange.RefusesSecondCon) shell lines) :
    (after (step program ipv6AddrFromStr) shell lines).connected = false ↔
      ∀ line ∈ lines, Harmless program ipv6AddrFromStr line := by
  induction lines generalizing shell with
  | nil => simp [hshell]
  | cons line lines ih =>
      obtain ⟨outcome, hrun, -⟩ := hanswered.1
      have hstep := step_disconnected_iff program ipv6AddrFromStr hshell hrun
      rw [after_cons, List.forall_mem_cons]
      cases hnext : (step program ipv6AddrFromStr shell line).connected with
      | false => rw [ih hnext hanswered.2, and_iff_right (hstep.mp hnext)]
      | true =>
          -- this line has opened the connection, and the later ones cannot close it
          have hlater := after_connected program ipv6AddrFromStr hnext hanswered.2
          simp [hlater, ← hstep, hnext]

/-- **When the shell can recover.**  A run of returned commands ends in a state
from which `rand_pub` can be made to publish if and only if no `emcute_con` of a
`con` was accepted and no `rand_pub` was refused anything but its `emcute_con`. -/
theorem shell_recoverable_iff (lines : List Line)
    (hvalid : ∃ args, (program.target ipv6AddrFromStr args).isOk)
    (hanswered : Along (step program ipv6AddrFromStr)
      (Answered program ipv6AddrFromStr Exchange.RefusesSecondCon) Shell.start lines) :
    Recoverable program ipv6AddrFromStr
        (after (step program ipv6AddrFromStr) Shell.start lines) ↔
      ∀ line ∈ lines, Harmless program ipv6AddrFromStr line := by
  rw [recoverable_iff program ipv6AddrFromStr hvalid]
  exact after_disconnected_iff program ipv6AddrFromStr rfl hanswered

/-- A `rand_pub` whose `emcute_reg` is refused. -/
def refusedReg : List Line :=
  [⟨.randPub, [gatewayAddress], acceptsFirst 1, 1⟩]

theorem shell_recoverable_iff_refusedReg :
    Recoverable .randomPub gatewayFromStr
        (after (step .randomPub gatewayFromStr) Shell.start refusedReg) ↔
      ∀ line ∈ refusedReg, Harmless .randomPub gatewayFromStr line :=
  shell_recoverable_iff .randomPub gatewayFromStr refusedReg
    ⟨[gatewayAddress], by decide⟩ (by decide)

/-- After a refused `emcute_reg` nothing helps. -/
theorem exists_not_recoverable :
    ¬ ∀ (program : Program) (ipv6AddrFromStr : Text → Option Ipv6Addr) (lines : List Line),
      Along (step program ipv6AddrFromStr)
        (Answered program ipv6AddrFromStr Exchange.RefusesSecondCon) Shell.start lines →
      Recoverable program ipv6AddrFromStr
        (after (step program ipv6AddrFromStr) Shell.start lines) := by
  intro hclaim
  have hrecoverable := hclaim .randomPub gatewayFromStr refusedReg (by decide)
  rw [recoverable_iff _ _ ⟨[gatewayAddress], by decide⟩] at hrecoverable
  exact absurd hrecoverable (by decide)

end AwsIotSensors.RandomPub
