import AwsIotSensors.Emcute.Commands
import AwsIotSensors.RandomPub.Readings

/-!
# The publishing loop

`cmd_rand_pub` of the two `random_pub` programs.  After the checks of its
arguments it loops for ever: two readings, then `emcute_con`, `emcute_reg`,
`emcute_pub` and `emcute_discon`, with a return after each call that fails.  The
loop is run for a number of rounds; `Control.running` is a command that is still
in it.

What a run does is determined by the first answer that is not `EMCUTE_OK`.  The
calls of `n` rounds are planned in `plan n`, and `rounds_cases` says that the
loop makes all of them if they are accepted, and otherwise returns 1 right after
the first that is not (`FirstRefused`).
-/

namespace AwsIotSensors.RandomPub

open CString Emcute

/-- What the program does not decide itself: the words of `random_uint32` and
the answers to its emCute calls, each in the order in which they are asked for. -/
structure Environment where
  words : ℕ → Word
  answers : ℕ → Answer

/-- What the command has done so far: the number of words it has drawn, the
emCute calls and the printed lines. -/
structure Progress where
  drawn : ℕ
  exchanges : List Exchange
  printed : List String

/-- Nothing has been done. -/
def Progress.start : Progress := ⟨0, [], []⟩

/-- Draw the next word. -/
def Progress.draw (env : Environment) (progress : Progress) : Word × Progress :=
  (env.words progress.drawn, { progress with drawn := progress.drawn + 1 })

/-- Make an emCute call, which gets the next answer. -/
def Progress.call (env : Environment) (call : Call) (progress : Progress) : Answer × Progress :=
  let answer := env.answers progress.exchanges.length
  (answer, { progress with exchanges := progress.exchanges ++ [⟨call, answer⟩] })

/-- Print a line. -/
def Progress.print (line : String) (progress : Progress) : Progress :=
  { progress with printed := progress.printed ++ [line] }

/-- Where the command is: in its loop, or returned. -/
inductive Control
  | running (progress : Progress)
  | returned (ret : ℕ) (progress : Progress)

/-- What has been done, wherever the command is. -/
def Control.progress : Control → Progress
  | .running progress => progress
  | .returned _ progress => progress

/-! ## The source -/

/-- The two programs with a `cmd_rand_pub`: `emcute_mqttsn_random_pub` and
`emcute_mqttsn_random_pub_topic`. -/
inductive Program
  | randomPub
  | randomPubTopic
deriving DecidableEq

/-- The smallest `argc` the command accepts. -/
def Program.minArgc : Program → ℕ
  | .randomPub => 2
  | .randomPubTopic => 3

/-- The usage line. -/
def Program.usage : Program → String
  | .randomPub => "usage: rand_pub <ipv6 addr> [port] "
  | .randomPubTopic => "usage: rand_pub <ipv6 addr> <port> [topic] "

/-- The initial content of `topic` in the one program, of `topic_buf` in the other. -/
def defaultTopic : Text :=
  .ofString "$aws/things/test/shadow/update"

/-- The topic: a third argument replaces it in `random_pub_topic`, if it is the last. -/
def Program.topic : Program → List Text → Text
  | .randomPubTopic, [_, _, topic] => topic
  | _, _ => defaultTopic

/-- What the arguments say: the address as it was given, the gateway, the topic. -/
structure Target where
  address : Text
  gw : Endpoint
  topic : Text

/-- The gateway in messages, `[%s]:%i`. -/
def Target.place (target : Target) : String :=
  "[" ++ target.address.toString ++ "]:" ++ target.gw.port.toNat.repr

/-- The part of `cmd_rand_pub` before the loop: the target, or the line that is
printed before it returns 1. -/
def Program.target (program : Program) (ipv6AddrFromStr : Text → Option Ipv6Addr)
    (args : List Text) : Except String Target :=
  match args with
  | [] => .error program.usage
  | address :: rest =>
      if rest.length + 2 < program.minArgc then .error program.usage
      else
        match ipv6AddrFromStr address with
        | none => .error "error parsing IPv6 address"
        | some addr =>
            let port := match rest with
              | [] => emcutePort
              | port :: _ => UInt16.ofInt (atoi port)
            .ok ⟨address, ⟨addr, port⟩, program.topic args⟩

/-- The body of the loop. -/
def round (env : Environment) (target : Target) (progress : Progress) : Control :=
  let topic := target.topic
  let (word, progress) := progress.draw env
  let temperature := getTemperature word
  let (word, progress) := progress.draw env
  let humidity := getHumidity word
  let progress := progress.print (temperature.repr ++ ", " ++ humidity.repr ++ " ")
  let data := measures temperature humidity
  let (con, progress) := progress.call env (.con target.gw true none)
  if con.accepted then
    let progress := progress.print ("Successfully connected to gateway at " ++ target.place)
    -- The line ends with the numeric flags, which are defined in `emcute.h`.
    let progress := progress.print
      ("pub with topic: " ++ topic.toString ++ " and msg " ++ String.ofList data)
    let (reg, progress) := progress.call env (.reg topic)
    if reg.accepted then
      let (pub, progress) := progress.call env (.pub topic reg.id data .qos0)
      if pub.accepted then
        let (discon, progress) := progress.call env .discon
        match discon.result with
        | .noGw => .returned 1 (progress.print "error: not connected to any broker")
        | .failed => .returned 1 (progress.print "error: unable to disconnect")
        | .ok =>
            .running ((progress.print "Disconnect successful").print
              ("Published " ++ data.length.repr ++ " bytes to topic " ++ topicShown topic reg.id))
      else
        .returned 1
          (progress.print ("error: unable to publish data to topic " ++ topicShown topic reg.id))
    else .returned 1 (progress.print "error: unable to obtain topic ID")
  else .returned 1 (progress.print ("error: unable to connect to " ++ target.place))

/-- The first `n` rounds of the loop. -/
def rounds (env : Environment) (target : Target) : ℕ → Control
  | 0 => .running .start
  | n + 1 =>
      match rounds env target n with
      | .running progress => round env target progress
      | .returned ret progress => .returned ret progress

/-- `cmd_rand_pub`, followed for at most `n` rounds of its loop. -/
def cmdRandPub (program : Program) (ipv6AddrFromStr : Text → Option Ipv6Addr)
    (env : Environment) (args : List Text) (n : ℕ) : Control :=
  match program.target ipv6AddrFromStr args with
  | .error line => .returned 1 (Progress.start.print line)
  | .ok target => rounds env target n

/-! ## The plan of the loop -/

/-- The four calls of a round, with the answers from number `asked` on and the
words from number `drawn` on. -/
def planOfRound (env : Environment) (target : Target) (asked drawn : ℕ) : List Exchange :=
  [⟨.con target.gw true none, env.answers asked⟩,
    ⟨.reg target.topic, env.answers (asked + 1)⟩,
    ⟨.pub target.topic (env.answers (asked + 1)).id
      (payloadOf (env.words drawn) (env.words (drawn + 1))) .qos0, env.answers (asked + 2)⟩,
    ⟨.discon, env.answers (asked + 3)⟩]

/-- The calls of the first `n` rounds: round `k` has the answers from `4 * k` on
and the words `2 * k` and `2 * k + 1`. -/
def plan (env : Environment) (target : Target) (n : ℕ) : List Exchange :=
  (List.range n).flatMap fun k => planOfRound env target (4 * k) (2 * k)

/-- Answer number `j` is the first that is not `EMCUTE_OK`. -/
def FirstRefused (answers : ℕ → Answer) (j : ℕ) : Prop :=
  (∀ i < j, (answers i).accepted) ∧ ¬ (answers j).accepted

instance (answers : ℕ → Answer) (j : ℕ) : Decidable (FirstRefused answers j) :=
  inferInstanceAs (Decidable (_ ∧ _))

variable {env : Environment} {target : Target}

theorem length_planOfRound (asked drawn : ℕ) :
    (planOfRound env target asked drawn).length = 4 := rfl

theorem plan_zero : plan env target 0 = [] := rfl

theorem plan_succ (n : ℕ) :
    plan env target (n + 1) = plan env target n ++ planOfRound env target (4 * n) (2 * n) := by
  simp [plan, List.range_succ]

theorem length_plan (env : Environment) (target : Target) (n : ℕ) :
    (plan env target n).length = 4 * n := by
  induction n with
  | zero => rfl
  | succ n ih =>
      rw [plan_succ, List.length_append, ih, length_planOfRound]
      omega

/-- Among the first `m` answers there is a first one that is refused, or none. -/
theorem accepted_or_firstRefused (answers : ℕ → Answer) (m : ℕ) :
    (∀ i < m, (answers i).accepted) ∨ ∃ j < m, FirstRefused answers j := by
  induction m with
  | zero => exact Or.inl fun i hi => absurd hi (Nat.not_lt_zero i)
  | succ m ih =>
      rcases ih with haccepted | ⟨j, hj, hfirst⟩
      · by_cases hm : (answers m).accepted
        · refine Or.inl fun i hi => ?_
          rcases Nat.lt_succ_iff_lt_or_eq.mp hi with hlt | rfl
          · exact haccepted i hlt
          · exact hm
        · exact Or.inr ⟨m, Nat.lt_succ_self m, haccepted, hm⟩
      · exact Or.inr ⟨j, Nat.lt_succ_of_lt hj, hfirst⟩

theorem FirstRefused.unique {answers : ℕ → Answer} {j j' : ℕ} (hj : FirstRefused answers j)
    (hj' : FirstRefused answers j') : j = j' := by
  rcases lt_trichotomy j j' with hlt | heq | hgt
  · exact absurd (hj'.1 j hlt) hj.2
  · exact heq
  · exact absurd (hj.1 j' hgt) hj'.2

/-! ## What a round does -/

/-- A round whose four calls are accepted goes on to the next. -/
theorem round_of_accepted (target : Target) (progress : Progress)
    (haccepted : ∀ i < 4, (env.answers (progress.exchanges.length + i)).accepted) :
    ∃ printed, round env target progress = .running ⟨progress.drawn + 2,
      progress.exchanges ++
        planOfRound env target progress.exchanges.length progress.drawn, printed⟩ := by
  have hcon := haccepted 0 (by decide)
  have hreg := haccepted 1 (by decide)
  have hpub := haccepted 2 (by decide)
  have hdiscon := haccepted 3 (by decide)
  have hok : (env.answers (progress.exchanges.length + 3)).result = .ok := by
    simpa [Answer.accepted] using hdiscon
  simp only [add_zero] at hcon
  simp [round, planOfRound, payloadOf, Progress.draw, Progress.call, Progress.print, hcon, hreg,
    hpub, hok]

/-- A round returns 1 right after the first of its calls that is not accepted. -/
theorem round_of_refused (target : Target) (progress : Progress) {r : ℕ} (hr : r < 4)
    (haccepted : ∀ i < r, (env.answers (progress.exchanges.length + i)).accepted)
    (hrefused : ¬ (env.answers (progress.exchanges.length + r)).accepted) :
    ∃ printed, round env target progress = .returned 1 ⟨progress.drawn + 2,
      progress.exchanges ++
        (planOfRound env target progress.exchanges.length progress.drawn).take (r + 1),
      printed⟩ := by
  match r with
  | 0 =>
      simp only [add_zero] at hrefused
      simp [round, planOfRound, Progress.draw, Progress.call, Progress.print, hrefused]
  | 1 =>
      have hcon := haccepted 0 (by decide)
      simp only [add_zero] at hcon
      simp [round, planOfRound, Progress.draw, Progress.call, Progress.print, hcon, hrefused]
  | 2 =>
      have hcon := haccepted 0 (by decide)
      have hreg := haccepted 1 (by decide)
      simp only [add_zero] at hcon
      simp [round, planOfRound, payloadOf, Progress.draw, Progress.call, Progress.print, hcon,
        hreg, hrefused]
  | 3 =>
      have hcon := haccepted 0 (by decide)
      have hreg := haccepted 1 (by decide)
      have hpub := haccepted 2 (by decide)
      simp only [add_zero] at hcon
      cases hdiscon : (env.answers (progress.exchanges.length + 3)).result with
      | ok => exact absurd hrefused (by simp [Answer.accepted, hdiscon])
      | noGw =>
          simp [round, planOfRound, payloadOf, Progress.draw, Progress.call, Progress.print,
            hcon, hreg, hpub, hdiscon]
      | failed =>
          simp [round, planOfRound, payloadOf, Progress.draw, Progress.call, Progress.print,
            hcon, hreg, hpub, hdiscon]

/-! ## What the loop does -/

/-- **What `n` rounds do.**  Either all their calls are accepted and the loop goes
on, or it has returned 1 right after the first that is not, call `r` of round `k`. -/
theorem rounds_cases (env : Environment) (target : Target) (n : ℕ) :
    ((∀ i < 4 * n, (env.answers i).accepted) ∧ ∃ printed,
      rounds env target n = .running ⟨2 * n, plan env target n, printed⟩) ∨
    (∃ k < n, ∃ r < 4, FirstRefused env.answers (4 * k + r) ∧ ∃ printed,
      rounds env target n = .returned 1 ⟨2 * k + 2,
        plan env target k ++ (planOfRound env target (4 * k) (2 * k)).take (r + 1), printed⟩) := by
  induction n with
  | zero => exact Or.inl ⟨by simp, [], rfl⟩
  | succ n ih =>
      rcases ih with ⟨haccepted, printed, hrunning⟩ | ⟨k, hk, r, hr, hfirst, printed, hreturned⟩
      · have hnext : rounds env target (n + 1) =
            round env target ⟨2 * n, plan env target n, printed⟩ := by
          rw [rounds, hrunning]
        rcases accepted_or_firstRefused env.answers (4 * (n + 1)) with hall | ⟨j, hj, hfirst⟩
        · left
          have hstep := round_of_accepted target ⟨2 * n, plan env target n, printed⟩
            fun i hi => hall _ (by rw [length_plan]; omega)
          simp only [length_plan] at hstep
          obtain ⟨more, hmore⟩ := hstep
          refine ⟨hall, more, ?_⟩
          rw [hnext, hmore, plan_succ]
          rfl
        · right
          -- the rounds before were accepted, so it is a call of this one
          have hge : 4 * n ≤ j := by
            by_contra hlt
            exact hfirst.2 (haccepted j (by omega))
          obtain ⟨r, rfl⟩ := Nat.exists_eq_add_of_le hge
          have hr : r < 4 := by omega
          have hstep := round_of_refused target ⟨2 * n, plan env target n, printed⟩ hr
            (fun i hi => hfirst.1 _ (by rw [length_plan]; omega))
            (by rw [length_plan]; exact hfirst.2)
          simp only [length_plan] at hstep
          obtain ⟨more, hmore⟩ := hstep
          exact ⟨n, Nat.lt_succ_self n, r, hr, hfirst, more, hnext.trans hmore⟩
      · right
        refine ⟨k, Nat.lt_succ_of_lt hk, r, hr, hfirst, printed, ?_⟩
        rw [rounds, hreturned]

/-- A loop that was left was left right after the first refused call. -/
theorem rounds_of_returned {n ret : ℕ} {progress : Progress}
    (hreturned : rounds env target n = .returned ret progress) :
    ∃ k < n, ∃ r < 4, FirstRefused env.answers (4 * k + r) ∧ progress.exchanges =
      plan env target k ++ (planOfRound env target (4 * k) (2 * k)).take (r + 1) := by
  rcases rounds_cases env target n with ⟨-, printed, hrunning⟩ |
    ⟨k, hk, r, hr, hfirst, printed, hrounds⟩
  · rw [hrunning] at hreturned
    cases hreturned
  · rw [hrounds] at hreturned
    cases hreturned
    exact ⟨k, hk, r, hr, hfirst, rfl⟩

/-- The first call of a loop that was left is the `emcute_con` of its first round. -/
theorem exists_exchanges_eq_cons {n ret : ℕ} {progress : Progress}
    (hreturned : rounds env target n = .returned ret progress) :
    ∃ rest, progress.exchanges = ⟨.con target.gw true none, env.answers 0⟩ :: rest := by
  obtain ⟨k, -, r, -, -, hexchanges⟩ := rounds_of_returned hreturned
  rw [hexchanges]
  cases k with
  | zero => exact ⟨_, rfl⟩
  | succ k =>
      -- the first round is at the front of the plan
      rw [plan, List.range_succ_eq_map, List.flatMap_cons]
      exact ⟨_, rfl⟩

/-- A run that has returned does not change with more rounds. -/
theorem rounds_of_le {n m ret : ℕ} {progress : Progress} (hle : n ≤ m)
    (hreturned : rounds env target n = .returned ret progress) :
    rounds env target m = .returned ret progress := by
  induction m with
  | zero => rwa [Nat.le_zero.mp hle] at hreturned
  | succ m ih =>
      rcases Nat.le_succ_iff.mp hle with hlt | rfl
      · rw [rounds, ih hlt]
      · exact hreturned

/-- After `n` rounds the loop still runs if and only if all their answers are
`EMCUTE_OK`. -/
theorem rounds_running_iff (n : ℕ) :
    (∃ progress, rounds env target n = .running progress) ↔
      ∀ i < 4 * n, (env.answers i).accepted := by
  rcases rounds_cases env target n with ⟨haccepted, printed, hrunning⟩ |
    ⟨k, hk, r, hr, hfirst, printed, hreturned⟩
  · exact iff_of_true ⟨_, hrunning⟩ haccepted
  · refine iff_of_false ?_ fun haccepted => hfirst.2 (haccepted _ (by omega))
    rintro ⟨progress, hrunning⟩
    rw [hreturned] at hrunning
    cases hrunning

/-- The loop has returned 1 within `n` rounds, for good, if and only if one of their
answers is not `EMCUTE_OK`. -/
theorem rounds_returned_iff (n : ℕ) :
    (∃ progress, ∀ m ≥ n, rounds env target m = .returned 1 progress) ↔
      ∃ i < 4 * n, ¬ (env.answers i).accepted := by
  rcases rounds_cases env target n with ⟨haccepted, printed, hrunning⟩ |
    ⟨k, hk, r, hr, hfirst, printed, hreturned⟩
  · refine iff_of_false ?_ ?_
    · rintro ⟨progress, hreturned⟩
      rw [hreturned n le_rfl] at hrunning
      cases hrunning
    · rintro ⟨i, hi, hrefused⟩
      exact hrefused (haccepted i hi)
  · exact iff_of_true ⟨_, fun m hm => rounds_of_le hm hreturned⟩
      ⟨4 * k + r, by omega, hfirst.2⟩

/-- **How long the command runs.**  For either program, any arguments and answers, the
command has returned 1 within `n` rounds, and for good, if and only if its arguments are
refused or one of the first `4 * n` answers is not `EMCUTE_OK`; else it still runs.  So it
runs for ever exactly if its arguments are right and every call is accepted. -/
theorem cmdRandPub_returns_iff (program : Program) (ipv6AddrFromStr : Text → Option Ipv6Addr)
    (env : Environment) (args : List Text) (n : ℕ) :
    ((∃ progress, ∀ m ≥ n, cmdRandPub program ipv6AddrFromStr env args m =
        .returned 1 progress) ↔
      (∃ line, program.target ipv6AddrFromStr args = .error line) ∨
        ∃ i < 4 * n, ¬ (env.answers i).accepted) ∧
    ((∃ progress, cmdRandPub program ipv6AddrFromStr env args n = .running progress) ↔
      (∃ target, program.target ipv6AddrFromStr args = .ok target) ∧
        ∀ i < 4 * n, (env.answers i).accepted) := by
  unfold cmdRandPub
  cases program.target ipv6AddrFromStr args with
  | error line => simpa using Exists.intro _ fun _ _ => rfl
  | ok target => simpa using And.intro (rounds_returned_iff n) (rounds_running_iff n)

end AwsIotSensors.RandomPub
