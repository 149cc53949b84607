import AwsIotSensors.RandomPub.Connection

/-!
# The session discipline of the publishing loop

The emCute calls of `cmd_rand_pub` are those of its plan, up to the first that is
refused.  This module reads the discipline off the plan: the calls are a prefix
of `emcute_con`, `emcute_reg`, `emcute_pub`, `emcute_discon` repeated, publication
number `k` comes right after the `emcute_con` and the `emcute_reg` of its own
round and carries the readings drawn from the words `2 * k` and `2 * k + 1`, and
the loop returns 1 right after the first call that is not answered `EMCUTE_OK`
(`cmdRandPub_disciplined`).
-/

namespace AwsIotSensors.RandomPub

open CString Emcute Runs

/-- The calls of a round. -/
inductive Phase
  | con
  | reg
  | pub
  | discon
deriving DecidableEq

/-- The phase a call belongs to, if it is one of the loop. -/
def phaseOf : Call → Option Phase
  | .con .. => some .con
  | .reg .. => some .reg
  | .pub .. => some .pub
  | .discon => some .discon
  | _ => none

/-- The phases of `n` rounds. -/
def cycle (n : ℕ) : List (Option Phase) :=
  (List.replicate n [some .con, some .reg, some .pub, some .discon]).flatten

/-- The number of publications. -/
def publications (exchanges : List Exchange) : ℕ :=
  exchanges.countP fun exchange => exchange.call.isPub

/-- Publication number `k` uses the connection and the topic of its own round, and
carries the readings drawn from the words `2 * k` and `2 * k + 1`. -/
def PublishesInTurn (env : Environment) (exchanges : List Exchange) : Prop :=
  ∀ before exchange later, exchanges = before ++ exchange :: later → exchange.call.isPub →
    ∃ earlier con reg name flags, before = earlier ++ [con, reg] ∧
      connected false earlier = false ∧ con.call.isCon ∧ con.answer.accepted ∧
      reg.call = .reg name ∧ reg.answer.accepted ∧
      exchange.call = .pub name reg.answer.id
        (measures (getTemperature (env.words (2 * publications before)))
          (getHumidity (env.words (2 * publications before + 1)))) flags

/-- What is expected of the command after `n` rounds of its loop. -/
structure Disciplined (env : Environment) (n : ℕ) (control : Control) : Prop where
  phases : control.progress.exchanges.map (fun exchange => phaseOf exchange.call) <+: cycle n
  answers : control.progress.exchanges.map Exchange.answer <+: (List.range (4 * n)).map env.answers
  inTurn : PublishesInTurn env control.progress.exchanges
  continues : ∀ progress, control = .running progress →
    progress.exchanges.length = 4 * n ∧ ∀ exchange ∈ progress.exchanges, exchange.answer.accepted
  returns : ∀ ret progress, control = .returned ret progress → ret = 1 ∧
    ∃ before last, progress.exchanges = before ++ [last] ∧
      (∀ exchange ∈ before, exchange.answer.accepted) ∧ ¬ last.answer.accepted

variable {env : Environment} {target : Target}

/-! ## The plan is disciplined -/

theorem phases_plan (n : ℕ) :
    (plan env target n).map (fun exchange => phaseOf exchange.call) = cycle n := by
  induction n with
  | zero => rfl
  | succ n ih =>
      rw [plan_succ, List.map_append, ih, cycle, cycle, List.replicate_succ', List.flatten_concat]
      rfl

theorem answers_take_planOfRound (k : ℕ) {r : ℕ} (hr : r ≤ 4) :
    ((planOfRound env target (4 * k) (2 * k)).take r).map Exchange.answer =
      ((List.range r).map (4 * k + ·)).map env.answers := by
  interval_cases r <;> rfl

theorem answers_plan (n : ℕ) :
    (plan env target n).map Exchange.answer = (List.range (4 * n)).map env.answers := by
  induction n with
  | zero => rfl
  | succ n ih =>
      rw [plan_succ, List.map_append, ih, Nat.mul_succ, List.range_add, List.map_append,
        ← answers_take_planOfRound n le_rfl]
      rfl

/-- The answers of a run that is left in round `k`. -/
theorem answers_plan_append (k : ℕ) {r : ℕ} (hr : r ≤ 4) :
    (plan env target k ++ (planOfRound env target (4 * k) (2 * k)).take r).map Exchange.answer =
      (List.range (4 * k + r)).map env.answers := by
  rw [List.map_append, answers_plan, answers_take_planOfRound k hr, List.range_add,
    List.map_append]

theorem publications_plan (n : ℕ) : publications (plan env target n) = n := by
  induction n with
  | zero => rfl
  | succ n ih =>
      rw [plan_succ, publications, List.countP_append, ← publications, ih]
      rfl

/-- Where the publications of a plan are. -/
theorem plan_eq_append_of_isPub {n : ℕ} {before later : List Exchange} {exchange : Exchange}
    (hplan : plan env target n = before ++ exchange :: later) (hpub : exchange.call.isPub) :
    ∃ k, before = plan env target k ++ (planOfRound env target (4 * k) (2 * k)).take 2 ∧
      exchange.call = .pub target.topic (env.answers (4 * k + 1)).id
        (payloadOf (env.words (2 * k)) (env.words (2 * k + 1))) .qos0 := by
  induction n generalizing later with
  | zero => simp [plan_zero] at hplan
  | succ n ih =>
      rw [plan_succ] at hplan
      rcases List.append_eq_append_iff.mp hplan with
        ⟨front, hbefore, hround⟩ | ⟨back, hprev, hlater⟩
      · -- it is a call of the last round, and only the third one publishes
        refine ⟨n, ?_⟩
        match front, hround with
        | [], hround =>
            obtain ⟨rfl, -⟩ := List.cons.inj hround
            simp [Call.isPub] at hpub
        | [_], hround =>
            simp only [planOfRound, List.cons_append, List.nil_append, List.cons.injEq] at hround
            obtain ⟨-, rfl, -⟩ := hround
            simp [Call.isPub] at hpub
        | [_, _], hround =>
            simp only [planOfRound, List.cons_append, List.nil_append, List.cons.injEq] at hround
            obtain ⟨rfl, rfl, rfl, -⟩ := hround
            exact ⟨hbefore, rfl⟩
        | [_, _, _], hround =>
            simp only [planOfRound, List.cons_append, List.nil_append, List.cons.injEq] at hround
            obtain ⟨-, -, -, rfl, -⟩ := hround
            simp [Call.isPub] at hpub
        | _ :: _ :: _ :: _ :: _, hround => simp [planOfRound] at hround
      · cases back with
        | nil =>
            obtain ⟨rfl, -⟩ := List.cons.inj hlater
            simp [Call.isPub] at hpub
        | cons first back =>
            obtain ⟨rfl, -⟩ := List.cons.inj hlater
            exact ih hprev

theorem plan_prefix_plan {k n : ℕ} (hle : k ≤ n) : plan env target k <+: plan env target n := by
  induction n with
  | zero =>
      obtain rfl := Nat.le_zero.mp hle
      exact List.prefix_rfl
  | succ n ih =>
      rcases Nat.le_succ_iff.mp hle with hk | rfl
      · rw [plan_succ]
        exact (ih hk).trans (List.prefix_append ..)
      · exact List.prefix_rfl

/-! ## The run is disciplined -/

/-- What a run has done is a prefix of the plan. -/
theorem exchanges_prefix_plan (env : Environment) (target : Target) (n : ℕ) :
    (rounds env target n).progress.exchanges <+: plan env target n := by
  rcases rounds_cases env target n with ⟨-, printed, hrounds⟩ | ⟨k, hk, r, -, -, printed, hrounds⟩
  · rw [hrounds]
    exact List.prefix_rfl
  · rw [hrounds]
    have hround : plan env target k ++ (planOfRound env target (4 * k) (2 * k)).take (r + 1) <+:
        plan env target (k + 1) := by
      rw [plan_succ]
      exact (List.prefix_append_right_inj _).mpr (List.take_prefix ..)
    exact hround.trans (plan_prefix_plan hk)

/-- A loop that goes on has had all its calls accepted. -/
theorem accepted_of_running {n : ℕ} {progress : Progress}
    (hrunning : rounds env target n = .running progress) :
    progress.exchanges.length = 4 * n ∧
      ∀ exchange ∈ progress.exchanges, exchange.answer.accepted := by
  rcases rounds_cases env target n with ⟨haccepted, printed, hrounds⟩ |
    ⟨k, -, r, -, -, printed, hrounds⟩
  · obtain rfl := Control.running.inj (hrounds.symm.trans hrunning)
    refine ⟨length_plan env target n, ?_⟩
    intro exchange hmem
    have hanswer : exchange.answer ∈ (List.range (4 * n)).map env.answers := by
      rw [← answers_plan]
      exact List.mem_map_of_mem hmem
    obtain ⟨i, hi, hsame⟩ := List.mem_map.mp hanswer
    rw [← hsame]
    exact haccepted i (List.mem_range.mp hi)
  · rw [hrounds] at hrunning
    cases hrunning

/-- A loop that was left has had all its calls accepted but the last. -/
theorem last_of_returned {n ret : ℕ} {progress : Progress}
    (hreturned : rounds env target n = .returned ret progress) :
    ret = 1 ∧ ∃ before last, progress.exchanges = before ++ [last] ∧
      (∀ exchange ∈ before, exchange.answer.accepted) ∧ ¬ last.answer.accepted := by
  rcases rounds_cases env target n with ⟨-, printed, hrounds⟩ |
    ⟨k, -, r, hr, hfirst, printed, hrounds⟩
  · rw [hrounds] at hreturned
    cases hreturned
  · rw [hrounds] at hreturned
    cases hreturned
    refine ⟨rfl, ?_⟩
    have hlength : r < (planOfRound env target (4 * k) (2 * k)).length := hr
    refine ⟨plan env target k ++ (planOfRound env target (4 * k) (2 * k)).take r,
      (planOfRound env target (4 * k) (2 * k))[r], ?_, ?_, ?_⟩
    · rw [List.append_assoc, List.take_append_getElem]
    · -- their answers are those before the first that is refused
      intro exchange hmem
      have hanswer : exchange.answer ∈ (List.range (4 * k + r)).map env.answers := by
        rw [← answers_plan_append k hr.le]
        exact List.mem_map_of_mem hmem
      obtain ⟨i, hi, hsame⟩ := List.mem_map.mp hanswer
      rw [← hsame]
      exact hfirst.1 i (List.mem_range.mp hi)
    · have hanswer : ((planOfRound env target (4 * k) (2 * k))[r]).answer =
          env.answers (4 * k + r) := by
        interval_cases r <;> rfl
      rw [hanswer]
      exact hfirst.2

theorem accepted_of_before {n : ℕ} {before later : List Exchange} {exchange : Exchange}
    (hexchanges : (rounds env target n).progress.exchanges = before ++ exchange :: later) :
    ∀ other ∈ before, other.answer.accepted := by
  intro other hother
  cases hrounds : rounds env target n with
  | running progress =>
      rw [hrounds, Control.progress] at hexchanges
      exact (accepted_of_running hrounds).2 other (by simp [hexchanges, hother])
  | returned ret progress =>
      obtain ⟨-, front, last, hlast, haccepted, -⟩ := last_of_returned hrounds
      rw [hrounds, Control.progress, hlast] at hexchanges
      -- the last call is not among those before another
      have hfront : before <+: front := by
        rcases List.append_eq_append_iff.mp hexchanges with
          ⟨more, hbefore, hmore⟩ | ⟨more, hfront, -⟩
        · cases more with
          | nil => simp [hbefore]
          | cons first more => simp at hmore
        · exact ⟨more, hfront.symm⟩
      exact haccepted other (hfront.subset hother)

theorem publishesInTurn_rounds (env : Environment) (target : Target) (n : ℕ) :
    PublishesInTurn env (rounds env target n).progress.exchanges := by
  intro before exchange later hexchanges hpub
  have haccepted := accepted_of_before hexchanges
  obtain ⟨rest, hplan⟩ := exchanges_prefix_plan env target n
  rw [hexchanges, List.append_assoc, List.cons_append] at hplan
  obtain ⟨k, hbefore, hcall⟩ := plan_eq_append_of_isPub hplan.symm hpub
  have hcount : publications before = k := by
    rw [hbefore, publications, List.countP_append, ← publications, publications_plan]
    rfl
  have hanswers : ∀ i < 4 * k + 2, (env.answers i).accepted := by
    intro i hi
    have hmem : env.answers i ∈ before.map Exchange.answer := by
      rw [hbefore, answers_plan_append k (by decide)]
      exact List.mem_map_of_mem (List.mem_range.mpr hi)
    obtain ⟨other, hother, hsame⟩ := List.mem_map.mp hmem
    rw [← hsame]
    exact haccepted other hother
  refine ⟨plan env target k, ⟨.con target.gw true none, env.answers (4 * k)⟩,
    ⟨.reg target.topic, env.answers (4 * k + 1)⟩, target.topic, .qos0, hbefore,
    connected_plan fun i hi => hanswers i (by omega), rfl, hanswers _ (by omega), rfl,
    hanswers _ (by omega), ?_⟩
  rw [hcount]
  exact hcall

variable (program : Program) (ipv6AddrFromStr : Text → Option Ipv6Addr)

/-- **The session discipline.**  Whatever words are drawn and whatever is answered,
a `cmd_rand_pub` whose arguments are accepted repeats the four calls of a round,
publishes the readings of each round once and in the connection of that round, and
returns 1 right after the first call that is not answered `EMCUTE_OK`. -/
theorem cmdRandPub_disciplined (env : Environment) {args : List Text} {target : Target}
    (htarget : program.target ipv6AddrFromStr args = .ok target) (n : ℕ) :
    Disciplined env n (cmdRandPub program ipv6AddrFromStr env args n) := by
  rw [cmdRandPub_of_ok program ipv6AddrFromStr htarget]
  have hprefix := exchanges_prefix_plan env target n
  refine ⟨?_, ?_, publishesInTurn_rounds env target n, fun progress hrunning =>
    accepted_of_running hrunning, fun ret progress hreturned => last_of_returned hreturned⟩
  · rw [← phases_plan]
    exact hprefix.map _
  · rw [← answers_plan]
    exact hprefix.map _

/-- Two rounds, with the `emcute_pub` of the second refused. -/
theorem cmdRandPub_disciplined_acceptsFirst :
    Disciplined (acceptsFirst 6) 3
      (cmdRandPub .randomPub gatewayFromStr (acceptsFirst 6) [gatewayAddress] 3) :=
  cmdRandPub_disciplined .randomPub gatewayFromStr (acceptsFirst 6) rfl 3

end AwsIotSensors.RandomPub
