import AwsIotSensors.RandomPub.Connection

/-!
# The transcript of the publishing loop

Beside its emCute calls, `cmd_rand_pub` prints what it does.  A round that goes through
prints five lines, and the last of them reports the publication.  `printed_rounds_cases`
is the transcript of a run: the lines of the rounds that went through, and those of the
round in which the loop was left.

The report comes after the `emcute_discon`, not after the `emcute_pub`.  So the reports
of a run are those of its closed connections, in order (`cmdRandPub_reports`), and a
publication goes unreported if and only if the `emcute_discon` after it fails.
-/

namespace AwsIotSensors.RandomPub

open CString Emcute

variable {env : Environment} {target : Target}

/-! ## The lines of a round -/

/-- The payload of round `k`. -/
def dataOf (env : Environment) (k : ℕ) : List Char :=
  payloadOf (env.words (2 * k)) (env.words (2 * k + 1))

/-- The line with the readings of round `k`. -/
def readingsLine (env : Environment) (k : ℕ) : String :=
  (getTemperature (env.words (2 * k))).repr ++ ", " ++
    (getHumidity (env.words (2 * k + 1))).repr ++ " "

/-- The lines of round `k` up to the `emcute_reg`. -/
def openingLines (env : Environment) (target : Target) (k : ℕ) : List String :=
  [readingsLine env k, "Successfully connected to gateway at " ++ target.place,
    "pub with topic: " ++ target.topic.toString ++ " and msg " ++ String.ofList (dataOf env k)]

/-- The line that reports the publication of round `k`. -/
def reportLine (env : Environment) (target : Target) (k : ℕ) : String :=
  "Published " ++ (dataOf env k).length.repr ++ " bytes to topic " ++
    topicShown target.topic (env.answers (4 * k + 1)).id

/-- The lines of round `k` if its calls are accepted. -/
def linesOfRound (env : Environment) (target : Target) (k : ℕ) : List String :=
  openingLines env target k ++ ["Disconnect successful", reportLine env target k]

/-- The lines of round `k` if call `r` of the round is refused. -/
def linesOfLast (env : Environment) (target : Target) (k r : ℕ) : List String :=
  match r with
  | 0 => [readingsLine env k, "error: unable to connect to " ++ target.place]
  | 1 => openingLines env target k ++ ["error: unable to obtain topic ID"]
  | 2 => openingLines env target k ++ ["error: unable to publish data to topic " ++
      topicShown target.topic (env.answers (4 * k + 1)).id]
  | _ => openingLines env target k ++
      [if (env.answers (4 * k + 3)).result = .noGw then "error: not connected to any broker"
        else "error: unable to disconnect"]

/-- What a round prints if its calls are accepted. -/
theorem printed_round_of_accepted {k : ℕ} {exchanges : List Exchange} {printed : List String}
    (hasked : exchanges.length = 4 * k) (haccepted : ∀ i < 4, (env.answers (4 * k + i)).accepted) :
    (round env target ⟨2 * k, exchanges, printed⟩).progress.printed =
      printed ++ linesOfRound env target k := by
  have hcon := haccepted 0 (by decide)
  have hreg := haccepted 1 (by decide)
  have hpub := haccepted 2 (by decide)
  have hdiscon := haccepted 3 (by decide)
  have hok : (env.answers (4 * k + 3)).result = .ok := by
    simpa [Answer.accepted] using hdiscon
  simp only [add_zero] at hcon
  simp [round, Progress.draw, Progress.call, Progress.print, hasked, hcon, hreg, hpub, hok,
    Control.progress, linesOfRound, openingLines, readingsLine, reportLine, dataOf, payloadOf]

/-- What a round prints if call `r` is the first to be refused. -/
theorem printed_round_of_refused {k r : ℕ} {exchanges : List Exchange} {printed : List String}
    (hasked : exchanges.length = 4 * k) (hr : r < 4)
    (haccepted : ∀ i < r, (env.answers (4 * k + i)).accepted)
    (hrefused : ¬ (env.answers (4 * k + r)).accepted) :
    (round env target ⟨2 * k, exchanges, printed⟩).progress.printed =
      printed ++ linesOfLast env target k r := by
  match r with
  | 0 =>
      simp only [add_zero] at hrefused
      simp [round, Progress.draw, Progress.call, Progress.print, hasked, hrefused,
        Control.progress, linesOfLast, readingsLine]
  | 1 =>
      have hcon := haccepted 0 (by decide)
      simp only [add_zero] at hcon
      simp [round, Progress.draw, Progress.call, Progress.print, hasked, hcon, hrefused,
        Control.progress, linesOfLast, openingLines, readingsLine, dataOf, payloadOf]
  | 2 =>
      have hcon := haccepted 0 (by decide)
      have hreg := haccepted 1 (by decide)
      simp only [add_zero] at hcon
      simp [round, Progress.draw, Progress.call, Progress.print, hasked, hcon, hreg, hrefused,
        Control.progress, linesOfLast, openingLines, readingsLine, dataOf, payloadOf]
  | 3 =>
      have hcon := haccepted 0 (by decide)
      have hreg := haccepted 1 (by decide)
      have hpub := haccepted 2 (by decide)
      simp only [add_zero] at hcon
      cases hdiscon : (env.answers (4 * k + 3)).result with
      | ok => exact absurd (by simp [Answer.accepted, hdiscon]) hrefused
      | noGw =>
          simp [round, Progress.draw, Progress.call, Progress.print, hasked, hcon, hreg, hpub,
            hdiscon, Control.progress, linesOfLast, openingLines, readingsLine, dataOf, payloadOf]
      | failed =>
          simp [round, Progress.draw, Progress.call, Progress.print, hasked, hcon, hreg, hpub,
            hdiscon, Control.progress, linesOfLast, openingLines, readingsLine, dataOf, payloadOf]

/-! ## The transcript -/

/-- The lines of the first `n` rounds, if they go through. -/
def transcript (env : Environment) (target : Target) (n : ℕ) : List String :=
  (List.range n).flatMap (linesOfRound env target)

theorem transcript_succ (n : ℕ) :
    transcript env target (n + 1) = transcript env target n ++ linesOfRound env target n := by
  simp [transcript, List.range_succ]

/-- **The transcript of a run.**  Beside the calls of `rounds_cases`, the lines. -/
theorem printed_rounds_cases (env : Environment) (target : Target) (n : ℕ) :
    ((∀ i < 4 * n, (env.answers i).accepted) ∧
      rounds env target n = .running ⟨2 * n, plan env target n, transcript env target n⟩) ∨
    (∃ k < n, ∃ r < 4, FirstRefused env.answers (4 * k + r) ∧
      rounds env target n = .returned 1 ⟨2 * k + 2,
        plan env target k ++ (planOfRound env target (4 * k) (2 * k)).take (r + 1),
        transcript env target k ++ linesOfLast env target k r⟩) := by
  induction n with
  | zero => exact Or.inl ⟨by simp, rfl⟩
  | succ n ih =>
      rcases ih with ⟨hbefore, hrunning⟩ | ⟨k, hk, r, hr, hfirst, hreturned⟩
      · have hasked : (plan env target n).length = 4 * n := length_plan env target n
        have hnext : rounds env target (n + 1) =
            round env target ⟨2 * n, plan env target n, transcript env target n⟩ := by
          rw [rounds, hrunning]
        rcases rounds_cases env target (n + 1) with ⟨haccepted, printed, hrounds⟩ |
          ⟨k, hk, r, hr, hfirst, printed, hrounds⟩
        · left
          have hprinted : (round env target ⟨2 * n, plan env target n,
              transcript env target n⟩).progress.printed = transcript env target (n + 1) := by
            rw [transcript_succ]
            exact printed_round_of_accepted hasked fun i hi => haccepted _ (by omega)
          rw [← hnext, hrounds] at hprinted
          obtain rfl : printed = transcript env target (n + 1) := hprinted
          exact ⟨haccepted, hrounds⟩
        · right
          -- the rounds before were accepted, so it is a call of this one
          obtain rfl : k = n := by
            by_contra hne
            exact hfirst.2 (hbefore _ (by omega))
          have hprinted : (round env target ⟨2 * k, plan env target k,
              transcript env target k⟩).progress.printed =
                transcript env target k ++ linesOfLast env target k r :=
            printed_round_of_refused hasked hr (fun i hi => hfirst.1 _ (by omega)) hfirst.2
          rw [← hnext, hrounds] at hprinted
          obtain rfl : printed = transcript env target k ++ linesOfLast env target k r := hprinted
          exact ⟨k, hk, r, hr, hfirst, hrounds⟩
      · right
        refine ⟨k, Nat.lt_succ_of_lt hk, r, hr, hfirst, ?_⟩
        rw [rounds, hreturned]

/-! ## Reports -/

/-- The line reports a publication. -/
def isReport (line : String) : Bool :=
  "Published ".toList.isPrefixOf line.toList

/-- The connections that were closed. -/
def closed (exchanges : List Exchange) : ℕ :=
  exchanges.countP fun exchange => exchange.call == .discon && exchange.answer.accepted

/-- The connections that could not be closed. -/
def unclosed (exchanges : List Exchange) : ℕ :=
  exchanges.countP fun exchange => exchange.call == .discon && !exchange.answer.accepted

/-- The publications that were accepted. -/
def published (exchanges : List Exchange) : ℕ :=
  exchanges.countP fun exchange => exchange.call.isPub && exchange.answer.accepted

/-- A line that begins otherwise is no report. -/
theorem isReport_eq_false {line : String} (hhead : line.toList.head? ≠ some 'P') :
    isReport line = false := by
  by_contra hreport
  rw [Bool.not_eq_false] at hreport
  obtain ⟨rest, hline⟩ := List.isPrefixOf_iff_prefix.mp hreport
  rw [← hline] at hhead
  exact hhead rfl

theorem isReport_append {before : String} {char : Char} (hhead : before.toList.head? = some char)
    (hchar : char ≠ 'P') (after : String) : isReport (before ++ after) = false := by
  refine isReport_eq_false ?_
  rw [String.toList_append, List.head?_append, hhead, Option.some_or]
  simpa using hchar

theorem isReport_reportLine (k : ℕ) : isReport (reportLine env target k) = true := by
  rw [isReport, reportLine, String.append_assoc, String.append_assoc, String.toList_append]
  exact List.isPrefixOf_iff_prefix.mpr (List.prefix_append ..)

theorem isReport_readingsLine (k : ℕ) : isReport (readingsLine env k) = false := by
  refine isReport_eq_false ?_
  rw [readingsLine, String.append_assoc, String.append_assoc, String.toList_append]
  intro hhead
  -- the line begins with a number, or with the comma after it
  cases hrepr : (getTemperature (env.words (2 * k))).repr.toList with
  | nil =>
      rw [hrepr, List.nil_append, String.toList_append] at hhead
      cases hhead
  | cons first rest =>
      rw [hrepr, List.cons_append, List.head?_cons] at hhead
      obtain rfl := Option.some.inj hhead
      exact PlainText.notMem_repr (by decide) (by decide) _
        (hrepr ▸ List.mem_cons_self (a := 'P') (l := rest))

theorem filter_openingLines (k : ℕ) : (openingLines env target k).filter isReport = [] := by
  have hcon : isReport ("Successfully connected to gateway at " ++ target.place) = false :=
    isReport_append (show _ = some 'S' by decide) (by decide) _
  have hpub : isReport ("pub with topic: " ++ target.topic.toString ++ " and msg " ++
      String.ofList (dataOf env k)) = false := by
    rw [String.append_assoc, String.append_assoc]
    exact isReport_append (show _ = some 'p' by decide) (by decide) _
  simp only [openingLines, List.filter_cons, isReport_readingsLine, hcon, hpub, List.filter_nil,
    Bool.false_eq_true, if_false]

theorem filter_linesOfRound (k : ℕ) :
    (linesOfRound env target k).filter isReport = [reportLine env target k] := by
  have hdiscon : isReport "Disconnect successful" = false := by decide
  simp only [linesOfRound, List.filter_append, filter_openingLines, List.filter_cons, hdiscon,
    isReport_reportLine, List.filter_nil, List.nil_append, Bool.false_eq_true, if_false, if_true]

theorem filter_linesOfLast (k r : ℕ) : (linesOfLast env target k r).filter isReport = [] := by
  have hcon : isReport ("error: unable to connect to " ++ target.place) = false :=
    isReport_append (show _ = some 'e' by decide) (by decide) _
  have hreg : isReport "error: unable to obtain topic ID" = false := by decide
  have hpub : isReport ("error: unable to publish data to topic " ++
      topicShown target.topic (env.answers (4 * k + 1)).id) = false :=
    isReport_append (show _ = some 'e' by decide) (by decide) _
  have hdiscon : isReport (if (env.answers (4 * k + 3)).result = .noGw then
      "error: not connected to any broker" else "error: unable to disconnect") = false := by
    split <;> decide
  unfold linesOfLast
  split <;> simp only [List.filter_append, filter_openingLines, List.filter_cons,
    isReport_readingsLine, hcon, hreg, hpub, hdiscon, List.filter_nil, List.nil_append,
    Bool.false_eq_true, if_false]

theorem filter_transcript (n : ℕ) :
    (transcript env target n).filter isReport = (List.range n).map (reportLine env target) := by
  induction n with
  | zero => rfl
  | succ n ih =>
      rw [transcript_succ, List.filter_append, ih, filter_linesOfRound, List.range_succ,
        List.map_append, List.map_singleton]

/-! ## Counting -/

/-- What is counted `count` times in each round is counted `count * n` times in `n`. -/
theorem countP_plan {counts : Exchange → Bool} {count n : ℕ}
    (hround : ∀ k < n, (planOfRound env target (4 * k) (2 * k)).countP counts = count) :
    (plan env target n).countP counts = count * n := by
  induction n with
  | zero => rfl
  | succ n ih =>
      rw [plan_succ, List.countP_append, ih fun k hk => hround k (Nat.lt_succ_of_lt hk),
        hround n (Nat.lt_succ_self n), Nat.mul_succ]

/-- The counts of rounds that go through. -/
theorem counts_plan (target : Target) (n : ℕ)
    (haccepted : ∀ i < 4 * n, (env.answers i).accepted) :
    closed (plan env target n) = n ∧ unclosed (plan env target n) = 0 ∧
      published (plan env target n) = n := by
  have hpub : ∀ k < n, (env.answers (4 * k + 2)).accepted = true :=
    fun k hk => haccepted _ (by omega)
  have hdiscon : ∀ k < n, (env.answers (4 * k + 3)).accepted = true :=
    fun k hk => haccepted _ (by omega)
  refine ⟨?_, ?_, ?_⟩
  · refine (countP_plan fun k hk => ?_).trans (Nat.one_mul n)
    simp [planOfRound, hdiscon k hk]
  · refine (countP_plan fun k hk => ?_).trans (Nat.zero_mul n)
    simp [planOfRound, hdiscon k hk]
  · refine (countP_plan fun k hk => ?_).trans (Nat.one_mul n)
    simp [planOfRound, Call.isPub, hpub k hk]

/-- The counts of a round that is left at call `r`. -/
theorem counts_take_planOfRound (target : Target) {k r : ℕ} (hr : r < 4)
    (hfirst : FirstRefused env.answers (4 * k + r)) :
    closed ((planOfRound env target (4 * k) (2 * k)).take (r + 1)) = 0 ∧
      unclosed ((planOfRound env target (4 * k) (2 * k)).take (r + 1)) = r / 3 ∧
      published ((planOfRound env target (4 * k) (2 * k)).take (r + 1)) = r / 3 := by
  have hrefused := hfirst.2
  match r with
  | 0 => simp [planOfRound, closed, unclosed, published, Call.isPub]
  | 1 => simp [planOfRound, closed, unclosed, published, Call.isPub]
  | 2 => simpa [planOfRound, closed, unclosed, published, Call.isPub] using hrefused
  | 3 =>
      have hpub := hfirst.1 (4 * k + 2) (by omega)
      simpa [planOfRound, closed, unclosed, published, Call.isPub, hpub] using hrefused

/-! ## The main statement -/

/-- What the reports of a run say, and what they leave out. -/
structure ReportsAgree (env : Environment) (target : Target) (progress : Progress) : Prop where
  reports : progress.printed.filter isReport =
    (List.range (closed progress.exchanges)).map (reportLine env target)
  published : published progress.exchanges =
    closed progress.exchanges + unclosed progress.exchanges
  unclosed_le : unclosed progress.exchanges ≤ 1

variable (program : Program) (ipv6AddrFromStr : Text → Option Ipv6Addr)

/-- **The reports of a run.**  Whatever words are drawn and whatever is answered, the
reports are those of the rounds whose connection was closed, in order.  One publication
at most is not reported: that before an `emcute_discon` that failed. -/
theorem cmdRandPub_reports (env : Environment) {args : List Text} {target : Target}
    (htarget : program.target ipv6AddrFromStr args = .ok target) (n : ℕ) :
    ReportsAgree env target (cmdRandPub program ipv6AddrFromStr env args n).progress := by
  rw [cmdRandPub_of_ok program ipv6AddrFromStr htarget]
  rcases printed_rounds_cases env target n with ⟨haccepted, hrounds⟩ |
    ⟨k, -, r, hr, hfirst, hrounds⟩
  · obtain ⟨hclosed, hunclosed, hpublished⟩ := counts_plan target n haccepted
    rw [hrounds, Control.progress]
    refine ⟨?_, ?_, ?_⟩
    · rw [filter_transcript, hclosed]
    · dsimp only
      omega
    · dsimp only
      omega
  · have hplan := counts_plan target k fun i hi => hfirst.1 i (by omega)
    have hlast := counts_take_planOfRound target hr hfirst
    rw [hrounds, Control.progress]
    generalize (planOfRound env target (4 * k) (2 * k)).take (r + 1) = last at hlast ⊢
    obtain ⟨hclosed, hunclosed, hpublished⟩ : closed (plan env target k ++ last) = k ∧
        unclosed (plan env target k ++ last) = r / 3 ∧
        published (plan env target k ++ last) = k + r / 3 := by
      unfold closed unclosed published at *
      simp only [List.countP_append]
      omega
    refine ⟨?_, ?_, ?_⟩
    · rw [List.filter_append, filter_transcript, filter_linesOfLast, List.append_nil, hclosed]
    · dsimp only
      omega
    · dsimp only
      omega

/-- Two rounds, with the `emcute_discon` of the second refused. -/
theorem cmdRandPub_reports_acceptsFirst :
    ReportsAgree (acceptsFirst 7) ⟨gatewayAddress, ⟨gatewayAddr, emcutePort⟩, defaultTopic⟩
      (cmdRandPub .randomPub gatewayFromStr (acceptsFirst 7) [gatewayAddress] 3).progress :=
  cmdRandPub_reports .randomPub gatewayFromStr (acceptsFirst 7) rfl 3

end AwsIotSensors.RandomPub
