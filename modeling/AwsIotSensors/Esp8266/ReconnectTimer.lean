import AwsIotSensors.Esp8266.Loop

/-!
# The reconnect timer of the ESP8266

`loop` allows a reconnect attempt when `now - lastReconnectAttempt > 2000`, with
`now` a `long` read from `millis()`, and sets `lastReconnectAttempt` back to 0
after a success.  So the timer counts from a *reference* on the true time line:
the start of the last attempt if that failed, and boot otherwise
(`after_tracksReference`).

A `long` difference is negative for as long as the time since the reference is,
modulo `2 ^ 32` ms, in the upper half of the range, and small just after it has
wrapped.  `loop_attempts_iff` is the exact condition: of an execution that is
due, it makes the attempt if and only if the time since the reference is modulo
`2 ^ 32` above 2000 and below `2 ^ 31`.  After a success the reference is boot,
so the first outage after 24.9 days of uptime is not answered for another 24.9.

An attempt is never made too early: `attempt_after_failure`.
-/

namespace AwsIotSensors.Esp8266

open Runs

/-- The true time from which `lastReconnectAttempt` counts. -/
def History.reference (history : History) : ℕ :=
  match history.lastAttempt with
  | some (start, false) => start
  | some (_, true) => 0
  | none => 0

/-- The invariant of the timer: the variable shows the reference, which is not
in the future. -/
structure TracksReference (board : Board) : Prop where
  stored : board.globals.lastReconnectAttempt = millis board.history.reference
  reference_le : board.history.reference ≤ board.history.clock

theorem boot_tracksReference (mac : Fin 6 → UInt8) (micros : ℕ) :
    TracksReference (boot mac micros) :=
  ⟨rfl, le_rfl⟩

/-- Without an attempt, an execution moves the clock only. -/
theorem tracksReference_of_later {board later : Board} (hboard : TracksReference board)
    (hglobals : later.globals = board.globals)
    (hattempt : later.history.lastAttempt = board.history.lastAttempt)
    (hclock : board.history.clock ≤ later.history.clock) : TracksReference later := by
  have hreference : later.history.reference = board.history.reference := by
    unfold History.reference
    rw [hattempt]
  refine ⟨?_, ?_⟩
  · rw [hglobals, hreference]
    exact hboard.stored
  · rw [hreference]
    exact hboard.reference_le.trans hclock

theorem step_tracksReference (mac : Fin 6 → UInt8) (board : Board) (env : Surroundings)
    (hboard : TracksReference board) (horder : InOrder board env) :
    TracksReference (step mac board env) := by
  unfold step
  by_cases hwants : WantsReconnect env board.globals
  · -- the attempt is stored with its result, and a success stores 0 on both sides
    rw [loop_of_wantsReconnect hwants]
    simp only [if_neg (restart_notMem_reconnect env board.globals.clientName),
      attempted_reconnect]
    cases hok : env.clientConnected 2
    · exact ⟨by simp [History.reference], by simp [History.reference]⟩
    · exact ⟨by simp [History.reference, millis], by simp [History.reference]⟩
  · obtain ⟨hglobals, hnone⟩ := loop_of_not_wantsReconnect hwants
    by_cases hrestart : .restart ∈ (loop env board.globals).2
    · -- the board boots again
      simp only [if_pos hrestart]
      exact boot_tracksReference mac env.micros
    · simp only [if_neg hrestart, hnone]
      exact tracksReference_of_later hboard hglobals rfl horder

/-- The invariant holds after every run in true time order. -/
theorem after_tracksReference (mac : Fin 6 → UInt8) (micros : ℕ)
    {executions : List Surroundings}
    (horder : Along (step mac) InOrder (boot mac micros) executions) :
    TracksReference (after (step mac) (boot mac micros) executions) :=
  invariant TracksReference (boot_tracksReference mac micros) (step_tracksReference mac) horder

/-! ## When an attempt is made -/

/-- The WiFi is up, the MQTT client is down, and more than 2000 ms have passed
both since boot and since the start of the last attempt. -/
def Due (board : Board) (env : Surroundings) : Prop :=
  env.wifiConnected 0 ∧ ¬ env.clientConnected 0 ∧ 2000 < env.time ∧
    ∀ attempt ∈ board.history.lastAttempt, attempt.1 + 2000 < env.time

/-- This execution of `loop` calls `reconnect()`. -/
def Attempts (board : Board) (env : Surroundings) : Prop :=
  (attempted (loop env board.globals).2).isSome

instance (board : Board) (env : Surroundings) : Decidable (Due board env) :=
  inferInstanceAs (Decidable (_ ∧ _ ∧ _ ∧ _))

instance (board : Board) (env : Surroundings) : Decidable (Attempts board env) :=
  inferInstanceAs (Decidable (_ = true))

theorem attempts_iff_wantsReconnect (board : Board) (env : Surroundings) :
    Attempts board env ↔ WantsReconnect env board.globals := by
  unfold Attempts
  rw [attempted_loop]
  split
  · next hwants => exact iff_of_true rfl hwants
  · next hwants => exact iff_of_false (by simp) hwants

/-- With the invariant, the stored variable drops out of the condition. -/
theorem attempts_iff_of_tracksReference {board : Board} {env : Surroundings}
    (hboard : TracksReference board) (horder : InOrder board env)
    (hwifi : env.wifiConnected 0) (hclient : ¬ env.clientConnected 0) :
    Attempts board env ↔
      2000 < (env.time - board.history.reference) % 2 ^ 32 ∧
        (env.time - board.history.reference) % 2 ^ 32 < 2 ^ 31 := by
  have hle : board.history.reference ≤ env.time := hboard.reference_le.trans horder
  have helapsed := MachineInt.lt_toInt_elapsed_iff 32 2000 hle
  calc Attempts board env
      ↔ 2000 < (millis env.time - board.globals.lastReconnectAttempt).toInt := by
        rw [attempts_iff_wantsReconnect, WantsReconnect, and_iff_right hwifi, and_iff_right hclient]
    _ ↔ _ := by
        rw [hboard.stored]
        exact helapsed.trans (and_congr_right fun _ => by omega)

/-- **When the reconnect timer fires.**  In every run in true time order, an
execution of `loop` that is due makes a reconnect attempt if and only if the
time since the reference is, modulo `2 ^ 32`, above 2000 and below `2 ^ 31`. -/
theorem loop_attempts_iff (mac : Fin 6 → UInt8) (micros : ℕ) (executions : List Surroundings)
    (env : Surroundings)
    (horder : Along (step mac) InOrder (boot mac micros) (executions ++ [env]))
    (hdue : Due (after (step mac) (boot mac micros) executions) env) :
    Attempts (after (step mac) (boot mac micros) executions) env ↔
      2000 < (env.time -
          (after (step mac) (boot mac micros) executions).history.reference) % 2 ^ 32 ∧
        (env.time -
          (after (step mac) (boot mac micros) executions).history.reference) % 2 ^ 32 < 2 ^ 31 := by
  obtain ⟨hrun, henv⟩ := (along_concat _ _ _).mp horder
  exact attempts_iff_of_tracksReference (after_tracksReference mac micros hrun) henv
    hdue.1 hdue.2.1

/-- An execution of `loop` at a given time with the WiFi up and the given
answers of `client.connected()`. -/
def execution (time : ℕ) (clientConnected : ℕ → Bool) : Surroundings where
  time := time
  wifiConnected := fun _ => true
  clientConnected := clientConnected
  connectAccepted := clientConnected 2
  clientState := 0
  humidity := .number false 5000
  temperature := .number false 2000
  publishAccepted := true
  micros := 0

/-- A first connect 3 s after boot that succeeds. -/
def firstConnect : Surroundings :=
  execution 3000 fun query => query == 2

theorem loop_attempts_iff_firstOutage :
    Attempts (after (step fun _ => 0) (boot (fun _ => 0) 0) [firstConnect])
        (execution 60000 fun _ => false) ↔
      2000 < (60000 - 0) % 2 ^ 32 ∧ (60000 - 0) % 2 ^ 32 < 2 ^ 31 :=
  loop_attempts_iff (fun _ => 0) 0 [firstConnect] (execution 60000 fun _ => false)
    (by decide) (by decide)

/-- The timer stalls: the client connects 3 s after boot and loses its connection
`2 ^ 31` ms after boot; the execution of `loop` then is due and makes no attempt. -/
theorem exists_due_not_attempts :
    ¬ ∀ (mac : Fin 6 → UInt8) (micros : ℕ) (executions : List Surroundings) (env : Surroundings),
      Along (step mac) InOrder (boot mac micros) (executions ++ [env]) →
        Due (after (step mac) (boot mac micros) executions) env →
          Attempts (after (step mac) (boot mac micros) executions) env := by
  intro hclaim
  have hattempts := hclaim (fun _ => 0) 0 [firstConnect] (execution (2 ^ 31) fun _ => false)
    (by decide) (by decide)
  exact absurd hattempts (by decide)

/-! ## How often an attempt is made -/

/-- This execution of `loop` makes no attempt and does not restart the board. -/
def Idle (board : Board) (env : Surroundings) : Prop :=
  ¬ Attempts board env ∧ .restart ∉ (loop env board.globals).2

instance (board : Board) (env : Surroundings) : Decidable (Idle board env) :=
  inferInstanceAs (Decidable (_ ∧ _))

/-- An execution with an attempt does not restart the board. -/
theorem restart_notMem_of_attempted {board : Board} {env : Surroundings} {ok : Bool}
    (hattempted : attempted (loop env board.globals).2 = some ok) :
    .restart ∉ (loop env board.globals).2 := by
  have hwants : WantsReconnect env board.globals :=
    (attempts_iff_wantsReconnect board env).mp (by rw [Attempts, hattempted]; rfl)
  rw [loop_of_wantsReconnect hwants]
  exact restart_notMem_reconnect env board.globals.clientName

/-- The history after an attempt. -/
theorem history_step_of_attempted {mac : Fin 6 → UInt8} {board : Board} {env : Surroundings}
    {ok : Bool} (hattempted : attempted (loop env board.globals).2 = some ok) :
    (step mac board env).history = ⟨env.time, some (env.time, ok)⟩ := by
  simp only [step, if_neg (restart_notMem_of_attempted hattempted), hattempted]

theorem lastAttempt_step_of_idle {mac : Fin 6 → UInt8} {board : Board} {env : Surroundings}
    (hidle : Idle board env) :
    (step mac board env).history.lastAttempt = board.history.lastAttempt := by
  obtain ⟨hattempts, hrestart⟩ := hidle
  have hnone : attempted (loop env board.globals).2 = none :=
    Option.not_isSome_iff_eq_none.mp hattempts
  simp only [step, if_neg hrestart, hnone]

/-- Idle executions keep the last attempt. -/
theorem lastAttempt_after_of_idle {mac : Fin 6 → UInt8} {board : Board}
    {executions : List Surroundings} (hidle : Along (step mac) Idle board executions) :
    (after (step mac) board executions).history.lastAttempt = board.history.lastAttempt :=
  invariant (fun later => later.history.lastAttempt = board.history.lastAttempt) rfl
    (fun _ _ hlater hguard => (lastAttempt_step_of_idle hguard).trans hlater) hidle

/-- **How often a reconnect is attempted.**  In every run in true time order, an
attempt that follows a failed one, with neither an attempt nor a restart between
them, starts more than 2000 ms after it. -/
theorem attempt_after_failure (mac : Fin 6 → UInt8) (micros : ℕ)
    (before between : List Surroundings) (first second : Surroundings)
    (horder : Along (step mac) InOrder (boot mac micros) (before ++ first :: between ++ [second]))
    (hfailed : attempted
      (loop first (after (step mac) (boot mac micros) before).globals).2 = some false)
    (hidle : Along (step mac) Idle (after (step mac) (boot mac micros) (before ++ [first]))
      between)
    (hsecond : Attempts (after (step mac) (boot mac micros) (before ++ first :: between))
      second) :
    first.time + 2000 < second.time := by
  obtain ⟨hrun, hlast⟩ := (along_concat _ _ _).mp horder
  have hboard := after_tracksReference mac micros hrun
  have hreference : (after (step mac) (boot mac micros)
      (before ++ first :: between)).history.reference = first.time := by
    have hattempt : (after (step mac) (boot mac micros)
        (before ++ first :: between)).history.lastAttempt = some (first.time, false) := by
      rw [List.append_cons, after_append, lastAttempt_after_of_idle hidle, after_concat,
        history_step_of_attempted hfailed]
    rw [History.reference, hattempt]
  obtain ⟨hwifi, hclient, -⟩ := (attempts_iff_wantsReconnect _ second).mp hsecond
  -- a remainder modulo `2 ^ 32` is at most the elapsed time itself
  have helapsed := ((attempts_iff_of_tracksReference hboard hlast hwifi hclient).mp hsecond).1
  rw [hreference] at helapsed
  have hle := Nat.mod_le (second.time - first.time) (2 ^ 32)
  omega

/-- Two attempts 2001 ms apart, both refused, and an execution between them. -/
theorem attempt_after_failure_refusedTwice :
    (execution 3000 fun _ => false).time + 2000 < (execution 5001 fun _ => false).time :=
  attempt_after_failure (fun _ => 0) 0 [] [execution 4000 fun _ => false]
    (execution 3000 fun _ => false) (execution 5001 fun _ => false)
    (by decide) (by decide) (by decide) (by decide)

end AwsIotSensors.Esp8266
