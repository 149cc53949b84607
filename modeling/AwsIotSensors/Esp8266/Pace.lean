import AwsIotSensors.Esp8266.Payload
import AwsIotSensors.Esp8266.ReconnectTimer

/-!
# The pace of the air sensor

`loop` does not look at the clock before it publishes; it waits three minutes after it
has.  So the pace of the publications rests on the time that the executions of `loop`
take, and a restart of the board must not hand it back.

`publications_paced` keeps the account in true time: whatever happens to the WiFi and
the connection, and however often the board restarts, the executions that publish
`n` times take at least `180000 * n` ms.

The reconnect timer counts anew after a restart, and still no attempt comes too early:
`attempts_spaced` carries `attempt_after_failure` over restarts and over further failures.
-/

namespace AwsIotSensors.Esp8266

open Runs

/-- The milliseconds that an effect takes. -/
def Effect.milliseconds : Effect → ℕ
  | .delay milliseconds => milliseconds
  | _ => 0

/-- The milliseconds that an execution waits. -/
def waited (effects : List Effect) : ℕ := (effects.map Effect.milliseconds).sum

/-- The effect is a `client.publish`. -/
def Effect.isPublish : Effect → Bool
  | .publish _ _ => true
  | _ => false

/-- A board in true time: when it has booted, and when its last execution of `loop` was
over. -/
structure Paced where
  board : Board
  booted : ℕ
  free : ℕ

/-- A board that boots at the start. -/
def Paced.start (mac : Fin 6 → UInt8) (micros : ℕ) : Paced := ⟨boot mac micros, 0, 0⟩

/-- The effects of an execution. -/
def Paced.effects (paced : Paced) (env : Surroundings) : List Effect :=
  (loop env paced.board.globals).2

/-- One execution of `loop`, with the time that it takes. -/
def pacedStep (mac : Fin 6 → UInt8) (paced : Paced) (env : Surroundings) : Paced :=
  let finished := paced.booted + env.time + waited (paced.effects env)
  { board := step mac paced.board env
    booted := if .restart ∈ paced.effects env then finished else paced.booted
    free := finished }

/-- An execution begins when the one before it is over. -/
def InTime (paced : Paced) (env : Surroundings) : Prop :=
  paced.free ≤ paced.booted + env.time

instance (paced : Paced) (env : Surroundings) : Decidable (InTime paced env) :=
  inferInstanceAs (Decidable (_ ≤ _))

/-- The number of publications of a run. -/
def publications (mac : Fin 6 → UInt8) (paced : Paced) (executions : List Surroundings) : ℕ :=
  (outputs (pacedStep mac) Paced.effects paced executions).flatten.countP Effect.isPublish

/-! ## An execution of `loop` -/

theorem waited_append (first second : List Effect) :
    waited (first ++ second) = waited first + waited second := by
  rw [waited, List.map_append, List.sum_append, waited, waited]

theorem countP_isPublish_eq_zero {effects : List Effect}
    (hnone : ∀ topic payload, .publish topic payload ∉ effects) :
    effects.countP Effect.isPublish = 0 := by
  rw [List.countP_eq_zero]
  intro effect heffect hpublish
  cases effect with
  | publish topic payload => exact hnone topic payload heffect
  | print line => cases hpublish
  | connect clientName => cases hpublish
  | reconnect ok => cases hpublish
  | delay milliseconds => cases hpublish
  | restart => cases hpublish

theorem countP_sendmqttMsg_le (env : Surroundings) (topictosend payload : String) :
    (sendmqttMsg env topictosend payload).countP Effect.isPublish ≤ 1 := by
  unfold sendmqttMsg
  split
  · split <;> simp [List.countP_cons, Effect.isPublish]
  · simp

/-- An execution that publishes waits three minutes, and publishes once. -/
theorem publications_le_waited (env : Surroundings) (globals : Globals) :
    180000 * (loop env globals).2.countP Effect.isPublish ≤ waited (loop env globals).2 := by
  unfold loop
  split
  · split
    · have hreconnect : (reconnect env globals.clientName).2.countP Effect.isPublish = 0 :=
        countP_isPublish_eq_zero fun topic payload =>
          publish_notMem_reconnect env globals.clientName topic payload
      dsimp only
      split
      · split <;> simp [hreconnect]
      · simp
    · have hread : (getMeasurements env).2.countP Effect.isPublish = 0 :=
        countP_isPublish_eq_zero fun topic payload =>
          publish_notMem_getMeasurements env topic payload
      have hsent := countP_sendmqttMsg_le env topic (payload (getMeasurements env).1)
      have hdelay : waited [.delay (3 * 60 * 1000)] = 180000 := rfl
      have hlast : [Effect.delay (3 * 60 * 1000)].countP Effect.isPublish = 0 := rfl
      simp only [List.countP_append, waited_append, hread, hdelay, hlast]
      omega
  · have hwifi : (wifiConnect env).countP Effect.isPublish = 0 :=
      countP_isPublish_eq_zero fun topic payload => publish_notMem_wifiConnect env topic payload
    simp [hwifi]

/-! ## Runs -/

/-- **The pace of the publications.**  In true time, from any state of a board, a run of
executions that publish `n` times takes at least `180000 * n` ms, with all the restarts
that it may contain. -/
theorem publications_paced (mac : Fin 6 → UInt8) (paced : Paced) (executions : List Surroundings)
    (hintime : Along (pacedStep mac) InTime paced executions) :
    paced.free + 180000 * publications mac paced executions ≤
      (after (pacedStep mac) paced executions).free := by
  induction executions generalizing paced with
  | nil => simp [publications, outputs]
  | cons env rest ih =>
      obtain ⟨henv, hrest⟩ := hintime
      have hlater := ih (pacedStep mac paced env) hrest
      have hpublished := publications_le_waited env paced.board.globals
      have hfree : (pacedStep mac paced env).free =
          paced.booted + env.time + waited (paced.effects env) := rfl
      have hcount : publications mac paced (env :: rest) =
          (paced.effects env).countP Effect.isPublish +
            publications mac (pacedStep mac paced env) rest := by
        rw [publications, outputs, List.flatten_cons, List.countP_append, publications]
      unfold InTime at henv
      unfold Paced.effects at hfree hcount
      rw [after_cons]
      omega

/-- A first connect and two publications. -/
def twoPublications : List Surroundings :=
  [firstConnect, execution 3001 fun _ => true, execution 183001 fun _ => true]

theorem publications_paced_twoPublications :
    (Paced.start (fun _ => 0) 0).free +
        180000 * publications (fun _ => 0) (Paced.start (fun _ => 0) 0) twoPublications ≤
      (after (pacedStep fun _ => 0) (Paced.start (fun _ => 0) 0) twoPublications).free :=
  publications_paced (fun _ => 0) (Paced.start (fun _ => 0) 0) twoPublications (by decide)

/-! ## The reconnect attempts, over restarts -/

/-- The true time at which an execution begins. -/
def Paced.moment (paced : Paced) (env : Surroundings) : ℕ := paced.booted + env.time

/-- The execution makes no reconnect attempt that succeeds. -/
def Unconnected (paced : Paced) (env : Surroundings) : Prop :=
  attempted (paced.effects env) ≠ some true

instance (paced : Paced) (env : Surroundings) : Decidable (Unconnected paced env) :=
  inferInstanceAs (Decidable (_ ≠ _))

/-- The timer tracks its reference, and the last execution is over when it is. -/
structure OnTime (paced : Paced) : Prop where
  tracks : TracksReference paced.board
  clock_le : paced.booted + paced.board.history.clock ≤ paced.free

theorem start_onTime (mac : Fin 6 → UInt8) (micros : ℕ) : OnTime (Paced.start mac micros) :=
  ⟨boot_tracksReference mac micros, le_rfl⟩

/-- In true time an execution is in order on the board's own clock, too. -/
theorem inOrder_of_inTime {paced : Paced} {env : Surroundings} (honTime : OnTime paced)
    (hintime : InTime paced env) : InOrder paced.board env := by
  have hfree := honTime.clock_le
  unfold InTime at hintime
  unfold InOrder
  omega

theorem booted_pacedStep_of_restart {mac : Fin 6 → UInt8} {paced : Paced} {env : Surroundings}
    (hrestart : .restart ∈ paced.effects env) :
    (pacedStep mac paced env).booted = (pacedStep mac paced env).free :=
  if_pos hrestart

theorem booted_pacedStep_of_notMem {mac : Fin 6 → UInt8} {paced : Paced} {env : Surroundings}
    (hrestart : .restart ∉ paced.effects env) :
    (pacedStep mac paced env).booted = paced.booted :=
  if_neg hrestart

theorem moment_le_free (mac : Fin 6 → UInt8) (paced : Paced) (env : Surroundings) :
    paced.moment env ≤ (pacedStep mac paced env).free :=
  Nat.le_add_right _ _

theorem history_pacedStep_of_restart {mac : Fin 6 → UInt8} {paced : Paced} {env : Surroundings}
    (hrestart : .restart ∈ paced.effects env) :
    (pacedStep mac paced env).board.history = ⟨0, none⟩ := by
  unfold Paced.effects at hrestart
  simp only [pacedStep, step, if_pos hrestart, boot]

theorem clock_pacedStep_of_notMem {mac : Fin 6 → UInt8} {paced : Paced} {env : Surroundings}
    (hrestart : .restart ∉ paced.effects env) :
    (pacedStep mac paced env).board.history.clock = env.time := by
  unfold Paced.effects at hrestart
  simp only [pacedStep, step, if_neg hrestart]

theorem step_onTime (mac : Fin 6 → UInt8) (paced : Paced) (env : Surroundings)
    (honTime : OnTime paced) (hintime : InTime paced env) : OnTime (pacedStep mac paced env) := by
  refine ⟨step_tracksReference mac paced.board env honTime.tracks
    (inOrder_of_inTime honTime hintime), ?_⟩
  by_cases hrestart : .restart ∈ paced.effects env
  · rw [history_pacedStep_of_restart hrestart, booted_pacedStep_of_restart hrestart, add_zero]
  · rw [clock_pacedStep_of_notMem hrestart, booted_pacedStep_of_notMem hrestart]
    exact moment_le_free mac paced env

/-- The reference of the timer, in true time, is at `moment` or later. -/
structure WaitsFrom (moment : ℕ) (paced : Paced) : Prop where
  onTime : OnTime paced
  reference_le : moment ≤ paced.booted + paced.board.history.reference

/-- After an attempt that fails, the timer counts from it. -/
theorem waitsFrom_of_failed {mac : Fin 6 → UInt8} {paced : Paced} {env : Surroundings}
    (honTime : OnTime paced) (hintime : InTime paced env)
    (hfailed : attempted (paced.effects env) = some false) :
    WaitsFrom (paced.moment env) (pacedStep mac paced env) := by
  refine ⟨step_onTime mac paced env honTime hintime, ?_⟩
  have hhistory : (pacedStep mac paced env).board.history = ⟨env.time, some (env.time, false)⟩ :=
    history_step_of_attempted hfailed
  rw [booted_pacedStep_of_notMem (restart_notMem_of_attempted hfailed), hhistory]
  exact le_rfl

theorem reference_pacedStep_of_idle {mac : Fin 6 → UInt8} {paced : Paced} {env : Surroundings}
    (hidle : Idle paced.board env) :
    (pacedStep mac paced env).board.history.reference = paced.board.history.reference := by
  have hlast : (pacedStep mac paced env).board.history.lastAttempt =
      paced.board.history.lastAttempt := lastAttempt_step_of_idle hidle
  rw [History.reference, History.reference, hlast]

/-- Until an attempt succeeds, the reference does not move back: a failed attempt and a
restart only move it on. -/
theorem step_waitsFrom (mac : Fin 6 → UInt8) (moment : ℕ) (paced : Paced) (env : Surroundings)
    (hwaits : WaitsFrom moment paced) (hguard : InTime paced env ∧ Unconnected paced env) :
    WaitsFrom moment (pacedStep mac paced env) := by
  obtain ⟨hintime, hunconnected⟩ := hguard
  obtain ⟨honTime, hreference⟩ := hwaits
  have hnow : moment ≤ paced.moment env := by
    have horder := honTime.tracks.reference_le.trans (inOrder_of_inTime honTime hintime)
    unfold Paced.moment
    omega
  refine ⟨step_onTime mac paced env honTime hintime, ?_⟩
  by_cases hrestart : .restart ∈ paced.effects env
  · -- the new reference is the boot that the execution ends with
    rw [booted_pacedStep_of_restart hrestart]
    exact Nat.le_add_right_of_le (hnow.trans (moment_le_free mac paced env))
  · cases hattempted : attempted (paced.effects env) with
    | none =>
      have hattempts : ¬ Attempts paced.board env := Option.not_isSome_iff_eq_none.mpr hattempted
      rw [booted_pacedStep_of_notMem hrestart, reference_pacedStep_of_idle ⟨hattempts, hrestart⟩]
      exact hreference
    | some ok =>
      cases ok with
      | true => exact absurd hattempted hunconnected
      | false => exact hnow.trans (waitsFrom_of_failed honTime hintime hattempted).reference_le

/-- An attempt comes more than 2000 ms after the reference. -/
theorem lt_moment_of_attempts {moment : ℕ} {paced : Paced} {env : Surroundings}
    (hwaits : WaitsFrom moment paced) (hintime : InTime paced env)
    (hattempts : Attempts paced.board env) : moment + 2000 < paced.moment env := by
  obtain ⟨honTime, hreference⟩ := hwaits
  obtain ⟨hwifi, hclient, -⟩ := (attempts_iff_wantsReconnect _ env).mp hattempts
  have helapsed := ((attempts_iff_of_tracksReference honTime.tracks
    (inOrder_of_inTime honTime hintime) hwifi hclient).mp hattempts).1
  -- a remainder modulo `2 ^ 32` is at most the elapsed time itself
  have hremainder := Nat.mod_le (env.time - paced.board.history.reference) (2 ^ 32)
  unfold Paced.moment
  omega

/-- **The reconnect attempts, over restarts.**  In every run in true time, an attempt that
follows a failed one, with no attempt between them that succeeds, starts more than 2000 ms
after it, however often the board restarts and fails again in between. -/
theorem attempts_spaced (mac : Fin 6 → UInt8) (micros : ℕ) (before between : List Surroundings)
    (first second : Surroundings)
    (hintime : Along (pacedStep mac) InTime (Paced.start mac micros)
      (before ++ [first] ++ between ++ [second]))
    (hfailed : attempted ((after (pacedStep mac) (Paced.start mac micros) before).effects first) =
      some false)
    (hunconnected : Along (pacedStep mac) Unconnected
      (after (pacedStep mac) (Paced.start mac micros) (before ++ [first])) between)
    (hsecond : Attempts
      (after (pacedStep mac) (Paced.start mac micros) (before ++ [first] ++ between)).board second) :
    (after (pacedStep mac) (Paced.start mac micros) before).moment first + 2000 <
      (after (pacedStep mac) (Paced.start mac micros) (before ++ [first] ++ between)).moment
        second := by
  obtain ⟨hrun, hlast⟩ := (along_concat _ _ _).mp hintime
  obtain ⟨huntil, hbetween⟩ := (along_append _ _ _).mp hrun
  obtain ⟨hbefore, hfirst⟩ := (along_concat _ _ _).mp huntil
  have honTime := invariant OnTime (start_onTime mac micros) (step_onTime mac) hbefore
  have hwaits : WaitsFrom ((after (pacedStep mac) (Paced.start mac micros) before).moment first)
      (after (pacedStep mac) (Paced.start mac micros) (before ++ [first])) := by
    rw [after_concat]
    exact waitsFrom_of_failed honTime hfirst hfailed
  apply lt_moment_of_attempts _ hlast hsecond
  rw [after_append]
  exact invariant (WaitsFrom _) hwaits (step_waitsFrom mac _) (hbetween.and hunconnected)

/-- The execution finds the WiFi down, on all of the 150 looks. -/
def wifiDown : Surroundings :=
  { execution 6000 (fun _ => false) with wifiConnected := fun _ => false }

/-- A refused attempt, a restart for want of WiFi, and a refused attempt 2.001 s after it. -/
theorem attempts_spaced_restarted :
    (Paced.start (fun _ => 0) 0).moment (execution 3000 fun _ => false) + 2000 <
      (after (pacedStep fun _ => 0) (Paced.start (fun _ => 0) 0)
        [execution 3000 fun _ => false, wifiDown]).moment (execution 2001 fun _ => false) :=
  attempts_spaced (fun _ => 0) 0 [] [wifiDown] (execution 3000 fun _ => false)
    (execution 2001 fun _ => false) (by decide +kernel) (by decide) (by decide +kernel)
    (by decide +kernel)

end AwsIotSensors.Esp8266
