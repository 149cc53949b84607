import AwsIotSensors.Esp8266.Pace

/-!
# The boot of the air sensor

`setup` waits for the WiFi, for the time of day and for the flash.  The wait for the
WiFi gives up after 150 rounds and restarts the board; that for the time has no end of
its own.  `setup_outcome` says for any answers which of the three happens, a restart,
a board that is ready, or a wait for ever, and how long the first two take.
-/

namespace AwsIotSensors.Esp8266

/-- The answers that `setup` gets, beside those that `loop` gets as well: the
`time(nullptr)` of `getTime`, and what `loadcerts` finds. -/
structure Startup extends Surroundings where
  now : ℕ → ℤ
  mounted : Bool
  certOpened : Bool
  certLoaded : Bool
  keyOpened : Bool
  keyLoaded : Bool
  caOpened : Bool
  caLoaded : Bool

/-! ## The functions of the sketch -/

/-- The `while` loop of `getTime()`, from the given `time(nullptr)` on, if it ends within
a number of rounds. -/
def timeWait (env : Startup) : ℕ → ℕ → Option (List Effect)
  | poll, 0 => if env.now poll < 1000 then none else some []
  | poll, rounds + 1 =>
      if env.now poll < 1000 then
        (timeWait env (poll + 1) rounds).map fun later => .delay 500 :: .print "." :: later
      else some []

/-- `getTime()`.  The last line has the time as `asctime` writes it. -/
def getTime (env : Startup) (rounds : ℕ) : Option (List Effect) :=
  (timeWait env 0 rounds).map fun waits =>
    .print "Setting time using SNTP" :: waits ++ [.print "", .print "Current time: "]

/-- One of the three parts of `loadcerts()`: a file is opened and handed over, whether
it could be opened or not. -/
def loadFile (opened : Bool) (found missing : String) (loaded : Bool)
    (accepted refused : String) : List Effect :=
  [.print (if opened then found else missing), .delay 1000,
    .print (if loaded then accepted else refused)]

/-- `loadcerts()`. -/
def loadcerts (env : Startup) : List Effect :=
  if !env.mounted then [.print "Failed to mount file system"]
  else
    loadFile env.certOpened "Success to open cert file" "Failed to open cert file"
        env.certLoaded "cert loaded" "cert not loaded" ++
      loadFile env.keyOpened "Success to open private cert file"
        "Failed to open private cert file" env.keyLoaded "private key loaded"
        "private key not loaded" ++
      loadFile env.caOpened "Success to open ca" "Failed to open ca " env.caLoaded "ca loaded"
        "ca failed"

/-- Where a board is that boots. -/
inductive Boot
  | restarted (effects : List Effect)
  | waiting
  | ready (globals : Globals) (effects : List Effect)

/-- `setup()`, followed for a number of rounds of its wait for the time. -/
def setupBoard (mac : Fin 6 → UInt8) (env : Startup) (rounds : ℕ) : Boot :=
  let wifi := wifiConnect env.toSurroundings
  if .restart ∈ wifi then .restarted wifi
  else
    match getTime env rounds with
    | none => .waiting
    | some time => .ready (setup mac env.micros)
        (wifi ++ [.delay 500] ++ time ++ [.delay 500] ++ loadcerts env ++ [.delay 200])

/-! ## The WiFi -/

/-- The wait for the WiFi fails in all of its rounds. -/
def WifiFails (env : Surroundings) : Prop :=
  ∀ i ≤ 150, env.wifiConnected (1 + i) = false

/-- The wait gives up if all its rounds fail, after a tenth of a second each. -/
theorem wifiWait_of_failed {env : Surroundings} {poll left : ℕ}
    (hfails : ∀ i < left, env.wifiConnected (poll + i) = false) :
    .restart ∈ wifiWait env poll left ∧ waited (wifiWait env poll left) = 100 * left := by
  induction left generalizing poll with
  | zero => exact ⟨by simp [wifiWait], rfl⟩
  | succ left ih =>
      have hhead : env.wifiConnected poll = false := hfails 0 (Nat.zero_lt_succ left)
      obtain ⟨hrestart, hwaited⟩ := @ih (poll + 1) fun i hi => by
        rw [Nat.add_assoc, Nat.add_comm 1 i]
        exact hfails (i + 1) (Nat.succ_lt_succ hi)
      simp only [wifiWait, hhead, Bool.false_eq_true, if_false]
      refine ⟨List.mem_cons_of_mem _ hrestart, ?_⟩
      rw [waited, List.map_cons, List.sum_cons, ← waited, hwaited, Effect.milliseconds]
      omega

/-- It ends with the first round that does not fail. -/
theorem wifiWait_of_connected {env : Surroundings} {poll left i : ℕ} (hi : i < left)
    (hfails : ∀ j < i, env.wifiConnected (poll + j) = false)
    (hconnected : env.wifiConnected (poll + i) = true) :
    .restart ∉ wifiWait env poll left ∧ waited (wifiWait env poll left) = 100 * i := by
  induction left generalizing poll i with
  | zero => exact absurd hi (Nat.not_lt_zero i)
  | succ left ih =>
      cases i with
      | zero =>
          rw [Nat.add_zero] at hconnected
          simp only [wifiWait, hconnected, if_true]
          exact ⟨by simp, rfl⟩
      | succ i =>
          have hhead : env.wifiConnected poll = false := hfails 0 (Nat.zero_lt_succ i)
          obtain ⟨hrestart, hwaited⟩ := @ih (poll + 1) i (Nat.lt_of_succ_lt_succ hi)
            (fun j hj => by
              rw [Nat.add_assoc, Nat.add_comm 1 j]
              exact hfails (j + 1) (Nat.succ_lt_succ hj))
            (by rwa [Nat.add_assoc, Nat.add_comm 1 i])
          simp only [wifiWait, hhead, Bool.false_eq_true, if_false]
          refine ⟨by simpa using hrestart, ?_⟩
          rw [waited, List.map_cons, List.sum_cons, ← waited, hwaited, Effect.milliseconds]
          omega

theorem wifiConnect_of_wifiFails {env : Surroundings} (hfails : WifiFails env) :
    .restart ∈ wifiConnect env ∧ waited (wifiConnect env) = 15010 := by
  have hfirst : env.wifiConnected 1 = false := hfails 0 (by decide)
  obtain ⟨hrestart, hwaited⟩ := @wifiWait_of_failed env 2 150 fun i hi => by
    have hpoll := hfails (i + 1) hi
    rwa [Nat.add_comm i 1, ← Nat.add_assoc] at hpoll
  simp only [wifiConnect, hfirst, Bool.not_false, if_true]
  refine ⟨List.mem_cons_of_mem _ hrestart, ?_⟩
  rw [waited, List.map_cons, List.sum_cons, ← waited, hwaited, Effect.milliseconds]

theorem wifiConnect_of_not_wifiFails {env : Surroundings} (hfails : ¬ WifiFails env) :
    .restart ∉ wifiConnect env ∧ waited (wifiConnect env) ≤ 14910 := by
  have hexists : ∃ i, i ≤ 150 ∧ env.wifiConnected (1 + i) = true := by
    simpa [WifiFails] using hfails
  obtain ⟨hle, hconnected⟩ := Nat.find_spec hexists
  have hbefore : ∀ j < Nat.find hexists, env.wifiConnected (1 + j) = false := by
    intro j hj
    have hnot := Nat.find_min hexists hj
    simpa using fun hup => hnot ⟨(hj.le.trans hle), hup⟩
  generalize Nat.find hexists = i at hle hconnected hbefore
  cases i with
  | zero =>
      rw [Nat.add_zero] at hconnected
      simp [wifiConnect, hconnected, waited]
  | succ i =>
      have hfirst : env.wifiConnected 1 = false := hbefore 0 (Nat.zero_lt_succ i)
      obtain ⟨hrestart, hwaited⟩ := @wifiWait_of_connected env 2 150 i hle
        (fun j hj => by
          have hpoll := hbefore (j + 1) (Nat.succ_lt_succ hj)
          rwa [Nat.add_comm j 1, ← Nat.add_assoc] at hpoll)
        (by rwa [Nat.add_comm i 1, ← Nat.add_assoc] at hconnected)
      simp only [wifiConnect, hfirst, Bool.not_false, if_true]
      refine ⟨by simpa using hrestart, ?_⟩
      rw [waited, List.map_cons, List.sum_cons, ← waited, hwaited, Effect.milliseconds]
      omega

/-! ## The time -/

/-- The wait for the time does not end before there is one. -/
theorem timeWait_of_never {env : Startup} {poll : ℕ} (hnever : ∀ j, env.now (poll + j) < 1000)
    (rounds : ℕ) : timeWait env poll rounds = none := by
  induction rounds generalizing poll with
  | zero => simp only [timeWait, show env.now poll < 1000 from hnever 0, if_true]
  | succ rounds ih =>
      have hlater : timeWait env (poll + 1) rounds = none := ih fun j => by
        rw [Nat.add_assoc]
        exact hnever (1 + j)
      simp only [timeWait, show env.now poll < 1000 from hnever 0, if_true, hlater,
        Option.map_none]

/-- It ends with the first time there is, after half a second for each without. -/
theorem timeWait_of_synced {env : Startup} {poll k rounds : ℕ} (hle : k ≤ rounds)
    (hbefore : ∀ j < k, env.now (poll + j) < 1000) (hsynced : 1000 ≤ env.now (poll + k)) :
    ∃ waits, timeWait env poll rounds = some waits ∧ waited waits = 500 * k := by
  induction rounds generalizing poll k with
  | zero =>
      obtain rfl := Nat.le_zero.mp hle
      rw [Nat.add_zero] at hsynced
      exact ⟨[], by rw [timeWait, if_neg (not_lt.mpr hsynced)], rfl⟩
  | succ rounds ih =>
      cases k with
      | zero =>
          rw [Nat.add_zero] at hsynced
          exact ⟨[], by rw [timeWait, if_neg (not_lt.mpr hsynced)], rfl⟩
      | succ k =>
          obtain ⟨waits, hwaits, hwaited⟩ := @ih (poll + 1) k (Nat.le_of_succ_le_succ hle)
            (fun j hj => by
              rw [Nat.add_assoc, Nat.add_comm 1 j]
              exact hbefore (j + 1) (Nat.succ_lt_succ hj))
            (by rwa [Nat.add_assoc, Nat.add_comm 1 k])
          have hhead : env.now poll < 1000 := hbefore 0 (Nat.zero_lt_succ k)
          refine ⟨.delay 500 :: .print "." :: waits, ?_, ?_⟩
          · simp only [timeWait, hhead, if_true, hwaits, Option.map_some]
          · simp only [waited, List.map_cons, List.sum_cons, Effect.milliseconds] at hwaited ⊢
            omega

/-! ## The main statement -/

theorem waited_loadFile (opened : Bool) (found missing : String) (loaded : Bool)
    (accepted refused : String) :
    waited (loadFile opened found missing loaded accepted refused) = 1000 := by
  simp [waited, loadFile, Effect.milliseconds]

theorem waited_loadcerts (env : Startup) :
    waited (loadcerts env) = if env.mounted then 3000 else 0 := by
  unfold loadcerts
  cases env.mounted with
  | false => simp [waited, Effect.milliseconds]
  | true =>
      simp only [Bool.not_true, Bool.false_eq_true, if_false, if_true, waited_append,
        waited_loadFile]

theorem setupBoard_of_wifiFails (mac : Fin 6 → UInt8) {env : Startup}
    (hfails : WifiFails env.toSurroundings) (rounds : ℕ) :
    ∃ effects, setupBoard mac env rounds = .restarted effects ∧ waited effects = 15010 := by
  obtain ⟨hrestart, hwaited⟩ := wifiConnect_of_wifiFails hfails
  exact ⟨wifiConnect env.toSurroundings, by simp only [setupBoard, if_pos hrestart], hwaited⟩

theorem getTime_of_synced {env : Startup} {k rounds : ℕ} (hle : k ≤ rounds)
    (hbefore : ∀ j < k, env.now j < 1000) (hsynced : 1000 ≤ env.now k) :
    ∃ time, getTime env rounds = some time ∧ waited time = 500 * k := by
  obtain ⟨waits, hwaits, hwaited⟩ := @timeWait_of_synced env 0 k rounds hle
    (by simpa using hbefore) (by simpa using hsynced)
  refine ⟨.print "Setting time using SNTP" :: waits ++ [.print "", .print "Current time: "], ?_, ?_⟩
  · rw [getTime, hwaits]
    rfl
  · rw [waited_append, ← hwaited]
    simp [waited, Effect.milliseconds]

/-- A board that finds the WiFi and gets the time of day is ready. -/
theorem setupBoard_of_synced (mac : Fin 6 → UInt8) {env : Startup}
    (hwifi : ¬ WifiFails env.toSurroundings) {k rounds : ℕ} (hle : k ≤ rounds)
    (hbefore : ∀ j < k, env.now j < 1000) (hsynced : 1000 ≤ env.now k) :
    ∃ effects, setupBoard mac env rounds = .ready (setup mac env.micros) effects ∧
      waited effects = waited (wifiConnect env.toSurroundings) + 500 * k + 1200 +
        if env.mounted then 3000 else 0 := by
  obtain ⟨hrestart, -⟩ := wifiConnect_of_not_wifiFails hwifi
  obtain ⟨time, htime, hwaited⟩ := getTime_of_synced hle hbefore hsynced
  refine ⟨wifiConnect env.toSurroundings ++ [.delay 500] ++ time ++ [.delay 500] ++
    loadcerts env ++ [.delay 200], ?_, ?_⟩
  · simp only [setupBoard, if_neg hrestart, htime]
  · have hhalf : waited [.delay 500] = 500 := rfl
    have hlast : waited [.delay 200] = 200 := rfl
    simp only [waited_append, hwaited, waited_loadcerts, hhalf, hlast]
    omega

/-- **How a boot goes.**  Without WiFi the board restarts after 15 s.  With WiFi and no
time of day it waits for ever.  With both it is ready, with a name made of its address,
after at most 14.9 s for the WiFi and half a second for each time it had no time. -/
theorem setup_outcome (mac : Fin 6 → UInt8) (env : Startup) :
    (WifiFails env.toSurroundings ∧ ∀ rounds, ∃ effects,
      setupBoard mac env rounds = .restarted effects ∧ waited effects = 15010) ∨
    (¬ WifiFails env.toSurroundings ∧ (∀ k, env.now k < 1000) ∧
      ∀ rounds, setupBoard mac env rounds = .waiting) ∨
    (∃ k, ¬ WifiFails env.toSurroundings ∧ (∀ j < k, env.now j < 1000) ∧ 1000 ≤ env.now k ∧
      ∀ rounds ≥ k, ∃ wifi ≤ 14910, ∃ effects,
        setupBoard mac env rounds = .ready (setup mac env.micros) effects ∧
        waited effects = wifi + 500 * k + 1200 + if env.mounted then 3000 else 0) := by
  by_cases hfails : WifiFails env.toSurroundings
  · exact Or.inl ⟨hfails, setupBoard_of_wifiFails mac hfails⟩
  · right
    obtain ⟨hrestart, hwaited⟩ := wifiConnect_of_not_wifiFails hfails
    by_cases hnever : ∀ k, env.now k < 1000
    · left
      refine ⟨hfails, hnever, ?_⟩
      intro rounds
      have hwait : timeWait env 0 rounds = none := timeWait_of_never (fun j => hnever _) rounds
      simp only [setupBoard, if_neg hrestart, getTime, hwait, Option.map_none]
    · right
      push Not at hnever
      -- the first time there is
      refine ⟨Nat.find hnever, hfails, ?_, Nat.find_spec hnever, ?_⟩
      · intro j hj
        exact not_le.mp (Nat.find_min hnever hj)
      · intro rounds hle
        exact ⟨_, hwaited, setupBoard_of_synced mac hfails hle
          (fun j hj => not_le.mp (Nat.find_min hnever hj)) (Nat.find_spec hnever)⟩

end AwsIotSensors.Esp8266
