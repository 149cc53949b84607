import AwsIotSensors.Lib.MachineInt
import AwsIotSensors.Lib.Runs

/-!
# The ESP8266 air sensor

`ESP8266_air_sensor.ino` function by function.  What the sketch asks its
libraries (`WiFi.status()`, `client.connected()`, `client.connect()`, the DHT
reads, `micros()`) is answered by `Surroundings`, one for each execution of
`loop`; what it does to the outside is a list of `Effect`s.

`ESP.restart()` does not return: the board boots again, the globals start anew
and `setup` rebuilds the client name.  `step` puts `loop` and the restart
together and keeps, beside the globals, the true history of the reconnect
attempts since boot, which the sketch itself does not have.
-/

namespace AwsIotSensors.Esp8266

/-- `long` on the ESP8266: 32 bits, two's complement. -/
abbrev Long := BitVec 32

/-- `long now = millis()`: the true time since boot modulo `2 ^ 32`. -/
def millis (time : ℕ) : Long := MachineInt.clock 32 time

/-! ## Readings -/

/-- A `float` read from the DHT sensor: a number, known by its sign and its
two-decimal magnitude, or NaN for a read that failed. -/
inductive Reading
  | number (negative : Bool) (hundredths : ℕ)
  | nan
deriving DecidableEq

/-- `isnan`. -/
def Reading.isNan : Reading → Bool
  | .number _ _ => false
  | .nan => true

/-- `String(float)`: two decimals, or `nan`. -/
def Reading.text : Reading → String
  | .number negative hundredths =>
      (if negative then "-" else "") ++ (hundredths / 100).repr ++ "." ++
        (hundredths / 10 % 10).repr ++ (hundredths % 10).repr
  | .nan => "nan"

/-- `struct measure`. -/
structure Measure where
  t : Reading
  h : Reading
deriving DecidableEq

/-! ## The outside -/

/-- What an execution of `loop` does to the outside.  `reconnect ok` marks the
return of `reconnect()`. -/
inductive Effect
  | print (line : String)
  | connect (clientName : String)
  | reconnect (ok : Bool)
  | publish (topic payload : String)
  | delay (milliseconds : ℕ)
  | restart
deriving DecidableEq

/-- The answers one execution of `loop` gets: the `k`-th `WiFi.status()` and
`client.connected()` of the execution, and the calls it makes at most once. -/
structure Surroundings where
  /-- the true time since boot, in milliseconds, when `millis()` is read -/
  time : ℕ
  wifiConnected : ℕ → Bool
  clientConnected : ℕ → Bool
  connectAccepted : Bool
  clientState : ℤ
  humidity : Reading
  temperature : Reading
  publishAccepted : Bool
  /-- what `setup` reads from `micros()` if this execution restarts the board -/
  micros : ℕ

/-- The globals that `loop` and `setup` use. -/
structure Globals where
  clientName : String
  lastReconnectAttempt : Long
deriving DecidableEq

/-- `topic`. -/
def topic : String := "$aws/things/air-sensor/shadow/update"

/-! ## The functions of the sketch -/

/-- `reconnect()`. -/
def reconnect (env : Surroundings) (clientName : String) : Bool × List Effect :=
  let attempt :=
    if !env.clientConnected 1 then
      [.connect clientName,
        if env.connectAccepted then .print "===> mqtt connected"
        else .print ("---> mqtt failed, rc=" ++ toString env.clientState)]
    else []
  (env.clientConnected 2, attempt ++ [.reconnect (env.clientConnected 2)])

/-- The `while` loop of `wifi_connect()`, from the given `WiFi.status()` on and
with the given number of attempts left. -/
def wifiWait (env : Surroundings) : ℕ → ℕ → List Effect
  | _, 0 => [.print "-----> Could not connect to WIFI", .restart]
  | poll, left + 1 =>
      if env.wifiConnected poll then [.print "===> WiFi connected"]
      else .delay 100 :: wifiWait env (poll + 1) left

/-- `wifi_connect()`, as called by `loop`. -/
def wifiConnect (env : Surroundings) : List Effect :=
  if !env.wifiConnected 1 then .delay 10 :: wifiWait env 2 150 else []

/-- `get_measurements()`: a failed read is printed and returned all the same.
Both lines say "humidity" in the source. -/
def getMeasurements (env : Surroundings) : Measure × List Effect :=
  let humidity := env.humidity
  let temperature := env.temperature
  let measurement : Measure := ⟨temperature, humidity⟩
  (measurement,
    (if humidity.isNan then [.print "Failed to read humidity from DHT sensor!"] else []) ++
    (if temperature.isNan then [.print "Failed to read humidity from DHT sensor!"] else []) ++
    [.print ("Humidity: " ++ humidity.text ++ "% "),
      .print ("Temperature: " ++ temperature.text ++ "°C ")])

/-- The payload `loop` assembles from a measure. -/
def payload (m : Measure) : String :=
  "\x7b \"state\": \x7b\"desired\":\x7b \"temperature\" : " ++ m.t.text ++ ", \"humidity\":" ++
    m.h.text ++ "\x7d\x7d\x7d"

/-- `sendmqttMsg()`. -/
def sendmqttMsg (env : Surroundings) (topictosend payload : String) : List Effect :=
  if env.clientConnected 1 then
    [.print ("Sending payload: " ++ payload ++ " length: " ++ payload.length.repr),
      .publish topictosend payload,
      if env.publishAccepted then .print "Publish ok" else .print "Publish failed"]
  else []

/-- `loop()`. -/
def loop (env : Surroundings) (globals : Globals) : Globals × List Effect :=
  if env.wifiConnected 0 then
    if !env.clientConnected 0 then
      let now := millis env.time
      if (now - globals.lastReconnectAttempt).toInt > 2000 then
        let (ok, effects) := reconnect env globals.clientName
        if ok then ({ globals with lastReconnectAttempt := 0 }, effects)
        else ({ globals with lastReconnectAttempt := now }, effects)
      else (globals, [])
    else
      let (m, effects) := getMeasurements env
      (globals, effects ++ sendmqttMsg env topic (payload m) ++ [.delay (3 * 60 * 1000)])
  else (globals, wifiConnect env)

/-- `String(x, 16)`. -/
def hex (x : ℕ) : String := String.ofList (Nat.toDigits 16 x)

/-- `macToStr()`. -/
def macToStr (mac : Fin 6 → UInt8) : String :=
  (List.finRange 6).foldl (fun result i =>
    let result := result ++ hex (mac i).toNat
    if i.val < 5 then result ++ ":" else result) ""

/-- The globals after `setup()`. -/
def setup (mac : Fin 6 → UInt8) (micros : ℕ) : Globals where
  clientName := "" ++ "esp8266-" ++ macToStr mac ++ "-" ++ hex (micros &&& 0xff)
  lastReconnectAttempt := 0

/-! ## Runs of the board -/

/-- The true history of a board since its last boot: the time of the last
execution of `loop`, and the start and result of the last call of `reconnect()`. -/
structure History where
  clock : ℕ
  lastAttempt : Option (ℕ × Bool)
deriving DecidableEq

/-- A board: what the sketch knows and what really happened. -/
structure Board where
  globals : Globals
  history : History
deriving DecidableEq

/-- A board that has just booted. -/
def boot (mac : Fin 6 → UInt8) (micros : ℕ) : Board :=
  ⟨setup mac micros, ⟨0, none⟩⟩

/-- The result of the call of `reconnect()` among some effects, if there is one. -/
def attempted (effects : List Effect) : Option Bool :=
  effects.findSome? fun
    | .reconnect ok => some ok
    | _ => none

/-- One execution of `loop()`, and the reboot it may cause. -/
def step (mac : Fin 6 → UInt8) (board : Board) (env : Surroundings) : Board :=
  let (globals, effects) := loop env board.globals
  if .restart ∈ effects then boot mac env.micros
  else
    { globals
      history :=
        { clock := env.time
          lastAttempt := match attempted effects with
            | some ok => some (env.time, ok)
            | none => board.history.lastAttempt } }

/-- True time does not run backwards between two boots. -/
def InOrder (board : Board) (env : Surroundings) : Prop :=
  board.history.clock ≤ env.time

instance (board : Board) (env : Surroundings) : Decidable (InOrder board env) :=
  inferInstanceAs (Decidable (_ ≤ _))

/-! ## What an execution of `loop` can do -/

/-- `loop` finds the WiFi up and the MQTT client down, and enough time gone by
on its own clock. -/
def WantsReconnect (env : Surroundings) (globals : Globals) : Prop :=
  env.wifiConnected 0 ∧ ¬ env.clientConnected 0 ∧
    2000 < (millis env.time - globals.lastReconnectAttempt).toInt

instance (env : Surroundings) (globals : Globals) : Decidable (WantsReconnect env globals) :=
  inferInstanceAs (Decidable (_ ∧ _ ∧ _))

theorem attempted_append (first second : List Effect) :
    attempted (first ++ second) = (attempted first).or (attempted second) :=
  List.findSome?_append

theorem attempted_wifiWait (env : Surroundings) (poll left : ℕ) :
    attempted (wifiWait env poll left) = none := by
  induction left generalizing poll with
  | zero => rfl
  | succ left ih =>
      simp only [wifiWait]
      split
      · rfl
      · exact ih (poll + 1)

theorem attempted_wifiConnect (env : Surroundings) : attempted (wifiConnect env) = none := by
  unfold wifiConnect
  split
  · exact attempted_wifiWait env 2 150
  · rfl

theorem attempted_getMeasurements (env : Surroundings) :
    attempted (getMeasurements env).2 = none := by
  simp only [getMeasurements, attempted_append]
  split <;> split <;> rfl

theorem attempted_sendmqttMsg (env : Surroundings) (topictosend payload : String) :
    attempted (sendmqttMsg env topictosend payload) = none := by
  unfold sendmqttMsg
  split
  · split <;> rfl
  · rfl

theorem attempted_reconnect (env : Surroundings) (clientName : String) :
    attempted (reconnect env clientName).2 = some (env.clientConnected 2) := by
  simp only [reconnect]
  split
  · split <;> rfl
  · rfl

theorem restart_notMem_reconnect (env : Surroundings) (clientName : String) :
    .restart ∉ (reconnect env clientName).2 := by
  simp only [reconnect]
  split
  · split <;> simp
  · simp

theorem loop_of_wantsReconnect {env : Surroundings} {globals : Globals}
    (hwants : WantsReconnect env globals) :
    loop env globals =
      ({ globals with
          lastReconnectAttempt := if env.clientConnected 2 then 0 else millis env.time },
        (reconnect env globals.clientName).2) := by
  obtain ⟨hwifi, hclient, hlate⟩ := hwants
  rw [Bool.not_eq_true] at hclient
  unfold loop
  rw [if_pos hwifi, hclient, if_pos (by rfl)]
  simp only [gt_iff_lt, if_pos hlate]
  cases hok : env.clientConnected 2 <;> simp only [reconnect, hok] <;> rfl

theorem loop_of_not_wantsReconnect {env : Surroundings} {globals : Globals}
    (hwants : ¬ WantsReconnect env globals) :
    (loop env globals).1 = globals ∧ attempted (loop env globals).2 = none := by
  unfold loop
  split
  · next hwifi =>
      split
      · next hclient =>
          -- too early, on the clock of the sketch
          have hearly : ¬ 2000 < (millis env.time - globals.lastReconnectAttempt).toInt :=
            fun hlate => hwants ⟨hwifi, by simpa using hclient, hlate⟩
          simp only [gt_iff_lt, if_neg hearly]
          exact ⟨trivial, rfl⟩
      · -- the client is connected, and a measurement is sent
        refine ⟨rfl, ?_⟩
        simp only [attempted_append, attempted_getMeasurements, attempted_sendmqttMsg]
        rfl
  · exact ⟨rfl, attempted_wifiConnect env⟩

/-- `loop` calls `reconnect()` exactly when it wants to. -/
theorem attempted_loop (env : Surroundings) (globals : Globals) :
    attempted (loop env globals).2 =
      if WantsReconnect env globals then some (env.clientConnected 2) else none := by
  split
  · next hwants => rw [loop_of_wantsReconnect hwants, attempted_reconnect]
  · next hwants => exact (loop_of_not_wantsReconnect hwants).2

end AwsIotSensors.Esp8266
