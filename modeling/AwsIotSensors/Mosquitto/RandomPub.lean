import AwsIotSensors.Lib.Bc
import AwsIotSensors.Shadow

/-!
# The random sensor of mosquitto

`mqtt_random_pub.sh` draws five values of `$RANDOM` in each round, has `bc` map
each of them to the range of its reading, and splices the five results into a
JSON text.  A result between -1 and 1 other than zero comes without a digit
before the point, which JSON does not allow.

`message_wellFormed_iff` says for which draws the message is the document of its
readings: the five results are always in range (`inRange_readings`), and the
message is no document at all if one of them is of that kind.
-/

namespace AwsIotSensors.Mosquitto

open Json

/-! ## The script -/

/-- `scale=8`. -/
abbrev scale : ℕ := 8

/-- A value of `$RANDOM`. -/
abbrev Random := Fin 32768

/-- `$RANDOM/32768*factor`. -/
def scaled (random : Random) (factor : ℤ) : ℤ :=
  Bc.multiply scale (Bc.divide scale (Bc.ofInt scale random) (Bc.ofInt scale 32768))
    (Bc.ofInt scale factor)

/-- The values of `$RANDOM` in one round, in the order of the assignments. -/
structure Draws where
  temp : Random
  hum : Random
  windDir : Random
  wind : Random
  rain : Random
deriving DecidableEq

/-- `temp`. -/
def Draws.tempResult (draws : Draws) : ℤ := scaled draws.temp 100 - Bc.ofInt scale 50

/-- `hum`. -/
def Draws.humResult (draws : Draws) : ℤ := scaled draws.hum 100

/-- `wind_dir`. -/
def Draws.windDirResult (draws : Draws) : ℤ := scaled draws.windDir 360

/-- `wind`. -/
def Draws.windResult (draws : Draws) : ℤ := scaled draws.wind 100

/-- `rain`. -/
def Draws.rainResult (draws : Draws) : ℤ := scaled draws.rain 50

/-- The argument of `-m`, with the five results as they are printed. -/
def message (temp hum windDir wind rain : List Char) : List Char :=
  "\x7b \"state\": \x7b\"desired\":\x7b\"temperature\":".toList ++ (temp ++
    (", \"humidity\":".toList ++ (hum ++ (", \"wind_direction\":".toList ++ (windDir ++
      (", \"wind\":".toList ++ (wind ++ (",\"rain\":".toList ++ (rain ++
        "\x7d \x7d\x7d".toList)))))))))

/-- The message of a round. -/
def Draws.message (draws : Draws) : List Char :=
  Mosquitto.message (Bc.text scale draws.tempResult) (Bc.text scale draws.humResult)
    (Bc.text scale draws.windDirResult) (Bc.text scale draws.windResult)
    (Bc.text scale draws.rainResult)

/-- What the script does to the outside. -/
inductive Effect
  | echo (line : String)
  | exit (code : ℕ)
  | publish (host topic : String) (port : ℕ) (message : List Char) (qos : ℕ)
  | sleep (seconds : ℕ)
deriving DecidableEq

/-- The rounds of the loop, with the draws of each. -/
def mqttRandomPub (awsHost : String) : List Draws → List Effect
  | [] => []
  | draws :: rest =>
      if awsHost = "" then [.echo "you need to set AWS_HOST variable first", .exit 1]
      else
        .publish awsHost "$aws/things/test/shadow/update" 8883 draws.message 1 ::
          .sleep 180 :: mqttRandomPub awsHost rest

/-! ## The readings -/

/-- The results of a round, under the names of the message. -/
def readings (draws : Draws) : List (String × ℚ) :=
  [("temperature", Bc.toRat scale draws.tempResult),
    ("humidity", Bc.toRat scale draws.humResult),
    ("wind_direction", Bc.toRat scale draws.windDirResult),
    ("wind", Bc.toRat scale draws.windResult),
    ("rain", Bc.toRat scale draws.rainResult)]

/-- The document with the readings of a round. -/
def readingsUpdate (draws : Draws) : Value :=
  Shadow.update ((readings draws).map fun (name, reading) => (name, .number reading))

theorem ten_pow_scale : (10 : ℤ) ^ scale = 100000000 := by norm_num

theorem scaled_eq (random : Random) (factor : ℤ) :
    scaled random factor = (random : ℤ) * 10 ^ scale / 32768 * factor := by
  unfold scaled
  rw [Bc.divide_ofInt (by positivity), Bc.multiply_ofInt]

/-- The readings are in their ranges. -/
def InRange (draws : Draws) : Prop :=
  (-50 ≤ Bc.toRat scale draws.tempResult ∧ Bc.toRat scale draws.tempResult ≤ 50) ∧
  (0 ≤ Bc.toRat scale draws.humResult ∧ Bc.toRat scale draws.humResult ≤ 100) ∧
  (0 ≤ Bc.toRat scale draws.windDirResult ∧ Bc.toRat scale draws.windDirResult ≤ 360) ∧
  (0 ≤ Bc.toRat scale draws.windResult ∧ Bc.toRat scale draws.windResult ≤ 100) ∧
  (0 ≤ Bc.toRat scale draws.rainResult ∧ Bc.toRat scale draws.rainResult ≤ 50)

theorem toRat_mem {low high a : ℤ} (hlow : low * 10 ^ scale ≤ a) (hhigh : a ≤ high * 10 ^ scale) :
    (low : ℚ) ≤ Bc.toRat scale a ∧ Bc.toRat scale a ≤ high := by
  have hpos : (0 : ℚ) < 10 ^ scale := by positivity
  unfold Bc.toRat
  rw [le_div_iff₀ hpos, div_le_iff₀ hpos]
  exact ⟨by exact_mod_cast hlow, by exact_mod_cast hhigh⟩

/-- A draw is mapped to the interval from 0 to the factor. -/
theorem scaled_mem (random : Random) {factor : ℤ} (hfactor : 0 ≤ factor) :
    0 ≤ scaled random factor ∧ scaled random factor ≤ factor * 10 ^ scale := by
  have hquotient : (random : ℤ) * 10 ^ scale / 32768 ≤ 10 ^ scale := by
    have hlt := random.isLt
    rw [ten_pow_scale]
    omega
  have hnonneg : 0 ≤ (random : ℤ) * 10 ^ scale / 32768 := by positivity
  rw [scaled_eq]
  refine ⟨by positivity, ?_⟩
  calc (random : ℤ) * 10 ^ scale / 32768 * factor
      ≤ 10 ^ scale * factor := mul_le_mul_of_nonneg_right hquotient hfactor
    _ = factor * 10 ^ scale := mul_comm _ _

/-- The readings of a round are in their ranges, whatever is drawn. -/
theorem inRange_readings (draws : Draws) : InRange draws := by
  have hplain : ∀ (random : Random) {factor : ℤ}, 0 ≤ factor →
      (0 : ℚ) ≤ Bc.toRat scale (scaled random factor) ∧
        Bc.toRat scale (scaled random factor) ≤ factor := by
    intro random factor hfactor
    have hmem := scaled_mem random hfactor
    have hlow : 0 * 10 ^ scale ≤ scaled random factor := by simpa using hmem.1
    exact_mod_cast toRat_mem hlow hmem.2
  refine ⟨?_, hplain draws.hum (by decide), hplain draws.windDir (by decide),
    hplain draws.wind (by decide), hplain draws.rain (by decide)⟩
  have hmem := scaled_mem draws.temp (by decide : (0 : ℤ) ≤ 100)
  have hlow : -50 * 10 ^ scale ≤ draws.tempResult := by
    unfold Draws.tempResult Bc.ofInt
    linarith [hmem.1]
  have hhigh : draws.tempResult ≤ 50 * 10 ^ scale := by
    unfold Draws.tempResult Bc.ofInt
    linarith [hmem.2]
  exact_mod_cast toRat_mem hlow hhigh

/-! ## The message as a document -/

/-- What the output of bc for a reading is read as. -/
def readingValue (result : ℤ) : Option Value :=
  if Bc.DigitBeforePoint scale result then some (.number (Bc.toRat scale result)) else none

theorem reads_result (result : ℤ) : Reads 1 (Bc.text scale result) (readingValue result) :=
  Bc.reads_text (by decide) result

/-- All five results have a digit before the point. -/
def DigitsBeforePoints (draws : Draws) : Prop :=
  Bc.DigitBeforePoint scale draws.tempResult ∧ Bc.DigitBeforePoint scale draws.humResult ∧
    Bc.DigitBeforePoint scale draws.windDirResult ∧ Bc.DigitBeforePoint scale draws.windResult ∧
    Bc.DigitBeforePoint scale draws.rainResult

instance (draws : Draws) : Decidable (DigitsBeforePoints draws) :=
  inferInstanceAs (Decidable (_ ∧ _ ∧ _ ∧ _ ∧ _))

/-- A message is read as the members that its five parts are read as. -/
theorem reads_message {temp hum windDir wind rain : List Char}
    {tempRead humRead windDirRead windRead rainRead : Option Value}
    (htemp : Reads 1 temp tempRead) (hhum : Reads 1 hum humRead)
    (hwindDir : Reads 1 windDir windDirRead) (hwind : Reads 1 wind windRead)
    (hrain : Reads 1 rain rainRead) :
    Reads 4 (message temp hum windDir wind rain)
      (tempRead.bind fun temp => humRead.bind fun hum => windDirRead.bind fun windDir =>
        windRead.bind fun wind => rainRead.map fun rain => Shadow.update
          [("temperature", temp), ("humidity", hum), ("wind_direction", windDir), ("wind", wind),
            ("rain", rain)]) := by
  have hblank : Blanks [' '] := by decide
  have hnone : Blanks [] := by decide
  have hlast := readsMembers_last hnone (by decide : PlainName "rain".toList) hnone hrain hnone
  have hfour := readsMembers_cons hblank (by decide : PlainName "wind".toList) hnone hwind hnone
    hlast
  have hthree := readsMembers_cons hblank (by decide : PlainName "wind_direction".toList) hnone
    hwindDir hnone hfour
  have htwo := readsMembers_cons hblank (by decide : PlainName "humidity".toList) hnone hhum hnone
    hthree
  have hall := readsMembers_cons hnone (by decide : PlainName "temperature".toList) hnone htemp
    hnone htwo
  have hupdate := Shadow.reads_update hall hblank hnone hnone hnone hblank hnone hnone hblank
  simp only [memberText, List.append_assoc, List.cons_append, List.nil_append] at hupdate
  refine Reads.of_eq hupdate ?_
  cases tempRead <;> cases humRead <;> cases windDirRead <;> cases windRead <;>
    cases rainRead <;> simp

/-- **The message as a document**: the update of the five readings, or none if one
of the results has no digit before the point. -/
theorem parse_message (draws : Draws) :
    parse draws.message =
      if DigitsBeforePoints draws then some (readingsUpdate draws) else none := by
  have hread := parse_of_reads (reads_message (reads_result draws.tempResult)
    (reads_result draws.humResult) (reads_result draws.windDirResult)
    (reads_result draws.windResult) (reads_result draws.rainResult))
  refine hread.trans ?_
  unfold DigitsBeforePoints readingValue
  by_cases htemp : Bc.DigitBeforePoint scale draws.tempResult
  · by_cases hhum : Bc.DigitBeforePoint scale draws.humResult
    · by_cases hwindDir : Bc.DigitBeforePoint scale draws.windDirResult
      · by_cases hwind : Bc.DigitBeforePoint scale draws.windResult
        · by_cases hrain : Bc.DigitBeforePoint scale draws.rainResult
          · simp [htemp, hhum, hwindDir, hwind, hrain, readingsUpdate, readings]
          · simp [hrain]
        · simp [hwind]
      · simp [hwindDir]
    · simp [hhum]
  · simp [htemp]

/-! ## The draws -/

/-- No value is drawn that bc maps to a number between -1 and 1, except 0. -/
def AvoidsFractions (draws : Draws) : Prop :=
  (draws.temp.val < 16057 ∨ 16711 < draws.temp.val ∨ draws.temp.val = 16384) ∧
  (draws.hum.val = 0 ∨ 327 < draws.hum.val) ∧
  (draws.windDir.val = 0 ∨ 91 < draws.windDir.val) ∧
  (draws.wind.val = 0 ∨ 327 < draws.wind.val) ∧
  (draws.rain.val = 0 ∨ 655 < draws.rain.val)

instance (draws : Draws) : Decidable (AvoidsFractions draws) :=
  inferInstanceAs (Decidable (_ ∧ _ ∧ _ ∧ _ ∧ _))

theorem digitBeforePoint_scaled_iff (random : Random) (factor : ℤ) :
    Bc.DigitBeforePoint scale (scaled random factor) ↔
      (random : ℤ) * 100000000 / 32768 * factor = 0 ∨
        100000000 ≤ ((random : ℤ) * 100000000 / 32768 * factor).natAbs := by
  have hscale : 10 ^ scale = 100000000 := by norm_num
  rw [Bc.DigitBeforePoint, scaled_eq, ten_pow_scale, hscale]

theorem digitBeforePoint_temp_iff (draws : Draws) :
    Bc.DigitBeforePoint scale draws.tempResult ↔
      draws.temp.val < 16057 ∨ 16711 < draws.temp.val ∨ draws.temp.val = 16384 := by
  have hlt := draws.temp.isLt
  have hscale : 10 ^ scale = 100000000 := by norm_num
  rw [Bc.DigitBeforePoint, Draws.tempResult, Bc.ofInt, scaled_eq, ten_pow_scale, hscale]
  omega

theorem digitsBeforePoints_iff (draws : Draws) :
    DigitsBeforePoints draws ↔ AvoidsFractions draws := by
  have hhum := draws.hum.isLt
  have hwindDir := draws.windDir.isLt
  have hwind := draws.wind.isLt
  have hrain := draws.rain.isLt
  unfold DigitsBeforePoints AvoidsFractions Draws.humResult Draws.windDirResult Draws.windResult
    Draws.rainResult
  simp only [digitBeforePoint_temp_iff, digitBeforePoint_scaled_iff]
  refine and_congr_right fun _ => and_congr ?_ (and_congr ?_ (and_congr ?_ ?_))
  all_goals omega

/-! ## The main statement -/

/-- The message of a round is the document of its readings, which are in range. -/
def WellFormed (draws : Draws) : Prop :=
  parse draws.message = some (readingsUpdate draws) ∧ InRange draws

/-- **When the message is JSON.**  The message of a round is the document of its
five readings, all in their ranges, if and only if none of the draws is mapped to a
number between -1 and 1 other than 0. -/
theorem message_wellFormed_iff (draws : Draws) : WellFormed draws ↔ AvoidsFractions draws := by
  rw [← digitsBeforePoints_iff, WellFormed, parse_message]
  constructor
  · intro hboth
    by_contra hnot
    simp [hnot] at hboth
  · intro hdigits
    exact ⟨if_pos hdigits, inRange_readings draws⟩

/-- A round that draws 1 for the humidity, so that bc prints `.00305100`. -/
def dryRound : Draws := ⟨0, 1, 0, 0, 0⟩

/-- A humidity below 1 makes no document. -/
theorem exists_not_wellFormed : ¬ ∀ draws, WellFormed draws := by
  intro hclaim
  have hparse := (hclaim dryRound).1
  have hdigits : ¬ DigitsBeforePoints dryRound := by
    rw [digitsBeforePoints_iff]
    decide
  rw [parse_message, if_neg hdigits] at hparse
  exact absurd hparse (by simp)

/-! ## The loop -/

/-- The message of a call of `mosquitto_pub`. -/
def Effect.published : Effect → Option (List Char)
  | .publish _ _ _ message _ => some message
  | _ => none

/-- The script publishes the message of every round, in order, if it has a host. -/
theorem published_mqttRandomPub (awsHost : String) (rounds : List Draws) :
    (mqttRandomPub awsHost rounds).filterMap Effect.published =
      if awsHost = "" then [] else rounds.map Draws.message := by
  induction rounds with
  | nil => simp [mqttRandomPub]
  | cons draws rest ih =>
      by_cases hhost : awsHost = ""
      · simp [mqttRandomPub, hhost, Effect.published]
      · rw [if_neg hhost] at ih ⊢
        rw [mqttRandomPub, if_neg hhost, List.map_cons, ← ih]
        rfl

end AwsIotSensors.Mosquitto
