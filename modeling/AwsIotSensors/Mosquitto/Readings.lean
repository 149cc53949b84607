import AwsIotSensors.Mosquitto.RandomPub

/-!
# The readings and the draws

`$RANDOM/32768*factor` is computed with eight decimals, and the quotient is cut off
before it is multiplied.  `readings_accurate` says how far a reading is from the value
that the script means: less than the factor in the eighth decimal, and never above it.

The decimals are enough to tell the 32768 draws apart, and the output of bc to tell the
readings apart.  So each message determines the five draws of its round, also the
messages that are no documents (`message_injective`), and the messages of a run
determine the run (`published_injective`).
-/

namespace AwsIotSensors.Mosquitto

open PlainText

/-! ## Accuracy -/

/-- The reading is the value, or less than `factor` units of the last decimal below it. -/
def Accurate (factor : ℕ) (reading value : ℚ) : Prop :=
  value - factor / 10 ^ scale < reading ∧ reading ≤ value

/-- The value that `$RANDOM/32768*factor` means. -/
def meant (random : Random) (factor : ℕ) : ℚ := random / 32768 * factor

theorem scaled_accurate (random : Random) {factor : ℕ} (hfactor : 0 < factor) :
    Accurate factor (Bc.toRat scale (scaled random factor)) (meant random factor) := by
  have hscale : (0 : ℚ) < 10 ^ scale := by positivity
  have hpos : (0 : ℚ) < factor := by exact_mod_cast hfactor
  -- the quotient is the floor
  have hlow : (random : ℤ) * 10 ^ scale / 32768 * 32768 ≤ (random : ℤ) * 10 ^ scale :=
    Int.ediv_mul_le _ (by decide)
  have hhigh : (random : ℤ) * 10 ^ scale < ((random : ℤ) * 10 ^ scale / 32768 + 1) * 32768 :=
    Int.lt_ediv_add_one_mul_self _ (by decide)
  have hreading : Bc.toRat scale (scaled random factor) =
      ((random : ℤ) * 10 ^ scale / 32768 : ℤ) / 10 ^ scale * factor := by
    rw [scaled_eq, Bc.toRat, Int.cast_mul, Int.cast_natCast, mul_div_right_comm]
  generalize (random : ℤ) * 10 ^ scale / 32768 = quotient at hlow hhigh hreading
  have hbelow : (quotient : ℚ) / 10 ^ scale ≤ random / 32768 := by
    rw [div_le_div_iff₀ hscale (by norm_num)]
    exact_mod_cast hlow
  have habove : (random : ℚ) / 32768 < (quotient + 1) / 10 ^ scale := by
    rw [div_lt_div_iff₀ (by norm_num) hscale]
    exact_mod_cast hhigh
  rw [Accurate, hreading, meant]
  refine ⟨?_, mul_le_mul_of_nonneg_right hbelow hpos.le⟩
  have hupper := mul_lt_mul_of_pos_right habove hpos
  rw [add_div, add_mul, one_div_mul_eq_div] at hupper
  linarith

/-- **The accuracy of the readings.**  Whatever is drawn, each of the five readings is
the value that the script means, cut off in the eighth decimal of the quotient. -/
theorem readings_accurate (draws : Draws) :
    Accurate 100 (Bc.toRat scale draws.tempResult) (meant draws.temp 100 - 50) ∧
      Accurate 100 (Bc.toRat scale draws.humResult) (meant draws.hum 100) ∧
      Accurate 360 (Bc.toRat scale draws.windDirResult) (meant draws.windDir 360) ∧
      Accurate 100 (Bc.toRat scale draws.windResult) (meant draws.wind 100) ∧
      Accurate 50 (Bc.toRat scale draws.rainResult) (meant draws.rain 50) := by
  have htemp : Accurate 100 (Bc.toRat scale draws.tempResult) (meant draws.temp 100 - 50) := by
    obtain ⟨hlow, hhigh⟩ := scaled_accurate draws.temp (show 0 < 100 by decide)
    have hshift : Bc.toRat scale draws.tempResult =
        Bc.toRat scale (scaled draws.temp (100 : ℕ)) - 50 := by
      rw [Draws.tempResult, Bc.toRat, Bc.ofInt, Int.cast_sub, sub_div, Int.cast_mul, Int.cast_pow]
      congr 1
      norm_num [scale]
    rw [Accurate, hshift]
    constructor
    · linarith
    · linarith
  exact ⟨htemp, scaled_accurate draws.hum (by decide), scaled_accurate draws.windDir (by decide),
    scaled_accurate draws.wind (by decide), scaled_accurate draws.rain (by decide)⟩

/-! ## The messages -/

/-- The decimals tell the draws apart. -/
theorem scaled_injective {factor : ℤ} (hfactor : factor ≠ 0) :
    Function.Injective fun random => scaled random factor := by
  intro first second heq
  dsimp only at heq
  rw [scaled_eq, scaled_eq, ten_pow_scale] at heq
  have hquotient := mul_right_cancel₀ hfactor heq
  have hvalue : first.val = second.val := by omega
  exact Fin.ext hvalue

/-- A text that begins with a character that bc does not print. -/
def Ends (mark : List Char) : Prop :=
  mark.head?.any (fun char => !char.isDigit && char != '-' && char != '.') = true

instance (mark : List Char) : Decidable (Ends mark) :=
  inferInstanceAs (Decidable (_ = true))

/-- A result is read off a message up to the mark after it. -/
theorem text_append_inj {first second : ℤ} {mark rest rest' : List Char} (hmark : Ends mark)
    (heq : Bc.text scale first ++ (mark ++ rest) = Bc.text scale second ++ (mark ++ rest')) :
    first = second ∧ rest = rest' := by
  cases mark with
  | nil => cases hmark
  | cons char marks =>
      simp only [Ends, List.head?_cons, Option.any_some, Bool.and_eq_true, Bool.not_eq_true',
        bne_iff_ne] at hmark
      obtain ⟨⟨hdigit, hsign⟩, hpoint⟩ := hmark
      have hnot : ¬ char.isDigit := by rw [hdigit]; decide
      obtain ⟨htext, hrest⟩ := append_cons_inj (Bc.notMem_text hnot hsign hpoint first)
        (Bc.notMem_text hnot hsign hpoint second) heq
      exact ⟨Bc.text_injective htext, List.append_cancel_left hrest⟩

/-- The five results are read off a message. -/
theorem message_inj {temp hum windDir wind rain temp' hum' windDir' wind' rain' : ℤ}
    (heq : message (Bc.text scale temp) (Bc.text scale hum) (Bc.text scale windDir)
        (Bc.text scale wind) (Bc.text scale rain) =
      message (Bc.text scale temp') (Bc.text scale hum') (Bc.text scale windDir')
        (Bc.text scale wind') (Bc.text scale rain')) :
    temp = temp' ∧ hum = hum' ∧ windDir = windDir' ∧ wind = wind' ∧ rain = rain' := by
  unfold message at heq
  have hstart := List.append_cancel_left heq
  obtain ⟨htemp, hafterTemp⟩ := text_append_inj (by decide) hstart
  obtain ⟨hhum, hafterHum⟩ := text_append_inj (by decide) hafterTemp
  obtain ⟨hwindDir, hafterWindDir⟩ := text_append_inj (by decide) hafterHum
  obtain ⟨hwind, hafterWind⟩ := text_append_inj (by decide) hafterWindDir
  -- the last result is followed by the end of the message
  have hend : Ends "\x7d \x7d\x7d".toList := by decide
  rw [← List.append_nil "\x7d \x7d\x7d".toList] at hafterWind
  obtain ⟨hrain, -⟩ := text_append_inj hend hafterWind
  exact ⟨htemp, hhum, hwindDir, hwind, hrain⟩

/-- The draws are read off the five results. -/
theorem draws_of_message {first second : Draws} (heq : first.message = second.message) :
    first = second := by
  obtain ⟨htemp, hhum, hwindDir, hwind, hrain⟩ := message_inj heq
  have htempDraw : first.temp = second.temp :=
    scaled_injective (by decide) (sub_left_injective htemp)
  have hhumDraw : first.hum = second.hum := scaled_injective (by decide) hhum
  have hwindDirDraw : first.windDir = second.windDir := scaled_injective (by decide) hwindDir
  have hwindDraw : first.wind = second.wind := scaled_injective (by decide) hwind
  have hrainDraw : first.rain = second.rain := scaled_injective (by decide) hrain
  cases first
  cases second
  rw [Draws.mk.injEq]
  exact ⟨htempDraw, hhumDraw, hwindDirDraw, hwindDraw, hrainDraw⟩

/-- **A message determines the draws of its round**, whether it is a document or not. -/
theorem message_injective : Function.Injective Draws.message :=
  fun _ _ heq => draws_of_message heq

/-- **What is published determines what was drawn.**  Two runs of the script with a host
that hand the same messages to `mosquitto_pub`, in the same order, went through the same
number of rounds and drew the same values in each. -/
theorem published_injective {awsHost : String} (hhost : awsHost ≠ "") :
    Function.Injective fun rounds =>
      (mqttRandomPub awsHost rounds).filterMap Effect.published := by
  intro first second heq
  simp only [published_mqttRandomPub, if_neg hhost] at heq
  exact List.map_injective_iff.mpr (fun _ _ hmessage => draws_of_message hmessage) heq

theorem published_injective_localhost :
    Function.Injective fun rounds =>
      (mqttRandomPub "localhost" rounds).filterMap Effect.published :=
  published_injective (by decide)

end AwsIotSensors.Mosquitto
