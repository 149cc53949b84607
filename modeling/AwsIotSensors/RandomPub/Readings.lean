import AwsIotSensors.Lib.MachineInt
import AwsIotSensors.Lib.PlainText

/-!
# The simulated readings and their payload

`get_temperature` and `get_humidity` are the same function with other bounds:
a random word, read as an `int`, is reduced modulo the number of values and
shifted to the lower bound.  An `int` has 32 bits and the intermediate values
stay far below its limits, so that only the conversion of the word wraps.

Both `random_pub` programs write the two readings into one JSON template.
-/

namespace AwsIotSensors.RandomPub

/-- A word returned by `random_uint32`. -/
abbrev Word := BitVec 32

/-- `((int) word % (upper - lower + 1)) + lower`. -/
def randomBetween (lower upper : ℤ) (word : Word) : ℤ :=
  word.toInt.tmod (upper - lower + 1) + lower

/-- `get_humidity`. -/
def getHumidity : Word → ℤ := randomBetween 0 100

/-- `get_temperature`. -/
def getTemperature : Word → ℤ := randomBetween (-50) 50

/-- `sprintf` for templates whose only conversion is `%d`. -/
def sprintf : List Char → List ℤ → List Char
  | '%' :: 'd' :: rest, value :: values => value.repr.toList ++ sprintf rest values
  | char :: rest, values => char :: sprintf rest values
  | [], _ => []

/-- The string `template` of `cmd_rand_pub`. -/
def template : List Char :=
  "\x7b\"state\" : \x7b\"desired\" : \x7b\"temperature\" : %d, \"humidity\" : %d\x7d\x7d\x7d".toList

/-- What `sprintf` writes into `measures`. -/
def measures (temperature humidity : ℤ) : List Char :=
  sprintf template [temperature, humidity]

/-- The payload of a round that draws the words `first` and `second`: the first
is for the temperature. -/
def payloadOf (first second : Word) : List Char :=
  measures (getTemperature first) (getHumidity second)

example : payloadOf 7 203 =
    "\x7b\"state\" : \x7b\"desired\" : \x7b\"temperature\" : -43, \"humidity\" : 1\x7d\x7d\x7d".toList := by
  decide

/-! ## The payload determines the readings -/

set_option maxRecDepth 2000 in
theorem measures_eq (temperature humidity : ℤ) :
    measures temperature humidity =
      "\x7b\"state\" : \x7b\"desired\" : \x7b\"temperature\" : ".toList ++
        (temperature.repr.toList ++ ',' :: (" \"humidity\" : ".toList ++
          (humidity.repr.toList ++ '\x7d' :: "\x7d\x7d".toList))) := rfl

/-- Different readings have different payloads. -/
theorem measures_inj {temperature humidity temperature' humidity' : ℤ}
    (heq : measures temperature humidity = measures temperature' humidity') :
    temperature = temperature' ∧ humidity = humidity' := by
  rw [measures_eq, measures_eq, List.append_cancel_left_eq] at heq
  obtain ⟨htemperature, hrest⟩ := PlainText.repr_append_inj ',' (by decide) (by decide) heq
  rw [List.append_cancel_left_eq] at hrest
  obtain ⟨hhumidity, -⟩ := PlainText.repr_append_inj '\x7d' (by decide) (by decide) hrest
  exact ⟨htemperature, hhumidity⟩

/-! ## The declared ranges -/

/-- The value is between the bounds. -/
def InRange (lower upper value : ℤ) : Prop :=
  lower ≤ value ∧ value ≤ upper

instance (lower upper value : ℤ) : Decidable (InRange lower upper value) :=
  inferInstanceAs (Decidable (_ ∧ _))

/-- The word, as an `int`, is not negative or is divided by 101 without remainder. -/
def NonnegOrMultiple (word : Word) : Prop :=
  0 ≤ word.toInt ∨ 101 ∣ word.toInt

instance (word : Word) : Decidable (NonnegOrMultiple word) :=
  inferInstanceAs (Decidable (_ ∨ _))

theorem getHumidity_inRange_iff (word : Word) :
    InRange 0 100 (getHumidity word) ↔ NonnegOrMultiple word :=
  MachineInt.inRange_tmod_add_iff word.toInt (by decide)

theorem getTemperature_inRange_iff (word : Word) :
    InRange (-50) 50 (getTemperature word) ↔ NonnegOrMultiple word :=
  MachineInt.inRange_tmod_add_iff word.toInt (by decide)

end AwsIotSensors.RandomPub
