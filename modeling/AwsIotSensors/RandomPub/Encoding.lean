import AwsIotSensors.RandomPub.Readings
import AwsIotSensors.Shadow

/-!
# The payload as a JSON document

`sprintf` writes the two readings into `measures`, a buffer of 200 `char`s, and
the result is sent as the shadow update of the sensor.  `measures_lossless` is
about every pair of `int`s: the text fits with its terminator, it is a JSON
document, and it gives both readings back.
-/

namespace AwsIotSensors.RandomPub

open Json

/-- The size of `measures`. -/
abbrev measuresSize : ℕ := 200

/-- The document with the two readings. -/
def readingsUpdate (temperature humidity : ℤ) : Value :=
  Shadow.update [("temperature", .number temperature), ("humidity", .number humidity)]

theorem reads_measures (temperature humidity : ℤ) :
    Reads 4 (measures temperature humidity) (some (readingsUpdate temperature humidity)) := by
  have hblank : Blanks [' '] := by decide
  have hnone : Blanks [] := by decide
  have hhumidity := readsMembers_last hblank (by decide : PlainName "humidity".toList) hblank
    ((reads_int humidity).blanks hblank) hnone
  have hboth := readsMembers_cons hnone (by decide : PlainName "temperature".toList) hblank
    ((reads_int temperature).blanks hblank) hnone hhumidity
  have hupdate := Shadow.reads_update hboth hnone hnone hblank hblank hblank hblank hnone hnone
  rw [measures_eq]
  simp only [memberText, List.append_assoc, List.cons_append, List.nil_append] at hupdate
  simpa [readingsUpdate] using hupdate

/-- The payload is a document that holds both readings. -/
theorem parse_measures (temperature humidity : ℤ) :
    parse (measures temperature humidity) = some (readingsUpdate temperature humidity) :=
  parse_of_reads (reads_measures temperature humidity)

theorem length_toDigits_le {n : ℕ} (hn : n < 10 ^ 10) : (Nat.toDigits 10 n).length ≤ 10 :=
  (Nat.length_toDigits_le_iff (by decide) (by decide)).mpr hn

/-- An `int` is printed with at most ten digits and a sign. -/
theorem length_repr_toInt_le (word : Word) : word.toInt.repr.toList.length ≤ 11 := by
  have hlow := BitVec.le_toInt word
  have hhigh := BitVec.toInt_lt (x := word)
  cases hvalue : word.toInt with
  | ofNat n =>
      rw [hvalue, Int.ofNat_eq_natCast] at hhigh
      have hdigits := length_toDigits_le (n := n) (by omega)
      rw [Int.repr, Nat.toList_repr]
      omega
  | negSucc n =>
      rw [hvalue, Int.negSucc_eq] at hlow
      have hdigits := length_toDigits_le (n := n + 1) (by omega)
      have hsign : "-".toList.length = 1 := by decide
      rw [Int.repr, String.toList_append, List.length_append, Nat.toList_repr, hsign,
        Nat.succ_eq_add_one]
      omega

theorem length_measures (temperature humidity : ℤ) :
    (measures temperature humidity).length =
      59 + temperature.repr.toList.length + humidity.repr.toList.length := by
  have hbefore : "\x7b\"state\" : \x7b\"desired\" : \x7b\"temperature\" : ".toList.length = 41 := by
    decide
  have hbetween : " \"humidity\" : ".toList.length = 14 := by decide
  have hafter : "\x7d\x7d".toList.length = 2 := by decide
  rw [measures_eq]
  simp only [List.length_append, List.length_cons, hbefore, hbetween, hafter]
  omega

/-- The text and its terminator fit into `measures`. -/
theorem length_measures_lt (temperature humidity : Word) :
    (measures temperature.toInt humidity.toInt).length < measuresSize := by
  have htemperature := length_repr_toInt_le temperature
  have hhumidity := length_repr_toInt_le humidity
  rw [length_measures, measuresSize]
  omega

/-- **The encoder is lossless.**  For any two `int`s, what `sprintf` writes into
`measures` fits with its terminator, is a JSON document that holds both as its
temperature and humidity, and is written for no other two. -/
theorem measures_lossless (temperature humidity : Word) :
    (measures temperature.toInt humidity.toInt).length ≤ measuresSize - 1 ∧
    parse (measures temperature.toInt humidity.toInt) =
      some (readingsUpdate temperature.toInt humidity.toInt) ∧
    ∀ temperature' humidity' : Word,
      measures temperature'.toInt humidity'.toInt = measures temperature.toInt humidity.toInt →
        temperature' = temperature ∧ humidity' = humidity := by
  refine ⟨Nat.le_sub_one_of_lt (length_measures_lt temperature humidity), parse_measures _ _, ?_⟩
  intro temperature' humidity' heq
  obtain ⟨htemperature, hhumidity⟩ := measures_inj heq
  exact ⟨BitVec.eq_of_toInt_eq htemperature, BitVec.eq_of_toInt_eq hhumidity⟩

end AwsIotSensors.RandomPub
