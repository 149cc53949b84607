import AwsIotSensors.Lib.Exceptions
import AwsIotSensors.Lib.PlainText
import AwsIotSensors.Lib.SortKey

/-!
# The stored measurements and how the server retrieves them

The class `DB` of `app.py`.  The table holds, for each sensor, items with the
text of a timestamp in milliseconds and a message; `query` returns the newest 20
of them, newest first, which is all that DynamoDB can answer for
`ScanIndexForward=False, Limit=20` (`newest_iff_eq_query`).
`datetime.fromtimestamp` is a parameter, since it depends on the time zone of
the server.

Dropping the last three digits of a timestamp divides it by 1000 (`int_timestamp`).
For items that are measurements (`Measurement`) nothing is raised then:
`retrieveValues_eq` and `retrieveValueOf_eq` say what is retrieved.
-/

namespace AwsIotSensors.Dashboard

open Exceptions PlainText

/-- A text, as the list of its `char`s. -/
abbrev Text := List Char

/-- A number, a string, a boolean or null in a message, as boto3 returns it; lists, maps,
sets and binary values are left to `PyValue`.  A `Decimal` is given by its `str`. -/
inductive Value
  | decimal (text : Text)
  | string (text : Text)
  | bool (value : Bool)
  | null
deriving DecidableEq

/-- A message: the values of the keys that it has. -/
abbrev Message := Text → Option Value

/-- An item of the table `Measurements`, without its partition key `sensor`. -/
structure Item where
  timestamp : Text
  message : Message

/-- The table: the items of each sensor in the order of their sort keys, newest first. -/
abbrev Database := Text → List Item

/-- The exceptions the server can raise here; the last two by `fromtimestamp` only. -/
inductive PyError
  | keyError
  | indexError
  | valueError
  | overflowError
  | osError
deriving DecidableEq

/-- The key that `retrieve_values` overwrites. -/
def timestampKey : Text := "timestamp".toList

/-- The time of day, to the minute. -/
structure HourMinute where
  hour : Fin 24
  minute : Fin 60
deriving DecidableEq

/-- `%H` and `%M`. -/
def twoDigits (number : ℕ) : Text :=
  [Nat.digitChar (number / 10), Nat.digitChar (number % 10)]

/-- `strftime('%H:%M')`. -/
def HourMinute.strftime (time : HourMinute) : Text :=
  twoDigits time.hour ++ ':' :: twoDigits time.minute

/-- The number that digits after at most one sign denote. -/
def readInt : Text → Option ℤ
  | '-' :: digits => (readNat digits).map fun value : ℕ => -(value : ℤ)
  | '+' :: digits => (readNat digits).map fun value : ℕ => (value : ℤ)
  | digits => (readNat digits).map fun value : ℕ => (value : ℤ)

/-- `int(text)`, for numbers in ASCII digits. -/
def int (text : Text) : Except PyError ℤ :=
  match readInt (trim text) with
  | some value => .ok value
  | none => .error .valueError

/-- `table.query` for one sensor, with `ScanIndexForward=False` and `Limit=20`. -/
def query (database : Database) (sensor : Text) : List Item :=
  (database sensor).take 20

/-- What is documented of a query in descending order with a limit leaves no other answer
than `query`: items under the partition key, by descending sort key, at most 20 of them,
and none left out that is greater or that there was room for. -/
theorem newest_iff_eq_query {database : Database} {sensor : Text} {answer : List Item}
    (htable : SortKey.Descending Item.timestamp (database sensor)) :
    SortKey.Newest Item.timestamp 20 (database sensor) answer ↔ answer = query database sensor :=
  SortKey.newest_iff_eq_take htable

variable (fromtimestamp : ℤ → Except PyError HourMinute)

/-- The message of an item with its timestamp made readable. -/
def stamp (item : Item) : Except PyError Message := do
  let seconds ← int (item.timestamp.take (item.timestamp.length - 3))
  let time ← fromtimestamp seconds
  return Function.update item.message timestampKey (some (.string time.strftime))

/-- `DB.retrieve_values(sensor)`. -/
def retrieveValues (database : Database) (sensor : Text) : Except PyError (List Message) :=
  (query database sensor).mapM (stamp fromtimestamp)

/-- `message[metric]`. -/
def valueOf (metric : Text) (message : Message) : Except PyError Value :=
  match message metric with
  | some value => .ok value
  | none => .error .keyError

/-- `DB.retrieve_values(sensor, metric)`. -/
def retrieveValuesOf (database : Database) (sensor metric : Text) :
    Except PyError (List Value) :=
  (query database sensor).mapM fun item => do valueOf metric (← stamp fromtimestamp item)

/-- `items[0]`. -/
def firstItem {α : Type} : List α → Except PyError α
  | [] => .error .indexError
  | item :: _ => .ok item

/-- `DB.retrieve_value(sensor)`. -/
def retrieveValue (database : Database) (sensor : Text) : Except PyError Message := do
  firstItem (← retrieveValues fromtimestamp database sensor)

/-- `DB.retrieve_value(sensor, metric)`. -/
def retrieveValueOf (database : Database) (sensor metric : Text) : Except PyError Value := do
  firstItem (← retrieveValuesOf fromtimestamp database sensor metric)

/-! ## The readable time -/

/-- The number that two digits stand for. -/
def ofTwoDigits : Text → ℕ
  | [tens, ones] => 10 * (tens.toNat - 48) + (ones.toNat - 48)
  | _ => 0

theorem ofTwoDigits_twoDigits {number : ℕ} (hlt : number < 100) :
    ofTwoDigits (twoDigits number) = number := by
  rw [twoDigits, ofTwoDigits, Nat.toNat_digitChar_sub_48_of_lt_ten (by omega),
    Nat.toNat_digitChar_sub_48_of_lt_ten (by omega)]
  omega

/-- The readable time determines hour and minute. -/
theorem strftime_injective : Function.Injective HourMinute.strftime := by
  intro first second heq
  obtain ⟨hour, minute⟩ := first
  obtain ⟨hour', minute'⟩ := second
  have hhour : twoDigits hour = twoDigits hour' := congrArg (List.take 2) heq
  have hminute : twoDigits minute = twoDigits minute' := congrArg (List.drop 3) heq
  have hsame : hour = hour' := by
    apply Fin.ext
    rw [← ofTwoDigits_twoDigits (show (hour : ℕ) < 100 by omega), hhour,
      ofTwoDigits_twoDigits (by omega)]
  have hsame' : minute = minute' := by
    apply Fin.ext
    rw [← ofTwoDigits_twoDigits (show (minute : ℕ) < 100 by omega), hminute,
      ofTwoDigits_twoDigits (by omega)]
  rw [hsame, hsame']

theorem isDigit_of_mem_twoDigits {char : Char} {number : ℕ} (hlt : number < 100)
    (hmem : char ∈ twoDigits number) : char.isDigit := by
  rcases List.mem_cons.mp hmem with rfl | hrest
  · rw [Nat.isDigit_digitChar, decide_eq_true_eq]
    omega
  · obtain rfl := List.mem_singleton.mp hrest
    rw [Nat.isDigit_digitChar, decide_eq_true_eq]
    omega

/-- The readable time consists of digits and a colon. -/
theorem isDigit_of_mem_strftime {char : Char} {time : HourMinute} (hmem : char ∈ time.strftime) :
    char.isDigit ∨ char = ':' := by
  rcases List.mem_append.mp hmem with hhour | hrest
  · exact Or.inl (isDigit_of_mem_twoDigits (by omega) hhour)
  · rcases List.mem_cons.mp hrest with hcolon | hminute
    · exact Or.inr hcolon
    · exact Or.inl (isDigit_of_mem_twoDigits (by omega) hminute)

/-! ## Measurements -/

/-- A measurement: its time in milliseconds, which has at least four digits, and
the message that was sent. -/
structure Measurement where
  ms : ℕ
  message : Message
  four_digits : 1000 ≤ ms

/-- The item that is stored for a measurement. -/
def Measurement.item (measurement : Measurement) : Item :=
  ⟨measurement.ms.repr.toList, measurement.message⟩

variable (clock : ℤ → HourMinute)

/-- The minute in which a measurement was made, by the clock of the server. -/
def Measurement.time (measurement : Measurement) : HourMinute :=
  clock (measurement.ms / 1000)

/-- The message of a measurement with its readable timestamp. -/
def Measurement.shown (measurement : Measurement) : Message :=
  Function.update measurement.message timestampKey
    (some (.string (measurement.time clock).strftime))

theorem shown_timestamp (measurement : Measurement) :
    measurement.shown clock timestampKey = some (.string (measurement.time clock).strftime) :=
  Function.update_self ..

theorem shown_of_ne {key : Text} (hkey : key ≠ timestampKey) (measurement : Measurement) :
    measurement.shown clock key = measurement.message key :=
  Function.update_of_ne hkey _ _

/-! ## Stamping an item -/

/-- A message has its timestamp and the metrics that it had before. -/
theorem isSome_update_timestamp (message : Message) (value : Value) (metric : Text) :
    (Function.update message timestampKey (some value) metric).isSome ↔
      metric = timestampKey ∨ (message metric).isSome := by
  by_cases hkey : metric = timestampKey
  · rw [hkey, Function.update_self]
    simp
  · rw [Function.update_of_ne hkey]
    simp [hkey]

/-- `int` reads a text of digits. -/
theorem int_of_readNat {text : Text} {value : ℕ} (hread : readNat text = some value) :
    int text = .ok (value : ℤ) := by
  have hdigits : ∀ char ∈ text, char.isDigit := by
    unfold readNat at hread
    split at hread
    · next hboth => exact List.all_eq_true.mp hboth.2
    · cases hread
  have hblank : ∀ char ∈ text, ¬ isBlank char := by
    intro char hmem hblank
    have hdigit := hdigits char hmem
    simp only [isBlank, List.contains_eq_mem, decide_eq_true_eq] at hblank
    fin_cases hblank <;> simp at hdigit
  -- a digit is no sign
  have hsign {char : Char} {digits : Text} (hdigit : ¬ char.isDigit) : text ≠ char :: digits := by
    intro heq
    exact hdigit (hdigits char (heq ▸ List.mem_cons_self ..))
  have hvalue : readInt text = some (value : ℤ) := by
    unfold readInt
    split
    · exact absurd rfl (hsign (by decide))
    · exact absurd rfl (hsign (by decide))
    · rw [hread, Option.map_some]
  rw [int, trim_of_notBlank hblank, hvalue]

/-- The timestamp is a number of milliseconds of at least four digits. -/
def Item.Timed (item : Item) : Prop :=
  4 ≤ item.timestamp.length ∧ item.timestamp.all Char.isDigit

instance (item : Item) : Decidable item.Timed :=
  inferInstanceAs (Decidable (_ ∧ _))

/-- The timestamp of an item in whole seconds. -/
def Item.seconds (item : Item) : ℕ :=
  Nat.ofDigitChars 10 item.timestamp 0 / 1000

/-- Dropping three digits of a timestamp gives its seconds. -/
theorem int_timestamp {item : Item} (htimed : item.Timed) :
    int (item.timestamp.take (item.timestamp.length - 3)) = .ok (item.seconds : ℤ) := by
  obtain ⟨hlength, hdigits⟩ := htimed
  have hne : item.timestamp ≠ [] := List.ne_nil_of_length_pos (by omega)
  have hread : readNat item.timestamp = some (Nat.ofDigitChars 10 item.timestamp 0) :=
    if_pos ⟨hne, hdigits⟩
  exact int_of_readNat (readNat_take hread (by omega))

/-- What is made of an item with a timestamp. -/
theorem stamp_of_timed (fromtimestamp : ℤ → Except PyError HourMinute) {item : Item}
    (htimed : item.Timed) :
    stamp fromtimestamp item = do
      let time ← fromtimestamp item.seconds
      return Function.update item.message timestampKey (some (.string time.strftime)) := by
  rw [stamp, int_timestamp htimed]
  rfl

theorem timed_item (measurement : Measurement) : measurement.item.Timed := by
  refine ⟨?_, List.all_eq_true.mpr fun char hmem => isDigit_of_mem_natRepr hmem⟩
  have hlong : ¬ (Nat.toDigits 10 measurement.ms).length ≤ 3 := by
    rw [Nat.length_toDigits_le_iff (by decide) (by decide)]
    exact not_lt.mpr measurement.four_digits
  have hlength : measurement.item.timestamp.length = (Nat.toDigits 10 measurement.ms).length := by
    rw [Measurement.item, Nat.toList_repr]
  omega

theorem seconds_item (measurement : Measurement) :
    measurement.item.seconds = measurement.ms / 1000 := by
  rw [Item.seconds, Measurement.item, Nat.toList_repr, Nat.ofDigitChars_ten_toDigits]

/-- The timestamp of a measurement is read in seconds, rounded down. -/
theorem stamp_item (measurement : Measurement) :
    stamp (fun seconds => .ok (clock seconds)) measurement.item =
      .ok (measurement.shown clock) := by
  rw [stamp_of_timed _ (timed_item measurement), seconds_item]
  rfl

/-! ## What is retrieved -/

variable {database : Database} {sensor : Text} {history results : List Measurement}

theorem query_eq (hhistory : database sensor = history.map Measurement.item) :
    query database sensor = (history.take 20).map Measurement.item := by
  rw [query, hhistory, List.map_take]

/-- What is retrieved of a response of measurements. -/
theorem retrieveValues_of_query
    (hresults : query database sensor = results.map Measurement.item) :
    retrieveValues (fun seconds => .ok (clock seconds)) database sensor =
      .ok (results.map (Measurement.shown clock)) := by
  rw [retrieveValues, hresults, List.mapM_map]
  exact mapM_eq_ok fun measurement _ => stamp_item clock measurement

/-- What is retrieved of a metric that no message of the response lacks. -/
theorem retrieveValuesOf_of_query
    (hresults : query database sensor = results.map Measurement.item) {metric : Text}
    (hmetric : ∀ measurement ∈ results, (measurement.shown clock metric).isSome) :
    retrieveValuesOf (fun seconds => .ok (clock seconds)) database sensor metric =
      .ok (results.map fun measurement => (measurement.shown clock metric).getD .null) := by
  rw [retrieveValuesOf, hresults, List.mapM_map]
  apply mapM_eq_ok
  intro measurement hmem
  obtain ⟨value, hvalue⟩ := Option.isSome_iff_exists.mp (hmetric measurement hmem)
  calc (stamp (fun seconds => .ok (clock seconds)) measurement.item).bind (valueOf metric)
      = valueOf metric (measurement.shown clock) := by
        rw [stamp_item]
        rfl
    _ = .ok ((measurement.shown clock metric).getD .null) := by
        rw [valueOf, hvalue]
        rfl

/-- What is retrieved of a history of measurements: the newest 20, newest first. -/
theorem retrieveValues_eq (hhistory : database sensor = history.map Measurement.item) :
    retrieveValues (fun seconds => .ok (clock seconds)) database sensor =
      .ok ((history.take 20).map (Measurement.shown clock)) :=
  retrieveValues_of_query clock (query_eq hhistory)

/-- What is retrieved as the last message. -/
theorem retrieveValue_eq {newest : Measurement} {older : List Measurement}
    (hhistory : database sensor = (newest :: older).map Measurement.item) :
    retrieveValue (fun seconds => .ok (clock seconds)) database sensor =
      .ok (newest.shown clock) := by
  rw [retrieveValue, retrieveValues_eq clock hhistory]
  rfl

/-- What is retrieved as the last value of a metric that no message lacks. -/
theorem retrieveValueOf_eq {newest : Measurement} {older : List Measurement} {metric : Text}
    (hhistory : database sensor = (newest :: older).map Measurement.item)
    (hmetric : ∀ measurement ∈ newest :: older, (measurement.shown clock metric).isSome) :
    ∃ value, newest.shown clock metric = some value ∧
      retrieveValueOf (fun seconds => .ok (clock seconds)) database sensor metric = .ok value := by
  have hvalues := retrieveValuesOf_of_query clock (query_eq hhistory)
    fun measurement hmem => hmetric measurement (List.mem_of_mem_take hmem)
  obtain ⟨value, hvalue⟩ := Option.isSome_iff_exists.mp (hmetric newest (List.mem_cons_self ..))
  refine ⟨value, hvalue, ?_⟩
  rw [retrieveValueOf, hvalues]
  simp [firstItem, hvalue, bind, Except.bind]

end AwsIotSensors.Dashboard
