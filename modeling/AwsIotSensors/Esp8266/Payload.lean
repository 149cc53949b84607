import AwsIotSensors.Esp8266.Loop
import AwsIotSensors.Shadow

/-!
# The payloads of the air sensor

`get_measurements` notices a failed read and prints a line about it, but returns
the NaN all the same, and `loop` and `sendmqttMsg` put it into a payload and send
it.  `parse_payload` says what the payload of any two readings is as a JSON
document: the shadow update of the two numbers, and no document at all if one of
the reads has failed.

`publishesReadings_iff` is about a whole run: every execution publishes nothing or
the document of its two readings, if and only if no execution that gets as far as
`client.publish` has had a failed read.
-/

namespace AwsIotSensors.Esp8266

open Json Runs

/-! ## The payload as a document -/

/-- The number that the text of a reading denotes. -/
def Reading.denoted : Reading → Option ℚ
  | .number negative hundredths => some ((if negative then -1 else 1) * (hundredths / 10 ^ 2))
  | .nan => none

/-- The document with the two readings. -/
def readingsUpdate (temperature humidity : ℚ) : Value :=
  Shadow.update [("temperature", .number temperature), ("humidity", .number humidity)]

theorem toList_repr_of_lt {digit : ℕ} (hdigit : digit < 10) :
    digit.repr.toList = [Nat.digitChar digit] := by
  rw [Nat.toList_repr, Nat.toDigits_of_lt_base hdigit]

theorem toList_text_number (negative : Bool) (hundredths : ℕ) :
    (Reading.number negative hundredths).text.toList =
      (if negative then ['-'] else []) ++
        (Nat.toDigits 10 (hundredths / 10 ^ 2) ++ '.' :: padded 2 hundredths) := by
  have htens := toList_repr_of_lt (Nat.mod_lt (hundredths / 10) (by decide : 10 > 0))
  have hones := toList_repr_of_lt (Nat.mod_lt hundredths (by decide : 10 > 0))
  cases negative <;>
    simp [Reading.text, String.toList_append, htens, hones, padded]

/-- A failed read has no number in its text. -/
theorem reads_nan : Reads 1 "nan".toList none := by
  intro more rest hmore _
  obtain ⟨more, rfl⟩ : ∃ less, more = less + 1 := ⟨more - 1, by omega⟩
  have htext : "nan".toList ++ rest = 'n' :: 'a' :: 'n' :: rest := rfl
  have hliteral : literal ('n' :: 'a' :: 'n' :: rest) = none := by simp [literal]
  have hnumber : number ('n' :: 'a' :: 'n' :: rest) = none := by
    simp [number, unsigned, integer, digits]
  rw [htext, value_of_head (by decide) (by decide) (by decide) (by decide), hliteral, hnumber]
  rfl

/-- The text of a reading is read as the number it denotes, if it denotes one. -/
theorem reads_text (reading : Reading) :
    Reads 1 reading.text.toList (reading.denoted.map .number) := by
  cases reading with
  | number negative hundredths =>
      rw [toList_text_number]
      exact reads_fixed negative (by decide) hundredths
  | nan => exact reads_nan

theorem toList_payload (m : Measure) :
    (payload m).toList =
      "\x7b \"state\": \x7b\"desired\":\x7b \"temperature\" : ".toList ++ (m.t.text.toList ++
        (", \"humidity\":".toList ++ (m.h.text.toList ++ "\x7d\x7d\x7d".toList))) := by
  unfold payload
  rw [String.toList_append, String.toList_append, String.toList_append, String.toList_append,
    List.append_assoc, List.append_assoc, List.append_assoc]

/-- The payload of two readings is read as their update, if both denote a number. -/
theorem reads_payload (m : Measure) :
    Reads 4 (payload m).toList (m.t.denoted.bind fun temperature =>
      m.h.denoted.map fun humidity => readingsUpdate temperature humidity) := by
  have hblank : Blanks [' '] := by decide
  have hnone : Blanks [] := by decide
  have hhumidity := readsMembers_last hblank (by decide : PlainName "humidity".toList) hnone
    (reads_text m.h) hnone
  have hboth := readsMembers_cons hblank (by decide : PlainName "temperature".toList) hblank
    ((reads_text m.t).blanks hblank) hnone hhumidity
  have hupdate := Shadow.reads_update hboth hblank hnone hnone hnone hblank hnone hnone hnone
  have hresult : (((m.t.denoted.map Value.number).bind fun read =>
      ((m.h.denoted.map Value.number).map fun read => [(String.ofList "humidity".toList, read)]).map
        fun more => (String.ofList "temperature".toList, read) :: more).map Shadow.update) =
      m.t.denoted.bind fun temperature =>
        m.h.denoted.map fun humidity => readingsUpdate temperature humidity := by
    cases m.t.denoted <;> cases m.h.denoted <;> simp [readingsUpdate]
  rw [hresult] at hupdate
  simp only [memberText, List.append_assoc, List.cons_append, List.nil_append] at hupdate
  rw [toList_payload]
  exact hupdate

/-- **The payload as a document**: the update of the two numbers, or none. -/
theorem parse_payload (m : Measure) :
    parse (payload m).toList = m.t.denoted.bind fun temperature =>
      m.h.denoted.map fun humidity => readingsUpdate temperature humidity :=
  parse_of_reads (reads_payload m)

/-! ## An execution of `loop` -/

theorem denoted_eq_none_iff (reading : Reading) : reading.denoted = none ↔ reading.isNan := by
  cases reading <;> simp [Reading.denoted, Reading.isNan]

/-- Everything `loop` hands to `client.publish` is the document of the numbers that
its two reads have given, and it publishes nothing if one of them has failed. -/
def PublishesReadings (env : Surroundings) (globals : Globals) : Prop :=
  (∀ topic payload, .publish topic payload ∈ (loop env globals).2 →
    ∃ temperature humidity, env.temperature.denoted = some temperature ∧
      env.humidity.denoted = some humidity ∧
      parse payload.toList = some (readingsUpdate temperature humidity)) ∧
  (env.temperature.isNan ∨ env.humidity.isNan →
    ∀ topic payload, .publish topic payload ∉ (loop env globals).2)

/-- If `loop` gets as far as `client.publish`, both reads have succeeded. -/
def ReadsWell (env : Surroundings) : Prop :=
  env.wifiConnected 0 → env.clientConnected 0 → env.clientConnected 1 →
    env.temperature.isNan = false ∧ env.humidity.isNan = false

instance (env : Surroundings) : Decidable (ReadsWell env) :=
  inferInstanceAs (Decidable (_ → _ → _ → _ ∧ _))

theorem publish_notMem_wifiWait (env : Surroundings) (poll left : ℕ) (topic payload : String) :
    .publish topic payload ∉ wifiWait env poll left := by
  induction left generalizing poll with
  | zero => simp [wifiWait]
  | succ left ih =>
      simp only [wifiWait]
      split
      · simp
      · simpa using ih (poll + 1)

theorem publish_notMem_wifiConnect (env : Surroundings) (topic payload : String) :
    .publish topic payload ∉ wifiConnect env := by
  unfold wifiConnect
  split
  · simpa using publish_notMem_wifiWait env 2 150 topic payload
  · simp

theorem publish_notMem_reconnect (env : Surroundings) (clientName topic payload : String) :
    .publish topic payload ∉ (reconnect env clientName).2 := by
  simp only [reconnect]
  split
  · split <;> simp
  · simp

theorem publish_notMem_getMeasurements (env : Surroundings) (topic payload : String) :
    .publish topic payload ∉ (getMeasurements env).2 := by
  simp only [getMeasurements]
  split <;> split <;> simp

theorem publish_mem_sendmqttMsg (env : Surroundings) (topictosend sent topic payload : String) :
    .publish topic payload ∈ sendmqttMsg env topictosend sent ↔
      env.clientConnected 1 ∧ topic = topictosend ∧ payload = sent := by
  unfold sendmqttMsg
  split
  · next hconnected => split <;> simp [hconnected]
  · next hconnected => simp [hconnected]

/-- What `loop` publishes: the payload of the two reads, in an execution that finds
the WiFi and the client up, the client once more before it sends. -/
theorem publish_mem_loop_iff (env : Surroundings) (globals : Globals) (sentTo sent : String) :
    .publish sentTo sent ∈ (loop env globals).2 ↔
      (env.wifiConnected 0 ∧ env.clientConnected 0 ∧ env.clientConnected 1) ∧
        sentTo = topic ∧ sent = payload ⟨env.temperature, env.humidity⟩ := by
  unfold loop
  split
  · next hwifi =>
      split
      · next hclient =>
          -- a reconnect at most
          have hdown : env.clientConnected 0 = false := by simpa using hclient
          have hnone : .publish sentTo sent ∉ (reconnect env globals.clientName).2 :=
            publish_notMem_reconnect env globals.clientName sentTo sent
          simp only [hdown, Bool.false_eq_true, false_and, and_false, iff_false]
          split
          · split <;> exact hnone
          · simp
      · next hclient =>
          have hup : env.clientConnected 0 = true := by simpa using hclient
          simp only [List.mem_append, publish_notMem_getMeasurements, publish_mem_sendmqttMsg,
            List.mem_singleton, reduceCtorEq, or_false, false_or, hwifi, hup, true_and]
          rfl
  · next hwifi => simp [hwifi, publish_notMem_wifiConnect]

/-- **An execution publishes its two readings, or nothing,** if and only if both
reads have succeeded whenever it gets as far as `client.publish`. -/
theorem publishesReadings_iff_readsWell (env : Surroundings) (globals : Globals) :
    PublishesReadings env globals ↔ ReadsWell env := by
  have hnumber : ∀ reading : Reading, reading.isNan = false ↔
      ∃ number, reading.denoted = some number := by
    intro reading
    rw [← Bool.not_eq_true, ← denoted_eq_none_iff, ← ne_eq, Option.ne_none_iff_exists']
  constructor
  · intro hpublishes hwifi hclient hstill
    obtain ⟨temperature, humidity, htemperature, hhumidity, -⟩ := hpublishes.1 topic
      (payload ⟨env.temperature, env.humidity⟩)
      ((publish_mem_loop_iff env globals _ _).mpr ⟨⟨hwifi, hclient, hstill⟩, rfl, rfl⟩)
    exact ⟨(hnumber _).mpr ⟨temperature, htemperature⟩, (hnumber _).mpr ⟨humidity, hhumidity⟩⟩
  · intro hreads
    refine ⟨?_, ?_⟩
    · intro sentTo sent hmem
      obtain ⟨⟨hwifi, hclient, hstill⟩, -, rfl⟩ := (publish_mem_loop_iff env globals _ _).mp hmem
      obtain ⟨htemperature, hhumidity⟩ := hreads hwifi hclient hstill
      obtain ⟨temperature, htemperature⟩ := (hnumber _).mp htemperature
      obtain ⟨humidity, hhumidity⟩ := (hnumber _).mp hhumidity
      refine ⟨temperature, humidity, htemperature, hhumidity, ?_⟩
      rw [parse_payload, htemperature, hhumidity]
      rfl
    · intro hnan sentTo sent hmem
      obtain ⟨⟨hwifi, hclient, hstill⟩, -, -⟩ := (publish_mem_loop_iff env globals _ _).mp hmem
      obtain ⟨htemperature, hhumidity⟩ := hreads hwifi hclient hstill
      simp [htemperature, hhumidity] at hnan

/-! ## Runs -/

/-- **When the sensor publishes well-formed readings only.**  In a run of a board,
every execution of `loop` publishes the document of its two readings or nothing,
and nothing if a read has failed, if and only if no execution that gets as far as
`client.publish` has a failed read. -/
theorem publishesReadings_iff (mac : Fin 6 → UInt8) (micros : ℕ) (envs : List Surroundings) :
    Along (step mac) (fun board env => PublishesReadings env board.globals) (boot mac micros)
      envs ↔ ∀ env ∈ envs, ReadsWell env := by
  constructor
  · intro halong env hmem
    obtain ⟨before, later, rfl⟩ := List.append_of_mem hmem
    exact (publishesReadings_iff_readsWell _ _).mp
      (along_iff_forall_split.mp halong before env later rfl)
  · intro hreads
    rw [along_iff_forall_split]
    rintro before env later rfl
    exact (publishesReadings_iff_readsWell _ _).mpr (hreads env (by simp))

/-- An execution with everything up and a failed read of the humidity. -/
def failedHumidity : Surroundings where
  time := 3000
  wifiConnected := fun _ => true
  clientConnected := fun _ => true
  connectAccepted := true
  clientState := 0
  humidity := .nan
  temperature := .number false 2150
  publishAccepted := true
  micros := 0

/-- A failed read is published. -/
theorem exists_not_publishesReadings :
    ¬ ∀ (mac : Fin 6 → UInt8) (micros : ℕ) (envs : List Surroundings),
      Along (step mac) (fun board env => PublishesReadings env board.globals) (boot mac micros)
        envs := by
  intro hclaim
  obtain ⟨⟨-, hnothing⟩, -⟩ := hclaim (fun _ => 0) 0 [failedHumidity]
  refine hnothing (Or.inr rfl) topic (payload ⟨.number false 2150, .nan⟩) ?_
  rw [publish_mem_loop_iff]
  exact ⟨⟨rfl, rfl, rfl⟩, rfl, rfl⟩

end AwsIotSensors.Esp8266
