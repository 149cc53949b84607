import AwsIotSensors.Dashboard.Database

/-!
# The loop of `retrieve_values`

`retrieve_values` works on the items of the response in place.  Each pass of its
loop writes the readable timestamp into the message of one item, binds the loop
variable to that message or to its metric, and appends it; a message is appended by
reference.  Here the messages of the response are a memory, and the list that is
returned is read when the loop is over.

Every pass writes to the message of its own item only (`Unvisited`), so that a
message does not change after it was appended.  The loop therefore returns what the
functions `retrieveValues` and `retrieveValuesOf` say, exceptions included
(`retrieveValues_none`, `retrieveValues_some`), and `retrieveValues_preserves` says
what that is for items with the timestamps of measurements.
-/

namespace AwsIotSensors.Dashboard.InPlace

open Exceptions

/-- What is appended: a reference to the message of an item, or a value. -/
inductive Appended (length : ℕ)
  | message (k : Fin length)
  | value (value : Value)

/-- The messages of the response, and the list `items`. -/
structure State (length : ℕ) where
  messages : Fin length → Message
  items : List (Appended length)

/-- What a reader of the list finds. -/
inductive Entry
  | message (message : Message)
  | value (value : Value)

/-- The reader follows the references. -/
def State.read {length : ℕ} (state : State length) : Appended length → Entry
  | .message k => .message (state.messages k)
  | .value value => .value value

/-- The list as it is read. -/
def State.entries {length : ℕ} (state : State length) : List Entry :=
  state.items.map state.read

/-- What the loop variable is bound to in the pass over item number `k`. -/
def bound {length : ℕ} (metric : Option Text) (messages : Fin length → Message)
    (k : Fin length) : Except PyError (Appended length) :=
  match metric with
  | some metric => do return .value (← valueOf metric (messages k))
  | none => return .message k

variable (fromtimestamp : ℤ → Except PyError HourMinute)

/-- The pass over item number `k` of the response. -/
def pass (response : List Item) (metric : Option Text) (state : State response.length)
    (k : Fin response.length) : Except PyError (State response.length) := do
  let timestamp := (response.get k).timestamp
  let seconds ← int (timestamp.take (timestamp.length - 3))
  let time ← fromtimestamp seconds
  let messages := Function.update state.messages k
    (Function.update (state.messages k) timestampKey (some (.string time.strftime)))
  let appended ← bound metric messages k
  return ⟨messages, state.items ++ [appended]⟩

/-- The loop over the response. -/
def loop (response : List Item) (metric : Option Text) :
    Except PyError (State response.length) :=
  (List.finRange response.length).foldlM (pass fromtimestamp response metric)
    ⟨fun k => (response.get k).message, []⟩

/-- `DB.retrieve_values(sensor, metric)`. -/
def retrieveValues (database : Database) (sensor : Text) (metric : Option Text) :
    Except PyError (List Entry) := do
  let final ← loop fromtimestamp (query database sensor) metric
  return final.entries

/-- `DB.retrieve_value(sensor, metric)`. -/
def retrieveValue (database : Database) (sensor : Text) (metric : Option Text) :
    Except PyError Entry := do
  firstItem (← retrieveValues fromtimestamp database sensor metric)

/-! ## One pass -/

/-- The items `ks` have not been visited: their messages are as they came, and the
list does not refer to them. -/
structure Unvisited (response : List Item) (ks : List (Fin response.length))
    (state : State response.length) : Prop where
  fresh : ∀ k ∈ ks, state.messages k = (response.get k).message
  notReferred : ∀ k ∈ ks, .message k ∉ state.items

/-- The entry for a message with its readable timestamp. -/
def entryOf (metric : Option Text) (message : Message) : Except PyError Entry :=
  match metric with
  | some metric => do return .value (← valueOf metric message)
  | none => return .message message

variable {response : List Item} {metric : Option Text}

/-- The pass stamps the message of its item, if no earlier pass has written to it. -/
theorem pass_eq {state : State response.length} {k : Fin response.length}
    (hfresh : state.messages k = (response.get k).message) :
    pass fromtimestamp response metric state k = do
      let message ← stamp fromtimestamp (response.get k)
      let messages := Function.update state.messages k message
      let appended ← bound metric messages k
      return ⟨messages, state.items ++ [appended]⟩ := by
  simp only [pass, stamp, hfresh, bind_assoc, pure_bind]

/-- What is appended reads as the entry of the message. -/
theorem bound_read {length : ℕ} (metric : Option Text) (messages : Fin length → Message)
    (k : Fin length) (items : List (Appended length)) :
    (do let appended ← bound metric messages k; return State.read ⟨messages, items⟩ appended) =
      entryOf metric (messages k) := by
  cases metric with
  | none => rfl
  | some metric => simp only [bound, entryOf, bind_assoc, pure_bind, State.read]

/-- A message is appended by a reference to the item that is visited. -/
theorem eq_of_bound {length : ℕ} {metric : Option Text} {messages : Fin length → Message}
    {k j : Fin length} (hbound : bound metric messages k = .ok (.message j)) : j = k := by
  cases metric with
  | none =>
      cases hbound
      rfl
  | some metric =>
      cases hvalue : valueOf metric (messages k) with
      | error raised =>
          simp only [bound, hvalue] at hbound
          cases hbound
      | ok value =>
          simp only [bound, hvalue] at hbound
          cases hbound

/-! ## The loop -/

/-- A pass leaves the items after its own unvisited. -/
theorem Unvisited.next {k : Fin response.length} {ks : List (Fin response.length)}
    {state : State response.length} (hunvisited : Unvisited response (k :: ks) state)
    (hk : k ∉ ks) {message : Message} {appended : Appended response.length}
    (hbound : bound metric (Function.update state.messages k message) k = .ok appended) :
    Unvisited response ks
      ⟨Function.update state.messages k message, state.items ++ [appended]⟩ := by
  refine ⟨?_, ?_⟩
  · intro j hj
    have hne : j ≠ k := by
      rintro rfl
      exact hk hj
    simp only [Function.update_of_ne hne]
    exact hunvisited.fresh j (List.mem_cons_of_mem _ hj)
  · intro j hj hmem
    rcases List.mem_append.mp hmem with hold | hnew
    · exact hunvisited.notReferred j (List.mem_cons_of_mem _ hj) hold
    · obtain rfl := List.mem_singleton.mp hnew
      rw [eq_of_bound hbound] at hj
      exact hk hj

/-- Passes over other items do not change what the list reads as. -/
theorem entries_update {length : ℕ} {state : State length} {k : Fin length}
    (hother : .message k ∉ state.items) (message : Message) (appended : Appended length) :
    State.entries ⟨Function.update state.messages k message, state.items ++ [appended]⟩ =
      state.entries ++ [State.read ⟨Function.update state.messages k message, []⟩ appended] := by
  unfold State.entries
  rw [List.map_append, List.map_singleton]
  refine congrArg₂ _ (List.map_congr_left ?_) ?_
  · intro earlier hearlier
    cases earlier with
    | message j =>
        have hne : j ≠ k := by
          rintro rfl
          exact hother hearlier
        simp only [State.read, Function.update_of_ne hne]
    | value value => rfl
  · cases appended <;> rfl

/-- **The loop over items that have not been visited**: each of them gives the entry
of its stamped message, behind the entries that are there. -/
theorem foldlM_pass {ks : List (Fin response.length)} (hnodup : ks.Nodup)
    {state : State response.length} (hunvisited : Unvisited response ks state) :
    (do
      let final ← ks.foldlM (pass fromtimestamp response metric) state
      return final.entries) =
    (do
      let entries ← ks.mapM fun k => do
        entryOf metric (← stamp fromtimestamp (response.get k))
      return state.entries ++ entries) := by
  induction ks generalizing state with
  | nil => simp
  | cons k ks ih =>
      obtain ⟨hk, hks⟩ := List.nodup_cons.mp hnodup
      have hfresh := hunvisited.fresh k (List.mem_cons_self ..)
      have hother := hunvisited.notReferred k (List.mem_cons_self ..)
      rw [List.foldlM_cons, List.mapM_cons, pass_eq fromtimestamp hfresh]
      cases stamp fromtimestamp (response.get k) with
      | error raised => rfl
      | ok message =>
          have hentry := bound_read metric (Function.update state.messages k message) k []
          rw [Function.update_self] at hentry
          simp only [ok_bind]
          rw [← hentry]
          cases hbound : bound metric (Function.update state.messages k message) k with
          | error raised => rfl
          | ok appended =>
              have hlater := ih hks (hunvisited.next hk hbound)
              simp only [ok_bind, pure_bind, bind_assoc] at hlater ⊢
              rw [hlater, entries_update hother]
              simp only [List.append_assoc, List.singleton_append]

/-- **The loop returns** the entry of every item of the response, in order. -/
theorem retrieveValues_eq_mapM (database : Database) (sensor : Text) (metric : Option Text) :
    retrieveValues fromtimestamp database sensor metric =
      (query database sensor).mapM (fun item => do
        entryOf metric (← stamp fromtimestamp item)) := by
  have hunvisited : Unvisited (query database sensor) (List.finRange _)
      ⟨fun k => ((query database sensor).get k).message, []⟩ := ⟨fun _ _ => rfl, by simp⟩
  have hloop := @foldlM_pass fromtimestamp (query database sensor) metric _
    (List.nodup_finRange _) _ hunvisited
  calc retrieveValues fromtimestamp database sensor metric
      = (List.finRange (query database sensor).length).mapM (fun k => do
          entryOf metric (← stamp fromtimestamp ((query database sensor).get k))) := by
        rw [retrieveValues, loop, hloop]
        simp [State.entries]
    _ = ((List.finRange (query database sensor).length).map (query database sensor).get).mapM
          (fun item => do entryOf metric (← stamp fromtimestamp item)) := by
        rw [List.mapM_map]
        rfl
    _ = (query database sensor).mapM (fun item => do
          entryOf metric (← stamp fromtimestamp item)) := by
        rw [List.map_get_finRange]

/-- Without a metric, these are the messages of the other `retrieveValues`. -/
theorem retrieveValues_none (database : Database) (sensor : Text) :
    retrieveValues fromtimestamp database sensor none = (do
      let messages ← Dashboard.retrieveValues fromtimestamp database sensor
      return messages.map Entry.message) := by
  rw [retrieveValues_eq_mapM, Dashboard.retrieveValues]
  exact mapM_bind_pure (stamp fromtimestamp) Entry.message (query database sensor)

/-- With a metric, they are the values of `retrieveValuesOf`. -/
theorem retrieveValues_some (database : Database) (sensor metric : Text) :
    retrieveValues fromtimestamp database sensor (some metric) = (do
      let values ← retrieveValuesOf fromtimestamp database sensor metric
      return values.map Entry.value) := by
  rw [retrieveValues_eq_mapM, retrieveValuesOf, ← mapM_bind_pure]
  simp only [entryOf, bind_assoc]

/-! ## Responses of measurements -/

variable (clock : ℤ → HourMinute) {database : Database} {sensor : Text}
  {results : List Measurement}

/-- **What `retrieve_values` returns.**  The messages of the response, in order, with
the key `timestamp` set and no other one changed; for a metric, the values of these
messages, of which `retrieve_value` gives the first. -/
theorem retrieveValues_preserves
    (hresults : query database sensor = results.map Measurement.item) :
    ∃ messages : List Message,
      messages = results.map (fun measurement =>
        Function.update measurement.message timestampKey
          (some (.string (clock (measurement.ms / 1000)).strftime))) ∧
      retrieveValues (fun seconds => .ok (clock seconds)) database sensor none =
        .ok (messages.map Entry.message) ∧
      ∀ metric : Text,
        (∀ measurement ∈ results, metric = timestampKey ∨
          (measurement.message metric).isSome) →
        ∃ values : List Value,
          messages.map (fun message => message metric) = values.map some ∧
          retrieveValues (fun seconds => .ok (clock seconds)) database sensor (some metric) =
            .ok (values.map Entry.value) ∧
          ∀ first rest, values = first :: rest →
            retrieveValue (fun seconds => .ok (clock seconds)) database sensor (some metric) =
              .ok (Entry.value first) := by
  refine ⟨results.map (Measurement.shown clock), rfl, ?_, ?_⟩
  · rw [retrieveValues_none, retrieveValues_of_query clock hresults]
    rfl
  · intro metric hcontains
    have hsome : ∀ measurement ∈ results, (measurement.shown clock metric).isSome :=
      fun measurement hmem => (isSome_update_timestamp _ _ _).mpr (hcontains measurement hmem)
    have hvalues : retrieveValues (fun seconds => .ok (clock seconds)) database sensor
        (some metric) = .ok ((results.map fun measurement =>
          (measurement.shown clock metric).getD .null).map Entry.value) := by
      rw [retrieveValues_some, retrieveValuesOf_of_query clock hresults hsome]
      rfl
    refine ⟨_, ?_, hvalues, ?_⟩
    · rw [List.map_map, List.map_map]
      apply List.map_congr_left
      intro measurement hmem
      obtain ⟨value, hvalue⟩ := Option.isSome_iff_exists.mp (hsome measurement hmem)
      simp only [Function.comp, hvalue, Option.getD_some]
    · intro first rest hcons
      rw [retrieveValue, hvalues, hcons]
      rfl

/-- Two measurements of one minute. -/
def twoResults : List Measurement :=
  [⟨36059999, fun key => if key = "humidity".toList then some (.decimal "41".toList) else none,
      by decide⟩,
    ⟨36000000, fun key => if key = "humidity".toList then some (.decimal "40".toList) else none,
      by decide⟩]

theorem retrieveValues_preserves_twoResults :
    ∃ messages : List Message,
      messages = twoResults.map (fun measurement =>
        Function.update measurement.message timestampKey
          (some (.string (HourMinute.mk 10 0).strftime))) ∧
      retrieveValues (fun _ => .ok ⟨10, 0⟩) (fun _ => twoResults.map Measurement.item) [] none =
        .ok (messages.map Entry.message) ∧
      ∃ values : List Value,
        messages.map (fun message => message "humidity".toList) = values.map some ∧
        retrieveValues (fun _ => .ok ⟨10, 0⟩) (fun _ => twoResults.map Measurement.item) []
            (some "humidity".toList) = .ok (values.map Entry.value) ∧
        ∀ first rest, values = first :: rest →
          retrieveValue (fun _ => .ok ⟨10, 0⟩) (fun _ => twoResults.map Measurement.item) []
            (some "humidity".toList) = .ok (Entry.value first) := by
  obtain ⟨messages, hmessages, hall, hmetric⟩ :=
    @retrieveValues_preserves (fun _ => ⟨10, 0⟩) (fun _ => twoResults.map Measurement.item) []
      twoResults rfl
  exact ⟨messages, hmessages, hall, hmetric _ (by decide)⟩

end AwsIotSensors.Dashboard.InPlace
