import AwsIotSensors.Esp8266.ClientName
import AwsIotSensors.Esp8266.ReconnectTimer

/-!
# The name at the broker

A broker closes a connection when another client connects under the same name.  The
name of a board is made anew in every boot.  It determines the address of the board and
the last byte of the clock at the end of `setup`, and nothing else
(`clientName_eq_iff`).  So two boards never take each other's place, over whole runs
with restarts (`connectNames_disjoint`), while a board may well come back under the
name of an earlier boot.
-/

namespace AwsIotSensors.Esp8266

open Runs

/-- The name of a `client.connect`. -/
def Effect.connectName : Effect → Option String
  | .connect clientName => some clientName
  | _ => none

/-- The names with which the executions of a run connect, in order. -/
def connectNames (mac : Fin 6 → UInt8) (board : Board) (executions : List Surroundings) :
    List String :=
  (outputs (step mac) (fun board env => (loop env board.globals).2.filterMap Effect.connectName)
    board executions).flatten

/-- The name was made by `setup` on a board with this address. -/
def MadeBy (mac : Fin 6 → UInt8) (clientName : String) : Prop :=
  ∃ micros, clientName = (setup mac micros).clientName

theorem connectNames_wifiWait (env : Surroundings) (poll left : ℕ) :
    (wifiWait env poll left).filterMap Effect.connectName = [] := by
  induction left generalizing poll with
  | zero => rfl
  | succ left ih =>
      simp only [wifiWait]
      split
      · rfl
      · exact ih (poll + 1)

/-- `loop` connects with the global name, if it connects. -/
theorem eq_of_mem_connectNames {env : Surroundings} {globals : Globals} {clientName : String}
    (hmem : clientName ∈ (loop env globals).2.filterMap Effect.connectName) :
    clientName = globals.clientName := by
  have hread : (getMeasurements env).2.filterMap Effect.connectName = [] := by
    simp only [getMeasurements]
    split <;> split <;> rfl
  have hsent : ∀ payload, (sendmqttMsg env topic payload).filterMap Effect.connectName = [] := by
    intro payload
    unfold sendmqttMsg
    split
    · split <;> rfl
    · rfl
  have hwifi : (wifiConnect env).filterMap Effect.connectName = [] := by
    unfold wifiConnect
    split
    · exact connectNames_wifiWait env 2 150
    · rfl
  have hreconnect : clientName ∈ (reconnect env globals.clientName).2.filterMap
      Effect.connectName → clientName = globals.clientName := by
    simp only [reconnect]
    split
    · split <;> simp [Effect.connectName]
    · simp [Effect.connectName]
  unfold loop at hmem
  split at hmem
  · split at hmem
    · dsimp only at hmem
      split at hmem
      · split at hmem <;> exact hreconnect hmem
      · cases hmem
    · simp [List.filterMap_append, hread, hsent, Effect.connectName] at hmem
  · rw [hwifi] at hmem
    cases hmem

theorem clientName_loop (env : Surroundings) (globals : Globals) :
    (loop env globals).1.clientName = globals.clientName := by
  by_cases hwants : WantsReconnect env globals
  · rw [loop_of_wantsReconnect hwants]
  · rw [(loop_of_not_wantsReconnect hwants).1]

theorem step_madeBy (mac : Fin 6 → UInt8) (board : Board) (env : Surroundings)
    (hboard : MadeBy mac board.globals.clientName) :
    MadeBy mac (step mac board env).globals.clientName := by
  unfold step
  dsimp only
  split
  · exact ⟨env.micros, rfl⟩
  · rwa [clientName_loop]

/-- All names of a run are made on its own board. -/
theorem madeBy_of_mem_connectNames {mac : Fin 6 → UInt8} {board : Board}
    {executions : List Surroundings} (hboard : MadeBy mac board.globals.clientName)
    {clientName : String} (hmem : clientName ∈ connectNames mac board executions) :
    MadeBy mac clientName := by
  induction executions generalizing board with
  | nil => cases hmem
  | cons env rest ih =>
      rw [connectNames, outputs, List.flatten_cons, List.mem_append] at hmem
      rcases hmem with hnow | hlater
      · rwa [eq_of_mem_connectNames hnow]
      · exact ih (step_madeBy mac board env hboard) hlater

/-! ## Two boards -/

/-- **No two boards take each other's place** at the broker: boards with different
addresses never connect under the same name, however often they restart. -/
theorem connectNames_disjoint {mac other : Fin 6 → UInt8} (hne : mac ≠ other)
    (micros otherMicros : ℕ) (executions otherExecutions : List Surroundings) :
    List.Disjoint (connectNames mac (boot mac micros) executions)
      (connectNames other (boot other otherMicros) otherExecutions) := by
  intro clientName hmem hother
  obtain ⟨clock, hname⟩ := madeBy_of_mem_connectNames ⟨micros, rfl⟩ hmem
  obtain ⟨otherClock, hotherName⟩ := madeBy_of_mem_connectNames ⟨otherMicros, rfl⟩ hother
  exact hne ((clientName_eq_iff mac other clock otherClock).mp (hname.symm.trans hotherName)).1

theorem connectNames_disjoint_firstConnect :
    List.Disjoint (connectNames (fun _ => 10) (boot (fun _ => 10) 300) [firstConnect])
      (connectNames (fun _ => 11) (boot (fun _ => 11) 300) [firstConnect]) :=
  connectNames_disjoint (fun heq => absurd (congrFun heq 0) (by decide)) 300 300
    [firstConnect] [firstConnect]

end AwsIotSensors.Esp8266
