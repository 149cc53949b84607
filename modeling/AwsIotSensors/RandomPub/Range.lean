import AwsIotSensors.RandomPub.Connection

/-!
# The range of the published readings

A run of `cmd_rand_pub` publishes the readings of the rounds whose `emcute_pub`
it reaches, each once and in its own payload (`published_rounds`).  They are
all in the ranges that `get_temperature` and `get_humidity` declare if and only
if every word they are drawn from is, as an `int`, not negative or a multiple of
101: C's `%` keeps the sign of a negative word.
-/

namespace AwsIotSensors.RandomPub

open CString Emcute

variable {env : Environment} {target : Target} {temperature humidity : ℤ}

/-- One of the calls publishes the two readings. -/
def Published (exchanges : List Exchange) (temperature humidity : ℤ) : Prop :=
  ∃ exchange ∈ exchanges, ∃ name id flags,
    exchange.call = .pub name id (measures temperature humidity) flags

/-- The readings of round `k`: its temperature is drawn from word `2 * k`, its
humidity from the next. -/
def IsReading (env : Environment) (k : ℕ) (temperature humidity : ℤ) : Prop :=
  temperature = getTemperature (env.words (2 * k)) ∧
    humidity = getHumidity (env.words (2 * k + 1))

/-- The loop reaches the `emcute_pub` of round `k`: all answers before it are
accepted. -/
def ReachesPub (answers : ℕ → Answer) (k : ℕ) : Prop :=
  ∀ i < 4 * k + 2, (answers i).accepted

/-! ## What is published -/

theorem published_append (first second : List Exchange) :
    Published (first ++ second) temperature humidity ↔
      Published first temperature humidity ∨ Published second temperature humidity := by
  simp only [Published, List.mem_append, or_and_right, exists_or]

/-- The first calls of a round publish its readings if they include the third. -/
theorem published_take_planOfRound (target : Target) (k : ℕ) {r : ℕ} (hr : r < 4) :
    Published ((planOfRound env target (4 * k) (2 * k)).take (r + 1)) temperature humidity ↔
      2 ≤ r ∧ IsReading env k temperature humidity := by
  have hdata : payloadOf (env.words (2 * k)) (env.words (2 * k + 1)) =
      measures temperature humidity ↔ IsReading env k temperature humidity := by
    constructor
    · intro heq
      obtain ⟨htemperature, hhumidity⟩ := measures_inj heq
      exact ⟨htemperature.symm, hhumidity.symm⟩
    · intro hreading
      rw [hreading.1, hreading.2, payloadOf]
  interval_cases r
  · simp [Published, planOfRound]
  · simp [Published, planOfRound]
  · simp [Published, planOfRound, hdata]
  · simp [Published, planOfRound, hdata]

theorem published_plan (n : ℕ) :
    Published (plan env target n) temperature humidity ↔
      ∃ k < n, IsReading env k temperature humidity := by
  induction n with
  | zero => simp [plan_zero, Published]
  | succ n ih =>
      have hround : Published (planOfRound env target (4 * n) (2 * n)) temperature humidity ↔
          IsReading env n temperature humidity :=
        (published_take_planOfRound target n (show 3 < 4 by decide)).trans
          (and_iff_right (by decide))
      rw [plan_succ, published_append, ih, hround]
      exact Nat.exists_lt_succ_right.symm

/-- **What a run publishes.**  The readings of exactly the rounds whose
`emcute_pub` it reaches. -/
theorem published_rounds (n : ℕ) :
    Published (rounds env target n).progress.exchanges temperature humidity ↔
      ∃ k < n, ReachesPub env.answers k ∧ IsReading env k temperature humidity := by
  rcases rounds_cases env target n with ⟨haccepted, printed, hrounds⟩ |
    ⟨k', hk', r, hr, hfirst, printed, hrounds⟩
  · have hreaches : ∀ k < n, ReachesPub env.answers k := fun k hk i hi =>
      haccepted i (by omega)
    rw [hrounds, Control.progress, published_plan]
    constructor
    · intro hpublished
      obtain ⟨k, hk, hreading⟩ := hpublished
      exact ⟨k, hk, hreaches k hk, hreading⟩
    · intro hpublished
      obtain ⟨k, hk, -, hreading⟩ := hpublished
      exact ⟨k, hk, hreading⟩
  · -- the loop was left at call `r` of round `k'`
    have hreaches (k : ℕ) : ReachesPub env.answers k ↔ 4 * k + 2 ≤ 4 * k' + r := by
      constructor
      · intro hk
        by_contra hlt
        exact hfirst.2 (hk _ (by omega))
      · intro hle i hi
        exact hfirst.1 i (by omega)
    rw [hrounds, Control.progress, published_append, published_plan,
      published_take_planOfRound _ _ hr]
    constructor
    · intro hpublished
      rcases hpublished with ⟨k, hk, hreading⟩ | ⟨htwo, hreading⟩
      · exact ⟨k, by omega, (hreaches k).mpr (by omega), hreading⟩
      · exact ⟨k', hk', (hreaches k').mpr (by omega), hreading⟩
    · intro hpublished
      obtain ⟨k, hk, hpub, hreading⟩ := hpublished
      rw [hreaches] at hpub
      rcases Nat.lt_or_ge k k' with hlt | hge
      · exact Or.inl ⟨k, hlt, hreading⟩
      · obtain rfl : k = k' := by omega
        exact Or.inr ⟨by omega, hreading⟩

/-! ## The main statement -/

/-- The two readings are in their declared ranges. -/
def ReadingsInRange (temperature humidity : ℤ) : Prop :=
  InRange (-50) 50 temperature ∧ InRange 0 100 humidity

theorem readingsInRange_iff (first second : Word) :
    ReadingsInRange (getTemperature first) (getHumidity second) ↔
      NonnegOrMultiple first ∧ NonnegOrMultiple second :=
  and_congr (getTemperature_inRange_iff first) (getHumidity_inRange_iff second)

/-- **When the published readings are in range.**  All readings that a run
publishes are in range if and only if, in every round whose `emcute_pub` is
reached, both random words are, as an `int`, not negative or a multiple of 101. -/
theorem published_inRange_iff (program : Program) (ipv6AddrFromStr : Text → Option Ipv6Addr)
    (env : Environment) (args : List Text) (n : ℕ) :
    (∀ temperature humidity,
      Published (cmdRandPub program ipv6AddrFromStr env args n).progress.exchanges
        temperature humidity → ReadingsInRange temperature humidity) ↔
    ((program.target ipv6AddrFromStr args).isOk → ∀ k < n, ReachesPub env.answers k →
      NonnegOrMultiple (env.words (2 * k)) ∧ NonnegOrMultiple (env.words (2 * k + 1))) := by
  cases htarget : program.target ipv6AddrFromStr args with
  | error line =>
      rw [cmdRandPub_of_error program ipv6AddrFromStr htarget]
      simp [Control.progress, Progress.start, Progress.print, Published, Except.isOk,
        Except.toBool]
  | ok target =>
      rw [cmdRandPub_of_ok program ipv6AddrFromStr htarget]
      simp only [published_rounds, Except.isOk, Except.toBool, true_implies]
      constructor
      · intro hall k hk hreaches
        exact (readingsInRange_iff _ _).mp (hall _ _ ⟨k, hk, hreaches, rfl, rfl⟩)
      · intro hall temperature humidity hpublished
        obtain ⟨k, hk, hreaches, rfl, rfl⟩ := hpublished
        exact (readingsInRange_iff _ _).mpr (hall k hk hreaches)

/-- All words have all bits set, and every answer is accepted. -/
def onesAccepted : Environment :=
  ⟨fun _ => BitVec.allOnes 32, fun _ => ⟨.ok, 1⟩⟩

/-- The word `2 ^ 32 - 1` makes the temperature -51 and the humidity -1. -/
theorem exists_published_outOfRange :
    ¬ ∀ (program : Program) (ipv6AddrFromStr : Text → Option Ipv6Addr) (env : Environment)
        (args : List Text) (n : ℕ) (temperature humidity : ℤ),
      Published (cmdRandPub program ipv6AddrFromStr env args n).progress.exchanges
        temperature humidity → ReadingsInRange temperature humidity := by
  intro hclaim
  have hrange := hclaim .randomPub gatewayFromStr onesAccepted [gatewayAddress] 1 (-51)
    (-1) ⟨⟨.pub defaultTopic 1 (measures (-51) (-1)) .qos0, ⟨.ok, 1⟩⟩, by decide, _, _, _, rfl⟩
  exact absurd hrange.1 (by decide)

/-! ## The values that are published -/

/-- What `randomBetween` can return: the interval that begins as far below the lower
bound as the upper bound is above it. -/
theorem exists_randomBetween_iff {lower upper value : ℤ} (hle : lower ≤ upper)
    (hsmall : upper - lower < 2 ^ 31) :
    (∃ word, randomBetween lower upper word = value) ↔ InRange (2 * lower - upper) upper value := by
  have hpos : 0 < upper - lower + 1 := by omega
  constructor
  · intro hexists
    obtain ⟨word, rfl⟩ := hexists
    have hlow := Int.lt_tmod_of_pos word.toInt hpos
    have hhigh := Int.tmod_lt_of_pos word.toInt hpos
    unfold randomBetween InRange
    omega
  · intro hrange
    obtain ⟨hlow, hhigh⟩ := hrange
    -- a number below the modulus in size is its own remainder
    refine ⟨BitVec.ofInt 32 (value - lower), ?_⟩
    have hword : (BitVec.ofInt 32 (value - lower)).toInt = value - lower :=
      BitVec.toInt_ofInt_eq_self (by decide) (by omega) (by omega)
    have hremainder : (value - lower).tmod (upper - lower + 1) = value - lower := by
      rcases le_or_gt 0 (value - lower) with hnonneg | hneg
      · exact Int.tmod_eq_of_lt hnonneg (by omega)
      · have hflip := Int.tmod_eq_of_lt (a := -(value - lower)) (b := upper - lower + 1)
          (by omega) (by omega)
        rw [Int.neg_tmod] at hflip
        omega
    rw [randomBetween, hword, hremainder]
    omega

/-- **Which readings can be published.**  Those with a temperature between -150 and 50
and a humidity between -100 and 100, in any combination, and no others. -/
theorem exists_published_iff (program : Program) (ipv6AddrFromStr : Text → Option Ipv6Addr)
    {args : List Text} (hargs : (program.target ipv6AddrFromStr args).isOk)
    (temperature humidity : ℤ) :
    (∃ env n, Published (cmdRandPub program ipv6AddrFromStr env args n).progress.exchanges
      temperature humidity) ↔
    InRange (-150) 50 temperature ∧ InRange (-100) 100 humidity := by
  have htemperature : (∃ word, getTemperature word = temperature) ↔
      InRange (-150) 50 temperature :=
    exists_randomBetween_iff (by decide) (by decide)
  have hhumidity : (∃ word, getHumidity word = humidity) ↔ InRange (-100) 100 humidity :=
    exists_randomBetween_iff (by decide) (by decide)
  obtain ⟨target, htarget⟩ : ∃ target, program.target ipv6AddrFromStr args = .ok target := by
    cases htarget : program.target ipv6AddrFromStr args with
    | error line => simp [htarget, Except.isOk, Except.toBool] at hargs
    | ok target => exact ⟨target, rfl⟩
  simp only [cmdRandPub_of_ok program ipv6AddrFromStr htarget, published_rounds]
  rw [← htemperature, ← hhumidity]
  constructor
  · intro hexists
    obtain ⟨env, n, k, -, -, hreading⟩ := hexists
    exact ⟨⟨_, hreading.1.symm⟩, ⟨_, hreading.2.symm⟩⟩
  · intro hwords
    obtain ⟨⟨first, rfl⟩, ⟨second, rfl⟩⟩ := hwords
    -- a gateway that accepts everything, and the two words in the first round
    refine ⟨⟨fun i => if i = 0 then first else second, fun _ => ⟨.ok, 1⟩⟩, 1, 0, by decide, ?_, ?_⟩
    · intro i _
      rfl
    · exact ⟨rfl, rfl⟩

theorem exists_published_iff_coldest :
    (∃ env n, Published (cmdRandPub .randomPub gatewayFromStr env
        [gatewayAddress] n).progress.exchanges (-150) (-100)) ↔
      InRange (-150) 50 (-150) ∧ InRange (-100) 100 (-100) :=
  exists_published_iff .randomPub gatewayFromStr (by decide) (-150) (-100)

end AwsIotSensors.RandomPub
