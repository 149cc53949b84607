import AwsIotSensors.RandomPub.Publisher

/-!
# The connection of the publisher

Every round of `cmd_rand_pub` opens a connection and closes it, but the returns
after a failed `emcute_reg` and a failed `emcute_pub` skip the `emcute_discon`.
`connected_of_returned` says how a run of the loop leaves the connection: it is
closed if and only if the call that made the loop return is an `emcute_con`.
-/

namespace AwsIotSensors.RandomPub

open CString Emcute Runs

variable {env : Environment} {target : Target}

/-- An accepted round opens the connection and closes it. -/
theorem connected_planOfRound {asked drawn : ℕ} (hcon : (env.answers asked).accepted)
    (hdiscon : (env.answers (asked + 3)).accepted) :
    connected false (planOfRound env target asked drawn) = false := by
  simp [connected, planOfRound, Exchange.connected, hcon, hdiscon]

theorem connected_plan {n : ℕ} (haccepted : ∀ i < 4 * n, (env.answers i).accepted) :
    connected false (plan env target n) = false := by
  induction n with
  | zero => rfl
  | succ n ih =>
      rw [plan_succ, connected, after_append, ← connected,
        ih fun i hi => haccepted i (by omega)]
      exact connected_planOfRound (haccepted _ (by omega)) (haccepted _ (by omega))

/-- A round that is left at call `r` leaves the connection open, unless the call
is the `emcute_con`. -/
theorem connected_take_planOfRound {asked drawn r : ℕ} (hr : r < 4)
    (haccepted : ∀ i < r, (env.answers (asked + i)).accepted)
    (hrefused : ¬ (env.answers (asked + r)).accepted) :
    connected false ((planOfRound env target asked drawn).take (r + 1)) = decide (r ≠ 0) := by
  match r with
  | 0 =>
      simp only [add_zero] at hrefused
      simp [connected, planOfRound, Exchange.connected, hrefused]
  | 1 =>
      have hcon := haccepted 0 (by decide)
      simp only [add_zero] at hcon
      simp [connected, planOfRound, Exchange.connected, hcon]
  | 2 =>
      have hcon := haccepted 0 (by decide)
      simp only [add_zero] at hcon
      simp [connected, planOfRound, Exchange.connected, hcon]
  | 3 =>
      have hcon := haccepted 0 (by decide)
      simp only [add_zero] at hcon
      simp [connected, planOfRound, Exchange.connected, hcon, hrefused]

/-- **How the loop leaves the connection.**  A returned run that began without a
connection leaves one open, unless its last call is an `emcute_con`. -/
theorem connected_of_returned {n ret : ℕ} {progress : Progress}
    (hreturned : rounds env target n = .returned ret progress) :
    ∃ k r, r < 4 ∧ FirstRefused env.answers (4 * k + r) ∧
      connected false progress.exchanges = decide (r ≠ 0) := by
  obtain ⟨k, -, r, hr, hfirst, hexchanges⟩ := rounds_of_returned hreturned
  refine ⟨k, r, hr, hfirst, ?_⟩
  -- the rounds before the last have closed what they opened
  have hbefore : connected false (plan env target k) = false :=
    connected_plan fun i hi => hfirst.1 i (by omega)
  rw [hexchanges, connected, after_append, ← connected, hbefore]
  exact connected_take_planOfRound hr (fun i hi => hfirst.1 _ (by omega)) hfirst.2

variable (program : Program) (ipv6AddrFromStr : Text → Option Ipv6Addr)

/-- The command returns at once, without a call, for arguments that it rejects. -/
theorem cmdRandPub_of_error {args : List Text} {line : String} {n : ℕ}
    (htarget : program.target ipv6AddrFromStr args = .error line) :
    cmdRandPub program ipv6AddrFromStr env args n = .returned 1 (Progress.start.print line) := by
  rw [cmdRandPub, htarget]

theorem cmdRandPub_of_ok {args : List Text} {n : ℕ}
    (htarget : program.target ipv6AddrFromStr args = .ok target) :
    cmdRandPub program ipv6AddrFromStr env args n = rounds env target n := by
  rw [cmdRandPub, htarget]

/-! ## The command -/

/-- `emcute_discon` never fails when it is called. -/
def DisconAccepted (exchanges : List Exchange) : Prop :=
  ∀ exchange ∈ exchanges, exchange.call = .discon → exchange.answer.accepted

instance (exchanges : List Exchange) : Decidable (DisconAccepted exchanges) :=
  inferInstanceAs (Decidable (∀ _ ∈ _, _ → _))

/-- The first answer that is not `EMCUTE_OK` is that of an `emcute_reg` or of an
`emcute_pub`: in round `k` these get the answers `4 * k + 1` and `4 * k + 2`. -/
def RefusedAfterCon (answers : ℕ → Answer) : Prop :=
  ∃ k, FirstRefused answers (4 * k + 1) ∨ FirstRefused answers (4 * k + 2)

/-- The loop is not left by the `emcute_discon` of a round if that never fails. -/
theorem ne_discon_of_returned {n ret k : ℕ} {progress : Progress}
    (hreturned : rounds env target n = .returned ret progress)
    (hdiscon : DisconAccepted progress.exchanges) :
    ¬ FirstRefused env.answers (4 * k + 3) := by
  intro hfirst
  obtain ⟨k', -, r, hr, hfirst', hexchanges⟩ := rounds_of_returned hreturned
  have hsame : 4 * k + 3 = 4 * k' + r := hfirst.unique hfirst'
  obtain rfl : k = k' := by omega
  obtain rfl : r = 3 := by omega
  apply hfirst.2
  apply hdiscon ⟨.discon, env.answers (4 * k + 3)⟩ _ rfl
  rw [hexchanges]
  simp [planOfRound]

/-- **When the connection is closed again.**  If `emcute_discon` does not fail, a
`cmd_rand_pub` that returns leaves no connection open if and only if its
arguments are rejected or no `emcute_reg` and no `emcute_pub` is refused. -/
theorem cmdRandPub_disconnected_iff {args : List Text} {n ret : ℕ} {progress : Progress}
    (hreturned : cmdRandPub program ipv6AddrFromStr env args n = .returned ret progress)
    (hdiscon : DisconAccepted progress.exchanges) :
    connected false progress.exchanges = false ↔
      ((program.target ipv6AddrFromStr args).isOk → ¬ RefusedAfterCon env.answers) := by
  cases htarget : program.target ipv6AddrFromStr args with
  | error line =>
      rw [cmdRandPub_of_error program ipv6AddrFromStr htarget] at hreturned
      cases hreturned
      simp [connected, Progress.start, Progress.print, Except.isOk, Except.toBool]
  | ok target =>
      rw [cmdRandPub_of_ok program ipv6AddrFromStr htarget] at hreturned
      obtain ⟨k, r, hr, hfirst, hconnected⟩ := connected_of_returned hreturned
      have hne : r ≠ 3 := by
        intro hr3
        subst hr3
        exact ne_discon_of_returned hreturned hdiscon hfirst
      rw [hconnected]
      simp only [decide_eq_false_iff_not, not_not, Except.isOk, Except.toBool, true_implies]
      constructor
      · intro hzero hrefused
        obtain ⟨k', hreg | hpub⟩ := hrefused
        · have hsame := hfirst.unique hreg
          omega
        · have hsame := hfirst.unique hpub
          omega
      · intro hrefused
        by_contra hzero
        have hcases : r = 1 ∨ r = 2 := by omega
        rcases hcases with rfl | rfl
        · exact hrefused ⟨k, Or.inl hfirst⟩
        · exact hrefused ⟨k, Or.inr hfirst⟩

/-- The gateway accepts the first `n` requests and refuses those after them. -/
def acceptsFirst (n : ℕ) : Environment :=
  ⟨fun _ => 0, fun i => ⟨if i < n then .ok else .failed, 1⟩⟩

theorem cmdRandPub_disconnected_iff_acceptsFirst :
    connected false (cmdRandPub .randomPub gatewayFromStr (acceptsFirst 1)
        [gatewayAddress] 1).progress.exchanges = false ↔
      ((Program.randomPub.target gatewayFromStr [gatewayAddress]).isOk →
        ¬ RefusedAfterCon (acceptsFirst 1).answers) :=
  cmdRandPub_disconnected_iff .randomPub gatewayFromStr (n := 1)
    (show _ = Control.returned 1 _ from rfl) (by decide)

/-- A refused `emcute_reg` leaves the connection open. -/
theorem exists_not_disconnected :
    ¬ ∀ (program : Program) (ipv6AddrFromStr : Text → Option Ipv6Addr) (env : Environment)
        (args : List Text) (n ret : ℕ) (progress : Progress),
      cmdRandPub program ipv6AddrFromStr env args n = .returned ret progress →
      Along Exchange.connected Exchange.RefusesSecondCon false progress.exchanges →
      DisconAccepted progress.exchanges → connected false progress.exchanges = false := by
  intro hclaim
  exact absurd (hclaim .randomPub gatewayFromStr (acceptsFirst 1) [gatewayAddress] 1 1 _
    rfl (by decide) (by decide)) (by decide)

end AwsIotSensors.RandomPub
