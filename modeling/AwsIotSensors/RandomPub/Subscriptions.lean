import AwsIotSensors.Emcute.Rows
import AwsIotSensors.RandomPub.Discipline
import AwsIotSensors.RandomPub.Shell

/-!
# The subscriptions of the publisher

The shell of the `random_pub` programs has a `sub` and no `unsub`.  Its table can only
fill up: `shell_accumulates` says that every accepted `emcute_sub` takes one more slot,
and that the slots taken before keep their record and their row, in any run in which no
`sub` has a name of 64 `char`s (its NUL falls into the next row) or is granted the id 0
(its slot stays free).  A program that has subscribed to 16 topics has no room for
another then, even after its connection was closed.
-/

namespace AwsIotSensors.RandomPub

open CString Emcute Runs

/-- The slots whose topic id is not 0. -/
def activeSlots (client : Client) : Finset (Fin numofsubs) :=
  Finset.univ.filter fun i => (client.subscriptions i).topic.id ≠ 0

/-- An `emcute_sub` that the gateway accepts. -/
def subscribes (exchange : Exchange) : Bool :=
  match exchange.call with
  | .sub _ _ => exchange.answer.accepted
  | _ => false

/-- The table `later` has that many slots taken beside those of `before`, which have
the same record and the same row in both. -/
structure Accumulates (before later : Client) (subscribed : ℕ) : Prop where
  card : (activeSlots later).card = (activeSlots before).card + subscribed
  slots : ∀ i ∈ activeSlots before, later.subscriptions i = before.subscriptions i
  rows : ∀ i ∈ activeSlots before, ∀ cell, rowStart i ≤ cell → cell < rowStart i + topicMaxlen →
    later.topics cell = before.topics cell

/-- A `sub`, if the line is one, has no name of exactly 64 `char`s and is not granted the id 0. -/
def FittingSub (line : Line) : Prop :=
  line.command = .sub →
    (∀ name ∈ line.args.head?, strlen name ≠ topicMaxlen) ∧
      ((line.env.answers 0).accepted → (line.env.answers 0).id ≠ 0)

instance (line : Line) : Decidable (FittingSub line) :=
  inferInstanceAs (Decidable (_ → (∀ _ ∈ _, _) ∧ (_ → _)))

theorem mem_activeSlots {client : Client} {i : Fin numofsubs} :
    i ∈ activeSlots client ↔ (client.subscriptions i).topic.id ≠ 0 := by
  simp [activeSlots]

theorem Accumulates.refl (client : Client) : Accumulates client client 0 :=
  ⟨rfl, fun _ _ => rfl, fun _ _ _ _ _ => rfl⟩

theorem Accumulates.mem_activeSlots {before later : Client} {subscribed : ℕ}
    (haccumulates : Accumulates before later subscribed) {i : Fin numofsubs}
    (hi : i ∈ activeSlots before) : i ∈ activeSlots later := by
  rw [RandomPub.mem_activeSlots, haccumulates.slots i hi]
  exact RandomPub.mem_activeSlots.mp hi

theorem Accumulates.trans {first second third : Client} {subscribed more : ℕ}
    (hfirst : Accumulates first second subscribed) (hsecond : Accumulates second third more) :
    Accumulates first third (subscribed + more) := by
  refine ⟨?_, ?_, ?_⟩
  · rw [hsecond.card, hfirst.card, Nat.add_assoc]
  · intro i hi
    rw [hsecond.slots i (hfirst.mem_activeSlots hi), hfirst.slots i hi]
  · intro i hi cell hlow hhigh
    rw [hsecond.rows i (hfirst.mem_activeSlots hi) cell hlow hhigh,
      hfirst.rows i hi cell hlow hhigh]

/-! ## The commands -/

/-- A copy of a short name into the first free slot. -/
theorem accumulates_copy {client : Client} {i : Fin numofsubs} {name : Text} {answer : Answer}
    (hshort : strlen name < topicMaxlen) (hfree : client.firstFree = some i)
    (hgrants : answer.accepted → answer.id ≠ 0) :
    Accumulates client ((client.prepare i name).emcuteSub i answer) answer.accepted.toNat := by
  have hdead : (client.subscriptions i).topic.id = 0 := by
    have hfound := Fin.eq_true_of_find?_eq_some hfree
    simpa using hfound
  have hslots := subscriptions_emcuteSub_prepare client i name answer
  have htopics := topics_emcuteSub_prepare client i name answer
  have hnotMem : i ∉ activeSlots client := by
    rw [mem_activeSlots, hdead]
    exact fun hne => hne rfl
  refine ⟨?_, ?_, ?_⟩
  · have hactive : activeSlots ((client.prepare i name).emcuteSub i answer) =
        if answer.accepted then insert i (activeSlots client) else activeSlots client := by
      ext j
      rw [mem_activeSlots, hslots]
      by_cases hj : j = i
      · subst hj
        rw [Function.update_self]
        split
        · next haccepted => simpa using hgrants haccepted
        · simpa [hdead] using hnotMem
      · rw [Function.update_of_ne hj]
        split
        · simp [mem_activeSlots, hj]
        · rw [mem_activeSlots]
    rw [hactive]
    cases answer.accepted with
    | true => exact Finset.card_insert_of_notMem hnotMem
    | false => rfl
  · intro j hj
    have hne : j ≠ i := fun heq => hnotMem (heq ▸ hj)
    rw [hslots, Function.update_of_ne hne]
  · intro j hj cell hlow hhigh
    have hne : j ≠ i := fun heq => hnotMem (heq ▸ hj)
    rw [htopics]
    refine strcpy_apply_of_outside ?_
    rcases rowStart_disjoint hne with hbelow | habove
    · exact Or.inl (by omega)
    · exact Or.inr (by omega)

/-- `cmd_sub` takes a slot if its call is accepted. -/
theorem cmdSub_accumulates {answers : ℕ → Answer} {args : List Text} {client : Client}
    (hshort : ∀ name ∈ args.head?, strlen name ≠ topicMaxlen)
    (hgrants : (answers 0).accepted → (answers 0).id ≠ 0) :
    Accumulates client (cmdSub answers args client).client
      ((cmdSub answers args client).exchanges.countP subscribes) := by
  cases args with
  | nil => exact .refl client
  | cons name rest =>
      rcases Nat.lt_or_ge topicMaxlen (strlen name) with hlong | hfits
      · rw [cmdSub_of_long hlong]
        exact .refl client
      · cases hfree : client.firstFree with
        | none =>
            rw [cmdSub_of_full hfits hfree]
            exact .refl client
        | some i =>
            rw [cmdSub_of_free answers rest hfits hfree]
            have hcount : ([⟨.sub name (qosOf rest), answers 0⟩] : List Exchange).countP
                subscribes = (answers 0).accepted.toNat := by
              cases haccepted : (answers 0).accepted <;> simp [subscribes, haccepted]
            rw [hcount]
            exact accumulates_copy (lt_of_le_of_ne hfits (hshort name rfl)) hfree hgrants

theorem countP_cmdCon (ipv6AddrFromStr : Text → Option Ipv6Addr) (answers : ℕ → Answer)
    (args : List Text) (client : Client) :
    (cmdCon ipv6AddrFromStr answers args client).exchanges.countP subscribes = 0 := by
  unfold cmdCon
  split
  · rfl
  · split
    · rfl
    · dsimp only
      split <;> rfl

theorem countP_cmdPub (answers : ℕ → Answer) (args : List Text) (client : Client) :
    (cmdPub answers args client).exchanges.countP subscribes = 0 := by
  unfold cmdPub
  split
  · dsimp only
    split
    · split <;> rfl
    · rfl
  · rfl

/-- No call of the loop subscribes. -/
theorem countP_plan_subscribes (env : Environment) (target : Target) (n : ℕ) :
    (plan env target n).countP subscribes = 0 := by
  induction n with
  | zero => rfl
  | succ n ih =>
      rw [plan_succ, List.countP_append, ih]
      rfl

variable (program : Program) (ipv6AddrFromStr : Text → Option Ipv6Addr)

theorem countP_cmdRandPub (env : Environment) (args : List Text) (n : ℕ) :
    (cmdRandPub program ipv6AddrFromStr env args n).progress.exchanges.countP subscribes = 0 := by
  cases htarget : program.target ipv6AddrFromStr args with
  | error line =>
      rw [cmdRandPub_of_error program ipv6AddrFromStr htarget]
      rfl
  | ok target =>
      rw [cmdRandPub_of_ok program ipv6AddrFromStr htarget]
      have hle := (exchanges_prefix_plan env target n).sublist.countP_le (p := subscribes)
      rw [countP_plan_subscribes] at hle
      exact Nat.le_zero.mp hle

/-! ## Runs -/

/-- The emCute calls of a line, if its handler returns. -/
def callsOf (shell : Shell) (line : Line) : List Exchange :=
  match line.run program ipv6AddrFromStr shell.client with
  | some outcome => outcome.exchanges
  | none => []

/-- The number of topics that are subscribed by a run. -/
def subscribed (shell : Shell) (lines : List Line) : ℕ :=
  (outputs (step program ipv6AddrFromStr) (callsOf program ipv6AddrFromStr) shell
    lines).flatten.countP subscribes

/-- One line. -/
theorem step_accumulates (shell : Shell) (line : Line) (hline : FittingSub line) :
    Accumulates shell.client (step program ipv6AddrFromStr shell line).client
      ((callsOf program ipv6AddrFromStr shell line).countP subscribes) := by
  obtain ⟨command, args, env, n⟩ := line
  cases command with
  | con =>
      have hclient := (run_of_other ipv6AddrFromStr ⟨.con, args, env.answers⟩ (by simp) (by simp)
        shell.client).1
      have hcount := countP_cmdCon ipv6AddrFromStr env.answers args shell.client
      simp only [step, callsOf, Line.run, hcount]
      rw [Entry.run] at hclient
      rw [hclient]
      exact .refl shell.client
  | pub =>
      have hclient := (run_of_other ipv6AddrFromStr ⟨.pub, args, env.answers⟩ (by simp) (by simp)
        shell.client).1
      have hcount := countP_cmdPub env.answers args shell.client
      simp only [step, callsOf, Line.run, hcount]
      rw [Entry.run] at hclient
      rw [hclient]
      exact .refl shell.client
  | sub =>
      obtain ⟨hshort, hgrants⟩ := hline rfl
      exact cmdSub_accumulates hshort hgrants
  | randPub =>
      have hcount := countP_cmdRandPub program ipv6AddrFromStr env args n
      simp only [step, callsOf, Line.run]
      cases hrun : cmdRandPub program ipv6AddrFromStr env args n with
      | running progress => exact .refl shell.client
      | returned ret progress =>
          rw [hrun, Control.progress] at hcount
          dsimp only
          rw [hcount]
          exact .refl shell.client

theorem after_accumulates (shell : Shell) (lines : List Line)
    (hlines : ∀ line ∈ lines, FittingSub line) :
    Accumulates shell.client (after (step program ipv6AddrFromStr) shell lines).client
      (subscribed program ipv6AddrFromStr shell lines) := by
  induction lines generalizing shell with
  | nil => exact .refl shell.client
  | cons line rest ih =>
      obtain ⟨hline, hrest⟩ := List.forall_mem_cons.mp hlines
      have hfirst := step_accumulates program ipv6AddrFromStr shell line hline
      have hsecond := ih (step program ipv6AddrFromStr shell line) hrest
      rw [subscribed, outputs, List.flatten_cons, List.countP_append]
      exact hfirst.trans hsecond

/-- No more topics are subscribed than there are slots left. -/
theorem subscribed_le {before later : Client} {count : ℕ}
    (haccumulates : Accumulates before later count) :
    count ≤ numofsubs - (activeSlots before).card := by
  have hle := Finset.card_le_univ (activeSlots later)
  rw [Fintype.card_fin, haccumulates.card] at hle
  omega

/-- **The table fills up.**  In every run of the shell from every state, in which no `sub`
has a name of exactly 64 `char`s and none that is accepted is granted the id 0, each
accepted `emcute_sub` takes a slot, the slots taken before keep their record and their
row, and no more topics are subscribed than there were slots left. -/
theorem shell_accumulates (shell : Shell) (lines : List Line)
    (hlines : ∀ line ∈ lines, FittingSub line) :
    Accumulates shell.client (after (step program ipv6AddrFromStr) shell lines).client
        (subscribed program ipv6AddrFromStr shell lines) ∧
      subscribed program ipv6AddrFromStr shell lines ≤
        numofsubs - (activeSlots shell.client).card := by
  have haccumulates := after_accumulates program ipv6AddrFromStr shell lines hlines
  exact ⟨haccumulates, subscribed_le haccumulates⟩

/-- Two topics are subscribed before readings are published. -/
def twoTopics : List Line :=
  [⟨.sub, [weather], acceptsFirst 1, 0⟩, ⟨.sub, [hello], acceptsFirst 1, 0⟩,
    ⟨.randPub, [gatewayAddress], acceptsFirst 6, 2⟩]

theorem shell_accumulates_twoTopics :
    Accumulates Shell.start.client
        (after (step .randomPub gatewayFromStr) Shell.start twoTopics).client
        (subscribed .randomPub gatewayFromStr Shell.start twoTopics) ∧
      subscribed .randomPub gatewayFromStr Shell.start twoTopics ≤
        numofsubs - (activeSlots Shell.start.client).card :=
  shell_accumulates .randomPub gatewayFromStr Shell.start twoTopics (by decide)

end AwsIotSensors.RandomPub
