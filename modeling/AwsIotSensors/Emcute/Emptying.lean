import AwsIotSensors.Emcute.Table

/-!
# Emptying the table

A refused `cmd_sub` leaves its name in a free slot, and a topic that is subscribed
twice takes two slots.  `cmd_unsub` does not ask which slot it finds.  Still no slot is
ever lost: the names that the slots carry can all be unsubscribed, each as often as it
is carried and in any order, and the records of the slots are then zeroed as they were at
the start of `main` (`exists_emptied`).  The rows of `topics` keep their bytes.
-/

namespace AwsIotSensors.Emcute

open CString Runs SlotTable

variable (ipv6AddrFromStr : Text → Option Ipv6Addr)

/-- A slot without a name is zeroed. -/
def ZeroedUnlessNamed (world : World) : Prop :=
  ∀ i, (world.client.subscriptions i).topic.name = none →
    world.client.subscriptions i = Subscription.zero

theorem step_zeroedUnlessNamed (world : World) (entry : Entry)
    (hworld : ZeroedUnlessNamed world) :
    ZeroedUnlessNamed (step ipv6AddrFromStr world entry) := by
  intro i hname
  cases step_change ipv6AddrFromStr world entry with
  | keep hclient hfilledBy =>
      rw [hclient] at hname ⊢
      exact hworld i hname
  | fill j name flags hcommand hargs hshort hfree hclient hfilledBy =>
      rw [hclient, subscriptions_emcuteSub_prepare] at hname ⊢
      by_cases hi : i = j
      · subst hi
        rw [Function.update_self] at hname
        cases hname
      · rw [Function.update_of_ne hi] at hname ⊢
        exact hworld i hname
  | clear j name hcommand hargs haccepted hnamed hclient hfilledBy =>
      rw [hclient, Client.clear] at hname ⊢
      dsimp only at hname ⊢
      by_cases hi : i = j
      · rw [hi, Function.update_self]
      · rw [Function.update_of_ne hi] at hname ⊢
        exact hworld i hname

/-- The commands that unsubscribe from the names, one after the other. -/
def unsubs (names : List Text) : List Entry :=
  names.map fun name => accepted .unsub [name] 0

theorem unsubs_cons (name : Text) (names : List Text) :
    unsubs (name :: names) = accepted .unsub [name] 0 :: unsubs names := rfl

/-- Unsubscribing from the names releases them in the table of named slots. -/
theorem tableOf_unsubs {world : World} (hrows : RowsIntact world) (names : List Text) :
    RowsIntact (after (step ipv6AddrFromStr) world (unsubs names)) ∧
      tableOf (after (step ipv6AddrFromStr) world (unsubs names)) =
        names.foldl release (tableOf world) := by
  induction names generalizing world with
  | nil => exact ⟨hrows, rfl⟩
  | cons name rest ih =>
      have hfits : FitsRow world (accepted .unsub [name] 0) := fun hsub => by cases hsub
      have hgrants : GrantsId (accepted .unsub [name] 0) := fun hsub => by cases hsub
      have hstep : tableOf (step ipv6AddrFromStr world (accepted .unsub [name] 0)) =
          release (tableOf world) name :=
        tableOf_step ipv6AddrFromStr hrows hgrants
      rw [unsubs_cons, after_cons, List.foldl_cons, ← hstep]
      exact ih (step_rowsIntact ipv6AddrFromStr world _ hrows hfits)

/-- If no slot of the table of named slots is in use, no slot of the source is. -/
theorem subscriptions_of_empty {world : World} (hrows : RowsIntact world)
    (hzeroed : ZeroedUnlessNamed world) (hempty : tableOf world = fun _ => Slot.empty) :
    world.client.subscriptions = Client.initial.subscriptions := by
  funext i
  refine hzeroed i ?_
  cases hname : (world.client.subscriptions i).topic.name with
  | none => rfl
  | some address =>
      obtain ⟨-, name, hfilledBy, -⟩ := hrows.named i address hname
      have hslot : (tableOf world i).name = none := by rw [hempty, Slot.empty]
      simp [tableOf, hname, hfilledBy] at hslot

/-- **No slot is ever lost.**  After every run in which the names fit their rows, at most
16 accepted `cmd_unsub` zero all records: those of the names in the slots, in any order.
The bytes in the rows of `topics` are left as they are. -/
theorem exists_emptied (entries : List Entry)
    (hfits : Along (step ipv6AddrFromStr) FitsRow World.initial entries) :
    ∃ names : List Text, names.length ≤ numofsubs ∧ ∀ order, order.Perm names →
      (after (step ipv6AddrFromStr) World.initial (entries ++ unsubs order)).client.subscriptions =
        Client.initial.subscriptions := by
  have hrows := after_rowsIntact ipv6AddrFromStr hfits
  refine ⟨names (tableOf (after (step ipv6AddrFromStr) World.initial entries)),
    length_names_le _, ?_⟩
  intro order horder
  rw [after_append]
  obtain ⟨hrowsLater, htable⟩ := tableOf_unsubs ipv6AddrFromStr hrows order
  refine subscriptions_of_empty hrowsLater ?_ ?_
  · rw [← after_append]
    have hall : Along (step ipv6AddrFromStr) (fun _ _ => True) World.initial
        (entries ++ unsubs order) := along_iff_forall_mem.mpr fun _ _ => trivial
    exact invariant ZeroedUnlessNamed (fun _ _ => rfl)
      (fun world entry hworld _ => step_zeroedUnlessNamed ipv6AddrFromStr world entry hworld) hall
  · rw [htable]
    refine foldl_release_eq_empty (liveNamed_tableOf hrows) ?_
    intro name
    rw [horder.count_eq, count_names]

/-- A topic that is refused, and then subscribed into two slots. -/
def subscribedTwice : List Entry :=
  [⟨.sub, [hello], fun _ => ⟨.failed, 0⟩⟩, accepted .sub [hello] 1, accepted .sub [hello] 1]

theorem exists_emptied_subscribedTwice :
    ∃ names : List Text, names.length ≤ numofsubs ∧ ∀ order, order.Perm names →
      (after (step fun _ => none) World.initial
        (subscribedTwice ++ unsubs order)).client.subscriptions = Client.initial.subscriptions :=
  exists_emptied (fun _ => none) subscribedTwice (by decide)

end AwsIotSensors.Emcute
