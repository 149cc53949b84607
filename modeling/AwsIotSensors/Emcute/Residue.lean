import AwsIotSensors.Emcute.Unsubscribe

/-!
# What a failed subscription leaves behind

`cmd_sub` writes callback, name and pointer into the slot before it asks the
gateway, and takes nothing back when it is refused.  The slot stays free, but it
carries the name, and `cmd_unsub` looks for names without asking whether the slot
is active.

`no_trace_iff` says when the rest of the session can tell: after a `cmd_sub` that
returns 1, some later sequence of `cmd_sub` and `cmd_unsub` with short names goes
otherwise than without it, unless the command did not come as far as the copy or
the copy changed no short name that a slot carries (`CopyUnseen`).  A run with
the residue and a run without it are compared through `Alike`: same ids, same
short names in the same slots.  In the other direction the two tables carry some
name in a different number of slots, and unsubscribing from it as often as
possible tells them apart (`card_namedSlots_eq`).
-/

namespace AwsIotSensors.Emcute

open CString Runs
open SlotTable (places mem_places places_eq_empty_iff)

variable (ipv6AddrFromStr : Text → Option Ipv6Addr)

/-! ## Telling tables apart -/

/-- The table after a command. -/
def clientStep (client : Client) (entry : Entry) : Client :=
  (entry.run ipv6AddrFromStr client).client

/-- What is seen of a command: its calls with their answers, the lines it prints,
its return value. -/
def seen (client : Client) (entry : Entry) : List Exchange × List String × ℕ :=
  let outcome := entry.run ipv6AddrFromStr client
  (outcome.exchanges, outcome.printed, outcome.ret)

/-- A `cmd_sub` or `cmd_unsub` with a name shorter than `TOPIC_MAXLEN`. -/
def ShortSubOrUnsub (entry : Entry) : Prop :=
  (entry.command = .sub ∨ entry.command = .unsub) ∧
    ∀ name ∈ entry.args.head?, strlen name < topicMaxlen

instance (entry : Entry) : Decidable (ShortSubOrUnsub entry) :=
  inferInstanceAs (Decidable (_ ∧ ∀ _ ∈ _, _))

/-- From both tables, all sequences of such commands make the same calls, print and
return the same, and end with the same active slots. -/
def SameFuture (client other : Client) : Prop :=
  ∀ entries, (∀ entry ∈ entries, ShortSubOrUnsub entry) →
    outputs (clientStep ipv6AddrFromStr) (seen ipv6AddrFromStr) client entries =
      outputs (clientStep ipv6AddrFromStr) (seen ipv6AddrFromStr) other entries ∧
    ∀ i, ((after (clientStep ipv6AddrFromStr) client entries).subscriptions i).topic.id ≠ 0 ↔
      ((after (clientStep ipv6AddrFromStr) other entries).subscriptions i).topic.id ≠ 0

/-- The empty name. -/
def emptyName : Text := ⟨[], by simp⟩

/-- The copy of a name into slot `i` changes no short name that a slot carries.  A
name that fits the row must be there already; one of exactly `TOPIC_MAXLEN`
`char`s hides what its row carried and empties the row behind it. -/
def CopyUnseen (client : Client) (i : Fin numofsubs) (name : Text) : Prop :=
  if strlen name < topicMaxlen then client.carries i name = true
  else
    (∀ other, strlen other < topicMaxlen → client.carries i other = false) ∧
      ∀ j : Fin numofsubs, j.val = i.val + 1 → (client.subscriptions j).topic.name ≠ none →
        client.carries j emptyName = true

/-- The command does not come as far as the copy, or the copy is not seen. -/
def NothingSeen (client : Client) (args : List Text) : Prop :=
  ∀ name ∈ args.head?, strlen name ≤ topicMaxlen → ∀ i ∈ client.firstFree,
    CopyUnseen client i name

/-! ## Where the slots point -/

/-- Every slot with a name points at its own row. -/
def PointsHome (client : Client) : Prop :=
  ∀ i address, (client.subscriptions i).topic.name = some address → address = rowStart i

theorem initial_pointsHome : PointsHome Client.initial := by
  intro i address hname
  simp [Client.initial, Subscription.zero] at hname

theorem pointsHome_of_copy {client : Client} (hclient : PointsHome client) (i : Fin numofsubs)
    (name : Text) (answer : Answer) :
    PointsHome ((client.prepare i name).emcuteSub i answer) := by
  intro j address hname
  rw [subscriptions_emcuteSub_prepare] at hname
  by_cases hj : j = i
  · subst hj
    rw [Function.update_self] at hname
    exact (Option.some.inj hname).symm
  · rw [Function.update_of_ne hj] at hname
    exact hclient j address hname

theorem pointsHome_of_clear {client : Client} (hclient : PointsHome client)
    (i : Fin numofsubs) : PointsHome (client.clear i) := by
  intro j address hname
  by_cases hj : j = i
  · subst hj
    simp [Client.clear, Subscription.zero] at hname
  · simp only [Client.clear, Function.update_of_ne hj] at hname
    exact hclient j address hname

theorem step_pointsHome (world : World) (entry : Entry) (hworld : PointsHome world.client) :
    PointsHome (step ipv6AddrFromStr world entry).client := by
  cases step_change ipv6AddrFromStr world entry with
  | keep hclient hfilledBy => rwa [hclient]
  | fill i name flags hcommand hname hshort hfree hclient hfilledBy =>
      rw [hclient]
      exact pointsHome_of_copy hworld i name _
  | clear i name hcommand hname haccepted hnamed hclient hfilledBy =>
      rw [hclient]
      exact pointsHome_of_clear hworld i

theorem after_pointsHome (entries : List Entry) :
    PointsHome (after (step ipv6AddrFromStr) World.initial entries).client := by
  have hall : Along (step ipv6AddrFromStr) (fun _ _ => True) World.initial entries :=
    along_iff_forall_split.mpr fun _ _ _ _ => trivial
  exact invariant (fun world => PointsHome world.client) initial_pointsHome
    (fun world entry hworld _ => step_pointsHome ipv6AddrFromStr world entry hworld) hall

/-! ## The names the slots carry -/

theorem carries_iff_cstringAt {client : Client} (hclient : PointsHome client)
    {i : Fin numofsubs} {name : Text} :
    client.carries i name = true ↔ (client.subscriptions i).topic.name ≠ none ∧
      CStringAt client.topics (rowStart i) name := by
  unfold Client.carries
  cases hname : (client.subscriptions i).topic.name with
  | none => simp
  | some address =>
      obtain rfl := hclient i address hname
      simp [strcmpEq]

/-- A short name is read from its own row. -/
theorem cstringAt_congr_of_short {memory other : Memory} {i : Fin numofsubs} {name : Text}
    (hshort : strlen name < topicMaxlen)
    (hagree : ∀ cell, rowStart i ≤ cell → cell < rowStart i + topicMaxlen →
      other cell = memory cell) :
    CStringAt other (rowStart i) name ↔ CStringAt memory (rowStart i) name := by
  unfold strlen at hshort
  constructor
  · intro hreads
    exact ReadsAs.congr hreads fun cell hlow hhigh => (hagree cell hlow (by omega)).symm
  · intro hreads
    exact ReadsAs.congr hreads fun cell hlow hhigh => hagree cell hlow (by omega)

section Copying

variable {client : Client} (hclient : PointsHome client) (i : Fin numofsubs) (name : Text)
  (answer : Answer)

include hclient

/-- The slot of a copy carries the name copied. -/
theorem carries_copy_self (other : Text) :
    ((client.prepare i name).emcuteSub i answer).carries i other = decide (other = name) := by
  rw [Bool.eq_iff_iff, carries_iff_cstringAt (pointsHome_of_copy hclient i name answer),
    subscriptions_emcuteSub_prepare, topics_emcuteSub_prepare, Function.update_self,
    decide_eq_true_eq]
  have hreads := cstringAt_strcpy client.topics (rowStart i) name
  constructor
  · intro hother
    exact hother.2.unique hreads
  · intro heq
    rw [heq]
    exact ⟨by simp, hreads⟩

/-- The slots whose row the copy does not reach carry what they carried. -/
theorem carries_copy_of_outside {j : Fin numofsubs} (hne : j ≠ i)
    (houtside : strlen name < topicMaxlen ∨ j.val ≠ i.val + 1) {other : Text}
    (hfits : strlen name ≤ topicMaxlen) (hshort : strlen other < topicMaxlen) :
    ((client.prepare i name).emcuteSub i answer).carries j other = client.carries j other := by
  rw [Bool.eq_iff_iff, carries_iff_cstringAt (pointsHome_of_copy hclient i name answer),
    carries_iff_cstringAt hclient, subscriptions_emcuteSub_prepare, topics_emcuteSub_prepare,
    Function.update_of_ne hne, cstringAt_congr_of_short hshort]
  intro cell hlow hhigh
  refine strcpy_apply_of_outside ?_
  have hval : j.val ≠ i.val := fun heq => hne (Fin.ext heq)
  unfold rowStart topicMaxlen at *
  omega

/-- A name that fills the row empties the row behind it. -/
theorem carries_copy_behind {j : Fin numofsubs} (hj : j.val = i.val + 1)
    (hfull : strlen name = topicMaxlen) (other : Text) :
    ((client.prepare i name).emcuteSub i answer).carries j other = true ↔
      (client.subscriptions j).topic.name ≠ none ∧ other = emptyName := by
  have hne : j ≠ i := by
    intro heq
    subst heq
    omega
  rw [carries_iff_cstringAt (pointsHome_of_copy hclient i name answer),
    subscriptions_emcuteSub_prepare, topics_emcuteSub_prepare, Function.update_of_ne hne]
  -- the terminator of the copy is the first cell of the row
  have hempty : CStringAt (strcpy client.topics (rowStart i) name) (rowStart j) emptyName := by
    have hend := ReadsAs.terminator (cstringAt_strcpy client.topics (rowStart i) name)
    have hcell : rowStart i + name.chars.length = rowStart j := by
      unfold strlen at hfull
      unfold rowStart
      rw [hfull, hj]
      ring
    rwa [hcell] at hend
  refine and_congr_right fun _ => ?_
  constructor
  · intro hother
    exact hother.unique hempty
  · intro heq
    rwa [heq]

end Copying

/-! ## Tables that look alike -/

/-- The same ids, and the same short names in the same slots. -/
structure Alike (client other : Client) : Prop where
  ids : ∀ i, (client.subscriptions i).topic.id = (other.subscriptions i).topic.id
  names : ∀ i name, strlen name < topicMaxlen → client.carries i name = other.carries i name

theorem Alike.firstFree {client other : Client} (halike : Alike client other) :
    client.firstFree = other.firstFree := by
  unfold Client.firstFree
  simp only [halike.ids]

theorem Alike.firstNamed {client other : Client} (halike : Alike client other) {name : Text}
    (hshort : strlen name < topicMaxlen) : client.firstNamed name = other.firstNamed name := by
  unfold Client.firstNamed
  simp only [halike.names _ name hshort]

theorem Alike.copy {client other : Client} (halike : Alike client other)
    (hclient : PointsHome client) (hother : PointsHome other) (i : Fin numofsubs) {name : Text}
    (hshort : strlen name < topicMaxlen) (answer : Answer) :
    Alike ((client.prepare i name).emcuteSub i answer)
      ((other.prepare i name).emcuteSub i answer) := by
  refine ⟨?_, ?_⟩
  · intro j
    rw [subscriptions_emcuteSub_prepare, subscriptions_emcuteSub_prepare]
    by_cases hj : j = i
    · rw [hj, Function.update_self, Function.update_self, halike.ids i]
    · rw [Function.update_of_ne hj, Function.update_of_ne hj, halike.ids j]
  · intro j found hfound
    by_cases hj : j = i
    · rw [hj, carries_copy_self hclient, carries_copy_self hother]
    · rw [carries_copy_of_outside hclient i name answer hj (Or.inl hshort) hshort.le hfound,
        carries_copy_of_outside hother i name answer hj (Or.inl hshort) hshort.le hfound]
      exact halike.names j found hfound

theorem carries_clear_self (client : Client) (i : Fin numofsubs) (name : Text) :
    (client.clear i).carries i name = false := by
  simp [Client.carries, Client.clear, Subscription.zero]

theorem Alike.clear {client other : Client} (halike : Alike client other) (i : Fin numofsubs) :
    Alike (client.clear i) (other.clear i) := by
  refine ⟨?_, ?_⟩
  · intro j
    by_cases hj : j = i
    · simp [hj, Client.clear]
    · simp [Client.clear, Function.update_of_ne hj, halike.ids j]
  · intro j name hshort
    by_cases hj : j = i
    · rw [hj, carries_clear_self, carries_clear_self]
    · rw [carries_clear_of_ne hj, carries_clear_of_ne hj, halike.names j name hshort]

/-- Alike tables, both of whose slots point at their rows. -/
structure Paired (client other : Client) : Prop where
  alike : Alike client other
  home : PointsHome client
  otherHome : PointsHome other

/-- The same short command does the same to paired tables. -/
theorem step_paired (client other : Client) (entry : Entry) (hpaired : Paired client other)
    (hentry : ShortSubOrUnsub entry) :
    seen ipv6AddrFromStr client entry = seen ipv6AddrFromStr other entry ∧
      Paired (clientStep ipv6AddrFromStr client entry)
        (clientStep ipv6AddrFromStr other entry) := by
  obtain ⟨command, args, answers⟩ := entry
  obtain ⟨hcommand, hshort⟩ := hentry
  have halike := hpaired.alike
  have hhome := hpaired.home
  have hotherHome := hpaired.otherHome
  cases args with
  | nil =>
      rcases hcommand with hsub | hunsub
      · obtain rfl : command = .sub := hsub
        exact ⟨rfl, hpaired⟩
      · obtain rfl : command = .unsub := hunsub
        exact ⟨rfl, hpaired⟩
  | cons name rest =>
      have hname : strlen name < topicMaxlen := hshort name rfl
      rcases hcommand with hsub | hunsub
      · obtain rfl : command = .sub := hsub
        simp only [seen, clientStep, run_sub]
        have hsame := halike.firstFree
        cases hfree : client.firstFree with
        | none =>
            rw [hfree] at hsame
            rw [cmdSub_of_full hname.le hfree, cmdSub_of_full hname.le hsame.symm]
            exact ⟨rfl, hpaired⟩
        | some i =>
            rw [hfree] at hsame
            rw [cmdSub_of_free answers rest hname.le hfree,
              cmdSub_of_free answers rest hname.le hsame.symm]
            exact ⟨rfl, halike.copy hhome hotherHome i hname (answers 0),
              pointsHome_of_copy hhome i name _, pointsHome_of_copy hotherHome i name _⟩
      · obtain rfl : command = .unsub := hunsub
        simp only [seen, clientStep, run_unsub]
        have hsame := halike.firstNamed hname
        cases hnamed : client.firstNamed name with
        | none =>
            rw [hnamed] at hsame
            rw [cmdUnsub_of_absent rest hnamed, cmdUnsub_of_absent rest hsame.symm]
            exact ⟨rfl, hpaired⟩
        | some i =>
            rw [hnamed] at hsame
            rw [cmdUnsub_of_named answers rest hnamed,
              cmdUnsub_of_named answers rest hsame.symm]
            dsimp only
            split
            · exact ⟨rfl, halike.clear i, pointsHome_of_clear hhome i,
                pointsHome_of_clear hotherHome i⟩
            · exact ⟨rfl, hpaired⟩

/-- Tables that look alike have the same future. -/
theorem sameFuture_of_alike {client other : Client} (hpaired : Paired client other) :
    SameFuture ipv6AddrFromStr client other := by
  intro entries hentries
  obtain ⟨houtputs, hend⟩ := bisimulation Paired ShortSubOrUnsub
    (step_paired ipv6AddrFromStr) hpaired hentries
  exact ⟨houtputs, fun i => by rw [hend.alike.ids i]⟩

/-! ## Counting the slots of a name -/

/-- The slots that carry a name. -/
abbrev namedSlots (client : Client) (name : Text) : Finset (Fin numofsubs) :=
  places fun i => client.carries i name

theorem namedSlots_clear (client : Client) (i : Fin numofsubs) (name : Text) :
    namedSlots (client.clear i) name = (namedSlots client name).erase i := by
  ext j
  rw [Finset.mem_erase, mem_places, mem_places]
  by_cases hj : j = i
  · simp [hj, carries_clear_self]
  · simp [hj, carries_clear_of_ne hj]

/-- A common future stays common after each command. -/
theorem SameFuture.step {client other : Client}
    (hsame : SameFuture ipv6AddrFromStr client other) {entry : Entry}
    (hentry : ShortSubOrUnsub entry) :
    seen ipv6AddrFromStr client entry = seen ipv6AddrFromStr other entry ∧
      SameFuture ipv6AddrFromStr (clientStep ipv6AddrFromStr client entry)
        (clientStep ipv6AddrFromStr other entry) := by
  have hcons : ∀ entries, (∀ later ∈ entries, ShortSubOrUnsub later) → _ :=
    fun entries hentries =>
      hsame (entry :: entries) (List.forall_mem_cons.mpr ⟨hentry, hentries⟩)
  refine ⟨(List.cons.inj (hcons [] (by simp)).1).1, ?_⟩
  intro entries hentries
  obtain ⟨houtputs, hactive⟩ := hcons entries hentries
  exact ⟨(List.cons.inj houtputs).2, hactive⟩

/-- What is seen of an accepted `cmd_unsub` tells whether a slot carries the name. -/
theorem firstNamed_eq_none_of_seen {client other : Client} {name : Text}
    (hseen : seen ipv6AddrFromStr client (accepted .unsub [name] 0) =
      seen ipv6AddrFromStr other (accepted .unsub [name] 0))
    (hnone : client.firstNamed name = none) : other.firstNamed name = none := by
  cases hnamed : other.firstNamed name with
  | none => rfl
  | some i =>
      simp [seen, accepted, run_unsub, cmdUnsub_of_absent [] hnone,
        cmdUnsub_of_named _ [] hnamed, Outcome.stop] at hseen

/-- An accepted `cmd_unsub` takes one slot of its name away. -/
theorem card_namedSlots_unsub {client : Client} {name : Text}
    (hcarried : client.firstNamed name ≠ none) :
    (namedSlots (clientStep ipv6AddrFromStr client (accepted .unsub [name] 0)) name).card + 1 =
      (namedSlots client name).card := by
  obtain ⟨i, hnamed⟩ := Option.ne_none_iff_exists'.mp hcarried
  have hclient : clientStep ipv6AddrFromStr client (accepted .unsub [name] 0) =
      client.clear i := by
    simp [clientStep, accepted, run_unsub, cmdUnsub_of_named _ [] hnamed, Answer.accepted]
  have hmem : i ∈ namedSlots client name :=
    mem_places.mpr (firstNamed_eq_some_iff.mp hnamed).1
  rw [hclient, namedSlots_clear, Finset.card_erase_add_one hmem]

/-- **Tables with the same future carry every short name equally often**: each
accepted `cmd_unsub` takes one slot of the name away, until there is none. -/
theorem card_namedSlots_eq {client other : Client}
    (hsame : SameFuture ipv6AddrFromStr client other) {name : Text}
    (hshort : strlen name < topicMaxlen) :
    (namedSlots client name).card = (namedSlots other name).card := by
  have hentry : ShortSubOrUnsub (accepted .unsub [name] 0) := ⟨Or.inr rfl, by simpa [accepted]⟩
  induction hcount : (namedSlots client name).card generalizing client other with
  | zero =>
      have hnone := places_eq_empty_iff.mp (Finset.card_eq_zero.mp hcount)
      have hother := firstNamed_eq_none_of_seen ipv6AddrFromStr (hsame.step _ hentry).1 hnone
      have hempty : namedSlots other name = ∅ := places_eq_empty_iff.mpr hother
      rw [hempty, Finset.card_empty]
  | succ count ih =>
      have hcarried : client.firstNamed name ≠ none := by
        intro hnone
        have hempty : namedSlots client name = ∅ := places_eq_empty_iff.mpr hnone
        simp [hempty] at hcount
      obtain ⟨hseen, hnext⟩ := hsame.step ipv6AddrFromStr hentry
      have hother : other.firstNamed name ≠ none := fun hnone =>
        hcarried (firstNamed_eq_none_of_seen ipv6AddrFromStr hseen.symm hnone)
      have hleft := card_namedSlots_unsub ipv6AddrFromStr hcarried
      have hright := card_namedSlots_unsub ipv6AddrFromStr hother
      have hrest := ih hnext (by omega)
      omega

theorem carries_of_card_eq {client other : Client} {name : Text} {i : Fin numofsubs}
    (hcard : (namedSlots client name).card = (namedSlots other name).card)
    (hothers : ∀ j, j ≠ i → client.carries j name = other.carries j name)
    (hcarries : client.carries i name = true) : other.carries i name = true := by
  have hsubset : namedSlots other name ⊆ namedSlots client name := by
    intro j hj
    rw [mem_places] at hj ⊢
    by_cases heq : j = i
    · rwa [heq]
    · rwa [hothers j heq]
  have hmem : i ∈ namedSlots other name := by
    rw [Finset.eq_of_subset_of_card_le hsubset hcard.le]
    exact mem_places.mpr hcarries
  exact mem_places.mp hmem

/-- Tables with the same future that agree on a short name outside one slot agree
in that slot as well. -/
theorem carries_eq_of_sameFuture {client other : Client}
    (hsame : SameFuture ipv6AddrFromStr client other) {name : Text}
    (hshort : strlen name < topicMaxlen) {i : Fin numofsubs}
    (hothers : ∀ j, j ≠ i → client.carries j name = other.carries j name) :
    client.carries i name = other.carries i name := by
  have hcard := card_namedSlots_eq ipv6AddrFromStr hsame hshort
  rw [Bool.eq_iff_iff]
  refine ⟨carries_of_card_eq hcard hothers, carries_of_card_eq hcard.symm ?_⟩
  intro j hj
  exact (hothers j hj).symm

/-! ## A refused subscription -/

theorem carries_unique {client : Client} (hclient : PointsHome client) {i : Fin numofsubs}
    {name other : Text} (hname : client.carries i name = true)
    (hother : client.carries i other = true) : other = name :=
  ((carries_iff_cstringAt hclient).mp hother).2.unique ((carries_iff_cstringAt hclient).mp hname).2

section Refused

variable {client : Client} (hclient : PointsHome client) {i : Fin numofsubs} {name : Text}
  {answer : Answer}

include hclient

/-- The row behind a full one, if its slot carried the empty name before. -/
theorem carries_behind_eq {j : Fin numofsubs} (hj : j.val = i.val + 1)
    (hfull : strlen name = topicMaxlen)
    (hempty : (client.subscriptions j).topic.name ≠ none → client.carries j emptyName = true)
    (other : Text) :
    ((client.prepare i name).emcuteSub i answer).carries j other = client.carries j other := by
  rw [Bool.eq_iff_iff, carries_copy_behind hclient i name answer hj hfull]
  constructor
  · intro hboth
    rw [hboth.2]
    exact hempty hboth.1
  · intro hcarries
    have hnamed := ((carries_iff_cstringAt hclient).mp hcarries).1
    exact ⟨hnamed, carries_unique hclient (hempty hnamed) hcarries⟩

/-- An unseen copy leaves a table that looks alike. -/
theorem alike_of_copyUnseen (hrefused : answer.accepted = false)
    (hfits : strlen name ≤ topicMaxlen) (hunseen : CopyUnseen client i name) :
    Alike ((client.prepare i name).emcuteSub i answer) client := by
  refine ⟨ids_copy_of_same (by simp [hrefused]), ?_⟩
  intro j other hshort
  unfold CopyUnseen at hunseen
  split at hunseen
  · next hname =>
      by_cases hj : j = i
      · subst hj
        rw [carries_copy_self hclient, Bool.eq_iff_iff, decide_eq_true_eq]
        constructor
        · intro heq
          rwa [heq]
        · exact carries_unique hclient hunseen
      · exact carries_copy_of_outside hclient i name answer hj (Or.inl hname) hfits hshort
  · next hname =>
      have hfull : strlen name = topicMaxlen := by omega
      by_cases hj : j = i
      · subst hj
        rw [carries_copy_self hclient, hunseen.1 other hshort, decide_eq_false_iff_not]
        intro heq
        rw [heq] at hshort
        omega
      · by_cases hbehind : j.val = i.val + 1
        · exact carries_behind_eq hclient hbehind hfull (hunseen.2 j hbehind) other
        · exact carries_copy_of_outside hclient i name answer hj (Or.inr hbehind) hfits hshort

/-- If the rest of the session cannot tell, the copy of a short name found it in
the slot already. -/
theorem carries_of_sameFuture (hshort : strlen name < topicMaxlen)
    (hsame : SameFuture ipv6AddrFromStr ((client.prepare i name).emcuteSub i answer) client) :
    client.carries i name = true := by
  have heq := carries_eq_of_sameFuture ipv6AddrFromStr hsame hshort fun j hj =>
    carries_copy_of_outside hclient i name answer hj (Or.inl hshort) hshort.le hshort
  rw [← heq, carries_copy_self hclient, decide_eq_true_eq]

/-- If the rest of the session cannot tell, a name that fills the row has found the
row behind it empty. -/
theorem carries_empty_of_sameFuture (hrefused : answer.accepted = false)
    (hfree : client.firstFree = some i) (hfull : strlen name = topicMaxlen)
    (hsame : SameFuture ipv6AddrFromStr ((client.prepare i name).emcuteSub i answer) client)
    {j : Fin numofsubs} (hj : j.val = i.val + 1)
    (hnamed : (client.subscriptions j).topic.name ≠ none) :
    client.carries j emptyName = true := by
  have hhello : strlen hello < topicMaxlen := by decide
  have hempty : strlen emptyName < topicMaxlen := by decide
  have hne : j ≠ i := by
    intro heq
    subst heq
    omega
  have hcopied := pointsHome_of_copy hclient i name answer
  -- fill the slot with another name in both tables
  have hentry : ShortSubOrUnsub (accepted .sub [hello] 1) :=
    ⟨Or.inl rfl, by simpa [accepted] using hhello⟩
  have hnext := (hsame.step ipv6AddrFromStr hentry).2
  have hstep : ∀ {table : Client}, table.firstFree = some i →
      clientStep ipv6AddrFromStr table (accepted .sub [hello] 1) =
        (table.prepare i hello).emcuteSub i ⟨.ok, 1⟩ := by
    intro table htable
    simp only [clientStep, accepted, run_sub, cmdSub_of_free _ [] hhello.le htable]
  have hstill : ((client.prepare i name).emcuteSub i answer).firstFree = some i :=
    (firstFree_copy_of_same (by simp [hrefused])).trans hfree
  rw [hstep hstill, hstep hfree] at hnext
  have heq := carries_eq_of_sameFuture ipv6AddrFromStr hnext hempty (i := j) ?_
  · rw [carries_copy_of_outside hcopied i hello _ hne (Or.inl hhello) hhello.le hempty,
      carries_copy_of_outside hclient i hello _ hne (Or.inl hhello) hhello.le hempty,
      (carries_copy_behind hclient i name answer hj hfull emptyName).mpr ⟨hnamed, rfl⟩] at heq
    exact heq.symm
  · intro k hk
    by_cases hki : k = i
    · rw [hki, carries_copy_self hcopied, carries_copy_self hclient]
    · have hbehind : k.val ≠ i.val + 1 := by
        intro heq
        exact hk (Fin.ext (heq.trans hj.symm))
      rw [carries_copy_of_outside hcopied i hello _ hki (Or.inl hhello) hhello.le hempty,
        carries_copy_of_outside hclient i hello _ hki (Or.inl hhello) hhello.le hempty,
        carries_copy_of_outside hclient i name answer hki (Or.inr hbehind) hfull.le hempty]

/-- If the rest of the session cannot tell, the copy was not seen. -/
theorem copyUnseen_of_sameFuture (hrefused : answer.accepted = false)
    (hfree : client.firstFree = some i) (hfits : strlen name ≤ topicMaxlen)
    (hsame : SameFuture ipv6AddrFromStr ((client.prepare i name).emcuteSub i answer) client) :
    CopyUnseen client i name := by
  unfold CopyUnseen
  split
  · next hshort => exact carries_of_sameFuture ipv6AddrFromStr hclient hshort hsame
  · next hname =>
      have hfull : strlen name = topicMaxlen := by omega
      have hbehind : ∀ j : Fin numofsubs, j.val = i.val + 1 →
          (client.subscriptions j).topic.name ≠ none → client.carries j emptyName = true :=
        fun j => carries_empty_of_sameFuture ipv6AddrFromStr hclient hrefused hfree hfull hsame
      refine ⟨?_, hbehind⟩
      intro other hother
      -- only the row of the copy can have changed
      have heq := carries_eq_of_sameFuture ipv6AddrFromStr hsame hother (i := i) ?_
      · rw [← heq, carries_copy_self hclient, decide_eq_false_iff_not]
        intro hsameName
        rw [hsameName] at hother
        omega
      · intro j hj
        by_cases hnext : j.val = i.val + 1
        · exact carries_behind_eq hclient hnext hfull (hbehind j hnext) other
        · exact carries_copy_of_outside hclient i name answer hj (Or.inr hnext) hfits hother

end Refused

/-! ## The main statement -/

/-- **When a failed subscription leaves no trace.**  In every table the shell can
reach, the sequences of `cmd_sub` and `cmd_unsub` with short names that follow a
`cmd_sub` that returns 1 go as if it had not been issued, if and only if it was
rejected before the copy or the copy changed no short name of a slot. -/
theorem no_trace_iff (before : List Entry) (args : List Text) (answers : ℕ → Answer)
    (hret : (cmdSub answers args
      (after (step ipv6AddrFromStr) World.initial before).client).ret = 1) :
    SameFuture ipv6AddrFromStr
      (cmdSub answers args (after (step ipv6AddrFromStr) World.initial before).client).client
      (after (step ipv6AddrFromStr) World.initial before).client ↔
    NothingSeen (after (step ipv6AddrFromStr) World.initial before).client args := by
  have hhome := after_pointsHome ipv6AddrFromStr before
  generalize (after (step ipv6AddrFromStr) World.initial before).client = client at hret hhome ⊢
  have hsame : SameFuture ipv6AddrFromStr client client := fun _ _ => ⟨rfl, fun _ => Iff.rfl⟩
  cases args with
  | nil => exact iff_of_true hsame (by simp [NothingSeen])
  | cons name rest =>
      have hseen : NothingSeen client (name :: rest) ↔
          (strlen name ≤ topicMaxlen → ∀ i ∈ client.firstFree, CopyUnseen client i name) := by
        simp [NothingSeen]
      rw [hseen]
      rcases Nat.lt_or_ge topicMaxlen (strlen name) with hlong | hfits
      · rw [cmdSub_of_long hlong]
        exact iff_of_true hsame fun hfits => absurd hfits hlong.not_ge
      · cases hfree : client.firstFree with
        | none =>
            rw [cmdSub_of_full hfits hfree]
            exact iff_of_true hsame (by simp)
        | some i =>
            rw [cmdSub_of_free answers rest hfits hfree] at hret ⊢
            have hrefused : (answers 0).accepted = false := by
              simpa using hret
            constructor
            · intro hfuture _ j hj
              obtain rfl : i = j := Option.some.inj hj
              exact copyUnseen_of_sameFuture ipv6AddrFromStr hhome hrefused hfree hfits hfuture
            · intro hunseen
              exact sameFuture_of_alike ipv6AddrFromStr
                ⟨alike_of_copyUnseen hhome hrefused hfits (hunseen hfits i rfl),
                  pointsHome_of_copy hhome i name _, hhome⟩

/-- A `cmd_sub` that is refused. -/
def refusal : ℕ → Answer := fun _ => ⟨.failed, 0⟩

theorem no_trace_iff_hello :
    SameFuture (fun _ => none) (cmdSub refusal [hello] Client.initial).client Client.initial ↔
      NothingSeen Client.initial [hello] :=
  no_trace_iff (fun _ => none) [] [hello] refusal (by decide)

/-- The first `cmd_sub` is refused; a `cmd_unsub` of its name then makes a request,
which it would not without it. -/
theorem exists_trace :
    ¬ ∀ (ipv6AddrFromStr : Text → Option Ipv6Addr) (before : List Entry) (args : List Text)
      (answers : ℕ → Answer), (∀ entry ∈ before, entry.command = .sub ∨ entry.command = .unsub) →
      (cmdSub answers args (after (step ipv6AddrFromStr) World.initial before).client).ret = 1 →
        SameFuture ipv6AddrFromStr
          (cmdSub answers args (after (step ipv6AddrFromStr) World.initial before).client).client
          (after (step ipv6AddrFromStr) World.initial before).client := by
  intro hclaim
  have hsame := hclaim (fun _ => none) [] [hello] refusal (by simp) (by decide)
  have houtputs := (hsame [accepted .unsub [hello] 0] (by decide)).1
  exact absurd houtputs (by decide)

end AwsIotSensors.Emcute
