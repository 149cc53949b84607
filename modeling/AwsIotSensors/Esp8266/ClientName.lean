import AwsIotSensors.Esp8266.Loop
import AwsIotSensors.Lib.PlainText

/-!
# The MQTT client name

`setup` builds the client name from the prefix `esp8266-`, the six bytes of the
MAC address and a byte of the clock, all in hexadecimal without leading zeros.
No field has a fixed width, so the name is read by its separators: no digit is a
`-` or a `:`.  Two boards with the same name have the same address
(`clientName_inj`), whatever their clocks say.
-/

namespace AwsIotSensors.Esp8266

open PlainText

theorem toList_hex (x : ℕ) : (hex x).toList = Nat.toDigits 16 x := by
  simp [hex]

/-- A hexadecimal digit is none of the separators. -/
theorem digitChar_ne_sep {digit : ℕ} (hdigit : digit < 16) :
    Nat.digitChar digit ≠ ':' ∧ Nat.digitChar digit ≠ '-' := by
  interval_cases digit <;> decide

theorem notMem_hex {sep : Char} (hsep : sep = ':' ∨ sep = '-') (x : ℕ) :
    sep ∉ Nat.toDigits 16 x := by
  intro hmem
  obtain ⟨digit, hdigit, rfl⟩ := exists_of_mem_toDigits (by decide) hmem
  obtain ⟨hcolon, hdash⟩ := digitChar_ne_sep hdigit
  exact hsep.elim hcolon hdash

/-- The digits of the six bytes. -/
def macDigits (mac : Fin 6 → UInt8) : List (List Char) :=
  List.ofFn fun i => Nat.toDigits 16 (mac i).toNat

/-- The loop of `macToStr` joins the bytes by `:`. -/
theorem toList_macToStr (mac : Fin 6 → UInt8) :
    (macToStr mac).toList = List.intercalate [':'] (macDigits mac) := by
  simp [macToStr, macDigits, toList_hex, List.finRange_succ, List.ofFn_succ, List.intercalate]

theorem dash_notMem_macToStr (mac : Fin 6 → UInt8) : '-' ∉ (macToStr mac).toList := by
  have hdash : ∀ x, '-' ∉ Nat.toDigits 16 x := notMem_hex (Or.inr rfl)
  simp [toList_macToStr, macDigits, List.ofFn_succ, List.intercalate, hdash]

/-- `macToStr` tells any two addresses apart. -/
theorem macToStr_inj {mac other : Fin 6 → UInt8} (heq : macToStr mac = macToStr other) :
    mac = other := by
  have hcolon : ∀ address : Fin 6 → UInt8, ∀ part ∈ macDigits address, ':' ∉ part := by
    intro address part hpart
    obtain ⟨i, rfl⟩ := (List.mem_ofFn' _ _).mp hpart
    exact notMem_hex (Or.inl rfl) _
  have hne : ∀ address : Fin 6 → UInt8, macDigits address ≠ [] := by
    intro address
    simp [macDigits, List.ofFn_succ]
  have hjoined := congrArg String.toList heq
  rw [toList_macToStr, toList_macToStr] at hjoined
  have hdigits : macDigits mac = macDigits other :=
    intercalate_inj (hcolon mac) (hcolon other) (hne mac) (hne other) hjoined
  funext i
  have hbyte : Nat.toDigits 16 (mac i).toNat = Nat.toDigits 16 (other i).toNat :=
    congrFun (List.ofFn_injective hdigits) i
  exact UInt8.toNat_inj.mp (toDigits_inj (by decide) le_rfl hbyte)

/-- What the name determines: the address and the last byte of the clock. -/
theorem clientName_eq_iff (mac other : Fin 6 → UInt8) (micros otherMicros : ℕ) :
    (setup mac micros).clientName = (setup other otherMicros).clientName ↔
      mac = other ∧ micros &&& 0xff = otherMicros &&& 0xff := by
  have hchars : ∀ address clock, ((setup address clock).clientName).toList =
      "esp8266-".toList ++ ((macToStr address).toList ++ '-' :: (hex (clock &&& 0xff)).toList) := by
    intro address clock
    simp [setup]
  constructor
  · intro heq
    have htail := congrArg String.toList heq
    rw [hchars, hchars, List.append_cancel_left_eq] at htail
    -- the first dash after the prefix ends the address
    obtain ⟨hmac, hbyte⟩ := append_cons_inj (dash_notMem_macToStr mac)
      (dash_notMem_macToStr other) htail
    rw [toList_hex, toList_hex] at hbyte
    exact ⟨macToStr_inj (String.toList_inj.mp hmac), toDigits_inj (by decide) le_rfl hbyte⟩
  · intro hboth
    obtain ⟨rfl, hbyte⟩ := hboth
    rw [setup, setup, hbyte]

/-- **The client name determines the MAC address.** -/
theorem clientName_inj (mac other : Fin 6 → UInt8) (micros otherMicros : ℕ)
    (heq : (setup mac micros).clientName = (setup other otherMicros).clientName) :
    mac = other :=
  ((clientName_eq_iff mac other micros otherMicros).mp heq).1

theorem clientName_inj_self :
    (setup (fun _ => 10) 300).clientName = (setup (fun _ => 10) 44).clientName ∧
      (fun _ : Fin 6 => (10 : UInt8)) = fun _ => 10 :=
  ⟨by decide, clientName_inj (fun _ => 10) (fun _ => 10) 300 44 (by decide)⟩

end AwsIotSensors.Esp8266
