import AwsIotSensors.Lib.Json

/-!
# The shadow update

Every sensor sends its readings as the desired state of its device shadow, a JSON
document with the readings two objects deep.  The programs differ in their
readings and in their blanks only: `reads_update` reads the two outer objects
wherever the blanks stand.
-/

namespace AwsIotSensors.Shadow

open Json

/-- The document that reports the given readings. -/
def update (readings : List (String × Value)) : Value :=
  .object [("state", .object [("desired", .object readings)])]

/-- The text of a shadow update is read as the update of its readings. -/
theorem reads_update {depth count : ℕ} {readings : List Char}
    {result : Option (List (String × Value))}
    (hreadings : ReadsMembers depth count readings result)
    {before₁ before₂ between₁ between₂ blanks₁ blanks₂ after₁ after₂ : List Char}
    (hbefore₁ : Blanks before₁) (hbefore₂ : Blanks before₂) (hbetween₁ : Blanks between₁)
    (hbetween₂ : Blanks between₂) (hblanks₁ : Blanks blanks₁) (hblanks₂ : Blanks blanks₂)
    (hafter₁ : Blanks after₁) (hafter₂ : Blanks after₂) :
    Reads (depth + 1 + 1 + 1)
      ('{' :: (memberText before₁ "state".toList between₁ (blanks₁ ++
        '{' :: (memberText before₂ "desired".toList between₂ (blanks₂ ++ '{' :: readings) ++
          (after₂ ++ ['}']))) ++ (after₁ ++ ['}'])))
      (result.map update) := by
  have hinner := (reads_object hreadings).blanks hblanks₂
  have hdesired := reads_object (readsMembers_last hbefore₂ (by decide : PlainName "desired".toList)
    hbetween₂ hinner hafter₂)
  have hstate := reads_object (readsMembers_last hbefore₁ (by decide : PlainName "state".toList)
    hbetween₁ (hdesired.blanks hblanks₁) hafter₁)
  cases result with
  | none => exact hstate
  | some read => simpa [update] using hstate

end AwsIotSensors.Shadow
