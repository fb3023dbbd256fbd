import Stagehand.Decimal.Shortest

/-!
# Durations as seconds

A duration is a whole number of milliseconds. Its seconds are the double nearest to the whole
seconds plus the double nearest to the fraction; both roundings show in long texts.
-/

namespace Stagehand.Decimal

def seconds (millis : Nat) : Binary :=
  let whole := Float.ofNat (millis / 1000)
  let fraction := Float.ofNat (millis % 1000 * 1000000) / 1000000000.0
  Binary.ofBits (whole + fraction).toBits

/-- Seconds in their shortest form. -/
def secondsText (millis : Nat) : String := (seconds millis).render

/-- Seconds with two places. -/
def secondsToHundredths (millis : Nat) : String := (seconds millis).fixed 2

end Stagehand.Decimal
