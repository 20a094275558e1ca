import InputScript.Number.Binary64
import InputScript.Instruction

namespace InputScript

def longestPiece : Nat := 4096

def shortestSleep : Rat :=
  Number.Binary64.nearest (1 / 1000)

/-- The milliseconds nearest to a part of a second, whose product with a thousand is rounded as a
floating-point number first. -/
def milliseconds (fraction : Rat) : Nat :=
  (Number.roundHalfEven (Number.Binary64.nearest (fraction * 1000))).toNat

theorem milliseconds_le {fraction : Rat} (h0 : 0 ≤ fraction) (h1 : fraction ≤ 1) :
    milliseconds fraction ≤ 1000 := by
  have hle : fraction * 1000 ≤ ((1000 : Int) : Rat) := by
    have := Rat.mul_le_mul_of_nonneg_right h1 (show (0 : Rat) ≤ 1000 by decide)
    grind
  have hpos : 0 ≤ fraction * 1000 := Rat.mul_nonneg h0 (by decide)
  have := Number.roundHalfEven_le (Number.Binary64.nearest_le hpos (by decide) hle)
  unfold milliseconds
  omega

def fractionPart (x : Rat) : Rat :=
  x - x.floor

theorem fractionPart_nonneg (x : Rat) : 0 ≤ fractionPart x := by
  have := Rat.floor_le x
  unfold fractionPart
  grind

theorem fractionPart_le_one (x : Rat) : fractionPart x ≤ 1 := by
  have := Rat.lt_floor (x := x)
  unfold fractionPart
  grind

namespace Instruction

def sleepPiece : Instruction :=
  ⟨.sleepSec, longestPiece, by decide⟩

def sleepRest (whole : Nat) : Instruction :=
  ⟨.sleepSec, (whole - 1) % longestPiece + 1, by
    unfold longestPiece maxOperand
    omega⟩

def sleepFraction (seconds : Rat) : Instruction :=
  ⟨.sleepMs, milliseconds (fractionPart seconds), by
    have := milliseconds_le (fractionPart_nonneg seconds) (fractionPart_le_one seconds)
    unfold maxOperand
    omega⟩

def sleepWhole (whole : Nat) : List Instruction :=
  if whole = 0 then []
  else List.replicate ((whole - 1) / longestPiece) sleepPiece ++ [sleepRest whole]

def sleep (seconds : Rat) : List Instruction :=
  if seconds < shortestSleep then []
  else
    sleepWhole seconds.floor.toNat ++
      (if fractionPart seconds = 0 then [] else [sleepFraction seconds])

end Instruction

end InputScript
