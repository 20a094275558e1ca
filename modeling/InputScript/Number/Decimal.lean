import InputScript.Number.Binary64
import InputScript.Number.Integer

namespace InputScript.Number

structure Decimal where
  negative : Bool
  significand : Nat
  length : Nat
  exponent : Int
deriving DecidableEq

namespace Decimal

def readExponent? : List Char → Option Int
  | [] => some 0
  | c :: rest =>
    if c = 'e' ∨ c = 'E' then do
      let (negative, cs) := splitSign rest
      let digits ← digits? cs
      if digits.isEmpty then none else some (withSign negative (ofDigits digits))
    else
      none

def splitFraction : List Char → List Char × List Char
  | '.' :: rest => rest.span isDigit
  | cs => ([], cs)

def read? (text : String) : Option Decimal := do
  let (negative, signless) := splitSign (Text.trimBlanks text.toList)
  let cs ← dropSeparators? false signless
  let (whole, afterWhole) := cs.span isDigit
  let (fraction, afterFraction) := splitFraction afterWhole
  let digits ← digits? (whole ++ fraction)
  let exponent ← readExponent? afterFraction
  if digits.isEmpty then none
  else some ⟨negative, ofDigits digits, digits.length, exponent - fraction.length⟩

def value (d : Decimal) : Rat :=
  (withSign d.negative d.significand : Rat) * (10 : Rat) ^ d.exponent

/-- The nearest floating-point number, if it is finite. A number of `n` digits lies below `10 ^ n`,
so the exponent tells the numbers that are far outside the range before any power is computed. -/
def toBinary64? (d : Decimal) : Option Rat :=
  if d.significand = 0 then some 0
  else if 400 < d.exponent then none
  else if d.exponent + d.length < -400 then some 0
  else Binary64.round? d.value

end Decimal

def readBinary64? (text : String) : Option Rat := do
  (← Decimal.read? text).toBinary64?

example : Decimal.read? "-1_2.50e-3" = some ⟨true, 1250, 4, -5⟩ := by decide
example : Decimal.read? "." = none ∧ Decimal.read? "1e" = none ∧ Decimal.read? "1_.5" = none := by decide
example : readBinary64? " .5" = some (1 / 2) := by decide +kernel
example : readBinary64? "1e999999999" = none ∧ readBinary64? "inf" = none := by decide

end InputScript.Number
