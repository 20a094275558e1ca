import InputScript.Text.Blank
import InputScript.Text.DecimalDigit

namespace InputScript.Number

def maxIntegerDigits : Nat := 4300

def isDigit (c : Char) : Bool :=
  (Text.digitValue? c).isSome

def dropSeparators? (afterDigit : Bool) : List Char → Option (List Char)
  | [] => some []
  | c :: rest =>
    if c = '_' then
      if afterDigit && rest.head?.any isDigit then dropSeparators? false rest else none
    else
      (dropSeparators? (isDigit c) rest).map (c :: ·)

def splitSign : List Char → Bool × List Char
  | '-' :: rest => (true, rest)
  | '+' :: rest => (false, rest)
  | cs => (false, cs)

def digits? (cs : List Char) : Option (List Nat) :=
  cs.mapM Text.digitValue?

def ofDigits (digits : List Nat) : Nat :=
  digits.foldl (fun n digit => 10 * n + digit) 0

def withSign (negative : Bool) (n : Nat) : Int :=
  if negative then -n else n

def integer? (cs : List Char) : Option Int := do
  let (negative, cs) := splitSign cs
  let digits ← digits? (← dropSeparators? false cs)
  if digits.isEmpty ∨ maxIntegerDigits < digits.length then none
  else some (withSign negative (ofDigits digits))

def readInteger? (text : String) : Option Int :=
  integer? (Text.trimBlanks text.toList)

example : readInteger? " -1_0 " = some (-10) := by decide
example : readInteger? "1__0" = none ∧ readInteger? "_1" = none ∧ readInteger? "1_" = none := by decide
example : readInteger? "" = none ∧ readInteger? "+" = none ∧ readInteger? "+-1" = none := by decide

end InputScript.Number
