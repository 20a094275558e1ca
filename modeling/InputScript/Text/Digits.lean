namespace InputScript.Text

def padLeft (width : Nat) (c : Char) (text : String) : String :=
  String.ofList (text.toList.leftpad width c)

def padRight (width : Nat) (c : Char) (text : String) : String :=
  String.ofList (text.toList.rightpad width c)

def decimal (n : Nat) : String :=
  String.ofList (Nat.toDigits 10 n)

def signedDecimal (n : Int) : String :=
  if n < 0 then "-" ++ decimal n.natAbs else decimal n.natAbs

def hex (width : Nat) (n : Nat) : String :=
  padLeft width '0' (String.ofList (Nat.toDigits 16 n))

def upperHex (width : Nat) (n : Nat) : String :=
  padLeft width '0' (String.ofList ((Nat.toDigits 16 n).map Char.toUpper))

def signedUpperHex (n : Int) : String :=
  if n < 0 then "-" ++ upperHex 1 n.natAbs else upperHex 1 n.natAbs

example : signedDecimal (-20) = "-20" ∧ upperHex 4 2748 = "0ABC" ∧ hex 2 11 = "0b" := by decide
example : upperHex 2 8191 = "1FFF" ∧ signedUpperHex (-1) = "-1" := by decide
example : padRight 4 ' ' "ab" = "ab  " ∧ padLeft 1 ' ' "ab" = "ab" := by decide

end InputScript.Text
