namespace InputScript.Text

def isBlank (c : Char) : Bool :=
  let n := c.toNat
  (9 ≤ n && n ≤ 13) || (28 ≤ n && n ≤ 32) || n == 0x85 || n == 0xa0 || n == 0x1680 ||
    (0x2000 ≤ n && n ≤ 0x200a) || n == 0x2028 || n == 0x2029 || n == 0x202f || n == 0x205f ||
    n == 0x3000

def isSpace (c : Char) : Bool :=
  isBlank c && !(28 ≤ c.toNat && c.toNat ≤ 31)

def trim (p : Char → Bool) (cs : List Char) : List Char :=
  ((cs.dropWhile p).reverse.dropWhile p).reverse

def trimBlanks (cs : List Char) : List Char :=
  trim isBlank cs

def trimSpaces (cs : List Char) : List Char :=
  trim isSpace cs

example : String.ofList (trimBlanks " \t4 2\n".toList) = "4 2" := by decide
example : trimBlanks ['\x1c', '4'] = ['4'] ∧ trimSpaces ['\x1c', '4'] = ['\x1c', '4'] := by decide

end InputScript.Text
