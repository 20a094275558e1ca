import InputScript.Text.Digits
import InputScript.Text.Printable

/-!
Text between quotation marks, as messages show it. Single marks are used unless the text holds one
and no double mark; the mark in use, backslashes and characters that are not printable are escaped.
-/

namespace InputScript.Text

def quotationMark (cs : List Char) : Char :=
  if cs.contains '\x27' && !cs.contains '\x22' then '\x22' else '\x27'

def escape (mark c : Char) : List Char :=
  if c = mark ∨ c = '\\' then ['\\', c]
  else if c = '\t' then ['\\', 't']
  else if c = '\n' then ['\\', 'n']
  else if c = '\r' then ['\\', 'r']
  else if isPrintable c then [c]
  else if c.toNat < 0x100 then '\\' :: 'x' :: (hex 2 c.toNat).toList
  else if c.toNat < 0x10000 then '\\' :: 'u' :: (hex 4 c.toNat).toList
  else '\\' :: 'U' :: (hex 8 c.toNat).toList

def quoted (text : String) : String :=
  let mark := quotationMark text.toList
  String.ofList (mark :: text.toList.flatMap (escape mark) ++ [mark])

def quotedChar (c : Char) : String :=
  quoted (String.singleton c)

example : quotedChar '\n' = "'\\n'" := by decide
example : quoted "it's" = "\"it's\"" := by decide
example : quoted "'\"" = "'\\'\"'" := by decide
example : quotedChar '\x07' = "'\\x07'" := by decide

end InputScript.Text
