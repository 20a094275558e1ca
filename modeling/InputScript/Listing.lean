import InputScript.Program
import InputScript.Symbol

namespace InputScript

def rawOperand (operand : Nat) : String :=
  "0x" ++ Text.upperHex 2 operand

def keyText (operand : Nat) : String :=
  match Key.ofCode? operand with
  | some k => k.name
  | none => rawOperand operand

def buttonText (operand : Nat) : String :=
  match Button.ofCode? operand with
  | some b => b.name
  | none => rawOperand operand

def positionText (positions : Array Point) (operand : Nat) : String :=
  match positions[operand]? with
  | some position => position.text
  | none => "(invalid)"

def overwritesLine (operand : Nat) : Bool :=
  operand % 2 == 1

namespace Program

def describe (p : Program) (i : Instruction) : String :=
  match i.opcode with
  | .keyUp | .keyDown | .keyClick => i.opcode.name ++ " " ++ keyText i.operand
  | .buttonUp | .buttonDown | .buttonClick => i.opcode.name ++ " " ++ buttonText i.operand
  | .pointerGoto =>
    i.opcode.name ++ " #" ++ Text.decimal i.operand ++ " " ++ positionText p.positions i.operand
  | .pointerWhere => if overwritesLine i.operand then i.opcode.name ++ " !" else i.opcode.name
  | .loopBegin =>
    i.opcode.name ++ " " ++ (if i.operand = 0 then "forever" else Text.decimal i.operand)
  | .loopEnd => i.opcode.name
  | .sleepMs | .sleepSec => i.opcode.name ++ " " ++ Text.decimal i.operand

def addressText (address : Nat) : String :=
  "0x" ++ Text.upperHex 4 address ++ ": "

def indentation (depth : Nat) : String :=
  String.ofList (List.replicate (2 * depth) ' ')

def depthAt (depth : Nat) (i : Instruction) : Nat :=
  if i.opcode = .loopEnd then depth - 1 else depth

def depthAfter (depth : Nat) (i : Instruction) : Nat :=
  if i.opcode = .loopBegin then depth + 1 else depthAt depth i

def linesFrom (p : Program) (address depth : Nat) : List Instruction → List String
  | [] => []
  | i :: rest =>
    (addressText address ++ indentation (depthAt depth i) ++ p.describe i) ::
      p.linesFrom (address + 1) (depthAfter depth i) rest

def listing (p : Program) : List String :=
  p.linesFrom 0 0 p.instructions.toList

end Program

end InputScript
