import InputScript.Instruction
import InputScript.Point

namespace InputScript

structure Program where
  instructions : Array Instruction
  positions : Array Point
deriving DecidableEq

/-- The place in a table of `size` entries that the count `n` names: a negative count is taken from
the end, and none lies outside the table. -/
def cutPlace (size : Nat) (n : Int) : Nat :=
  if 0 ≤ n then min n.toNat size else size - n.natAbs

namespace Program

def empty : Program :=
  ⟨#[], #[]⟩

def isEmpty (p : Program) : Bool :=
  p.instructions.isEmpty

def size (p : Program) : Nat :=
  p.instructions.size

def emit (p : Program) (i : Instruction) : Program :=
  { p with instructions := p.instructions.push i }

def addPosition (p : Program) (position : Point) : Program :=
  { p with positions := p.positions.push position }

def truncate (p : Program) (instructions positions : Int) : Program :=
  ⟨p.instructions.take (cutPlace p.instructions.size instructions),
    p.positions.take (cutPlace p.positions.size positions)⟩

def clear (p : Program) : Program :=
  p.truncate 0 0

def words (p : Program) : List Nat :=
  p.instructions.toList.map Instruction.encode

def ofWords (words : List Int) (positions : Array Point) : Except WordError Program := do
  let instructions ← words.mapM Instruction.decode
  return ⟨instructions.toArray, positions⟩

def ofPairs (pairs : List (Opcode × Int)) (positions : Array Point) :
    Except OperandError Program := do
  let instructions ← pairs.mapM fun (opcode, operand) => Instruction.ofOperand opcode operand
  return ⟨instructions.toArray, positions⟩

end Program

end InputScript
