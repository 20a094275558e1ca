import InputScript.Opcode
import InputScript.Text.Digits

/-!
An instruction is an operation with one operand of thirteen bits. It packs into a word of seventeen
bits: the code of the operation in the low four, the operand above it.
-/

namespace InputScript

def maxOperand : Nat := 8191

structure Instruction where
  opcode : Opcode
  operand : Nat
  operand_le : operand ≤ maxOperand
deriving DecidableEq

structure OperandError where
  opcode : Opcode
  operand : Int
deriving DecidableEq

def OperandError.message (e : OperandError) : String :=
  "operand " ++ Text.signedDecimal e.operand ++ " out of range for " ++ e.opcode.name ++ " (0.."
    ++ Text.decimal maxOperand ++ ")"

inductive WordError where
  | outOfRange (word : Int)
  | unknownCode (code : Nat)
deriving DecidableEq

def WordError.message : WordError → String
  | .outOfRange word => "instruction word 0x" ++ Text.signedUpperHex word ++ " out of range"
  | .unknownCode code => Text.decimal code ++ " is not a valid Opcode"

namespace Instruction

def ofOperand (opcode : Opcode) (operand : Int) : Except OperandError Instruction :=
  if h : 0 ≤ operand ∧ operand ≤ 8191 then
    .ok ⟨opcode, operand.toNat, by unfold maxOperand; omega⟩
  else
    .error ⟨opcode, operand⟩

def encode (i : Instruction) : Nat :=
  i.opcode.code + 16 * i.operand

def decode (word : Int) : Except WordError Instruction :=
  if h : 0 ≤ word ∧ word < 131072 then
    match Opcode.ofCode? (word.toNat % 16) with
    | some opcode => .ok ⟨opcode, word.toNat / 16, by unfold maxOperand; omega⟩
    | none => .error (.unknownCode (word.toNat % 16))
  else
    .error (.outOfRange word)

def text (i : Instruction) : String :=
  i.opcode.name ++ "(" ++ Text.decimal i.operand ++ ")"

theorem encode_lt (i : Instruction) : i.encode < 131072 := by
  have hc := i.opcode.code_lt
  have ho := i.operand_le
  unfold encode
  unfold maxOperand at ho
  omega

@[simp] theorem decode_encode (i : Instruction) : decode i.encode = .ok i := by
  have hc := i.opcode.code_lt
  have hlt := i.encode_lt
  have hlow : i.encode % 16 = i.opcode.code := by unfold encode; omega
  have hhigh : i.encode / 16 = i.operand := by unfold encode; omega
  unfold decode
  rw [dif_pos (by omega)]
  simp only [Int.toNat_natCast, hlow, hhigh, Opcode.ofCode?_code]

example : (⟨.loopBegin, 3, by decide⟩ : Instruction).encode = 58 := by decide
example : (⟨.keyClick, 10, by decide⟩ : Instruction).text = "KEY_CLICK(10)" := by decide
example : decode 15 = .error (.unknownCode 15) := rfl
example : (WordError.outOfRange 131072).message = "instruction word 0x20000 out of range" := by decide
example : (OperandError.mk .sleepSec (-1)).message = "operand -1 out of range for SLEEP_SEC (0..8191)" := by
  decide

end Instruction

end InputScript
