namespace InputScript

inductive Opcode where
  | sleepMs
  | sleepSec
  | keyUp
  | keyDown
  | keyClick
  | buttonUp
  | buttonDown
  | buttonClick
  | pointerGoto
  | pointerWhere
  | loopBegin
  | loopEnd
deriving DecidableEq, Inhabited

namespace Opcode

def all : List Opcode :=
  [.sleepMs, .sleepSec, .keyUp, .keyDown, .keyClick, .buttonUp, .buttonDown, .buttonClick,
    .pointerGoto, .pointerWhere, .loopBegin, .loopEnd]

def code : Opcode → Nat
  | .sleepMs => 0
  | .sleepSec => 1
  | .keyUp => 2
  | .keyDown => 3
  | .keyClick => 4
  | .buttonUp => 5
  | .buttonDown => 6
  | .buttonClick => 7
  | .pointerGoto => 8
  | .pointerWhere => 9
  | .loopBegin => 10
  | .loopEnd => 11

def ofCode? : Nat → Option Opcode
  | 0 => some .sleepMs
  | 1 => some .sleepSec
  | 2 => some .keyUp
  | 3 => some .keyDown
  | 4 => some .keyClick
  | 5 => some .buttonUp
  | 6 => some .buttonDown
  | 7 => some .buttonClick
  | 8 => some .pointerGoto
  | 9 => some .pointerWhere
  | 10 => some .loopBegin
  | 11 => some .loopEnd
  | _ => none

def name : Opcode → String
  | .sleepMs => "SLEEP_MS"
  | .sleepSec => "SLEEP_SEC"
  | .keyUp => "KEY_UP"
  | .keyDown => "KEY_DOWN"
  | .keyClick => "KEY_CLICK"
  | .buttonUp => "BUTTON_UP"
  | .buttonDown => "BUTTON_DOWN"
  | .buttonClick => "BUTTON_CLICK"
  | .pointerGoto => "POINTER_GOTO"
  | .pointerWhere => "POINTER_WHERE"
  | .loopBegin => "LOOP_BEGIN"
  | .loopEnd => "LOOP_END"

def ofName? (name : String) : Option Opcode :=
  all.find? (·.name == name)

theorem code_lt (op : Opcode) : op.code < 16 := by
  cases op <;> decide

@[simp] theorem ofCode?_code (op : Opcode) : ofCode? op.code = some op := by
  cases op <;> rfl

theorem code_of_ofCode? {n : Nat} {op : Opcode} (h : ofCode? n = some op) : op.code = n := by
  unfold ofCode? at h
  split at h <;> simp_all [code] <;> (subst h; rfl)

theorem ofCode?_eq_none {n : Nat} : ofCode? n = none ↔ 11 < n := by
  constructor
  · intro h
    unfold ofCode? at h
    split at h <;> simp_all
    omega
  · intro h
    unfold ofCode?
    split <;> simp_all

end Opcode

end InputScript
