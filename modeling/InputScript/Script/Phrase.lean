import InputScript.Number.Decimal
import InputScript.Program
import InputScript.Script.Fault
import InputScript.Script.Sleep
import InputScript.Symbol

namespace InputScript

inductive Stroke where
  | click
  | press
  | release
deriving DecidableEq

namespace Instruction

def key (stroke : Stroke) (k : Key) : Instruction :=
  ⟨match stroke with
    | .click => .keyClick
    | .press => .keyDown
    | .release => .keyUp,
    k.code, by
    have := k.code_lt
    unfold maxOperand
    omega⟩

def button (stroke : Stroke) (b : Button) : Instruction :=
  ⟨match stroke with
    | .click => .buttonClick
    | .press => .buttonDown
    | .release => .buttonUp,
    b.code, by cases b <;> decide⟩

def pointerQuery (overwrite : Bool) : Instruction :=
  ⟨.pointerWhere, if overwrite then 1 else 0, by cases overwrite <;> decide⟩

def loopEnd : Instruction :=
  ⟨.loopEnd, 0, by decide⟩

def loopBegin (count : Int) (h : count ≤ 8191) : Instruction :=
  ⟨.loopBegin, count.toNat, by
    unfold maxOperand
    omega⟩

end Instruction

inductive Phrase where
  | emit (instructions : List Instruction)
  | move (position : Point)
deriving DecidableEq

def Program.add (p : Program) : Phrase → Except Fault Program
  | .emit instructions => .ok ⟨p.instructions.appendList instructions, p.positions⟩
  | .move position =>
    if h : p.positions.size ≤ maxOperand then
      .ok ⟨p.instructions.push ⟨.pointerGoto, p.positions.size, h⟩, p.positions.push position⟩
    else
      .error .tooManyPositions

def readNumber (role : IntegerRole) (argument : String) : Except Fault Int :=
  match Number.readInteger? argument with
  | some n => .ok n
  | none => .error (.notInteger role argument)

def readStroke (argument : String) : Except Fault Stroke :=
  if argument = "^" then .ok .release
  else if argument = "v" ∨ argument = "V" then .ok .press
  else .error (.notDirection argument)

def readKey (name : String) : Except Fault Key :=
  match Key.ofName? name with
  | some k => .ok k
  | none => .error (.unknownKey name)

def readButton (name : String) : Except Fault Button :=
  match Button.ofName? name with
  | some b => .ok b
  | none => .error (.unknownButton name)

namespace Phrase

def single (i : Instruction) : Phrase :=
  .emit [i]

def sleep (argument : String) : Except Fault Phrase :=
  match Number.readBinary64? argument with
  | some seconds => .ok (.emit (Instruction.sleep seconds))
  | none => .error (.notSeconds argument)

def pointerMove (x y : String) : Except Fault Phrase := do
  let x ← readNumber .x x
  let y ← readNumber .y y
  return .move (Point.clamp ⟨x, y⟩)

def loop (count : Int) : Except Fault Phrase :=
  if h : count ≤ 8191 then .ok (single (.loopBegin count h)) else .error .loopCountTooLarge

def ofCommand : Command → List String → Except Fault Phrase
  | .backslash, [] => .ok (single (.key .click (.mark .backslash)))
  | .enter, [] => .ok (single (.key .click (.control .enter)))
  | .tab, [] => .ok (single (.key .click (.control .tab)))
  | .space, [] => .ok (single (.key .click (.mark .space)))
  | .sleep, [] => .ok (single ⟨.sleepSec, 1, by decide⟩)
  | .sleep, [seconds] => sleep seconds
  | .leftClick, [] => .ok (single (.button .click .left))
  | .middleClick, [] => .ok (single (.button .click .middle))
  | .middleClick, [direction] =>
    if direction = "^" then .ok (single (.button .click .scrollUp))
    else if direction = "v" ∨ direction = "V" then .ok (single (.button .click .scrollDown))
    else .error (.arguments .middleClick)
  | .rightClick, [] => .ok (single (.button .click .right))
  | .movePointer, [x, y] => pointerMove x y
  | .queryPointer, [] => .ok (single (.pointerQuery false))
  | .queryPointer, [mark] =>
    if mark = "!" then .ok (single (.pointerQuery true)) else .error (.notExclamation mark)
  | .beginLoop, [] => loop 0
  | .beginLoop, [count] => do loop (← readNumber .loopCount count)
  | .endLoop, [] => .ok (single .loopEnd)
  | .sendKey, [name] => do return single (.key .click (← readKey name))
  | .sendKey, [name, direction] => do
    let k ← readKey name
    return single (.key (← readStroke direction) k)
  | .sendButton, [name] => do return single (.button .click (← readButton name))
  | .sendButton, [name, direction] => do
    let b ← readButton name
    return single (.button (← readStroke direction) b)
  | command, _ => .error (.arguments command)

end Phrase

def whitespaceKey? : Char → Option Key
  | '\t' => some (.control .tab)
  | '\n' => some (.control .enter)
  | '\r' => some (.control .enter)
  | ' ' => some (.mark .space)
  | _ => none

def typedKey? (c : Char) : Option Key :=
  if c = '\x7f' then some (.control .backspace)
  else if c = '\\' ∨ c = ' ' then none
  else Key.ofChar? c

def Phrase.ofChar (ignoreSpace : Bool) (c : Char) : Except Fault Phrase :=
  match whitespaceKey? c with
  | some k => .ok (.emit (if ignoreSpace then [] else [.key .click k]))
  | none =>
    match typedKey? c with
    | some k => .ok (single (.key .click k))
    | none => .error (.unexpectedCharacter c)

end InputScript
