import InputScript.Script.Phrase

/-!
What typed characters and commands do to a program in place. An operand is checked only when its
instruction is added. Where one does not fit, or the script is faulty, an edit ends, and what it did
before stays done.
-/

namespace InputScript

inductive EditError where
  | fault (f : Fault)
  | operand (e : OperandError)
deriving DecidableEq

abbrev Edit := EStateM EditError Program

namespace Stroke

def keyOpcode : Stroke → Opcode
  | click => .keyClick
  | press => .keyDown
  | release => .keyUp

def buttonOpcode : Stroke → Opcode
  | click => .buttonClick
  | press => .buttonDown
  | release => .buttonUp

end Stroke

namespace Edit

def emit (opcode : Opcode) (operand : Int) : Edit Unit := fun p =>
  match Instruction.ofOperand opcode operand with
  | .ok i => .ok () (p.emit i)
  | .error e => .error (.operand e) p

def refuse (f : Fault) : Edit Unit := fun p =>
  .error (.fault f) p

def demand {α : Type} (x : Except Fault α) : Edit α := fun p =>
  match x with
  | .ok a => .ok a p
  | .error f => .error (.fault f) p

def key (stroke : Stroke) (k : Key) : Edit Unit :=
  emit stroke.keyOpcode k.code

def button (stroke : Stroke) (b : Button) : Edit Unit :=
  emit stroke.buttonOpcode b.code

def move (place : Point) : Edit Unit := fun p =>
  if maxOperand < p.positions.size then .error (.fault .tooManyPositions) p
  -- The table has the place before the instruction that names it.
  else emit .pointerGoto p.positions.size (p.addPosition place)

def movePointer (x y : String) : Edit Unit := do
  let x ← demand (readNumber .x x)
  let y ← demand (readNumber .y y)
  move (Point.clamp ⟨x, y⟩)

def sleepWhole (whole : Nat) : Edit Unit :=
  if longestPiece < whole then do
    emit .sleepSec longestPiece
    sleepWhole (whole - longestPiece)
  else if whole = 0 then pure ()
  else emit .sleepSec whole
termination_by whole
decreasing_by
  unfold longestPiece at *
  omega

def sleep (seconds : Rat) : Edit Unit :=
  if seconds < shortestSleep then pure ()
  else do
    sleepWhole seconds.floor.toNat
    if fractionPart seconds = 0 then pure ()
    else emit .sleepMs (Number.roundHalfEven (Number.Binary64.nearest (fractionPart seconds * 1000)))

def beginLoop (count : Int) : Edit Unit :=
  if maxOperand < count then refuse .loopCountTooLarge
  else emit .loopBegin (if 0 < count then count else 0)

def ofCommand : Command → List String → Edit Unit
  | .backslash, [] => key .click (.mark .backslash)
  | .enter, [] => key .click (.control .enter)
  | .tab, [] => key .click (.control .tab)
  | .space, [] => key .click (.mark .space)
  | .sleep, [] => emit .sleepSec 1
  | .sleep, [seconds] =>
    match Number.readBinary64? seconds with
    | some seconds => sleep seconds
    | none => refuse (.notSeconds seconds)
  | .leftClick, [] => button .click .left
  | .middleClick, [] => button .click .middle
  | .middleClick, [direction] =>
    if direction = "^" then button .click .scrollUp
    else if direction = "v" ∨ direction = "V" then button .click .scrollDown
    else refuse (.arguments .middleClick)
  | .rightClick, [] => button .click .right
  | .movePointer, [x, y] => movePointer x y
  | .queryPointer, [] => emit .pointerWhere 0
  | .queryPointer, [mark] => if mark = "!" then emit .pointerWhere 1 else refuse (.notExclamation mark)
  | .beginLoop, [] => beginLoop 0
  | .beginLoop, [count] => do beginLoop (← demand (readNumber .loopCount count))
  | .endLoop, [] => emit .loopEnd 0
  | .sendKey, [name] => do key .click (← demand (readKey name))
  | .sendKey, [name, direction] => do
    let k ← demand (readKey name)
    key (← demand (readStroke direction)) k
  | .sendButton, [name] => do button .click (← demand (readButton name))
  | .sendButton, [name, direction] => do
    let b ← demand (readButton name)
    button (← demand (readStroke direction)) b
  | command, _ => refuse (.arguments command)

def ofChar (ignoreSpace : Bool) (c : Char) : Edit Unit :=
  match whitespaceKey? c with
  | some k => if ignoreSpace then pure () else key .click k
  | none =>
    match typedKey? c with
    | some k => key .click k
    | none => refuse (.unexpectedCharacter c)

end Edit

end InputScript
