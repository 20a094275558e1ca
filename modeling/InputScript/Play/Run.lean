import InputScript.Play.Stage

namespace InputScript

def pacingDelay : Int := 50

def pace : List Call :=
  [.flush, .sleep pacingDelay]

namespace Program

def deviceCalls? (p : Program) (i : Instruction) : Option (List Call) :=
  match i.opcode with
  | .keyUp => (Key.ofCode? i.operand).map fun k => [.release (.key k)]
  | .keyDown => (Key.ofCode? i.operand).map fun k => [.press (.key k)]
  | .keyClick => (Key.ofCode? i.operand).map fun k => [.press (.key k), .release (.key k)]
  | .buttonUp => (Button.ofCode? i.operand).map fun b => [.release (.button b)]
  | .buttonDown => (Button.ofCode? i.operand).map fun b => [.press (.button b)]
  | .buttonClick =>
    (Button.ofCode? i.operand).map fun b => [.press (.button b), .release (.button b)]
  | .pointerGoto => p.positions[i.operand]?.map fun place => [.moveTo place]
  | .pointerWhere => some [.printPointer (overwritesLine i.operand)]
  | _ => none

def calls (p : Program) (i : Instruction) : List Call :=
  match i.opcode with
  | .sleepMs => [.sleep i.operand]
  | .sleepSec => [.sleep (1000 * i.operand)]
  | .loopBegin | .loopEnd => pace
  | _ =>
    match p.deviceCalls? i with
    | some calls => calls ++ pace
    | none => []

def traceLine (p : Program) (address : Nat) (i : Instruction) : String :=
  addressText address ++ p.describe i

end Program

inductive Progress where
  | next (address : Nat)
  | cancelled
deriving DecidableEq

namespace Act

variable {σ ε α : Type}

def trace (p : Program) (address : Nat) (i : Instruction) : Act σ ε Unit := do
  if (← get).player.tracing then record (.trace (p.traceLine address i))

def follow (i : Instruction) (next : Nat) : Act σ ε Nat :=
  modifyGet fun stage =>
    let (address, loops) := followLoops i next stage.player.loops
    (address, { stage with player := { stage.player with loops } })

def step (d : Desktop σ ε) (p : Program) (address : Nat) (i : Instruction) : Act σ ε Progress := do
  trace p address i
  let next ← follow i (address + 1)
  performAll d (p.calls i)
  -- The token is not looked at behind a begin, so the first pass of a loop is always played.
  if i.opcode ≠ .loopBegin ∧ (← get).cancelled then return .cancelled else return .next next

/-- Plays from an address on, through at most `fuel` instructions. The answer is whether the play was
completed rather than cancelled, or nothing if the fuel did not last. -/
def run (d : Desktop σ ε) (p : Program) : Nat → Nat → Act σ ε (Option Bool)
  | fuel, address =>
    match p.instructions[address]? with
    | none => pure (some true)
    | some i =>
      match fuel with
      | 0 => pure none
      | fuel + 1 => do
        match ← step d p address i with
        | .next address => run d p fuel address
        | .cancelled => pure (some false)

def whilePlaying (body : Act σ ε α) : Act σ ε α := fun stage =>
  match stage.player.start? with
  | none => .error .alreadyPlaying stage
  | some player =>
    match body { stage with player } with
    | .ok a after => .ok a { after with player := after.player.stop }
    | .error e after => .error e { after with player := after.player.stop }

def play (d : Desktop σ ε) (p : Program) (fuel : Nat) : Act σ ε (Option Bool) :=
  whilePlaying (run d p fuel 0)

def withOwnToken (catches : Bool) (body : Act σ ε α) : Act σ ε α := fun stage =>
  let handler := if catches then .cancelsPlay else stage.handler
  match body { stage with cancelled := false, handler } with
  | .ok a after => .ok a { after with cancelled := stage.cancelled, handler := stage.handler }
  | .error e after => .error e { after with cancelled := stage.cancelled, handler := stage.handler }

/-- Plays a program without a token. Interrupts cancel the play where the handler can be set, which
is in the main thread only. The player has to be idle before anything is set. -/
def playAlone (d : Desktop σ ε) (p : Program) (fuel : Nat) (mainThread : Bool) :
    Act σ ε (Option Bool) := do
  match (← get).player.start? with
  | none => throw .alreadyPlaying
  | some _ => withOwnToken mainThread (play d p fuel)

end Act

namespace Stage

variable {σ ε : Type}

def prepare (stage : Stage σ ε) (cue : Cue) : Stage σ ε :=
  { stage with cue, sleeps := 0, presses := 0 }

def clearEvents (stage : Stage σ ε) : Stage σ ε :=
  { stage with events := #[] }

def cancel (stage : Stage σ ε) : Stage σ ε :=
  { stage with cancelled := true }

def reset (stage : Stage σ ε) : Stage σ ε :=
  { stage with cancelled := false }

end Stage

end InputScript
