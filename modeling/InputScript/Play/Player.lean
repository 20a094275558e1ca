import InputScript.Instruction
import InputScript.Random.Noise

namespace InputScript

/-- A loop that is being played: the address of its first instruction and the number of passes that
remain, where zero stands for passes without end. -/
structure Frame where
  target : Nat
  remaining : Nat
deriving DecidableEq

structure Player where
  randomSleep : Bool
  tracing : Bool
  noise : Random.Noise
  loops : List Frame
  playing : Bool

namespace Player

def idle (randomSleep tracing : Bool) (noise : Random.Noise) : Player :=
  ⟨randomSleep, tracing, noise, [], false⟩

def start? (p : Player) : Option Player :=
  if p.playing then none else some { p with playing := true, loops := [] }

def stop (p : Player) : Player :=
  { p with playing := false }

def duration? (p : Player) (ms : Int) : Option Int × Player :=
  if p.randomSleep && 0 < ms then
    let (z, noise) := p.noise.draw
    (Random.jittered? ms z, { p with noise })
  else
    (some ms, p)

end Player

def endLoop (next : Nat) : List Frame → Nat × List Frame
  | [] => (next, [])
  | frame :: outer =>
    if frame.remaining = 0 then (frame.target, frame :: outer)
    else if frame.remaining = 1 then (next, outer)
    else (frame.target, ⟨frame.target, frame.remaining - 1⟩ :: outer)

def followLoops (i : Instruction) (next : Nat) (loops : List Frame) : Nat × List Frame :=
  match i.opcode with
  | .loopBegin => (next, ⟨next, i.operand⟩ :: loops)
  | .loopEnd => endLoop next loops
  | _ => (next, loops)

end InputScript
