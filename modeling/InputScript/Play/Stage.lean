import InputScript.Desktop.Basic
import InputScript.Listing
import InputScript.Play.Player

/-!
What surrounds a player: the desktop, the token that cancels a play, the handler of interrupts, and
the record of what happened. A player acts on its surroundings by calls; the first call that fails
ends the play, and what happened before stays recorded.
-/

namespace InputScript

inductive Call where
  | trace (line : String)
  | press (s : Symbol)
  | release (s : Symbol)
  | moveTo (place : Point)
  | printPointer (overwrite : Bool)
  | flush
  | sleep (ms : Int)
deriving DecidableEq

inductive Event (ε : Type) where
  | desktop (emitted : ε)
  | sleep (ms : Int)
  | trace (line : String)
  | print (text : String)
deriving DecidableEq

inductive Failure where
  | desktop (error : DesktopError)
  | alreadyPlaying
  | endlessSleep
deriving DecidableEq

def Failure.message : Failure → String
  | .desktop error => error.message
  | .alreadyPlaying => "Player is already playing"
  | .endlessSleep => "cannot convert float infinity to integer"

inductive Handler where
  | outer
  | cancelsPlay
deriving DecidableEq

inductive Signal where
  | cancel
  | interrupt
deriving DecidableEq

/-- When a signal reaches a play: right after its sleep or press of a given number, counted from
one. -/
structure Cue where
  signal : Signal
  atSleep : Option Nat
  atPress : Option Nat
deriving DecidableEq

def Cue.never : Cue :=
  ⟨.cancel, none, none⟩

structure Stage (σ ε : Type) where
  player : Player
  desktop : σ
  cancelled : Bool
  handler : Handler
  cue : Cue
  sleeps : Nat
  presses : Nat
  events : Array (Event ε)

abbrev Act (σ ε : Type) := EStateM Failure (Stage σ ε)

namespace Stage

variable {σ ε : Type}

def new (player : Player) (desktop : σ) : Stage σ ε :=
  ⟨player, desktop, false, .outer, .never, 0, 0, #[]⟩

def record (stage : Stage σ ε) (event : Event ε) : Stage σ ε :=
  { stage with events := stage.events.push event }

def receive (stage : Stage σ ε) : Signal → Stage σ ε
  | .cancel => { stage with cancelled := true }
  | .interrupt =>
    match stage.handler with
    | .outer => stage
    | .cancelsPlay => { stage with cancelled := true }

def receiveIf (stage : Stage σ ε) (due : Bool) : Stage σ ε :=
  if due then stage.receive stage.cue.signal else stage

def countSleep (stage : Stage σ ε) : Stage σ ε :=
  let stage := { stage with sleeps := stage.sleeps + 1 }
  stage.receiveIf (stage.cue.atSleep == some stage.sleeps)

def countPress (stage : Stage σ ε) : Stage σ ε :=
  let stage := { stage with presses := stage.presses + 1 }
  stage.receiveIf (stage.cue.atPress == some stage.presses)

end Stage

namespace Act

variable {σ ε α : Type}

def record (event : Event ε) : Act σ ε Unit :=
  modify (·.record event)

/-- Makes a call of the desktop. A desktop that has the player play again meets the rule of
`Player.start?`; the empty program that it would play is over at once. -/
def ask (call : σ → Reply σ ε α) (received : Stage σ ε → Stage σ ε) : Act σ ε α := fun stage =>
  let reply := call stage.desktop
  let stage := { stage with
    desktop := reply.state
    events := stage.events ++ reply.emitted.map Event.desktop }
  match reply.outcome with
  | .done a => .ok a (received stage)
  | .failed e => .error (.desktop e) stage
  | .replays a =>
    match stage.player.start? with
    | some player => .ok a (received { stage with player := player.stop })
    | none => .error .alreadyPlaying stage

def sleep (ms : Int) : Act σ ε Unit := fun stage =>
  let (lasting, player) := stage.player.duration? ms
  let stage := { stage with player }
  match lasting with
  | some ms => .ok () (stage.record (.sleep ms)).countSleep
  | none => .error .endlessSleep stage

def pointerLineEnd (overwrite : Bool) : String :=
  if overwrite then "\x1b[K\r" else "\n"

def perform (d : Desktop σ ε) : Call → Act σ ε Unit
  | .trace line => record (.trace line)
  | .press s => ask (d.press s) Stage.countPress
  | .release s => ask (d.release s) id
  | .moveTo place => ask (d.moveTo place) id
  | .printPointer overwrite => do
    let p ← ask d.pointer id
    record (.print (p.text ++ pointerLineEnd overwrite))
  | .flush => ask d.flush id
  | .sleep ms => sleep ms

def performAll (d : Desktop σ ε) (calls : List Call) : Act σ ε Unit :=
  calls.forM (perform d)

end Act

end InputScript
