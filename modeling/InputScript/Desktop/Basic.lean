import InputScript.Program
import InputScript.Symbol

namespace InputScript

inductive Trouble where
  | unavailable (reason : String)
  | reported (message : String)
  | keyUnavailable (k : Key)
  | cannotSend (reason : String)
  | cannotMove (reason : String)
  | cannotReadPointer (reason : String)
  | unknownDesktop (name : String)
  | noneAvailable
deriving DecidableEq

namespace Trouble

def detail : Trouble → String
  | .unavailable reason =>
    if reason.isEmpty then "not available" else "not available (" ++ reason ++ ")"
  | .reported message => message
  | .keyUnavailable k => "key <" ++ k.name ++ "> not available"
  | .cannotSend reason => "cannot send event: " ++ reason
  | .cannotMove reason => "cannot move pointer: " ++ reason
  | .cannotReadPointer reason => "cannot read pointer: " ++ reason
  | .unknownDesktop name => "unknown desktop '" ++ name ++ "'"
  | .noneAvailable => "cannot find available desktop"

def isUnavailable : Trouble → Bool
  | .unavailable _ => true
  | _ => false

end Trouble

structure DesktopError where
  desktop : String
  trouble : Trouble
deriving DecidableEq

namespace DesktopError

def detail (e : DesktopError) : String :=
  e.trouble.detail

def message (e : DesktopError) : String :=
  e.desktop ++ ": " ++ e.detail

end DesktopError

/-- How a desktop call ends. A desktop may have the player that called it play the empty program
first, which only an idle player does. -/
inductive Outcome (α : Type) where
  | done (value : α)
  | failed (error : DesktopError)
  | replays (value : α)

structure Reply (σ ε α : Type) where
  state : σ
  emitted : List ε
  outcome : Outcome α

structure Desktop (σ ε : Type) where
  press : Symbol → σ → Reply σ ε Unit
  release : Symbol → σ → Reply σ ε Unit
  moveTo : Point → σ → Reply σ ε Unit
  pointer : σ → Reply σ ε Point
  flush : σ → Reply σ ε Unit

namespace Reply

variable {σ ε α : Type}

def silent (state : σ) (value : α) : Reply σ ε α :=
  ⟨state, [], .done value⟩

def emits (state : σ) (event : ε) (value : α) : Reply σ ε α :=
  ⟨state, [event], .done value⟩

def fails (state : σ) (error : DesktopError) : Reply σ ε α :=
  ⟨state, [], .failed error⟩

end Reply

end InputScript
