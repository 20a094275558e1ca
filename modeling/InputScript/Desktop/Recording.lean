import InputScript.Desktop.Basic

namespace InputScript

inductive Recorded where
  | press (s : Symbol)
  | release (s : Symbol)
  | move (place : Point)
  | flush
deriving DecidableEq

structure Recording where
  pointer : Point
  follows : Bool
  presses : Nat
  failAt : Option Nat
  failMessage : String
  replayAt : Option Nat

namespace Recording

def name : String := "recording"

def restart (r : Recording) : Recording :=
  { r with presses := 0 }

def press (s : Symbol) (r : Recording) : Reply Recording Recorded Unit :=
  let r := { r with presses := r.presses + 1 }
  if r.failAt = some r.presses then .fails r ⟨name, .reported r.failMessage⟩
  else ⟨r, [.press s], if r.replayAt = some r.presses then .replays () else .done ()⟩

def desktop : Desktop Recording Recorded where
  press := press
  release s r := .emits r (.release s) ()
  moveTo place r := .emits (if r.follows then { r with pointer := place } else r) (.move place) ()
  pointer r := .silent r r.pointer
  flush r := .emits r .flush ()

end Recording

end InputScript
