import InputScript.Desktop.Basic
import InputScript.Desktop.Host
import InputScript.Number.Binary64

namespace InputScript

inductive ConnectError where
  | desktop (error : DesktopError)
  | missingAttribute (name : String)
  | unregistered (name : String)
deriving DecidableEq

structure Live where
  host : Host

namespace Live

def name : String := "pynput"

def error (trouble : Trouble) : DesktopError :=
  ⟨name, trouble⟩

def connect (h : Host) : Except ConnectError Live :=
  match h.importError <|> h.keyboardError <|> h.mouseError with
  | some reason => .error (.desktop (error (.unavailable reason)))
  | none =>
    match h.missingAttribute? with
    | some missing => .error (.missingAttribute missing)
    | none => .ok ⟨h⟩

def send (l : Live) (call : HostCall) : Reply Live HostCall Unit :=
  match l.host.failure call.operation with
  | some reason => .fails l (error (.cannotSend reason))
  | none => .emits l call ()

def sendKey (l : Live) (k : Key) (call : Target → HostCall) : Reply Live HostCall Unit :=
  match l.host.target? k with
  | some target => l.send (call target)
  | none => .fails l (error (.keyUnavailable k))

def press (s : Symbol) (l : Live) : Reply Live HostCall Unit :=
  match s with
  | .key k => l.sendKey k .keyboardPress
  | .button .left => l.send (.mousePress (.named "left"))
  | .button .middle => l.send (.mousePress (.named "middle"))
  | .button .right => l.send (.mousePress (.named "right"))
  | .button .scrollUp => l.send (.mouseScroll 1)
  | .button .scrollDown => l.send (.mouseScroll (-1))

def release (s : Symbol) (l : Live) : Reply Live HostCall Unit :=
  match s with
  | .key k => l.sendKey k .keyboardRelease
  | .button .left => l.send (.mouseRelease (.named "left"))
  | .button .middle => l.send (.mouseRelease (.named "middle"))
  | .button .right => l.send (.mouseRelease (.named "right"))
  -- The wheel was turned when it was pressed.
  | .button .scrollUp | .button .scrollDown => .silent l ()

def moveTo (place : Point) (l : Live) : Reply Live HostCall Unit :=
  match l.host.failure .mouseMove with
  | some reason => .fails l (error (.cannotMove reason))
  | none =>
    let place := place.clamp
    .emits ⟨{ l.host with pointer := [(place.x : Rat), (place.y : Rat)] }⟩ (.mouseMove place) ()

def shapeFault (count : Nat) : String :=
  if count < 2 then
    "not enough values to unpack (expected 2, got " ++ Text.decimal count ++ ")"
  else
    "too many values to unpack (expected 2)"

def pointer (l : Live) : Reply Live HostCall Point :=
  match l.host.failure .mouseRead with
  | some reason => .fails l (error (.cannotReadPointer reason))
  | none =>
    match l.host.pointer with
    | [x, y] => .silent l (Point.clamp ⟨Number.truncate x, Number.truncate y⟩)
    | other => .fails l (error (.cannotReadPointer (shapeFault other.length)))

def flush (l : Live) : Reply Live HostCall Unit :=
  .silent l ()

def desktop : Desktop Live HostCall :=
  ⟨press, release, moveTo, pointer, flush⟩

end Live

end InputScript
