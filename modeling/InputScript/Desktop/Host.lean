import InputScript.Point
import InputScript.Symbol

/-!
The input library of a computer, as a desktop meets it: a module that may fail to load, controllers
for keyboard and mouse, key and button attributes of which some may be absent, and calls of which
some may fail.
-/

namespace InputScript

inductive HostOperation where
  | keyboardPress
  | keyboardRelease
  | mousePress
  | mouseRelease
  | mouseScroll
  | mouseMove
  | mouseRead
deriving DecidableEq

inductive Target where
  | char (c : Char)
  | named (name : String)
deriving DecidableEq

inductive HostCall where
  | keyboardPress (target : Target)
  | keyboardRelease (target : Target)
  | mousePress (target : Target)
  | mouseRelease (target : Target)
  | mouseScroll (steps : Int)
  | mouseMove (place : Point)
deriving DecidableEq

structure Host where
  importError : Option String
  keyboardError : Option String
  mouseError : Option String
  pointer : List Rat
  failure : HostOperation → Option String
  lacksKey : String → Bool
  lacksAttribute : String → Bool

def HostOperation.name : HostOperation → String
  | .keyboardPress => "keyboard.press"
  | .keyboardRelease => "keyboard.release"
  | .mousePress => "mouse.press"
  | .mouseRelease => "mouse.release"
  | .mouseScroll => "mouse.scroll"
  | .mouseMove => "mouse.move"
  | .mouseRead => "mouse.read"

def Target.text : Target → String
  | .char c => String.singleton c
  | .named name => "<" ++ name ++ ">"

def HostCall.operation : HostCall → HostOperation
  | .keyboardPress _ => .keyboardPress
  | .keyboardRelease _ => .keyboardRelease
  | .mousePress _ => .mousePress
  | .mouseRelease _ => .mouseRelease
  | .mouseScroll _ => .mouseScroll
  | .mouseMove _ => .mouseMove

namespace Host

def working : Host :=
  ⟨none, none, none, [0, 0], fun _ => none, fun _ => false, fun _ => false⟩

def unloadable (reason : String) : Host :=
  { working with importError := some reason }

end Host

def Control.attributeName : Control → String
  | .backspace => "backspace"
  | .tab => "tab"
  | .enter => "enter"
  | .escape => "esc"
  | .delete => "delete"
  | .controlLeft => "ctrl_l"
  | .shiftLeft => "shift_l"
  | .altLeft => "alt_l"
  | .metaLeft => "cmd_l"
  | .superLeft => "cmd_l"
  | .controlRight => "ctrl_r"
  | .shiftRight => "shift_r"
  | .altRight => "alt_r"
  | .metaRight => "cmd_r"
  | .superRight => "cmd_r"

def Key.target : Key → Target
  -- The space bar is sent as a key, though it types a character.
  | .mark .space => .named "space"
  | .control c => .named c.attributeName
  | .digit n => .char (Char.ofNat (48 + n))
  | .capital n => .char (Char.ofNat (65 + n))
  | .small n => .char (Char.ofNat (97 + n))
  | .mark m => .char m.char

def Button.attributeName? : Button → Option String
  | .left => some "left"
  | .middle => some "middle"
  | .right => some "right"
  | .scrollUp => none
  | .scrollDown => none

namespace Host

def target? (h : Host) (k : Key) : Option Target :=
  match k.target with
  | .named name => if h.lacksKey name then none else some (.named name)
  | .char c => some (.char c)

def keyAttributes : List String :=
  Key.all.filterMap fun k =>
    match k.target with
    | .named name => some name
    | .char _ => none

def buttonAttributes : List String :=
  Button.all.filterMap Button.attributeName?

def missingAttribute? (h : Host) : Option String :=
  (keyAttributes ++ buttonAttributes).find? h.lacksAttribute

end Host

end InputScript
