import InputScript.Script.Argument
import InputScript.Script.Phrase

namespace InputScript

inductive Mode where
  | between
  | escaped (start : Location)
  | bracketed (start : Location)
  | arguments (start : Location) (command : Command) (body : Body)
deriving DecidableEq

structure Reader where
  mode : Mode
  here : Location
  program : Program
deriving DecidableEq

def Fault.locate {α : Type} (location : Location) : Except Fault α → Except ScriptError α
  | .ok a => .ok a
  | .error fault => .error ⟨fault, location⟩

namespace Reader

def begin (p : Program) : Reader :=
  ⟨.between, .start, p⟩

def complete (p : Program) (start here : Location) (command : Command) (arguments : List String) :
    Except ScriptError Reader := do
  let phrase ← Fault.locate start (Phrase.ofCommand command arguments)
  let p ← Fault.locate start (p.add phrase)
  return ⟨.between, here, p⟩

def step (ignoreSpace : Bool) : Reader → Char → Except ScriptError Reader
  | ⟨.between, here, p⟩, c =>
    if c = '\\' then .ok ⟨.escaped here, here.next c, p⟩
    else do
      let phrase ← Fault.locate here (Phrase.ofChar ignoreSpace c)
      let p ← Fault.locate here (p.add phrase)
      return ⟨.between, here.next c, p⟩
  | ⟨.escaped start, here, p⟩, c =>
    if c = '[' then .ok ⟨.bracketed start, here.next c, p⟩
    else
      match Command.ofChar? c with
      | some command => complete p start (here.next c) command []
      | none => .error ⟨.unknownCommand c, start⟩
  | ⟨.bracketed start, here, p⟩, c =>
    match Command.ofChar? c with
    | some command => .ok ⟨.arguments start command .empty, here.next c, p⟩
    | none => .error ⟨.unknownCommand c, start⟩
  | ⟨.arguments start command body, here, p⟩, c =>
    match body.step c with
    | .more body => .ok ⟨.arguments start command body, here.next c, p⟩
    | .closed arguments => complete p start (here.next c) command arguments

def finish : Reader → Except ScriptError Program
  | ⟨.between, _, p⟩ => .ok p
  | ⟨.escaped start, _, _⟩ => .error ⟨.unterminatedCommand, start⟩
  | ⟨.bracketed start, _, _⟩ => .error ⟨.unterminatedCommand, start⟩
  | ⟨.arguments start _ _, _, _⟩ => .error ⟨.unterminatedArguments, start⟩

def read (ignoreSpace : Bool) (r : Reader) (cs : List Char) : Except ScriptError Program := do
  (← cs.foldlM (step ignoreSpace) r).finish

theorem read_cons (ignoreSpace : Bool) (r : Reader) (c : Char) (cs : List Char) :
    r.read ignoreSpace (c :: cs) = (r.step ignoreSpace c).bind (·.read ignoreSpace cs) := by
  unfold read
  rw [List.foldlM_cons]
  cases r.step ignoreSpace c <;> rfl

end Reader

namespace Program

def compile (p : Program) (ignoreSpace : Bool) (source : String) : Except ScriptError Program :=
  (Reader.begin p).read ignoreSpace source.toList

end Program

end InputScript
