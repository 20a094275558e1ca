import InputScript.Script.Edit

/-!
A compiler, which goes on from script to script. It works on a program in place and keeps what it last
read: the word and the arguments of a command and where the command began. A faulty script is undone by
cutting the program back to the lengths that it had.
-/

namespace InputScript

structure Scratch where
  word : List Char
  arguments : List String
  commandStart : Location
deriving DecidableEq

namespace Scratch

def blank : Scratch :=
  ⟨[], [], ⟨0, 0⟩⟩

def beginCommand (s : Scratch) (start : Location) : Scratch :=
  { s with commandStart := start }

def clearArguments (s : Scratch) : Scratch :=
  { s with arguments := [] }

def clearWord (s : Scratch) : Scratch :=
  { s with word := [] }

def keep (s : Scratch) (c : Char) : Scratch :=
  { s with word := c :: s.word }

def endWord (s : Scratch) : Scratch :=
  { s with arguments := String.ofList s.word.reverse :: s.arguments }

def closeArguments (s : Scratch) : Scratch :=
  if s.arguments.isEmpty && s.word.isEmpty then s else s.endWord

end Scratch

inductive Expected where
  | anything
  | command
  | bracketedCommand
  | argument (command : Command) (escaped : Bool)
deriving DecidableEq

structure Desk where
  scratch : Scratch
  program : Program
  here : Location
  expected : Expected
deriving DecidableEq

inductive CompileError where
  | script (e : ScriptError)
  | operand (e : OperandError)
deriving DecidableEq

namespace Desk

def begin (s : Scratch) (p : Program) : Desk :=
  ⟨s, p, .start, .anything⟩

def carryOut (start : Location) (edit : Edit Unit) : EStateM CompileError Desk Unit
  | ⟨s, p, here, expected⟩ =>
    match edit p with
    | .ok _ q => .ok () ⟨s, q, here, expected⟩
    | .error (.fault f) q => .error (.script ⟨f, start⟩) ⟨s, q, here, expected⟩
    | .error (.operand e) q => .error (.operand e) ⟨s, q, here, expected⟩

def execute (command : Command) : EStateM CompileError Desk Unit := fun desk =>
  carryOut desk.scratch.commandStart (.ofCommand command desk.scratch.arguments.reverse) desk

def refuse (f : Fault) : EStateM CompileError Desk Unit := fun desk =>
  .error (.script ⟨f, desk.scratch.commandStart⟩) desk

def step (ignoreSpace : Bool) (c : Char) : EStateM CompileError Desk Unit
  | ⟨s, p, here, .anything⟩ =>
    if c = '\\' then .ok () ⟨s.beginCommand here, p, here.next c, .command⟩
    else carryOut here (.ofChar ignoreSpace c) ⟨s, p, here.next c, .anything⟩
  | ⟨s, p, here, .command⟩ =>
    if c = '[' then .ok () ⟨s, p, here.next c, .bracketedCommand⟩
    else
      match Command.ofChar? c with
      | some command => execute command ⟨s.clearArguments, p, here.next c, .anything⟩
      | none => refuse (.unknownCommand c) ⟨s, p, here.next c, .command⟩
  | ⟨s, p, here, .bracketedCommand⟩ =>
    match Command.ofChar? c with
    | some command => .ok () ⟨s.clearArguments.clearWord, p, here.next c, .argument command false⟩
    | none => refuse (.unknownCommand c) ⟨s, p, here.next c, .bracketedCommand⟩
  | ⟨s, p, here, .argument command true⟩ =>
    .ok () ⟨s.keep c, p, here.next c, .argument command false⟩
  | ⟨s, p, here, .argument command false⟩ =>
    if c = '\\' then .ok () ⟨s, p, here.next c, .argument command true⟩
    else if c = ']' then execute command ⟨s.closeArguments, p, here.next c, .anything⟩
    else if c = ',' then .ok () ⟨s.endWord.clearWord, p, here.next c, .argument command false⟩
    else .ok () ⟨s.keep c, p, here.next c, .argument command false⟩

def finish : EStateM CompileError Desk Unit := fun desk =>
  match desk.expected with
  | .anything => .ok () desk
  | .command | .bracketedCommand => refuse .unterminatedCommand desk
  | .argument _ _ => refuse .unterminatedArguments desk

def read (ignoreSpace : Bool) : List Char → EStateM CompileError Desk Unit
  | [], desk => finish desk
  | c :: cs, desk =>
    match step ignoreSpace c desk with
    | .ok _ desk => read ignoreSpace cs desk
    | .error e desk => .error e desk

end Desk

structure Compiler where
  ignoreSpace : Bool
  scratch : Scratch
deriving DecidableEq

structure Compilation where
  outcome : Except CompileError Unit
  scratch : Scratch
  program : Program

namespace Compiler

def new (ignoreSpace : Bool) : Compiler :=
  ⟨ignoreSpace, .blank⟩

/-- Compiles a script onto a program. Only a fault of the script is undone. -/
def compile (c : Compiler) (p : Program) (source : String) : Compilation :=
  let instructions := p.instructions.size
  let positions := p.positions.size
  match Desk.read c.ignoreSpace source.toList (.begin c.scratch p) with
  | .ok _ desk => ⟨.ok (), desk.scratch, desk.program⟩
  | .error (.script e) desk =>
    ⟨.error (.script e), desk.scratch, desk.program.truncate instructions positions⟩
  | .error (.operand e) desk => ⟨.error (.operand e), desk.scratch, desk.program⟩

end Compiler

structure Chunk where
  ignoreSpace : Bool
  source : String
deriving DecidableEq

structure Workshop where
  typing : Scratch
  ignoring : Scratch
  program : Program

namespace Workshop

def new (p : Program) : Workshop :=
  ⟨.blank, .blank, p⟩

def compiler (w : Workshop) (ignoreSpace : Bool) : Compiler :=
  ⟨ignoreSpace, if ignoreSpace then w.ignoring else w.typing⟩

def compile (w : Workshop) (chunk : Chunk) : Compilation :=
  (w.compiler chunk.ignoreSpace).compile w.program chunk.source

def next (w : Workshop) (chunk : Chunk) : Workshop :=
  let done := w.compile chunk
  if chunk.ignoreSpace then { w with ignoring := done.scratch, program := done.program }
  else { w with typing := done.scratch, program := done.program }

end Workshop

end InputScript
