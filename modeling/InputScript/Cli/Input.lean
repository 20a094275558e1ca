import InputScript.Cli.FileTree
import InputScript.Script.Compiler
import InputScript.Text.Utf8

namespace InputScript.Cli

inductive ReadFault where
  | path (name : String) (fault : PathFault)
  | notText (fault : Text.Utf8Fault)
deriving DecidableEq

def ReadFault.message : ReadFault → String
  | .path name fault => fault.message name
  | .notText fault => fault.message

inductive LoadFault where
  | read (fault : ReadFault)
  | nullInName
  | script (error : ScriptError)
  | operand (error : OperandError)
deriving DecidableEq

structure Input where
  name : String
  content : Except LoadFault String

def nullInNameMessage : String :=
  "embedded null byte"

def decodeText (ends : Text.LineEnds) (bytes : List UInt8) : Except ReadFault String :=
  (Text.ofBytes ends bytes).mapError .notText

def readFile (name : String) (content : Except PathFault (List UInt8)) : Except LoadFault String :=
  if name.toList.contains '\x00' then .error .nullInName
  else
    match content with
    | .error fault => .error (.read (.path name fault))
    | .ok bytes => (decodeText .unified bytes).mapError .read

namespace Input

def standardName : String := "-"

def standardTitle : String := "<stdin>"

/-- The inputs that `names` stand for. Standard input gives its text once, and then nothing more. -/
def ofNames (files : String → Except PathFault (List UInt8)) (standard : Except ReadFault String) :
    List String → List Input
  | [] => []
  | name :: rest =>
    if name = standardName then
      ⟨standardTitle, standard.mapError .read⟩ :: ofNames files (.ok "") rest
    else
      ⟨name, readFile name (files name)⟩ :: ofNames files standard rest

def ofCommandLine (files : String → Except PathFault (List UInt8)) (standard : Except ReadFault String)
    (names : List String) : List Input :=
  ofNames files standard (if names.isEmpty then [standardName] else names)

def compile (i : Input) (c : Compiler) (p : Program) : Except LoadFault (Compiler × Program) := do
  let done := c.compile p (← i.content)
  match done.outcome with
  | .ok _ => return (⟨c.ignoreSpace, done.scratch⟩, done.program)
  | .error (.script e) => throw (.script e)
  | .error (.operand e) => throw (.operand e)

end Input

def load (c : Compiler) (p : Program) : List Input → Except (String × LoadFault) Program
  | [] => .ok p
  | i :: rest =>
    match i.compile c p with
    | .ok (c, q) => load c q rest
    | .error fault => .error (i.name, fault)

end InputScript.Cli
