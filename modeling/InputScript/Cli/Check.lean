import InputScript.Cli.Input

namespace InputScript.Cli

structure CheckReport where
  output : String
  passed : Bool
deriving DecidableEq

namespace CheckReport

def faultText : LoadFault → String
  | .read fault => "Error: " ++ fault.message ++ "\n"
  | .nullInName => "Error: " ++ nullInNameMessage ++ "\n"
  | .operand e => "Error: " ++ e.message ++ "\n"
  | .script e =>
    "Syntax error at line " ++ Text.decimal e.location.line ++ ", column " ++
      Text.decimal e.location.column ++ ": " ++ e.message ++ "\n"

def programText (name : String) (p : Program) : String :=
  "Compiled " ++ name ++ ": " ++ Text.decimal p.size ++ " instructions, " ++
    Text.decimal p.positions.size ++ " positions\n"

def ofWords (files : String → Except PathFault (List UInt8)) : List String → CheckReport
  | [name] =>
    match Input.compile ⟨name, readFile name (files name)⟩ (.new false) .empty with
    | .ok (_, p) => ⟨programText name p, true⟩
    | .error fault => ⟨faultText fault, false⟩
  | _ => ⟨"Usage: python vinputscript_compiler.py <script.vin>\n", false⟩

end CheckReport

end InputScript.Cli
