import InputScript.Script.Command
import InputScript.Symbol

namespace InputScript.Grammar

def alternatives : List String → String
  | [] => ""
  | first :: others => "\t= " ++ first ++ "\n" ++ String.join (others.map ("\t| " ++ · ++ "\n"))

def rule (name : String) (choices : List String) : String :=
  name ++ "\n" ++ alternatives choices ++ "\t;\n"

def commandLine (command : Command) : String :=
  " | ".intercalate command.forms ++ "  (* " ++ command.description ++ " *)"

def nameLine (name : String) : String :=
  "\"" ++ name ++ "\""

def text : String :=
  "(* vinput script *)\nscript = \x7b key | command \x7d ;\nkey    = ALPHA | DIGIT | PUNCT ;\n"
    ++ rule "command" (Command.all.map commandLine)
    ++ rule "KEY_NAME" (Key.all.map (nameLine ·.name))
    ++ rule "BUTTON_NAME" (Button.all.map (nameLine ·.name))

end InputScript.Grammar
