import InputScript.Script.Command
import InputScript.Script.Location
import InputScript.Text.Quoted
import InputScript.Instruction

namespace InputScript

inductive IntegerRole where
  | x
  | y
  | loopCount
deriving DecidableEq

def IntegerRole.name : IntegerRole → String
  | .x => "x"
  | .y => "y"
  | .loopCount => "loop count"

inductive Fault where
  | unexpectedCharacter (c : Char)
  | unterminatedCommand
  | unknownCommand (c : Char)
  | unterminatedArguments
  | arguments (command : Command)
  | notSeconds (argument : String)
  | notInteger (role : IntegerRole) (argument : String)
  | tooManyPositions
  | notExclamation (argument : String)
  | loopCountTooLarge
  | unknownKey (name : String)
  | unknownButton (name : String)
  | notDirection (argument : String)
deriving DecidableEq

inductive FaultKind where
  | unknownKey
  | unknownCommand
  | illegalArgument
deriving DecidableEq

def FaultKind.name : FaultKind → String
  | .unknownKey => "unknown key"
  | .unknownCommand => "unknown command"
  | .illegalArgument => "illegal argument"

namespace Fault

def kind : Fault → FaultKind
  | .unexpectedCharacter _ | .unknownKey _ | .unknownButton _ => .unknownKey
  | .unterminatedCommand | .unknownCommand _ => .unknownCommand
  | _ => .illegalArgument

def message : Fault → String
  | .unexpectedCharacter c => "Unexpected character: " ++ Text.quotedChar c
  | .unterminatedCommand => "Unterminated command"
  | .unknownCommand c => "Unknown command: " ++ Text.quotedChar c
  | .unterminatedArguments => "Unterminated command arguments, expected ']'"
  | .arguments command => command.argumentRule
  | .notSeconds argument => "Expected number of seconds, got " ++ Text.quoted argument
  | .notInteger role argument =>
    "Expected integer for " ++ role.name ++ ", got " ++ Text.quoted argument
  | .tooManyPositions =>
    "Too many pointer positions (maximum " ++ Text.decimal (maxOperand + 1) ++ ")"
  | .notExclamation argument => "Expected '!', got " ++ Text.quoted argument
  | .loopCountTooLarge => "Loop count must be at most " ++ Text.decimal maxOperand
  | .unknownKey name => "Unknown key: " ++ name
  | .unknownButton name => "Unknown button: " ++ name
  | .notDirection argument => "Expected '^', 'v' or 'V', got " ++ Text.quoted argument

def isUnterminated : Fault → Bool
  | .unterminatedCommand | .unterminatedArguments => true
  | _ => false

end Fault

structure ScriptError where
  fault : Fault
  location : Location
deriving DecidableEq

namespace ScriptError

def message (e : ScriptError) : String :=
  e.fault.message

def text (e : ScriptError) : String :=
  e.message ++ " (line " ++ Text.decimal e.location.line ++ ", column "
    ++ Text.decimal e.location.column ++ ")"

end ScriptError

end InputScript
