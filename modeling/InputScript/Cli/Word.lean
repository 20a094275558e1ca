import InputScript.Cli.Topic
import InputScript.Number.Integer
import InputScript.Text.Quoted

namespace InputScript.Cli

inductive UsageFault where
  | ambiguous (text : String) (spellings : List String)
  | ignoredValue (f : Flag) (text : String)
  | valueExpected (f : Flag)
  | invalidInteger (text : String)
  | invalidDesktop (text : String)
  | invalidCommand (text : String)
  | unrecognized (words : List String)
deriving DecidableEq

namespace UsageFault

def choices (names : List String) : String :=
  " (choose from " ++ ", ".intercalate (names.map Text.quoted) ++ ")"

def message : UsageFault → String
  | .ambiguous text spellings =>
    "ambiguous option: " ++ text ++ " could match " ++ ", ".intercalate spellings
  | .ignoredValue f text =>
    "argument " ++ f.label ++ ": ignored explicit argument " ++ Text.quoted text
  | .valueExpected f => "argument " ++ f.label ++ ": expected one argument"
  | .invalidInteger text => "argument --seed: invalid int value: " ++ Text.quoted text
  | .invalidDesktop text =>
    "argument --desktop: invalid choice: " ++ Text.quoted text ++ choices [DryRun.name, Live.name]
  | .invalidCommand text =>
    "argument command: invalid choice: " ++ Text.quoted text ++
      choices (Topic.commands.map Topic.name)
  | .unrecognized words => "unrecognized arguments: " ++ " ".intercalate words

end UsageFault

inductive Word where
  | value (text : String)
  | separator
  | flag (f : Flag) (spelling : String) (explicit : Option String)
  | unknown (text : String)
deriving DecidableEq

def splitEquals? (cs : List Char) : Option (String × String) :=
  match cs.span (· != '=') with
  | (name, _ :: value) => some (String.ofList name, String.ofList value)
  | (_, []) => none

def isNegativeNumber : List Char → Bool
  | '-' :: rest =>
    let rest := if rest.getLast? = some '\n' then rest.dropLast else rest
    match rest.span Number.isDigit with
    | (whole, []) => !whole.isEmpty
    | (_, '.' :: fraction) => !fraction.isEmpty && fraction.all Number.isDigit
    | _ => false
  | _ => false

namespace Topic

def candidates (t : Topic) (cs : List Char) : List (Flag × String × Option String) :=
  match cs with
  | '-' :: '-' :: _ =>
    let (start, explicit) := match splitEquals? cs with
      | some (start, value) => (start, some value)
      | none => (String.ofList cs, none)
    t.spellings.filterMap fun (spelling, f) =>
      if start.toList.isPrefixOf spelling.toList then some (f, spelling, explicit) else none
  | _ =>
    t.spellings.filterMap fun (spelling, f) =>
      if spelling.toList = cs.take 2 then some (f, spelling, some (String.ofList (cs.drop 2)))
      else none

def exactFlag? (t : Topic) (text : String) : Option Word :=
  match t.flagSpelled? text with
  | some f => some (.flag f text none)
  | none => do
    let (name, value) ← splitEquals? text.toList
    let f ← t.flagSpelled? name
    return .flag f name (some value)

def classify (t : Topic) (text : String) : Except UsageFault Word :=
  match text.toList with
  | '-' :: c :: rest =>
    match t.exactFlag? text with
    | some word => .ok word
    | none =>
      match t.candidates ('-' :: c :: rest) with
      | [(f, spelling, explicit)] => .ok (.flag f spelling explicit)
      | [] =>
        if isNegativeNumber ('-' :: c :: rest) || rest.contains ' ' || c == ' ' then
          .ok (.value text)
        else
          .ok (.unknown text)
      | several => .error (.ambiguous text (several.map (·.2.1)))
  | _ => .ok (.value text)

def classifyAll (t : Topic) : List String → Except UsageFault (List (String × Word))
  | [] => .ok []
  | text :: rest =>
    if text = "--" then .ok ((text, .separator) :: rest.map fun value => (value, .value value))
    else do
      let word ← t.classify text
      return (text, word) :: (← t.classifyAll rest)

end Topic

end InputScript.Cli
