import InputScript.Cli.Word

namespace InputScript.Cli

/-- What a command line says of an option that takes a value. Two dashes are no value, so an option
that is given just these is left void, which matters only where its value is used. -/
inductive Given (α : Type) where
  | absent
  | void
  | value (a : α)
deriving DecidableEq

def Given.read? {α : Type} (read : String → Option α) (text : String) : Option (Given α) :=
  if text = "--" then some .void else (read text).map .value

structure Options where
  ignoreSpace : Bool
  noRandSleep : Bool
  seed : Given Int
  desktop : Given Backend
  verbose : Bool
  files : List String
deriving DecidableEq

def Options.default : Options :=
  ⟨false, false, .absent, .absent, false, []⟩

structure Request where
  topic : Topic
  options : Options
deriving DecidableEq

inductive Stop where
  | help (t : Topic)
  | refused (t : Topic) (fault : UsageFault)
deriving DecidableEq

inductive FileGroup where
  | ahead
  | inside (files : List String)
  | past (files : List String)
deriving DecidableEq

namespace FileGroup

def close : FileGroup → FileGroup
  | .ahead => .ahead
  | .inside files => .past files
  | .past files => .past files

def files : FileGroup → List String
  | .ahead => []
  | .inside files => files.erase "--"
  | .past files => files.erase "--"

end FileGroup

structure Collected where
  options : Options
  group : FileGroup
  leftOver : List String
deriving DecidableEq

def readSeed? (text : String) : Option Int :=
  Number.integer? (Text.trimSpaces text.toList)

namespace Topic

def applySwitch (t : Topic) (o : Options) : Flag → Except Stop Options
  | .help => .error (.help t)
  | .ignoreSpace => .ok { o with ignoreSpace := true }
  | .noRandSleep => .ok { o with noRandSleep := true }
  | .verbose => .ok { o with verbose := true }
  | f => .error (.refused t (.valueExpected f))

def applyValue (t : Topic) (o : Options) (f : Flag) (text : String) : Except Stop Options :=
  match f with
  | .seed =>
    match Given.read? readSeed? text with
    | some seed => .ok { o with seed }
    | none => .error (.refused t (.invalidInteger text))
  | .desktop =>
    match Given.read? Backend.ofName? text with
    | some desktop => .ok { o with desktop }
    | none => .error (.refused t (.invalidDesktop text))
  | f => .error (.refused t (.ignoredValue f text))

def cluster (t : Topic) (f : Flag) : List Char → Except Stop (List Flag)
  | [] => .ok [f]
  | c :: rest =>
    match t.flagSpelled? (String.ofList ['-', c]) with
    | some g => do return f :: (← t.cluster g rest)
    | none => .error (.refused t (.ignoredValue f (String.ofList (c :: rest))))

def applyExplicit (t : Topic) (o : Options) (f : Flag) (spelling text : String) :
    Except Stop Options :=
  if f.takesValue then t.applyValue o f text
  else if spelling.length = 2 ∧ text ≠ "" then do
    (← t.cluster f text.toList).foldlM t.applySwitch o
  else
    .error (.refused t (.ignoredValue f text))

def addValue (t : Topic) (s : Collected) (text : String) : Collected :=
  if t.takesFiles then
    match s.group with
    | .ahead => { s with group := .inside [text] }
    | .inside files => { s with group := .inside (files ++ [text]) }
    | .past _ => { s with leftOver := s.leftOver ++ [text] }
  else
    { s with leftOver := s.leftOver ++ [text] }

def collect (t : Topic) (s : Collected) : List (String × Word) → Except Stop Collected
  | [] => .ok s
  | (_, .value text) :: rest => t.collect (t.addValue s text) rest
  | (text, .separator) :: rest => t.collect (t.addValue s text) rest
  | (_, .unknown text) :: rest =>
    t.collect { s with group := s.group.close, leftOver := s.leftOver ++ [text] } rest
  | (_, .flag f spelling (some text)) :: rest => do
    let options ← t.applyExplicit s.options f spelling text
    t.collect { s with options, group := s.group.close } rest
  | (_, .flag f _ none) :: rest =>
    if f.takesValue then
      match rest with
      | (_, .value text) :: rest => do
        let options ← t.applyValue s.options f text
        t.collect { s with options, group := s.group.close } rest
      | _ => .error (.refused t (.valueExpected f))
    else do
      let options ← t.applySwitch s.options f
      t.collect { s with options, group := s.group.close } rest

def refusing {α : Type} (t : Topic) : Except UsageFault α → Except Stop α
  | .ok a => .ok a
  | .error fault => .error (.refused t fault)

def read (t : Topic) (words : List String) : Except Stop (Request × List String) := do
  let classified ← t.refusing (t.classifyAll words)
  let s ← t.collect ⟨.default, .ahead, []⟩ classified
  return (⟨t, { s.options with files := s.group.files }⟩, s.leftOver)

end Topic

namespace Request

def unlessLeftOver (request : Request) (leftOver : List String) : Except Stop Request :=
  if leftOver.isEmpty then .ok request
  else .error (.refused .program (.unrecognized leftOver))

def find (leftOver : List String) : List (String × Word) → Except Stop Request
  | [] => unlessLeftOver ⟨.program, .default⟩ leftOver
  | (_, .value name) :: rest =>
    match Topic.ofName? name with
    | some t => do
      let (request, after) ← t.read (rest.map Prod.fst)
      unlessLeftOver request (leftOver ++ after)
    | none => .error (.refused .program (.invalidCommand name))
  | (text, .separator) :: rest =>
    if rest.isEmpty then unlessLeftOver ⟨.program, .default⟩ (leftOver ++ [text])
    else .error (.refused .program (.invalidCommand text))
  | (_, .unknown text) :: rest => find (leftOver ++ [text]) rest
  | (_, .flag f spelling (some text)) :: rest => do
    let _ ← Topic.program.applyExplicit .default f spelling text
    find leftOver rest
  | (_, .flag f _ none) :: rest => do
    let _ ← Topic.program.applySwitch .default f
    find leftOver rest

def ofWords (words : List String) : Except Stop Request := do
  find [] (← Topic.program.refusing (Topic.program.classifyAll words))

end Request

end InputScript.Cli
