import InputScript.Cli.Input
import InputScript.Cli.Request
import InputScript.Play.Run
import InputScript.Script.Grammar

/-!
What the program does for a command line, as a report of what it writes, what reaches the computer,
how long it sleeps and how it ends.
-/

namespace InputScript.Cli

structure Setting where
  files : String → Except PathFault (List UInt8)
  standardInput : List UInt8
  host : Host
  entropy : Int
  interruptAt : Option Nat
  fuel : Nat
  /-- The decoding of standard input is set up outside of the program. Files are always decoded as here. -/
  decodeStandard : List UInt8 → Except ReadFault String := decodeText .unified

inductive Crash where
  | nullInName
  | operand (error : OperandError)
  | connecting (error : ConnectError)
  | voidDesktop
  | voidSeed
  | playing (failure : Failure)
  | outOfFuel
deriving DecidableEq

inductive Ending where
  | returned (code : Nat)
  | exited (status : Nat)
  | crashed (crash : Crash)
deriving DecidableEq

structure Report where
  output : String
  errors : String
  calls : List HostCall
  sleeps : List Int
  reproducible : Bool
  ending : Ending
deriving DecidableEq

namespace Report

def text (output : String) (ending : Ending) : Report :=
  ⟨output, "", [], [], false, ending⟩

def crash (reproducible : Bool) (crash : Crash) : Report :=
  ⟨"", "", [], [], reproducible, .crashed crash⟩

def refusal (t : Topic) (fault : UsageFault) : Report :=
  ⟨"", t.usage ++ t.invocation ++ ": error: " ++ fault.message ++ "\n", [], [], false, .exited 2⟩

def eventText : Event Emission → String
  | .desktop (.lines lines) => DryRun.deliveryText lines
  | .desktop (.call _) => ""
  | .sleep _ => ""
  | .trace line => line ++ "\n"
  | .print text => text

def eventCall? : Event Emission → Option HostCall
  | .desktop (.call c) => some c
  | _ => none

def eventSleep? : Event Emission → Option Int
  | .sleep ms => some ms
  | _ => none

def ofPlay (reproducible : Bool) (events : List (Event Emission)) (last : String) (ending : Ending) :
    Report :=
  ⟨String.join (events.map eventText) ++ last, "", events.filterMap eventCall?,
    events.filterMap eventSleep?, reproducible, ending⟩

end Report

def loadReport (name : String) : LoadFault → Report
  | .read fault => .text ("Error reading " ++ name ++ ": " ++ fault.message ++ "\n") (.returned 1)
  | .nullInName => .text "" (.crashed .nullInName)
  | .operand e => .text "" (.crashed (.operand e))
  | .script e =>
    .text ("Syntax error in " ++ name ++ " at line " ++ Text.decimal e.location.line ++ ", column " ++
      Text.decimal e.location.column ++ ": " ++ e.message ++ "\n") (.returned 1)

namespace Setting

def standardText (s : Setting) : Except ReadFault String :=
  s.decodeStandard s.standardInput

def loadProgram (s : Setting) (o : Options) : Except Report Program :=
  match load (.new o.ignoreSpace) .empty (Input.ofCommandLine s.files s.standardText o.files) with
  | .ok p => .ok p
  | .error (name, fault) => .error (loadReport name fault)

def connectTo (s : Setting) (name : Option String) : Except Report Connected :=
  match Backend.choose s.host Backend.candidates name with
  | .ok c => .ok c
  | .error (.desktop e) => .error (.text ("Error: " ++ e.message ++ "\n") (.returned 1))
  | .error e => .error (.crash false (.connecting e))

def connect (s : Setting) (o : Options) : Except Report Connected :=
  match o.desktop with
  | .absent => s.connectTo none
  | .value b => s.connectTo (some b.name)
  | .void => .error (.crash false .voidDesktop)

def player (s : Setting) (o : Options) : Except Report Player :=
  match o.seed with
  | .absent => .ok (.idle (!o.noRandSleep) o.verbose (.ofSeed s.entropy))
  | .value seed => .ok (.idle (!o.noRandSleep) o.verbose (.ofSeed seed))
  | .void => .error (.crash true .voidSeed)

def prepare (s : Setting) (o : Options) : Except Report (Program × Stage Connected Emission) := do
  let p ← s.loadProgram o
  let c ← s.connect o
  let player ← s.player o
  return (p, (Stage.new player c).prepare ⟨.interrupt, s.interruptAt, none⟩)

def cancelledText : String := "Playback cancelled\n"

def play (s : Setting) (o : Options) : Report :=
  match s.prepare o with
  | .error report => report
  | .ok (p, stage) =>
    let report := Report.ofPlay (o.noRandSleep || o.seed != .absent)
    match Act.playAlone Connected.desktop p s.fuel true stage with
    | .ok (some true) after => report after.events.toList "" (.returned 0)
    | .ok (some false) after => report after.events.toList cancelledText (.returned 0)
    | .ok none after => report after.events.toList "" (.crashed .outOfFuel)
    | .error (.desktop e) after =>
      report after.events.toList ("Error: " ++ e.message ++ "\n") (.returned 1)
    | .error failure after => report after.events.toList "" (.crashed (.playing failure))

def listingText (p : Program) : String :=
  Topic.lines p.listing ++
    (if p.positions.isEmpty then ""
    else "\n" ++ Text.decimal p.positions.size ++ " positions\n")

def disassemble (s : Setting) (o : Options) : Report :=
  match s.loadProgram o with
  | .error report => report
  | .ok p => .text (listingText p) (.returned 0)

def probeLine (probe : Probe) : String :=
  "  " ++ Text.padRight 10 ' ' probe.name ++ " " ++
    (if probe.available then "available" else probe.reason)

def listDesktops (s : Setting) : Report :=
  let heading := "Desktop backends:"
  match Probe.all s.host with
  | .ok probes => .text (Topic.lines (heading :: probes.map probeLine)) (.returned 0)
  | .error e => .text (Topic.lines [heading]) (.crashed (.connecting e))

def perform (s : Setting) (r : Request) : Report :=
  match r.topic with
  -- To give no command is a failure, though the help is shown for it.
  | .program => .text Topic.program.help (.returned 1)
  | .play => s.play r.options
  | .disassemble => s.disassemble r.options
  | .helpScript => .text Grammar.text (.returned 0)
  | .listDesktops => s.listDesktops

def run (s : Setting) (words : List String) : Report :=
  match Request.ofWords words with
  | .ok request => s.perform request
  | .error (.help t) => .text t.help (.exited 0)
  | .error (.refused t fault) => .refusal t fault

end Setting

end InputScript.Cli
