import InputScript.Cli.Report

namespace InputScript.Terminal

open Cli

def thisComputer : Host :=
  .unloadable "no input library"

def pathFault : IO.Error → PathFault
  | .noFileOrDirectory .. => .missing
  | .inappropriateType _ 20 _ => .notDirectory
  | .invalidArgument .. => .nameTooLong
  | _ => .directory

def readInput (name : String) : IO (Except PathFault (List UInt8)) := do
  try
    return .ok (← IO.FS.readBinFile name).toList
  catch error => return .error (pathFault error)

def readInputs (names : List String) : IO (List (String × Except PathFault (List UInt8))) :=
  names.mapM fun name => do return (name, ← readInput name)

def setting (o : Options) : IO Setting := do
  let needsStandard := o.files.isEmpty || o.files.contains Input.standardName
  let files ← readInputs (o.files.filter (· != Input.standardName))
  let standard ← if needsStandard then (← IO.getStdin).readBinToEnd else pure ByteArray.empty
  let entropy ← IO.rand 0 4294967295
  return {
    files := fun name => (files.lookup name).getD (.error .missing)
    standardInput := standard.toList
    host := thisComputer
    entropy
    interruptAt := none
    fuel := 0
    decodeStandard := decodeText .kept }

def happen (event : Event Emission) : IO Unit := do
  let output ← IO.getStdout
  output.putStr (Report.eventText event)
  output.flush
  match Report.eventSleep? event with
  | some ms => IO.sleep ms.toNat.toUInt32
  | none => return

partial def playFrom (p : Program) (address : Nat) (stage : Stage Connected Emission) : IO UInt32 := do
  match p.instructions[address]? with
  | none => return 0
  | some i =>
    match Act.step Connected.desktop p address i stage.clearEvents with
    | .ok progress after =>
      after.events.forM happen
      match progress with
      | .next next => playFrom p next after
      | .cancelled => return 0
    | .error failure after =>
      after.events.forM happen
      IO.println ("Error: " ++ failure.message)
      return 1

def tell (report : Report) : IO UInt32 := do
  IO.print report.output
  IO.eprint report.errors
  match report.ending with
  | .returned code => return code.toUInt32
  | .exited status => return status.toUInt32
  | .crashed .nullInName => IO.eprintln nullInNameMessage; return 1
  | .crashed (.operand e) => IO.eprintln e.message; return 1
  | .crashed _ => return 1

def answer (request : Request) : IO UInt32 := do
  let s ← setting request.options
  if request.topic = .play then
    match s.prepare request.options with
    | .ok (p, stage) => playFrom p 0 stage
    | .error report => tell report
  else
    tell (s.perform request)

end InputScript.Terminal

def main (args : List String) : IO UInt32 :=
  match InputScript.Cli.Request.ofWords args with
  | .ok request => InputScript.Terminal.answer request
  | .error (.help t) => InputScript.Terminal.tell (.text t.help (.exited 0))
  | .error (.refused t fault) => InputScript.Terminal.tell (.refusal t fault)
