import InputScript.Cli.Check
import InputScript.Cli.FileTree
import InputScript.Cli.Input
import InputScript.Cli.Report
import InputScript.Cli.Request
import InputScript.Cli.Topic
import InputScript.Cli.Word
import InputScript.Desktop.Basic
import InputScript.Desktop.DryRun
import InputScript.Desktop.Host
import InputScript.Desktop.Live
import InputScript.Desktop.Recording
import InputScript.Desktop.Registry
import InputScript.Instruction
import InputScript.Key
import InputScript.Listing
import InputScript.Main
import InputScript.Number.Binary64
import InputScript.Number.Decimal
import InputScript.Number.Integer
import InputScript.Opcode
import InputScript.Play.Player
import InputScript.Play.Run
import InputScript.Play.Stage
import InputScript.Point
import InputScript.Program
import InputScript.Proofs.Availability
import InputScript.Proofs.Bodies
import InputScript.Proofs.Brackets
import InputScript.Proofs.Cancellation
import InputScript.Proofs.Chunks
import InputScript.Proofs.Concatenation
import InputScript.Proofs.Containment
import InputScript.Proofs.Course
import InputScript.Proofs.Deviation
import InputScript.Proofs.Editing
import InputScript.Proofs.Ending
import InputScript.Proofs.FailStop
import InputScript.Proofs.FaultLocation
import InputScript.Proofs.IgnoredSpaces
import InputScript.Proofs.InTurn
import InputScript.Proofs.Jitter
import InputScript.Proofs.Language
import InputScript.Proofs.ListingText
import InputScript.Proofs.Loading
import InputScript.Proofs.Lockstep
import InputScript.Proofs.LoopStack
import InputScript.Proofs.Meaning
import InputScript.Proofs.Numerals
import InputScript.Proofs.Operands
import InputScript.Proofs.Packing
import InputScript.Proofs.Quoting
import InputScript.Proofs.Record
import InputScript.Proofs.Rehearsal
import InputScript.Proofs.Relocation
import InputScript.Proofs.Rounding
import InputScript.Proofs.SameListing
import InputScript.Proofs.Service
import InputScript.Proofs.Splitting
import InputScript.Proofs.Surroundings
import InputScript.Proofs.Token
import InputScript.Proofs.Tracing
import InputScript.Proofs.Translation
import InputScript.Proofs.TypedText
import InputScript.Proofs.Unfolding
import InputScript.Proofs.Utf8
import InputScript.Proofs.WholePlays
import InputScript.Proofs.Writing
import InputScript.Random.Noise
import InputScript.Random.Twister
import InputScript.Script.Argument
import InputScript.Script.Command
import InputScript.Script.Compile
import InputScript.Script.Compiler
import InputScript.Script.Edit
import InputScript.Script.Fault
import InputScript.Script.Grammar
import InputScript.Script.Location
import InputScript.Script.Phrase
import InputScript.Script.Sleep
import InputScript.Symbol
import InputScript.Text.Blank
import InputScript.Text.DecimalDigit
import InputScript.Text.Digits
import InputScript.Text.Printable
import InputScript.Text.Quoted
import InputScript.Text.Utf8
