import InputScript.Desktop.Basic
import InputScript.Listing

namespace InputScript

inductive DryRunLine where
  | press (s : Symbol)
  | release (s : Symbol)
  | move (place : Point)
deriving DecidableEq

namespace DryRunLine

def strokeText (action : String) (s : Symbol) : String :=
  "* " ++ Text.padRight 8 ' ' action ++ " " ++ Text.padLeft 6 ' ' s.kind ++ " <" ++ s.name ++ ">\n"

def text : DryRunLine → String
  | .press s => strokeText "press" s
  | .release s => strokeText "release" s
  | .move place => "* move pointer to " ++ place.text ++ "\n"

end DryRunLine

structure DryRun where
  pointer : Point
  pending : List DryRunLine
deriving DecidableEq

namespace DryRun

def name : String := "dry-run"

def fresh : DryRun :=
  ⟨⟨0, 0⟩, []⟩

def write (d : DryRun) (line : DryRunLine) : DryRun :=
  { d with pending := d.pending ++ [line] }

def deliveryText (lines : List DryRunLine) : String :=
  String.join (lines.map DryRunLine.text)

def desktop : Desktop DryRun (List DryRunLine) where
  press s d := .silent (d.write (.press s)) ()
  release s d := .silent (d.write (.release s)) ()
  moveTo place d := .silent ({ d with pointer := place }.write (.move place)) ()
  pointer d := .silent d d.pointer
  flush d := .emits { d with pending := [] } d.pending ()

end DryRun

end InputScript
