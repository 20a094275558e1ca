import InputScript.Text.Quoted

namespace InputScript.Cli

inductive PathFault where
  | missing
  | directory
  | notDirectory
  | nameTooLong
deriving DecidableEq

namespace PathFault

def number : PathFault → Nat
  | .missing => 2
  | .notDirectory => 20
  | .directory => 21
  | .nameTooLong => 36

def reason : PathFault → String
  | .missing => "No such file or directory"
  | .notDirectory => "Not a directory"
  | .directory => "Is a directory"
  | .nameTooLong => "File name too long"

def message (fault : PathFault) (name : String) : String :=
  "[Errno " ++ Text.decimal fault.number ++ "] " ++ fault.reason ++ ": " ++ Text.quoted name

end PathFault

inductive Entry where
  | directory
  | file (content : List UInt8)
deriving DecidableEq

structure FileTree where
  entries : List (List String × Entry)
  here : List String

def maxPathBytes : Nat := 4095

def maxNameBytes : Nat := 255

def splitSlashes : List Char → List (List Char)
  | [] => [[]]
  | c :: rest =>
    match c, splitSlashes rest with
    | '/', names => [] :: names
    | c, name :: names => (c :: name) :: names
    | c, [] => [[c]]

namespace FileTree

def entry? (t : FileTree) (place : List String) : Option Entry :=
  if place.isPrefixOf t.here then some .directory else t.entries.lookup place

def content (t : FileTree) (place : List String) : Except PathFault (List UInt8) :=
  match t.entry? place with
  | none => .error .missing
  | some .directory => .error .directory
  | some (.file content) => .ok content

def follow (t : FileTree) (place : List String) : List String → Except PathFault (List UInt8)
  | [] => t.content place
  | name :: rest =>
    match t.entry? place with
    | none => .error .missing
    | some (.file _) => .error .notDirectory
    | some .directory =>
      if name = "" ∨ name = "." then t.follow place rest
      else if name = ".." then t.follow place.dropLast rest
      else if maxNameBytes < name.utf8ByteSize then .error .nameTooLong
      else t.follow (place ++ [name]) rest

def read (t : FileTree) (path : String) : Except PathFault (List UInt8) :=
  if path = "" then .error .missing
  else if maxPathBytes < path.utf8ByteSize then .error .nameTooLong
  else
    t.follow (if path.toList.head? = some '/' then [] else t.here)
      ((splitSlashes path.toList).map String.ofList)

end FileTree

example : splitSlashes "a//b/".toList = [['a'], [], ['b'], []] := by decide
example : (PathFault.missing.message "a") = "[Errno 2] No such file or directory: 'a'" := by decide

end InputScript.Cli
