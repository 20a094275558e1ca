/-!
The arguments of a command stand between brackets. Commas split them and a closing bracket ends them,
unless a backslash stands before; nothing at all between the brackets is no argument.
-/

namespace InputScript

structure Body where
  complete : List String
  word : List Char
  escaped : Bool
deriving DecidableEq

inductive Body.Progress where
  | more (body : Body)
  | closed (arguments : List String)
deriving DecidableEq

namespace Body

def empty : Body :=
  ⟨[], [], false⟩

def arguments (b : Body) : List String :=
  if b.complete.isEmpty && b.word.isEmpty then []
  else (String.ofList b.word.reverse :: b.complete).reverse

def step (b : Body) (c : Char) : Progress :=
  if b.escaped then .more ⟨b.complete, c :: b.word, false⟩
  else if c = '\\' then .more ⟨b.complete, b.word, true⟩
  else if c = ']' then .closed b.arguments
  else if c = ',' then .more ⟨String.ofList b.word.reverse :: b.complete, [], false⟩
  else .more ⟨b.complete, c :: b.word, false⟩

end Body

end InputScript
