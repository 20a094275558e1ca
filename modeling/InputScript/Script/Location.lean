namespace InputScript

structure Location where
  line : Nat
  column : Nat
deriving DecidableEq, Inhabited

namespace Location

def start : Location :=
  ⟨1, 1⟩

def next (l : Location) (c : Char) : Location :=
  if c = '\n' then ⟨l.line + 1, 1⟩ else ⟨l.line, l.column + 1⟩

def after (l : Location) (cs : List Char) : Location :=
  cs.foldl next l

@[simp] theorem after_nil (l : Location) : l.after [] = l := rfl

@[simp] theorem after_cons (l : Location) (c : Char) (cs : List Char) :
    l.after (c :: cs) = (l.next c).after cs := rfl

@[simp] theorem after_append (l : Location) (cs ds : List Char) :
    l.after (cs ++ ds) = (l.after cs).after ds := by
  simp [after]

end Location

end InputScript
