import InputScript.Key

namespace InputScript

inductive Button where
  | left
  | middle
  | right
  | scrollUp
  | scrollDown
deriving DecidableEq

namespace Button

def all : List Button :=
  [.left, .middle, .right, .scrollUp, .scrollDown]

def code : Button → Nat
  | .left => 0
  | .middle => 1
  | .right => 2
  | .scrollUp => 3
  | .scrollDown => 4

def ofCode? (n : Nat) : Option Button :=
  all[n]?

def name : Button → String
  | .left => "LEFT"
  | .middle => "MIDDLE"
  | .right => "RIGHT"
  | .scrollUp => "SCROLL_UP"
  | .scrollDown => "SCROLL_DOWN"

def ofName? (name : String) : Option Button :=
  all.find? (·.name == name)

def isScroll : Button → Bool
  | .scrollUp | .scrollDown => true
  | _ => false

theorem ofCode?_code (b : Button) : ofCode? b.code = some b := by
  cases b <;> rfl

theorem code_of_ofCode? {n : Nat} {b : Button} (h : ofCode? n = some b) : b.code = n := by
  match n with
  | 0 | 1 | 2 | 3 | 4 => simp [ofCode?, all] at h; subst h; rfl
  | n + 5 => simp [ofCode?, all] at h

end Button

inductive Symbol where
  | key (k : Key)
  | button (b : Button)
deriving DecidableEq

namespace Symbol

def kind : Symbol → String
  | .key _ => "key"
  | .button _ => "button"

def name : Symbol → String
  | .key k => k.name
  | .button b => b.name

end Symbol

end InputScript
