namespace InputScript

inductive Command where
  | backslash
  | enter
  | tab
  | space
  | sleep
  | leftClick
  | middleClick
  | rightClick
  | movePointer
  | queryPointer
  | beginLoop
  | endLoop
  | sendKey
  | sendButton
deriving DecidableEq

namespace Command

def all : List Command :=
  [.backslash, .enter, .tab, .space, .sleep, .leftClick, .middleClick, .rightClick, .movePointer,
    .queryPointer, .beginLoop, .endLoop, .sendKey, .sendButton]

def chars : Command → List Char
  | .backslash => ['\\']
  | .enter => ['n', 'r']
  | .tab => ['t']
  | .space => ['s']
  | .sleep => ['#']
  | .leftClick => ['<']
  | .middleClick => ['|']
  | .rightClick => ['>']
  | .movePointer => ['@']
  | .queryPointer => ['?']
  | .beginLoop => ['{']
  | .endLoop => ['}']
  | .sendKey => ['$']
  | .sendButton => ['%']

def ofChar? (c : Char) : Option Command :=
  all.find? (·.chars.contains c)

def forms : Command → List String
  | .backslash => ["\"\\\\\""]
  | .enter => ["\"\\n\"", "\"\\r\""]
  | .tab => ["\"\\t\""]
  | .space => ["\"\\s\""]
  | .sleep => ["\"\\#\"", "(\"\\[#\" FLOAT \"]\")"]
  | .leftClick => ["\"\\<\""]
  | .middleClick => ["\"\\|\"", "\"\\[|^]\"", "\"\\[|v]\""]
  | .rightClick => ["\"\\>\""]
  | .movePointer => ["\"\\[@\" INT \",\" INT \"]\""]
  | .queryPointer => ["\"\\?\"", "\"\\[?!]\""]
  | .beginLoop => ["\"\\\x7b\"", "\"\\[\x7b\" INT \"]\""]
  | .endLoop => ["\"\\\x7d\""]
  | .sendKey => ["\"\\[$\" KEY_NAME [ \",\" \"v\" | \"^\" ] \"]\""]
  | .sendButton => ["\"\\[%\" BUTTON_NAME [ \",\" \"v\" | \"^\" ] \"]\""]

def description : Command → String
  | .backslash => "backslash key"
  | .enter => "enter key"
  | .tab => "tab key"
  | .space => "space key"
  | .sleep => "sleep for 1 or FLOAT seconds"
  | .leftClick => "left click"
  | .middleClick => "middle click / scroll up / scroll down"
  | .rightClick => "right click"
  | .movePointer => "move pointer to the coordinate"
  | .queryPointer => "get pointer coordinate and print / print without LF"
  | .beginLoop => "begin loop forever / INT times (INT <= 0 means forever)"
  | .endLoop => "end loop"
  | .sendKey => "click / press / release key"
  | .sendButton => "click / press / release button"

def argumentRule : Command → String
  | .backslash => "backslash takes no arguments"
  | .enter => "enter takes no arguments"
  | .tab => "tab takes no arguments"
  | .space => "space takes no arguments"
  | .sleep => "sleep takes at most one argument"
  | .leftClick => "left click takes no arguments"
  | .middleClick => "middle click takes no argument or one of '^', 'v', 'V'"
  | .rightClick => "right click takes no arguments"
  | .movePointer => "pointer move takes exactly two arguments"
  | .queryPointer => "pointer query takes at most one argument"
  | .beginLoop => "loop takes at most one argument"
  | .endLoop => "end loop takes no arguments"
  | .sendKey => "key command takes one or two arguments"
  | .sendButton => "button command takes one or two arguments"

theorem ofChar?_of_mem {c : Char} {command : Command} (h : c ∈ command.chars) :
    ofChar? c = some command := by
  cases command <;> simp only [chars, List.mem_cons, List.not_mem_nil, or_false] at h
  case enter => rcases h with rfl | rfl <;> decide
  all_goals subst h; decide

theorem ofChar?_eq_some {c : Char} {command : Command} :
    ofChar? c = some command ↔ c ∈ command.chars :=
  ⟨fun h => by simpa using List.find?_some h, ofChar?_of_mem⟩

end Command

end InputScript
