namespace InputScript

inductive Mark where
  | space
  | exclam
  | quotation
  | numberSign
  | dollar
  | percent
  | ampersand
  | apostrophe
  | parenLeft
  | parenRight
  | asterisk
  | plus
  | comma
  | minus
  | period
  | slash
  | colon
  | semicolon
  | less
  | equal
  | greater
  | question
  | atSign
  | bracketLeft
  | backslash
  | bracketRight
  | circumflex
  | underscore
  | grave
  | braceLeft
  | bar
  | braceRight
  | tilde
deriving DecidableEq

inductive Control where
  | backspace
  | tab
  | enter
  | escape
  | delete
  | controlLeft
  | shiftLeft
  | altLeft
  | metaLeft
  | superLeft
  | controlRight
  | shiftRight
  | altRight
  | metaRight
  | superRight
deriving DecidableEq

inductive Key where
  | digit (n : Fin 10)
  | capital (n : Fin 26)
  | small (n : Fin 26)
  | mark (m : Mark)
  | control (c : Control)
deriving DecidableEq

namespace Mark

def all : List Mark :=
  [.space, .exclam, .quotation, .numberSign, .dollar, .percent, .ampersand, .apostrophe,
    .parenLeft, .parenRight, .asterisk, .plus, .comma, .minus, .period, .slash, .colon, .semicolon,
    .less, .equal, .greater, .question, .atSign, .bracketLeft, .backslash, .bracketRight, .circumflex,
    .underscore, .grave, .braceLeft, .bar, .braceRight, .tilde]

def index : Mark → Nat
  | .space => 0
  | .exclam => 1
  | .quotation => 2
  | .numberSign => 3
  | .dollar => 4
  | .percent => 5
  | .ampersand => 6
  | .apostrophe => 7
  | .parenLeft => 8
  | .parenRight => 9
  | .asterisk => 10
  | .plus => 11
  | .comma => 12
  | .minus => 13
  | .period => 14
  | .slash => 15
  | .colon => 16
  | .semicolon => 17
  | .less => 18
  | .equal => 19
  | .greater => 20
  | .question => 21
  | .atSign => 22
  | .bracketLeft => 23
  | .backslash => 24
  | .bracketRight => 25
  | .circumflex => 26
  | .underscore => 27
  | .grave => 28
  | .braceLeft => 29
  | .bar => 30
  | .braceRight => 31
  | .tilde => 32

def name : Mark → String
  | .space => "SPACE"
  | .exclam => "EXCLAM"
  | .quotation => "QUOTATION"
  | .numberSign => "NUMBERSIGN"
  | .dollar => "DOLLAR"
  | .percent => "PERCENT"
  | .ampersand => "AMPERSAND"
  | .apostrophe => "APOSTROPHE"
  | .parenLeft => "PARENLEFT"
  | .parenRight => "PARENRIGHT"
  | .asterisk => "ASTERISK"
  | .plus => "PLUS"
  | .comma => "COMMA"
  | .minus => "MINUS"
  | .period => "PERIOD"
  | .slash => "SLASH"
  | .colon => "COLON"
  | .semicolon => "SEMICOLON"
  | .less => "LESS"
  | .equal => "EQUAL"
  | .greater => "GREATER"
  | .question => "QUESTION"
  | .atSign => "AT"
  | .bracketLeft => "BRACKETLEFT"
  | .backslash => "BACKSLASH"
  | .bracketRight => "BRACKETRIGHT"
  | .circumflex => "ASCIICIRCUM"
  | .underscore => "UNDERSCORE"
  | .grave => "GRAVE"
  | .braceLeft => "BRACELEFT"
  | .bar => "BAR"
  | .braceRight => "BRACERIGHT"
  | .tilde => "ASCIITILDE"

def char : Mark → Char
  | .space => ' '
  | .exclam => '!'
  | .quotation => '\x22'
  | .numberSign => '#'
  | .dollar => '$'
  | .percent => '%'
  | .ampersand => '&'
  | .apostrophe => '\x27'
  | .parenLeft => '('
  | .parenRight => ')'
  | .asterisk => '*'
  | .plus => '+'
  | .comma => ','
  | .minus => '-'
  | .period => '.'
  | .slash => '/'
  | .colon => ':'
  | .semicolon => ';'
  | .less => '<'
  | .equal => '='
  | .greater => '>'
  | .question => '?'
  | .atSign => '@'
  | .bracketLeft => '['
  | .backslash => '\\'
  | .bracketRight => ']'
  | .circumflex => '^'
  | .underscore => '_'
  | .grave => '\x60'
  | .braceLeft => '{'
  | .bar => '|'
  | .braceRight => '}'
  | .tilde => '~'

end Mark

namespace Control

def all : List Control :=
  [.backspace, .tab, .enter, .escape, .delete, .controlLeft, .shiftLeft, .altLeft, .metaLeft,
    .superLeft, .controlRight, .shiftRight, .altRight, .metaRight, .superRight]

def index : Control → Nat
  | .backspace => 0
  | .tab => 1
  | .enter => 2
  | .escape => 3
  | .delete => 4
  | .controlLeft => 5
  | .shiftLeft => 6
  | .altLeft => 7
  | .metaLeft => 8
  | .superLeft => 9
  | .controlRight => 10
  | .shiftRight => 11
  | .altRight => 12
  | .metaRight => 13
  | .superRight => 14

def name : Control → String
  | .backspace => "BACKSPACE"
  | .tab => "TAB"
  | .enter => "RETURN"
  | .escape => "ESCAPE"
  | .delete => "DELETE"
  | .controlLeft => "CONTROL_L"
  | .shiftLeft => "SHIFT_L"
  | .altLeft => "ALT_L"
  | .metaLeft => "META_L"
  | .superLeft => "SUPER_L"
  | .controlRight => "CONTROL_R"
  | .shiftRight => "SHIFT_R"
  | .altRight => "ALT_R"
  | .metaRight => "META_R"
  | .superRight => "SUPER_R"

end Control

namespace Key

def all : List Key :=
  (List.finRange 10).map .digit ++ (List.finRange 26).map .capital ++
    (List.finRange 26).map .small ++ Mark.all.map .mark ++ Control.all.map .control

def code : Key → Nat
  | .digit n => n
  | .capital n => 10 + n
  | .small n => 36 + n
  | .mark m => 62 + m.index
  | .control c => 95 + c.index

def ofCode? (n : Nat) : Option Key :=
  all[n]?

def char? : Key → Option Char
  | .digit n => some (Char.ofNat (48 + n))
  | .capital n => some (Char.ofNat (65 + n))
  | .small n => some (Char.ofNat (97 + n))
  | .mark m => some m.char
  | .control _ => none

def name : Key → String
  | .digit n => String.singleton (Char.ofNat (48 + n))
  | .capital n => String.singleton (Char.ofNat (65 + n))
  | .small n => String.singleton (Char.ofNat (97 + n))
  | .mark m => m.name
  | .control c => c.name

def ofName? (name : String) : Option Key :=
  all.find? (·.name == name)

def ofChar? (c : Char) : Option Key :=
  all.find? (·.char? == some c)

theorem length_all : all.length = 110 := by decide

theorem ofCode?_code (k : Key) : ofCode? k.code = some k := by
  cases k with
  | digit n => revert n; decide
  | capital n => revert n; decide
  | small n => revert n; decide
  | mark m => cases m <;> decide
  | control c => cases c <;> decide

theorem mem_all (k : Key) : k ∈ all :=
  List.mem_of_getElem? (ofCode?_code k)

theorem code_lt (k : Key) : k.code < 110 := by
  have h := ofCode?_code k
  unfold ofCode? at h
  rw [← length_all]
  exact (List.getElem?_eq_some_iff.1 h).1

theorem code_of_ofCode? {n : Nat} {k : Key} (h : ofCode? n = some k) : k.code = n := by
  have hcodes : all.map code = List.range 110 := by decide
  have hn : (all.map code)[n]? = some k.code := by
    rw [List.getElem?_map, show all[n]? = some k from h, Option.map_some]
  rw [hcodes] at hn
  obtain ⟨_, hk⟩ := List.getElem?_eq_some_iff.1 hn
  rw [← hk, List.getElem_range]

end Key

end InputScript
