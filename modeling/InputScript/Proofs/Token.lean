import InputScript.Script.Phrase
import Mathlib.Data.List.Forall2

/-!
The tokens of scripts, apart from how they are read: what each is made of, which are valid, and what
each valid one adds to a program.
-/

namespace InputScript

open Number.Binary64 (nearest)

inductive Piece where
  | plain (c : Char) (hclose : c ≠ ']') (hescape : c ≠ '\\')
  | escaped (c : Char)

namespace Piece

def char : Piece → Char
  | plain c _ _ => c
  | escaped c => c

def text : Piece → List Char
  | plain c _ _ => [c]
  | escaped c => ['\\', c]

def splits : Piece → Bool
  | plain c _ _ => c = ','
  | escaped _ => false

def word (pieces : List Piece) : String :=
  String.ofList (pieces.map char)

def arguments (body : List Piece) : List String :=
  if body.isEmpty then [] else (body.splitOnP splits).map word

end Piece

inductive Token where
  | char (c : Char)
  | short (command : Char)
  | bracketed (command : Char) (body : List Piece)

namespace Token

def text : Token → List Char
  | char c => [c]
  | short command => ['\\', command]
  | bracketed command body => '\\' :: '[' :: command :: (body.flatMap Piece.text ++ [']'])

def isMove : Token → Bool
  | bracketed command _ => command = '@'
  | _ => false

end Token

def spaces : List Char :=
  ['\t', '\n', '\r', ' ']

def Typable (c : Char) : Prop :=
  c ∈ spaces ∨ ('!' ≤ c ∧ c ≤ '~' ∧ c ≠ '\\') ∨ c = '\x7f'

inductive Key.TypedBy : Key → Char → Prop
  | tab : TypedBy (.control .tab) '\t'
  | lineFeed : TypedBy (.control .enter) '\n'
  | carriageReturn : TypedBy (.control .enter) '\r'
  | space : TypedBy (.mark .space) ' '
  | delete : TypedBy (.control .backspace) '\x7f'
  | own {c : Char} {k : Key} : '!' ≤ c → c ≠ '\\' → k.char? = some c → TypedBy k c

namespace Instruction

inductive Seconds : Nat → List Instruction → Prop
  | none : Seconds 0 []
  | last {n : Nat} (h : n ≤ maxOperand) : 1 ≤ n → n ≤ 4096 → Seconds n [⟨.sleepSec, n, h⟩]
  | piece {n : Nat} {is : List Instruction} : 1 ≤ n → Seconds n is →
      Seconds (4096 + n) (⟨.sleepSec, 4096, by decide⟩ :: is)

/-- The sleeps that seconds are written as. Less than a thousandth, as doubles have it, is not slept at all. -/
inductive Sleeps (seconds : Rat) : List Instruction → Prop
  | short : seconds < nearest (1 / 1000) → Sleeps seconds []
  | whole {n : Nat} {is : List Instruction} : nearest (1 / 1000) ≤ seconds → seconds = n → Seconds n is →
      Sleeps seconds is
  | parted {n ms : Nat} {is : List Instruction} (h : ms ≤ maxOperand) : nearest (1 / 1000) ≤ seconds →
      (n : Rat) < seconds → seconds < n + 1 → Seconds n is →
      (ms : Int) = Number.roundHalfEven (nearest ((seconds - n) * 1000)) →
      Sleeps seconds (is ++ [⟨.sleepMs, ms, h⟩])

end Instruction

theorem Key.code_le (k : Key) : k.code ≤ maxOperand :=
  Nat.le_trans (Nat.le_of_lt k.code_lt) (by decide)

theorem Button.code_le (b : Button) : b.code ≤ maxOperand := by
  cases b <;> decide

theorem toNat_le_maxOperand {n : Int} (h : n ≤ 8191) : n.toNat ≤ maxOperand := by
  unfold maxOperand
  omega

def Phrase.place? : Phrase → Option Point
  | emit _ => none
  | move place => some place

inductive Command.Says : Char → List String → Phrase → Prop
  | backslash : Says '\\' [] (.emit [⟨.keyClick, (Key.mark .backslash).code, Key.code_le _⟩])
  | enter {c : Char} : c = 'n' ∨ c = 'r' →
      Says c [] (.emit [⟨.keyClick, (Key.control .enter).code, Key.code_le _⟩])
  | tab : Says 't' [] (.emit [⟨.keyClick, (Key.control .tab).code, Key.code_le _⟩])
  | space : Says 's' [] (.emit [⟨.keyClick, (Key.mark .space).code, Key.code_le _⟩])
  | second : Says '#' [] (.emit [⟨.sleepSec, 1, by decide⟩])
  | sleep {a : String} {seconds : Rat} {is : List Instruction} : Number.readBinary64? a = some seconds →
      Instruction.Sleeps seconds is → Says '#' [a] (.emit is)
  | leftClick : Says '<' [] (.emit [⟨.buttonClick, Button.left.code, Button.code_le _⟩])
  | middleClick : Says '|' [] (.emit [⟨.buttonClick, Button.middle.code, Button.code_le _⟩])
  | scrollUp : Says '|' ["^"] (.emit [⟨.buttonClick, Button.scrollUp.code, Button.code_le _⟩])
  | scrollDown {a : String} : a = "v" ∨ a = "V" →
      Says '|' [a] (.emit [⟨.buttonClick, Button.scrollDown.code, Button.code_le _⟩])
  | rightClick : Says '>' [] (.emit [⟨.buttonClick, Button.right.code, Button.code_le _⟩])
  | movePointer {a b : String} {x y : Int} : Number.readInteger? a = some x → Number.readInteger? b = some y →
      Says '@' [a, b] (.move ⟨min (max x 0) 65535, min (max y 0) 65535⟩)
  | queryPointer : Says '?' [] (.emit [⟨.pointerWhere, 0, by decide⟩])
  | queryPointerOver : Says '?' ["!"] (.emit [⟨.pointerWhere, 1, by decide⟩])
  | beginEndlessLoop : Says '{' [] (.emit [⟨.loopBegin, 0, by decide⟩])
  | beginLoop {a : String} {n : Int} (hn : n ≤ 8191) : Number.readInteger? a = some n →
      Says '{' [a] (.emit [⟨.loopBegin, n.toNat, toNat_le_maxOperand hn⟩])
  | endLoop : Says '}' [] (.emit [⟨.loopEnd, 0, by decide⟩])
  | clickKey {k : Key} : Says '$' [k.name] (.emit [⟨.keyClick, k.code, k.code_le⟩])
  | pressKey {k : Key} {a : String} : a = "v" ∨ a = "V" →
      Says '$' [k.name, a] (.emit [⟨.keyDown, k.code, k.code_le⟩])
  | releaseKey {k : Key} : Says '$' [k.name, "^"] (.emit [⟨.keyUp, k.code, k.code_le⟩])
  | clickButton {b : Button} : Says '%' [b.name] (.emit [⟨.buttonClick, b.code, b.code_le⟩])
  | pressButton {b : Button} {a : String} : a = "v" ∨ a = "V" →
      Says '%' [b.name, a] (.emit [⟨.buttonDown, b.code, b.code_le⟩])
  | releaseButton {b : Button} : Says '%' [b.name, "^"] (.emit [⟨.buttonUp, b.code, b.code_le⟩])

namespace Token

def Valid : Token → Prop
  | char c => Typable c
  | short command => ∃ phrase, Command.Says command [] phrase
  | bracketed command body => ∃ phrase, Command.Says command (Piece.arguments body) phrase

inductive Means (ignoreSpace : Bool) : Token → Phrase → Prop
  | ignored {c : Char} : ignoreSpace = true → c ∈ spaces → Means ignoreSpace (.char c) (.emit [])
  | typed {c : Char} {k : Key} : (ignoreSpace = true → c ∉ spaces) → k.TypedBy c →
      Means ignoreSpace (.char c) (.emit [⟨.keyClick, k.code, k.code_le⟩])
  | short {c : Char} {phrase : Phrase} : Command.Says c [] phrase →
      Means ignoreSpace (.short c) phrase
  | bracketed {c : Char} {body : List Piece} {phrase : Phrase} :
      Command.Says c (Piece.arguments body) phrase → Means ignoreSpace (.bracketed c body) phrase

end Token

theorem Command.Says.isSome_place? {c : Char} {args : List String} {phrase : Phrase}
    (h : Command.Says c args phrase) : phrase.place?.isSome = (c = '@' : Bool) := by
  cases h
  case enter hc => rcases hc with rfl | rfl <;> rfl
  all_goals rfl

theorem Token.Means.isSome_place? {ignoreSpace : Bool} {t : Token} {phrase : Phrase}
    (h : t.Means ignoreSpace phrase) : phrase.place?.isSome = t.isMove := by
  cases h with
  | ignored => rfl
  | typed => rfl
  | short h =>
    cases h
    all_goals rfl
  | bracketed h => exact h.isSome_place?

namespace Piece

variable {pieces others : List Piece} {rest rest' : List Char}

theorem text_inj (h : pieces.flatMap text ++ ']' :: rest = others.flatMap text ++ ']' :: rest') :
    pieces = others ∧ rest = rest' := by
  induction pieces generalizing others with
  | nil =>
    cases others with
    | nil => exact ⟨rfl, (List.cons.inj h).2⟩
    | cons other others =>
      cases other with
      | plain c hclose _ => exact absurd (List.cons.inj h).1.symm hclose
      | escaped c => exact absurd (List.cons.inj h).1 (by decide)
  | cons piece pieces ih =>
    cases others with
    | nil =>
      cases piece with
      | plain c hclose _ => exact absurd (List.cons.inj h).1 hclose
      | escaped c => exact absurd (List.cons.inj h).1 (by decide)
    | cons other others =>
      cases piece with
      | plain c hclose hescape =>
        cases other with
        | plain d _ _ =>
          obtain ⟨rfl, htail⟩ := List.cons.inj h
          obtain ⟨rfl, hrest⟩ := ih htail
          exact ⟨rfl, hrest⟩
        | escaped d => exact absurd (List.cons.inj h).1 hescape
      | escaped c =>
        cases other with
        | plain d _ hescape => exact absurd (List.cons.inj h).1.symm hescape
        | escaped d =>
          obtain ⟨rfl, htail⟩ := List.cons.inj (List.cons.inj h).2
          obtain ⟨rfl, hrest⟩ := ih htail
          exact ⟨rfl, hrest⟩

end Piece

namespace Token

variable {t t' : Token} {rest rest' : List Char}

def Formed : Token → Prop
  | char c => c ≠ '\\'
  | short command => command ≠ '['
  | bracketed _ _ => True

theorem Valid.formed (h : t.Valid) : t.Formed := by
  cases t with
  | char c =>
    rintro rfl
    rcases h with hspace | ⟨-, -, hescape⟩ | hdelete
    · exact absurd hspace (by decide)
    · exact hescape rfl
    · exact absurd hdelete (by decide)
  | short c =>
    rintro rfl
    obtain ⟨phrase, h⟩ := h
    cases h with
    | enter hc => exact absurd hc (by decide)
  | bracketed c body => trivial

theorem text_inj (h : t.Formed) (h' : t'.Formed) (htext : t.text ++ rest = t'.text ++ rest') :
    t = t' ∧ rest = rest' := by
  cases t with
  | char c =>
    cases t' with
    | char c' =>
      obtain ⟨rfl, hrest⟩ := List.cons.inj htext
      exact ⟨rfl, hrest⟩
    | short c' => exact absurd (List.cons.inj htext).1 h
    | bracketed c' body' => exact absurd (List.cons.inj htext).1 h
  | short c =>
    cases t' with
    | char c' => exact absurd (List.cons.inj htext).1.symm h'
    | short c' =>
      obtain ⟨rfl, hrest⟩ := List.cons.inj (List.cons.inj htext).2
      exact ⟨rfl, hrest⟩
    | bracketed c' body' => exact absurd (List.cons.inj (List.cons.inj htext).2).1 h
  | bracketed c body =>
    cases t' with
    | char c' => exact absurd (List.cons.inj htext).1.symm h'
    | short c' => exact absurd (List.cons.inj (List.cons.inj htext).2).1.symm h'
    | bracketed c' body' =>
      obtain ⟨rfl, -⟩ := List.cons.inj (List.cons.inj (List.cons.inj htext).2).2
      have hbody : body.flatMap Piece.text ++ ']' :: rest = body'.flatMap Piece.text ++ ']' :: rest' := by
        simpa [text] using htext
      obtain ⟨rfl, hrest⟩ := Piece.text_inj hbody
      exact ⟨rfl, hrest⟩

theorem texts_inj {ts ts' : List Token} (h : ∀ t ∈ ts, t.Formed) (h' : ∀ t ∈ ts', t.Formed)
    (htext : ts.flatMap text = ts'.flatMap text) : ts = ts' := by
  induction ts generalizing ts' with
  | nil =>
    cases ts' with
    | nil => rfl
    | cons t' ts' => cases t' <;> cases htext
  | cons t ts ih =>
    cases ts' with
    | nil => cases t <;> cases htext
    | cons t' ts' =>
      rw [List.flatMap_cons, List.flatMap_cons] at htext
      obtain ⟨rfl, hrest⟩ := text_inj (h t List.mem_cons_self) (h' t' List.mem_cons_self) htext
      rw [ih (fun t ht => h t (List.mem_cons_of_mem _ ht))
        (fun t ht => h' t (List.mem_cons_of_mem _ ht)) hrest]

end Token

end InputScript
