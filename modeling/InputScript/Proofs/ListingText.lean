import InputScript.Listing
import InputScript.Proofs.Meaning

namespace InputScript

namespace Text

variable {xs ys us vs : List Char} {c : Char} {m n : Nat}

theorem takeWhile_ne_append (h : c ∉ xs) (ys : List Char) :
    (xs ++ ys).takeWhile (· ≠ c) = xs ++ ys.takeWhile (· ≠ c) :=
  List.takeWhile_append_of_pos fun _ ha => decide_eq_true fun hac => h (hac ▸ ha)

theorem dropWhile_ne_append (h : c ∉ xs) (ys : List Char) :
    (xs ++ ys).dropWhile (· ≠ c) = ys.dropWhile (· ≠ c) :=
  List.dropWhile_append_of_pos fun _ ha => decide_eq_true fun hac => h (hac ▸ ha)

theorem split_inj (hx : c ∉ xs) (hy : c ∉ ys) (h : xs ++ c :: us = ys ++ c :: vs) : xs = ys ∧ us = vs := by
  have hcut {zs ws : List Char} (hz : c ∉ zs) : (zs ++ c :: ws).takeWhile (· ≠ c) = zs := by
    rw [takeWhile_ne_append hz]
    simp
  have hxy : xs = ys := by rw [← hcut hx, h, hcut hy]
  subst hxy
  exact ⟨rfl, (List.cons.inj (List.append_cancel_left h)).2⟩

theorem decimal_injective : Function.Injective decimal := by
  intro m n h
  have hdigits : Nat.toDigits 10 m = Nat.toDigits 10 n := String.ofList_injective h
  calc
    m = Nat.ofDigitChars 10 (Nat.toDigits 10 m) 0 := Nat.ofDigitChars_ten_toDigits.symm
    _ = Nat.ofDigitChars 10 (Nat.toDigits 10 n) 0 := by rw [hdigits]
    _ = n := Nat.ofDigitChars_ten_toDigits

theorem isDigit_of_mem_decimal (h : c ∈ (decimal n).toList) : c.isDigit = true := by
  rw [decimal, String.toList_ofList] at h
  exact Nat.isDigit_of_mem_toDigits (by decide) (by decide) h

theorem not_mem_decimal (hc : c.isDigit = false) (n : Nat) : c ∉ (decimal n).toList := by
  intro h
  rw [isDigit_of_mem_decimal h] at hc
  cases hc

theorem signedDecimal_of_neg {n : Int} (h : n < 0) : (signedDecimal n).toList = '-' :: (decimal n.natAbs).toList := by
  rw [signedDecimal, if_pos h, String.toList_append]
  rfl

theorem signedDecimal_of_nonneg {n : Int} (h : 0 ≤ n) : signedDecimal n = decimal n.natAbs :=
  if_neg (Int.not_lt.mpr h)

theorem signedDecimal_injective : Function.Injective signedDecimal := by
  have hmixed {m n : Int} (hm : m < 0) (hn : 0 ≤ n) : signedDecimal m ≠ signedDecimal n := by
    intro h
    have hminus : '-' ∈ (signedDecimal n).toList := by
      rw [← h, signedDecimal_of_neg hm]
      exact List.mem_cons_self
    rw [signedDecimal_of_nonneg hn] at hminus
    exact not_mem_decimal rfl _ hminus
  intro m n h
  rcases Int.lt_or_le m 0 with hm | hm <;> rcases Int.lt_or_le n 0 with hn | hn
  · have hlists := congrArg String.toList h
    rw [signedDecimal_of_neg hm, signedDecimal_of_neg hn] at hlists
    have habs := decimal_injective (String.toList_inj.mp (List.cons.inj hlists).2)
    omega
  · exact absurd h (hmixed hm hn)
  · exact absurd h.symm (hmixed hn hm)
  · rw [signedDecimal_of_nonneg hm, signedDecimal_of_nonneg hn] at h
    have habs := decimal_injective h
    omega

theorem mem_signedDecimal {n : Int} (h : c ∈ (signedDecimal n).toList) : c = '-' ∨ c.isDigit = true := by
  rcases Int.lt_or_le n 0 with hn | hn
  · rw [signedDecimal_of_neg hn] at h
    rcases List.mem_cons.mp h with hminus | hdigit
    · exact .inl hminus
    · exact .inr (isDigit_of_mem_decimal hdigit)
  · rw [signedDecimal_of_nonneg hn] at h
    exact .inr (isDigit_of_mem_decimal h)

end Text

namespace Point

open Text

theorem toList_text (p : Point) : p.text.toList =
    '(' :: ((signedDecimal p.x).toList ++ ',' :: ((signedDecimal p.y).toList ++ [')'])) := by
  simp [text]

theorem text_injective : Function.Injective text := by
  have hcomma (n : Int) : ',' ∉ (signedDecimal n).toList := by
    intro h
    rcases mem_signedDecimal h with hminus | hdigit
    · cases hminus
    · cases hdigit
  intro p q h
  have hlists := congrArg String.toList h
  rw [toList_text, toList_text] at hlists
  obtain ⟨hx, hy⟩ := split_inj (hcomma _) (hcomma _) (List.cons.inj hlists).2
  have hx' := signedDecimal_injective (String.toList_inj.mp hx)
  have hy' := signedDecimal_injective (String.toList_inj.mp (List.append_cancel_right hy))
  cases p
  cases q
  simp_all

theorem text_ne_invalid (p : Point) : p.text ≠ "(invalid)" := by
  intro h
  have hcomma : ',' ∈ p.text.toList := by
    rw [toList_text]
    simp
  rw [h] at hcomma
  exact absurd hcomma (by decide)

end Point

theorem Opcode.not_mem_name (op : Opcode) : ' ' ∉ op.name.toList := by
  cases op <;> decide

theorem Opcode.exists_name (op : Opcode) : ∃ c cs, op.name.toList = c :: cs ∧ c ≠ ' ' := by
  cases op <;> exact ⟨_, _, rfl, by decide⟩

theorem Opcode.ofName?_name (op : Opcode) : ofName? op.name = some op := by
  cases op <;> decide

theorem Opcode.name_injective : Function.Injective name := by
  intro op op' h
  apply Option.some.inj
  rw [← ofName?_name, h, ofName?_name]

theorem Key.name_injective : Function.Injective name := by
  intro k k' h
  apply Option.some.inj
  rw [← ofName?_eq_some.mpr rfl, ofName?_eq_some.mpr h]

theorem Button.name_injective : Function.Injective name := by
  intro b b' h
  apply Option.some.inj
  rw [← ofName?_eq_some.mpr rfl, ofName?_eq_some.mpr h]

theorem Key.not_prefix_name (k : Key) : ¬ ['0', 'x'] <+: k.name.toList := by
  cases k with
  | digit n => revert n; decide
  | capital n => revert n; decide
  | small n => revert n; decide
  | mark m => cases m <;> decide
  | control c => cases c <;> decide

theorem Key.name_ne_raw (k : Key) (n : Nat) : k.name ≠ rawOperand n := by
  intro h
  apply k.not_prefix_name
  rw [h, rawOperand, String.toList_append]
  exact List.prefix_append ['0', 'x'] _

theorem Button.name_ne_raw (b : Button) (n : Nat) : b.name ≠ rawOperand n := by
  intro h
  have hraw : ['0', 'x'] <+: b.name.toList := by
    rw [h, rawOperand, String.toList_append]
    exact List.prefix_append ['0', 'x'] _
  revert hraw
  cases b <;> decide

theorem eq_of_text_eq {α : Type} {text : α → String} {none none' : String} {x y : Option α}
    (htext : Function.Injective text) (hnone : ∀ a, text a ≠ none) (hnone' : ∀ a, text a ≠ none')
    (h : x.elim none text = y.elim none' text) : x = y := by
  cases x with
  | none =>
    cases y with
    | none => rfl
    | some b => exact absurd h.symm (hnone b)
  | some a =>
    cases y with
    | none => exact absurd h (hnone' a)
    | some b => rw [htext h]

theorem keyText_eq (n : Nat) : keyText n = (Key.ofCode? n).elim (rawOperand n) Key.name := by
  unfold keyText
  cases Key.ofCode? n <;> rfl

theorem buttonText_eq (n : Nat) : buttonText n = (Button.ofCode? n).elim (rawOperand n) Button.name := by
  unfold buttonText
  cases Button.ofCode? n <;> rfl

theorem positionText_eq (ps : Array Point) (n : Nat) :
    positionText ps n = ps[n]?.elim "(invalid)" Point.text := by
  unfold positionText
  cases ps[n]? <;> rfl

namespace Program

def detail (p : Program) (i : Instruction) : String :=
  match i.opcode with
  | .keyUp | .keyDown | .keyClick => " " ++ keyText i.operand
  | .buttonUp | .buttonDown | .buttonClick => " " ++ buttonText i.operand
  | .pointerGoto => " #" ++ Text.decimal i.operand ++ " " ++ positionText p.positions i.operand
  | .pointerWhere => if overwritesLine i.operand then " !" else ""
  | .loopBegin => " " ++ (if i.operand = 0 then "forever" else Text.decimal i.operand)
  | .loopEnd => ""
  | .sleepMs | .sleepSec => " " ++ Text.decimal i.operand

variable {p q : Program} {i j : Instruction}

theorem describe_eq (p : Program) (i : Instruction) : p.describe i = i.opcode.name ++ p.detail i := by
  unfold describe detail
  cases i.opcode <;> simp only [String.append_assoc, String.append_empty]
  case pointerWhere => split_ifs <;> rfl

theorem detail_takeWhile (p : Program) (i : Instruction) : (p.detail i).toList.takeWhile (· ≠ ' ') = [] := by
  unfold detail
  cases i.opcode <;> simp only [String.toList_append]
  case pointerWhere => split_ifs <;> rfl
  all_goals rfl

theorem describe_takeWhile (p : Program) (i : Instruction) :
    (p.describe i).toList.takeWhile (· ≠ ' ') = i.opcode.name.toList := by
  rw [describe_eq, String.toList_append, Text.takeWhile_ne_append i.opcode.not_mem_name, detail_takeWhile,
    List.append_nil]

theorem opcode_of_describe (h : p.describe i = q.describe j) : i.opcode = j.opcode := by
  apply Opcode.name_injective
  rw [← String.toList_inj, ← p.describe_takeWhile i, ← q.describe_takeWhile j, h]

theorem detail_of_describe (h : p.describe i = q.describe j) : p.detail i = q.detail j := by
  have hopcode := opcode_of_describe h
  rw [describe_eq, describe_eq, hopcode] at h
  exact (String.append_right_inj _).mp h

def depthBefore (p : Program) (a : Nat) : Nat :=
  (p.instructions.toList.take a).foldl depthAfter 0

def line (p : Program) (a : Nat) (i : Instruction) : String :=
  addressText a ++ indentation (depthAt (p.depthBefore a) i) ++ p.describe i

theorem linesFrom_getElem? (p : Program) (is : List Instruction) (a depth k : Nat) :
    (p.linesFrom a depth is)[k]? = is[k]?.map fun i => addressText (a + k) ++
      indentation (depthAt ((is.take k).foldl depthAfter depth) i) ++ p.describe i := by
  induction is generalizing a depth k with
  | nil => rfl
  | cons i is ih =>
    cases k with
    | zero => rfl
    | succ k =>
      rw [linesFrom, List.getElem?_cons_succ, ih, List.getElem?_cons_succ, List.take_succ_cons,
        List.foldl_cons, Nat.add_right_comm, Nat.add_assoc]

theorem listing_getElem? (p : Program) (a : Nat) : p.listing[a]? = p.instructions[a]?.map (p.line a) := by
  rw [listing, linesFrom_getElem?, Array.getElem?_toList, Nat.zero_add]
  rfl

theorem length_linesFrom (p : Program) (is : List Instruction) (a depth : Nat) :
    (p.linesFrom a depth is).length = is.length := by
  induction is generalizing a depth with
  | nil => rfl
  | cons i is ih => rw [linesFrom, List.length_cons, ih, List.length_cons]

theorem length_listing (p : Program) : p.listing.length = p.size :=
  p.length_linesFrom _ 0 0

theorem toList_indentation (depth : Nat) : (indentation depth).toList = List.replicate (2 * depth) ' ' := by
  rw [indentation, String.toList_ofList]

theorem indented_dropWhile (p : Program) (i : Instruction) (depth : Nat) :
    (indentation depth ++ p.describe i).toList.dropWhile (· = ' ') = (p.describe i).toList := by
  obtain ⟨c, cs, hname, hc⟩ := i.opcode.exists_name
  have hspaces : ∀ x ∈ (indentation depth).toList, decide (x = ' ') = true := by
    intro x hx
    rw [toList_indentation] at hx
    exact decide_eq_true (List.eq_of_mem_replicate hx)
  rw [String.toList_append, List.dropWhile_append_of_pos hspaces, describe_eq, String.toList_append, hname,
    List.cons_append, List.dropWhile_cons_of_neg (by simpa using hc)]

theorem describe_of_line {a : Nat} (h : p.line a i = q.line a j) : p.describe i = q.describe j := by
  rw [line, line, String.append_assoc, String.append_assoc, String.append_right_inj] at h
  rw [← String.toList_inj, ← p.indented_dropWhile, h, indented_dropWhile]

end Program

end InputScript
