import InputScript.Proofs.ListingText
import InputScript.Proofs.Rounding
import Mathlib.Data.List.TakeDrop
import Mathlib.Data.List.TakeWhile

namespace InputScript

namespace Text

variable {p : Char → Bool} {cs : List Char} {c : Char}

theorem trim_eq_self (h : ∀ c ∈ cs, p c = false) : trim p cs = cs := by
  have hkeep {ds : List Char} (hds : ∀ c ∈ ds, p c = false) : ds.dropWhile p = ds := by
    rw [List.dropWhile_eq_self_iff]
    intro hlength
    rw [hds _ (List.getElem_mem hlength)]
    exact Bool.false_ne_true
  rw [trim, hkeep h, hkeep (by simpa using h), List.reverse_reverse]

theorem toNat_of_isDigit (h : c.isDigit = true) : 48 ≤ c.toNat ∧ c.toNat ≤ 57 := by
  simp only [Char.isDigit, Bool.and_eq_true, decide_eq_true_eq, ge_iff_le, UInt32.le_iff_toNat_le] at h
  exact h

theorem digitValue?_of_isDigit (h : c.isDigit = true) : digitValue? c = some (c.toNat - 48) := by
  obtain ⟨hlow, hhigh⟩ := toNat_of_isDigit h
  have hzero : (decide (48 ≤ c.toNat) && decide (c.toNat < 48 + 10)) = true := by
    simp only [Bool.and_eq_true, decide_eq_true_eq]
    omega
  have hfirst : digitZeros.find? (fun z => z ≤ c.toNat && c.toNat < z + 10) = some 48 := by
    rw [show digitZeros = 48 :: digitZeros.tail from rfl]
    exact List.find?_cons_of_pos hzero
  rw [digitValue?, hfirst, Option.map_some]

theorem isBlank_of_isDigit (h : c.isDigit = true) : isBlank c = false := by
  obtain ⟨hlow, hhigh⟩ := toNat_of_isDigit h
  simp only [isBlank, Bool.or_eq_false_iff, Bool.and_eq_false_iff, decide_eq_false_iff_not, beq_eq_false_iff_ne]
  omega

theorem decimal_ne_nil (n : Nat) : (decimal n).toList ≠ [] := by
  rw [decimal, String.toList_ofList]
  exact Nat.toDigits_ne_nil

theorem length_decimal_le {n k : Nat} (h : n < 10 ^ (k + 1)) : (decimal n).toList.length ≤ k + 1 := by
  rw [decimal, String.toList_ofList]
  exact (Nat.length_toDigits_le_iff (by decide) k.succ_pos).mpr h

theorem not_isBlank_of_mem_signedDecimal {n : Int} (h : c ∈ (signedDecimal n).toList) : isBlank c = false := by
  rcases mem_signedDecimal h with rfl | hdigit
  · rfl
  · exact isBlank_of_isDigit hdigit

end Text

namespace Number

open Text

variable {cs : List Char}

theorem dropSeparators?_eq_self (h : '_' ∉ cs) (afterDigit : Bool) : dropSeparators? afterDigit cs = some cs := by
  induction cs generalizing afterDigit with
  | nil => rfl
  | cons c cs ih =>
    rw [List.mem_cons, not_or] at h
    rw [dropSeparators?, if_neg (Ne.symm h.1), ih h.2, Option.map_some]

theorem digits?_of_isDigit (h : ∀ c ∈ cs, c.isDigit = true) : digits? cs = some (cs.map (·.toNat - 48)) := by
  unfold digits?
  induction cs with
  | nil => rfl
  | cons c cs ih =>
    rw [List.mapM_cons, digitValue?_of_isDigit (h c List.mem_cons_self),
      ih fun d hd => h d (List.mem_cons_of_mem _ hd)]
    rfl

theorem digits?_decimal (n : Nat) : ∃ digits, digits? (decimal n).toList = some digits ∧ digits.isEmpty = false ∧
    digits.length = (decimal n).toList.length ∧ ofDigits digits = n := by
  refine ⟨_, digits?_of_isDigit fun c hc => isDigit_of_mem_decimal hc, ?_, List.length_map _, ?_⟩
  · rw [List.isEmpty_eq_false_iff, ne_eq, List.map_eq_nil_iff]
    exact decimal_ne_nil n
  · rw [ofDigits, List.foldl_map, decimal, String.toList_ofList]
    exact Nat.ofDigitChars_ten_toDigits

theorem splitSign_decimal_append (n : Nat) (rest : List Char) :
    splitSign ((decimal n).toList ++ rest) = (false, (decimal n).toList ++ rest) := by
  obtain ⟨c, cs, hcs⟩ := List.exists_cons_of_ne_nil (decimal_ne_nil n)
  have hdigit : c.isDigit = true := isDigit_of_mem_decimal (by rw [hcs]; exact List.mem_cons_self)
  rw [hcs, List.cons_append]
  unfold splitSign
  split
  · obtain ⟨rfl, -⟩ := List.cons.inj ‹_›
    cases hdigit
  · obtain ⟨rfl, -⟩ := List.cons.inj ‹_›
    cases hdigit
  · rfl

theorem splitSign_signedDecimal (n : Int) :
    splitSign (signedDecimal n).toList = (decide (n < 0), (decimal n.natAbs).toList) := by
  rcases Int.lt_or_le n 0 with hn | hn
  · rw [signedDecimal_of_neg hn, decide_eq_true hn]
    rfl
  · have hunsigned := splitSign_decimal_append n.natAbs []
    rw [List.append_nil] at hunsigned
    rw [signedDecimal_of_nonneg hn, decide_eq_false (Int.not_lt.mpr hn), hunsigned]

theorem withSign_natAbs (n : Int) : withSign (decide (n < 0)) n.natAbs = n := by
  unfold withSign
  split_ifs with hn <;> simp only [decide_eq_true_eq] at hn <;> omega

theorem readInteger?_signedDecimal {n : Int} {k : Nat} (h : n.natAbs < 10 ^ (k + 1)) (hk : k < maxIntegerDigits) :
    readInteger? (signedDecimal n) = some n := by
  obtain ⟨digits, hdigits, hsome, hlength, hvalue⟩ := digits?_decimal n.natAbs
  have hseparators := dropSeparators?_eq_self (not_mem_decimal (c := '_') rfl n.natAbs) false
  have hshort : ¬ (digits.isEmpty = true ∨ maxIntegerDigits < digits.length) := by
    have hle := length_decimal_le h
    rw [hsome, hlength, Bool.false_eq_true, false_or]
    omega
  rw [readInteger?, trimBlanks, trim_eq_self fun c hc => not_isBlank_of_mem_signedDecimal hc, integer?,
    splitSign_signedDecimal]
  simp only [hseparators, hdigits, if_neg hshort, hvalue, withSign_natAbs, bind, Option.bind]

theorem readInteger?_decimal {n : Nat} (h : n < 65536) : readInteger? (decimal n) = some (n : Int) := by
  rw [← readInteger?_signedDecimal (k := 4) (n := n) (by omega) (by decide), signedDecimal_of_nonneg n.cast_nonneg]
  rfl

namespace Decimal

def scientific (n : Nat) (k : Int) : String :=
  decimal n ++ "e" ++ signedDecimal k

theorem readExponent?_signedDecimal (k : Int) : readExponent? ('e' :: (signedDecimal k).toList) = some k := by
  obtain ⟨digits, hdigits, hsome, -, hvalue⟩ := digits?_decimal k.natAbs
  simp only [readExponent?, splitSign_signedDecimal, hdigits, hsome, hvalue, withSign_natAbs, bind, Option.bind]
  rfl

theorem toList_scientific (n : Nat) (k : Int) :
    (scientific n k).toList = (decimal n).toList ++ 'e' :: (signedDecimal k).toList := by
  simp [scientific]

theorem span_scientific (n : Nat) (k : Int) :
    (scientific n k).toList.span isDigit = ((decimal n).toList, 'e' :: (signedDecimal k).toList) := by
  have hdigits : ∀ c ∈ (decimal n).toList, isDigit c = true := by
    intro c hc
    rw [isDigit, digitValue?_of_isDigit (isDigit_of_mem_decimal hc), Option.isSome_some]
  rw [List.span_eq_takeWhile_dropWhile, toList_scientific, List.takeWhile_append_of_pos hdigits,
    List.dropWhile_append_of_pos hdigits, List.takeWhile_cons_of_neg (by decide), List.append_nil,
    List.dropWhile_cons_of_neg (by decide)]

theorem read?_scientific (n : Nat) (k : Int) :
    read? (scientific n k) = some ⟨false, n, (decimal n).toList.length, k⟩ := by
  obtain ⟨digits, hdigits, hsome, hlength, hvalue⟩ := digits?_decimal n
  have hplain : ∀ c ∈ (scientific n k).toList, isBlank c = false ∧ c ≠ '_' := by
    intro c hc
    rw [toList_scientific, List.mem_append, List.mem_cons] at hc
    rcases hc with hc | rfl | hc
    · have hdigit := isDigit_of_mem_decimal hc
      exact ⟨isBlank_of_isDigit hdigit, by rintro rfl; cases hdigit⟩
    · decide
    · refine ⟨not_isBlank_of_mem_signedDecimal hc, ?_⟩
      rintro rfl
      rcases mem_signedDecimal hc with hminus | hdigit
      · cases hminus
      · cases hdigit
  have hsign : splitSign (scientific n k).toList = (false, (scientific n k).toList) := by
    rw [toList_scientific, splitSign_decimal_append]
  have hseparators : dropSeparators? false (scientific n k).toList = some (scientific n k).toList :=
    dropSeparators?_eq_self (fun h => (hplain _ h).2 rfl) false
  have hfraction : splitFraction ('e' :: (signedDecimal k).toList) = ([], 'e' :: (signedDecimal k).toList) := rfl
  rw [read?, trimBlanks, trim_eq_self fun c hc => (hplain c hc).1, hsign]
  simp only [hseparators, span_scientific, hfraction, List.append_nil, hdigits, readExponent?_signedDecimal, hsome,
    hlength, hvalue, List.length_nil, bind, Option.bind]
  simp

end Decimal

theorem readBinary64?_scientific {n m : Nat} {k : Int} (hn : n ≠ 0) (hlow : -400 ≤ k) (hhigh : k ≤ 400)
    (hsize : (n : Rat) * 10 ^ k ≤ m) (hm : m.log2 < 52) :
    readBinary64? (Decimal.scientific n k) = some (Binary64.nearest (n * 10 ^ k)) := by
  have hnonneg : (0 : Rat) ≤ n * 10 ^ k := mul_nonneg n.cast_nonneg (zpow_nonneg (by norm_num) k)
  rw [readBinary64?, Decimal.read?_scientific]
  change Decimal.toBinary64? _ = _
  rw [Decimal.toBinary64?, if_neg hn, if_neg (Int.not_lt.mpr hhigh), if_neg (by simp only; omega)]
  exact Binary64.round?_eq_some hnonneg hsize hm

end Number

end InputScript
