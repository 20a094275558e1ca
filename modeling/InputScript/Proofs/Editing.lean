import InputScript.Proofs.Rounding
import InputScript.Script.Edit

namespace InputScript

theorem shortestSleep_near : |shortestSleep - 1 / 1000| ≤ 1 / 1000000 :=
  Number.Binary64.abs_nearest_sub_le_millionth (by norm_num) (by norm_num)

namespace Instruction

theorem floor_nonneg {seconds : Rat} (h : shortestSleep ≤ seconds) : 0 ≤ ⌊seconds⌋ := by
  have hshortest := (abs_le.mp shortestSleep_near).1
  exact Int.floor_nonneg.mpr (by linarith)

theorem sleepWhole_of_longestPiece_lt {whole : Nat} (h : longestPiece < whole) :
    sleepWhole whole = sleepPiece :: sleepWhole (whole - longestPiece) := by
  have hpieces : (whole - 1) / longestPiece = (whole - longestPiece - 1) / longestPiece + 1 := by
    unfold longestPiece at *
    omega
  have hrest : sleepRest whole = sleepRest (whole - longestPiece) := by
    simp only [sleepRest, mk.injEq, true_and]
    unfold longestPiece at *
    omega
  rw [sleepWhole, sleepWhole, if_neg (by omega), if_neg (by omega), hpieces, hrest,
    List.replicate_succ, List.cons_append]

theorem sleepWhole_of_le_longestPiece {whole : Nat} (hpos : whole ≠ 0) (h : whole ≤ longestPiece) :
    sleepWhole whole = [sleepRest whole] ∧ (sleepRest whole).operand = whole := by
  unfold longestPiece at h
  constructor
  · have hpieces : (whole - 1) / longestPiece = 0 := by
      unfold longestPiece
      omega
    rw [sleepWhole, if_neg hpos, hpieces, List.replicate_zero, List.nil_append]
  · simp only [sleepRest, longestPiece]
    omega

end Instruction

namespace Edit

variable {α : Type}

def adding : Except Fault Phrase → Edit Unit
  | .error f, p => .error (.fault f) p
  | .ok phrase, p =>
    match p.add phrase with
    | .ok q => .ok () q
    | .error f => .error (.fault f) p

theorem demand_bind (x : Except Fault α) (f : α → Except Fault Phrase) :
    (do adding (f (← demand x))) = adding (x >>= f) := by
  cases x <;> rfl

theorem emit_eq (i : Instruction) : emit i.opcode i.operand = adding (.ok (.single i)) := by
  have hfits : (0 : Int) ≤ i.operand ∧ (i.operand : Int) ≤ 8191 :=
    ⟨by omega, by exact_mod_cast i.operand_le⟩
  funext p
  simp only [emit, Instruction.ofOperand, dif_pos hfits, Int.toNat_natCast]
  rfl

theorem adding_append (is js : List Instruction) :
    (do adding (.ok (.emit is)); adding (.ok (.emit js))) = adding (.ok (.emit (is ++ js))) := by
  funext p
  have hinstructions : (p.instructions ++ is) ++ js = p.instructions ++ (is ++ js) := by
    simp [← Array.toList_inj]
  simp [adding, Program.add, bind, EStateM.bind, hinstructions]

theorem key_eq (stroke : Stroke) (k : Key) : key stroke k = adding (.ok (.single (.key stroke k))) := by
  rw [← emit_eq]
  cases stroke <;> rfl

theorem button_eq (stroke : Stroke) (b : Button) :
    button stroke b = adding (.ok (.single (.button stroke b))) := by
  rw [← emit_eq]
  cases stroke <;> rfl

theorem move_eq (place : Point) : move place = adding (.ok (.move place)) := by
  funext p
  by_cases hfull : maxOperand < p.positions.size
  · simp only [move, if_pos hfull, adding, Program.add, dif_neg (Nat.not_le.mpr hfull)]
  · have hsize : p.positions.size ≤ maxOperand := Nat.not_lt.mp hfull
    have hemit := emit_eq ⟨.pointerGoto, p.positions.size, hsize⟩
    simp only [move, if_neg hfull, adding, Program.add, dif_pos hsize, hemit]
    rfl

theorem sleepWhole_eq (whole : Nat) :
    sleepWhole whole = adding (.ok (.emit (Instruction.sleepWhole whole))) := by
  rw [sleepWhole]
  split_ifs with hlong hzero
  · have hpiece : emit .sleepSec longestPiece = adding (.ok (.emit [.sleepPiece])) := emit_eq .sleepPiece
    rw [hpiece, sleepWhole_eq (whole - longestPiece), adding_append, List.singleton_append,
      Instruction.sleepWhole_of_longestPiece_lt hlong]
  · subst hzero
    rfl
  · obtain ⟨hwhole, hoperand⟩ := Instruction.sleepWhole_of_le_longestPiece hzero (Nat.not_lt.mp hlong)
    have hemit := emit_eq (.sleepRest whole)
    rw [hoperand] at hemit
    rw [hwhole]
    exact hemit
termination_by whole
decreasing_by
  unfold longestPiece at *
  omega

theorem sleepFraction_eq (seconds : Rat) :
    emit .sleepMs (Number.roundHalfEven (Number.Binary64.nearest (fractionPart seconds * 1000))) =
      adding (.ok (.emit [.sleepFraction seconds])) := by
  have hproduct : 0 ≤ fractionPart seconds * 1000 :=
    mul_nonneg (fractionPart_nonneg seconds) (by norm_num)
  have hround := Number.roundHalfEven_nonneg (Number.Binary64.nearest_nonneg hproduct)
  have hoperand : ((Instruction.sleepFraction seconds).operand : Int) =
      Number.roundHalfEven (Number.Binary64.nearest (fractionPart seconds * 1000)) := by
    simp only [Instruction.sleepFraction, milliseconds, Int.toNat_of_nonneg hround]
  rw [← hoperand]
  exact emit_eq (.sleepFraction seconds)

theorem sleep_eq (seconds : Rat) : sleep seconds = adding (.ok (.emit (Instruction.sleep seconds))) := by
  unfold sleep Instruction.sleep
  split_ifs with hshort hwhole
  · rfl
  · rw [sleepWhole_eq, List.append_nil]
    rfl
  · rw [sleepWhole_eq, sleepFraction_eq, adding_append]

theorem beginLoop_eq (count : Int) : beginLoop count = adding (Phrase.loop count) := by
  unfold beginLoop Phrase.loop
  by_cases hlarge : maxOperand < count
  · have hcount : ¬ count ≤ 8191 := by
      unfold maxOperand at hlarge
      omega
    rw [if_pos hlarge, dif_neg hcount]
    rfl
  · have hcount : count ≤ 8191 := by
      unfold maxOperand at hlarge
      omega
    have hoperand : (if 0 < count then count else 0) = ((Instruction.loopBegin count hcount).operand : Int) := by
      simp only [Instruction.loopBegin]
      split_ifs <;> omega
    rw [if_neg hlarge, dif_pos hcount, hoperand]
    exact emit_eq (.loopBegin count hcount)

theorem movePointer_eq (x y : String) : movePointer x y = adding (Phrase.pointerMove x y) := by
  simp only [movePointer, Phrase.pointerMove, move_eq, ← demand_bind]
  rfl

theorem scroll_eq (direction : String) :
    ofCommand .middleClick [direction] = adding (Phrase.ofCommand .middleClick [direction]) := by
  simp only [ofCommand, Phrase.ofCommand, button_eq]
  split_ifs <;> rfl

theorem printPointer_eq (mark : String) :
    ofCommand .queryPointer [mark] = adding (Phrase.ofCommand .queryPointer [mark]) := by
  simp only [ofCommand, Phrase.ofCommand]
  split_ifs
  · exact emit_eq (.pointerQuery true)
  · rfl

theorem readSleep_eq (argument : String) :
    ofCommand .sleep [argument] = adding (Phrase.ofCommand .sleep [argument]) := by
  simp only [ofCommand, Phrase.ofCommand, Phrase.sleep, sleep_eq]
  cases Number.readBinary64? argument <;> rfl

theorem ofCommand_eq (command : Command) (arguments : List String) :
    ofCommand command arguments = adding (Phrase.ofCommand command arguments) := by
  -- The arguments are counted first: for each count, all but a few commands are refused.
  rcases arguments with _ | ⟨first, _ | ⟨second, _ | ⟨third, rest⟩⟩⟩
  · cases command with
    | backslash | enter | tab | space => exact key_eq .click _
    | leftClick | middleClick | rightClick => exact button_eq .click _
    | sleep => exact emit_eq ⟨.sleepSec, 1, by decide⟩
    | queryPointer => exact emit_eq (.pointerQuery false)
    | beginLoop => exact beginLoop_eq 0
    | endLoop => exact emit_eq .loopEnd
    | movePointer | sendKey | sendButton => rfl
  · cases command with
    | sleep => exact readSleep_eq first
    | middleClick => exact scroll_eq first
    | queryPointer => exact printPointer_eq first
    | beginLoop =>
      simp only [ofCommand, Phrase.ofCommand, beginLoop_eq]
      exact demand_bind _ _
    | sendKey =>
      simp only [ofCommand, Phrase.ofCommand, key_eq]
      exact demand_bind _ _
    | sendButton =>
      simp only [ofCommand, Phrase.ofCommand, button_eq]
      exact demand_bind _ _
    | _ => rfl
  · cases command with
    | movePointer => exact movePointer_eq first second
    | sendKey =>
      simp only [ofCommand, Phrase.ofCommand, key_eq, ← demand_bind]
      rfl
    | sendButton =>
      simp only [ofCommand, Phrase.ofCommand, button_eq, ← demand_bind]
      rfl
    | _ => rfl
  · cases command <;> rfl

theorem ofChar_eq (ignoreSpace : Bool) (c : Char) :
    ofChar ignoreSpace c = adding (Phrase.ofChar ignoreSpace c) := by
  unfold ofChar Phrase.ofChar
  cases whitespaceKey? c with
  | some k =>
    cases ignoreSpace with
    | true => rfl
    | false => exact key_eq .click k
  | none =>
    cases typedKey? c with
    | some k => exact key_eq .click k
    | none => rfl

end Edit

end InputScript
