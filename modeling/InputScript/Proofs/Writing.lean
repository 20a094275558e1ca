import InputScript.Proofs.Editing
import InputScript.Proofs.Joining
import InputScript.Proofs.Numerals
import InputScript.Proofs.Quoting

namespace InputScript

open Number Binary64

theorem milliseconds_eq {fraction : Rat} {m : Nat} (h0 : 0 ≤ fraction) (h1 : fraction ≤ 1)
    (h : |fraction * 1000 - m| ≤ 1 / 4) : milliseconds fraction = m := by
  have hnear := abs_nearest_sub_le_millionth (x := fraction * 1000) (by linarith) (by linarith)
  rw [milliseconds, roundHalfEven_eq (n := m), Int.toNat_natCast]
  push_cast
  rw [abs_le] at h hnear
  rw [abs_lt]
  constructor <;> linarith

namespace Instruction

variable {i : Instruction}

theorem eq_of_operand {j : Instruction} (hopcode : i.opcode = j.opcode) (hoperand : i.operand = j.operand) : i = j :=
  pair_injective (Prod.ext hopcode hoperand)

theorem sleep_operand (hopcode : i.opcode = .sleepSec) (hpos : 1 ≤ i.operand) (hle : i.operand ≤ longestPiece) :
    sleep i.operand = [i] := by
  have hlong : ¬ (i.operand : Rat) < shortestSleep := by
    have hshortest := shortestSleep_near
    have hone : (1 : Rat) ≤ i.operand := by exact_mod_cast hpos
    rw [abs_le] at hshortest
    linarith
  have hfloor : (i.operand : Rat).floor = i.operand := by
    exact_mod_cast Rat.floor_intCast i.operand
  have hfraction : fractionPart i.operand = 0 := by
    rw [fractionPart, hfloor, Int.cast_natCast, sub_self]
  obtain ⟨hwhole, hrest⟩ := sleepWhole_of_le_longestPiece (Nat.ne_of_gt hpos) hle
  rw [sleep, if_neg hlong, hfloor, Int.toNat_natCast, hwhole, if_pos hfraction, List.append_nil]
  rw [eq_of_operand (i := sleepRest i.operand) hopcode.symm hrest]

theorem sleep_part {part : Rat} (hopcode : i.opcode = .sleepMs) (hshort : shortestSleep ≤ part) (hpos : 0 < part)
    (hone : part < 1) (hnear : |part * 1000 - i.operand| ≤ 1 / 4) : sleep part = [i] := by
  have hfloor : part.floor = 0 := by
    have hlow : 0 ≤ part.floor := Rat.le_floor_iff.mpr (by exact_mod_cast hpos.le)
    have hhigh : part.floor < 1 := Rat.floor_lt_iff.mpr (by exact_mod_cast hone)
    omega
  have hpart : fractionPart part = part := by
    rw [fractionPart, hfloor, Int.cast_zero, sub_zero]
  have hoperand : (sleepFraction part).operand = i.operand := by
    change milliseconds (fractionPart part) = i.operand
    rw [hpart]
    exact milliseconds_eq hpos.le hone.le hnear
  have hsome : fractionPart part ≠ 0 := by
    rw [hpart]
    exact hpos.ne'
  rw [sleep, if_neg (not_lt.mpr hshort), if_neg hsome, eq_of_operand (i := sleepFraction part) hopcode.symm hoperand,
    hfloor]
  rfl

def tenThousandths (milliseconds : Nat) : Nat :=
  min (10 * milliseconds) 9999

theorem sleep_tenThousandths (hopcode : i.opcode = .sleepMs) (hpos : 1 ≤ i.operand) (hle : i.operand ≤ 1000) :
    sleep (nearest (tenThousandths i.operand * 10 ^ (-4 : Int))) = [i] := by
  generalize hpart : (tenThousandths i.operand * 10 ^ (-4 : Int) : Rat) = part
  have hscaled : part = tenThousandths i.operand / 10000 := by
    rw [← hpart]
    norm_num [div_eq_mul_inv]
  have hbounds : 10 ≤ tenThousandths i.operand ∧ tenThousandths i.operand ≤ 9999 := by
    unfold tenThousandths
    omega
  have hlow : (1 : Rat) / 1000 ≤ part := by
    have : (10 : Rat) ≤ tenThousandths i.operand := by exact_mod_cast hbounds.1
    linarith
  have hhigh : part ≤ 9999 / 10000 := by
    have : (tenThousandths i.operand : Rat) ≤ 9999 := by exact_mod_cast hbounds.2
    linarith
  have htenth : |part * 1000 - i.operand| ≤ 1 / 10 := by
    have hten : 10 * i.operand ≤ tenThousandths i.operand + 1 ∧ tenThousandths i.operand ≤ 10 * i.operand := by
      unfold tenThousandths
      omega
    have hleft : (10 * i.operand : Rat) ≤ tenThousandths i.operand + 1 := by exact_mod_cast hten.1
    have hright : (tenThousandths i.operand : Rat) ≤ 10 * i.operand := by exact_mod_cast hten.2
    rw [abs_le]
    constructor <;> linarith
  have hnear := abs_nearest_sub_le_millionth (x := part) (by linarith) (by linarith)
  rw [abs_le] at htenth hnear
  -- one millisecond is rounded as the shortest sleep is, any other is far from it
  have hshort : shortestSleep ≤ nearest part := by
    rcases Nat.eq_or_lt_of_le hpos with hm | hm
    · have hthousandth : part = 1 / 1000 := by
        rw [hscaled, ← hm]
        norm_num [tenThousandths]
      rw [hthousandth]
      exact le_refl _
    · have hshortest := shortestSleep_near
      have htwo : (2 : Rat) ≤ i.operand := by exact_mod_cast hm
      rw [abs_le] at hshortest
      linarith
  apply sleep_part hopcode hshort
  · linarith
  · linarith
  · rw [abs_le]
    constructor <;> linarith

end Instruction

def Stroke.args : Stroke → List String
  | .click => []
  | .press => ["v"]
  | .release => ["^"]

theorem Command.says_key (stroke : Stroke) (k : Key) : Says '$' (k.name :: stroke.args) (.single (.key stroke k)) := by
  cases stroke with
  | click => exact .clickKey
  | press => exact .pressKey (.inl rfl)
  | release => exact .releaseKey

theorem Command.says_button (stroke : Stroke) (b : Button) :
    Says '%' (b.name :: stroke.args) (.single (.button stroke b)) := by
  cases stroke with
  | click => exact .clickButton
  | press => exact .pressButton (.inl rfl)
  | release => exact .releaseButton

theorem Key.text_code (k : Key) : keyText k.code = k.name := by
  rw [keyText, ofCode?_code]

theorem Button.text_code (b : Button) : buttonText b.code = b.name := by
  rw [buttonText, ofCode?_code]

namespace Program

variable {p q : Program} {i : Instruction} {is : List Instruction} {n : Nat}

def token (p : Program) (i : Instruction) : Token :=
  match i.opcode with
  | .keyUp => .saying '$' (keyText i.operand :: Stroke.release.args)
  | .keyDown => .saying '$' (keyText i.operand :: Stroke.press.args)
  | .keyClick => .saying '$' (keyText i.operand :: Stroke.click.args)
  | .buttonUp => .saying '%' (buttonText i.operand :: Stroke.release.args)
  | .buttonDown => .saying '%' (buttonText i.operand :: Stroke.press.args)
  | .buttonClick => .saying '%' (buttonText i.operand :: Stroke.click.args)
  | .sleepSec => .saying '#' [Decimal.scientific i.operand 0]
  | .sleepMs => .saying '#' [Decimal.scientific (Instruction.tenThousandths i.operand) (-4)]
  | .pointerGoto =>
    let place := p.positions[i.operand]!
    .saying '@' [Text.signedDecimal place.x, Text.signedDecimal place.y]
  | .pointerWhere => .saying '?' (if i.operand = 0 then [] else ["!"])
  | .loopBegin => .saying '{' [Text.decimal i.operand]
  | .loopEnd => .saying '}' []

def phrase (p : Program) (i : Instruction) : Phrase :=
  if i.opcode = .pointerGoto then .move p.positions[i.operand]! else .single i

def script (p : Program) : String :=
  String.ofList ((p.instructions.toList.map p.token).flatMap Token.text)

/-- Sound, and no pause is one of no milliseconds. -/
structure Writable (p : Program) : Prop extends p.Sound where
  pauses : ∀ i ∈ p.instructions.toList, i.opcode = .sleepMs → 1 ≤ i.operand

theorem means_key (p : Program) (stroke : Stroke) (k : Key) :
    (p.token (.key stroke k)).Means false (.single (.key stroke k)) := by
  have hsays := Command.says_key stroke k
  rw [← k.text_code] at hsays
  cases stroke <;> exact Token.means_saying hsays

theorem means_button (p : Program) (stroke : Stroke) (b : Button) :
    (p.token (.button stroke b)).Means false (.single (.button stroke b)) := by
  have hsays := Command.says_button stroke b
  rw [← b.text_code] at hsays
  cases stroke <;> exact Token.means_saying hsays

theorem means_seconds (p : Program) (hopcode : i.opcode = .sleepSec) (hpos : 1 ≤ i.operand) (hle : i.operand ≤ 4096) :
    (p.token i).Means false (.single i) := by
  have hlog : i.operand.log2 < 52 := (Nat.log2_lt (Nat.ne_of_gt hpos)).mpr (hle.trans_lt (by decide))
  have hsize : (i.operand : Rat) * 10 ^ (0 : Int) ≤ i.operand := by
    rw [zpow_zero, mul_one]
  have hread := readBinary64?_scientific (Nat.ne_of_gt hpos) (by decide) (by decide) hsize hlog
  rw [zpow_zero, mul_one, nearest_natCast hlog] at hread
  have hsays := Command.Says.sleep hread (Instruction.sleeps_sleep _)
  rw [Instruction.sleep_operand hopcode hpos hle] at hsays
  simp only [token, hopcode]
  exact Token.means_saying hsays

theorem means_milliseconds (p : Program) (hopcode : i.opcode = .sleepMs) (hpos : 1 ≤ i.operand)
    (hle : i.operand ≤ 1000) : (p.token i).Means false (.single i) := by
  have hten : Instruction.tenThousandths i.operand ≠ 0 ∧ Instruction.tenThousandths i.operand ≤ 9999 := by
    unfold Instruction.tenThousandths
    omega
  have hsize : (Instruction.tenThousandths i.operand : Rat) * 10 ^ (-4 : Int) ≤ (1 : Nat) := by
    have hsmall : (Instruction.tenThousandths i.operand : Rat) ≤ 9999 := by exact_mod_cast hten.2
    norm_num
    linarith
  have hread := readBinary64?_scientific hten.1 (by decide) (by decide) hsize (by decide)
  have hsays := Command.Says.sleep hread (Instruction.sleeps_sleep _)
  rw [Instruction.sleep_tenThousandths hopcode hpos hle] at hsays
  simp only [token, hopcode]
  exact Token.means_saying hsays

theorem means_goto (p : Program) (hopcode : i.opcode = .pointerGoto) (hplace : p.positions[i.operand]!.Within 65535) :
    (p.token i).Means false (.move p.positions[i.operand]!) := by
  obtain ⟨hx, hy⟩ := hplace
  have hread {n : Int} (hn : 0 ≤ n ∧ n ≤ 65535) : readInteger? (Text.signedDecimal n) = some n :=
    readInteger?_signedDecimal (k := 4) (by omega) (by decide)
  have hsays := Command.Says.movePointer (hread hx) (hread hy)
  have hclamp {n : Int} (hn : 0 ≤ n ∧ n ≤ 65535) : min (max n 0) 65535 = n := clampCoordinate_eq_self hn
  rw [hclamp hx, hclamp hy] at hsays
  simp only [token, hopcode]
  exact Token.means_saying hsays

theorem means_query (p : Program) (hopcode : i.opcode = .pointerWhere) (hle : i.operand ≤ 1) :
    (p.token i).Means false (.single i) := by
  simp only [token, hopcode]
  split_ifs with hzero
  · rw [Instruction.eq_of_operand (j := .pointerQuery false) hopcode hzero]
    exact Token.means_saying .queryPointer
  · rw [Instruction.eq_of_operand (j := .pointerQuery true) hopcode (by change i.operand = 1; omega)]
    exact Token.means_saying .queryPointerOver

theorem means_loop (p : Program) (hopcode : i.opcode = .loopBegin) (hle : i.operand ≤ 8191) :
    (p.token i).Means false (.single i) := by
  have hsays := Command.Says.beginLoop (by omega) (readInteger?_decimal (n := i.operand) (by omega))
  have hi : ⟨.loopBegin, (i.operand : Int).toNat, i.operand_le⟩ = i := Instruction.eq_of_operand hopcode.symm rfl
  rw [hi] at hsays
  simp only [token, hopcode]
  exact Token.means_saying hsays

theorem means_token (h : p.Writable) (hi : i ∈ p.instructions.toList)
    (hplace : i.opcode = .pointerGoto → p.positions[i.operand]!.Within 65535) :
    (p.token i).Means false (p.phrase i) := by
  have hsound := h.operands i hi
  unfold Instruction.Sound at hsound
  unfold phrase
  cases hopcode : i.opcode <;> simp only [hopcode] at hsound
  case pointerGoto => exact means_goto p hopcode (hplace hopcode)
  case sleepSec => exact means_seconds p hopcode hsound.1 hsound.2
  case sleepMs => exact means_milliseconds p hopcode (h.pauses i hi hopcode) hsound
  case pointerWhere => exact means_query p hopcode hsound
  case loopBegin => exact means_loop p hopcode hsound
  case loopEnd =>
    rw [Instruction.eq_of_operand (j := .loopEnd) hopcode hsound]
    exact Token.means_saying .endLoop
  all_goals obtain ⟨target, htarget⟩ := hsound
  case keyUp =>
    rw [Instruction.eq_of_operand (j := .key .release target) hopcode htarget.symm]
    exact means_key p .release target
  case keyDown =>
    rw [Instruction.eq_of_operand (j := .key .press target) hopcode htarget.symm]
    exact means_key p .press target
  case keyClick =>
    rw [Instruction.eq_of_operand (j := .key .click target) hopcode htarget.symm]
    exact means_key p .click target
  case buttonUp =>
    rw [Instruction.eq_of_operand (j := .button .release target) hopcode htarget.symm]
    exact means_button p .release target
  case buttonDown =>
    rw [Instruction.eq_of_operand (j := .button .press target) hopcode htarget.symm]
    exact means_button p .press target
  case buttonClick =>
    rw [Instruction.eq_of_operand (j := .button .click target) hopcode htarget.symm]
    exact means_button p .click target

theorem phrase_of_goto (h : i.opcode = .pointerGoto) : p.phrase i = .move p.positions[i.operand]! :=
  if_pos h

theorem phrase_of_plain (h : i.opcode ≠ .pointerGoto) : p.phrase i = .single i :=
  if_neg h

theorem places_phrases (p : Program) (is : List Instruction) : Phrase.places (is.map p.phrase) =
    ((is.filter (·.opcode = .pointerGoto)).map (·.operand)).map (p.positions[·]!) := by
  induction is with
  | nil => rfl
  | cons i is ih =>
    by_cases hgoto : i.opcode = .pointerGoto
    · rw [List.map_cons, phrase_of_goto hgoto, Phrase.places_move, ih, List.filter_cons_of_pos (by simpa using hgoto),
        List.map_cons, List.map_cons]
    · rw [List.map_cons, phrase_of_plain hgoto, Phrase.single, Phrase.places_emit, ih,
        List.filter_cons_of_neg (by simpa using hgoto)]

theorem numbered_phrases (p : Program) {k : Nat}
    (h : (is.filter (·.opcode = .pointerGoto)).map (·.operand) = List.range' n k) :
    Phrase.numbered n (is.map p.phrase) = is.map fun i => (i.opcode, i.operand) := by
  induction is generalizing n k with
  | nil => rfl
  | cons i is ih =>
    by_cases hgoto : i.opcode = .pointerGoto
    · rw [List.filter_cons_of_pos (by simpa using hgoto), List.map_cons] at h
      cases k with
      | zero => cases h
      | succ k =>
        obtain ⟨hoperand, hrest⟩ := List.cons.inj h
        rw [List.map_cons, List.map_cons, phrase_of_goto hgoto, Phrase.numbered, ih hrest, hgoto, hoperand]
    · rw [List.filter_cons_of_neg (by simpa using hgoto)] at h
      rw [List.map_cons, List.map_cons, phrase_of_plain hgoto, Phrase.single, Phrase.numbered, ih h]
      rfl

theorem Sound.places (h : p.Sound) : Phrase.places (p.instructions.toList.map p.phrase) = p.positions.toList := by
  have hgotos : (p.instructions.toList.filter (·.opcode = .pointerGoto)).map (·.operand) =
      List.range p.positions.size := h.gotos
  rw [places_phrases, hgotos]
  apply List.ext_getElem
  · simp
  · intro k hk hk'
    rw [Array.length_toList] at hk'
    rw [List.getElem_map, List.getElem_range, getElem!_pos p.positions k hk', Array.getElem_toList]

theorem Sound.place_within (h : p.Sound) (hi : i ∈ p.instructions.toList) (hgoto : i.opcode = .pointerGoto) :
    p.positions[i.operand]!.Within 65535 := by
  have hoperand : i.operand ∈ p.gotos :=
    List.mem_map.mpr ⟨i, List.mem_filter.mpr ⟨hi, decide_eq_true hgoto⟩, rfl⟩
  rw [h.gotos, List.mem_range] at hoperand
  rw [getElem!_pos p.positions i.operand hoperand]
  exact h.coordinates _ (Array.getElem_mem_toList hoperand)

theorem eq_of_pairs (hpairs : p.pairs = q.pairs) (hpositions : p.positions = q.positions) : p = q := by
  have hinstructions : p.instructions.toList = q.instructions.toList :=
    List.map_injective_iff.mpr Instruction.pair_injective hpairs
  cases p
  cases q
  cases hpositions
  cases Array.toList_inj.mp hinstructions
  rfl

theorem compile_script_eq (h : p.Writable) : empty.compile false p.script = .ok p := by
  have hmeans : List.Forall₂ (Token.Means false) (p.instructions.toList.map p.token)
      (p.instructions.toList.map p.phrase) := by
    rw [List.forall₂_map_left_iff, List.forall₂_map_right_iff, List.forall₂_same]
    exact fun i hi => means_token h hi (h.place_within hi)
  have hplaces := h.toSound.places
  obtain ⟨q, hq⟩ : ∃ q, (p.instructions.toList.map p.phrase).foldlM add empty = .ok q := by
    apply exists_adds
    rw [hplaces, Array.length_toList]
    simpa [empty] using h.size_le
  have hextends := extends_of_adds hq
  have hpq : q = p := by
    apply eq_of_pairs
    · rw [hextends.pairs]
      exact numbered_phrases p (h.gotos.trans List.range_eq_range')
    · rw [← Array.toList_inj, hextends.positions, hplaces]
      rfl
  have hread : (Reader.begin empty).read false ((p.instructions.toList.map p.token).flatMap Token.text) = .ok q :=
    Reader.read_of_tokens hmeans hq
  rw [compile, script, String.toList_ofList, hread, hpq]

end Program

namespace Compiler

/-- A compiler makes of the script of a program that can be written that very program. -/
theorem compile_script (x : Scratch) (p : Program) (h : p.Writable) :
    let made := (Compiler.mk false x).compile .empty p.script
    made.outcome = .ok () ∧ made.program = p :=
  compile_eq_ok (Program.compile_script_eq h)

theorem compile_script_of_long_pause :
    let p : Program := ⟨#[.key .press (.control .enter), ⟨.sleepMs, 1000, by decide⟩, ⟨.pointerGoto, 0, by decide⟩],
      #[⟨65535, 7⟩]⟩
    p.Writable ∧ ((Compiler.new false).compile .empty p.script).program = p := by
  intro p
  have hp : p.Writable := by
    refine ⟨⟨?_, ?_, rfl, by decide⟩, ?_⟩
    · intro i hi
      simp only [p, List.mem_cons, List.not_mem_nil, or_false] at hi
      rcases hi with rfl | rfl | rfl
      · exact ⟨.control .enter, rfl⟩
      · exact Nat.le_refl 1000
      · trivial
    · intro place hplace
      obtain rfl := List.mem_singleton.mp hplace
      exact ⟨⟨by decide, by decide⟩, by decide, by decide⟩
    · decide
  exact ⟨hp, (compile_script .blank p hp).2⟩

end Compiler

end InputScript
