import InputScript.Proofs.Concatenation
import InputScript.Proofs.ListingText
import InputScript.Proofs.Operands

namespace InputScript

namespace Phrase

variable {phrases : List Phrase}

def renumber (k : Nat) (pair : Opcode × Nat) : Opcode × Nat :=
  if pair.1 = .pointerGoto then (.pointerGoto, k + pair.2) else pair

theorem numbered_add (h : ∀ phrase ∈ phrases, phrase.Sound) (k n : Nat) :
    numbered (k + n) phrases = (numbered n phrases).map (renumber k) := by
  induction phrases generalizing n with
  | nil => rfl
  | cons phrase phrases ih =>
    have hrest := ih fun phrase hphrase => h phrase (List.mem_cons_of_mem _ hphrase)
    cases phrase with
    | move place => rw [numbered, Nat.add_assoc, hrest]; rfl
    | emit instructions =>
      have hplain : ∀ i ∈ instructions, renumber k (i.opcode, i.operand) = (i.opcode, i.operand) :=
        fun i hi => if_neg (h _ List.mem_cons_self i hi).2
      rw [numbered, numbered, List.map_append, List.map_map, hrest]
      congr 1
      exact List.map_congr_left fun i hi => (hplain i hi).symm

end Phrase

namespace Frame

def shift (k : Nat) (frame : Frame) : Frame :=
  ⟨k + frame.target, frame.remaining⟩

end Frame

theorem endLoop_shift (k next : Nat) (loops : List Frame) :
    endLoop (k + next) (loops.map (Frame.shift k)) =
      (k + (endLoop next loops).1, (endLoop next loops).2.map (Frame.shift k)) := by
  cases loops with
  | nil => rfl
  | cons frame outer =>
    simp only [endLoop, List.map_cons, Frame.shift]
    split_ifs <;> rfl

namespace Instruction

variable {i j : Instruction} {k : Nat}

def pair (i : Instruction) : Opcode × Nat :=
  (i.opcode, i.operand)

theorem pair_injective : Function.Injective pair := by
  rintro ⟨op, n, hn⟩ ⟨op', n', hn'⟩ h
  cases h
  rfl

theorem pair_of_goto (h : i.pair = Phrase.renumber k j.pair) (hj : j.opcode = .pointerGoto) :
    i.opcode = .pointerGoto ∧ i.operand = k + j.operand := by
  rw [Phrase.renumber, if_pos (show j.pair.1 = .pointerGoto from hj)] at h
  exact Prod.mk.inj h

theorem eq_of_plain (h : i.pair = Phrase.renumber k j.pair) (hj : j.opcode ≠ .pointerGoto) : i = j := by
  rw [Phrase.renumber, if_neg (show ¬ j.pair.1 = .pointerGoto from hj)] at h
  exact pair_injective h

theorem opcode_of_renumber (h : i.pair = Phrase.renumber k j.pair) : i.opcode = j.opcode := by
  by_cases hj : j.opcode = .pointerGoto
  · rw [(pair_of_goto h hj).1, hj]
  · rw [eq_of_plain h hj]

theorem followLoops_shift {k' : Nat} (h : i.pair = Phrase.renumber k' j.pair) (k next : Nat) (loops : List Frame) :
    followLoops i (k + next) (loops.map (Frame.shift k)) =
      (k + (followLoops j next loops).1, (followLoops j next loops).2.map (Frame.shift k)) := by
  by_cases hgoto : j.opcode = .pointerGoto
  · have hi := (pair_of_goto h hgoto).1
    rw [Program.followLoops_plain (by simp [hi]) (by simp [hi]),
      Program.followLoops_plain (by simp [hgoto]) (by simp [hgoto])]
  · obtain rfl := eq_of_plain h hgoto
    by_cases hbegin : i.opcode = .loopBegin
    · rw [Program.followLoops_begin hbegin, Program.followLoops_begin hbegin]
      rfl
    · by_cases hend : i.opcode = .loopEnd
      · rw [Program.followLoops_end hend, Program.followLoops_end hend, endLoop_shift]
      · rw [Program.followLoops_plain hbegin hend, Program.followLoops_plain hbegin hend]

end Instruction

namespace Program

variable {whole first second : Program} {i j : Instruction} {a : Nat}

theorem pairs_getElem? (p : Program) (a : Nat) : p.pairs[a]? = p.instructions[a]?.map Instruction.pair := by
  rw [pairs, List.getElem?_map, Array.getElem?_toList]
  rfl

theorem length_pairs (p : Program) : p.pairs.length = p.size := by
  rw [pairs, List.length_map, Array.length_toList]
  rfl

structure Joins (whole first second : Program) : Prop where
  gotos : ∀ i ∈ first.instructions.toList, i.opcode = .pointerGoto → i.operand < first.positions.size
  pairs : whole.pairs = first.pairs ++ second.pairs.map (Phrase.renumber first.positions.size)
  positions : whole.positions = first.positions ++ second.positions

theorem joins_of_compile {ignoreSpace : Bool} {source more : String}
    (hfirst : empty.compile ignoreSpace source = .ok first) (hsecond : empty.compile ignoreSpace more = .ok second)
    (hwhole : empty.compile ignoreSpace (source ++ more) = .ok whole) : whole.Joins first second := by
  have hsound : first.Sound := sound_empty.compile hfirst
  have hlater : first.compile ignoreSpace more = .ok whole := by
    have happend := compile_append_of_ok hfirst more
    rw [hwhole] at happend
    cases hmore : first.compile ignoreSpace more with
    | ok q => rw [hmore] at happend; exact happend.symm
    | error e => rw [hmore] at happend; cases happend
  obtain ⟨tokens, phrases, htext, hmeans, hadds⟩ := Reader.tokens_of_read hlater
  have hextends := extends_of_adds hadds
  -- The phrases of the second part can be added to nothing too, as they leave fewer positions there.
  have hroom : empty.positions.size + (Phrase.places phrases).length ≤ 8192 := by
    have hsize := size_le_of_adds hadds hsound.size_le
    rw [hextends.size_eq] at hsize
    rw [show empty.positions.size = 0 from rfl]
    omega
  obtain ⟨alone, halone⟩ := exists_adds hroom
  obtain rfl : alone = second := by
    have hread : empty.compile ignoreSpace more = .ok alone := by
      rw [compile, ← htext]
      exact Reader.read_of_tokens hmeans halone
    exact Except.ok.inj (hread.symm.trans hsecond)
  have hextends' := extends_of_adds halone
  refine ⟨fun i hi hgoto => hsound.lt_size hi hgoto, ?_, ?_⟩
  · have hnumbered := Phrase.numbered_add (Token.sound_of_phrases hmeans) first.positions.size 0
    rw [Nat.add_zero] at hnumbered
    rw [hextends.pairs, hextends'.pairs, hnumbered]
    rfl
  · rw [← Array.toList_inj, Array.toList_append, hextends.positions, hextends'.positions]
    rfl

theorem Joins.size_eq (h : whole.Joins first second) : whole.size = first.size + second.size := by
  rw [← length_pairs, h.pairs, List.length_append, List.length_map, length_pairs, length_pairs]

theorem Joins.instruction_left (h : whole.Joins first second) (hi : first.instructions[a]? = some i) :
    whole.instructions[a]? = some i := by
  have ha : a < first.pairs.length := by
    rw [length_pairs]
    exact (Array.getElem?_eq_some_iff.mp hi).1
  have hpairs : whole.pairs[a]? = first.pairs[a]? := by
    rw [h.pairs, List.getElem?_append_left ha]
  rw [pairs_getElem?, pairs_getElem?] at hpairs
  rw [Option.map_injective Instruction.pair_injective hpairs, hi]

theorem Joins.instruction_right (h : whole.Joins first second) (hj : second.instructions[a]? = some j) :
    ∃ i, whole.instructions[first.size + a]? = some i ∧
      i.pair = Phrase.renumber first.positions.size j.pair := by
  have hpairs : whole.pairs[first.size + a]? = some (Phrase.renumber first.positions.size j.pair) := by
    rw [h.pairs, List.getElem?_append_right (by rw [length_pairs]; omega), length_pairs, Nat.add_sub_cancel_left,
      List.getElem?_map, pairs_getElem?, hj]
    rfl
  rw [pairs_getElem?] at hpairs
  exact Option.map_eq_some_iff.mp hpairs

theorem Joins.over (h : whole.Joins first second) (ha : second.instructions[a]? = none) :
    whole.instructions[first.size + a]? = none := by
  have hsize := h.size_eq
  rw [Array.getElem?_eq_none_iff] at ha ⊢
  simp only [size] at *
  omega

theorem Joins.describe_left (h : whole.Joins first second) (hi : first.instructions[a]? = some i) :
    whole.describe i = first.describe i := by
  have hplace : i.opcode = .pointerGoto → whole.positions[i.operand]? = first.positions[i.operand]? := by
    intro hgoto
    rw [← Array.getElem?_toList] at hi
    rw [h.positions, Array.getElem?_append_left (h.gotos i (List.mem_of_getElem? hi) hgoto)]
  unfold describe
  cases hopcode : i.opcode <;> simp only
  rw [positionText_eq, positionText_eq, hplace hopcode]

theorem calls_of_plain (p q : Program) (hi : i.opcode ≠ .pointerGoto) : p.calls i = q.calls i := by
  unfold calls deviceCalls?
  cases hopcode : i.opcode
  case pointerGoto => exact absurd hopcode hi
  all_goals rfl

theorem Joins.calls_right (h : whole.Joins first second)
    (hij : i.pair = Phrase.renumber first.positions.size j.pair) : whole.calls i = second.calls j := by
  by_cases hgoto : j.opcode = .pointerGoto
  · obtain ⟨hopcode, hoperand⟩ := Instruction.pair_of_goto hij hgoto
    have hplace : whole.positions[i.operand]? = second.positions[j.operand]? := by
      rw [h.positions, hoperand, Array.getElem?_append_right (Nat.le_add_right _ _), Nat.add_sub_cancel_left]
    rw [Instruction.calls_pointerGoto hopcode, Instruction.calls_pointerGoto hgoto, hplace]
  · obtain rfl := Instruction.eq_of_plain hij hgoto
    exact calls_of_plain whole second hgoto

end Program

end InputScript
