import InputScript.Play.Player
import InputScript.Program
import Mathlib.Data.List.Forall2
import Mathlib.Logic.Relation

/-!
Which loops are open at an address of a program. The program is read once from left to right: a begin
opens a loop, and an end closes the innermost one, if any is open. The frames of a player stand for
the loops that are open where it plays.
-/

namespace InputScript

def Instruction.bracket (i : Instruction) (address : Nat) (outer : List Nat) : List Nat :=
  match i.opcode with
  | .loopBegin => address :: outer
  | .loopEnd => outer.tail
  | _ => outer

namespace Program

variable {p : Program} {i : Instruction} {a b c : Nat} {outer : List Nat} {loops : List Frame}

/-- The addresses of the begins that the instructions before an address leave open, innermost first. -/
def openLoops (p : Program) : Nat → List Nat
  | 0 => []
  | c + 1 =>
    match p.instructions[c]? with
    | some i => i.bracket c (p.openLoops c)
    | none => p.openLoops c

def matching? (p : Program) (c : Nat) : Option Nat :=
  match p.instructions[c]? with
  | some i => if i.opcode = .loopEnd then (p.openLoops c).head? else none
  | none => none

theorem exists_instruction (p : Program) (h : a < p.size) : ∃ i, p.instructions[a]? = some i :=
  ⟨p.instructions[a], Array.getElem?_eq_getElem h⟩

theorem openLoops_succ (h : p.instructions[c]? = some i) :
    p.openLoops (c + 1) = i.bracket c (p.openLoops c) := by
  simp only [openLoops, h]

theorem matching?_eq_some : p.matching? c = some b ↔
    ∃ i, p.instructions[c]? = some i ∧ i.opcode = .loopEnd ∧ (p.openLoops c).head? = some b := by
  unfold matching?
  cases h : p.instructions[c]? with
  | none => simp
  | some i => by_cases hi : i.opcode = .loopEnd <;> simp [hi]

theorem openLoops_of_suffix (h : b :: outer <:+ p.openLoops c) :
    b < c ∧ p.openLoops b = outer ∧
      ∃ i, p.instructions[b]? = some i ∧ i.opcode = .loopBegin := by
  induction c with
  | zero => simp [openLoops] at h
  | succ c ih =>
    have earlier (hs : b :: outer <:+ p.openLoops c) :
        b < c + 1 ∧ p.openLoops b = outer ∧
          ∃ i, p.instructions[b]? = some i ∧ i.opcode = .loopBegin := by
      obtain ⟨hb, hrest⟩ := ih hs
      exact ⟨by omega, hrest⟩
    unfold openLoops at h
    cases hc : p.instructions[c]? with
    | none => exact earlier (by simpa only [hc] using h)
    | some i =>
      simp only [hc, Instruction.bracket] at h
      split at h
      · rename_i hi
        rcases List.suffix_cons_iff.mp h with he | hs
        · obtain ⟨rfl, rfl⟩ := List.cons.inj he
          exact ⟨by omega, rfl, i, hc, hi⟩
        · exact earlier hs
      · exact earlier (h.trans (List.tail_suffix _))
      · exact earlier h

theorem openLoops_begin (h : b :: outer <:+ p.openLoops c) :
    p.openLoops (b + 1) = b :: outer := by
  obtain ⟨-, houter, i, hi, hbegin⟩ := openLoops_of_suffix h
  rw [openLoops_succ hi, houter, Instruction.bracket, hbegin]

theorem lt_of_mem_openLoops (h : b ∈ p.openLoops c) : b < c := by
  obtain ⟨inner, outer, he⟩ := List.append_of_mem h
  exact (openLoops_of_suffix ⟨inner, he.symm⟩).1

theorem openLoops_sorted (p : Program) (c : Nat) : (p.openLoops c).Pairwise (· > ·) := by
  induction c with
  | zero => exact List.Pairwise.nil
  | succ c ih =>
    unfold openLoops
    cases p.instructions[c]? with
    | none => exact ih
    | some i =>
      simp only [Instruction.bracket]
      split
      · exact List.pairwise_cons.mpr ⟨fun b hb => lt_of_mem_openLoops hb, ih⟩
      · exact ih.tail
      · exact ih

theorem matching?_lt (h : p.matching? c = some b) : b < c ∧ c < p.size := by
  obtain ⟨i, hi, -, hhead⟩ := matching?_eq_some.mp h
  exact ⟨lt_of_mem_openLoops (List.mem_of_head? hhead), (Array.getElem?_eq_some_iff.mp hi).1⟩

end Program

structure Frame.Fits (p : Program) (frame : Frame) (b : Nat) : Prop where
  target_eq : frame.target = b + 1
  counts : ∃ i, p.instructions[b]? = some i ∧ i.opcode = .loopBegin ∧
    (frame.remaining = 0 ↔ i.operand = 0) ∧ frame.remaining ≤ i.operand

namespace Program

variable {p : Program} {i : Instruction} {a b c : Nat} {loops : List Frame}

def Nested (p : Program) (c : Nat) (loops : List Frame) : Prop :=
  List.Forall₂ (Frame.Fits p) loops (p.openLoops c)

theorem targets_of_fits {begins : List Nat} (h : List.Forall₂ (Frame.Fits p) loops begins) :
    loops.map Frame.target = begins.map (· + 1) := by
  induction h with
  | nil => rfl
  | cons hfits _ ih => rw [List.map_cons, List.map_cons, hfits.target_eq, ih]

theorem fits_of_mem {begins : List Nat} {frame : Frame}
    (h : List.Forall₂ (Frame.Fits p) loops begins) (hframe : frame ∈ loops) :
    ∃ b, frame.Fits p b := by
  induction h with
  | nil => cases hframe
  | cons hfits _ ih =>
    rcases List.mem_cons.mp hframe with rfl | hrest
    · exact ⟨_, hfits⟩
    · exact ih hrest

theorem nested_start (p : Program) : p.Nested 0 [] := List.Forall₂.nil

theorem nested_nil : p.Nested c [] ↔ p.openLoops c = [] := List.forall₂_nil_left_iff

theorem nested_cons {frame : Frame} : p.Nested c (frame :: loops) ↔
    ∃ b outer, frame.Fits p b ∧ List.Forall₂ (Frame.Fits p) loops outer ∧ p.openLoops c = b :: outer :=
  List.forall₂_cons_left_iff

theorem followLoops_begin (h : i.opcode = .loopBegin) (next : Nat) (loops : List Frame) :
    followLoops i next loops = (next, ⟨next, i.operand⟩ :: loops) := by
  simp only [followLoops, h]

theorem followLoops_end (h : i.opcode = .loopEnd) (next : Nat) (loops : List Frame) :
    followLoops i next loops = endLoop next loops := by
  simp only [followLoops, h]

theorem followLoops_plain (hbegin : i.opcode ≠ .loopBegin) (hend : i.opcode ≠ .loopEnd) (next : Nat)
    (loops : List Frame) : followLoops i next loops = (next, loops) := by
  unfold followLoops
  split
  · rename_i h
    exact absurd h hbegin
  · rename_i h
    exact absurd h hend
  · rfl

theorem Nested.follow_end (h : p.Nested c loops) (hc : p.instructions[c]? = some i)
    (hi : i.opcode = .loopEnd) :
    p.Nested (endLoop (c + 1) loops).1 (endLoop (c + 1) loops).2 := by
  have hnext : p.openLoops (c + 1) = (p.openLoops c).tail := by
    rw [openLoops_succ hc, Instruction.bracket, hi]
  cases loops with
  | nil =>
    have hopen := nested_nil.mp h
    apply nested_nil.mpr
    rw [endLoop, hnext, hopen, List.tail_nil]
  | cons frame loops =>
    obtain ⟨b, outer, hfits, hrest, hopen⟩ := nested_cons.mp h
    have hback : p.openLoops frame.target = b :: outer := by
      have hs : b :: outer <:+ p.openLoops c := by simp only [hopen, List.suffix_rfl]
      rw [hfits.target_eq, openLoops_begin hs]
    simp only [endLoop]
    split_ifs with h0 h1
    · exact nested_cons.mpr ⟨b, outer, hfits, hrest, hback⟩
    · simpa only [Nested, hnext, hopen, List.tail_cons] using hrest
    · obtain ⟨j, hj, hbegin, hzero, hle⟩ := hfits.counts
      apply nested_cons.mpr
      refine ⟨b, outer, ⟨hfits.target_eq, j, hj, hbegin, ?_, ?_⟩, hrest, hback⟩
      · dsimp only
        omega
      · dsimp only
        omega

theorem Nested.follow (h : p.Nested c loops) (hc : p.instructions[c]? = some i) :
    p.Nested (followLoops i (c + 1) loops).1 (followLoops i (c + 1) loops).2 := by
  have hnext := openLoops_succ hc
  by_cases hbegin : i.opcode = .loopBegin
  · rw [followLoops_begin hbegin]
    rw [Instruction.bracket, hbegin] at hnext
    exact nested_cons.mpr ⟨c, p.openLoops c, ⟨rfl, i, hc, hbegin, Iff.rfl, Nat.le_refl _⟩, h, hnext⟩
  · by_cases hend : i.opcode = .loopEnd
    · rw [followLoops_end hend]
      exact h.follow_end hc hend
    · have hsame : i.bracket c (p.openLoops c) = p.openLoops c := by
        unfold Instruction.bracket
        split <;> simp_all
      rw [followLoops_plain hbegin hend]
      unfold Nested
      rw [hnext, hsame]
      exact h

def follow? (p : Program) (place : Nat × List Frame) : Option (Nat × List Frame) :=
  p.instructions[place.1]?.map fun i => followLoops i (place.1 + 1) place.2

def Leads (p : Program) : Nat × List Frame → Nat × List Frame → Prop :=
  Relation.ReflTransGen fun x y => p.follow? x = some y

theorem Leads.nested {x y : Nat × List Frame} (h : p.Leads x y) (hx : p.Nested x.1 x.2) :
    p.Nested y.1 y.2 := by
  induction h with
  | refl => exact hx
  | tail _ hstep ih =>
    obtain ⟨i, hi, rfl⟩ := Option.map_eq_some_iff.mp hstep
    exact ih.follow hi

theorem Nested.matching {frame : Frame} (h : p.Nested c (frame :: loops))
    (hc : p.instructions[c]? = some i) (hend : i.opcode = .loopEnd) :
    ∃ b, p.matching? c = some b ∧ frame.Fits p b := by
  obtain ⟨b, outer, hfits, -, hopen⟩ := nested_cons.mp h
  exact ⟨b, matching?_eq_some.mpr ⟨i, hc, hend, by rw [hopen]; rfl⟩, hfits⟩

theorem Nested.follow_address (h : p.Nested c loops) (hc : p.instructions[c]? = some i) :
    (followLoops i (c + 1) loops).1 = c + 1 ∨
      ∃ b, p.matching? c = some b ∧ (followLoops i (c + 1) loops).1 = b + 1 := by
  by_cases hbegin : i.opcode = .loopBegin
  · rw [followLoops_begin hbegin]
    exact Or.inl rfl
  · by_cases hend : i.opcode = .loopEnd
    · rw [followLoops_end hend]
      cases loops with
      | nil => exact Or.inl rfl
      | cons frame loops =>
        obtain ⟨b, hmatch, hfits⟩ := h.matching hc hend
        simp only [endLoop]
        split_ifs with h0 h1
        · exact Or.inr ⟨b, hmatch, hfits.target_eq⟩
        · exact Or.inl rfl
        · exact Or.inr ⟨b, hmatch, hfits.target_eq⟩
    · rw [followLoops_plain hbegin hend]
      exact Or.inl rfl

end Program

end InputScript
