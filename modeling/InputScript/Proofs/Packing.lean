import InputScript.Program

namespace InputScript

namespace Instruction

variable {i : Instruction} {word : Int}

def Packed (word : Int) : Prop :=
  (0 ≤ word ∧ word < 131072) ∧ word.toNat &&& 15 ≤ 11

def fault (word : Int) : WordError :=
  if 0 ≤ word ∧ word < 131072 then .unknownCode (word.toNat &&& 15) else .outOfRange word

theorem and_fifteen (n : Nat) : n &&& 15 = n % 16 :=
  Nat.and_two_pow_sub_one_eq_mod n 4

theorem encode_eq_or (i : Instruction) : i.encode = i.opcode.code ||| i.operand <<< 4 := by
  have hcode : i.opcode.code < 2 ^ 4 := i.opcode.code_lt
  rw [Nat.or_comm, ← Nat.shiftLeft_add_eq_or_of_lt hcode, Nat.shiftLeft_eq, encode]
  omega

theorem decode_of_packed (h : Packed word) : ∃ i, decode word = .ok i ∧ (i.encode : Int) = word := by
  obtain ⟨hrange, hlow⟩ := h
  rw [and_fifteen] at hlow
  obtain ⟨opcode, hopcode⟩ : ∃ opcode, Opcode.ofCode? (word.toNat % 16) = some opcode := by
    cases hcode : Opcode.ofCode? (word.toNat % 16) with
    | some opcode => exact ⟨opcode, rfl⟩
    | none =>
      have := Opcode.ofCode?_eq_none.mp hcode
      omega
  have hcode := Opcode.code_of_ofCode? hopcode
  refine ⟨⟨opcode, word.toNat / 16, by unfold maxOperand; omega⟩, ?_, ?_⟩
  · rw [decode, dif_pos hrange]
    simp only [hopcode]
  · simp only [encode, hcode]
    omega

theorem decode_of_not_packed (h : ¬ Packed word) : decode word = .error (fault word) := by
  by_cases hrange : 0 ≤ word ∧ word < 131072
  · have hlow : 11 < word.toNat % 16 := by
      rw [← and_fifteen]
      exact Nat.lt_of_not_le fun hle => h ⟨hrange, hle⟩
    rw [decode, dif_pos hrange, fault, if_pos hrange, and_fifteen]
    simp only [Opcode.ofCode?_eq_none.mpr hlow]
  · rw [decode, dif_neg hrange, fault, if_neg hrange]

theorem packed_encode (i : Instruction) : Packed i.encode := by
  refine Classical.byContradiction fun h => ?_
  have hread := decode_of_not_packed h
  rw [decode_encode] at hread
  cases hread

theorem decode_eq_ok : decode word = .ok i ↔ (i.encode : Int) = word := by
  constructor
  · intro h
    by_cases hpacked : Packed word
    · obtain ⟨j, hj, hword⟩ := decode_of_packed hpacked
      rw [h] at hj
      cases hj
      exact hword
    · rw [decode_of_not_packed hpacked] at h
      cases h
  · rintro rfl
    exact decode_encode i

theorem exists_decode_iff : (∃ i, decode word = .ok i) ↔ Packed word := by
  constructor
  · rintro ⟨i, hi⟩
    rw [← decode_eq_ok.mp hi]
    exact packed_encode i
  · intro h
    obtain ⟨i, hi, -⟩ := decode_of_packed h
    exact ⟨i, hi⟩

theorem decode_eq_error {e : WordError} : decode word = .error e ↔ ¬ Packed word ∧ e = fault word := by
  by_cases h : Packed word
  · obtain ⟨i, hi, -⟩ := decode_of_packed h
    simp [hi, h]
  · rw [decode_of_not_packed h, Except.error.injEq]
    exact ⟨fun he => ⟨h, he.symm⟩, fun he => he.2.symm⟩

end Instruction

section Traversal

variable {ε α β : Type} {f : α → Except ε β} {xs : List α} {e : ε}

theorem mapM_cons_of_ok {x : α} {y : β} (h : f x = .ok y) (xs : List α) :
    (x :: xs).mapM f = (xs.mapM f).map (y :: ·) := by
  rw [List.mapM_cons, h]
  cases xs.mapM f <;> rfl

theorem mapM_cons_of_error {x : α} (h : f x = .error e) (xs : List α) : (x :: xs).mapM f = .error e := by
  rw [List.mapM_cons, h]
  rfl

theorem mapM_eq_ok {g : β → α} (hg : ∀ x y, f x = .ok y ↔ g y = x) {ys : List β} :
    xs.mapM f = .ok ys ↔ ys.map g = xs := by
  induction xs generalizing ys with
  | nil =>
    rw [List.mapM_nil, List.map_eq_nil_iff]
    exact ⟨fun h => (Except.ok.inj h).symm, fun h => h ▸ rfl⟩
  | cons x xs ih =>
    cases hx : f x with
    | error e =>
      rw [mapM_cons_of_error hx]
      constructor
      · intro h
        cases h
      · intro h
        obtain ⟨y, ys, -, hy, -⟩ := List.map_eq_cons_iff.mp h
        rw [(hg x y).mpr hy] at hx
        cases hx
    | ok y =>
      have hy := (hg x y).mp hx
      rw [mapM_cons_of_ok hx]
      constructor
      · intro h
        cases hxs : xs.mapM f with
        | error e =>
          rw [hxs] at h
          cases h
        | ok zs =>
          rw [hxs] at h
          cases h
          rw [List.map_cons, hy, ih.mp hxs]
      · intro h
        obtain ⟨z, zs, rfl, hz, hzs⟩ := List.map_eq_cons_iff.mp h
        rw [(hg x z).mpr hz] at hx
        cases hx
        rw [ih.mpr hzs]
        rfl

theorem mapM_eq_error : xs.mapM f = .error e ↔
    ∃ before x after, xs = before ++ x :: after ∧ (∀ z ∈ before, ∃ y, f z = .ok y) ∧ f x = .error e := by
  induction xs with
  | nil =>
    constructor
    · intro h
      cases h
    · rintro ⟨before, x, after, h, -⟩
      simp at h
  | cons x xs ih =>
    cases hx : f x with
    | error e' =>
      rw [mapM_cons_of_error hx]
      constructor
      · intro h
        cases h
        exact ⟨[], x, xs, rfl, fun z hz => (nomatch hz), hx⟩
      · rintro ⟨before, z, after, h, hbefore, hz⟩
        cases before with
        | nil =>
          cases h
          rw [hx] at hz
          cases hz
          rfl
        | cons w before =>
          cases h
          obtain ⟨y, hy⟩ := hbefore x List.mem_cons_self
          rw [hx] at hy
          cases hy
    | ok y =>
      have hmap : (xs.mapM f).map (y :: ·) = .error e ↔ xs.mapM f = .error e := by
        cases xs.mapM f <;> simp [Except.map]
      rw [mapM_cons_of_ok hx, hmap, ih]
      constructor
      · rintro ⟨before, z, after, rfl, hbefore, hz⟩
        refine ⟨x :: before, z, after, rfl, ?_, hz⟩
        intro w hw
        rcases List.mem_cons.mp hw with rfl | hw
        · exact ⟨y, hx⟩
        · exact hbefore w hw
      · rintro ⟨before, z, after, h, hbefore, hz⟩
        cases before with
        | nil =>
          cases h
          rw [hx] at hz
          cases hz
        | cons w before =>
          cases h
          exact ⟨before, z, after, rfl, fun v hv => hbefore v (List.mem_cons_of_mem _ hv), hz⟩

end Traversal

namespace Program

open Instruction

variable {p : Program} {words : List Int} {positions : Array Point} {e : WordError}

theorem ofWords_eq (words : List Int) (positions : Array Point) :
    ofWords words positions = (words.mapM decode).map fun instructions => ⟨instructions.toArray, positions⟩ := by
  unfold ofWords
  cases words.mapM decode <;> rfl

theorem ofWords_eq_ok :
    ofWords words positions = .ok p ↔ p.words.map (fun n : Nat => (n : Int)) = words ∧ p.positions = positions := by
  have hread : words.mapM decode = .ok p.instructions.toList ↔
      p.instructions.toList.map (fun i => (i.encode : Int)) = words := mapM_eq_ok fun _ _ => decode_eq_ok
  have hwords : p.words.map (fun n : Nat => (n : Int)) = p.instructions.toList.map fun i => (i.encode : Int) := by
    rw [Program.words, List.map_map]
    rfl
  rw [ofWords_eq, hwords, ← hread]
  obtain ⟨instructions, table⟩ := p
  cases words.mapM decode with
  | error e => simp [Except.map]
  | ok read =>
    simp only [Except.map, Except.ok.injEq, Program.mk.injEq]
    constructor
    · rintro ⟨rfl, rfl⟩
      exact ⟨rfl, rfl⟩
    · rintro ⟨rfl, rfl⟩
      exact ⟨rfl, rfl⟩

theorem ofWords_eq_error : ofWords words positions = .error e ↔
    ∃ before word after, words = before ++ word :: after ∧ (∀ w ∈ before, Packed w) ∧ ¬ Packed word ∧
      e = fault word := by
  have hmap : (words.mapM decode).map (fun instructions => (⟨instructions.toArray, positions⟩ : Program)) = .error e ↔
      words.mapM decode = .error e := by
    cases words.mapM decode <;> simp [Except.map]
  rw [ofWords_eq, hmap, mapM_eq_error]
  simp only [exists_decode_iff, decode_eq_error]

theorem exists_ofWords_iff : (∃ p, ofWords words positions = .ok p) ↔ ∀ word ∈ words, Packed word := by
  constructor
  · rintro ⟨p, hp⟩ word hword
    rw [← (ofWords_eq_ok.mp hp).1] at hword
    obtain ⟨n, hn, rfl⟩ := List.mem_map.mp hword
    obtain ⟨i, -, rfl⟩ := List.mem_map.mp hn
    exact packed_encode i
  · intro h
    cases hread : ofWords words positions with
    | ok p => exact ⟨p, rfl⟩
    | error e =>
      obtain ⟨before, word, after, rfl, -, hword, -⟩ := ofWords_eq_error.mp hread
      exact absurd (h word (List.mem_append_right _ List.mem_cons_self)) hword

end Program

theorem WordError.message_fault (word : Int) : (Instruction.fault word).message =
    if 0 ≤ word ∧ word < 131072 then Text.decimal (word.toNat &&& 15) ++ " is not a valid Opcode"
    else "instruction word 0x" ++ Text.signedUpperHex word ++ " out of range" := by
  unfold Instruction.fault
  split <;> rfl

namespace Program

open Instruction

/-- A program is read back from its words, each of which holds the code of an operation in the low four bits and the
operand above. A list of integers is the words of a program if each has seventeen bits of which the low four are such a
code, and of that program only. The first that is not so is what reading any other list ends with. -/
theorem ofWords_bijective :
    (∀ p : Program, ofWords (p.words.map fun n : Nat => (n : Int)) p.positions = .ok p ∧
      p.words = p.instructions.toList.map fun i => i.opcode.code ||| i.operand <<< 4) ∧
    ∀ (words : List Int) (positions : Array Point),
      ((∃ p, ofWords words positions = .ok p) ↔ ∀ word ∈ words, Packed word) ∧
      (∀ p, ofWords words positions = .ok p ↔
        (p.words.map fun n : Nat => (n : Int)) = words ∧ p.positions = positions) ∧
      ∀ e, ofWords words positions = .error e ↔
        ∃ before word after, words = before ++ word :: after ∧ (∀ w ∈ before, Packed w) ∧ ¬ Packed word ∧
          e = (if 0 ≤ word ∧ word < 131072 then .unknownCode (word.toNat &&& 15) else .outOfRange word) ∧
          e.message = (if 0 ≤ word ∧ word < 131072 then Text.decimal (word.toNat &&& 15) ++ " is not a valid Opcode"
            else "instruction word 0x" ++ Text.signedUpperHex word ++ " out of range") := by
  refine ⟨fun p => ⟨ofWords_eq_ok.mpr ⟨rfl, rfl⟩, ?_⟩, fun words positions =>
    ⟨exists_ofWords_iff, fun p => ofWords_eq_ok, fun e => ?_⟩⟩
  · rw [words, funext encode_eq_or]
  · rw [ofWords_eq_error]
    constructor
    · rintro ⟨before, word, after, hwords, hbefore, hword, rfl⟩
      exact ⟨before, word, after, hwords, hbefore, hword, rfl, WordError.message_fault word⟩
    · rintro ⟨before, word, after, hwords, hbefore, hword, he, -⟩
      exact ⟨before, word, after, hwords, hbefore, hword, he⟩

example : ofWords [58, 31, -1] #[] = .error (.unknownCode 15) ∧ ofWords [58, -1, 31] #[] = .error (.outOfRange (-1)) :=
  ⟨rfl, rfl⟩

end Program

end InputScript
