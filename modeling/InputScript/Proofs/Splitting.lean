import InputScript.Proofs.WholePlays
import InputScript.Proofs.Writing

namespace InputScript

open Number Number.Binary64

namespace Instruction

variable {i : Instruction} {whole : Nat} {seconds : Rat} {is : List Instruction}

theorem opcode_of_mem_sleepWhole (h : i ∈ sleepWhole whole) : i.opcode = .sleepSec := by
  unfold sleepWhole at h
  split at h
  · cases h
  · rcases List.mem_append.mp h with hpiece | hrest
    · rw [List.eq_of_mem_replicate hpiece]
      rfl
    · rw [List.mem_singleton.mp hrest]
      rfl

theorem length_sleepWhole (whole : Nat) : (sleepWhole whole).length = (whole + 4095) / 4096 := by
  unfold sleepWhole
  split
  · rw [List.length_nil]
    omega
  · rw [List.length_append, List.length_replicate, List.length_singleton, longestPiece]
    omega

theorem dropLast_sleepWhole (h : i ∈ (sleepWhole whole).dropLast) : i.operand = 4096 := by
  unfold sleepWhole at h
  split at h
  · cases h
  · rw [List.dropLast_concat] at h
    rw [List.eq_of_mem_replicate h]
    rfl

theorem getLast?_sleepWhole (h : (sleepWhole whole).getLast? = some i) : 1 ≤ i.operand ∧ i.operand ≤ 4096 := by
  unfold sleepWhole at h
  split at h
  · cases h
  · rw [List.getLast?_concat] at h
    obtain rfl := Option.some.inj h
    simp only [sleepRest, longestPiece]
    omega

theorem sum_sleepWhole (whole : Nat) : ((sleepWhole whole).map (·.operand)).sum = whole := by
  unfold sleepWhole
  split
  · rw [List.map_nil, List.sum_nil]
    omega
  · rw [List.map_append, List.map_replicate, List.sum_append, List.sum_replicate_nat, List.map_singleton,
      List.sum_singleton]
    simp only [sleepPiece, sleepRest, longestPiece]
    omega

/-- A sleep of some seconds as instructions: first the whole seconds, then what is left of one. -/
structure Splits (seconds : Rat) (whole rest : List Instruction) : Prop where
  opcode : ∀ i ∈ whole, i.opcode = .sleepSec
  count : (whole.length : Int) = ⌈(⌊seconds⌋ : Rat) / 4096⌉
  full : ∀ i ∈ whole.dropLast, i.operand = 4096
  last : ∀ i, whole.getLast? = some i → 1 ≤ i.operand ∧ i.operand ≤ 4096
  sum : ((whole.map (·.operand)).sum : Nat) = ⌊seconds⌋
  none : seconds = ⌊seconds⌋ → rest = []
  fraction : seconds ≠ ⌊seconds⌋ → ∃ i, rest = [i] ∧ i.opcode = .sleepMs ∧ i.operand ≤ 1000 ∧
    (i.operand : Int) = roundHalfEven (nearest ((seconds - ⌊seconds⌋) * 1000))

theorem splits_sleep (h : shortestSleep ≤ seconds) :
    ∃ whole rest, sleep seconds = whole ++ rest ∧ Splits seconds whole rest := by
  obtain ⟨n, hn⟩ := Int.eq_ofNat_of_zero_le (floor_nonneg h)
  have hfraction : fractionPart seconds = 0 ↔ seconds = ⌊seconds⌋ := sub_eq_zero
  have hround : 0 ≤ roundHalfEven (nearest (fractionPart seconds * 1000)) :=
    roundHalfEven_nonneg (nearest_nonneg (mul_nonneg (fractionPart_nonneg seconds) (by norm_num)))
  refine ⟨_, _, by rw [sleep, if_neg (not_lt.mpr h)], ?_⟩
  change Splits seconds (sleepWhole ⌊seconds⌋.toNat) _
  rw [hn, Int.toNat_natCast]
  exact {
    opcode := fun i hi => opcode_of_mem_sleepWhole hi
    count := by
      have hceil := Rat.ceil_intCast_div_natCast n 4096
      rw [hn, length_sleepWhole]
      push_cast at hceil ⊢
      rw [hceil]
      omega
    full := fun i hi => dropLast_sleepWhole hi
    last := fun i hi => getLast?_sleepWhole hi
    sum := by rw [sum_sleepWhole, hn]
    none := fun hwhole => if_pos (hfraction.mpr hwhole)
    fraction := fun hsome => ⟨sleepFraction seconds, if_neg (fun hnone => hsome (hfraction.mp hnone)), rfl,
      milliseconds_le (fractionPart_nonneg seconds) (fractionPart_le_one seconds), Int.toNat_of_nonneg hround⟩ }

def lasting (i : Instruction) : Int :=
  if i.opcode = .sleepMs then i.operand else 1000 * i.operand

def Rests (i : Instruction) : Prop :=
  i.opcode = .sleepSec ∨ i.opcode = .sleepMs

theorem calls_of_rests (p : Program) (h : i.Rests) : p.calls i = [.sleep i.lasting] := by
  rcases h with hopcode | hopcode <;> simp [Program.calls, lasting, hopcode]

theorem followLoops_of_rests (h : i.Rests) (next : Nat) (loops : List Frame) :
    followLoops i next loops = (next, loops) := by
  rcases h with hopcode | hopcode <;> simp only [followLoops, hopcode]

theorem Splits.rests {whole rest : List Instruction} (h : Splits seconds whole rest) :
    ∀ i ∈ whole ++ rest, i.Rests := by
  intro i hi
  rcases List.mem_append.mp hi with hi | hi
  · exact .inl (h.opcode i hi)
  · by_cases hnone : seconds = ⌊seconds⌋
    · rw [h.none hnone] at hi
      cases hi
    · obtain ⟨j, rfl, hopcode, -⟩ := h.fraction hnone
      obtain rfl := List.mem_singleton.mp hi
      exact .inr hopcode

theorem sum_lasting (h : ∀ i ∈ is, i.opcode = .sleepSec) :
    (is.map lasting).sum = 1000 * ((is.map (·.operand)).sum : Nat) := by
  induction is with
  | nil => rfl
  | cons i is ih =>
    obtain ⟨hi, his⟩ := List.forall_mem_cons.mp h
    have hlasting : i.lasting = 1000 * i.operand := if_neg (by simp [hi])
    simp only [List.map_cons, List.sum_cons, ih his, hlasting]
    push_cast
    ring

theorem Splits.abs_sum_sub_le {whole rest : List Instruction} (h : Splits seconds whole rest) :
    |((((whole ++ rest).map lasting).sum : Int) : Rat) - 1000 * seconds| ≤ 501 / 1000 := by
  have hwhole := sum_lasting h.opcode
  rw [h.sum] at hwhole
  rw [List.map_append, List.sum_append, hwhole]
  by_cases hnone : seconds = ⌊seconds⌋
  · rw [h.none hnone, hnone]
    norm_num
  · obtain ⟨i, rfl, hopcode, -, hoperand⟩ := h.fraction hnone
    have hlasting : [i].map lasting = [roundHalfEven (nearest ((seconds - ⌊seconds⌋) * 1000))] := by
      rw [List.map_singleton, lasting, if_pos hopcode, hoperand]
    have hfraction : 0 ≤ seconds - ⌊seconds⌋ ∧ seconds - ⌊seconds⌋ < 1 :=
      ⟨Int.fract_nonneg seconds, Int.fract_lt_one seconds⟩
    have hround := abs_roundHalfEven_sub_le (nearest ((seconds - ⌊seconds⌋) * 1000))
    have hnear := abs_nearest_sub_le_millionth (x := (seconds - ⌊seconds⌋) * 1000) (by linarith) (by linarith)
    rw [hlasting, List.sum_singleton]
    push_cast
    rw [abs_le] at hround hnear ⊢
    constructor <;> linarith

end Instruction

namespace Stage

variable {σ ε : Type} {s : Stage σ ε}

def slept (s : Stage σ ε) (durations : List Int) : Stage σ ε :=
  { s with sleeps := s.sleeps + durations.length, events := s.events ++ (durations.map .sleep : List (Event ε)) }

theorem slept_nil (s : Stage σ ε) : s.slept [] = s := by
  simp only [slept, List.length_nil, Nat.add_zero, List.map_nil, Act.append_nil]

theorem slept_slept (s : Stage σ ε) (first second : List Int) :
    (s.slept first).slept second = s.slept (first ++ second) := by
  simp only [slept, List.length_append, List.map_append, Act.append_append, Nat.add_assoc]

theorem Undisturbed.of_scene (h : s.Undisturbed) {t : Stage σ ε} {durations : List Int}
    (ht : t.scene = s.scene.slept durations) : t.Undisturbed := by
  have hlater : (s.scene.slept durations).Undisturbed :=
    ⟨h.not_cancelled, fun hl n hn => (h.sleeps hl n hn).trans (Nat.le_add_right _ _), h.presses⟩
  rw [← ht] at hlater
  exact ⟨hlater.not_cancelled, hlater.sleeps, hlater.presses⟩

end Stage

namespace Act

open Stage

variable {σ ε : Type} {d : Desktop σ ε} {p : Program} {i : Instruction} {is : List Instruction} {a n : Nat}
  {s : Stage σ ε}

theorem sleep_plain (ms : Int) (hplain : s.player.randomSleep = false) (hs : s.Undisturbed) :
    ∃ t, sleep ms s = .ok () t ∧ t.scene = s.scene.slept [ms] := by
  have hduration : s.player.duration? ms = (some ms, s.player) := by
    rw [Player.duration?, hplain]
    rfl
  have hrecorded : (s.record (.sleep ms)).Undisturbed := ⟨hs.not_cancelled, hs.sleeps, hs.presses⟩
  refine ⟨_, by rw [sleep_eq, hduration], ?_⟩
  change ((s.record (.sleep ms)).countSleep).scene = _
  rw [hrecorded.countSleep_eq]
  have hscene : (s.record (.sleep ms)).scene = s.scene.record (.sleep ms) := scene_record rfl
  change { (s.record (.sleep ms)).scene with sleeps := s.sleeps + 1 } = _
  rw [hscene, slept, List.map_singleton, append_single]
  rfl

theorem step_rests (d : Desktop σ ε) (p : Program) (a : Nat) (hi : i.Rests) (hplain : s.player.randomSleep = false)
    (hs : s.Undisturbed) : ∃ t, step d p a i s = .ok (.next (a + 1)) t ∧ t.scene = s.scene.slept [i.lasting] := by
  have henter := enter_scene p a i s
  have hentered : (s.enter p a i).Undisturbed := hs.of_scene (henter.trans (slept_nil _).symm)
  obtain ⟨t, hsleep, ht⟩ := sleep_plain i.lasting (s := s.enter p a i) (by rw [enter_player]; exact hplain) hentered
  rw [henter] at ht
  have hperformed : performAll d [.sleep i.lasting] (s.enter p a i) = .ok () t := by
    rw [performAll_cons, perform, hsleep]
    rfl
  have hrunning : ¬ (i.opcode ≠ .loopBegin ∧ t.cancelled = true) := by
    simp [(hs.of_scene ht).not_cancelled]
  refine ⟨t, ?_, ht⟩
  rw [step_eq, Instruction.calls_of_rests p hi, hperformed, Instruction.followLoops_of_rests hi]
  simp only [if_neg hrunning]

theorem run_rests (d : Desktop σ ε) (hcode : p.instructions.toList.drop a = is) (his : ∀ i ∈ is, i.Rests)
    (hplain : s.player.randomSleep = false) (hs : s.Undisturbed) (hn : is.length ≤ n) :
    ∃ t, run d p n a s = .ok (some true) t ∧ t.scene = s.scene.slept (is.map Instruction.lasting) := by
  induction is generalizing a n s with
  | nil =>
    have hover : p.instructions[a]? = none := by
      rw [Array.getElem?_eq_none_iff, ← Array.length_toList]
      exact List.drop_eq_nil_iff.mp hcode
    exact ⟨s, run_over hover, (slept_nil _).symm⟩
  | cons i is ih =>
    obtain ⟨hi, his⟩ := List.forall_mem_cons.mp his
    have hfirst : p.instructions[a]? = some i := by
      rw [← Array.getElem?_toList, ← List.head?_drop, hcode, List.head?_cons]
    have hrest : p.instructions.toList.drop (a + 1) = is := by
      rw [← List.tail_drop, hcode, List.tail_cons]
    obtain ⟨n, rfl⟩ : ∃ m, n = m + 1 := ⟨n - 1, by rw [List.length_cons] at hn; omega⟩
    obtain ⟨t, hstep, ht⟩ := step_rests d p a hi hplain hs
    have hplayer : t.player.randomSleep = false := (congrArg (·.player.randomSleep) ht).trans hplain
    obtain ⟨u, hrun, hu⟩ := ih hrest his hplayer (hs.of_scene ht) (Nat.le_of_succ_le_succ hn)
    refine ⟨u, ?_, ?_⟩
    · rw [run_succ hfirst, hstep]
      exact hrun
    · rw [hu, ht, slept_slept, List.map_cons, List.singleton_append]

end Act

namespace Watch

open Act Stage

variable {σ ε : Type} {s t : Stage σ ε}

theorem leave_slept (w : Watch) {durations : List Int} (ht : t.scene = (w.enter s).scene.slept durations) :
    (w.leave s t).scene = s.scene.slept durations := by
  cases w with
  | given => exact ht
  | own mainThread =>
    exact congrArg (fun u : Stage σ ε => { u with cancelled := s.cancelled, handler := s.handler }) ht

theorem play_rests (w : Watch) (d : Desktop σ ε) (p : Program) {n : Nat}
    (hp : ∀ i ∈ p.instructions.toList, i.Rests) (hidle : s.player.playing = false)
    (hplain : s.player.randomSleep = false) (hs : (w.enter s).Undisturbed) (hn : p.size ≤ n) :
    ∃ t, w.play d p n s = .ok (some true) t ∧
      t.scene = s.scene.slept (p.instructions.toList.map Instruction.lasting) := by
  have hentered : (w.enter s).player.randomSleep = false := by
    rw [enter_player]
    exact hplain
  have hcode : p.instructions.toList.drop 0 = p.instructions.toList := rfl
  obtain ⟨t, hrun, ht⟩ := run_rests d (n := n) hcode hp hentered hs hn
  refine ⟨w.leave s t, ?_, w.leave_slept ht⟩
  rw [w.play_idle d p n hidle, hrun]
  rfl

end Watch

namespace Compiler

variable {p : Program} {body : List Piece} {a : String} {seconds : Rat}

theorem compile_sleep_eq (c : Compiler) (p : Program) (hbody : Piece.arguments body = [a])
    (ha : readBinary64? a = some seconds) :
    p.compile c.ignoreSpace (String.ofList (Token.bracketed '#' body).text) =
      .ok ⟨p.instructions ++ Instruction.sleep seconds, p.positions⟩ := by
  have hmeans : Token.Means c.ignoreSpace (.bracketed '#' body) (.emit (Instruction.sleep seconds)) :=
    .bracketed (by rw [hbody]; exact .sleep ha (Instruction.sleeps_sleep seconds))
  have hadds : [Phrase.emit (Instruction.sleep seconds)].foldlM Program.add p =
      .ok ⟨p.instructions ++ Instruction.sleep seconds, p.positions⟩ := rfl
  rw [Program.compile, String.toList_ofList, ← List.flatMap_singleton (f := Token.text)]
  exact Reader.read_of_tokens (.cons hmeans .nil) hadds

/-- A sleep whose argument is read as some seconds adds nothing where these are below the shortest sleep. Otherwise they
are split, and a play of the pieces without randomness, whatever positions there are, only sleeps, and hardly longer or
shorter than the argument says. -/
theorem compile_sleep (c : Compiler) (p : Program) (hbody : Piece.arguments body = [a])
    (ha : readBinary64? a = some seconds) :
    let after := c.compile p (String.ofList (Token.bracketed '#' body).text)
    after.outcome = .ok () ∧ after.program.positions = p.positions ∧
      ∃ is : List Instruction, after.program.instructions = p.instructions ++ is ∧
        (seconds < nearest (1 / 1000) → is = []) ∧
        (nearest (1 / 1000) ≤ seconds →
          (∃ whole rest, is = whole ++ rest ∧ Instruction.Splits seconds whole rest) ∧
          ∃ durations : List Int, |(durations.sum : Rat) - 1000 * seconds| ≤ 501 / 1000 ∧
            ∀ {σ ε : Type} (w : Watch) (d : Desktop σ ε) (positions : Array Point) (n : Nat) (s : Stage σ ε),
              s.player.playing = false → s.player.randomSleep = false → (w.enter s).Undisturbed →
              is.length ≤ n → ∃ t, w.play d ⟨is.toArray, positions⟩ n s = .ok (some true) t ∧
                t.scene = s.scene.slept durations) := by
  obtain ⟨houtcome, hprogram⟩ := compile_eq_ok (compile_sleep_eq c p hbody ha)
  refine ⟨houtcome, by rw [hprogram], Instruction.sleep seconds, by rw [hprogram], fun hshort => if_pos hshort, ?_⟩
  intro hlong
  obtain ⟨whole, rest, hsleep, hsplits⟩ := Instruction.splits_sleep hlong
  refine ⟨⟨whole, rest, hsleep, hsplits⟩, (whole ++ rest).map Instruction.lasting, hsplits.abs_sum_sub_le, ?_⟩
  intro σ ε w d positions n s hidle hplain hs hn
  rw [hsleep] at hn ⊢
  exact w.play_rests d ⟨(whole ++ rest).toArray, positions⟩ hsplits.rests hidle hplain hs hn

theorem compile_sleep_of_full_pieces :
    let c := Compiler.new false
    let after := c.compile .empty (String.ofList (Token.bracketed '#' (Piece.body ["8192.5"])).text)
    let s : Stage DryRun (List DryRunLine) := .new (.idle false true (.ofList [])) .fresh
    after.outcome = .ok () ∧
      ∃ (whole : List Instruction) (i : Instruction) (durations : List Int),
        after.program.instructions = Program.empty.instructions ++ (whole ++ [i]) ∧ whole.length = 2 ∧
          i.opcode = .sleepMs ∧ i.operand = 500 ∧ |(durations.sum : Rat) - 8192500| ≤ 501 / 1000 ∧
          ∃ t, Act.play DryRun.desktop ⟨(whole ++ [i]).toArray, #[]⟩ 3 s = .ok (some true) t ∧
            t.scene = s.scene.slept durations := by
  intro c after s
  subst after
  have hbody : Piece.arguments (Piece.body ["8192.5"]) = ["8192.5"] := by decide
  obtain ⟨hread, hlong, hfloor, hfraction⟩ : readBinary64? "8192.5" = some (16385 / 2) ∧
      nearest (1 / 1000) ≤ 16385 / 2 ∧ (16385 / 2 : Rat).floor = 8192 ∧
      roundHalfEven (nearest ((16385 / 2 - 8192) * 1000)) = 500 := by
    decide +kernel
  obtain ⟨houtcome, -, is, his, -, hsplit⟩ := compile_sleep c .empty hbody hread
  obtain ⟨⟨whole, rest, rfl, hsplits⟩, durations, htotal, hplays⟩ := hsplit hlong
  have hwhole : ⌊(16385 / 2 : Rat)⌋ = 8192 := hfloor
  have hsome : (16385 / 2 : Rat) ≠ ⌊(16385 / 2 : Rat)⌋ := by
    rw [hwhole]
    norm_num
  obtain ⟨i, rfl, hopcode, -, hoperand⟩ := hsplits.fraction hsome
  have hcount := hsplits.count
  rw [hwhole] at hoperand hcount
  have htwo : ⌈((8192 : Int) : Rat) / 4096⌉ = 2 := by
    rw [Int.ceil_eq_iff]
    norm_num
  have hlength : whole.length = 2 := by exact_mod_cast hcount.trans htwo
  have hmilliseconds : i.operand = 500 := by exact_mod_cast hoperand.trans hfraction
  have hs : (Watch.enter .given s).Undisturbed := ⟨rfl, fun _ _ h => (nomatch h), fun _ _ h => (nomatch h)⟩
  obtain ⟨t, hplay, ht⟩ := hplays .given DryRun.desktop #[] 3 s rfl rfl hs
    (by rw [List.length_append, hlength, List.length_singleton])
  rw [show (1000 * (16385 / 2) : Rat) = 8192500 by norm_num] at htotal
  exact ⟨houtcome, whole, i, durations, his, hlength, hopcode, hmilliseconds, htotal, t, hplay, ht⟩

end Compiler

end InputScript
