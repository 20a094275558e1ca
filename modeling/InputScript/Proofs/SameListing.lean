import InputScript.Desktop.DryRun
import InputScript.Proofs.Course
import InputScript.Proofs.ListingText

/-!
Programs with the same listing. A listing hides the operands of loop ends, the upper bits of pointer queries,
the numbers of positions that do not exist and positions that are never gone to. No play depends on these.
-/

namespace InputScript

namespace Program

open Text

variable {p q : Program} {i j : Instruction} {m n : Nat}

theorem countText_inj (h : (if m = 0 then "forever" else decimal m) = if n = 0 then "forever" else decimal n) :
    m = n := by
  have hforever (n : Nat) : "forever" ≠ decimal n := by
    intro h
    have hletter : 'f' ∈ (decimal n).toList := by
      rw [← h]
      decide
    exact not_mem_decimal rfl n hletter
  split_ifs at h with hm hn hn
  · rw [hm, hn]
  · exact absurd h (hforever n)
  · exact absurd h.symm (hforever m)
  · exact decimal_injective h

theorem gotoText_inj {ps qs : Array Point}
    (h : " #" ++ decimal m ++ " " ++ positionText ps m = " #" ++ decimal n ++ " " ++ positionText qs n) :
    ps[m]? = qs[n]? := by
  have hlists := congrArg String.toList h
  simp only [String.toList_append, List.append_assoc] at hlists
  obtain ⟨-, hplace⟩ := split_inj (not_mem_decimal rfl m) (not_mem_decimal rfl n) (List.append_cancel_left hlists)
  have htext : positionText ps m = positionText qs n := String.toList_inj.mp hplace
  rw [positionText_eq, positionText_eq] at htext
  exact eq_of_text_eq Point.text_injective Point.text_ne_invalid Point.text_ne_invalid htext

theorem overwriteText_inj : ∀ {b c : Bool}, (if b then " !" else "") = (if c then " !" else "") → b = c := by
  decide

theorem calls_of_describe (h : p.describe i = q.describe j) : p.calls i = q.calls j := by
  have hdetail := detail_of_describe h
  have hopcode := opcode_of_describe h
  obtain ⟨op, m, hm⟩ := i
  obtain ⟨op', n, hn⟩ := j
  obtain rfl : op = op' := hopcode
  cases op with
  | keyUp | keyDown | keyClick =>
    have hkey : Key.ofCode? m = Key.ofCode? n := by
      have htext : keyText m = keyText n := (String.append_right_inj _).mp hdetail
      rw [keyText_eq, keyText_eq] at htext
      exact eq_of_text_eq Key.name_injective (Key.name_ne_raw · m) (Key.name_ne_raw · n) htext
    simp only [calls, deviceCalls?, hkey]
  | buttonUp | buttonDown | buttonClick =>
    have hbutton : Button.ofCode? m = Button.ofCode? n := by
      have htext : buttonText m = buttonText n := (String.append_right_inj _).mp hdetail
      rw [buttonText_eq, buttonText_eq] at htext
      exact eq_of_text_eq Button.name_injective (Button.name_ne_raw · m) (Button.name_ne_raw · n) htext
    simp only [calls, deviceCalls?, hbutton]
  | pointerGoto =>
    have hplace : p.positions[m]? = q.positions[n]? := gotoText_inj hdetail
    simp only [calls, deviceCalls?, hplace]
  | pointerWhere =>
    have hoverwrites : overwritesLine m = overwritesLine n := overwriteText_inj hdetail
    simp only [calls, deviceCalls?, hoverwrites]
  | loopBegin | loopEnd => rfl
  | sleepMs | sleepSec =>
    obtain rfl : m = n := decimal_injective ((String.append_right_inj _).mp hdetail)
    rfl

theorem followLoops_of_describe (h : p.describe i = q.describe j) (next : Nat) (loops : List Frame) :
    followLoops i next loops = followLoops j next loops := by
  have hdetail := detail_of_describe h
  have hopcode := opcode_of_describe h
  obtain ⟨op, m, hm⟩ := i
  obtain ⟨op', n, hn⟩ := j
  obtain rfl : op = op' := hopcode
  cases op with
  | loopBegin =>
    obtain rfl : m = n := countText_inj ((String.append_right_inj _).mp hdetail)
    rfl
  | _ => rfl

theorem instructions_of_listing (h : p.listing = q.listing) (a : Nat) :
    (p.instructions[a]? = none ∧ q.instructions[a]? = none) ∨
      ∃ i j, p.instructions[a]? = some i ∧ q.instructions[a]? = some j ∧ p.describe i = q.describe j := by
  have hline : p.instructions[a]?.map (p.line a) = q.instructions[a]?.map (q.line a) := by
    rw [← listing_getElem?, h, listing_getElem?]
  cases hp : p.instructions[a]? with
  | none =>
    rw [hp] at hline
    exact .inl ⟨rfl, Option.map_eq_none_iff.mp hline.symm⟩
  | some i =>
    rw [hp] at hline
    obtain ⟨j, hq, hsame⟩ := Option.map_eq_some_iff.mp hline.symm
    exact .inr ⟨i, j, rfl, hq, describe_of_line hsame.symm⟩

end Program

namespace Act

variable {σ ε : Type} {d : Desktop σ ε} {p q : Program} {i j : Instruction} {a n : Nat} {s : Stage σ ε}

theorem step_of_describe (d : Desktop σ ε) (a : Nat) (s : Stage σ ε) (h : p.describe i = q.describe j) :
    step d p a i s = step d q a j s := by
  have henter : s.enter p a i = s.enter q a j := by
    simp only [Stage.enter, Stage.traced, Program.traceLine, h, Program.followLoops_of_describe h]
  simp only [step_eq, Program.calls_of_describe h, henter, Program.followLoops_of_describe h,
    Program.opcode_of_describe h]

theorem run_of_listing (h : p.listing = q.listing) (d : Desktop σ ε) (n a : Nat) (s : Stage σ ε) :
    run d p n a s = run d q n a s := by
  induction n generalizing a s with
  | zero =>
    rcases Program.instructions_of_listing h a with ⟨hp, hq⟩ | ⟨i, j, hp, hq, -⟩
    · rw [run_over hp, run_over hq]
    · rw [run_zero hp, run_zero hq]
  | succ n ih =>
    rcases Program.instructions_of_listing h a with ⟨hp, hq⟩ | ⟨i, j, hp, hq, hsame⟩
    · rw [run_over hp, run_over hq]
    · rw [run_succ hp, run_succ hq, step_of_describe d a s hsame]
      split
      · exact ih _ _
      · rfl
      · rfl

/-- Programs with the same listing have the same number of instructions, and a player plays them alike: the
play ends or fails in the same way, with the same events, with and without a token of its own. -/
theorem play_of_listing (h : p.listing = q.listing) :
    p.size = q.size ∧ ∀ (σ ε : Type) (d : Desktop σ ε) (fuel : Nat) (s : Stage σ ε),
      play d p fuel s = play d q fuel s ∧
        ∀ mainThread, playAlone d p fuel mainThread s = playAlone d q fuel mainThread s := by
  constructor
  · rw [← Program.length_listing, h, Program.length_listing]
  · intro σ ε d fuel s
    have hplay : play d p fuel = play d q fuel := by
      rw [play, play, show run d p fuel 0 = run d q fuel 0 from funext (run_of_listing h d fuel 0)]
    refine ⟨by rw [hplay], fun mainThread => ?_⟩
    rw [playAlone, playAlone, hplay]

theorem play_of_hidden_operands :
    let p : Program := ⟨#[⟨.loopBegin, 2, by decide⟩, ⟨.pointerWhere, 2, by decide⟩, ⟨.loopEnd, 7, by decide⟩,
      ⟨.pointerGoto, 1, by decide⟩], #[⟨3, -4⟩]⟩
    let q : Program := ⟨#[⟨.loopBegin, 2, by decide⟩, ⟨.pointerWhere, 0, by decide⟩, ⟨.loopEnd, 0, by decide⟩,
      ⟨.pointerGoto, 1, by decide⟩], #[]⟩
    let s : Stage DryRun (List DryRunLine) := .new (.idle false true (.ofList [])) .fresh
    p.listing = q.listing ∧ p ≠ q ∧ ∀ fuel, play DryRun.desktop p fuel s = play DryRun.desktop q fuel s := by
  intro p q s
  have h : p.listing = q.listing := by decide +kernel
  exact ⟨h, by decide, fun fuel => ((play_of_listing h).2 _ _ DryRun.desktop fuel s).1⟩

end Act

end InputScript
