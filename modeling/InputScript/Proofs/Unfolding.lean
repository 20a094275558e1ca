import InputScript.Proofs.Record
import InputScript.Script.Phrase

namespace InputScript

def Stroke.calls (s : Symbol) : Stroke → List Call
  | press => [.press s]
  | release => [.release s]
  | click => [.press s, .release s]

def Opcode.keyStroke? : Opcode → Option Stroke
  | .keyUp => some .release
  | .keyDown => some .press
  | .keyClick => some .click
  | _ => none

def Opcode.buttonStroke? : Opcode → Option Stroke
  | .buttonUp => some .release
  | .buttonDown => some .press
  | .buttonClick => some .click
  | _ => none

def settle : List Call :=
  [.flush, .sleep 50]

namespace Instruction

/-- What an instruction other than those of loops has a player do, for a table of positions. -/
inductive Does (positions : Array Point) (i : Instruction) : List Call → Prop
  | sleepMs : i.opcode = .sleepMs → Does positions i [.sleep i.operand]
  | sleepSec : i.opcode = .sleepSec → Does positions i [.sleep (1000 * i.operand)]
  | key {stroke : Stroke} {k : Key} : i.opcode.keyStroke? = some stroke → k.code = i.operand →
      Does positions i (stroke.calls (.key k) ++ settle)
  | noKey {stroke : Stroke} : i.opcode.keyStroke? = some stroke → (∀ k : Key, k.code ≠ i.operand) →
      Does positions i []
  | button {stroke : Stroke} {b : Button} : i.opcode.buttonStroke? = some stroke →
      b.code = i.operand → Does positions i (stroke.calls (.button b) ++ settle)
  | noButton {stroke : Stroke} : i.opcode.buttonStroke? = some stroke →
      (∀ b : Button, b.code ≠ i.operand) → Does positions i []
  | pointerGoto {place : Point} : i.opcode = .pointerGoto → positions[i.operand]? = some place →
      Does positions i (.moveTo place :: settle)
  | noPosition : i.opcode = .pointerGoto → positions.size ≤ i.operand → Does positions i []
  | pointerWhere : i.opcode = .pointerWhere →
      Does positions i (.printPointer (i.operand % 2 = 1) :: settle)

variable {p : Program} {i : Instruction} {stroke : Stroke} {cs : List Call}

theorem calls_key (h : i.opcode.keyStroke? = some stroke) :
    p.calls i = match Key.ofCode? i.operand with
      | some k => stroke.calls (.key k) ++ settle
      | none => [] := by
  unfold Program.calls Program.deviceCalls?
  cases hi : i.opcode <;> rw [hi] at h <;> cases h
  all_goals cases Key.ofCode? i.operand <;> rfl

theorem calls_button (h : i.opcode.buttonStroke? = some stroke) :
    p.calls i = match Button.ofCode? i.operand with
      | some b => stroke.calls (.button b) ++ settle
      | none => [] := by
  unfold Program.calls Program.deviceCalls?
  cases hi : i.opcode <;> rw [hi] at h <;> cases h
  all_goals cases Button.ofCode? i.operand <;> rfl

theorem calls_pointerGoto (h : i.opcode = .pointerGoto) :
    p.calls i = match p.positions[i.operand]? with
      | some place => .moveTo place :: settle
      | none => [] := by
  simp only [Program.calls, Program.deviceCalls?, h]
  cases p.positions[i.operand]? <;> rfl

theorem calls_loop (h : i.opcode = .loopBegin ∨ i.opcode = .loopEnd) : p.calls i = settle := by
  rcases h with h | h
  · rw [Program.calls, h]
    rfl
  · rw [Program.calls, h]
    rfl

theorem Does.calls_eq (h : i.Does p.positions cs) : p.calls i = cs := by
  cases h with
  | sleepMs hi => simp only [Program.calls, hi]
  | sleepSec hi => simp only [Program.calls, hi]
  | key hi hk => rw [calls_key hi, ← hk, Key.ofCode?_code]
  | noKey hi hk =>
    rw [calls_key hi]
    cases ho : Key.ofCode? i.operand with
    | none => rfl
    | some k => exact absurd (Key.code_of_ofCode? ho) (hk k)
  | button hi hb => rw [calls_button hi, ← hb, Button.ofCode?_code]
  | noButton hi hb =>
    rw [calls_button hi]
    cases ho : Button.ofCode? i.operand with
    | none => rfl
    | some b => exact absurd (Button.code_of_ofCode? ho) (hb b)
  | pointerGoto hi hplace => rw [calls_pointerGoto hi, hplace]
  | noPosition hi hsize => rw [calls_pointerGoto hi, Array.getElem?_eq_none hsize]
  | pointerWhere hi => simp only [Program.calls, Program.deviceCalls?, hi]; rfl

theorem Does.unique {positions : Array Point} {ds : List Call} (h : i.Does positions cs)
    (h' : i.Does positions ds) : cs = ds := by
  let p : Program := ⟨#[], positions⟩
  have hcs : p.calls i = cs := h.calls_eq
  have hds : p.calls i = ds := h'.calls_eq
  rw [← hcs, hds]

theorem does_key (positions : Array Point) (stroke : Stroke)
    (h : i.opcode.keyStroke? = some stroke) :
    ∃ cs, i.Does positions cs := by
  by_cases hk : ∃ k : Key, k.code = i.operand
  · obtain ⟨k, hk⟩ := hk
    exact ⟨_, .key h hk⟩
  · exact ⟨_, .noKey h fun k hcode => hk ⟨k, hcode⟩⟩

theorem does_button (positions : Array Point) (stroke : Stroke)
    (h : i.opcode.buttonStroke? = some stroke) :
    ∃ cs, i.Does positions cs := by
  by_cases hb : ∃ b : Button, b.code = i.operand
  · obtain ⟨b, hb⟩ := hb
    exact ⟨_, .button h hb⟩
  · exact ⟨_, .noButton h fun b hcode => hb ⟨b, hcode⟩⟩

theorem exists_does (positions : Array Point) (hbegin : i.opcode ≠ .loopBegin)
    (hend : i.opcode ≠ .loopEnd) : ∃ cs, i.Does positions cs := by
  cases hi : i.opcode with
  | sleepMs => exact ⟨_, .sleepMs hi⟩
  | sleepSec => exact ⟨_, .sleepSec hi⟩
  | keyUp => exact does_key positions .release (by rw [hi]; rfl)
  | keyDown => exact does_key positions .press (by rw [hi]; rfl)
  | keyClick => exact does_key positions .click (by rw [hi]; rfl)
  | buttonUp => exact does_button positions .release (by rw [hi]; rfl)
  | buttonDown => exact does_button positions .press (by rw [hi]; rfl)
  | buttonClick => exact does_button positions .click (by rw [hi]; rfl)
  | pointerGoto =>
    cases hplace : positions[i.operand]? with
    | none => exact ⟨_, .noPosition hi (Array.getElem?_eq_none_iff.mp hplace)⟩
    | some place => exact ⟨_, .pointerGoto hi hplace⟩
  | pointerWhere => exact ⟨_, .pointerWhere hi⟩
  | loopBegin => exact absurd hi hbegin
  | loopEnd => exact absurd hi hend

end Instruction

inductive Block where
  | done
  | plain (i : Instruction) (hbegin : i.opcode ≠ .loopBegin) (hend : i.opcode ≠ .loopEnd) (rest : Block)
  | loop (count : Nat) (hcount : 1 ≤ count) (hmax : count ≤ maxOperand) (mark : Nat)
      (hmark : mark ≤ maxOperand) (body rest : Block)

namespace Block

def code : Block → List Instruction
  | done => []
  | plain i _ _ rest => i :: rest.code
  | loop count _ hmax mark hmark body rest =>
    ⟨.loopBegin, count, hmax⟩ :: (body.code ++ ⟨.loopEnd, mark, hmark⟩ :: rest.code)

def program (b : Block) (positions : Array Point) : Program :=
  ⟨b.code.toArray, positions⟩

inductive Unfolds (positions : Array Point) : Block → List Call → Prop
  | done : Unfolds positions .done []
  | plain {i : Instruction} {hbegin hend} {rest : Block} {first after : List Call} :
      i.Does positions first → Unfolds positions rest after →
      Unfolds positions (.plain i hbegin hend rest) (first ++ after)
  | loop {count mark : Nat} {hcount hmax hmark} {body rest : Block} {pass after : List Call} :
      Unfolds positions body pass → Unfolds positions rest after →
      Unfolds positions (.loop count hcount hmax mark hmark body rest)
        (settle ++ (List.replicate count (pass ++ settle)).flatten ++ after)

theorem exists_unfolds (positions : Array Point) (b : Block) : ∃ cs, b.Unfolds positions cs := by
  induction b with
  | done => exact ⟨_, .done⟩
  | plain i hbegin hend rest ih =>
    obtain ⟨first, hfirst⟩ := Instruction.exists_does positions hbegin hend
    obtain ⟨after, hafter⟩ := ih
    exact ⟨_, .plain hfirst hafter⟩
  | loop count hcount hmax mark hmark body rest ihbody ih =>
    obtain ⟨pass, hpass⟩ := ihbody
    obtain ⟨after, hafter⟩ := ih
    exact ⟨_, .loop hpass hafter⟩

theorem Unfolds.unique {positions : Array Point} {b : Block} {cs ds : List Call}
    (h : b.Unfolds positions cs) (h' : b.Unfolds positions ds) : cs = ds := by
  induction h generalizing ds with
  | done =>
    cases h'
    rfl
  | plain hfirst _ ih =>
    obtain _ | ⟨hfirst', hafter'⟩ := h'
    rw [hfirst.unique hfirst', ih hafter']
  | loop _ _ ihbody ih =>
    obtain _ | _ | ⟨hpass', hafter'⟩ := h'
    rw [ihbody hpass', ih hafter']

end Block

namespace Program

variable {p : Program} {a : Nat} {i : Instruction} {code rest : List Instruction}

def Holds (p : Program) (a : Nat) (code : List Instruction) : Prop :=
  code <+: p.instructions.toList.drop a

theorem Holds.left (h : p.Holds a (code ++ rest)) : p.Holds a code :=
  (List.prefix_append code rest).trans h

theorem Holds.right (h : p.Holds a (code ++ rest)) : p.Holds (a + code.length) rest := by
  obtain ⟨tail, htail⟩ := h
  refine ⟨tail, ?_⟩
  rw [← List.drop_drop, ← htail, List.append_assoc, List.drop_left]

theorem Holds.head (h : p.Holds a (i :: rest)) : p.instructions[a]? = some i := by
  obtain ⟨tail, htail⟩ := h
  rw [← Array.getElem?_toList, ← Nat.add_zero a, ← List.getElem?_drop, ← htail]
  rfl

theorem Holds.tail (h : p.Holds a (i :: rest)) : p.Holds (a + 1) rest :=
  Holds.right (show p.Holds a ([i] ++ rest) from h)

end Program

namespace Act

open Program

variable {σ ε : Type} {d : Desktop σ ε} {I : σ → Prop} {p : Program} {i : Instruction}
  {a b c n : Nat} {s : Stage σ ε} {loops outer : List Frame} {cs ds pass : List Call} {code : List Instruction}

theorem steps_straight (hcode : p.Holds a code) (hplain : ∀ i ∈ code, i.opcode ≠ .loopBegin ∧ i.opcode ≠ .loopEnd)
    (hserved : ∀ i ∈ code, ∀ c ∈ p.calls i, c.Served d I) (hs : s.Calm I) :
    ∃ t, Steps d p code.length a s (a + code.length) t ∧ t.Calm I ∧
      performAll d (code.flatMap p.calls) s.scene = .ok () t.scene := by
  induction code generalizing a s with
  | nil => exact ⟨s, .refl a s, hs, rfl⟩
  | cons i code ih =>
    obtain ⟨⟨hbegin, hend⟩, hplain⟩ := List.forall_mem_cons.mp hplain
    obtain ⟨hcalls, hserved⟩ := List.forall_mem_cons.mp hserved
    obtain ⟨t, hstep, ht, -, hfirst⟩ := step_served p a i hcalls hs
    rw [followLoops_plain hbegin hend] at hstep
    obtain ⟨u, hsteps, hu, hrest⟩ := ih hcode.tail hplain hserved ht
    refine ⟨u, ?_, hu, ?_⟩
    · rw [List.length_cons, ← Nat.add_assoc, Nat.add_right_comm]
      exact .head hcode.head hstep hsteps
    · rw [List.flatMap_cons, performAll_append, hfirst]
      exact hrest

theorem run_straight (hplain : ∀ i ∈ p.instructions.toList, i.opcode ≠ .loopBegin ∧ i.opcode ≠ .loopEnd)
    (hserved : ∀ i ∈ p.instructions.toList, ∀ c ∈ p.calls i, c.Served d I) (hs : s.Calm I) (hn : p.size ≤ n) :
    ∃ t, run d p n 0 s = .ok (some true) t ∧
      performAll d (p.instructions.toList.flatMap p.calls) s.scene = .ok () t.scene := by
  have hcode : p.Holds 0 p.instructions.toList := List.prefix_rfl
  obtain ⟨t, hsteps, -, hcalls⟩ := steps_straight hcode hplain hserved hs
  have hsize : p.instructions.toList.length = p.size := Array.length_toList
  rw [hsize, Nat.zero_add] at hsteps
  have hrun := hsteps.run_eq (n - p.size)
  rw [Nat.add_sub_cancel' hn] at hrun
  exact ⟨t, hrun.trans (run_over (Array.getElem?_eq_none (Nat.le_refl _))), hcalls⟩

def Makes (I : σ → Prop) (d : Desktop σ ε) (p : Program) (a : Nat) (s : Stage σ ε) (cs : List Call)
    (b : Nat) (loops : List Frame) : Prop :=
  ∃ n t, Steps d p n a s b t ∧ t.Calm I ∧ t.player.loops = loops ∧
    performAll d cs s.scene = .ok () t.scene

theorem makes_refl (hs : s.Calm I) : Makes I d p a s [] a s.player.loops :=
  ⟨0, s, .refl a s, hs, rfl, rfl⟩

theorem Makes.andThen (h : Makes I d p a s cs b loops)
    (hrest : ∀ t : Stage σ ε, t.Calm I → t.player.loops = loops → Makes I d p b t ds c outer) :
    Makes I d p a s (cs ++ ds) c outer := by
  obtain ⟨n, t, hsteps, ht, hloops, hcs⟩ := h
  obtain ⟨m, u, hsteps', hu, hloops', hds⟩ := hrest t ht hloops
  refine ⟨n + m, u, hsteps.trans hsteps', hu, hloops', ?_⟩
  rw [performAll_append, hcs]
  exact hds

theorem makes_step (hd : d.Serves I) (hs : s.Calm I) (hi : p.instructions[a]? = some i)
    (hfollow : followLoops i (a + 1) s.player.loops = (b, loops)) :
    Makes I d p a s (p.calls i) b loops := by
  obtain ⟨t, hstep, ht, ⟨noise, hplayer⟩, hcs⟩ := step_calm hd p a i hs
  rw [hfollow] at hstep hplayer
  exact ⟨1, t, .head hi hstep (.refl b t), ht, by rw [hplayer], hcs⟩

theorem makes_pass (hd : d.Serves I) (hi : p.instructions[b]? = some i) (hend : i.opcode = .loopEnd)
    (hbody : ∀ t : Stage σ ε, t.Calm I → Makes I d p a t pass b t.player.loops) (hs : s.Calm I) :
    Makes I d p a s (pass ++ settle) (endLoop (b + 1) s.player.loops).1
      (endLoop (b + 1) s.player.loops).2 := by
  apply (hbody s hs).andThen
  intro t ht hloops
  rw [← Instruction.calls_loop (p := p) (.inr hend)]
  apply makes_step hd ht hi
  rw [followLoops_end hend, hloops]

theorem makes_passes (hd : d.Serves I) (hi : p.instructions[b]? = some i) (hend : i.opcode = .loopEnd)
    (hbody : ∀ t : Stage σ ε, t.Calm I → Makes I d p a t pass b t.player.loops) (m : Nat)
    (hs : s.Calm I) (hloops : s.player.loops = ⟨a, m + 1⟩ :: outer) :
    Makes I d p a s (List.replicate (m + 1) (pass ++ settle)).flatten (b + 1) outer := by
  induction m generalizing s with
  | zero =>
    have hpass := makes_pass hd hi hend hbody hs
    rw [hloops] at hpass
    have hone : (List.replicate 1 (pass ++ settle)).flatten = pass ++ settle := by simp
    rw [hone]
    exact hpass
  | succ m ih =>
    have hpass := makes_pass hd hi hend hbody hs
    rw [hloops] at hpass
    rw [List.replicate_succ, List.flatten_cons]
    apply hpass.andThen
    intro t ht hloops'
    exact ih ht hloops'

theorem makes_of_unfolds (hd : d.Serves I) {block : Block} (h : block.Unfolds p.positions cs)
    (hcode : p.Holds a block.code) (hs : s.Calm I) :
    Makes I d p a s cs (a + block.code.length) s.player.loops := by
  induction h generalizing a s with
  | done => exact makes_refl hs
  | @plain i hbegin hend rest first after hfirst _ ih =>
    have hstep : Makes I d p a s first (a + 1) s.player.loops := by
      rw [← hfirst.calls_eq]
      exact makes_step hd hs hcode.head (followLoops_plain hbegin hend _ _)
    apply hstep.andThen
    intro t ht hloops
    have hrest := ih hcode.tail ht
    rwa [hloops, Nat.add_right_comm] at hrest
  | @loop count mark hcount hmax hmark body rest pass after _ _ ihbody ih =>
    obtain ⟨m, rfl⟩ := Nat.exists_eq_add_of_le' hcount
    have hstep : Makes I d p a s settle (a + 1) (⟨a + 1, m + 1⟩ :: s.player.loops) := by
      rw [← Instruction.calls_loop (p := p) (i := ⟨.loopBegin, m + 1, hmax⟩) (.inl rfl)]
      exact makes_step hd hs hcode.head (followLoops_begin rfl _ _)
    have hinside := hcode.tail
    have hloop : Makes I d p a s (settle ++ (List.replicate (m + 1) (pass ++ settle)).flatten)
        (a + 1 + body.code.length + 1) s.player.loops := by
      apply hstep.andThen
      intro t ht hloops
      exact makes_passes hd hinside.right.head rfl (fun u hu => ihbody hinside.left hu) m ht hloops
    apply hloop.andThen
    intro t ht hloops
    have hrest := ih hinside.right.tail ht
    have hlength : a + (Block.loop (m + 1) hcount hmax mark hmark body rest).code.length =
        a + 1 + body.code.length + 1 + rest.code.length := by
      simp only [Block.code, List.length_cons, List.length_append]
      omega
    rwa [hloops, ← hlength] at hrest

/-- An undisturbed play of a structured program without random sleeps is completed and leaves no loop
open. Apart from its trace it records and counts what the calls of the unfolding give, one after another. -/
theorem play_unfolds (hd : d.Serves I) (hdesktop : I s.desktop) (hs : s.Undisturbed)
    (hexact : s.player.randomSleep = false) (hidle : s.player.playing = false) (block : Block)
    (positions : Array Point) :
    (∃! cs, block.Unfolds positions cs) ∧
      ∀ cs, block.Unfolds positions cs → ∃ fuel after es,
        play d (block.program positions) fuel s = .ok (some true) after ∧
          after.player.loops = [] ∧ s.scene.Records d cs es after.scene := by
  constructor
  · obtain ⟨cs, hcs⟩ := block.exists_unfolds positions
    exact ⟨cs, hcs, fun ds hds => hds.unique hcs⟩
  · intro cs hcs
    have hsteady : s.player.Steady := by
      intro hrandom
      rw [hexact] at hrandom
      cases hrandom
    have hcode : (block.program positions).Holds 0 block.code := List.prefix_rfl
    obtain ⟨n, t, hsteps, -, hloops, hcalls⟩ :=
      makes_of_unfolds hd hcs hcode (Stage.Calm.started ⟨hdesktop, hs, hsteady⟩)
    have hover : (block.program positions).instructions[0 + block.code.length]? = none := by
      simp [Block.program]
    have hrun : run d (block.program positions) n 0 s.started = .ok (some true) t := by
      rw [← Nat.add_zero n, hsteps.run_eq]
      exact run_over hover
    obtain ⟨es, hrecords⟩ := records_of_performAll (s := s.scene) (fun _ _ _ => hexact) hcalls
    exact ⟨n, t.stopped, es, play_of_run hidle hrun, hloops, hrecords⟩

theorem play_of_nested_loops :
    let a : Key := .small 0
    let inner : Block := .loop 1 (by decide) (by decide) 0 (by decide)
      (.plain ⟨.sleepMs, 7, by decide⟩ (by decide) (by decide) .done)
      (.plain ⟨.pointerGoto, 0, by decide⟩ (by decide) (by decide)
        (.plain ⟨.pointerWhere, 1, by decide⟩ (by decide) (by decide) .done))
    let block : Block := .loop 2 (by decide) (by decide) 5 (by decide)
      (.plain ⟨.keyDown, 8000, by decide⟩ (by decide) (by decide)
        (.plain ⟨.keyClick, 36, by decide⟩ (by decide) (by decide) inner)) .done
    let s : Stage Recording Recorded := .new (.idle false true (.ofList [])) ⟨⟨0, 0⟩, true, 0, none, "", none⟩
    let paced : List (Event Recorded) := [.desktop .flush, .sleep 50]
    let pass : List (Event Recorded) := .desktop (.press (.key a)) :: .desktop (.release (.key a)) :: paced ++
      (paced ++ .sleep 7 :: paced ++ (.desktop (.move ⟨3, 4⟩) :: paced ++ .print "(3,4)\x1b[K\r" :: paced)) ++ paced
    ∃ fuel after, play Recording.desktop (block.program #[⟨3, 4⟩]) fuel s = .ok (some true) after ∧
      after.player.loops = [] ∧ after.events.toList.filter (!·.isTrace) = paced ++ pass ++ pass ∧
        after.sleeps = 15 ∧ after.presses = 2 := by
  intro a inner block s paced pass
  let typed : List Call := .press (.key a) :: .release (.key a) :: settle
  let placed : List Call := .moveTo ⟨3, 4⟩ :: settle ++ .printPointer true :: settle
  let body : List Call := typed ++ (settle ++ .sleep 7 :: settle ++ placed) ++ settle
  have hnokey : Instruction.Does #[⟨3, 4⟩] ⟨.keyDown, 8000, by decide⟩ [] := by
    refine Instruction.Does.noKey (show Opcode.keyStroke? .keyDown = some .press from rfl) ?_
    intro k hk
    have := k.code_lt
    simp only at hk
    omega
  have hkey : Instruction.Does #[⟨3, 4⟩] ⟨.keyClick, 36, by decide⟩ typed :=
    @Instruction.Does.key _ _ .click a rfl rfl
  have hinner : inner.Unfolds #[⟨3, 4⟩] (settle ++ .sleep 7 :: settle ++ placed) :=
    .loop (.plain (.sleepMs rfl) .done) (.plain (.pointerGoto rfl rfl) (.plain (.pointerWhere rfl) .done))
  have hblock : block.Unfolds #[⟨3, 4⟩] (settle ++ body ++ body) := .loop (.plain hnokey (.plain hkey hinner)) .done
  have hpaced (x : Recording) : Recording.desktop.TakesAll x settle x paced :=
    .cons (.flush rfl) (.cons (.sleep 50) (.nil x))
  have hmade {x y : Recording} {c : Call} {es : List (Event Recorded)} (h : Recording.desktop.Takes x c y es) :
      Recording.desktop.TakesAll x (c :: settle) y (es ++ paced) := .cons h (hpaced y)
  have htext : Point.text ⟨3, 4⟩ ++ "\x1b[K\r" = "(3,4)\x1b[K\r" := by decide +kernel
  have hprinted (n : Nat) : Recording.desktop.Takes ⟨⟨3, 4⟩, true, n, none, "", none⟩ (.printPointer true)
      ⟨⟨3, 4⟩, true, n, none, "", none⟩ [.print "(3,4)\x1b[K\r"] := by
    rw [← htext]
    exact .printOver rfl
  have hbody (n : Nat) (place : Point) : Recording.desktop.TakesAll ⟨place, true, n, none, "", none⟩ body
      ⟨⟨3, 4⟩, true, n + 1, none, "", none⟩ pass := by
    have htyped := (Desktop.Takes.press (d := Recording.desktop) (x := ⟨place, true, n, none, "", none⟩)
      (.key a) rfl).single.append (hmade (.release (.key a) rfl))
    have hplaced := (hmade (.moveTo (x := ⟨place, true, n + 1, none, "", none⟩) ⟨3, 4⟩ rfl)).append
      (hmade (hprinted (n + 1)))
    exact (htyped.append (((hpaced _).append (hmade (.sleep 7))).append hplaced)).append (hpaced _)
  have hs : s.Undisturbed := (Stage.calm_new (I := fun _ => True) trivial true (.ofList [])).undisturbed
  obtain ⟨fuel, after, es, hplay, hloops, hrecords⟩ :=
    (play_unfolds (s := s) Recording.serves ⟨rfl, rfl⟩ hs rfl rfl block #[⟨3, 4⟩]).2 _ hblock
  obtain ⟨-, rfl⟩ := hrecords.takes.unique (((hpaced _).append (hbody 0 ⟨0, 0⟩)).append (hbody 1 ⟨3, 4⟩))
  have hevents := hrecords.events
  rw [Stage.scene_events] at hevents
  exact ⟨fuel, after, hplay, hloops, hevents, hrecords.sleeps, hrecords.presses⟩

end Act

end InputScript
