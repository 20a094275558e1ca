import InputScript.Proofs.Chunks
import InputScript.Proofs.Language
import InputScript.Proofs.Unfolding

namespace InputScript

namespace Instruction

variable {i : Instruction}

def Sound (i : Instruction) : Prop :=
  match i.opcode with
  | .keyUp | .keyDown | .keyClick => ∃ k : Key, k.code = i.operand
  | .buttonUp | .buttonDown | .buttonClick => ∃ b : Button, b.code = i.operand
  | .sleepSec => 1 ≤ i.operand ∧ i.operand ≤ 4096
  | .sleepMs => i.operand ≤ 1000
  | .pointerGoto => True
  | .pointerWhere => i.operand ≤ 1
  | .loopBegin => i.operand ≤ 8191
  | .loopEnd => i.operand = 0

theorem sound_sleepWhole {whole : Nat} (h : i ∈ sleepWhole whole) : i.Sound ∧ i.opcode = .sleepSec := by
  unfold sleepWhole at h
  split_ifs at h
  · cases h
  rcases List.mem_append.mp h with h | h
  · obtain rfl := List.eq_of_mem_replicate h
    exact ⟨⟨by decide, by decide⟩, rfl⟩
  · obtain rfl := List.mem_singleton.mp h
    refine ⟨⟨?_, ?_⟩, rfl⟩
    · exact Nat.succ_pos _
    · exact Nat.mod_lt _ (by decide)

theorem sound_sleep {seconds : Rat} (h : i ∈ sleep seconds) : i.Sound ∧ i.opcode ≠ .pointerGoto := by
  unfold sleep at h
  split_ifs at h
  · cases h
  · rw [List.append_nil] at h
    obtain ⟨hsound, hopcode⟩ := sound_sleepWhole h
    exact ⟨hsound, by rw [hopcode]; decide⟩
  rcases List.mem_append.mp h with h | h
  · obtain ⟨hsound, hopcode⟩ := sound_sleepWhole h
    exact ⟨hsound, by rw [hopcode]; decide⟩
  · obtain rfl := List.mem_singleton.mp h
    exact ⟨milliseconds_le (fractionPart_nonneg seconds) (fractionPart_le_one seconds), by
      simp [sleepFraction]⟩

end Instruction

def Point.Within (place : Point) (n : Int) : Prop :=
  (0 ≤ place.x ∧ place.x ≤ n) ∧ 0 ≤ place.y ∧ place.y ≤ n

theorem Point.Within.clamp_eq {place : Point} (h : place.Within 65535) : place.clamp = place := by
  rw [Point.clamp, clampCoordinate_eq_self h.1, clampCoordinate_eq_self h.2]

namespace Phrase

def Sound : Phrase → Prop
  | emit instructions => ∀ i ∈ instructions, i.Sound ∧ i.opcode ≠ .pointerGoto
  | move place => place.Within 65535

theorem sound_single {i : Instruction} (h : i.Sound) (hgoto : i.opcode ≠ .pointerGoto) :
    (single i).Sound := by
  intro j hj
  obtain rfl := List.mem_singleton.mp hj
  exact ⟨h, hgoto⟩

theorem sound_keyClick (k : Key) : (emit [⟨.keyClick, k.code, k.code_le⟩]).Sound :=
  sound_single ⟨k, rfl⟩ (by simp)

theorem sound_buttonClick (b : Button) : (emit [⟨.buttonClick, b.code, b.code_le⟩]).Sound :=
  sound_single ⟨b, rfl⟩ (by simp)

theorem sound_move (place : Point) : (move place.clamp).Sound :=
  ⟨⟨clampCoordinate_nonneg _, clampCoordinate_le _⟩, clampCoordinate_nonneg _, clampCoordinate_le _⟩

end Phrase

theorem Command.Says.sound {c : Char} {args : List String} {phrase : Phrase}
    (h : Command.Says c args phrase) : phrase.Sound := by
  cases h with
  | sleep _ his =>
    rw [his.eq_sleep]
    exact fun i hi => Instruction.sound_sleep hi
  | @movePointer _ _ x y => exact Phrase.sound_move ⟨x, y⟩
  | second => exact Phrase.sound_single ⟨by decide, by decide⟩ (by simp)
  | queryPointer => exact Phrase.sound_single (Nat.zero_le 1) (by simp)
  | queryPointerOver => exact Phrase.sound_single (Nat.le_refl 1) (by simp)
  | beginEndlessLoop | beginLoop => exact Phrase.sound_single (Instruction.operand_le _) (by simp)
  | endLoop => exact Phrase.sound_single rfl (by simp)
  | backslash | enter | tab | space | clickKey => exact Phrase.sound_keyClick _
  | leftClick | middleClick | rightClick | scrollUp | scrollDown | clickButton => exact Phrase.sound_buttonClick _
  | @pressKey k | @releaseKey k => exact Phrase.sound_single ⟨k, rfl⟩ (by simp)
  | @pressButton b | @releaseButton b => exact Phrase.sound_single ⟨b, rfl⟩ (by simp)

theorem Token.Means.sound {ignoreSpace : Bool} {t : Token} {phrase : Phrase}
    (h : t.Means ignoreSpace phrase) : phrase.Sound := by
  cases h with
  | ignored => exact fun i hi => nomatch hi
  | typed => exact Phrase.sound_keyClick _
  | short h => exact h.sound
  | bracketed h => exact h.sound

theorem Token.sound_of_phrases {ignoreSpace : Bool} {tokens : List Token} {phrases : List Phrase}
    (h : List.Forall₂ (Token.Means ignoreSpace) tokens phrases) : ∀ phrase ∈ phrases, phrase.Sound := by
  induction h with
  | nil => exact fun _ hphrase => nomatch hphrase
  | cons hmeans _ ih =>
    intro phrase hphrase
    rcases List.mem_cons.mp hphrase with rfl | hphrase
    · exact hmeans.sound
    · exact ih phrase hphrase

namespace Program

variable {p q : Program} {phrase : Phrase} {phrases : List Phrase} {i : Instruction}

def gotos (p : Program) : List Nat :=
  (p.instructions.toList.filter (·.opcode = .pointerGoto)).map (·.operand)

structure Sound (p : Program) : Prop where
  operands : ∀ i ∈ p.instructions.toList, i.Sound
  coordinates : ∀ place ∈ p.positions.toList, place.Within 65535
  gotos : p.gotos = List.range p.positions.size
  size_le : p.positions.size ≤ 8192

theorem sound_empty : empty.Sound where
  operands := fun _ hi => nomatch hi
  coordinates := fun _ hplace => nomatch hplace
  gotos := rfl
  size_le := Nat.zero_le _

theorem Sound.add (hp : p.Sound) (hphrase : phrase.Sound) (h : p.add phrase = .ok q) : q.Sound := by
  have hsize := size_le_of_add h hp.size_le
  cases phrase with
  | emit instructions =>
    cases h
    refine ⟨?_, hp.coordinates, ?_, hsize⟩
    · intro i hi
      rw [Array.appendList_eq_append, Array.toList_appendList] at hi
      rcases List.mem_append.mp hi with hi | hi
      · exact hp.operands i hi
      · exact (hphrase i hi).1
    · have hnone : instructions.filter (·.opcode = .pointerGoto) = [] := by
        rw [List.filter_eq_nil_iff]
        intro i hi
        simpa using (hphrase i hi).2
      have hgotos := hp.gotos
      simp only [Program.gotos] at hgotos ⊢
      simp [hnone, hgotos]
  | move place =>
    unfold Program.add at h
    split_ifs at h with hfull
    cases h
    refine ⟨?_, ?_, ?_, hsize⟩
    · intro i hi
      rw [Array.toList_push] at hi
      rcases List.mem_append.mp hi with hi | hi
      · exact hp.operands i hi
      · obtain rfl := List.mem_singleton.mp hi
        trivial
    · intro place' hplace
      rw [Array.toList_push] at hplace
      rcases List.mem_append.mp hplace with hplace | hplace
      · exact hp.coordinates place' hplace
      · obtain rfl := List.mem_singleton.mp hplace
        exact hphrase
    · have hgotos := hp.gotos
      simp only [Program.gotos] at hgotos ⊢
      simp [hgotos, List.range_succ]

theorem Sound.adds (hp : p.Sound) (hphrases : ∀ phrase ∈ phrases, phrase.Sound)
    (h : phrases.foldlM Program.add p = .ok q) : q.Sound := by
  induction phrases generalizing p with
  | nil =>
    cases h
    exact hp
  | cons phrase phrases ih =>
    obtain ⟨r, hr, hrest⟩ := bind_eq_ok.mp h
    exact ih (hp.add (hphrases phrase List.mem_cons_self) hr)
      (fun phrase hphrase => hphrases phrase (List.mem_cons_of_mem _ hphrase)) hrest

theorem Sound.compile {ignoreSpace : Bool} {source : String} (hp : p.Sound)
    (h : p.compile ignoreSpace source = .ok q) : q.Sound := by
  obtain ⟨tokens, phrases, -, hmeans, hadds⟩ := Reader.tokens_of_read h
  exact hp.adds (Token.sound_of_phrases hmeans) hadds

inductive Compiled : Program → Prop
  | empty : Compiled .empty
  | compile {p : Program} (h : Compiled p) (c : Compiler) (source : String) :
      (c.compile p source).outcome = .ok () → Compiled (c.compile p source).program

theorem Compiled.sound (h : p.Compiled) : p.Sound := by
  induction h with
  | empty => exact sound_empty
  | @compile p hp c source houtcome ih =>
    rcases c.compile_cases p source with ⟨q, hq, -, -, rfl⟩ | ⟨e, -, hfails, -⟩
    · exact ih.compile hq
    · cases houtcome.symm.trans hfails

theorem Sound.lt_size (hp : p.Sound) (hi : i ∈ p.instructions.toList) (hgoto : i.opcode = .pointerGoto) :
    i.operand < p.positions.size := by
  rw [← List.mem_range, ← hp.gotos]
  exact List.mem_map_of_mem (List.mem_filter.mpr ⟨hi, by simpa using hgoto⟩)

end Program

namespace Instruction

/-- What an instruction other than a sleep calls for before it settles, where it is not skipped. -/
inductive Acts (positions : Array Point) (i : Instruction) : List Call → Prop
  | key {stroke : Stroke} {k : Key} : i.opcode.keyStroke? = some stroke → k.code = i.operand →
      Acts positions i (stroke.calls (.key k))
  | button {stroke : Stroke} {b : Button} : i.opcode.buttonStroke? = some stroke → b.code = i.operand →
      Acts positions i (stroke.calls (.button b))
  | pointerGoto {place : Point} : i.opcode = .pointerGoto → positions[i.operand]? = some place →
      Acts positions i [.moveTo place]
  | pointerWhere : i.opcode = .pointerWhere → Acts positions i [.printPointer (i.operand % 2 = 1)]
  | loop : i.opcode = .loopBegin ∨ i.opcode = .loopEnd → Acts positions i []

variable {p : Program} {i : Instruction} {cs : List Call}

theorem Acts.calls_eq (h : i.Acts p.positions cs) : p.calls i = cs ++ settle := by
  cases h with
  | key hstroke hk => exact (Does.key hstroke hk).calls_eq
  | button hstroke hb => exact (Does.button hstroke hb).calls_eq
  | pointerGoto hi hplace => exact (Does.pointerGoto hi hplace).calls_eq
  | pointerWhere hi => exact (Does.pointerWhere hi).calls_eq
  | loop hi => exact calls_loop hi

theorem Acts.awake {positions : Array Point} (h : i.Acts positions cs) : ∀ c ∈ cs, c.isSleep = false := by
  cases h with
  | @key stroke | @button stroke => cases stroke <;> simp [Stroke.calls, Call.isSleep]
  | pointerGoto | pointerWhere | loop => simp [Call.isSleep]

end Instruction

namespace Program

variable {p : Program} {i : Instruction}

theorem Sound.exists_acts (hp : p.Sound) (hi : i ∈ p.instructions.toList) (hms : i.opcode ≠ .sleepMs)
    (hsec : i.opcode ≠ .sleepSec) : ∃ cs, i.Acts p.positions cs := by
  have hoperand : i.Sound := hp.operands i hi
  have hkey {stroke : Stroke} (hstroke : i.opcode.keyStroke? = some stroke) (h : ∃ k : Key, k.code = i.operand) :
      ∃ cs, i.Acts p.positions cs := by
    obtain ⟨k, hk⟩ := h
    exact ⟨_, .key hstroke hk⟩
  have hbutton {stroke : Stroke} (hstroke : i.opcode.buttonStroke? = some stroke)
      (h : ∃ b : Button, b.code = i.operand) : ∃ cs, i.Acts p.positions cs := by
    obtain ⟨b, hb⟩ := h
    exact ⟨_, .button hstroke hb⟩
  unfold Instruction.Sound at hoperand
  cases hopcode : i.opcode with
  | sleepMs => exact absurd hopcode hms
  | sleepSec => exact absurd hopcode hsec
  | keyUp | keyDown | keyClick =>
    rw [hopcode] at hoperand
    exact hkey (by rw [hopcode]; rfl) hoperand
  | buttonUp | buttonDown | buttonClick =>
    rw [hopcode] at hoperand
    exact hbutton (by rw [hopcode]; rfl) hoperand
  | pointerGoto => exact ⟨_, .pointerGoto hopcode (Array.getElem?_eq_getElem (hp.lt_size hi hopcode))⟩
  | pointerWhere => exact ⟨_, .pointerWhere hopcode⟩
  | loopBegin => exact ⟨_, .loop (.inl hopcode)⟩
  | loopEnd => exact ⟨_, .loop (.inr hopcode)⟩

end Program

def Player.Paces (q : Player) (lasting : Int) : Prop :=
  (q.randomSleep = false → lasting = 50) ∧
    (q.randomSleep = true → Random.jittered? 50 q.noise.draw.1 = some lasting)

theorem Player.paces_of_duration {q : Player} {lasting : Int} (h : (q.duration? 50).1 = some lasting) :
    q.Paces lasting := by
  unfold duration? at h
  constructor
  · intro hexact
    rw [hexact] at h
    exact (Option.some.inj h).symm
  · intro hsways
    rw [hsways] at h
    exact h

theorem Player.Paces.congr {q r : Player} {lasting : Int} (h : q.Paces lasting)
    (hrandom : q.randomSleep = r.randomSleep) (hnoise : q.noise = r.noise) : r.Paces lasting := by
  rwa [Paces, hrandom, hnoise] at h

theorem Act.settled_of_performAll {σ ε : Type} {d : Desktop σ ε} {cs : List Call} {s t : Stage σ ε}
    (hawake : ∀ c ∈ cs, c.isSleep = false) (h : performAll d (cs ++ settle) s = .ok () t) :
    ∃ es lasting, d.TakesAll s.desktop (cs ++ [.flush]) t.desktop es ∧
      t.events.toList = s.events.toList ++ es ++ [.sleep lasting] ∧ s.player.Paces lasting ∧
        t.sleeps = s.sleeps + 1 ∧ t.presses = s.presses + cs.countP Call.isPress := by
  have hsettle : cs ++ settle = cs ++ [.flush] ++ [.sleep 50] := by simp [settle]
  have hflushed : ∀ c ∈ cs ++ [.flush], c.isSleep = false := by
    intro c hc
    rcases List.mem_append.mp hc with hc | hc
    · exact hawake c hc
    · obtain rfl := List.mem_singleton.mp hc
      rfl
  rw [hsettle] at h
  obtain ⟨u, hcs, hslept⟩ := performAll_snoc_eq_ok.mp h
  obtain ⟨es, hrecords⟩ := records_of_performAll (fun c hc hsleep => by simp [hflushed c hc] at hsleep) hcs
  obtain ⟨lasting, hlasting, hdesktop, hevents, hsleeps, hpresses, -⟩ := slept_of_sleep hslept
  have hcalm : (cs ++ [Call.flush]).countP Call.isSleep = 0 := by
    rw [List.countP_eq_zero]
    intro c hc
    rw [hflushed c hc]
    exact Bool.false_ne_true
  refine ⟨es, lasting, ?_, ?_, ?_, ?_, ?_⟩
  · rw [hdesktop]
    exact hrecords.takes
  · rw [hevents, hrecords.events]
  · exact (Player.paces_of_duration hlasting).congr hrecords.randomSleep hrecords.noise
  · rw [hsleeps, hrecords.sleeps, hcalm]
  · rw [hpresses, hrecords.presses, List.countP_append]
    rfl

namespace Program

variable {p : Program} {i : Instruction}

theorem Sound.plays {σ ε : Type} {d : Desktop σ ε} {a : Nat} {s t : Stage σ ε} {progress : Progress}
    (hp : p.Sound) (hi : p.instructions[a]? = some i) (hms : i.opcode ≠ .sleepMs)
    (hsec : i.opcode ≠ .sleepSec) (h : Act.step d p a i s = .ok progress t) :
    ∃ cs es lasting, i.Acts p.positions cs ∧ d.TakesAll s.desktop (cs ++ [.flush]) t.desktop es ∧
      t.events.toList = (s.traced p a i).events.toList ++ es ++ [.sleep lasting] ∧ s.player.Paces lasting ∧
        t.sleeps = s.sleeps + 1 ∧ t.presses = s.presses + cs.countP Call.isPress := by
  have hmem : i ∈ p.instructions.toList := by
    rw [← Array.getElem?_toList] at hi
    exact List.mem_of_getElem? hi
  obtain ⟨cs, hacts⟩ := hp.exists_acts hmem hms hsec
  have hperformed := Act.performAll_of_step h
  rw [hacts.calls_eq] at hperformed
  obtain ⟨es, lasting, htakes, hevents, hpaces, hsleeps, hpresses⟩ := Act.settled_of_performAll hacts.awake hperformed
  obtain ⟨hdesktop, htraced, hslept, hpressed, hrandom, hnoise⟩ := s.enter_keeps p a i
  rw [hdesktop] at htakes
  rw [htraced] at hevents
  rw [hslept] at hsleeps
  rw [hpressed] at hpresses
  exact ⟨cs, es, lasting, hacts, htakes, hevents, hpaces.congr hrandom hnoise, hsleeps, hpresses⟩

/-- Compiling ends well or with a fault of the script. What it builds has sound operands only, so a player
acts for each instruction that is neither a sleep nor of a loop. After all but the sleeps it flushes and sleeps once. -/
theorem operands_of_compiled :
    (∀ (c : Compiler) (p : Program) (source : String),
      (c.compile p source).outcome = .ok () ∨ ∃ e, (c.compile p source).outcome = .error (.script e)) ∧
    ∀ p : Program, p.Compiled → p.Sound ∧
      ∀ (σ ε : Type) (d : Desktop σ ε) (a : Nat) (i : Instruction) (s t : Stage σ ε) (progress : Progress),
        p.instructions[a]? = some i → i.opcode ≠ .sleepMs → i.opcode ≠ .sleepSec →
        Act.step d p a i s = .ok progress t →
          ∃ cs es lasting, i.Acts p.positions cs ∧ d.TakesAll s.desktop (cs ++ [.flush]) t.desktop es ∧
            t.events.toList = (s.traced p a i).events.toList ++ es ++ [.sleep lasting] ∧ s.player.Paces lasting ∧
              t.sleeps = s.sleeps + 1 ∧ t.presses = s.presses + cs.countP Call.isPress := by
  constructor
  · intro c p source
    rcases c.compile_cases p source with ⟨q, -, -, hends, -⟩ | ⟨e, -, hfails, -⟩
    · exact .inl hends
    · exact .inr ⟨e, hfails⟩
  · intro p hp
    have hsound := hp.sound
    exact ⟨hsound, fun σ ε d a i s t progress hi hms hsec hstep => hsound.plays hi hms hsec hstep⟩

theorem operands_of_clamped_move :
    let p := ((Compiler.new false).compile .empty "\\[@3,70000]a").program
    let a : Key := .small 0
    let s : Stage Recording Recorded := .new (.idle false false (.ofList [])) ⟨⟨0, 0⟩, true, 0, none, "", none⟩
    p.gotos = [0] ∧ p.positions = #[⟨3, 65535⟩] ∧ ∃ progress t,
      Act.step Recording.desktop p 1 ⟨.keyClick, 36, by decide⟩ s = .ok progress t ∧
        t.events.toList =
          [.desktop (.press (.key a)), .desktop (.release (.key a)), .desktop .flush, .sleep 50] ∧
        t.sleeps = 1 ∧ t.presses = 1 := by
  intro p a s
  have hcompiled : p.Compiled := .compile .empty (.new false) _ (by decide +kernel)
  obtain ⟨hsound, hplays⟩ := operands_of_compiled.2 p hcompiled
  have hpositions : p.positions = #[⟨3, 65535⟩] := by decide +kernel
  have hi : p.instructions[1]? = some ⟨.keyClick, 36, by decide⟩ := by decide +kernel
  have hs : s.Calm fun r => r.failAt = none ∧ r.replayAt = none := Stage.calm_new ⟨rfl, rfl⟩ false (.ofList [])
  obtain ⟨t, hstep, -⟩ := Act.step_calm Recording.serves p 1 _ hs
  obtain ⟨cs, es, lasting, hacts, htakes, hevents, hpaces, hsleeps, hpresses⟩ :=
    hplays _ _ _ _ _ _ _ _ hi (by decide) (by decide) hstep
  obtain rfl := hpaces.1 rfl
  have hclick : p.calls ⟨.keyClick, 36, by decide⟩ = [.press (.key a), .release (.key a)] ++ settle :=
    (@Instruction.Does.key _ _ .click a rfl rfl).calls_eq
  obtain rfl := List.append_cancel_right (hacts.calls_eq.symm.trans hclick)
  have htyped : Recording.desktop.TakesAll s.desktop [.press (.key a), .release (.key a), .flush]
      { s.desktop with presses := 1 } [.desktop (.press (.key a)), .desktop (.release (.key a)), .desktop .flush] :=
    .cons (.press (.key a) rfl) (.cons (.release (.key a) rfl) (.cons (.flush rfl) (.nil _)))
  obtain ⟨-, rfl⟩ := htakes.unique htyped
  refine ⟨?_, hpositions, _, t, hstep, hevents, hsleeps, hpresses⟩
  rw [hsound.gotos, hpositions]
  rfl

end Program

end InputScript
