import InputScript.Proofs.Chunks

namespace InputScript.Compiler

open Token

variable {tokens : List Token} {phrases : List Phrase} {source : String}

theorem compile_of_spell (c : Compiler) (hspell : Spell tokens source) (hmoves : tokens.countP isMove ≤ 8192)
    (hmeans : List.Forall₂ (Means c.ignoreSpace) tokens phrases) :
    (c.compile .empty source).outcome = .ok () ∧
      (c.compile .empty source).program.pairs = Phrase.numbered 0 phrases ∧
      (c.compile .empty source).program.positions.toList = Phrase.places phrases := by
  have hroom : Program.empty.positions.size + (Phrase.places phrases).length ≤ 8192 := by
    rwa [length_places hmeans, show Program.empty.positions.size = 0 from rfl, Nat.zero_add]
  obtain ⟨p, hadds⟩ := Program.exists_adds hroom
  have hp : Program.empty.compile c.ignoreSpace source = .ok p := by
    rw [Program.compile, ← hspell.2]
    exact Reader.read_of_tokens hmeans hadds
  obtain ⟨houtcome, rfl⟩ := compile_eq_ok hp
  obtain ⟨hpairs, hpositions⟩ := Program.extends_of_adds hadds
  exact ⟨houtcome, hpairs, hpositions⟩

theorem spell_of_compile (c : Compiler) (h : (c.compile .empty source).outcome = .ok ()) :
    ∃ tokens, Spell tokens source ∧ tokens.countP isMove ≤ 8192 := by
  obtain ⟨p, hp⟩ := outcome_eq_ok.mp h
  obtain ⟨tokens, phrases, htext, hmeans, hadds⟩ := Reader.tokens_of_read hp
  refine ⟨tokens, ⟨valid_of_phrases hmeans, htext⟩, ?_⟩
  have hsize := Program.size_le_of_adds hadds (Nat.zero_le 8192)
  rw [(Program.extends_of_adds hadds).size_eq, length_places hmeans] at hsize
  exact Nat.le_trans (Nat.le_add_left _ _) hsize

/-- A script compiles if and only if it is spelled by valid tokens with moves that operands can tell apart. It is
spelled by no others, each of them means one thing only, and the program holds what they mean, in their order. -/
theorem compile_iff_spell (c : Compiler) (source : String) :
    ((c.compile .empty source).outcome = .ok () ↔ ∃ tokens, Spell tokens source ∧ tokens.countP isMove ≤ 8192) ∧
      (∀ tokens others, Spell tokens source → Spell others source → tokens = others) ∧
      ∀ tokens, Spell tokens source → tokens.countP isMove ≤ 8192 →
        ∃ phrases, (∀ others, List.Forall₂ (Means c.ignoreSpace) tokens others ↔ others = phrases) ∧
          (c.compile .empty source).program.pairs = Phrase.numbered 0 phrases ∧
          (c.compile .empty source).program.positions.toList = Phrase.places phrases := by
  refine ⟨⟨c.spell_of_compile, ?_⟩, fun _ _ h h' => h.unique h', ?_⟩
  · rintro ⟨tokens, hspell, hmoves⟩
    obtain ⟨phrases, hmeans⟩ := exists_phrases c.ignoreSpace hspell.1
    exact (c.compile_of_spell hspell hmoves hmeans).1
  · intro tokens hspell hmoves
    obtain ⟨phrases, hmeans⟩ := exists_phrases c.ignoreSpace hspell.1
    obtain ⟨-, hpairs, hpositions⟩ := c.compile_of_spell hspell hmoves hmeans
    refine ⟨phrases, fun others => ⟨fun h => phrases_unique h hmeans, ?_⟩, hpairs, hpositions⟩
    rintro rfl
    exact hmeans

theorem compile_of_sleeping_loop :
    let after := (Compiler.new false).compile .empty "a\\<\\[#1.5]\\[\x7b2]\\[@3,\\4]\\\x7d"
    after.outcome = .ok () ∧
      after.program.pairs = [(.keyClick, 36), (.buttonClick, 0), (.sleepSec, 1), (.sleepMs, 500), (.loopBegin, 2),
        (.pointerGoto, 0), (.loopEnd, 0)] ∧
      after.program.positions.toList = [⟨3, 4⟩] := by
  intro after
  subst after
  let tokens : List Token := [.char 'a', .short '<',
    .bracketed '#' [.plain '1' (by decide) (by decide), .plain '.' (by decide) (by decide),
      .plain '5' (by decide) (by decide)],
    .bracketed '{' [.plain '2' (by decide) (by decide)],
    .bracketed '@' [.plain '3' (by decide) (by decide), .plain ',' (by decide) (by decide), .escaped '4'],
    .short '}']
  let meant : List Phrase := [.emit [⟨.keyClick, 36, by decide⟩], .emit [⟨.buttonClick, 0, by decide⟩],
    .emit [⟨.sleepSec, 1, by decide⟩, ⟨.sleepMs, 500, by decide⟩], .emit [⟨.loopBegin, 2, by decide⟩], .move ⟨3, 4⟩,
    .emit [⟨.loopEnd, 0, by decide⟩]]
  obtain ⟨hread, hlong, hround⟩ : Number.readBinary64? "1.5" = some (3 / 2) ∧
      Number.Binary64.nearest (1 / 1000) ≤ 3 / 2 ∧
      ((500 : Nat) : Int) = Number.roundHalfEven (Number.Binary64.nearest ((3 / 2 - (1 : Nat)) * 1000)) := by
    decide +kernel
  have hsleeps : Instruction.Sleeps (3 / 2) [⟨.sleepSec, 1, by decide⟩, ⟨.sleepMs, 500, by decide⟩] :=
    @Instruction.Sleeps.parted _ 1 500 [⟨.sleepSec, 1, by decide⟩] (by decide) hlong (by norm_num) (by norm_num)
      (.last _ (by decide) (by decide)) hround
  have hmeans : List.Forall₂ (Means false) tokens meant := by
    refine .cons (.typed (k := .small 0) nofun (.own (by decide) (by decide) (by decide))) ?_
    refine .cons (.short .leftClick) (.cons (.bracketed (.sleep hread hsleeps)) ?_)
    refine .cons (.bracketed (.beginLoop (n := 2) (by decide) (by decide))) ?_
    exact .cons (.bracketed (.movePointer (x := 3) (y := 4) (by decide) (by decide))) (.cons (.short .endLoop) .nil)
  have hspell : Spell tokens "a\\<\\[#1.5]\\[\x7b2]\\[@3,\\4]\\\x7d" := ⟨valid_of_phrases hmeans, rfl⟩
  obtain ⟨haccepts, -, hmeaning⟩ := compile_iff_spell (.new false) "a\\<\\[#1.5]\\[\x7b2]\\[@3,\\4]\\\x7d"
  obtain ⟨phrases, honly, hpairs, hpositions⟩ := hmeaning tokens hspell (by decide)
  obtain rfl := (honly meant).mp hmeans
  exact ⟨haccepts.mpr ⟨tokens, hspell, by decide⟩, hpairs, hpositions⟩

end InputScript.Compiler
