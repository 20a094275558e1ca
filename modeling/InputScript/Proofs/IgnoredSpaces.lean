import InputScript.Proofs.Chunks
import InputScript.Proofs.Language

namespace InputScript

inductive Agree {ε α : Type} (R : α → α → Prop) : Except ε α → Except ε α → Prop
  | goes {a b : α} : R a b → Agree R (.ok a) (.ok b)
  | fails (e : ε) : Agree R (.error e) (.error e)

theorem Phrase.ofChar_agree (c : Char) : Agree (·.place? = ·.place?) (ofChar true c) (ofChar false c) := by
  unfold ofChar
  cases whitespaceKey? c with
  | some k => exact .goes rfl
  | none =>
    cases typedKey? c with
    | some k => exact .goes rfl
    | none => exact .fails _

theorem Program.add_agree {p q : Program} {phrase phrase' : Phrase} (hpq : p.positions = q.positions)
    (hphrase : phrase.place? = phrase'.place?) :
    Agree (·.positions = ·.positions) (p.add phrase) (q.add phrase') := by
  cases phrase with
  | emit instructions =>
    cases phrase' with
    | emit instructions' => exact .goes hpq
    | move place => cases hphrase
  | move place =>
    cases phrase' with
    | emit instructions => cases hphrase
    | move place' =>
      cases hphrase
      simp only [add, hpq]
      split_ifs
      · exact .goes rfl
      · exact .fails _

namespace Reader

variable {p q : Program} {r s : Reader} {x y : Except Fault Phrase}

structure Beside (r s : Reader) : Prop where
  mode : r.mode = s.mode
  here : r.here = s.here
  positions : r.program.positions = s.program.positions

theorem take_agree (start here : Location) (hpq : p.positions = q.positions)
    (h : Agree (·.place? = ·.place?) x y) : Agree Beside (take p start here x) (take q start here y) := by
  cases h with
  | fails f => exact .fails _
  | goes hplace =>
    have hadd := Program.add_agree hpq hplace
    simp only [take, Fault.locate, bind, Except.bind]
    generalize p.add _ = a, q.add _ = b at hadd
    cases hadd with
    | goes hpositions => exact .goes ⟨rfl, rfl, hpositions⟩
    | fails f => exact .fails _

theorem step_agree (h : r.Beside s) (c : Char) : Agree Beside (r.step true c) (s.step false c) := by
  obtain ⟨mode, here, p⟩ := r
  obtain ⟨mode', here', q⟩ := s
  obtain ⟨rfl, rfl, hpq⟩ := h
  have hcommand (start here : Location) (command : Command) (args : List String) :
      Agree Beside (complete p start here command args) (complete q start here command args) := by
    apply take_agree start here hpq
    cases Phrase.ofCommand command args with
    | ok phrase => exact .goes rfl
    | error f => exact .fails f
  cases mode with
  | between =>
    simp only [step]
    split_ifs
    · exact .goes ⟨rfl, rfl, hpq⟩
    · exact take_agree here (here.next c) hpq (Phrase.ofChar_agree c)
  | escaped start =>
    simp only [step]
    split_ifs
    · exact .goes ⟨rfl, rfl, hpq⟩
    · cases Command.ofChar? c with
      | some command => exact hcommand _ _ _ _
      | none => exact .fails _
  | bracketed start =>
    simp only [step]
    cases Command.ofChar? c with
    | some command => exact .goes ⟨rfl, rfl, hpq⟩
    | none => exact .fails _
  | arguments start command body =>
    simp only [step]
    cases body.step c with
    | more body => exact .goes ⟨rfl, rfl, hpq⟩
    | closed args => exact hcommand _ _ _ _

theorem finish_agree (h : r.Beside s) : Agree (·.positions = ·.positions) r.finish s.finish := by
  obtain ⟨mode, here, p⟩ := r
  obtain ⟨mode', here', q⟩ := s
  obtain ⟨rfl, rfl, hpq⟩ := h
  cases mode with
  | between => exact .goes hpq
  | escaped | bracketed | arguments => exact .fails _

theorem read_agree (h : r.Beside s) (cs : List Char) :
    Agree (·.positions = ·.positions) (r.read true cs) (s.read false cs) := by
  induction cs generalizing r s with
  | nil => exact finish_agree h
  | cons c cs ih =>
    have hstep := step_agree h c
    rw [read_cons, read_cons]
    generalize r.step true c = a, s.step false c = b at hstep
    cases hstep with
    | goes h => exact ih h
    | fails e => exact .fails e

end Reader

namespace Token

variable {t : Token} {phrase : Phrase}

def isSpace : Token → Bool
  | char c => c ∈ spaces
  | _ => false

theorem Means.of_space (h : t.Means false phrase) (ht : t.isSpace = true) :
    (∃ c k, t = .char c ∧ k.TypedBy c ∧ phrase = .emit [.key .click k]) ∧ t.Means true (.emit []) := by
  cases h with
  | ignored hon _ => cases hon
  | typed _ hk => exact ⟨⟨_, _, rfl, hk, rfl⟩, .ignored rfl (of_decide_eq_true ht)⟩
  | short _ => cases ht
  | bracketed _ => cases ht

theorem Means.of_not_space (h : t.Means false phrase) (ht : t.isSpace = false) : t.Means true phrase := by
  cases h with
  | ignored hon _ => cases hon
  | typed _ hk => exact .typed (fun _ => of_decide_eq_false ht) hk
  | short hsays => exact .short hsays
  | bracketed hsays => exact .bracketed hsays

end Token

namespace Program

variable {p p' q : Program} {ignoreSpace : Bool} {t : Token} {tokens : List Token} {phrase : Phrase}
  {phrases : List Phrase}

inductive Written : Program → List (Token × List Instruction) → Program → Prop
  | nil (p : Program) : Written p [] p
  | cons {p q r : Program} {t : Token} {piece : List Instruction} {parts : List (Token × List Instruction)} :
      p.compile false (String.ofList t.text) = .ok q →
      q.instructions.toList = p.instructions.toList ++ piece → Written q parts r →
      Written p ((t, piece) :: parts) r

theorem exists_piece (h : p.add phrase = .ok q) (hp : p'.positions = p.positions) :
    ∃ piece q', q.instructions.toList = p.instructions.toList ++ piece ∧ p'.add phrase = .ok q' ∧
      q'.instructions.toList = p'.instructions.toList ++ piece ∧ q'.positions = q.positions := by
  cases phrase with
  | emit instructions =>
    cases h
    exact ⟨instructions, _, by simp, rfl, by simp, hp⟩
  | move place =>
    unfold add at h
    split_ifs at h with hsize
    cases h
    refine ⟨[⟨.pointerGoto, p.positions.size, hsize⟩],
      ⟨p'.instructions.push ⟨.pointerGoto, p.positions.size, hsize⟩, p.positions.push place⟩, by simp, ?_, by simp, rfl⟩
    simp only [add, hp, dif_pos hsize]

theorem compile_of_means (ht : t.Means ignoreSpace phrase) (h : p.add phrase = .ok q) :
    p.compile ignoreSpace (String.ofList t.text) = .ok q := by
  have hread : (Reader.begin p).read ignoreSpace ([t].flatMap Token.text) = .ok q :=
    Reader.read_of_tokens (.cons ht .nil) (bind_eq_ok.mpr ⟨q, h, rfl⟩)
  rw [List.flatMap_singleton] at hread
  rw [compile, String.toList_ofList]
  exact hread

structure Parted (p p' : Program) (parts : List (Token × List Instruction)) (q q' : Program) : Prop where
  written : p.Written parts q
  typed : ∀ part ∈ parts, part.1.isSpace = true →
    ∃ c k, part.1 = .char c ∧ k.TypedBy c ∧ part.2 = [.key .click k]
  whole : q.instructions.toList = p.instructions.toList ++ parts.flatMap Prod.snd
  kept : q'.instructions.toList = p'.instructions.toList ++ (parts.filter (!·.1.isSpace)).flatMap Prod.snd
  positions : q'.positions = q.positions

theorem parted_nil (hp : p'.positions = p.positions) : Parted p p' [] p p' where
  written := .nil p
  typed := fun _ hpart => nomatch hpart
  whole := (List.append_nil _).symm
  kept := (List.append_nil _).symm
  positions := hp

theorem Parted.cons_space {r r' : Program} {parts : List (Token × List Instruction)} {c : Char} {k : Key}
    (h : Parted q p' parts r r') (hspace : (Token.char c).isSpace = true) (hk : k.TypedBy c)
    (hcompile : p.compile false (String.ofList (Token.char c).text) = .ok q)
    (hq : q.instructions.toList = p.instructions.toList ++ [.key .click k]) :
    Parted p p' ((.char c, [.key .click k]) :: parts) r r' where
  written := .cons hcompile hq h.written
  typed := by
    intro part hpart hpartspace
    rcases List.mem_cons.mp hpart with rfl | hpart
    · exact ⟨c, k, rfl, hk, rfl⟩
    · exact h.typed part hpart hpartspace
  whole := by rw [h.whole, hq, List.flatMap_cons, List.append_assoc]
  kept := by
    rw [List.filter_cons_of_neg (by simp [hspace])]
    exact h.kept
  positions := h.positions

theorem Parted.cons {q' r r' : Program} {parts : List (Token × List Instruction)} {piece : List Instruction}
    (h : Parted q q' parts r r') (hspace : t.isSpace = false)
    (hcompile : p.compile false (String.ofList t.text) = .ok q)
    (hq : q.instructions.toList = p.instructions.toList ++ piece)
    (hq' : q'.instructions.toList = p'.instructions.toList ++ piece) : Parted p p' ((t, piece) :: parts) r r' where
  written := .cons hcompile hq h.written
  typed := by
    intro part hpart hpartspace
    rcases List.mem_cons.mp hpart with rfl | hpart
    · cases hspace.symm.trans hpartspace
    · exact h.typed part hpart hpartspace
  whole := by rw [h.whole, hq, List.flatMap_cons, List.append_assoc]
  kept := by rw [List.filter_cons_of_pos (by simp [hspace]), h.kept, hq', List.flatMap_cons, List.append_assoc]
  positions := h.positions

theorem exists_parted (hmeans : List.Forall₂ (Token.Means false) tokens phrases)
    (h : phrases.foldlM add p = .ok q) (hp : p'.positions = p.positions) :
    ∃ parts q', parts.map Prod.fst = tokens ∧ Parted p p' parts q q' ∧
      (∃ ignored, List.Forall₂ (Token.Means true) tokens ignored ∧ ignored.foldlM add p' = .ok q') ∧
      ∃ kept, List.Forall₂ (Token.Means false) (tokens.filter (!·.isSpace)) kept ∧ kept.foldlM add p' = .ok q' := by
  induction hmeans generalizing p p' with
  | nil =>
    cases h
    exact ⟨[], p', rfl, parted_nil hp, ⟨[], .nil, rfl⟩, [], .nil, rfl⟩
  | @cons t phrase tokens phrases ht _ ih =>
    obtain ⟨r, hr, hrest⟩ := bind_eq_ok.mp h
    have hcompile := compile_of_means ht hr
    cases hspace : t.isSpace with
    | true =>
      -- the key of a space is added on one side only
      obtain ⟨⟨c, k, rfl, hk, rfl⟩, hignored⟩ := ht.of_space hspace
      cases hr
      obtain ⟨parts, q', rfl, hparts, ⟨ignored, hignores, hadds⟩, hkept⟩ := ih hrest hp
      refine ⟨_, q', rfl, hparts.cons_space hspace hk hcompile (by simp),
        ⟨.emit [] :: ignored, .cons hignored hignores, bind_eq_ok.mpr ⟨p', by simp [add], hadds⟩⟩, ?_⟩
      rwa [List.filter_cons_of_neg (by simp [hspace])]
    | false =>
      obtain ⟨piece, r', hpiece, hr', hpiece', hpositions⟩ := exists_piece hr hp
      obtain ⟨parts, q', rfl, hparts, ⟨ignored, hignores, hadds⟩, kept, hkept, hadds'⟩ := ih hrest hpositions
      refine ⟨_, q', rfl, hparts.cons hspace hcompile hpiece hpiece',
        ⟨phrase :: ignored, .cons (ht.of_not_space hspace) hignores, bind_eq_ok.mpr ⟨r', hr', hadds⟩⟩,
        phrase :: kept, ?_, bind_eq_ok.mpr ⟨r', hr', hadds'⟩⟩
      rw [List.filter_cons_of_pos (by simp [hspace])]
      exact .cons ht hkept

end Program

namespace Compiler

/-- A script compiles or is at fault alike whether its typed spaces are ignored or not. If it compiles, ignoring them
makes what the script makes from which they are deleted, and that is what typing them makes without their keys. -/
theorem compile_ignoring_spaces (x y z : Scratch) (p : Program) (source : String) :
    let typing := (Compiler.mk false x).compile p source
    let ignoring := (Compiler.mk true y).compile p source
    ignoring.outcome = typing.outcome ∧
      (typing.outcome = .ok () → ∃ parts : List (Token × List Instruction),
        let kept := parts.filter (!·.1.isSpace)
        let shorter := (Compiler.mk false z).compile p (String.ofList (kept.flatMap (·.1.text)))
        Token.Spell (parts.map Prod.fst) source ∧ p.Written parts typing.program ∧
          (∀ part ∈ parts, part.1.isSpace = true →
            ∃ c k, part.1 = .char c ∧ k.TypedBy c ∧ part.2 = [.key .click k]) ∧
          shorter.outcome = .ok () ∧ shorter.program = ignoring.program ∧
          typing.program.instructions.toList = p.instructions.toList ++ parts.flatMap Prod.snd ∧
          ignoring.program.instructions.toList = p.instructions.toList ++ kept.flatMap Prod.snd ∧
          ignoring.program.positions = typing.program.positions) := by
  intro typing ignoring
  have hagree : Agree (·.positions = ·.positions) (p.compile true source) (p.compile false source) :=
    Reader.read_agree ⟨rfl, rfl, rfl⟩ source.toList
  constructor
  · cases hignoring : p.compile true source with
    | ok q' =>
      rw [hignoring] at hagree
      generalize htyping : p.compile false source = a at hagree
      cases hagree with
      | goes _ =>
        have hignored := compile_eq_ok (c := ⟨true, y⟩) hignoring
        exact hignored.1.trans (compile_eq_ok (c := ⟨false, x⟩) htyping).1.symm
    | error e =>
      rw [hignoring] at hagree
      generalize htyping : p.compile false source = a at hagree
      cases hagree with
      | fails _ =>
        have hignored := compile_eq_error (c := ⟨true, y⟩) hignoring
        exact hignored.1.trans (compile_eq_error (c := ⟨false, x⟩) htyping).1.symm
  · intro htyping
    obtain ⟨tokens, phrases, htext, hmeans, hadds⟩ := Reader.tokens_of_read (compile_of_outcome htyping)
    obtain ⟨parts, q', rfl, hparts, ⟨ignored, hignores, hignoring⟩, kept, hkept, hshorter⟩ :=
      Program.exists_parted hmeans hadds (Eq.refl p.positions)
    have hread : p.compile true source = .ok q' := by
      rw [Program.compile, ← htext]
      exact Reader.read_of_tokens hignores hignoring
    have hread' : p.compile false (String.ofList ((parts.filter (!·.1.isSpace)).flatMap (·.1.text))) = .ok q' := by
      rw [Program.compile, String.toList_ofList, ← List.flatMap_map]
      apply Reader.read_of_tokens _ hshorter
      rwa [List.filter_map] at hkept
    have hprogram := (compile_eq_ok (c := ⟨true, y⟩) hread).2
    obtain ⟨houtcome, hprogram'⟩ := compile_eq_ok (c := ⟨false, z⟩) hread'
    refine ⟨parts, ⟨Token.valid_of_phrases hmeans, htext⟩, hparts.written, hparts.typed, houtcome,
      hprogram'.trans hprogram.symm, hparts.whole, ?_, ?_⟩
    · rw [hprogram]
      exact hparts.kept
    · rw [hprogram]
      exact hparts.positions

theorem compile_ignoring_spaces_of_spaced_move :
    let source := " a\\s\n\\[@ 1,2]"
    let ignoring := (Compiler.new true).compile .empty source
    ignoring.outcome = .ok () ∧ ∃ kept : List (Token × List Instruction),
      (∀ part ∈ kept, part.1.isSpace = false) ∧
        ((Compiler.new false).compile .empty (String.ofList (kept.flatMap (·.1.text)))).program = ignoring.program ∧
        ignoring.program.instructions.toList = kept.flatMap Prod.snd := by
  intro source ignoring
  have htyping : ((Compiler.mk false .blank).compile .empty source).outcome = .ok () := by decide +kernel
  obtain ⟨houtcome, hparts⟩ := compile_ignoring_spaces .blank .blank .blank .empty source
  obtain ⟨parts, -, -, -, -, hshorter, -, hkept, -⟩ := hparts htyping
  refine ⟨houtcome.trans htyping, _, fun part hpart => ?_, hshorter, hkept⟩
  simpa using List.of_mem_filter hpart

end Compiler

end InputScript
