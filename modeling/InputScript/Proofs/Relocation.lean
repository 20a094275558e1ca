import InputScript.Proofs.FaultLocation
import InputScript.Proofs.Joining

namespace InputScript

namespace Reader

variable {ignoreSpace : Bool} {p q : Program} {start here : Location} {tokens : List Token} {phrase : Phrase}
  {phrases : List Phrase}

theorem take_of_add (h : p.add phrase = .ok q) : take p start here (.ok phrase) = .ok ⟨.between, here, q⟩ :=
  take_eq_ok_iff.mpr ⟨phrase, q, rfl, h, rfl⟩

theorem take_of_add_error {f : Fault} (h : p.add phrase = .error f) :
    take p start here (.ok phrase) = .error ⟨f, start⟩ := by
  simp only [take, Fault.locate, h, bind, Except.bind]

theorem read_of_overflow (here : Location) (hmeans : List.Forall₂ (Token.Means ignoreSpace) tokens phrases)
    (hmoves : Phrase.places phrases ≠ [])
    (hover : 8192 < p.positions.size + (Phrase.places phrases).length) :
    ∃ before t after, tokens = before ++ t :: after ∧ t.isMove = true ∧
      before.countP Token.isMove = 8192 - p.positions.size ∧
      (⟨.between, here, p⟩ : Reader).read ignoreSpace (tokens.flatMap Token.text) =
        .error ⟨.tooManyPositions, here.after (before.flatMap Token.text)⟩ := by
  induction hmeans generalizing here p with
  | nil => exact absurd rfl hmoves
  | @cons t phrase tokens phrases ht _ ih =>
    have hformed : t.Formed := ((Token.valid_iff ignoreSpace).mpr ⟨phrase, ht⟩).formed
    rw [List.flatMap_cons, read_token hformed, Token.phrase_eq_ok.mpr ht]
    cases hadd : p.add phrase with
    | ok q =>
      have hsize := (Program.extends_of_add hadd).size_eq
      have hplaces := Phrase.length_places_cons phrase phrases
      have hthis : (Phrase.places [phrase]).length = [t].countP Token.isMove := Token.length_places (.cons ht .nil)
      have hone : [t].countP Token.isMove ≤ 1 := List.countP_le_length
      have hroom : 0 < (Phrase.places [phrase]).length → p.positions.size < 8192 := by
        cases phrase with
        | emit instructions => exact fun h => (nomatch h)
        | move place => exact fun _ => Program.lt_of_add_move hadd
      have hlater : 0 < (Phrase.places phrases).length := by
        have hsome := List.length_pos_iff.mpr hmoves
        omega
      obtain ⟨before, t', after, rfl, ht', hcount, hread⟩ :=
        ih (here.after t.text) (List.length_pos_iff.mp hlater) (p := q) (by omega)
      refine ⟨t :: before, t', after, rfl, ht', ?_, ?_⟩
      · rw [← List.singleton_append, List.countP_append, ← hthis, hcount, hsize]
        omega
      · rw [take_of_add hadd, List.flatMap_cons, Location.after_append, ← hread]
        rfl
    | error f =>
      obtain ⟨⟨place, rfl⟩, hfull, rfl⟩ := Program.add_eq_error hadd
      refine ⟨[], t, tokens, rfl, ht.isSome_place?.symm, ?_, ?_⟩
      · rw [List.countP_nil]
        omega
      · rw [take_of_add_error hadd]
        rfl

end Reader

theorem Token.text_of_isMove {t : Token} (h : t.isMove = true) : ∃ rest, t.text = '\\' :: rest := by
  cases t with
  | char c => cases h
  | short c => cases h
  | bracketed c body => exact ⟨_, rfl⟩

namespace Program

variable {p : Program} {ignoreSpace : Bool} {source : String} {tokens : List Token} {phrases : List Phrase}

theorem exists_adds_of_room (h : Phrase.places phrases = [] ∨ p.positions.size + (Phrase.places phrases).length ≤ 8192) :
    ∃ q, phrases.foldlM add p = .ok q := by
  rcases h with hnone | hroom
  · induction phrases generalizing p with
    | nil => exact ⟨p, rfl⟩
    | cons phrase phrases ih =>
      cases phrase with
      | emit instructions =>
        obtain ⟨q, hq⟩ := ih (p := ⟨p.instructions.appendList instructions, p.positions⟩) hnone
        exact ⟨q, hq⟩
      | move place => cases hnone
  · exact exists_adds hroom

theorem compile_of_room (htext : tokens.flatMap Token.text = source.toList)
    (hmeans : List.Forall₂ (Token.Means ignoreSpace) tokens phrases)
    (hroom : Phrase.places phrases = [] ∨ p.positions.size + (Phrase.places phrases).length ≤ 8192) :
    ∃ q, p.compile ignoreSpace source = .ok q ∧ q.Extends p phrases := by
  obtain ⟨q, hq⟩ := exists_adds_of_room hroom
  refine ⟨q, ?_, extends_of_adds hq⟩
  rw [compile, ← htext]
  exact Reader.read_of_tokens hmeans hq

theorem compile_of_overflow (htext : tokens.flatMap Token.text = source.toList)
    (hmeans : List.Forall₂ (Token.Means ignoreSpace) tokens phrases) (hmoves : Phrase.places phrases ≠ [])
    (hover : 8192 < p.positions.size + (Phrase.places phrases).length) :
    ∃ before t after e, tokens = before ++ t :: after ∧ t.isMove = true ∧
      before.countP Token.isMove = 8192 - p.positions.size ∧ p.compile ignoreSpace source = .error e ∧
      e.fault = .tooManyPositions ∧ e.PointsAt source.toList (before.flatMap Token.text).length ∧
      source.toList[(before.flatMap Token.text).length]? = some '\\' := by
  obtain ⟨before, t, after, rfl, hmove, hcount, hread⟩ := Reader.read_of_overflow (p := p) .start hmeans hmoves hover
  obtain ⟨rest, hrest⟩ := Token.text_of_isMove hmove
  have hsource : source.toList = before.flatMap Token.text ++ '\\' :: (rest ++ after.flatMap Token.text) := by
    rw [← htext, List.flatMap_append, List.flatMap_cons, hrest, List.cons_append]
  refine ⟨before, t, after, ⟨.tooManyPositions, Location.start.after (before.flatMap Token.text)⟩, rfl, hmove, hcount,
    ?_, rfl, ScriptError.pointsAt_iff.mpr ⟨?_, ?_⟩, ?_⟩
  · rw [compile, ← htext]
    exact hread
  · rw [hsource, List.length_append, List.length_cons]
    omega
  · rw [hsource, List.take_left]
  · rw [hsource, List.getElem?_append_right (Nat.le_refl _), Nat.sub_self, List.getElem?_cons_zero]

end Program

namespace Compiler

/-- What compiles alone compiles behind any program that leaves enough of the table, to the same instructions with
their moves numbered on. Where the table is too full, the fault is at the first move that it has no place for. -/
theorem compile_relocated (ignoreSpace : Bool) (x y : Scratch) (p : Program) (source : String) :
    let alone := (Compiler.mk ignoreSpace x).compile .empty source
    let placed := (Compiler.mk ignoreSpace y).compile p source
    let k := p.positions.size
    let n := alone.program.positions.size
    alone.outcome = .ok () →
      (n = 0 ∨ k + n ≤ 8192 →
        placed.outcome = .ok () ∧
          placed.program.pairs = p.pairs ++ alone.program.pairs.map (Phrase.renumber k) ∧
          placed.program.positions = p.positions ++ alone.program.positions) ∧
      (¬ (n = 0 ∨ k + n ≤ 8192) → ∃ before t after e,
        Token.Spell (before ++ t :: after) source ∧ t.isMove = true ∧ before.countP Token.isMove = 8192 - k ∧
          placed.outcome = .error (.script e) ∧ e.fault.kind = .illegalArgument ∧
          e.message = "Too many pointer positions (maximum 8192)" ∧
          e.PointsAt source.toList (before.flatMap Token.text).length ∧
          source.toList[(before.flatMap Token.text).length]? = some '\\' ∧ placed.program = p) := by
  intro alone placed k n halone
  obtain ⟨tokens, phrases, htext, hmeans, hadds⟩ := Reader.tokens_of_read (compile_of_outcome halone)
  have hextends := Program.extends_of_adds hadds
  have hpositions : alone.program.positions.toList = Phrase.places phrases := hextends.positions
  have hn : n = (Phrase.places phrases).length := by
    rw [← hpositions, Array.length_toList]
  constructor
  · intro hroom
    rw [hn, List.length_eq_zero_iff] at hroom
    obtain ⟨q, hcompile, hq⟩ := Program.compile_of_room htext hmeans hroom
    obtain ⟨houtcome, hprogram⟩ := compile_eq_ok (c := ⟨ignoreSpace, y⟩) hcompile
    refine ⟨houtcome, ?_, ?_⟩
    · have hnumbered := Phrase.numbered_add (Token.sound_of_phrases hmeans) k 0
      have hpairs : alone.program.pairs = Phrase.numbered 0 phrases := hextends.pairs
      rw [hpairs, ← hnumbered, Nat.add_zero, hprogram, hq.pairs]
    · rw [hprogram, ← Array.toList_inj, Array.toList_append, hq.positions, hpositions]
  · intro hfull
    rw [not_or, hn, List.length_eq_zero_iff] at hfull
    obtain ⟨before, t, after, e, rfl, hmove, hcount, hcompile, hfault, hpoints, hbackslash⟩ :=
      Program.compile_of_overflow htext hmeans hfull.1 (Nat.not_le.mp hfull.2)
    obtain ⟨houtcome, hprogram⟩ := compile_eq_error (c := ⟨ignoreSpace, y⟩) hcompile
    refine ⟨before, t, after, e, ⟨Token.valid_of_phrases hmeans, htext⟩, hmove, hcount, houtcome, ?_, ?_, hpoints,
      hbackslash, hprogram⟩
    · rw [hfault]
      rfl
    · obtain ⟨fault, location⟩ := e
      cases hfault
      rfl

theorem compile_relocated_of_full_table :
    let source := "\\[@1,2]a\\[@3,4]"
    let p : Program := ⟨#[.loopEnd], #[⟨5, 6⟩]⟩
    let full : Program := ⟨#[], Array.replicate 8191 ⟨0, 0⟩⟩
    ((Compiler.mk false .blank).compile p source).program.pairs =
        [(.loopEnd, 0), (.pointerGoto, 1), (.keyClick, 36), (.pointerGoto, 2)] ∧
      ∃ e, ((Compiler.mk false .blank).compile full source).outcome = .error (.script e) ∧
        e.fault.kind = .illegalArgument ∧ ((Compiler.mk false .blank).compile full source).program = full := by
  intro source p full
  have hrelocated := compile_relocated false .blank .blank
  have hcompile : Program.empty.compile false source = .ok ⟨#[⟨.pointerGoto, 0, by decide⟩, .key .click (.small 0),
      ⟨.pointerGoto, 1, by decide⟩], #[⟨1, 2⟩, ⟨3, 4⟩]⟩ := by
    decide +kernel
  obtain ⟨halone, hprogram⟩ := compile_eq_ok (c := ⟨false, .blank⟩) hcompile
  constructor
  · have hplaced := ((hrelocated p source halone).1 (.inr (by rw [hprogram]; decide))).2.1
    rw [hprogram] at hplaced
    exact hplaced
  · have hsize : full.positions.size = 8191 := Array.size_replicate
    obtain ⟨_, _, _, e, _, _, _, hfails, hkind, _, _, _, hsame⟩ :=
      (hrelocated full source halone).2 (by rw [hprogram, hsize]; decide)
    exact ⟨e, hfails, hkind, hsame⟩

end Compiler

end InputScript
