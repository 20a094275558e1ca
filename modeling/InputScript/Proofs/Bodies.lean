import InputScript.Proofs.Chunks
import InputScript.Proofs.Quoting

namespace InputScript

namespace Scratch

variable {s : Scratch}

def body (s : Scratch) : Body :=
  ⟨s.arguments, s.word, false⟩

def take (s : Scratch) (piece : Piece) : Scratch :=
  if piece.splits then s.endWord.clearWord else s.keep piece.char

theorem body_take (s : Scratch) (piece : Piece) : (s.take piece).body = s.body.take piece := by
  unfold take Body.take
  split_ifs <;> rfl

theorem commandStart_take (s : Scratch) (piece : Piece) : (s.take piece).commandStart = s.commandStart := by
  unfold take
  split_ifs <;> rfl

theorem body_foldl_take (s : Scratch) (pieces : List Piece) :
    (pieces.foldl take s).body = pieces.foldl Body.take s.body := by
  induction pieces generalizing s with
  | nil => rfl
  | cons piece pieces ih => rw [List.foldl_cons, List.foldl_cons, ih, body_take]

theorem commandStart_foldl_take (s : Scratch) (pieces : List Piece) :
    (pieces.foldl take s).commandStart = s.commandStart := by
  induction pieces generalizing s with
  | nil => rfl
  | cons piece pieces ih => rw [List.foldl_cons, ih, commandStart_take]

theorem closeArguments_foldl_take (s : Scratch) (pieces : List Piece) :
    (pieces.foldl take s.clearArguments.clearWord).closeArguments.arguments.reverse = Piece.arguments pieces := by
  rw [Desk.closeArguments_reverse _ false, ← Body.arguments_foldl_take]
  exact congrArg Body.arguments (body_foldl_take s.clearArguments.clearWord pieces)

end Scratch

theorem Body.arguments_ne (b : Body) : b.arguments ≠ [""] := by
  unfold arguments
  split_ifs with hnone
  · simp
  · intro hsingle
    obtain ⟨hword, hcomplete⟩ := List.cons.inj (List.reverse_eq_iff.mp hsingle)
    have hchars : b.word.reverse = [] := by
      rw [← String.toList_ofList (l := b.word.reverse), hword, String.toList_empty]
    apply hnone
    simp [hcomplete, List.reverse_eq_nil_iff.mp hchars]

namespace Piece

def Closes (cs : List Char) : Prop :=
  ∃ (pieces : List Piece) (rest : List Char), cs = pieces.flatMap text ++ ']' :: rest

theorem closes_or (cs : List Char) :
    Closes cs ∨ ∃ pieces : List Piece, cs = pieces.flatMap text ∨ cs = pieces.flatMap text ++ ['\\'] := by
  cases cs with
  | nil => exact .inr ⟨[], .inl rfl⟩
  | cons c cs =>
    by_cases hclose : c = ']'
    · subst hclose
      exact .inl ⟨[], cs, rfl⟩
    by_cases hescape : c = '\\'
    · subst hescape
      cases cs with
      | nil => exact .inr ⟨[], .inr rfl⟩
      | cons d cs =>
        rcases closes_or cs with ⟨pieces, rest, rfl⟩ | ⟨pieces, rfl | rfl⟩
        · exact .inl ⟨.escaped d :: pieces, rest, rfl⟩
        · exact .inr ⟨.escaped d :: pieces, .inl rfl⟩
        · exact .inr ⟨.escaped d :: pieces, .inr rfl⟩
    · rcases closes_or cs with ⟨pieces, rest, rfl⟩ | ⟨pieces, rfl | rfl⟩
      · exact .inl ⟨.plain c hclose hescape :: pieces, rest, rfl⟩
      · exact .inr ⟨.plain c hclose hescape :: pieces, .inl rfl⟩
      · exact .inr ⟨.plain c hclose hescape :: pieces, .inr rfl⟩
termination_by cs.length

theorem arguments_ne (pieces : List Piece) : arguments pieces ≠ [""] := by
  rw [← Body.arguments_foldl_take]
  exact Body.arguments_ne _

end Piece

def escape (a : String) : List Char :=
  a.toList.flatMap fun c => if c = '\\' ∨ c = ',' ∨ c = ']' then ['\\', c] else [c]

def written (args : List String) : List Char :=
  [','].intercalate (args.map escape)

namespace Piece

theorem text_quote (c : Char) : (quote c).text = if c = '\\' ∨ c = ',' ∨ c = ']' then ['\\', c] else [c] := by
  have hsame : (c = ']' ∨ c = '\\' ∨ c = ',') ↔ (c = '\\' ∨ c = ',' ∨ c = ']') := by tauto
  unfold quote
  by_cases hquoted : c = ']' ∨ c = '\\' ∨ c = ','
  · rw [dif_pos hquoted, if_pos (hsame.mp hquoted)]
    rfl
  · rw [dif_neg hquoted, if_neg fun h => hquoted (hsame.mpr h)]
    rfl

theorem text_quoted (a : String) : (a.toList.map quote).flatMap text = escape a := by
  rw [List.flatMap_map, escape]
  exact congrArg (List.flatMap · a.toList) (funext text_quote)

theorem text_body (args : List String) : (body args).flatMap text = written args := by
  induction args with
  | nil => rfl
  | cons a args ih =>
    cases args with
    | nil =>
      rw [body, text_quoted]
      simp [written]
    | cons b args =>
      rw [body, List.flatMap_append, List.flatMap_cons, ih, text_quoted]
      simp [written, comma, text]

end Piece

namespace Desk

variable {ignoreSpace escaped : Bool} {s : Scratch} {p : Program} {here : Location} {command : Command} {desk : Desk}
  {cs rest : List Char}

def closes (desk : Desk) (c : Char) : Bool :=
  match desk.expected with
  | .argument _ false => c = ']'
  | _ => false

def readArguments (ignoreSpace : Bool) : List Char → EStateM CompileError Desk (List Char)
  | [] => do
    finish
    return []
  | c :: cs => fun desk =>
    if desk.closes c then
      .ok cs { desk with scratch := desk.scratch.closeArguments, here := desk.here.next c, expected := .anything }
    else
      match step ignoreSpace c desk with
      | .ok _ desk => readArguments ignoreSpace cs desk
      | .error e desk => .error e desk

theorem readArguments_step {next : Desk} {c : Char} (hopen : desk.closes c = false)
    (hstep : step ignoreSpace c desk = .ok () next) :
    readArguments ignoreSpace (c :: cs) desk = readArguments ignoreSpace cs next := by
  simp only [readArguments, hopen, Bool.false_eq_true, if_false, hstep]

theorem step_plain {c : Char} (hclose : c ≠ ']') (hescape : c ≠ '\\') :
    step ignoreSpace c ⟨s, p, here, .argument command false⟩ =
      .ok () ⟨s.take (.plain c hclose hescape), p, here.next c, .argument command false⟩ := by
  simp only [step, if_neg hescape, if_neg hclose, Scratch.take, Piece.splits, decide_eq_true_eq]
  split_ifs <;> rfl

theorem readArguments_close (cs : List Char) :
    readArguments ignoreSpace (']' :: cs) ⟨s, p, here, .argument command false⟩ =
      .ok cs ⟨s.closeArguments, p, here.next ']', .anything⟩ := rfl

theorem readArguments_piece (piece : Piece) (cs : List Char) :
    readArguments ignoreSpace (piece.text ++ cs) ⟨s, p, here, .argument command false⟩ =
      readArguments ignoreSpace cs ⟨s.take piece, p, here.after piece.text, .argument command false⟩ := by
  cases piece with
  | escaped c => rfl
  | plain c hclose hescape =>
    have hopen : closes ⟨s, p, here, .argument command false⟩ c = false := decide_eq_false hclose
    exact readArguments_step hopen (step_plain hclose hescape)

theorem readArguments_pieces (pieces : List Piece) (cs : List Char) :
    readArguments ignoreSpace (pieces.flatMap Piece.text ++ cs) ⟨s, p, here, .argument command false⟩ =
      readArguments ignoreSpace cs
        ⟨pieces.foldl Scratch.take s, p, here.after (pieces.flatMap Piece.text), .argument command false⟩ := by
  induction pieces generalizing s here with
  | nil => rfl
  | cons piece pieces ih =>
    rw [List.flatMap_cons, List.append_assoc, readArguments_piece, ih, List.foldl_cons, Location.after_append]

theorem read_eq_readArguments (cs : List Char) : read ignoreSpace cs ⟨s, p, here, .argument command escaped⟩ =
    (do let rest ← readArguments ignoreSpace cs; execute command; read ignoreSpace rest)
      ⟨s, p, here, .argument command escaped⟩ := by
  induction cs generalizing s here escaped with
  | nil => rfl
  | cons c cs ih =>
    have hnext {next : Desk} (hopen : closes ⟨s, p, here, .argument command escaped⟩ c = false)
        (hstep : step ignoreSpace c ⟨s, p, here, .argument command escaped⟩ = .ok () next)
        (hrest : read ignoreSpace cs next =
          (do let rest ← readArguments ignoreSpace cs; execute command; read ignoreSpace rest) next) :
        read ignoreSpace (c :: cs) ⟨s, p, here, .argument command escaped⟩ =
          (do let rest ← readArguments ignoreSpace (c :: cs); execute command; read ignoreSpace rest)
            ⟨s, p, here, .argument command escaped⟩ := by
      rw [read, hstep]
      simp only [hrest, bind, EStateM.bind, readArguments_step hopen hstep]
    cases escaped with
    | true => exact hnext rfl rfl ih
    | false =>
      by_cases hclose : c = ']'
      · subst hclose
        have hstep : step ignoreSpace ']' ⟨s, p, here, .argument command false⟩ =
            execute command ⟨s.closeArguments, p, here.next ']', .anything⟩ := rfl
        rw [read, hstep]
        simp only [bind, EStateM.bind, readArguments_close]
        cases execute command ⟨s.closeArguments, p, here.next ']', .anything⟩ <;> rfl
      by_cases hescape : c = '\\'
      · subst hescape
        exact hnext rfl rfl ih
      · exact hnext (decide_eq_false hclose) (step_plain hclose hescape) ih

theorem readArguments_closed (ignoreSpace : Bool) (command : Command) (s : Scratch) (p : Program) (here : Location)
    (pieces : List Piece) (rest : List Char) :
    ∃ after, readArguments ignoreSpace (pieces.flatMap Piece.text ++ ']' :: rest)
        ⟨s.clearArguments.clearWord, p, here, .argument command false⟩ = .ok rest after ∧
      after.scratch.arguments.reverse = Piece.arguments pieces ∧ after.scratch.commandStart = s.commandStart ∧
      after.program = p ∧ after.here = here.after (pieces.flatMap Piece.text ++ [']']) ∧
      after.expected = .anything := by
  refine ⟨_, by rw [readArguments_pieces, readArguments_close], Scratch.closeArguments_foldl_take s pieces, ?_, rfl,
    ?_, rfl⟩
  · exact (closeArguments_commandStart _).trans (Scratch.commandStart_foldl_take _ pieces)
  · rw [Location.after_append]
    rfl

theorem readArguments_open (ignoreSpace : Bool) (command : Command) (s : Scratch) (p : Program) (here : Location)
    (h : ¬ Piece.Closes cs) :
    ∃ after, readArguments ignoreSpace cs ⟨s.clearArguments.clearWord, p, here, .argument command false⟩ =
      .error (.script ⟨.unterminatedArguments, s.commandStart⟩) after := by
  have hstart (pieces : List Piece) :
      (pieces.foldl Scratch.take s.clearArguments.clearWord).commandStart = s.commandStart :=
    Scratch.commandStart_foldl_take _ pieces
  rcases Piece.closes_or cs with hcloses | ⟨pieces, rfl | rfl⟩
  · exact absurd hcloses h
  · rw [← List.append_nil (pieces.flatMap Piece.text), readArguments_pieces, ← hstart pieces]
    exact ⟨_, rfl⟩
  · rw [readArguments_pieces, ← hstart pieces]
    exact ⟨_, rfl⟩

/-- Arguments that are written with their marks escaped come back as they are, whatever text stands behind them, and the
location is the one behind the bracket. No body gives one empty argument. Reading fails where no bracket closes, also
when the text ends in a backslash, and only there. -/
theorem arguments_read_again (ignoreSpace : Bool) (command : Command) (s : Scratch) (p : Program) (here : Location) :
    let desk : Desk := ⟨s.clearArguments.clearWord, p, here, .argument command false⟩
    (∀ cs, read ignoreSpace cs desk =
      (do let rest ← readArguments ignoreSpace cs; execute command; read ignoreSpace rest) desk) ∧
    (∀ args rest, args ≠ [""] → ∃ after, readArguments ignoreSpace (written args ++ ']' :: rest) desk = .ok rest after ∧
      after.scratch.arguments.reverse = args ∧ after.here = here.after (written args ++ [']'])) ∧
    (∀ cs rest after, readArguments ignoreSpace cs desk = .ok rest after →
      after.scratch.arguments.reverse ≠ [""] ∧ after.scratch.commandStart = s.commandStart ∧ after.program = p ∧
        after.expected = .anything ∧ ∃ body, cs = body ++ ']' :: rest ∧ after.here = here.after (body ++ [']'])) ∧
    (∀ cs, (∃ e after, readArguments ignoreSpace cs desk = .error e after) ↔ ¬ Piece.Closes cs) ∧
    (∀ cs e after, readArguments ignoreSpace cs desk = .error e after →
      e = .script ⟨.unterminatedArguments, s.commandStart⟩ ∧ Fault.unterminatedArguments.kind = .illegalArgument) := by
  intro desk
  have hclosed := readArguments_closed ignoreSpace command s p here
  have hopen (cs : List Char) (h : ¬ Piece.Closes cs) := readArguments_open ignoreSpace command s p here h
  refine ⟨read_eq_readArguments, ?_, ?_, ?_, ?_⟩
  · intro args rest hargs
    obtain ⟨after, hread, harguments, -, -, hhere, -⟩ := hclosed (Piece.body args) rest
    rw [Piece.text_body] at hread hhere
    rw [Piece.arguments_body hargs] at harguments
    exact ⟨after, hread, harguments, hhere⟩
  · intro cs rest after hread
    by_cases hcloses : Piece.Closes cs
    · obtain ⟨pieces, rest', rfl⟩ := hcloses
      obtain ⟨after', hread', harguments, hstart, hprogram, hhere, hexpected⟩ := hclosed pieces rest'
      obtain ⟨rfl, rfl⟩ := EStateM.Result.ok.inj (hread'.symm.trans hread)
      exact ⟨harguments ▸ Piece.arguments_ne pieces, hstart, hprogram, hexpected, _, rfl, hhere⟩
    · obtain ⟨after', hfails⟩ := hopen cs hcloses
      cases hfails.symm.trans hread
  · intro cs
    constructor
    · rintro ⟨e, after, hfails⟩ ⟨pieces, rest, rfl⟩
      obtain ⟨after', hread, -⟩ := hclosed pieces rest
      cases hread.symm.trans hfails
    · intro h
      exact ⟨_, hopen cs h⟩
  · intro cs e after hfails
    by_cases hcloses : Piece.Closes cs
    · obtain ⟨pieces, rest, rfl⟩ := hcloses
      obtain ⟨after', hread, -⟩ := hclosed pieces rest
      cases hread.symm.trans hfails
    · obtain ⟨after', hfails'⟩ := hopen cs hcloses
      exact ⟨(EStateM.Result.error.inj (hfails.symm.trans hfails')).1, rfl⟩

theorem arguments_read_again_of_marks :
    let args := ["a,b", "", "\\]\n"]
    let desk : Desk := ⟨Scratch.blank.clearArguments.clearWord, .empty, ⟨1, 4⟩, .argument .sendKey false⟩
    (∃ after, readArguments false (written args ++ [']', 'X']) desk = .ok ['X'] after ∧
      after.scratch.arguments.reverse = args ∧ after.scratch.arguments.reverse ≠ [""] ∧ after.here = ⟨2, 2⟩) ∧
    ¬ Piece.Closes ['\\', ']', '\\'] ∧
    ∃ after, readArguments false ['\\', ']', '\\'] desk = .error (.script ⟨.unterminatedArguments, ⟨0, 0⟩⟩) after := by
  intro args desk
  obtain ⟨-, hwritten, haccepted, hopen, hkind⟩ := arguments_read_again false .sendKey .blank .empty ⟨1, 4⟩
  obtain ⟨after, hread, harguments, hhere⟩ := hwritten args ['X'] (by decide)
  have hfails : ∃ e after, readArguments false ['\\', ']', '\\'] desk = .error e after := ⟨_, _, rfl⟩
  refine ⟨⟨after, hread, harguments, (haccepted _ _ _ hread).1, ?_⟩, (hopen _).mp hfails, ?_⟩
  · rw [hhere]
    decide
  · obtain ⟨e, after', he⟩ := hfails
    obtain ⟨rfl, -⟩ := hkind _ _ _ he
    exact ⟨after', he⟩

end Desk

end InputScript
