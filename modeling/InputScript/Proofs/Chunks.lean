import InputScript.Proofs.Editing
import InputScript.Proofs.Language
import InputScript.Script.Compile
import InputScript.Script.Compiler

namespace InputScript

namespace Program

variable {p q r : Program} {phrase : Phrase}

structure Grows (p q : Program) : Prop where
  instructions : p.instructions.toList <+: q.instructions.toList
  positions : p.positions.toList <+: q.positions.toList

theorem grows_refl (p : Program) : p.Grows p :=
  ⟨List.prefix_rfl, List.prefix_rfl⟩

theorem Grows.trans (h : p.Grows q) (h' : q.Grows r) : p.Grows r :=
  ⟨h.instructions.trans h'.instructions, h.positions.trans h'.positions⟩

theorem grows_of_add (h : p.add phrase = .ok q) : p.Grows q := by
  cases phrase with
  | emit instructions =>
    cases h
    exact ⟨by simp, List.prefix_rfl⟩
  | move place =>
    unfold add at h
    split_ifs at h
    cases h
    exact ⟨by simp, by simp⟩

theorem take_of_prefix {α : Type} {xs ys : Array α} (h : xs.toList <+: ys.toList) :
    ys.take (cutPlace ys.size xs.size) = xs := by
  have hsize : cutPlace ys.size xs.size = xs.size := by
    have hle := h.length_le
    simp only [Array.length_toList] at hle
    simp [cutPlace, hle]
  rw [hsize, ← Array.toList_inj]
  simpa using (List.prefix_iff_eq_take.mp h).symm

theorem Grows.truncate (h : p.Grows q) : q.truncate p.instructions.size p.positions.size = p := by
  rw [Program.truncate, take_of_prefix h.instructions, take_of_prefix h.positions]

end Program

namespace Desk

variable {α : Type} {p q : Program} {view : Desk → α}

def mode (d : Desk) : Mode :=
  match d.expected with
  | .anything => .between
  | .command => .escaped d.scratch.commandStart
  | .bracketedCommand => .bracketed d.scratch.commandStart
  | .argument command escaped =>
    .arguments d.scratch.commandStart command ⟨d.scratch.arguments, d.scratch.word, escaped⟩

def reader (d : Desk) : Reader :=
  ⟨d.mode, d.here, d.program⟩

inductive Matches (p : Program) (view : Desk → α) :
    EStateM.Result CompileError Desk Unit → Except ScriptError α → Prop
  | goes (d : Desk) (h : p.Grows d.program) : Matches p view (.ok () d) (.ok (view d))
  | fails (e : ScriptError) (d : Desk) (h : p.Grows d.program) :
      Matches p view (.error (.script e) d) (.error e)

theorem Matches.mono {result : EStateM.Result CompileError Desk Unit} {x : Except ScriptError α}
    (hp : p.Grows q) (h : Matches q view result x) : Matches p view result x := by
  cases h with
  | goes d h => exact .goes d (hp.trans h)
  | fails e d h => exact .fails e d (hp.trans h)

theorem carryOut_matches (start here : Location) (s : Scratch) (p : Program) (x : Except Fault Phrase) :
    Matches p reader (carryOut start (.adding x) ⟨s, p, here, .anything⟩) (Reader.take p start here x) := by
  cases x with
  | error f => exact .fails ⟨f, start⟩ _ (Program.grows_refl p)
  | ok phrase =>
    have hlocate : Fault.locate start (.ok phrase) = .ok phrase := rfl
    simp only [carryOut, Edit.adding, Reader.take, hlocate, bind, Except.bind]
    cases hadd : p.add phrase with
    | ok q => exact .goes ⟨s, q, here, .anything⟩ (Program.grows_of_add hadd)
    | error f => exact .fails ⟨f, start⟩ _ (Program.grows_refl p)

theorem execute_matches (command : Command) (s : Scratch) (p : Program) (here : Location) :
    Matches p reader (execute command ⟨s, p, here, .anything⟩)
      (Reader.complete p s.commandStart here command s.arguments.reverse) := by
  rw [execute, Edit.ofCommand_eq]
  exact carryOut_matches s.commandStart here s p _

theorem closeArguments_reverse (s : Scratch) (escaped : Bool) :
    s.closeArguments.arguments.reverse = (⟨s.arguments, s.word, escaped⟩ : Body).arguments := by
  unfold Scratch.closeArguments Body.arguments
  split_ifs with hnone
  · simp only [Bool.and_eq_true, List.isEmpty_iff] at hnone
    rw [hnone.1, List.reverse_nil]
  · rfl

theorem closeArguments_commandStart (s : Scratch) : s.closeArguments.commandStart = s.commandStart := by
  unfold Scratch.closeArguments
  split_ifs <;> rfl

theorem step_matches (ignoreSpace : Bool) (c : Char) (d : Desk) :
    Matches d.program reader (step ignoreSpace c d) (d.reader.step ignoreSpace c) := by
  obtain ⟨s, p, here, expected⟩ := d
  have hsame : p.Grows p := Program.grows_refl p
  cases expected with
  | anything =>
    simp only [step, reader, mode, Reader.step]
    split_ifs
    · exact .goes _ hsame
    · rw [Edit.ofChar_eq]
      exact carryOut_matches here (here.next c) s p _
  | command =>
    simp only [step, reader, mode, Reader.step]
    split_ifs
    · exact .goes _ hsame
    · cases Command.ofChar? c with
      | some command => exact execute_matches command _ p _
      | none => exact .fails _ _ hsame
  | bracketedCommand =>
    simp only [step, reader, mode, Reader.step]
    cases Command.ofChar? c with
    | some command => exact .goes _ hsame
    | none => exact .fails _ _ hsame
  | argument command escaped =>
    cases escaped with
    | true => exact .goes _ hsame
    | false =>
      simp only [step, reader, mode, Reader.step, Body.step, Bool.false_eq_true, if_false]
      split_ifs
      · exact .goes _ hsame
      · have hexecute := execute_matches command s.closeArguments p (here.next c)
        rwa [closeArguments_commandStart, closeArguments_reverse s false] at hexecute
      · exact .goes _ hsame
      · exact .goes _ hsame

theorem finish_matches (d : Desk) : Matches d.program program (finish d) d.reader.finish := by
  obtain ⟨s, p, here, expected⟩ := d
  have hsame : p.Grows p := Program.grows_refl p
  cases expected with
  | anything => exact .goes _ hsame
  | command | bracketedCommand | argument => exact .fails _ _ hsame

theorem read_matches (ignoreSpace : Bool) (cs : List Char) (d : Desk) :
    Matches d.program program (read ignoreSpace cs d) (d.reader.read ignoreSpace cs) := by
  induction cs generalizing d with
  | nil => exact finish_matches d
  | cons c cs ih =>
    have hstep := step_matches ignoreSpace c d
    rw [read, Reader.read_cons]
    generalize step ignoreSpace c d = result, d.reader.step ignoreSpace c = x at hstep ⊢
    cases hstep with
    | goes e h => exact (ih e).mono h
    | fails e d h => exact .fails e d h

end Desk

namespace Compiler

variable {c : Compiler} {p q : Program} {source : String} {e : ScriptError}

theorem compile_cases (c : Compiler) (p : Program) (source : String) :
    (∃ q, p.compile c.ignoreSpace source = .ok q ∧ p.Grows q ∧
      (c.compile p source).outcome = .ok () ∧ (c.compile p source).program = q) ∨
    ∃ e, p.compile c.ignoreSpace source = .error e ∧
      (c.compile p source).outcome = .error (.script e) ∧ (c.compile p source).program = p := by
  have hmatches := Desk.read_matches c.ignoreSpace source.toList (.begin c.scratch p)
  have hreader : (Desk.begin c.scratch p).reader.read c.ignoreSpace source.toList =
      p.compile c.ignoreSpace source := rfl
  rw [hreader] at hmatches
  unfold compile
  generalize Desk.read c.ignoreSpace source.toList (.begin c.scratch p) = result,
    p.compile c.ignoreSpace source = x at hmatches ⊢
  cases hmatches with
  | goes d h => exact .inl ⟨d.program, rfl, h, rfl, rfl⟩
  | fails e d h => exact .inr ⟨e, rfl, rfl, h.truncate⟩

theorem compile_eq_ok (h : p.compile c.ignoreSpace source = .ok q) :
    (c.compile p source).outcome = .ok () ∧ (c.compile p source).program = q := by
  rcases c.compile_cases p source with ⟨q', hq, -, houtcome, rfl⟩ | ⟨e, he, -⟩
  · exact ⟨houtcome, Except.ok.inj (hq.symm.trans h)⟩
  · cases he.symm.trans h

theorem compile_eq_error (h : p.compile c.ignoreSpace source = .error e) :
    (c.compile p source).outcome = .error (.script e) ∧ (c.compile p source).program = p := by
  rcases c.compile_cases p source with ⟨q, hq, -⟩ | ⟨e', he, houtcome, hprogram⟩
  · cases hq.symm.trans h
  · obtain rfl := Except.error.inj (he.symm.trans h)
    exact ⟨houtcome, hprogram⟩

theorem outcome_eq_ok :
    (c.compile p source).outcome = .ok () ↔ ∃ q, p.compile c.ignoreSpace source = .ok q := by
  rcases c.compile_cases p source with ⟨q, hq, -, houtcome, -⟩ | ⟨e, he, houtcome, -⟩
  · exact ⟨fun _ => ⟨q, hq⟩, fun _ => houtcome⟩
  · rw [houtcome, he]
    simp

theorem compile_of_outcome (h : (c.compile p source).outcome = .ok ()) :
    p.compile c.ignoreSpace source = .ok (c.compile p source).program := by
  obtain ⟨q, hq⟩ := outcome_eq_ok.mp h
  rw [(compile_eq_ok hq).2, hq]

theorem outcome_eq_error :
    (c.compile p source).outcome = .error (.script e) ↔ p.compile c.ignoreSpace source = .error e := by
  rcases c.compile_cases p source with ⟨q, hq, -, houtcome, -⟩ | ⟨e', he, houtcome, -⟩
  · rw [houtcome, hq]
    simp
  · rw [houtcome, he]
    simp

theorem compile_eq_new (c : Compiler) (p : Program) (source : String) :
    (c.compile p source).outcome = ((new c.ignoreSpace).compile p source).outcome ∧
      (c.compile p source).program = ((new c.ignoreSpace).compile p source).program := by
  rcases c.compile_cases p source with ⟨q, hq, -, houtcome, hprogram⟩ | ⟨e, he, houtcome, hprogram⟩
  · obtain ⟨hnew, hsame⟩ := compile_eq_ok (c := new c.ignoreSpace) hq
    exact ⟨houtcome.trans hnew.symm, hprogram.trans hsame.symm⟩
  · obtain ⟨hnew, hsame⟩ := compile_eq_error (c := new c.ignoreSpace) he
    exact ⟨houtcome.trans hnew.symm, hprogram.trans hsame.symm⟩

end Compiler

def Program.compileAnew (p : Program) : List Chunk → Except CompileError Program
  | [] => .ok p
  | chunk :: chunks =>
    let done := (Compiler.new chunk.ignoreSpace).compile p chunk.source
    match done.outcome with
    | .ok _ => done.program.compileAnew chunks
    | .error e => .error e

namespace Workshop

def run (w : Workshop) (chunks : List Chunk) : Workshop :=
  chunks.foldl next w

def accepted (w : Workshop) : List Chunk → List Chunk
  | [] => []
  | chunk :: chunks =>
    match (w.compile chunk).outcome with
    | .ok _ => chunk :: (w.next chunk).accepted chunks
    | .error _ => (w.next chunk).accepted chunks

theorem next_program (w : Workshop) (chunk : Chunk) :
    (w.next chunk).program = (w.compile chunk).program := by
  simp only [next]
  split_ifs <;> rfl

theorem next_cases (w : Workshop) (chunk : Chunk) :
    (∃ e, (w.compile chunk).outcome = .error (.script e) ∧ (w.next chunk).program = w.program) ∨
      ((w.compile chunk).outcome = .ok () ∧ w.program.Grows (w.next chunk).program) := by
  rw [next_program]
  rcases (w.compiler chunk.ignoreSpace).compile_cases w.program chunk.source with
    ⟨q, -, hgrows, houtcome, rfl⟩ | ⟨e, -, houtcome, hprogram⟩
  · exact .inr ⟨houtcome, hgrows⟩
  · exact .inl ⟨e, houtcome, hprogram⟩

theorem next_eq_new (w : Workshop) (chunk : Chunk) :
    let anew := (Compiler.new chunk.ignoreSpace).compile w.program chunk.source
    (w.compile chunk).outcome = anew.outcome ∧ (w.next chunk).program = anew.program := by
  rw [next_program]
  exact (w.compiler chunk.ignoreSpace).compile_eq_new w.program chunk.source

theorem compileAnew_accepted (w : Workshop) (chunks : List Chunk) :
    w.program.compileAnew (w.accepted chunks) = .ok (w.run chunks).program := by
  induction chunks generalizing w with
  | nil => rfl
  | cons chunk chunks ih =>
    have hrest := ih (w.next chunk)
    rcases w.next_cases chunk with ⟨e, houtcome, hprogram⟩ | ⟨houtcome, -⟩
    · simp only [accepted, houtcome, run, List.foldl_cons]
      rwa [hprogram] at hrest
    · obtain ⟨hnew, hprogram⟩ := w.next_eq_new chunk
      rw [houtcome] at hnew
      rw [hprogram] at hrest
      simp only [accepted, houtcome, run, List.foldl_cons, Program.compileAnew, ← hnew]
      exact hrest

/-- Chunks are atomic, and compilers keep no trace of them: each chunk leaves the program as it was or only
adds to it, as it would with a new compiler, and those that compile make the same program without the rest. -/
theorem run_chunks (w : Workshop) :
    (∀ before chunk,
      let v := w.run before
      let anew := (Compiler.new chunk.ignoreSpace).compile v.program chunk.source
      ((v.compile chunk).outcome = anew.outcome ∧ (v.next chunk).program = anew.program) ∧
        ((∃ e, (v.compile chunk).outcome = .error (.script e) ∧ (v.next chunk).program = v.program) ∨
          ((v.compile chunk).outcome = .ok () ∧ v.program.Grows (v.next chunk).program))) ∧
    ∀ chunks, w.program.compileAnew (w.accepted chunks) = .ok (w.run chunks).program :=
  ⟨fun before chunk => ⟨(w.run before).next_eq_new chunk, (w.run before).next_cases chunk⟩,
    compileAnew_accepted w⟩

example :
    let chunks : List Chunk := [⟨false, "a"⟩, ⟨false, "\\[@1,2]b\\[$X,"⟩, ⟨true, " c"⟩]
    let w : Workshop := .new .empty
    w.accepted chunks = [⟨false, "a"⟩, ⟨true, " c"⟩] ∧ (w.run chunks).program.words = [580, 612] := by
  decide +kernel

end Workshop

end InputScript
