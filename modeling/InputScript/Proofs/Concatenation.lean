import InputScript.Proofs.Chunks
import Mathlib.Data.List.Induction

namespace InputScript

namespace Location

def behind (l : Location) (source : String) : Location :=
  ⟨l.line + source.toList.count '\n',
    if l.line = 1 then l.column + (source.toList.reverse.takeWhile (· ≠ '\n')).length else l.column⟩

theorem next_line_pos {l : Location} (h : 1 ≤ l.line) (c : Char) : 1 ≤ (l.next c).line := by
  unfold next
  split_ifs
  · exact Nat.succ_pos _
  · exact h

theorem next_behind {l : Location} (h : 1 ≤ l.line) (source : String) (c : Char) :
    (l.next c).behind source = (l.behind source).next c := by
  by_cases hc : c = '\n'
  · have hline : ¬ l.line + 1 = 1 := by omega
    simp only [next, behind, if_pos hc, if_neg hline, mk.injEq, and_true]
    omega
  · simp only [next, behind, if_neg hc, mk.injEq, true_and]
    split_ifs <;> omega

theorem start_behind (source : String) : start.behind source = start.after source.toList := by
  unfold behind
  induction source.toList using List.reverseRecOn with
  | nil => rfl
  | append_singleton cs c ih =>
    rw [after_append, ← ih]
    by_cases hc : c = '\n'
    · subst hc
      simp [start, next]
      omega
    · simp [start, next, hc]
      omega

end Location

def Mode.relocate (f : Location → Location) : Mode → Mode
  | between => between
  | escaped start => escaped (f start)
  | bracketed start => bracketed (f start)
  | arguments start command body => arguments (f start) command body

def ScriptError.relocate (f : Location → Location) (e : ScriptError) : ScriptError :=
  ⟨e.fault, f e.location⟩

namespace Reader

variable {ignoreSpace : Bool} {f : Location → Location} {r r' : Reader} {p : Program}
  {start here : Location} {c : Char} {x : Except Fault Phrase}

def relocate (f : Location → Location) (r : Reader) : Reader :=
  ⟨r.mode.relocate f, f r.here, r.program⟩

def moved {α : Type} (f : Location → Location) (g : α → α) : Except ScriptError α → Except ScriptError α
  | .ok a => .ok (g a)
  | .error e => .error (e.relocate f)

theorem take_eq_ok (h : take p start here x = .ok r) : ∃ q, r = ⟨.between, here, q⟩ := by
  cases x with
  | error fault => cases h
  | ok phrase =>
    cases hadd : p.add phrase with
    | error fault => simp [take, Fault.locate, hadd, bind, Except.bind] at h
    | ok q =>
      simp only [take, Fault.locate, hadd, bind, Except.bind, pure, Except.pure, Except.ok.injEq] at h
      exact ⟨q, h.symm⟩

theorem take_relocate (f : Location → Location) (p : Program) (start here : Location)
    (x : Except Fault Phrase) :
    take p (f start) (f here) x = moved f (relocate f) (take p start here x) := by
  cases x with
  | error fault => rfl
  | ok phrase =>
    simp only [take, Fault.locate, bind, Except.bind]
    cases p.add phrase <;> rfl

theorem here_of_step (h : r.step ignoreSpace c = .ok r') : r'.here = r.here.next c := by
  obtain ⟨mode, here, p⟩ := r
  have htaken {start : Location} {x : Except Fault Phrase}
      (h : take p start (here.next c) x = .ok r') : r'.here = here.next c := by
    obtain ⟨q, rfl⟩ := take_eq_ok h
    rfl
  cases mode with
  | between =>
    simp only [step] at h
    split_ifs at h
    · cases h
      rfl
    · exact htaken h
  | escaped start =>
    simp only [step] at h
    split_ifs at h
    · cases h
      rfl
    · split at h
      · exact htaken h
      · cases h
  | bracketed start =>
    simp only [step] at h
    split at h
    · cases h
      rfl
    · cases h
  | arguments start command body =>
    simp only [step] at h
    split at h
    · cases h
      rfl
    · exact htaken h

theorem step_relocate (ignoreSpace : Bool) (hf : f (r.here.next c) = (f r.here).next c) :
    (r.relocate f).step ignoreSpace c = moved f (relocate f) (r.step ignoreSpace c) := by
  obtain ⟨mode, here, p⟩ := r
  cases mode with
  | between =>
    simp only [step, relocate, Mode.relocate, ← hf]
    split_ifs
    · rfl
    · exact take_relocate f p here (here.next c) _
  | escaped start =>
    simp only [step, relocate, Mode.relocate, ← hf]
    split_ifs
    · rfl
    · cases Command.ofChar? c with
      | some command => exact take_relocate f p start (here.next c) _
      | none => rfl
  | bracketed start =>
    simp only [step, relocate, Mode.relocate, ← hf]
    cases Command.ofChar? c <;> rfl
  | arguments start command body =>
    simp only [step, relocate, Mode.relocate, ← hf]
    cases body.step c with
    | more body => rfl
    | closed arguments => exact take_relocate f p start (here.next c) _

theorem finish_relocate (f : Location → Location) (r : Reader) :
    (r.relocate f).finish = moved f id r.finish := by
  obtain ⟨mode, here, p⟩ := r
  cases mode <;> rfl

theorem read_relocate (hf : ∀ l c, 1 ≤ l.line → f (l.next c) = (f l).next c) (ignoreSpace : Bool)
    (cs : List Char) (hr : 1 ≤ r.here.line) :
    (r.relocate f).read ignoreSpace cs = moved f id (r.read ignoreSpace cs) := by
  induction cs generalizing r with
  | nil => exact finish_relocate f r
  | cons c cs ih =>
    rw [read_cons, read_cons, step_relocate ignoreSpace (hf r.here c hr)]
    cases hstep : r.step ignoreSpace c with
    | error e => rfl
    | ok r' =>
      apply ih
      rw [here_of_step hstep]
      exact Location.next_line_pos hr c

theorem here_of_steps {cs : List Char} (h : cs.foldlM (step ignoreSpace) r = .ok r') :
    r'.here = r.here.after cs := by
  induction cs generalizing r with
  | nil =>
    cases h
    rfl
  | cons c cs ih =>
    rw [List.foldlM_cons] at h
    cases hstep : r.step ignoreSpace c with
    | error e => simp [hstep, bind, Except.bind] at h
    | ok r₁ =>
      rw [hstep] at h
      rw [ih h, here_of_step hstep]
      rfl

theorem read_append (ignoreSpace : Bool) (r : Reader) (cs ds : List Char) :
    r.read ignoreSpace (cs ++ ds) =
      match cs.foldlM (step ignoreSpace) r with
      | .ok r' => r'.read ignoreSpace ds
      | .error e => .error e := by
  unfold read
  rw [List.foldlM_append]
  cases cs.foldlM (step ignoreSpace) r <;> rfl

theorem finish_eq_ok {q : Program} (h : r.finish = .ok q) : r = ⟨.between, r.here, q⟩ := by
  obtain ⟨mode, here, p⟩ := r
  cases mode <;> cases h
  rfl

theorem isUnterminated_of_finish {e : ScriptError} (h : r.finish = .error e) :
    e.fault.isUnterminated = true := by
  obtain ⟨mode, here, p⟩ := r
  cases mode <;> cases h <;> rfl

end Reader

namespace Program

variable {p q : Program} {ignoreSpace : Bool} {source more : String}

theorem compile_append_of_ok (h : p.compile ignoreSpace source = .ok q) (more : String) :
    p.compile ignoreSpace (source ++ more) =
      Reader.moved (·.behind source) id (q.compile ignoreSpace more) := by
  have hwhole := Reader.read_append ignoreSpace (.begin p) source.toList more.toList
  unfold compile Reader.read at h
  cases hsteps : source.toList.foldlM (Reader.step ignoreSpace) (.begin p) with
  | error e => simp [hsteps, bind, Except.bind] at h
  | ok r =>
    have hhere : r.here = Location.start.behind source := by
      rw [Reader.here_of_steps hsteps, Location.start_behind]
      rfl
    have hr : r = (Reader.begin q).relocate (·.behind source) := by
      rw [hsteps] at h
      rw [Reader.finish_eq_ok h, hhere]
      rfl
    rw [compile, String.toList_append, hwhole, hsteps, hr]
    exact Reader.read_relocate (fun l c hl => Location.next_behind hl source c) ignoreSpace _ (Nat.le_refl 1)

theorem compile_append_of_error {e : ScriptError} (h : p.compile ignoreSpace source = .error e)
    (he : e.fault.isUnterminated = false) (more : String) :
    p.compile ignoreSpace (source ++ more) = .error e := by
  have hwhole := Reader.read_append ignoreSpace (.begin p) source.toList more.toList
  unfold compile Reader.read at h
  cases hsteps : source.toList.foldlM (Reader.step ignoreSpace) (.begin p) with
  | ok r =>
    rw [hsteps] at h
    rw [Reader.isUnterminated_of_finish h] at he
    cases he
  | error e' =>
    rw [hsteps] at h
    rw [compile, String.toList_append, hwhole, hsteps]
    exact h

end Program

namespace Compiler

/-- A script in two parts compiles if the second part compiles after the first, and to the same program.
Otherwise it has the fault of the part that is faulty, unless the first part only ends too early. -/
theorem compile_append (ignoreSpace : Bool) (x y z : Scratch) (p : Program) (source more : String) :
    let first := (Compiler.mk ignoreSpace x).compile p source
    let second := (Compiler.mk ignoreSpace y).compile first.program more
    let whole := (Compiler.mk ignoreSpace z).compile p (source ++ more)
    (first.outcome = .ok () →
      (whole.outcome = .ok () ↔ second.outcome = .ok ()) ∧
        (second.outcome = .ok () → whole.program = second.program) ∧
        ∀ e, second.outcome = .error (.script e) →
          whole.outcome = .error (.script ⟨e.fault, e.location.behind source⟩) ∧ whole.program = p) ∧
    ∀ e, first.outcome = .error (.script e) → e.fault.isUnterminated = false →
      whole.outcome = .error (.script e) ∧ whole.program = p := by
  intro first second whole
  rcases (Compiler.mk ignoreSpace x).compile_cases p source with
    ⟨q, hq, -, hfirst, hprogram⟩ | ⟨e, he, hfirst, -⟩
  · have happend := Program.compile_append_of_ok hq more
    refine ⟨fun _ => ?_, fun e he => (nomatch hfirst.symm.trans he)⟩
    rcases (Compiler.mk ignoreSpace y).compile_cases q more with
      ⟨r, hr, -, hsecond, hresult⟩ | ⟨e, he, hsecond, -⟩
    · rw [hr] at happend
      obtain ⟨hwhole, hsame⟩ := compile_eq_ok (c := ⟨ignoreSpace, z⟩) happend
      rw [← hprogram] at hsecond hresult
      refine ⟨⟨fun _ => hsecond, fun _ => hwhole⟩, fun _ => hsame.trans hresult.symm, fun e he => ?_⟩
      cases hsecond.symm.trans he
    · rw [he] at happend
      obtain ⟨hwhole, hsame⟩ := compile_eq_error (c := ⟨ignoreSpace, z⟩) happend
      rw [← hprogram] at hsecond
      refine ⟨⟨fun h => ?_, fun h => ?_⟩, fun h => ?_, fun e' he' => ?_⟩
      · cases hwhole.symm.trans h
      · cases hsecond.symm.trans h
      · cases hsecond.symm.trans h
      · cases hsecond.symm.trans he'
        exact ⟨hwhole, hsame⟩
  · refine ⟨fun h => (nomatch hfirst.symm.trans h), fun e' he' hended => ?_⟩
    cases hfirst.symm.trans he'
    exact compile_eq_error (c := ⟨ignoreSpace, z⟩) (Program.compile_append_of_error he hended more)

theorem compile_append_of_unknown_key :
    let whole (source more : String) := (Compiler.new false).compile .empty (source ++ more)
    (whole "\\t\na" "b\\[$XY]").outcome = .error (.script ⟨.unknownKey "XY", ⟨2, 3⟩⟩) ∧
      (whole "\\[$XY]" "\\").outcome = .error (.script ⟨.unknownKey "XY", ⟨1, 1⟩⟩) ∧
      (whole "a" "\\t").outcome = .ok () := by
  intro whole
  have happend := compile_append false .blank .blank .blank .empty
  refine ⟨?_, ?_, ?_⟩
  · have hfirst := (happend "\\t\na" "b\\[$XY]").1 (by decide +kernel)
    exact (hfirst.2.2 ⟨.unknownKey "XY", ⟨1, 2⟩⟩ (by decide +kernel)).1
  · exact ((happend "\\[$XY]" "\\").2 ⟨.unknownKey "XY", ⟨1, 1⟩⟩ (by decide +kernel) rfl).1
  · exact ((happend "a" "\\t").1 (by decide +kernel)).1.mpr (by decide +kernel)

end Compiler

end InputScript
