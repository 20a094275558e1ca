import InputScript.Proofs.Cancellation
import InputScript.Proofs.Ending
import InputScript.Proofs.Joining
import InputScript.Proofs.SameListing
import InputScript.Proofs.Surroundings

/-!
Playing the program of a script in two parts. The play goes through the first part as if the second were not
there, leaves it with no loop open, and goes on as a play of the second part alone.
-/

namespace InputScript

namespace Stage

variable {σ ε : Type} {s t u : Stage σ ε} {i j : Instruction} {k n : Nat} {past past' : Array (Event ε)}
  {loops : List Frame}

theorem enter_eq (s : Stage σ ε) (p : Program) (a : Nat) (i : Instruction) :
    s.enter p a i = s.amid (s.traced p a i).events (followLoops i (a + 1) s.player.loops).2 := by
  unfold enter traced
  split_ifs <;> rfl

theorem untraced_traced (s : Stage σ ε) (p : Program) (a : Nat) (i : Instruction) :
    (s.traced p a i).events.toList.filter (!·.isTrace) = s.events.toList.filter (!·.isTrace) := by
  unfold traced
  split_ifs
  · simp [record, Event.isTrace]
  · rfl

structure Mirrors (k : Nat) (t s : Stage σ ε) : Prop where
  stage : t = s.amid t.events (s.player.loops.map (Frame.shift k))
  events : t.events.toList.filter (!·.isTrace) = s.events.toList.filter (!·.isTrace)

theorem mirrors_self (k : Nat) (hs : s.player.loops = []) : s.Mirrors k s := by
  refine ⟨?_, rfl⟩
  rw [hs, List.map_nil, ← hs, amid_self]

theorem mirrors_amid (hu : u = u.amid past loops)
    (hpast : past'.toList.filter (!·.isTrace) = past.toList.filter (!·.isTrace)) :
    (u.amid past' (loops.map (Frame.shift k))).Mirrors k u := by
  rw [hu]
  exact ⟨rfl, hpast⟩

theorem Mirrors.stopped (h : t.Mirrors k s) : t.stopped.Mirrors k s.stopped :=
  ⟨congrArg Stage.stopped h.stage, h.events⟩

theorem Mirrors.amid (h : t.Mirrors k s) (past : Array (Event ε)) (loops : List Frame) :
    t.amid past loops = s.amid past loops := by
  rw [h.stage, amid_amid]

theorem Mirrors.follow (h : t.Mirrors k s) (hij : i.pair = Phrase.renumber n j.pair) (a : Nat) :
    followLoops i (k + a + 1) t.player.loops = (k + (followLoops j (a + 1) s.player.loops).1,
      (followLoops j (a + 1) s.player.loops).2.map (Frame.shift k)) := by
  rw [h.stage]
  exact Instruction.followLoops_shift hij k (a + 1) s.player.loops

theorem Mirrors.enter (h : t.Mirrors k s) (hij : i.pair = Phrase.renumber n j.pair) (p q : Program) (a : Nat) :
    (t.enter p (k + a) i).Mirrors k (s.enter q a j) := by
  have hevents : (t.traced p (k + a) i).events.toList.filter (!·.isTrace) =
      (s.traced q a j).events.toList.filter (!·.isTrace) := by
    rw [untraced_traced, untraced_traced, h.events]
  rw [enter_eq, enter_eq s, h.follow hij, h.amid]
  exact ⟨rfl, hevents⟩

end Stage

def Progress.shift (k : Nat) : Progress → Progress
  | next address => next (k + address)
  | cancelled => cancelled

namespace Act

open Stage

variable {σ ε α β : Type} {d : Desktop σ ε} {whole first second p : Program} {i j : Instruction}
  {a b k n : Nat} {s t u : Stage σ ε}

inductive Alike (k : Nat) (R : α → β → Prop) :
    EStateM.Result Failure (Stage σ ε) α → EStateM.Result Failure (Stage σ ε) β → Prop
  | ok {x : α} {y : β} {t s : Stage σ ε} : R x y → t.Mirrors k s → Alike k R (.ok x t) (.ok y s)
  | error {e : Failure} {t s : Stage σ ε} : t.Mirrors k s → Alike k R (.error e t) (.error e s)

theorem performAll_alike (d : Desktop σ ε) {cs : List Call} (hcs : ∀ c ∈ cs, c.Plain)
    (hs : s.player.playing = true) (h : t.Mirrors k s) :
    Alike k Eq (performAll d cs t) (performAll d cs s) := by
  obtain ⟨new, -, hadds⟩ := performAll_adds d hcs hs
  have hown := hadds s.events s.player.loops
  rw [amid_self] at hown
  have hpast : (t.events ++ new).toList.filter (!·.isTrace) = (s.events ++ new).toList.filter (!·.isTrace) := by
    rw [Array.toList_appendList, Array.toList_appendList, List.filter_append, List.filter_append, h.events]
  rw [h.stage, hadds]
  cases hcalls : performAll d cs s with
  | ok _ u =>
    rw [hcalls] at hown
    exact .ok rfl (mirrors_amid (EStateM.Result.ok.inj hown).2 hpast)
  | error e u =>
    rw [hcalls] at hown
    exact .error (mirrors_amid (EStateM.Result.error.inj hown).2 hpast)

theorem step_right (h : whole.Joins first second) (d : Desktop σ ε) (hs : s.player.playing = true)
    (hij : i.pair = Phrase.renumber first.positions.size j.pair) (ht : t.Mirrors first.size s) :
    Alike first.size (fun x y => x = y.shift first.size)
      (step d whole (first.size + a) i t) (step d second a j s) := by
  have henter : (s.enter second a j).player.playing = true := by
    rw [enter_player]
    exact hs
  have hcalls := performAll_alike d (plain_of_mem_calls second j) henter (ht.enter hij whole second a)
  rw [step_eq, step_eq, h.calls_right hij, ht.follow hij, Instruction.opcode_of_renumber hij]
  generalize performAll d (second.calls j) (t.enter whole (first.size + a) i) = x,
    performAll d (second.calls j) (s.enter second a j) = y at hcalls
  cases hcalls with
  | error hmirrors => exact .error hmirrors
  | @ok _ _ u v _ hmirrors =>
    refine .ok ?_ hmirrors
    have hcancelled : u.cancelled = v.cancelled := by
      rw [hmirrors.stage]
      rfl
    rw [hcancelled]
    split_ifs <;> rfl

theorem run_right (h : whole.Joins first second) (d : Desktop σ ε) (hs : s.player.playing = true)
    (ht : t.Mirrors first.size s) (n a : Nat) :
    Alike first.size Eq (run d whole n (first.size + a) t) (run d second n a s) := by
  induction n generalizing a s t with
  | zero =>
    cases hj : second.instructions[a]? with
    | none =>
      rw [run_over hj, run_over (h.over hj)]
      exact .ok rfl ht
    | some j =>
      obtain ⟨i, hi, -⟩ := h.instruction_right hj
      rw [run_zero hj, run_zero hi]
      exact .ok rfl ht
  | succ n ih =>
    cases hj : second.instructions[a]? with
    | none =>
      rw [run_over hj, run_over (h.over hj)]
      exact .ok rfl ht
    | some j =>
      obtain ⟨i, hi, hij⟩ := h.instruction_right hj
      have hstep := step_right h d (a := a) hs hij ht
      obtain ⟨noise, hplayer⟩ := step_player d second a j hs
      have hplaying := (congrArg Player.playing hplayer).trans hs
      rw [run_succ hj, run_succ hi]
      generalize step d whole (first.size + a) i t = x, step d second a j s = y at hstep hplaying
      cases hstep with
      | error hmirrors => exact .error hmirrors
      | @ok _ progress _ _ hprogress hmirrors =>
        subst hprogress
        cases progress with
        | next b => exact ih hplaying hmirrors b
        | cancelled => exact .ok rfl hmirrors

theorem step_left (h : whole.Joins first second) (d : Desktop σ ε) (hi : first.instructions[a]? = some i)
    (s : Stage σ ε) : step d whole a i s = step d first a i s :=
  step_of_describe d a s (h.describe_left hi)

theorem steps_left (h : whole.Joins first second) (hsteps : Steps d first n a s b t) :
    Steps d whole n a s b t := by
  induction hsteps with
  | refl => exact .refl _ _
  | head hi hstep _ ih => exact .head (h.instruction_left hi) ((step_left h d hi _).trans hstep) ih

theorem steps_of_leads {place : Nat × List Frame} (d : Desktop σ ε) (hs : s.Undisturbed)
    (hplaying : s.player.playing = true) (h : p.Leads (a, s.player.loops) place) :
    (∃ n t, Steps d p n a s place.1 t ∧ t.player.playing = true ∧ t.player.loops = place.2) ∨
      ∃ n b t i e u, Steps d p n a s b t ∧ p.instructions[b]? = some i ∧ step d p b i t = .error e u := by
  induction h with
  | refl => exact .inl ⟨0, s, .refl a s, hplaying, rfl⟩
  | tail _ hfollow ih =>
    rcases ih with ⟨n, t, hsteps, ht, hloops⟩ | hfails
    · obtain ⟨i, hi, rfl⟩ := Option.map_eq_some_iff.mp hfollow
      cases hstep : step d p _ i t with
      | error e u => exact .inr ⟨n, _, t, i, e, u, hsteps, hi, hstep⟩
      | ok progress u =>
        obtain ⟨noise, hplayer⟩ := step_player d p _ i ht
        rw [hstep] at hplayer
        -- The sleeps of the step may have drawn, but its loops are those of the next place.
        rw [progress_of_undisturbed hs hsteps.follows hstep, hloops] at hstep
        refine .inl ⟨n + 1, u, hsteps.trans (.head hi hstep (.refl _ u)), ?_, ?_⟩
        · exact (congrArg Player.playing hplayer).trans ht
        · rw [← hloops]
          exact congrArg Player.loops hplayer
    · exact .inr hfails

theorem play_right (h : whole.Joins first second) (d : Desktop σ ε) (ht : t.player.playing = true)
    (hloops : t.player.loops = []) (hrun : ∀ m, run d whole (n + m) 0 s.started = run d whole m first.size t)
    (hidle : s.player.playing = false) (m : Nat) :
    Alike first.size Eq (play d whole (n + m) s) (play d second m t.stopped) := by
  have hstarted : t.stopped.started = t := by
    obtain ⟨⟨randomSleep, tracing, noise, loops, playing⟩, _⟩ := t
    cases ht
    cases hloops
    rfl
  have hright := run_right h d ht (mirrors_self first.size hloops) m 0
  rw [Nat.add_zero, ← hrun] at hright
  rw [play, play, whilePlaying_idle _ hidle, whilePlaying_idle _ (s := t.stopped) rfl, hstarted]
  generalize run d whole (n + m) 0 s.started = x, run d second m 0 t = y at hright
  cases hright with
  | ok heq hmirrors => exact .ok heq hmirrors.stopped
  | error hmirrors => exact .error hmirrors.stopped

theorem play_of_joins (h : whole.Joins first second) (hopen : first.openLoops first.size = [])
    (hcounted : ¬ first.ClosesEndlessLoop) (d : Desktop σ ε) (hs : s.Undisturbed) :
    ∃ m, (∃ e t, play d first m s = .error e t ∧ ∀ n, play d whole (m + n) s = .error e t) ∨
      ∃ t, play d first m s = .ok (some true) t ∧ t.player.loops = [] ∧
        ∀ n, Alike first.size Eq (play d whole (m + n) s) (play d second n t) := by
  by_cases hbusy : s.player.playing = true
  · exact ⟨0, .inl ⟨.alreadyPlaying, s, play_busy hbusy, fun n => play_busy hbusy⟩⟩
  have hidle : s.player.playing = false := Bool.eq_false_iff.mpr hbusy
  have hstarted : s.started.Undisturbed := ⟨hs.not_cancelled, hs.sleeps, hs.presses⟩
  rcases steps_of_leads d hstarted rfl (Program.leads_to_end hopen hcounted) with
    ⟨m, t, hsteps, hplaying, hloops⟩ | ⟨m, b, t, i, e, u, hsteps, hi, hstep⟩
  · refine ⟨m, .inr ⟨t.stopped, play_of_run hidle ?_, hloops, ?_⟩⟩
    · rw [← Nat.add_zero m, hsteps.run_eq]
      exact run_over (Array.getElem?_eq_none_iff.mpr (Nat.le_refl _))
    · exact play_right h d hplaying hloops (steps_left h hsteps).run_eq hidle
  · refine ⟨m + 1, .inl ⟨e, u.stopped, play_error_of_run hidle ?_, fun n => play_error_of_run hidle ?_⟩⟩
    · rw [hsteps.run_eq, run_succ hi, hstep]
    · rw [Nat.add_assoc, Nat.add_comm 1 n, (steps_left h hsteps).run_eq, run_succ (h.instruction_left hi),
        step_left h d hi, hstep]

/-- A script in two parts, each of which compiles alone, is played part by part if no loop of the first part is
left open or goes on for ever: apart from the trace, the play does what plays of both parts do one after the
other, where the targets of the loops that the second part leaves open are moved behind the first part. It
fails where the play of the first part fails, which that never does in calm. -/
theorem play_append (ignoreSpace : Bool) (x y z : Scratch) (source more : String) :
    let first := (Compiler.mk ignoreSpace x).compile .empty source
    let second := (Compiler.mk ignoreSpace y).compile .empty more
    let whole := (Compiler.mk ignoreSpace z).compile .empty (source ++ more)
    first.outcome = .ok () → second.outcome = .ok () → whole.outcome = .ok () →
      first.program.openLoops first.program.size = [] → ¬ first.program.ClosesEndlessLoop →
      ∀ (σ ε : Type) (d : Desktop σ ε) (s : Stage σ ε), s.Undisturbed → ∃ m,
        (∀ I, d.Serves I → s.Calm I → s.player.playing = false → ∃ t, play d first.program m s = .ok (some true) t) ∧
        ((∃ e t, play d first.program m s = .error e t ∧ ∀ n, play d whole.program (m + n) s = .error e t) ∨
          ∃ t, play d first.program m s = .ok (some true) t ∧ t.player.loops = [] ∧
            ∀ n, Alike first.program.size Eq (play d whole.program (m + n) s) (play d second.program n t)) := by
  intro first second whole hfirst hsecond hwhole hopen hcounted σ ε d s hs
  have hjoins : whole.program.Joins first.program second.program :=
    Program.joins_of_compile (Compiler.compile_of_outcome hfirst) (Compiler.compile_of_outcome hsecond)
      (Compiler.compile_of_outcome hwhole)
  obtain ⟨m, hparts⟩ := play_of_joins hjoins hopen hcounted d hs
  refine ⟨m, fun I hd hcalm hidle => ?_, hparts⟩
  rcases hparts with ⟨e, t, hfails, -⟩ | ⟨t, hplay, -⟩
  · obtain ⟨r, u, hends⟩ := play_calm hd first.program hcalm hidle m
    cases hfails.symm.trans hends
  · exact ⟨t, hplay⟩

theorem play_append_of_open_loop :
    let first := (Compiler.new true).compile .empty "\\[\x7b2] \\[@3,4]\\\x7d"
    let second := (Compiler.new true).compile .empty "\\[@5,6]\\\x7b"
    let whole := (Compiler.new true).compile .empty ("\\[\x7b2] \\[@3,4]\\\x7d" ++ "\\[@5,6]\\\x7b")
    let s : Stage DryRun (List DryRunLine) := .new (.idle false true (.ofList [])) .fresh
    (first.outcome = .ok () ∧ second.outcome = .ok () ∧ whole.outcome = .ok ()) ∧
      first.program.openLoops first.program.size = [] ∧ ¬ first.program.ClosesEndlessLoop ∧ s.Undisturbed ∧
      ∃ m t, play DryRun.desktop first.program m s = .ok (some true) t ∧ t.player.loops = [] ∧
        ∀ n, Alike first.program.size Eq (play DryRun.desktop whole.program (m + n) s)
          (play DryRun.desktop second.program n t) := by
  intro first second whole s
  have hprogram : first.program =
      ⟨#[⟨.loopBegin, 2, by decide⟩, ⟨.pointerGoto, 0, by decide⟩, ⟨.loopEnd, 0, by decide⟩], #[⟨3, 4⟩]⟩ := by
    decide +kernel
  have hfirst : first.outcome = .ok () := by decide +kernel
  have hsecond : second.outcome = .ok () := by decide +kernel
  have hwhole : whole.outcome = .ok () := by decide +kernel
  have hopen : first.program.openLoops first.program.size = [] := by
    rw [hprogram]
    rfl
  have hcounted : ¬ first.program.ClosesEndlessLoop := by
    rw [hprogram]
    rintro ⟨b, c, i, hmatch, hi, hzero⟩
    have hc : c < 3 := (Program.matching?_lt hmatch).2
    obtain rfl | rfl | rfl : c = 0 ∨ c = 1 ∨ c = 2 := by omega
    all_goals cases hmatch
    cases hi
    cases hzero
  have hs : s.Calm fun _ => True := Stage.calm_new trivial true (.ofList [])
  have happend := play_append true .blank .blank .blank _ _ hfirst hsecond hwhole hopen hcounted _ _
    DryRun.desktop s hs.undisturbed
  refine ⟨⟨hfirst, hsecond, hwhole⟩, hopen, hcounted, hs.undisturbed, ?_⟩
  obtain ⟨m, hcalm, hparts⟩ := happend
  obtain ⟨u, hends⟩ := hcalm _ DryRun.serves hs rfl
  rcases hparts with ⟨e, t, hfails, -⟩ | ⟨t, hplay, hloops, hrest⟩
  · cases hfails.symm.trans hends
  · exact ⟨m, t, hplay, hloops, hrest⟩

theorem loops_of_open_loop_behind_key :
    let first := (Compiler.new false).compile .empty "a"
    let second := (Compiler.new false).compile .empty "\\\x7b"
    let whole := (Compiler.new false).compile .empty ("a" ++ "\\\x7b")
    let s : Stage DryRun (List DryRunLine) := .new (.idle false true (.ofList [])) .fresh
    (first.outcome = .ok () ∧ second.outcome = .ok () ∧ whole.outcome = .ok ()) ∧
      first.program.openLoops first.program.size = [] ∧ ¬ first.program.ClosesEndlessLoop ∧ s.Undisturbed ∧
      ∃ k m n t u v, play DryRun.desktop first.program k s = .ok (some true) t ∧
        play DryRun.desktop second.program m t = .ok (some true) u ∧
        play DryRun.desktop whole.program n s = .ok (some true) v ∧
        u.player.loops = [⟨1, 0⟩] ∧ v.player.loops = [⟨2, 0⟩] ∧ u.player.loops ≠ v.player.loops := by
  intro first second whole s
  have hfirst : first.program = ⟨#[.key .click (.small 0)], #[]⟩ := by decide +kernel
  have hsecond : second.program = ⟨#[⟨.loopBegin, 0, by decide⟩], #[]⟩ := by decide +kernel
  have hwhole : whole.program = ⟨#[.key .click (.small 0), ⟨.loopBegin, 0, by decide⟩], #[]⟩ := by decide +kernel
  have hcounted : ¬ first.program.ClosesEndlessLoop := by
    rw [hfirst]
    rintro ⟨b, c, i, hmatch, -, -⟩
    obtain ⟨hbefore, hc⟩ := Program.matching?_lt hmatch
    have : c < 1 := hc
    omega
  have hopen : first.program.openLoops first.program.size = [] := by
    rw [hfirst]
    rfl
  have hs : s.Calm fun _ => True := Stage.calm_new trivial true (.ofList [])
  have hkey : first.program.Leads (0, []) (first.program.size, []) := by
    rw [hfirst]
    exact .single rfl
  have hloop : second.program.Leads (0, []) (second.program.size, [⟨1, 0⟩]) := by
    rw [hsecond]
    exact .single rfl
  have hboth : whole.program.Leads (0, []) (whole.program.size, [⟨2, 0⟩]) := by
    rw [hwhole]
    exact .head (b := (1, [])) rfl (.single rfl)
  obtain ⟨k, t, ht, hcalm, -, hidle⟩ := play_of_leads DryRun.serves hs rfl hkey
  obtain ⟨m, u, hu, -, hloops, -⟩ := play_of_leads DryRun.serves hcalm hidle hloop
  obtain ⟨n, v, hv, -, hloops', -⟩ := play_of_leads DryRun.serves hs rfl hboth
  exact ⟨⟨by decide +kernel, by decide +kernel, by decide +kernel⟩, hopen, hcounted, hs.undisturbed,
    k, m, n, t, u, v, ht, hu, hv, hloops, hloops', by simp [hloops, hloops']⟩

end Act

end InputScript
