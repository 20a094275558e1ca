import InputScript.Proofs.Service
import Mathlib.Data.Nat.Find

/-!
Plays that are cancelled. What calls do never depends on the token, so a play goes the way it would go if
nobody cancelled, up to the end of the first instruction that looks at the token when it is set.
-/

namespace InputScript

namespace Cue

def Comes (awaited : Option Nat) (before after : Nat) : Prop :=
  ∃ n, awaited = some n ∧ before < n ∧ n ≤ after

theorem Comes.mono {awaited : Option Nat} {before after later : Nat} (h : Comes awaited before after)
    (hlater : after ≤ later) : Comes awaited before later := by
  obtain ⟨n, hn, hlt, hle⟩ := h
  exact ⟨n, hn, hlt, by omega⟩

theorem comes_succ {awaited : Option Nat} {before after : Nat} (h : before ≤ after) :
    Comes awaited before (after + 1) ↔ awaited = some (after + 1) ∨ Comes awaited before after := by
  constructor
  · rintro ⟨n, hn, hlt, hle⟩
    by_cases hlast : n = after + 1
    · exact .inl (hlast ▸ hn)
    · exact .inr ⟨n, hn, hlt, by omega⟩
  · rintro (hn | hcomes)
    · exact ⟨after + 1, hn, by omega, by omega⟩
    · exact hcomes.mono (by omega)

end Cue

namespace Stage

variable {σ ε : Type} {s t u : Stage σ ε}

def quiet (s : Stage σ ε) : Stage σ ε :=
  { s with cancelled := false, cue := .never }

def Heard (s t : Stage σ ε) : Prop :=
  s.cancelled = true ∨
    s.listens ∧ (Cue.Comes s.cue.atSleep s.sleeps t.sleeps ∨ Cue.Comes s.cue.atPress s.presses t.presses)

theorem Undisturbed.not_heard (h : s.Undisturbed) (t : Stage σ ε) : ¬ s.Heard t := by
  rintro (hset | ⟨hlistens, ⟨n, hn, hlt, -⟩ | ⟨n, hn, hlt, -⟩⟩)
  · rw [h.not_cancelled] at hset
    cases hset
  · have := h.sleeps hlistens n hn
    omega
  · have := h.presses hlistens n hn
    omega

structure Follows (s t : Stage σ ε) : Prop where
  cue : t.cue = s.cue
  handler : t.handler = s.handler
  sleeps : s.sleeps ≤ t.sleeps
  presses : s.presses ≤ t.presses
  events : s.events.toList <+: t.events.toList
  token : t.cancelled = true ↔ s.Heard t

theorem Heard.mono (h : s.Heard t) (hsleeps : t.sleeps ≤ u.sleeps) (hpresses : t.presses ≤ u.presses) :
    s.Heard u := by
  rcases h with hset | ⟨hlistens, hcomes | hcomes⟩
  · exact .inl hset
  · exact .inr ⟨hlistens, .inl (hcomes.mono hsleeps)⟩
  · exact .inr ⟨hlistens, .inr (hcomes.mono hpresses)⟩

theorem follows_refl (s : Stage σ ε) : s.Follows s where
  cue := rfl
  handler := rfl
  sleeps := Nat.le_refl _
  presses := Nat.le_refl _
  events := List.prefix_rfl
  token := by
    constructor
    · exact .inl
    · rintro (hset | ⟨-, ⟨n, -, hlt, hle⟩ | ⟨n, -, hlt, hle⟩⟩)
      · exact hset
      · omega
      · omega

theorem Follows.later (h : s.Follows t)
    (htoken : u.cancelled = t.cancelled ∧ u.cue = t.cue ∧ u.handler = t.handler)
    (hcounts : u.sleeps = t.sleeps ∧ u.presses = t.presses)
    (hevents : t.events.toList <+: u.events.toList) : s.Follows u where
  cue := htoken.2.1.trans h.cue
  handler := htoken.2.2.trans h.handler
  sleeps := hcounts.1 ▸ h.sleeps
  presses := hcounts.2 ▸ h.presses
  events := h.events.trans hevents
  token := by
    rw [htoken.1, h.token, Heard, Heard, hcounts.1, hcounts.2]

theorem Follows.listens_iff (h : s.Follows t) : t.listens ↔ s.listens := by
  rw [listens, listens, h.cue, h.handler]

theorem receive_of_listens (h : s.listens) :
    s.receive s.cue.signal = { s with cancelled := true } := by
  cases hsignal : s.cue.signal with
  | cancel => rfl
  | interrupt =>
    rcases h with hcancel | hhandler
    · rw [hsignal] at hcancel
      cases hcancel
    · simp only [receive, hhandler]

theorem receiveIf_cancelled (s : Stage σ ε) (due : Bool) :
    (s.receiveIf due).cancelled = true ↔ s.cancelled = true ∨ s.listens ∧ due = true := by
  unfold receiveIf
  cases due with
  | false => simp
  | true =>
    by_cases hlistens : s.listens
    · simp [receive_of_listens hlistens, hlistens]
    · simp [receive_of_not_listens hlistens, hlistens]

theorem receiveIf_eq (s : Stage σ ε) (due : Bool) :
    s.receiveIf due = { s with cancelled := (s.receiveIf due).cancelled } := by
  unfold receiveIf
  cases due with
  | false => rfl
  | true =>
    by_cases hlistens : s.listens
    · rw [if_pos rfl, receive_of_listens hlistens]
    · rw [if_pos rfl, receive_of_not_listens hlistens]

theorem countSleep_eq (s : Stage σ ε) :
    s.countSleep = { s with sleeps := s.sleeps + 1, cancelled := s.countSleep.cancelled } :=
  receiveIf_eq { s with sleeps := s.sleeps + 1 } _

theorem countPress_eq (s : Stage σ ε) :
    s.countPress = { s with presses := s.presses + 1, cancelled := s.countPress.cancelled } :=
  receiveIf_eq { s with presses := s.presses + 1 } _

theorem Follows.countSleep (h : s.Follows t) : s.Follows t.countSleep := by
  have htoken : t.countSleep.cancelled = true ↔
      t.cancelled = true ∨ t.listens ∧ (t.cue.atSleep == some (t.sleeps + 1)) = true :=
    receiveIf_cancelled { t with sleeps := t.sleeps + 1 } _
  rw [countSleep_eq]
  refine ⟨h.cue, h.handler, Nat.le_succ_of_le h.sleeps, h.presses, h.events, ?_⟩
  dsimp only
  rw [htoken, h.token, h.listens_iff, h.cue, beq_iff_eq, Heard, Heard, Cue.comes_succ h.sleeps]
  tauto

theorem Follows.countPress (h : s.Follows t) : s.Follows t.countPress := by
  have htoken : t.countPress.cancelled = true ↔
      t.cancelled = true ∨ t.listens ∧ (t.cue.atPress == some (t.presses + 1)) = true :=
    receiveIf_cancelled { t with presses := t.presses + 1 } _
  rw [countPress_eq]
  refine ⟨h.cue, h.handler, h.sleeps, Nat.le_succ_of_le h.presses, h.events, ?_⟩
  dsimp only
  rw [htoken, h.token, h.listens_iff, h.cue, beq_iff_eq, Heard, Heard, Cue.comes_succ h.presses]
  tauto

theorem countSleep_quiet (s : Stage σ ε) : s.quiet.countSleep = s.countSleep.quiet := by
  rw [countSleep_eq s]
  rfl

theorem countPress_quiet (s : Stage σ ε) : s.quiet.countPress = s.countPress.quiet := by
  rw [countPress_eq s]
  rfl

end Stage

namespace Act

open Stage

variable {σ ε α : Type} {d : Desktop σ ε} {p : Program} {i : Instruction}
  {a b c k n : Nat} {s t u v w : Stage σ ε}

def quieted : EStateM.Result Failure (Stage σ ε) α → EStateM.Result Failure (Stage σ ε) α
  | .ok r t => .ok r t.quiet
  | .error e t => .error e t.quiet

theorem ask_quiet (call : σ → Reply σ ε α) (received : Stage σ ε → Stage σ ε)
    (hreceived : ∀ t, received t.quiet = (received t).quiet) (s : Stage σ ε) :
    ask call received s.quiet = quieted (ask call received s) := by
  have hdesktop : s.quiet.desktop = s.desktop := rfl
  simp only [ask, hdesktop]
  cases (call s.desktop).outcome with
  | done r =>
    simp only [quieted, ← hreceived]
    rfl
  | failed e => rfl
  | replays r =>
    have hplayer : s.quiet.player = s.player := rfl
    simp only [hplayer]
    cases s.player.start? with
    | none => rfl
    | some player =>
      simp only [quieted, ← hreceived]
      rfl

theorem ask_follows (call : σ → Reply σ ε α) (received : Stage σ ε → Stage σ ε)
    (hreceived : ∀ t, s.Follows t → s.Follows (received t)) (h : s.Follows t) :
    s.Follows (stageOf (ask call received t)) := by
  apply ask_keeps _ _ hreceived
  · refine h.later ⟨rfl, rfl, rfl⟩ ⟨rfl, rfl⟩ ?_
    simp [answered]
  · intro u q hu
    exact hu.later ⟨rfl, rfl, rfl⟩ ⟨rfl, rfl⟩ List.prefix_rfl

theorem sleep_quiet (ms : Int) (s : Stage σ ε) : sleep ms s.quiet = quieted (sleep ms s) := by
  have hplayer : s.quiet.player = s.player := rfl
  simp only [sleep, hplayer]
  cases (s.player.duration? ms).1 with
  | none => rfl
  | some lasting =>
    simp only [quieted, ← countSleep_quiet]
    rfl

theorem record_follows (h : s.Follows t) (event : Event ε) : s.Follows (t.record event) :=
  h.later ⟨rfl, rfl, rfl⟩ ⟨rfl, rfl⟩ (by simp [Stage.record])

theorem sleep_follows (h : s.Follows t) (ms : Int) : s.Follows (stageOf (sleep ms t)) := by
  have hdrawn : s.Follows { t with player := (t.player.duration? ms).2 } :=
    h.later ⟨rfl, rfl, rfl⟩ ⟨rfl, rfl⟩ List.prefix_rfl
  simp only [sleep]
  cases (t.player.duration? ms).1 with
  | none => exact hdrawn
  | some lasting => exact (record_follows hdrawn _).countSleep

theorem perform_quiet (d : Desktop σ ε) (call : Call) (s : Stage σ ε) :
    perform d call s.quiet = quieted (perform d call s) := by
  cases call with
  | trace line => rfl
  | press k => exact ask_quiet _ countPress countPress_quiet s
  | release k => exact ask_quiet _ id (fun _ => rfl) s
  | moveTo place => exact ask_quiet _ id (fun _ => rfl) s
  | printPointer overwrite =>
    rw [printPointer_eq, printPointer_eq, ask_quiet _ id (fun _ => rfl)]
    cases ask d.pointer id s <;> rfl
  | flush => exact ask_quiet _ id (fun _ => rfl) s
  | sleep ms => exact sleep_quiet ms s

theorem perform_follows (d : Desktop σ ε) (call : Call) (h : s.Follows t) :
    s.Follows (stageOf (perform d call t)) := by
  cases call with
  | trace line => exact record_follows h _
  | press k => exact ask_follows _ countPress (fun _ h => h.countPress) h
  | release k => exact ask_follows _ id (fun _ h => h) h
  | moveTo place => exact ask_follows _ id (fun _ h => h) h
  | printPointer overwrite =>
    have hasked := ask_follows d.pointer id (fun _ h => h) h
    exact printPointer_keeps hasked (fun u text hu => record_follows hu (.print text)) overwrite
  | flush => exact ask_follows _ id (fun _ h => h) h
  | sleep ms => exact sleep_follows h ms

theorem performAll_quiet (d : Desktop σ ε) (calls : List Call) (s : Stage σ ε) :
    performAll d calls s.quiet = quieted (performAll d calls s) := by
  induction calls generalizing s with
  | nil => rfl
  | cons call calls ih =>
    rw [performAll_cons, performAll_cons, perform_quiet]
    cases perform d call s with
    | ok _ t => exact ih t
    | error e t => rfl

theorem performAll_follows (d : Desktop σ ε) (calls : List Call) (h : s.Follows t) :
    s.Follows (stageOf (performAll d calls t)) := by
  induction calls generalizing t with
  | nil => exact h
  | cons call calls ih =>
    have hfirst := perform_follows d call h
    rw [performAll_cons]
    cases hperform : perform d call t with
    | ok _ u =>
      rw [hperform] at hfirst
      exact ih hfirst
    | error e u =>
      rw [hperform] at hfirst
      exact hfirst

theorem enter_quiet (s : Stage σ ε) (p : Program) (a : Nat) (i : Instruction) :
    s.quiet.enter p a i = (s.enter p a i).quiet := by
  have hplayer : s.quiet.player = s.player := rfl
  simp only [enter, traced, hplayer]
  split <;> rfl

theorem enter_follows (h : s.Follows t) (p : Program) (a : Nat) (i : Instruction) :
    s.Follows (t.enter p a i) := by
  have htraced : s.Follows (t.traced p a i) := by
    unfold traced
    split
    · exact record_follows h _
    · exact h
  exact htraced.later ⟨rfl, rfl, rfl⟩ ⟨rfl, rfl⟩ List.prefix_rfl

theorem step_follows (d : Desktop σ ε) (p : Program) (a : Nat) (i : Instruction) (h : s.Follows t) :
    s.Follows (stageOf (step d p a i t)) := by
  rw [stageOf_step]
  exact performAll_follows d (p.calls i) (enter_follows h p a i)

theorem step_quiet (d : Desktop σ ε) (p : Program) (a : Nat) (i : Instruction) (s : Stage σ ε) :
    step d p a i s.quiet =
      match step d p a i s with
      | .ok _ t => .ok (.next (followLoops i (a + 1) s.player.loops).1) t.quiet
      | .error e t => .error e t.quiet := by
  have hplayer : s.quiet.player = s.player := rfl
  rw [step_eq, step_eq, enter_quiet, performAll_quiet]
  cases performAll d (p.calls i) (s.enter p a i) with
  | ok _ t =>
    have hset : t.quiet.cancelled = false := rfl
    simp only [quieted, hset, hplayer, Bool.false_eq_true, and_false, if_false]
  | error e t => rfl

theorem progress_of_step {progress : Progress} (h : step d p a i s = .ok progress t) :
    progress = if i.opcode ≠ .loopBegin ∧ t.cancelled then .cancelled
      else .next (followLoops i (a + 1) s.player.loops).1 := by
  rw [step_eq] at h
  split at h
  · simp only [EStateM.Result.ok.injEq] at h
    obtain ⟨rfl, rfl⟩ := h
    rfl
  · cases h

theorem progress_of_undisturbed {progress : Progress} (hs : s.Undisturbed) (ht : s.Follows t)
    (h : step d p a i t = .ok progress u) : progress = .next (followLoops i (a + 1) t.player.loops).1 := by
  have hfollows := step_follows d p a i ht
  rw [h] at hfollows
  have hrunning : ¬ u.cancelled = true := fun hset => hs.not_heard u (hfollows.token.mp hset)
  rw [progress_of_step h, if_neg fun hstops => hrunning hstops.2]

theorem step_quiet_of_ok {progress : Progress} (h : step d p a i s = .ok progress t) :
    step d p a i s.quiet = .ok (.next (followLoops i (a + 1) s.player.loops).1) t.quiet := by
  rw [step_quiet, h]

theorem step_quiet_of_next (h : step d p a i s = .ok (.next b) t) :
    step d p a i s.quiet = .ok (.next b) t.quiet := by
  have hprogress := progress_of_step h
  split_ifs at hprogress
  rw [Progress.next.inj hprogress]
  exact step_quiet_of_ok h

theorem step_of_quiet (ht : s.Follows t) (h : step d p a i t.quiet = .ok (.next b) v) :
    ∃ u, u.quiet = v ∧ s.Follows u ∧
      ((i.opcode ≠ .loopBegin ∧ s.Heard v ∧ step d p a i t = .ok .cancelled u) ∨
        (¬ (i.opcode ≠ .loopBegin ∧ s.Heard v) ∧ step d p a i t = .ok (.next b) u)) := by
  have hfollows := step_follows d p a i ht
  rw [step_quiet] at h
  cases hstep : step d p a i t with
  | error e u => simp [hstep] at h
  | ok progress u =>
    rw [hstep] at h hfollows
    simp only [EStateM.Result.ok.injEq, Progress.next.injEq] at h
    obtain ⟨rfl, rfl⟩ := h
    have hprogress := progress_of_step hstep
    have hheard : s.Heard u.quiet ↔ u.cancelled = true := hfollows.token.symm
    refine ⟨u, rfl, hfollows, ?_⟩
    by_cases hstops : i.opcode ≠ .loopBegin ∧ u.cancelled = true
    · rw [if_pos hstops] at hprogress
      exact .inl ⟨hstops.1, hheard.mpr hstops.2, by rw [hprogress]⟩
    · rw [if_neg hstops] at hprogress
      exact .inr ⟨by rwa [hheard], by rw [hprogress]⟩

def Completes (d : Desktop σ ε) (p : Program) (a : Nat) (s : Stage σ ε) (k : Nat) (i : Instruction)
    (v : Stage σ ε) : Prop :=
  ∃ b c t, Steps d p k a s b t ∧ p.instructions[b]? = some i ∧ step d p b i t = .ok (.next c) v

theorem completes_zero (hi : p.instructions[a]? = some i) (h : step d p a i s = .ok (.next b) v) :
    Completes d p a s 0 i v :=
  ⟨a, b, s, .refl a s, hi, h⟩

theorem Completes.head {j : Instruction} (h : Completes d p b t k j v)
    (hi : p.instructions[a]? = some i) (hstep : step d p a i s = .ok (.next b) t) :
    Completes d p a s (k + 1) j v := by
  obtain ⟨b', c, u, hsteps, hj, hlast⟩ := h
  exact ⟨b', c, u, .head hi hstep hsteps, hj, hlast⟩

theorem Completes.after (h : Completes d p b t k i v) (hsteps : Steps d p n a s b t) :
    Completes d p a s (n + k) i v := by
  obtain ⟨b', c, u, hrest, hi, hlast⟩ := h
  exact ⟨b', c, u, hsteps.trans hrest, hi, hlast⟩

theorem Completes.steps (h : Completes d p a s k i v) : ∃ c, Steps d p (k + 1) a s c v := by
  obtain ⟨b, c, t, hsteps, hi, hlast⟩ := h
  exact ⟨c, hsteps.trans (.head hi hlast (.refl c v))⟩

theorem Steps.follows (h : Steps d p n a s b t) : s.Follows t := by
  apply h.invariant (P := fun _ u => s.Follows u) _ (follows_refl s)
  intro a b i t u _ hstep ht
  have hfollows := step_follows d p a i ht
  rwa [hstep] at hfollows

theorem steps_of_quiet (ht : s.Follows t) (h : Steps d p k a t.quiet b w)
    (hnone : ∀ j < k, ∀ i v, Completes d p a t.quiet j i v → i.opcode ≠ .loopBegin → ¬ s.Heard v) :
    ∃ u, u.quiet = w ∧ s.Follows u ∧ Steps d p k a t b u := by
  generalize hq : t.quiet = q at h hnone
  induction h generalizing t with
  | refl a q => exact ⟨t, hq, ht, .refl a t⟩
  | @head k a c b i q r w hi hstep hrest ih =>
    subst hq
    obtain ⟨u, rfl, hu, ⟨hbegin, hheard, -⟩ | ⟨-, hnext⟩⟩ := step_of_quiet ht hstep
    · exact absurd hheard (hnone 0 (Nat.succ_pos k) i _ (completes_zero hi hstep) hbegin)
    · obtain ⟨x, hx, hfollows, hsteps⟩ := ih hu rfl fun j hj i' v hv =>
        hnone (j + 1) (Nat.succ_lt_succ hj) i' v (hv.head hi hstep)
      exact ⟨x, hx, hfollows, .head hi hnext hsteps⟩

theorem run_of_first (ht : s.Follows t) (h : Completes d p a t.quiet k i v)
    (hbegin : i.opcode ≠ .loopBegin) (hheard : s.Heard v)
    (hfirst : ∀ j < k, ∀ i v, Completes d p a t.quiet j i v → i.opcode ≠ .loopBegin → ¬ s.Heard v)
    (hn : k < n) : ∃ u, run d p n a t = .ok (some false) u ∧ u.quiet = v := by
  obtain ⟨b, c, w, hsteps, hi, hstep⟩ := h
  obtain ⟨u, rfl, hu, hcourse⟩ := steps_of_quiet ht hsteps hfirst
  obtain ⟨x, rfl, -, ⟨-, -, hcancelled⟩ | ⟨hgoes, -⟩⟩ := step_of_quiet hu hstep
  · obtain ⟨m, rfl⟩ := Nat.exists_eq_add_of_lt hn
    refine ⟨x, ?_, rfl⟩
    rw [Nat.add_assoc, hcourse.run_eq, run_succ hi, hcancelled]
  · exact absurd ⟨hbegin, hheard⟩ hgoes

theorem run_of_none (ht : s.Follows t)
    (hnone : ∀ k i v, Completes d p a t.quiet k i v → i.opcode ≠ .loopBegin → ¬ s.Heard v) (n : Nat) :
    quieted (run d p n a t) = run d p n a t.quiet := by
  induction n generalizing a t with
  | zero =>
    cases hi : p.instructions[a]? with
    | none => rw [run_over hi, run_over hi, quieted]
    | some i => rw [run_zero hi, run_zero hi, quieted]
  | succ n ih =>
    cases hi : p.instructions[a]? with
    | none => rw [run_over hi, run_over hi, quieted]
    | some i =>
      rw [run_succ hi, run_succ hi]
      cases hstep : step d p a i t with
      | error e u =>
        rw [step_quiet, hstep]
        rfl
      | ok progress u =>
        have hquiet := step_quiet_of_ok hstep
        obtain ⟨u', -, hu, ⟨hbegin, hheard, -⟩ | ⟨-, hnext⟩⟩ := step_of_quiet ht hquiet
        · exact absurd hheard (hnone 0 i _ (completes_zero hi hquiet) hbegin)
        · obtain ⟨rfl, rfl⟩ := EStateM.Result.ok.inj (hstep.symm.trans hnext)
          rw [hquiet]
          exact ih hu fun k i' v hv => hnone (k + 1) i' v (hv.head hi hquiet)

theorem Steps.quiet (h : Steps d p n a s b t) : Steps d p n a s.quiet b t.quiet := by
  induction h with
  | refl a s => exact .refl a s.quiet
  | head hi hstep _ ih => exact .head hi (step_quiet_of_next hstep) ih

theorem steps_of_run {r : Bool} (h : run d p n a t = .ok (some r) u) :
    ∃ k b, Steps d p k a t.quiet b u.quiet := by
  obtain ⟨k, b, v, -, hsteps, hend⟩ := run_cases d p n a t
  rw [h] at hend
  rcases hend with ⟨-, -, hgoes⟩ | ⟨-, hover⟩ | ⟨i, w, hi, ⟨hstep, hcancelled⟩ | ⟨e, -, hfails⟩⟩
  · cases hgoes
  · cases hover
    exact ⟨k, b, hsteps.quiet⟩
  · cases hcancelled
    exact ⟨k + 1, _, hsteps.quiet.trans (.head hi (step_quiet_of_ok hstep) (.refl _ _))⟩
  · cases hfails

theorem exists_checkpoint (d : Desktop σ ε) (p : Program) (a : Nat) (t : Stage σ ε) :
    (∃ n v, run d p n a t.quiet = .ok (some true) v) ∨ (∃ n e v, run d p n a t.quiet = .error e v) ∨
      ∃ k i v, Completes d p a t.quiet k i v ∧ i.opcode ≠ .loopBegin := by
  cases hi : p.instructions[a]? with
  | none => exact .inl ⟨0, _, run_over hi⟩
  | some i =>
    -- A begin of a loop is passed to the next address, so the end of the program bounds the search.
    have ha : a < p.size := (Array.getElem?_eq_some_iff.mp hi).1
    cases hstep : step d p a i t with
    | error e u =>
      refine .inr (.inl ⟨1, e, u.quiet, ?_⟩)
      rw [run_succ hi, step_quiet, hstep]
    | ok progress u =>
      have hquiet := step_quiet_of_ok hstep
      by_cases hbegin : i.opcode = .loopBegin
      · rw [Program.followLoops_begin hbegin] at hquiet
        rcases exists_checkpoint d p (a + 1) u with ⟨n, v, hover⟩ | ⟨n, e, v, hfails⟩ | ⟨k, j, v, hv, hj⟩
        · refine .inl ⟨n + 1, v, ?_⟩
          rw [run_succ hi, hquiet]
          exact hover
        · refine .inr (.inl ⟨n + 1, e, v, ?_⟩)
          rw [run_succ hi, hquiet]
          exact hfails
        · exact .inr (.inr ⟨k + 1, j, v, hv.head hi hquiet, hj⟩)
      · exact .inr (.inr ⟨0, i, _, completes_zero hi hquiet, hbegin⟩)
termination_by p.size - a

def Meets (d : Desktop σ ε) (p : Program) (s : Stage σ ε) (k : Nat) (v : Stage σ ε) : Prop :=
  ∃ i, Completes d p 0 s.quiet.started k i v ∧ i.opcode ≠ .loopBegin ∧ s.Heard v

theorem started_follows (s : Stage σ ε) : s.Follows s.started :=
  (follows_refl s).later ⟨rfl, rfl, rfl⟩ ⟨rfl, rfl⟩ List.prefix_rfl

theorem play_of_first (hidle : s.player.playing = false) (h : Meets d p s k v)
    (hfirst : ∀ j < k, ∀ v', ¬ Meets d p s j v') (hn : k < n) :
    ∃ t, play d p n s = .ok (some false) t ∧ t.quiet = v.stopped := by
  obtain ⟨i, hcompletes, hbegin, hheard⟩ := h
  obtain ⟨u, hrun, rfl⟩ := run_of_first (t := s.started) (started_follows s) hcompletes hbegin hheard
    (fun j hj i' v' hv' hbegin' hheard' => hfirst j hj v' ⟨i', hv', hbegin', hheard'⟩) hn
  exact ⟨u.stopped, play_of_run hidle hrun, rfl⟩

theorem play_of_none (hidle : s.player.playing = false) (hnone : ∀ k v, ¬ Meets d p s k v) (n : Nat) :
    quieted (play d p n s) = play d p n s.quiet := by
  have hrun := run_of_none (t := s.started) (started_follows s)
    (fun k i v hv hbegin hheard => hnone k v ⟨i, hv, hbegin, hheard⟩) n
  rw [play, whilePlaying_idle _ hidle, whilePlaying_idle (s := s.quiet) _ hidle]
  have hstarted : s.quiet.started = s.started.quiet := rfl
  rw [hstarted, ← hrun]
  cases run d p n 0 s.started <;> rfl

def Cancels (d : Desktop σ ε) (p : Program) (s : Stage σ ε) : Prop :=
  ∃ k a u, Steps d p k 0 s.quiet.started a u ∧ s.Heard u

theorem play_completed_of_none (hidle : s.player.playing = false) (hnone : ∀ k v, ¬ Meets d p s k v)
    (hcancels : Cancels d p s) (hsound : ∀ n e t, play d p n s.quiet ≠ .error e t) :
    ∃ n t, play d p n s = .ok (some true) t := by
  obtain ⟨k, a, w, hsteps, hheard⟩ := hcancels
  obtain ⟨u, rfl, -, -⟩ := steps_of_quiet (t := s.started) (started_follows s) hsteps
    fun j _ i v hv hbegin hheard' => hnone j v ⟨i, hv, hbegin, hheard'⟩
  rcases exists_checkpoint d p a u with ⟨n, v, hover⟩ | ⟨n, e, v, hfails⟩ | ⟨j, i, v, hv, hbegin⟩
  · have hrun : run d p (k + n) 0 s.quiet.started = .ok (some true) v := by
      rw [hsteps.run_eq]
      exact hover
    have hplay := play_of_none hidle hnone (k + n)
    rw [play_of_run (s := s.quiet) hidle hrun] at hplay
    cases hcancelling : play d p (k + n) s with
    | ok r t =>
      rw [hcancelling] at hplay
      exact ⟨k + n, t, by rw [hcancelling, (EStateM.Result.ok.inj hplay).1]⟩
    | error e t =>
      rw [hcancelling] at hplay
      cases hplay
  · have hrun : run d p (k + n) 0 s.quiet.started = .error e v := by
      rw [hsteps.run_eq]
      exact hfails
    exact absurd (play_error_of_run (s := s.quiet) hidle hrun) (hsound _ _ _)
  · obtain ⟨c, hlast⟩ := hv.steps
    have hlater := hlast.follows
    exact absurd ⟨i, hv.after hsteps, hbegin, hheard.mono hlater.sleeps hlater.presses⟩ (hnone (k + j) v)

/-- A play is cancelled by the first instruction that begins no loop and is played to its end when the
token is set. It goes that far as if nobody cancelled, in full, and no further. Without such an instruction
it is the play where nobody cancels. A play in which the token is set ends. -/
theorem play_of_cancel (d : Desktop σ ε) (p : Program) (s : Stage σ ε) (hidle : s.player.playing = false) :
    (∀ k v, Meets d p s k v → (∀ j < k, ∀ v', ¬ Meets d p s j v') →
      ∀ n, k < n → ∃ t, play d p n s = .ok (some false) t ∧ t.quiet = v.stopped) ∧
    ((∀ k v, ¬ Meets d p s k v) →
      (∀ n, quieted (play d p n s) = play d p n s.quiet) ∧
        (Cancels d p s → (∀ n e t, play d p n s.quiet ≠ .error e t) →
          ∃ n t, play d p n s = .ok (some true) t)) ∧
    (∀ n r t, play d p n s = .ok (some r) t →
      ∃ k a u, Steps d p k 0 s.quiet.started a u ∧ t.quiet = u.stopped ∧
        ∀ m b w, Steps d p m a u b w → t.events.toList <+: w.events.toList) ∧
    (Cancels d p s → (∀ n e t, play d p n s.quiet ≠ .error e t) →
      ∃ n r t, play d p n s = .ok (some r) t) := by
  refine ⟨fun k v h hfirst n hn => play_of_first hidle h hfirst hn, fun hnone =>
    ⟨play_of_none hidle hnone, play_completed_of_none hidle hnone⟩, ?_, ?_⟩
  · intro n r t hplay
    obtain ⟨u, hrun, rfl⟩ := run_of_play hidle hplay
    obtain ⟨k, a, hsteps⟩ := steps_of_run hrun
    exact ⟨k, a, u.quiet, hsteps, rfl, fun m b w hrest => hrest.follows.events⟩
  · intro hcancels hsound
    classical
    by_cases hmeets : ∃ k v, Meets d p s k v
    · obtain ⟨v, hv⟩ := Nat.find_spec hmeets
      obtain ⟨t, hplay, -⟩ := play_of_first hidle hv
        (fun j hj v' hv' => Nat.find_min hmeets hj ⟨v', hv'⟩) (Nat.lt_succ_self _)
      exact ⟨_, false, t, hplay⟩
    · obtain ⟨n, t, hplay⟩ := play_completed_of_none hidle
        (fun k v hv => hmeets ⟨k, v, hv⟩) hcancels hsound
      exact ⟨n, true, t, hplay⟩

theorem play_of_cancel_at_begin :
    let p : Program := ⟨#[⟨.loopBegin, 0, by decide⟩, ⟨.sleepMs, 7, by decide⟩,
      ⟨.loopEnd, 0, by decide⟩], #[]⟩
    let s : Stage DryRun (List DryRunLine) :=
      (Stage.new (.idle false false (.ofList [])) .fresh).prepare ⟨.cancel, some 1, none⟩
    ∃ t, play DryRun.desktop p 2 s = .ok (some false) t ∧
      t.events = #[.desktop [], .sleep 50, .sleep 7] := by
  intro p s
  have hmeets : Meets DryRun.desktop p s 1 (stageOf (step DryRun.desktop p 1 ⟨.sleepMs, 7, by decide⟩
      (stageOf (step DryRun.desktop p 0 ⟨.loopBegin, 0, by decide⟩ s.quiet.started)))) := by
    refine ⟨_, ⟨1, 2, _, .head rfl rfl (.refl _ _), rfl, rfl⟩, by decide, .inr ⟨.inl rfl, .inl ?_⟩⟩
    exact ⟨1, rfl, by decide, by decide⟩
  have hfirst : ∀ j < 1, ∀ v, ¬ Meets DryRun.desktop p s j v := by
    rintro j hj v ⟨i, ⟨b, c, t, hsteps, hi, hstep⟩, hbegin, -⟩
    obtain rfl : j = 0 := by omega
    cases hsteps
    cases hi
    exact hbegin rfl
  obtain ⟨t, hplay, ht⟩ := (play_of_cancel DryRun.desktop p s rfl).1 1 _ hmeets hfirst 2 (by decide)
  refine ⟨t, hplay, ?_⟩
  have hevents : t.events = t.quiet.events := rfl
  rw [hevents, ht]
  rfl

end Act

end InputScript
