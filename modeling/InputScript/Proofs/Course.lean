import InputScript.Play.Run

namespace InputScript

namespace Stage

variable {σ ε : Type}

def withLoops (s : Stage σ ε) (loops : List Frame) : Stage σ ε :=
  { s with player := { s.player with loops } }

def started (s : Stage σ ε) : Stage σ ε :=
  { s with player := { s.player with playing := true, loops := [] } }

def stopped (s : Stage σ ε) : Stage σ ε :=
  { s with player := s.player.stop }

def traced (s : Stage σ ε) (p : Program) (address : Nat) (i : Instruction) : Stage σ ε :=
  if s.player.tracing then s.record (.trace (p.traceLine address i)) else s

def enter (s : Stage σ ε) (p : Program) (address : Nat) (i : Instruction) : Stage σ ε :=
  (s.traced p address i).withLoops (followLoops i (address + 1) s.player.loops).2

@[simp] theorem traced_player (s : Stage σ ε) (p : Program) (a : Nat) (i : Instruction) :
    (s.traced p a i).player = s.player := by
  unfold traced
  split <;> rfl

@[simp] theorem enter_player (s : Stage σ ε) (p : Program) (a : Nat) (i : Instruction) :
    (s.enter p a i).player = { s.player with loops := (followLoops i (a + 1) s.player.loops).2 } := by
  simp only [enter, withLoops, traced_player]

end Stage

namespace Act

variable {σ ε α : Type} {d : Desktop σ ε} {p : Program} {i : Instruction}
  {a b n m : Nat} {s t u : Stage σ ε}

def stageOf : EStateM.Result Failure (Stage σ ε) α → Stage σ ε
  | .ok _ s => s
  | .error _ s => s

theorem performAll_cons_eq (d : Desktop σ ε) (c : Call) (cs : List Call) :
    performAll d (c :: cs) = (do perform d c; performAll d cs) := by
  simp only [performAll, List.forM_eq_forM, List.forM_cons]

theorem performAll_cons (d : Desktop σ ε) (c : Call) (cs : List Call) (s : Stage σ ε) :
    performAll d (c :: cs) s =
      match perform d c s with
      | .ok _ t => performAll d cs t
      | .error e t => .error e t := by
  rw [performAll_cons_eq]
  simp only [bind, EStateM.bind]
  cases perform d c s <;> rfl

theorem performAll_append (d : Desktop σ ε) (cs ds : List Call) (s : Stage σ ε) :
    performAll d (cs ++ ds) s =
      match performAll d cs s with
      | .ok _ t => performAll d ds t
      | .error e t => .error e t := by
  induction cs generalizing s with
  | nil => rfl
  | cons c cs ih =>
    rw [List.cons_append, performAll_cons, performAll_cons]
    cases perform d c s with
    | ok _ t => exact ih t
    | error e t => rfl

theorem step_eq (d : Desktop σ ε) (p : Program) (a : Nat) (i : Instruction) (s : Stage σ ε) :
    step d p a i s =
      match performAll d (p.calls i) (s.enter p a i) with
      | .ok _ t =>
        .ok (if i.opcode ≠ .loopBegin ∧ t.cancelled then .cancelled
          else .next (followLoops i (a + 1) s.player.loops).1) t
      | .error e t => .error e t := by
  have htrace : trace p a i s = .ok () (s.traced p a i) := by
    change (if s.player.tracing = true then record (.trace (p.traceLine a i)) else pure ()) s = _
    unfold Stage.traced
    split <;> rfl
  have hfollow : follow i (a + 1) (s.traced p a i) =
      .ok (followLoops i (a + 1) s.player.loops).1 (s.enter p a i) := by
    have h (t : Stage σ ε) : follow i (a + 1) t = .ok (followLoops i (a + 1) t.player.loops).1
        (t.withLoops (followLoops i (a + 1) t.player.loops).2) := rfl
    rw [h, Stage.traced_player]
    rfl
  simp only [step, bind, EStateM.bind, htrace, hfollow]
  cases performAll d (p.calls i) (s.enter p a i) with
  | ok _ t =>
    let stops := i.opcode ≠ .loopBegin ∧ t.cancelled = true
    let next := (followLoops i (a + 1) s.player.loops).1
    change (if stops then pure .cancelled else pure (.next next) : Act σ ε Progress) t =
      .ok (if stops then .cancelled else .next next) t
    by_cases hstops : stops
    · rw [if_pos hstops, if_pos hstops]
      rfl
    · rw [if_neg hstops, if_neg hstops]
      rfl
  | error e t => rfl

theorem stageOf_step (d : Desktop σ ε) (p : Program) (a : Nat) (i : Instruction) (s : Stage σ ε) :
    stageOf (step d p a i s) = stageOf (performAll d (p.calls i) (s.enter p a i)) := by
  rw [step_eq]
  cases performAll d (p.calls i) (s.enter p a i) <;> rfl

theorem run_over (h : p.instructions[a]? = none) : run d p n a s = .ok (some true) s := by
  unfold run
  rw [h]
  rfl

theorem run_zero (h : p.instructions[a]? = some i) : run d p 0 a s = .ok none s := by
  unfold run
  rw [h]
  rfl

theorem run_succ (h : p.instructions[a]? = some i) :
    run d p (n + 1) a s =
      match step d p a i s with
      | .ok (.next b) t => run d p n b t
      | .ok .cancelled t => .ok (some false) t
      | .error e t => .error e t := by
  rw [run, h]
  simp only [bind, EStateM.bind]
  cases step d p a i s with
  | ok progress t => cases progress <;> rfl
  | error e t => rfl

inductive Steps (d : Desktop σ ε) (p : Program) : Nat → Nat → Stage σ ε → Nat → Stage σ ε → Prop
  | refl (a : Nat) (s : Stage σ ε) : Steps d p 0 a s a s
  | head {n a b c : Nat} {i : Instruction} {s t u : Stage σ ε} (hi : p.instructions[a]? = some i)
      (hstep : step d p a i s = .ok (.next b) t) (hrest : Steps d p n b t c u) :
      Steps d p (n + 1) a s c u

theorem Steps.trans {c : Nat} (h : Steps d p n a s b t) (h' : Steps d p m b t c u) :
    Steps d p (n + m) a s c u := by
  induction h with
  | refl => rwa [Nat.zero_add]
  | head hi hstep _ ih =>
    rw [Nat.add_right_comm]
    exact .head hi hstep (ih h')

theorem Steps.run_eq (h : Steps d p n a s b t) (m : Nat) :
    run d p (n + m) a s = run d p m b t := by
  induction h with
  | refl => rw [Nat.zero_add]
  | head hi hstep _ ih =>
    rw [Nat.add_right_comm, run_succ hi, hstep]
    exact ih

theorem Steps.invariant {P : Nat → Stage σ ε → Prop}
    (hP : ∀ {a b : Nat} {i : Instruction} {s t : Stage σ ε}, p.instructions[a]? = some i →
      step d p a i s = .ok (.next b) t → P a s → P b t)
    (h : Steps d p n a s b t) (hs : P a s) : P b t := by
  induction h with
  | refl => exact hs
  | head hi hstep _ ih => exact ih (hP hi hstep hs)

theorem run_cases (d : Desktop σ ε) (p : Program) (n a : Nat) (s : Stage σ ε) :
    ∃ m b t, m ≤ n ∧ Steps d p m a s b t ∧
      ((m = n ∧ b < p.size ∧ run d p n a s = .ok none t) ∨
        (p.size ≤ b ∧ run d p n a s = .ok (some true) t) ∨
        ∃ i u, p.instructions[b]? = some i ∧
          ((step d p b i t = .ok .cancelled u ∧ run d p n a s = .ok (some false) u) ∨
            ∃ e, step d p b i t = .error e u ∧ run d p n a s = .error e u)) := by
  induction n generalizing a s with
  | zero =>
    cases h : p.instructions[a]? with
    | none => exact ⟨0, a, s, Nat.le_refl 0, .refl a s, .inr (.inl
        ⟨Array.getElem?_eq_none_iff.mp h, run_over h⟩)⟩
    | some i => exact ⟨0, a, s, Nat.le_refl 0, .refl a s, .inl
        ⟨rfl, (Array.getElem?_eq_some_iff.mp h).1, run_zero h⟩⟩
  | succ n ih =>
    cases h : p.instructions[a]? with
    | none => exact ⟨0, a, s, Nat.zero_le _, .refl a s, .inr (.inl
        ⟨Array.getElem?_eq_none_iff.mp h, run_over h⟩)⟩
    | some i =>
      rw [run_succ h]
      cases hstep : step d p a i s with
      | error e t => exact ⟨0, a, s, Nat.zero_le _, .refl a s, .inr (.inr
          ⟨i, t, h, .inr ⟨e, hstep, rfl⟩⟩)⟩
      | ok progress t =>
        cases progress with
        | cancelled => exact ⟨0, a, s, Nat.zero_le _, .refl a s, .inr (.inr
            ⟨i, t, h, .inl ⟨hstep, rfl⟩⟩)⟩
        | next b =>
          obtain ⟨m, c, u, hm, hsteps, hend⟩ := ih b t
          refine ⟨m + 1, c, u, by omega, .head h hstep hsteps, ?_⟩
          simpa only [Nat.add_right_cancel_iff] using hend

theorem whilePlaying_idle (body : Act σ ε α) (hs : s.player.playing = false) :
    whilePlaying body s =
      match body s.started with
      | .ok r u => .ok r u.stopped
      | .error e u => .error e u.stopped := by
  simp only [whilePlaying, Player.start?, hs, Bool.false_eq_true, if_false]
  rfl

theorem play_busy (hs : s.player.playing = true) : play d p n s = .error .alreadyPlaying s := by
  simp only [play, whilePlaying, Player.start?, hs, if_true]

theorem play_of_run {r : Option Bool} (hs : s.player.playing = false)
    (h : run d p n 0 s.started = .ok r u) : play d p n s = .ok r u.stopped := by
  rw [play, whilePlaying_idle _ hs, h]

theorem play_error_of_run {e : Failure} (hs : s.player.playing = false)
    (h : run d p n 0 s.started = .error e u) : play d p n s = .error e u.stopped := by
  rw [play, whilePlaying_idle _ hs, h]

theorem run_of_play {r : Option Bool} (hs : s.player.playing = false) (h : play d p n s = .ok r t) :
    ∃ u, run d p n 0 s.started = .ok r u ∧ t = u.stopped := by
  rw [play, whilePlaying_idle _ hs] at h
  cases hrun : run d p n 0 s.started with
  | ok r' u =>
    rw [hrun] at h
    obtain ⟨rfl, rfl⟩ := EStateM.Result.ok.inj h
    exact ⟨u, rfl, rfl⟩
  | error e u =>
    rw [hrun] at h
    cases h

end Act

end InputScript
