import InputScript.Proofs.Service

namespace InputScript

namespace Stage

variable {σ ε : Type}

@[simp] theorem receive_player (s : Stage σ ε) (signal : Signal) :
    (s.receive signal).player = s.player := by
  unfold receive
  cases signal with
  | cancel => rfl
  | interrupt => cases s.handler <;> rfl

@[simp] theorem countSleep_player (s : Stage σ ε) : s.countSleep.player = s.player := by
  simp only [countSleep, receiveIf]
  split
  · rw [receive_player]
  · rfl

@[simp] theorem countPress_player (s : Stage σ ε) : s.countPress.player = s.player := by
  simp only [countPress, receiveIf]
  split
  · rw [receive_player]
  · rfl

end Stage

namespace Act

variable {σ ε α : Type} {d : Desktop σ ε} {p : Program} {i : Instruction} {c : Call} {cs : List Call}
  {a b n : Nat} {s t u : Stage σ ε}

theorem ask_player (call : σ → Reply σ ε α) {received : Stage σ ε → Stage σ ε}
    (hreceived : ∀ t, (received t).player = t.player) (hs : s.player.playing = true) :
    (stageOf (ask call received s)).player = s.player := by
  simp only [ask, Player.start?, hs, if_true]
  cases (call s.desktop).outcome <;> simp only [stageOf, hreceived]

theorem duration?_player (q : Player) (ms : Int) :
    (q.duration? ms).2 = { q with noise := (q.duration? ms).2.noise } := by
  unfold Player.duration?
  split <;> rfl

theorem perform_player_eq (d : Desktop σ ε) (hc : ∀ ms, c ≠ .sleep ms) (hs : s.player.playing = true) :
    (stageOf (perform d c s)).player = s.player := by
  cases c with
  | trace line => rfl
  | press k => exact ask_player _ Stage.countPress_player hs
  | release k => exact ask_player _ (fun _ => rfl) hs
  | moveTo place => exact ask_player _ (fun _ => rfl) hs
  | flush => exact ask_player _ (fun _ => rfl) hs
  | printPointer overwrite =>
    have h := ask_player d.pointer (fun t => rfl : ∀ t, (id t : Stage σ ε).player = t.player) hs
    simp only [perform, bind, EStateM.bind]
    cases hask : ask d.pointer id s with
    | ok place t =>
      rw [hask] at h
      exact h
    | error e t =>
      rw [hask] at h
      exact h
  | sleep ms => exact absurd rfl (hc ms)

theorem sleep_player (ms : Int) (s : Stage σ ε) : (stageOf (sleep ms s)).player = (s.player.duration? ms).2 := by
  simp only [sleep]
  cases (s.player.duration? ms).1 with
  | none => rfl
  | some lasting => simp only [stageOf, Stage.countSleep_player, Stage.record]

theorem perform_player (d : Desktop σ ε) (c : Call) (hs : s.player.playing = true) :
    ∃ noise, (stageOf (perform d c s)).player = { s.player with noise } := by
  cases c with
  | sleep ms => exact ⟨_, (sleep_player ms s).trans (duration?_player s.player ms)⟩
  | trace | press | release | moveTo | flush | printPointer =>
    exact ⟨s.player.noise, perform_player_eq d (by simp) hs⟩

theorem perform_steady (d : Desktop σ ε) (c : Call) (hs : s.player.playing = true) (h : s.player.Steady) :
    (stageOf (perform d c s)).player.Steady := by
  cases c with
  | sleep ms =>
    have hplayer : (stageOf (perform d (.sleep ms) s)).player = (s.player.duration? ms).2 := sleep_player ms s
    rw [hplayer]
    exact h.drawn ms
  | trace | press | release | moveTo | flush | printPointer => rwa [perform_player_eq d (by simp) hs]

theorem performAll_player (d : Desktop σ ε) (cs : List Call) (hs : s.player.playing = true) :
    ∃ noise, (stageOf (performAll d cs s)).player = { s.player with noise } := by
  induction cs generalizing s with
  | nil => exact ⟨_, rfl⟩
  | cons c cs ih =>
    obtain ⟨noise, hfirst⟩ := perform_player d c hs
    rw [performAll_cons]
    cases h : perform d c s with
    | error e t => exact ⟨noise, by rw [← hfirst, h]⟩
    | ok _ t =>
      have ht : t.player = { s.player with noise } := by rw [← hfirst, h]; rfl
      obtain ⟨noise', hrest⟩ := ih (s := t) (by rw [ht]; exact hs)
      exact ⟨noise', by rw [hrest, ht]⟩

theorem performAll_steady (d : Desktop σ ε) (cs : List Call) (hs : s.player.playing = true) (h : s.player.Steady) :
    (stageOf (performAll d cs s)).player.Steady := by
  induction cs generalizing s with
  | nil => exact h
  | cons c cs ih =>
    have hfirst := perform_steady d c hs h
    obtain ⟨noise, hplayer⟩ := perform_player d c hs
    rw [performAll_cons]
    cases hcalled : perform d c s with
    | error e t => rwa [hcalled] at hfirst
    | ok _ t =>
      rw [hcalled] at hfirst hplayer
      exact ih ((congrArg Player.playing hplayer).trans hs) hfirst

theorem playing_of_perform (h : perform d c s = .ok () t) (hs : s.player.playing = true) : t.player.playing = true := by
  obtain ⟨noise, hplayer⟩ := perform_player d c hs
  rw [h] at hplayer
  exact (congrArg Player.playing hplayer).trans hs

theorem step_player (d : Desktop σ ε) (p : Program) (a : Nat) (i : Instruction)
    (hs : s.player.playing = true) :
    ∃ noise, (stageOf (step d p a i s)).player =
      { s.player with noise, loops := (followLoops i (a + 1) s.player.loops).2 } := by
  obtain ⟨noise, h⟩ := performAll_player d (p.calls i) (s := s.enter p a i)
    (by rw [Stage.enter_player]; exact hs)
  rw [Stage.enter_player] at h
  exact ⟨noise, by rw [stageOf_step, h]⟩

theorem playing_of_step {progress : Progress} (h : step d p a i s = .ok progress t) (hs : s.player.playing = true) :
    t.player.playing = true := by
  obtain ⟨noise, hplayer⟩ := step_player d p a i hs
  rw [h] at hplayer
  exact (congrArg Player.playing hplayer).trans hs

theorem Steps.player (h : Steps d p n a s b t) (hs : s.player.playing = true) :
    ∃ noise loops, t.player = { s.player with noise, loops } := by
  apply h.invariant (P := fun _ u => ∃ noise loops, u.player = { s.player with noise, loops }) _ ⟨_, _, rfl⟩
  rintro a b i u v - hstep ⟨noise, loops, hu⟩
  obtain ⟨noise', hplayer⟩ := step_player d p a i (s := u) (by rw [hu]; exact hs)
  rw [hstep, hu] at hplayer
  exact ⟨noise', _, hplayer⟩

theorem Steps.playing (h : Steps d p n a s b t) (hs : s.player.playing = true) : t.player.playing = true := by
  obtain ⟨noise, loops, hplayer⟩ := h.player hs
  rw [hplayer]
  exact hs

theorem Steps.steady (h : Steps d p n a s b t) (hs : s.player.playing = true) (hsteady : s.player.Steady) :
    t.player.Steady := by
  have hboth := h.invariant (P := fun _ u => u.player.playing = true ∧ u.player.Steady) ?_ ⟨hs, hsteady⟩
  · exact hboth.2
  · rintro a b i u v - hstep ⟨hu, hsteady⟩
    have hcalls := performAll_steady d (p.calls i) (s := u.enter p a i) (by rw [Stage.enter_player]; exact hu)
      (by rw [Stage.enter_player]; exact hsteady)
    rw [← stageOf_step, hstep] at hcalls
    exact ⟨playing_of_step hstep hu, hcalls⟩

theorem address_of_step (h : step d p a i s = .ok (.next b) t) :
    b = (followLoops i (a + 1) s.player.loops).1 := by
  rw [step_eq] at h
  split at h
  · simp only [EStateM.Result.ok.injEq] at h
    obtain ⟨hnext, -⟩ := h
    split at hnext <;> simp_all
  · simp at h

def Reaches (d : Desktop σ ε) (p : Program) (s : Stage σ ε) (a : Nat) (t : Stage σ ε) : Prop :=
  s.player.playing = false ∧ ∃ n, Steps d p n 0 s.started a t

theorem Steps.nested (h : Steps d p n a s b t) (hs : s.player.playing = true)
    (hloops : p.Nested a s.player.loops) : t.player.playing = true ∧ p.Nested b t.player.loops := by
  apply h.invariant (P := fun a s => s.player.playing = true ∧ p.Nested a s.player.loops) _ ⟨hs, hloops⟩
  rintro a b i s t hi hstep ⟨hplaying, hnested⟩
  obtain ⟨noise, hplayer⟩ := step_player d p a i hplaying
  rw [hstep] at hplayer
  simp only [stageOf] at hplayer
  rw [address_of_step hstep, hplayer]
  exact ⟨hplaying, hnested.follow hi⟩

theorem Reaches.nested (h : Reaches d p s a t) :
    t.player.playing = true ∧ p.Nested a t.player.loops := by
  obtain ⟨-, n, hsteps⟩ := h
  exact hsteps.nested rfl p.nested_start

/-- Where a play comes to an address, the frames have as targets the starts of the loops that are open
there. A frame goes on for ever where its begin does, and counts from the operand of its begin
otherwise. From there the play goes on to the next address or back to the start of the loop that
ends there; the same holds where it is cancelled or fails on the way. -/
theorem loops_of_reaches (h : Reaches d p s a t) :
    t.player.loops.reverse.map Frame.target = (p.openLoops a).reverse.map (· + 1) ∧
      (p.openLoops a).reverse.Pairwise (· < ·) ∧
      (∀ frame ∈ t.player.loops, ∃ i, p.instructions[frame.target - 1]? = some i ∧
        i.opcode = .loopBegin ∧ (frame.remaining = 0 ↔ i.operand = 0) ∧
        (frame.remaining ≠ 0 → 1 ≤ frame.remaining ∧ frame.remaining ≤ i.operand)) ∧
      ∀ i, p.instructions[a]? = some i →
        (∀ b u, step d p a i t = .ok (.next b) u →
          b = a + 1 ∨ ∃ c, p.matching? a = some c ∧ b = c + 1 ∧ b ≤ a) ∧
        p.Nested (followLoops i (a + 1) t.player.loops).1 (stageOf (step d p a i t)).player.loops := by
  obtain ⟨hplaying, hnested⟩ := h.nested
  refine ⟨?_, List.pairwise_reverse.mpr (p.openLoops_sorted a), ?_, ?_⟩
  · rw [List.map_reverse, List.map_reverse, Program.targets_of_fits hnested]
  · intro frame hframe
    obtain ⟨b, hfits⟩ := Program.fits_of_mem hnested hframe
    obtain ⟨i, hi, hbegin, hzero, hle⟩ := hfits.counts
    refine ⟨i, ?_, hbegin, hzero, fun hne => ⟨Nat.one_le_iff_ne_zero.mpr hne, hle⟩⟩
    rw [hfits.target_eq]
    exact hi
  · intro i hi
    constructor
    · intro b u hstep
      rw [address_of_step hstep]
      rcases hnested.follow_address hi with hnext | ⟨c, hc, hback⟩
      · exact Or.inl hnext
      · refine Or.inr ⟨c, hc, hback, ?_⟩
        have := (Program.matching?_lt hc).1
        omega
    · obtain ⟨noise, hplayer⟩ := step_player d p a i hplaying
      rw [hplayer]
      exact hnested.follow hi

theorem loops_of_second_pass :
    let p : Program := ⟨#[⟨.loopEnd, 5, by decide⟩, ⟨.loopBegin, 2, by decide⟩,
      ⟨.loopEnd, 0, by decide⟩], #[]⟩
    let s : Stage DryRun (List DryRunLine) := .new (.idle false true (.ofList [])) .fresh
    ∃ t, Reaches DryRun.desktop p s 2 t ∧ t.player.loops = [⟨2, 1⟩] ∧
      t.player.loops.reverse.map Frame.target = (p.openLoops 2).reverse.map (· + 1) := by
  intro p s
  have hleads : p.Leads (0, []) (2, [⟨2, 1⟩]) :=
    .head (b := (1, [])) rfl (.head (b := (2, [⟨2, 2⟩])) rfl (.single rfl))
  obtain ⟨n, t, hsteps, -, hloops⟩ :=
    steps_calm DryRun.serves (Stage.calm_new trivial true (.ofList [])).started hleads
  have h : Reaches DryRun.desktop p s 2 t := ⟨rfl, n, hsteps⟩
  exact ⟨t, h, hloops, (loops_of_reaches h).1⟩

end Act

end InputScript
