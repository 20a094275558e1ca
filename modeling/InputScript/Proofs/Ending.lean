import InputScript.Proofs.LoopStack

/-!
When a play ends. Nothing but an end that matches a begin without a count can keep it from ending, and
once such an end is in the program, the play never gets past it.
-/

namespace InputScript

namespace Program

variable {p : Program} {a b c : Nat} {frame : Frame} {outer loops : List Frame}

def ClosesEndlessLoop (p : Program) : Prop :=
  ∃ b c i, p.matching? c = some b ∧ p.instructions[b]? = some i ∧ i.operand = 0

theorem Nested.target_le (h : p.Nested a (frame :: outer)) : frame.target ≤ a := by
  obtain ⟨b, rest, hfits, -, hopen⟩ := nested_cons.mp h
  have hb : b ∈ p.openLoops a := by rw [hopen]; exact List.mem_cons_self
  have := lt_of_mem_openLoops hb
  rw [hfits.target_eq]
  omega

theorem Nested.counts (h : p.Nested a (frame :: outer)) (hp : ¬ p.ClosesEndlessLoop) {i : Instruction}
    (hi : p.instructions[a]? = some i) (hend : i.opcode = .loopEnd) : frame.remaining ≠ 0 := by
  intro hzero
  obtain ⟨b, hmatch, hfits⟩ := h.matching hi hend
  obtain ⟨j, hj, -, hiff, -⟩ := hfits.counts
  exact hp ⟨b, a, j, hmatch, hj, hiff.mp hzero⟩

def LeadsOut (p : Program) (x : Nat × List Frame) : Prop :=
  ∃ y, p.Leads x y ∧ p.size ≤ y.1

theorem follow?_eq_some {i : Instruction} (hi : p.instructions[a]? = some i) :
    p.follow? (a, loops) = some (followLoops i (a + 1) loops) := by
  simp only [follow?, hi, Option.map_some]

theorem LeadsOut.head {i : Instruction} (hi : p.instructions[a]? = some i)
    (h : p.LeadsOut (followLoops i (a + 1) loops)) : p.LeadsOut (a, loops) := by
  obtain ⟨y, hy, hsize⟩ := h
  exact ⟨y, .head (follow?_eq_some hi) hy, hsize⟩

theorem Leads.leadsOut {x y : Nat × List Frame} (h : p.Leads x y) (hy : p.LeadsOut y) : p.LeadsOut x := by
  obtain ⟨z, hz, hsize⟩ := hy
  exact ⟨z, h.trans hz, hsize⟩

def Leaves (p : Program) (x : Nat × List Frame) (target : Nat) (outer : List Frame) : Prop :=
  p.LeadsOut x ∨ ∃ b, target ≤ b ∧ p.Leads x (b, outer)

theorem Leaves.head {i : Instruction} {target : Nat} (hi : p.instructions[a]? = some i)
    (h : p.Leaves (followLoops i (a + 1) loops) target outer) : p.Leaves (a, loops) target outer := by
  rcases h with hout | ⟨b, hb, hleads⟩
  · exact .inl (hout.head hi)
  · exact .inr ⟨b, hb, .head (follow?_eq_some hi) hleads⟩

theorem Leads.leaves {x y : Nat × List Frame} {target : Nat} (h : p.Leads x y)
    (hy : p.Leaves y target outer) : p.Leaves x target outer := by
  rcases hy with hout | ⟨b, hb, hleads⟩
  · exact .inl (h.leadsOut hout)
  · exact .inr ⟨b, hb, h.trans hleads⟩

theorem leaves_loop (hp : ¬ p.ClosesEndlessLoop) (a : Nat) (frame : Frame) (outer : List Frame)
    (h : p.Nested a (frame :: outer)) : p.Leaves (a, frame :: outer) frame.target outer := by
  cases hi : p.instructions[a]? with
  | none => exact .inl ⟨_, .refl, Array.getElem?_eq_none_iff.mp hi⟩
  | some i =>
    have ha : a < p.size := (Array.getElem?_eq_some_iff.mp hi).1
    have htarget := h.target_le
    have hnext := h.follow hi
    apply Leaves.head hi
    by_cases hbegin : i.opcode = .loopBegin
    · rw [followLoops_begin hbegin] at hnext ⊢
      -- The inner loop is left first, behind its begin, and then the loop itself from there.
      rcases leaves_loop hp (a + 1) ⟨a + 1, i.operand⟩ (frame :: outer) hnext with hout | ⟨c, hc, hleads⟩
      · exact .inl hout
      · change a + 1 ≤ c at hc
        exact hleads.leaves (leaves_loop hp c frame outer (hleads.nested hnext))
    · by_cases hend : i.opcode = .loopEnd
      · have hcounts := h.counts hp hi hend
        rw [followLoops_end hend] at hnext ⊢
        by_cases hlast : frame.remaining = 1
        · have hplace : endLoop (a + 1) (frame :: outer) = (a + 1, outer) := by simp [endLoop, hlast]
          rw [hplace]
          exact .inr ⟨a + 1, by omega, .refl⟩
        · have hplace : endLoop (a + 1) (frame :: outer) =
              (frame.target, ⟨frame.target, frame.remaining - 1⟩ :: outer) := by
            simp [endLoop, hlast, hcounts]
          rw [hplace] at hnext ⊢
          exact leaves_loop hp frame.target ⟨frame.target, frame.remaining - 1⟩ outer hnext
      · rw [followLoops_plain hbegin hend] at hnext ⊢
        exact leaves_loop hp (a + 1) frame outer hnext
termination_by (p.size + 1 - frame.target, frame.remaining, p.size - a)
decreasing_by
  · exact Prod.Lex.left _ _ (by omega)
  · exact Prod.Lex.right _ (Prod.Lex.right _ (by omega))
  · exact Prod.Lex.right _ (Prod.Lex.left _ _ (by omega))
  · exact Prod.Lex.right _ (Prod.Lex.right _ (by omega))

theorem leadsOut_of_nested (hp : ¬ p.ClosesEndlessLoop) (a : Nat) (h : p.Nested a []) :
    p.LeadsOut (a, []) := by
  cases hi : p.instructions[a]? with
  | none => exact ⟨_, .refl, Array.getElem?_eq_none_iff.mp hi⟩
  | some i =>
    have ha : a < p.size := (Array.getElem?_eq_some_iff.mp hi).1
    have hnext := h.follow hi
    apply LeadsOut.head hi
    by_cases hbegin : i.opcode = .loopBegin
    · rw [followLoops_begin hbegin] at hnext ⊢
      rcases leaves_loop hp (a + 1) ⟨a + 1, i.operand⟩ [] hnext with hout | ⟨b, hb, hleads⟩
      · exact hout
      · change a + 1 ≤ b at hb
        exact hleads.leadsOut (leadsOut_of_nested hp b (hleads.nested hnext))
    · have hplace : followLoops i (a + 1) [] = (a + 1, []) := by
        by_cases hend : i.opcode = .loopEnd
        · rw [followLoops_end hend, endLoop]
        · rw [followLoops_plain hbegin hend]
      rw [hplace] at hnext ⊢
      exact leadsOut_of_nested hp (a + 1) hnext
termination_by p.size - a

theorem Leads.le_size {x y : Nat × List Frame} (h : p.Leads x y) (hnested : p.Nested x.1 x.2)
    (hx : x.1 ≤ p.size) : y.1 ≤ p.size := by
  induction h with
  | refl => exact hx
  | tail hleads hfollow _ =>
    obtain ⟨i, hi, rfl⟩ := Option.map_eq_some_iff.mp hfollow
    rcases (Leads.nested hleads hnested).follow_address hi with hnext | ⟨b, hb, hback⟩
    · rw [hnext]
      exact (Array.getElem?_eq_some_iff.mp hi).1
    · have := matching?_lt hb
      omega

theorem leads_to_end (hopen : p.openLoops p.size = []) (hcounted : ¬ p.ClosesEndlessLoop) :
    p.Leads (0, []) (p.size, []) := by
  obtain ⟨⟨b, loops⟩, hleads, hover⟩ := leadsOut_of_nested hcounted 0 p.nested_start
  have hnested := hleads.nested p.nested_start
  have hb : b = p.size := Nat.le_antisymm (hleads.le_size p.nested_start (Nat.zero_le _)) hover
  subst hb
  have hloops : loops = [] := by
    rw [Nested, hopen] at hnested
    exact List.forall₂_nil_right_iff.mp hnested
  rwa [hloops] at hleads

theorem Nested.follow_le (h : p.Nested a loops) {i j : Instruction}
    (hi : p.instructions[a]? = some i) (hmatch : p.matching? c = some b)
    (hj : p.instructions[b]? = some j) (hzero : j.operand = 0) (ha : a ≤ c) :
    (followLoops i (a + 1) loops).1 ≤ c := by
  rcases h.follow_address hi with hnext | ⟨b', hb', hback⟩
  · by_cases hac : a = c
    · subst hac
      obtain ⟨i', hi', hend, hhead⟩ := matching?_eq_some.mp hmatch
      obtain rfl : i = i' := Option.some.inj (hi.symm.trans hi')
      cases loops with
      | nil =>
        rw [nested_nil.mp h] at hhead
        cases hhead
      | cons frame outer =>
        obtain ⟨b', hmatch', hfits⟩ := h.matching hi hend
        obtain rfl : b = b' := Option.some.inj (hmatch.symm.trans hmatch')
        obtain ⟨j', hj', -, hiff, -⟩ := hfits.counts
        obtain rfl : j = j' := Option.some.inj (hj.symm.trans hj')
        have hplace : (followLoops i (a + 1) (frame :: outer)).1 = frame.target := by
          rw [followLoops_end hend, endLoop, if_pos (hiff.mpr hzero)]
        have := (matching?_lt hmatch).1
        have := hfits.target_eq
        omega
    · omega
  · have := (matching?_lt hb').1
    omega

end Program

namespace Act

variable {σ ε : Type} {d : Desktop σ ε} {I : σ → Prop} {p : Program} {s : Stage σ ε}

theorem steps_of_closesEndlessLoop (hd : d.Serves I) (hs : s.Calm I) (hplaying : s.player.playing = true)
    (hloops : s.player.loops = []) (hp : p.ClosesEndlessLoop) (n : Nat) :
    ∃ a t, a < p.size ∧ Steps d p n 0 s a t := by
  obtain ⟨b, c, j, hmatch, hj, hzero⟩ := hp
  have hc := (Program.matching?_lt hmatch).2
  suffices h : ∃ a t, a ≤ c ∧ Steps d p n 0 s a t ∧ t.Calm I by
    obtain ⟨a, t, ha, hsteps, -⟩ := h
    exact ⟨a, t, by omega, hsteps⟩
  induction n with
  | zero => exact ⟨0, s, Nat.zero_le c, .refl 0 s, hs⟩
  | succ n ih =>
    obtain ⟨a, t, ha, hsteps, ht⟩ := ih
    obtain ⟨i, hi⟩ := p.exists_instruction (show a < p.size by omega)
    obtain ⟨-, hnested⟩ := hsteps.nested hplaying (by rw [hloops]; exact p.nested_start)
    obtain ⟨u, hstep, hu, -, -⟩ := step_calm hd p a i ht
    exact ⟨_, u, hnested.follow_le hi hmatch hj hzero ha,
      hsteps.trans (.head hi hstep (.refl _ u)), hu⟩

theorem play_calm (hd : d.Serves I) (p : Program) (hs : s.Calm I)
    (hidle : s.player.playing = false) (n : Nat) : ∃ r t, play d p n s = .ok r t := by
  have hrun (n a : Nat) {t : Stage σ ε} (ht : t.Calm I) : ∃ r u, run d p n a t = .ok r u := by
    induction n generalizing a t with
    | zero =>
      cases hi : p.instructions[a]? with
      | none => exact ⟨_, _, run_over hi⟩
      | some i => exact ⟨_, _, run_zero hi⟩
    | succ n ih =>
      cases hi : p.instructions[a]? with
      | none => exact ⟨_, _, run_over hi⟩
      | some i =>
        obtain ⟨u, hstep, hu, -⟩ := step_calm hd p a i ht
        rw [run_succ hi, hstep]
        exact ih _ hu
  obtain ⟨r, u, hu⟩ := hrun n 0 hs.started
  exact ⟨r, u.stopped, play_of_run hidle hu⟩

theorem play_of_leads {loops : List Frame} (hd : d.Serves I) (hs : s.Calm I)
    (hidle : s.player.playing = false) (h : p.Leads (0, []) (p.size, loops)) :
    ∃ n t, play d p n s = .ok (some true) t ∧ t.Calm I ∧ t.player.loops = loops ∧ t.player.playing = false := by
  obtain ⟨n, t, hsteps, ht, hloops⟩ := steps_calm hd hs.started h
  have hrun : run d p n 0 s.started = .ok (some true) t := by
    rw [← Nat.add_zero n, hsteps.run_eq]
    exact run_over (Array.getElem?_eq_none_iff.mpr (Nat.le_refl _))
  have hstopped : t.stopped.Calm I :=
    ht.later ht.desktop ⟨rfl, rfl, rfl⟩ ⟨Nat.le_refl _, Nat.le_refl _⟩ ht.steady
  exact ⟨n, t.stopped, play_of_run hidle hrun, hstopped, hloops, rfl⟩

/-- An undisturbed play ends after finitely many instructions, unless the begin of a loop that goes on
for ever has its end. Otherwise instructions of the program are played on and on. -/
theorem play_ends_iff (hd : d.Serves I) (p : Program) (hs : s.Calm I) (hidle : s.player.playing = false) :
    ((∃ fuel t, play d p fuel s = .ok (some true) t) ↔ ¬ p.ClosesEndlessLoop) ∧
      (p.ClosesEndlessLoop → ∀ n, (∃ a t, a < p.size ∧ Steps d p n 0 s.started a t) ∧
        ∃ t, play d p n s = .ok none t) := by
  have hforever (hp : p.ClosesEndlessLoop) (n : Nat) :
      (∃ a t, a < p.size ∧ Steps d p n 0 s.started a t) ∧ ∃ t, play d p n s = .ok none t := by
    obtain ⟨a, t, ha, hsteps⟩ := steps_of_closesEndlessLoop hd hs.started rfl rfl hp n
    have hrun : run d p n 0 s.started = .ok none t := by
      rw [← Nat.add_zero n, hsteps.run_eq]
      exact run_zero (Array.getElem?_eq_getElem ha)
    exact ⟨⟨a, t, ha, hsteps⟩, t.stopped, play_of_run hidle hrun⟩
  refine ⟨⟨?_, ?_⟩, hforever⟩
  · rintro ⟨fuel, t, hplay⟩ hp
    obtain ⟨-, u, hnone⟩ := hforever hp fuel
    rw [hplay] at hnone
    cases hnone
  · intro hp
    obtain ⟨place, hleads, hsize⟩ := Program.leadsOut_of_nested hp 0 p.nested_start
    obtain ⟨n, t, hsteps, -, -⟩ := steps_calm hd hs.started hleads
    have hrun : run d p n 0 s.started = .ok (some true) t := by
      rw [← Nat.add_zero n, hsteps.run_eq]
      exact run_over (Array.getElem?_eq_none_iff.mpr hsize)
    exact ⟨n, t.stopped, play_of_run hidle hrun⟩

theorem plays_of_open_and_closed_loop :
    let s : Stage DryRun (List DryRunLine) := .new (.idle false true (.ofList [])) .fresh
    let unclosed : Program := ⟨#[⟨.loopBegin, 2, by decide⟩, ⟨.sleepMs, 7, by decide⟩,
      ⟨.loopEnd, 0, by decide⟩, ⟨.loopBegin, 0, by decide⟩], #[]⟩
    let closed : Program := ⟨#[⟨.loopBegin, 0, by decide⟩, ⟨.sleepMs, 7, by decide⟩,
      ⟨.loopEnd, 0, by decide⟩], #[]⟩
    (∃ fuel t, play DryRun.desktop unclosed fuel s = .ok (some true) t) ∧
      ∀ n, ∃ t, play DryRun.desktop closed n s = .ok none t := by
  intro s unclosed closed
  have hs : s.Calm fun _ => True := Stage.calm_new trivial true (.ofList [])
  constructor
  · apply (play_ends_iff DryRun.serves unclosed hs rfl).1.mpr
    rintro ⟨b, c, i, hmatch, hi, hzero⟩
    have hc : c < 4 := (Program.matching?_lt hmatch).2
    have hc' : c = 2 := by
      by_contra hne
      obtain rfl | rfl | rfl : c = 0 ∨ c = 1 ∨ c = 3 := by omega
      all_goals cases hmatch
    subst hc'
    cases hmatch
    cases hi
    cases hzero
  · intro n
    have hclosed : closed.ClosesEndlessLoop := ⟨0, 2, ⟨.loopBegin, 0, by decide⟩, rfl, rfl, rfl⟩
    exact ((play_ends_iff DryRun.serves closed hs rfl).2 hclosed n).2

end Act

end InputScript
