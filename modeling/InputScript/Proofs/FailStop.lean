import InputScript.Proofs.Jitter
import InputScript.Proofs.WholePlays

namespace InputScript

def Outcome.raised? {α : Type} : Outcome α → Option Failure
  | done _ => none
  | failed e => some (.desktop e)
  | replays _ => some .alreadyPlaying

def Reply.Raises {σ ε α : Type} (r : Reply σ ε α) (e : Failure) (y : σ) (last : List ε) : Prop :=
  r.outcome.raised? = some e ∧ r.state = y ∧ r.emitted = last

namespace Desktop

variable {σ ε : Type}

def Raises (d : Desktop σ ε) (x : σ) (c : Call) (e : Failure) (y : σ) (last : List ε) : Prop :=
  match c with
  | .press k => (d.press k x).Raises e y last
  | .release k => (d.release k x).Raises e y last
  | .moveTo place => (d.moveTo place x).Raises e y last
  | .printPointer _ => (d.pointer x).Raises e y last
  | .flush => (d.flush x).Raises e y last
  | .trace _ | .sleep _ => False

/-- Where a call of `d` does not raise, `d'` replies as `d` does. -/
structure Mends (d' d : Desktop σ ε) : Prop where
  press : ∀ k x, (d.press k x).outcome.raised? = none → d'.press k x = d.press k x
  release : ∀ k x, (d.release k x).outcome.raised? = none → d'.release k x = d.release k x
  moveTo : ∀ place x, (d.moveTo place x).outcome.raised? = none → d'.moveTo place x = d.moveTo place x
  pointer : ∀ x, (d.pointer x).outcome.raised? = none → d'.pointer x = d.pointer x
  flush : ∀ x, (d.flush x).outcome.raised? = none → d'.flush x = d.flush x

end Desktop

theorem Player.isSome_duration? {q : Player} {ms : Int}
    (h : q.randomSleep = true → 0 < ms → (Random.deviation? ms q.noise.draw.1).isSome) :
    (q.duration? ms).1.isSome := by
  unfold duration?
  split
  · rename_i hrandom
    rw [Bool.and_eq_true, decide_eq_true_eq] at hrandom
    exact Random.isSome_jittered? (h hrandom.1 hrandom.2)
  · rfl

namespace Act

open Stage

variable {σ ε α : Type} {d d' : Desktop σ ε} {p : Program} {i : Instruction} {c : Call} {cs : List Call}
  {a b k n : Nat} {s t u v : Stage σ ε} {e : Failure}

theorem ask_of_raises {call : σ → Reply σ ε α} {y : σ} {last : List ε} (received : Stage σ ε → Stage σ ε)
    (hs : s.player.playing = true) (h : (call s.desktop).Raises e y last) :
    ask call received s = .error e { s with desktop := y, events := s.events ++ last.map Event.desktop } := by
  obtain ⟨houtcome, rfl, rfl⟩ := h
  unfold ask
  generalize call s.desktop = r at houtcome
  obtain ⟨y, last, outcome⟩ := r
  cases outcome with
  | done value => cases houtcome
  | failed error =>
    cases houtcome
    rfl
  | replays value =>
    cases houtcome
    simp only [Player.start?, hs, if_true]

theorem ask_of_not_raised {call : σ → Reply σ ε α} (received : Stage σ ε → Stage σ ε)
    (h : (call s.desktop).outcome.raised? = none) :
    ∃ value, ask call received s = .ok value (received (s.answered (call s.desktop))) := by
  unfold ask answered
  generalize call s.desktop = r at h
  obtain ⟨y, last, outcome⟩ := r
  cases outcome with
  | done value => exact ⟨value, rfl⟩
  | failed error => cases h
  | replays value => cases h

theorem raises_of_ask {call : σ → Reply σ ε α} {received : Stage σ ε → Stage σ ε}
    (h : ask call received s = .error e t) (hs : s.player.playing = true) :
    ∃ y last, (call s.desktop).Raises e y last := by
  cases hraised : (call s.desktop).outcome.raised? with
  | none =>
    obtain ⟨value, hask⟩ := ask_of_not_raised received hraised
    rw [hask] at h
    cases h
  | some e' =>
    have hask := ask_of_raises received hs ⟨hraised, rfl, rfl⟩
    rw [hask] at h
    cases h
    exact ⟨_, _, hraised, rfl, rfl⟩

theorem not_raised_of_ask {call : σ → Reply σ ε α} {received : Stage σ ε → Stage σ ε} {value : α}
    (h : ask call received s = .ok value t) (hs : s.player.playing = true) :
    (call s.desktop).outcome.raised? = none := by
  cases hraised : (call s.desktop).outcome.raised? with
  | none => rfl
  | some e' =>
    rw [ask_of_raises received hs ⟨hraised, rfl, rfl⟩] at h
    cases h

theorem ask_congr {call call' : σ → Reply σ ε α} (received : Stage σ ε → Stage σ ε)
    (h : call' s.desktop = call s.desktop) : ask call' received s = ask call received s := by
  simp only [ask, h]

theorem perform_of_raises {y : σ} {last : List ε} (hs : s.player.playing = true)
    (h : d.Raises s.desktop c e y last) :
    perform d c s = .error e { s with desktop := y, events := s.events ++ last.map Event.desktop } := by
  cases c with
  | trace line => cases h
  | press k => exact ask_of_raises _ hs h
  | release k => exact ask_of_raises _ hs h
  | moveTo place => exact ask_of_raises _ hs h
  | printPointer overwrite => rw [printPointer_eq, ask_of_raises id hs h]
  | flush => exact ask_of_raises _ hs h
  | sleep ms => cases h

theorem raises_of_perform (h : perform d c s = .error e t) (hs : s.player.playing = true) :
    (∃ y last, d.Raises s.desktop c e y last) ∨ ∃ ms, c = .sleep ms ∧ (s.player.duration? ms).1 = none := by
  cases c with
  | trace line => cases h
  | press k => exact .inl (raises_of_ask h hs)
  | release k => exact .inl (raises_of_ask h hs)
  | moveTo place => exact .inl (raises_of_ask h hs)
  | printPointer overwrite =>
    rw [printPointer_eq] at h
    cases hask : ask d.pointer id s with
    | ok place t' =>
      rw [hask] at h
      cases h
    | error e' t' =>
      rw [hask] at h
      cases h
      exact .inl (raises_of_ask hask hs)
  | flush => exact .inl (raises_of_ask h hs)
  | sleep ms =>
    refine .inr ⟨ms, rfl, ?_⟩
    have hsleep : sleep ms s = .error e t := h
    rw [sleep_eq] at hsleep
    cases hlasting : (s.player.duration? ms).1 with
    | none => rfl
    | some lasting =>
      rw [hlasting] at hsleep
      cases hsleep

theorem perform_mended (hmends : d'.Mends d) (hs : s.player.playing = true) (h : perform d c s = .ok () t) :
    perform d' c s = .ok () t := by
  cases c with
  | trace line => exact h
  | press k => exact (ask_congr _ (hmends.press k _ (not_raised_of_ask h hs))).trans h
  | release k => exact (ask_congr _ (hmends.release k _ (not_raised_of_ask h hs))).trans h
  | moveTo place => exact (ask_congr _ (hmends.moveTo place _ (not_raised_of_ask h hs))).trans h
  | printPointer overwrite =>
    rw [printPointer_eq] at h ⊢
    cases hask : ask d.pointer id s with
    | ok place u => rwa [ask_congr id (hmends.pointer _ (not_raised_of_ask hask hs))]
    | error e' u =>
      rw [hask] at h
      cases h
  | flush => exact (ask_congr _ (hmends.flush _ (not_raised_of_ask h hs))).trans h
  | sleep ms => exact h

theorem performAll_mended (hmends : d'.Mends d) (hs : s.player.playing = true) (h : performAll d cs s = .ok () t) :
    performAll d' cs s = .ok () t := by
  induction cs generalizing s with
  | nil => exact h
  | cons c cs ih =>
    rw [performAll_cons] at h ⊢
    cases hfirst : perform d c s with
    | error e u =>
      rw [hfirst] at h
      cases h
    | ok _ u =>
      rw [hfirst] at h
      rw [perform_mended hmends hs hfirst]
      exact ih (playing_of_perform hfirst hs) h

theorem performAll_eq_error : performAll d cs s = .error e t ↔
    ∃ before c after u, cs = before ++ c :: after ∧ performAll d before s = .ok () u ∧ perform d c u = .error e t := by
  constructor
  · intro h
    induction cs generalizing s with
    | nil => cases h
    | cons c cs ih =>
      rw [performAll_cons] at h
      cases hfirst : perform d c s with
      | error e' u =>
        rw [hfirst] at h
        cases h
        exact ⟨[], c, cs, s, rfl, rfl, hfirst⟩
      | ok _ u =>
        rw [hfirst] at h
        obtain ⟨before, c', after, v, rfl, hbefore, hfails⟩ := ih h
        refine ⟨c :: before, c', after, v, rfl, ?_, hfails⟩
        rw [performAll_cons, hfirst]
        exact hbefore
  · rintro ⟨before, c, after, u, rfl, hbefore, hfails⟩
    rw [performAll_append, hbefore]
    simp only
    rw [performAll_cons, hfails]

theorem step_eq_error : step d p a i s = .error e t ↔ performAll d (p.calls i) (s.enter p a i) = .error e t := by
  rw [step_eq]
  cases performAll d (p.calls i) (s.enter p a i) <;> simp

theorem step_mended (hmends : d'.Mends d) (hs : s.player.playing = true) {progress : Progress}
    (h : step d p a i s = .ok progress t) : step d' p a i s = .ok progress t := by
  have henter : (s.enter p a i).player.playing = true := by
    rw [enter_player]
    exact hs
  rw [step_eq] at h ⊢
  cases hcalls : performAll d (p.calls i) (s.enter p a i) with
  | error e u =>
    rw [hcalls] at h
    cases h
  | ok _ u =>
    rw [hcalls] at h
    rw [performAll_mended hmends henter hcalls]
    exact h

theorem steps_mended (hmends : d'.Mends d) (h : Steps d p n a s b t) (hs : s.player.playing = true) :
    Steps d' p n a s b t := by
  induction h with
  | refl a s => exact .refl a s
  | head hi hstep _ ih => exact .head hi (step_mended hmends hs hstep) (ih (playing_of_step hstep hs))

def Asks (d : Desktop σ ε) (p : Program) (a : Nat) (s : Stage σ ε) (k : Nat) (c : Call) (u : Stage σ ε) : Prop :=
  ∃ b t i before after, Steps d p k a s b t ∧ p.instructions[b]? = some i ∧ p.calls i = before ++ c :: after ∧
    performAll d before (t.enter p b i) = .ok () u

theorem Asks.player (h : Asks d p a s k c u) (hs : s.player.playing = true) :
    ∃ noise loops, u.player = { s.player with noise, loops } := by
  obtain ⟨b, t, i, before, after, hsteps, -, -, hbefore⟩ := h
  obtain ⟨noise, loops, ht⟩ := hsteps.player hs
  obtain ⟨noise', hplayer⟩ := performAll_player d before (s := t.enter p b i) (by rw [enter_player, ht]; exact hs)
  rw [hbefore, enter_player, ht] at hplayer
  exact ⟨noise', _, hplayer⟩

theorem Asks.playing (h : Asks d p a s k c u) (hs : s.player.playing = true) : u.player.playing = true := by
  obtain ⟨noise, loops, hplayer⟩ := h.player hs
  rw [hplayer]
  exact hs

theorem Asks.steady (h : Asks d p a s k c u) (hs : s.player.playing = true) (hsteady : s.player.Steady) :
    u.player.Steady := by
  obtain ⟨b, t, i, before, after, hsteps, -, -, hbefore⟩ := h
  have hcalls := performAll_steady d before (s := t.enter p b i) (by rw [enter_player]; exact hsteps.playing hs)
    (by rw [enter_player]; exact hsteps.steady hs hsteady)
  rwa [hbefore] at hcalls

theorem Asks.mended (h : Asks d p a s k c u) (hmends : d'.Mends d) (hs : s.player.playing = true) :
    Asks d' p a s k c u := by
  obtain ⟨b, t, i, before, after, hsteps, hi, hcalls, hbefore⟩ := h
  refine ⟨b, t, i, before, after, steps_mended hmends hsteps hs, hi, hcalls, performAll_mended hmends ?_ hbefore⟩
  rw [enter_player]
  exact hsteps.playing hs

theorem run_of_asks (h : Asks d p a s k c u) (hfails : perform d c u = .error e v) (hn : k < n) :
    run d p n a s = .error e v := by
  obtain ⟨b, t, i, before, after, hsteps, hi, hcalls, hbefore⟩ := h
  obtain ⟨m, rfl⟩ := Nat.exists_eq_add_of_lt hn
  have hstep : step d p b i t = .error e v :=
    step_eq_error.mpr (performAll_eq_error.mpr ⟨before, c, after, u, hcalls, hbefore, hfails⟩)
  rw [Nat.add_assoc, hsteps.run_eq, run_succ hi, hstep]

theorem follows_of_asks (h : Asks d p a s k c u) (hn : k < n) : u.Follows (stageOf (run d p n a s)) := by
  obtain ⟨b, t, i, before, after, hsteps, hi, hcalls, hbefore⟩ := h
  obtain ⟨m, rfl⟩ := Nat.exists_eq_add_of_lt hn
  have hrest := performAll_follows d (c :: after) (follows_refl u)
  have hstep : stageOf (step d p b i t) = stageOf (performAll d (c :: after) u) := by
    rw [stageOf_step, hcalls, performAll_append, hbefore]
  rw [← hstep] at hrest
  rw [Nat.add_assoc, hsteps.run_eq, run_succ hi]
  cases hplayed : step d p b i t with
  | error e v => rwa [hplayed] at hrest
  | ok progress v =>
    rw [hplayed] at hrest
    cases progress with
    | next b' => exact run_follows d p m b' hrest
    | cancelled => exact hrest

theorem asks_of_run (h : run d p n a s = .error e v) : ∃ k c u, Asks d p a s k c u ∧ perform d c u = .error e v := by
  obtain ⟨k, b, t, -, hsteps, hend⟩ := run_cases d p n a s
  rw [h] at hend
  rcases hend with ⟨-, -, hgoes⟩ | ⟨-, hover⟩ | ⟨i, w, hi, ⟨-, hcancelled⟩ | ⟨e', hstep, hfails⟩⟩
  · cases hgoes
  · cases hover
  · cases hcancelled
  · cases hfails
    obtain ⟨before, c, after, u, hcalls, hbefore, hfails⟩ := performAll_eq_error.mp (step_eq_error.mp hstep)
    exact ⟨k, c, u, ⟨b, t, i, before, after, hsteps, hi, hcalls, hbefore⟩, hfails⟩

end Act

namespace Watch

open Act Stage

variable {σ ε : Type} {d d' : Desktop σ ε} {p : Program} {c : Call} {k n : Nat} {s u v : Stage σ ε} {e : Failure}

theorem enter_playing (w : Watch) (s : Stage σ ε) : (w.enter s).player.playing = true := by
  rw [enter_player]
  rfl

theorem play_of_asks (w : Watch) (hidle : s.player.playing = false) (h : Asks d p 0 (w.enter s) k c u)
    (hfails : perform d c u = .error e v) (hn : k < n) : w.play d p n s = .error e (w.leave s v) := by
  rw [w.play_idle d p n hidle, run_of_asks h hfails hn]
  rfl

theorem asks_of_play (w : Watch) (hidle : s.player.playing = false) (h : w.play d p n s = .error e v) :
    ∃ k c u t, Asks d p 0 (w.enter s) k c u ∧ perform d c u = .error e t := by
  rw [w.play_idle d p n hidle] at h
  cases hrun : run d p n 0 (w.enter s) with
  | ok r t =>
    rw [hrun] at h
    cases h
  | error e' t =>
    rw [hrun] at h
    cases h
    obtain ⟨k, c, u, hasks, hfails⟩ := asks_of_run hrun
    exact ⟨k, c, u, t, hasks, hfails⟩

theorem desktop_of_play_eq_error (w : Watch)
    (hraises : ∀ x c e y last, d.Raises x c e y last → ∃ error, e = .desktop error) (hidle : s.player.playing = false)
    (hsteady : s.player.Steady) (h : w.play d p n s = .error e v) : ∃ error, e = .desktop error := by
  obtain ⟨k, c, u, t, hasks, hfails⟩ := w.asks_of_play hidle h
  have hplaying := w.enter_playing s
  rcases raises_of_perform hfails (hasks.playing hplaying) with ⟨y, last, hcall⟩ | ⟨ms, rfl, hnone⟩
  · exact hraises _ _ _ _ _ hcall
  · have hu := hasks.steady hplaying (by rw [enter_player]; exact hsteady)
    obtain ⟨b, t, i, before, after, -, -, hcalls, -⟩ := hasks
    have hms : (Call.sleep ms).Plain := by
      apply plain_of_mem_calls p i
      rw [hcalls]
      exact List.mem_append_right _ List.mem_cons_self
    obtain ⟨lasting, noise, -, hlasting⟩ := hu.duration hms
    rw [hlasting u.player rfl rfl] at hnone
    cases hnone

/-- If no call of the desktop raises and no deviation of a sleep is too large for a number, a play fails nowhere. If a
call raises, the play raises the same and does nothing more: its record is what was done before the call, with what
the call itself let out. The play on any desktop that differs only where calls raise makes the same call on the same
stage, so it has done the same before. -/
theorem play_fail_stop (w : Watch) (d : Desktop σ ε) (p : Program) (s : Stage σ ε) (hidle : s.player.playing = false) :
    ((∀ k c u e y last, Asks d p 0 (w.enter s) k c u → ¬ d.Raises u.desktop c e y last) →
      (∀ k ms u, Asks d p 0 (w.enter s) k (.sleep ms) u → u.player.randomSleep = true → 0 < ms →
        (Random.deviation? ms u.player.noise.draw.1).isSome) →
      ∀ n, ∃ answer t, w.play d p n s = .ok answer t) ∧
    ∀ k c u e y last, Asks d p 0 (w.enter s) k c u → d.Raises u.desktop c e y last →
      (∀ n, k < n → ∃ t, w.play d p n s = .error e t ∧ t.desktop = y ∧
        t.events.toList = u.events.toList ++ last.map Event.desktop ∧ t.sleeps = u.sleeps ∧ t.presses = u.presses) ∧
      ∀ d' : Desktop σ ε, d'.Mends d → Asks d' p 0 (w.enter s) k c u ∧
        ∀ n, k < n → u.events.toList <+: (stageOf (w.play d' p n s)).events.toList := by
  refine ⟨fun hcalls hsleeps n => ?_, fun k c u e y last hasks hraises => ⟨fun n hn => ?_, fun d' hmends => ?_⟩⟩
  · cases hplay : w.play d p n s with
    | ok answer t => exact ⟨answer, t, rfl⟩
    | error e t =>
      obtain ⟨k, c, u, v, hasks, hfails⟩ := w.asks_of_play hidle hplay
      rcases raises_of_perform hfails (hasks.playing (w.enter_playing s)) with ⟨y, last, hraises⟩ | ⟨ms, rfl, hendless⟩
      · exact absurd hraises (hcalls k c u e y last hasks)
      · have hlasts := Player.isSome_duration? (hsleeps k ms u hasks)
        rw [hendless] at hlasts
        cases hlasts
  · have hfails := perform_of_raises (hasks.playing (w.enter_playing s)) hraises
    refine ⟨_, w.play_of_asks hidle hasks hfails hn, leave_desktop .., ?_, ?_, ?_⟩
    · rw [leave_events, Array.toList_appendList]
    · cases w <;> rfl
    · cases w <;> rfl
  · have hasks' := hasks.mended hmends (w.enter_playing s)
    refine ⟨hasks', fun n hn => ?_⟩
    rw [w.play_idle d' p n hidle, stageOf_mapStage, leave_events]
    exact (follows_of_asks hasks' hn).events

theorem play_fail_stop_of_second_press :
    let p : Program := ⟨#[⟨.loopBegin, 2, by decide⟩, ⟨.buttonClick, 0, by decide⟩, ⟨.loopEnd, 0, by decide⟩], #[]⟩
    let s : Stage Recording Recorded :=
      .new (.idle false false (.ofList [])) ⟨⟨0, 0⟩, false, 0, some 2, "unplugged", none⟩
    let mended : Desktop Recording Recorded :=
      { Recording.desktop with press := fun k r => .emits { r with presses := r.presses + 1 } (.press k) () }
    let left : Symbol := .button .left
    s.player.playing = false ∧ mended.Mends Recording.desktop ∧
      (∀ n, ∃ answer t, play .given mended p n s = .ok answer t) ∧
      ∀ n, 3 < n → ∃ t, play .given Recording.desktop p n s =
          .error (.desktop ⟨"recording", .reported "unplugged"⟩) t ∧
        t.events.toList = [.desktop .flush, .sleep 50, .desktop (.press left), .desktop (.release left),
          .desktop .flush, .sleep 50, .desktop .flush, .sleep 50] ∧
        t.events.toList <+: (stageOf (play .given mended p n s)).events.toList := by
  intro p s mended left
  have hmends : mended.Mends Recording.desktop := by
    refine ⟨fun k r h => ?_, fun _ _ _ => rfl, fun _ _ _ => rfl, fun _ _ => rfl, fun _ _ => rfl⟩
    simp only [Recording.desktop, Recording.press] at h ⊢
    split_ifs at h ⊢ with hfails hreplays
    · cases h
    · cases h
    · rfl
  let stage (loops : List Frame) (presses sleeps : Nat) (events : Array (Event Recorded)) : Stage Recording Recorded :=
    ⟨⟨false, false, .ofList [], loops, true⟩, ⟨⟨0, 0⟩, false, presses, some 2, "unplugged", none⟩, false, .outer, .never,
      sleeps, presses, events⟩
  let begun := stage [⟨1, 2⟩] 0 1 #[.desktop .flush, .sleep 50]
  let clicked := stage [⟨1, 2⟩] 1 2 #[.desktop .flush, .sleep 50, .desktop (.press left), .desktop (.release left),
    .desktop .flush, .sleep 50]
  let again := stage [⟨1, 1⟩] 1 3 #[.desktop .flush, .sleep 50, .desktop (.press left), .desktop (.release left),
    .desktop .flush, .sleep 50, .desktop .flush, .sleep 50]
  have hbegun : step Recording.desktop p 0 ⟨.loopBegin, 2, by decide⟩ (enter .given s) = .ok (.next 1) begun := rfl
  have hclicked : step Recording.desktop p 1 ⟨.buttonClick, 0, by decide⟩ begun = .ok (.next 2) clicked := rfl
  have hagain : step Recording.desktop p 2 ⟨.loopEnd, 0, by decide⟩ clicked = .ok (.next 1) again := rfl
  have hsteps : Steps Recording.desktop p 3 0 (enter .given s) 1 again :=
    .head rfl hbegun (.head rfl hclicked (.head rfl hagain (.refl _ _)))
  have hasks : Asks Recording.desktop p 0 (enter .given s) 3 (.press left) again :=
    ⟨1, again, ⟨.buttonClick, 0, by decide⟩, [], [.release left, .flush, .sleep 50], hsteps, rfl, rfl, rfl⟩
  have hraises : Recording.desktop.Raises again.desktop (.press left) (.desktop ⟨"recording", .reported "unplugged"⟩)
      { again.desktop with presses := 2 } [] := ⟨rfl, rfl, rfl⟩
  have hserves : ∀ x c e y last, ¬ mended.Raises x c e y last := by
    intro x c e y last hraises
    cases c with
    | trace line => cases hraises
    | sleep ms => cases hraises
    | press k | release k | moveTo place | printPointer overwrite | flush => cases hraises.1
  have hnotRandom : ∀ k c u, Asks mended p 0 (enter .given s) k c u → u.player.randomSleep ≠ true := by
    intro k c u hasks hrandom
    obtain ⟨noise, loops, hplayer⟩ := hasks.player rfl
    rw [hplayer] at hrandom
    cases hrandom
  refine ⟨rfl, hmends, (play_fail_stop .given mended p s rfl).1 (fun k c u e y last _ => hserves _ c e y last)
    (fun k ms u hasks hrandom => absurd hrandom (hnotRandom k _ u hasks)), fun n hn => ?_⟩
  obtain ⟨hplay, hmended⟩ := (play_fail_stop .given Recording.desktop p s rfl).2 3 _ again _ _ [] hasks hraises
  obtain ⟨t, ht, -, hrecord, -⟩ := hplay n hn
  rw [List.map_nil, List.append_nil] at hrecord
  refine ⟨t, ht, hrecord, ?_⟩
  rw [hrecord]
  exact (hmended mended hmends).2 n hn

end Watch

end InputScript
