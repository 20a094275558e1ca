import InputScript.Desktop.Recording
import InputScript.Proofs.Cancellation
import InputScript.Proofs.Surroundings

namespace InputScript

/-- What tells a play that it is cancelled: a token that it is given, or one of its own, which interrupts set where
the play can handle them. -/
inductive Watch where
  | given
  | own (mainThread : Bool)

namespace Watch

open Act Stage

variable {σ ε : Type} {w : Watch} {d : Desktop σ ε} {p : Program} {n : Nat} {s t : Stage σ ε}

def play (w : Watch) (d : Desktop σ ε) (p : Program) (n : Nat) : Act σ ε (Option Bool) :=
  match w with
  | given => Act.play d p n
  | own mainThread => playAlone d p n mainThread

def enter (w : Watch) (s : Stage σ ε) : Stage σ ε :=
  match w with
  | given => s.started
  | own mainThread =>
    { s.started with cancelled := false, handler := if mainThread then .cancelsPlay else s.handler }

def leave (w : Watch) (s t : Stage σ ε) : Stage σ ε :=
  match w with
  | given => t.stopped
  | own _ => { t.stopped with cancelled := s.cancelled, handler := s.handler }

@[simp] theorem enter_player (w : Watch) (s : Stage σ ε) : (w.enter s).player = s.started.player := by
  cases w <;> rfl

@[simp] theorem enter_desktop (w : Watch) (s : Stage σ ε) : (w.enter s).desktop = s.desktop := by
  cases w <;> rfl

@[simp] theorem enter_events (w : Watch) (s : Stage σ ε) : (w.enter s).events = s.events := by
  cases w <;> rfl

@[simp] theorem leave_player (w : Watch) (s t : Stage σ ε) : (w.leave s t).player = t.player.stop := by
  cases w <;> rfl

@[simp] theorem leave_desktop (w : Watch) (s t : Stage σ ε) : (w.leave s t).desktop = t.desktop := by
  cases w <;> rfl

@[simp] theorem leave_events (w : Watch) (s t : Stage σ ε) : (w.leave s t).events = t.events := by
  cases w <;> rfl

theorem play_idle (w : Watch) (d : Desktop σ ε) (p : Program) (n : Nat) (hs : s.player.playing = false) :
    w.play d p n s = mapStage (w.leave s) (run d p n 0 (w.enter s)) := by
  cases w with
  | given => exact whilePlaying_eq _ hs
  | own mainThread =>
    have howned : playAlone d p n mainThread s = withOwnToken mainThread (Act.play d p n) s := by
      obtain ⟨⟨_, _, _, _, playing⟩, _⟩ := s
      cases hs
      rfl
    have hplay := whilePlaying_eq (run d p n 0)
      (s := { s with cancelled := false, handler := if mainThread then .cancelsPlay else s.handler }) hs
    rw [play, howned, withOwnToken_eq, Act.play, hplay, mapStage_mapStage]
    rfl

theorem play_busy (w : Watch) (d : Desktop σ ε) (p : Program) (n : Nat) (hs : s.player.playing = true) :
    w.play d p n s = .error .alreadyPlaying s := by
  cases w with
  | given => exact Act.play_busy hs
  | own mainThread =>
    obtain ⟨⟨_, _, _, _, playing⟩, _⟩ := s
    cases hs
    rfl

end Watch

namespace Act

open Stage

variable {σ ε α : Type} {d : Desktop σ ε} {p : Program} {s t : Stage σ ε}

theorem run_keeps {P : Stage σ ε → Prop} (hP : ∀ a i s, P s → P (stageOf (step d p a i s))) (n a : Nat) (hs : P s) :
    P (stageOf (run d p n a s)) := by
  induction n generalizing a s with
  | zero =>
    cases hi : p.instructions[a]? with
    | none => rwa [run_over hi]
    | some i => rwa [run_zero hi]
  | succ n ih =>
    cases hi : p.instructions[a]? with
    | none => rwa [run_over hi]
    | some i =>
      have hnext := hP a i s hs
      rw [run_succ hi]
      cases hstep : step d p a i s with
      | error e t => rwa [hstep] at hnext
      | ok progress t =>
        rw [hstep] at hnext
        cases progress with
        | next b => exact ih b hnext
        | cancelled => exact hnext

theorem run_follows (d : Desktop σ ε) (p : Program) (n a : Nat) (h : s.Follows t) :
    s.Follows (stageOf (run d p n a t)) :=
  run_keeps (fun a i _ ht => step_follows d p a i ht) n a h

theorem run_player (d : Desktop σ ε) (p : Program) (n a : Nat) (hs : s.player.playing = true) :
    ∃ noise loops, (stageOf (run d p n a s)).player = { s.player with noise, loops } := by
  apply run_keeps (P := fun t => ∃ noise loops, t.player = { s.player with noise, loops })
  · rintro b i t ⟨noise, loops, ht⟩
    obtain ⟨noise', hnext⟩ := step_player d p b i (s := t) (by rw [ht]; exact hs)
    exact ⟨noise', (followLoops i (b + 1) t.player.loops).2, by rw [hnext, ht]⟩
  · exact ⟨s.player.noise, s.player.loops, rfl⟩

theorem ask_replays {call : σ → Reply σ ε α} {a : α} (h : (call s.desktop).outcome = .replays a)
    (received : Stage σ ε → Stage σ ε) (d : Desktop σ ε) (n : Nat) :
    ask call received s =
      (do let _ ← play d .empty n; modify received; return a : Act σ ε α) (s.answered (call s.desktop)) := by
  have hplayer : (s.answered (call s.desktop)).player = s.player := rfl
  simp only [ask, h]
  cases hs : s.player.playing with
  | true =>
    have hbusy := play_busy (d := d) (p := .empty) (n := n) (s := s.answered (call s.desktop)) hs
    simp only [bind, EStateM.bind, hbusy, Player.start?, hs, if_true]
    rfl
  | false =>
    have hover := play_of_run (d := d) (p := .empty) (n := n) (s := s.answered (call s.desktop)) hs (run_over rfl)
    simp only [bind, EStateM.bind, hover, Player.start?, hs, Bool.false_eq_true, if_false]
    rfl

end Act

namespace Watch

open Act Stage

variable {σ ε : Type} {d : Desktop σ ε} {p : Program} {n : Nat} {s : Stage σ ε}

theorem player_of_play (w : Watch) (d : Desktop σ ε) (p : Program) (n : Nat) (s : Stage σ ε) :
    ∃ noise loops, (stageOf (w.play d p n s)).player = { s.player with noise, loops } := by
  cases hs : s.player.playing with
  | true =>
    rw [w.play_busy d p n hs]
    exact ⟨s.player.noise, s.player.loops, rfl⟩
  | false =>
    obtain ⟨noise, loops, hrun⟩ := run_player d p n 0 (s := w.enter s) (by rw [enter_player]; rfl)
    refine ⟨noise, loops, ?_⟩
    rw [w.play_idle d p n hs, stageOf_mapStage, leave_player, hrun, enter_player]
    change ({ s.player with noise, loops, playing := false } : Player) = _
    rw [← hs]

theorem handler_of_play (w : Watch) (d : Desktop σ ε) (p : Program) (n : Nat) (s : Stage σ ε) :
    (stageOf (w.play d p n s)).handler = s.handler := by
  cases hs : s.player.playing with
  | true =>
    rw [w.play_busy d p n hs]
    rfl
  | false =>
    rw [w.play_idle d p n hs, stageOf_mapStage]
    cases w with
    | given => exact (run_follows d p n 0 (started_follows s)).handler
    | own mainThread => rfl

end Watch

/-- What plays make of a player, on any desktops, whatever they play and however they end. -/
inductive Player.History (q : Player) : Player → Prop
  | none : History q q
  | play {σ ε : Type} {r : Player} (h : History q r) (s : Stage σ ε) (w : Watch) (d : Desktop σ ε) (p : Program)
      (n : Nat) : History q (Act.stageOf (w.play d p n { s with player := r })).player

theorem Player.History.eq {q r : Player} (h : q.History r) : ∃ noise loops, r = { q with noise, loops } := by
  induction h with
  | none => exact ⟨q.noise, q.loops, rfl⟩
  | @play _ _ r _ s w d p n ih =>
    obtain ⟨_, _, hr⟩ := ih
    obtain ⟨noise, loops, hplay⟩ := w.player_of_play d p n { s with player := r }
    exact ⟨noise, loops, by rw [hplay, hr]⟩

namespace Watch

open Act Stage

/-- After any history of plays the player is ready for the next one, which goes as that of a new player with the same
options and the noise as it is by then. A play that is called for while the player plays is refused, also where a
desktop calls for it, and changes nothing. Each play leaves the handler of interrupts that was there before. -/
theorem play_afresh {q r : Player} (hidle : q.playing = false) (h : q.History r) :
    let new := Player.idle q.randomSleep q.tracing r.noise
    r.playing = false ∧ r.start? = new.start? ∧ r.start?.isSome ∧
      ∀ (σ ε : Type) (s : Stage σ ε) (w : Watch) (d : Desktop σ ε) (p : Program) (n : Nat),
        w.play d p n { s with player := r } = w.play d p n { s with player := new } ∧
        (s.player.playing = true → w.play d p n s = .error .alreadyPlaying s ∧
          ∀ (α : Type) (call : σ → Reply σ ε α) (a : α) (received : Stage σ ε → Stage σ ε),
            (call s.desktop).outcome = .replays a →
              ask call received s = .error .alreadyPlaying (s.answered (call s.desktop))) ∧
        (stageOf (w.play d p n s)).handler = s.handler := by
  intro new
  obtain ⟨noise, loops, rfl⟩ := h.eq
  have hstart : Player.start? { q with noise, loops } = new.start? := by
    simp only [Player.start?, hidle, new]
    rfl
  refine ⟨hidle, hstart, ?_, fun σ ε s w d p n => ⟨?_, fun hs => ⟨w.play_busy d p n hs, ?_⟩, w.handler_of_play d p n s⟩⟩
  · rw [hstart]
    rfl
  · have hleave (t : Stage σ ε) : w.leave { s with player := { q with noise, loops } } t =
        w.leave { s with player := new } t := by
      cases w <;> rfl
    have henter : w.enter { s with player := { q with noise, loops } } = w.enter { s with player := new } := by
      cases w <;> rfl
    rw [w.play_idle d p n hidle, w.play_idle d p n rfl, henter, funext hleave]
  · intro α call a received hreplays
    have hbusy := Act.play_busy (d := d) (p := .empty) (n := n) (s := s.answered (call s.desktop)) hs
    rw [ask_replays hreplays received d n]
    simp only [bind, EStateM.bind, hbusy]

theorem play_afresh_of_two_aborted :
    let q : Player := .idle true true (.ofList [1, -1])
    let s : Stage DryRun (List DryRunLine) := (Stage.new q .fresh).prepare ⟨.cancel, some 2, none⟩
    let cancelled :=
      stageOf (play .given DryRun.desktop ⟨#[⟨.loopBegin, 0, by decide⟩, ⟨.sleepMs, 7, by decide⟩], #[]⟩ 2 s)
    let t : Stage Recording Recorded := .new cancelled.player ⟨⟨0, 0⟩, false, 0, none, "", some 1⟩
    let aborted := stageOf (play (.own true) Recording.desktop
      ⟨#[⟨.loopBegin, 3, by decide⟩, ⟨.keyClick, 10, by decide⟩], #[]⟩ 2 t)
    q.playing = false ∧ q.History aborted.player ∧ cancelled.player.loops = [⟨1, 0⟩] ∧
      aborted.player.loops = [⟨1, 3⟩] ∧ aborted.handler = .outer ∧
      ∀ (p : Program) (n : Nat), play .given DryRun.desktop p n { s with player := aborted.player } =
        play .given DryRun.desktop p n { s with player := .idle true true aborted.player.noise } := by
  intro q s cancelled t aborted
  have hcancelled : q.History cancelled.player := .play .none s .given DryRun.desktop _ 2
  have haborted : q.History aborted.player := .play hcancelled t (.own true) Recording.desktop _ 2
  refine ⟨rfl, haborted, by decide +kernel, by decide +kernel, by decide +kernel, fun p n => ?_⟩
  exact ((play_afresh (q := q) rfl haborted).2.2.2 _ _ s .given DryRun.desktop p n).1

end Watch

end InputScript
