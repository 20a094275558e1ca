import InputScript.Desktop.DryRun
import InputScript.Desktop.Recording
import InputScript.Proofs.Brackets
import InputScript.Proofs.Course

/-!
Plays that nothing disturbs: no call of the desktop fails, nobody cancels, and every sleep has an end.
There each call succeeds and each step goes on to the next address. What the calls do depends neither
on the loops of the player nor on whether it traces.
-/

namespace InputScript

def Reply.Done {σ ε α : Type} (I : σ → Prop) (r : Reply σ ε α) : Prop :=
  I r.state ∧ ∃ a, r.outcome = .done a

/-- From the states `I` every call of the desktop succeeds and leads to such a state again. -/
structure Desktop.Serves {σ ε : Type} (d : Desktop σ ε) (I : σ → Prop) : Prop where
  press : ∀ k x, I x → (d.press k x).Done I
  release : ∀ k x, I x → (d.release k x).Done I
  moveTo : ∀ place x, I x → (d.moveTo place x).Done I
  pointer : ∀ x, I x → (d.pointer x).Done I
  flush : ∀ x, I x → (d.flush x).Done I

theorem DryRun.serves : DryRun.desktop.Serves fun _ => True where
  press _ _ _ := ⟨trivial, _, rfl⟩
  release _ _ _ := ⟨trivial, _, rfl⟩
  moveTo _ _ _ := ⟨trivial, _, rfl⟩
  pointer _ _ := ⟨trivial, _, rfl⟩
  flush _ _ := ⟨trivial, _, rfl⟩

theorem Recording.serves : Recording.desktop.Serves fun r => r.failAt = none ∧ r.replayAt = none where
  press k r h := by simp [desktop, Recording.press, Reply.Done, h.1, h.2]
  release _ _ h := ⟨h, _, rfl⟩
  moveTo place r h := by
    refine ⟨?_, _, rfl⟩
    cases hr : r.follows <;> simpa [desktop, Reply.emits, hr] using h
  pointer _ h := ⟨h, _, rfl⟩
  flush _ h := ⟨h, _, rfl⟩

def Random.Noise.skip : Nat → Noise → Noise
  | 0, g => g
  | n + 1, g => skip n g.draw.2

def longestSleep : Int := 8191000

def Player.Steady (q : Player) : Prop :=
  q.randomSleep = true → ∀ n ms, 0 < ms → ms ≤ longestSleep →
    ∃ lasting, Random.jittered? ms (q.noise.skip n).draw.1 = some lasting

def Call.Plain : Call → Prop
  | .trace _ => False
  | .sleep ms => ms ≤ longestSleep
  | _ => True

def Call.Served {σ ε : Type} (d : Desktop σ ε) (I : σ → Prop) : Call → Prop
  | .trace _ => False
  | .press k => ∀ x, I x → (d.press k x).Done I
  | .release k => ∀ x, I x → (d.release k x).Done I
  | .moveTo place => ∀ x, I x → (d.moveTo place x).Done I
  | .printPointer _ => ∀ x, I x → (d.pointer x).Done I
  | .flush => ∀ x, I x → (d.flush x).Done I
  | .sleep ms => ms ≤ longestSleep

theorem Desktop.Serves.served {σ ε : Type} {d : Desktop σ ε} {I : σ → Prop} {c : Call} (hd : d.Serves I) (hc : c.Plain) :
    c.Served d I := by
  cases c with
  | trace line => exact hc
  | press k => exact hd.press k
  | release k => exact hd.release k
  | moveTo place => exact hd.moveTo place
  | printPointer overwrite => exact hd.pointer
  | flush => exact hd.flush
  | sleep ms => exact hc

namespace Program

inductive MayCall (p : Program) (i : Instruction) : Call → Prop
  | sleep {ms : Int} : ms ≤ longestSleep → MayCall p i (.sleep ms)
  | flush : MayCall p i .flush
  | press (k : Symbol) : MayCall p i (.press k)
  | release (k : Symbol) : MayCall p i (.release k)
  | moveTo {place : Point} : i.opcode = .pointerGoto → p.positions[i.operand]? = some place →
      MayCall p i (.moveTo place)
  | printPointer : i.opcode = .pointerWhere → MayCall p i (.printPointer (overwritesLine i.operand))

theorem mayCall_of_mem_pace {p : Program} {i : Instruction} {c : Call} (h : c ∈ pace) : p.MayCall i c := by
  simp only [pace, List.mem_cons, List.not_mem_nil, or_false] at h
  rcases h with rfl | rfl
  · exact .flush
  · exact .sleep (by decide)

theorem mayCall_of_mem_device {p : Program} {i : Instruction} {cs : List Call} {c : Call}
    (hcs : p.deviceCalls? i = some cs) (h : c ∈ cs) : p.MayCall i c := by
  unfold deviceCalls? at hcs
  split at hcs <;> simp only [Option.map_eq_some_iff, Option.some.injEq, reduceCtorEq] at hcs
  case h_7 hopcode =>
    obtain ⟨place, hplace, rfl⟩ := hcs
    obtain rfl := List.mem_singleton.mp h
    exact .moveTo hopcode hplace
  case h_8 hopcode =>
    subst hcs
    obtain rfl := List.mem_singleton.mp h
    exact .printPointer hopcode
  all_goals
    obtain ⟨_, -, rfl⟩ := hcs
    simp only [List.mem_cons, List.not_mem_nil, or_false] at h
  case h_3 | h_6 =>
    rcases h with rfl | rfl
    · exact .press _
    · exact .release _
  case h_1 | h_4 =>
    subst h
    exact .release _
  case h_2 | h_5 =>
    subst h
    exact .press _

theorem mayCall_of_mem (p : Program) {i : Instruction} {c : Call} (h : c ∈ p.calls i) : p.MayCall i c := by
  have hoperand := i.operand_le
  unfold maxOperand at hoperand
  unfold calls at h
  split at h
  · obtain rfl := List.mem_singleton.mp h
    exact .sleep (by unfold longestSleep; omega)
  · obtain rfl := List.mem_singleton.mp h
    exact .sleep (by unfold longestSleep; omega)
  · exact mayCall_of_mem_pace h
  · exact mayCall_of_mem_pace h
  · split at h
    · rename_i hcs
      rcases List.mem_append.mp h with h | h
      · exact mayCall_of_mem_device hcs h
      · exact mayCall_of_mem_pace h
    · cases h

end Program

def Event.isTrace {ε : Type} : Event ε → Bool
  | .trace _ => true
  | _ => false

namespace Stage

variable {σ ε α : Type} {I : σ → Prop} {s : Stage σ ε}

def listens (s : Stage σ ε) : Prop :=
  s.cue.signal = .cancel ∨ s.handler = .cancelsPlay

structure Undisturbed (s : Stage σ ε) : Prop where
  not_cancelled : s.cancelled = false
  sleeps : s.listens → ∀ n, s.cue.atSleep = some n → n ≤ s.sleeps
  presses : s.listens → ∀ n, s.cue.atPress = some n → n ≤ s.presses

structure Calm (I : σ → Prop) (s : Stage σ ε) : Prop where
  desktop : I s.desktop
  undisturbed : s.Undisturbed
  steady : s.player.Steady

def scene (s : Stage σ ε) : Stage σ ε :=
  { s with
    player := { s.player with loops := [], tracing := false, playing := false }
    events := s.events.filter (!·.isTrace) }

def answered (s : Stage σ ε) (r : Reply σ ε α) : Stage σ ε :=
  { s with desktop := r.state, events := s.events ++ r.emitted.map Event.desktop }

theorem receive_of_not_listens (h : ¬ s.listens) : s.receive s.cue.signal = s := by
  simp only [listens, not_or] at h
  obtain ⟨hsignal, hhandler⟩ := h
  cases hs : s.cue.signal with
  | cancel => exact absurd hs hsignal
  | interrupt =>
    simp only [receive]
    cases hh : s.handler with
    | outer => rfl
    | cancelsPlay => exact absurd hh hhandler

theorem Undisturbed.countSleep_eq (h : s.Undisturbed) :
    s.countSleep = { s with sleeps := s.sleeps + 1 } := by
  simp only [countSleep, receiveIf, beq_iff_eq]
  split
  · rename_i hdue
    by_cases hl : s.listens
    · have := h.sleeps hl _ hdue
      omega
    · exact receive_of_not_listens hl
  · rfl

theorem Undisturbed.countPress_eq (h : s.Undisturbed) :
    s.countPress = { s with presses := s.presses + 1 } := by
  simp only [countPress, receiveIf, beq_iff_eq]
  split
  · rename_i hdue
    by_cases hl : s.listens
    · have := h.presses hl _ hdue
      omega
    · exact receive_of_not_listens hl
  · rfl

theorem Calm.later {t : Stage σ ε} (h : s.Calm I) (hdesktop : I t.desktop)
    (htoken : t.cancelled = s.cancelled ∧ t.cue = s.cue ∧ t.handler = s.handler)
    (hcounts : s.sleeps ≤ t.sleeps ∧ s.presses ≤ t.presses) (hsteady : t.player.Steady) :
    t.Calm I := by
  obtain ⟨hcancelled, hcue, hhandler⟩ := htoken
  refine ⟨hdesktop, ⟨hcancelled.trans h.undisturbed.not_cancelled, ?_, ?_⟩, hsteady⟩
  · intro hl n hn
    rw [listens, hcue, hhandler] at hl
    exact Nat.le_trans (h.undisturbed.sleeps hl n (hcue ▸ hn)) hcounts.1
  · intro hl n hn
    rw [listens, hcue, hhandler] at hl
    exact Nat.le_trans (h.undisturbed.presses hl n (hcue ▸ hn)) hcounts.2

theorem scene_answered {r : Reply σ ε α} : (s.answered r).scene = s.scene.answered r := by
  have h : (r.emitted.map Event.desktop).filter (!·.isTrace) = r.emitted.map Event.desktop := by
    simp [List.filter_eq_self, Event.isTrace]
  simp only [scene, answered, Stage.mk.injEq, true_and]
  apply Array.toList_inj.mp
  rw [Array.toList_filter, Array.toList_appendList, List.filter_append, h,
    Array.toList_appendList, Array.toList_filter]

theorem scene_record {event : Event ε} (h : event.isTrace = false) :
    (s.record event).scene = s.scene.record event := by
  simp [scene, record, h]

theorem scene_trace (s : Stage σ ε) (line : String) : (s.record (.trace line)).scene = s.scene := by
  have h : [Event.trace line].filter (!·.isTrace) = ([] : List (Event ε)) := rfl
  simp only [scene, record, Stage.mk.injEq, true_and]
  apply Array.toList_inj.mp
  rw [Array.toList_filter, Array.toList_push, List.filter_append, h, List.append_nil,
    Array.toList_filter]

theorem Calm.answered {r : Reply σ ε α} (h : s.Calm I) (hr : r.Done I) : (s.answered r).Calm I :=
  h.later hr.1 ⟨rfl, rfl, rfl⟩ ⟨Nat.le_refl _, Nat.le_refl _⟩ h.steady

theorem calm_new {x : σ} (hx : I x) (tracing : Bool) (noise : Random.Noise) :
    (new (.idle false tracing noise) x : Stage σ ε).Calm I :=
  ⟨hx, ⟨rfl, fun _ _ h => (nomatch h), fun _ _ h => (nomatch h)⟩, fun h => (nomatch h)⟩

theorem Calm.started (h : s.Calm I) : s.started.Calm I :=
  h.later h.desktop ⟨rfl, rfl, rfl⟩ ⟨Nat.le_refl _, Nat.le_refl _⟩ h.steady

theorem Calm.scene (h : s.Calm I) : s.scene.Calm I :=
  h.later h.desktop ⟨rfl, rfl, rfl⟩ ⟨Nat.le_refl _, Nat.le_refl _⟩ h.steady

end Stage

theorem Player.Steady.duration {q : Player} (h : q.Steady) {ms : Int} (hms : ms ≤ longestSleep) :
    ∃ lasting noise, Player.Steady { q with noise } ∧
      ∀ q' : Player, q'.randomSleep = q.randomSleep → q'.noise = q.noise →
        q'.duration? ms = (some lasting, { q' with noise }) := by
  by_cases hrandom : (q.randomSleep && 0 < ms) = true
  · have hon := hrandom
    simp only [Bool.and_eq_true, decide_eq_true_eq] at hon
    obtain ⟨lasting, hlasting⟩ := h hon.1 0 ms hon.2 hms
    refine ⟨lasting, q.noise.draw.2, fun hr n => h hr (n + 1), ?_⟩
    intro q' hr hn
    rw [duration?, hr, hn, if_pos hrandom, ← hlasting]
    rfl
  · refine ⟨ms, q.noise, h, ?_⟩
    intro q' hr hn
    have hsame : q'.duration? ms = (some ms, q') := by rw [duration?, hr, if_neg hrandom]
    rw [hsame, ← hn]

theorem Player.Steady.drawn {q : Player} (h : q.Steady) (ms : Int) : (q.duration? ms).2.Steady := by
  unfold duration?
  split
  · exact fun hrandom n => h hrandom (n + 1)
  · exact h

namespace Act

variable {σ ε α : Type} {d : Desktop σ ε} {p : Program} {i : Instruction} {I : σ → Prop}
  {c : Call} {cs : List Call} {s : Stage σ ε}

open Stage

theorem ask_done {call : σ → Reply σ ε α} (received : Stage σ ε → Stage σ ε)
    (h : (call s.desktop).Done I) :
    ∃ a, ask call received s = .ok a (received (s.answered (call s.desktop))) ∧
      ask call received s.scene = .ok a (received (s.scene.answered (call s.desktop))) := by
  obtain ⟨-, a, ha⟩ := h
  refine ⟨a, ?_, ?_⟩
  · simp only [ask, ha]
    rfl
  · have ha' : (call s.scene.desktop).outcome = .done a := ha
    simp only [ask, ha']
    rfl

theorem ask_calm {call : σ → Reply σ ε Unit} (h : (call s.desktop).Done I) (hs : s.Calm I) :
    ∃ t, ask call id s = .ok () t ∧ t.Calm I ∧ t.player = s.player ∧
      ask call id s.scene = .ok () t.scene := by
  obtain ⟨_, hask, hscene⟩ := ask_done id h
  exact ⟨_, hask, hs.answered h, rfl, by rw [hscene, id, id, scene_answered]⟩

theorem ask_keeps {P : Stage σ ε → Prop} {call : σ → Reply σ ε α} {received : Stage σ ε → Stage σ ε}
    (hanswered : P (s.answered (call s.desktop))) (hplayer : ∀ t q, P t → P { t with player := q })
    (hreceived : ∀ t, P t → P (received t)) : P (stageOf (ask call received s)) := by
  simp only [ask]
  cases (call s.desktop).outcome with
  | done a => exact hreceived _ hanswered
  | failed e => exact hanswered
  | replays a =>
    dsimp only
    cases s.player.start? with
    | none => exact hanswered
    | some q => exact hreceived _ (hplayer _ _ hanswered)

theorem printPointer_eq (d : Desktop σ ε) (overwrite : Bool) (s : Stage σ ε) :
    perform d (.printPointer overwrite) s =
      match ask d.pointer id s with
      | .ok place t => .ok () (t.record (.print (place.text ++ pointerLineEnd overwrite)))
      | .error e t => .error e t := by
  simp only [perform, bind, EStateM.bind]
  cases ask d.pointer id s <;> rfl

theorem printPointer_keeps {P : Stage σ ε → Prop} (hasked : P (stageOf (ask d.pointer id s)))
    (hprinted : ∀ t text, P t → P (t.record (.print text))) (overwrite : Bool) :
    P (stageOf (perform d (.printPointer overwrite) s)) := by
  rw [printPointer_eq]
  cases hask : ask d.pointer id s with
  | ok place t =>
    rw [hask] at hasked
    exact hprinted t _ hasked
  | error e t =>
    rw [hask] at hasked
    exact hasked

theorem perform_calm (hc : c.Served d I) (hs : s.Calm I) :
    ∃ t, perform d c s = .ok () t ∧ t.Calm I ∧ (∃ noise, t.player = { s.player with noise }) ∧
      perform d c s.scene = .ok () t.scene := by
  cases c with
  | trace line => exact absurd hc id
  | press k =>
    have h := hc s.desktop hs.desktop
    obtain ⟨_, hask, hscene⟩ := ask_done countPress h
    have hcalm := hs.answered h
    rw [hcalm.undisturbed.countPress_eq] at hask
    rw [← scene_answered, hcalm.scene.undisturbed.countPress_eq] at hscene
    exact ⟨_, hask, hcalm.later hcalm.desktop ⟨rfl, rfl, rfl⟩ ⟨Nat.le_refl _, Nat.le_succ _⟩
      hcalm.steady, ⟨_, rfl⟩, hscene⟩
  | release k =>
    obtain ⟨t, hask, hcalm, hplayer, hscene⟩ := ask_calm (hc s.desktop hs.desktop) hs
    exact ⟨t, hask, hcalm, ⟨_, hplayer⟩, hscene⟩
  | moveTo place =>
    obtain ⟨t, hask, hcalm, hplayer, hscene⟩ := ask_calm (hc s.desktop hs.desktop) hs
    exact ⟨t, hask, hcalm, ⟨_, hplayer⟩, hscene⟩
  | flush =>
    obtain ⟨t, hask, hcalm, hplayer, hscene⟩ := ask_calm (hc s.desktop hs.desktop) hs
    exact ⟨t, hask, hcalm, ⟨_, hplayer⟩, hscene⟩
  | printPointer overwrite =>
    have h := hc s.desktop hs.desktop
    obtain ⟨place, hask, hscene⟩ := ask_done id h
    have hcalm := hs.answered h
    let text := place.text ++ pointerLineEnd overwrite
    refine ⟨(s.answered (d.pointer s.desktop)).record (.print text), ?_,
      hcalm.later hcalm.desktop ⟨rfl, rfl, rfl⟩ ⟨Nat.le_refl _, Nat.le_refl _⟩ hcalm.steady,
      ⟨_, rfl⟩, ?_⟩
    · rw [printPointer_eq, hask]
      rfl
    · rw [scene_record rfl, scene_answered, printPointer_eq, hscene]
      rfl
  | sleep ms =>
    obtain ⟨lasting, noise, hsteady, hlasting⟩ := hs.steady.duration hc
    let t : Stage σ ε := { s with player := { s.player with noise } }.record (.sleep lasting)
    have ht : t.Calm I := hs.later hs.desktop ⟨rfl, rfl, rfl⟩ ⟨Nat.le_refl _, Nat.le_refl _⟩ hsteady
    have hscene : t.scene = { s.scene with player := { s.scene.player with noise } }.record
        (.sleep lasting) := scene_record rfl
    refine ⟨{ t with sleeps := t.sleeps + 1 }, ?_,
      ht.later ht.desktop ⟨rfl, rfl, rfl⟩ ⟨Nat.le_succ _, Nat.le_refl _⟩ ht.steady, ⟨noise, rfl⟩, ?_⟩
    · simp only [perform, sleep, hlasting s.player rfl rfl]
      rw [ht.undisturbed.countSleep_eq]
    · simp only [perform, sleep, hlasting s.scene.player rfl rfl]
      rw [← hscene, ht.scene.undisturbed.countSleep_eq]
      rfl

theorem performAll_calm (hcs : ∀ c ∈ cs, c.Served d I) (hs : s.Calm I) :
    ∃ t, performAll d cs s = .ok () t ∧ t.Calm I ∧ (∃ noise, t.player = { s.player with noise }) ∧
      performAll d cs s.scene = .ok () t.scene := by
  induction cs generalizing s with
  | nil => exact ⟨s, rfl, hs, ⟨_, rfl⟩, rfl⟩
  | cons c cs ih =>
    obtain ⟨t, hfirst, ht, ⟨noise, hplayer⟩, hscene⟩ :=
      perform_calm (hcs c List.mem_cons_self) hs
    obtain ⟨u, hrest, hu, ⟨noise', hplayer'⟩, hscene'⟩ :=
      ih (fun c hc => hcs c (List.mem_cons_of_mem _ hc)) ht
    refine ⟨u, ?_, hu, ⟨noise', by rw [hplayer', hplayer]⟩, ?_⟩
    · rw [performAll_cons, hfirst]
      exact hrest
    · rw [performAll_cons, hscene]
      exact hscene'

theorem plain_of_mem_calls (p : Program) (i : Instruction) : ∀ c ∈ p.calls i, c.Plain := by
  intro c hc
  cases p.mayCall_of_mem hc with
  | sleep hms => exact hms
  | flush | press | release | moveTo | printPointer => trivial

theorem enter_scene (p : Program) (a : Nat) (i : Instruction) (s : Stage σ ε) :
    (s.enter p a i).scene = s.scene := by
  change (s.traced p a i).scene = s.scene
  unfold traced
  split
  · exact scene_trace s _
  · rfl

theorem step_served (p : Program) (a : Nat) (i : Instruction) (hcalls : ∀ c ∈ p.calls i, c.Served d I) (hs : s.Calm I) :
    ∃ t, step d p a i s = .ok (.next (followLoops i (a + 1) s.player.loops).1) t ∧ t.Calm I ∧
      (∃ noise, t.player =
        { s.player with noise, loops := (followLoops i (a + 1) s.player.loops).2 }) ∧
      performAll d (p.calls i) s.scene = .ok () t.scene := by
  have htraced : (s.traced p a i).Calm I := by
    unfold traced
    split
    · exact hs.later hs.desktop ⟨rfl, rfl, rfl⟩ ⟨Nat.le_refl _, Nat.le_refl _⟩ hs.steady
    · exact hs
  have henter : (s.enter p a i).Calm I :=
    htraced.later htraced.desktop ⟨rfl, rfl, rfl⟩ ⟨Nat.le_refl _, Nat.le_refl _⟩ htraced.steady
  obtain ⟨t, ht, hcalm, ⟨noise, hplayer⟩, hscene⟩ := performAll_calm hcalls henter
  rw [enter_scene] at hscene
  rw [enter_player] at hplayer
  refine ⟨t, ?_, hcalm, ⟨noise, hplayer⟩, hscene⟩
  have hrunning := hcalm.undisturbed.not_cancelled
  rw [step_eq, ht]
  simp [hrunning]

theorem step_calm (hd : d.Serves I) (p : Program) (a : Nat) (i : Instruction) (hs : s.Calm I) :
    ∃ t, step d p a i s = .ok (.next (followLoops i (a + 1) s.player.loops).1) t ∧ t.Calm I ∧
      (∃ noise, t.player =
        { s.player with noise, loops := (followLoops i (a + 1) s.player.loops).2 }) ∧
      performAll d (p.calls i) s.scene = .ok () t.scene :=
  step_served p a i (fun c hc => hd.served (plain_of_mem_calls p i c hc)) hs

theorem steps_calm (hd : d.Serves I) {a : Nat} {place : Nat × List Frame} (hs : s.Calm I)
    (h : p.Leads (a, s.player.loops) place) :
    ∃ n t, Steps d p n a s place.1 t ∧ t.Calm I ∧ t.player.loops = place.2 := by
  induction h with
  | refl => exact ⟨0, s, .refl a s, hs, rfl⟩
  | tail _ hstep ih =>
    obtain ⟨n, t, hsteps, ht, hloops⟩ := ih
    obtain ⟨i, hi, rfl⟩ := Option.map_eq_some_iff.mp hstep
    obtain ⟨u, hlast, hu, ⟨noise, hplayer⟩, -⟩ := step_calm hd p _ i ht
    rw [hloops] at hlast hplayer
    exact ⟨n + 1, u, hsteps.trans (.head hi hlast (.refl _ u)), hu, by rw [hplayer]⟩

end Act

end InputScript
