import InputScript.Proofs.WholePlays

/-!
One program on two desktops that answer every call alike. The plays go the same way: they sleep, trace and print the
same, they end the same, and whatever relation of the desktops the calls keep holds in the end.
-/

namespace InputScript

namespace Event

variable {ε : Type}

def own? : Event ε → Option (Event Empty)
  | desktop _ => none
  | sleep ms => some (sleep ms)
  | trace line => some (trace line)
  | print text => some (print text)

def emitted? : Event ε → Option ε
  | desktop emitted => some emitted
  | _ => none

end Event

namespace Stage

variable {σ ε α : Type}

def own (s : Stage σ ε) : List (Event Empty) :=
  s.events.toList.filterMap Event.own?

def emitted (s : Stage σ ε) : List ε :=
  s.events.toList.filterMap Event.emitted?

theorem own_record (s : Stage σ ε) (e : Event ε) : (s.record e).own = s.own ++ e.own?.toList := by
  cases e <;> simp [own, record, Event.own?]

theorem emitted_record (s : Stage σ ε) (e : Event ε) : (s.record e).emitted = s.emitted ++ e.emitted?.toList := by
  cases e <;> simp [emitted, record, Event.emitted?]

theorem own_answered (s : Stage σ ε) (r : Reply σ ε α) : (s.answered r).own = s.own := by
  simp [own, answered, Event.own?, Function.comp_def]

theorem emitted_answered (s : Stage σ ε) (r : Reply σ ε α) : (s.answered r).emitted = s.emitted ++ r.emitted := by
  simp [emitted, answered, Event.emitted?, Function.comp_def]

theorem emitted_scene (s : Stage σ ε) : s.scene.emitted = s.emitted := by
  have hkept (e : Event ε) : (if (!e.isTrace) = true then e.emitted? else none) = e.emitted? := by
    cases e <;> rfl
  simp only [emitted, scene, Array.toList_filter, List.filterMap_filter, hkept]

end Stage

abbrev Coupling (σ ε τ δ : Type) :=
  σ → List ε → τ → List δ → Prop

section

variable {σ ε τ δ α : Type}

def Reply.Agrees (R : Coupling σ ε τ δ) (es : List ε) (fs : List δ) (r : Reply σ ε α) (r' : Reply τ δ α) : Prop :=
  r.outcome = r'.outcome ∧ R r.state (es ++ r.emitted) r'.state (fs ++ r'.emitted)

end

def Call.Fits (Fits : Point → Prop) : Call → Prop
  | .moveTo place => Fits place
  | _ => True

namespace Stage

variable {σ ε τ δ α : Type} {R : Coupling σ ε τ δ} {s : Stage σ ε} {t : Stage τ δ}

structure Alongside (R : Coupling σ ε τ δ) (s : Stage σ ε) (t : Stage τ δ) : Prop where
  player : s.player = t.player
  cancelled : s.cancelled = t.cancelled
  handler : s.handler = t.handler
  cue : s.cue = t.cue
  sleeps : s.sleeps = t.sleeps
  presses : s.presses = t.presses
  own : s.own = t.own
  coupled : R s.desktop s.emitted t.desktop t.emitted

theorem Alongside.withPlayer (h : s.Alongside R t) (q : Player) :
    Alongside R { s with player := q } { t with player := q } :=
  ⟨rfl, h.cancelled, h.handler, h.cue, h.sleeps, h.presses, h.own, h.coupled⟩

theorem Alongside.record {e : Event ε} {e' : Event δ} (h : s.Alongside R t) (hown : e.own? = e'.own?)
    (hs : e.emitted? = none) (ht : e'.emitted? = none) : (s.record e).Alongside R (t.record e') := by
  refine ⟨h.player, h.cancelled, h.handler, h.cue, h.sleeps, h.presses, ?_, ?_⟩
  · rw [own_record, own_record, h.own, hown]
  · simp only [emitted_record, hs, ht, Option.toList_none, List.append_nil]
    exact h.coupled

theorem Alongside.answered {r : Reply σ ε α} {r' : Reply τ δ α} (h : s.Alongside R t)
    (hr : r.Agrees R s.emitted t.emitted r') : (s.answered r).Alongside R (t.answered r') := by
  refine ⟨h.player, h.cancelled, h.handler, h.cue, h.sleeps, h.presses, ?_, ?_⟩
  · rw [own_answered, own_answered, h.own]
  · rw [emitted_answered, emitted_answered]
    exact hr.2

theorem Alongside.receiveIf (h : s.Alongside R t) (due : Bool) : (s.receiveIf due).Alongside R (t.receiveIf due) := by
  cases due with
  | false => exact h
  | true =>
    have hset : Alongside R { s with cancelled := true } { t with cancelled := true } :=
      ⟨h.player, rfl, h.handler, h.cue, h.sleeps, h.presses, h.own, h.coupled⟩
    by_cases hlistens : s.listens
    · have hlistens' : t.listens := by rwa [listens, ← h.cue, ← h.handler]
      rw [Stage.receiveIf, Stage.receiveIf, if_pos rfl, if_pos rfl, receive_of_listens hlistens,
        receive_of_listens hlistens']
      exact hset
    · have hlistens' : ¬ t.listens := by rwa [listens, ← h.cue, ← h.handler]
      rw [Stage.receiveIf, Stage.receiveIf, if_pos rfl, if_pos rfl, receive_of_not_listens hlistens,
        receive_of_not_listens hlistens']
      exact h

theorem Alongside.countSleep (h : s.Alongside R t) : s.countSleep.Alongside R t.countSleep := by
  have hcounted : Alongside R { s with sleeps := s.sleeps + 1 } { t with sleeps := t.sleeps + 1 } :=
    ⟨h.player, h.cancelled, h.handler, h.cue, congrArg (· + 1) h.sleeps, h.presses, h.own, h.coupled⟩
  simp only [Stage.countSleep, ← h.cue, ← h.sleeps] at hcounted ⊢
  exact hcounted.receiveIf _

theorem Alongside.countPress (h : s.Alongside R t) : s.countPress.Alongside R t.countPress := by
  have hcounted : Alongside R { s with presses := s.presses + 1 } { t with presses := t.presses + 1 } :=
    ⟨h.player, h.cancelled, h.handler, h.cue, h.sleeps, congrArg (· + 1) h.presses, h.own, h.coupled⟩
  simp only [Stage.countPress, ← h.cue, ← h.presses] at hcounted ⊢
  exact hcounted.receiveIf _

theorem Alongside.enter (h : s.Alongside R t) (p : Program) (a : Nat) (i : Instruction) :
    (s.enter p a i).Alongside R (t.enter p a i) := by
  have htraced : (s.traced p a i).Alongside R (t.traced p a i) := by
    unfold traced
    rw [← h.player]
    split
    · exact h.record rfl rfl rfl
    · exact h
  have hplayer := htraced.player
  unfold Stage.enter withLoops
  rw [← h.player, ← hplayer]
  exact htraced.withPlayer _

end Stage

namespace Act

open Stage

variable {σ ε τ δ α : Type} {R : Coupling σ ε τ δ} {d : Desktop σ ε} {d' : Desktop τ δ} {Fits : Point → Prop}
  {p : Program} {s : Stage σ ε} {t : Stage τ δ} {x : EStateM.Result Failure (Stage σ ε) α}
  {y : EStateM.Result Failure (Stage τ δ) α}

inductive Together (R : Coupling σ ε τ δ) :
    EStateM.Result Failure (Stage σ ε) α → EStateM.Result Failure (Stage τ δ) α → Prop
  | ok {a : α} {s : Stage σ ε} {t : Stage τ δ} : s.Alongside R t → Together R (.ok a s) (.ok a t)
  | error {e : Failure} {s : Stage σ ε} {t : Stage τ δ} : s.Alongside R t → Together R (.error e s) (.error e t)

theorem Together.mapStage (h : Together R x y) {f : Stage σ ε → Stage σ ε} {f' : Stage τ δ → Stage τ δ}
    (hf : ∀ {s : Stage σ ε} {t : Stage τ δ}, s.Alongside R t → (f s).Alongside R (f' t)) :
    Together R (mapStage f x) (mapStage f' y) := by
  cases h with
  | ok h => exact .ok (hf h)
  | error h => exact .error (hf h)

end Act

namespace Watch

open Act Stage

variable {σ ε τ δ : Type} {R : Coupling σ ε τ δ} {d : Desktop σ ε} {d' : Desktop τ δ} {Fits : Point → Prop}
  {p : Program} {s s' : Stage σ ε} {t t' : Stage τ δ}

end Watch

end InputScript
