import InputScript.Proofs.LoopStack

/-!
What the calls of an instruction leave alone. They add to the record, whatever it holds, and what they add is
never a line of the trace. They neither look at the loops of the player nor change them.
-/

namespace InputScript

namespace Stage

variable {σ ε : Type}

def amid (s : Stage σ ε) (past : Array (Event ε)) (loops : List Frame) : Stage σ ε :=
  { s with events := past, player := { s.player with loops } }

theorem amid_self (s : Stage σ ε) : s.amid s.events s.player.loops = s := rfl

@[simp] theorem amid_amid (s : Stage σ ε) (past past' : Array (Event ε)) (loops loops' : List Frame) :
    (s.amid past loops).amid past' loops' = s.amid past' loops' := rfl

def recast (s : Stage σ ε) (f : Player → Player) (past : Array (Event ε)) : Stage σ ε :=
  { s with events := past, player := f s.player }

theorem receiveIf_recast (s : Stage σ ε) (due : Bool) (f : Player → Player) (past : Array (Event ε)) :
    (s.recast f past).receiveIf due = (s.receiveIf due).recast f past := by
  have hcue : (s.recast f past).cue = s.cue := rfl
  have hhandler : (s.recast f past).handler = s.handler := rfl
  simp only [receiveIf, receive, hcue, hhandler]
  cases due with
  | false => rfl
  | true => cases s.cue.signal <;> cases s.handler <;> rfl

theorem countSleep_recast (s : Stage σ ε) (f : Player → Player) (past : Array (Event ε)) :
    (s.recast f past).countSleep = s.countSleep.recast f past :=
  receiveIf_recast { s with sleeps := s.sleeps + 1 } (s.cue.atSleep == some (s.sleeps + 1)) f past

theorem countPress_recast (s : Stage σ ε) (f : Player → Player) (past : Array (Event ε)) :
    (s.recast f past).countPress = s.countPress.recast f past :=
  receiveIf_recast { s with presses := s.presses + 1 } (s.cue.atPress == some (s.presses + 1)) f past

theorem countSleep_amid (s : Stage σ ε) (past : Array (Event ε)) (loops : List Frame) :
    (s.amid past loops).countSleep = s.countSleep.amid past loops :=
  s.countSleep_recast (fun q => { q with loops }) past

theorem countPress_amid (s : Stage σ ε) (past : Array (Event ε)) (loops : List Frame) :
    (s.amid past loops).countPress = s.countPress.amid past loops :=
  s.countPress_recast (fun q => { q with loops }) past

end Stage

theorem Player.duration?_loops (q : Player) (loops : List Frame) (ms : Int) :
    Player.duration? { q with loops } ms = ((q.duration? ms).1, { (q.duration? ms).2 with loops }) := by
  unfold duration?
  dsimp only
  split <;> rfl

namespace Act

open Stage

variable {σ ε α : Type} {d : Desktop σ ε} {c : Call} {cs : List Call} {s t : Stage σ ε}

def mapStage (f : Stage σ ε → Stage σ ε) :
    EStateM.Result Failure (Stage σ ε) α → EStateM.Result Failure (Stage σ ε) α
  | .ok a t => .ok a (f t)
  | .error e t => .error e (f t)

theorem mapStage_mapStage (f g : Stage σ ε → Stage σ ε) (r : EStateM.Result Failure (Stage σ ε) α) :
    mapStage f (mapStage g r) = mapStage (fun t => f (g t)) r := by
  cases r <;> rfl

theorem stageOf_mapStage (f : Stage σ ε → Stage σ ε) (r : EStateM.Result Failure (Stage σ ε) α) :
    stageOf (mapStage f r) = f (stageOf r) := by
  cases r <;> rfl

theorem whilePlaying_eq (x : Act σ ε α) (hs : s.player.playing = false) :
    whilePlaying x s = mapStage stopped (x s.started) := by
  rw [whilePlaying_idle x hs]
  cases x s.started <;> rfl

theorem withOwnToken_eq (catches : Bool) (x : Act σ ε α) (s : Stage σ ε) : withOwnToken catches x s =
    mapStage (fun after => { after with cancelled := s.cancelled, handler := s.handler })
      (x { s with cancelled := false, handler := if catches then .cancelsPlay else s.handler }) := by
  simp only [withOwnToken]
  cases x { s with cancelled := false, handler := if catches then .cancelsPlay else s.handler } <;> rfl

theorem append_single (past : Array (Event ε)) (e : Event ε) : past ++ [e] = past.push e := by simp

theorem append_nil (past : Array (Event ε)) : past ++ ([] : List (Event ε)) = past := by simp

theorem append_append (past : Array (Event ε)) (es fs : List (Event ε)) : past ++ (es ++ fs) = past ++ es ++ fs := by
  simp [← Array.toList_inj]

def Adds (x : Act σ ε α) (s : Stage σ ε) : Prop :=
  ∃ new : List (Event ε), (∀ e ∈ new, e.isTrace = false) ∧
    ∀ past loops, x (s.amid past loops) = mapStage (·.amid (past ++ new) loops) (x s)

theorem ask_adds (call : σ → Reply σ ε α) {received : Stage σ ε → Stage σ ε}
    (hreceived : ∀ (t : Stage σ ε) past loops, received (t.amid past loops) = (received t).amid past loops)
    (hs : s.player.playing = true) : Adds (ask call received) s := by
  refine ⟨(call s.desktop).emitted.map .desktop, ?_, ?_⟩
  · intro e he
    obtain ⟨emitted, -, rfl⟩ := List.mem_map.mp he
    rfl
  · intro past loops
    have hdesktop : (s.amid past loops).desktop = s.desktop := rfl
    have hplaying : (s.amid past loops).player.playing = true := hs
    simp only [ask, hdesktop, Player.start?, hs, hplaying, if_true]
    cases (call s.desktop).outcome with
    | done a =>
      simp only [mapStage, ← hreceived]
      rfl
    | failed e => rfl
    | replays a => rfl

theorem record_adds {event : Event ε} (h : event.isTrace = false) (s : Stage σ ε) : Adds (record event) s := by
  refine ⟨[event], ?_, fun past loops => ?_⟩
  · simpa using h
  · rw [append_single]
    rfl

theorem sleep_eq (ms : Int) (s : Stage σ ε) :
    sleep ms s =
      match (s.player.duration? ms).1 with
      | some lasting => .ok () (({ s with player := (s.player.duration? ms).2 }.record (.sleep lasting)).countSleep)
      | none => .error .endlessSleep { s with player := (s.player.duration? ms).2 } := rfl

theorem sleep_adds (ms : Int) (s : Stage σ ε) : Adds (sleep ms) s := by
  have hamid (past : Array (Event ε)) (loops : List Frame) :
      (s.amid past loops).player = { s.player with loops } := rfl
  cases hlasting : (s.player.duration? ms).1 with
  | none =>
    refine ⟨[], fun e he => (nomatch he), fun past loops => ?_⟩
    rw [sleep_eq, sleep_eq, hamid, Player.duration?_loops, hlasting, append_nil]
    rfl
  | some lasting =>
    refine ⟨[.sleep lasting], fun e he => ?_, fun past loops => ?_⟩
    · obtain rfl := List.mem_singleton.mp he
      rfl
    · rw [sleep_eq, sleep_eq, hamid, Player.duration?_loops, hlasting, append_single]
      simp only [mapStage, ← countSleep_amid]
      rfl

theorem Adds.bind {β : Type} {x : Act σ ε α} {f : α → Act σ ε β} (hx : Adds x s)
    (hf : ∀ a t, x s = .ok a t → Adds (f a) t) : Adds (x >>= f) s := by
  obtain ⟨first, hfirst, hx⟩ := hx
  cases hxs : x s with
  | error e t =>
    refine ⟨first, hfirst, fun past loops => ?_⟩
    simp only [Bind.bind, EStateM.bind, hx, hxs, mapStage]
  | ok a t =>
    obtain ⟨second, hsecond, hft⟩ := hf a t hxs
    refine ⟨first ++ second, ?_, fun past loops => ?_⟩
    · intro e he
      rcases List.mem_append.mp he with he | he
      · exact hfirst e he
      · exact hsecond e he
    · simp only [Bind.bind, EStateM.bind, hx, hxs, mapStage, hft, append_append]

theorem perform_adds (d : Desktop σ ε) (hc : c.Plain) (hs : s.player.playing = true) : Adds (perform d c) s := by
  have hid (t : Stage σ ε) (past : Array (Event ε)) (loops : List Frame) :
      id (t.amid past loops) = (id t).amid past loops := rfl
  cases c with
  | trace line => exact absurd hc id
  | press k => exact ask_adds _ countPress_amid hs
  | release k => exact ask_adds _ hid hs
  | moveTo place => exact ask_adds _ hid hs
  | printPointer overwrite => exact (ask_adds _ hid hs).bind fun place t _ => record_adds rfl t
  | flush => exact ask_adds _ hid hs
  | sleep ms => exact sleep_adds ms s

theorem performAll_adds (d : Desktop σ ε) (hcs : ∀ c ∈ cs, c.Plain) (hs : s.player.playing = true) :
    Adds (performAll d cs) s := by
  induction cs generalizing s with
  | nil =>
    refine ⟨[], fun e he => (nomatch he), fun past loops => ?_⟩
    rw [append_nil]
    rfl
  | cons c cs ih =>
    rw [performAll_cons_eq]
    apply (perform_adds d (hcs c List.mem_cons_self) hs).bind
    intro _ t ht
    exact ih (fun c hc => hcs c (List.mem_cons_of_mem _ hc)) (playing_of_perform ht hs)

end Act

end InputScript
