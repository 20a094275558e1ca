import InputScript.Proofs.Cancellation

namespace InputScript

variable {σ ε α : Type}

def Outcome.value? : Outcome α → Option α
  | done a => some a
  | failed _ => none
  | replays a => some a

def Call.isSleep : Call → Bool
  | sleep _ => true
  | _ => false

def Call.isPress : Call → Bool
  | press _ => true
  | _ => false

namespace Desktop

variable {d : Desktop σ ε} {x y z : σ} {cs cs' : List Call} {es es' fs : List (Event ε)}

/-- A call that does not fail, with the state in which it leaves the desktop and the events that it gives. -/
inductive Takes (d : Desktop σ ε) (x : σ) : Call → σ → List (Event ε) → Prop
  | trace (line : String) : Takes d x (.trace line) x [.trace line]
  | press (k : Symbol) : (d.press k x).outcome.value? = some () →
      Takes d x (.press k) (d.press k x).state ((d.press k x).emitted.map .desktop)
  | release (k : Symbol) : (d.release k x).outcome.value? = some () →
      Takes d x (.release k) (d.release k x).state ((d.release k x).emitted.map .desktop)
  | moveTo (place : Point) : (d.moveTo place x).outcome.value? = some () →
      Takes d x (.moveTo place) (d.moveTo place x).state ((d.moveTo place x).emitted.map .desktop)
  | print {place : Point} : (d.pointer x).outcome.value? = some place →
      Takes d x (.printPointer false) (d.pointer x).state
        ((d.pointer x).emitted.map .desktop ++ [.print (place.text ++ "\n")])
  | printOver {place : Point} : (d.pointer x).outcome.value? = some place →
      Takes d x (.printPointer true) (d.pointer x).state
        ((d.pointer x).emitted.map .desktop ++ [.print (place.text ++ "\x1b[K\r")])
  | flush : (d.flush x).outcome.value? = some () →
      Takes d x .flush (d.flush x).state ((d.flush x).emitted.map .desktop)
  | sleep (ms : Int) : Takes d x (.sleep ms) x [.sleep ms]

inductive TakesAll (d : Desktop σ ε) : σ → List Call → σ → List (Event ε) → Prop
  | nil (x : σ) : TakesAll d x [] x []
  | cons {x y z : σ} {c : Call} {cs : List Call} {es fs : List (Event ε)} : d.Takes x c y es →
      TakesAll d y cs z fs → TakesAll d x (c :: cs) z (es ++ fs)

theorem Takes.unique {c : Call} (h : d.Takes x c y es) (h' : d.Takes x c z fs) : y = z ∧ es = fs := by
  cases h with
  | print hplace | printOver hplace =>
    cases h' with
    | _ hplace' =>
      obtain rfl := Option.some.inj (hplace.symm.trans hplace')
      exact ⟨rfl, rfl⟩
  | trace | press | release | moveTo | flush | sleep =>
    cases h'
    exact ⟨rfl, rfl⟩

theorem TakesAll.unique (h : d.TakesAll x cs y es) (h' : d.TakesAll x cs z fs) : y = z ∧ es = fs := by
  induction h generalizing z fs with
  | nil =>
    cases h'
    exact ⟨rfl, rfl⟩
  | cons hfirst _ ih =>
    obtain _ | ⟨hfirst', hrest'⟩ := h'
    obtain ⟨rfl, rfl⟩ := hfirst.unique hfirst'
    obtain ⟨rfl, rfl⟩ := ih hrest'
    exact ⟨rfl, rfl⟩

theorem Takes.single {c : Call} (h : d.Takes x c y es) : d.TakesAll x [c] y es := by
  rw [← List.append_nil es]
  exact .cons h (.nil y)

theorem TakesAll.append (h : d.TakesAll x cs y es) (h' : d.TakesAll y cs' z es') :
    d.TakesAll x (cs ++ cs') z (es ++ es') := by
  induction h with
  | nil => exact h'
  | cons hfirst _ ih =>
    rw [List.cons_append, List.append_assoc]
    exact .cons hfirst (ih h')

end Desktop

namespace Stage

variable {d : Desktop σ ε} {s t u : Stage σ ε} {cs cs' : List Call} {es es' : List (Event ε)}

/-- The calls between two stages show in the desktop, in the record and in the counts, and draw nothing. -/
structure Records (d : Desktop σ ε) (s : Stage σ ε) (cs : List Call) (es : List (Event ε)) (t : Stage σ ε) :
    Prop where
  takes : d.TakesAll s.desktop cs t.desktop es
  events : t.events.toList = s.events.toList ++ es
  sleeps : t.sleeps = s.sleeps + cs.countP Call.isSleep
  presses : t.presses = s.presses + cs.countP Call.isPress
  randomSleep : t.player.randomSleep = s.player.randomSleep
  noise : t.player.noise = s.player.noise

theorem records_refl (d : Desktop σ ε) (s : Stage σ ε) : s.Records d [] [] s where
  takes := .nil s.desktop
  events := (List.append_nil _).symm
  sleeps := rfl
  presses := rfl
  randomSleep := rfl
  noise := rfl

theorem Records.append (h : s.Records d cs es t) (h' : t.Records d cs' es' u) :
    s.Records d (cs ++ cs') (es ++ es') u where
  takes := h.takes.append h'.takes
  events := by rw [h'.events, h.events, List.append_assoc]
  sleeps := by rw [h'.sleeps, h.sleeps, List.countP_append, Nat.add_assoc]
  presses := by rw [h'.presses, h.presses, List.countP_append, Nat.add_assoc]
  randomSleep := h'.randomSleep.trans h.randomSleep
  noise := h'.noise.trans h.noise

theorem enter_keeps (s : Stage σ ε) (p : Program) (a : Nat) (i : Instruction) :
    (s.enter p a i).desktop = s.desktop ∧ (s.enter p a i).events = (s.traced p a i).events ∧
      (s.enter p a i).sleeps = s.sleeps ∧ (s.enter p a i).presses = s.presses ∧
        (s.enter p a i).player.randomSleep = s.player.randomSleep ∧
          (s.enter p a i).player.noise = s.player.noise := by
  unfold enter traced
  split <;> exact ⟨rfl, rfl, rfl, rfl, rfl, rfl⟩

theorem scene_events (s : Stage σ ε) : s.scene.events.toList = s.events.toList.filter (!·.isTrace) :=
  Array.toList_filter

end Stage

namespace Act

open Stage

variable {d : Desktop σ ε} {c : Call} {cs : List Call} {s t : Stage σ ε} {ms : Int}

theorem answered_of_ask {call : σ → Reply σ ε α} {received : Stage σ ε → Stage σ ε} {a : α}
    (h : ask call received s = .ok a t) :
    (call s.desktop).outcome.value? = some a ∧ ∃ q : Player, q.randomSleep = s.player.randomSleep ∧
      q.noise = s.player.noise ∧ t = received { s.answered (call s.desktop) with player := q } := by
  simp only [ask] at h
  cases houtcome : (call s.desktop).outcome with
  | failed e =>
    rw [houtcome] at h
    cases h
  | done b =>
    rw [houtcome] at h
    obtain ⟨rfl, rfl⟩ := EStateM.Result.ok.inj h
    exact ⟨rfl, s.player, rfl, rfl, rfl⟩
  | replays b =>
    rw [houtcome] at h
    dsimp only at h
    cases hstart : s.player.start? with
    | none =>
      rw [hstart] at h
      cases h
    | some q =>
      rw [hstart] at h
      obtain ⟨rfl, rfl⟩ := EStateM.Result.ok.inj h
      unfold Player.start? at hstart
      split_ifs at hstart
      cases hstart
      exact ⟨rfl, Player.stop { s.player with playing := true, loops := [] }, rfl, rfl, rfl⟩

theorem records_of_ask {call : σ → Reply σ ε Unit} (hcall : c.isSleep = false ∧ c.isPress = false)
    (htakes : (call s.desktop).outcome.value? = some () →
      d.Takes s.desktop c (call s.desktop).state ((call s.desktop).emitted.map .desktop))
    (h : ask call id s = .ok () t) : ∃ es, s.Records d [c] es t := by
  obtain ⟨hvalue, q, hrandom, hnoise, rfl⟩ := answered_of_ask h
  exact ⟨_, (htakes hvalue).single, Array.toList_appendList, by simp [hcall, answered], by simp [hcall, answered],
    hrandom, hnoise⟩

theorem records_of_press {k : Symbol} (h : ask (d.press k) countPress s = .ok () t) :
    ∃ es, s.Records d [.press k] es t := by
  obtain ⟨hvalue, q, hrandom, hnoise, rfl⟩ := answered_of_ask h
  rw [countPress_eq]
  exact ⟨_, (Desktop.Takes.press k hvalue).single, Array.toList_appendList, rfl, rfl, hrandom, hnoise⟩

theorem records_of_print {overwrite : Bool} (h : perform d (.printPointer overwrite) s = .ok () t) :
    ∃ es, s.Records d [.printPointer overwrite] es t := by
  rw [printPointer_eq] at h
  cases hask : ask d.pointer id s with
  | error e u =>
    rw [hask] at h
    cases h
  | ok place u =>
    rw [hask] at h
    obtain ⟨-, rfl⟩ := EStateM.Result.ok.inj h
    obtain ⟨hvalue, q, hrandom, hnoise, rfl⟩ := answered_of_ask hask
    have hevents (printed : Event ε) : ((s.answered (d.pointer s.desktop)).record printed).events.toList =
        s.events.toList ++ ((d.pointer s.desktop).emitted.map .desktop ++ [printed]) := by
      simp [answered, Stage.record]
    cases overwrite with
    | false => exact ⟨_, (Desktop.Takes.print hvalue).single, hevents _, rfl, rfl, hrandom, hnoise⟩
    | true => exact ⟨_, (Desktop.Takes.printOver hvalue).single, hevents _, rfl, rfl, hrandom, hnoise⟩

theorem slept_of_sleep (h : sleep ms s = .ok () t) : ∃ lasting, (s.player.duration? ms).1 = some lasting ∧
    t.desktop = s.desktop ∧ t.events.toList = s.events.toList ++ [.sleep lasting] ∧ t.sleeps = s.sleeps + 1 ∧
      t.presses = s.presses ∧ t.player = (s.player.duration? ms).2 := by
  simp only [sleep] at h
  cases hlasting : (s.player.duration? ms).1 with
  | none =>
    rw [hlasting] at h
    cases h
  | some lasting =>
    rw [hlasting] at h
    obtain ⟨-, rfl⟩ := EStateM.Result.ok.inj h
    rw [countSleep_eq]
    exact ⟨lasting, rfl, rfl, Array.toList_push, rfl, rfl, rfl⟩

theorem records_of_sleep (hexact : s.player.randomSleep = false) (h : sleep ms s = .ok () t) :
    s.Records d [.sleep ms] [.sleep ms] t := by
  obtain ⟨lasting, hlasting, hdesktop, hevents, hsleeps, hpresses, hplayer⟩ := slept_of_sleep h
  have hsame : s.player.duration? ms = (some ms, s.player) := by
    simp [Player.duration?, hexact]
  rw [hsame] at hlasting hplayer
  obtain rfl := Option.some.inj hlasting
  refine ⟨?_, hevents, hsleeps, hpresses, by rw [hplayer], by rw [hplayer]⟩
  rw [hdesktop]
  exact (Desktop.Takes.sleep ms).single

theorem records_of_perform (hexact : c.isSleep = true → s.player.randomSleep = false)
    (h : perform d c s = .ok () t) : ∃ es, s.Records d [c] es t := by
  cases c with
  | trace line =>
    obtain ⟨-, rfl⟩ := EStateM.Result.ok.inj h
    exact ⟨_, (Desktop.Takes.trace line).single, Array.toList_push, rfl, rfl, rfl, rfl⟩
  | press k => exact records_of_press h
  | release k => exact records_of_ask ⟨rfl, rfl⟩ (.release k) h
  | moveTo place => exact records_of_ask ⟨rfl, rfl⟩ (.moveTo place) h
  | printPointer overwrite => exact records_of_print h
  | flush => exact records_of_ask ⟨rfl, rfl⟩ .flush h
  | sleep ms => exact ⟨_, records_of_sleep (hexact rfl) h⟩

theorem records_of_performAll (hexact : ∀ c ∈ cs, c.isSleep = true → s.player.randomSleep = false)
    (h : performAll d cs s = .ok () t) : ∃ es, s.Records d cs es t := by
  induction cs generalizing s with
  | nil =>
    obtain ⟨-, rfl⟩ := EStateM.Result.ok.inj h
    exact ⟨[], records_refl d s⟩
  | cons c cs ih =>
    obtain ⟨hfirst, hrest⟩ := List.forall_mem_cons.mp hexact
    rw [performAll_cons] at h
    cases hcalled : perform d c s with
    | error e u =>
      rw [hcalled] at h
      cases h
    | ok _ u =>
      rw [hcalled] at h
      obtain ⟨es, hes⟩ := records_of_perform hfirst hcalled
      rw [← hes.randomSleep] at hrest
      obtain ⟨fs, hfs⟩ := ih hrest h
      exact ⟨es ++ fs, hes.append hfs⟩

theorem performAll_of_step {p : Program} {a : Nat} {i : Instruction} {progress : Progress}
    (h : step d p a i s = .ok progress t) : performAll d (p.calls i) (s.enter p a i) = .ok () t := by
  rw [step_eq] at h
  cases hcalls : performAll d (p.calls i) (s.enter p a i) with
  | error e u =>
    rw [hcalls] at h
    cases h
  | ok _ u =>
    rw [hcalls] at h
    obtain ⟨-, rfl⟩ := EStateM.Result.ok.inj h
    rfl

theorem performAll_snoc_eq_ok : performAll d (cs ++ [c]) s = .ok () t ↔
    ∃ u, performAll d cs s = .ok () u ∧ perform d c u = .ok () t := by
  have hlast (u : Stage σ ε) : performAll d [c] u = perform d c u := by
    rw [performAll_cons]
    cases perform d c u <;> rfl
  rw [performAll_append]
  cases performAll d cs s with
  | error e u => simp
  | ok _ u => simp [hlast]

end Act

end InputScript
