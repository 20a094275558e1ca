import InputScript.Proofs.Surroundings

namespace InputScript

theorem Random.isSome_jittered? {ms : Int} {z : Rat} (h : (deviation? ms z).isSome) : (jittered? ms z).isSome := by
  unfold jittered?
  generalize deviation? ms z = deviation at h ⊢
  cases deviation with
  | none => cases h
  | some deviation => rfl

namespace Event

variable {ε : Type} {e : Event ε} {es fs us : List (Event ε)} {g h : Random.Noise}

def nominal? : Event ε → Option Int
  | .sleep ms => if 0 < ms then some ms else none
  | _ => none

def untimed : Event ε → Event ε
  | .sleep _ => .sleep 0
  | e => e

def traceLine? : Event ε → Option String
  | .trace line => some line
  | _ => none

/-- What happens on a plain stage, as it happens where sleeps are randomized from `g` on, and the noise that is left. -/
inductive Sways : Random.Noise → List (Event ε) → List (Event ε) → Random.Noise → Prop
  | nil (g : Random.Noise) : Sways g [] [] g
  | still {g h : Random.Noise} {e : Event ε} {es fs : List (Event ε)} :
      e.nominal? = none → Sways g es fs h → Sways g (e :: es) (e :: fs) h
  | sleep {g h : Random.Noise} {ms lasting : Int} {es fs : List (Event ε)} :
      0 < ms → Random.jittered? ms g.draw.1 = some lasting → Sways g.draw.2 es fs h →
      Sways g (.sleep ms :: es) (.sleep lasting :: fs) h

theorem nominal?_sleep {ms : Int} (h : 0 < ms) : (sleep ms : Event ε).nominal? = some ms :=
  if_pos h

theorem eq_sleep_of_nominal? {ms : Int} (he : e.nominal? = some ms) : e = .sleep ms ∧ 0 < ms := by
  cases e with
  | sleep ms' =>
    obtain ⟨hpos, hms⟩ := Option.ite_none_right_eq_some.mp he
    cases hms
    exact ⟨rfl, hpos⟩
  | _ => cases he

theorem Sways.split (hsways : Sways g (es ++ fs) us h) :
    ∃ first second m, us = first ++ second ∧ Sways g es first m ∧ Sways m fs second h := by
  induction es generalizing g us with
  | nil => exact ⟨[], us, g, rfl, .nil g, hsways⟩
  | cons e es ih =>
    cases hsways with
    | still hnone hrest =>
      obtain ⟨first, second, m, rfl, hfirst, hsecond⟩ := ih hrest
      exact ⟨e :: first, second, m, rfl, .still hnone hfirst, hsecond⟩
    | @sleep _ _ ms lasting _ _ hpos hlasting hrest =>
      obtain ⟨first, second, m, rfl, hfirst, hsecond⟩ := ih hrest
      exact ⟨.sleep lasting :: first, second, m, rfl, .sleep hpos hlasting hfirst, hsecond⟩

theorem Sways.of_still (hes : ∀ e ∈ es, e.nominal? = none) (hsways : Sways g es us h) : us = es ∧ h = g := by
  induction hsways with
  | nil => exact ⟨rfl, rfl⟩
  | @still _ _ e _ _ _ _ ih =>
    obtain ⟨rfl, rfl⟩ := ih fun e he => hes e (List.mem_cons_of_mem _ he)
    exact ⟨rfl, rfl⟩
  | sleep hpos _ _ _ =>
    have hnone := hes _ List.mem_cons_self
    rw [nominal?_sleep hpos] at hnone
    cases hnone

theorem Sways.untimed_eq (hsways : Sways g es us h) : us.map untimed = es.map untimed := by
  induction hsways with
  | nil => rfl
  | still _ _ ih => rw [List.map_cons, List.map_cons, ih]
  | sleep _ _ _ ih =>
    rw [List.map_cons, List.map_cons, ih]
    rfl

theorem Sways.traceLines_eq (hsways : Sways g es us h) : us.filterMap traceLine? = es.filterMap traceLine? := by
  have huntimed (fs : List (Event ε)) : fs.filterMap traceLine? = (fs.map untimed).filterMap traceLine? := by
    rw [List.filterMap_map]
    congr
    funext e
    cases e <;> rfl
  rw [huntimed us, hsways.untimed_eq, ← huntimed es]

theorem Sways.getElem?_of_still {k : Nat} (hsways : Sways g es us h) (he : es[k]? = some e)
    (hnone : e.nominal? = none) : us[k]? = some e := by
  induction hsways generalizing k with
  | nil => cases he
  | still _ _ ih =>
    cases k with
    | zero => exact he
    | succ k => exact ih he
  | sleep hpos _ _ ih =>
    cases k with
    | zero =>
      cases he
      rw [nominal?_sleep hpos] at hnone
      cases hnone
    | succ k => exact ih he

theorem exists_sways (g : Random.Noise) (es : List (Event ε))
    (hes : ∀ k ms, (es.filterMap nominal?)[k]? = some ms → (Random.jittered? ms (g.skip k).draw.1).isSome) :
    ∃ us, Sways g es us (g.skip (es.filterMap nominal?).length) := by
  induction es generalizing g with
  | nil => exact ⟨[], .nil g⟩
  | cons e es ih =>
    cases he : e.nominal? with
    | none =>
      rw [List.filterMap_cons_none he] at hes ⊢
      obtain ⟨us, hus⟩ := ih g hes
      exact ⟨e :: us, .still he hus⟩
    | some ms =>
      rw [List.filterMap_cons_some he] at hes ⊢
      obtain ⟨rfl, hpos⟩ := eq_sleep_of_nominal? he
      obtain ⟨lasting, hlasting⟩ := Option.isSome_iff_exists.mp (hes 0 ms rfl)
      obtain ⟨us, hus⟩ := ih g.draw.2 fun k ms' hms => hes (k + 1) ms' hms
      exact ⟨.sleep lasting :: us, .sleep hpos hlasting hus⟩

end Event

def Player.source (q : Player) : Bool × Random.Noise :=
  (q.randomSleep, q.noise)

def Player.swayed (g : Random.Noise) (q : Player) : Player :=
  { q with randomSleep := true, noise := g }

theorem Player.start?_swayed (g : Random.Noise) (q : Player) : (q.swayed g).start? = q.start?.map (swayed g) := by
  have hplaying : (q.swayed g).playing = q.playing := rfl
  unfold start?
  rw [hplaying]
  split <;> rfl

theorem Player.source_of_start? {q r : Player} (h : q.start? = some r) : r.source = q.source := by
  unfold start? at h
  split_ifs at h
  cases h
  rfl

def Stage.swayed {σ ε : Type} (s : Stage σ ε) (g : Random.Noise) (past : Array (Event ε)) : Stage σ ε :=
  s.recast (Player.swayed g) past

namespace Act

open Stage

variable {σ ε α β : Type} {d : Desktop σ ε} {p : Program} {s t : Stage σ ε} {x : Act σ ε α}

/-- On a stage with a plain player an action adds events and draws nothing. Where sleeps are randomized it does the same,
but for what becomes of these events. -/
structure Sways (x : Act σ ε α) (s : Stage σ ε) (new : List (Event ε)) : Prop where
  events : (stageOf (x s)).events = s.events ++ new
  source : (stageOf (x s)).player.source = s.player.source
  swayed : ∀ {g us h}, Event.Sways g new us h → ∀ past,
    x (s.swayed g past) = mapStage (·.swayed h (past ++ us)) (x s)

theorem plain_of_source {u : Stage σ ε} (h : u.player.source = s.player.source) (hplain : s.player.randomSleep = false) :
    u.player.randomSleep = false :=
  (congrArg Prod.fst h).trans hplain

theorem Sways.congr {y : Act σ ε α} {new : List (Event ε)} (hx : Sways x s new) (hy : y s = x s)
    (hswayed : ∀ g past, y (s.swayed g past) = x (s.swayed g past)) : Sways y s new where
  events := hy ▸ hx.events
  source := hy ▸ hx.source
  swayed hsways past := by
    rw [hswayed, hy]
    exact hx.swayed hsways past

theorem sways_pure (a : α) (s : Stage σ ε) : Sways (pure a) s [] where
  events := (append_nil _).symm
  source := rfl
  swayed hsways past := by
    cases hsways
    rw [append_nil]
    rfl

theorem sways_throw (e : Failure) (s : Stage σ ε) : Sways (throw e : Act σ ε α) s [] where
  events := (append_nil _).symm
  source := rfl
  swayed hsways past := by
    cases hsways
    rw [append_nil]
    rfl

theorem Sways.bind {f : α → Act σ ε β} {first : List (Event ε)} (hx : Sways x s first)
    (hf : ∀ a t, t.player.source = s.player.source → ∃ second, Sways (f a) t second) :
    ∃ new, Sways (x >>= f) s new := by
  obtain ⟨hevents, hsource, hswayed⟩ := hx
  cases hxs : x s with
  | error e t =>
    have hbind : (x >>= f) s = .error e t := by simp only [Bind.bind, EStateM.bind, hxs]
    rw [hxs] at hevents hsource
    refine ⟨first, hbind ▸ hevents, hbind ▸ hsource, fun hsways past => ?_⟩
    simp only [Bind.bind, EStateM.bind, hswayed hsways, hxs, mapStage]
  | ok a t =>
    rw [hxs] at hevents hsource
    obtain ⟨second, hevents', hsource', hswayed'⟩ := hf a t hsource
    have hbind : (x >>= f) s = f a t := by simp only [Bind.bind, EStateM.bind, hxs]
    refine ⟨first ++ second, ?_, ?_, fun hsways past => ?_⟩
    · rw [hbind, hevents', append_append, ← hevents]
      rfl
    · rw [hbind, hsource', ← hsource]
      rfl
    · obtain ⟨us, vs, m, rfl, hus, hvs⟩ := hsways.split
      simp only [Bind.bind, EStateM.bind, hswayed hus, hxs, mapStage, hswayed' hvs, append_append]

theorem ask_sways (call : σ → Reply σ ε α) {received : Stage σ ε → Stage σ ε}
    (hreceived : ∀ (t : Stage σ ε) f past, received (t.recast f past) = (received t).recast f past)
    (s : Stage σ ε) : Sways (ask call received) s ((call s.desktop).emitted.map Event.desktop) := by
  have hkept (t : Stage σ ε) : (received t).player = t.player ∧ (received t).events = t.events := by
    have ht : received t = (received t).recast (fun _ => t.player) t.events :=
      hreceived t (fun _ => t.player) t.events
    rw [ht]
    exact ⟨rfl, rfl⟩
  have hplain : (stageOf (ask call received s)).events = s.events ++ (call s.desktop).emitted.map Event.desktop ∧
      (stageOf (ask call received s)).player.source = s.player.source := by
    simp only [ask]
    cases (call s.desktop).outcome with
    | done a => exact ⟨(hkept _).2, congrArg Player.source (hkept _).1⟩
    | failed e => exact ⟨rfl, rfl⟩
    | replays a =>
      cases hq : s.player.start? with
      | none => exact ⟨rfl, rfl⟩
      | some q =>
        have hsource : q.stop.source = s.player.source := Player.source_of_start? (r := q) hq
        exact ⟨(hkept _).2, (congrArg Player.source (hkept _).1).trans hsource⟩
  refine ⟨hplain.1, hplain.2, ?_⟩
  intro g us h hsways past
  obtain ⟨rfl, rfl⟩ := hsways.of_still fun e he => by
    obtain ⟨emitted, -, rfl⟩ := List.mem_map.mp he
    rfl
  have hdesktop : (s.swayed h past).desktop = s.desktop := rfl
  have hstart : (s.swayed h past).player.start? = s.player.start?.map (Player.swayed h) := s.player.start?_swayed h
  simp only [ask, hdesktop, hstart]
  cases (call s.desktop).outcome with
  | done a =>
    simp only [mapStage, Stage.swayed, ← hreceived]
    rfl
  | failed e => rfl
  | replays a =>
    cases s.player.start? with
    | none => rfl
    | some q =>
      simp only [mapStage, Option.map_some, Stage.swayed, ← hreceived]
      rfl

theorem record_sways {event : Event ε} (hnone : event.nominal? = none) (s : Stage σ ε) :
    Sways (record event) s [event] where
  events := (append_single _ _).symm
  source := rfl
  swayed hsways past := by
    obtain ⟨rfl, rfl⟩ := hsways.of_still (by simpa using hnone)
    rw [append_single]
    rfl

theorem sleep_sways (ms : Int) (hplain : s.player.randomSleep = false) : Sways (sleep ms) s [.sleep ms] := by
  have hsleep : sleep ms s = .ok () (s.record (.sleep ms)).countSleep := by
    rw [sleep_eq, Player.duration?, hplain]
    rfl
  have hcount := (s.record (.sleep ms)).countSleep_recast (fun _ => s.player) (s.record (.sleep ms)).events
  refine ⟨?_, ?_, ?_⟩
  · rw [hsleep, append_single]
    exact congrArg Stage.events hcount
  · rw [hsleep]
    exact congrArg (·.player.source) hcount
  · intro g us h hsways past
    have hplayer : (s.swayed g past).player = s.player.swayed g := rfl
    rw [hsleep, sleep_eq, hplayer]
    cases hsways with
    | still hnone hrest =>
      cases hrest
      have hduration : (s.player.swayed g).duration? ms = (some ms, s.player.swayed g) := by
        have hshort : ¬ 0 < ms := fun hpos => by
          rw [Event.nominal?_sleep hpos] at hnone
          cases hnone
        rw [Player.duration?, decide_eq_false hshort, Bool.and_false]
        rfl
      rw [hduration, append_single]
      simp only [mapStage, Stage.swayed, ← countSleep_recast]
      rfl
    | sleep hpos hlasting hrest =>
      cases hrest
      have hduration : (s.player.swayed g).duration? ms =
          (Random.jittered? ms g.draw.1, s.player.swayed g.draw.2) := by
        rw [Player.duration?, decide_eq_true hpos]
        rfl
      rw [hduration, hlasting, append_single]
      simp only [mapStage, Stage.swayed, ← countSleep_recast]
      rfl

theorem perform_sways (d : Desktop σ ε) (c : Call) (hplain : s.player.randomSleep = false) :
    ∃ new, Sways (perform d c) s new := by
  have hid (t : Stage σ ε) (f : Player → Player) (past : Array (Event ε)) :
      id (t.recast f past) = (id t).recast f past := rfl
  cases c with
  | trace line => exact ⟨_, record_sways rfl s⟩
  | press k => exact ⟨_, ask_sways _ countPress_recast s⟩
  | release k => exact ⟨_, ask_sways _ hid s⟩
  | moveTo place => exact ⟨_, ask_sways _ hid s⟩
  | printPointer overwrite => exact (ask_sways _ hid s).bind fun place t _ => ⟨_, record_sways rfl t⟩
  | flush => exact ⟨_, ask_sways _ hid s⟩
  | sleep ms => exact ⟨_, sleep_sways ms hplain⟩

theorem performAll_sways (d : Desktop σ ε) (cs : List Call) (hplain : s.player.randomSleep = false) :
    ∃ new, Sways (performAll d cs) s new := by
  induction cs generalizing s with
  | nil => exact ⟨[], sways_pure () s⟩
  | cons c cs ih =>
    obtain ⟨first, hfirst⟩ := perform_sways d c hplain
    rw [performAll_cons_eq]
    exact hfirst.bind fun _ t ht => ih (plain_of_source ht hplain)

theorem choice_sways {c : Stage σ ε → Prop} [DecidablePred c] {y : Act σ ε α} (hc : ∀ g past, c (s.swayed g past) ↔ c s)
    (hx : ∃ new, Sways x s new) (hy : ∃ new, Sways y s new) :
    ∃ new, Sways (fun t => (if c t then x else y) t) s new := by
  by_cases hs : c s
  · obtain ⟨new, hx⟩ := hx
    exact ⟨new, hx.congr (by rw [if_pos hs]) fun g past => by rw [if_pos ((hc g past).mpr hs)]⟩
  · obtain ⟨new, hy⟩ := hy
    exact ⟨new, hy.congr (by rw [if_neg hs]) fun g past => by rw [if_neg fun h => hs ((hc g past).mp h)]⟩

theorem trace_sways (p : Program) (a : Nat) (i : Instruction) (s : Stage σ ε) : ∃ new, Sways (trace p a i) s new :=
  choice_sways (fun _ _ => Iff.rfl) ⟨_, record_sways rfl s⟩ ⟨_, sways_pure () s⟩

theorem follow_sways (i : Instruction) (next : Nat) (s : Stage σ ε) : Sways (follow i next) s [] where
  events := (append_nil _).symm
  source := rfl
  swayed hsways past := by
    cases hsways
    rw [append_nil]
    rfl

theorem step_sways (d : Desktop σ ε) (p : Program) (a : Nat) (i : Instruction) (hplain : s.player.randomSleep = false) :
    ∃ new, Sways (step d p a i) s new := by
  obtain ⟨_, htrace⟩ := trace_sways p a i s
  refine htrace.bind fun _ t ht => (follow_sways i (a + 1) t).bind fun next u hu => ?_
  obtain ⟨_, hcalls⟩ := performAll_sways d (p.calls i) (plain_of_source (hu.trans ht) hplain)
  exact hcalls.bind fun _ v _ => choice_sways (fun _ _ => Iff.rfl) ⟨_, sways_pure _ v⟩ ⟨_, sways_pure _ v⟩

theorem run_sways (d : Desktop σ ε) (p : Program) (n a : Nat) (hplain : s.player.randomSleep = false) :
    ∃ new, Sways (run d p n a) s new := by
  induction n generalizing a s with
  | zero =>
    unfold run
    cases p.instructions[a]? with
    | none => exact ⟨[], sways_pure _ s⟩
    | some i => exact ⟨[], sways_pure _ s⟩
  | succ n ih =>
    unfold run
    cases p.instructions[a]? with
    | none => exact ⟨[], sways_pure _ s⟩
    | some i =>
      obtain ⟨_, hstep⟩ := step_sways d p a i hplain
      refine hstep.bind fun progress t ht => ?_
      cases progress with
      | next b => exact ih b (plain_of_source ht hplain)
      | cancelled => exact ⟨[], sways_pure _ t⟩

theorem Sways.framed {y : Act σ ε α} {u : Stage σ ε} {new : List (Event ε)} (hx : Sways x u new)
    (f : Stage σ ε → Stage σ ε) (hu : u.events = s.events ∧ u.player.source = s.player.source)
    (hf : ∀ t, (f t).events = t.events ∧ (f t).player.source = t.player.source)
    (hf' : ∀ t g past, f (t.swayed g past) = (f t).swayed g past)
    (hy : y s = mapStage f (x u)) (hy' : ∀ g past, y (s.swayed g past) = mapStage f (x (u.swayed g past))) :
    Sways y s new := by
  have hstage : stageOf (y s) = f (stageOf (x u)) := by
    rw [hy, stageOf_mapStage]
  refine ⟨?_, ?_, fun hsways past => ?_⟩
  · rw [hstage, (hf _).1, hx.events, hu.1]
  · rw [hstage, (hf _).2, hx.source, hu.2]
  · rw [hy', hx.swayed hsways, hy]
    cases x u <;> simp only [mapStage, hf']

theorem whilePlaying_sways (hx : ∀ t : Stage σ ε, t.player.source = s.player.source → ∃ new, Sways x t new) :
    ∃ new, Sways (whilePlaying x) s new := by
  cases hplaying : s.player.playing with
  | true =>
    have hbusy (t : Stage σ ε) (ht : t.player.playing = true) :
        whilePlaying x t = (throw .alreadyPlaying : Act σ ε α) t := by
      simp only [whilePlaying, Player.start?, ht, if_true]
      rfl
    exact ⟨[], (sways_throw _ s).congr (hbusy s hplaying) fun g past => hbusy (s.swayed g past) hplaying⟩
  | false =>
    obtain ⟨new, hnew⟩ := hx s.started rfl
    exact ⟨new, hnew.framed stopped ⟨rfl, rfl⟩ (fun _ => ⟨rfl, rfl⟩) (fun _ _ _ => rfl) (whilePlaying_eq x hplaying)
      fun g past => whilePlaying_eq x hplaying⟩

theorem withOwnToken_sways (catches : Bool)
    (hx : ∀ t : Stage σ ε, t.player.source = s.player.source → ∃ new, Sways x t new) :
    ∃ new, Sways (withOwnToken catches x) s new := by
  obtain ⟨new, hnew⟩ := hx { s with cancelled := false, handler := if catches then .cancelsPlay else s.handler } rfl
  exact ⟨new, hnew.framed (fun after => { after with cancelled := s.cancelled, handler := s.handler }) ⟨rfl, rfl⟩
    (fun _ => ⟨rfl, rfl⟩) (fun _ _ _ => rfl) (withOwnToken_eq catches x s)
    fun g past => withOwnToken_eq catches x (s.swayed g past)⟩

theorem play_sways (d : Desktop σ ε) (p : Program) (n : Nat) (hplain : s.player.randomSleep = false) :
    ∃ new, Sways (play d p n) s new :=
  whilePlaying_sways fun _ ht => run_sways d p n 0 (plain_of_source ht hplain)

theorem playAlone_sways (d : Desktop σ ε) (p : Program) (n : Nat) (mainThread : Bool)
    (hplain : s.player.randomSleep = false) : ∃ new, Sways (playAlone d p n mainThread) s new := by
  cases hplaying : s.player.playing with
  | true =>
    have hbusy (t : Stage σ ε) (ht : t.player.playing = true) :
        playAlone d p n mainThread t = (throw .alreadyPlaying : Act σ ε (Option Bool)) t := by
      obtain ⟨⟨_, _, _, _, playing⟩, _⟩ := t
      cases ht
      rfl
    exact ⟨[], (sways_throw _ s).congr (hbusy s hplaying) fun g past => hbusy (s.swayed g past) hplaying⟩
  | false =>
    have hidle (t : Stage σ ε) (ht : t.player.playing = false) :
        playAlone d p n mainThread t = withOwnToken mainThread (play d p n) t := by
      obtain ⟨⟨_, _, _, _, playing⟩, _⟩ := t
      cases ht
      rfl
    obtain ⟨new, hnew⟩ := withOwnToken_sways mainThread fun t ht => play_sways d p n (plain_of_source ht hplain)
    exact ⟨new, hnew.congr (hidle s hplaying) fun g past => hidle (s.swayed g past) hplaying⟩

/-- A player that randomizes its sleeps does on any desktop what it does without, with a token or alone, and however
that ends: the result or the failure is the same, and so is the stage, with the loops of the player, but for the
durations in the record. It draws once for each sleep that is to last at all; a plain player does not draw. -/
theorem play_randomized (d : Desktop σ ε) (p : Program) (n : Nat) (s : Stage σ ε) (hplain : s.player.randomSleep = false)
    (x : Act σ ε (Option Bool)) (hx : x = play d p n ∨ ∃ mainThread, x = playAlone d p n mainThread) :
    ∃ new : List (Event ε), (stageOf (x s)).events = s.events ++ new ∧
      (stageOf (x s)).player.noise = s.player.noise ∧
      ∀ g : Random.Noise,
        let lengths := new.filterMap Event.nominal?
        (∀ k ms, lengths[k]? = some ms → (Random.deviation? ms (g.skip k).draw.1).isSome) →
        ∃ us : List (Event ε),
          x (s.swayed g s.events) = mapStage (·.swayed (g.skip lengths.length) (s.events ++ us)) (x s) ∧
            us.map Event.untimed = new.map Event.untimed ∧
            us.filterMap Event.traceLine? = new.filterMap Event.traceLine? ∧
            ∀ k : Nat, new[k]? = some (.sleep 0) → us[k]? = some (.sleep 0) := by
  obtain ⟨new, hnew⟩ : ∃ new, Sways x s new := by
    rcases hx with rfl | ⟨mainThread, rfl⟩
    · exact play_sways d p n hplain
    · exact playAlone_sways d p n mainThread hplain
  refine ⟨new, hnew.events, congrArg Prod.snd hnew.source, fun g => ?_⟩
  intro lengths hfinite
  obtain ⟨us, hus⟩ := Event.exists_sways g new fun k ms hms =>
    Random.isSome_jittered? (hfinite k ms hms)
  exact ⟨us, hnew.swayed hus s.events, hus.untimed_eq, hus.traceLines_eq, fun k hk => hus.getElem?_of_still hk rfl⟩

theorem play_randomized_of_cancelled_loop :
    let p : Program := ⟨#[⟨.loopBegin, 0, by decide⟩, ⟨.sleepMs, 0, by decide⟩, ⟨.sleepMs, 7, by decide⟩], #[]⟩
    let s : Stage DryRun (List DryRunLine) :=
      (Stage.new (.idle false false (.ofList [])) .fresh).prepare ⟨.cancel, some 3, none⟩
    let g : Random.Noise := .ofList [1, -1]
    let random := stageOf (play DryRun.desktop p 5 (s.swayed g s.events))
    random.player.loops = [⟨1, 0⟩] ∧ random.player.noise = g.skip 2 ∧
      random.events.toList.map Event.untimed = [.desktop [], .sleep 0, .sleep 0, .sleep 0] := by
  intro p s g random
  obtain ⟨new, hevents, -, hrandom⟩ := play_randomized DryRun.desktop p 5 s rfl _ (.inl rfl)
  obtain ⟨hrecord, hloops, hfinite⟩ :
      (stageOf (play DryRun.desktop p 5 s)).events = #[.desktop [], .sleep 50, .sleep 0, .sleep 7] ∧
        (stageOf (play DryRun.desktop p 5 s)).player.loops = [⟨1, 0⟩] ∧
        (Random.deviation? 50 1).isSome ∧ (Random.deviation? 7 (-1)).isSome := by
    decide +kernel
  have hnew : new = [.desktop [], .sleep 50, .sleep 0, .sleep 7] := by
    have hlists := congrArg Array.toList (hevents.symm.trans hrecord)
    simpa [s, Stage.prepare, Stage.new] using hlists
  have hlengths : new.filterMap Event.nominal? = [50, 7] := by
    rw [hnew]
    rfl
  have hdraws : ∀ k ms, (new.filterMap Event.nominal?)[k]? = some ms →
      (Random.deviation? ms (g.skip k).draw.1).isSome := by
    rw [hlengths]
    intro k ms hms
    match k with
    | 0 =>
      obtain rfl : 50 = ms := Option.some.inj hms
      rw [show (g.skip 0).draw.1 = 1 from rfl]
      exact hfinite.1
    | 1 =>
      obtain rfl : 7 = ms := Option.some.inj hms
      rw [show (g.skip 1).draw.1 = -1 from rfl]
      exact hfinite.2
  obtain ⟨us, hsame, huntimed, -, -⟩ := hrandom g hdraws
  rw [hlengths] at hsame
  rw [hnew] at huntimed
  have hstage := congrArg stageOf hsame
  rw [stageOf_mapStage] at hstage
  -- the plain play is named, as it would be evaluated again otherwise
  generalize stageOf (play DryRun.desktop p 5 s) = t at hloops hstage
  have hus : (s.events ++ us).toList = us := by simp [s, Stage.prepare, Stage.new]
  refine ⟨?_, ?_, ?_⟩
  · exact (congrArg (·.player.loops) hstage).trans hloops
  · exact congrArg (·.player.noise) hstage
  · rw [← hus] at huntimed
    exact (congrArg (fun t => t.events.toList.map Event.untimed) hstage).trans huntimed

end Act

end InputScript
