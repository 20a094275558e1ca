import InputScript.Proofs.Rehearsal
import InputScript.Proofs.Unfolding

namespace InputScript

def OfText (c : Char) : Prop :=
  c = '\t' ∨ c = '\n' ∨ c = ' ' ∨ ('!' ≤ c ∧ c ≤ '~')

instance : DecidablePred OfText :=
  fun c => inferInstanceAs (Decidable (c = '\t' ∨ c = '\n' ∨ c = ' ' ∨ ('!' ≤ c ∧ c ≤ '~')))

def doubled (c : Char) : List Char :=
  if c = '\\' then ['\\', '\\'] else [c]

def scriptOf (text : String) : String :=
  String.ofList (text.toList.flatMap doubled)

def typedTarget : Char → Target
  | ' ' => .named "space"
  | '\t' => .named "tab"
  | '\n' => .named "enter"
  | c => .char c

def Token.typing (c : Char) : Token :=
  if c = '\\' then .short '\\' else .char c

theorem Token.text_typing (c : Char) : (typing c).text = doubled c := by
  unfold typing doubled
  split_ifs <;> rfl

theorem Key.target_of_char? {k : Key} {c : Char} (h : k.char? = some c) (hc : c ≠ ' ') : k.target = .char c := by
  cases k with
  | digit n | capital n | small n => exact congrArg Target.char (Option.some.inj h)
  | control x => cases h
  | mark m =>
    cases m with
    | space => exact absurd (Option.some.inj h).symm hc
    | _ => exact congrArg Target.char (Option.some.inj h)

theorem typedTarget_of_printed {c : Char} (hfirst : '!' ≤ c) : typedTarget c = .char c := by
  unfold typedTarget
  split
  · exact absurd hfirst (by decide)
  · exact absurd hfirst (by decide)
  · exact absurd hfirst (by decide)
  · rfl

theorem exists_key {c : Char} (hc : OfText c) :
    ∃ k : Key, (Token.typing c).Means false (.single (.key .click k)) ∧ k.target = typedTarget c := by
  have hkeep {c : Char} : false = true → c ∉ spaces := fun h => (nomatch h)
  rcases hc with rfl | rfl | rfl | ⟨hfirst, hlast⟩
  · exact ⟨.control .tab, .typed hkeep .tab, rfl⟩
  · exact ⟨.control .enter, .typed hkeep .lineFeed, rfl⟩
  · exact ⟨.mark .space, .typed hkeep .space, rfl⟩
  · rw [typedTarget_of_printed hfirst]
    -- A backslash does not type itself: it is written as the short command of its key.
    by_cases hescape : c = '\\'
    · subst hescape
      exact ⟨.mark .backslash, .short .backslash, rfl⟩
    · have hspace : c ≠ ' ' := by
        rintro rfl
        exact absurd hfirst (by decide)
      obtain ⟨k, hk⟩ := Key.exists_char? (Char.le_trans (by decide) hfirst) hlast
      refine ⟨k, ?_, Key.target_of_char? hk hspace⟩
      rw [Token.typing, if_neg hescape]
      exact .typed hkeep (.own hfirst hescape hk)

theorem exists_keys {cs : List Char} (hcs : ∀ c ∈ cs, OfText c) :
    ∃ keys : List Key, keys.map Key.target = cs.map typedTarget ∧
      List.Forall₂ (Token.Means false) (cs.map Token.typing) (keys.map fun k => .single (.key .click k)) := by
  induction cs with
  | nil => exact ⟨[], rfl, .nil⟩
  | cons c cs ih =>
    obtain ⟨hc, hcs⟩ := List.forall_mem_cons.mp hcs
    obtain ⟨k, hmeans, htarget⟩ := exists_key hc
    obtain ⟨keys, htargets, hall⟩ := ih hcs
    refine ⟨k :: keys, ?_, .cons hmeans hall⟩
    rw [List.map_cons, List.map_cons, htarget, htargets]

namespace Program

def clicks (keys : List Key) : Program :=
  ⟨(keys.map (Instruction.key .click)).toArray, #[]⟩

theorem adds_singles (is : List Instruction) (p : Program) :
    (is.map Phrase.single).foldlM add p = .ok ⟨p.instructions ++ is, p.positions⟩ := by
  induction is generalizing p with
  | nil => simp [pure, Except.pure]
  | cons i is ih =>
    refine bind_eq_ok.mpr ⟨_, rfl, ?_⟩
    rw [ih]
    simp

theorem compile_scriptOf {text : String} {keys : List Key}
    (h : List.Forall₂ (Token.Means false) (text.toList.map Token.typing) (keys.map fun k => .single (.key .click k))) :
    empty.compile false (scriptOf text) = .ok (clicks keys) := by
  have hadds : (keys.map fun k => Phrase.single (.key .click k)).foldlM add empty = .ok (clicks keys) := by
    have hsingles := adds_singles (keys.map (Instruction.key .click)) empty
    rw [List.map_map] at hsingles
    rw [show (fun k => Phrase.single (.key .click k)) = Phrase.single ∘ Instruction.key .click from rfl, hsingles]
    simp [empty, clicks]
  have htext : text.toList.flatMap doubled = (text.toList.map Token.typing).flatMap Token.text := by
    rw [List.flatMap_map]
    simp only [Token.text_typing]
  rw [compile, scriptOf, String.toList_ofList, htext]
  exact Reader.read_of_tokens h hadds

theorem calls_click (p : Program) (k : Key) :
    p.calls (.key .click k) = [.press (.key k), .release (.key k)] ++ settle := by
  have hstroke : (Instruction.key .click k).opcode.keyStroke? = some .click := rfl
  have hoperand : (Instruction.key .click k).operand = k.code := rfl
  rw [Instruction.calls_key hstroke, hoperand, Key.ofCode?_code]
  rfl

end Program

def Call.hostCalls : Call → List HostCall
  | .press k => (DryRunLine.press k).call?.toList
  | .release k => (DryRunLine.release k).call?.toList
  | .moveTo place => [.mouseMove place.clamp]
  | _ => []

structure Stage.Called (calls : List HostCall) (s : Stage Live HostCall) : Prop where
  faultless : s.desktop.host.Faultless
  emitted : s.emitted = calls

theorem Stage.Called.record {s : Stage Live HostCall} {calls : List HostCall} {e : Event HostCall} (h : s.Called calls)
    (he : e.emitted? = none) : (s.record e).Called calls := by
  refine ⟨h.faultless, ?_⟩
  rw [emitted_record, he, h.emitted]
  exact List.append_nil _

namespace Act

open Program Stage

variable {s t : Stage Live HostCall} {calls : List HostCall} {c : Call} {cs : List Call} {k : Key} {n : Nat}

theorem sleep_called (h : s.Called calls) (ms : Int) : (stageOf (sleep ms s)).Called calls := by
  rw [sleep_eq]
  have hdrawn : Called calls { s with player := (s.player.duration? ms).2 } := ⟨h.faultless, h.emitted⟩
  cases (s.player.duration? ms).1 with
  | none => exact hdrawn
  | some lasting =>
    have hslept := hdrawn.record (e := .sleep lasting) rfl
    rw [stageOf, countSleep_eq]
    exact ⟨hslept.faultless, hslept.emitted⟩

theorem perform_called (h : s.Called calls) (c : Call) :
    (stageOf (perform Live.desktop c s)).Called (calls ++ c.hostCalls) := by
  have hasked {α : Type} (call : Live → Reply Live HostCall α) {received : Stage Live HostCall → Stage Live HostCall}
      (hreceived : ∀ t, t.Called (calls ++ c.hostCalls) → (received t).Called (calls ++ c.hostCalls))
      (hstate : (call s.desktop).state.host.Faultless) (hcalls : (call s.desktop).emitted = c.hostCalls) :
      (stageOf (ask call received s)).Called (calls ++ c.hostCalls) := by
    apply ask_keeps _ (fun t q ht => ⟨ht.faultless, ht.emitted⟩) hreceived
    exact ⟨hstate, by rw [emitted_answered, h.emitted, hcalls]⟩
  cases c with
  | trace line =>
    rw [show (Call.trace line).hostCalls = [] from rfl, List.append_nil]
    exact h.record rfl
  | press k =>
    apply hasked (Live.press k)
    · intro t ht
      rw [countPress_eq]
      exact ⟨ht.faultless, ht.emitted⟩
    · rw [Live.press_eq h.faultless]
      exact h.faultless
    · rw [Live.press_eq h.faultless]
      rfl
  | release k =>
    apply hasked (Live.release k) fun t ht => ht
    · rw [Live.release_eq h.faultless]
      exact h.faultless
    · rw [Live.release_eq h.faultless]
      rfl
  | moveTo place =>
    have hmoved : Live.moveTo place s.desktop =
        .emits ⟨{ s.desktop.host with pointer := [(place.clamp.x : Rat), (place.clamp.y : Rat)] }⟩
          (.mouseMove place.clamp) () := by
      simp only [Live.moveTo, h.faultless.failure]
    apply hasked (Live.moveTo place) fun t ht => ht
    · rw [hmoved]
      exact ⟨h.faultless.failure, h.faultless.lacksKey⟩
    · rw [hmoved]
      rfl
  | printPointer overwrite =>
    have hread : (Live.pointer s.desktop).state = s.desktop ∧ (Live.pointer s.desktop).emitted = [] := by
      unfold Live.pointer
      rw [h.faultless.failure]
      dsimp only
      split <;> exact ⟨rfl, rfl⟩
    refine printPointer_keeps (P := Called (calls ++ [])) ?_ (fun t text ht => ht.record rfl) overwrite
    apply hasked Live.pointer fun t ht => ht
    · rw [hread.1]
      exact h.faultless
    · exact hread.2
  | flush => exact hasked Live.flush (fun t ht => ht) h.faultless rfl
  | sleep ms =>
    rw [show (Call.sleep ms).hostCalls = [] from rfl, List.append_nil]
    exact sleep_called h ms

theorem performAll_called (hs : s.Called calls) (h : performAll Live.desktop cs s = .ok () t) :
    t.Called (calls ++ cs.flatMap Call.hostCalls) := by
  induction cs generalizing s calls with
  | nil =>
    cases h
    rwa [List.flatMap_nil, List.append_nil]
  | cons c cs ih =>
    have hfirst := perform_called hs c
    rw [performAll_cons] at h
    cases hperformed : perform Live.desktop c s with
    | error e u =>
      rw [hperformed] at h
      cases h
    | ok _ u =>
      rw [hperformed] at h hfirst
      rw [List.flatMap_cons, ← List.append_assoc]
      exact ih hfirst h

theorem served_click (hc : c ∈ [.press (.key k), .release (.key k)] ++ settle) :
    c.Served Live.desktop fun l => l.host.Faultless := by
  simp only [settle, List.mem_append, List.mem_cons, List.not_mem_nil, or_false] at hc
  rcases hc with (rfl | rfl) | rfl | rfl
  · intro l hl
    change (Live.press (.key k) l).Done _
    rw [Live.press_eq hl]
    exact ⟨hl, (), rfl⟩
  · intro l hl
    change (Live.release (.key k) l).Done _
    rw [Live.release_eq hl]
    exact ⟨hl, (), rfl⟩
  · exact fun l hl => ⟨hl, (), rfl⟩
  · exact show (50 : Int) ≤ longestSleep by decide

theorem run_clicks (keys : List Key) (hs : s.Calm fun l => l.host.Faultless) (hn : keys.length ≤ n) :
    ∃ t, run Live.desktop (clicks keys) n 0 s = .ok (some true) t ∧ t.emitted = s.emitted ++
      (keys.map Key.target).flatMap fun target => [.keyboardPress target, .keyboardRelease target] := by
  have hcode : (clicks keys).instructions.toList = keys.map (Instruction.key .click) := rfl
  have hsize : (clicks keys).size ≤ n := by
    rw [size, ← Array.length_toList, hcode, List.length_map]
    exact hn
  have hclick {i : Instruction} (hi : i ∈ (clicks keys).instructions.toList) : ∃ k, i = .key .click k := by
    rw [hcode] at hi
    obtain ⟨k, -, rfl⟩ := List.mem_map.mp hi
    exact ⟨k, rfl⟩
  have hplain : ∀ i ∈ (clicks keys).instructions.toList, i.opcode ≠ .loopBegin ∧ i.opcode ≠ .loopEnd := by
    intro i hi
    obtain ⟨k, rfl⟩ := hclick hi
    exact ⟨nofun, nofun⟩
  have hserved : ∀ i ∈ (clicks keys).instructions.toList, ∀ c ∈ (clicks keys).calls i,
      c.Served Live.desktop fun l => l.host.Faultless := by
    intro i hi c hc
    obtain ⟨k, rfl⟩ := hclick hi
    rw [calls_click] at hc
    exact served_click hc
  obtain ⟨t, hrun, hcalls⟩ := run_straight hplain hserved hs hsize
  refine ⟨t, hrun, ?_⟩
  have hscene : s.scene.Called s.emitted := ⟨hs.desktop, s.emitted_scene⟩
  have hcalled := (performAll_called hscene hcalls).emitted
  rw [emitted_scene] at hcalled
  rw [hcalled, hcode, List.flatMap_map, List.flatMap_map, List.flatMap_assoc]
  simp only [calls_click]
  rfl

end Act

namespace Watch

open Act Stage Program

/-- The script of a text compiles to one click for each character. Where nothing fails in the host, an undisturbed play
of it presses and releases what types each character in turn, and calls for nothing else. -/
theorem play_text {text : String} (htext : ∀ c ∈ text.toList, OfText c) (x : Scratch) (w : Watch)
    {s : Stage Live HostCall} (hhost : s.desktop.host.Faultless) (hidle : s.player.playing = false)
    (hsteady : s.player.Steady) (hs : (w.enter s).Undisturbed) :
    let made := (Compiler.mk false x).compile .empty (scriptOf text)
    made.outcome = .ok () ∧ made.program.size = text.length ∧
      (∀ i ∈ made.program.instructions.toList, i.opcode = .keyClick) ∧
      ∀ n, text.length ≤ n → ∃ t, w.play Live.desktop made.program n s = .ok (some true) t ∧
        t.emitted = s.emitted ++ text.toList.flatMap fun c =>
          [.keyboardPress (typedTarget c), .keyboardRelease (typedTarget c)] := by
  obtain ⟨keys, htargets, hmeans⟩ := exists_keys htext
  have hlength : keys.length = text.length := by
    rw [← List.length_map (f := Key.target), htargets, List.length_map, String.length_toList]
  obtain ⟨houtcome, hprogram⟩ := Compiler.compile_eq_ok (c := ⟨false, x⟩) (compile_scriptOf hmeans)
  intro made
  have hmade : made.program = clicks keys := hprogram
  have hcode : (clicks keys).instructions.toList = keys.map (Instruction.key .click) := rfl
  refine ⟨houtcome, ?_, ?_, fun n hn => ?_⟩
  · rw [hmade, Program.size, ← Array.length_toList, hcode, List.length_map, hlength]
  · rw [hmade, hcode]
    exact List.forall_mem_map.mpr fun k _ => rfl
  · have hcalm : (w.enter s).Calm fun l => l.host.Faultless :=
      ⟨by rw [enter_desktop]; exact hhost, hs, by rw [enter_player]; exact hsteady⟩
    obtain ⟨t, hrun, hemitted⟩ := run_clicks keys hcalm (hlength.trans_le hn)
    refine ⟨w.leave s t, ?_, ?_⟩
    · rw [hmade, w.play_idle Live.desktop _ n hidle, hrun]
      rfl
    · rw [Stage.emitted, leave_events, ← Stage.emitted, hemitted, htargets, List.flatMap_map]
      simp only [Stage.emitted, enter_events]

theorem play_text_of_bracket :
    let text := String.ofList ['\\', '[', 'n', ']', ' ', '\n']
    let s : Stage Live HostCall := .new (.idle false true (.ofList [])) ⟨Host.working⟩
    let made := (Compiler.mk false .blank).compile .empty (scriptOf text)
    (∀ c ∈ text.toList, OfText c) ∧ s.desktop.host.Faultless ∧ s.player.playing = false ∧ s.player.Steady ∧
      (enter .given s).Undisturbed ∧ made.outcome = .ok () ∧ made.program.size = 6 ∧
      ∃ t, play .given Live.desktop made.program 6 s = .ok (some true) t ∧ t.emitted =
        [.keyboardPress (.char '\\'), .keyboardRelease (.char '\\'), .keyboardPress (.char '['),
          .keyboardRelease (.char '['), .keyboardPress (.char 'n'), .keyboardRelease (.char 'n'),
          .keyboardPress (.char ']'), .keyboardRelease (.char ']'), .keyboardPress (.named "space"),
          .keyboardRelease (.named "space"), .keyboardPress (.named "enter"), .keyboardRelease (.named "enter")] := by
  intro text s made
  have htext : ∀ c ∈ text.toList, OfText c := by
    rw [String.toList_ofList]
    simp only [List.forall_mem_cons, List.not_mem_nil, IsEmpty.forall_iff, implies_true, and_true]
    decide
  have hlength : text.length = 6 := String.length_ofList
  have hcalm : s.Calm fun l => l.host.Faultless := by
    apply calm_new
    exact Host.faultless_working
  obtain ⟨houtcome, hsize, -, hplays⟩ :=
    play_text htext .blank .given hcalm.desktop rfl hcalm.steady hcalm.started.undisturbed
  obtain ⟨t, hplay, hemitted⟩ := hplays 6 hlength.le
  rw [String.toList_ofList] at hemitted
  exact ⟨htext, hcalm.desktop, rfl, hcalm.steady, hcalm.started.undisturbed, houtcome, hsize.trans hlength, t, hplay,
    hemitted⟩

end Watch

end InputScript
