import InputScript.Cli.Report
import InputScript.Proofs.Concatenation
import InputScript.Proofs.Containment
import InputScript.Proofs.FailStop
import InputScript.Proofs.FaultLocation
import InputScript.Proofs.Utf8

namespace InputScript

def Reply.Settles {σ ε α : Type} (r : Reply σ ε α) : Prop :=
  ∀ a, r.outcome ≠ .replays a

theorem Reply.Done.settles {σ ε α : Type} {I : σ → Prop} {r : Reply σ ε α} (h : r.Done I) : r.Settles := by
  obtain ⟨-, a, ha⟩ := h
  intro b hb
  cases ha.symm.trans hb

theorem Reply.Settles.desktop {σ ε α : Type} {r : Reply σ ε α} {e : Failure} {y : σ} {last : List ε} (hr : r.Settles)
    (h : r.Raises e y last) : ∃ error, e = .desktop error := by
  obtain ⟨houtcome, -⟩ := h
  cases hr' : r.outcome with
  | done a =>
    rw [hr'] at houtcome
    cases houtcome
  | failed error =>
    rw [hr'] at houtcome
    exact ⟨error, (Option.some.inj houtcome).symm⟩
  | replays a => exact absurd hr' (hr a)

theorem Reply.Settles.of_map {σ ε α β : Type} {r : Reply σ ε α} {f : α → β} (h : (r.map f).Settles) : r.Settles := by
  intro a ha
  apply h (f a)
  rw [Reply.map, ha]
  rfl

theorem Live.reply_settles (l : Live) (r : Desktop.Request) : (desktop.reply l r).Settles := by
  intro a ha
  rcases (replies_reply l r).answered with ⟨answer, hdone⟩ | ⟨e, -, hfailed⟩
  · cases ha.symm.trans hdone
  · cases ha.symm.trans hfailed

theorem Connected.desktop_of_raises (x : Connected) (c : Call) (e : Failure) (y : Connected) (last : List Emission)
    (h : desktop.Raises x c e y last) : ∃ error, e = .desktop error := by
  have hcall {α : Type} {live : Live → Reply Live HostCall α} {dryRun : DryRun → Reply DryRun (List DryRunLine) α}
      (hlive : ∀ l, (live l).Settles) (hdryRun : ∀ d, (dryRun d).Done fun _ => True) :
      (call live dryRun x).Settles := by
    cases x with
    | live l => exact hlive l
    | dryRun d => exact (hdryRun d).settles
  have hserves := DryRun.serves
  cases c with
  | trace | sleep => cases h
  | press k =>
    exact (hcall (fun l => (l.reply_settles (.press k)).of_map) fun d => hserves.press k d trivial).desktop h
  | release k =>
    exact (hcall (fun l => (l.reply_settles (.release k)).of_map) fun d => hserves.release k d trivial).desktop h
  | moveTo p =>
    exact (hcall (fun l => (l.reply_settles (.moveTo p)).of_map) fun d => hserves.moveTo p d trivial).desktop h
  | printPointer overwrite =>
    exact (hcall (fun l => (l.reply_settles .pointer).of_map) fun d => hserves.pointer d trivial).desktop h
  | flush => exact (hcall (fun l => (l.reply_settles .flush).of_map) fun d => hserves.flush d trivial).desktop h

namespace Cli

variable {ignoreSpace : Bool} {seen names texts : List String} {name text message : String} {p q : Program}

def Input.title (name : String) : String :=
  if name = standardName then standardTitle else name

theorem decodeText_eq_ok_iff {ends : Text.LineEnds} {bytes : List UInt8} : decodeText ends bytes = .ok text ↔
    ∃ cs : List Char, bytes = cs.flatMap String.utf8EncodeChar ∧ text = String.ofList (ends.read cs) := by
  rw [← Text.ofBytes_eq_ok_iff, decodeText]
  cases Text.ofBytes ends bytes with
  | error fault => exact iff_of_false nofun nofun
  | ok read => exact (Except.ok.injEq read text).to_iff.trans (Except.ok.injEq read text).to_iff.symm

theorem decodeText_unified_iff {bytes : List UInt8} : decodeText .unified bytes = .ok text ↔
    ∃ cs : List Char, bytes = cs.flatMap String.utf8EncodeChar ∧ Text.Unifies cs text.toList := by
  rw [decodeText_eq_ok_iff]
  refine exists_congr fun cs => and_congr_right fun _ => ?_
  rw [Text.unifies_iff, ← String.toList_inj, String.toList_ofList]
  rfl

theorem decodeText_kept_iff {bytes : List UInt8} : decodeText .kept bytes = .ok text ↔
    bytes = text.toList.flatMap String.utf8EncodeChar := by
  rw [decodeText_eq_ok_iff]
  constructor
  · rintro ⟨cs, hbytes, rfl⟩
    rwa [String.toList_ofList]
  · exact fun hbytes => ⟨text.toList, hbytes, String.ofList_toList.symm⟩

namespace Setting

variable {s : Setting} {o : Options}

def standardAfter (s : Setting) (seen : List String) : Except ReadFault String :=
  if Input.standardName ∈ seen then .ok "" else s.decodeStandard s.standardInput

def content (s : Setting) (seen : List String) (name : String) : Except ReadFault String :=
  if name = Input.standardName then s.standardAfter seen
  else do decodeText .unified (← (s.files name).mapError (.path name))

inductive Loads (s : Setting) (ignoreSpace : Bool) : List String → List String → Program → Prop
  | nil : Loads s ignoreSpace [] [] .empty
  | snoc {names texts : List String} {p : Program} {name text : String} : Loads s ignoreSpace names texts p →
      s.content names name = .ok text → ((Compiler.new ignoreSpace).compile p text).outcome = .ok () →
      Loads s ignoreSpace (names ++ [name]) (texts ++ [text]) ((Compiler.new ignoreSpace).compile p text).program

/-- What is told of an input that cannot be read or does not compile behind `p`, with the place in its own text. -/
inductive Stops (s : Setting) (ignoreSpace : Bool) (seen : List String) (p : Program) (name : String) : String → Prop
  | unreadable {fault : ReadFault} : s.content seen name = .error fault →
      Stops s ignoreSpace seen p name ("Error reading " ++ Input.title name ++ ": " ++ fault.message ++ "\n")
  | faulty {text : String} {e : ScriptError} {i : Nat} : s.content seen name = .ok text →
      ((Compiler.new ignoreSpace).compile p text).outcome = .error (.script e) → e.PointsAt text.toList i →
      Stops s ignoreSpace seen p name ("Syntax error in " ++ Input.title name ++ " at line " ++
        Text.decimal e.location.line ++ ", column " ++ Text.decimal e.location.column ++ ": " ++ e.message ++ "\n")

def Refuses (s : Setting) (ignoreSpace : Bool) (names : List String) (message : String) : Prop :=
  ∃ before name after texts p, names = before ++ name :: after ∧ s.Loads ignoreSpace before texts p ∧
    s.Stops ignoreSpace before p name message

theorem Loads.compile_join (h : s.Loads ignoreSpace names texts p) :
    Program.empty.compile ignoreSpace (String.join texts) = .ok p := by
  induction h with
  | nil => rfl
  | @snoc names texts p name text _ _ houtcome ih =>
    have hlast : p.compile ignoreSpace text = .ok _ := Compiler.compile_of_outcome houtcome
    have hjoin : String.join (texts ++ [text]) = String.join texts ++ text := by
      rw [← String.toList_inj, String.toList_append, String.toList_join, String.toList_join, List.flatMap_append,
        List.flatMap_singleton]
    rw [hjoin, Program.compile_append_of_ok ih, hlast]
    rfl

theorem exists_pointsAt {e : ScriptError} (h : p.compile ignoreSpace text = .error e) :
    ∃ i, e.PointsAt text.toList i := by
  rw [← String.ofList_toList (s := text)] at h
  obtain ⟨i, -, -, hpoints, -⟩ := Program.exists_fault h
  exact ⟨i, hpoints⟩

theorem loads_or_refuses (hbefore : s.Loads ignoreSpace seen texts p) (names : List String) :
    (∃ texts q, s.Loads ignoreSpace (seen ++ names) texts q) ∨
      ∃ message, s.Refuses ignoreSpace (seen ++ names) message := by
  induction names generalizing seen texts p with
  | nil => exact .inl ⟨texts, p, by rwa [List.append_nil]⟩
  | cons name names ih =>
    have hstops {message : String} (h : s.Stops ignoreSpace seen p name message) :
        ∃ message, s.Refuses ignoreSpace (seen ++ name :: names) message :=
      ⟨message, seen, name, names, texts, p, rfl, hbefore, h⟩
    cases hcontent : s.content seen name with
    | error fault => exact .inr (hstops (.unreadable hcontent))
    | ok text =>
      rcases (Compiler.new ignoreSpace).compile_cases p text with ⟨q, -, -, houtcome, rfl⟩ | ⟨e, he, houtcome, -⟩
      · have hrest := ih (hbefore.snoc hcontent houtcome)
        rwa [List.append_assoc, List.singleton_append] at hrest
      · obtain ⟨i, hpoints⟩ := exists_pointsAt he
        exact .inr (hstops (.faulty hcontent houtcome hpoints))

theorem ofNames_cons (s : Setting) (seen : List String) (hname : '\x00' ∉ name.toList) (names : List String) :
    Input.ofNames s.files (s.standardAfter seen) (name :: names) =
      ⟨Input.title name, (s.content seen name).mapError .read⟩ ::
        Input.ofNames s.files (s.standardAfter (seen ++ [name])) names := by
  rw [Input.ofNames]
  by_cases hstandard : name = Input.standardName
  · rw [if_pos hstandard, Input.title, if_pos hstandard, content, if_pos hstandard]
    simp [standardAfter, hstandard]
  · have hsame : s.standardAfter (seen ++ [name]) = s.standardAfter seen := by
      simp [standardAfter, Ne.symm hstandard]
    have hfile : readFile name (s.files name) = (s.content seen name).mapError .read := by
      unfold readFile content
      rw [if_neg (by simpa using hname), if_neg hstandard]
      cases s.files name with
      | error fault => rfl
      | ok bytes => rfl
    rw [if_neg hstandard, hfile, hsame, Input.title, if_neg hstandard]

theorem load_of_content_error {fault : ReadFault} (c : Compiler) (hname : '\x00' ∉ name.toList)
    (h : s.content seen name = .error fault) (names : List String) :
    load c p (Input.ofNames s.files (s.standardAfter seen) (name :: names)) =
      .error (Input.title name, .read fault) := by
  rw [ofNames_cons s seen hname, h]
  rfl

theorem load_of_outcome_error {e : ScriptError} {c : Compiler} (hname : '\x00' ∉ name.toList)
    (h : s.content seen name = .ok text) (houtcome : (c.compile p text).outcome = .error (.script e))
    (names : List String) :
    load c p (Input.ofNames s.files (s.standardAfter seen) (name :: names)) = .error (Input.title name, .script e) := by
  rw [ofNames_cons s seen hname, h, load]
  simp only [Input.compile, Except.mapError, bind, Except.bind, houtcome]
  rfl

theorem load_of_outcome_ok {c : Compiler} (hname : '\x00' ∉ name.toList)
    (h : s.content seen name = .ok text) (houtcome : (c.compile p text).outcome = .ok ()) (names : List String) :
    load c p (Input.ofNames s.files (s.standardAfter seen) (name :: names)) =
      load ⟨c.ignoreSpace, (c.compile p text).scratch⟩ (c.compile p text).program
        (Input.ofNames s.files (s.standardAfter (seen ++ [name])) names) := by
  rw [ofNames_cons s seen hname, h, load]
  simp only [Input.compile, Except.mapError, bind, Except.bind, houtcome]
  rfl

theorem load_of_loads (hnames : ∀ name ∈ names, '\x00' ∉ name.toList) (h : s.Loads ignoreSpace names texts p)
    (rest : List String) :
    ∃ c : Compiler, c.ignoreSpace = ignoreSpace ∧
      load (.new ignoreSpace) .empty (Input.ofNames s.files (s.standardAfter []) (names ++ rest)) =
        load c p (Input.ofNames s.files (s.standardAfter names) rest) := by
  induction h generalizing rest with
  | nil => exact ⟨_, rfl, rfl⟩
  | @snoc names texts p name text _ hcontent houtcome ih =>
    obtain ⟨c, rfl, hload⟩ := ih (fun name hname => hnames name (List.mem_append_left _ hname)) (name :: rest)
    obtain ⟨hsame, hprogram⟩ := c.compile_eq_new p text
    rw [List.append_assoc, List.singleton_append, hload,
      load_of_outcome_ok (hnames name (by simp)) hcontent (hsame.trans houtcome), hprogram]
    exact ⟨⟨c.ignoreSpace, (c.compile p text).scratch⟩, rfl, rfl⟩

def inputs (o : Options) : List String :=
  if o.files = [] then [Input.standardName] else o.files

theorem load_eq (s : Setting) (o : Options) : Input.ofCommandLine s.files s.standardText o.files =
    Input.ofNames s.files (s.standardAfter []) (inputs o) := by
  unfold Input.ofCommandLine inputs
  cases o.files <;> rfl

theorem loadProgram_of_loads (hnames : ∀ name ∈ inputs o, '\x00' ∉ name.toList)
    (h : s.Loads o.ignoreSpace (inputs o) texts p) : s.loadProgram o = .ok p := by
  obtain ⟨c, -, hload⟩ := load_of_loads hnames h []
  rw [List.append_nil] at hload
  rw [loadProgram, load_eq, hload]
  rfl

theorem loadProgram_of_refuses (hnames : ∀ name ∈ inputs o, '\x00' ∉ name.toList)
    (h : s.Refuses o.ignoreSpace (inputs o) message) :
    s.loadProgram o = .error (.text message (.returned 1)) := by
  obtain ⟨before, name, after, texts, p, hinputs, hloads, hstops⟩ := h
  rw [hinputs] at hnames
  have hname : '\x00' ∉ name.toList := hnames name (by simp)
  have hbefore : ∀ name ∈ before, '\x00' ∉ name.toList := fun name hname => hnames name (List.mem_append_left _ hname)
  obtain ⟨c, hc, hload⟩ := load_of_loads hbefore hloads (name :: after)
  rw [loadProgram, load_eq, hinputs, hload]
  cases hstops with
  | unreadable hcontent =>
    rw [load_of_content_error c hname hcontent]
    rfl
  | faulty hcontent houtcome _ =>
    rw [load_of_outcome_error hname hcontent ((c.compile_eq_new p _).1.trans (hc ▸ houtcome))]
    rfl

def connected (s : Setting) (o : Options) : Except ConnectError Connected :=
  Backend.choose s.host Backend.candidates (match o.desktop with
    | .value b => some b.name
    | _ => none)

def opening (s : Setting) (c : Connected) (q : Player) : Stage Connected Emission :=
  (Stage.new q c).prepare ⟨.interrupt, s.interruptAt, none⟩

def played (s : Setting) (p : Program) (c : Connected) (q : Player) :
    EStateM.Result Failure (Stage Connected Emission) (Option Bool) :=
  Act.playAlone Connected.desktop p s.fuel true (s.opening c q)

def shown (o : Options) (after : Stage Connected Emission) (last : String) (ending : Ending) : Report where
  output := String.join (after.events.toList.map Report.eventText) ++ last
  errors := ""
  calls := after.events.toList.filterMap Report.eventCall?
  sleeps := after.events.toList.filterMap Report.eventSleep?
  reproducible := o.noRandSleep || o.seed != .absent
  ending := ending

/-- What becomes of playing a program. There is an error where connecting or playing fails, and no other failure. -/
inductive Plays (s : Setting) (o : Options) (p : Program) : Report → Prop
  | unconnected {e : DesktopError} : s.connected o = .error (.desktop e) →
      Plays s o p ⟨"Error: " ++ e.message ++ "\n", "", [], [], false, .returned 1⟩
  | failed {c : Connected} {q : Player} {e : DesktopError} {after : Stage Connected Emission} :
      s.connected o = .ok c → s.player o = .ok q → s.played p c q = .error (.desktop e) after →
      Plays s o p (shown o after ("Error: " ++ e.message ++ "\n") (.returned 1))
  | completed {c : Connected} {q : Player} {after : Stage Connected Emission} :
      s.connected o = .ok c → s.player o = .ok q → s.played p c q = .ok (some true) after →
      Plays s o p (shown o after "" (.returned 0))
  | cancelled {c : Connected} {q : Player} {after : Stage Connected Emission} :
      s.connected o = .ok c → s.player o = .ok q → s.played p c q = .ok (some false) after →
      Plays s o p (shown o after "Playback cancelled\n" (.returned 0))
  | goesOn {c : Connected} {q : Player} {after : Stage Connected Emission} :
      s.connected o = .ok c → s.player o = .ok q → s.played p c q = .ok none after →
      Plays s o p (shown o after "" (.crashed .outOfFuel))

structure Ordinary (s : Setting) (o : Options) : Prop where
  host : ∀ b e, Backend.connect s.host b = .error e → ∃ error, e = .desktop error
  desktop : o.desktop ≠ .void
  seed : o.seed ≠ .void
  steady : ∀ q, s.player o = .ok q → q.Steady

theorem Ordinary.connected_error (h : s.Ordinary o) {e : ConnectError} (he : s.connected o = .error e) :
    ∃ error, e = .desktop error := by
  unfold connected at he
  cases hdesktop : o.desktop with
  | void => exact absurd hdesktop h.desktop
  | value b =>
    rw [hdesktop] at he
    exact h.host b e ((Backend.choose_name s.host Backend.candidates b).symm.trans he)
  | absent =>
    rw [hdesktop] at he
    have hname : Backend.ofName? Live.name = some .live := Backend.ofName?_name .live
    simp only [Backend.choose, Backend.candidates, Backend.connectFirst, hname] at he
    cases hconnect : Backend.connect s.host .live with
    | ok c =>
      rw [hconnect] at he
      cases he
    | error e' =>
      obtain ⟨error, rfl⟩ := h.host _ _ hconnect
      rw [hconnect] at he
      dsimp only at he
      split_ifs at he
      · cases he
        exact ⟨_, rfl⟩
      · cases he
        exact ⟨_, rfl⟩

theorem connect_of_ok {c : Connected} (hdesktop : o.desktop ≠ .void) (h : s.connected o = .ok c) :
    s.connect o = .ok c := by
  unfold connected at h
  cases hgiven : o.desktop with
  | void => exact absurd hgiven hdesktop
  | absent | value b =>
    rw [hgiven] at h
    simp only [connect, hgiven, connectTo, h]

theorem connect_of_error {e : DesktopError} (hdesktop : o.desktop ≠ .void) (h : s.connected o = .error (.desktop e)) :
    s.connect o = .error (.text ("Error: " ++ e.message ++ "\n") (.returned 1)) := by
  unfold connected at h
  cases hgiven : o.desktop with
  | void => exact absurd hgiven hdesktop
  | absent | value b =>
    rw [hgiven] at h
    simp only [connect, hgiven, connectTo, h]

theorem exists_player (s : Setting) (hseed : o.seed ≠ .void) : ∃ q, s.player o = .ok q ∧ q.playing = false := by
  unfold player
  cases hgiven : o.seed with
  | absent => exact ⟨_, rfl, rfl⟩
  | value seed => exact ⟨_, rfl, rfl⟩
  | void => exact absurd hgiven hseed

theorem play_of_refusal {report : Report} (h : s.loadProgram o = .error report) : s.play o = report := by
  have hprepare : s.prepare o = .error report := by
    simp only [prepare, h, bind, Except.bind]
  simp only [play, hprepare]

theorem plays_of_loaded (hload : s.loadProgram o = .ok p) (h : s.Ordinary o) : s.Plays o p (s.play o) := by
  cases hconnected : s.connected o with
  | error e =>
    obtain ⟨error, rfl⟩ := h.connected_error hconnected
    have hprepare : s.prepare o = .error (.text ("Error: " ++ error.message ++ "\n") (.returned 1)) := by
      simp only [prepare, hload, connect_of_error h.desktop hconnected, bind, Except.bind]
    simp only [play, hprepare]
    exact .unconnected hconnected
  | ok c =>
    obtain ⟨q, hplayer, hidle⟩ := exists_player s h.seed
    have hprepare : s.prepare o = .ok (p, s.opening c q) := by
      simp only [prepare, hload, connect_of_ok h.desktop hconnected, hplayer, bind, Except.bind]
      rfl
    have hplayed : Act.playAlone Connected.desktop p s.fuel true (s.opening c q) = s.played p c q := rfl
    simp only [play, hprepare, hplayed]
    cases hresult : s.played p c q with
    | ok answer after =>
      cases answer with
      | none => exact .goesOn hconnected hplayer hresult
      | some completed =>
        cases completed with
        | true => exact .completed hconnected hplayer hresult
        | false => exact .cancelled hconnected hplayer hresult
    | error failure after =>
      obtain ⟨e, rfl⟩ := Watch.desktop_of_play_eq_error (.own true) Connected.desktop_of_raises (s := s.opening c q)
        hidle (h.steady q hplayer) hresult
      exact .failed hconnected hplayer hresult

def printed (p : Program) : String :=
  String.join (p.listing.map (· ++ "\n")) ++
    (if p.positions.size = 0 then "" else "\n" ++ Text.decimal p.positions.size ++ " positions\n")

theorem listingText_eq (p : Program) : listingText p = printed p := by
  rw [listingText, printed, Topic.lines]
  by_cases hnone : p.positions.size = 0
  · rw [if_pos hnone, if_pos (Array.isEmpty_iff_size_eq_zero.mpr hnone)]
  · rw [if_neg hnone, if_neg (fun hempty => hnone (Array.isEmpty_iff_size_eq_zero.mp hempty))]

/-- If one of the inputs cannot be read, is no text or does not compile behind those before it, the first such is told,
and that is all, whatever the host is. Otherwise the texts compile as one, and the program that they make is listed and
played. Standard input is decoded in any way, also in one that keeps the ends of its lines. -/
theorem inputs_load_together (s : Setting) (o : Options) (hfiles : ∀ name ∈ o.files, '\x00' ∉ name.toList) :
    (∀ bytes text, decodeText .unified bytes = .ok text ↔
      ∃ cs : List Char, bytes = cs.flatMap String.utf8EncodeChar ∧ Text.Unifies cs text.toList) ∧
    (∀ bytes text, decodeText .kept bytes = .ok text ↔ bytes = text.toList.flatMap String.utf8EncodeChar) ∧
    (∀ message, s.Refuses o.ignoreSpace (inputs o) message →
      let refusal : Report := ⟨message, "", [], [], false, .returned 1⟩
      (∀ host : Host, ({ s with host } : Setting).play o = refusal) ∧ s.disassemble o = refusal) ∧
    ((∀ message, ¬ s.Refuses o.ignoreSpace (inputs o) message) →
      ∃ texts p, s.Loads o.ignoreSpace (inputs o) texts p ∧
        let whole := (Compiler.new o.ignoreSpace).compile .empty (String.join texts)
        whole.outcome = .ok () ∧ whole.program = p ∧
          s.disassemble o = ⟨printed p, "", [], [], false, .returned 0⟩ ∧
          (s.Ordinary o → s.Plays o p (s.play o))) := by
  have hnames : ∀ name ∈ inputs o, '\x00' ∉ name.toList := by
    unfold inputs
    split_ifs
    · simp [Input.standardName]
    · exact hfiles
  refine ⟨fun bytes text => decodeText_unified_iff, fun bytes text => decodeText_kept_iff, ?_, ?_⟩
  · intro message hrefuses refusal
    have hload := loadProgram_of_refuses hnames hrefuses
    refine ⟨fun host => play_of_refusal hload, ?_⟩
    rw [disassemble, hload]
    rfl
  · intro hnone
    have hnothing : s.Loads o.ignoreSpace [] [] .empty := .nil
    rcases loads_or_refuses hnothing (inputs o) with ⟨texts, p, hloads⟩ | ⟨message, hrefuses⟩
    · have hload := loadProgram_of_loads hnames hloads
      obtain ⟨houtcome, hprogram⟩ := Compiler.compile_eq_ok (c := .new o.ignoreSpace) hloads.compile_join
      have hlisting : s.disassemble o = ⟨printed p, "", [], [], false, .returned 0⟩ := by
        rw [disassemble, hload, ← listingText_eq]
        rfl
      exact ⟨texts, p, hloads, houtcome, hprogram, hlisting, plays_of_loaded hload⟩
    · exact absurd hrefuses (hnone message)

theorem inputs_load_together_of_three :
    let files (name : String) : Except PathFault (List UInt8) :=
      if name = "a.vin" then .ok [0x61, 0x0d, 0x0a, 0x5c, 0x71] else .error .missing
    let s : Setting := {
      files
      standardInput := [0x62, 0x0d, 0x0a, 0x5c, 0x5b, 0x40, 0x33, 0x2c, 0x34, 0x5d]
      host := .unloadable "no display"
      entropy := 0
      interruptAt := none
      fuel := 9
      decodeStandard := decodeText .kept }
    let faulty : Options := { Options.default with files := ["-", "-", "a.vin"] }
    let sound : Options := { Options.default with noRandSleep := true, desktop := .value .dryRun }
    s.play faulty =
        ⟨"Syntax error in a.vin at line 2, column 1: Unknown command: 'q'\n", "", [], [], false, .returned 1⟩ ∧
      s.disassemble sound = ⟨"0x0000: KEY_CLICK b\n0x0001: KEY_CLICK RETURN\n0x0002: KEY_CLICK RETURN\n" ++
        "0x0003: POINTER_GOTO #0 (3,4)\n\n1 positions\n", "", [], [], false, .returned 0⟩ ∧
      s.play sound = ⟨"* press       key <b>\n* release     key <b>\n* press       key <RETURN>\n" ++
        "* release     key <RETURN>\n* press       key <RETURN>\n* release     key <RETURN>\n" ++
        "* move pointer to (3,4)\n", "", [], [50, 50, 50, 50], true, .returned 0⟩ ∧
      ∃ texts p, s.Loads false ["-"] texts p ∧ s.Plays sound p (s.play sound) := by
  intro files s faulty sound
  obtain ⟨-, -, hrefuses, -⟩ := inputs_load_together s faulty (by decide)
  obtain ⟨-, -, hrefuses', hloads⟩ := inputs_load_together s sound (by decide)
  let first := (Compiler.new false).compile .empty "b\r\n\\[@3,4]"
  let second := (Compiler.new false).compile first.program ""
  obtain ⟨hfirst, hsecond, hthird, hcompiles, hcompiles', hfails, hprinted⟩ :
      s.content [] "-" = .ok "b\r\n\\[@3,4]" ∧ s.content ["-"] "-" = .ok "" ∧
        s.content ["-", "-"] "a.vin" = .ok "a\n\\q" ∧ first.outcome = .ok () ∧ second.outcome = .ok () ∧
        ((Compiler.new false).compile second.program "a\n\\q").outcome =
          .error (.script ⟨.unknownCommand 'q', ⟨2, 1⟩⟩) ∧
        printed first.program = "0x0000: KEY_CLICK b\n0x0001: KEY_CLICK RETURN\n0x0002: KEY_CLICK RETURN\n" ++
          "0x0003: POINTER_GOTO #0 (3,4)\n\n1 positions\n" := by
    decide +kernel
  have hfirst' : s.Loads false ["-"] ["b\r\n\\[@3,4]"] first.program := Loads.nil.snoc hfirst hcompiles
  have hbefore : s.Loads false ["-", "-"] _ second.program := hfirst'.snoc hsecond hcompiles'
  have hstandard : ∀ name ∈ inputs sound, '\x00' ∉ name.toList := by decide
  have hload := loadProgram_of_loads hstandard hfirst'
  have hnone (message : String) : ¬ s.Refuses false (inputs sound) message := by
    intro hrefuses
    cases hload.symm.trans (loadProgram_of_refuses hstandard hrefuses)
  obtain ⟨texts, p, hall, -, -, hlisting, hplays⟩ := hloads hnone
  obtain rfl : p = first.program := Except.ok.inj ((loadProgram_of_loads hstandard hall).symm.trans hload)
  rw [hprinted] at hlisting
  refine ⟨?_, hlisting, by decide +kernel, texts, _, hall, hplays ⟨?_, nofun, nofun, ?_⟩⟩
  · have hpoints : ScriptError.PointsAt ⟨.unknownCommand 'q', ⟨2, 1⟩⟩ "a\n\\q".toList 2 :=
      ⟨by decide, by decide, by decide⟩
    have hstops := Stops.faulty hthird hfails hpoints
    exact (hrefuses _ ⟨["-", "-"], "a.vin", [], _, _, rfl, hbefore, hstops⟩).1 s.host
  · intro b e he
    cases b with
    | live => exact ⟨_, (Except.error.inj he).symm⟩
    | dryRun => cases he
  · intro q hq hrandom
    cases hq
    cases hrandom

end Setting

end Cli

end InputScript
