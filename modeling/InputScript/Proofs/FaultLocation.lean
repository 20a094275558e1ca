import InputScript.Proofs.Concatenation
import InputScript.Proofs.Meaning
import Mathlib.Data.Nat.Find
import Mathlib.Order.Bounds.Basic

namespace InputScript

namespace Location

variable {l : Location} {cs : List Char} {i j : Nat}

theorem after_grows (l : Location) (cs : List Char) :
    l.line ≤ (l.after cs).line ∧
      ((l.after cs).line = l.line → (l.after cs).column = l.column + cs.length) := by
  induction cs generalizing l with
  | nil => exact ⟨Nat.le_refl _, fun _ => rfl⟩
  | cons c cs ih =>
    obtain ⟨hline, hcolumn⟩ := ih (l.next c)
    rw [after_cons, List.length_cons]
    by_cases hc : c = '\n'
    · have hnext : (l.next c).line = l.line + 1 := by simp only [next, if_pos hc]
      exact ⟨by omega, fun hsame => by omega⟩
    · have hnext : l.next c = ⟨l.line, l.column + 1⟩ := by simp only [next, if_neg hc]
      rw [hnext] at hline hcolumn ⊢
      refine ⟨hline, fun hsame => ?_⟩
      rw [hcolumn hsame]
      exact Nat.add_right_comm _ _ _

theorem after_ne (l : Location) (h : cs ≠ []) : l.after cs ≠ l := by
  intro hsame
  have hcolumn := (after_grows l cs).2 (by rw [hsame])
  have hlength := List.length_pos_iff.mpr h
  rw [hsame] at hcolumn
  omega

theorem after_take_le (hj : j ≤ cs.length) (h : l.after (cs.take i) = l.after (cs.take j)) : j ≤ i := by
  by_contra hlt
  have hsplit : cs.take j = cs.take i ++ (cs.take j).drop i := by
    have htake : (cs.take j).take i = cs.take i := by rw [List.take_take, Nat.min_eq_left (by omega)]
    rw [← htake, List.take_append_drop]
  have hrest : (cs.take j).drop i ≠ [] := by
    apply List.ne_nil_of_length_pos
    rw [List.length_drop, List.length_take]
    omega
  rw [hsplit, after_append] at h
  exact after_ne _ hrest h.symm

end Location

structure ScriptError.PointsAt (e : ScriptError) (cs : List Char) (i : Nat) : Prop where
  lt_length : i < cs.length
  line_eq : e.location.line = 1 + (cs.take i).count '\n'
  column_eq : e.location.column = 1 + ((cs.take i).reverse.takeWhile (· ≠ '\n')).length

theorem ScriptError.pointsAt_iff {e : ScriptError} {cs : List Char} {i : Nat} :
    e.PointsAt cs i ↔ i < cs.length ∧ e.location = Location.start.after (cs.take i) := by
  have hafter := Location.start_behind (String.ofList (cs.take i))
  simp only [String.toList_ofList, Location.behind, Location.start, if_true] at hafter
  rw [Location.start, ← hafter]
  constructor
  · rintro ⟨hi, hline, hcolumn⟩
    exact ⟨hi, Location.mk.injEq .. ▸ ⟨hline, hcolumn⟩⟩
  · rintro ⟨hi, hlocation⟩
    exact ⟨hi, by rw [hlocation], by rw [hlocation]⟩

def Fault.isUnexpected : Fault → Bool
  | .unexpectedCharacter _ => true
  | _ => false

-- Literals are taken apart by unification here, as evaluating their lists of characters would take long.
theorem not_prefix_ofList {cs ds : List Char} (h : ¬ cs <+: ds) :
    ¬ (String.ofList cs).toList <+: (String.ofList ds).toList := by
  rwa [String.toList_ofList, String.toList_ofList]

theorem not_prefix_append {s t : String} (hst : ¬ s.toList <+: t.toList) (hts : ¬ t.toList <+: s.toList)
    (u : String) : ¬ s.toList <+: (t ++ u).toList := by
  intro h
  rw [String.toList_append] at h
  rcases List.prefix_or_prefix_of_prefix h (List.prefix_append _ _) with hst' | hts'
  · exact hst hst'
  · exact hts hts'

theorem Fault.message_of_not_unexpected {f : Fault} (h : f.isUnexpected = false) :
    ¬ "Unexpected character: ".toList <+: f.message.toList := by
  cases f with
  | unexpectedCharacter c => cases h
  | unterminatedCommand | unterminatedArguments => exact not_prefix_ofList (by decide)
  | tooManyPositions | loopCountTooLarge => decide
  | arguments command => cases command <;> exact not_prefix_ofList (by decide)
  | notInteger role argument => cases role <;> exact not_prefix_append (by decide) (by decide) _
  | unknownCommand | notSeconds | notExclamation | unknownKey | unknownButton | notDirection =>
    refine not_prefix_append ?_ ?_ _
    · exact not_prefix_ofList (by decide)
    · exact not_prefix_ofList (by decide)

namespace Phrase

theorem ofChar_eq_error {ignoreSpace : Bool} {c : Char} {f : Fault} :
    ofChar ignoreSpace c = .error f ↔ c ∉ spaces ∧ typedKey? c = none ∧ f = .unexpectedCharacter c := by
  rw [← whitespaceKey?_eq_none]
  unfold ofChar
  cases whitespaceKey? c with
  | some k => simp
  | none => cases typedKey? c <;> simp [eq_comm]

theorem exists_emit_of_ofChar {ignoreSpace : Bool} {c : Char} {phrase : Phrase}
    (h : ofChar ignoreSpace c = .ok phrase) : ∃ instructions, phrase = .emit instructions := by
  cases ofChar_eq_ok.mp h with
  | ignored => exact ⟨_, rfl⟩
  | typed => exact ⟨_, rfl⟩

def InCommand {α : Type} (x : Except Fault α) : Prop :=
  ∀ f, x = .error f → f.isUnexpected = false

theorem inCommand_ok {α : Type} (a : α) : InCommand (.ok a) :=
  fun _ h => nomatch h

theorem inCommand_error {α : Type} {f : Fault} (hf : f.isUnexpected = false) :
    InCommand (.error f : Except Fault α) := by
  rintro _ ⟨⟩
  exact hf

theorem InCommand.bind {α β : Type} {x : Except Fault α} {g : α → Except Fault β} (hx : InCommand x)
    (hg : ∀ a, InCommand (g a)) : InCommand (x >>= g) := by
  cases x with
  | ok a => exact hg a
  | error f => exact inCommand_error (hx f rfl)

theorem inCommand_readNumber (role : IntegerRole) (a : String) : InCommand (readNumber role a) := by
  unfold readNumber
  split
  · exact inCommand_ok _
  · exact inCommand_error rfl

theorem inCommand_readStroke (a : String) : InCommand (readStroke a) := by
  unfold readStroke
  split_ifs
  · exact inCommand_ok _
  · exact inCommand_ok _
  · exact inCommand_error rfl

theorem inCommand_readKey (name : String) : InCommand (readKey name) := by
  unfold readKey
  split
  · exact inCommand_ok _
  · exact inCommand_error rfl

theorem inCommand_readButton (name : String) : InCommand (readButton name) := by
  unfold readButton
  split
  · exact inCommand_ok _
  · exact inCommand_error rfl

theorem inCommand_sleep (a : String) : InCommand (sleep a) := by
  unfold sleep
  split
  · exact inCommand_ok _
  · exact inCommand_error rfl

theorem inCommand_loop (n : Int) : InCommand (loop n) := by
  unfold loop
  split_ifs
  · exact inCommand_ok _
  · exact inCommand_error rfl

theorem inCommand_ofCommand (command : Command) (args : List String) :
    InCommand (ofCommand command args) := by
  cases command with
  | backslash | enter | tab | space | leftClick | rightClick | endLoop =>
    cases args with
    | nil => exact inCommand_ok _
    | cons => exact inCommand_error rfl
  | sleep =>
    rcases args with _ | ⟨seconds, _ | _⟩
    · exact inCommand_ok _
    · exact inCommand_sleep seconds
    · exact inCommand_error rfl
  | middleClick =>
    rcases args with _ | ⟨direction, _ | _⟩
    · exact inCommand_ok _
    · simp only [ofCommand]
      split_ifs
      · exact inCommand_ok _
      · exact inCommand_ok _
      · exact inCommand_error rfl
    · exact inCommand_error rfl
  | movePointer =>
    rcases args with _ | ⟨x, _ | ⟨y, _ | _⟩⟩
    · exact inCommand_error rfl
    · exact inCommand_error rfl
    · exact (inCommand_readNumber .x x).bind fun _ => (inCommand_readNumber .y y).bind fun _ => inCommand_ok _
    · exact inCommand_error rfl
  | queryPointer =>
    rcases args with _ | ⟨mark, _ | _⟩
    · exact inCommand_ok _
    · simp only [ofCommand]
      split_ifs
      · exact inCommand_ok _
      · exact inCommand_error rfl
    · exact inCommand_error rfl
  | beginLoop =>
    rcases args with _ | ⟨count, _ | _⟩
    · exact inCommand_loop 0
    · exact (inCommand_readNumber .loopCount count).bind inCommand_loop
    · exact inCommand_error rfl
  | sendKey =>
    rcases args with _ | ⟨name, _ | ⟨direction, _ | _⟩⟩
    · exact inCommand_error rfl
    · exact (inCommand_readKey name).bind fun _ => inCommand_ok _
    · exact (inCommand_readKey name).bind fun _ => (inCommand_readStroke direction).bind fun _ => inCommand_ok _
    · exact inCommand_error rfl
  | sendButton =>
    rcases args with _ | ⟨name, _ | ⟨direction, _ | _⟩⟩
    · exact inCommand_error rfl
    · exact (inCommand_readButton name).bind fun _ => inCommand_ok _
    · exact (inCommand_readButton name).bind fun _ => (inCommand_readStroke direction).bind fun _ => inCommand_ok _
    · exact inCommand_error rfl

end Phrase

theorem Program.isUnexpected_of_add {p : Program} {phrase : Phrase} {f : Fault} (h : p.add phrase = .error f) :
    f.isUnexpected = false := by
  obtain ⟨-, -, rfl⟩ := add_eq_error h
  rfl

def Mode.start? : Mode → Option Location
  | .between => none
  | .escaped start | .bracketed start | .arguments start _ _ => some start

namespace Reader

variable {ignoreSpace : Bool} {r r' : Reader} {p : Program} {start here : Location} {c : Char}
  {cs : List Char} {e : ScriptError} {x : Except Fault Phrase}

def At (start : Location) (e : ScriptError) : Prop :=
  e.location = start ∧ e.fault.isUnexpected = false

theorem take_cases (p : Program) (start here : Location) (hx : Phrase.InCommand x) :
    (∃ e, take p start here x = .error e ∧ At start e) ∨
      ∃ q, take p start here x = .ok ⟨.between, here, q⟩ := by
  cases x with
  | error f => exact .inl ⟨⟨f, start⟩, rfl, rfl, hx f rfl⟩
  | ok phrase =>
    simp only [take, Fault.locate, bind, Except.bind]
    cases hadd : p.add phrase with
    | error f => exact .inl ⟨⟨f, start⟩, rfl, rfl, Program.isUnexpected_of_add hadd⟩
    | ok q => exact .inr ⟨q, rfl⟩

theorem step_in_command (ignoreSpace : Bool) (c : Char) (hr : r.mode.start? = some start) :
    (∃ e, r.step ignoreSpace c = .error e ∧ At start e) ∨
      ∃ r', r.step ignoreSpace c = .ok r' ∧ (r'.mode = .between ∨ r'.mode.start? = some start) := by
  obtain ⟨mode, here, p⟩ := r
  have htaken {command : Command} (args : List String) (here : Location) :
      (∃ e, complete p start here command args = .error e ∧ At start e) ∨
        ∃ r', complete p start here command args = .ok r' ∧
          (r'.mode = .between ∨ r'.mode.start? = some start) := by
    rcases take_cases p start here (Phrase.inCommand_ofCommand command args) with he | ⟨q, hq⟩
    · exact .inl he
    · exact .inr ⟨_, hq, .inl rfl⟩
  cases mode with
  | between => cases hr
  | escaped start =>
    cases hr
    simp only [step]
    split_ifs
    · exact .inr ⟨_, rfl, .inr rfl⟩
    · cases Command.ofChar? c with
      | some command => exact htaken [] _
      | none => exact .inl ⟨_, rfl, rfl, rfl⟩
  | bracketed start =>
    cases hr
    simp only [step]
    cases Command.ofChar? c with
    | some command => exact .inr ⟨_, rfl, .inr rfl⟩
    | none => exact .inl ⟨_, rfl, rfl, rfl⟩
  | arguments start command body =>
    cases hr
    simp only [step]
    cases body.step c with
    | more body => exact .inr ⟨_, rfl, .inr rfl⟩
    | closed args => exact htaken args _

theorem finish_in_command (hr : r.mode.start? = some start) (h : r.finish = .error e) : At start e := by
  obtain ⟨mode, here, p⟩ := r
  cases mode <;> cases hr <;> cases h <;> exact ⟨rfl, rfl⟩

theorem at_of_read (hr : r.mode.start? = some start) (h : r.read ignoreSpace cs = .error e)
    (hnone : ∀ ds, ds <+: cs → ∀ q, r.read ignoreSpace ds ≠ .ok q) : At start e := by
  induction cs generalizing r with
  | nil => exact finish_in_command hr h
  | cons c cs ih =>
    rw [read_cons] at h
    rcases step_in_command ignoreSpace c hr with ⟨e', hstep, he⟩ | ⟨r', hstep, hbetween | hr'⟩
    · rw [hstep] at h
      cases h
      exact he
    · refine absurd ?_ (hnone [c] (List.prefix_append [c] cs) r'.program)
      obtain ⟨mode, here, p⟩ := r'
      cases hbetween
      rw [read_cons, hstep]
      rfl
    · rw [hstep] at h
      apply ih hr' h
      intro ds hds q hq
      apply hnone (c :: ds) (List.cons_prefix_cons.mpr ⟨rfl, hds⟩) q
      rw [read_cons, hstep]
      exact hq

end Reader

inductive ScriptError.Shows (e : ScriptError) : Char → Prop
  | command : e.fault.isUnexpected = false → Shows e '\\'
  | character {c : Char} : c ≠ '\\' → c ∉ spaces → typedKey? c = none →
      e.fault = .unexpectedCharacter c → Shows e c

theorem ScriptError.Shows.relocate {e : ScriptError} {c : Char} (h : e.Shows c) (f : Location → Location) :
    (e.relocate f).Shows c := by
  cases h with
  | command hfault => exact .command hfault
  | character hc hspace hkey hfault => exact .character hc hspace hkey hfault

namespace Program

variable {p q : Program} {ignoreSpace : Bool} {e : ScriptError} {cs : List Char} {c : Char}

theorem shows_of_compile (h : p.compile ignoreSpace (String.ofList cs) = .error e)
    (hnone : ∀ ds, ds ≠ [] → ds <+: cs → ∀ q, p.compile ignoreSpace (String.ofList ds) ≠ .ok q) :
    e.location = .start ∧ ∃ c rest, cs = c :: rest ∧ e.Shows c := by
  simp only [compile, String.toList_ofList] at h hnone
  cases cs with
  | nil => cases h
  | cons c cs =>
    rw [Reader.read_cons] at h
    by_cases hc : c = '\\'
    · subst hc
      have hstep : (Reader.begin p).step ignoreSpace '\\' = .ok ⟨.escaped .start, Location.start.next '\\', p⟩ := rfl
      rw [hstep] at h
      have hat : Reader.At .start e := by
        apply Reader.at_of_read (r := ⟨.escaped .start, Location.start.next '\\', p⟩) rfl h
        intro ds hds q hq
        apply hnone ('\\' :: ds) (List.cons_ne_nil _ _) (List.cons_prefix_cons.mpr ⟨rfl, hds⟩) q
        rw [Reader.read_cons, hstep]
        exact hq
      exact ⟨hat.1, _, cs, rfl, .command hat.2⟩
    · have hstep : (Reader.begin p).step ignoreSpace c =
          Reader.take p .start (Location.start.next c) (Phrase.ofChar ignoreSpace c) := by
        simp only [Reader.step, Reader.begin, if_neg hc]
        rfl
      cases hphrase : Phrase.ofChar ignoreSpace c with
      | error f =>
        obtain ⟨hspace, hkey, rfl⟩ := Phrase.ofChar_eq_error.mp hphrase
        rw [hstep, hphrase] at h
        cases h
        exact ⟨rfl, c, cs, rfl, .character hc hspace hkey rfl⟩
      | ok phrase =>
        obtain ⟨instructions, rfl⟩ := Phrase.exists_emit_of_ofChar hphrase
        rw [hphrase] at hstep
        refine absurd ?_ (hnone [c] (List.cons_ne_nil _ _) (List.prefix_append [c] cs)
          ⟨p.instructions.appendList instructions, p.positions⟩)
        rw [Reader.read_cons, hstep]
        rfl

def CompilesTo (p : Program) (ignoreSpace : Bool) (cs : List Char) (n : Nat) : Prop :=
  ∃ q, p.compile ignoreSpace (String.ofList (cs.take n)) = .ok q

theorem exists_fault (h : p.compile ignoreSpace (String.ofList cs) = .error e) :
    ∃ i, p.CompilesTo ignoreSpace cs i ∧ (∀ n, p.CompilesTo ignoreSpace cs n → n ≤ i) ∧ e.PointsAt cs i ∧
      ∃ c, cs[i]? = some c ∧ e.Shows c := by
  classical
  let i := Nat.findGreatest (p.CompilesTo ignoreSpace cs) cs.length
  have hlength : ¬ p.CompilesTo ignoreSpace cs cs.length := by
    rintro ⟨q, hq⟩
    rw [List.take_length] at hq
    cases hq.symm.trans h
  have hi : p.CompilesTo ignoreSpace cs i := Nat.findGreatest_spec (Nat.zero_le _) ⟨p, rfl⟩
  have hlt : i < cs.length := by
    apply Nat.lt_of_le_of_ne (Nat.findGreatest_le _)
    intro hsame
    exact hlength (hsame ▸ hi)
  have hgreatest (n : Nat) (hn : p.CompilesTo ignoreSpace cs n) : n ≤ i := by
    by_contra hlater
    by_cases hshort : n ≤ cs.length
    · exact Nat.findGreatest_is_greatest (Nat.not_le.mp hlater) hshort hn
    · rw [CompilesTo, List.take_of_length_le (by omega)] at hn
      rw [CompilesTo, List.take_length] at hlength
      exact hlength hn
  refine ⟨i, hi, hgreatest, ?_⟩
  obtain ⟨q, hq⟩ := hi
  have happend (ds : List Char) : p.compile ignoreSpace (String.ofList (cs.take i ++ ds)) = Reader.moved
      (·.behind (String.ofList (cs.take i))) id (q.compile ignoreSpace (String.ofList ds)) := by
    rw [String.ofList_append]
    exact compile_append_of_ok hq _
  rw [← List.take_append_drop i cs, happend] at h
  cases hrest : q.compile ignoreSpace (String.ofList (cs.drop i)) with
  | ok r =>
    rw [hrest] at h
    cases h
  | error e' =>
    rw [hrest] at h
    cases h
    -- No part of the rest compiles, or the longest part of the whole would be longer.
    obtain ⟨hstart, c, rest, hc, hshows⟩ := shows_of_compile hrest fun ds hds hprefix r hr => by
      obtain ⟨after, hafter⟩ := hprefix
      have htake : cs.take (i + ds.length) = cs.take i ++ ds := by
        rw [List.take_add, ← hafter, List.take_left]
      have hlater := hgreatest (i + ds.length) ⟨r, by rw [htake, happend, hr]; rfl⟩
      have := List.length_pos_iff.mpr hds
      omega
    refine ⟨ScriptError.pointsAt_iff.mpr ⟨hlt, ?_⟩, c, ?_, hshows.relocate _⟩
    · have hbehind := Location.start_behind (String.ofList (cs.take i))
      rw [String.toList_ofList] at hbehind
      rw [← hbehind, ← hstart]
      rfl
    · rw [← List.head?_drop, hc, List.head?_cons]

end Program

namespace Compiler

/-- A fault is told at exactly one character of the script. What stands before it is the longest part of the
script that compiles. The character starts a command, or is one that types nothing, which the message says. -/
theorem fault_located {c : Compiler} {p : Program} {source : String} {e : ScriptError}
    (h : (c.compile p source).outcome = .error (.script e)) :
    (∃! i, e.PointsAt source.toList i) ∧ ∀ i, e.PointsAt source.toList i →
      IsGreatest {n | (c.compile p (String.ofList (source.toList.take n))).outcome = .ok ()} i ∧
        ((source.toList[i]? = some '\\' ∧ ¬ "Unexpected character: ".toList <+: e.message.toList) ∨
          ∃ x, source.toList[i]? = some x ∧ x ≠ '\\' ∧ x ∉ spaces ∧ typedKey? x = none ∧
            e.message = "Unexpected character: " ++ Text.quotedChar x) := by
  rw [outcome_eq_error, ← String.ofList_toList (s := source)] at h
  obtain ⟨i, hcompiles, hgreatest, hpoints, x, hx, hshows⟩ := Program.exists_fault h
  have honly (j : Nat) (hj : e.PointsAt source.toList j) : j = i := by
    rw [ScriptError.pointsAt_iff] at hpoints hj
    have hsame := hpoints.2.symm.trans hj.2
    exact Nat.le_antisymm (Location.after_take_le hj.1.le hsame) (Location.after_take_le hpoints.1.le hsame.symm)
  refine ⟨⟨i, hpoints, honly⟩, fun j hj => ?_⟩
  obtain rfl := honly j hj
  refine ⟨⟨outcome_eq_ok.mpr hcompiles, fun n hn => hgreatest n (outcome_eq_ok.mp hn)⟩, ?_⟩
  cases hshows with
  | command hfault =>
    have hmessage := Fault.message_of_not_unexpected hfault
    rw [← ScriptError.message] at hmessage
    exact .inl ⟨hx, hmessage⟩
  | character hc hspace hkey hfault =>
    refine .inr ⟨x, hx, hc, hspace, hkey, ?_⟩
    rw [ScriptError.message, hfault]
    rfl

theorem fault_located_of_three_arguments :
    let c := Compiler.new false
    let source := "a\nb\\[@1,\n2,3]c"
    (c.compile .empty source).outcome = .error (.script ⟨.arguments .movePointer, ⟨2, 2⟩⟩) ∧
      IsGreatest {n | (c.compile .empty (String.ofList (source.toList.take n))).outcome = .ok ()} 3 := by
  intro c source
  have h : (c.compile .empty source).outcome = .error (.script ⟨.arguments .movePointer, ⟨2, 2⟩⟩) := by
    decide +kernel
  have hpoints : ScriptError.PointsAt ⟨.arguments .movePointer, ⟨2, 2⟩⟩ source.toList 3 :=
    ⟨by decide, by decide, by decide⟩
  exact ⟨h, ((fault_located h).2 3 hpoints).1⟩

end Compiler

end InputScript
