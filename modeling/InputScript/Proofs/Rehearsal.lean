import InputScript.Desktop.Live
import InputScript.Proofs.Lockstep
import InputScript.Proofs.Operands

namespace InputScript

def DryRunLine.call? : DryRunLine → Option HostCall
  | .press (.key k) => some (.keyboardPress k.target)
  | .release (.key k) => some (.keyboardRelease k.target)
  | .press (.button .left) => some (.mousePress (.named "left"))
  | .press (.button .middle) => some (.mousePress (.named "middle"))
  | .press (.button .right) => some (.mousePress (.named "right"))
  | .release (.button .left) => some (.mouseRelease (.named "left"))
  | .release (.button .middle) => some (.mouseRelease (.named "middle"))
  | .release (.button .right) => some (.mouseRelease (.named "right"))
  | .press (.button .scrollUp) => some (.mouseScroll 1)
  | .press (.button .scrollDown) => some (.mouseScroll (-1))
  | .release (.button .scrollUp) => none
  | .release (.button .scrollDown) => none
  | .move place => some (.mouseMove place)

structure Host.Faultless (h : Host) : Prop where
  failure : ∀ operation, h.failure operation = none
  lacksKey : ∀ name ∈ keyAttributes, h.lacksKey name = false

theorem Host.faultless_working : working.Faultless :=
  ⟨fun _ => rfl, fun _ _ => rfl⟩

theorem Host.Faultless.target {h : Host} (hh : h.Faultless) (k : Key) : h.target? k = some k.target := by
  unfold target?
  cases htarget : k.target with
  | char c => rfl
  | named name =>
    have hname : name ∈ keyAttributes := List.mem_filterMap.mpr ⟨k, k.mem_all, by rw [htarget]⟩
    simp only [hh.lacksKey name hname, Bool.false_eq_true, if_false]

namespace Live

variable {h : Host} {l : Live} {x : DryRun} {es : List (List DryRunLine)} {calls : List HostCall}

theorem send_eq (hl : l.host.Faultless) (call : HostCall) : l.send call = .emits l call () := by
  simp only [send, hl.failure]

theorem sendKey_eq (hl : l.host.Faultless) (k : Key) (call : Target → HostCall) :
    l.sendKey k call = .emits l (call k.target) () := by
  simp only [sendKey, hl.target, send_eq hl]

theorem press_eq (hl : l.host.Faultless) (k : Symbol) :
    press k l = ⟨l, (DryRunLine.press k).call?.toList, .done ()⟩ := by
  cases k with
  | key k => exact sendKey_eq hl k _
  | button b => cases b <;> exact send_eq hl _

theorem release_eq (hl : l.host.Faultless) (k : Symbol) :
    release k l = ⟨l, (DryRunLine.release k).call?.toList, .done ()⟩ := by
  cases k with
  | key k => exact sendKey_eq hl k _
  | button b =>
    cases b with
    | left | middle | right => exact send_eq hl _
    | scrollUp | scrollDown => rfl

structure Rehearsed (h : Host) (x : DryRun) (es : List (List DryRunLine)) (l : Live) (calls : List HostCall) :
    Prop where
  host : l.host = { h with pointer := [(x.pointer.x : Rat), (x.pointer.y : Rat)] }
  within : x.pointer.Within 65535
  calls : calls = (es.flatten ++ x.pending).filterMap DryRunLine.call?

theorem Rehearsed.faultless (hl : Rehearsed h x es l calls) (hh : h.Faultless) : l.host.Faultless := by
  rw [hl.host]
  exact ⟨hh.failure, hh.lacksKey⟩

theorem Rehearsed.write (hl : Rehearsed h x es l calls) (line : DryRunLine) :
    Rehearsed h (x.write line) es l (calls ++ line.call?.toList) := by
  have hline : [line].filterMap DryRunLine.call? = line.call?.toList := by
    rw [List.filterMap_cons]
    cases line.call? <;> rfl
  refine ⟨hl.host, hl.within, ?_⟩
  rw [hl.calls, ← hline, ← List.filterMap_append, List.append_assoc]
  rfl

theorem Rehearsed.moved (hl : Rehearsed h x es l calls) {place : Point} (hplace : place.Within 65535) :
    Rehearsed h { x with pointer := place } es ⟨{ l.host with pointer := [(place.x : Rat), (place.y : Rat)] }⟩ calls := by
  refine ⟨?_, hplace, hl.calls⟩
  rw [hl.host]

theorem Rehearsed.pointer_eq (hl : Rehearsed h x es l calls) (hh : h.Faultless) :
    pointer l = .silent l x.pointer := by
  have hpointer : l.host.pointer = [(x.pointer.x : Rat), (x.pointer.y : Rat)] := by rw [hl.host]
  simp only [pointer, (hl.faultless hh).failure, hpointer, Number.truncate_intCast, hl.within.clamp_eq]

end Live

namespace Event

def text? : Event Empty → Option String
  | print text => some text
  | _ => none

end Event

namespace Program

def printed (place : Point) (i : Instruction) : List String :=
  if i.opcode = .pointerWhere then [place.text ++ Act.pointerLineEnd (overwritesLine i.operand)] else []

end Program

namespace Act

open Stage

section

variable {σ ε : Type} {d : Desktop σ ε} {p : Program} {i : Instruction} {a b n : Nat} {s t : Stage σ ε}

def course (d : Desktop σ ε) (p : Program) : Nat → Nat → Stage σ ε → List Instruction
  | fuel, address, s =>
    match p.instructions[address]? with
    | none => []
    | some i =>
      match fuel with
      | 0 => []
      | fuel + 1 =>
        i :: match step d p address i s with
          | .ok (.next b) t => course d p fuel b t
          | _ => []

theorem course_over (h : p.instructions[a]? = none) : course d p n a s = [] := by
  unfold course
  rw [h]

theorem course_zero (d : Desktop σ ε) (p : Program) (a : Nat) (s : Stage σ ε) : course d p 0 a s = [] := by
  unfold course
  cases p.instructions[a]? <;> rfl

theorem course_next (h : p.instructions[a]? = some i) (hstep : step d p a i s = .ok (.next b) t) :
    course d p (n + 1) a s = i :: course d p n b t := by
  rw [course, h]
  simp only [hstep]

theorem course_last (h : p.instructions[a]? = some i) (hstep : ∀ b t, step d p a i s ≠ .ok (.next b) t) :
    course d p (n + 1) a s = [i] := by
  rw [course, h]
  dsimp only
  generalize step d p a i s = r at hstep ⊢
  cases r with
  | error e t => rfl
  | ok progress t =>
    cases progress with
    | next b => exact absurd rfl (hstep b t)
    | cancelled => rfl

end

variable {p : Program} {i : Instruction} {c : Call} {cs : List Call} {place : Point} {texts : List String}
  {s : Stage DryRun (List DryRunLine)}

structure Shows (place : Point) (texts : List String) (s : Stage DryRun (List DryRunLine)) : Prop where
  pointer : s.desktop.pointer = place
  texts : s.own.filterMap Event.text? = texts

theorem Shows.answered {α : Type} {r : Reply DryRun (List DryRunLine) α} (h : Shows place texts s)
    (hr : r.state.pointer = s.desktop.pointer) : Shows place texts (s.answered r) :=
  ⟨hr.trans h.pointer, by rw [own_answered, h.texts]⟩

theorem Shows.record {e : Event (List DryRunLine)} (h : Shows place texts s)
    (he : e.own?.toList.filterMap Event.text? = []) : Shows place texts (s.record e) :=
  ⟨h.pointer, by rw [own_record, List.filterMap_append, he, List.append_nil, h.texts]⟩

theorem Shows.print (h : Shows place texts s) (text : String) : Shows place (texts ++ [text]) (s.record (.print text)) :=
  ⟨h.pointer, by rw [own_record, List.filterMap_append, h.texts]; rfl⟩

theorem Shows.countSleep (h : Shows place texts s) : Shows place texts s.countSleep := by
  rw [countSleep_eq]
  exact ⟨h.pointer, h.texts⟩

theorem Shows.countPress (h : Shows place texts s) : Shows place texts s.countPress := by
  rw [countPress_eq]
  exact ⟨h.pointer, h.texts⟩

theorem Shows.enter (h : Shows place texts s) (p : Program) (a : Nat) (i : Instruction) :
    Shows place texts (s.enter p a i) := by
  have htraced : Shows place texts (s.traced p a i) := by
    unfold traced
    split
    · exact h.record rfl
    · exact h
  exact ⟨htraced.pointer, htraced.texts⟩

end Act

namespace Watch

open Act Stage

end Watch

end InputScript
