import InputScript.Proofs.ListingText
import InputScript.Proofs.Surroundings

namespace InputScript

namespace Text

theorem not_mem_toDigits_sixteen (n : Nat) : ' ' ∉ (Nat.toDigits 16 n).map Char.toUpper := by
  have hdigit : ∀ m < 16, (Nat.digitChar m).toUpper ≠ ' ' := by decide
  rw [Nat.toDigits_eq_if (by decide)]
  split_ifs with hn
  · simpa using (hdigit n hn).symm
  · rw [List.map_append, List.mem_append, not_or]
    refine ⟨not_mem_toDigits_sixteen (n / 16), ?_⟩
    simpa using (hdigit (n % 16) (Nat.mod_lt n (by decide))).symm
termination_by n

theorem not_mem_upperHex (width n : Nat) : ' ' ∉ (upperHex width n).toList := by
  rw [upperHex, padLeft, String.toList_ofList, String.toList_ofList, List.leftpad, List.mem_append, not_or]
  refine ⟨fun h => ?_, not_mem_toDigits_sixteen n⟩
  exact absurd (List.eq_of_mem_replicate h) (by decide)

end Text

namespace Listing

def behindAddress (line : String) : List Char :=
  (line.toList.dropWhile (· ≠ ' ')).tail

def indent (line : String) : Nat :=
  ((behindAddress line).takeWhile (· = ' ')).length

def flat (line : String) : String :=
  String.ofList (line.toList.takeWhile (· ≠ ' ') ++ ' ' :: (behindAddress line).dropWhile (· = ' '))

end Listing

namespace Program

variable {p : Program} {i : Instruction} {a depth : Nat}

theorem line_parts (p : Program) (a : Nat) (i : Instruction) : ∃ address, ' ' ∉ address ∧
    (addressText a).toList = address ++ [' '] ∧ (p.line a i).toList = address ++ ' ' ::
      (indentation (depthAt (p.depthBefore a) i) ++ p.describe i).toList := by
  have haddress : (addressText a).toList = ('0' :: 'x' :: (Text.upperHex 4 a).toList ++ [':']) ++ [' '] := by
    simp [addressText]
  refine ⟨_, ?_, haddress, ?_⟩
  · simpa using Text.not_mem_upperHex 4 a
  · rw [line, String.append_assoc, String.toList_append, haddress, List.append_assoc]
    rfl

theorem behindAddress_line (p : Program) (a : Nat) (i : Instruction) : Listing.behindAddress (p.line a i) =
    (indentation (depthAt (p.depthBefore a) i) ++ p.describe i).toList := by
  obtain ⟨address, hspace, -, hline⟩ := p.line_parts a i
  rw [Listing.behindAddress, hline, Text.dropWhile_ne_append hspace]
  rfl

theorem indented_takeWhile (p : Program) (i : Instruction) (depth : Nat) :
    ((indentation depth ++ p.describe i).toList.takeWhile (· = ' ')).length = 2 * depth := by
  have hwhole := congrArg List.length
    (List.takeWhile_append_dropWhile (p := fun c => decide (c = ' ')) (l := (indentation depth ++ p.describe i).toList))
  rw [List.length_append, indented_dropWhile, String.toList_append, List.length_append, toList_indentation,
    List.length_replicate] at hwhole
  rw [String.toList_append, toList_indentation]
  omega

theorem indent_line (p : Program) (a : Nat) (i : Instruction) :
    Listing.indent (p.line a i) = 2 * depthAt (p.depthBefore a) i := by
  rw [Listing.indent, behindAddress_line, indented_takeWhile]

theorem flat_line (p : Program) (a : Nat) (i : Instruction) : Listing.flat (p.line a i) = p.traceLine a i := by
  obtain ⟨address, hspace, haddress, hline⟩ := p.line_parts a i
  have hcut (rest : List Char) : (address ++ ' ' :: rest).takeWhile (· ≠ ' ') = address := by
    rw [Text.takeWhile_ne_append hspace]
    simp
  rw [Listing.flat, behindAddress_line, indented_dropWhile, hline, hcut, ← String.toList_inj,
    String.toList_ofList, traceLine, String.toList_append, haddress, List.append_assoc]
  rfl

theorem length_bracket (i : Instruction) (a : Nat) (outer : List Nat) :
    (i.bracket a outer).length = depthAfter outer.length i := by
  unfold Instruction.bracket depthAfter depthAt
  cases i.opcode <;> simp

theorem depthBefore_eq (p : Program) (a : Nat) : p.depthBefore a = (p.openLoops a).length := by
  induction a with
  | zero => rfl
  | succ a ih =>
    rw [depthBefore, List.take_add_one, List.foldl_append, ← depthBefore, ih, Array.getElem?_toList]
    cases hi : p.instructions[a]? with
    | none => rw [openLoops, hi]; rfl
    | some i => rw [openLoops_succ hi, length_bracket]; rfl

theorem Nested.length_eq {loops : List Frame} (h : p.Nested a loops) : loops.length = p.depthBefore a := by
  rw [depthBefore_eq]
  exact List.Forall₂.length_eq h

end Program

namespace Act

variable {σ ε : Type} {d : Desktop σ ε} {p : Program} {i : Instruction} {a b n : Nat} {s t : Stage σ ε}

theorem step_events (d : Desktop σ ε) (p : Program) (a : Nat) (i : Instruction) (hs : s.player.playing = true) :
    ∃ new : List (Event ε), (∀ e ∈ new, e.isTrace = false) ∧
      (stageOf (step d p a i s)).events = (s.traced p a i).events ++ new := by
  have henter : (s.enter p a i).player.playing = true := by
    rw [Stage.enter_player]
    exact hs
  obtain ⟨new, hnew, hadds⟩ := performAll_adds d (plain_of_mem_calls p i) henter
  refine ⟨new, hnew, ?_⟩
  have hcalls := hadds (s.enter p a i).events (s.enter p a i).player.loops
  rw [Stage.amid_self] at hcalls
  rw [stageOf_step, hcalls]
  cases performAll d (p.calls i) (s.enter p a i) <;> rfl

theorem Steps.tracing (h : Steps d p n a s b t) (hs : s.player.playing = true) :
    t.player.tracing = s.player.tracing := by
  obtain ⟨noise, loops, hplayer⟩ := h.player hs
  rw [hplayer]

/-- Wherever a play comes, the listing has a line for the instruction there. It is indented by two spaces for each
loop that the player is in, one less where a loop ends. With a trace, the play records the same line without the
indentation, and nothing else in the trace before the next instruction. -/
theorem trace_of_reaches (h : Reaches d p s a t) (hi : p.instructions[a]? = some i) :
    ∃ line, p.listing[a]? = some line ∧
      Listing.indent line = 2 * (if i.opcode = .loopEnd ∧ t.player.loops ≠ [] then t.player.loops.length - 1
        else t.player.loops.length) ∧
      (s.player.tracing = true → ∃ new : List (Event ε), (∀ e ∈ new, e.isTrace = false) ∧
        (stageOf (step d p a i t)).events.toList = t.events.toList ++ .trace (Listing.flat line) :: new) := by
  obtain ⟨hplaying, hnested⟩ := h.nested
  refine ⟨p.line a i, ?_, ?_, fun htracing => ?_⟩
  · rw [Program.listing_getElem?, hi]
    rfl
  · rw [Program.indent_line, ← hnested.length_eq, Program.depthAt]
    cases t.player.loops with
    | nil => simp
    | cons frame loops => simp
  · obtain ⟨-, n, hsteps⟩ := h
    have htraces : t.player.tracing = true := (hsteps.tracing rfl).trans htracing
    obtain ⟨new, hnew, hevents⟩ := step_events d p a i hplaying
    refine ⟨new, hnew, ?_⟩
    rw [hevents, Program.flat_line, Stage.traced, if_pos htraces]
    simp [Stage.record]

theorem trace_of_second_pass :
    let p : Program := ⟨#[⟨.loopEnd, 5, by decide⟩, ⟨.loopBegin, 2, by decide⟩, ⟨.sleepMs, 5, by decide⟩,
      ⟨.loopEnd, 0, by decide⟩], #[]⟩
    let s : Stage DryRun (List DryRunLine) := .new (.idle false true (.ofList [])) .fresh
    ∃ t, Reaches DryRun.desktop p s 2 t ∧ t.player.loops = [⟨2, 1⟩] ∧
      p.listing[2]? = some "0x0002:   SLEEP_MS 5" ∧
      ∃ new : List (Event (List DryRunLine)), (∀ e ∈ new, e.isTrace = false) ∧
        (stageOf (step DryRun.desktop p 2 ⟨.sleepMs, 5, by decide⟩ t)).events.toList =
          t.events.toList ++ .trace "0x0002: SLEEP_MS 5" :: new := by
  intro p s
  have hleads : p.Leads (0, []) (2, [⟨2, 1⟩]) :=
    .head (b := (1, [])) rfl (.head (b := (2, [⟨2, 2⟩])) rfl
      (.head (b := (3, [⟨2, 2⟩])) rfl (.single rfl)))
  obtain ⟨n, t, hsteps, -, hloops⟩ :=
    steps_calm DryRun.serves (Stage.calm_new trivial true (.ofList [])).started hleads
  have h : Reaches DryRun.desktop p s 2 t := ⟨rfl, n, hsteps⟩
  obtain ⟨line, hline, -, htrace⟩ := trace_of_reaches h (i := ⟨.sleepMs, 5, by decide⟩) rfl
  have hlisting : p.listing[2]? = some "0x0002:   SLEEP_MS 5" := by decide +kernel
  have hflat : Listing.flat "0x0002:   SLEEP_MS 5" = "0x0002: SLEEP_MS 5" := by decide +kernel
  obtain rfl : line = "0x0002:   SLEEP_MS 5" := Option.some.inj (hline.symm.trans hlisting)
  obtain ⟨new, hnew, hevents⟩ := htrace rfl
  rw [hflat] at hevents
  exact ⟨t, h, hloops, hlisting, new, hnew, hevents⟩

end Act

end InputScript
