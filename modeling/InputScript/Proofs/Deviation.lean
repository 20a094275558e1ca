import InputScript.Proofs.Rehearsal
import InputScript.Proofs.Rounding

namespace InputScript

namespace Random

open Number Number.Binary64

variable {ms lasting : Int} {z : Rat}

theorem deviation?_eq (hms : 0 < ms) (hlongest : ms ≤ longestSleep) (hz : isFinite z = true)
    (hoffset : isFinite (nearest (nearest (z * spread) * ms)) = true) :
    deviation? ms z = some (nearest (nearest (z * spread) * ms)) := by
  have hscaled : round? (z * spread) = some (nearest (z * spread)) := by
    apply round?_of_abs_le (k := 1021) (by decide)
    have hlt := isFinite_iff.mp hz
    rw [show (1024 : Int) = ((1021 : Nat) : Int) + 3 from rfl, zpow_add₀ (by norm_num), zpow_natCast] at hlt
    rw [spread, abs_mul, abs_of_pos (by norm_num : (0 : Rat) < 1 / 8)]
    generalize (2 : Rat) ^ 1021 = bound at hlt ⊢
    linarith
  have hduration : round? (ms : Rat) = some (ms : Rat) := by
    obtain ⟨n, rfl⟩ := Int.eq_ofNat_of_zero_le hms.le
    have hn : n.log2 < 52 := by
      have hsize : n ≤ 8191000 := Int.ofNat_le.mp hlongest
      exact (Nat.log2_lt (by omega)).mpr (by omega)
    rw [Int.cast_natCast, round?_eq_some (Nat.cast_nonneg n) (le_refl _) hn, nearest_natCast hn]
  simp only [deviation?, hscaled, hduration, Option.bind_eq_bind, Option.bind_some]
  rw [round?, if_pos hoffset]

theorem jittered?_eq {deviation : Rat} (h : deviation? ms z = some deviation) :
    jittered? ms z = some (if ms ≤ -deviation then ms else ms + truncate deviation) := by
  unfold jittered?
  generalize deviation? ms z = d at h ⊢
  subst h
  rfl

theorem neg_truncate_lt {deviation : Rat} (hms : 0 < ms) (h : -deviation < ms) : -truncate deviation < ms := by
  rcases le_total 0 deviation with hpos | hneg
  · have htruncated := truncate_nonneg hpos
    omega
  · have hsize := abs_truncate_le deviation
    have hsign : (truncate deviation : Rat) ≤ 0 := by exact_mod_cast truncate_nonpos hneg
    rw [abs_of_nonpos hsign, abs_of_nonpos hneg] at hsize
    exact_mod_cast hsize.trans_lt h

theorem one_le_of_jittered? (hms : 0 < ms) (h : jittered? ms z = some lasting) : 1 ≤ lasting := by
  unfold jittered? at h
  generalize deviation? ms z = d at h
  cases d with
  | none =>
    obtain ⟨-, hlasting⟩ := Option.ite_none_right_eq_some.mp h
    obtain rfl := Option.some.inj hlasting
    exact hms
  | some deviation =>
    obtain rfl := Option.some.inj h
    split_ifs with hdropped
    · exact hms
    · have hleft := neg_truncate_lt hms (not_le.mp hdropped)
      omega

theorem offset_nonneg (hms : 0 < ms) (hz : 0 ≤ z) : 0 ≤ nearest (nearest (z * spread) * ms) := by
  have hscaled : 0 ≤ nearest (z * spread) := nearest_nonneg (mul_nonneg hz (by norm_num [spread]))
  have hduration : (0 : Rat) ≤ ms := by exact_mod_cast hms.le
  exact nearest_nonneg (mul_nonneg hscaled hduration)

theorem offset_nonpos (hms : 0 < ms) (hz : z ≤ 0) : nearest (nearest (z * spread) * ms) ≤ 0 := by
  have hscaled : nearest (z * spread) ≤ 0 :=
    nearest_nonpos (mul_nonpos_of_nonpos_of_nonneg hz (by norm_num [spread]))
  have hduration : (0 : Rat) ≤ ms := by exact_mod_cast hms.le
  exact nearest_nonpos (mul_nonpos_of_nonpos_of_nonneg hscaled hduration)

end Random

structure Lasts (meant lasting : Int) : Prop where
  positive : 0 < meant → 1 ≤ lasting
  still : meant ≤ 0 → lasting = meant

theorem Player.lasts_of_duration? {q : Player} {ms lasting : Int} (h : (q.duration? ms).1 = some lasting) :
    Lasts ms lasting := by
  unfold duration? at h
  split at h
  · rename_i hrandom
    have hms : 0 < ms := of_decide_eq_true (Bool.and_eq_true_iff.mp hrandom).2
    exact ⟨fun _ => Random.one_le_of_jittered? hms h, fun hstill => by omega⟩
  · obtain rfl := Option.some.inj h
    exact ⟨fun hpos => hpos, fun _ => rfl⟩

def Event.length? {ε : Type} : Event ε → Option Int
  | .sleep ms => some ms
  | _ => none

def Call.pause? : Call → Option Int
  | .sleep ms => some ms
  | _ => none

def Program.pauses (p : Program) (i : Instruction) : List Int :=
  (p.calls i).filterMap Call.pause?

def Stage.lengths {σ ε : Type} (s : Stage σ ε) : List Int :=
  s.events.toList.filterMap Event.length?

namespace Stage

variable {σ ε α : Type} {s : Stage σ ε}

theorem lengths_record (s : Stage σ ε) (e : Event ε) : (s.record e).lengths = s.lengths ++ e.length?.toList := by
  rw [lengths, lengths, record, Array.toList_push, List.filterMap_append]
  cases e <;> rfl

theorem lengths_answered (s : Stage σ ε) (r : Reply σ ε α) : (s.answered r).lengths = s.lengths := by
  have hnone : (r.emitted.map Event.desktop).filterMap Event.length? = [] := by
    rw [List.filterMap_map]
    exact List.filterMap_eq_nil_iff.mpr fun _ _ => rfl
  rw [lengths, lengths, answered, Array.toList_appendList, List.filterMap_append, hnone, List.append_nil]

theorem lengths_countSleep (s : Stage σ ε) : s.countSleep.lengths = s.lengths := by
  rw [countSleep_eq]
  rfl

theorem lengths_countPress (s : Stage σ ε) : s.countPress.lengths = s.lengths := by
  rw [countPress_eq]
  rfl

theorem lengths_enter (s : Stage σ ε) (p : Program) (a : Nat) (i : Instruction) :
    (s.enter p a i).lengths = s.lengths := by
  change (s.traced p a i).lengths = s.lengths
  unfold traced
  split
  · rw [lengths_record]
    exact List.append_nil _
  · rfl

end Stage

namespace Act

open Stage

variable {σ ε α β : Type} {d : Desktop σ ε} {p : Program} {i : Instruction} {meant meant' : List Int} {s t : Stage σ ε}
  {r : EStateM.Result Failure (Stage σ ε) α} {r' : EStateM.Result Failure (Stage σ ε) β} {a n : Nat}

inductive Sleeps (s : Stage σ ε) : List Int → EStateM.Result Failure (Stage σ ε) α → Prop
  | ok {meant lengths : List Int} {a : α} {t : Stage σ ε} : t.lengths = s.lengths ++ lengths →
      List.Forall₂ Lasts meant lengths → Sleeps s meant (.ok a t)
  | error {done meant lengths : List Int} {e : Failure} {t : Stage σ ε} : done <+: meant →
      t.lengths = s.lengths ++ lengths → List.Forall₂ Lasts done lengths → Sleeps s meant (.error e t)

theorem sleeps_none (h : (stageOf r).lengths = s.lengths) : Sleeps s [] r := by
  rw [← List.append_nil s.lengths] at h
  cases r with
  | ok a t => exact .ok h .nil
  | error e t => exact .error List.prefix_rfl h .nil

theorem Sleeps.fails {e : Failure} (h : Sleeps s meant (.error e t : EStateM.Result Failure (Stage σ ε) α))
    (later : List Int) : Sleeps s (meant ++ later) (.error e t : EStateM.Result Failure (Stage σ ε) β) := by
  cases h with
  | error hdone hlengths hlast => exact .error (hdone.trans (List.prefix_append _ _)) hlengths hlast

theorem Sleeps.andThen {a : α} (h : Sleeps s meant (.ok a t : EStateM.Result Failure (Stage σ ε) α))
    (h' : Sleeps t meant' r') : Sleeps s (meant ++ meant') r' := by
  cases h with
  | ok hlengths hlast =>
    cases h' with
    | ok hlengths' hlast' =>
      rw [hlengths, List.append_assoc] at hlengths'
      exact .ok hlengths' (List.rel_append hlast hlast')
    | error hdone hlengths' hlast' =>
      rw [hlengths, List.append_assoc] at hlengths'
      exact .error ((List.prefix_append_right_inj _).mpr hdone) hlengths' (List.rel_append hlast hlast')

theorem ask_lengths (call : σ → Reply σ ε α) {received : Stage σ ε → Stage σ ε}
    (hreceived : ∀ t, (received t).lengths = t.lengths) (s : Stage σ ε) :
    (stageOf (ask call received s)).lengths = s.lengths := by
  have hanswered := s.lengths_answered (call s.desktop)
  exact ask_keeps (P := fun t => t.lengths = s.lengths) hanswered (fun t q ht => ht) fun t ht => (hreceived t).trans ht

theorem sleep_sleeps (ms : Int) (s : Stage σ ε) : Sleeps s [ms] (sleep ms s) := by
  rw [sleep_eq]
  cases hlasting : (s.player.duration? ms).1 with
  | none => exact .error List.nil_prefix (List.append_nil _).symm .nil
  | some lasting =>
    have hlengths := lengths_record { s with player := (s.player.duration? ms).2 } (.sleep lasting)
    exact .ok ((lengths_countSleep _).trans hlengths) (.cons (Player.lasts_of_duration? hlasting) .nil)

theorem perform_sleeps (d : Desktop σ ε) (c : Call) (s : Stage σ ε) : Sleeps s c.pause?.toList (perform d c s) := by
  cases c with
  | sleep ms => exact sleep_sleeps ms s
  | trace line =>
    refine sleeps_none ((s.lengths_record _).trans ?_)
    exact List.append_nil _
  | press k => exact sleeps_none (ask_lengths _ lengths_countPress s)
  | release k => exact sleeps_none (ask_lengths _ (fun _ => rfl) s)
  | moveTo place => exact sleeps_none (ask_lengths _ (fun _ => rfl) s)
  | flush => exact sleeps_none (ask_lengths _ (fun _ => rfl) s)
  | printPointer overwrite =>
    have hid (t : Stage σ ε) : (id t).lengths = t.lengths := rfl
    have hprinted (t : Stage σ ε) (text : String) (ht : t.lengths = s.lengths) :
        (t.record (.print text)).lengths = s.lengths := by
      rw [lengths_record, ht]
      exact List.append_nil _
    exact sleeps_none (printPointer_keeps (P := fun t => t.lengths = s.lengths) (ask_lengths _ hid s) hprinted overwrite)

theorem performAll_sleeps (d : Desktop σ ε) (cs : List Call) (s : Stage σ ε) :
    Sleeps s (cs.filterMap Call.pause?) (performAll d cs s) := by
  induction cs generalizing s with
  | nil => exact sleeps_none rfl
  | cons c cs ih =>
    have hfirst := perform_sleeps d c s
    have hpauses : (c :: cs).filterMap Call.pause? = c.pause?.toList ++ cs.filterMap Call.pause? := by
      rw [List.filterMap_cons]
      cases c.pause? <;> rfl
    rw [hpauses, performAll_cons]
    cases hcalled : perform d c s with
    | error e t =>
      rw [hcalled] at hfirst
      exact hfirst.fails _
    | ok _ t =>
      rw [hcalled] at hfirst
      exact hfirst.andThen (ih t)

theorem Sleeps.of_lengths_eq (h : Sleeps t meant r) (ht : t.lengths = s.lengths) : Sleeps s meant r := by
  cases h with
  | ok hlengths hlast => exact .ok (ht ▸ hlengths) hlast
  | error hdone hlengths hlast => exact .error hdone (ht ▸ hlengths) hlast

theorem step_sleeps (d : Desktop σ ε) (p : Program) (a : Nat) (i : Instruction) (s : Stage σ ε) :
    Sleeps s (p.pauses i) (step d p a i s) := by
  have hcalls := (performAll_sleeps d (p.calls i) (s.enter p a i)).of_lengths_eq (s.lengths_enter p a i)
  rw [step_eq]
  cases hperformed : performAll d (p.calls i) (s.enter p a i) with
  | ok _ t =>
    rw [hperformed] at hcalls
    cases hcalls with
    | ok hlengths hlast => exact .ok hlengths hlast
  | error e t =>
    rw [hperformed] at hcalls
    cases hcalls with
    | error hdone hlengths hlast => exact .error hdone hlengths hlast

theorem run_sleeps (d : Desktop σ ε) (p : Program) (n a : Nat) (s : Stage σ ε) :
    Sleeps s ((course d p n a s).flatMap p.pauses) (run d p n a s) := by
  induction n generalizing a s with
  | zero =>
    rw [course_zero]
    cases hi : p.instructions[a]? with
    | none => exact sleeps_none (by rw [run_over hi]; rfl)
    | some i => exact sleeps_none (by rw [run_zero hi]; rfl)
  | succ n ih =>
    cases hi : p.instructions[a]? with
    | none =>
      rw [course_over hi]
      exact sleeps_none (by rw [run_over hi]; rfl)
    | some i =>
      have hfirst := step_sleeps d p a i s
      rw [run_succ hi]
      cases hstep : step d p a i s with
      | error e t =>
        rw [hstep] at hfirst
        rw [course_last hi (by simp [hstep]), List.flatMap_cons]
        exact hfirst.fails _
      | ok progress t =>
        rw [hstep] at hfirst
        cases progress with
        | next b =>
          rw [course_next hi hstep, List.flatMap_cons]
          exact hfirst.andThen (ih b t)
        | cancelled =>
          rw [course_last hi (by simp [hstep]), List.flatMap_cons]
          exact hfirst.andThen (sleeps_none rfl)

end Act

namespace Watch

open Act Stage Number Number.Binary64

variable {σ ε : Type}

theorem play_sleeps (w : Watch) (d : Desktop σ ε) (p : Program) (n : Nat) {s : Stage σ ε}
    (hidle : s.player.playing = false) :
    Sleeps s ((course d p n 0 (w.enter s)).flatMap p.pauses) (w.play d p n s) := by
  have hrun := run_sleeps d p n 0 (w.enter s)
  have henter : (w.enter s).lengths = s.lengths := by rw [lengths, enter_events, lengths]
  have hleave (t : Stage σ ε) : (w.leave s t).lengths = t.lengths := by rw [lengths, leave_events, lengths]
  rw [w.play_idle d p n hidle]
  cases hcourse : run d p n 0 (w.enter s) with
  | ok answer t =>
    rw [hcourse] at hrun
    cases hrun with
    | ok hlengths hlast => exact .ok (by rw [hleave, hlengths, henter]) hlast
  | error e t =>
    rw [hcourse] at hrun
    cases hrun with
    | error hdone hlengths hlast => exact .error hdone (by rw [hleave, hlengths, henter]) hlast

/-- A randomized sleep that is meant to last does so for a millisecond at least, for any draw with a finite offset: an
offset that would leave nothing of it is dropped, any other is cut towards zero. So do the sleeps of a whole play, one
by one as the instructions that were played call for them. -/
theorem sleeps_last {s : Stage σ ε} (hrandom : s.player.randomSleep = true) :
    (∀ ms : Int, 0 < ms → ms ≤ longestSleep →
      let z := s.player.noise.draw.1
      let offset := nearest (nearest (z * Random.spread) * ms)
      isFinite z = true → isFinite offset = true →
      ∃ lasting t, Act.sleep ms s = .ok () t ∧ t.events = s.events.push (.sleep lasting) ∧ 1 ≤ lasting ∧
        (ms ≤ -offset → lasting = ms) ∧ (-offset < ms → lasting = ms + truncate offset) ∧
        (0 ≤ z → ms ≤ lasting) ∧ (z ≤ 0 → lasting ≤ ms) ∧ |(lasting : Rat) - ms| ≤ |offset|) ∧
    (s.player.playing = false → ∀ (w : Watch) (d : Desktop σ ε) (p : Program) (n : Nat),
      Sleeps s ((course d p n 0 (w.enter s)).flatMap p.pauses) (w.play d p n s)) := by
  refine ⟨?_, fun hidle w d p n => w.play_sleeps d p n hidle⟩
  intro ms hms hlongest z offset hz hoffset
  have hjittered := Random.jittered?_eq (Random.deviation?_eq hms hlongest hz hoffset)
  have hpositive := Random.one_le_of_jittered? hms hjittered
  have hdrawn : (s.player.duration? ms).1 = Random.jittered? ms z := by
    rw [Player.duration?, hrandom, decide_eq_true hms]
    rfl
  rw [hjittered] at hdrawn
  refine ⟨_, _, by rw [sleep_eq, hdrawn], ?_, hpositive, fun hdropped => if_pos hdropped, fun hkept => ?_, ?_, ?_, ?_⟩
  · rw [countSleep_eq]
    rfl
  · exact if_neg (not_le.mpr hkept)
  · intro hsign
    have hcut := truncate_nonneg (Random.offset_nonneg hms hsign)
    split_ifs <;> omega
  · intro hsign
    have hcut := truncate_nonpos (Random.offset_nonpos hms hsign)
    split_ifs <;> omega
  · split_ifs
    · rw [sub_self, abs_zero]
      exact abs_nonneg _
    · rw [Int.cast_add, add_sub_cancel_left]
      exact abs_truncate_le offset

theorem sleeps_last_of_short_sleeps :
    let z : Rat := -31 / 4
    let q : Player := .idle true false (.ofList [z, -8])
    let s : Stage DryRun (List DryRunLine) := .new q .fresh
    let p : Program := ⟨#[⟨.sleepMs, 32, by decide⟩, ⟨.sleepMs, 32, by decide⟩, ⟨.sleepMs, 0, by decide⟩], #[]⟩
    (∃ t, Act.sleep 32 s = .ok () t ∧ t.events = #[.sleep 1]) ∧
      Sleeps s [32, 32, 0] (play .given DryRun.desktop p 3 s) ∧
      (stageOf (play .given DryRun.desktop p 3 s)).lengths = [1, 32, 0] := by
  intro z q s p
  obtain ⟨hsleep, hplay⟩ := sleeps_last (s := s) rfl
  have hdraw : s.player.noise.draw.1 = z := rfl
  obtain ⟨hz, hoffset, hfinite, hcut, hcourse, hlengths⟩ :
      isFinite z = true ∧ nearest (nearest (z * Random.spread) * (32 : Int)) = -31 ∧ isFinite (-31) = true ∧
        truncate (-31) = -31 ∧ course DryRun.desktop p 3 0 (enter .given s) = p.instructions.toList ∧
        (stageOf (play .given DryRun.desktop p 3 s)).lengths = [1, 32, 0] := by
    decide +kernel
  refine ⟨?_, ?_, hlengths⟩
  · obtain ⟨lasting, t, hslept, hevents, -, -, hkept, -⟩ :=
      hsleep 32 (by decide) (by decide) (by rw [hdraw]; exact hz) (by rw [hdraw, hoffset]; exact hfinite)
    rw [hdraw, hoffset, hcut] at hkept
    obtain rfl := hkept (by norm_num)
    exact ⟨t, hslept, hevents⟩
  · have hall := hplay rfl .given DryRun.desktop p 3
    rw [hcourse] at hall
    exact hall

end Watch

end InputScript
