import InputScript.Proofs.Editing
import InputScript.Proofs.Token

namespace InputScript

theorem bind_eq_ok {ε α β : Type} {x : Except ε α} {f : α → Except ε β} {b : β} :
    (x >>= f) = .ok b ↔ ∃ a, x = .ok a ∧ f a = .ok b := by
  cases x with
  | error e => simp [bind, Except.bind]
  | ok a => simp [bind, Except.bind]

theorem Key.table :
    (∀ k ∈ Key.all, Key.ofName? k.name = some k ∧
      k.char?.all (fun c => Key.ofChar? c = some k ∧ ' ' ≤ c ∧ c ≤ '~') = true) ∧
    ∀ n < 127, 32 ≤ n → (Key.ofChar? (Char.ofNat n)).isSome := by
  decide +kernel

theorem Key.found_of_char {c : Char} {k : Key} (h : k.char? = some c) :
    Key.ofChar? c = some k ∧ ' ' ≤ c ∧ c ≤ '~' := by
  have hk := (Key.table.1 k k.mem_all).2
  rw [h, Option.all_some, decide_eq_true_eq] at hk
  exact hk

theorem Key.ofName?_eq_some {name : String} {k : Key} : Key.ofName? name = some k ↔ name = k.name := by
  constructor
  · intro h
    have hname := List.find?_some h
    simp only [beq_iff_eq] at hname
    exact hname.symm
  · rintro rfl
    exact (Key.table.1 k k.mem_all).1

theorem Button.ofName?_eq_some {name : String} {b : Button} :
    Button.ofName? name = some b ↔ name = b.name := by
  constructor
  · intro h
    have hname := List.find?_some h
    simp only [beq_iff_eq] at hname
    exact hname.symm
  · rintro rfl
    cases b <;> decide

theorem Key.ofChar?_eq_some {c : Char} {k : Key} : Key.ofChar? c = some k ↔ k.char? = some c := by
  constructor
  · intro h
    have hchar := List.find?_some h
    simpa only [beq_iff_eq] using hchar
  · intro h
    exact (Key.found_of_char h).1

theorem Key.char?_range {c : Char} {k : Key} (h : k.char? = some c) : ' ' ≤ c ∧ c ≤ '~' :=
  (Key.found_of_char h).2

theorem Key.exists_char? {c : Char} (hfirst : ' ' ≤ c) (hlast : c ≤ '~') : ∃ k : Key, k.char? = some c := by
  have hn : 32 ≤ c.toNat ∧ c.toNat < 127 := by
    rw [Char.le_def, UInt32.le_iff_toNat_le] at hfirst hlast
    exact ⟨hfirst, by have : c.toNat ≤ 126 := hlast; omega⟩
  have hsome := Key.table.2 c.toNat hn.2 hn.1
  rw [Char.ofNat_toNat, Option.isSome_iff_exists] at hsome
  obtain ⟨k, hk⟩ := hsome
  exact ⟨k, Key.ofChar?_eq_some.mp hk⟩

theorem whitespaceKey?_eq_none {c : Char} : whitespaceKey? c = none ↔ c ∉ spaces := by
  unfold whitespaceKey? spaces
  split <;> simp_all

theorem Key.typedBy_space_iff {c : Char} {k : Key} (hc : c ∈ spaces) :
    k.TypedBy c ↔ whitespaceKey? c = some k := by
  constructor
  · intro h
    cases h with
    | delete => exact absurd hc (by decide)
    | own hfirst _ _ =>
      simp only [spaces, List.mem_cons, List.not_mem_nil, or_false] at hc
      rcases hc with rfl | rfl | rfl | rfl <;> exact absurd hfirst (by decide)
    | _ => rfl
  · intro h
    unfold whitespaceKey? at h
    split at h <;> cases h
    · exact .tab
    · exact .lineFeed
    · exact .carriageReturn
    · exact .space

theorem exists_whitespaceKey? {c : Char} (hc : c ∈ spaces) : ∃ k, whitespaceKey? c = some k := by
  apply Option.ne_none_iff_exists'.mp
  exact fun h => whitespaceKey?_eq_none.mp h hc

theorem Key.typedBy_iff {c : Char} {k : Key} (hc : c ∉ spaces) : k.TypedBy c ↔ typedKey? c = some k := by
  unfold typedKey?
  constructor
  · intro h
    cases h with
    | delete => rfl
    | own hfirst hescape hchar =>
      have hlast := (Key.char?_range hchar).2
      have hdelete : c ≠ '\x7f' := by
        rintro rfl
        exact absurd hlast (by decide)
      have hspace : c ≠ ' ' := by
        rintro rfl
        exact absurd hfirst (by decide)
      rw [if_neg hdelete, if_neg (by simp [hescape, hspace]), Key.ofChar?_eq_some.mpr hchar]
    | _ => exact absurd (by decide) hc
  · intro h
    split_ifs at h with hdelete hcommand
    · cases h
      subst hdelete
      exact .delete
    · simp only [not_or] at hcommand
      have hchar := Key.ofChar?_eq_some.mp h
      have hfirst := (Key.char?_range hchar).1
      refine .own ?_ hcommand.1 hchar
      rw [Char.le_def, UInt32.le_iff_toNat_le] at hfirst ⊢
      have hne : c.toNat ≠ 32 := fun h32 => hcommand.2 (Char.toNat_inj.mp h32)
      have : 32 ≤ c.toNat := hfirst
      change 33 ≤ c.toNat
      omega

theorem typable_iff {c : Char} : Typable c ↔ ∃ k : Key, k.TypedBy c := by
  constructor
  · rintro (hspace | ⟨hfirst, hlast, hescape⟩ | rfl)
    · obtain ⟨k, hk⟩ := exists_whitespaceKey? hspace
      exact ⟨k, (Key.typedBy_space_iff hspace).mpr hk⟩
    · obtain ⟨k, hk⟩ := Key.exists_char? (Char.le_trans (by decide) hfirst) hlast
      exact ⟨k, .own hfirst hescape hk⟩
    · exact ⟨_, .delete⟩
  · rintro ⟨k, hk⟩
    cases hk with
    | delete => exact .inr (.inr rfl)
    | own hfirst hescape hchar => exact .inr (.inl ⟨hfirst, (Key.char?_range hchar).2, hescape⟩)
    | _ => exact .inl (by decide)

theorem ofChar_eq_ok {ignoreSpace : Bool} {c : Char} {phrase : Phrase} :
    Phrase.ofChar ignoreSpace c = .ok phrase ↔ (Token.char c).Means ignoreSpace phrase := by
  unfold Phrase.ofChar
  by_cases hc : c ∈ spaces
  · obtain ⟨k, hk⟩ := exists_whitespaceKey? hc
    rw [hk]
    constructor
    · intro h
      cases h
      cases ignoreSpace with
      | true => exact .ignored rfl hc
      | false => exact .typed (fun h => (nomatch h)) ((Key.typedBy_space_iff hc).mpr hk)
    · intro h
      cases h with
      | ignored hignore _ => simp only [hignore, if_true]
      | @typed _ k' hplain hk' =>
        have hkeep : ignoreSpace ≠ true := fun h => hplain h hc
        obtain rfl : k = k' := Option.some.inj (hk.symm.trans ((Key.typedBy_space_iff hc).mp hk'))
        simp only [hkeep, Bool.false_eq_true, if_false]
        rfl
  · rw [whitespaceKey?_eq_none.mpr hc]
    constructor
    · intro h
      cases hk : typedKey? c with
      | none => simp [hk] at h
      | some k =>
        rw [hk] at h
        cases h
        exact .typed (fun _ => hc) ((Key.typedBy_iff hc).mpr hk)
    · intro h
      cases h with
      | ignored _ hspace => exact absurd hspace hc
      | typed _ hk =>
        rw [(Key.typedBy_iff hc).mp hk]
        rfl

theorem readNumber_eq_ok {role : IntegerRole} {a : String} {n : Int} :
    readNumber role a = .ok n ↔ Number.readInteger? a = some n := by
  unfold readNumber
  cases Number.readInteger? a <;> simp

theorem readKey_eq_ok {name : String} {k : Key} : readKey name = .ok k ↔ name = k.name := by
  rw [← Key.ofName?_eq_some]
  unfold readKey
  cases Key.ofName? name <;> simp

theorem readButton_eq_ok {name : String} {b : Button} : readButton name = .ok b ↔ name = b.name := by
  rw [← Button.ofName?_eq_some]
  unfold readButton
  cases Button.ofName? name <;> simp

theorem readStroke_eq_ok {a : String} {stroke : Stroke} :
    readStroke a = .ok stroke ↔ stroke = .release ∧ a = "^" ∨ stroke = .press ∧ (a = "v" ∨ a = "V") := by
  unfold readStroke
  constructor
  · intro h
    split_ifs at h with hup hdown
    · exact .inl ⟨(Except.ok.inj h).symm, hup⟩
    · exact .inr ⟨(Except.ok.inj h).symm, hdown⟩
  · rintro (⟨rfl, rfl⟩ | ⟨rfl, rfl | rfl⟩) <;> decide

namespace Instruction

open Number Number.Binary64

variable {n : Nat} {seconds : Rat} {is : List Instruction}

theorem sleepRest_eq (hpos : 1 ≤ n) (hle : n ≤ longestPiece) (h : n ≤ maxOperand) :
    sleepRest n = ⟨.sleepSec, n, h⟩ := by
  have hoperand := (sleepWhole_of_le_longestPiece (Nat.ne_of_gt hpos) hle).2
  simp only [sleepRest, mk.injEq, true_and] at hoperand ⊢
  exact hoperand

theorem seconds_sleepWhole (n : Nat) : Seconds n (sleepWhole n) := by
  by_cases hzero : n = 0
  · subst hzero
    exact .none
  by_cases hlong : longestPiece < n
  · rw [sleepWhole_of_longestPiece_lt hlong]
    have hrest := seconds_sleepWhole (n - longestPiece)
    have hpiece := Seconds.piece (by omega) hrest
    rwa [show 4096 + (n - longestPiece) = n from Nat.add_sub_of_le (Nat.le_of_lt hlong)] at hpiece
  · have hle := Nat.not_lt.mp hlong
    have hmax : n ≤ maxOperand := Nat.le_trans hle (by decide)
    rw [(sleepWhole_of_le_longestPiece hzero hle).1, sleepRest_eq (Nat.pos_of_ne_zero hzero) hle hmax]
    exact .last hmax (Nat.pos_of_ne_zero hzero) hle
termination_by n
decreasing_by
  unfold longestPiece
  omega

theorem Seconds.eq_sleepWhole (h : Seconds n is) : is = sleepWhole n := by
  induction h with
  | none => rfl
  | last h hpos hle => rw [(sleepWhole_of_le_longestPiece (Nat.ne_of_gt hpos) hle).1, sleepRest_eq hpos hle h]
  | @piece n is hpos _ ih =>
    have hlong : longestPiece < 4096 + n := Nat.lt_add_of_pos_right hpos
    rw [sleepWhole_of_longestPiece_lt hlong, ih, show 4096 + n - longestPiece = n from Nat.add_sub_cancel_left _ _]
    rfl

theorem sleepFraction_eq {ms : Nat} (h : ms ≤ maxOperand) (hfloor : seconds.floor = n)
    (hms : (ms : Int) = roundHalfEven (nearest ((seconds - n) * 1000))) :
    sleepFraction seconds = ⟨.sleepMs, ms, h⟩ := by
  have hfraction : fractionPart seconds = seconds - n := by
    rw [fractionPart, hfloor]
    rfl
  simp only [sleepFraction, milliseconds, hfraction, ← hms, Int.toNat_natCast]

theorem Sleeps.eq_sleep (h : Sleeps seconds is) : is = sleep seconds := by
  have hlong (h : nearest (1 / 1000) ≤ seconds) : ¬ seconds < shortestSleep := not_lt.mpr h
  cases h with
  | short hshort => exact (if_pos hshort).symm
  | @whole n _ hle hn hseconds =>
    have hfloor : seconds.floor = n := by
      rw [hn]
      exact Int.floor_natCast (R := Rat) n
    have hnone : fractionPart seconds = 0 := by
      rw [fractionPart, hfloor, hn]
      exact sub_self _
    rw [sleep, if_neg (hlong hle), if_pos hnone, hfloor, Int.toNat_natCast, List.append_nil, hseconds.eq_sleepWhole]
  | @parted n ms is h hle hlow hhigh hseconds hms =>
    have hfloor : ⌊seconds⌋ = n := Int.floor_eq_iff.mpr ⟨hlow.le, hhigh⟩
    change seconds.floor = n at hfloor
    have hsome : fractionPart seconds ≠ 0 := by
      rw [fractionPart, hfloor]
      exact sub_ne_zero.mpr (Rat.ne_of_gt hlow)
    rw [sleep, if_neg (hlong hle), if_neg hsome, hfloor, Int.toNat_natCast, hseconds.eq_sleepWhole,
      sleepFraction_eq h hfloor hms]

theorem sleeps_sleep (seconds : Rat) : Sleeps seconds (sleep seconds) := by
  by_cases hshort : seconds < shortestSleep
  · rw [sleep, if_pos hshort]
    exact .short hshort
  have hle : nearest (1 / 1000) ≤ seconds := not_lt.mp hshort
  obtain ⟨n, hn⟩ := Int.eq_ofNat_of_zero_le (floor_nonneg hle)
  have hlow := Int.floor_le seconds
  have hhigh := Int.lt_floor_add_one seconds
  rw [hn, Int.cast_natCast] at hlow hhigh
  by_cases hwhole : seconds = n
  · have h := Sleeps.whole hle hwhole (seconds_sleepWhole n)
    rwa [h.eq_sleep] at h
  · have hround : 0 ≤ roundHalfEven (nearest ((seconds - n) * 1000)) :=
      roundHalfEven_nonneg (nearest_nonneg (mul_nonneg (sub_nonneg.mpr hlow) (by norm_num)))
    have hms : (milliseconds (fractionPart seconds) : Int) = roundHalfEven (nearest ((seconds - n) * 1000)) := by
      rw [milliseconds, fractionPart, show seconds.floor = n from hn, Int.cast_natCast, Int.toNat_of_nonneg hround]
    have h := Sleeps.parted (sleepFraction seconds).operand_le hle (lt_of_le_of_ne hlow (Ne.symm hwhole)) hhigh
      (seconds_sleepWhole n) hms
    rwa [h.eq_sleep] at h

end Instruction

theorem sleep_eq_ok {a : String} {phrase : Phrase} : Phrase.sleep a = .ok phrase ↔
    ∃ seconds, Number.readBinary64? a = some seconds ∧ phrase = .emit (Instruction.sleep seconds) := by
  unfold Phrase.sleep
  cases Number.readBinary64? a <;> simp [eq_comm]

theorem pointerMove_eq_ok {a b : String} {phrase : Phrase} : Phrase.pointerMove a b = .ok phrase ↔
    ∃ x y, Number.readInteger? a = some x ∧ Number.readInteger? b = some y ∧
      phrase = .move (Point.clamp ⟨x, y⟩) := by
  simp only [Phrase.pointerMove, bind_eq_ok, readNumber_eq_ok, pure, Except.pure, Except.ok.injEq]
  constructor
  · rintro ⟨x, hx, y, hy, rfl⟩
    exact ⟨x, y, hx, hy, rfl⟩
  · rintro ⟨x, y, hx, hy, rfl⟩
    exact ⟨x, hx, y, hy, rfl⟩

theorem loop_eq_ok {n : Int} {phrase : Phrase} :
    Phrase.loop n = .ok phrase ↔ ∃ hn : n ≤ 8191, phrase = .single (.loopBegin n hn) := by
  unfold Phrase.loop
  split_ifs with hn
  · simp [hn, eq_comm]
  · simp [hn]

namespace Command

variable {c : Char} {args : List String} {phrase : Phrase} {command : Command}

theorem Says.read (h : Says c args phrase) :
    ∃ command, ofChar? c = some command ∧ Phrase.ofCommand command args = .ok phrase := by
  cases h with
  | backslash => exact ⟨.backslash, rfl, rfl⟩
  | enter hc => exact ⟨.enter, ofChar?_of_mem (by simpa [chars] using hc), rfl⟩
  | tab => exact ⟨.tab, rfl, rfl⟩
  | space => exact ⟨.space, rfl, rfl⟩
  | second => exact ⟨.sleep, rfl, rfl⟩
  | sleep ha his => exact ⟨.sleep, rfl, sleep_eq_ok.mpr ⟨_, ha, by rw [his.eq_sleep]⟩⟩
  | leftClick => exact ⟨.leftClick, rfl, rfl⟩
  | middleClick => exact ⟨.middleClick, rfl, rfl⟩
  | scrollUp => exact ⟨.middleClick, rfl, by decide⟩
  | scrollDown ha =>
    refine ⟨.middleClick, rfl, ?_⟩
    rcases ha with rfl | rfl <;> decide
  | rightClick => exact ⟨.rightClick, rfl, rfl⟩
  | movePointer ha hb =>
    exact ⟨.movePointer, rfl, pointerMove_eq_ok.mpr ⟨_, _, ha, hb, rfl⟩⟩
  | queryPointer => exact ⟨.queryPointer, rfl, rfl⟩
  | queryPointerOver => exact ⟨.queryPointer, rfl, by decide⟩
  | beginEndlessLoop => exact ⟨.beginLoop, rfl, loop_eq_ok.mpr ⟨by decide, rfl⟩⟩
  | beginLoop hn ha =>
    refine ⟨.beginLoop, rfl, ?_⟩
    exact bind_eq_ok.mpr ⟨_, readNumber_eq_ok.mpr ha, loop_eq_ok.mpr ⟨hn, rfl⟩⟩
  | endLoop => exact ⟨.endLoop, rfl, rfl⟩
  | clickKey =>
    exact ⟨.sendKey, rfl, bind_eq_ok.mpr ⟨_, readKey_eq_ok.mpr rfl, rfl⟩⟩
  | pressKey ha =>
    refine ⟨.sendKey, rfl, bind_eq_ok.mpr ⟨_, readKey_eq_ok.mpr rfl, ?_⟩⟩
    exact bind_eq_ok.mpr ⟨.press, readStroke_eq_ok.mpr (.inr ⟨rfl, ha⟩), rfl⟩
  | releaseKey =>
    refine ⟨.sendKey, rfl, bind_eq_ok.mpr ⟨_, readKey_eq_ok.mpr rfl, ?_⟩⟩
    exact bind_eq_ok.mpr ⟨.release, readStroke_eq_ok.mpr (.inl ⟨rfl, rfl⟩), rfl⟩
  | clickButton =>
    exact ⟨.sendButton, rfl, bind_eq_ok.mpr ⟨_, readButton_eq_ok.mpr rfl, rfl⟩⟩
  | pressButton ha =>
    refine ⟨.sendButton, rfl, bind_eq_ok.mpr ⟨_, readButton_eq_ok.mpr rfl, ?_⟩⟩
    exact bind_eq_ok.mpr ⟨.press, readStroke_eq_ok.mpr (.inr ⟨rfl, ha⟩), rfl⟩
  | releaseButton =>
    refine ⟨.sendButton, rfl, bind_eq_ok.mpr ⟨_, readButton_eq_ok.mpr rfl, ?_⟩⟩
    exact bind_eq_ok.mpr ⟨.release, readStroke_eq_ok.mpr (.inl ⟨rfl, rfl⟩), rfl⟩

theorem says_of_none (hc : c ∈ command.chars) (h : Phrase.ofCommand command [] = .ok phrase) :
    Says c [] phrase := by
  cases command <;> simp only [chars, List.mem_cons, List.not_mem_nil, or_false] at hc <;> cases h
  case enter => exact .enter hc
  all_goals subst hc
  case backslash => exact .backslash
  case tab => exact .tab
  case space => exact .space
  case sleep => exact .second
  case leftClick => exact .leftClick
  case middleClick => exact .middleClick
  case rightClick => exact .rightClick
  case queryPointer => exact .queryPointer
  case beginLoop => exact .beginEndlessLoop
  case endLoop => exact .endLoop

theorem says_of_one {a : String} (hc : c ∈ command.chars)
    (h : Phrase.ofCommand command [a] = .ok phrase) : Says c [a] phrase := by
  cases command <;> simp only [chars, List.mem_cons, List.not_mem_nil, or_false] at hc
  case backslash | enter | tab | space | leftClick | rightClick | movePointer | endLoop => cases h
  all_goals subst hc
  case sleep =>
    obtain ⟨seconds, ha, rfl⟩ := sleep_eq_ok.mp h
    exact .sleep ha (Instruction.sleeps_sleep seconds)
  case middleClick =>
    simp only [Phrase.ofCommand] at h
    split_ifs at h with hup hdown
    · cases h
      subst hup
      exact .scrollUp
    · cases h
      exact .scrollDown hdown
  case queryPointer =>
    simp only [Phrase.ofCommand] at h
    split_ifs at h with hmark
    cases h
    subst hmark
    exact .queryPointerOver
  case beginLoop =>
    obtain ⟨n, ha, hloop⟩ := bind_eq_ok.mp h
    obtain ⟨hn, rfl⟩ := loop_eq_ok.mp hloop
    exact .beginLoop hn (readNumber_eq_ok.mp ha)
  case sendKey =>
    obtain ⟨k, hk, hphrase⟩ := bind_eq_ok.mp h
    obtain rfl := readKey_eq_ok.mp hk
    cases hphrase
    exact .clickKey
  case sendButton =>
    obtain ⟨b, hb, hphrase⟩ := bind_eq_ok.mp h
    obtain rfl := readButton_eq_ok.mp hb
    cases hphrase
    exact .clickButton

theorem says_of_two {a b : String} (hc : c ∈ command.chars)
    (h : Phrase.ofCommand command [a, b] = .ok phrase) : Says c [a, b] phrase := by
  cases command <;> simp only [chars, List.mem_cons, List.not_mem_nil, or_false] at hc
  case movePointer =>
    subst hc
    obtain ⟨x, y, ha, hb, rfl⟩ := pointerMove_eq_ok.mp h
    exact .movePointer ha hb
  case sendKey =>
    subst hc
    obtain ⟨k, hk, hrest⟩ := bind_eq_ok.mp h
    obtain ⟨stroke, hb, hphrase⟩ := bind_eq_ok.mp hrest
    obtain rfl := readKey_eq_ok.mp hk
    cases hphrase
    rcases readStroke_eq_ok.mp hb with ⟨rfl, rfl⟩ | ⟨rfl, hdown⟩
    · exact .releaseKey
    · exact .pressKey hdown
  case sendButton =>
    subst hc
    obtain ⟨k, hk, hrest⟩ := bind_eq_ok.mp h
    obtain ⟨stroke, hb, hphrase⟩ := bind_eq_ok.mp hrest
    obtain rfl := readButton_eq_ok.mp hk
    cases hphrase
    rcases readStroke_eq_ok.mp hb with ⟨rfl, rfl⟩ | ⟨rfl, hdown⟩
    · exact .releaseButton
    · exact .pressButton hdown
  all_goals cases h

theorem says_of_ofCommand (hc : c ∈ command.chars) (h : Phrase.ofCommand command args = .ok phrase) :
    Says c args phrase := by
  match args, h with
  | [], h => exact says_of_none hc h
  | [_], h => exact says_of_one hc h
  | [_, _], h => exact says_of_two hc h
  | _ :: _ :: _ :: _, h => cases command <;> cases h

theorem says_iff : Says c args phrase ↔
    ∃ command, ofChar? c = some command ∧ Phrase.ofCommand command args = .ok phrase := by
  constructor
  · exact Says.read
  · rintro ⟨command, hc, h⟩
    exact says_of_ofCommand (ofChar?_eq_some.mp hc) h

end Command

theorem Token.valid_iff {t : Token} (ignoreSpace : Bool) : t.Valid ↔ ∃ phrase, t.Means ignoreSpace phrase := by
  cases t with
  | char c =>
    constructor
    · intro h
      by_cases hignored : ignoreSpace = true ∧ c ∈ spaces
      · exact ⟨_, .ignored hignored.1 hignored.2⟩
      · obtain ⟨k, hk⟩ := typable_iff.mp h
        exact ⟨_, .typed (fun hon hc => hignored ⟨hon, hc⟩) hk⟩
    · rintro ⟨phrase, h⟩
      cases h with
      | ignored _ hc => exact .inl hc
      | typed _ hk => exact typable_iff.mpr ⟨_, hk⟩
  | short c =>
    constructor
    · rintro ⟨phrase, h⟩
      exact ⟨phrase, .short h⟩
    · rintro ⟨phrase, h⟩
      cases h with
      | short h => exact ⟨phrase, h⟩
  | bracketed c body =>
    constructor
    · rintro ⟨phrase, h⟩
      exact ⟨phrase, .bracketed h⟩
    · rintro ⟨phrase, h⟩
      cases h with
      | bracketed h => exact ⟨phrase, h⟩

end InputScript
