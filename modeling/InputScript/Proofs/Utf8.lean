import InputScript.Text.Utf8
import Mathlib.Data.List.Basic

namespace InputScript.Text

open String (utf8EncodeChar)

variable {n v : Nat} {c : Char} {cs : List Char} {b : UInt8} {bs bytes : List UInt8}

theorem eq_ofNat_iff (h : v.isValidChar) : c = Char.ofNat v ↔ c.toNat = v := by
  constructor
  · rintro rfl
    rw [Char.ofNat, dif_pos h]
    rfl
  · intro hc
    rw [← hc, Char.ofNat_toNat]

theorem toNat_valid (c : Char) : c.toNat < 0xd800 ∨ 0xdfff < c.toNat ∧ c.toNat < 0x110000 := c.valid

theorem byte_eq_iff (h : v < 256) : UInt8.ofNat v = b ↔ v = b.toNat := by
  rw [← UInt8.toNat_inj, UInt8.toNat_ofNat', Nat.mod_eq_of_lt h]

def Continues (b : UInt8) : Prop :=
  0x80 ≤ b.toNat ∧ b.toNat < 0xc0

inductive Utf8Form (b : UInt8) : List UInt8 → Nat → Prop
  | one {v : Nat} : b.toNat < 0x80 → v = b.toNat → Utf8Form b [] v
  | two {x : UInt8} {v : Nat} : 0xc2 ≤ b.toNat → b.toNat < 0xe0 → Continues x →
      v = (b.toNat - 0xc0) * 64 + x.toNat % 64 → Utf8Form b [x] v
  | three {x y : UInt8} {v : Nat} : 0xe0 ≤ b.toNat → b.toNat < 0xf0 → Continues x → Continues y → 0x800 ≤ v →
      v = ((b.toNat - 0xe0) * 64 + x.toNat % 64) * 64 + y.toNat % 64 → Utf8Form b [x, y] v
  | four {x y z : UInt8} {v : Nat} : 0xf0 ≤ b.toNat → Continues x → Continues y → Continues z → 0x10000 ≤ v →
      v = (((b.toNat - 0xf0) * 64 + x.toNat % 64) * 64 + y.toNat % 64) * 64 + z.toNat % 64 → Utf8Form b [x, y, z] v

theorem encode_eq (c : Char) : utf8EncodeChar c =
    if c.toNat ≤ 0x7f then [UInt8.ofNat c.toNat]
    else if c.toNat ≤ 0x7ff then [UInt8.ofNat (c.toNat / 64 % 32 + 0xc0), UInt8.ofNat (c.toNat % 64 + 0x80)]
    else if c.toNat ≤ 0xffff then
      [UInt8.ofNat (c.toNat / 4096 % 16 + 0xe0), UInt8.ofNat (c.toNat / 64 % 64 + 0x80),
        UInt8.ofNat (c.toNat % 64 + 0x80)]
    else
      [UInt8.ofNat (c.toNat / 262144 % 8 + 0xf0), UInt8.ofNat (c.toNat / 4096 % 64 + 0x80),
        UInt8.ofNat (c.toNat / 64 % 64 + 0x80), UInt8.ofNat (c.toNat % 64 + 0x80)] := rfl

theorem encode_of_form (h : Utf8Form b bs v) (hc : c.toNat = v) : utf8EncodeChar c = b :: bs := by
  have hvalid := toNat_valid c
  rw [encode_eq]
  cases h with
  | one hb hv =>
    rw [if_pos (by omega), hc, hv, UInt8.ofNat_toNat]
  | two hb hb' hx hv =>
    unfold Continues at hx
    rw [if_neg (by omega), if_pos (by omega)]
    simp only [List.cons.injEq, and_true]
    rw [byte_eq_iff (by omega), byte_eq_iff (by omega)]
    omega
  | three hb hb' hx hy hlow hv =>
    unfold Continues at hx hy
    rw [if_neg (by omega), if_neg (by omega), if_pos (by omega)]
    simp only [List.cons.injEq, and_true]
    rw [byte_eq_iff (by omega), byte_eq_iff (by omega), byte_eq_iff (by omega)]
    omega
  | four hb hx hy hz hlow hv =>
    unfold Continues at hx hy hz
    rw [if_neg (by omega), if_neg (by omega), if_neg (by omega)]
    simp only [List.cons.injEq, and_true]
    rw [byte_eq_iff (by omega), byte_eq_iff (by omega), byte_eq_iff (by omega), byte_eq_iff (by omega)]
    omega

theorem continues_ofNat (v : Nat) : Continues (UInt8.ofNat (v % 64 + 0x80)) := by
  rw [Continues, UInt8.toNat_ofNat']
  omega

theorem form_of_encode (h : utf8EncodeChar c = b :: bs) : Utf8Form b bs c.toNat := by
  have hvalid := toNat_valid c
  rw [encode_eq] at h
  split_ifs at h
  all_goals
    rw [List.cons.injEq, byte_eq_iff (by omega)] at h
    obtain ⟨hb, rfl⟩ := h
  · exact .one (by omega) hb
  · refine .two (by omega) (by omega) (continues_ofNat _) ?_
    rw [UInt8.toNat_ofNat']
    omega
  · refine .three (by omega) (by omega) (continues_ofNat _) (continues_ofNat _) (by omega) ?_
    rw [UInt8.toNat_ofNat', UInt8.toNat_ofNat']
    omega
  · refine .four (by omega) (continues_ofNat _) (continues_ofNat _) (continues_ofNat _) (by omega) ?_
    rw [UInt8.toNat_ofNat', UInt8.toNat_ofNat', UInt8.toNat_ofNat']
    omega

namespace Utf8Pending

inductive Completes : Utf8Pending → List UInt8 → Char → Prop
  | last {p : Utf8Pending} {b : UInt8} {c : Char} : p.take b.toNat = .ok (.inr c) → Completes p [b] c
  | more {p q : Utf8Pending} {b : UInt8} {bs : List UInt8} {c : Char} : p.take b.toNat = .ok (.inl q) →
      Completes q bs c → Completes p (b :: bs) c

variable {first start taken low high value k : Nat}

theorem completes_last : Completes ⟨first, start, taken, 1, low, high, value⟩ bs c ↔
    ∃ x : UInt8, bs = [x] ∧ (low ≤ x.toNat ∧ x.toNat ≤ high) ∧ c = Char.ofNat (value * 64 + x.toNat % 64) := by
  constructor
  · intro h
    cases h with
    | @last _ x _ htake =>
      simp only [take, Nat.le_refl, if_true] at htake
      split_ifs at htake with hx
      obtain rfl := Sum.inr.inj (Except.ok.inj htake)
      exact ⟨x, rfl, hx, rfl⟩
    | more htake _ =>
      simp only [take, Nat.le_refl, if_true] at htake
      split_ifs at htake
      cases htake
  · rintro ⟨x, rfl, hx, rfl⟩
    exact .last (by simp only [take, Nat.le_refl, if_true, if_pos hx])

theorem completes_more : Completes ⟨first, start, taken, k + 2, low, high, value⟩ bs c ↔
    ∃ (x : UInt8) (more : List UInt8), bs = x :: more ∧ (low ≤ x.toNat ∧ x.toNat ≤ high) ∧
      Completes ⟨first, start, taken + 1, k + 1, 0x80, 0xbf, value * 64 + x.toNat % 64⟩ more c := by
  have hmore : ¬ k + 2 ≤ 1 := by omega
  constructor
  · intro h
    cases h with
    | last htake =>
      simp only [take, if_neg hmore] at htake
      split_ifs at htake
      cases htake
    | @more _ q x more _ htake hrest =>
      simp only [take, if_neg hmore] at htake
      split_ifs at htake with hx
      obtain rfl := Sum.inl.inj (Except.ok.inj htake)
      exact ⟨x, more, rfl, hx, hrest⟩
  · rintro ⟨x, more, rfl, hx, hrest⟩
    refine .more ?_ hrest
    simp only [take, if_neg hmore, if_pos hx]
    rfl

end Utf8Pending

theorem lead_two {b : Nat} (h : 0xc2 ≤ b) (h' : b < 0xe0) :
    utf8Lead? n b = some ⟨b, n, 1, 1, 0x80, 0xbf, b - 0xc0⟩ := by
  simp only [utf8Lead?, if_neg (Nat.not_lt.mpr h), if_pos h']

theorem lead_three {b : Nat} (h : 0xe0 ≤ b) (h' : b < 0xf0) :
    ∃ low high, utf8Lead? n b = some ⟨b, n, 1, 2, low, high, b - 0xe0⟩ ∧
      ∀ x, low ≤ x ∧ x ≤ high ↔ (0x80 ≤ x ∧ x < 0xc0) ∧ 0x20 ≤ (b - 0xe0) * 64 + x % 64 ∧
        ¬ (0x360 ≤ (b - 0xe0) * 64 + x % 64 ∧ (b - 0xe0) * 64 + x % 64 < 0x380) := by
  simp only [utf8Lead?, if_neg (by omega : ¬ b < 0xc2), if_neg (Nat.not_lt.mpr h), if_pos h']
  split_ifs with hfirst hsurrogate
  · exact ⟨_, _, by rw [hfirst], by omega⟩
  · exact ⟨_, _, by rw [hsurrogate], by omega⟩
  · exact ⟨_, _, rfl, by omega⟩

theorem lead_four {b : Nat} (h : 0xf0 ≤ b) (h' : b < 0xf5) :
    ∃ low high, utf8Lead? n b = some ⟨b, n, 1, 3, low, high, b - 0xf0⟩ ∧
      ∀ x, low ≤ x ∧ x ≤ high ↔ (0x80 ≤ x ∧ x < 0xc0) ∧ 0x10 ≤ (b - 0xf0) * 64 + x % 64 ∧
        (b - 0xf0) * 64 + x % 64 < 0x110 := by
  simp only [utf8Lead?, if_neg (by omega : ¬ b < 0xc2), if_neg (by omega : ¬ b < 0xe0),
    if_neg (by omega : ¬ b = 0xe0), if_neg (by omega : ¬ b = 0xed), if_neg (Nat.not_lt.mpr h)]
  split_ifs with hfirst hmiddle hlast
  · exact ⟨_, _, by rw [hfirst], by omega⟩
  · exact ⟨_, _, rfl, by omega⟩
  · exact ⟨_, _, by rw [hlast], by omega⟩
  · omega

theorem lead_none {b : Nat} (h : b < 0xc2 ∨ 0xf5 ≤ b) : utf8Lead? n b = none := by
  unfold utf8Lead?
  rcases h with h | h
  · rw [if_pos h]
  · simp only []
    split_ifs
    any_goals omega
    rfl

open Utf8Pending

theorem form_two_iff (n : Nat) (h : 0xc2 ≤ b.toNat) (h' : b.toNat < 0xe0) :
    Utf8Form b bs c.toNat ↔ ∃ p, utf8Lead? n b.toNat = some p ∧ p.Completes bs c := by
  simp only [lead_two h h', Option.some.injEq, exists_eq_left']
  rw [completes_last]
  constructor
  · intro hform
    cases hform with
    | one | three | four => omega
    | @two x _ _ _ hx hv =>
      rw [Continues] at hx
      exact ⟨x, rfl, by omega, (eq_ofNat_iff (hv ▸ c.valid)).mpr hv⟩
  · rintro ⟨x, rfl, hx, rfl⟩
    have hvalid : ((b.toNat - 0xc0) * 64 + x.toNat % 64).isValidChar := .inl (by omega)
    exact .two h h' (by unfold Continues; omega) ((eq_ofNat_iff hvalid).mp rfl)

theorem form_three_iff (n : Nat) (h : 0xe0 ≤ b.toNat) (h' : b.toNat < 0xf0) :
    Utf8Form b bs c.toNat ↔ ∃ p, utf8Lead? n b.toNat = some p ∧ p.Completes bs c := by
  obtain ⟨low, high, hlead, hsecond⟩ := lead_three (n := n) h h'
  simp only [hlead, Option.some.injEq, exists_eq_left']
  rw [completes_more]
  simp only [hsecond]
  constructor
  · intro hform
    have hvalid := toNat_valid c
    cases hform with
    | one | two | four => omega
    | @three x y _ _ _ hx hy hlow hv =>
      rw [Continues] at hx hy
      refine ⟨x, [y], rfl, by omega, completes_last.mpr ⟨y, rfl, by omega, ?_⟩⟩
      exact (eq_ofNat_iff (hv ▸ c.valid)).mpr hv
  · rintro ⟨x, _, rfl, hx, hmore⟩
    obtain ⟨y, rfl, hy, rfl⟩ := completes_last.mp hmore
    have hvalid : (((b.toNat - 0xe0) * 64 + x.toNat % 64) * 64 + y.toNat % 64).isValidChar := by
      unfold Nat.isValidChar
      omega
    have hv := (eq_ofNat_iff hvalid).mp rfl
    exact .three h h' hx.1 (by unfold Continues; omega) (by rw [hv]; omega) hv

theorem form_four_iff (n : Nat) (h : 0xf0 ≤ b.toNat) (h' : b.toNat < 0xf5) :
    Utf8Form b bs c.toNat ↔ ∃ p, utf8Lead? n b.toNat = some p ∧ p.Completes bs c := by
  obtain ⟨low, high, hlead, hsecond⟩ := lead_four (n := n) h h'
  simp only [hlead, Option.some.injEq, exists_eq_left']
  rw [completes_more]
  simp only [hsecond]
  constructor
  · intro hform
    have hvalid := toNat_valid c
    cases hform with
    | one | two | three => omega
    | @four x y z _ _ hx hy hz hlow hv =>
      rw [Continues] at hx hy hz
      refine ⟨x, [y, z], rfl, by omega, completes_more.mpr ⟨y, [z], rfl, by omega, ?_⟩⟩
      refine completes_last.mpr ⟨z, rfl, by omega, ?_⟩
      exact (eq_ofNat_iff (hv ▸ c.valid)).mpr hv
  · rintro ⟨x, _, rfl, hx, hmore⟩
    obtain ⟨y, _, rfl, hy, hmore⟩ := completes_more.mp hmore
    obtain ⟨z, rfl, hz, rfl⟩ := completes_last.mp hmore
    have hvalid :
        ((((b.toNat - 0xf0) * 64 + x.toNat % 64) * 64 + y.toNat % 64) * 64 + z.toNat % 64).isValidChar := by
      unfold Nat.isValidChar
      omega
    have hv := (eq_ofNat_iff hvalid).mp rfl
    exact .four h hx.1 (by unfold Continues; omega) (by unfold Continues; omega) (by rw [hv]; omega) hv

theorem encode_iff_completes (n : Nat) (h : 0x80 ≤ b.toNat) :
    utf8EncodeChar c = b :: bs ↔ ∃ p, utf8Lead? n b.toNat = some p ∧ p.Completes bs c := by
  have hform : utf8EncodeChar c = b :: bs ↔ Utf8Form b bs c.toNat := ⟨form_of_encode, fun h => encode_of_form h rfl⟩
  rw [hform]
  by_cases hnone : b.toNat < 0xc2 ∨ 0xf5 ≤ b.toNat
  · rw [lead_none hnone]
    refine ⟨fun hform => ?_, nofun⟩
    have hvalid := toNat_valid c
    cases hform <;> omega
  by_cases htwo : b.toNat < 0xe0
  · exact form_two_iff n (by omega) htwo
  by_cases hthree : b.toNat < 0xf0
  · exact form_three_iff n (by omega) hthree
  · exact form_four_iff n (by omega) (by omega)

theorem encode_iff_of_lt (h : b.toNat < 0x80) : utf8EncodeChar c = b :: bs ↔ bs = [] ∧ c = Char.ofNat b.toNat := by
  rw [eq_ofNat_iff (.inl (by omega))]
  constructor
  · intro hencode
    cases form_of_encode hencode with
    | one _ hv => exact ⟨rfl, hv⟩
    | two | three | four => omega
  · rintro ⟨rfl, hv⟩
    exact encode_of_form (.one h rfl) hv

namespace Utf8Decoder

def read (d : Utf8Decoder) (bytes : List UInt8) : Except Utf8Fault (List Char) := do
  (← bytes.foldlM step d).finish

theorem read_cons {d d' : Utf8Decoder} (h : d.step b = .ok d') (bytes : List UInt8) :
    d.read (b :: bytes) = d'.read bytes := by
  rw [read, List.foldlM_cons, h]
  rfl

theorem read_cons_error {d : Utf8Decoder} {fault : Utf8Fault} (h : d.step b = .error fault) (bytes : List UInt8) :
    d.read (b :: bytes) = .error fault := by
  rw [read, List.foldlM_cons, h]
  rfl

theorem step_pending (n : Nat) (chars : List Char) (p : Utf8Pending) (b : UInt8) :
    step ⟨n, chars, some p⟩ b = (p.take b.toNat).map
      (Sum.elim (fun q => ⟨n + 1, chars, some q⟩) fun c => ⟨n + 1, c :: chars, none⟩) := by
  simp only [step, bind, Except.bind]
  cases p.take b.toNat with
  | error fault => rfl
  | ok result => cases result <;> rfl

theorem read_pending (n : Nat) (chars : List Char) (p : Utf8Pending) (bytes : List UInt8) :
    read ⟨n, chars, some p⟩ bytes = .ok cs ↔
      ∃ bs c rest, bytes = bs ++ rest ∧ p.Completes bs c ∧ read ⟨n + bs.length, c :: chars, none⟩ rest = .ok cs := by
  constructor
  -- One way goes along the bytes that are left, the other along those that the character lacks.
  · intro h
    induction bytes generalizing n p with
    | nil => cases h
    | cons b bytes ih =>
      have hstep := step_pending n chars p b
      cases htake : p.take b.toNat with
      | error fault =>
        rw [htake] at hstep
        rw [read_cons_error hstep] at h
        cases h
      | ok result =>
        rw [htake] at hstep
        rw [read_cons hstep] at h
        cases result with
        | inl q =>
          obtain ⟨bs, c, rest, rfl, hcompletes, hrest⟩ := ih _ _ h
          rw [Nat.add_assoc, Nat.add_comm 1] at hrest
          exact ⟨b :: bs, c, rest, rfl, .more htake hcompletes, hrest⟩
        | inr c => exact ⟨[b], c, bytes, rfl, .last htake, h⟩
  · rintro ⟨bs, c, rest, rfl, hcompletes, hrest⟩
    induction hcompletes generalizing n with
    | @last p b c htake =>
      have hstep := step_pending n chars p b
      rw [htake] at hstep
      rw [List.singleton_append, read_cons hstep]
      exact hrest
    | @more p q b bs c htake _ ih =>
      have hstep := step_pending n chars p b
      rw [htake] at hstep
      rw [List.cons_append, read_cons hstep]
      apply ih
      rwa [Nat.add_assoc, Nat.add_comm 1]

theorem read_first (n : Nat) (chars : List Char) (b : UInt8) (bytes : List UInt8) :
    read ⟨n, chars, none⟩ (b :: bytes) = .ok cs ↔ ∃ bs c rest, bytes = bs ++ rest ∧ utf8EncodeChar c = b :: bs ∧
      read ⟨n + 1 + bs.length, c :: chars, none⟩ rest = .ok cs := by
  by_cases hb : b.toNat < 0x80
  · have hstep : step ⟨n, chars, none⟩ b = .ok ⟨n + 1, Char.ofNat b.toNat :: chars, none⟩ := by
      simp only [step, if_pos hb]
    rw [read_cons hstep]
    constructor
    · intro h
      exact ⟨[], _, bytes, rfl, (encode_iff_of_lt hb).mpr ⟨rfl, rfl⟩, h⟩
    · rintro ⟨bs, c, rest, rfl, hencode, hrest⟩
      obtain ⟨rfl, rfl⟩ := (encode_iff_of_lt hb).mp hencode
      exact hrest
  · have hencode (bs : List UInt8) (c : Char) : utf8EncodeChar c = b :: bs ↔ _ :=
      encode_iff_completes n (Nat.not_lt.mp hb)
    cases hlead : utf8Lead? n b.toNat with
    | none =>
      have hstep : step ⟨n, chars, none⟩ b = .error ⟨b.toNat, n, 1, .invalidStart⟩ := by
        simp only [step, if_neg hb, hlead]
      rw [read_cons_error hstep]
      refine ⟨nofun, ?_⟩
      rintro ⟨bs, c, rest, -, hfirst, -⟩
      obtain ⟨p, hp, -⟩ := (hencode bs c).mp hfirst
      cases hlead.symm.trans hp
    | some p =>
      have hstep : step ⟨n, chars, none⟩ b = .ok ⟨n + 1, chars, some p⟩ := by
        simp only [step, if_neg hb, hlead]
      simp only [hlead, Option.some.injEq, exists_eq_left'] at hencode
      simp only [read_cons hstep, read_pending, hencode]

theorem encodes_of_read (n : Nat) (chars : List Char) (bytes : List UInt8)
    (h : read ⟨n, chars, none⟩ bytes = .ok cs) :
    ∃ more : List Char, cs = chars.reverse ++ more ∧ bytes = more.flatMap utf8EncodeChar := by
  cases bytes with
  | nil =>
    obtain rfl := Except.ok.inj h
    exact ⟨[], (List.append_nil _).symm, rfl⟩
  | cons b bytes =>
    obtain ⟨bs, c, rest, rfl, hencode, hrest⟩ := (read_first n chars b bytes).mp h
    obtain ⟨more, rfl, rfl⟩ := encodes_of_read _ _ rest hrest
    refine ⟨c :: more, ?_, ?_⟩
    · rw [List.reverse_cons, List.append_assoc, List.singleton_append]
    · rw [List.flatMap_cons, hencode, List.cons_append]
termination_by bytes.length

theorem read_encoded (n : Nat) (chars more : List Char) :
    read ⟨n, chars, none⟩ (more.flatMap utf8EncodeChar) = .ok (chars.reverse ++ more) := by
  induction more generalizing n chars with
  | nil =>
    rw [List.append_nil]
    rfl
  | cons c more ih =>
    cases hencode : utf8EncodeChar c with
    | nil =>
      have hlength := String.length_utf8EncodeChar c
      rw [hencode] at hlength
      exact absurd hlength (Nat.ne_of_lt c.utf8Size_pos)
    | cons b bs =>
      rw [List.flatMap_cons, hencode, List.cons_append, read_first]
      refine ⟨bs, c, _, rfl, hencode, (ih _ _).trans ?_⟩
      rw [List.reverse_cons, List.append_assoc, List.singleton_append]

end Utf8Decoder

theorem decodeUtf8_eq_ok_iff : decodeUtf8 bytes = .ok cs ↔ bytes = cs.flatMap utf8EncodeChar := by
  constructor
  · intro h
    obtain ⟨more, rfl, hbytes⟩ := Utf8Decoder.encodes_of_read 0 [] bytes h
    exact hbytes
  · rintro rfl
    exact Utf8Decoder.read_encoded 0 [] cs

theorem ofBytes_eq_ok_iff {ends : LineEnds} {text : String} : ofBytes ends bytes = .ok text ↔
    ∃ cs : List Char, bytes = cs.flatMap utf8EncodeChar ∧ text = String.ofList (ends.read cs) := by
  unfold ofBytes
  constructor
  · intro h
    cases hdecode : decodeUtf8 bytes with
    | error fault =>
      rw [hdecode] at h
      cases h
    | ok cs =>
      rw [hdecode] at h
      exact ⟨cs, decodeUtf8_eq_ok_iff.mp hdecode, (Except.ok.inj h).symm⟩
  · rintro ⟨cs, hbytes, rfl⟩
    rw [decodeUtf8_eq_ok_iff.mpr hbytes]
    rfl

/-- The second text has a line feed for each way to end a line that the first one has. -/
inductive Unifies : List Char → List Char → Prop
  | nil : Unifies [] []
  | pair {cs ds : List Char} : Unifies cs ds → Unifies ('\r' :: '\n' :: cs) ('\n' :: ds)
  | lone {cs ds : List Char} : cs.head? ≠ some '\n' → Unifies cs ds → Unifies ('\r' :: cs) ('\n' :: ds)
  | other {c : Char} {cs ds : List Char} : c ≠ '\r' → Unifies cs ds → Unifies (c :: cs) (c :: ds)

theorem unifies_iff {ds : List Char} : Unifies cs ds ↔ ds = unifyNewlines cs := by
  constructor
  · intro h
    induction h with
    | nil => rfl
    | pair _ ih => rw [ih, unifyNewlines]
    | lone hlone _ ih =>
      rw [ih, unifyNewlines]
      rintro rest rfl
      exact hlone rfl
    | other hc _ ih => rw [ih, unifyNewlines] <;> simp [hc]
  · rintro rfl
    fun_induction unifyNewlines cs with
    | case1 rest ih => exact .pair ih
    | case2 rest hlone ih =>
      refine .lone ?_ ih
      cases rest with
      | nil => nofun
      | cons c rest =>
        intro hhead
        cases hhead
        exact hlone rest rfl
    | case3 c rest _ hc ih => exact .other (fun h => hc h) ih
    | case4 => exact .nil

end InputScript.Text
