import InputScript.Script.Sleep
import Mathlib.Data.Rat.Floor
import Mathlib.Tactic.Linarith

namespace InputScript.Number

variable {x : Rat}

theorem roundHalfEven_nonneg (h : 0 ≤ x) : 0 ≤ roundHalfEven x := by
  have hlow : 0 ≤ x.floor := Rat.le_floor_iff.mpr (by exact_mod_cast h)
  unfold roundHalfEven
  grind

theorem abs_roundHalfEven_sub_le (x : Rat) : |(roundHalfEven x : Rat) - x| ≤ 1 / 2 := by
  have hfloor := Rat.floor_le x
  have hnext := Rat.lt_floor (x := x)
  rw [abs_le]
  unfold roundHalfEven
  simp only
  split_ifs <;> push_cast <;> constructor <;> linarith

theorem roundHalfEven_eq {n : Int} (h : |x - n| < 1 / 2) : roundHalfEven x = n := by
  have hround := abs_roundHalfEven_sub_le x
  rw [abs_le] at hround
  rw [abs_lt] at h
  have hlow : roundHalfEven x < n + 1 := by
    rw [← Int.cast_lt (R := Rat), Int.cast_add, Int.cast_one]
    linarith
  have hhigh : n < roundHalfEven x + 1 := by
    rw [← Int.cast_lt (R := Rat), Int.cast_add, Int.cast_one]
    linarith
  omega

theorem roundHalfEven_intCast (n : Int) : roundHalfEven n = n :=
  roundHalfEven_eq (by norm_num)

theorem truncate_nonneg (h : 0 ≤ x) : 0 ≤ truncate x := by
  rw [truncate, if_neg (not_lt.mpr h)]
  exact Rat.le_floor_iff.mpr (by exact_mod_cast h)

theorem truncate_nonpos (h : x ≤ 0) : truncate x ≤ 0 := by
  unfold truncate
  split_ifs with hneg
  · have hfloor : 0 ≤ (-x).floor := Rat.le_floor_iff.mpr (by exact_mod_cast (neg_nonneg.mpr h))
    omega
  · obtain rfl : x = 0 := le_antisymm h (not_lt.mp hneg)
    exact le_refl 0

theorem abs_truncate_le (x : Rat) : |(truncate x : Rat)| ≤ |x| := by
  rcases lt_or_ge x 0 with hneg | hpos
  · have hfloor := Rat.floor_le (-x)
    have hsign : (truncate x : Rat) ≤ 0 := by exact_mod_cast truncate_nonpos hneg.le
    rw [abs_of_nonpos hsign, abs_of_neg hneg, truncate, if_pos hneg, Int.cast_neg]
    linarith
  · have hsign : (0 : Rat) ≤ truncate x := by exact_mod_cast truncate_nonneg hpos
    rw [abs_of_nonneg hsign, abs_of_nonneg hpos, truncate, if_neg (not_lt.mpr hpos)]
    exact Rat.floor_le x

namespace Binary64

theorem nearest_nonneg (h : 0 ≤ x) : 0 ≤ nearest x := by
  have hspacing := spacing_pos x
  have hround : 0 ≤ roundHalfEven (x / spacing x) :=
    roundHalfEven_nonneg (div_nonneg h hspacing.le)
  unfold nearest
  positivity

theorem nearest_nonpos (h : x ≤ 0) : nearest x ≤ 0 := by
  have hspacing := spacing_pos x
  have hquotient : x / spacing x ≤ ((0 : Int) : Rat) := by
    exact_mod_cast div_nonpos_of_nonpos_of_nonneg h hspacing.le
  have hround : (roundHalfEven (x / spacing x) : Rat) ≤ 0 := by exact_mod_cast roundHalfEven_le hquotient
  exact mul_nonpos_of_nonpos_of_nonneg hround hspacing.le

theorem abs_nearest_sub_le (x : Rat) : |nearest x - x| ≤ spacing x / 2 := by
  have hspacing := spacing_pos x
  have hround := abs_roundHalfEven_sub_le (x / spacing x)
  have hscaled : nearest x - x = (roundHalfEven (x / spacing x) - x / spacing x) * spacing x := by
    rw [sub_mul, div_mul_cancel₀ x hspacing.ne', nearest]
  calc
    |nearest x - x| = |(roundHalfEven (x / spacing x) : Rat) - x / spacing x| * spacing x := by
      rw [hscaled, abs_mul, abs_of_pos hspacing]
    _ ≤ 1 / 2 * spacing x := mul_le_mul_of_nonneg_right hround hspacing.le
    _ = spacing x / 2 := by ring

theorem spacing_le {n : Nat} (h0 : 0 ≤ x) (h : x ≤ n) : spacing x ≤ 2 ^ ((n.log2 : Int) - 51) := by
  have hexponent := binaryExponent_le h0 h
  exact zpow_le_zpow_right₀ (by norm_num) (by omega)

theorem abs_nearest_sub_le_millionth (h0 : 0 ≤ x) (h : x ≤ 1000) : |nearest x - x| ≤ 1 / 1000000 := by
  have hnear := abs_nearest_sub_le x
  have hspacing := spacing_le (n := 1000) h0 (by exact_mod_cast h)
  rw [show Nat.log2 1000 = 9 by decide] at hspacing
  norm_num at hspacing
  linarith

theorem nearest_natCast {n : Nat} (h : n.log2 < 52) : nearest n = n := by
  have hexponent := binaryExponent_le (Nat.cast_nonneg n) (le_refl (n : Rat))
  obtain ⟨k, hk⟩ := exists_spacing_eq (x := n) (by omega)
  have hmultiple : (n : Rat) / spacing n = ((n * 2 ^ k : Int) : Rat) := by
    rw [hk, div_inv_eq_mul]
    push_cast
    rfl
  rw [nearest, hmultiple, roundHalfEven_intCast, ← hmultiple, div_mul_cancel₀ _ (spacing_pos _).ne']

theorem ratAbs_eq (x : Rat) : x.abs = |x| := by
  rcases le_total 0 x with h | h
  · rw [Rat.abs_of_nonneg h, abs_of_nonneg h]
  · rw [Rat.abs_of_nonpos h, abs_of_nonpos h]

theorem spacing_abs (x : Rat) : spacing |x| = spacing x := by
  have hexponent : binaryExponent |x| = binaryExponent x := by
    simp only [binaryExponent, ratAbs_eq, abs_abs, Rat.num_abs_eq_abs_num, Rat.den_abs_eq_den, Int.natAbs_abs]
  rw [spacing, spacing, hexponent]

theorem isFinite_iff : isFinite x = true ↔ |x| < 2 ^ (1024 : Int) := by
  rw [isFinite, decide_eq_true_eq, ratAbs_eq]

theorem round?_of_abs_le {k : Nat} (hk : k < 1023) (h : |x| ≤ 2 ^ k) : round? x = some (nearest x) := by
  have hnear := abs_nearest_sub_le x
  have hspacing := spacing_le (n := 2 ^ k) (abs_nonneg x) (by rwa [Nat.cast_pow, Nat.cast_ofNat])
  rw [Nat.log2_two_pow, spacing_abs] at hspacing
  have hgap : (2 : Rat) ^ ((k : Int) - 51) ≤ 2 ^ k := by
    rw [← zpow_natCast]
    exact zpow_le_zpow_right₀ (by norm_num) (by omega)
  have hsmall : |nearest x| < 2 ^ (1024 : Int) := calc
    |nearest x| ≤ |x| + spacing x / 2 := by
      have hsum := abs_sub_abs_le_abs_sub (nearest x) x
      linarith
    _ < 2 ^ k * 2 := by
      have hpos : (0 : Rat) < 2 ^ k := by positivity
      linarith
    _ = 2 ^ ((k : Int) + 1) := by rw [zpow_add_one₀ (by norm_num), zpow_natCast]
    _ ≤ 2 ^ (1024 : Int) := zpow_le_zpow_right₀ (by norm_num) (by omega)
  rw [round?, if_pos (isFinite_iff.mpr hsmall)]

theorem round?_eq_some {n : Nat} (h0 : 0 ≤ x) (h : x ≤ n) (hn : n.log2 < 52) : round? x = some (nearest x) := by
  have hlt : n < 2 ^ 52 := Nat.lt_log2_self.trans_le (Nat.pow_le_pow_right (by decide) hn)
  apply round?_of_abs_le (k := 52) (by decide)
  rw [abs_of_nonneg h0]
  exact h.trans (by exact_mod_cast hlt.le)

end Binary64

end InputScript.Number
