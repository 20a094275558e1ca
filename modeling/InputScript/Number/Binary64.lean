/-!
Binary floating-point numbers of 64 bits, by their values. A finite number is the rational it stands
for; an operation rounds its exact result to the nearest number, a half going to the even neighbour.
-/

namespace InputScript.Number

def roundHalfEven (x : Rat) : Int :=
  let low := x.floor
  let rest := x - low
  if rest < 1 / 2 then low
  else if 1 / 2 < rest then low + 1
  else if low % 2 = 0 then low
  else low + 1

def truncate (x : Rat) : Int :=
  if x < 0 then -(-x).floor else x.floor

theorem truncate_intCast (n : Int) : truncate n = n := by
  unfold truncate
  split
  · rw [← Rat.intCast_neg, Rat.floor_intCast, Int.neg_neg]
  · exact Rat.floor_intCast n

namespace Binary64

def binaryExponent (x : Rat) : Int :=
  let e : Int := (x.num.natAbs.log2 : Int) - (x.den.log2 : Int)
  if x.abs < (2 : Rat) ^ e then e - 1 else e

/-- The distance of the numbers around `x`: significands have 53 bits, and no number lies between
zero and the power of two with the exponent -1074. -/
def spacing (x : Rat) : Rat :=
  (2 : Rat) ^ max (binaryExponent x - 52) (-1074)

def nearest (x : Rat) : Rat :=
  roundHalfEven (x / spacing x) * spacing x

def isFinite (x : Rat) : Bool :=
  x.abs < (2 : Rat) ^ (1024 : Int)

def round? (x : Rat) : Option Rat :=
  let y := nearest x
  if isFinite y then some y else none

def ofBits? (bits : UInt64) : Option Rat :=
  let n := bits.toNat
  let fraction := n % 4503599627370496
  let exponent := n / 4503599627370496 % 2048
  if exponent = 2047 then none
  else
    let size : Rat :=
      if exponent = 0 then (fraction : Rat) * (2 : Rat) ^ (-1074 : Int)
      else ((4503599627370496 + fraction : Nat) : Rat) * (2 : Rat) ^ ((exponent : Int) - 1075)
    some (if n < 9223372036854775808 then size else -size)

end Binary64

theorem roundHalfEven_le {x : Rat} {n : Int} (h : x ≤ n) : roundHalfEven x ≤ n := by
  have hfloor := Rat.floor_le x
  have hlow : x.floor ≤ n := by exact_mod_cast Rat.le_trans hfloor h
  unfold roundHalfEven
  by_cases heq : x.floor = n
  · rw [heq] at hfloor
    have hrest : x - n < 1 / 2 := by grind
    simp only [heq, hrest, if_true, Int.le_refl]
  · grind

namespace Binary64

theorem spacing_pos (x : Rat) : 0 < spacing x :=
  Rat.zpow_pos (by decide)

theorem binaryExponent_le {x : Rat} {n : Nat} (h0 : 0 ≤ x) (h : x ≤ n) : binaryExponent x ≤ n.log2 + 1 := by
  have hnum : 0 ≤ x.num := Rat.num_nonneg.2 h0
  have hle : x.num.natAbs ≤ n * x.den := by
    have h' := (Rat.le_iff x n).1 h
    simp only [Rat.den_natCast, Rat.num_natCast, ← Int.natCast_mul] at h'
    omega
  have hlog : x.num.natAbs.log2 ≤ x.den.log2 + n.log2 + 1 := by
    by_cases hz : x.num.natAbs = 0
    · simp [hz]
    · have hden := @Nat.lt_log2_self x.den
      have hn := @Nat.lt_log2_self n
      have : x.num.natAbs.log2 < n.log2 + 1 + (x.den.log2 + 1) := by
        rw [Nat.log2_lt hz, Nat.pow_add]
        exact Nat.lt_of_le_of_lt hle (Nat.mul_lt_mul'' hn hden)
      omega
  unfold binaryExponent
  simp only
  split <;> omega

theorem exists_spacing_eq {x : Rat} (h : binaryExponent x ≤ 52) : ∃ k : Nat, spacing x = ((2 : Rat) ^ k)⁻¹ := by
  obtain ⟨k, hk⟩ : ∃ k : Nat, max (binaryExponent x - 52) (-1074) = -(k : Int) :=
    ⟨(max (binaryExponent x - 52) (-1074)).natAbs, by omega⟩
  refine ⟨k, ?_⟩
  rw [spacing, hk, Rat.zpow_neg, Rat.zpow_natCast]

theorem nearest_le {x : Rat} (h0 : 0 ≤ x) {n : Int} (hn : n ≤ 1000) (h : x ≤ n) :
    nearest x ≤ n := by
  have hx : x ≤ (1000 : Nat) := Rat.le_trans h (Rat.intCast_le_intCast.2 hn)
  obtain ⟨k, hs⟩ := exists_spacing_eq (Int.le_trans (binaryExponent_le h0 hx) (by decide))
  have hpow : (0 : Rat) < (2 : Rat) ^ k := Rat.pow_pos (by decide)
  have hinv : (2 : Rat) ^ k * ((2 : Rat) ^ k)⁻¹ = 1 :=
    Rat.mul_inv_cancel _ (Rat.ne_of_gt hpow)
  have hcast : (((n * (2 : Int) ^ k : Int)) : Rat) = (n : Rat) * (2 : Rat) ^ k := by
    rw [Rat.intCast_mul, Rat.intCast_pow]
    rfl
  have hround : roundHalfEven (x / spacing x) ≤ n * (2 : Int) ^ k := by
    apply roundHalfEven_le
    rw [hcast, hs]
    have := Rat.mul_le_mul_of_nonneg_right h (Rat.le_of_lt hpow)
    grind
  have hscaled := Rat.mul_le_mul_of_nonneg_right (Rat.intCast_le_intCast.2 hround)
    (Rat.le_of_lt (spacing_pos x))
  rwa [hcast, hs, Rat.mul_assoc, hinv, Rat.mul_one, ← hs] at hscaled

end Binary64

end InputScript.Number
