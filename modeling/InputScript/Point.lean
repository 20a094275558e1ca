import InputScript.Text.Digits

namespace InputScript

structure Point where
  x : Int
  y : Int
deriving DecidableEq, Inhabited

def maxCoordinate : Int := 65535

def clampCoordinate (n : Int) : Int :=
  min (max n 0) maxCoordinate

namespace Point

def clamp (p : Point) : Point :=
  ⟨clampCoordinate p.x, clampCoordinate p.y⟩

def text (p : Point) : String :=
  "(" ++ Text.signedDecimal p.x ++ "," ++ Text.signedDecimal p.y ++ ")"

end Point

theorem clampCoordinate_nonneg (n : Int) : 0 ≤ clampCoordinate n := by
  unfold clampCoordinate maxCoordinate
  omega

theorem clampCoordinate_le (n : Int) : clampCoordinate n ≤ maxCoordinate := by
  unfold clampCoordinate
  omega

theorem clampCoordinate_eq_self {n : Int} (h : 0 ≤ n ∧ n ≤ 65535) : clampCoordinate n = n := by
  unfold clampCoordinate maxCoordinate
  omega

end InputScript
