/-! # Sines in fixed point

The tables of the sound chips and of the resampler hold rounded values of smooth functions.
They are computed here in integers, so that their entries can be evaluated and bounded in a
proof.  A number is kept as a multiple of `1 / one`; an angle is a fraction of a full turn. -/

namespace MasterSystem.Sound

/-- The unit of fixed point. -/
def one : Int := 0x10000000000000000

/-- Half a turn in radians, in fixed point. -/
def pi : Int := 57952155664616982739

/-- The nearest integer to `a / b`, a half going away from zero; `b` is positive. -/
def nearest (a b : Int) : Int :=
  if 0 ≤ a then (2 * a + b) / (2 * b) else -((2 * -a + b) / (2 * b))

/-- The next `n` terms of the sine series at `x`, of which `term` belongs to the odd power
`k`. -/
def sineTerms (x : Int) : Nat → Int → Int → Int
  | 0, _, _ => 0
  | n + 1, k, term =>
    term + sineTerms x n (k + 2) (-(term * x / one * x / one / ((k + 1) * (k + 2))))

/-- The sine of an angle between minus half and half a turn. -/
def sineRadians (x : Int) : Int := sineTerms x 20 1 x

/-- The sine of `n / d` of a turn. -/
def sine (n d : Int) : Int :=
  let n := n % d
  sineRadians (2 * pi * (if 2 * n ≤ d then n else n - d) / d)

/-- The cosine of `n / d` of a turn: the sine a quarter of a turn later. -/
def cosine (n d : Int) : Int := sine (4 * n + d) (4 * d)

end MasterSystem.Sound
