/-! # Sprites on a line

Which sprites of a table are drawn on a line.  The table is searched in order until an entry ends
it; of the entries that cover the line only the first few are drawn, and one more is an
overflow. -/

namespace MasterSystem.Video.Sprite

/-- Search `n` entries from entry `i` on: those to draw, at most `limit`, and the entry that was
one too many. -/
def search (ends covers : Nat → Bool) : Nat → Nat → Nat → List Nat × Option Nat
  | 0, _, _ => ([], none)
  | n + 1, i, limit =>
    if ends i then ([], none)
    else if !covers i then search ends covers n (i + 1) limit
    else
      match limit with
      | 0 => ([], some i)
      | limit + 1 =>
        let (drawn, extra) := search ends covers n (i + 1) limit
        (i :: drawn, extra)

/-- The first line of a sprite whose vertical byte is `y`: the line after it, and above the
screen when that is past `bound`. -/
def top (y : UInt8) (bound : Int) : Int :=
  let t : Int := y.toNat + 1
  if bound < t then t - 256 else t

/-- Whether a line lies within a sprite. -/
def covers (top height : Int) (line : Nat) : Bool := top ≤ line && line < top + height

end MasterSystem.Video.Sprite
