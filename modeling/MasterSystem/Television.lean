import MasterSystem.Text.Named

/-! # Television standards

The clock of the console and the length of a field, which follow from the television standard
that the console was sold for.  A scanline always takes 228 T-states. -/

namespace MasterSystem

/-- The two television standards. -/
inductive Standard where
  /-- North America and Japan: 262 lines. -/
  | ntsc
  /-- Europe and Brazil: 313 lines. -/
  | pal
deriving DecidableEq, Repr, Inhabited

instance : Text.Named Standard where
  names := [(.ntsc, "Ntsc"), (.pal, "Pal")]

/-- T-states in a scanline. -/
def cyclesPerLine : Nat := 228

namespace Standard

/-- T-states in a second. -/
def clockHz : Standard → Nat
  | ntsc => 3579545
  | pal => 3546893

/-- Scanlines in a field, those of the blank included. -/
def linesPerFrame : Standard → Nat
  | ntsc => 262
  | pal => 313

/-- T-states in a field. -/
def cyclesPerFrame (s : Standard) : Nat := s.linesPerFrame * cyclesPerLine

/-- Millionths of a field in a second, to the nearest. -/
def microHz (s : Standard) : Nat :=
  (2 * 1000000 * s.clockHz + s.cyclesPerFrame) / (2 * s.cyclesPerFrame)

/-- Fields in a second, as the shortest decimal that names the double nearest to the
quotient. -/
def frameRate : Standard → String
  | ntsc => "59.92274340431231"
  | pal => "49.70143209461353"

end Standard

end MasterSystem
