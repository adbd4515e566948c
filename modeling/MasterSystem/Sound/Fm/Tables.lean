import MasterSystem.Sound.Sine

/-! # Tables of the FM chip

The wave of an operator and the gain of an attenuation, as the chip holds them: whole numbers
nearest to the sine and to the power of ten that they stand for.  The gains are found in exact
arithmetic: `g` is the nearest to `4096 / 10 ^ (3 a / 160)` when it is the last number with
`(2 g - 1) ^ 160 * 10 ^ (3 a) ≤ 8192 ^ 160`. -/

namespace MasterSystem.Sound.Fm

/-- Entries of the sine table. -/
def sineSize : Nat := 1024

/-- Entries of the gain table. -/
def gainSize : Nat := 512

/-- Entry of the sine table: the middle of the `i`-th of 1024 parts of a turn. -/
def sineEntry (i : Nat) : Int := nearest (sine (2 * i + 1) 2048 * 4095) one

/-- One turn of a sine with the height 4095. -/
def sineTable : Array Int := (Array.range sineSize).map sineEntry

/-- Whether the gain of attenuation `a` is at least `g - 1/2`. -/
def gainReaches (a g : Nat) : Bool :=
  Nat.pow (2 * g - 1) 160 * Nat.pow 10 (3 * a) ≤ Nat.pow 8192 160

/-- The last number reached by the gain of attenuation `a`, found bit by bit. -/
def gainEntry (a : Nat) : Nat :=
  [4096, 2048, 1024, 512, 256, 128, 64, 32, 16, 8, 4, 2, 1].foldl
    (fun g bit => if gainReaches a (g + bit) then g + bit else g) 0

/-- Gains, in 4096 parts, of attenuations in steps of 0.375 dB. -/
def gainTable : Array Int := (Array.range gainSize).map fun a => (gainEntry a : Int)

end MasterSystem.Sound.Fm
