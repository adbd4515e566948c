import MasterSystem.Sound.Stereo

/-! # Sound chips

What the console expects of a sound chip.  A chip is run lazily: every access carries the clock
of the current frame at which it happens, and the chip first plays everything up to then into
the stereo output.  Closing a frame moves its clock back, so that the next frame starts at
zero. -/

namespace MasterSystem.Sound

/-- A chip that plays into a stereo output. -/
class Chip (χ : Type) where
  /-- Play up to a clock of the current frame. -/
  runUntil : χ → Nat → Stereo → χ × Stereo
  /-- Write a byte to a register or port at a clock. -/
  write : χ → Nat → UInt16 → UInt8 → Stereo → χ × Stereo
  /-- Read a register. -/
  read : χ → UInt16 → UInt8
  /-- Move the chip's clock back by the length of a frame. -/
  rebase : χ → Nat → χ
  /-- Silence the chip or restore it at a clock. -/
  setEnabled : χ → Nat → Bool → Stereo → χ × Stereo
  /-- The chip as after power-on. -/
  reset : χ → χ

namespace Chip

/-- Play a frame to its end and start the next one. -/
@[inline] def endFrame {χ : Type} [Chip χ] (c : χ) (clocks : Nat) (out : Stereo) : χ × Stereo :=
  let (c, out) := runUntil c clocks out
  (rebase c clocks, out)

end Chip

end MasterSystem.Sound
