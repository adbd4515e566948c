/-! # Instruments of the FM chip

An instrument is eight bytes that set up the two operators of a channel.  Fifteen are in the
chip's ROM, three more serve the drums, and number 0 is taken from the registers. -/

namespace MasterSystem.Sound.Fm

/-- The eight bytes of an instrument. -/
abbrev Patch := Vector UInt8 8

/-- The melodic instruments 1 to 15. -/
def melodicPatches : Array Patch := #[
  -- violin, guitar, piano, flute
  #v[0x71, 0x61, 0x1E, 0x17, 0xD0, 0x78, 0x00, 0x17],
  #v[0x13, 0x41, 0x1A, 0x0D, 0xD8, 0xF7, 0x23, 0x13],
  #v[0x13, 0x01, 0x99, 0x00, 0xF2, 0xC4, 0x21, 0x23],
  #v[0x11, 0x61, 0x0E, 0x07, 0x8D, 0x64, 0x70, 0x27],
  -- clarinet, oboe, trumpet, organ
  #v[0x32, 0x21, 0x1E, 0x06, 0xE1, 0x76, 0x01, 0x28],
  #v[0x31, 0x22, 0x16, 0x05, 0xE0, 0x71, 0x00, 0x18],
  #v[0x21, 0x61, 0x1D, 0x07, 0x82, 0x81, 0x11, 0x07],
  #v[0x33, 0x21, 0x2D, 0x13, 0xB0, 0x70, 0x00, 0x07],
  -- horn, synthesizer, harpsichord, vibraphone
  #v[0x61, 0x61, 0x1B, 0x06, 0x64, 0x65, 0x10, 0x17],
  #v[0x41, 0x61, 0x0B, 0x18, 0x85, 0xF0, 0x81, 0x07],
  #v[0x33, 0x01, 0x83, 0x11, 0xEA, 0xEF, 0x10, 0x04],
  #v[0x17, 0xC1, 0x24, 0x07, 0xF8, 0xF8, 0x22, 0x12],
  -- synth bass, wood bass, electric guitar
  #v[0x61, 0x50, 0x0C, 0x05, 0xD2, 0xF5, 0x40, 0x16],
  #v[0x01, 0x01, 0x55, 0x03, 0xE9, 0x90, 0x03, 0x02],
  #v[0x41, 0x41, 0x89, 0x03, 0xF1, 0xE4, 0xC0, 0x13]]

/-- Bass drum. -/
def bassDrum : Patch := #v[0x01, 0x01, 0x18, 0x0F, 0xDF, 0xF8, 0x6A, 0x6D]

/-- Hi-hat and snare. -/
def hatSnare : Patch := #v[0x01, 0x01, 0x00, 0x00, 0xC8, 0xD8, 0xA7, 0x68]

/-- Tom and cymbal. -/
def tomCymbal : Patch := #v[0x05, 0x01, 0x00, 0x00, 0xF8, 0xAA, 0x59, 0x55]

/-- Twice the frequency multiplier for each setting. -/
def multipliers : Array Nat := #[1, 2, 4, 6, 8, 10, 12, 14, 16, 18, 20, 20, 24, 24, 30, 30]

/-- The two operators of a channel. -/
inductive Role where
  | modulator
  | carrier
deriving DecidableEq, Repr

/-- What an instrument sets for one operator. -/
structure Setting where
  /-- Tremolo. -/
  am : Bool
  /-- Vibrato. -/
  pm : Bool
  /-- The level is held while the key is down. -/
  sustained : Bool
  /-- Rates follow the pitch closely. -/
  keyScaled : Bool
  /-- Twice the frequency multiplier. -/
  multiple : Nat
  /-- How much the level follows the pitch. -/
  levelScale : Nat
  /-- The lower half of the wave is cut off. -/
  rectify : Bool
  attack : Nat
  decay : Nat
  sustain : Nat
  release : Nat
deriving DecidableEq, Repr

namespace Patch

/-- The setting of the operator whose bytes are `flags`, `rates` and `levels`. -/
def settingOf (flags rates levels scale : UInt8) (rectify : Bool) : Setting where
  am := flags &&& 0x80 != 0
  pm := flags &&& 0x40 != 0
  sustained := flags &&& 0x20 != 0
  keyScaled := flags &&& 0x10 != 0
  multiple := multipliers.getD (flags &&& 0x0F).toNat 0
  levelScale := (scale >>> 6).toNat
  rectify := rectify
  attack := (rates >>> 4).toNat
  decay := (rates &&& 0x0F).toNat
  sustain := (levels >>> 4).toNat
  release := (levels &&& 0x0F).toNat

/-- What the instrument sets for an operator. -/
def setting (p : Patch) : Role → Setting
  | .modulator => settingOf p[0] p[4] p[6] p[2] (p[3] &&& 0x08 != 0)
  | .carrier => settingOf p[1] p[5] p[7] p[3] (p[3] &&& 0x10 != 0)

/-- How much of its own output the modulator hears. -/
def feedback (p : Patch) : Nat := (p[3] &&& 7).toNat

/-- Attenuation of the modulator. -/
def modulatorLevel (p : Patch) : Nat := (p[2] &&& 0x3F).toNat * 2

end Patch

end MasterSystem.Sound.Fm
