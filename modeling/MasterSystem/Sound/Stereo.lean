import MasterSystem.Text.Named
import MasterSystem.Sound.Resampler

/-! # The stereo output

Two resamplers on one clock, and the routing of a channel to either, both or none.  The pair
keeps the notes of everything that plays into it. -/

namespace MasterSystem.Sound

/-- Where the output of a channel goes. -/
inductive Routing where
  | off
  | right
  | left
  | center
deriving DecidableEq, Repr, Inhabited

instance : Text.Named Routing where
  names := [(.off, "Off"), (.right, "Right"), (.left, "Left"), (.center, "Center")]

namespace Routing

/-- The routing that a pair of enable bits selects. -/
def ofBits (right left : Bool) : Routing :=
  match left, right with
  | false, false => off
  | false, true => Routing.right
  | true, false => Routing.left
  | true, true => center

/-- Whether the routing reaches the left side. -/
def toLeft : Routing → Bool
  | left | center => true
  | _ => false

/-- Whether the routing reaches the right side. -/
def toRight : Routing → Bool
  | right | center => true
  | _ => false

theorem toLeft_ofBits (right left : Bool) : (ofBits right left).toLeft = left := by
  cases right <;> cases left <;> rfl

theorem toRight_ofBits (right left : Bool) : (ofBits right left).toRight = right := by
  cases right <;> cases left <;> rfl

end Routing

/-- A left and a right resampler, and notes about them. -/
structure Stereo where
  left : Resampler
  right : Resampler
  notes : Notes := #[]
deriving DecidableEq, Repr, Inhabited

namespace Stereo

/-- A pair of empty resamplers. -/
def new (clockRate sampleRate capacity : Nat) : Stereo :=
  { left := .new clockRate sampleRate capacity, right := .new clockRate sampleRate capacity }

/-- The pair with another input clock. -/
def setRates (b : Stereo) (clockRate sampleRate : Nat) : Stereo :=
  { b with
    left := b.left.setRates clockRate sampleRate, right := b.right.setRates clockRate sampleRate }

/-- The pair without anything added to it. -/
def clear (b : Stereo) : Stereo := { b with left := b.left.clear, right := b.right.clear }

/-- Record a note. -/
def note (b : Stereo) (n : Note) : Stereo := { b with notes := b.notes.push n }

/-- Record a note, if there is one. -/
def noteIf (b : Stereo) : Option Note → Stereo
  | some n => b.note n
  | none => b

/-- Add a change of level to the left side. -/
def addLeft (b : Stereo) (time : Nat) (delta : Int) : Stereo :=
  let b := b.noteIf (b.left.lateNote time delta)
  { b with left := b.left.addDelta time delta }

/-- Add a change of level to the right side. -/
def addRight (b : Stereo) (time : Nat) (delta : Int) : Stereo :=
  let b := b.noteIf (b.right.lateNote time delta)
  { b with right := b.right.addDelta time delta }

/-- Add a change of level to the sides that a routing reaches. -/
def addDelta (b : Stereo) (routing : Routing) (time : Nat) (delta : Int) : Stereo :=
  match routing with
  | .off => b
  | .right => b.addRight time delta
  | .left => b.addLeft time delta
  | .center => (b.addLeft time delta).addRight time delta

/-- Close a frame on the left side. -/
def endLeft (b : Stereo) (clocks : Nat) : Stereo :=
  let b := b.noteIf (b.left.fullNote clocks)
  { b with left := b.left.endFrame clocks }

/-- Close a frame on the right side. -/
def endRight (b : Stereo) (clocks : Nat) : Stereo :=
  let b := b.noteIf (b.right.fullNote clocks)
  { b with right := b.right.endFrame clocks }

/-- Close a frame. -/
def endFrame (b : Stereo) (clocks : Nat) : Stereo := (b.endLeft clocks).endRight clocks

/-- Pairs of samples that can be read. -/
def samplesAvail (b : Stereo) : Nat := min b.left.avail b.right.avail

/-- Two lists of equal length, their elements in turn. -/
def interleave : List Int → List Int → List Int
  | l :: ls, r :: rs => l :: r :: interleave ls rs
  | _, _ => []

/-- Read pairs of samples, left before right, as many as fit into `length` places. -/
def readInterleaved (b : Stereo) (length : Nat) : Array Int × Stereo :=
  let frames := min b.samplesAvail (length / 2)
  if frames = 0 then (#[], b)
  else
    let (ls, left) := b.left.read frames
    let (rs, right) := b.right.read frames
    ((interleave ls.toList rs.toList).toArray, { b with left := left, right := right })

/-- Drop all pairs of samples. -/
def discard (b : Stereo) : Stereo :=
  let frames := b.samplesAvail
  { b with left := (b.left.read frames).2, right := (b.right.read frames).2 }

end Stereo

end MasterSystem.Sound
