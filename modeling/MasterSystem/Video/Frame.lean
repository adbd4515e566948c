import MasterSystem.Text.Named
import MasterSystem.Video.Color

/-! # Frames

A picture as rows of colours, and its form in the memory of a host: six pixel formats of two to
four bytes. -/

namespace MasterSystem.Video

/-- A picture, row by row. -/
structure Frame where
  width : Nat
  height : Nat
  pixels : Array Color
deriving DecidableEq, Repr, Inhabited

/-- Layouts of a pixel in a host's memory, named in byte order for three and four bytes, and from
the top bits down for two. -/
inductive PixelFormat where
  | rgb888
  | rgba8888
  | bgra8888
  | rgb565
  | bgr565
  | rgb555
deriving DecidableEq, Repr, Inhabited

instance : Text.Named PixelFormat where
  names := [(.rgb888, "Rgb888"), (.rgba8888, "Rgba8888"), (.bgra8888, "Bgra8888"),
    (.rgb565, "Rgb565"), (.bgr565, "Bgr565"), (.rgb555, "Rgb555")]

namespace PixelFormat

/-- Bytes of a pixel. -/
def bytesPerPixel : PixelFormat → Nat
  | rgb888 => 3
  | rgba8888 | bgra8888 => 4
  | rgb565 | bgr565 | rgb555 => 2

/-- Append the two bytes of a packed pixel, low byte first.  The top field stands at bit
`position` and the middle one at bit 5; the middle one loses `shift` bits, the others three. -/
@[inline] def packed (top middle low : UInt8) (shift position : UInt16) (out : Array UInt8) :
    Array UInt8 :=
  let w := ((top >>> 3).toUInt16 <<< position) ||| ((middle.toUInt16 >>> shift) <<< 5) |||
    (low >>> 3).toUInt16
  (out.push w.toUInt8).push (w >>> 8).toUInt8

/-- Append a pixel of the colour. -/
def push (f : PixelFormat) (c : Color) (out : Array UInt8) : Array UInt8 :=
  let r := (c >>> 16).toUInt8
  let g := (c >>> 8).toUInt8
  let b := c.toUInt8
  match f with
  | rgb888 => ((out.push r).push g).push b
  | rgba8888 => (((out.push r).push g).push b).push 0xFF
  | bgra8888 => (((out.push b).push g).push r).push 0xFF
  | rgb565 => packed r g b 2 11 out
  | bgr565 => packed b g r 2 11 out
  | rgb555 => packed r g b 3 10 out

end PixelFormat

namespace Frame

/-- A black picture. -/
def new (width height : Nat) : Frame := ⟨width, height, Array.replicate (width * height) 0⟩

/-- The picture with the colour `g x y` in column `x` of row `y`. -/
def tabulate (width height : Nat) (g : Nat → Nat → Color) : Frame :=
  ⟨width, height, Array.ofFn (n := width * height) fun i => g (i.val % width) (i.val / width)⟩

/-- The colour in column `x` of row `y`. -/
def colorAt (f : Frame) (x y : Nat) : Color := f.pixels.getD (y * f.width + x) 0

theorem colorAt_tabulate {width height x y : Nat} (g : Nat → Nat → Color) (hx : x < width)
    (hy : y < height) : (tabulate width height g).colorAt x y = g x y := by
  have hi : y * width + x < width * height := by
    calc y * width + x < y * width + width := by omega
      _ = (y + 1) * width := by rw [Nat.succ_mul]
      _ ≤ height * width := Nat.mul_le_mul_right width hy
      _ = width * height := Nat.mul_comm ..
  have hw : 0 < width := by omega
  have hmod : (y * width + x) % width = x := by
    rw [Nat.mul_comm, Nat.mul_add_mod, Nat.mod_eq_of_lt hx]
  have hdiv : (y * width + x) / width = y := by
    rw [Nat.mul_comm, Nat.mul_add_div hw, Nat.div_eq_of_lt hx, Nat.add_zero]
  simp [colorAt, tabulate, Array.getD, hi, hmod, hdiv]

/-- The picture's pixels in a format. -/
def encode (f : Frame) (format : PixelFormat) : Array UInt8 :=
  f.pixels.foldl (fun out c => format.push c out)
    (Array.mkEmpty (f.pixels.size * format.bytesPerPixel))

/-- Write the picture to the start of `dst`: the number of bytes written and the memory
afterwards, or nothing if `dst` is too small. -/
def writeTo (f : Frame) (format : PixelFormat) (dst : Array UInt8) :
    Option (Nat × Array UInt8) :=
  let needed := f.pixels.size * format.bytesPerPixel
  if dst.size < needed then none
  else some (needed, f.encode format ++ dst.extract needed dst.size)

end Frame

end MasterSystem.Video
