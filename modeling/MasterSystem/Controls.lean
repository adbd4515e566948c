import MasterSystem.Text.Named

/-! # Controls

What a player can hold: two pads, a light phaser in the first port, and the start button, which on
the console itself is the pause button.  The ports read zeros for what is pressed.

Two pins of the ports (`TH`) can be inputs or outputs of the console.  As an output a pin reads
back the level that was put on it, which Japanese consoles invert. -/

namespace MasterSystem

/-- The buttons of a pad. -/
inductive Key where
  | up
  | down
  | left
  | right
  | button1
  | button2
  | start
deriving DecidableEq, Repr, Inhabited

instance : Text.Named Key where
  names := [(.up, "Up"), (.down, "Down"), (.left, "Left"), (.right, "Right"),
    (.button1, "Button1"), (.button2, "Button2"), (.start, "Start")]

/-- The bit that stands for a key. -/
def Key.mask : Key → UInt8
  | up => 0x01
  | down => 0x02
  | left => 0x04
  | right => 0x08
  | button1 => 0x10
  | button2 => 0x20
  | start => 0x40

/-- A light phaser: the pixel that it is aimed at, and its trigger. -/
structure Phaser where
  x : Int
  y : Int
  trigger : Bool
deriving DecidableEq, Repr, Inhabited

/-- The pixel that the phaser is aimed at. -/
def Phaser.target (p : Phaser) : Int × Int := (p.x, p.y)

/-- The state of the ports. -/
structure Controls where
  /-- Keys held by each player. -/
  pads : Vector UInt8 2 := #v[0, 0]
  /-- Directions and levels of the pins. -/
  ioControl : UInt8 := 0xFF
  phaser : Option Phaser := none
  /-- Opposite directions may be held together. -/
  allowOpposites : Bool := false
deriving DecidableEq, Repr, Inhabited

namespace Controls

/-- The ports after a reset of the console; what players hold stays held. -/
def reset (c : Controls) : Controls := { c with ioControl := 0xFF }

/-- Whether a player holds a key. -/
def isHeld (c : Controls) (player : Nat) (k : Key) : Bool :=
  match c.pads[player]? with
  | some pad => pad &&& k.mask != 0
  | none => false

/-- A player presses a key. -/
def press (c : Controls) (player : Nat) (k : Key) : Controls :=
  { c with pads := c.pads.setIfInBounds player (c.pads[player]?.getD 0 ||| k.mask) }

/-- A player releases a key. -/
def release (c : Controls) (player : Nat) (k : Key) : Controls :=
  { c with pads := c.pads.setIfInBounds player (c.pads[player]?.getD 0 &&& ~~~k.mask) }

/-- Whether pressing a key would change anything: there is such a player, and the key is up. -/
def isFresh (c : Controls) (player : Nat) (k : Key) : Bool := player < 2 && !c.isHeld player k

/-- Directions held together with their opposites, taken away. -/
def cancel (mask b : UInt8) : UInt8 := if b &&& mask == mask then b &&& ~~~mask else b

/-- The directions and buttons of a pad as the ports show them. -/
def padBits (c : Controls) (player : Fin 2) : UInt8 :=
  let b := c.pads[player] &&& 0x3F
  if c.allowOpposites then b else cancel 0x0C (cancel 0x03 b)

/-- The first port: the first pad, or the phaser's trigger, and half of the second pad. -/
def readA (c : Controls) : UInt8 :=
  let first := match c.phaser with
    | some p => if p.trigger then 0x10 else 0
    | none => c.padBits 0
  ~~~(first ||| ((c.padBits 1 &&& 0x03) <<< 6))

/-- The level of a pin, given the bits of its direction and its level: an input is pulled up, and an
output reads back what was put on it, inverted in Japan. -/
def pinLevel (ioControl direction level : UInt8) (japan : Bool) : Bool :=
  if ioControl &&& direction != 0 then true else (ioControl &&& level != 0) != japan

/-- The level of the first port's pin. -/
def pinA (ioControl : UInt8) (japan : Bool) : Bool := pinLevel ioControl 0x02 0x20 japan

/-- The level of the second port's pin. -/
def pinB (ioControl : UInt8) (japan : Bool) : Bool := pinLevel ioControl 0x08 0x80 japan

/-- The second port: the rest of the second pad, the reset button, which is up, and the two pins.
Light on the phaser pulls the first pin down. -/
def readB (c : Controls) (light japan : Bool) : UInt8 :=
  let a := pinA c.ioControl japan && !(light && c.phaser.isSome)
  let b := pinB c.ioControl japan
  (~~~(c.padBits 1 >>> 2) &&& 0x0F) ||| 0x30 ||| (if a then 0x40 else 0) |||
    (if b then 0x80 else 0)

/-- Set the directions and levels of the pins. -/
def writeIoControl (c : Controls) (v : UInt8) : Controls := { c with ioControl := v }

/-- Whether setting the pins would raise one of them. -/
def raisesPin (c : Controls) (v : UInt8) : Bool :=
  (!pinA c.ioControl false && pinA v false) || (!pinB c.ioControl false && pinB v false)

/-- The Game Gear's own port: its start button, and bits for its territory. -/
def readGear (c : Controls) (japan pal : Bool) : UInt8 :=
  0x1F ||| (if c.isHeld 0 .start then 0 else 0x80) ||| (if japan then 0 else 0x40) |||
    (if pal then 0x20 else 0)

end Controls

end MasterSystem
