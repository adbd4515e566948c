import MasterSystem.Television

/-! # Kinds of consoles, territories and cartridges

What has to be known about a cartridge before it can run: the console that it was made for, the
territory where that console was sold, and the board that its memory is wired to. -/

namespace MasterSystem

/-- The consoles. -/
inductive Console where
  | unknown
  /-- The Master System. -/
  | master
  | gameGear
  | sg1000
deriving DecidableEq, Repr, Inhabited

/-- Territory and television standard. -/
inductive Zone where
  | unknown
  | japanNtsc
  | japanPal
  | exportNtsc
  | exportPal
  | internationalNtsc
  | internationalPal
deriving DecidableEq, Repr, Inhabited

/-- How a cartridge's memory is wired. -/
inductive Board where
  | unknown
  | romOnly
  | sega
  | codemasters
  | korean
  | msx
  | janggun
  | sg1000
  /-- Known not to be supported. -/
  | unsupported
deriving DecidableEq, Repr, Inhabited

instance : Text.Named Console where
  names := [(.unknown, "Unknown"), (.master, "Sms"), (.gameGear, "GameGear"), (.sg1000, "Sg1000")]

instance : Text.Named Zone where
  names := [(.unknown, "Unknown"), (.japanNtsc, "JapanNtsc"), (.japanPal, "JapanPal"),
    (.exportNtsc, "ExportNtsc"), (.exportPal, "ExportPal"),
    (.internationalNtsc, "InternationalNtsc"), (.internationalPal, "InternationalPal")]

instance : Text.Named Board where
  names := [(.unknown, "Unknown"), (.romOnly, "RomOnly"), (.sega, "Sega"),
    (.codemasters, "Codemasters"), (.korean, "Korean"), (.msx, "Msx"), (.janggun, "Janggun"),
    (.sg1000, "Sg1000"), (.unsupported, "Unsupported")]

namespace Zone

/-- Whether the territory has PAL television. -/
def isPal : Zone → Bool
  | japanPal | exportPal | internationalPal => true
  | _ => false

/-- Whether the territory is Japan. -/
def isJapan : Zone → Bool
  | japanNtsc | japanPal => true
  | _ => false

/-- The television standard of the territory. -/
def timing (z : Zone) : Standard := if z.isPal then .pal else .ntsc

/-- The same territory with a television standard; one that is not known counts as export. -/
def withTiming : Zone → Standard → Zone
  | japanNtsc, .pal | japanPal, .pal => japanPal
  | japanNtsc, .ntsc | japanPal, .ntsc => japanNtsc
  | internationalNtsc, .pal | internationalPal, .pal => internationalPal
  | internationalNtsc, .ntsc | internationalPal, .ntsc => internationalNtsc
  | _, .pal => exportPal
  | _, .ntsc => exportNtsc

theorem timing_withTiming (z : Zone) (s : Standard) : (z.withTiming s).timing = s := by
  cases z <;> cases s <;> rfl

theorem isJapan_withTiming (z : Zone) (s : Standard) : (z.withTiming s).isJapan = z.isJapan := by
  cases z <;> cases s <;> rfl

end Zone

end MasterSystem
