import MasterSystem.Machine.Basic
import MasterSystem.Video.Debug

/-! # What a machine tells its host

The documents that a host can ask for: the size and rate of the output, and a snapshot of the
registers for a debugger. -/

namespace MasterSystem

open Text (Json name)

/-- The registers as a document. -/
def Z80.Registers.toJson (r : Z80.Registers) : Json :=
  let word (w : UInt16) : Json := .nat w.toNat
  let byte (b : UInt8) : Json := .nat b.toNat
  .object [("af", word r.af), ("bc", word r.bc), ("de", word r.de), ("hl", word r.hl),
    ("af_prime", word r.afAlt), ("bc_prime", word r.bcAlt), ("de_prime", word r.deAlt),
    ("hl_prime", word r.hlAlt), ("ix", word r.ix), ("iy", word r.iy), ("sp", word r.sp),
    ("pc", word r.pc), ("wz", word r.wz), ("i", byte r.i), ("r", byte r.r),
    ("iff1", .bool r.iff1), ("iff2", .bool r.iff2), ("im", byte r.im), ("halted", .bool r.halted),
    ("irq_line", .bool r.irqLine), ("nmi_pending", .bool r.nmiPending),
    ("ei_pending", .bool r.eiPending), ("cycles", .nat r.cycles.toNat)]

/-- Fields in a second, to the nearest whole number. -/
def Standard.nominalRate : Standard → Nat
  | .ntsc => 60
  | .pal => 50

namespace Machine

/-- The television standard. -/
def timing (m : Machine) : Standard := m.board.vdp.timing

/-- The territory of the cartridge. -/
def zone (m : Machine) : Zone := (m.cartridge.map (·.zone)).getD .unknown

/-- Size and rate of the output. -/
def outputInfo (m : Machine) : Json :=
  let (width, height) := m.outputSize
  .object [("width", .nat width), ("height", .nat height), ("zone", .string (name m.zone)),
    ("frame_rate", .nat m.timing.nominalRate), ("frame_rate_hz", .decimal m.timing.frameRate),
    ("sample_rate", .nat m.board.sound.sampleRate)]

/-- What is known about the cartridge, or null. -/
def cartridgeInfo (m : Machine) : Json :=
  match m.cartridge with
  | some i => i.toJson
  | none => .null

/-- What a debugger shows of the machine. -/
def debugState (m : Machine) : Json :=
  .object [("cpu", m.cpu.regs.toJson), ("vdp", m.board.vdp.debugState),
    ("cartridge", m.cartridgeInfo), ("frame", .nat m.frameCount),
    ("frame_cycle", .nat m.frameCycle), ("paused", .bool m.paused),
    ("memory_control", .nat m.board.memory.control.toNat),
    ("bios_mapped", .bool m.board.memory.bootRomMapped),
    ("undocumented_opcodes", .nat m.cpu.audit.undocumented),
    ("unassigned_opcodes", .nat m.cpu.audit.unassigned),
    ("cheats", .array (m.cheats.codes.map .string))]

end Machine

end MasterSystem
