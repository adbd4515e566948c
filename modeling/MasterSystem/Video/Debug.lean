import MasterSystem.Text.Json
import MasterSystem.Video.Vdp

/-! # A snapshot of the video processor

The registers and counters of the chip as a document, for a debugger to show. -/

namespace MasterSystem.Video

open Text in
/-- What a debugger shows of the chip. -/
def Vdp.debugState (v : Vdp) : Json :=
  .object [
    ("model", .string (name v.model)),
    ("registers", .array ((v.regs.toList.take 11).map fun b => .nat b.toNat)),
    ("status", .nat v.status.toNat),
    ("address", .nat v.address.toNat),
    ("code", .nat v.code.toNat),
    ("line", .nat v.line),
    ("v_counter", .nat v.vCounter.toNat),
    ("line_counter", .nat v.lineCounter.toNat),
    ("mode4", .bool v.mode4),
    ("active_height", .nat v.activeHeight)]

end MasterSystem.Video
