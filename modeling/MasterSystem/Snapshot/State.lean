import MasterSystem.Error
import MasterSystem.Snapshot.Parts

/-! # Save states

Everything about a machine that changes while it runs, as bytes.  The bytes start with a mark, the
version of the layout and the checksum of the cartridge's image, which is not part of the state
itself.  Bytes after the state are ignored. -/

namespace MasterSystem.Snapshot

/-- What a save state holds. -/
structure State where
  regs : Z80.Registers
  ram : Array UInt8
  mapper : Mapper
  bootRomMapped : Bool
  memoryControl : UInt8
  vdp : Video.Vdp
  sound : Sound.Mixer
  controls : Controls
  frameCount : Nat
  frameCycle : Nat
deriving DecidableEq, Repr

/-- The layout of a state. -/
def state : Codec State :=
  (registers.pair <| Codec.byte.array.pair <| mapper.pair <| Codec.bool.pair <| Codec.byte.pair <|
    video.pair <| mixer.pair <| controls.pair <| (Codec.nat 8).pair (Codec.nat 4)).map
    (fun (regs, ram, mapper, bootRomMapped, memoryControl, vdp, sound, controls, frameCount,
        frameCycle) =>
      { regs, ram, mapper, bootRomMapped, memoryControl, vdp, sound, controls, frameCount
        frameCycle })
    (fun s => (s.regs, s.ram, s.mapper, s.bootRomMapped, s.memoryControl, s.vdp, s.sound,
      s.controls, s.frameCount, s.frameCycle))

/-! ### Header -/

/-- The bytes `SMSQ`. -/
def magic : List UInt8 := [0x53, 0x4D, 0x53, 0x51]

/-- The version of the layout. -/
def version : UInt32 := 1

/-- Bytes in front of a state: the mark, the version and a checksum. -/
def headerSize : Nat := 12

/-- The header of a state for an image with checksum `crc`. -/
def header (crc : UInt32) : List UInt8 :=
  magic ++ Codec.double.write version ++ Codec.double.write crc

/-- The bytes of a state for an image with checksum `crc`. -/
def encode (crc : UInt32) (s : State) : List UInt8 := header crc ++ state.write s

/-- The double word in front of a byte string. -/
def doubleAt (bs : List UInt8) : UInt32 := ((Codec.double.read bs).map Prod.fst).getD 0

/-- The state that bytes hold for an image with checksum `crc`. -/
def decode (crc : UInt32) (bs : List UInt8) : Except Error State :=
  let found := doubleAt (bs.drop 8)
  if bs.length < headerSize then .error (.stateTooSmall bs.length)
  else if bs.take 4 ≠ magic then .error .stateMagic
  else if doubleAt (bs.drop 4) ≠ version then .error (.stateVersion (doubleAt (bs.drop 4)))
  else if found ≠ crc then .error (.stateChecksum crc found)
  else
    match state.read (bs.drop headerSize) with
    | some (s, _) => .ok s
    | none => .error (.stateDecode .layout)

end MasterSystem.Snapshot
