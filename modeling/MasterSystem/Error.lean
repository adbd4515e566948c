import MasterSystem.Cartridge.Kinds
import MasterSystem.Z80.Processor

/-! # What can go wrong

The reasons for which an operation on the machine fails, and the wording of each. -/

namespace MasterSystem

/-- What is wrong with a save state whose header is right. -/
inductive Corruption where
  /-- The bytes do not follow the layout. -/
  | layout
  /-- The console's RAM has another size. -/
  | ramSize (found expected : Nat)
  /-- The cartridge has another board, or more or less RAM on it. -/
  | board (found : Board)
  /-- The console has another video chip or other sound chips. -/
  | hardware
  /-- The picture does not have the shape of a field. -/
  | display
deriving DecidableEq, Repr

/-- The wording of a corruption; a broken layout is described no further. -/
def Corruption.message : Corruption → String
  | layout => "malformed layout"
  | ramSize found expected =>
    "RAM is " ++ toString found ++ " bytes, expected " ++ toString expected
  | board found => "state is for a " ++ Text.name found ++ " cartridge"
  | hardware => "state is for different hardware"
  | display => "malformed display field"

/-- Why an operation failed. -/
inductive Error where
  | romTooSmall (size : Nat)
  | unsupportedMapper (size : Nat)
  | noCartridge
  | invalidMountPoint (id : String)
  | stateTooSmall (size : Nat)
  | stateMagic
  | stateVersion (version : UInt32)
  | stateChecksum (expected found : UInt32)
  | stateDecode (reason : Corruption)
  | bufferTooSmall (needed got : Nat)
  | invalidCheat (code : String)
  | ramSizeMismatch (expected got : Nat)
  /-- The processor met an opcode without meaning. -/
  | cpu (fault : Z80.Fault)
  /-- A file could not be read. -/
  | io
deriving DecidableEq, Repr

/-- The name of a kind of error, for hosts that tell errors apart. -/
def Error.kind : Error → String
  | romTooSmall _ => "RomTooSmall"
  | unsupportedMapper _ => "UnsupportedMapper"
  | noCartridge => "NoCartridge"
  | invalidMountPoint _ => "InvalidMountPoint"
  | stateTooSmall _ => "StateTooSmall"
  | stateMagic => "StateMagic"
  | stateVersion _ => "StateVersion"
  | stateChecksum .. => "StateChecksum"
  | stateDecode _ => "StateDecode"
  | bufferTooSmall .. => "BufferTooSmall"
  | invalidCheat _ => "InvalidCheat"
  | ramSizeMismatch .. => "RamSizeMismatch"
  | cpu _ => "Cpu"
  | io => "Io"

/-- The wording of an error. -/
def Error.message : Error → String
  | romTooSmall size => "ROM image too small (" ++ toString size ++ " bytes)"
  | unsupportedMapper size => "no supported mapper for a " ++ toString size ++ "-byte image"
  | noCartridge => "no cartridge loaded"
  | invalidMountPoint id => "invalid mount point: " ++ id
  | stateTooSmall size => "save state truncated (" ++ toString size ++ " bytes)"
  | stateMagic => "not a save state"
  | stateVersion version => "unsupported save state version " ++ toString version
  | stateChecksum expected found =>
    "save state belongs to ROM " ++ Text.hex32 found ++ ", loaded ROM is " ++ Text.hex32 expected
  | stateDecode reason => "corrupt save state: " ++ reason.message
  | bufferTooSmall needed got =>
    "buffer too small: need " ++ toString needed ++ " bytes, got " ++ toString got
  | invalidCheat code => "invalid cheat code: " ++ code
  | ramSizeMismatch expected got =>
    "cartridge RAM is " ++ toString expected ++ " bytes, got " ++ toString got
  | cpu fault => fault.message
  | io => "file cannot be read"

end MasterSystem
