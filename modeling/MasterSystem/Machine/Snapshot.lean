import MasterSystem.Machine.Basic
import MasterSystem.Snapshot.State

/-! # Saving and restoring a machine

A state fits any machine with the same image, the same console RAM, the same board with as much RAM
on it, and the same video and sound chips (`corruption?`).  Restoring it replaces everything that
changes while the machine runs; the boot ROM, the settings and the cheats are the machine's own. -/

namespace MasterSystem.Machine

open Snapshot (State)

/-- The state of a machine. -/
def state (m : Machine) : State :=
  let b := m.board
  { regs := m.cpu.regs
    ram := b.memory.ram
    mapper := b.memory.mapper
    bootRomMapped := b.memory.bootRomMapped
    memoryControl := b.memory.control
    vdp := b.vdp
    sound := b.sound
    controls := b.controls
    frameCount := m.frameCount
    frameCycle := m.frameCycle }

/-- The bytes of the machine's state. -/
def save (m : Machine) : Except Error (Array UInt8) :=
  match m.cartridge with
  | none => .error .noCartridge
  | some info => .ok (Snapshot.encode info.crc m.state).toArray

/-- Write the state to the start of a host's memory: the number of bytes written, and the memory. -/
def saveInto (m : Machine) (dst : Array UInt8) : Except Error (Nat × Array UInt8) :=
  match m.save with
  | .error x => .error x
  | .ok bytes =>
    if dst.size < bytes.size then .error (.bufferTooSmall bytes.size dst.size)
    else .ok (bytes.size, bytes ++ dst.extract bytes.size dst.size)

/-- Why a state does not fit a board, if it does not. -/
def corruption? (b : Mainboard) (s : State) : Option Corruption :=
  if s.ram.size ≠ b.memory.ram.size then some (.ramSize s.ram.size b.memory.ram.size)
  else if s.mapper.board ≠ b.memory.mapper.board ∨
      s.mapper.ram.size ≠ b.memory.mapper.ram.size then some (.board s.mapper.board)
  else if s.vdp.model ≠ b.vdp.model ∨ s.sound.fmFitted ≠ b.sound.fmFitted then some .hardware
  else if !s.vdp.displayConsistent then some .display
  else none

/-- A board with what a state holds.  The glasses, the opposite directions and the phaser's aim
follow the settings and the phaser. -/
def restoreBoard (b : Mainboard) (s : State) (settings : Settings) : Mainboard :=
  { b with
    memory := { b.memory with
      ram := s.ram
      mapper := s.mapper
      bootRomMapped := s.bootRomMapped && b.memory.bootRom.isSome
      control := s.memoryControl }
    vdp := ({ s.vdp with glasses := settings.glasses } : Video.Vdp).setPhaserTarget
      (s.controls.phaser.map Phaser.target)
    sound := s.sound
    controls := { s.controls with allowOpposites := settings.allowOpposites }
    cycle := 0 }

/-- Restore a state; one that cannot be used leaves the machine as it is. -/
def restore (m : Machine) (bytes : Array UInt8) : Machine × Except Error Unit :=
  match m.cartridge with
  | none => (m, .error .noCartridge)
  | some info =>
    match Snapshot.decode info.crc bytes.toList with
    | .error x => (m, .error x)
    | .ok s =>
      match corruption? m.board s with
      | some c => (m, .error (.stateDecode c))
      | none =>
        ({ m with
            cpu := { m.cpu with regs := s.regs, bus := restoreBoard m.board s m.settings }
            frameCount := s.frameCount
            frameCycle := s.frameCycle
            paused := false }, .ok ())

end MasterSystem.Machine
