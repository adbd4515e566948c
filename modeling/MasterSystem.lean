import MasterSystem.ByteTable
import MasterSystem.Cartridge.Database
import MasterSystem.Cartridge.Header
import MasterSystem.Cartridge.Image
import MasterSystem.Cartridge.Kinds
import MasterSystem.Cheat.Code
import MasterSystem.Cheat.Engine
import MasterSystem.Checksum
import MasterSystem.CommandLine.Arguments
import MasterSystem.CommandLine.Job
import MasterSystem.CommandLine.Session
import MasterSystem.Controls
import MasterSystem.Error
import MasterSystem.Journal
import MasterSystem.Machine.Basic
import MasterSystem.Machine.Mainboard
import MasterSystem.Machine.Memory
import MasterSystem.Machine.Mounts
import MasterSystem.Machine.Picture
import MasterSystem.Machine.Report
import MasterSystem.Machine.Run
import MasterSystem.Machine.Snapshot
import MasterSystem.Main
import MasterSystem.Mapper.Bank
import MasterSystem.Mapper.Basic
import MasterSystem.Mapper.Pages
import MasterSystem.Mapper.Slots
import MasterSystem.Proofs.Machine.Alike
import MasterSystem.Proofs.Machine.Clock
import MasterSystem.Proofs.Machine.Course
import MasterSystem.Proofs.Machine.Reached
import MasterSystem.Proofs.Machine.FirstField
import MasterSystem.Proofs.Machine.Replay
import MasterSystem.Proofs.Machine.Safety
import MasterSystem.Proofs.Machine.Steady
import MasterSystem.Proofs.Machine.Waiting
import MasterSystem.Proofs.Machine.Wiring
import MasterSystem.Proofs.Snapshot.PowerOn
import MasterSystem.Proofs.Snapshot.RoundTrip
import MasterSystem.Proofs.Sound.Safety
import MasterSystem.Proofs.Video.Lines
import MasterSystem.Proofs.Video.Pictures
import MasterSystem.Proofs.Video.Remains
import MasterSystem.Proofs.Video.Safety
import MasterSystem.Proofs.Z80.Simulation
import MasterSystem.Proofs.Z80.Timing
import MasterSystem.Settings
import MasterSystem.Snapshot.Codec
import MasterSystem.Snapshot.Parts
import MasterSystem.Snapshot.State
import MasterSystem.Sound.Chip
import MasterSystem.Sound.Debug
import MasterSystem.Sound.Fm
import MasterSystem.Sound.Fm.Instrument
import MasterSystem.Sound.Fm.Operator
import MasterSystem.Sound.Fm.Tables
import MasterSystem.Sound.Mixer
import MasterSystem.Sound.Psg
import MasterSystem.Sound.Resampler
import MasterSystem.Sound.Sine
import MasterSystem.Sound.StepKernel
import MasterSystem.Sound.Stereo
import MasterSystem.Storage.Basic
import MasterSystem.Storage.Path
import MasterSystem.Storage.Tree
import MasterSystem.Television
import MasterSystem.Text.Blank
import MasterSystem.Text.Document
import MasterSystem.Text.Fields
import MasterSystem.Text.FileName
import MasterSystem.Text.Json
import MasterSystem.Text.Json.Indented
import MasterSystem.Text.Lines
import MasterSystem.Text.Named
import MasterSystem.Text.Numeral
import MasterSystem.Video.Beam
import MasterSystem.Video.Color
import MasterSystem.Video.Debug
import MasterSystem.Video.Frame
import MasterSystem.Video.Pixmap
import MasterSystem.Video.Render.Legacy
import MasterSystem.Video.Render.Mode4
import MasterSystem.Video.Render.Sprite
import MasterSystem.Video.Tile
import MasterSystem.Video.Vdp
import MasterSystem.Word
import MasterSystem.Z80.Arithmetic
import MasterSystem.Z80.Bench
import MasterSystem.Z80.Execute
import MasterSystem.Z80.Instruction
import MasterSystem.Z80.Processor
import MasterSystem.Z80.Registers
import MasterSystem.Z80.Step
import MasterSystem.Proofs.Machine.Resave
import MasterSystem.Proofs.Machine.Place
import MasterSystem.Proofs.Video.Representation
import MasterSystem.Proofs.Sound.Changes
import MasterSystem.Proofs.Sound.Levels
import MasterSystem.Proofs.Sound.Conservation
import MasterSystem.Proofs.Machine.PowerCycle
import MasterSystem.Proofs.Z80.Interrupts
import MasterSystem.Proofs.Z80.Exchange
import MasterSystem.Proofs.Mapper.Windows
import MasterSystem.Proofs.Z80.Strictness
import MasterSystem.Proofs.Video.Glasses
import MasterSystem.Proofs.Sound.Settled
import MasterSystem.Proofs.Machine.Output
import MasterSystem.Proofs.Video.HeldTile
import MasterSystem.Proofs.Sound.WhiteNoise
import MasterSystem.Proofs.Sound.Cuts
import MasterSystem.Proofs.Video.SpriteTables
import MasterSystem.Proofs.Video.SpriteLines
import MasterSystem.Proofs.Video.Overlays
import MasterSystem.Proofs.Z80.BlockCopy
import MasterSystem.Proofs.Z80.BlockSearch
import MasterSystem.Proofs.Z80.Decimal
import MasterSystem.Proofs.Z80.BlockPorts
import MasterSystem.Proofs.Z80.FailedSteps
import MasterSystem.Proofs.Mapper.PagePairs
import MasterSystem.Proofs.Cheat.Grammar
import MasterSystem.Proofs.Cheat.Undoing
import MasterSystem.Proofs.Mapper.PowerOn
import MasterSystem.Proofs.Cheat.Patches
import MasterSystem.Proofs.Video.Phaser
import MasterSystem.Proofs.Video.Time
import MasterSystem.Proofs.Video.Transfers
import MasterSystem.Proofs.Video.LineInterrupts
import MasterSystem.Proofs.Sound.SampleClock
import MasterSystem.Proofs.Sound.Chunks
import MasterSystem.Proofs.Machine.Geometry
import MasterSystem.Proofs.Sound.FmRange
import MasterSystem.Proofs.Sound.FmOperator
import MasterSystem.Proofs.Sound.FmSample
import MasterSystem.Proofs.Machine.Pace
import MasterSystem.Proofs.Cartridge.Listed
