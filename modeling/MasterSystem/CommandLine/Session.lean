import MasterSystem.CommandLine.Job
import MasterSystem.Machine.Report
import MasterSystem.Machine.Run
import MasterSystem.Machine.Snapshot
import MasterSystem.Text.Json.Indented
import MasterSystem.Video.Pixmap

/-! # Sessions

A job carried out without a display: the machine is set up (`Job.setUp`), runs its frames and
reports digests of what it shows and plays (`Job.play`), and leaves files behind (`Job.leave`).

A session reaches its files through `Storage`, in the order in which it needs them; the rest of
what it does to the outside world is in its `Outcome`.  The log is brought up to date before
every access to a file, so a file that is the log and something else at the same time holds what
has been logged by then.  What has been printed before a failure stays printed. -/

namespace MasterSystem.CommandLine

open Text (unlines)

/-! ### Tasks -/

/-- How far a session has come. -/
structure Progress where
  machine : Machine := default
  /-- Lines for the standard output, last one first. -/
  printed : List String := []
  /-- How many of the machine's notes the log has dealt with. -/
  noted : Nat := 0
  /-- Entries of the log for the error output. -/
  complaints : List String := []

/-- A part of a session. -/
abbrev Task (m : Type → Type) := ExceptT Failure (StateT Progress m)

section

variable {m : Type → Type} [Monad m]

/-- Operate the machine. -/
def operate {α : Type} (f : Machine → Machine × Except Error α) : Task m α :=
  ExceptT.mk fun p =>
    let ⟨machine, printed, noted, complaints⟩ := p
    let (machine, r) := f machine
    pure (r.mapError .machine, ⟨machine, printed, noted, complaints⟩)

/-- Print a line. -/
def print (line : String) : Task m Unit :=
  modify fun p => { p with printed := line :: p.printed }

/-- Go on with a result, or fail. -/
def settle {α ε : Type} (wording : ε → Failure) (r : Except ε α) : Task m α :=
  ExceptT.mk (pure (r.mapError wording))

variable [Storage m]

/-! ### Files -/

/-- Entries that a log has not got yet, of a machine that has made some notes. -/
def newEntries (t : Thresholds) (noted : Nat) (notes : Notes) : List String :=
  (t.entriesWithinBudget notes).drop (t.entriesWithinBudget (notes.extract 0 noted)).length

/-- Add entries to the log file; false if there is none or it does not take them. -/
def Job.keep (j : Job) (entries : List String) : m Bool := do
  match j.journalFile with
  | none => return false
  | some path =>
    match ← Storage.append path (unlines entries).toUTF8.data with
    | .ok () => return true
    | .error _ => return false

/-- Bring the log up to date. -/
def Job.updateLog (j : Job) (t : Thresholds) : Task m Unit := do
  let p ← get
  let notes := p.machine.notes
  if p.noted < notes.size then
    let entries := newEntries t p.noted notes
    let kept ← if entries.isEmpty then pure true else (j.keep entries : m Bool)
    modify fun p => {
      p with
      noted := notes.size
      complaints := if kept then p.complaints else p.complaints ++ entries }

/-- The contents of a file. -/
def Job.fetch (j : Job) (t : Thresholds) (path : String) (wording : Storage.Fault → Failure) :
    Task m (Array UInt8) := do
  j.updateLog t
  settle wording (← (Storage.read path : m _))

/-- Write a file. -/
def Job.store (j : Job) (t : Thresholds) (path : String) (bytes : Array UInt8) :
    Task m Unit := do
  j.updateLog t
  settle .storage (← (Storage.write path bytes : m _))

/-! ### Setting up -/

/-- See to it that there is a log file, if the job names one. -/
def Job.openLog (j : Job) : Task m Unit := do
  if let some path := j.journalFile then
    settle .storage (← (Storage.append path #[] : m _))

/-- The settings of the machine. -/
def Job.settings (j : Job) (t : Thresholds) : Task m Settings := do
  match j.config with
  | none => return j.adjust {}
  | some path =>
    let bytes ← j.fetch t path fun _ => .unreadable path
    return j.adjust (← settle id (settingsOf path bytes))

/-- Put everything into the machine that the job names: boot ROM, cartridge, cartridge RAM, cheats
and saved state, in this order. -/
def Job.setUp (j : Job) (t : Thresholds) : Task m Unit := do
  if let some path := j.bootRom then
    let bytes ← j.fetch t path fun _ => .unreadable path
    operate (·.insertBootRom bytes)
  let bytes ← j.fetch t j.rom fun _ => .unreadable j.rom
  operate (·.insert bytes {} (some j.rom))
  if let some path := j.ramIn then
    let bytes ← j.fetch t path .storage
    operate (·.loadRam bytes)
  for code in j.cheats do
    let _ ← operate (·.addCheat code)
  if let some path := j.stateIn then
    let bytes ← j.fetch t path .storage
    operate (·.restore bytes)

/-- Print what is known about the cartridge and the output. -/
def introduce : Task m Unit := do
  let machine := (← get).machine
  print machine.cartridgeInfo.indented
  print machine.outputInfo.indented

end

/-! ### Running -/

/-- All the sound that has been played. -/
structure Played where
  /-- Remainder of the check of its bytes. -/
  remainder : UInt32 := 0xFFFFFFFF
  samples : Nat := 0

/-- More samples, each of which has two bytes, low byte first. -/
def Played.add (d : Played) (samples : Array Int) : Played where
  remainder := samples.foldl (fun r s =>
    let w := UInt16.ofInt s
    Checksum.step (Checksum.step r w.toUInt8) (w >>> 8).toUInt8) d.remainder
  samples := d.samples + samples.size

/-- The check of the bytes. -/
def Played.crc (d : Played) : UInt32 := ~~~d.remainder

/-- The memory for a picture: the largest one has 320 columns and 288 lines of four bytes. -/
def pictureMemory : Array UInt8 := Array.replicate (320 * 288 * 4) 0

/-- Places for the samples of a frame. -/
def sampleLimit : Nat := 8192

/-- The line that reports on a frame.  A pair of samples counts once. -/
def report (m : Machine) (frame : Nat) (video : Array UInt8) (d : Played) : String :=
  let (width, height) := m.outputSize
  let shown := video.extract 0 (width * height * m.settings.pixelFormat.bytesPerPixel)
  "frame " ++ toString frame ++ ": " ++ toString width ++ "x" ++ toString height ++
    " video " ++ Text.hex32 (Checksum.crc32 shown) ++ " audio " ++ Text.hex32 d.crc ++
    " (" ++ toString (d.samples / 2) ++ " samples)"

/-- Whether a frame is reported on: the last one always. -/
def Choices.reports (c : Choices) (frame : Nat) : Bool :=
  frame = c.frames || (0 < c.every && frame % c.every = 0)

/-! ### Sessions -/

/-- What a session leaves behind, apart from files. -/
structure Outcome where
  status : UInt32 := 0
  stdout : String := ""
  stderr : String := ""
deriving DecidableEq, Repr

section

variable {m : Type → Type} [Monad m]

/-- Run the frames that are left. -/
def Job.play (j : Job) : Nat → Played → Task m Unit
  | 0, _ => pure ()
  | left + 1, d => do
    let frame := j.frames - left
    let out ← operate (·.run (some pictureMemory) (some sampleLimit))
    let d := d.add out.samples
    if j.reports frame then
      print (report (← get).machine frame (out.video.getD #[]) d)
    j.play left d

variable [Storage m]

/-- Write the files that the job asks for: the last picture, the state, and the cartridge RAM if
there is any. -/
def Job.leave (j : Job) (t : Thresholds) : Task m Unit := do
  if let some path := j.picture then
    j.store t path (← get).machine.outputFrame.pixmap
  if let some path := j.stateOut then
    let bytes ← operate fun machine => (machine, machine.save)
    j.store t path bytes
  if let some path := j.ramOut then
    if let some bytes := (← get).machine.saveRam then
      j.store t path bytes

/-- The whole job. -/
def Job.perform (j : Job) (t : Thresholds) : Task m Unit := do
  j.openLog
  let s ← j.settings t
  modify fun p => { p with machine := .new s }
  j.setUp t
  introduce
  j.play j.frames {}
  j.leave t

/-- The outcome of a session that has come so far and is over. -/
def Progress.outcome (p : Progress) (result : Except Failure Unit) : Outcome :=
  let stdout := unlines p.printed.reverse
  match result with
  | .ok () => { stdout := stdout, stderr := unlines p.complaints }
  | .error x => {
      status := 1, stdout := stdout
      stderr := unlines (p.complaints ++ ["Error: " ++ x.message]) }

/-- Carry out a job. -/
def Job.run (j : Job) : m Outcome := do
  match j.thresholds with
  | .error x => return Progress.outcome {} (.error x)
  | .ok t =>
    let (result, p) ← ((j.perform t).run.run {} : m _)
    let (_, p) ← ((j.updateLog t).run.run p : m _)
    return p.outcome result

/-- How the program is used. -/
def usage : String :=
  unlines ("usage: [options] IMAGE" :: (Text.Named.names : List (Choice × String)).map fun p =>
    "  " ++ p.1.written ++ if p.1.takesValue then " VALUE" else "")

/-- The session that the arguments give. -/
def session (args : List String) : m Outcome :=
  match Command.parse args with
  | .error x => return { status := 2, stderr := unlines ["error: " ++ x.message] }
  | .ok .help => return { stdout := usage }
  | .ok (.run j) => j.run

end

end MasterSystem.CommandLine
