import MasterSystem.Text.Named

/-! # Binary layouts

A `Codec` writes the values of a type as bytes and reads them back from the front of a byte string.
Numbers have a fixed width and their low byte first.  A part that may be absent has a byte before it
that is zero or one; a list has its length before it, in eight bytes; the values of an enumeration
are numbered, in four.  Parts of a whole follow each other without anything between them. -/

namespace MasterSystem.Snapshot

/-- A way to write values as bytes and to read them back. -/
structure Codec (α : Type) where
  write : α → List UInt8
  /-- The value in front of the input, and the input after it. -/
  read : List UInt8 → Option (α × List UInt8)

namespace Codec

/-! ### Numbers -/

/-- The low `width` bytes of a number, lowest first. -/
def digits : Nat → Nat → List UInt8
  | 0, _ => []
  | width + 1, n => UInt8.ofNat (n % 256) :: digits width (n / 256)

/-- The number that the first `width` bytes write, and the input after them. -/
def ofDigits : Nat → List UInt8 → Option (Nat × List UInt8)
  | 0, bs => some (0, bs)
  | _ + 1, [] => none
  | width + 1, b :: bs => (ofDigits width bs).map fun p => (b.toNat + 256 * p.1, p.2)

/-- How many numbers `width` bytes can write. -/
def range : Nat → Nat
  | 0 => 1
  | width + 1 => 256 * range width

/-- Natural numbers below `range width`. -/
def nat (width : Nat) : Codec Nat := ⟨digits width, ofDigits width⟩

/-- A layout for the values that stand for those of another type. -/
def map {α β : Type} (c : Codec α) (f : α → β) (g : β → α) : Codec β where
  write x := c.write (g x)
  read bs := (c.read bs).map fun p => (f p.1, p.2)

/-- The number in the upper half of the range that is read as negative, and all others as they
are. -/
def signed (width n : Nat) : Int :=
  if 2 * n < range width then n else (n : Int) - range width

/-- Whole numbers in two's complement. -/
def int (width : Nat) : Codec Int :=
  (nat width).map (signed width) fun z => (z % range width).toNat

/-- Bytes. -/
def byte : Codec UInt8 where
  write b := [b]
  read
    | b :: bs => some (b, bs)
    | [] => none

/-- Words. -/
def word : Codec UInt16 := (nat 2).map UInt16.ofNat UInt16.toNat

/-- Double words. -/
def double : Codec UInt32 := (nat 4).map UInt32.ofNat UInt32.toNat

/-- Quadruple words. -/
def quad : Codec UInt64 := (nat 8).map UInt64.ofNat UInt64.toNat

/-- Truth values: no other bytes than zero and one. -/
def bool : Codec Bool where
  write b := [if b then 1 else 0]
  read
    | b :: bs => if b == 0 then some (false, bs) else if b == 1 then some (true, bs) else none
    | [] => none

/-! ### Alternatives -/

/-- The values of a list by their place in it. -/
def choice {α : Type} [BEq α] (values : List α) : Codec α where
  write x := (nat 4).write (values.idxOf x)
  read bs := do
    let (i, bs) ← (nat 4).read bs
    return (← values[i]?, bs)

/-- Named values in the order of their names. -/
def named {α : Type} [DecidableEq α] [Text.Named α] : Codec α :=
  choice (Text.Named.names.map Prod.fst)

/-- A part that may be absent. -/
def option {α : Type} (c : Codec α) : Codec (Option α) where
  write
    | none => bool.write false
    | some x => bool.write true ++ c.write x
  read bs := do
    let (present, bs) ← bool.read bs
    if present then
      let (x, bs) ← c.read bs
      return (some x, bs)
    else return (none, bs)

/-! ### Sequences -/

/-- One part after another. -/
def pair {α β : Type} (c : Codec α) (d : Codec β) : Codec (α × β) where
  write p := c.write p.1 ++ d.write p.2
  read bs := do
    let (x, bs) ← c.read bs
    let (y, bs) ← d.read bs
    return ((x, y), bs)

/-- Read `n` values, after those already read. -/
def readMany {α : Type} (c : Codec α) : Nat → Array α → List UInt8 →
    Option (Array α × List UInt8)
  | 0, xs, bs => some (xs, bs)
  | n + 1, xs, bs =>
    match c.read bs with
    | some (x, bs) => readMany c n (xs.push x) bs
    | none => none

/-- Any number of values, after their count. -/
def array {α : Type} (c : Codec α) : Codec (Array α) where
  write xs := (nat 8).write xs.size ++ xs.toList.flatMap c.write
  read bs := do
    let (n, bs) ← (nat 8).read bs
    c.readMany n #[] bs

/-- A fixed number of values. -/
def vector {α : Type} (n : Nat) (c : Codec α) : Codec (Vector α n) where
  write xs := xs.toList.flatMap c.write
  read bs := do
    let (xs, bs) ← c.readMany n #[] bs
    if h : xs.size = n then return (⟨xs, h⟩, bs) else none

end Codec

end MasterSystem.Snapshot
