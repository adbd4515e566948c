/-! # Tables indexed by a byte

A function on bytes, evaluated once for each of them.  `look_tabulate` says that looking an
entry up is the same as applying the function. -/

namespace MasterSystem

/-- One entry per byte. -/
abbrev ByteTable (α : Type) := Vector α 256

namespace ByteTable

/-- The table of a function. -/
def tabulate {α : Type} (f : UInt8 → α) : ByteTable α := Vector.ofFn fun i => f (UInt8.ofNat i.val)

/-- The entry of a byte. -/
@[inline] def look {α : Type} (t : ByteTable α) (b : UInt8) : α := Vector.get t b.toFin

theorem get_ofFn {α : Type} {n : Nat} (g : Fin n → α) (i : Fin n) :
    (Vector.ofFn g).get i = g i := by
  simp only [Vector.get, Vector.toArray_ofFn, Array.getElem_ofFn]
  rfl

theorem look_tabulate {α : Type} (f : UInt8 → α) (b : UInt8) : (tabulate f).look b = f b := by
  rw [look, tabulate, get_ofFn]
  exact congrArg f UInt8.ofNat_toNat

end ByteTable

end MasterSystem
