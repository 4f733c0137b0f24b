import Mathlib.Data.Int.ModEq

/-!
# Words that stand for integers

`Wraps a z` says that the 64-bit word `a` is the integer `z` up to multiples of `2 ^ 64`. Sums and
differences of words wrap, and stand for the sums and differences of the integers all the same. So
nothing has to be known about intermediate results.
-/

namespace Wrapping

def Wraps (a : UInt64) (z : ℤ) : Prop := (a.toNat : ℤ) = z % 2 ^ 64

variable {a b : UInt64} {z w : ℤ}

theorem wraps_toNat (a : UInt64) : Wraps a a.toNat := by
  have hlt := a.toNat_lt
  unfold Wraps
  omega

theorem Wraps.add (ha : Wraps a z) (hb : Wraps b w) : Wraps (a + b) (z + w) := by
  unfold Wraps at *
  rw [UInt64.toNat_add, Int.natCast_mod, Int.natCast_add, ha, hb]
  exact (Int.add_emod z w _).symm

theorem Wraps.sub (ha : Wraps a z) (hb : Wraps b w) : Wraps (a - b) (z - w) := by
  have hlt := b.toNat_lt
  unfold Wraps at *
  rw [UInt64.toNat_sub]
  omega

end Wrapping
