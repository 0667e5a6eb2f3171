import Mathlib.Data.Nat.Bitwise

/-!
# Numbers that share their highest bits

A range of addresses is given by one of its addresses and the number of highest bits
that all of them share.
-/

namespace Lib.Prefixes

/-- The highest `len` of `width` bits. -/
def mask (width len : Nat) : Nat := ((2 ^ width - 1) <<< (width - len)) % 2 ^ width

/-- Two numbers of `width` bits share the highest `len`. -/
def Shares (width len base x : Nat) : Prop := x >>> (width - len) = base >>> (width - len)

instance (width len base x : Nat) : Decidable (Shares width len base x) :=
  inferInstanceAs (Decidable (_ = _))

variable {width len x y : Nat}

/-- Masking puts zeros in the place of the lowest bits. -/
theorem and_mask (hx : x < 2 ^ width) :
    x &&& mask width len = (x >>> (width - len)) <<< (width - len) := by
  refine Nat.eq_of_testBit_eq fun i => ?_
  simp only [mask, Nat.testBit_and, Nat.testBit_mod_two_pow, Nat.testBit_shiftLeft,
    Nat.testBit_two_pow_sub_one, Nat.testBit_shiftRight]
  by_cases hlow : width - len ≤ i
  · have hsum : width - len + (i - (width - len)) = i := by omega
    by_cases hhigh : i < width
    · have hshift : i - (width - len) < width := by omega
      simp [hlow, hhigh, hshift, hsum]
    · have hzero : x.testBit i = false :=
        Nat.testBit_lt_two_pow (hx.trans_le (Nat.pow_le_pow_right (by decide) (Nat.le_of_not_lt hhigh)))
      simp [hlow, hsum, hzero]
  · simp [hlow]

/-- Equal under the mask: the highest bits are shared. -/
theorem and_mask_eq_iff (hx : x < 2 ^ width) (hy : y < 2 ^ width) :
    x &&& mask width len = y &&& mask width len ↔ Shares width len y x := by
  rw [and_mask hx, and_mask hy, Shares]
  refine ⟨fun h => ?_, fun h => by rw [h]⟩
  simpa only [Nat.shiftLeft_shiftRight] using congrArg (· >>> (width - len)) h

end Lib.Prefixes
