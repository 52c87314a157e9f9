/-!
# Byte counts

A byte count is a 64-bit word. Adding to it stops at the largest word instead of
starting over.

## Main definitions

* `addSaturating a b` — the sum of two counts, at most `2 ^ 64 - 1`.
* `toNat_addSaturating` — what that means for numbers without a bound.
-/

namespace TransferBoard

/-- The sum of two byte counts, or the largest count when the sum is too large. -/
def addSaturating (a b : UInt64) : UInt64 :=
  if a.toNat + b.toNat < UInt64.size then a + b else 0xFFFFFFFFFFFFFFFF

/-- The saturating sum is the sum, cut at the largest count. -/
theorem toNat_addSaturating (a b : UInt64) :
    (addSaturating a b).toNat = min 0xFFFFFFFFFFFFFFFF (a.toNat + b.toNat) := by
  unfold addSaturating
  split
  · next h => rw [UInt64.toNat_add]; simp only [UInt64.size] at h; omega
  · next h =>
    have hmax : (0xFFFFFFFFFFFFFFFF : UInt64).toNat = 0xFFFFFFFFFFFFFFFF := by decide
    simp only [UInt64.size] at h
    omega

/-- The part of `a` above `b`, or nothing when `b` is the larger one. -/
def subSaturating (a b : UInt64) : UInt64 := if b ≤ a then a - b else 0

end TransferBoard
