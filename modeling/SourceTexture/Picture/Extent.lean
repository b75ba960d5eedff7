/-!
# Extents

Lengths and positions on the canvas, and row numbers.

An extent is a natural number that never exceeds `Extent.limit`, the largest
value a 32-bit word holds. Arithmetic on extents is exact until it would pass
the limit and stays at the limit from there on, so a picture that is too large
to address is squeezed against its far edge instead of wrapping round to the
origin. The bound travels inside the type: whoever holds an extent may use
`Extent.val_le` without having to know where it came from.

Both operations are the clamp of the exact result. That is what the `val`
lemmas say, and it is the only thing later proofs need to know: after rewriting
with them a statement about extents is a statement about `min` on natural
numbers.

## Main definitions

* `Extent.limit`: The largest value an extent takes.
* `Extent`: A natural number up to the limit.
* `Extent.clamp`: The extent nearest to a natural number.
* `Extent.ofNat?`: The extent equal to a natural number, if there is one.

## Theorems

* `Extent.val_clamp`: Clamping takes the minimum with the limit.
* `Extent.ofNat?_of_le`: Within the limit both conversions agree.
* `Extent.val_add`: Addition is the clamp of the exact sum.
* `Extent.val_mul`: Multiplication is the clamp of the exact product.
* `Extent.clamp_add_clamp`, `Extent.clamp_mul_clamp`: Clamping goes through sums
  and products.
* `Extent.eq_zero_iff`: An extent is zero exactly if its number is.
* `Extent.val_max`: The maximum is exact.
-/

namespace SourceTexture

/-- The largest value an extent takes. -/
abbrev Extent.limit : Nat := 4294967295

/-- A length, a position or a row number on the canvas. The bound is a field,
    so no operation has to be trusted to respect it. -/
@[ext]
structure Extent where
  /-- The number itself, in pixels or rows. -/
  val : Nat
  /-- No extent lies past the limit. -/
  val_le : val ≤ Extent.limit
  deriving DecidableEq

namespace Extent

/-- The extent nearest to `n`: itself where it fits, the limit above. -/
def clamp (n : Nat) : Extent :=
  ⟨min n limit, Nat.min_le_right n limit⟩

/-- The extent equal to `n`, or `none` where `n` lies past the limit. This is
    the one conversion that does not round. -/
def ofNat? (n : Nat) : Option Extent :=
  if h : n ≤ limit then some ⟨n, h⟩ else none

instance (n : Nat) : OfNat Extent n := ⟨clamp n⟩

/-- Addition that stops at the limit. -/
instance : Add Extent := ⟨fun a b => clamp (a.val + b.val)⟩

/-- Multiplication that stops at the limit. -/
instance : Mul Extent := ⟨fun a b => clamp (a.val * b.val)⟩

instance : Max Extent := ⟨fun a b => if a.val ≤ b.val then b else a⟩

@[simp] theorem val_clamp (n : Nat) : (clamp n).val = min n limit := rfl

theorem val_clamp_of_le {n : Nat} (h : n ≤ limit) : (clamp n).val = n :=
  Nat.min_eq_left h

/-- Within the limit nothing is rounded, so both conversions agree. -/
theorem ofNat?_of_le {n : Nat} (h : n ≤ limit) : ofNat? n = some (clamp n) := by
  rw [ofNat?, dif_pos h, Option.some.injEq, Extent.ext_iff, val_clamp_of_le h]

@[simp] theorem val_add (a b : Extent) : (a + b).val = min (a.val + b.val) limit := rfl

@[simp] theorem val_mul (a b : Extent) : (a * b).val = min (a.val * b.val) limit := rfl

@[simp] theorem clamp_val (a : Extent) : clamp a.val = a :=
  Extent.ext (Nat.min_eq_left a.val_le)

/-- Clamped summands make the clamped sum: what was cut off would have been cut
    off anyway. -/
theorem clamp_add_clamp (m n : Nat) : clamp m + clamp n = clamp (m + n) := by
  apply Extent.ext
  simp only [val_add, val_clamp]
  omega

/-- Clamped factors make the clamped product. -/
theorem clamp_mul_clamp (m n : Nat) : clamp m * clamp n = clamp (m * n) := by
  apply Extent.ext
  simp only [val_mul, val_clamp]
  rcases Nat.eq_zero_or_pos m with hm | hm
  · rw [hm, Nat.zero_min, Nat.zero_mul, Nat.zero_mul]
  rcases Nat.eq_zero_or_pos n with hn | hn
  · rw [hn, Nat.zero_min, Nat.mul_zero, Nat.mul_zero]
  by_cases hlarge : limit ≤ m ∨ limit ≤ n
  · -- One factor is at the limit and the other is not zero.
    have hlimit : 1 ≤ limit := by decide
    have hleft : min m limit * 1 ≤ min m limit * min n limit := Nat.mul_le_mul_left _ (by omega)
    have hright : 1 * min n limit ≤ min m limit * min n limit :=
      Nat.mul_le_mul_right _ (by omega)
    have hm' : m * 1 ≤ m * n := Nat.mul_le_mul_left m hn
    have hn' : 1 * n ≤ m * n := Nat.mul_le_mul_right n hm
    omega
  · rw [Nat.min_eq_left (show m ≤ limit by omega), Nat.min_eq_left (show n ≤ limit by omega)]

@[simp] theorem val_zero : (0 : Extent).val = 0 := rfl

theorem eq_zero_iff (a : Extent) : a = 0 ↔ a.val = 0 := by
  rw [Extent.ext_iff, val_zero]

@[simp] theorem val_max (a b : Extent) : (max a b).val = max a.val b.val := by
  change (if a.val ≤ b.val then b else a).val = max a.val b.val
  split <;> omega

end Extent

end SourceTexture
