import Mathlib

/-!
# Signed integers of a machine

An expression over the integers of a machine has the value of the same expression over `ℤ`, as long
as each of its parts fits into the width; where one does not, where the divisor is zero, or where
the distance of a shift is not a position, it has none.
-/

namespace SignedInts

variable {w : ℕ} {x y : ℤ}

def fit (w : ℕ) (x : ℤ) : Option ℤ := if -2 ^ (w - 1) ≤ x ∧ x < 2 ^ (w - 1) then some x else none

/-- `x / y`, cut towards zero. -/
def quotient (w : ℕ) (x y : ℤ) : Option ℤ := if y = 0 then none else fit w (x.tdiv y)

/-- `x << k`, where nothing is shifted into the sign or behind it. -/
def shiftLeft (w : ℕ) (x k : ℤ) : Option ℤ :=
  if x < 0 ∨ k < 0 ∨ w ≤ k then none else fit w (x * 2 ^ k.toNat)

theorem fit_eq (hlow : -2 ^ (w - 1) ≤ x) (hhigh : x < 2 ^ (w - 1)) : fit w x = some x :=
  if_pos ⟨hlow, hhigh⟩

theorem fit_natCast {n : ℕ} (h : n < 2 ^ (w - 1)) : fit w n = some (n : ℤ) := by
  refine fit_eq (le_trans (neg_nonpos.2 (by positivity)) (Int.natCast_nonneg n)) ?_
  exact_mod_cast h

theorem quotient_natCast {m n : ℕ} (hn : 0 < n) (hm : m < 2 ^ (w - 1)) :
    quotient w m n = some ((m / n : ℕ) : ℤ) := by
  have htdiv : (m : ℤ).tdiv n = ((m / n : ℕ) : ℤ) := rfl
  rw [quotient, if_neg (by omega), htdiv]
  exact fit_natCast ((Nat.div_le_self m n).trans_lt hm)

theorem shiftLeft_natCast {m k : ℕ} (hk : k < w) (hm : m * 2 ^ k < 2 ^ (w - 1)) :
    shiftLeft w m k = some ((m * 2 ^ k : ℕ) : ℤ) := by
  have hcast : (m : ℤ) * 2 ^ k = ((m * 2 ^ k : ℕ) : ℤ) := by push_cast; rfl
  rw [shiftLeft, if_neg (by omega), Int.toNat_natCast, hcast]
  exact fit_natCast hm

end SignedInts
