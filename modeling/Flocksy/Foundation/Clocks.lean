import Mathlib

/-!
# Clocks

A clock goes as fast as real time and shows a number of 64 bits. Who sleeps until it shows a
deadline sleeps for a signed number, and not at all if this is negative. Two sleepers with
clocks of their own wake together if and only if the clocks agree or both are late.
-/

structure Clock where
  ahead : ℤ

namespace Clock

def read (c : Clock) (instant : ℤ) : UInt64 := UInt64.ofInt (instant + c.ahead)

/-- By how much the first clock is ahead of the second one. -/
def lead (c d : Clock) : UInt64 := UInt64.ofInt (c.ahead - d.ahead)

/-- What the deadline is away by, as the sleeper computes it. -/
def remaining (c : Clock) (deadline : UInt64) (instant : ℤ) : ℤ :=
  (deadline - c.read instant).toInt64.toInt

/-- When the sleeper that begins at the instant wakes. -/
def wakes (c : Clock) (deadline : UInt64) (instant : ℤ) : ℤ :=
  instant + max 0 (c.remaining deadline instant)

variable {c d : Clock} {deadline : UInt64} {instant : ℤ}

theorem ofInt_sub (x y : ℤ) : UInt64.ofInt (x - y) = UInt64.ofInt x - UInt64.ofInt y := by
  rw [sub_eq_add_neg, UInt64.ofInt_add, UInt64.ofInt_neg, UInt64.sub_eq_add_neg]

theorem toInt_toInt64 (x : UInt64) : x.toInt64.toInt = (x.toNat : ℤ).bmod (2 ^ 64) := by
  rw [Int64.toInt, UInt64.toBitVec_toInt64, BitVec.toInt_eq_toNat_bmod, UInt64.toNat_toBitVec]

theorem ofInt_toInt64 (x : UInt64) : UInt64.ofInt x.toInt64.toInt = x := by
  have hmod : (x.toNat : ℤ).bmod (2 ^ 64) % ((2 ^ 64 : ℕ) : ℤ) = x.toNat := by
    rw [Int.bmod_emod]
    exact Int.emod_eq_of_lt (by positivity) (by exact_mod_cast x.toNat_lt)
  rw [toInt_toInt64, UInt64.ofInt, show (2 : ℤ) ^ 64 = ((2 ^ 64 : ℕ) : ℤ) by norm_num, hmod,
    Int.toNat_natCast, UInt64.ofNat_toNat]

theorem read_sub_read (c d : Clock) (instant : ℤ) : c.read instant - d.read instant = c.lead d := by
  rw [read, read, lead, ← ofInt_sub]
  congr 1
  ring

theorem read_add (c : Clock) (instant duration : ℤ) :
    c.read (instant + duration) = c.read instant + UInt64.ofInt duration := by
  rw [read, read, ← UInt64.ofInt_add]
  congr 1
  ring

theorem wakes_of_late (h : c.remaining deadline instant ≤ 0) :
    c.wakes deadline instant = instant := by
  rw [wakes, max_eq_left h, add_zero]

theorem lt_wakes (h : 0 < c.remaining deadline instant) : instant < c.wakes deadline instant := by
  rw [wakes, max_eq_right h.le]
  exact lt_add_of_pos_right _ h

/-- A sleeper that is not late wakes when the clock shows the deadline. -/
theorem read_wakes (h : 0 < c.remaining deadline instant) :
    c.read (c.wakes deadline instant) = deadline := by
  rw [wakes, max_eq_right h.le, read_add, remaining, ofInt_toInt64, UInt64.add_comm,
    UInt64.sub_add_cancel]

theorem wakes_eq_iff : c.wakes deadline instant = d.wakes deadline instant ↔
    c.lead d = 0 ∨ c.remaining deadline instant ≤ 0 ∧ d.remaining deadline instant ≤ 0 := by
  constructor
  · intro heq
    rcases le_or_gt (c.remaining deadline instant) 0 with hc | hc
    · rcases le_or_gt (d.remaining deadline instant) 0 with hd | hd
      · exact .inr ⟨hc, hd⟩
      · have hlt := lt_wakes hd
        rw [← heq, wakes_of_late hc] at hlt
        exact absurd hlt (lt_irrefl _)
    · rcases le_or_gt (d.remaining deadline instant) 0 with hd | hd
      · have hlt := lt_wakes hc
        rw [heq, wakes_of_late hd] at hlt
        exact absurd hlt (lt_irrefl _)
      · -- both clocks show the deadline at the instant at which they wake
        have hshown := read_wakes hc
        rw [heq] at hshown
        have hlead := read_sub_read c d (d.wakes deadline instant)
        rw [hshown, read_wakes hd, UInt64.sub_self] at hlead
        exact .inl hlead.symm
  · rintro (hlead | ⟨hc, hd⟩)
    · have hread : c.read instant = d.read instant := by
        rw [← UInt64.sub_add_cancel (c.read instant) (d.read instant), read_sub_read, hlead,
          UInt64.zero_add]
      rw [wakes, wakes, remaining, remaining, hread]
    · rw [wakes_of_late hc, wakes_of_late hd]

end Clock
