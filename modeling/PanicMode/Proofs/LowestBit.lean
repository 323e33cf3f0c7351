import Mathlib.Algebra.Group.Nat.Defs
import Mathlib.Order.Bounds.Defs
import PanicMode.Cursor

namespace PanicMode

theorem isLeast_ctz {b : BitVec 128} (h : b ≠ 0#128) :
    IsLeast {i | b.getLsbD i = true} b.ctz.toNat := by
  refine ⟨BitVec.getLsbD_true_ctz_of_ne_zero h, fun i hi => Nat.le_of_not_lt fun below => ?_⟩
  have clear := BitVec.getLsbD_false_of_lt_ctz below
  rw [hi] at clear
  cases clear

theorem eq_two_pow_mul_odd {x t : Nat} (low : ∀ i, i < t → x.testBit i = false)
    (set : x.testBit t = true) : ∃ q, x = 2 ^ t * (2 * q + 1) := by
  have rest : x % 2 ^ t = 0 := by
    apply Nat.eq_of_testBit_eq
    intro i
    rw [Nat.testBit_mod_two_pow, Nat.zero_testBit]
    by_cases hi : i < t
    · rw [low i hi, Bool.and_false]
    · simp [hi]
  have odd : x / 2 ^ t % 2 = 1 := by
    rw [Nat.testBit_eq_decide_div_mod_eq] at set
    exact of_decide_eq_true set
  refine ⟨x / 2 ^ t / 2, ?_⟩
  have whole := Nat.div_add_mod x (2 ^ t)
  have half : 2 * (x / 2 ^ t / 2) + 1 = x / 2 ^ t := by omega
  rw [half]
  omega

/-- One less than a word has its lowest set bit cleared and the bits below it set. -/
theorem testBit_and_sub_one (t q i : Nat) :
    (2 ^ t * (2 * q + 1) &&& (2 ^ t * (2 * q + 1) - 1)).testBit i =
      ((2 ^ t * (2 * q + 1)).testBit i && decide (i ≠ t)) := by
  have positive := Nat.two_pow_pos t
  have pred : 2 ^ t * (2 * q + 1) - 1 = 2 ^ t * (2 * q) + (2 ^ t - 1) := by
    rw [Nat.mul_add, Nat.mul_one]
    omega
  rw [pred, Nat.testBit_and, Nat.testBit_two_pow_mul,
    Nat.testBit_two_pow_mul_add _ (by omega : 2 ^ t - 1 < 2 ^ t)]
  rcases Nat.lt_trichotomy i t with below | same | above
  · simp [Nat.not_le.mpr below]
  · subst same
    simp
  · obtain ⟨j, hj⟩ : ∃ j, i - t = j + 1 := ⟨i - t - 1, by omega⟩
    have odd : (2 * q + 1) / 2 = q := by omega
    simp [hj, Nat.testBit_succ, odd, Nat.not_lt.mpr (Nat.le_of_lt above), Nat.ne_of_gt above]

/-- There is something to take one from. -/
theorem toNat_sub_one {b : BitVec 128} (h : b ≠ 0#128) : (b - 1#128).toNat + 1 = b.toNat := by
  have positive : b.toNat ≠ 0 := fun zero => h (BitVec.eq_of_toNat_eq zero)
  have bound := b.isLt
  rw [BitVec.toNat_sub, BitVec.toNat_ofNat]
  omega

theorem toNat_clearLowest {b : BitVec 128} (h : b ≠ 0#128) :
    (clearLowest b).toNat = b.toNat &&& (b.toNat - 1) := by
  rw [clearLowest, BitVec.toNat_and, ← toNat_sub_one h, Nat.add_sub_cancel]

/-- Only the lowest set bit is cleared. -/
theorem getLsbD_clearLowest {b : BitVec 128} (h : b ≠ 0#128) (i : Nat) :
    (clearLowest b).getLsbD i = (b.getLsbD i && decide (i ≠ b.ctz.toNat)) := by
  obtain ⟨q, hq⟩ := eq_two_pow_mul_odd (x := b.toNat) (t := b.ctz.toNat)
    (fun i hi => BitVec.getLsbD_false_of_lt_ctz hi) (BitVec.getLsbD_true_ctz_of_ne_zero h)
  rw [BitVec.getLsbD, BitVec.getLsbD, toNat_clearLowest h, hq]
  exact testBit_and_sub_one _ q i

end PanicMode
