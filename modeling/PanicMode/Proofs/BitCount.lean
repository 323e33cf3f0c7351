import PanicMode.Proofs.CursorSuffixes

namespace PanicMode

/-- The positions of the set bits of a word. -/
def setBits (b : BitVec 128) : Finset Nat := (Finset.range 128).filter (b.getLsbD · = true)

section

variable {b : BitVec 128}

theorem mem_setBits {i : Nat} : i ∈ setBits b ↔ b.getLsbD i = true := by
  rw [setBits, Finset.mem_filter, Finset.mem_range]
  exact and_iff_right_of_imp BitVec.lt_of_getLsbD

theorem card_setBits (b : BitVec 128) : (setBits b).card = b.cpop.toNat := by
  rw [BitVec.toNat_cpop, cpopNatRec_eq_card, setBits]

theorem cpop_eq_zero_iff : b.cpop.toNat = 0 ↔ b = 0#128 := by
  rw [← card_setBits, Finset.card_eq_zero, Finset.eq_empty_iff_forall_notMem]
  simp only [mem_setBits, Bool.not_eq_true]
  refine ⟨fun clear => ?_, fun zero i => ?_⟩
  · apply BitVec.eq_of_getLsbD_eq
    intro i _
    rw [clear i, BitVec.getLsbD_zero]
  · rw [zero, BitVec.getLsbD_zero]

theorem setBits_clearLowest (h : b ≠ 0#128) :
    setBits (clearLowest b) = (setBits b).erase b.ctz.toNat := by
  ext i
  rw [Finset.mem_erase, mem_setBits, mem_setBits, getLsbD_clearLowest h, Bool.and_eq_true,
    decide_eq_true_eq, and_comm]

theorem cpop_clearLowest (h : b ≠ 0#128) : (clearLowest b).cpop.toNat + 1 = b.cpop.toNat := by
  have lowest : b.ctz.toNat ∈ setBits b := mem_setBits.mpr (isLeast_ctz h).1
  rw [← card_setBits, ← card_setBits, setBits_clearLowest h, Finset.card_erase_add_one lowest]

end

theorem iterate_clearLowest_eq_zero_iff (b : BitVec 128) (n : Nat) :
    clearLowest^[n] b = 0#128 ↔ b.cpop.toNat ≤ n := by
  induction n generalizing b with
  | zero => rw [Function.iterate_zero_apply, Nat.le_zero, cpop_eq_zero_iff]
  | succ n ih =>
    rw [Function.iterate_succ_apply, ih]
    by_cases zero : b = 0#128
    · have spent : clearLowest 0#128 = 0#128 := rfl
      have count := cpop_eq_zero_iff.mpr zero
      rw [zero] at count
      rw [zero, spent]
      omega
    · have step := cpop_clearLowest zero
      omega

theorem bits_next (c : Cursor) : c.next.2.bits = clearLowest c.bits := by
  unfold Cursor.next
  split
  next zero =>
    rw [zero]
    rfl
  next => rfl

theorem bits_after (c : Cursor) (n : Nat) : (c.after n).bits = clearLowest^[n] c.bits := by
  induction n generalizing c with
  | zero => rfl
  | succ n ih => rw [Cursor.after, ih, bits_next, Function.iterate_succ_apply]

/-- A step clears the lowest set bit of any word and nothing else, and the word of a cursor is zero
after as many steps as it has set bits, and not before. -/
theorem lowest_bit_step_exact :
    (∀ b : BitVec 128, b ≠ 0#128 →
      IsLeast {i | b.getLsbD i = true} b.ctz.toNat ∧
      (clearLowest b).getLsbD b.ctz.toNat = false ∧
      (∀ i, i ≠ b.ctz.toNat → (clearLowest b).getLsbD i = b.getLsbD i) ∧
      (b - 1#128).toNat + 1 = b.toNat ∧ (clearLowest b).toNat < b.toNat ∧
      (clearLowest b).cpop.toNat + 1 = b.cpop.toNat) ∧
    ∀ (c : Cursor) (n : Nat), (c.after n).bits = clearLowest^[n] c.bits ∧
      (clearLowest^[n] c.bits = 0#128 ↔ c.bits.cpop.toNat ≤ n) := by
  refine ⟨fun b h => ⟨isLeast_ctz h, ?_, fun i hi => ?_, toNat_sub_one h, clearLowest_lt h,
    cpop_clearLowest h⟩, fun c n => ⟨bits_after c n, iterate_clearLowest_eq_zero_iff c.bits n⟩⟩
  · simp [getLsbD_clearLowest h]
  · simp [getLsbD_clearLowest h, hi]

/-- A word with two low bits and the highest one. -/
def outerBits : BitVec 128 := 0x80000000000000000000000000000028#128

theorem outerBits_cleared_in_three_steps :
    outerBits ≠ 0#128 ∧ IsLeast {i | outerBits.getLsbD i = true} 3 ∧
    (clearLowest outerBits).getLsbD 3 = false ∧ (clearLowest outerBits).getLsbD 127 = true ∧
    (clearLowest outerBits).cpop.toNat + 1 = 3 ∧
    clearLowest^[3] outerBits = 0#128 ∧ clearLowest^[2] outerBits ≠ 0#128 := by
  have filled : outerBits ≠ 0#128 := by decide
  have lowest : outerBits.ctz.toNat = 3 := by decide +kernel
  have count : outerBits.cpop.toNat = 3 := by decide +kernel
  obtain ⟨steps, runs⟩ := lowest_bit_step_exact
  obtain ⟨least, cleared, kept, _, _, fewer⟩ := steps outerBits filled
  have run := fun n => (runs ⟨outerBits⟩ n).2
  simp only [lowest, count] at least cleared kept fewer run
  exact ⟨filled, least, cleared, (kept 127 (by decide)).trans (by decide), fewer,
    (run 3).mpr (by decide), fun zero => absurd ((run 2).mp zero) (by decide)⟩

end PanicMode
