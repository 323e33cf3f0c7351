import PanicMode.TerminalSet

namespace PanicMode

theorem Terminal.index_lt_width (k : Terminal) : k.index < 128 :=
  Nat.lt_trans k.index_lt (by decide)

theorem Terminal.getLsbD_bit (k : Terminal) (i : Nat) :
    k.bit.getLsbD i = decide (i = k.index) := by
  have bound := k.index_lt_width
  by_cases h : i = k.index
  · subst i
    simp [Terminal.bit, bound]
  · rcases Nat.lt_or_gt_of_ne h with lt | gt
    · simp [Terminal.bit, h, lt]
    · have hne : i - k.index ≠ 0 := by omega
      simp [Terminal.bit, h, hne]

theorem TerminalSet.ext_bits {s t : TerminalSet} (h : s.bits = t.bits) : s = t := by
  cases s
  cases t
  exact congrArg TerminalSet.mk h

/-- The mask of a terminal meets the word exactly when the bit at its index is set. -/
theorem TerminalSet.mem_iff_getLsbD {s : TerminalSet} {k : Terminal} :
    k ∈ s ↔ s.bits.getLsbD k.index = true := by
  change (s.bits &&& k.bit != 0#128) = true ↔ _
  rw [bne_iff_ne]
  refine ⟨fun hne => ?_, fun hset hzero => ?_⟩
  · cases hbit : s.bits.getLsbD k.index with
    | true => rfl
    | false =>
      refine absurd (BitVec.eq_of_getLsbD_eq fun i _ => ?_) hne
      by_cases hi : i = k.index
      · subst i
        simp [hbit]
      · simp [k.getLsbD_bit, hi]
  · have hbit := congrArg (fun b : BitVec 128 => b.getLsbD k.index) hzero
    simp [hset, k.getLsbD_bit] at hbit

@[simp] theorem TerminalSet.contains_eq_true {s : TerminalSet} {k : Terminal} :
    s.contains k = true ↔ k ∈ s := Iff.rfl

@[simp] theorem TerminalSet.not_mem_empty (k : Terminal) : k ∉ (∅ : TerminalSet) := by
  intro h
  have hbit := mem_iff_getLsbD.mp h
  change (0#128).getLsbD k.index = true at hbit
  simp at hbit

theorem TerminalSet.isEmpty_iff {s : TerminalSet} : s.isEmpty = true ↔ s = ∅ := by
  simp only [TerminalSet.isEmpty, beq_iff_eq]
  exact ⟨fun h => ext_bits h, fun h => congrArg TerminalSet.bits h⟩

end PanicMode
