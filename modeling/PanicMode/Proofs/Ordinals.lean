import PanicMode.SyncTable

namespace PanicMode

theorem Situation.map_ordinal_all :
    Situation.all.map Situation.ordinal = List.range Situation.count := by decide

theorem Situation.exists_ordinal_eq {i : Nat} (h : i < Situation.count) :
    ∃ d : Situation, d.ordinal = i := by
  have hm : i ∈ Situation.all.map Situation.ordinal := by
    rw [Situation.map_ordinal_all]
    exact List.mem_range.mpr h
  obtain ⟨d, _, hd⟩ := List.mem_map.mp hm
  exact ⟨d, hd⟩

/-- A number is the ordinal of a situation, or it lies outside the range of the ordinals. -/
theorem Situation.ordinal_or_outside (n : Int) :
    (∃ d : Situation, n = d.ordinal) ∨ ¬(0 ≤ n ∧ n < Situation.count) := by
  by_cases h : 0 ≤ n ∧ n < Situation.count
  · obtain ⟨d, hd⟩ := Situation.exists_ordinal_eq (i := n.toNat) (by omega)
    exact Or.inl ⟨d, by omega⟩
  · exact Or.inr h

theorem Situation.ordinal_inside (d : Situation) :
    0 ≤ (d.ordinal : Int) ∧ (d.ordinal : Int) < Situation.count := by
  have := d.ordinal_lt_count
  omega

theorem Situation.eq_of_ofOrdinal? {n : Int} {d : Situation}
    (h : Situation.ofOrdinal? n = some d) : n = d.ordinal := by
  have found := List.find?_some (p := fun e : Situation => (e.ordinal : Int) == n) h
  exact (beq_iff_eq.mp found).symm

theorem Situation.ofOrdinal?_ordinal (d : Situation) :
    Situation.ofOrdinal? d.ordinal = some d := by
  cases hf : Situation.ofOrdinal? d.ordinal with
  | none => exact absurd (List.find?_eq_none.mp hf d d.mem_all) (by simp)
  | some e =>
    have same := Int.ofNat_inj.mp (Situation.eq_of_ofOrdinal? hf)
    rw [Situation.ordinal_injective same]

theorem Situation.ofOrdinal?_outside {n : Int} (h : ¬(0 ≤ n ∧ n < Situation.count)) :
    Situation.ofOrdinal? n = none := by
  cases hf : Situation.ofOrdinal? n with
  | none => rfl
  | some d => exact absurd (Situation.eq_of_ofOrdinal? hf ▸ d.ordinal_inside) h

theorem Situation.setAt_ordinal (d : Situation) : Situation.setAt d.ordinal = .ok d.set := by
  simp only [Situation.setAt, Situation.ofOrdinal, d.ofOrdinal?_ordinal]
  rfl

theorem Situation.setAt_outside {n : Int} (h : ¬(0 ≤ n ∧ n < Situation.count)) :
    Situation.setAt n = .error ⟨n⟩ := by
  simp only [Situation.setAt, Situation.ofOrdinal, Situation.ofOrdinal?_outside h]
  rfl

end PanicMode
