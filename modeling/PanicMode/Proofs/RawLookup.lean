import PanicMode.Proofs.Lookup
import PanicMode.Proofs.Ordinals

namespace PanicMode

theorem syncTable_wellFormed : syncTable.WellFormed := wellFormed_of_validate rfl

theorem violations_syncTable : syncTable.violations = [] :=
  violations_eq_nil_iff.mpr syncTable_wellFormed

namespace Situation

theorem situation_row (d : Situation) : d.row.situation = d :=
  syncTable_wellFormed.situation_of_rowAt? (rowAt?_syncTable d)

theorem row_eq (d : Situation) : d.row = ⟨d, d.name, d.set⟩ :=
  congrArg (fun e => Row.mk e d.name d.set) d.situation_row

theorem named?_eq_some_iff {text : String} {d : Situation} :
    named? text = some d ↔ text = d.name := by
  refine syncTable_wellFormed.named?_eq_some_iff.trans ⟨fun h => ?_, fun h => ?_⟩
  · obtain ⟨r, hr, same⟩ := h
    rw [rowAt?_syncTable] at hr
    cases Option.some.inj hr
    exact same.symm
  · exact ⟨d.row, rowAt?_syncTable d, h.symm⟩

theorem name_injective {d e : Situation} (h : d.name = e.name) : d = e := by
  have found := named?_eq_some_iff.mpr h
  rw [named?_eq_some_iff.mpr rfl] at found
  exact Option.some.inj found

theorem mem_resumingAt_iff {k : Terminal} {d : Situation} : d ∈ resumingAt k ↔ k ∈ d.set := by
  refine syncTable_wellFormed.mem_resumingAt_iff.trans ⟨fun h => ?_, fun h => ?_⟩
  · obtain ⟨r, hr, hk⟩ := h
    rw [rowAt?_syncTable] at hr
    cases Option.some.inj hr
    exact hk
  · exact ⟨d.row, rowAt?_syncTable d, h⟩

/-- Every lookup by the number answers from the row of the situation. -/
structure FoundAt (n : Int) (d : Situation) : Prop where
  ordinal_eq : (d.ordinal : Int) = n
  isOrdinal_eq : isOrdinal n = true
  ofOrdinal?_eq : ofOrdinal? n = some d
  ofOrdinal_eq : ofOrdinal n = .ok d
  setAt_eq : setAt n = .ok d.set
  nameAt_eq : nameAt n = .ok d.name
  row_eq : syncTable[n.toNat]? = some ⟨d, d.name, d.set⟩

/-- No lookup knows the number, and every error carries it. -/
structure RefusedAt (n : Int) : Prop where
  isOrdinal_eq : isOrdinal n = false
  ofOrdinal?_eq : ofOrdinal? n = none
  ofOrdinal_eq : ofOrdinal n = .error ⟨n⟩
  setAt_eq : setAt n = .error ⟨n⟩
  nameAt_eq : nameAt n = .error ⟨n⟩

theorem ofOrdinal_ordinal (d : Situation) : ofOrdinal d.ordinal = .ok d := by
  simp only [ofOrdinal, d.ofOrdinal?_ordinal]

theorem ofOrdinal_outside {n : Int} (h : ¬(0 ≤ n ∧ n < count)) : ofOrdinal n = .error ⟨n⟩ := by
  simp only [ofOrdinal, ofOrdinal?_outside h]

theorem foundAt_ordinal (d : Situation) : FoundAt d.ordinal d where
  ordinal_eq := rfl
  isOrdinal_eq := by rw [isOrdinal, d.ofOrdinal?_ordinal, Option.isSome_some]
  ofOrdinal?_eq := d.ofOrdinal?_ordinal
  ofOrdinal_eq := d.ofOrdinal_ordinal
  setAt_eq := d.setAt_ordinal
  nameAt_eq := by
    rw [nameAt, d.ofOrdinal_ordinal]
    rfl
  row_eq := by
    rw [← d.row_eq]
    exact rowAt?_syncTable d

theorem refusedAt_outside {n : Int} (h : ¬(0 ≤ n ∧ n < count)) : RefusedAt n where
  isOrdinal_eq := by rw [isOrdinal, ofOrdinal?_outside h, Option.isSome_none]
  ofOrdinal?_eq := ofOrdinal?_outside h
  ofOrdinal_eq := ofOrdinal_outside h
  setAt_eq := setAt_outside h
  nameAt_eq := by
    rw [nameAt, ofOrdinal_outside h]
    rfl

theorem foundAt_or_refusedAt (n : Int) :
    (∃ d, FoundAt n d) ∧ (0 ≤ n ∧ n < 17) ∨ RefusedAt n ∧ ¬(0 ≤ n ∧ n < 17) := by
  rcases ordinal_or_outside n with ⟨d, hd⟩ | outside
  · rw [hd]
    exact Or.inl ⟨⟨d, d.foundAt_ordinal⟩, d.ordinal_inside⟩
  · exact Or.inr ⟨refusedAt_outside outside, outside⟩

end Situation

/-- A number is looked up alike by every function that takes one, and a name belongs to the
situation that has it. -/
theorem raw_lookups_agree :
    (∀ n : Int,
      (Situation.isOrdinal n = true ↔ 0 ≤ n ∧ n < 17) ∧
      ((∃ d, Situation.ofOrdinal? n = some d) ↔ 0 ≤ n ∧ n < 17) ∧
      ((∃ d, Situation.ofOrdinal n = .ok d) ↔ 0 ≤ n ∧ n < 17) ∧
      ((∃ s, Situation.setAt n = .ok s) ↔ 0 ≤ n ∧ n < 17) ∧
      ((∃ name, Situation.nameAt n = .ok name) ↔ 0 ≤ n ∧ n < 17) ∧
      (0 ≤ n ∧ n < 17 → ∃ d, Situation.FoundAt n d) ∧
      (¬(0 ≤ n ∧ n < 17) → Situation.RefusedAt n)) ∧
    (∀ text d, Situation.named? text = some d ↔ text.toUTF8 = d.name.toUTF8) := by
  refine ⟨fun n => ?_, fun text d => Situation.named?_eq_some_iff.trans toUTF8_inj.symm⟩
  rcases Situation.foundAt_or_refusedAt n with ⟨⟨d, found⟩, inside⟩ | ⟨refused, outside⟩
  · have valid := iff_of_true found.isOrdinal_eq inside
    exact ⟨valid, iff_of_true ⟨d, found.ofOrdinal?_eq⟩ inside,
      iff_of_true ⟨d, found.ofOrdinal_eq⟩ inside, iff_of_true ⟨_, found.setAt_eq⟩ inside,
      iff_of_true ⟨_, found.nameAt_eq⟩ inside, fun _ => ⟨d, found⟩, fun h => absurd inside h⟩
  · simp [refused.isOrdinal_eq, refused.ofOrdinal?_eq, refused.ofOrdinal_eq, refused.setAt_eq,
      refused.nameAt_eq, outside, refused]

theorem last_ordinal_found_and_next_refused :
    (0 ≤ (16 : Int) ∧ (16 : Int) < 17) ∧ (∃ d, Situation.FoundAt 16 d) ∧
    ¬(0 ≤ (4294967312 : Int) ∧ (4294967312 : Int) < 17) ∧ Situation.RefusedAt 4294967312 := by
  have inside : 0 ≤ (16 : Int) ∧ (16 : Int) < 17 := by omega
  have outside : ¬(0 ≤ (4294967312 : Int) ∧ (4294967312 : Int) < 17) := by omega
  obtain ⟨_, _, _, _, _, found, _⟩ := raw_lookups_agree.1 16
  obtain ⟨_, _, _, _, _, _, refused⟩ := raw_lookups_agree.1 4294967312
  exact ⟨inside, found inside, outside, refused outside⟩

end PanicMode
