import PanicMode.Proofs.SameBytes
import PanicMode.Table

namespace PanicMode

/-- What is asked of a row at a position, whatever the other rows are. -/
structure Row.Sound (r : Row) (p : Nat) : Prop where
  inPosition : r.situation.ordinal = p
  named : r.name ≠ ""
  inhabited : r.set ≠ ∅
  noEndOfFile : .endOfFile ∉ r.set
  noError : .error ∉ r.set

/-- One sound row for each situation, at its ordinal, and no name twice. -/
structure Table.WellFormed (t : Table) : Prop where
  length_eq : t.length = 17
  sound : ∀ (p : Nat) (r : Row), t[p]? = some r → r.Sound p
  distinct : t.Pairwise (fun r q => r.name.toUTF8 ≠ q.name.toUTF8)

section

variable {t : Table} {p : Nat} {q : Row}

theorem mem_take_iff_getElem? : q ∈ t.take p ↔ ∃ j, j < p ∧ t[j]? = some q := by
  rw [List.mem_iff_getElem?]
  refine exists_congr fun j => ?_
  rw [List.getElem?_take]
  split
  next hj => simp [hj]
  next hj => simp [hj]

theorem mem_drop_iff_getElem? : q ∈ t.drop p ↔ ∃ j, p ≤ j ∧ t[j]? = some q := by
  rw [List.mem_iff_getElem?]
  refine ⟨fun h => ?_, fun h => ?_⟩
  · obtain ⟨j, hj⟩ := h
    rw [List.getElem?_drop] at hj
    exact ⟨p + j, by omega, hj⟩
  · obtain ⟨j, hp, hj⟩ := h
    refine ⟨j - p, ?_⟩
    rw [List.getElem?_drop, show p + (j - p) = j by omega]
    exact hj

end

/-- No two rows have one name. -/
def Table.Distinct (t : Table) : Prop :=
  ∀ (i j : Nat) (r q : Row), i < j → t[i]? = some r → t[j]? = some q → r.name ≠ q.name

theorem pairwise_iff_distinct {t : Table} :
    t.Pairwise (fun r q => r.name.toUTF8 ≠ q.name.toUTF8) ↔ t.Distinct := by
  rw [List.pairwise_iff_getElem]
  refine ⟨fun h i j r q lt hi hj same => ?_, fun h i j hi hj lt same => ?_⟩
  · obtain ⟨hi, ei⟩ := List.getElem?_eq_some_iff.mp hi
    obtain ⟨hj, ej⟩ := List.getElem?_eq_some_iff.mp hj
    apply h i j hi hj lt
    rw [ei, ej, same]
  · exact h i j _ _ lt (List.getElem?_eq_getElem hi) (List.getElem?_eq_getElem hj)
      (toUTF8_inj.mp same)

theorem distinct_iff_later {t : Table} :
    t.Distinct ↔ ∀ (p : Nat) (r : Row), t[p]? = some r → ∀ q ∈ t.drop (p + 1), q.name ≠ r.name := by
  refine ⟨fun h p r hr q hq same => ?_, fun h i j r q lt hi hj same => ?_⟩
  · obtain ⟨j, hj, hq⟩ := mem_drop_iff_getElem?.mp hq
    exact h p j r q (by omega) hr hq same.symm
  · exact h i r hi q (mem_drop_iff_getElem?.mpr ⟨j, by omega, hj⟩) same.symm

theorem distinct_iff_earlier {t : Table} :
    t.Distinct ↔ ∀ (p : Nat) (r : Row), t[p]? = some r → ∀ q ∈ t.take p, q.name ≠ r.name := by
  refine ⟨fun h p r hr q hq same => ?_, fun h i j r q lt hi hj same => ?_⟩
  · obtain ⟨j, hj, hq⟩ := mem_take_iff_getElem?.mp hq
    exact h j p q r hj hq hr same
  · exact h j q hj r (mem_take_iff_getElem?.mpr ⟨i, lt, hi⟩) same

theorem wellFormed_iff {t : Table} :
    t.WellFormed ↔ t.length = 17 ∧ (∀ (p : Nat) (r : Row), t[p]? = some r → r.Sound p) ∧ t.Distinct :=
  ⟨fun h => ⟨h.length_eq, h.sound, pairwise_iff_distinct.mp h.distinct⟩,
    fun h => ⟨h.1, h.2.1, pairwise_iff_distinct.mpr h.2.2⟩⟩

end PanicMode
