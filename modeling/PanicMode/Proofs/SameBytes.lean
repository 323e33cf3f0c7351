import PanicMode.Fault

namespace PanicMode

theorem byteArray_getElem?_exists {a : ByteArray} {i : Nat} (h : i < a.size) :
    ∃ x, a[i]? = some x :=
  ⟨a[i], getElem?_pos a i h⟩

/-- A stretch that lies inside both arrays is read without a missing byte, and the answer says
whether all of its bytes agree. -/
theorem bytesAgree?_inside {a b : ByteArray} (n : Nat) {i : Nat}
    (ha : i + n ≤ a.size) (hb : i + n ≤ b.size) :
    ∃ answer, bytesAgree? a b i n = some answer ∧
      (answer = true ↔ ∀ j, i ≤ j → j < i + n → a[j]? = b[j]?) := by
  induction n generalizing i with
  | zero =>
    refine ⟨true, rfl, fun _ j hl hr => ?_, fun _ => rfl⟩
    omega
  | succ n ih =>
    obtain ⟨x, hx⟩ := byteArray_getElem?_exists (a := a) (i := i) (by omega)
    obtain ⟨y, hy⟩ := byteArray_getElem?_exists (a := b) (i := i) (by omega)
    simp only [bytesAgree?, hx, hy, Option.bind_eq_bind, Option.bind_some]
    split
    next same =>
      obtain ⟨answer, hr, hiff⟩ := ih (i := i + 1) (by omega) (by omega)
      refine ⟨answer, hr, hiff.trans ⟨fun agree j hl hr => ?_, fun agree j hl hr => ?_⟩⟩
      · by_cases hj : j = i
        · subst j
          rw [hx, hy, same]
        · exact agree j (by omega) (by omega)
      · exact agree j (by omega) (by omega)
    next differ =>
      refine ⟨false, rfl, fun h => Bool.noConfusion h, fun agree => ?_⟩
      have same := agree i (by omega) (by omega)
      rw [hx, hy] at same
      exact absurd (Option.some.inj same) differ

theorem byteArray_eq_of_agree {a b : ByteArray} (size : a.size = b.size)
    (agree : ∀ j, j < a.size → a[j]? = b[j]?) : a = b := by
  apply ByteArray.ext_getElem size
  intro i hi hj
  have same := agree i hi
  rw [getElem?_pos a i hi, getElem?_pos b i hj] at same
  exact Option.some.inj same

/-- Arrays of one size are read to the end, or to the first difference, without a missing byte. -/
theorem bytesAgree?_whole {a b : ByteArray} (size : a.size = b.size) :
    ∃ answer, bytesAgree? a b 0 a.size = some answer ∧ (answer = true ↔ a = b) := by
  obtain ⟨answer, hr, hiff⟩ :=
    bytesAgree?_inside (a := a) (b := b) a.size (i := 0) (by omega) (by omega)
  refine ⟨answer, hr, hiff.trans ⟨fun agree => ?_, fun same j _ _ => ?_⟩⟩
  · exact byteArray_eq_of_agree size (fun j hj => agree j (by omega) (by omega))
  · rw [same]

theorem sameBytes_iff_toUTF8 {a b : String} : sameBytes a b = true ↔ a.toUTF8 = b.toUTF8 := by
  simp only [sameBytes, Bool.and_eq_true, beq_iff_eq]
  refine ⟨fun h => ?_, fun same => ?_⟩
  · obtain ⟨size, agree⟩ := h
    obtain ⟨answer, hr, hiff⟩ := bytesAgree?_whole size
    exact hiff.mp (Option.some.inj (hr.symm.trans agree))
  · have size := congrArg ByteArray.size same
    obtain ⟨answer, hr, hiff⟩ := bytesAgree?_whole size
    exact ⟨size, by rw [hr, hiff.mpr same]⟩

theorem toUTF8_inj {a b : String} : a.toUTF8 = b.toUTF8 ↔ a = b := by
  rw [String.toUTF8_eq_toByteArray, String.toUTF8_eq_toByteArray, String.toByteArray_inj]

theorem sameBytes_iff {a b : String} : sameBytes a b = true ↔ a = b :=
  sameBytes_iff_toUTF8.trans toUTF8_inj

end PanicMode
