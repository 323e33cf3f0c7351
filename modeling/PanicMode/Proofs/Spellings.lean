import Mathlib.Data.List.Nodup
import PanicMode.Spelling

namespace PanicMode

theorem sameUpToCase_iff {a b : String} :
    sameUpToCase a b = true ↔ a.toList.map Char.toUpper = b.toList.map Char.toUpper :=
  beq_iff_eq

namespace Terminal

theorem newline_not_mem_spelling (k : Terminal) : '\n' ∉ k.spelling.toList := by
  cases k <;> decide +kernel

theorem backquote_not_mem_spelling (k : Terminal) : '`' ∉ k.spelling.toList := by
  cases k <;> decide +kernel

theorem comma_mem_spelling_iff {k : Terminal} : ',' ∈ k.spelling.toList ↔ k = .comma := by
  cases k <;> decide +kernel

/-- The only spelling with a comma has nothing after it. -/
theorem comma_blank_not_infix_spelling (k : Terminal) : ¬[',', ' '] <:+: k.spelling.toList := by
  intro h
  have comma : k = .comma := comma_mem_spelling_iff.mp (h.subset (by simp))
  subst comma
  have short := h.length_le
  simp [spelling] at short

theorem spelling_ne_empty (k : Terminal) : k.spelling ≠ "" := by
  cases k <;> decide +kernel

variable {k l : Terminal} {text other : String}

/-- No two spellings differ only in case. -/
theorem eq_of_sameUpToCase_spelling (h : sameUpToCase k.spelling l.spelling = true) : k = l := by
  have distinct : (all.map fun k => k.spelling.toList.map Char.toUpper).Nodup := by decide +kernel
  exact List.inj_on_of_nodup_map distinct k.mem_all l.mem_all (sameUpToCase_iff.mp h)

theorem spelling_injective (h : k.spelling = l.spelling) : k = l :=
  eq_of_sameUpToCase_spelling (sameUpToCase_iff.mpr (by rw [h]))

theorem sameUpToCase_of_isWrittenAs (h : k.isWrittenAs text = true) :
    sameUpToCase k.spelling text = true := by
  unfold isWrittenAs at h
  split at h
  next => exact h
  next => rw [beq_iff_eq.mp h, sameUpToCase_iff]

/-- A text writes one terminal at most, so it does not matter that the first one is taken. -/
theorem eq_of_isWrittenAs (hk : k.isWrittenAs text = true) (hl : l.isWrittenAs text = true) :
    k = l := by
  apply eq_of_sameUpToCase_spelling
  rw [sameUpToCase_iff, sameUpToCase_iff.mp (sameUpToCase_of_isWrittenAs hk),
    sameUpToCase_iff.mp (sameUpToCase_of_isWrittenAs hl)]

/-- In whatever order all terminals are searched, what is found is what the text writes. -/
theorem find?_isWrittenAs_eq_some_iff {order : List Terminal} (complete : ∀ k, k ∈ order) :
    order.find? (·.isWrittenAs text) = some k ↔ k.isWrittenAs text = true := by
  refine ⟨fun h => List.find?_some (p := fun l : Terminal => l.isWrittenAs text) h, fun h => ?_⟩
  cases hf : order.find? (·.isWrittenAs text) with
  | none => exact absurd h (List.find?_eq_none.mp hf k (complete k))
  | some l =>
    have found := List.find?_some (p := fun l : Terminal => l.isWrittenAs text) hf
    rw [eq_of_isWrittenAs found h]

theorem ofSpelling?_eq_some_iff : ofSpelling? text = some k ↔ k.isWrittenAs text = true :=
  find?_isWrittenAs_eq_some_iff mem_all

@[simp] theorem ofSpelling?_spelling (k : Terminal) : ofSpelling? k.spelling = some k := by
  rw [ofSpelling?_eq_some_iff, isWrittenAs]
  split
  next => exact sameUpToCase_iff.mpr rfl
  next => exact beq_self_eq_true _

theorem ofSpelling?_of_sameUpToCase (h : ofSpelling? text = some k) (reserved : k.isReserved = true)
    (same : sameUpToCase text other = true) : ofSpelling? other = some k := by
  have written := sameUpToCase_of_isWrittenAs (ofSpelling?_eq_some_iff.mp h)
  rw [ofSpelling?_eq_some_iff, isWrittenAs, if_pos reserved, sameUpToCase_iff,
    sameUpToCase_iff.mp written, sameUpToCase_iff.mp same]

end Terminal

end PanicMode
