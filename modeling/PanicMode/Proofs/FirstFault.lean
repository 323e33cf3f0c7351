import Mathlib.Logic.Basic
import PanicMode.Fault
import PanicMode.Proofs.Ordinals
import PanicMode.Proofs.SetMembers
import PanicMode.Proofs.WellFormed

namespace PanicMode

/-- The row at position `p` breaks the rule that the fault stands for. -/
def Row.Breaks (r : Row) (p : Nat) (later : List Row) : RowFault → Prop
  | .unlisted => False
  | .outOfPosition => r.situation.ordinal ≠ p
  | .emptyName => r.name = ""
  | .emptySet => r.set = ∅
  | .nonResuming => .endOfFile ∈ r.set ∨ .error ∈ r.set
  | .repeatedName => ∃ q ∈ later, q.name = r.name

/-- The faults whose rules a row is held against first. -/
def RowFault.earlier : RowFault → List RowFault
  | .unlisted => []
  | .outOfPosition => [.unlisted]
  | .emptyName => [.unlisted, .outOfPosition]
  | .emptySet => [.unlisted, .outOfPosition, .emptyName]
  | .nonResuming => [.unlisted, .outOfPosition, .emptyName, .emptySet]
  | .repeatedName => [.unlisted, .outOfPosition, .emptyName, .emptySet, .nonResuming]

theorem Situation.listed {i : Nat} (h : i < Situation.count) :
    Situation.all[i]?.map Situation.ordinal = some i := by
  rw [← List.getElem?_map, Situation.map_ordinal_all, List.getElem?_range h]

theorem any_nonResuming_iff {s : TerminalSet} :
    nonResuming.any s.contains = true ↔ .endOfFile ∈ s ∨ .error ∈ s := by
  simp [nonResuming]

theorem any_sameBytes_iff {r : Row} {later : List Row} :
    later.any (fun q => sameBytes r.name q.name) = true ↔ ∃ q ∈ later, q.name = r.name := by
  simp only [List.any_eq_true, sameBytes_iff]
  exact exists_congr fun q => and_congr_right fun _ => eq_comm

theorem Row.breaks_of_fault? {r : Row} {p : Nat} {later : List Row} {f : RowFault}
    (hp : p < Situation.count) (h : r.fault? p later = some f) :
    r.Breaks p later f ∧ ∀ g ∈ f.earlier, ¬r.Breaks p later g := by
  simp only [Row.fault?, Situation.listed hp, ne_eq, not_true, if_false, String.isEmpty_iff,
    TerminalSet.isEmpty_iff, any_nonResuming_iff, any_sameBytes_iff] at h
  split at h
  next position =>
    cases h
    simp [Row.Breaks, RowFault.earlier, position]
  next position =>
    split at h
    next name =>
      cases h
      simp [Row.Breaks, RowFault.earlier, not_not.mp position, name]
    next name =>
      split at h
      next set =>
        cases h
        simp [Row.Breaks, RowFault.earlier, not_not.mp position, name, set]
      next set =>
        split at h
        next resuming =>
          cases h
          simp [Row.Breaks, RowFault.earlier, not_not.mp position, name, set, resuming]
        next resuming =>
          split at h
          next repeated =>
            cases h
            simp [Row.Breaks, RowFault.earlier, not_not.mp position, name, set, not_or.mp resuming,
              repeated]
          next => cases h

theorem Row.not_breaks_of_fault? {r : Row} {p : Nat} {later : List Row}
    (hp : p < Situation.count) (h : r.fault? p later = none) (f : RowFault) :
    ¬r.Breaks p later f := by
  simp only [Row.fault?, Situation.listed hp, ne_eq, not_true, if_false, String.isEmpty_iff,
    TerminalSet.isEmpty_iff, any_nonResuming_iff, any_sameBytes_iff, ite_eq_iff, reduceCtorEq,
    and_false, false_or, and_true] at h
  obtain ⟨position, named, inhabited, resuming, distinct⟩ := h
  cases f with
  | unlisted => exact id
  | outOfPosition => exact position
  | emptyName => exact named
  | emptySet => exact inhabited
  | nonResuming => exact resuming
  | repeatedName => exact distinct

theorem Row.sound_iff {r : Row} {p : Nat} (later : List Row) :
    r.Sound p ↔ ∀ f ∈ RowFault.repeatedName.earlier, ¬r.Breaks p later f := by
  simp only [RowFault.earlier, List.forall_mem_cons, List.not_mem_nil, false_implies,
    implies_true, and_true, Row.Breaks, not_false_eq_true, true_and, not_or, ne_eq, not_not]
  exact ⟨fun h => ⟨h.inPosition, h.named, h.inhabited, h.noEndOfFile, h.noError⟩,
    fun ⟨position, named, inhabited, noEndOfFile, noError⟩ =>
      ⟨position, named, inhabited, noEndOfFile, noError⟩⟩

theorem Row.Sound.not_breaks {r : Row} {p : Nat} {later : List Row} (h : r.Sound p)
    (distinct : ∀ q ∈ later, q.name ≠ r.name) (f : RowFault) : ¬r.Breaks p later f := by
  have sound := (Row.sound_iff later).mp h
  cases f with
  | repeatedName =>
    intro ⟨q, hq, same⟩
    exact distinct q hq same
  | _ => exact sound _ (by simp [RowFault.earlier])

/-- The first broken rule of the row at a position. -/
def Table.faultAt? (t : Table) (p : Nat) : Option RowFault :=
  t[p]?.bind (fun r => r.fault? p (t.drop (p + 1)))

theorem faultAt?_append_cons {above later : List Row} {r : Row} :
    Table.faultAt? (above ++ r :: later) above.length = r.fault? above.length later := by
  simp [Table.faultAt?, List.drop_append, List.drop_eq_nil_of_le (Nat.le_succ above.length)]

theorem firstRowFault?_some (above : List Row) {rest : List Row} {i : Nat} {f : RowFault}
    (h : Table.firstRowFault? above.length rest = some (i, f)) :
    Table.faultAt? (above ++ rest) i = some f ∧
      ∀ p, above.length ≤ p → p < i → Table.faultAt? (above ++ rest) p = none := by
  induction rest generalizing above with
  | nil => simp [Table.firstRowFault?] at h
  | cons r later ih =>
    simp only [Table.firstRowFault?] at h
    split at h
    next g hg =>
      obtain ⟨hi, hf⟩ := Prod.mk.inj (Option.some.inj h)
      subst hi; subst hf
      refine ⟨faultAt?_append_cons.trans hg, fun p hl hr => ?_⟩
      omega
    next hg =>
      have shift : above ++ r :: later = (above ++ [r]) ++ later := by simp
      have hh := ih (above ++ [r]) (by simpa using h)
      rw [← shift] at hh
      refine ⟨hh.1, fun p hl hr => ?_⟩
      by_cases hp : p = above.length
      · subst p
        exact faultAt?_append_cons.trans hg
      · exact hh.2 p (by simp; omega) hr

theorem firstRowFault?_none (above : List Row) {rest : List Row}
    (h : Table.firstRowFault? above.length rest = none) {p : Nat} (hp : above.length ≤ p) :
    Table.faultAt? (above ++ rest) p = none := by
  induction rest generalizing above with
  | nil => simp [Table.faultAt?, List.getElem?_eq_none hp]
  | cons r later ih =>
    simp only [Table.firstRowFault?] at h
    split at h
    next => simp at h
    next hg =>
      by_cases hl : p = above.length
      · subst p
        exact faultAt?_append_cons.trans hg
      · have shift : above ++ r :: later = (above ++ [r]) ++ later := by simp
        rw [shift]
        exact ih (above ++ [r]) (by simpa using h) (by simp; omega)

theorem faultAt?_of_validate_ok {t : Table} (h : t.validate = .ok ()) :
    t.length = Situation.count ∧ ∀ p, t.faultAt? p = none := by
  unfold Table.validate at h
  split at h
  next => cases h
  next hlen =>
    split at h
    next => cases h
    next hf => exact ⟨not_not.mp hlen, fun p => firstRowFault?_none [] hf (Nat.zero_le p)⟩

theorem length_of_validate_wrongLength {t : Table} (h : t.validate = .error .wrongLength) :
    t.length ≠ Situation.count := by
  unfold Table.validate at h
  split at h
  next hlen => exact hlen
  next =>
    split at h
    next => cases h
    next => cases h

/-- A refused row is the first one that breaks a rule. -/
theorem faultAt?_of_validate_row {t : Table} {i : Nat} {f : RowFault}
    (h : t.validate = .error (.row i f)) :
    t.length = Situation.count ∧ t.faultAt? i = some f ∧ ∀ p, p < i → t.faultAt? p = none := by
  unfold Table.validate at h
  split at h
  next => cases h
  next hlen =>
    split at h
    next j g hf =>
      cases h
      obtain ⟨first, before⟩ := firstRowFault?_some [] hf
      exact ⟨not_not.mp hlen, first, fun p hp => before p (Nat.zero_le p) hp⟩
    next => cases h

end PanicMode
