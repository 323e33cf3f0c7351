import PanicMode.Proofs.Verdicts
import PanicMode.SyncTable

namespace PanicMode

theorem mem_and_name_of_find? {t : Table} {name : String} {r : Row}
    (h : t.find? (fun q => q.name == name) = some r) : r ∈ t ∧ r.name = name := by
  have same := List.find?_some h
  exact ⟨List.mem_of_find?_eq_some h, beq_iff_eq.mp same⟩

namespace Table.WellFormed

variable {t : Table} (h : t.WellFormed)

include h

theorem exists_rowAt? (d : Situation) : ∃ r, t.rowAt? d = some r := by
  have hd : d.ordinal < t.length := by
    rw [h.length_eq]
    exact d.ordinal_lt_count
  exact ⟨t[d.ordinal], List.getElem?_eq_getElem hd⟩

theorem situation_of_rowAt? {d : Situation} {r : Row} (hr : t.rowAt? d = some r) :
    r.situation = d :=
  Situation.ordinal_injective (h.sound d.ordinal r hr).inPosition

theorem rowAt?_situation {i : Nat} {r : Row} (hr : t[i]? = some r) :
    t.rowAt? r.situation = some r := by
  rw [Table.rowAt?, (h.sound i r hr).inPosition, hr]

theorem rowAt?_of_mem {r : Row} (hr : r ∈ t) : t.rowAt? r.situation = some r := by
  obtain ⟨i, hi⟩ := List.mem_iff_getElem?.mp hr
  exact h.rowAt?_situation hi

theorem eq_of_name_eq {r q : Row} (hr : r ∈ t) (hq : q ∈ t) (same : r.name = q.name) : r = q := by
  obtain ⟨i, hi⟩ := List.mem_iff_getElem?.mp hr
  obtain ⟨j, hj⟩ := List.mem_iff_getElem?.mp hq
  have distinct := pairwise_iff_distinct.mp h.distinct
  rcases Nat.lt_trichotomy i j with hlt | heq | hgt
  · exact absurd same (distinct i j r q hlt hi hj)
  · subst heq
    exact Option.some.inj (hi.symm.trans hj)
  · exact absurd same.symm (distinct j i q r hgt hj hi)

/-- The first row with a name is the only one. -/
theorem named?_eq_some_iff {name : String} {d : Situation} :
    t.named? name = some d ↔ ∃ r, t.rowAt? d = some r ∧ r.name = name := by
  refine ⟨fun hn => ?_, fun hn => ?_⟩
  · obtain ⟨r, hf, hd⟩ := Option.map_eq_some_iff.mp hn
    obtain ⟨hm, same⟩ := mem_and_name_of_find? hf
    subst hd
    exact ⟨r, h.rowAt?_of_mem hm, same⟩
  · obtain ⟨r, hr, same⟩ := hn
    have hm : r ∈ t := List.mem_of_getElem? hr
    cases hf : t.find? (fun q => q.name == name) with
    | none => exact absurd (List.find?_eq_none.mp hf r hm) (by simp [same])
    | some q =>
      obtain ⟨hq, hqn⟩ := mem_and_name_of_find? hf
      have hrq := h.eq_of_name_eq hm hq (same.trans hqn.symm)
      rw [Table.named?, hf, ← hrq, Option.map_some, h.situation_of_rowAt? hr]

theorem pairwise_ordinal : t.Pairwise (fun r q => r.situation.ordinal < q.situation.ordinal) := by
  rw [List.pairwise_iff_getElem]
  intro i j hi hj hij
  have hri := (h.sound i _ (List.getElem?_eq_getElem hi)).inPosition
  have hrj := (h.sound j _ (List.getElem?_eq_getElem hj)).inPosition
  omega

theorem resumingAt_pairwise (k : Terminal) :
    (t.resumingAt k).Pairwise (fun d e => d.ordinal < e.ordinal) :=
  List.pairwise_map.mpr (h.pairwise_ordinal.filter _)

theorem mem_resumingAt_iff {k : Terminal} {d : Situation} :
    d ∈ t.resumingAt k ↔ ∃ r, t.rowAt? d = some r ∧ r.set.contains k = true := by
  rw [Table.resumingAt, List.mem_map]
  refine exists_congr fun r => ⟨fun hr => ?_, fun hr => ?_⟩
  · obtain ⟨hf, hd⟩ := hr
    obtain ⟨hm, hk⟩ := List.mem_filter.mp hf
    subst hd
    exact ⟨h.rowAt?_of_mem hm, hk⟩
  · obtain ⟨hd, hk⟩ := hr
    exact ⟨List.mem_filter.mpr ⟨List.mem_of_getElem? hd, hk⟩, h.situation_of_rowAt? hd⟩

end Table.WellFormed

/-- In a table that passes, the row at the ordinal of a situation, the first row with a name and
the rows that hold a terminal are found alike. -/
theorem lookups_agree_of_validate {t : Table} (h : t.validate = .ok ()) :
    (∀ d, ∃ r, t.rowAt? d = some r ∧ r.situation = d ∧
      ∀ i q, t[i]? = some q → q.situation = d → i = d.ordinal) ∧
    (∀ name d, t.named? name = some d ↔ ∃ r, t.rowAt? d = some r ∧ r.name = name) ∧
    (∀ k, (t.resumingAt k).Pairwise (fun d e => d.ordinal < e.ordinal) ∧ (t.resumingAt k).Nodup ∧
      ∀ d, d ∈ t.resumingAt k ↔ ∃ r, t.rowAt? d = some r ∧ r.set.contains k = true) := by
  have wf := wellFormed_of_validate h
  refine ⟨fun d => ?_, fun name d => wf.named?_eq_some_iff, fun k => ?_⟩
  · obtain ⟨r, hr⟩ := wf.exists_rowAt? d
    refine ⟨r, hr, wf.situation_of_rowAt? hr, fun i q hq hd => ?_⟩
    rw [← hd, (wf.sound i q hq).inPosition]
  · have increasing := wf.resumingAt_pairwise k
    refine ⟨increasing, increasing.imp fun hlt same => ?_, fun d => wf.mem_resumingAt_iff⟩
    rw [same] at hlt
    omega

theorem rowAt?_syncTable (d : Situation) : syncTable.rowAt? d = some d.row :=
  List.getElem?_eq_getElem d.ordinal_lt_length_syncTable

theorem syncTable_lookups_agree :
    syncTable.validate = .ok () ∧ (∀ name d, Situation.named? name = some d ↔ d.name = name) ∧
    ∀ k d, d ∈ Situation.resumingAt k ↔ d.set.contains k = true := by
  have passes : syncTable.validate = .ok () := rfl
  obtain ⟨_, names, resuming⟩ := lookups_agree_of_validate passes
  refine ⟨passes, fun name d => ?_, fun k d => ?_⟩
  · refine (names name d).trans ?_
    rw [rowAt?_syncTable]
    simp [Situation.name]
  · refine ((resuming k).2.2 d).trans ?_
    rw [rowAt?_syncTable]
    simp [Situation.set]

end PanicMode
