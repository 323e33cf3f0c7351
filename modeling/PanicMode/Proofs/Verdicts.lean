import PanicMode.Proofs.Departures
import PanicMode.Proofs.FirstFault

namespace PanicMode

section

variable {t : Table} {p : Nat} {r : Row}

theorem lt_count_of_getElem? (hlen : t.length = Situation.count) (hr : t[p]? = some r) :
    p < Situation.count := by
  obtain ⟨hp, _⟩ := List.getElem?_eq_some_iff.mp hr
  omega

theorem departures_eq_nil_iff {above : List Row} :
    r.departures above p = [] ↔ r.Sound p ∧ ∀ q ∈ above, q.name ≠ r.name := by
  rw [List.eq_nil_iff_forall_not_mem]
  simp only [mem_departures_iff]
  refine ⟨fun h => ?_, fun h v departs => ?_⟩
  · have named : r.name ≠ "" := fun unnamed => h _ (.emptyName unnamed)
    refine ⟨⟨?_, named, fun empty => h _ (.emptySet empty), fun hk => h _ (.endOfFile hk),
      fun hk => h _ (.error hk)⟩, fun q hq same => h _ (.duplicateName named ⟨q, hq, same⟩)⟩
    by_contra moved
    exact h _ (.outOfPosition moved)
  · obtain ⟨sound, distinct⟩ := h
    cases departs with
    | outOfPosition moved => exact moved sound.inPosition
    | emptyName unnamed => exact sound.named unnamed
    | duplicateName named seen =>
      obtain ⟨q, hq, same⟩ := seen
      exact distinct q hq same
    | emptySet empty => exact sound.inhabited empty
    | endOfFile hk => exact sound.noEndOfFile hk
    | error hk => exact sound.noError hk

theorem reportedAt_eq_nil_iff (hr : t[p]? = some r) :
    t.reportedAt p = [] ↔ r.Sound p ∧ ∀ q ∈ t.take p, q.name ≠ r.name := by
  rw [reportedAt_eq_departures hr, departures_eq_nil_iff]

theorem sound_of_faultAt?_none (hlen : t.length = Situation.count) (hr : t[p]? = some r)
    (h : t.faultAt? p = none) : r.Sound p ∧ ∀ q ∈ t.drop (p + 1), q.name ≠ r.name := by
  have hp := lt_count_of_getElem? hlen hr
  simp only [Table.faultAt?, hr, Option.bind_some] at h
  have unbroken := Row.not_breaks_of_fault? hp h
  refine ⟨(Row.sound_iff _).mpr fun f _ => unbroken f, fun q hq same => ?_⟩
  exact unbroken .repeatedName ⟨q, hq, same⟩

theorem breaks_of_faultAt?_some {f : RowFault} (hlen : t.length = Situation.count)
    (h : t.faultAt? p = some f) :
    ∃ r, t[p]? = some r ∧ r.Breaks p (t.drop (p + 1)) f ∧
      ∀ g ∈ f.earlier, ¬r.Breaks p (t.drop (p + 1)) g := by
  obtain ⟨r, hr, hf⟩ := Option.bind_eq_some_iff.mp h
  exact ⟨r, hr, Row.breaks_of_fault? (lt_count_of_getElem? hlen hr) hf⟩

end

theorem violations_eq_nil_iff {t : Table} : t.violations = [] ↔ t.WellFormed := by
  rw [violations_eq_flatMap, List.append_eq_nil_iff, List.flatMap_eq_nil_iff, wellFormed_iff,
    distinct_iff_earlier]
  refine and_congr (by simp [Table.lengthDepartures]) ⟨fun h => ?_, fun h => ?_⟩
  · have rows : ∀ (p : Nat) (r : Row), t[p]? = some r →
        r.Sound p ∧ ∀ q ∈ t.take p, q.name ≠ r.name := by
      intro p r hr
      obtain ⟨hp, _⟩ := List.getElem?_eq_some_iff.mp hr
      exact (reportedAt_eq_nil_iff hr).mp (h p (List.mem_range.mpr hp))
    exact ⟨fun p r hr => (rows p r hr).1, fun p r hr => (rows p r hr).2⟩
  · obtain ⟨sound, distinct⟩ := h
    intro p hp
    have hr := List.getElem?_eq_getElem (List.mem_range.mp hp)
    exact (reportedAt_eq_nil_iff hr).mpr ⟨sound p _ hr, distinct p _ hr⟩

theorem wellFormed_of_validate {t : Table} (h : t.validate = .ok ()) : t.WellFormed := by
  obtain ⟨hlen, clean⟩ := faultAt?_of_validate_ok h
  have rows := fun (p : Nat) (r : Row) (hr : t[p]? = some r) =>
    sound_of_faultAt?_none hlen hr (clean p)
  rw [wellFormed_iff, distinct_iff_later]
  exact ⟨hlen, fun p r hr => (rows p r hr).1, fun p r hr => (rows p r hr).2⟩

theorem validate_of_wellFormed {t : Table} (h : t.WellFormed) : t.validate = .ok () := by
  obtain ⟨hlen, sound, distinct⟩ := wellFormed_iff.mp h
  cases hv : t.validate with
  | ok => rfl
  | error fault =>
    cases fault with
    | wrongLength => exact absurd hlen (length_of_validate_wrongLength hv)
    | row i f =>
      obtain ⟨_, first, _⟩ := faultAt?_of_validate_row hv
      obtain ⟨r, hr, breaks, _⟩ := breaks_of_faultAt?_some hlen first
      exact absurd breaks ((sound i r hr).not_breaks (distinct_iff_later.mp distinct i r hr) f)

/-- One table passes both validators, and only well-formed tables pass either. -/
theorem validate_ok_iff_no_violations (t : Table) :
    (t.validate = .ok () ↔ t.violations = []) ∧ (t.validate = .ok () ↔ t.WellFormed) := by
  have accepts : t.validate = .ok () ↔ t.WellFormed :=
    ⟨wellFormed_of_validate, validate_of_wellFormed⟩
  exact ⟨accepts.trans violations_eq_nil_iff.symm, accepts⟩

end PanicMode
