import PanicMode.Proofs.Verdicts
import PanicMode.SyncTable

namespace PanicMode

/-- The row at a position breaks the rule of a fault, given the rows below it. -/
def Table.BreaksAt (t : Table) (p : Nat) (f : RowFault) : Prop :=
  ∃ r, t[p]? = some r ∧ r.Breaks p (t.drop (p + 1)) f

/-- No pair of a row and a rule is broken before this one. Rows come before rules. -/
structure Table.FirstBroken (t : Table) (i : Nat) (f : RowFault) : Prop where
  breaks : t.BreaksAt i f
  keeps : ∀ g ∈ f.earlier, ¬t.BreaksAt i g
  clean : ∀ p, p < i → ∀ g, ¬t.BreaksAt p g

/-- One of two rules is looked at first. -/
theorem RowFault.mem_earlier_trichotomy (f g : RowFault) :
    f ∈ g.earlier ∨ f = g ∨ g ∈ f.earlier := by
  cases f <;> cases g <;> simp [earlier]

section

variable {t : Table} {i j : Nat} {f g : RowFault}

theorem Table.FirstBroken.unique (hf : t.FirstBroken i f) (hg : t.FirstBroken j g) :
    i = j ∧ f = g := by
  rcases Nat.lt_trichotomy i j with hlt | same | hgt
  · exact absurd hf.breaks (hg.clean i hlt f)
  · subst same
    rcases f.mem_earlier_trichotomy g with before | same | after
    · exact absurd hf.breaks (hg.keeps f before)
    · exact ⟨rfl, same⟩
    · exact absurd hg.breaks (hf.keeps g after)
  · exact absurd hg.breaks (hf.clean j hgt g)

theorem not_breaksAt_of_faultAt?_none (hlen : t.length = Situation.count)
    (h : t.faultAt? i = none) (f : RowFault) : ¬t.BreaksAt i f := by
  intro broken
  obtain ⟨r, hr, breaks⟩ := broken
  have unfaulted : r.fault? i (t.drop (i + 1)) = none := by
    simpa only [Table.faultAt?, hr, Option.bind_some] using h
  exact Row.not_breaks_of_fault? (lt_count_of_getElem? hlen hr) unfaulted f breaks

theorem firstBroken_of_validate (h : t.validate = .error (.row i f)) :
    t.length = 17 ∧ t.FirstBroken i f := by
  obtain ⟨hlen, first, clean⟩ := faultAt?_of_validate_row h
  obtain ⟨r, hr, breaks, keeps⟩ := breaks_of_faultAt?_some hlen first
  refine ⟨hlen, ⟨r, hr, breaks⟩, fun g hg broken => ?_, fun p hp =>
    not_breaksAt_of_faultAt?_none hlen (clean p hp)⟩
  obtain ⟨q, hq, breaks⟩ := broken
  cases Option.some.inj (hr.symm.trans hq)
  exact keeps g hg breaks

theorem not_breaksAt_of_validate (h : t.validate = .ok ()) :
    t.length = 17 ∧ ∀ p f, ¬t.BreaksAt p f := by
  obtain ⟨hlen, clean⟩ := faultAt?_of_validate_ok h
  exact ⟨hlen, fun p => not_breaksAt_of_faultAt?_none hlen (clean p)⟩

theorem validate_eq_row_iff :
    t.validate = .error (.row i f) ↔ t.length = 17 ∧ t.FirstBroken i f := by
  refine ⟨firstBroken_of_validate, fun h => ?_⟩
  obtain ⟨hlen, first⟩ := h
  cases hv : t.validate with
  | ok => exact absurd first.breaks ((not_breaksAt_of_validate hv).2 i f)
  | error fault =>
    cases fault with
    | wrongLength => exact absurd hlen (length_of_validate_wrongLength hv)
    | row j g =>
      obtain ⟨same, rule⟩ := first.unique (firstBroken_of_validate hv).2
      rw [same, rule]

theorem validate_eq_wrongLength_iff : t.validate = .error .wrongLength ↔ t.length ≠ 17 :=
  ⟨length_of_validate_wrongLength, fun h => if_pos h⟩

theorem validate_eq_ok_iff :
    t.validate = .ok () ↔ t.length = 17 ∧ ∀ p f, ¬t.BreaksAt p f := by
  refine ⟨not_breaksAt_of_validate, fun h => ?_⟩
  obtain ⟨hlen, clean⟩ := h
  cases hv : t.validate with
  | ok => rfl
  | error fault =>
    cases fault with
    | wrongLength => exact absurd hlen (length_of_validate_wrongLength hv)
    | row i f => exact absurd (firstBroken_of_validate hv).2.breaks (clean i f)

theorem not_breaksAt_unlisted : ¬t.BreaksAt i .unlisted := by
  intro broken
  obtain ⟨_, _, never⟩ := broken
  exact never

end

theorem Situation.exists_getElem?_all {p : Nat} (h : p < Situation.count) :
    ∃ d, Situation.all[p]? = some d ∧ d.ordinal = p :=
  Option.map_eq_some_iff.mp (Situation.listed h)

/-- The validator that stops refuses the first broken rule of the first row that breaks one. The
list of situations is never found out of order, and no place beyond a list or a name is read. -/
theorem validate_refuses_first_broken (t : Table) :
    (t.validate = .error .wrongLength ↔ t.length ≠ 17) ∧
    (∀ i f, t.validate = .error (.row i f) ↔ t.length = 17 ∧ t.FirstBroken i f) ∧
    (t.validate = .ok () ↔ t.length = 17 ∧ ∀ p f, ¬t.BreaksAt p f) ∧
    (∀ i, t.validate ≠ .error (.row i .unlisted)) ∧
    (t.length = 17 → ∀ p, p < t.length → ∃ d, Situation.all[p]? = some d ∧ d.ordinal = p) ∧
    ∀ r ∈ t, ∀ q ∈ t, r.name.toUTF8.size = q.name.toUTF8.size →
      ∃ same, bytesAgree? r.name.toUTF8 q.name.toUTF8 0 r.name.toUTF8.size = some same := by
  refine ⟨validate_eq_wrongLength_iff, fun i f => validate_eq_row_iff, validate_eq_ok_iff,
    fun i h => ?_, fun hlen p hp => Situation.exists_getElem?_all (Nat.lt_of_lt_of_eq hp hlen),
    fun r _ q _ size => ?_⟩
  · exact not_breaksAt_unlisted (firstBroken_of_validate h).2.breaks
  · obtain ⟨same, read, _⟩ := bytesAgree?_whole size
    exact ⟨same, read⟩

/-- The second row has the name of the last one. The third row is out of position and empty. -/
def clashingTable : Table :=
  (syncTable.set 1 ⟨.importOrIdentOrSemicolon, "for-loop-body", .ofList [.END]⟩).set 2
    ⟨.forLoopBody, "", ∅⟩

theorem clashingTable_refused :
    clashingTable.length = 17 ∧ clashingTable.FirstBroken 1 .repeatedName ∧
    clashingTable.validate = .error (.row 1 .repeatedName) ∧
    (∃ d, Situation.all[16]? = some d ∧ d.ordinal = 16) ∧
    Table.validate [] = .error .wrongLength := by
  have refused : clashingTable.validate = .error (.row 1 .repeatedName) := rfl
  obtain ⟨_, row, _, _, listed, _⟩ := validate_refuses_first_broken clashingTable
  obtain ⟨hlen, first⟩ := (row 1 .repeatedName).mp refused
  exact ⟨hlen, first, refused, listed hlen 16 (by rw [hlen]; decide),
    (validate_refuses_first_broken []).1.mpr (by decide)⟩

end PanicMode
