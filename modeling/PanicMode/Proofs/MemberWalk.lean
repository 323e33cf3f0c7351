import PanicMode.Proofs.FiniteMembers
import PanicMode.Proofs.LowestBit

namespace PanicMode

theorem toList_of_next_some {c rest : Cursor} {k : Terminal} (h : c.next = (some k, rest)) :
    c.toList = k :: rest.toList := by
  rw [Cursor.toList]
  split
  next l after same =>
    rw [h] at same
    cases same
    rfl
  next after same =>
    rw [h] at same
    cases same

theorem toList_of_next_none {c rest : Cursor} (h : c.next = (none, rest)) : c.toList = [] := by
  rw [Cursor.toList]
  split
  next l after same =>
    rw [h] at same
    cases same
  next => rfl

section

variable {s : TerminalSet} {m : Finset Terminal}

theorem bits_ne_zero_of_mem {k : Terminal} (h : s.Represents m) (hk : k ∈ m) :
    s.bits ≠ 0#128 := by
  intro zero
  have bit := (h k.index).mpr ⟨k, hk, rfl⟩
  rw [zero] at bit
  simp at bit

/-- The word without its lowest bit stands for the set without its first member. -/
theorem represents_clearLowest {k : Terminal} (h : s.Represents m) (hk : k ∈ m)
    (lowest : s.bits.ctz.toNat = k.index) :
    TerminalSet.Represents ⟨clearLowest s.bits⟩ (m.erase k) := by
  intro i
  change (clearLowest s.bits).getLsbD i = true ↔ _
  rw [getLsbD_clearLowest (bits_ne_zero_of_mem h hk), lowest, Bool.and_eq_true, h i,
    decide_eq_true_eq]
  refine ⟨fun hh => ?_, fun hh => ?_⟩
  · obtain ⟨⟨l, hl, hi⟩, hne⟩ := hh
    exact ⟨l, Finset.mem_erase.mpr ⟨fun same => hne (same ▸ hi.symm), hl⟩, hi⟩
  · obtain ⟨l, hl, hi⟩ := hh
    obtain ⟨hne, hl⟩ := Finset.mem_erase.mp hl
    exact ⟨⟨l, hl, hi⟩, fun same => hne (Terminal.index_injective (hi.trans same))⟩

/-- A step answers the first member and goes on with the others. -/
theorem next_of_represents (h : s.Represents m) (hne : m.Nonempty) :
    ∃ k ∈ m, (∀ l ∈ m, k.index ≤ l.index) ∧
      s.cursor.next = (some k, ⟨clearLowest s.bits⟩) ∧
      TerminalSet.Represents ⟨clearLowest s.bits⟩ (m.erase k) := by
  obtain ⟨l, hl⟩ := hne
  have filled := bits_ne_zero_of_mem h hl
  have least := isLeast_ctz filled
  obtain ⟨k, hk, lowest⟩ := (h _).mp least.1
  refine ⟨k, hk, fun l hl => ?_, ?_, represents_clearLowest h hk lowest.symm⟩
  · rw [lowest]
    exact least.2 ((h l.index).mpr ⟨l, hl, rfl⟩)
  · rw [TerminalSet.cursor, Cursor.next, if_neg filled, ← lowest, Terminal.ofIndex?_index]

theorem toList_of_represents_empty (h : s.Represents ∅) : s.toList = [] := by
  have empty : s = ∅ := (h.eq_iff represents_empty).mpr rfl
  subst empty
  exact toList_of_next_none rfl

/-- Induction along the walk: a lowest member comes first, and a word for the others is left. -/
theorem TerminalSet.Represents.toList_induction {P : Finset Terminal → List Terminal → Prop}
    (nil : P ∅ [])
    (cons : ∀ (m : Finset Terminal) (k : Terminal) (rest : TerminalSet), k ∈ m →
      (∀ l ∈ m, k.index ≤ l.index) → rest.Represents (m.erase k) → P (m.erase k) rest.toList →
      P m (k :: rest.toList))
    (h : s.Represents m) : P m s.toList := by
  induction m using Finset.strongInductionOn generalizing s with
  | _ m ih =>
    rcases m.eq_empty_or_nonempty with empty | hne
    · subst empty
      rw [toList_of_represents_empty h]
      exact nil
    · obtain ⟨k, hk, lowest, step, rest⟩ := next_of_represents h hne
      have walk : s.toList = k :: TerminalSet.toList ⟨clearLowest s.bits⟩ :=
        toList_of_next_some step
      rw [walk]
      exact cons m k _ hk lowest rest (ih (m.erase k) (Finset.erase_ssubset hk) rest)

/-- The walk meets exactly the members. -/
theorem TerminalSet.Represents.mem_toList_iff (h : s.Represents m) {k : Terminal} :
    k ∈ s.toList ↔ k ∈ m := by
  refine h.toList_induction (P := fun m ks => k ∈ ks ↔ k ∈ m) (by simp) ?_
  intro m l rest hl _ _ after
  rw [List.mem_cons, after, Finset.mem_erase]
  by_cases same : k = l
  · simp [same, hl]
  · simp [same]

/-- The walk goes up, since each step takes the lowest bit that is left. -/
theorem TerminalSet.Represents.toList_pairwise (h : s.Represents m) :
    s.toList.Pairwise (fun k l => k.index < l.index) := by
  refine h.toList_induction (P := fun _ ks => ks.Pairwise (fun k l => k.index < l.index))
    List.Pairwise.nil ?_
  intro m k rest _ lowest represents after
  refine List.pairwise_cons.mpr ⟨fun l hl => ?_, after⟩
  obtain ⟨differ, hl⟩ := Finset.mem_erase.mp (represents.mem_toList_iff.mp hl)
  exact Nat.lt_of_le_of_ne (lowest l hl) fun same =>
    differ (Terminal.index_injective same.symm)

end

theorem TerminalSet.Built.mem_toList_iff {s : TerminalSet} (h : s.Built) {k : Terminal} :
    k ∈ s.toList ↔ k ∈ s := by
  rw [h.represents.mem_toList_iff, TerminalSet.mem_members]

end PanicMode
