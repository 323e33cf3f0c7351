import PanicMode.Proofs.FiniteMembers
import PanicMode.Proofs.Ordinals
import PanicMode.SetEdit

namespace PanicMode

theorem built_syncTable : ∀ r ∈ syncTable, r.set.Built := by
  simp only [syncTable, List.forall_mem_cons, firstOfImport, firstOfDefinition,
    firstOfDeclaration, firstOfType, firstOfStatement, followOfStatement]
  repeat' constructor
  exact List.forall_mem_nil _

theorem Situation.built_set (d : Situation) : d.set.Built :=
  built_syncTable d.row (List.get_mem _ _)

namespace SetEdit

/-- The terminals that a step puts in. -/
def Puts : SetEdit → Terminal → Prop
  | .replace ks, k | .insertAll ks, k => k ∈ ks
  | .insert l, k => k = l
  | .replaceBySituation n, k | .insertSituation n, k =>
    ∃ d : Situation, n = d.ordinal ∧ k ∈ d.set

/-- The steps that drop what was there before. -/
def Replaces : SetEdit → Prop
  | .replace _ => True
  | .replaceBySituation n => ∃ d : Situation, n = d.ordinal
  | .insert _ | .insertAll _ | .insertSituation _ => False

/-- The steps that name a situation by a number that is no ordinal. -/
def Refused : SetEdit → Prop
  | .replaceBySituation n | .insertSituation n => ¬(0 ≤ n ∧ n < Situation.count)
  | .replace _ | .insert _ | .insertAll _ => False

/-- The terminals that some step puts in and no later step drops. -/
def Collected (es : List SetEdit) (k : Terminal) : Prop :=
  ∃ before e after, es = before ++ e :: after ∧ e.Puts k ∧ ∀ f ∈ after, ¬f.Replaces

def memberStep (m : Finset Terminal) : SetEdit → Finset Terminal
  | .replace ks => ks.toFinset
  | .replaceBySituation n => ((Situation.ofOrdinal? n).map (·.set.members)).getD m
  | .insert k => Insert.insert k m
  | .insertAll ks => m ∪ ks.toFinset
  | .insertSituation n => m ∪ ((Situation.ofOrdinal? n).map (·.set.members)).getD ∅

/-- The finite set that the same edits build from the empty one. -/
def memberRun (es : List SetEdit) : Finset Terminal := es.foldl memberStep ∅

end SetEdit

/-- Every question about the word has the answer that it has for the finite set. -/
structure TerminalSet.Simulates (s : TerminalSet) (m : Finset Terminal) : Prop where
  contains_iff : ∀ k, s.contains k = true ↔ k ∈ m
  bits_toNat : s.bits.toNat = ∑ k ∈ m, 2 ^ k.index
  high_clear : ∀ i, 71 ≤ i → s.bits.getLsbD i = false
  card_eq : s.card = m.card
  isEmpty_iff : s.isEmpty = true ↔ m = ∅

theorem TerminalSet.Represents.simulates {s : TerminalSet} {m : Finset Terminal}
    (h : s.Represents m) : s.Simulates m where
  contains_iff _ := h.mem_iff
  bits_toNat := h.bits_toNat
  high_clear _ hi := h.clear_of_le hi
  card_eq := h.card_eq
  isEmpty_iff := h.isEmpty_iff

/-- An edit names a situation by its ordinal, names none, or is refused. -/
@[elab_as_elim]
theorem SetEdit.outcome_cases {P : SetEdit → Prop} (e : SetEdit)
    (replace : ∀ ks, P (.replace ks))
    (insert : ∀ k, P (.insert k))
    (insertAll : ∀ ks, P (.insertAll ks))
    (replaceBySituation : ∀ d : Situation, P (.replaceBySituation d.ordinal))
    (insertSituation : ∀ d : Situation, P (.insertSituation d.ordinal))
    (refused : ∀ e : SetEdit, e.Refused → P e) : P e := by
  cases e with
  | replace ks => exact replace ks
  | insert k => exact insert k
  | insertAll ks => exact insertAll ks
  | replaceBySituation n =>
    rcases Situation.ordinal_or_outside n with ⟨d, hd⟩ | outside
    · rw [hd]
      exact replaceBySituation d
    · exact refused _ outside
  | insertSituation n =>
    rcases Situation.ordinal_or_outside n with ⟨d, hd⟩ | outside
    · rw [hd]
      exact insertSituation d
    · exact refused _ outside

theorem apply_of_refused {e : SetEdit} (s : TerminalSet) (h : e.Refused) :
    ∃ x, e.apply s = .error x := by
  cases e with
  | replaceBySituation n => exact ⟨_, Situation.setAt_outside h⟩
  | insertSituation n => exact ⟨_, congrArg (Except.map (s ∪ ·)) (Situation.setAt_outside h)⟩
  | replace ks => exact False.elim h
  | insert k => exact False.elim h
  | insertAll ks => exact False.elim h

theorem refused_of_apply {e : SetEdit} {s : TerminalSet} {x : InvalidOrdinal}
    (h : e.apply s = .error x) : e.Refused := by
  cases e using SetEdit.outcome_cases with
  | replace ks => cases h
  | insert k => cases h
  | insertAll ks => cases h
  | replaceBySituation d =>
    rw [SetEdit.apply, Situation.setAt_ordinal] at h
    cases h
  | insertSituation d =>
    rw [SetEdit.apply, Situation.setAt_ordinal] at h
    cases h
  | refused e refused => exact refused

theorem step_of_refused {e : SetEdit} (s : TerminalSet) (h : e.Refused) : e.step s = s := by
  obtain ⟨x, hx⟩ := apply_of_refused s h
  simp only [SetEdit.step, hx]

theorem memberStep_of_refused {e : SetEdit} (m : Finset Terminal) (h : e.Refused) :
    SetEdit.memberStep m e = m := by
  cases e with
  | replaceBySituation n =>
    simp only [SetEdit.memberStep, Situation.ofOrdinal?_outside h, Option.map_none,
      Option.getD_none]
  | insertSituation n =>
    simp only [SetEdit.memberStep, Situation.ofOrdinal?_outside h, Option.map_none,
      Option.getD_none, Finset.union_empty]
  | replace ks => exact False.elim h
  | insert k => exact False.elim h
  | insertAll ks => exact False.elim h

theorem step_replaceBySituation (s : TerminalSet) (d : Situation) :
    (SetEdit.replaceBySituation d.ordinal).step s = d.set := by
  simp only [SetEdit.step, SetEdit.apply, Situation.setAt_ordinal]

theorem step_insertSituation (s : TerminalSet) (d : Situation) :
    (SetEdit.insertSituation d.ordinal).step s = s ∪ d.set := by
  simp only [SetEdit.step, SetEdit.apply, Situation.setAt_ordinal, Except.map]

theorem memberStep_replaceBySituation (m : Finset Terminal) (d : Situation) :
    SetEdit.memberStep m (.replaceBySituation d.ordinal) = d.set.members := by
  simp only [SetEdit.memberStep, d.ofOrdinal?_ordinal, Option.map_some, Option.getD_some]

theorem memberStep_insertSituation (m : Finset Terminal) (d : Situation) :
    SetEdit.memberStep m (.insertSituation d.ordinal) = m ∪ d.set.members := by
  simp only [SetEdit.memberStep, d.ofOrdinal?_ordinal, Option.map_some, Option.getD_some]

theorem represents_memberStep {s : TerminalSet} {m : Finset Terminal} (h : s.Represents m)
    (e : SetEdit) : (e.step s).Represents (SetEdit.memberStep m e) := by
  cases e using SetEdit.outcome_cases with
  | replace ks => exact represents_ofList ks
  | insert k => exact represents_insert h k
  | insertAll ks => exact represents_union h (represents_ofList ks)
  | replaceBySituation d =>
    rw [step_replaceBySituation, memberStep_replaceBySituation]
    exact d.built_set.represents
  | insertSituation d =>
    rw [step_insertSituation, memberStep_insertSituation]
    exact represents_union h d.built_set.represents
  | refused e refused =>
    rw [step_of_refused s refused, memberStep_of_refused m refused]
    exact h

theorem run_append_singleton (es : List SetEdit) (e : SetEdit) :
    SetEdit.run (es ++ [e]) = e.step (SetEdit.run es) := by
  simp only [SetEdit.run, List.foldl_append, List.foldl_cons, List.foldl_nil]

theorem memberRun_append_singleton (es : List SetEdit) (e : SetEdit) :
    SetEdit.memberRun (es ++ [e]) = SetEdit.memberStep (SetEdit.memberRun es) e := by
  simp only [SetEdit.memberRun, List.foldl_append, List.foldl_cons, List.foldl_nil]

/-- The word and the finite set are built in step with each other. -/
theorem represents_memberRun (es : List SetEdit) :
    (SetEdit.run es).Represents (SetEdit.memberRun es) := by
  induction es using List.reverseRecOn with
  | nil => exact represents_empty
  | append_singleton es e ih =>
    rw [run_append_singleton, memberRun_append_singleton]
    exact represents_memberStep ih e

theorem exists_ordinal_and_iff {d : Situation} {k : Terminal} :
    (∃ e : Situation, (d.ordinal : Int) = e.ordinal ∧ k ∈ e.set) ↔ k ∈ d.set := by
  refine ⟨fun h => ?_, fun h => ⟨d, rfl, h⟩⟩
  obtain ⟨e, same, he⟩ := h
  rwa [Situation.ordinal_injective (Int.ofNat_inj.mp same)]

theorem puts_replaceBySituation_iff {d : Situation} {k : Terminal} :
    (SetEdit.replaceBySituation d.ordinal).Puts k ↔ k ∈ d.set :=
  exists_ordinal_and_iff

theorem puts_insertSituation_iff {d : Situation} {k : Terminal} :
    (SetEdit.insertSituation d.ordinal).Puts k ↔ k ∈ d.set :=
  exists_ordinal_and_iff

theorem not_puts_of_refused {e : SetEdit} (h : e.Refused) (k : Terminal) : ¬e.Puts k := by
  intro puts
  cases e with
  | replace ks => exact h
  | insert l => exact h
  | insertAll ks => exact h
  | replaceBySituation n =>
    obtain ⟨d, hd, _⟩ := puts
    exact h (hd ▸ d.ordinal_inside)
  | insertSituation n =>
    obtain ⟨d, hd, _⟩ := puts
    exact h (hd ▸ d.ordinal_inside)

theorem not_replaces_of_refused {e : SetEdit} (h : e.Refused) : ¬e.Replaces := by
  intro replaces
  cases e with
  | replace ks => exact h
  | insert l => exact h
  | insertAll ks => exact h
  | insertSituation n => exact replaces
  | replaceBySituation n =>
    obtain ⟨d, hd⟩ := replaces
    exact h (hd ▸ d.ordinal_inside)

theorem mem_memberStep {m : Finset Terminal} {e : SetEdit} {k : Terminal} :
    k ∈ SetEdit.memberStep m e ↔ e.Puts k ∨ (k ∈ m ∧ ¬e.Replaces) := by
  cases e using SetEdit.outcome_cases with
  | replace ks => simp [SetEdit.memberStep, SetEdit.Puts, SetEdit.Replaces]
  | insert l => simp [SetEdit.memberStep, SetEdit.Puts, SetEdit.Replaces]
  | insertAll ks => simp [SetEdit.memberStep, SetEdit.Puts, SetEdit.Replaces, or_comm]
  | replaceBySituation d =>
    have replaces : (SetEdit.replaceBySituation d.ordinal).Replaces := ⟨d, rfl⟩
    rw [memberStep_replaceBySituation, puts_replaceBySituation_iff, TerminalSet.mem_members]
    simp only [replaces, not_true, and_false, or_false]
  | insertSituation d =>
    rw [memberStep_insertSituation, puts_insertSituation_iff, Finset.mem_union,
      TerminalSet.mem_members, or_comm]
    simp only [SetEdit.Replaces, not_false_iff, and_true]
  | refused e refused =>
    rw [memberStep_of_refused m refused]
    refine ⟨fun hk => Or.inr ⟨hk, not_replaces_of_refused refused⟩, fun hk => ?_⟩
    exact (hk.resolve_left (not_puts_of_refused refused k)).1

theorem collected_append_singleton {es : List SetEdit} {e : SetEdit} {k : Terminal} :
    SetEdit.Collected (es ++ [e]) k ↔ e.Puts k ∨ (SetEdit.Collected es k ∧ ¬e.Replaces) := by
  refine ⟨fun h => ?_, fun h => ?_⟩
  · obtain ⟨before, f, after, split, puts, kept⟩ := h
    rcases List.eq_nil_or_concat after with hnil | ⟨rest, last, hlast⟩
    · subst hnil
      obtain ⟨_, same⟩ := List.append_inj' split rfl
      rw [List.singleton_inj.mp same]
      exact Or.inl puts
    · subst hlast
      rw [List.concat_eq_append, ← List.cons_append, ← List.append_assoc] at split
      obtain ⟨same, hl⟩ := List.append_inj' split rfl
      rw [List.singleton_inj.mp hl]
      refine Or.inr ⟨⟨before, f, rest, same, puts, fun g hg => kept g ?_⟩, kept last ?_⟩
      · simp [hg]
      · simp
  · rcases h with puts | ⟨⟨before, f, after, split, puts, kept⟩, keeps⟩
    · exact ⟨es, e, [], rfl, puts, fun g hg => absurd hg (List.not_mem_nil)⟩
    · refine ⟨before, f, after ++ [e], by simp [split], puts, fun g hg => ?_⟩
      rcases List.mem_append.mp hg with hg | hg
      · exact kept g hg
      · rw [List.mem_singleton.mp hg]
        exact keeps

theorem mem_memberRun_iff {es : List SetEdit} {k : Terminal} :
    k ∈ SetEdit.memberRun es ↔ SetEdit.Collected es k := by
  induction es using List.reverseRecOn with
  | nil =>
    refine ⟨fun h => absurd h (Finset.notMem_empty k), fun h => ?_⟩
    obtain ⟨before, e, after, split, _⟩ := h
    simp at split
  | append_singleton es e ih =>
    rw [memberRun_append_singleton, mem_memberStep, collected_append_singleton, ih]

/-- Whatever the edits, the word stands for the finite set that they build: the terminals put in
since the last replacement. A shift by an index stays inside the word, and a refused edit is no
edit. -/
theorem run_simulates_memberRun (es : List SetEdit) :
    (SetEdit.run es).Simulates (SetEdit.memberRun es) ∧
    (∀ k, k ∈ SetEdit.memberRun es ↔ SetEdit.Collected es k) ∧
    (∀ k : Terminal, k.index < 71) ∧
    (∀ fs, SetEdit.run es = SetEdit.run fs ↔
      ∀ k, (SetEdit.run es).contains k = (SetEdit.run fs).contains k) ∧
    (∀ e : SetEdit, (e.Refused ↔ ∃ x, e.apply (SetEdit.run es) = .error x) ∧
      (e.Refused → SetEdit.run (es ++ [e]) = SetEdit.run es)) := by
  refine ⟨(represents_memberRun es).simulates, fun k => mem_memberRun_iff,
    fun k => k.index_lt, fun fs => ?_, fun e => ⟨⟨apply_of_refused _, ?_⟩, fun h => ?_⟩⟩
  · refine ⟨fun same k => same ▸ rfl, fun same => ?_⟩
    have members : SetEdit.memberRun es = SetEdit.memberRun fs := by
      ext k
      rw [← (represents_memberRun es).mem_iff, ← (represents_memberRun fs).mem_iff,
        ← TerminalSet.contains_eq_true, ← TerminalSet.contains_eq_true, same k]
    exact ((represents_memberRun es).eq_iff (represents_memberRun fs)).mpr members
  · intro h
    obtain ⟨x, hx⟩ := h
    exact refused_of_apply hx
  · rw [run_append_singleton]
    exact step_of_refused _ h

theorem refused_union_keeps_run :
    (SetEdit.insertSituation 99).Refused ∧
    SetEdit.run ([.insert .END, .replace [.comma, .endOfFile, .comma]] ++ [.insertSituation 99]) =
      SetEdit.run [.insert .END, .replace [.comma, .endOfFile, .comma]] := by
  have refused : (SetEdit.insertSituation 99).Refused := fun h => absurd h.2 (by decide)
  exact ⟨refused, ((run_simulates_memberRun _).2.2.2.2 (.insertSituation 99)).2 refused⟩

end PanicMode
