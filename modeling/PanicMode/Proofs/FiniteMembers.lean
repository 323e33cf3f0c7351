import Mathlib.Combinatorics.Colex
import PanicMode.Proofs.SetMembers

namespace PanicMode

/-- The set bits of the word are exactly the indices of the members. -/
def TerminalSet.Represents (s : TerminalSet) (m : Finset Terminal) : Prop :=
  ∀ i, s.bits.getLsbD i = true ↔ ∃ k ∈ m, k.index = i

/-- Words that can be put together from lists of terminals. -/
inductive TerminalSet.Built : TerminalSet → Prop
  | ofList (ks : List Terminal) : Built (TerminalSet.ofList ks)
  | insert {s : TerminalSet} (k : Terminal) : Built s → Built (s.insert k)
  | union {s t : TerminalSet} : Built s → Built t → Built (s ∪ t)

/-- The terminals whose bit is set. A bit that belongs to no terminal is not seen here. -/
def TerminalSet.members (s : TerminalSet) : Finset Terminal :=
  Terminal.all.toFinset.filter (· ∈ s)

@[simp] theorem TerminalSet.mem_members {s : TerminalSet} {k : Terminal} :
    k ∈ s.members ↔ k ∈ s := by
  simp [TerminalSet.members, k.mem_all]

section

variable {s t : TerminalSet} {m n : Finset Terminal}

theorem represents_empty : (∅ : TerminalSet).Represents ∅ := by
  intro i
  change (0#128).getLsbD i = true ↔ _
  simp

theorem represents_insert (h : s.Represents m) (k : Terminal) :
    (s.insert k).Represents (insert k m) := by
  intro i
  simp only [TerminalSet.insert, BitVec.getLsbD_or, k.getLsbD_bit, Bool.or_eq_true,
    decide_eq_true_eq, h i, Finset.exists_mem_insert]
  refine ⟨fun hh => ?_, fun hh => ?_⟩
  · rcases hh with hm | hi
    · exact Or.inr hm
    · exact Or.inl hi.symm
  · rcases hh with hi | hm
    · exact Or.inr hi.symm
    · exact Or.inl hm

theorem represents_union (hs : s.Represents m) (ht : t.Represents n) :
    (s ∪ t).Represents (m ∪ n) := by
  intro i
  change (s.bits ||| t.bits).getLsbD i = true ↔ _
  rw [BitVec.getLsbD_or, Bool.or_eq_true, hs i, ht i]
  refine ⟨fun hh => ?_, fun hh => ?_⟩
  · rcases hh with ⟨k, hk, hi⟩ | ⟨k, hk, hi⟩
    · exact ⟨k, Finset.mem_union_left n hk, hi⟩
    · exact ⟨k, Finset.mem_union_right m hk, hi⟩
  · obtain ⟨k, hk, hi⟩ := hh
    rcases Finset.mem_union.mp hk with hk | hk
    · exact Or.inl ⟨k, hk, hi⟩
    · exact Or.inr ⟨k, hk, hi⟩

theorem represents_foldl_insert (h : s.Represents m) (ks : List Terminal) :
    (ks.foldl TerminalSet.insert s).Represents (ks.toFinset ∪ m) := by
  induction ks generalizing s m with
  | nil => simpa using h
  | cons k ks ih =>
    have hh := ih (represents_insert h k)
    rwa [Finset.union_insert, ← Finset.insert_union, ← List.toFinset_cons] at hh

theorem represents_ofList (ks : List Terminal) :
    (TerminalSet.ofList ks).Represents ks.toFinset := by
  have hh := represents_foldl_insert represents_empty ks
  rwa [Finset.union_empty] at hh

theorem TerminalSet.Represents.mem_iff (h : s.Represents m) {k : Terminal} : k ∈ s ↔ k ∈ m := by
  rw [TerminalSet.mem_iff_getLsbD, h k.index]
  refine ⟨fun hk => ?_, fun hk => ⟨k, hk, rfl⟩⟩
  obtain ⟨l, hl, same⟩ := hk
  exact Terminal.index_injective same ▸ hl

theorem TerminalSet.Represents.eq_members (h : s.Represents m) : m = s.members := by
  ext k
  rw [TerminalSet.mem_members, h.mem_iff]

/-- No bit is set at an index that belongs to no terminal. -/
theorem TerminalSet.Represents.clear_of_le (h : s.Represents m) {i : Nat}
    (hi : Terminal.all.length ≤ i) : s.bits.getLsbD i = false := by
  cases hbit : s.bits.getLsbD i with
  | false => rfl
  | true =>
    obtain ⟨k, _, hk⟩ := (h i).mp hbit
    have bound := k.index_lt
    omega

theorem TerminalSet.Represents.image_index (h : s.Represents m) :
    s.bits.toNat.bitIndices.toFinset = m.image Terminal.index := by
  ext i
  rw [List.mem_toFinset, Nat.mem_bitIndices, BitVec.testBit_toNat, h i, Finset.mem_image]

theorem TerminalSet.Represents.bits_toNat (h : s.Represents m) :
    s.bits.toNat = ∑ k ∈ m, 2 ^ k.index := by
  have hsum := Finset.sum_toFinset_bitIndices_two_pow s.bits.toNat
  rw [h.image_index, Finset.sum_image fun _ _ _ _ same => Terminal.index_injective same] at hsum
  exact hsum.symm

theorem TerminalSet.Represents.eq_iff (hs : s.Represents m) (ht : t.Represents n) :
    s = t ↔ m = n := by
  refine ⟨fun same => ?_, fun same => ?_⟩
  · subst same
    rw [hs.eq_members, ht.eq_members]
  · subst same
    apply TerminalSet.ext_bits
    apply BitVec.eq_of_toNat_eq
    rw [hs.bits_toNat, ht.bits_toNat]

theorem TerminalSet.Represents.isEmpty_iff (h : s.Represents m) : s.isEmpty = true ↔ m = ∅ := by
  rw [TerminalSet.isEmpty_iff, h.eq_iff represents_empty]

end

/-- The population count is the number of set indices. -/
theorem cpopNatRec_eq_card (b : BitVec 128) (n : Nat) :
    b.cpopNatRec n 0 = ((Finset.range n).filter (b.getLsbD · = true)).card := by
  induction n with
  | zero => rfl
  | succ n ih =>
    rw [BitVec.cpopNatRec_succ, BitVec.cpopNatRec_add, ih, Finset.range_add_one,
      Finset.filter_insert]
    cases hbit : b.getLsbD n with
    | false => simp
    | true =>
      have fresh : n ∉ (Finset.range n).filter (b.getLsbD · = true) := by simp
      simp [Finset.card_insert_of_notMem fresh]

theorem TerminalSet.Represents.card_eq {s : TerminalSet} {m : Finset Terminal}
    (h : s.Represents m) : s.card = m.card := by
  have image : (Finset.range 128).filter (s.bits.getLsbD · = true) = m.image Terminal.index := by
    ext i
    rw [Finset.mem_filter, Finset.mem_range, h i, Finset.mem_image]
    refine ⟨fun hh => hh.2, fun hh => ⟨?_, hh⟩⟩
    obtain ⟨k, _, hk⟩ := hh
    have bound := k.index_lt_width
    omega
  rw [TerminalSet.card, BitVec.toNat_cpop, cpopNatRec_eq_card, image]
  exact Finset.card_image_of_injective m fun _ _ same => Terminal.index_injective same

theorem TerminalSet.Built.represents {s : TerminalSet} (h : s.Built) : s.Represents s.members := by
  have some_members : ∃ m, s.Represents m := by
    induction h with
    | ofList ks => exact ⟨_, represents_ofList ks⟩
    | insert k _ ih =>
      obtain ⟨m, hm⟩ := ih
      exact ⟨_, represents_insert hm k⟩
    | union _ _ ihs iht =>
      obtain ⟨m, hm⟩ := ihs
      obtain ⟨n, hn⟩ := iht
      exact ⟨_, represents_union hm hn⟩
  obtain ⟨m, hm⟩ := some_members
  exact hm.eq_members ▸ hm

/-- A word that was put together from lists has no stray bit, so it is zero if it has no member. -/
theorem TerminalSet.Built.eq_empty_iff {s : TerminalSet} (h : s.Built) : s = ∅ ↔ ∀ k, k ∉ s := by
  rw [h.represents.eq_iff represents_empty, Finset.eq_empty_iff_forall_notMem]
  simp only [TerminalSet.mem_members]

end PanicMode
