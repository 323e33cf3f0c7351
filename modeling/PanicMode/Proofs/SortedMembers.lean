import Mathlib.Data.Finset.Dedup
import PanicMode.Grammar
import PanicMode.Proofs.MemberWalk

namespace PanicMode

/-- Terminals by increasing index, none of them twice. -/
def Ascending (ks : List Terminal) : Prop := ks.Pairwise (fun k l => k.index < l.index)

theorem Ascending.nodup {ks : List Terminal} (h : Ascending ks) : ks.Nodup := by
  refine h.imp fun lt same => ?_
  rw [same] at lt
  exact Nat.lt_irrefl _ lt

/-- The order leaves one way to list a set. -/
theorem Ascending.eq_of_mem_iff {ks ls : List Terminal} (hk : Ascending ks) (hl : Ascending ls)
    (same : ∀ k, k ∈ ks ↔ k ∈ ls) : ks = ls := by
  refine ((List.perm_ext_iff_of_nodup hk.nodup hl.nodup).mpr same).eq_of_pairwise ?_ hk hl
  intro k l _ _ before after
  exact absurd before (Nat.lt_asymm after)

theorem pairwise_sort (ks : List Terminal) :
    (Terminal.sort ks).Pairwise (fun k l => k.index ≤ l.index) := by
  have trans : ∀ a b c : Terminal, decide (a ≤ b) = true → decide (b ≤ c) = true →
      decide (a ≤ c) = true := by
    intro a b c hab hbc
    exact decide_eq_true (Nat.le_trans (of_decide_eq_true hab) (of_decide_eq_true hbc))
  have total : ∀ a b : Terminal, (decide (a ≤ b) || decide (b ≤ a)) = true := by
    intro a b
    rw [Bool.or_eq_true, decide_eq_true_eq, decide_eq_true_eq]
    exact Nat.le_total a.index b.index
  exact (List.pairwise_mergeSort trans total ks).imp fun hle => of_decide_eq_true hle

theorem ascending_dedup_sort (ks : List Terminal) : Ascending (Terminal.sort ks).dedup := by
  have sorted := (pairwise_sort ks).sublist (List.dedup_sublist _)
  refine (sorted.and (List.nodup_dedup _)).imp fun h => ?_
  exact Nat.lt_of_le_of_ne h.1 fun same => h.2 (Terminal.index_injective same)

theorem mem_dedup_sort {ks : List Terminal} {k : Terminal} :
    k ∈ (Terminal.sort ks).dedup ↔ k ∈ ks := by
  rw [List.mem_dedup, Terminal.sort, List.mem_mergeSort]

theorem ascending_all : Ascending Terminal.all := by
  have indices : Terminal.all.map Terminal.index = List.range Terminal.all.length := by decide
  have increasing := List.pairwise_lt_range (n := Terminal.all.length)
  rwa [← indices, List.pairwise_map] at increasing

/-- The members in the order in which terminals are declared. -/
def TerminalSet.memberList (s : TerminalSet) : List Terminal :=
  Terminal.all.filter (fun k => decide (k ∈ s))

section

variable {s : TerminalSet} {m : Finset Terminal}

@[simp] theorem TerminalSet.mem_memberList {k : Terminal} : k ∈ s.memberList ↔ k ∈ s := by
  simp [TerminalSet.memberList, k.mem_all]

theorem TerminalSet.ascending_memberList : Ascending s.memberList :=
  List.Pairwise.filter _ ascending_all

/-- The walk is the one ascending list of the members. -/
theorem TerminalSet.Represents.toList_eq {ks : List Terminal} (h : s.Represents m)
    (ascending : Ascending ks) (same : ∀ k, k ∈ ks ↔ k ∈ m) : s.toList = ks :=
  h.toList_pairwise.eq_of_mem_iff ascending fun k => h.mem_toList_iff.trans (same k).symm

theorem TerminalSet.Represents.toList_eq_memberList (h : s.Represents m) :
    s.toList = s.memberList :=
  h.toList_eq ascending_memberList fun _ => mem_memberList.trans h.mem_iff

theorem TerminalSet.Represents.toFinset_toList (h : s.Represents m) : s.toList.toFinset = m := by
  ext k
  rw [List.mem_toFinset, h.mem_toList_iff]

theorem TerminalSet.Represents.length_toList (h : s.Represents m) : s.toList.length = s.card := by
  rw [h.card_eq, ← List.toFinset_card_of_nodup h.toList_pairwise.nodup, h.toFinset_toList]

theorem TerminalSet.Represents.ofList_toList (h : s.Represents m) :
    TerminalSet.ofList s.toList = s :=
  ((represents_ofList s.toList).eq_iff h).mpr h.toFinset_toList

end

namespace TerminalSet

theorem toList_ofList (ks : List Terminal) : (ofList ks).toList = (Terminal.sort ks).dedup :=
  (represents_ofList ks).toList_eq (ascending_dedup_sort ks) fun _ =>
    mem_dedup_sort.trans List.mem_toFinset.symm

theorem card_ofList (ks : List Terminal) : (ofList ks).card = (Terminal.sort ks).dedup.length := by
  rw [← (represents_ofList ks).length_toList, toList_ofList]

theorem ofList_append (ks ls : List Terminal) : ofList (ks ++ ls) = ofList ks ∪ ofList ls :=
  ((represents_ofList _).eq_iff (represents_union (represents_ofList ks)
    (represents_ofList ls))).mpr List.toFinset_append

theorem ofList_eq_iff {ks ls : List Terminal} : ofList ks = ofList ls ↔ ∀ k, k ∈ ks ↔ k ∈ ls := by
  rw [(represents_ofList ks).eq_iff (represents_ofList ls), Finset.ext_iff]
  simp only [List.mem_toFinset]

end TerminalSet

/-- A set lists its members in order and without repetition, and a list makes the set of what is in
it, whatever the order and however often. -/
theorem ofList_and_toList_inverse :
    (∀ ks, (TerminalSet.ofList ks).toList = (Terminal.sort ks).dedup ∧
      (TerminalSet.ofList ks).card = (Terminal.sort ks).dedup.length) ∧
    (∀ s : TerminalSet, s.Built → TerminalSet.ofList s.toList = s) ∧
    (∀ ks ls, TerminalSet.ofList (ks ++ ls) = TerminalSet.ofList ks ∪ TerminalSet.ofList ls) ∧
    ∀ ks ls, TerminalSet.ofList ks = TerminalSet.ofList ls ↔ ∀ k, k ∈ ks ↔ k ∈ ls :=
  ⟨fun ks => ⟨TerminalSet.toList_ofList ks, TerminalSet.card_ofList ks⟩,
    fun _ built => built.represents.ofList_toList, TerminalSet.ofList_append,
    fun _ _ => TerminalSet.ofList_eq_iff⟩

theorem block_heads_made_again :
    (firstOfImport ∪ firstOfDeclaration).Built ∧
    TerminalSet.ofList (firstOfImport ∪ firstOfDeclaration).toList =
      firstOfImport ∪ firstOfDeclaration := by
  have built : (firstOfImport ∪ firstOfDeclaration).Built :=
    .union (.ofList _) (.insert .MODULE (.ofList _))
  obtain ⟨_, made, _⟩ := ofList_and_toList_inverse
  exact ⟨built, made _ built⟩

end PanicMode
