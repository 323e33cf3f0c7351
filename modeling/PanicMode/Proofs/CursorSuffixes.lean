import PanicMode.CursorStack
import PanicMode.Proofs.SortedMembers

namespace PanicMode

/-- The cursor that is left after some steps. -/
def Cursor.after (c : Cursor) : Nat → Cursor
  | 0 => c
  | n + 1 => (c.next.2).after n

/-- The cursor answers the terminals of the list one by one, and none for ever after. Before each
step it tells how many are left. -/
structure Cursor.StandsFor (c : Cursor) (ks : List Terminal) : Prop where
  next_after : ∀ n, (c.after n).next.1 = ks[n]?
  sizeHint_after : ∀ n, (c.after n).sizeHint = (ks.length - n, some (ks.length - n))

/-- The word of the cursor has a bit for each terminal of an ascending list, and no other bit. -/
structure Cursor.Holds (c : Cursor) (ks : List Terminal) : Prop where
  represents : TerminalSet.Represents ⟨c.bits⟩ ks.toFinset
  ascending : Ascending ks

namespace Cursor.Holds

variable {c : Cursor} {k : Terminal} {ks : List Terminal}

theorem next_nil (h : c.Holds []) : c.next = (none, c) := by
  have zero := congrArg TerminalSet.bits ((h.represents.eq_iff represents_empty).mpr rfl)
  exact if_pos zero

/-- The lowest member is the head of the list, since the list goes up. -/
theorem next_cons (h : c.Holds (k :: ks)) :
    ∃ rest : Cursor, c.next = (some k, rest) ∧ rest.Holds ks := by
  obtain ⟨above, ascending⟩ := List.pairwise_cons.mp h.ascending
  obtain ⟨l, hl, lowest, step, rest⟩ := next_of_represents h.represents ⟨k, by simp⟩
  have same : l = k := by
    rcases List.mem_cons.mp (List.mem_toFinset.mp hl) with same | hl
    · exact same
    · exact absurd (above l hl) (Nat.not_lt.mpr (lowest k (by simp)))
  have fresh : k ∉ ks.toFinset := by
    rw [List.mem_toFinset]
    exact fun hk => Nat.lt_irrefl _ (above k hk)
  rw [same, List.toFinset_cons, Finset.erase_insert fresh] at rest
  exact ⟨_, same ▸ step, rest, ascending⟩

theorem next_eq (h : c.Holds ks) : c.next.1 = ks.head? ∧ c.next.2.Holds ks.tail := by
  cases ks with
  | nil =>
    rw [h.next_nil]
    exact ⟨rfl, h⟩
  | cons k ks =>
    obtain ⟨rest, step, holds⟩ := h.next_cons
    rw [step]
    exact ⟨rfl, holds⟩

theorem remaining_eq (h : c.Holds ks) : c.remaining = ks.length :=
  h.represents.card_eq.trans (List.toFinset_card_of_nodup h.ascending.nodup)

theorem toList_eq (h : c.Holds ks) : c.toList = ks :=
  h.represents.toList_eq h.ascending fun _ => List.mem_toFinset.symm

theorem after (h : c.Holds ks) (n : Nat) : (c.after n).Holds (ks.drop n) := by
  induction n generalizing c ks with
  | zero => exact h
  | succ n ih =>
    have later := ih h.next_eq.2
    rwa [List.drop_tail] at later

theorem standsFor (h : c.Holds ks) : c.StandsFor ks where
  next_after n := by rw [(h.after n).next_eq.1, List.head?_drop]
  sizeHint_after n := by rw [Cursor.sizeHint, (h.after n).remaining_eq, List.length_drop]

end Cursor.Holds

theorem TerminalSet.Built.holds_cursor {s : TerminalSet} (h : s.Built) :
    s.cursor.Holds s.memberList where
  represents := by
    have same : s.memberList.toFinset = s.members := by
      ext k
      simp
    exact same ▸ h.represents
  ascending := TerminalSet.ascending_memberList

namespace CursorStack

/-- The stack after some steps. -/
def run (c : CursorStack) : List CursorStep → CursorStack
  | [] => c
  | a :: rest => (c.step a).2.run rest

def cursors (c : CursorStack) : List Cursor := c.top :: c.below

theorem run_append (c : CursorStack) (before after : List CursorStep) :
    c.run (before ++ after) = (c.run before).run after := by
  induction before generalizing c with
  | nil => rfl
  | cons a before ih => exact ih (c.step a).2

end CursorStack

/-- Lists of which only the top one gets shorter. There is always one. -/
structure ListStack where
  top : List Terminal
  below : List (List Terminal)
deriving DecidableEq, Repr

namespace ListStack

def single (ks : List Terminal) : ListStack := ⟨ks, []⟩

def lists (l : ListStack) : List (List Terminal) := l.top :: l.below

/-- What a stack answers whose cursors go through these lists. -/
def step (l : ListStack) : CursorStep → CursorAnswer × ListStack
  | .next => (.next l.top.head?, ⟨l.top.tail, l.below⟩)
  | .sizeHint => (.sizeHint l.top.length (some l.top.length), l)
  | .rest => (.rest l.top, l)
  | .push => (.height (l.below.length + 2), ⟨l.top, l.top :: l.below⟩)
  | .pop =>
    match l.below with
    | [] => (.height 1, l)
    | ks :: rest => (.height (rest.length + 1), ⟨ks, rest⟩)

def answers (l : ListStack) : List CursorStep → List CursorAnswer
  | [] => []
  | a :: rest => (l.step a).1 :: (l.step a).2.answers rest

def run (l : ListStack) : List CursorStep → ListStack
  | [] => l
  | a :: rest => (l.step a).2.run rest

end ListStack

/-- Each cursor holds the list at its height. -/
structure CursorStack.Follows (c : CursorStack) (l : ListStack) : Prop where
  top : c.top.Holds l.top
  below : List.Forall₂ Cursor.Holds c.below l.below

namespace CursorStack.Follows

variable {c : CursorStack} {l : ListStack}

theorem step (h : c.Follows l) (a : CursorStep) :
    (c.step a).1 = (l.step a).1 ∧ (c.step a).2.Follows (l.step a).2 := by
  obtain ⟨t, cs⟩ := c
  obtain ⟨ks, ls⟩ := l
  obtain ⟨top, below⟩ := h
  cases a with
  | next =>
    obtain ⟨head, tail⟩ := top.next_eq
    exact ⟨congrArg CursorAnswer.next head, tail, below⟩
  | sizeHint =>
    refine ⟨?_, top, below⟩
    simp only [CursorStack.step, ListStack.step, Cursor.sizeHint, top.remaining_eq]
  | rest => exact ⟨congrArg CursorAnswer.rest top.toList_eq, top, below⟩
  | push =>
    refine ⟨?_, top, .cons top below⟩
    simp only [CursorStack.step, ListStack.step, CursorStack.height, CursorStack.push,
      List.length_cons, below.length_eq]
  | pop =>
    cases below with
    | nil => exact ⟨rfl, top, .nil⟩
    | cons next below =>
      refine ⟨?_, next, below⟩
      simp only [CursorStack.step, ListStack.step, CursorStack.height, CursorStack.pop,
        below.length_eq]

theorem run (h : c.Follows l) (steps : List CursorStep) :
    c.answers steps = l.answers steps ∧ (c.run steps).Follows (l.run steps) := by
  induction steps generalizing c l with
  | nil => exact ⟨rfl, h⟩
  | cons a steps ih =>
    obtain ⟨answer, follows⟩ := h.step a
    obtain ⟨answers, final⟩ := ih follows
    exact ⟨List.cons_eq_cons.mpr ⟨answer, answers⟩, final⟩

theorem forall₂_standsFor (h : c.Follows l) :
    List.Forall₂ Cursor.StandsFor c.cursors l.lists :=
  (List.Forall₂.cons h.top h.below).imp fun _ _ holds => holds.standsFor

end CursorStack.Follows

/-- No list of the stack is anything but a suffix of one whole list. -/
theorem ListStack.suffix_step {l : ListStack} {whole : List Terminal}
    (h : ∀ ks ∈ l.lists, ks <:+ whole) (a : CursorStep) :
    ∀ ks ∈ (l.step a).2.lists, ks <:+ whole := by
  obtain ⟨top, below⟩ := l
  obtain ⟨htop, hbelow⟩ := List.forall_mem_cons.mp h
  cases a with
  | next => exact List.forall_mem_cons.mpr ⟨(List.tail_suffix top).trans htop, hbelow⟩
  | sizeHint => exact h
  | rest => exact h
  | push => exact List.forall_mem_cons.mpr ⟨htop, h⟩
  | pop =>
    cases below with
    | nil => exact h
    | cons ks below => exact hbelow

theorem ListStack.suffix_run {l : ListStack} {whole : List Terminal}
    (h : ∀ ks ∈ l.lists, ks <:+ whole) (steps : List CursorStep) :
    ∀ ks ∈ (l.run steps).lists, ks <:+ whole := by
  induction steps generalizing l with
  | nil => exact h
  | cons a steps ih => exact ih (suffix_step h a)

/-- Steps that drop the copies they make and no other cursor. -/
inductive CursorStep.Balanced : List CursorStep → Prop
  | nil : Balanced []
  | stay {a : CursorStep} {after : List CursorStep} (copies : a ≠ .push) (drops : a ≠ .pop) :
      Balanced after → Balanced (a :: after)
  | copy {inner after : List CursorStep} :
      Balanced inner → Balanced after → Balanced (.push :: (inner ++ .pop :: after))

namespace CursorStack

theorem below_step (c : CursorStack) {a : CursorStep} (copies : a ≠ .push) (drops : a ≠ .pop) :
    (c.step a).2.below = c.below := by
  cases a with
  | next => rfl
  | sizeHint => rfl
  | rest => rfl
  | push => exact absurd rfl copies
  | pop => exact absurd rfl drops

theorem pop_eq {c d : CursorStack} (h : c.below = d.cursors) : c.pop = d := by
  simp only [pop, h, cursors]

/-- Whatever balanced steps do to the top cursor, they leave the others as they are. -/
theorem below_run (c : CursorStack) {steps : List CursorStep} (h : CursorStep.Balanced steps) :
    (c.run steps).below = c.below := by
  induction h generalizing c with
  | nil => rfl
  | stay copies drops _ ih => exact (ih _).trans (c.below_step copies drops)
  | @copy inner after _ _ inside later =>
    -- Under the copy lie the cursor that was copied and all that was under it.
    have back : (c.push.run inner).pop = c := pop_eq (inside c.push)
    change (c.push.run (inner ++ .pop :: after)).below = c.below
    rw [run_append]
    change ((c.push.run inner).pop.run after).below = c.below
    rw [back, later]

end CursorStack

/-- A cursor that stands for a list answers none for ever once it does so, and only when it has
said that nothing is left. -/
theorem Cursor.StandsFor.ends {c : Cursor} {ks : List Terminal} (h : c.StandsFor ks) :
    (c.next.1 = none → ∀ n, (c.after n).next.1 = none) ∧ (0 < c.sizeHint.1 → c.next.1 ≠ none) := by
  have first : c.next.1 = ks[0]? := h.next_after 0
  have hint : c.sizeHint = (ks.length, some ks.length) := h.sizeHint_after 0
  refine ⟨fun none n => ?_, fun left none => ?_⟩
  · rw [first, List.getElem?_eq_none_iff] at none
    rw [h.next_after n, List.getElem?_eq_none (by omega)]
  · rw [first, List.getElem?_eq_none_iff] at none
    rw [hint] at left
    exact Nat.not_lt.mpr none left

/-- Whatever is asked of a stack of cursors over a set, each of them stands for a suffix of the
members, the answers are those that the suffixes give, and what is done with a copy is not seen in
the cursor that was copied. -/
theorem cursors_stand_for_suffixes {s : TerminalSet} (built : s.Built) (steps : List CursorStep) :
    List.Forall₂ Cursor.StandsFor ((CursorStack.ofSet s).run steps).cursors
      ((ListStack.single s.memberList).run steps).lists ∧
    (∀ ks ∈ ((ListStack.single s.memberList).run steps).lists, ks <:+ s.memberList) ∧
    (CursorStack.ofSet s).answers steps = (ListStack.single s.memberList).answers steps ∧
    (∀ c ∈ ((CursorStack.ofSet s).run steps).cursors,
      (c.next.1 = none → ∀ n, (c.after n).next.1 = none) ∧
      (0 < c.sizeHint.1 → c.next.1 ≠ none)) ∧
    ∀ inner, CursorStep.Balanced inner →
      ((CursorStack.ofSet s).run (steps ++ .push :: inner)).below =
        ((CursorStack.ofSet s).run steps).cursors ∧
      (CursorStack.ofSet s).run (steps ++ .push :: (inner ++ [.pop])) =
        (CursorStack.ofSet s).run steps := by
  have start : (CursorStack.ofSet s).Follows (.single s.memberList) := ⟨built.holds_cursor, .nil⟩
  obtain ⟨answers, follows⟩ := start.run steps
  have stands := follows.forall₂_standsFor
  have ends := (List.forall₂_and_left _ _).mp (stands.imp fun _ _ h => ⟨h.ends, h⟩)
  refine ⟨stands, ListStack.suffix_run (by simp [ListStack.lists, ListStack.single]) steps, answers,
    ends.1, fun inner balanced => ?_⟩
  have kept := CursorStack.below_run ((CursorStack.ofSet s).run steps).push balanced
  refine ⟨?_, ?_⟩
  · rw [CursorStack.run_append]
    exact kept
  · rw [CursorStack.run_append]
    change CursorStack.run _ (inner ++ [.pop]) = _
    rw [CursorStack.run_append]
    exact CursorStack.pop_eq kept

def commaAndEnd : TerminalSet := .ofList [.comma, .END]

theorem pair_walked_in_copies :
    commaAndEnd.Built ∧ CursorStep.Balanced [.next, .next] ∧
    (CursorStack.ofSet commaAndEnd).answers [.next, .push, .next, .next, .pop, .next] =
      [.next (some .END), .height 2, .next (some .comma), .next none, .height 1,
        .next (some .comma)] ∧
    (CursorStack.ofSet commaAndEnd).run ([.next] ++ .push :: ([.next, .next] ++ [.pop])) =
      (CursorStack.ofSet commaAndEnd).run [.next] ∧
    ((CursorStack.ofSet commaAndEnd).run [.next, .next]).top.next.1 = none ∧
    ∀ n, (((CursorStack.ofSet commaAndEnd).run [.next, .next]).top.after n).next.1 = none := by
  have built : commaAndEnd.Built := .ofList _
  have balanced : CursorStep.Balanced [.next, .next] :=
    .stay (by decide) (by decide) (.stay (by decide) (by decide) .nil)
  have spent : ((CursorStack.ofSet commaAndEnd).run [.next, .next]).top.next.1 = none := by decide
  obtain ⟨_, _, answers, _⟩ :=
    cursors_stand_for_suffixes built [.next, .push, .next, .next, .pop, .next]
  obtain ⟨_, _, _, _, copies⟩ := cursors_stand_for_suffixes built [.next]
  obtain ⟨_, _, _, ends, _⟩ := cursors_stand_for_suffixes built [.next, .next]
  exact ⟨built, balanced, answers.trans (by decide), (copies _ balanced).2, spent,
    (ends _ List.mem_cons_self).1 spent⟩

end PanicMode
