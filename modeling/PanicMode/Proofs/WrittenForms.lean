import Mathlib.Data.List.Forall2
import Mathlib.Data.String.Basic
import PanicMode.Proofs.Spellings

namespace PanicMode

/-- The second character is the first one, made a capital letter if it is one from a to z. -/
def Capital (c d : Char) : Prop :=
  if 'a' ≤ c ∧ c ≤ 'z' then d.toNat + 32 = c.toNat else d = c

/-- The characters differ at most in the case of a letter. -/
def SameLetter (c d : Char) : Prop := ∃ u, Capital c u ∧ Capital d u

/-- The texts that write a terminal: its spelling, and if it is a reserved word the same letters in
any case. -/
inductive Terminal.WrittenAs (k : Terminal) (text : String) : Prop
  | reserved (word : k.isReserved = true) (size : text.utf8ByteSize = k.spelling.utf8ByteSize)
      (letters : List.Forall₂ Capital text.toList k.spelling.toList)
  | exact (other : k.isReserved = false) (same : text = k.spelling)

section

variable {c d : Char}

theorem small_iff : ('a' ≤ c ∧ c ≤ 'z') ↔ 97 ≤ c.toNat ∧ c.toNat ≤ 122 := by
  rw [Char.le_def, Char.le_def, UInt32.le_iff_toNat_le, UInt32.le_iff_toNat_le]
  rfl

theorem toNat_toUpper_of_small (h : 'a' ≤ c ∧ c ≤ 'z') : c.toUpper.toNat + 32 = c.toNat := by
  have bounds := small_iff.mp h
  have shift : ('A'.val - 'a'.val).toNat = 2 ^ 32 - 32 := rfl
  unfold Char.toUpper
  split
  next =>
    rw [Char.toNat_mk, UInt32.toNat_add, shift, Char.toNat_val]
    omega
  next other => exact absurd h other

theorem toUpper_of_not_small (h : ¬('a' ≤ c ∧ c ≤ 'z')) : c.toUpper = c := dif_neg h

theorem capital_iff : Capital c d ↔ c.toUpper = d := by
  unfold Capital
  split
  next small =>
    have capital := toNat_toUpper_of_small small
    rw [← Char.toNat_inj]
    omega
  next other => rw [toUpper_of_not_small other, eq_comm]

theorem sameLetter_iff : SameLetter c d ↔ c.toUpper = d.toUpper := by
  simp only [SameLetter, capital_iff]
  refine ⟨fun h => ?_, fun same => ⟨_, same, rfl⟩⟩
  obtain ⟨u, hc, hd⟩ := h
  rw [hc, hd]

/-- Small and capital letters take one byte each. -/
theorem Capital.utf8Size_eq (h : Capital c d) : c.utf8Size = d.utf8Size := by
  unfold Capital at h
  split at h
  next small =>
    have bounds := small_iff.mp small
    have short : ∀ b : Char, b.toNat ≤ 127 → b.utf8Size = 1 := by
      intro b hb
      exact if_pos ((UInt32.le_iff_toNat_le (b := 127)).mpr hb)
    rw [short c (by omega), short d (by omega)]
  next => rw [h]

theorem Capital.ascii (h : Capital c d) (hd : d.toNat < 128) : c.toNat < 128 := by
  unfold Capital at h
  split at h
  next small =>
    have bounds := small_iff.mp small
    omega
  next => rwa [← h]

end

section

variable {cs ds : List Char}

theorem forall₂_iff_map_eq {R : Char → Char → Prop} {f g : Char → Char}
    (h : ∀ c d, R c d ↔ f c = g d) : List.Forall₂ R cs ds ↔ cs.map f = ds.map g := by
  have equal : List.Forall₂ (· = ·) (cs.map f) (ds.map g) ↔ cs.map f = ds.map g := by
    rw [List.forall₂_eq_eq_eq]
  rw [← equal, List.forall₂_map_left_iff, List.forall₂_map_right_iff]
  exact ⟨.imp fun c d => (h c d).mp, .imp fun c d => (h c d).mpr⟩

theorem forall₂_capital_iff : List.Forall₂ Capital cs ds ↔ cs.map Char.toUpper = ds := by
  have images : List.Forall₂ Capital cs ds ↔ cs.map Char.toUpper = ds.map id :=
    forall₂_iff_map_eq fun _ _ => capital_iff
  rw [images, List.map_id]

theorem forall₂_sameLetter_iff :
    List.Forall₂ SameLetter cs ds ↔ cs.map Char.toUpper = ds.map Char.toUpper :=
  forall₂_iff_map_eq fun _ _ => sameLetter_iff

theorem utf8Len_eq_of_forall₂_capital (h : List.Forall₂ Capital cs ds) :
    String.utf8Len cs = String.utf8Len ds := by
  induction h with
  | nil => rfl
  | cons first _ ih => rw [String.utf8Len_cons, String.utf8Len_cons, ih, first.utf8Size_eq]

theorem ascii_of_forall₂_capital (h : List.Forall₂ Capital cs ds) (hd : ∀ d ∈ ds, d.toNat < 128) :
    ∀ c ∈ cs, c.toNat < 128 := by
  induction h with
  | nil => simp
  | cons first _ ih =>
    obtain ⟨hd, hds⟩ := List.forall_mem_cons.mp hd
    exact List.forall_mem_cons.mpr ⟨first.ascii hd, ih hds⟩

end

namespace Terminal

variable {k l : Terminal} {text other : String}

theorem map_toUpper_spelling (word : k.isReserved = true) :
    k.spelling.toList.map Char.toUpper = k.spelling.toList := by
  revert word
  cases k <;> decide +kernel

theorem ascii_spelling (k : Terminal) : ∀ c ∈ k.spelling.toList, c.toNat < 128 := by
  have checked : k.spelling.toList.all (fun c => decide (c.toNat < 128)) = true := by
    cases k <;> decide +kernel
  exact fun c hc => of_decide_eq_true (List.all_eq_true.mp checked c hc)

theorem isWrittenAs_iff : k.isWrittenAs text = true ↔ k.WrittenAs text := by
  unfold isWrittenAs
  split
  next word =>
    rw [sameUpToCase_iff, map_toUpper_spelling word, eq_comm, ← forall₂_capital_iff]
    refine ⟨fun letters => .reserved word ?_ letters, fun h => ?_⟩
    · rw [← String.utf8Len_toList, ← String.utf8Len_toList, utf8Len_eq_of_forall₂_capital letters]
    · cases h with
      | reserved _ _ letters => exact letters
      | exact exact _ => exact absurd word (by simp [exact])
  next word =>
    have exact := Bool.eq_false_iff.mpr word
    rw [beq_iff_eq]
    refine ⟨fun same => .exact exact same.symm, fun h => ?_⟩
    cases h with
    | reserved reserved => exact absurd reserved word
    | exact _ same => exact same.symm

theorem WrittenAs.ascii (h : k.WrittenAs text) : ∀ c ∈ text.toList, c.toNat < 128 := by
  cases h with
  | reserved _ _ letters => exact ascii_of_forall₂_capital letters k.ascii_spelling
  | exact _ same => exact same ▸ k.ascii_spelling

theorem find?_isWrittenAs {order : List Terminal} (complete : ∀ k, k ∈ order) :
    order.find? (·.isWrittenAs text) = ofSpelling? text := by
  ext k
  rw [find?_isWrittenAs_eq_some_iff complete, ofSpelling?_eq_some_iff]

end Terminal

/-- A text writes a terminal if it is the spelling, or the spelling of a reserved word in letters of
any case. No text writes two terminals, and none beyond ASCII writes any. -/
theorem written_forms_decided (text : String) :
    (∀ k, Terminal.ofSpelling? text = some k ↔ k.WrittenAs text) ∧
    (∀ k l : Terminal, k.WrittenAs text → l.WrittenAs text → k = l) ∧
    (∀ order : List Terminal, (∀ k, k ∈ order) →
      order.find? (·.isWrittenAs text) = Terminal.ofSpelling? text) ∧
    (∀ k, Terminal.ofSpelling? text = some k → k.isReserved = true →
      ∀ other : String, List.Forall₂ SameLetter text.toList other.toList →
        Terminal.ofSpelling? other = some k) ∧
    ((∃ c ∈ text.toList, 128 ≤ c.toNat) → Terminal.ofSpelling? text = none) := by
  have decides : ∀ k, Terminal.ofSpelling? text = some k ↔ k.WrittenAs text :=
    fun k => Terminal.ofSpelling?_eq_some_iff.trans Terminal.isWrittenAs_iff
  refine ⟨decides, fun k l hk hl => ?_, fun order complete => Terminal.find?_isWrittenAs complete,
    fun k hk word other same => ?_, fun foreign => ?_⟩
  · exact Terminal.eq_of_isWrittenAs (Terminal.isWrittenAs_iff.mpr hk)
      (Terminal.isWrittenAs_iff.mpr hl)
  · exact Terminal.ofSpelling?_of_sameUpToCase hk word
      (sameUpToCase_iff.mpr (forall₂_sameLetter_iff.mp same))
  · obtain ⟨c, hc, beyond⟩ := foreign
    rw [Option.eq_none_iff_forall_ne_some]
    intro k hk
    exact Nat.not_lt.mpr beyond (((decides k).mp hk).ascii c hc)

theorem while_written_in_any_case :
    Terminal.ofSpelling? "wHiLe" = some .WHILE ∧ Terminal.WHILE.WrittenAs "wHiLe" ∧
    (∀ k : Terminal, k.WrittenAs "wHiLe" → k = .WHILE) ∧
    (∀ k, k ∈ Terminal.all.reverse) ∧
    Terminal.all.reverse.find? (·.isWrittenAs "wHiLe") = some .WHILE ∧
    Terminal.WHILE.isReserved = true ∧
    List.Forall₂ SameLetter "wHiLe".toList "WhIlE".toList ∧
    Terminal.ofSpelling? "WhIlE" = some .WHILE ∧
    (∃ c ∈ "EL\u017fE".toList, 128 ≤ c.toNat) ∧ Terminal.ofSpelling? "EL\u017fE" = none := by
  have found : Terminal.ofSpelling? "wHiLe" = some .WHILE := by decide +kernel
  have complete : ∀ k, k ∈ Terminal.all.reverse := fun k => List.mem_reverse.mpr k.mem_all
  have same : List.Forall₂ SameLetter "wHiLe".toList "WhIlE".toList :=
    forall₂_sameLetter_iff.mpr (by decide +kernel)
  have foreign : ∃ c ∈ "EL\u017fE".toList, 128 ≤ c.toNat :=
    ⟨'\u017f', by decide +kernel, by decide⟩
  obtain ⟨decides, unique, order, cases, _⟩ := written_forms_decided "wHiLe"
  have written := (decides .WHILE).mp found
  obtain ⟨_, _, _, _, refused⟩ := written_forms_decided "EL\u017fE"
  exact ⟨found, written, fun k hk => unique k .WHILE hk written, complete,
    (order _ complete).trans found, rfl, same, cases .WHILE found rfl _ same, foreign,
    refused foreign⟩

end PanicMode
